import LSystem.Document.Rules
import LSystem.Proofs.Json.Records
import Mathlib.Data.List.Forall2

/-! Rules and rulebooks are read from objects with a member for each field or for each rule. A rule may leave out the
switches that are off, its fields come in any order, and other members may stand among them; in a rulebook the symbols
may be spelled in any way and come more than once. So rules and rulebooks come back from what is written for them,
whatever characters stand in their symbols and successors. -/

namespace LSystem

open Json

namespace Rule

variable {rule : Rule} {members : List Member} {names : List String}

/-- The rule with the fields of some names taken from another rule. -/
def overlay (base given : Rule) (names : List String) : Rule where
  successor := if "replacement" ∈ names then given.successor else base.successor
  active := if "active" ∈ names then given.active else base.active
  draws := if "drawing" ∈ names then given.draws else base.draws
  mandatory := if "mandatory" ∈ names then given.mandatory else base.mandatory

/-- Each field is read from what is written for it, and reading it first or having its name in front of the others
comes to the same. -/
theorem carries_field (given : Rule) : ∀ field ∈ record.fields,
    ∃ update, field.Carries (field.writer given) update ∧
      ∀ base names, overlay (update base) given names = overlay base given (field.name :: names) := by
  simp only [record, List.forall_mem_cons]
  refine ⟨?_, ?_, ?_, ?_, fun _ h => nomatch h⟩
  · refine ⟨_, Field.carries_of (roundTrips_string _ given.successor), fun base names => ?_⟩
    simp [overlay, Field.string, Field.of]
  · refine ⟨_, (Field.carries_of (roundTrips_boolean given.active)).optional, fun base names => ?_⟩
    simp [overlay, Field.optional, Field.boolean, Field.of]
  · refine ⟨_, (Field.carries_of (roundTrips_boolean given.draws)).optional, fun base names => ?_⟩
    simp [overlay, Field.optional, Field.boolean, Field.of]
  · refine ⟨_, (Field.carries_of (roundTrips_boolean given.mandatory)).optional, fun base names => ?_⟩
    simp [overlay, Field.optional, Field.boolean, Field.of]

theorem overlay_nil (base given : Rule) : overlay base given [] = base := rfl

/-- The members of an object are a rule: they hold fields of the rule, each at most once, and none is missing but
switches that are off. -/
structure Shown (rule : Rule) (members : List Member) (names : List String) : Prop where
  holds : record.Holds rule members names
  nodup : names.Nodup
  successor : "replacement" ∈ names
  active : rule.active = true → "active" ∈ names
  draws : rule.draws = true → "drawing" ∈ names
  mandatory : rule.mandatory = true → "mandatory" ∈ names

theorem shown_written (rule : Rule) :
    rule.Shown (record.fields.map (Field.member rule)) (record.fields.map Field.name) where
  holds := Record.holds_written rule fun _ hfield => hfield
  nodup := by decide
  successor := by decide
  active _ := by decide
  draws _ := by decide
  mandatory _ := by decide

theorem Shown.overlay_eq (h : rule.Shown members names) : overlay record.blank rule names = rule := by
  have hswitch : ∀ {on : Bool} {name : String}, (on = true → name ∈ names) →
      (if name ∈ names then on else false) = on := by
    intro on name hname
    cases on with
    | true => rw [if_pos (hname rfl)]
    | false => exact ite_self _
  calc overlay record.blank rule names
      = ⟨rule.successor, if "active" ∈ names then rule.active else false,
          if "drawing" ∈ names then rule.draws else false,
          if "mandatory" ∈ names then rule.mandatory else false⟩ := by
        rw [overlay, if_pos h.successor]
        rfl
    _ = rule := by rw [hswitch h.active, hswitch h.draws, hswitch h.mandatory]

theorem Shown.read (h : rule.Shown members names) (before inside : Gap) (rest : List Char) :
    record.reader.read (objectText before inside members rest) = .ok (rule, rest) := by
  have hloads := h.holds.loads (overlay_nil · rule) (carries_field rule) record.blank
  rw [h.overlay_eq] at hloads
  have hrequired : ∀ field ∈ record.fields, field.required = true → field.name ∈ names := by
    intro field hfield hneeded
    have hone : ∀ field ∈ record.fields, field.required = true → field.name = "replacement" := by decide
    rw [hone field hfield hneeded]
    exact h.successor
  exact Record.read_of_loads hloads (by decide) h.nodup hrequired before inside rest

end Rule

namespace Rulebook

/-- A member of an object is an entry of a rulebook: its key spells the symbol, and its value is the rule. -/
def Shows (m : Member) (entry : Char × Rule) : Prop :=
  Spells m.key [entry.1] ∧ ∃ members names inside,
    entry.2.Shown members names ∧ m.value = objectText .none inside members

/-- A rule as a member of its book. -/
def entryMember (entry : Char × Rule) : Member := .plain [entry.1] (Rule.record.writer entry.2)

theorem shows_entryMember (entry : Char × Rule) : Shows (entryMember entry) entry := by
  refine ⟨Reader.spells_written _, _, _, .none, entry.2.shown_written, ?_⟩
  funext rest
  exact Rule.record.writer_eq entry.2 rest

theorem shows_entryMembers (entries : List (Char × Rule)) :
    List.Forall₂ Shows (entries.map entryMember) entries :=
  List.forall₂_map_left_iff.2 (List.forall₂_same.2 fun entry _ => shows_entryMember entry)

theorem accepts_of_shows {m : Member} {entry : Char × Rule} (h : Shows m entry) (map : RuleMap) :
    Reader.Accepts member map m (map.insert entry.1 entry.2) := by
  obtain ⟨hkey, members, names, inside, hrule, hvalue⟩ := h
  refine ⟨[entry.1], hkey, fun rest _ => ?_⟩
  show (Reader.punctuation ':' >>= fun _ => Rule.record.reader >>= fun rule => return map.insert entry.1 rule).read
    (m.behind ++ ':' :: (m.inside ++ m.value rest)) = _
  rw [Reader.read_bind_of_ok (Reader.read_punctuation m.behind (by decide) _), hvalue]
  exact Reader.read_bind_of_ok (hrule.read m.inside inside rest) _

/-- Every member adds its rule to those before it. -/
theorem run_of_shows {members : List Member} {entries : List (Char × Rule)} (h : List.Forall₂ Shows members entries)
    (map : RuleMap) : Reader.Run member map members (map.insertMany entries) := by
  induction h generalizing map with
  | nil =>
      rw [Std.ExtTreeMap.insertMany_nil]
      exact .nil
  | cons hfirst _ ih =>
      rw [Std.ExtTreeMap.insertMany_cons]
      exact .cons (accepts_of_shows hfirst map) (ih _)

/-- An object is read as the map of its entries, which is then looked through for control symbols. -/
theorem read_of_shows {members : List Member} {entries : List (Char × Rule)} (h : List.Forall₂ Shows members entries)
    (before inside : Gap) (rest : List Char) :
    reader.read (objectText before inside members rest) = (guarded (.ofList entries)).read rest := by
  have hrun := run_of_shows h ∅
  rw [← Std.ExtTreeMap.ofList_eq_insertMany_empty] at hrun
  refine (Reader.read_opened (Reader.members member ∅ >>= guarded) _ before _).trans ?_
  exact Reader.read_bind_of_ok (Reader.read_members hrun inside rest) _

/-- A book is made up of its entries again, since no symbol is listed twice. -/
theorem ofList_toList (book : Rulebook) : (Std.ExtTreeMap.ofList book.toList : RuleMap) = book.map := by
  apply Std.ExtTreeMap.ext_getElem?
  intro symbol
  cases hrule : book.map[symbol]? with
  | none =>
      refine Std.ExtTreeMap.getElem?_ofList_of_contains_eq_false ?_
      rw [toList, Std.ExtTreeMap.map_fst_toList_eq_keys, Bool.eq_false_iff, Ne, List.contains_iff_mem,
        Std.ExtTreeMap.mem_keys, ← Std.ExtTreeMap.isSome_getElem?_iff_mem, hrule]
      exact Bool.false_ne_true
  | some rule =>
      exact Std.ExtTreeMap.getElem?_ofList_of_mem Std.ReflCmp.compare_self Std.ExtTreeMap.distinct_keys_toList
        (Std.ExtTreeMap.mem_toList_iff_getElem?_eq_some.mpr hrule)

/-- The map of a book is taken as it is. -/
theorem ofMap_map (book : Rulebook) : ofMap book.map = .ok book := by
  unfold ofMap
  split
  · next symbol hfound =>
      have hmem : symbol ∈ book.map := Std.ExtTreeMap.mem_keys.1 (List.mem_of_find?_eq_some hfound)
      have hnone := book.controlFree symbol (List.find?_some hfound)
      rw [← Std.ExtTreeMap.isSome_getElem?_iff_mem, hnone] at hmem
      cases hmem
  · rfl

theorem writer_eq (book : Rulebook) (rest : List Char) :
    writer book rest = objectText .none .none (book.toList.map entryMember) rest := by
  rw [writer, object_eq, List.map_map]
  rfl

theorem roundTrips (book : Rulebook) : RoundTrips reader writer book := by
  intro gap rest _
  rw [writer_eq]
  refine (read_of_shows (shows_entryMembers book.toList) gap .none rest).trans ?_
  rw [ofList_toList, guarded, ofMap_map]
  rfl

/-- A rulebook is read back from its document. -/
theorem ofText_text (book : Rulebook) : ofText book.text = .ok book :=
  (roundTrips book).document

end Rulebook

end LSystem
