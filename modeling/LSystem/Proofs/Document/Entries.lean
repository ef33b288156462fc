import LSystem.Document.Wording
import LSystem.Proofs.Document.Rules
import LSystem.Proofs.Document.Sessions
import Mathlib.Data.Finset.Max

/-! The ways from a list of entries to a rulebook: its rules are added one after the other, collected, taken as a whole
map, or read from a document. The last rule for a symbol counts on each of these ways, and no rule for a control symbol
gets in on any. Adding and collecting pass such a rule over; a map or a document with one is refused as a whole, for
the least control symbol that it has, wherever the list has it. -/

namespace LSystem

open Json

namespace Rulebook

variable {entries : List (Char × Rule)} {symbol : Char} {rule : Rule}

/-! ### One after the other -/

theorem edited_insert_of_control (hcontrol : Symbol.isControl symbol = true) (book : Rulebook) (rule : Rule) :
    book.edited (.insert symbol rule) = book :=
  edited_of_error (edit_eq_error_iff.2 (.insert rule hcontrol))

theorem map_edited_insert (hcontrol : Symbol.isControl symbol = false) (book : Rulebook) (rule : Rule) :
    (book.edited (.insert symbol rule)).map = book.map.insert symbol rule := by
  have hfree : ¬Symbol.isControl symbol = true := Bool.eq_false_iff.1 hcontrol
  have hedit : book.edit (.insert symbol rule) =
      .ok ⟨book.map.insert symbol rule, book.controlFree.insert hfree rule⟩ := by
    rw [edit, insert, dif_neg hfree]
    rfl
  rw [edited_of_ok hedit]

/-- Rules that are added one by one are added to the map of the book, but for those that are refused. -/
theorem map_foldl_edited_insert (book : Rulebook) (entries : List (Char × Rule)) :
    ((entries.map fun entry => Edit.insert entry.1 entry.2).foldl edited book).map =
      book.map.insertMany (entries.filter fun entry => !Symbol.isControl entry.1) := by
  induction entries generalizing book with
  | nil => rw [List.filter_nil, Std.ExtTreeMap.insertMany_nil, List.map_nil, List.foldl_nil]
  | cons entry entries ih =>
      rw [List.map_cons, List.foldl_cons]
      cases hcontrol : Symbol.isControl entry.1 with
      | true => rw [edited_insert_of_control hcontrol, ih, List.filter_cons_of_neg (by simp [hcontrol])]
      | false =>
          rw [ih, map_edited_insert hcontrol, List.filter_cons_of_pos (by simp [hcontrol]),
            Std.ExtTreeMap.insertMany_cons]

theorem session_inserts (entries : List (Char × Rule)) :
    session (entries.map fun entry => .insert entry.1 entry.2) = collect entries := by
  apply ext_map
  rw [session, map_foldl_edited_insert]
  exact Std.ExtTreeMap.ofList_eq_insertMany_empty.symm

/-! ### As a map -/

theorem mem_ofList_iff : symbol ∈ (.ofList entries : RuleMap) ↔ symbol ∈ entries.map (·.1) := by
  rw [Std.ExtTreeMap.mem_ofList, List.contains_iff_mem]

theorem ofMap_ofList_of_free (h : ∀ entry ∈ entries, Symbol.isControl entry.1 = false) :
    ofMap (.ofList entries) = .ok (collect entries) := by
  have hall : entries.filter (fun entry => !Symbol.isControl entry.1) = entries := by
    rw [List.filter_eq_self]
    intro entry hmem
    rw [h entry hmem]
    rfl
  have hmap : (collect entries).map = .ofList entries := congrArg (Std.ExtTreeMap.ofList · compare) hall
  rw [← hmap]
  exact ofMap_map (collect entries)

theorem ofMap_ofList_eq_error_iff {key : ControlKey} :
    ofMap (.ofList entries) = .error key ↔
      IsLeast {key | key ∈ entries.map (·.1) ∧ Symbol.isControl key = true} key.symbol := by
  simp only [ofMap_eq_error_iff, mem_ofList_iff]

/-- A list with a control symbol has a least one. -/
theorem exists_isLeast (h : ∃ entry ∈ entries, Symbol.isControl entry.1 = true) :
    ∃ symbol, IsLeast {key | key ∈ entries.map (·.1) ∧ Symbol.isControl key = true} symbol := by
  obtain ⟨entry, hmem, hcontrol⟩ := h
  let controls := (entries.map (·.1)).toFinset.filter fun key => Symbol.isControl key = true
  have hnonempty : controls.Nonempty :=
    ⟨entry.1, Finset.mem_filter.2 ⟨List.mem_toFinset.2 (List.mem_map_of_mem hmem), hcontrol⟩⟩
  refine ⟨controls.min' hnonempty, ?_⟩
  simpa [controls] using controls.isLeast_min' hnonempty

/-! ### As a document -/

theorem ofText_of_shows {members : List Member} (h : List.Forall₂ Shows members entries) (before inside after : Gap) :
    ofText (objectText before inside members after) =
      (ofMap (.ofList entries)).mapError fun key => .mismatch (.refused key.message) := by
  have hread := read_of_shows h before inside after
  cases hmap : ofMap (.ofList entries) with
  | ok book =>
      refine Reader.document_of_read after (hread.trans ?_)
      rw [guarded, hmap]
      rfl
  | error key =>
      rw [guarded, hmap] at hread
      rw [ofText, Reader.document, hread]
      rfl

end Rulebook

/-- **All ways to a rulebook agree.** Adding the rules of a list one after the other, and passing over those that are
refused, gives the book that collecting the list gives: without the rules for control symbols, and with the last of
several rules for one symbol. If there are no rules for control symbols, the map of the list and any document with its
entries in this order give the same book. If there are some, the map and the document are refused for the least of
their symbols, wherever it stands. -/
theorem entries_agree (entries : List (Char × Rule)) :
    Rulebook.session (entries.map fun entry => .insert entry.1 entry.2) = Rulebook.collect entries ∧
    (∀ symbol, (Rulebook.collect entries).get? symbol =
      if Symbol.isControl symbol then none else Rulebook.lookup symbol entries) ∧
    ((∀ entry ∈ entries, Symbol.isControl entry.1 = false) →
      Rulebook.ofMap (.ofList entries) = .ok (Rulebook.collect entries) ∧
      ∀ members, List.Forall₂ Rulebook.Shows members entries → ∀ before inside after : Gap,
        Rulebook.ofText (objectText before inside members after) = .ok (Rulebook.collect entries)) ∧
    ((∃ entry ∈ entries, Symbol.isControl entry.1 = true) →
      ∃ symbol, IsLeast {key | key ∈ entries.map (·.1) ∧ Symbol.isControl key = true} symbol ∧
        Rulebook.ofMap (.ofList entries) = .error ⟨symbol⟩ ∧
        ∀ members, List.Forall₂ Rulebook.Shows members entries → ∀ before inside after : Gap,
          Rulebook.ofText (objectText before inside members after) =
            .error (.mismatch (.refused (Fault.message (.controlKey ⟨symbol⟩))))) := by
  refine ⟨Rulebook.session_inserts entries, Rulebook.get?_collect entries, fun hfree => ?_, fun hsome => ?_⟩
  · have hmap := Rulebook.ofMap_ofList_of_free hfree
    refine ⟨hmap, fun members hmembers before inside after => ?_⟩
    rw [Rulebook.ofText_of_shows hmembers, hmap]
    rfl
  · obtain ⟨symbol, hleast⟩ := Rulebook.exists_isLeast hsome
    have hmap : Rulebook.ofMap (.ofList entries) = .error ⟨symbol⟩ := Rulebook.ofMap_ofList_eq_error_iff.2 hleast
    refine ⟨symbol, hleast, hmap, fun members hmembers before inside after => ?_⟩
    rw [Rulebook.ofText_of_shows hmembers, hmap]
    rfl

/-- Two rules for one symbol, the second with its key escaped, its fields in another order and one switch left out;
then two rules for control symbols, of which the lesser one comes last. -/
theorem entries_agree_of_brackets :
    let rules : List (Char × Rule) := [('X', .rewriting ['F']), ('X', (Rule.rewriting ['X', '"']).drawing)]
    let all := rules ++ [(']', .idle ']'), ('+', .idle '+')]
    Rulebook.session (all.map fun entry => .insert entry.1 entry.2) = Rulebook.collect all ∧
      (Rulebook.collect all).toList = [('X', (Rule.rewriting ['X', '"']).drawing)] ∧
      Rulebook.ofText ("\x7b\"X\":\x7b\"replacement\":\"F\",\"active\":true,\"drawing\":false,\"mandatory\":false\x7d," ++
        "\"\\u0058\" :\x7b\"drawing\":true,\"active\":true,\"replacement\":\"X\\\"\"\x7d\x7d").toList =
          .ok (Rulebook.collect rules) ∧
      Rulebook.ofMap (.ofList all) = .error ⟨'+'⟩ ∧
      Rulebook.ofText (Writer.object (all.map fun entry => ([entry.1], Rule.record.writer entry.2)) []) =
        .error (.mismatch (.refused "'+' is a reserved control symbol and cannot carry a production rule")) := by
  intro rules all
  let second : Rule := (Rule.rewriting ['X', '"']).drawing
  let fields := (Rule.record.fields.take 3).reverse
  have hfields : ∀ field ∈ fields, field ∈ Rule.record.fields :=
    fun field hfield => List.mem_of_mem_take (List.mem_reverse.1 hfield)
  have hshown : second.Shown (fields.map (Field.member second)) (fields.map Field.name) :=
    ⟨Record.holds_written second hfields, by decide, by decide, by decide, by decide, by decide⟩
  let m : Member := ⟨.none, '\\' :: 'u' :: ("0058".toList ++ []), ⟨[' '], List.forall_mem_singleton.2 rfl⟩, .none,
    objectText .none .none (fields.map (Field.member second)), .none⟩
  have hhex : IsHex "0058".toList 0x58 := ⟨rfl, rfl⟩
  have hkey : Spells ('\\' :: 'u' :: ("0058".toList ++ [])) ['X'] := .code hhex (.inl (by decide)) .nil
  have hrules : List.Forall₂ Rulebook.Shows [Rulebook.entryMember ('X', .rewriting ['F']), m] rules :=
    .cons (Rulebook.shows_entryMember _) (.cons ⟨hkey, _, _, .none, hshown, rfl⟩ .nil)
  have hall : List.Forall₂ Rulebook.Shows (all.map Rulebook.entryMember) all :=
    Rulebook.shows_entryMembers all
  have hlower : (all.map (·.1)).all (fun key => '+' ≤ key) = true := by decide
  have hleast : IsLeast {key | key ∈ all.map (·.1) ∧ Symbol.isControl key = true} '+' := by
    refine ⟨⟨by decide, by decide⟩, fun key hkey => ?_⟩
    exact of_decide_eq_true (List.all_eq_true.1 hlower key hkey.1)
  obtain ⟨hsession, -, -, hrefused⟩ := entries_agree all
  obtain ⟨symbol, hsymbol, hmap, hdocument⟩ := hrefused ⟨('+', .idle '+'), by simp [all], rfl⟩
  obtain rfl := hsymbol.unique hleast
  obtain ⟨-, -, hfree, -⟩ := entries_agree rules
  refine ⟨hsession, by decide +kernel, ?_, hmap, ?_⟩
  · refine (congrArg Rulebook.ofText ?_).trans ((hfree (by decide)).2 _ hrules .none .none .none)
    decide +kernel
  · rw [object_eq]
    exact (hdocument _ hall .none .none .none).trans (by decide +kernel)

end LSystem
