import LSystem.Json.Field
import LSystem.Proofs.Json.Floats
import LSystem.Proofs.Json.Members
import LSystem.Proofs.Json.Skipping

/-! Records are read from the members of an object: what comes out is what the updates of its fields make of the
blank record, whatever their order and whatever else stands among them (`Record.read_of_loads`). A record whose
fields can all be read comes back from what is written for it (`Record.roundTrips`). -/

namespace LSystem.Json

/-- The value comes back from what is written for it, wherever that stands. -/
def RoundTrips {β : Type} (reader : Reader β) (writer : Writer β) (value : β) : Prop :=
  ∀ (gap : Gap) (rest : List Char), Parted rest → reader.read (gap ++ writer value rest) = .ok (value, rest)

section

variable {β : Type} {reader : Reader β} {writer : Writer β} {value : β}

theorem RoundTrips.read (h : RoundTrips reader writer value) {rest : List Char} (hrest : Parted rest) :
    reader.read (writer value rest) = .ok (value, rest) := h .none rest hrest

/-- Blanks behind a value do not count. -/
theorem Reader.document_of_read {text : List Char} (after : Gap) (h : reader.read text = .ok (value, after)) :
    Reader.document reader text = .ok value := by
  have hskip := Reader.skipBlanks_append after []
  rw [List.append_nil] at hskip
  rw [Reader.document, h]
  simp only [hskip]
  rfl

theorem RoundTrips.document (h : RoundTrips reader writer value) :
    Reader.document reader (writer value []) = .ok value :=
  Reader.document_of_read .none (h.read parted_nil)

end

section

variable {σ : Type}

/-- The field as a member of what is written for a record. -/
def Field.member (value : σ) (field : Field σ) : Member := .plain field.name.toList (field.writer value)

/-- What is put in the place of the field's value is read as the given update. -/
def Field.Carries (field : Field σ) (value : List Char → List Char) (update : σ → σ) : Prop :=
  ∀ (gap : Gap) (rest : List Char), Parted rest → field.reader.read (gap ++ value rest) = .ok (update, rest)

theorem Field.carries_of {β : Type} {reader : Reader β} {writer : Writer β} {name : String} {get : σ → β}
    {set : β → σ → σ} {state : σ} (h : RoundTrips reader writer (get state)) :
    (Field.of reader writer name get set).Carries (writer (get state)) (set (get state)) := by
  intro gap rest hrest
  exact Reader.read_bind_of_ok (h gap rest hrest) _

theorem Field.Carries.optional {field : Field σ} {value : List Char → List Char} {update : σ → σ}
    (h : field.Carries value update) : field.optional.Carries value update := h

namespace Record

variable {record : Record σ} {value : σ} {seen : List String}

/-- The field of a name is the only one that has it. -/
theorem find?_field (hnames : (record.fields.map Field.name).Nodup) {field : Field σ}
    (hfield : field ∈ record.fields) :
    record.fields.find? (fun other => other.name.toList == field.name.toList) = some field := by
  generalize record.fields = fields at hnames hfield
  induction fields with
  | nil => cases hfield
  | cons first fields ih =>
      rw [List.map_cons, List.nodup_cons] at hnames
      rcases List.mem_cons.mp hfield with rfl | hfield
      · exact List.find?_cons_of_pos (by simp)
      · have hne : first.name ≠ field.name := by
          intro heq
          exact hnames.1 (heq ▸ List.mem_map_of_mem hfield)
        rw [List.find?_cons_of_neg (by simpa [String.toList_inj] using hne)]
        exact ih hnames.2 hfield

theorem accepts_field (hnames : (record.fields.map Field.name).Nodup) {field : Field σ}
    (hfield : field ∈ record.fields) {m : Member} (hkey : Spells m.key field.name.toList) {update : σ → σ}
    (hvalue : field.Carries m.value update) (hunseen : field.name ∉ seen) :
    Reader.Accepts record.member (value, seen) m (update value, field.name :: seen) := by
  refine ⟨field.name.toList, hkey, fun rest hrest => ?_⟩
  rw [member, find?_field hnames hfield]
  simp only
  rw [if_neg (by simpa using hunseen), Reader.read_bind_of_ok (Reader.read_punctuation m.behind (by decide) _),
    Reader.read_bind_of_ok (hvalue m.inside rest hrest)]
  rfl

theorem accepts_foreign {m : Member} {name : List Char} (hkey : Spells m.key name)
    (hname : ∀ field ∈ record.fields, field.name.toList ≠ name) {text : List Char} (htext : Phrase.value.Is text)
    (hvalue : m.value = fun rest => text ++ rest) (state : σ × List String) :
    Reader.Accepts record.member state m state := by
  have hnone : record.fields.find? (fun field => field.name.toList == name) = none := by
    rw [List.find?_eq_none]
    intro field hfield
    simpa using hname field hfield
  refine ⟨name, hkey, fun rest hrest => ?_⟩
  rw [member, hnone, hvalue]
  simp only
  rw [Reader.read_bind_of_ok (Reader.read_punctuation m.behind (by decide) _),
    Reader.read_bind_of_ok (Reader.read_skipValue htext m.inside hrest)]
  rfl

theorem rejects_field (hnames : (record.fields.map Field.name).Nodup) {field : Field σ}
    (hfield : field ∈ record.fields) {m : Member} (hkey : Spells m.key field.name.toList) {problem : Problem}
    (hvalue : ∀ (gap : Gap) rest, Parted rest → field.reader.read (gap ++ m.value rest) = .error problem)
    (hunseen : field.name ∉ seen) : Reader.Rejects record.member (value, seen) m problem := by
  refine ⟨field.name.toList, hkey, fun rest hrest => ?_⟩
  rw [member, find?_field hnames hfield]
  simp only
  rw [if_neg (by simpa using hunseen), Reader.read_bind_of_ok (Reader.read_punctuation m.behind (by decide) _),
    Reader.read_bind_of_error (hvalue m.inside rest hrest)]

/-- The members hold fields of the given names as they are written for a record, and other things among them: any
values under keys that are no fields. -/
inductive Holds (record : Record σ) (given : σ) : List Member → List String → Prop
  | nil : Holds record given [] []
  | field {field : Field σ} {m : Member} {members : List Member} {names : List String}
      (hfield : field ∈ record.fields) (hkey : Spells m.key field.name.toList) (hvalue : m.value = field.writer given)
      (hmore : Holds record given members names) : Holds record given (m :: members) (field.name :: names)
  | foreign {m : Member} {name text : List Char} {members : List Member} {names : List String}
      (hkey : Spells m.key name) (hname : ∀ field ∈ record.fields, field.name.toList ≠ name)
      (htext : Phrase.value.Is text) (hvalue : m.value = fun rest => text ++ rest)
      (hmore : Holds record given members names) : Holds record given (m :: members) names

theorem holds_written (value : σ) {fields : List (Field σ)}
    (hfields : ∀ field ∈ fields, field ∈ record.fields) :
    Holds record value (fields.map (Field.member value)) (fields.map Field.name) := by
  induction fields with
  | nil => exact .nil
  | cons field fields ih =>
      rw [List.forall_mem_cons] at hfields
      exact .field hfields.1 (Reader.spells_written _) rfl (ih hfields.2)

/-- From the first value to the last, the members load the fields of the given names, in this order, and there
may be foreign members among them. -/
inductive Loads (record : Record σ) : σ → List Member → List String → σ → Prop
  | nil {value : σ} : Loads record value [] [] value
  | field {value final : σ} {field : Field σ} {m : Member} {update : σ → σ} {members : List Member}
      {names : List String} (hfield : field ∈ record.fields) (hkey : Spells m.key field.name.toList)
      (hvalue : field.Carries m.value update) (hmore : Loads record (update value) members names final) :
      Loads record value (m :: members) (field.name :: names) final
  | foreign {value final : σ} {m : Member} {name text : List Char} {members : List Member} {names : List String}
      (hkey : Spells m.key name) (hname : ∀ field ∈ record.fields, field.name.toList ≠ name)
      (htext : Phrase.value.Is text) (hvalue : m.value = fun rest => text ++ rest)
      (hmore : Loads record value members names final) : Loads record value (m :: members) names final

/-- The members change a value in the way that `merge` says for the names, if each field on its own does. -/
theorem Holds.loads {given : σ} {members : List Member} {names : List String} {merge : σ → List String → σ}
    (h : Holds record given members names) (hnil : ∀ value, merge value [] = value)
    (hcons : ∀ field ∈ record.fields, ∃ update, field.Carries (field.writer given) update ∧
      ∀ value names, merge (update value) names = merge value (field.name :: names)) (value : σ) :
    Loads record value members names (merge value names) := by
  induction h generalizing value with
  | nil =>
      rw [hnil]
      exact .nil
  | @field field m members names hfield hkey hvalue _ ih =>
      obtain ⟨update, hcarries, hmerge⟩ := hcons field hfield
      rw [← hmerge]
      exact .field hfield hkey (hvalue ▸ hcarries) (ih (update value))
  | foreign hkey hname htext hvalue _ ih => exact .foreign hkey hname htext hvalue (ih value)

/-- The next member holds a field as it is written for a given record. -/
theorem Loads.written {state final : σ} {field : Field σ} {update : σ → σ} {members : List Member}
    {names : List String} (hfield : field ∈ record.fields) (hvalue : field.Carries (field.writer value) update)
    (hmore : Loads record (update state) members names final) :
    Loads record state (field.member value :: members) (field.name :: names) final :=
  .field hfield (Reader.spells_written _) hvalue hmore

theorem Loads.run {final : σ} {members : List Member} {names : List String}
    (h : Loads record value members names final) (hnames : (record.fields.map Field.name).Nodup)
    (hdistinct : names.Nodup) (hunseen : ∀ name ∈ names, name ∉ seen) :
    Reader.Run record.member (value, seen) members (final, names.reverse ++ seen) := by
  induction h generalizing seen with
  | nil => exact .nil
  | @field value final field m update members names hfield hkey hvalue _ ih =>
      rw [List.nodup_cons] at hdistinct
      rw [List.forall_mem_cons] at hunseen
      have hfirst : Reader.Accepts record.member (value, seen) m (update value, field.name :: seen) :=
        accepts_field hnames hfield hkey hvalue hunseen.1
      have hlater : ∀ name ∈ names, name ∉ field.name :: seen := by
        intro name hname hseen
        rcases List.mem_cons.mp hseen with rfl | hseen
        · exact hdistinct.1 hname
        · exact hunseen.2 name hname hseen
      rw [List.reverse_cons, List.append_assoc]
      exact .cons hfirst (ih hdistinct.2 hlater)
  | foreign hkey hname htext hvalue _ ih =>
      exact .cons (accepts_foreign hkey hname htext hvalue _) (ih hdistinct hunseen)

theorem complete_eq {state : σ × List String}
    (h : ∀ field ∈ record.fields, field.required = true → field.name ∈ state.2) :
    record.complete state = return state.1 := by
  have hnone : record.fields.find? (fun field => field.required && !state.2.contains field.name) = none := by
    rw [List.find?_eq_none]
    intro field hfield
    simpa using h field hfield
  rw [complete, hnone]

theorem read_objectText (before inside : Gap) (members : List Member) (rest : List Char) :
    record.reader.read (objectText before inside members rest) =
      (Reader.members record.member (record.blank, []) >>= record.complete).read
        (Writer.commas Member.write members (inside ++ '\x7d' :: rest)) :=
  Reader.read_opened _ _ before _

theorem read_of_loads {final : σ} {members : List Member} {names : List String}
    (h : Loads record record.blank members names final) (hnames : (record.fields.map Field.name).Nodup)
    (hdistinct : names.Nodup) (hrequired : ∀ field ∈ record.fields, field.required = true → field.name ∈ names)
    (before inside : Gap) (rest : List Char) :
    record.reader.read (objectText before inside members rest) = .ok (final, rest) := by
  have hrun : Reader.Run record.member (record.blank, []) members (final, names.reverse ++ []) :=
    h.run hnames hdistinct fun _ _ => List.not_mem_nil
  have hcomplete : record.complete (final, names.reverse ++ []) = return final :=
    complete_eq fun field hfield hneeded => by simpa using hrequired field hfield hneeded
  rw [read_objectText, Reader.read_bind_of_ok (Reader.read_members hrun inside rest), hcomplete]
  rfl

/-- A field that cannot be read makes the whole document wrong, whatever comes behind it. -/
theorem read_of_rejects {mid : σ} {members : List Member} {names : List String}
    (h : Loads record record.blank members names mid) (hnames : (record.fields.map Field.name).Nodup)
    {field : Field σ} (hfield : field ∈ record.fields) (hdistinct : (field.name :: names).Nodup) {m : Member}
    (hkey : Spells m.key field.name.toList) {problem : Problem}
    (hvalue : ∀ (gap : Gap) rest, Parted rest → field.reader.read (gap ++ m.value rest) = .error problem)
    (others : List Member) (before inside : Gap) (rest : List Char) :
    record.reader.read (objectText before inside (members ++ m :: others) rest) = .error problem := by
  rw [List.nodup_cons] at hdistinct
  have hrun : Reader.Run record.member (record.blank, []) members (mid, names.reverse ++ []) :=
    h.run hnames hdistinct.2 fun _ _ => List.not_mem_nil
  have hrejects : Reader.Rejects record.member (mid, names.reverse ++ []) m problem :=
    rejects_field hnames hfield hkey hvalue (by simpa using hdistinct.1)
  have hparted : Parted (inside ++ '\x7d' :: rest) := (parted_cons rest (by decide)).append inside
  rw [read_objectText, Reader.read_bind_of_error (Reader.read_members_of_rejects hrun hrejects others hparted)]

theorem writer_eq (record : Record σ) (value : σ) (rest : List Char) :
    record.writer value rest =
      objectText .none .none (record.fields.map (Field.member value)) rest := by
  rw [writer, object_eq, List.map_map]
  rfl

/-- A record whose fields can all be read is read back from what is written for it. -/
theorem roundTrips {value : σ} (hnames : (record.fields.map Field.name).Nodup)
    (h : Loads record record.blank (record.fields.map (Field.member value)) (record.fields.map Field.name) value) :
    RoundTrips record.reader record.writer value := by
  intro gap rest _
  have hall : ∀ field ∈ record.fields, field.required = true → field.name ∈ record.fields.map Field.name :=
    fun field hfield _ => List.mem_map_of_mem hfield
  rw [writer_eq]
  exact read_of_loads h hnames hnames hall gap .none rest

end Record

end

/-! ### Values of fields -/

theorem roundTrips_string (expected : String) (word : List Char) :
    RoundTrips (Reader.string expected) Writer.string word := fun gap rest _ =>
  Reader.read_string expected gap word rest

theorem roundTrips_character (c : Char) : RoundTrips Reader.character (fun c => Writer.string [c]) c := by
  intro gap rest _
  exact Reader.read_bind_of_ok (Reader.read_string "a character" gap [c] rest) _

theorem roundTrips_boolean (b : Bool) : RoundTrips Reader.boolean (.ofText booleanText) b := by
  intro gap rest _
  have hgap : Reader.SkipsGap Reader.boolean := Reader.skipsGap_next.bind _
  rw [hgap]
  cases b with
  | true => rfl
  | false => rfl

theorem roundTrips_natural {max n : Nat} (hmax : max ≤ Number.maxSignificand) (hn : n ≤ max) (expected : String) :
    RoundTrips (Reader.natural max expected) (.ofText naturalText) n := fun gap _ hrest =>
  Reader.read_natural hmax hn expected gap hrest

theorem Legible.roundTrips {x : Float} (h : Legible x) : RoundTrips Reader.real (.ofText floatText) x :=
  fun gap _ hrest => h.read gap hrest

/-- What is no number is written in a way that a number is not read from. -/
theorem Field.read_number_null {σ : Type} {name : String} {get : σ → Float} {set : Float → σ → σ} {value : σ}
    (h : (get value).isFinite = false) (gap : Gap) (rest : List Char) :
    (Field.number name get set).reader.read (gap ++ (Field.number name get set).writer value rest) =
      .error (.mismatch (.wrongType .null "f64")) := by
  have htext : floatText (get value) = nullText := by
    rw [floatText, h]
    rfl
  show (Reader.real >>= fun x => return set x).read (gap ++ (floatText (get value) ++ rest)) = _
  rw [htext, Reader.read_bind_of_error (Reader.real_null gap rest)]

/-- A record with a number that is none is not read from what is written for it. -/
theorem Record.read_null {σ : Type} {record : Record σ} {value mid : σ} {members : List Member}
    {names : List String} (h : Loads record record.blank members names mid)
    (hnames : (record.fields.map Field.name).Nodup) {name : String} {get : σ → Float} {set : Float → σ → σ}
    (hfield : Field.number name get set ∈ record.fields) (hdistinct : (name :: names).Nodup)
    (hnull : (get value).isFinite = false) (others : List Member) (before inside : Gap) (rest : List Char) :
    record.reader.read (objectText before inside
      (members ++ (Field.number name get set).member value :: others) rest) =
        .error (.mismatch (.wrongType .null "f64")) := by
  have hkey : Spells ((Field.number name get set).member value).key name.toList := Reader.spells_written _
  exact read_of_rejects h hnames hfield hdistinct hkey (fun gap rest _ => Field.read_number_null hnull gap rest)
    others before inside rest

end LSystem.Json
