import LSystem.Document.Studio
import LSystem.Proofs.Json.Records

/-! Settings are read field by field: whatever fields a document has, in whatever order and with whatever else among
them, it stands for the standard settings with these fields changed, and is checked as such. -/

namespace LSystem

open Json

namespace Settings

/-- The settings with the fields of some names taken from other settings. -/
def overlay (base given : Settings Float) (names : List String) : Settings Float where
  maxGenerations := if "max_iterations" ∈ names then given.maxGenerations else base.maxGenerations
  length := if "default_step_length" ∈ names then given.length else base.length
  angle := if "default_angle" ∈ names then given.angle else base.angle
  margin := if "padding" ∈ names then given.margin else base.margin
  fuseLimit := if "merge_threshold" ∈ names then given.fuseLimit else base.fuseLimit
  drawSymbol := if "draw_symbol" ∈ names then given.drawSymbol else base.drawSymbol
  moveSymbol := if "move_symbol" ∈ names then given.moveSymbol else base.moveSymbol
  whole := if "round_steps" ∈ names then given.whole else base.whole

/-- The numbers fit their fields and are legible. -/
structure Writable (settings : Settings Float) : Prop where
  maxGenerations : settings.maxGenerations ≤ Field.max32
  fuseLimit : settings.fuseLimit ≤ Field.max64
  length : Legible settings.length
  angle : Legible settings.angle
  margin : Legible settings.margin

variable {given : Settings Float}

/-- Each field is read from what is written for it, and reading it first or having its name in front of the
others comes to the same. -/
theorem carries_field (h : given.Writable) : ∀ field ∈ record.fields,
    ∃ update, field.Carries (field.writer given) update ∧
      ∀ base names, overlay (update base) given names = overlay base given (field.name :: names) := by
  simp only [record, List.map_cons, List.map_nil, List.forall_mem_cons]
  refine ⟨?_, ?_, ?_, ?_, ?_, ?_, ?_, ?_, fun _ h => nomatch h⟩
  · have hnatural := roundTrips_natural (by decide) h.maxGenerations "u32"
    refine ⟨_, (Field.carries_of hnatural).optional, fun base names => ?_⟩
    simp [overlay, Field.optional, Field.natural, Field.of]
  · refine ⟨_, (Field.carries_of h.length.roundTrips).optional, fun base names => ?_⟩
    simp [overlay, Field.optional, Field.number, Field.of]
  · refine ⟨_, (Field.carries_of h.angle.roundTrips).optional, fun base names => ?_⟩
    simp [overlay, Field.optional, Field.number, Field.of]
  · refine ⟨_, (Field.carries_of h.margin.roundTrips).optional, fun base names => ?_⟩
    simp [overlay, Field.optional, Field.number, Field.of]
  · have hnatural := roundTrips_natural (by decide) h.fuseLimit "usize"
    refine ⟨_, (Field.carries_of hnatural).optional, fun base names => ?_⟩
    simp [overlay, Field.optional, Field.natural, Field.of]
  · refine ⟨_, (Field.carries_of (roundTrips_character given.drawSymbol)).optional, fun base names => ?_⟩
    simp [overlay, Field.optional, Field.symbol, Field.of]
  · refine ⟨_, (Field.carries_of (roundTrips_character given.moveSymbol)).optional, fun base names => ?_⟩
    simp [overlay, Field.optional, Field.symbol, Field.of]
  · refine ⟨_, (Field.carries_of (roundTrips_boolean given.whole)).optional, fun base names => ?_⟩
    simp [overlay, Field.optional, Field.boolean, Field.of]

theorem overlay_nil (base given : Settings Float) : overlay base given [] = base := rfl

theorem read_of_holds (h : given.Writable) {members : List Member} {names : List String}
    (hholds : record.Holds given members names) (hnames : names.Nodup) (before inside : Gap) (rest : List Char) :
    record.reader.read (objectText before inside members rest) = .ok (overlay standard given names, rest) := by
  have hloads := hholds.loads (overlay_nil · given) (carries_field h) standard
  have hoptional : ∀ field ∈ record.fields, field.required = true → field.name ∈ names := by
    intro field hfield hneeded
    have hnone : ∀ field ∈ record.fields, field.required = false := by decide
    rw [hnone field hfield] at hneeded
    cases hneeded
  exact Record.read_of_loads hloads (by decide) hnames hoptional before inside rest

theorem ofText_of_holds (h : given.Writable) {members : List Member} {names : List String}
    (hholds : record.Holds given members names) (hnames : names.Nodup) (before inside after : Gap) :
    ofText (objectText before inside members after) =
      (overlay standard given names).check.map fun _ => overlay standard given names := by
  rw [ofText, Reader.document_of_read after (read_of_holds h hholds hnames before inside after)]
  show ((overlay standard given names).check >>= fun _ => pure _) = _
  cases (overlay standard given names).check with
  | error fault => rfl
  | ok value => rfl

theorem overlay_fields (base given : Settings Float) : overlay base given (record.fields.map Field.name) = given := by
  simp [overlay, record, Field.optional, Field.natural, Field.number, Field.symbol, Field.boolean, Field.of]

end Settings

/-- **Settings are read field by field.** A document that holds some fields of given settings, in any order and
with any other members among them, is read as the standard settings with these fields changed, if these pass
their check; else it is refused for the reason that the check gives, which is about the symbols and never about
the document. So what is written for settings that pass their check is read as these. -/
theorem settings_documents {given : Settings Float} (h : given.Writable) :
    (∀ members names, Settings.record.Holds given members names → names.Nodup →
      ∀ before inside after : Gap,
        let text := objectText before inside members after
        let merged := Settings.overlay .standard given names
        (merged.check = .ok () → Settings.ofText text = .ok merged) ∧
        (∀ fault, merged.check = .error fault → Settings.ofText text = .error fault) ∧
        Settings.ofText text =
          if Symbol.isControl merged.drawSymbol then .error (.controlKey ⟨merged.drawSymbol⟩)
          else if Symbol.isControl merged.moveSymbol then .error (.controlKey ⟨merged.moveSymbol⟩)
          else if merged.drawSymbol = merged.moveSymbol then .error (.clash merged.drawSymbol)
          else .ok merged) ∧
    (given.check = .ok () → Settings.ofText (Settings.record.text given) = .ok given) := by
  refine ⟨fun members names hholds hnames before inside after => ?_, fun hcheck => ?_⟩
  · intro text merged
    have htext : Settings.ofText text = merged.check.map fun _ => merged :=
      Settings.ofText_of_holds h hholds hnames before inside after
    refine ⟨fun hcheck => ?_, fun fault hcheck => ?_, ?_⟩
    · rw [htext, hcheck]
      rfl
    · rw [htext, hcheck]
      rfl
    · rw [htext, Settings.check]
      split_ifs <;> rfl
  · have hholds := Record.holds_written given fun _ (hfield : _ ∈ Settings.record.fields) => hfield
    have htext := Settings.ofText_of_holds h hholds (by decide) .none .none .none
    rw [Settings.overlay_fields, hcheck] at htext
    rw [Record.text, Record.writer_eq]
    exact htext

/-- The draw symbol of these settings is the standard move symbol: a document with nothing else of them is refused,
although they pass their check. -/
theorem settings_documents_of_clash :
    let given : Settings Float := ⟨4294967295, 2.5, 22.5, -0.0, 18446744073709551615, 'f', '"', false⟩
    Settings.ofText "\x7b\"extra\": [1,\x7b\"a\":null\x7d],\"draw_symbol\":\"f\"\x7d".toList = .error (.clash 'f') ∧
      Settings.ofText (Settings.record.text given) = .ok given := by
  intro given
  have hgiven : given.Writable :=
    ⟨by decide, by decide, by decide +kernel, by decide +kernel, by decide +kernel⟩
  have hone : IsNumber ([] ++ (['1'] ++ ([] ++ []))) :=
    .mk (.inl rfl) (.digits rfl (by decide) (by simp)) .none .none
  have hkey : IsChars ['a'] := .raw ⟨by decide, by decide, by decide⟩ .nil
  have hextra := Phrase.Is.array (.elements .none .none (.number hone)
    (.element .none .none (.object (.member .none .none .none .none hkey .null))))
  let extra : Member := ⟨.none, "extra".toList, .none, ⟨[' '], List.forall_mem_singleton.mpr rfl⟩,
    fun rest => "[1,\x7b\"a\":null\x7d]".toList ++ rest, .none⟩
  let drawn : Json.Field (Settings Float) := (Field.symbol "draw_symbol" Settings.drawSymbol fun c settings =>
    { settings with drawSymbol := c }).optional
  have hholds : Settings.record.Holds given [extra, drawn.member given] ["draw_symbol"] :=
    .foreign (Reader.spells_written "extra".toList) (by decide) hextra rfl
      (Settings.record.holds_written given (List.forall_mem_singleton.mpr (by simp [Settings.record, drawn])))
  have htext : "\x7b\"extra\": [1,\x7b\"a\":null\x7d],\"draw_symbol\":\"f\"\x7d".toList =
      objectText .none .none [extra, drawn.member given] [] := by decide +kernel
  obtain ⟨hall, hwritten⟩ := settings_documents hgiven
  rw [htext]
  exact ⟨(hall _ _ hholds (by decide) .none .none .none).2.1 (.clash 'f') rfl, hwritten rfl⟩

end LSystem
