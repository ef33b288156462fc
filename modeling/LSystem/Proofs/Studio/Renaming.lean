import LSystem.Proofs.Grammar.Renaming
import LSystem.Proofs.Studio.Rendering

/-! Pictures under a renaming of symbols. Renamed symbols stand for the commands that the old ones stood for, and
a word has as many different symbols after a renaming as before; so it is drawn alike, or refused alike. -/

namespace LSystem

variable {α : Type} (r : Renaming)

def Gait.rename (gait : Gait α) : Gait α :=
  { gait with drawSymbol := r gait.drawSymbol, moveSymbol := r gait.moveSymbol }

def Settings.rename (settings : Settings α) : Settings α :=
  { settings with drawSymbol := r settings.drawSymbol, moveSymbol := r settings.moveSymbol }

def Sketch.rename (sketch : Sketch α) : Sketch α :=
  { sketch with start := sketch.start.map r, rules := sketch.rules.rename r }

def Easel.rename (easel : Easel α) : Easel α := { easel with settings := easel.settings.rename r }

theorem Gait.order_rename [Scalar α] (gait : Gait α) (rules : Rulebook) (symbol : Char) :
    (gait.rename r).order (rules.rename r) (r symbol) = gait.order rules symbol := by
  have hmove : r symbol = (gait.rename r).moveSymbol ↔ symbol = gait.moveSymbol := r.injective.eq_iff
  have hdraw : r symbol = (gait.rename r).drawSymbol ↔ symbol = gait.drawSymbol := r.injective.eq_iff
  have hleft : r symbol = '+' ↔ symbol = '+' := r.eq_control_iff rfl
  have hright : r symbol = '-' ↔ symbol = '-' := r.eq_control_iff rfl
  have hopen : r symbol = '[' ↔ symbol = '[' := r.eq_control_iff rfl
  have hclose : r symbol = ']' ↔ symbol = ']' := r.eq_control_iff rfl
  simp only [order, order?, hmove, hdraw, Rulebook.draws_rename, hleft, hright, hopen, hclose]

/-- Symbols are told apart after a renaming as before. -/
theorem Renaming.card_map (word : Word) : (word.map r).toFinset.card = word.toFinset.card := by
  have hmap : (word.map r).toFinset = word.toFinset.image r := by
    ext symbol
    simp
  rw [hmap, Finset.card_image_of_injective _ r.injective]

/-- Once the commands are given, the symbols of the gait are not looked at any more. -/
theorem Turtle.trace_rename [Scalar α] [Compass α] (gait : Gait α) (turtle : Turtle α)
    (commands : List (Command α)) : turtle.trace (gait.rename r) commands = turtle.trace gait commands := by
  induction commands generalizing turtle with
  | nil => rfl
  | cons command commands ih =>
      rw [trace_cons, trace_cons, ih]
      cases command <;> rfl

theorem draw_rename [Scalar α] [Compass α] (rules : Rulebook) (gait : Gait α) (word : Word) :
    draw (rules.rename r) (gait.rename r) (word.map r) = draw rules gait word := by
  have horders : (word.map r).map ((gait.rename r).order (rules.rename r)) = word.map (gait.order rules) := by
    rw [List.map_map]
    exact List.map_congr_left fun symbol _ => gait.order_rename r rules symbol
  rw [draw_eq, draw_eq, r.card_map, Turtle.read_eq_trace, Turtle.read_eq_trace, horders, Turtle.trace_rename]
  rfl

/-- Settings that pass their check pass it with renamed symbols. -/
theorem Settings.check_rename {settings : Settings α} (h : settings.check = .ok ()) :
    (settings.rename r).check = .ok () := by
  rw [check] at h ⊢
  simp only [rename, r.isControl, r.injective.eq_iff]
  split_ifs at h ⊢
  rfl

namespace Easel

theorem grow_rename (easel : Easel α) (sketch : Sketch α) (rules : Rulebook) :
    (easel.rename r).grow (sketch.rename r) (rules.rename r) =
      (easel.grow sketch rules).map (List.map r) := by
  have hgrow : (rules.rename r).grow (easel.rename r).settings.maxGenerations (sketch.rename r).generations
      (sketch.rename r).start = _ :=
    rules.grow_rename r easel.settings.maxGenerations sketch.generations sketch.start
  rw [grow, grow, hgrow]
  cases rules.grow easel.settings.maxGenerations sketch.generations sketch.start <;> rfl

variable [Scalar α] [Compass α]

/-- The picture painted with renamed rules on a renamed easel. -/
theorem paint_rename (easel : Easel α) (sketch : Sketch α) (rules : Rulebook) :
    (easel.rename r).paint (sketch.rename r) (rules.rename r) =
      (easel.paint sketch rules).map fun picture => { picture with rules := picture.rules.rename r } := by
  rw [paint, paint, grow_rename]
  cases easel.grow sketch rules with
  | error fault => rfl
  | ok word =>
      have hdraw : draw (rules.rename r) ((easel.rename r).gait (sketch.rename r)) (word.map r) =
          draw rules (easel.gait sketch) word := draw_rename r rules (easel.gait sketch) word
      simp only [bind, Except.bind, Except.map, hdraw]
      cases draw rules (easel.gait sketch) word with
      | error fault => rfl
      | ok drawn =>
          rw [List.length_map]
          rfl

end Easel

/-- **Names of symbols mean nothing.** If the symbols of settings and sketch are renamed, control symbols
staying what they are and blanks blanks, the outcome is the same: the same fault, or a picture with the same
numbers and the same segments, which carries the renamed rules. -/
theorem render_rename [Scalar α] [Compass α] {settings : Settings α} (canvas : Canvas α) (sketch : Sketch α)
    (hsettings : settings.check = .ok ()) :
    ∃ easel renamed, Easel.ofCanvas settings canvas = .ok easel ∧
      Easel.ofCanvas (settings.rename r) canvas = .ok renamed ∧
      renamed.render (sketch.rename r) = (easel.render sketch).map fun picture =>
        { picture with rules := picture.rules.rename r } := by
  refine ⟨⟨settings, canvas⟩, ⟨settings.rename r, canvas⟩, ?_, ?_, ?_⟩
  · rw [Easel.ofCanvas, hsettings]
    rfl
  · rw [Easel.ofCanvas, Settings.check_rename r hsettings]
    rfl
  · rw [Easel.render_eq_paint_adapt, Easel.render_eq_paint_adapt, ← Easel.paint_rename]
    exact congrArg _ (Rulebook.adapt_rename r sketch.rules sketch.start)

/-- The draw symbol and the symbol of a rule behind it change names, so that the rules come in another order. -/
theorem render_rename_of_swap :
    let r := Renaming.swap 'F' 'Z' rfl rfl (by decide +kernel)
    let rules := Rulebook.collect [('F', .rewriting ['F', 'X']), ('X', (Rule.rewriting ['-', 'F', ' ']).drawing)]
    let sketch : Sketch Float := ⟨['F', '+', 'X'], rules, 2, 90, 10⟩
    Settings.standard.check = .ok () ∧ (Settings.standard.rename r).drawSymbol = 'Z' ∧
      ∃ easel renamed picture, Easel.ofCanvas Settings.standard Canvas.standard = .ok easel ∧
        Easel.ofCanvas (Settings.standard.rename r) Canvas.standard = .ok renamed ∧
        easel.render sketch = .ok picture ∧ picture.drawnCount = 5 ∧
        renamed.render (sketch.rename r) = .ok { picture with rules := picture.rules.rename r } := by
  intro r rules sketch
  have hsettings : Settings.standard.check = .ok () := rfl
  obtain ⟨easel, renamed, heasel, hrenamed, hrender⟩ := render_rename r Canvas.standard sketch hsettings
  obtain rfl : easel = ⟨Settings.standard, Canvas.standard⟩ := (Except.ok.inj heasel).symm
  have hgait : (Easel.gait ⟨Settings.standard, Canvas.standard⟩ sketch).check = .ok () :=
    Gait.check_eq_ok.2 ⟨by decide, by decide, by decide⟩
  obtain ⟨picture, hpicture, hcount⟩ := Easel.paint_of_room ⟨Settings.standard, Canvas.standard⟩ sketch
    (sketch.rules.adapt sketch.start) (by decide) hgait (by decide +kernel)
  refine ⟨hsettings, rfl, _, renamed, picture, heasel, hrenamed, hpicture, ?_, ?_⟩
  · rw [hcount]
    decide +kernel
  · rw [hrender, Easel.render_eq_paint_adapt, hpicture]
    rfl

end LSystem
