import LSystem.Proofs.Grammar.Adaptation
import LSystem.Proofs.Turtle.Reading
import LSystem.Studio.Easel

/-! Rendering adapts the rules of a sketch to its start word before it uses them. In the picture this
shows in nothing but the rules that the picture carries: the word grows as it would have grown, and the
turtle draws it as it would have drawn it. -/

namespace LSystem

/-- A chain of steps succeeds if each of them does. -/
theorem exists_of_bind_eq_ok {ε α β : Type} {first : Except ε α} {next : α → Except ε β} {result : β}
    (h : first >>= next = .ok result) : ∃ value, first = .ok value ∧ next value = .ok result := by
  cases first with
  | error problem => cases h
  | ok value => exact ⟨value, rfl, h⟩

variable {α : Type}

namespace Rulebook

variable {book : Rulebook} {start : Word}

variable [Scalar α] [Compass α]

theorem Agrees.draw {other : Rulebook} (h : book.Agrees start other) (gait : Gait α) (n : Nat) :
    draw other gait (book.generation n start) = draw book gait (book.generation n start) := by
  apply draw_congr gait
  intro symbol hmem
  exact h.draws hmem

theorem draw_adapt (hblank : book.BlanksIdle) (gait : Gait α) (n : Nat) :
    draw (book.adapt start) gait (book.generation n start) = draw book gait (book.generation n start) :=
  (agrees_adapt hblank).draw gait n

end Rulebook

namespace Easel

variable (easel : Easel α) (sketch : Sketch α)

theorem grow_eq_ok {rules : Rulebook} {word : Word} :
    easel.grow sketch rules = .ok word ↔
      sketch.generations ≤ easel.settings.maxGenerations ∧
        rules.generation sketch.generations sketch.start = word := by
  rw [grow, ← Rulebook.grow_eq_ok]
  cases rules.grow easel.settings.maxGenerations sketch.generations sketch.start <;> simp [Except.mapError]

variable [Scalar α] [Compass α]

/-- The picture of a sketch under rules that are used as they are. -/
def paint (rules : Rulebook) : Except (Fault α) (Picture α) := do
  let word ← easel.grow sketch rules
  let drawn ← draw rules (easel.gait sketch) word
  return {
    rules := rules
    symbolCount := word.length
    drawnCount := drawn.length
    segments := fuse easel.settings.fuseLimit (easel.canvas.fit drawn) }

theorem paint_eq_ok {rules : Rulebook} {word : Word} {drawn : List (Segment α)}
    (hgrow : easel.grow sketch rules = .ok word) (hdraw : draw rules (easel.gait sketch) word = .ok drawn) :
    easel.paint sketch rules = .ok ⟨rules, word.length, drawn.length,
      fuse easel.settings.fuseLimit (easel.canvas.fit drawn)⟩ := by
  rw [paint, hgrow]
  simp only [bind, Except.bind, hdraw]
  rfl

/-- Whatever is painted comes from a word that has grown and a drawing of it. -/
theorem paint_eq_ok_iff {rules : Rulebook} {picture : Picture α} :
    easel.paint sketch rules = .ok picture ↔
      ∃ word drawn, easel.grow sketch rules = .ok word ∧ draw rules (easel.gait sketch) word = .ok drawn ∧
        picture = ⟨rules, word.length, drawn.length,
          fuse easel.settings.fuseLimit (easel.canvas.fit drawn)⟩ := by
  constructor
  · intro h
    obtain ⟨word, hgrow, hrest⟩ := exists_of_bind_eq_ok h
    obtain ⟨drawn, hdraw, hpicture⟩ := exists_of_bind_eq_ok hrest
    exact ⟨word, drawn, hgrow, hdraw, (Except.ok.inj hpicture).symm⟩
  · rintro ⟨word, drawn, hgrow, hdraw, rfl⟩
    exact paint_eq_ok easel sketch hgrow hdraw

/-- Rendering is painting with the adapted rules. -/
theorem render_eq_paint_adapt :
    easel.render sketch = easel.paint sketch (sketch.rules.adapt sketch.start) := rfl

/-- A sketch can be painted if its generations, its gait and the symbols of its word are within the limits; the
turtle then draws once for each symbol that draws. -/
theorem paint_of_room (rules : Rulebook) (hlimit : sketch.generations ≤ easel.settings.maxGenerations)
    (hgait : (easel.gait sketch).check = .ok ())
    (hroom : (rules.generation sketch.generations sketch.start).toFinset.card ≤ SymbolTable.capacity) :
    ∃ picture, easel.paint sketch rules = .ok picture ∧ picture.drawnCount =
      (rules.generation sketch.generations sketch.start).countP ((easel.gait sketch).marks rules) := by
  set word := rules.generation sketch.generations sketch.start with hword
  have hgrow : easel.grow sketch rules = .ok word := (easel.grow_eq_ok sketch).2 ⟨hlimit, rfl⟩
  have hdraw : draw rules (easel.gait sketch) word =
      .ok (Turtle.initial.read (easel.gait sketch) rules word) := by
    rw [draw_eq, hgait]
    exact if_pos hroom
  exact ⟨_, easel.paint_eq_ok sketch hgrow hdraw, Turtle.length_read _ _ _ _⟩

/-- Books that agree give the same picture, but for the rules that it carries. -/
theorem paint_of_agrees {rules other : Rulebook} (h : rules.Agrees sketch.start other) :
    easel.paint sketch other = (easel.paint sketch rules).map fun picture => { picture with rules := other } := by
  have hsame : easel.grow sketch other = easel.grow sketch rules := by
    rw [grow, grow, h.grow]
  rw [paint, paint, hsame]
  cases hgrow : easel.grow sketch rules with
  | error fault => rfl
  | ok word =>
      obtain ⟨-, rfl⟩ := (easel.grow_eq_ok sketch).1 hgrow
      simp only [bind, Except.bind, h.draw]
      cases draw rules (easel.gait sketch) (rules.generation sketch.generations sketch.start) <;> rfl

/-- Rendering is painting with the adapted rules, and the rules of the sketch would have done as well. -/
theorem render_eq_paint (hblank : sketch.rules.BlanksIdle) :
    easel.render sketch = (easel.paint sketch sketch.rules).map fun picture =>
      { picture with rules := sketch.rules.adapt sketch.start } :=
  easel.paint_of_agrees sketch (Rulebook.agrees_adapt hblank)

end Easel

/-- **Adapting is invisible.** A start word grows under the adapted rules as under the rules themselves, each
generation is drawn alike, and a picture differs from the one painted with the rules themselves only in the
rules that it carries. -/
theorem adapt_invisible [Scalar α] [Compass α] (rules : Rulebook) (start : Word) (hblank : rules.BlanksIdle) :
    (∀ limit n, (rules.adapt start).grow limit n start = rules.grow limit n start) ∧
      (∀ (gait : Gait α) (n : Nat), draw (rules.adapt start) gait (rules.generation n start) =
        draw rules gait (rules.generation n start)) ∧
      ∀ (easel : Easel α) (n : Nat) (angle length : α),
        easel.render ⟨start, rules, n, angle, length⟩ =
          (easel.paint ⟨start, rules, n, angle, length⟩ rules).map fun picture =>
            { picture with rules := rules.adapt start } := by
  refine ⟨?_, ?_, ?_⟩
  · intro limit n
    exact Rulebook.grow_adapt hblank limit n start
  · exact Rulebook.draw_adapt hblank
  · intro easel n angle length
    exact easel.render_eq_paint ⟨start, rules, n, angle, length⟩ hblank

/-- A rulebook of which adapting to the word `A` drops the rule for `Q` and keeps that for the blank, while it
adds one for `B`. -/
def Rulebook.mottled : Rulebook :=
  .collect [('A', .rewriting ['A', 'B', ' ', '+']), ('Q', (Rule.rewriting ['A', 'A']).drawing),
    (' ', (Rule.rewriting ['B']).drawing.fixed)]

theorem adapt_invisible_mottled :
    ((Rulebook.mottled.adapt ['A']).get? 'Q' = none ∧
        (Rulebook.mottled.adapt ['A']).get? 'B' = some (.idle 'B')) ∧
      (∀ limit n, (Rulebook.mottled.adapt ['A']).grow limit n ['A'] = Rulebook.mottled.grow limit n ['A']) ∧
      ∀ n, draw (Rulebook.mottled.adapt ['A']) Gait.standard (Rulebook.mottled.generation n ['A']) =
        draw Rulebook.mottled Gait.standard (Rulebook.mottled.generation n ['A']) := by
  obtain ⟨hgrow, hdraw, -⟩ := adapt_invisible (α := Float) Rulebook.mottled ['A'] (by decide +kernel)
  exact ⟨by decide +kernel, hgrow, hdraw Gait.standard⟩

end LSystem
