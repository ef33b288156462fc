import LSystem.Proofs.Grammar.Settling
import LSystem.Proofs.Studio.Rendering

/-! Taking over the rules of a picture, as often as one likes. The next picture is painted with rules that were
adapted once more. Books that were adapted at least once agree with the books adapted from them, whatever the
first rules were, so all pictures look like the first; their rules are the settling ones. -/

namespace LSystem

variable {α : Type} [Scalar α] [Compass α]

namespace Easel

/-- The sketch after it has taken over the rules of its picture `n` times. -/
def adopted (easel : Easel α) (sketch : Sketch α) : Nat → Except (Fault α) (Sketch α)
  | 0 => .ok sketch
  | n + 1 => do
    let latest ← easel.adopted sketch n
    let picture ← easel.render latest
    return { latest with rules := picture.rules }

/-- The picture of the sketch after it has taken over rules `n` times. -/
def revision (easel : Easel α) (sketch : Sketch α) (n : Nat) : Except (Fault α) (Picture α) := do
  let latest ← easel.adopted sketch n
  easel.render latest

theorem render_settle_eq_paint (easel : Easel α) (sketch : Sketch α) (n : Nat) :
    easel.render { sketch with rules := sketch.rules.settle sketch.start n } =
      easel.paint sketch (sketch.rules.settle sketch.start (n + 1)) := by
  rw [render_eq_paint_adapt, Rulebook.settle_succ]
  rfl

variable {easel : Easel α} {sketch : Sketch α} {first : Picture α}

/-- A sketch whose rules have settled for a while has the first picture, but for the rules. -/
theorem render_settle (hfirst : easel.render sketch = .ok first) (n : Nat) :
    easel.render { sketch with rules := sketch.rules.settle sketch.start n } =
      .ok { first with rules := sketch.rules.settle sketch.start (n + 1) } := by
  induction n with
  | zero =>
      obtain ⟨word, drawn, -, -, rfl⟩ := (easel.paint_eq_ok_iff sketch).1 hfirst
      exact hfirst
  | succ n ih =>
      -- the two books that are painted with have both been adapted, so the later one agrees with the earlier
      have hlater := easel.paint_of_agrees sketch (Rulebook.agrees_settle sketch.rules sketch.start n)
      rw [render_settle_eq_paint] at ih ⊢
      rw [hlater, ih]
      rfl

theorem adopted_eq (hfirst : easel.render sketch = .ok first) (n : Nat) :
    easel.adopted sketch n = .ok { sketch with rules := sketch.rules.settle sketch.start n } := by
  induction n with
  | zero => rfl
  | succ n ih =>
      rw [adopted, ih]
      simp only [bind, Except.bind, render_settle hfirst n]
      rfl

theorem revision_eq (hfirst : easel.render sketch = .ok first) (n : Nat) :
    easel.revision sketch n = .ok { first with rules := sketch.rules.settle sketch.start (n + 1) } := by
  rw [revision, adopted_eq hfirst]
  exact render_settle hfirst n

end Easel

/-- **Taking over rules is safe and settles.** If a sketch can be rendered, it can be rendered again with the
rules of its picture, and so on. All pictures look alike; each carries rules of the one before, and from the
picture whose number is the number of active rules at the beginning they carry the same ones. -/
theorem revision_settles {easel : Easel α} {sketch : Sketch α} {first : Picture α}
    (hfirst : easel.render sketch = .ok first) :
    ∃ pictures : Nat → Picture α, pictures 0 = first ∧
      (∀ n, easel.revision sketch n = .ok (pictures n)) ∧
      (∀ n, (pictures n).symbolCount = first.symbolCount ∧ (pictures n).drawnCount = first.drawnCount ∧
        (pictures n).segments = first.segments) ∧
      (∀ n symbol rule, (pictures (n + 1)).rules.get? symbol = some rule →
        (pictures n).rules.get? symbol = some rule) ∧
      ∀ n, sketch.rules.actives.card ≤ n →
        (pictures n).rules = (pictures sketch.rules.actives.card).rules := by
  refine ⟨fun n => { first with rules := sketch.rules.settle sketch.start (n + 1) }, ?_, ?_, ?_, ?_, ?_⟩
  · exact Except.ok.inj ((Easel.revision_eq hfirst 0).symm.trans hfirst)
  · exact Easel.revision_eq hfirst
  · intro n
    exact ⟨rfl, rfl, rfl⟩
  · intro n symbol rule hrule
    exact Rulebook.get?_of_settle hrule
  · intro n hn
    exact Rulebook.settle_eq hn

/-- Three rules in a row, the first of which nothing calls for, go one after the other. The symbol at the end of
the row goes the time after, which is as late as there can be a change. -/
theorem revision_settles_of_chain :
    let rules := Rulebook.collect [('B', .rewriting ['C']), ('C', .rewriting ['D']), ('D', .rewriting ['E'])]
    let easel : Easel Float := ⟨Settings.standard, Canvas.standard⟩
    let sketch : Sketch Float := ⟨['F', '+', 'F'], rules, 1, 90, 10⟩
    ∃ pictures : Nat → Picture Float, (∀ n, easel.revision sketch n = .ok (pictures n)) ∧
      (∀ n, (pictures n).drawnCount = 2) ∧ (pictures 3).rules ≠ (pictures 2).rules ∧
      ∀ n, 3 ≤ n → (pictures n).rules = (pictures 3).rules := by
  intro rules easel sketch
  have hgait : (easel.gait sketch).check = .ok () := Gait.check_eq_ok.2 ⟨by decide, by decide, by decide⟩
  obtain ⟨first, hfirst, hdrawn⟩ :=
    easel.paint_of_room sketch (rules.adapt sketch.start) (by decide) hgait (by decide +kernel)
  have htwo : first.drawnCount = 2 := by
    rw [hdrawn]
    decide +kernel
  have hcard : sketch.rules.actives.card = 3 := by decide +kernel
  obtain ⟨pictures, -, hpictures, hsame, -, hsettled⟩ := revision_settles hfirst
  have hrules : ∀ n, (pictures n).rules = rules.settle sketch.start (n + 1) := by
    intro n
    have hpicture := (hpictures n).symm.trans (Easel.revision_eq hfirst n)
    exact congrArg Picture.rules (Except.ok.inj hpicture)
  refine ⟨pictures, hpictures, ?_, ?_, ?_⟩
  · intro n
    exact (hsame n).2.1.trans htwo
  · rw [hrules, hrules]
    decide +kernel
  · intro n hn
    rw [hsettled n (hcard.trans_le hn), hcard]

end LSystem
