import LSystem.Proofs.Plane.Bounds
import LSystem.Proofs.Studio.Rendering

/-! What becomes of a sketch: the first reason against it or a picture. The reasons are looked for in a fixed
order, each of them is a property of the sketch and of the limits alone, and if none of them holds there is a
picture. -/

namespace LSystem

/-! ### Numbers of segments -/

section

variable {α : Type} [Scalar α]

theorem length_strands_le (segments : List (Segment α)) : (strands segments).length ≤ segments.length := by
  fun_induction strands segments with
  | case1 => exact Nat.le_refl 0
  | case2 s pending hgather ih => exact Nat.succ_le_succ (ih.trans hgather)

/-- Fusion never makes a drawing longer. -/
theorem length_fuse_le (limit : Nat) (segments : List (Segment α)) :
    (fuse limit segments).length ≤ segments.length := by
  unfold fuse
  split_ifs
  · exact Nat.le_refl _
  · rw [List.length_map]
    exact length_strands_le segments

theorem Canvas.length_fit (canvas : Canvas α) (segments : List (Segment α)) :
    (canvas.fit segments).length = segments.length := by
  unfold fit layout?
  cases segments with
  | nil => rfl
  | cons s segments => exact List.length_map _

end

/-! ### Steps of floating-point length -/

/-- Of a finite number, not to be above zero is to be zero or below. -/
theorem nonpos_iff_of_isFinite {x : Float} (hfinite : x.isFinite = true) : x ≤ 0 ↔ ¬0 < x := by
  have hzero : (0 : Float).toModel.unpack = .zero .positive := rfl
  have hle : x ≤ 0 ↔ x.toModel.unpack.le (0 : Float).toModel.unpack = true := decide_eq_true_iff
  have hlt : 0 < x ↔ (0 : Float).toModel.unpack.lt x.toModel.unpack = true := decide_eq_true_iff
  have hunpacked : x.toModel.unpack.isFinite = true := hfinite
  rw [hle, hlt, hzero]
  generalize x.toModel.unpack = unpacked at hunpacked ⊢
  cases unpacked with
  | infinity sign => cases hunpacked
  | notANumber => cases hunpacked
  | zero sign => exact iff_of_true rfl Bool.false_ne_true
  | finite sign significand exponent hpos =>
      cases sign with
      | positive => exact iff_of_false Bool.false_ne_true (fun h => h rfl)
      | negative => exact iff_of_true rfl Bool.false_ne_true

/-- In floating point a step passes if and only if it is finite and positive. -/
theorem Gait.check_float (gait : Gait Float) :
    gait.check =
      if gait.angle.isFinite = true then
        if gait.length.isFinite = true ∧ 0 < gait.length then .ok () else .error (.badLength gait.length)
      else .error (.badAngle gait.angle) := by
  have hangle : Scalar.isFinite gait.angle = gait.angle.isFinite := rfl
  have hlength : Scalar.isFinite gait.length = gait.length.isFinite := rfl
  have hnonpositive : gait.length.isFinite = true → (gait.length ≤ 0 ↔ ¬0 < gait.length) :=
    nonpos_iff_of_isFinite
  rw [Gait.check, hangle, hlength]
  cases hfinite : gait.length.isFinite with
  | false => cases gait.angle.isFinite <;> simp
  | true =>
      specialize hnonpositive hfinite
      cases gait.angle.isFinite <;> by_cases hpositive : 0 < gait.length <;> simp_all

/-! ### Outcomes -/

/-- The word that a sketch grows into, whatever the limit. -/
def Sketch.grown {α : Type} (sketch : Sketch α) : Word :=
  (sketch.rules.adapt sketch.start).generation sketch.generations sketch.start

namespace Easel

variable {α : Type} [Scalar α] [Compass α] (easel : Easel α) (sketch : Sketch α)

/-- What a picture says of itself: how long the word was, how many of its symbols drew, and no more segments
than that. -/
structure Accounts (picture : Picture α) : Prop where
  symbolCount : picture.symbolCount = sketch.grown.length
  drawnCount : picture.drawnCount =
    sketch.grown.countP ((easel.gait sketch).marks (sketch.rules.adapt sketch.start))
  length_le : picture.segments.length ≤ picture.drawnCount
  drawn_of_nil : picture.segments = [] → picture.drawnCount = 0

theorem accounts_fuse (rules : Rulebook) {drawn : List (Segment α)}
    (hdrawn : drawn = Turtle.initial.read (easel.gait sketch) (sketch.rules.adapt sketch.start) sketch.grown) :
    easel.Accounts sketch
      ⟨rules, sketch.grown.length, drawn.length, fuse easel.settings.fuseLimit (easel.canvas.fit drawn)⟩ where
  symbolCount := rfl
  drawnCount := by
    rw [hdrawn]
    exact Turtle.length_read _ _ _ _
  length_le := (length_fuse_le _ _).trans_eq (Canvas.length_fit _ _)
  drawn_of_nil hnone := by
    show drawn.length = 0
    rw [← Canvas.length_fit easel.canvas, List.length_eq_zero_iff]
    exact fuse_eq_nil.1 hnone

/-- Rendering asks for the limit first, then for the gait, then for the number of symbols. -/
theorem render_eq :
    ∃ picture, easel.Accounts sketch picture ∧ easel.render sketch =
      if easel.settings.maxGenerations < sketch.generations then
        .error (.overLimit ⟨sketch.generations, easel.settings.maxGenerations⟩)
      else (easel.gait sketch).check >>= fun _ =>
        if sketch.grown.toFinset.card ≤ 65535 then .ok picture else .error .codesExhausted := by
  refine ⟨_, easel.accounts_fuse sketch (sketch.rules.adapt sketch.start) rfl, ?_⟩
  rw [render_eq_paint_adapt, paint, grow, Rulebook.grow]
  by_cases hlimit : easel.settings.maxGenerations < sketch.generations
  · rw [if_pos hlimit, if_pos hlimit]
    rfl
  rw [if_neg hlimit, if_neg hlimit]
  show (draw _ (easel.gait sketch) sketch.grown >>= _) = _
  rw [draw_eq]
  cases (easel.gait sketch).check with
  | error fault => rfl
  | ok =>
      by_cases hroom : sketch.grown.toFinset.card ≤ 65535
      · rw [if_pos hroom]
        exact congrArg (· >>= _) (if_pos hroom)
      · rw [if_neg hroom]
        exact congrArg (· >>= _) (if_neg hroom)

end Easel

/-- **A run fails exactly when it must.** Too many generations, then an angle that is not finite, then a step that
is not finite or not positive, then a word with more different symbols than there are codes: the first of these
that applies is the fault. If none does there is a picture. It counts the symbols of the grown word and those of
them that draw, and it has at most as many segments, and none only if nothing was drawn. -/
theorem render_outcome (easel : Easel Float) (sketch : Sketch Float) :
    (easel.render sketch = .error (.overLimit ⟨sketch.generations, easel.settings.maxGenerations⟩) ↔
        easel.settings.maxGenerations < sketch.generations) ∧
      (easel.render sketch = .error (.badAngle sketch.angle) ↔
        sketch.generations ≤ easel.settings.maxGenerations ∧ sketch.angle.isFinite = false) ∧
      (easel.render sketch = .error (.badLength sketch.length) ↔
        sketch.generations ≤ easel.settings.maxGenerations ∧ sketch.angle.isFinite = true ∧
          (sketch.length.isFinite = false ∨ ¬0 < sketch.length)) ∧
      (easel.render sketch = .error .codesExhausted ↔
        sketch.generations ≤ easel.settings.maxGenerations ∧ sketch.angle.isFinite = true ∧
          sketch.length.isFinite = true ∧ 0 < sketch.length ∧ 65535 < sketch.grown.toFinset.card) ∧
      ((∃ picture, easel.render sketch = .ok picture) ↔
        sketch.generations ≤ easel.settings.maxGenerations ∧ sketch.angle.isFinite = true ∧
          sketch.length.isFinite = true ∧ 0 < sketch.length ∧ sketch.grown.toFinset.card ≤ 65535) ∧
      ∀ picture, easel.render sketch = .ok picture →
        picture.symbolCount = sketch.grown.length ∧
          picture.drawnCount =
            sketch.grown.countP ((easel.gait sketch).marks (sketch.rules.adapt sketch.start)) ∧
          picture.segments.length ≤ picture.drawnCount ∧ (picture.segments = [] → picture.drawnCount = 0) := by
  obtain ⟨picture, haccounts, hrender⟩ := easel.render_eq sketch
  have hangle : (easel.gait sketch).angle = sketch.angle := rfl
  have hlength : (easel.gait sketch).length = sketch.length := rfl
  rw [Gait.check_float, hangle, hlength] at hrender
  by_cases hlimit : easel.settings.maxGenerations < sketch.generations
  · rw [if_pos hlimit] at hrender
    simp [hrender, hlimit]
  rw [if_neg hlimit] at hrender
  have hle := not_lt.1 hlimit
  cases hfinite : sketch.angle.isFinite with
  | false =>
      rw [hfinite, if_neg Bool.false_ne_true] at hrender
      simp [hrender, hle, bind, Except.bind]
  | true =>
      rw [if_pos hfinite] at hrender
      by_cases hstep : sketch.length.isFinite = true ∧ 0 < sketch.length
      · rw [if_pos hstep] at hrender
        have hdone : easel.render sketch = if _ then _ else _ := hrender
        by_cases hroom : sketch.grown.toFinset.card ≤ 65535
        · rw [if_pos hroom] at hdone
          obtain ⟨hsymbols, hdrawn, hless, hnil⟩ := haccounts
          simpa [hdone, hle, hstep.1, hstep.2, hroom] using And.intro hsymbols ⟨hdrawn, hless, hnil⟩
        · rw [if_neg hroom] at hdone
          simp [hdone, hle, hstep.1, hstep.2, not_le.1 hroom, hroom]
      · rw [if_neg hstep] at hrender
        have hreason : sketch.length.isFinite = false ∨ ¬0 < sketch.length := by
          rwa [not_and_or, Bool.not_eq_true] at hstep
        simp_all [bind, Except.bind]

end LSystem
