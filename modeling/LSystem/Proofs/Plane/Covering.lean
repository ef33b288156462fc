import LSystem.Proofs.Plane.Containment
import Mathlib.Data.Real.Basic

/-! When a cover is the union of its parts. A cover is a diagonal of the box around both parts, and the sign of the
rounded slope decides which of the two. So for parts of one line it is the part of that line between the
outermost ends, unless the line falls so slowly that its slope is rounded to zero: then the rising diagonal is
taken, which is off the line. -/

namespace LSystem

namespace Segment

/-- The cover of an almost level segment with any other rises. -/
theorem cover_of_almostLevel {s : Segment Rat} (h : s.AlmostLevel) (t : Segment Rat) :
    0 < (s.cover t).direction.x * (s.cover t).direction.y := by
  have hproduct := gradient_neg_iff.1 h.1
  have hspan : ∀ a b c d : Rat, b - a ≠ 0 →
      min (min (min a b) c) d < max (max (max a b) c) d := by
    intro a b c d hne
    calc min (min (min a b) c) d ≤ min a b := (min_le_left _ _).trans (min_le_left _ _)
      _ < max a b := min_lt_max.2 (sub_ne_zero.1 hne).symm
      _ ≤ max (max (max a b) c) d := (le_max_left _ _).trans (le_max_left _ _)
  let diagonal : Segment Rat :=
    ⟨(s.low.lesser t.start).lesser t.finish, (s.high.greater t.start).greater t.finish⟩
  have hcover : s.cover t = if diagonal.direction.dot s.direction < 0 then diagonal.reverse else diagonal := by
    unfold cover
    rw [h.falling_eq_false]
    rfl
  have hrun : 0 < diagonal.direction.x := by
    have hlt := hspan _ _ t.start.x t.finish.x (left_ne_zero_of_mul hproduct.ne)
    simpa [diagonal, low, high] using hlt
  have hrise : 0 < diagonal.direction.y := by
    have hlt := hspan _ _ t.start.y t.finish.y (right_ne_zero_of_mul hproduct.ne)
    simpa [diagonal, low, high] using hlt
  have hturned : diagonal.reverse.direction.x * diagonal.reverse.direction.y =
      diagonal.direction.x * diagonal.direction.y := by
    simp only [direction_x, direction_y, reverse]
    ring
  rw [hcover]
  split_ifs
  · rw [hturned]
    exact mul_pos hrun hrise
  · exact mul_pos hrun hrise

/-- The cover of a segment and a stretch of its line runs the way of the segment. -/
theorem direction_cover {s : Segment Rat} (hproper : s.Proper) (hsign : s.KeepsSign) (a b : Rat) :
    ∃ k > 0, (s.cover (s.stretch a b)).direction = ⟨k * s.direction.x, k * s.direction.y⟩ := by
  refine ⟨max 1 (max a b) - min 0 (min a b), ?_, ?_⟩
  · have hlow : min 0 (min a b) ≤ 0 := min_le_left _ _
    have hhigh : 1 ≤ max 1 (max a b) := le_max_left _ _
    linarith
  · rw [cover_stretch hproper hsign]
    refine Point.ext ?_ ?_ <;> simp only [direction_x, direction_y, stretch_start, stretch_finish, point] <;> ring

end Segment

/-- **A cover is the union of its parts, unless the slope has lost its sign.** Let two segments of one line have
an end in common. Their cover has the points that one of them has and no others, and it runs the way of the first, if
and only if the first is not almost level. -/
theorem cover_exact_iff (K : Type) [Field K] [LinearOrder K] [IsStrictOrderedRing K] {s t : Segment Rat}
    (hs : s.Proper) (hline : s.SameLine t) (hmeets : s.meets t = true) :
    ((s.cover t).points K = s.points K ∪ t.points K ∧
        ∃ k > 0, (s.cover t).direction = ⟨k * s.direction.x, k * s.direction.y⟩) ↔
      ¬s.AlmostLevel := by
  constructor
  · rintro ⟨-, k, -, hdirection⟩ hlevel
    have hrises := Segment.cover_of_almostLevel hlevel t
    have hfalls := Segment.gradient_neg_iff.1 hlevel.1
    rw [hdirection] at hrises
    have hsquare : k * s.direction.x * (k * s.direction.y) = k ^ 2 * (s.direction.x * s.direction.y) := by ring
    rw [hsquare] at hrises
    exact absurd hrises (not_lt.2 (mul_nonpos_of_nonneg_of_nonpos (sq_nonneg k) hfalls.le))
  · intro hlevel
    have hsign := Segment.keepsSign_iff.2 hlevel
    obtain ⟨a, b, rfl, htouch⟩ := Segment.exists_stretch hs hline.cross_eq_zero hmeets
    exact ⟨Segment.points_cover K hs hsign htouch, Segment.direction_cover hs hsign a b⟩

/-- A line whose slope is just rounded to the least falling one, run through to and fro. -/
theorem cover_exact_iff_of_backtrack :
    let there : Segment Rat := ⟨⟨0, 0⟩, ⟨20000000000, -1⟩⟩
    let back : Segment Rat := ⟨⟨20000000000, -1⟩, ⟨-40000000000, 2⟩⟩
    (there.cover back).points ℝ = there.points ℝ ∪ back.points ℝ ∧
      ∃ k > 0, (there.cover back).direction = ⟨k * there.direction.x, k * there.direction.y⟩ := by
  intro there back
  have hlevel : ¬there.AlmostLevel := by
    rintro ⟨-, hflat⟩
    exact absurd hflat (by decide +kernel)
  have hproper : there.Proper := Or.inl (by decide +kernel)
  have hline : there.SameLine back := ⟨1, -2, by decide +kernel⟩
  exact (cover_exact_iff ℝ hproper hline (by decide +kernel)).2 hlevel

/-- The cover of two parts of a line that falls more slowly begins below both. -/
theorem cover_leaves_almost_level_line :
    let near : Segment Rat := ⟨⟨0, 0⟩, ⟨100000000000, -1⟩⟩
    let far : Segment Rat := ⟨⟨100000000000, -1⟩, ⟨200000000000, -2⟩⟩
    near.Proper ∧ far.Proper ∧ near.SameLine far ∧ near.meets far = true ∧ near.parallel far = true ∧
      (near.cover far).points ℚ ≠ near.points ℚ ∪ far.points ℚ := by
  intro near far
  refine ⟨Or.inl (by decide +kernel), Or.inl (by decide +kernel), ⟨1, 2, by decide +kernel⟩, by decide +kernel,
    by decide +kernel, ?_⟩
  intro heq
  have hstart : (⟨0, -2⟩ : Point ℚ) ∈ (near.cover far).points ℚ := ⟨0, by simp, by decide +kernel⟩
  rw [heq] at hstart
  rcases hstart with ⟨a, -, ha⟩ | ⟨a, -, ha⟩ <;> obtain ⟨hx, hy⟩ := Point.mk.inj ha
  · norm_num [near] at hx hy
    linarith
  · norm_num [far] at hx hy
    linarith

end LSystem
