import LSystem.Proofs.Plane.Rational
import Mathlib.Analysis.Convex.Segment
import Mathlib.Data.Rat.Cast.Order
import Mathlib.Tactic.FieldSimp

/-! The line through a segment, the points that a segment covers, and the cover of two segments of
one line. A point of the line is given by its parameter: the start of the segment has 0 and its
finish has 1. Everything about two segments of one line is then about two intervals.

The ends of segments are rational; the plane is taken over any ordered field `K`, so that what is
said here holds of its rational points as well as of its real ones. -/

namespace LSystem

namespace Segment

/-- The point with parameter `t` on the line through `s`. -/
def point (s : Segment Rat) (t : Rat) : Point Rat :=
  ⟨s.start.x + t * s.direction.x, s.start.y + t * s.direction.y⟩

/-- The part of the line through `s` from parameter `a` to parameter `b`. -/
def stretch (s : Segment Rat) (a b : Rat) : Segment Rat := ⟨s.point a, s.point b⟩

@[simp] theorem direction_x (s : Segment Rat) : s.direction.x = s.finish.x - s.start.x := rfl

@[simp] theorem direction_y (s : Segment Rat) : s.direction.y = s.finish.y - s.start.y := rfl

@[simp] theorem point_zero (s : Segment Rat) : s.point 0 = s.start := by
  simp [point]

@[simp] theorem point_one (s : Segment Rat) : s.point 1 = s.finish := by
  simp [point]

@[simp] theorem stretch_start (s : Segment Rat) (a b : Rat) : (s.stretch a b).start = s.point a := rfl

@[simp] theorem stretch_finish (s : Segment Rat) (a b : Rat) : (s.stretch a b).finish = s.point b := rfl

theorem stretch_zero_one (s : Segment Rat) : s.stretch 0 1 = s := by
  simp [stretch]

/-- The second segment lies on the line through the first. -/
def SameLine (s t : Segment Rat) : Prop := ∃ a b, t = s.stretch a b

theorem reverse_stretch (s : Segment Rat) (a b : Rat) : (s.stretch a b).reverse = s.stretch b a := rfl

/-- Twice the area between two directions; it vanishes if and only if they lie on one line. -/
def cross (v w : Point Rat) : Rat := v.x * w.y - v.y * w.x

theorem SameLine.cross_eq_zero {s t : Segment Rat} (h : s.SameLine t) : cross s.direction t.direction = 0 := by
  obtain ⟨a, b, rfl⟩ := h
  simp only [cross, direction_x, direction_y, stretch_start, stretch_finish, point]
  ring

/-- A segment whose ends differ. -/
def Proper (s : Segment Rat) : Prop := s.direction.x ≠ 0 ∨ s.direction.y ≠ 0

theorem proper_of_parallel {s t : Segment Rat} (h : s.parallel t = true) : s.Proper := by
  rcases Scalar.Exact.parallel_slope_iff.1 h with ⟨-, hrise, -, -⟩ | ⟨hrun, -, -⟩
  · exact Or.inr hrise
  · exact Or.inl hrun

theorem parallel_comm (s t : Segment Rat) : s.parallel t = t.parallel s := by
  rw [Bool.eq_iff_iff]
  refine Scalar.Exact.parallel_slope_iff.trans (Iff.trans ?_ Scalar.Exact.parallel_slope_iff.symm)
  constructor <;>
    · rintro (⟨hrun, hrise, hrun', hrise'⟩ | ⟨hrun, hrun', hnearest⟩)
      · exact Or.inl ⟨hrun', hrise', hrun, hrise⟩
      · exact Or.inr ⟨hrun', hrun, hnearest.symm⟩

theorem proper_right_of_parallel {s t : Segment Rat} (h : s.parallel t = true) : t.Proper := by
  rw [parallel_comm] at h
  exact proper_of_parallel h

theorem parallel_trans {s t u : Segment Rat} (h : s.parallel t = true) (h' : t.parallel u = true) :
    s.parallel u = true := by
  refine Scalar.Exact.parallel_slope_iff.2 ?_
  rcases Scalar.Exact.parallel_slope_iff.1 h with ⟨hs, hs', ht, -⟩ | ⟨hs, ht, hst⟩ <;>
    rcases Scalar.Exact.parallel_slope_iff.1 h' with ⟨ht', -, hu, hu'⟩ | ⟨ht', hu, htu⟩
  · exact Or.inl ⟨hs, hs', hu, hu'⟩
  · exact absurd ht ht'
  · exact absurd ht' ht
  · exact Or.inr ⟨hs, hu, hst.trans htu⟩

theorem gradient_neg_iff {x y : Rat} : y / x < 0 ↔ x * y < 0 := by
  rw [div_neg_iff, mul_neg_iff]
  constructor
  · intro h
    exact h.symm.imp And.symm And.symm
  · intro h
    exact h.symm.imp And.symm And.symm

/-- A segment that runs along another has a multiple of its direction. -/
theorem exists_multiple {s t : Segment Rat} (hproper : s.Proper) (hcross : cross s.direction t.direction = 0) :
    ∃ k, t.direction.x = k * s.direction.x ∧ t.direction.y = k * s.direction.y := by
  unfold cross at hcross
  rcases hproper with h | h
  · refine ⟨t.direction.x / s.direction.x, (div_mul_cancel₀ _ h).symm, ?_⟩
    field_simp
    linarith
  · refine ⟨t.direction.y / s.direction.y, ?_, (div_mul_cancel₀ _ h).symm⟩
    field_simp
    linarith

/-- A segment that runs along the line of `s` and has an end on it is a stretch of that line. -/
theorem exists_stretch_of_end {s t : Segment Rat} (hproper : s.Proper)
    (hcross : cross s.direction t.direction = 0) {a : Rat} (hend : t.HasEnd (s.point a)) :
    ∃ b, t = s.stretch a b ∨ t = s.stretch b a := by
  obtain ⟨k, hkx, hky⟩ := exists_multiple hproper hcross
  rcases hend with hstart | hfinish
  · rw [direction_x, ← hstart] at hkx
    rw [direction_y, ← hstart] at hky
    refine ⟨a + k, Or.inl (Segment.ext hstart.symm (Point.ext ?_ ?_))⟩ <;>
      simp only [point, stretch_finish] at hkx hky ⊢ <;> linarith
  · rw [direction_x, ← hfinish] at hkx
    rw [direction_y, ← hfinish] at hky
    refine ⟨a - k, Or.inr (Segment.ext (Point.ext ?_ ?_) hfinish.symm)⟩ <;>
      simp only [point, stretch_start] at hkx hky ⊢ <;> linarith

/-- A segment on the line of `s` that has an end in common with `s` is a stretch of that line. -/
theorem exists_stretch {s t : Segment Rat} (hproper : s.Proper)
    (hcross : cross s.direction t.direction = 0) (hmeets : s.meets t = true) :
    ∃ a b, t = s.stretch a b ∧ (a = 0 ∨ a = 1 ∨ b = 0 ∨ b = 1) := by
  obtain ⟨p, hs, ht⟩ := meets_iff.1 hmeets
  obtain ⟨a, ha, rfl⟩ : ∃ a, (a = 0 ∨ a = 1) ∧ p = s.point a := by
    rcases hs with rfl | rfl
    · exact ⟨0, Or.inl rfl, s.point_zero.symm⟩
    · exact ⟨1, Or.inr rfl, s.point_one.symm⟩
  obtain ⟨b, hb | hb⟩ := exists_stretch_of_end hproper hcross ht
  · exact ⟨a, b, hb, ha.imp_right Or.inl⟩
  · exact ⟨b, a, hb, Or.inr (Or.inr ha)⟩

/-! ### The cover of two stretches of one line

Along a line every coordinate rises or falls with the parameter, so the least and the greatest of
four coordinates belong to the least and the greatest of four parameters. -/

theorem monotone_axis {x d : Rat} (h : 0 ≤ d) : Monotone fun t : Rat => x + t * d := by
  intro t u htu
  simpa using mul_le_mul_of_nonneg_right htu h

theorem antitone_axis {x d : Rat} (h : d ≤ 0) : Antitone fun t : Rat => x + t * d := by
  intro t u htu
  simpa using mul_le_mul_of_nonpos_right htu h

/-- One axis: the coordinate starts at `x` and changes by `d` from parameter 0 to parameter 1. -/
theorem axis_extremes (x d a b : Rat) :
    let value := fun t : Rat => x + t * d
    let low := min (min (min (value 0) (value 1)) (value a)) (value b)
    let high := max (max (max (value 0) (value 1)) (value a)) (value b)
    (0 ≤ d → low = value (min 0 (min a b)) ∧ high = value (max 1 (max a b))) ∧
    (d ≤ 0 → low = value (max 1 (max a b)) ∧ high = value (min 0 (min a b))) := by
  intro value low high
  have hleast : min 0 (min a b) = min (min (min 0 1) a) b := by
    rw [min_eq_left zero_le_one, min_assoc]
  have hgreatest : max 1 (max a b) = max (max (max 0 1) a) b := by
    rw [max_eq_right zero_le_one, max_assoc]
  constructor
  · intro h
    have hmono : Monotone value := monotone_axis h
    rw [hleast, hgreatest, hmono.map_min, hmono.map_min, hmono.map_min, hmono.map_max, hmono.map_max,
      hmono.map_max]
    exact ⟨rfl, rfl⟩
  · intro h
    have hanti : Antitone value := antitone_axis h
    rw [hleast, hgreatest, hanti.map_min, hanti.map_min, hanti.map_min, hanti.map_max, hanti.map_max,
      hanti.map_max]
    exact ⟨rfl, rfl⟩

/-- The least and the greatest horizontal coordinate of `s` and of two points of its line. -/
theorem extremes_x (s : Segment Rat) (a b : Rat) :
    let low := (s.low.lesser (s.point a)).lesser (s.point b)
    let high := (s.high.greater (s.point a)).greater (s.point b)
    (0 ≤ s.direction.x → low.x = (s.point (min 0 (min a b))).x ∧ high.x = (s.point (max 1 (max a b))).x) ∧
    (s.direction.x ≤ 0 → low.x = (s.point (max 1 (max a b))).x ∧ high.x = (s.point (min 0 (min a b))).x) := by
  intro low high
  have hlow : low.x = min (min (min (s.point 0).x (s.point 1).x) (s.point a).x) (s.point b).x := by
    simp [low, Segment.low]
  have hhigh : high.x = max (max (max (s.point 0).x (s.point 1).x) (s.point a).x) (s.point b).x := by
    simp [high, Segment.high]
  rw [hlow, hhigh]
  exact axis_extremes s.start.x s.direction.x a b

/-- The least and the greatest vertical coordinate of `s` and of two points of its line. -/
theorem extremes_y (s : Segment Rat) (a b : Rat) :
    let low := (s.low.lesser (s.point a)).lesser (s.point b)
    let high := (s.high.greater (s.point a)).greater (s.point b)
    (0 ≤ s.direction.y → low.y = (s.point (min 0 (min a b))).y ∧ high.y = (s.point (max 1 (max a b))).y) ∧
    (s.direction.y ≤ 0 → low.y = (s.point (max 1 (max a b))).y ∧ high.y = (s.point (min 0 (min a b))).y) := by
  intro low high
  have hlow : low.y = min (min (min (s.point 0).y (s.point 1).y) (s.point a).y) (s.point b).y := by
    simp [low, Segment.low]
  have hhigh : high.y = max (max (max (s.point 0).y (s.point 1).y) (s.point a).y) (s.point b).y := by
    simp [high, Segment.high]
  rw [hlow, hhigh]
  exact axis_extremes s.start.y s.direction.y a b

/-- Rounding the slope has not changed its sign; a level or a vertical line may count either way. -/
def KeepsSign (s : Segment Rat) : Prop :=
  if Scalar.falling s.slope then s.direction.x * s.direction.y ≤ 0 else 0 ≤ s.direction.x * s.direction.y

/-- The segment falls, but its slope is rounded to zero. -/
def AlmostLevel (s : Segment Rat) : Prop :=
  s.direction.y / s.direction.x < 0 ∧ -(1 / 2) < s.direction.y / s.direction.x * Scalar.Exact.slopeUnit

theorem falling_iff {s : Segment Rat} :
    Scalar.falling s.slope = true ↔
      (s.direction.x = 0 ∧ s.direction.y < 0) ∨
      (s.direction.x ≠ 0 ∧ s.direction.y / s.direction.x * Scalar.Exact.slopeUnit ≤ -(1 / 2)) :=
  Scalar.Exact.falling_slope_iff

theorem AlmostLevel.falling_eq_false {s : Segment Rat} (h : s.AlmostLevel) : Scalar.falling s.slope = false := by
  rw [Bool.eq_false_iff, ne_eq, falling_iff]
  rintro (⟨hrun, -⟩ | ⟨-, hsteep⟩)
  · have hgradient := h.1
    rw [hrun, div_zero] at hgradient
    exact lt_irrefl _ hgradient
  · exact absurd h.2 (not_lt.2 hsteep)

/-- Rounding takes the sign of the slope from almost level segments and from no others. -/
theorem keepsSign_iff {s : Segment Rat} : s.KeepsSign ↔ ¬s.AlmostLevel := by
  unfold KeepsSign
  split_ifs with hfalling
  · have hsteep : ¬s.AlmostLevel := fun h => Bool.noConfusion (hfalling.symm.trans h.falling_eq_false)
    refine iff_of_true ?_ hsteep
    rcases falling_iff.1 hfalling with ⟨hrun, -⟩ | ⟨-, hle⟩
    · rw [hrun, zero_mul]
    · rw [Scalar.Exact.slopeUnit_eq] at hle
      exact (gradient_neg_iff.1 (by linarith)).le
  · have hflat : s.direction.x ≠ 0 → -(1 / 2) < s.direction.y / s.direction.x * Scalar.Exact.slopeUnit := by
      intro hrun
      exact not_le.1 fun hle => hfalling (falling_iff.2 (Or.inr ⟨hrun, hle⟩))
    rw [← not_lt, not_iff_not, ← gradient_neg_iff]
    refine ⟨fun h => ⟨h, hflat ?_⟩, And.left⟩
    intro hrun
    rw [hrun, div_zero] at h
    exact lt_irrefl _ h

theorem dot_stretch (s : Segment Rat) (a b : Rat) :
    (s.stretch a b).direction.dot s.direction =
      (b - a) * (s.direction.x ^ 2 + s.direction.y ^ 2) := by
  simp only [Point.dot_rat, direction_x, direction_y, stretch_start, stretch_finish, point]
  ring

theorem orient_stretch {s : Segment Rat} (hproper : s.Proper) {a b : Rat} (hlt : a < b)
    {diagonal : Segment Rat} (hdiagonal : diagonal = s.stretch a b ∨ diagonal = s.stretch b a) :
    (if diagonal.direction.dot s.direction < 0 then diagonal.reverse else diagonal) = s.stretch a b := by
  have hpos : 0 < s.direction.x ^ 2 + s.direction.y ^ 2 := by
    rcases hproper with h | h
    · have := pow_pos (abs_pos.2 h) 2
      rw [sq_abs] at this
      positivity
    · have := pow_pos (abs_pos.2 h) 2
      rw [sq_abs] at this
      positivity
  rcases hdiagonal with rfl | rfl
  · rw [dot_stretch, if_neg]
    exact not_lt.2 (mul_nonneg (sub_nonneg.2 hlt.le) hpos.le)
  · rw [dot_stretch, if_pos, reverse_stretch]
    exact mul_neg_of_neg_of_pos (sub_neg.2 hlt) hpos

/-- The cover of a segment and a stretch of its line is the least stretch that holds both, and runs
the way of the segment. -/
theorem cover_stretch {s : Segment Rat} (hproper : s.Proper) (hsign : s.KeepsSign) (a b : Rat) :
    s.cover (s.stretch a b) = s.stretch (min 0 (min a b)) (max 1 (max a b)) := by
  have hlt : min 0 (min a b) < max 1 (max a b) := by
    calc min 0 (min a b) ≤ 0 := min_le_left _ _
      _ < 1 := zero_lt_one
      _ ≤ max 1 (max a b) := le_max_left _ _
  refine orient_stretch hproper hlt ?_
  obtain ⟨hxup, hxdown⟩ := extremes_x s a b
  obtain ⟨hyup, hydown⟩ := extremes_y s a b
  unfold KeepsSign at hsign
  split_ifs at hsign ⊢ with hfalling
  · rcases mul_nonpos_iff.1 hsign with ⟨hx, hy⟩ | ⟨hx, hy⟩
    · exact Or.inl (Segment.ext (Point.ext (hxup hx).1 (hydown hy).2) (Point.ext (hxup hx).2 (hydown hy).1))
    · exact Or.inr (Segment.ext (Point.ext (hxdown hx).1 (hyup hy).2) (Point.ext (hxdown hx).2 (hyup hy).1))
  · rcases mul_nonneg_iff.1 hsign with ⟨hx, hy⟩ | ⟨hx, hy⟩
    · exact Or.inl (Segment.ext (Point.ext (hxup hx).1 (hyup hy).1) (Point.ext (hxup hx).2 (hyup hy).2))
    · exact Or.inr
        (Segment.ext (Point.ext (hxdown hx).1 (hydown hy).1) (Point.ext (hxdown hx).2 (hydown hy).2))

/-- The ends of a cover are among those of its parts. -/
theorem hasEnd_of_cover {s : Segment Rat} (hproper : s.Proper) (hsign : s.KeepsSign) {a b : Rat}
    {p : Point Rat} (h : (s.cover (s.stretch a b)).HasEnd p) :
    s.HasEnd p ∨ (s.stretch a b).HasEnd p := by
  rw [cover_stretch hproper hsign] at h
  rcases h with rfl | rfl
  · rw [stretch_start]
    rcases min_choice 0 (min a b) with h0 | h0 <;> rw [h0]
    · exact Or.inl (Or.inl s.point_zero)
    · rcases min_choice a b with hab | hab <;> rw [hab]
      · exact Or.inr (Or.inl rfl)
      · exact Or.inr (Or.inr rfl)
  · rw [stretch_finish]
    rcases max_choice 1 (max a b) with h1 | h1 <;> rw [h1]
    · exact Or.inl (Or.inr s.point_one)
    · rcases max_choice a b with hab | hab <;> rw [hab]
      · exact Or.inr (Or.inl rfl)
      · exact Or.inr (Or.inr rfl)

/-! ### The points that are covered -/

variable (K : Type) [Field K] [LinearOrder K] [IsStrictOrderedRing K]

/-- The point with parameter `t` on the line through `s`, in the plane over `K`. -/
def along (s : Segment Rat) (t : K) : Point K :=
  ⟨s.start.x + t * s.direction.x, s.start.y + t * s.direction.y⟩

/-- The points between the ends of a segment, the ends included. -/
def points (s : Segment Rat) : Set (Point K) := s.along K '' Set.Icc 0 1

theorem points_stretch (s : Segment Rat) (a b : Rat) :
    (s.stretch a b).points K = s.along K '' Set.uIcc (a : K) (b : K) := by
  have halong : ∀ t : K, (s.stretch a b).along K t = s.along K (a + t • ((b : K) - a)) := by
    intro t
    simp only [along, stretch_start, stretch_finish, direction_x, direction_y, point, smul_eq_mul]
    push_cast
    exact Point.ext (by ring) (by ring)
  rw [points, ← segment_eq_uIcc, segment_eq_image', Set.image_image]
  apply Set.image_congr
  intro t _
  exact halong t

theorem uIcc_union_of_touching {a b : K} (h : a = 0 ∨ a = 1 ∨ b = 0 ∨ b = 1) :
    Set.uIcc 0 1 ∪ Set.uIcc a b = Set.uIcc (min 0 (min a b)) (max 1 (max a b)) := by
  have hlow : min a b ≤ 1 := by
    rcases h with rfl | rfl | rfl | rfl <;> simp
  have hhigh : 0 ≤ max a b := by
    rcases h with rfl | rfl | rfl | rfl <;> simp
  have hle : min 0 (min a b) ≤ max 1 (max a b) := by
    calc min 0 (min a b) ≤ 0 := min_le_left _ _
      _ ≤ 1 := zero_le_one
      _ ≤ max 1 (max a b) := le_max_left _ _
  rw [Set.uIcc_of_le zero_le_one, Set.uIcc, Set.uIcc_of_le hle]
  exact Set.Icc_union_Icc' hlow hhigh

/-- The cover of a segment and a touching stretch of its line has the points of both. -/
theorem points_cover {s : Segment Rat} (hproper : s.Proper) (hsign : s.KeepsSign) {a b : Rat}
    (htouch : a = 0 ∨ a = 1 ∨ b = 0 ∨ b = 1) :
    (s.cover (s.stretch a b)).points K = s.points K ∪ (s.stretch a b).points K := by
  have hcast : (a : K) = 0 ∨ (a : K) = 1 ∨ (b : K) = 0 ∨ (b : K) = 1 := by
    exact_mod_cast htouch
  have hself : s.points K = s.along K '' Set.uIcc 0 1 := by
    simpa [stretch_zero_one] using points_stretch K s 0 1
  rw [cover_stretch hproper hsign, points_stretch, points_stretch, hself, ← Set.image_union,
    uIcc_union_of_touching K hcast]
  push_cast
  rfl

end Segment

/-- The points that some segment of a list covers. -/
def ink (K : Type) [Field K] [LinearOrder K] (segments : List (Segment Rat)) : Set (Point K) :=
  {p | ∃ s ∈ segments, p ∈ s.points K}

end LSystem
