import LSystem.Proofs.Plane.Coverage
import LSystem.Proofs.Plane.Covering
import Mathlib.Data.Sym.Sym2

/-! Segments without their direction. Two segments have one span if they are equal or run opposite ways, which is so
if each contains the other. Points, ends and containment see no more of a segment than its span, so a drawing may
be redrawn, in another order and with segments turned round, without any of them noticing.

Points are rational here. Whether segments with rational ends overlap does not depend on the plane
(`NonOverlapping.rational`). -/

namespace LSystem

namespace Segment

variable {s t : Segment Rat} {p : Point Rat}

theorem along_rat (s : Segment Rat) : s.along ℚ = s.point := by
  funext t
  simp [along, point]

theorem point_injective (hproper : s.Proper) : Function.Injective s.point := by
  rw [← along_rat]
  exact along_injective ℚ hproper

theorem points_rat (s : Segment Rat) : s.points ℚ = s.point '' Set.Icc 0 1 := by
  rw [points, along_rat]

theorem points_stretch_rat (s : Segment Rat) (a b : Rat) : (s.stretch a b).points ℚ = s.point '' Set.uIcc a b := by
  rw [points_stretch, along_rat]
  simp

theorem point_mem {x : Rat} (hx : x ∈ Set.Icc (0 : Rat) 1) : s.point x ∈ s.points ℚ := by
  rw [points_rat]
  exact ⟨x, hx, rfl⟩

theorem point_mem_stretch {a b x : Rat} (hx : x ∈ Set.uIcc a b) : s.point x ∈ (s.stretch a b).points ℚ := by
  rw [points_stretch_rat]
  exact ⟨x, hx, rfl⟩

theorem mem_uIcc_of_point_mem (hproper : s.Proper) {a b x : Rat} (h : s.point x ∈ (s.stretch a b).points ℚ) :
    x ∈ Set.uIcc a b := by
  rw [points_stretch_rat] at h
  exact (point_injective hproper).mem_set_image.1 h

theorem Contains.proper {piece : Segment Rat} (h : s.Contains piece) (hproper : piece.Proper) : s.Proper := by
  obtain ⟨a, ha, b, hb, rfl⟩ := h
  by_contra hs
  rw [Proper, not_or, not_not, not_not] at hs
  have hsame : s.point b = s.point a := by
    refine Point.ext ?_ ?_ <;> simp only [point, hs.1, hs.2, mul_zero]
  rw [stretch, hsame] at hproper
  exact s.stretch_not_proper a hproper

/-! ### Segments of one line -/

theorem parallel_stretch (hproper : s.Proper) {a b c d : Rat} (hab : a ≠ b) (hcd : c ≠ d) :
    (s.stretch a b).parallel (s.stretch c d) = true := by
  have hrun : ∀ a b, (s.stretch a b).direction.x = (b - a) * s.direction.x := by
    intro a b
    simp only [direction_x, stretch_start, stretch_finish, point]
    ring
  have hrise : ∀ a b, (s.stretch a b).direction.y = (b - a) * s.direction.y := by
    intro a b
    simp only [direction_y, stretch_start, stretch_finish, point]
    ring
  have hab' := sub_ne_zero.2 hab.symm
  have hcd' := sub_ne_zero.2 hcd.symm
  refine Scalar.Exact.parallel_slope_iff.2 ?_
  rw [hrun, hrise, hrun, hrise]
  by_cases hx : s.direction.x = 0
  · have hy := hproper.resolve_left (not_not.2 hx)
    exact Or.inl ⟨by rw [hx, mul_zero], mul_ne_zero hab' hy, by rw [hx, mul_zero], mul_ne_zero hcd' hy⟩
  · refine Or.inr ⟨mul_ne_zero hab' hx, mul_ne_zero hcd' hx, ?_⟩
    rw [mul_div_mul_left _ _ hab', mul_div_mul_left _ _ hcd']

/-- A segment that runs along the line of `s` and has a point on it lies on it. -/
theorem sameLine_of_multiple {k x y : Rat} (h : t.point y = s.point x) (hrun : t.direction.x = k * s.direction.x)
    (hrise : t.direction.y = k * s.direction.y) : s.SameLine t := by
  obtain ⟨hx, hy⟩ := Point.mk.inj h
  refine ⟨x - y * k, x + (1 - y) * k, Segment.ext ?_ ?_⟩
  · refine Point.ext ?_ ?_ <;> simp only [stretch_start, point]
    · linear_combination hx - y * hrun
    · linear_combination hy - y * hrise
  · rw [direction_x] at hrun hx
    rw [direction_y] at hrise hy
    refine Point.ext ?_ ?_ <;> simp only [stretch_finish, point]
    · linear_combination hx + (1 - y) * hrun
    · linear_combination hy + (1 - y) * hrise

/-- A segment with two points on the line of `s` lies on that line. -/
theorem sameLine_of_points (hproper : s.Proper) {x x' y y' : Rat} (hne : x ≠ x') (h : t.point y = s.point x)
    (h' : t.point y' = s.point x') : s.SameLine t := by
  obtain ⟨hx, hy⟩ := Point.mk.inj h
  obtain ⟨hx', hy'⟩ := Point.mk.inj h'
  have hne' : y' - y ≠ 0 := by
    intro hzero
    rw [sub_eq_zero] at hzero
    subst hzero
    exact hne (point_injective hproper (h.symm.trans h'))
  have hrun : t.direction.x = (x' - x) / (y' - y) * s.direction.x := by
    field_simp
    linear_combination hx' - hx
  have hrise : t.direction.y = (x' - x) / (y' - y) * s.direction.y := by
    field_simp
    linear_combination hy' - hy
  exact sameLine_of_multiple h hrun hrise

/-- An interval that has a point of the unit interval begins or ends where that does, or overlaps it. -/
theorem touching_or_infinite {a b : Rat} (hne : a ≠ b) (h : (Set.Icc 0 1 ∩ Set.uIcc a b).Nonempty) :
    (a = 0 ∨ a = 1 ∨ b = 0 ∨ b = 1) ∨ (Set.Icc 0 1 ∩ Set.uIcc a b).Infinite := by
  wlog hle : a ≤ b generalizing a b
  · rw [Set.uIcc_comm] at h ⊢
    exact (this hne.symm h (le_of_not_ge hle)).imp_left (by tauto)
  obtain ⟨x, hx, hxab⟩ := h
  rw [Set.uIcc_of_le hle] at hxab
  by_contra! hnot
  obtain ⟨⟨ha, ha', hb, hb'⟩, hfinite⟩ := hnot
  -- neither end is inside the unit interval, so the interval goes all the way through it
  rcases lt_or_gt_of_ne ha with hneg | hpos
  · have hbpos : 0 < b := lt_of_le_of_ne (hx.1.trans hxab.2) hb.symm
    rcases lt_or_gt_of_ne hb' with hlt | hgt
    · rw [Set.uIcc_comm] at hfinite
      exact infinite_of_inside_unit ℚ hbpos hlt hne hfinite
    · have hthrough : Set.Icc 0 1 ⊆ Set.Icc 0 1 ∩ Set.uIcc a b := by
        rw [Set.uIcc_of_le hle]
        exact fun y hy => ⟨hy, hneg.le.trans hy.1, hy.2.trans hgt.le⟩
      exact (Set.Icc_infinite zero_lt_one).mono hthrough hfinite
  · exact infinite_of_inside_unit ℚ hpos (lt_of_le_of_ne (hxab.1.trans hx.2) ha') hne.symm hfinite

/-- Segments that run along with each other and have a point in common touch or overlap. -/
theorem meets_or_infinite (hs : s.Proper) (ht : t.Proper) (hcross : cross s.direction t.direction = 0)
    (hcommon : (s.points ℚ ∩ t.points ℚ).Nonempty) :
    s.meets t = true ∨ (s.points ℚ ∩ t.points ℚ).Infinite := by
  obtain ⟨k, hrun, hrise⟩ := exists_multiple hs hcross
  obtain ⟨a, b, rfl⟩ : s.SameLine t := by
    obtain ⟨p, hp, hp'⟩ := hcommon
    rw [points_rat] at hp hp'
    obtain ⟨x, -, rfl⟩ := hp
    obtain ⟨y, -, h⟩ := hp'
    exact sameLine_of_multiple h hrun hrise
  have hne : a ≠ b := by
    rintro rfl
    exact s.stretch_not_proper a ht
  rw [points_rat, points_stretch_rat, ← Set.image_inter (point_injective hs)] at hcommon ⊢
  refine (touching_or_infinite hne (Set.image_nonempty.1 hcommon)).imp ?_ ?_
  · rintro (rfl | rfl | rfl | rfl)
    · exact meets_iff.2 ⟨s.start, Or.inl rfl, Or.inl s.point_zero.symm⟩
    · exact meets_iff.2 ⟨s.finish, Or.inr rfl, Or.inl s.point_one.symm⟩
    · exact meets_iff.2 ⟨s.start, Or.inl rfl, Or.inr s.point_zero.symm⟩
    · exact meets_iff.2 ⟨s.finish, Or.inr rfl, Or.inr s.point_one.symm⟩
  · intro hinfinite
    exact hinfinite.image (point_injective hs).injOn

/-- A segment and a stretch of its line that passes its start make up a longer one. -/
theorem exists_union {a b : Rat} (hzero : (0 : Rat) ∈ Set.uIcc a b) :
    ∃ whole : Segment Rat, whole.Contains s ∧ whole.Contains (s.stretch a b) ∧
      whole.points ℚ ⊆ s.points ℚ ∪ (s.stretch a b).points ℚ := by
  have hlow : min a b ≤ 0 := hzero.1
  have hone : 1 ≤ max 1 (max a b) := le_max_left _ _
  have hhigh : max a b ≤ max 1 (max a b) := le_max_right _ _
  have hlt : min a b < max 1 (max a b) := (hlow.trans_lt zero_lt_one).trans_le hone
  refine ⟨s.stretch (min a b) (max 1 (max a b)), ?_, ?_, ?_⟩
  · have hself := s.contains_stretch hlt ⟨hlow, zero_le_one.trans hone⟩ ⟨hlow.trans zero_le_one, hone⟩
    rwa [stretch_zero_one] at hself
  · exact s.contains_stretch hlt ⟨min_le_left a b, (le_max_left a b).trans hhigh⟩
      ⟨min_le_right a b, (le_max_right a b).trans hhigh⟩
  · rw [points_stretch_rat, Set.uIcc_of_le hlt.le]
    rintro _ ⟨x, hx, rfl⟩
    rcases le_or_gt x (max a b) with hle | hgt
    · exact Or.inr (point_mem_stretch ⟨hx.1, hle⟩)
    · exact Or.inl (point_mem ⟨hzero.2.trans hgt.le, (le_max_iff.1 hx.2).resolve_right (not_le.2 hgt)⟩)

/-! ### Spans -/

/-- The two ends of a segment, whichever of them comes first. -/
def span (s : Segment Rat) : Sym2 (Point Rat) := s(s.start, s.finish)

theorem span_eq_iff : s.span = t.span ↔ s = t ∨ s = t.reverse := by
  rw [span, span, Sym2.eq_iff, Segment.ext_iff, Segment.ext_iff]
  rfl

theorem span_reverse (s : Segment Rat) : s.reverse.span = s.span := span_eq_iff.2 (Or.inr rfl)

theorem mem_span_iff : p ∈ s.span ↔ s.HasEnd p := Sym2.mem_iff

theorem reverse_eq_stretch (s : Segment Rat) : s.reverse = s.stretch 1 0 := by
  rw [← reverse_stretch, stretch_zero_one]

theorem stretch_of_reverse (s : Segment Rat) (a b : Rat) : s.reverse.stretch (1 - a) (1 - b) = s.stretch a b := by
  rw [reverse_eq_stretch, stretch, point_stretch, point_stretch, stretch]
  congr 2 <;> ring

/-- A stretch from the one end to the other, either way. -/
theorem span_stretch {a b : Rat} (hlow : min a b = 0) (hhigh : max a b = 1) : (s.stretch a b).span = s.span := by
  rcases le_total a b with hle | hle
  · rw [min_eq_left hle] at hlow
    rw [max_eq_right hle] at hhigh
    rw [hlow, hhigh, stretch_zero_one]
  · rw [min_eq_right hle] at hlow
    rw [max_eq_left hle] at hhigh
    rw [hlow, hhigh, ← reverse_eq_stretch, span_reverse]

theorem contains_of_span_eq (h : s.span = t.span) : s.Contains t := by
  have hzero : (0 : Rat) ∈ Set.Icc 0 1 := Set.left_mem_Icc.2 zero_le_one
  have hone : (1 : Rat) ∈ Set.Icc 0 1 := Set.right_mem_Icc.2 zero_le_one
  rcases span_eq_iff.1 h.symm with rfl | rfl
  · exact .refl t
  · exact ⟨1, hone, 0, hzero, s.reverse_eq_stretch⟩

theorem points_of_span_eq (h : s.span = t.span) : s.points ℚ = t.points ℚ :=
  ((contains_of_span_eq h.symm).points_subset ℚ).antisymm ((contains_of_span_eq h).points_subset ℚ)

theorem parallel_of_span_eq (hproper : s.Proper) (h : s.span = t.span) : s.parallel t = true := by
  have hself := parallel_stretch hproper zero_ne_one zero_ne_one
  rw [stretch_zero_one] at hself
  rw [parallel_comm]
  exact (contains_of_span_eq h.symm).parallel hself

/-- Segments that contain each other have one span. -/
theorem span_eq_of_contains (hproper : s.Proper) (h : s.Contains t) (h' : t.Contains s) : s.span = t.span := by
  obtain ⟨a, ha, b, hb, rfl⟩ := h
  have hsubset := h'.points_subset ℚ
  have hzero := mem_uIcc_of_point_mem hproper (hsubset (point_mem (Set.left_mem_Icc.2 zero_le_one)))
  have hone := mem_uIcc_of_point_mem hproper (hsubset (point_mem (Set.right_mem_Icc.2 zero_le_one)))
  exact (span_stretch (hzero.1.antisymm (le_min ha.1 hb.1)) ((max_le ha.2 hb.2).antisymm hone.2)).symm

end Segment

/-! ### Redrawn lists -/

/-- The same segments, in whatever order and run through in whatever direction. -/
def Redrawn (segments other : List (Segment Rat)) : Prop :=
  (segments.map Segment.span).Perm (other.map Segment.span)

instance (segments other : List (Segment Rat)) : Decidable (Redrawn segments other) :=
  inferInstanceAs (Decidable (List.Perm _ _))

namespace Redrawn

variable {segments other : List (Segment Rat)} {t : Segment Rat}

theorem symm (h : Redrawn segments other) : Redrawn other segments := List.Perm.symm h

theorem exists_mem (h : Redrawn segments other) (ht : t ∈ other) : ∃ s ∈ segments, s.span = t.span :=
  List.mem_map.1 (h.mem_iff.2 (List.mem_map_of_mem ht))

theorem carriesAll {grid : Lattice} (h : Redrawn segments other) (hgrid : grid.CarriesAll segments) :
    grid.CarriesAll other := by
  rintro p ⟨t, ht, hp⟩
  obtain ⟨s, hs, hspan⟩ := h.exists_mem ht
  rw [← Segment.mem_span_iff, ← hspan, Segment.mem_span_iff] at hp
  exact hgrid p ⟨s, hs, hp⟩

theorem proper (h : Redrawn segments other) (hproper : ∀ s ∈ segments, s.Proper) (ht : t ∈ other) : t.Proper := by
  obtain ⟨s, hs, hspan⟩ := h.exists_mem ht
  exact (Segment.contains_of_span_eq hspan.symm).proper (hproper s hs)

theorem ink_subset (h : Redrawn segments other) : ink ℚ other ⊆ ink ℚ segments := by
  rintro p ⟨t, ht, hp⟩
  obtain ⟨s, hs, hspan⟩ := h.exists_mem ht
  exact ⟨s, hs, Segment.points_of_span_eq hspan ▸ hp⟩

theorem ink_eq (h : Redrawn segments other) : ink ℚ segments = ink ℚ other := h.symm.ink_subset.antisymm h.ink_subset

end Redrawn

end LSystem
