import LSystem.Proofs.Plane.Line
import Mathlib.Order.Interval.Set.Infinite

/-! Segments that are parts of others. A part is given by two parameters between 0 and 1; it may run either way and
may be a single point. What is said of two segments of one line, that one covers the other, that they run
apart, or that one runs into the other and overlaps it, is again about two intervals. -/

namespace LSystem

namespace Segment

/-- The piece is a part of the segment, run through either way. -/
def Contains (s piece : Segment Rat) : Prop :=
  ∃ a ∈ Set.Icc (0 : Rat) 1, ∃ b ∈ Set.Icc (0 : Rat) 1, piece = s.stretch a b

/-- The point lies strictly between the ends of the segment. -/
def Inside (s : Segment Rat) (p : Point Rat) : Prop := ∃ a ∈ Set.Ioo (0 : Rat) 1, p = s.point a

theorem Contains.refl (s : Segment Rat) : s.Contains s :=
  ⟨0, Set.left_mem_Icc.2 zero_le_one, 1, Set.right_mem_Icc.2 zero_le_one, s.stretch_zero_one.symm⟩

theorem point_stretch (s : Segment Rat) (a b c : Rat) : (s.stretch a b).point c = s.point (a + c * (b - a)) := by
  refine Point.ext ?_ ?_ <;> simp only [point, direction_x, direction_y, stretch_start, stretch_finish] <;> ring

theorem between_mem {a b c : Rat} (ha : a ∈ Set.Icc (0 : Rat) 1) (hb : b ∈ Set.Icc (0 : Rat) 1)
    (hc : c ∈ Set.Icc (0 : Rat) 1) : a + c * (b - a) ∈ Set.Icc (0 : Rat) 1 := by
  have hmix : a + c * (b - a) = (1 - c) * a + c * b := by ring
  have hrest : 0 ≤ 1 - c := sub_nonneg.2 hc.2
  rw [hmix]
  constructor
  · exact add_nonneg (mul_nonneg hrest ha.1) (mul_nonneg hc.1 hb.1)
  · calc (1 - c) * a + c * b ≤ (1 - c) * 1 + c * 1 :=
          add_le_add (mul_le_mul_of_nonneg_left ha.2 hrest) (mul_le_mul_of_nonneg_left hb.2 hc.1)
      _ = 1 := by ring

theorem Contains.trans {s t u : Segment Rat} (h : s.Contains t) (h' : t.Contains u) : s.Contains u := by
  obtain ⟨a, ha, b, hb, rfl⟩ := h
  obtain ⟨c, hc, d, hd, rfl⟩ := h'
  refine ⟨_, between_mem ha hb hc, _, between_mem ha hb hd, ?_⟩
  rw [stretch, point_stretch, point_stretch, stretch]

theorem contains_stretch (s : Segment Rat) {low high a b : Rat} (hlt : low < high) (ha : a ∈ Set.Icc low high)
    (hb : b ∈ Set.Icc low high) : (s.stretch low high).Contains (s.stretch a b) := by
  have hpos : 0 < high - low := sub_pos.2 hlt
  have hmem : ∀ c ∈ Set.Icc low high, (c - low) / (high - low) ∈ Set.Icc (0 : Rat) 1 := by
    intro c hc
    exact ⟨div_nonneg (sub_nonneg.2 hc.1) hpos.le, (div_le_one hpos).2 (sub_le_sub_right hc.2 low)⟩
  have hpoint : ∀ c, (s.stretch low high).point ((c - low) / (high - low)) = s.point c := by
    intro c
    rw [point_stretch, div_mul_cancel₀ _ hpos.ne', add_sub_cancel]
  refine ⟨_, hmem a ha, _, hmem b hb, ?_⟩
  rw [stretch, stretch, hpoint, hpoint]

/-- The cover of a segment and a stretch of its line contains both. -/
theorem contains_cover {s : Segment Rat} (hproper : s.Proper) (hsign : s.KeepsSign) (a b : Rat) :
    (s.cover (s.stretch a b)).Contains s ∧ (s.cover (s.stretch a b)).Contains (s.stretch a b) := by
  have hzero : min 0 (min a b) ≤ 0 := min_le_left _ _
  have hone : 1 ≤ max 1 (max a b) := le_max_left _ _
  have hlow : min 0 (min a b) ≤ min a b := min_le_right _ _
  have hhigh : max a b ≤ max 1 (max a b) := le_max_right _ _
  have hlt : min 0 (min a b) < max 1 (max a b) := (hzero.trans_lt zero_lt_one).trans_le hone
  rw [cover_stretch hproper hsign]
  constructor
  · have hself := contains_stretch s hlt ⟨hzero, zero_le_one.trans hone⟩ ⟨hzero.trans zero_le_one, hone⟩
    rwa [stretch_zero_one] at hself
  · exact contains_stretch s hlt ⟨hlow.trans (min_le_left _ _), (le_max_left _ _).trans hhigh⟩
      ⟨hlow.trans (min_le_right _ _), (le_max_right _ _).trans hhigh⟩

theorem Contains.exists_point {s piece : Segment Rat} (h : s.Contains piece) {p : Point Rat} (hp : piece.HasEnd p) :
    ∃ a ∈ Set.Icc (0 : Rat) 1, p = s.point a := by
  obtain ⟨a, ha, b, hb, rfl⟩ := h
  rcases hp with rfl | rfl
  · exact ⟨a, ha, rfl⟩
  · exact ⟨b, hb, rfl⟩

/-- What is parallel to a part is parallel to the whole. -/
theorem Contains.parallel {s piece u : Segment Rat} (h : s.Contains piece) (hparallel : piece.parallel u = true) :
    s.parallel u = true := by
  obtain ⟨a, ha, b, hb, rfl⟩ := h
  have hx : (s.stretch a b).direction.x = (b - a) * s.direction.x := by
    simp only [direction_x, stretch_start, stretch_finish, point]
    ring
  have hy : (s.stretch a b).direction.y = (b - a) * s.direction.y := by
    simp only [direction_y, stretch_start, stretch_finish, point]
    ring
  have hiff := Scalar.Exact.parallel_slope_iff.1 hparallel
  rw [hx, hy] at hiff
  refine Scalar.Exact.parallel_slope_iff.2 ?_
  rcases hiff with ⟨hrun, hrise, hu⟩ | ⟨hrun, hu, hnearest⟩
  · have hne := left_ne_zero_of_mul hrise
    exact Or.inl ⟨(mul_eq_zero.1 hrun).resolve_left hne, right_ne_zero_of_mul hrise, hu⟩
  · have hne := left_ne_zero_of_mul hrun
    rw [mul_div_mul_left _ _ hne] at hnearest
    exact Or.inr ⟨right_ne_zero_of_mul hrun, hu, hnearest⟩

variable (K : Type) [Field K] [LinearOrder K] [IsStrictOrderedRing K]

theorem Contains.points_subset {s piece : Segment Rat} (h : s.Contains piece) : piece.points K ⊆ s.points K := by
  obtain ⟨a, ha, b, hb, rfl⟩ := h
  rw [points_stretch]
  refine Set.image_mono ?_
  refine Set.uIcc_subset_Icc ?_ ?_
  · exact ⟨by exact_mod_cast ha.1, by exact_mod_cast ha.2⟩
  · exact ⟨by exact_mod_cast hb.1, by exact_mod_cast hb.2⟩

theorem along_injective {s : Segment Rat} (hproper : s.Proper) : Function.Injective (s.along K) := by
  intro t u h
  obtain ⟨hx, hy⟩ := Point.mk.inj h
  rcases hproper with hne | hne
  · have hcast : (s.direction.x : K) ≠ 0 := by exact_mod_cast hne
    exact mul_right_cancel₀ hcast (add_left_cancel hx)
  · have hcast : (s.direction.y : K) ≠ 0 := by exact_mod_cast hne
    exact mul_right_cancel₀ hcast (add_left_cancel hy)

omit [IsStrictOrderedRing K] in
/-- An interval with an end in common with the unit interval holds it or is held by it, or they run apart. -/
theorem unit_interval_of_touching {a b : K} (h : a = 0 ∨ a = 1 ∨ b = 0 ∨ b = 1) :
    Set.Icc 0 1 ⊆ Set.uIcc a b ∨ Set.uIcc a b ⊆ Set.Icc 0 1 ∨ (Set.Icc 0 1 ∩ Set.uIcc a b).Subsingleton := by
  wlog hle : a ≤ b generalizing a b
  · rw [Set.uIcc_comm]
    exact this (by tauto) (le_of_not_ge hle)
  rw [Set.uIcc_of_le hle]
  rcases h with rfl | rfl | rfl | rfl
  · rcases le_total b 1 with hb | hb
    · exact Or.inr (Or.inl (Set.Icc_subset_Icc_right hb))
    · exact Or.inl (Set.Icc_subset_Icc_right hb)
  · refine Or.inr (Or.inr fun t ht u hu => ?_)
    exact (ht.1.2.antisymm ht.2.1).trans (hu.2.1.antisymm hu.1.2)
  · refine Or.inr (Or.inr fun t ht u hu => ?_)
    exact (ht.2.2.antisymm ht.1.1).trans (hu.1.1.antisymm hu.2.2)
  · rcases le_total 0 a with ha | ha
    · exact Or.inr (Or.inl (Set.Icc_subset_Icc_left ha))
    · exact Or.inl (Set.Icc_subset_Icc_left ha)

/-- Of two segments of one line that have an end in common, one covers the other unless they run apart. -/
theorem points_of_meets {s t : Segment Rat} (hproper : s.Proper) (hcross : cross s.direction t.direction = 0)
    (hmeets : s.meets t = true) :
    s.points K ⊆ t.points K ∨ t.points K ⊆ s.points K ∨ (s.points K ∩ t.points K).Subsingleton := by
  obtain ⟨a, b, rfl, htouch⟩ := exists_stretch hproper hcross hmeets
  have hcast : (a : K) = 0 ∨ (a : K) = 1 ∨ (b : K) = 0 ∨ (b : K) = 1 := by
    exact_mod_cast htouch
  rw [points_stretch, points, ← Set.image_inter (along_injective K hproper)]
  refine (unit_interval_of_touching K hcast).imp Set.image_mono ?_
  exact Or.imp Set.image_mono fun h => h.image _

/-- An interval that begins inside the unit interval goes on in it for a while, either way. -/
theorem infinite_of_inside_unit {a b : K} (hpos : 0 < a) (hlt : a < 1) (hne : b ≠ a) :
    (Set.Icc 0 1 ∩ Set.uIcc a b).Infinite := by
  rcases lt_or_gt_of_ne hne with h | h
  · refine (Set.Icc_infinite (max_lt hpos h)).mono fun t ht => ?_
    rw [Set.uIcc_of_ge h.le]
    exact ⟨⟨(le_max_left _ _).trans ht.1, ht.2.trans hlt.le⟩, (le_max_right _ _).trans ht.1, ht.2⟩
  · refine (Set.Icc_infinite (lt_min hlt h)).mono fun t ht => ?_
    rw [Set.uIcc_of_le h.le]
    exact ⟨⟨hpos.le.trans ht.1, ht.2.trans (min_le_left _ _)⟩, ht.1, ht.2.trans (min_le_right _ _)⟩

theorem stretch_not_proper (s : Segment Rat) (a : Rat) : ¬(s.stretch a a).Proper := by
  simp [Proper]

/-- Where one segment runs into another there is a whole stretch of points of both. -/
theorem infinite_of_inside {s t : Segment Rat} (hproper : s.Proper) (hcross : cross s.direction t.direction = 0)
    (ht : t.Proper) {p : Point Rat} (hinside : s.Inside p) (hend : t.HasEnd p) :
    (s.points K ∩ t.points K).Infinite := by
  obtain ⟨a, ⟨hpos, hlt⟩, rfl⟩ := hinside
  obtain ⟨b, hb⟩ := exists_stretch_of_end hproper hcross hend
  have hne : b ≠ a := by
    rintro rfl
    exact s.stretch_not_proper b (by rcases hb with rfl | rfl <;> exact ht)
  have hpoints : t.points K = s.along K '' Set.uIcc (a : K) (b : K) := by
    rcases hb with rfl | rfl
    · exact points_stretch K s a b
    · rw [points_stretch, Set.uIcc_comm]
  rw [hpoints, points, ← Set.image_inter (along_injective K hproper)]
  refine (infinite_of_inside_unit K ?_ ?_ ?_).image (along_injective K hproper).injOn
  · exact_mod_cast hpos
  · exact_mod_cast hlt
  · exact_mod_cast hne

end Segment

end LSystem
