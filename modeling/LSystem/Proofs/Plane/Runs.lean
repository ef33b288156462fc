import LSystem.Proofs.Plane.Irreducible
import LSystem.Proofs.Plane.Spans
import Mathlib.Order.CompletePartialOrder
import Mathlib.Topology.Instances.Rat

/-! What comes out of a fusion, whatever the order. A run of a picture is a straight stretch of it that is part of no
longer one. If the segments of a drawing do not overlap, then parallel segments have no point in common any more
when they are fused (`strands_separated`), and segments of which that is so are the runs of their picture
(`isRun_iff_exists_span`). Fusion keeps the picture, so which segments come out is decided by the picture alone
(`isRun_iff_exists_strand`). -/

namespace LSystem

variable {grid : Lattice} {segments other : List (Segment Rat)} {s t o : Segment Rat}

/-! ### Drawings without overlaps -/

section Overlaps

variable {K : Type} [Field K] [LinearOrder K] [IsStrictOrderedRing K]

theorem Segment.cast_mem_points {p : Point Rat} (hp : p ∈ s.points ℚ) : (⟨p.x, p.y⟩ : Point K) ∈ s.points K := by
  obtain ⟨a, ha, rfl⟩ := hp
  refine ⟨a, ⟨by exact_mod_cast ha.1, by exact_mod_cast ha.2⟩, ?_⟩
  simp [along]

/-- To have a single point in common is the same in every plane, as far as rational points go. -/
theorem Segment.subsingleton_rat (h : (s.points K ∩ t.points K).Subsingleton) :
    (s.points ℚ ∩ t.points ℚ).Subsingleton := by
  rintro p ⟨hp, hp'⟩ q ⟨hq, hq'⟩
  obtain ⟨hx, hy⟩ := Point.mk.inj
    (h ⟨cast_mem_points hp, cast_mem_points hp'⟩ ⟨cast_mem_points hq, cast_mem_points hq'⟩)
  exact Point.ext (Rat.cast_injective hx) (Rat.cast_injective hy)

/-- Only segments of one line can overlap. -/
theorem nonOverlapping_of_sameLine (hproper : ∀ s ∈ segments, s.Proper)
    (h : segments.Pairwise fun s t => s.SameLine t → (s.points K ∩ t.points K).Subsingleton) :
    NonOverlapping ℚ segments := by
  refine h.imp_of_mem fun {s t} hs _ hst => ?_
  rintro p ⟨hp, hp'⟩ q ⟨hq, hq'⟩
  by_contra hne
  have hline : s.SameLine t := by
    rw [Segment.points_rat] at hp hp' hq hq'
    obtain ⟨x, -, rfl⟩ := hp
    obtain ⟨x', -, rfl⟩ := hq
    obtain ⟨y, -, hy⟩ := hp'
    obtain ⟨y', -, hy'⟩ := hq'
    have hparam : x ≠ x' := by
      rintro rfl
      exact hne rfl
    exact Segment.sameLine_of_points (hproper s hs) hparam hy hy'
  exact hne (Segment.subsingleton_rat (hst hline) ⟨hp, hp'⟩ ⟨hq, hq'⟩)

end Overlaps

theorem Redrawn.nonOverlapping (h : Redrawn segments other) (hapart : NonOverlapping ℚ segments) :
    NonOverlapping ℚ other := by
  let Apart : Sym2 (Point Rat) → Sym2 (Point Rat) → Prop := fun x y =>
    ∀ s t : Segment Rat, s.span = x → t.span = y → (s.points ℚ ∩ t.points ℚ).Subsingleton
  have hspans : ∀ list, NonOverlapping ℚ list ↔ (list.map Segment.span).Pairwise Apart := by
    intro list
    rw [List.pairwise_map]
    refine ⟨List.Pairwise.imp ?_, List.Pairwise.imp ?_⟩
    · intro s t hst s' t' hs ht
      rwa [Segment.points_of_span_eq hs, Segment.points_of_span_eq ht]
    · intro s t hst
      exact hst s t rfl rfl
  have hsymm : ∀ {x y}, Apart x y → Apart y x := by
    intro x y hxy s t hs ht
    rw [Set.inter_comm]
    exact hxy t s ht hs
  rw [hspans] at hapart ⊢
  exact (List.Perm.pairwise_iff hsymm h).1 hapart

/-! ### Fused segments are separated -/

/-- Parallel segments of the list have no point in common. -/
def Separated (segments : List (Segment Rat)) : Prop :=
  segments.Pairwise fun s t => s.parallel t = true → Disjoint (s.points ℚ) (t.points ℚ)

theorem Separated.disjoint (h : Separated segments) (hs : s ∈ segments) (ht : t ∈ segments) (hne : s ≠ t)
    (hparallel : s.parallel t = true) : Disjoint (s.points ℚ) (t.points ℚ) := by
  have : Std.Symm fun s t : Segment Rat => s.parallel t = true → Disjoint (s.points ℚ) (t.points ℚ) := by
    constructor
    intro s t hst hparallel
    rw [Segment.parallel_comm] at hparallel
    exact (hst hparallel).symm
  exact List.Pairwise.forall h hs ht hne hparallel

/-- A strand that overlaps what is left overlaps one of the segments left. -/
theorem Division.finite_inter {pieces left : List (Segment Rat)} (h : Division ℚ grid o pieces left segments)
    (hapart : NonOverlapping ℚ segments) : (o.points ℚ ∩ ink ℚ left).Finite := by
  have hfinite : ∀ t ∈ left, (o.points ℚ ∩ t.points ℚ).Finite := fun t ht =>
    Set.not_infinite.1 fun hinfinite => h.not_nonOverlapping ht hinfinite hapart
  refine (left.finite_toSet.biUnion hfinite).subset ?_
  rintro p ⟨hp, t, ht, hpt⟩
  exact Set.mem_biUnion ht ⟨hp, hpt⟩

theorem strands_separated (hgrid : grid.CarriesAll segments) (hapart : NonOverlapping ℚ segments) :
    Separated ((strands segments).map (·.segment)) := by
  fun_induction strands segments with
  | case1 => exact List.Pairwise.nil
  | case2 first pending _ ih =>
      obtain ⟨pieces, hdivision⟩ := Strand.exists_division (K := ℚ) hgrid
      have hirreducible := strands_irreducible hgrid
      rw [strands, List.map_cons, List.pairwise_cons] at hirreducible
      have hleft := hgrid.of_subset hdivision.left_subset
      obtain ⟨hink, hends⟩ := strands_keep (K := ℚ) _ hleft
      rw [List.map_cons]
      refine List.pairwise_cons.2 ⟨?_, ih hleft (hdivision.nonOverlapping_left hapart)⟩
      intro o ho hparallel
      have hcarries : grid.Carries o := fun p hp => hleft p (hends ⟨o, ho, hp⟩)
      have hproper := Segment.proper_right_of_parallel hparallel
      have hcross := Lattice.cross_eq_zero_of_parallel hdivision.carries hcarries hparallel
      rw [Set.disjoint_iff_inter_eq_empty]
      by_contra hcommon
      rcases Segment.meets_or_infinite (Segment.proper_of_parallel hparallel) hproper hcross
        (Set.nonempty_iff_ne_empty.2 hcommon) with hmeets | hinfinite
      · have habsorbs := Strand.absorbs_iff.2 (Or.inr ⟨hmeets, hparallel⟩)
        rw [hirreducible.1 o ho] at habsorbs
        cases habsorbs
      · refine hinfinite ((hdivision.finite_inter hapart).subset (Set.inter_subset_inter_right _ ?_))
        intro p hp
        rw [← hink]
        exact ⟨o, ho, hp⟩

theorem strands_proper (hgrid : grid.CarriesAll segments) (hproper : ∀ s ∈ segments, s.Proper)
    (ho : o ∈ (strands segments).map (·.segment)) : o.Proper := by
  obtain ⟨u, hu, -, rfl | hparallel⟩ := strands_backed hgrid ho (Or.inl rfl)
  · exact hproper _ hu
  · exact Segment.proper_right_of_parallel hparallel

/-! ### Runs -/

/-- The segment is a straight stretch of the picture and part of no longer one. -/
structure IsRun (picture : Set (Point ℚ)) (s : Segment Rat) : Prop where
  proper : s.Proper
  subset : s.points ℚ ⊆ picture
  longest : ∀ t : Segment Rat, t.points ℚ ⊆ picture → t.Contains s → s.Contains t

theorem IsRun.of_span_eq {picture : Set (Point ℚ)} (h : IsRun picture s) (hspan : s.span = t.span) :
    IsRun picture t where
  proper := (Segment.contains_of_span_eq hspan.symm).proper h.proper
  subset := Segment.points_of_span_eq hspan ▸ h.subset
  longest := by
    intro u hu hcontains
    have hlongest := h.longest u hu (hcontains.trans (Segment.contains_of_span_eq hspan.symm))
    exact (Segment.contains_of_span_eq hspan.symm).trans hlongest

open Filter Topology in
/-- If each point of an interval belongs to one of finitely many things, then one of them comes as near as one likes
to its beginning. -/
theorem exists_accumulating {ι : Type} {items : List ι} {P : ι → ℚ → Prop} {b c : ℚ} (hlt : b < c)
    (h : ∀ x ∈ Set.Ioo b c, ∃ i ∈ items, P i x) : ∃ i ∈ items, ∀ d > b, ∃ x ∈ Set.Ioo b d, P i x := by
  by_contra! hnone
  have hclear : ∀ᶠ x in 𝓝[>] b, ∀ i ∈ items, ¬P i x := by
    refine (eventually_all_finite items.finite_toSet).2 fun i hi => ?_
    obtain ⟨d, hd, hi⟩ := hnone i hi
    exact eventually_of_mem (Ioo_mem_nhdsGT hd) hi
  obtain ⟨x, hx, hnot⟩ := ((eventually_of_mem (Ioo_mem_nhdsGT hlt) fun x hx => hx).and hclear).exists
  obtain ⟨i, hi, hP⟩ := h x hx
  exact hnot i hi hP

/-- Where a line goes on in the picture, one of the segments goes on. -/
theorem exists_continuation (hproper : t.Proper) {b c : Rat} (hlt : b < c)
    (h : ∀ x ∈ Set.Ioo b c, t.point x ∈ ink ℚ segments) :
    ∃ d e, t.stretch d e ∈ segments ∧ b ∈ Set.uIcc d e ∧ b < max d e := by
  obtain ⟨u, hu, hnear⟩ := exists_accumulating hlt h
  obtain ⟨x, hx, hxu⟩ := hnear c hlt
  obtain ⟨x', hx', hxu'⟩ := hnear x hx.1
  obtain ⟨d, e, rfl⟩ : t.SameLine u := by
    rw [Segment.points_rat] at hxu hxu'
    obtain ⟨y, -, hy⟩ := hxu
    obtain ⟨y', -, hy'⟩ := hxu'
    exact Segment.sameLine_of_points hproper hx'.2.ne' hy hy'
  have hbeyond : b < max d e := hx.1.trans_le (Segment.mem_uIcc_of_point_mem hproper hxu).2
  refine ⟨d, e, hu, ⟨?_, hbeyond.le⟩, hbeyond⟩
  refine le_of_forall_gt_imp_ge_of_dense fun y hy => ?_
  obtain ⟨z, hz, hzu⟩ := hnear y hy
  exact (Segment.mem_uIcc_of_point_mem hproper hzu).1.trans hz.2.le

/-- A segment of a separated list ends where the picture ends on its line. -/
theorem Separated.max_eq_one (hseparated : Separated segments) (hproper : ∀ s ∈ segments, s.Proper)
    (ht : t.Proper) (hsubset : t.points ℚ ⊆ ink ℚ segments) {a b : Rat} (hmem : t.stretch a b ∈ segments)
    (ha : a ∈ Set.Icc (0 : Rat) 1) (hb : b ∈ Set.Icc (0 : Rat) 1) : max a b = 1 := by
  by_contra hne
  have hlt : max a b < 1 := lt_of_le_of_ne (max_le ha.2 hb.2) hne
  have hinside : ∀ x ∈ Set.Ioo (max a b) 1, t.point x ∈ ink ℚ segments := by
    intro x hx
    exact hsubset (Segment.point_mem ⟨ha.1.trans ((le_max_left a b).trans hx.1.le), hx.2.le⟩)
  obtain ⟨c, d, hmem', hbetween, hbeyond⟩ := exists_continuation ht hlt hinside
  have hproperEnds : ∀ {a b}, t.stretch a b ∈ segments → a ≠ b := by
    rintro a b hmem rfl
    exact t.stretch_not_proper a (hproper _ hmem)
  have hother : t.stretch a b ≠ t.stretch c d := by
    intro heq
    obtain ⟨hstart, hfinish⟩ := Segment.mk.inj heq
    rw [← Segment.point_injective ht hstart, ← Segment.point_injective ht hfinish] at hbeyond
    exact lt_irrefl _ hbeyond
  have hdisjoint := hseparated.disjoint hmem hmem' hother
    (Segment.parallel_stretch ht (hproperEnds hmem) (hproperEnds hmem'))
  exact Set.disjoint_left.1 hdisjoint (Segment.point_mem_stretch ⟨min_le_max, le_rfl⟩)
    (Segment.point_mem_stretch hbetween)

theorem Separated.min_eq_zero (hseparated : Separated segments) (hproper : ∀ s ∈ segments, s.Proper)
    (ht : t.Proper) (hsubset : t.points ℚ ⊆ ink ℚ segments) {a b : Rat} (hmem : t.stretch a b ∈ segments)
    (ha : a ∈ Set.Icc (0 : Rat) 1) (hb : b ∈ Set.Icc (0 : Rat) 1) : min a b = 0 := by
  have hback := t.span_reverse
  rw [← Segment.points_of_span_eq hback] at hsubset
  rw [← Segment.stretch_of_reverse] at hmem
  have hmax := hseparated.max_eq_one hproper ((Segment.contains_of_span_eq hback).proper ht) hsubset hmem
    ⟨sub_nonneg.2 ha.2, sub_le_self 1 ha.1⟩ ⟨sub_nonneg.2 hb.2, sub_le_self 1 hb.1⟩
  rwa [max_sub_sub_left, sub_eq_self] at hmax

theorem Separated.isRun (hseparated : Separated segments) (hproper : ∀ s ∈ segments, s.Proper)
    (ho : o ∈ segments) : IsRun (ink ℚ segments) o where
  proper := hproper o ho
  subset := fun _ hp => ⟨o, ho, hp⟩
  longest := by
    intro t hsubset hcontains
    have ht := hcontains.proper (hproper o ho)
    obtain ⟨a, ha, b, hb, rfl⟩ := hcontains
    exact Segment.contains_of_span_eq (Segment.span_stretch
      (hseparated.min_eq_zero hproper ht hsubset ho ha hb) (hseparated.max_eq_one hproper ht hsubset ho ha hb))

/-- Every run is one of the segments: a segment goes on where the run begins, and what the two make up
together is no longer than either. -/
theorem Separated.exists_span (hseparated : Separated segments) (hproper : ∀ s ∈ segments, s.Proper)
    (hs : IsRun (ink ℚ segments) s) : ∃ o ∈ segments, o.span = s.span := by
  have hinside : ∀ x ∈ Set.Ioo (0 : Rat) 1, s.point x ∈ ink ℚ segments :=
    fun x hx => hs.subset (Segment.point_mem ⟨hx.1.le, hx.2.le⟩)
  obtain ⟨c, d, hmem, hbegin, -⟩ := exists_continuation hs.proper zero_lt_one hinside
  obtain ⟨whole, hself, hpart, hpoints⟩ := Segment.exists_union hbegin
  have hrun := hseparated.isRun hproper hmem
  have hsubset : whole.points ℚ ⊆ ink ℚ segments := hpoints.trans (Set.union_subset hs.subset hrun.subset)
  exact ⟨_, hmem, Segment.span_eq_of_contains hrun.proper ((hrun.longest whole hsubset hpart).trans hself)
    ((hs.longest whole hsubset hself).trans hpart)⟩

/-- **The runs of a picture** are the segments of any separated list that makes it up. -/
theorem Separated.isRun_iff_exists_span (hseparated : Separated segments) (hproper : ∀ s ∈ segments, s.Proper) :
    IsRun (ink ℚ segments) s ↔ ∃ o ∈ segments, o.span = s.span := by
  refine ⟨hseparated.exists_span hproper, ?_⟩
  rintro ⟨o, ho, hspan⟩
  exact (hseparated.isRun hproper ho).of_span_eq hspan

theorem Separated.nodup (hseparated : Separated segments) (hproper : ∀ s ∈ segments, s.Proper) :
    (segments.map Segment.span).Nodup := by
  rw [List.Nodup, List.pairwise_map]
  refine hseparated.imp_of_mem fun {s t} hs _ hdisjoint hspan => ?_
  have hempty := hdisjoint (Segment.parallel_of_span_eq (hproper s hs) hspan)
  rw [← Segment.points_of_span_eq hspan, disjoint_self] at hempty
  have hstart : s.point 0 ∈ s.points ℚ := Segment.point_mem (Set.left_mem_Icc.2 zero_le_one)
  rw [hempty] at hstart
  exact hstart

/-- Separated lists that make up one picture have the same segments. -/
theorem Separated.redrawn (hseparated : Separated segments) (hproper : ∀ s ∈ segments, s.Proper)
    (hseparated' : Separated other) (hproper' : ∀ s ∈ other, s.Proper) (hink : ink ℚ segments = ink ℚ other) :
    Redrawn segments other := by
  refine (List.perm_ext_iff_of_nodup (hseparated.nodup hproper) (hseparated'.nodup hproper')).2 fun x => ?_
  rw [List.mem_map, List.mem_map]
  constructor
  · rintro ⟨s, hs, rfl⟩
    exact hseparated'.exists_span hproper' (hink ▸ hseparated.isRun hproper hs)
  · rintro ⟨s, hs, rfl⟩
    exact hseparated.exists_span hproper (hink ▸ hseparated'.isRun hproper' hs)

/-! ### Fusion -/

/-- The strands of a drawing without overlaps are the runs of its picture. -/
theorem isRun_iff_exists_strand (hgrid : grid.CarriesAll segments) (hproper : ∀ s ∈ segments, s.Proper)
    (hapart : NonOverlapping ℚ segments) :
    IsRun (ink ℚ segments) s ↔ ∃ strand ∈ strands segments, strand.segment.span = s.span := by
  rw [← (strands_keep (K := ℚ) segments hgrid).1,
    (strands_separated hgrid hapart).isRun_iff_exists_span fun _ => strands_proper hgrid hproper]
  simp

/-- **Neither the order nor the direction of the segments counts.** Of two drawings without overlaps that have the
same segments, in whatever order and run through in whatever direction, the same segments come out after fusion. -/
theorem fuse_redrawn (K : Type) [Field K] [LinearOrder K] [IsStrictOrderedRing K] (grid : Lattice) {limit : Nat}
    {segments other : List (Segment Rat)} (hlimit : segments.length ≤ limit) (hgrid : grid.CarriesAll segments)
    (hproper : ∀ s ∈ segments, s.Proper)
    (hapart : segments.Pairwise fun s t => s.SameLine t → (s.points K ∩ t.points K).Subsingleton)
    (hredrawn : Redrawn segments other) : Redrawn (fuse limit segments) (fuse limit other) := by
  have hlimit' : other.length ≤ limit := by
    have hlength := hredrawn.length_eq
    rw [List.length_map, List.length_map] at hlength
    exact hlength ▸ hlimit
  have hsingle := nonOverlapping_of_sameLine hproper hapart
  have hgrid' := hredrawn.carriesAll hgrid
  have hproper' : ∀ t ∈ other, t.Proper := fun t => hredrawn.proper hproper
  rw [fuse, if_neg (not_lt.2 hlimit), fuse, if_neg (not_lt.2 hlimit')]
  refine (strands_separated hgrid hsingle).redrawn (fun o => strands_proper hgrid hproper)
    (strands_separated hgrid' (hredrawn.nonOverlapping hsingle)) (fun o => strands_proper hgrid' hproper') ?_
  calc ink ℚ ((strands segments).map (·.segment)) = ink ℚ segments := (strands_keep segments hgrid).1
    _ = ink ℚ other := hredrawn.ink_eq
    _ = ink ℚ ((strands other).map (·.segment)) := (strands_keep other hgrid').1.symm

/-- A straight line of two segments and a third one at the corner where they touch, then the same three
back to front and one of them turned round. -/
theorem fuse_redrawn_of_corner :
    let first : Segment Rat := ⟨⟨0, 0⟩, ⟨1, 1⟩⟩
    let second : Segment Rat := ⟨⟨2, 2⟩, ⟨1, 1⟩⟩
    let third : Segment Rat := ⟨⟨1, 1⟩, ⟨2, 0⟩⟩
    Redrawn (fuse 3 [first, second, third]) (fuse 3 [third, second.reverse, first]) := by
  intro first second third
  have hgrid : Lattice.whole.CarriesAll [first, second, third] := Lattice.carriesAll_whole (by decide +kernel)
  have hproper : ∀ s ∈ [first, second, third], s.Proper := by
    intro s hs
    left
    revert s
    decide +kernel
  have htouch : ∀ p ∈ first.points ℚ ∩ second.points ℚ, p = ⟨1, 1⟩ := by
    rintro _ ⟨⟨x, hx, rfl⟩, y, hy, h⟩
    obtain ⟨hxy, -⟩ := Point.mk.inj h
    norm_num [first, second] at hxy
    have hone : x = 1 := by linarith [hx.2, hy.2]
    rw [hone]
    decide +kernel
  have hapart : [first, second, third].Pairwise fun s t =>
      s.SameLine t → (s.points ℚ ∩ t.points ℚ).Subsingleton := by
    have hthird : ¬first.SameLine third := fun h => absurd h.cross_eq_zero (by decide +kernel)
    have hthird' : ¬second.SameLine third := fun h => absurd h.cross_eq_zero (by decide +kernel)
    refine List.pairwise_cons.2 ⟨?_, List.pairwise_pair.2 fun hline => absurd hline hthird'⟩
    intro t ht hline
    rcases List.mem_pair.1 ht with rfl | rfl
    · intro p hp q hq
      rw [htouch p hp, htouch q hq]
    · exact absurd hline hthird
  exact fuse_redrawn ℚ Lattice.whole (le_refl 3) hgrid hproper hapart (by decide +kernel)

end LSystem
