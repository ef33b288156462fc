import LSystem.Proofs.Plane.Containment
import LSystem.Proofs.Plane.Coverage
import Mathlib.Data.Set.Finite.Lattice

/-! What becomes of segments that touch and have one slope. A strand contains all its pieces and absorbs none of the
segments left. So if one of two such segments is a piece and the other is left, the strand has grown beyond
their common end on both sides; and since the strand has no points but those of its pieces, one of these must overlap
the segment that is left. -/

namespace LSystem

/-- Every segment of the second list is contained in one of the first. -/
def ContainsAll (after before : List (Segment Rat)) : Prop := ∀ s ∈ before, ∃ o ∈ after, o.Contains s

theorem ContainsAll.of_subset {after before : List (Segment Rat)} (h : before ⊆ after) : ContainsAll after before :=
  fun s hs => ⟨s, h hs, .refl s⟩

theorem ContainsAll.trans {first second third : List (Segment Rat)} (h : ContainsAll third second)
    (h' : ContainsAll second first) : ContainsAll third first := by
  intro s hs
  obtain ⟨t, ht, hts⟩ := h' s hs
  obtain ⟨u, hu, hut⟩ := h t ht
  exact ⟨u, hu, hut.trans hts⟩

namespace Strand

variable {grid : Lattice} {state state' : Segment Rat × List (Segment Rat)}

theorem Takes.containsAll (h : Takes state state') (hgrid : grid.CarriesAll (state.1 :: state.2)) :
    ContainsAll (state'.1 :: state'.2) (state.1 :: state.2) := by
  cases h with
  | @drop s t front back heq =>
      obtain rfl := (Segment.beq_rat t s).1 heq
      refine .of_subset fun u hu => ?_
      simp only [List.mem_cons, List.mem_append] at hu ⊢
      tauto
  | @fold s t front back hne hmeets hparallel =>
      have hs := hgrid.carries (s := s) (by simp)
      have ht := hgrid.carries (s := t) (by simp)
      obtain ⟨a, b, rfl, -⟩ := Lattice.exists_touching hs ht hmeets hparallel
      obtain ⟨hself, hpiece⟩ :=
        Segment.contains_cover (Segment.proper_of_parallel hparallel) (Lattice.keepsSign_of_carries hs) a b
      intro u hu
      simp only [List.mem_cons, List.mem_append] at hu
      rcases hu with rfl | hu | rfl | hu
      · exact ⟨_, List.mem_cons_self, hself⟩
      · exact ⟨u, by simp [hu], .refl u⟩
      · exact ⟨_, List.mem_cons_self, hpiece⟩
      · exact ⟨u, by simp [hu], .refl u⟩

/-- Whatever is taken is contained in the segment in the end, and what is left is still there. -/
theorem takes_containsAll (h : Relation.ReflTransGen Takes state state')
    (hgrid : grid.CarriesAll (state.1 :: state.2)) :
    ContainsAll (state'.1 :: state'.2) (state.1 :: state.2) := by
  induction h with
  | refl => exact .of_subset (List.Subset.refl _)
  | tail hrun htake ih =>
      obtain ⟨-, hends⟩ := takes_keep (K := Rat) hrun hgrid
      exact (htake.containsAll fun p hp => hgrid p (hends hp)).trans ih

end Strand

/-! ### A strand and what it leaves -/

variable (K : Type) [Field K] [LinearOrder K]

/-- Two segments of a list at different places have at most one point in common. -/
def NonOverlapping (segments : List (Segment Rat)) : Prop :=
  segments.Pairwise fun s t => (s.points K ∩ t.points K).Subsingleton

/-- A list of segments falls into pieces of `o` and segments left. The pieces make up `o`, which absorbs nothing
of what is left. -/
structure Division (grid : Lattice) (o : Segment Rat) (pieces left segments : List (Segment Rat)) : Prop where
  perm : (pieces ++ left).Perm segments
  contains : ∀ piece ∈ pieces, o.Contains piece
  points_eq : o.points K = ink K pieces
  carries : grid.Carries o
  stuck : ∀ t ∈ left, o.absorbs t = false

variable {K} {grid : Lattice}

theorem NonOverlapping.perm {segments other : List (Segment Rat)} (h : NonOverlapping K segments)
    (hperm : segments.Perm other) : NonOverlapping K other := by
  refine (hperm.pairwise_iff ?_).1 h
  intro s t hst
  rwa [Set.inter_comm]

namespace Division

variable {o s t : Segment Rat} {pieces left segments : List (Segment Rat)} {p : Point Rat}

theorem mem_or_mem (h : Division K grid o pieces left segments) (hs : s ∈ segments) : s ∈ pieces ∨ s ∈ left :=
  List.mem_append.1 (h.perm.symm.subset hs)

theorem left_subset (h : Division K grid o pieces left segments) : left ⊆ segments :=
  List.Subset.trans (List.subset_append_right _ _) h.perm.subset

theorem nonOverlapping_left (h : Division K grid o pieces left segments) (hapart : NonOverlapping K segments) :
    NonOverlapping K left :=
  (List.pairwise_append.1 (hapart.perm h.perm.symm)).2.1

/-- A piece and a segment left that has its slope can only touch inside the strand. -/
theorem inside (h : Division K grid o pieces left segments) (hs : s ∈ pieces) (ht : t ∈ left)
    (hparallel : s.parallel t = true) (hsp : s.HasEnd p) (htp : t.HasEnd p) : o.Inside p := by
  have hapart : ¬o.meets t = true := by
    intro hmeets
    have habsorbs := Strand.absorbs_iff.2 (Or.inr ⟨hmeets, (h.contains s hs).parallel hparallel⟩)
    rw [h.stuck t ht] at habsorbs
    cases habsorbs
  obtain ⟨a, ⟨hzero, hone⟩, rfl⟩ := (h.contains s hs).exists_point hsp
  refine ⟨a, ⟨lt_of_le_of_ne hzero ?_, lt_of_le_of_ne hone ?_⟩, rfl⟩
  · rintro rfl
    exact hapart (Segment.meets_iff.2 ⟨_, Or.inl o.point_zero, htp⟩)
  · rintro rfl
    exact hapart (Segment.meets_iff.2 ⟨_, Or.inr o.point_one, htp⟩)

/-- A segment left that has a whole stretch of points in common with the strand overlaps one of the pieces. -/
theorem not_nonOverlapping (h : Division K grid o pieces left segments) (ht : t ∈ left)
    (hinfinite : (o.points K ∩ t.points K).Infinite) : ¬NonOverlapping K segments := by
  intro hapart
  obtain ⟨-, -, hcross⟩ := List.pairwise_append.1 (hapart.perm h.perm.symm)
  refine hinfinite ((pieces.finite_toSet.biUnion fun u hu => (hcross u hu t ht).finite).subset ?_)
  rintro q ⟨hq, hqt⟩
  rw [h.points_eq] at hq
  obtain ⟨u, hu, hqu⟩ := hq
  exact Set.mem_biUnion hu ⟨hqu, hqt⟩

variable [IsStrictOrderedRing K]

/-- A piece and a segment left that has its slope only touch if there is an overlap. -/
theorem not_nonOverlapping_of_touching (h : Division K grid o pieces left segments)
    (hgrid : grid.CarriesAll segments) (hs : s ∈ pieces) (ht : t ∈ left) (hparallel : s.parallel t = true)
    (hsp : s.HasEnd p) (htp : t.HasEnd p) : ¬NonOverlapping K segments := by
  have hwhole : o.parallel t = true := (h.contains s hs).parallel hparallel
  have hcross := Lattice.cross_eq_zero_of_parallel h.carries (hgrid.carries (h.left_subset ht)) hwhole
  have hproper : t.Proper := Segment.proper_right_of_parallel hparallel
  exact h.not_nonOverlapping ht (Segment.infinite_of_inside K (Segment.proper_of_parallel hwhole) hcross hproper
    (h.inside hs ht hparallel hsp htp) htp)

end Division

variable [IsStrictOrderedRing K]

/-- The strand that the first segment starts divides the list. -/
theorem Strand.exists_division {s : Segment Rat} {pending : List (Segment Rat)}
    (hgrid : grid.CarriesAll (s :: pending)) :
    let strand := (single s).gather pending
    ∃ pieces, Division K grid strand.1.segment pieces strand.2 (s :: pending) := by
  intro strand
  obtain ⟨pieces, hperm, hrun⟩ := exists_pieces (gather_takes (single s) pending)
  have hpieces : grid.CarriesAll (s :: pieces) :=
    hgrid.of_subset (List.Subset.trans (List.subset_append_left _ _) (hperm.cons s).subset)
  have hcontains := takes_containsAll hrun hpieces
  obtain ⟨hink, hends⟩ := takes_keep (K := K) hrun hpieces
  refine ⟨s :: pieces, hperm.cons s, ?_, ?_, ?_, gather_stuck (single s) pending⟩
  · intro piece hpiece
    obtain ⟨o, ho, hop⟩ := hcontains piece hpiece
    rw [List.mem_singleton.1 ho] at hop
    exact hop
  · refine Eq.trans ?_ hink
    rw [ink_cons]
    simp [ink, strand]
  · intro p hp
    exact hpieces p (hends ⟨strand.1.segment, List.mem_singleton_self _, hp⟩)

/-! ### Whole lists -/

variable {segments : List (Segment Rat)}

/-- Touching segments of one direction end up in one strand, or in two; then the point where they touch is inside
one of these, and some segments overlap. -/
theorem strands_join_or_swallow (hgrid : grid.CarriesAll segments) {s t : Segment Rat} (hs : s ∈ segments)
    (ht : t ∈ segments) {p : Point Rat} (hsp : s.HasEnd p) (htp : t.HasEnd p) (hparallel : s.parallel t = true) :
    (∃ o ∈ (strands segments).map (·.segment), o.Contains s ∧ o.Contains t) ∨
      ¬NonOverlapping K segments ∧
        ∃ o ∈ (strands segments).map (·.segment), (o.Contains s ∨ o.Contains t) ∧ o.Inside p := by
  fun_induction strands segments with
  | case1 => cases hs
  | case2 first pending _ ih =>
      obtain ⟨pieces, hdivision⟩ := Strand.exists_division (K := K) hgrid
      rw [List.map_cons]
      rcases hdivision.mem_or_mem hs with hsPiece | hsLeft <;>
        rcases hdivision.mem_or_mem ht with htPiece | htLeft
      · exact Or.inl ⟨_, List.mem_cons_self, hdivision.contains s hsPiece, hdivision.contains t htPiece⟩
      · refine Or.inr ⟨hdivision.not_nonOverlapping_of_touching hgrid hsPiece htLeft hparallel hsp htp, _,
          List.mem_cons_self, Or.inl (hdivision.contains s hsPiece), ?_⟩
        exact hdivision.inside hsPiece htLeft hparallel hsp htp
      · rw [Segment.parallel_comm] at hparallel
        refine Or.inr ⟨hdivision.not_nonOverlapping_of_touching hgrid htPiece hsLeft hparallel htp hsp, _,
          List.mem_cons_self, Or.inr (hdivision.contains t htPiece), ?_⟩
        exact hdivision.inside htPiece hsLeft hparallel htp hsp
      · refine (ih (hgrid.of_subset hdivision.left_subset) hsLeft htLeft).imp ?_ ?_
        · rintro ⟨o, ho, hos, hot⟩
          exact ⟨o, List.mem_cons_of_mem _ ho, hos, hot⟩
        · rintro ⟨hoverlap, o, ho, hcontains, hinside⟩
          exact ⟨mt hdivision.nonOverlapping_left hoverlap, o, List.mem_cons_of_mem _ ho, hcontains, hinside⟩

/-- No segment is torn: each is contained in that of its strand. -/
theorem strands_containAll (hgrid : grid.CarriesAll segments) :
    ContainsAll ((strands segments).map (·.segment)) segments := by
  fun_induction strands segments with
  | case1 => exact .of_subset (List.Subset.refl _)
  | case2 first pending _ ih =>
      obtain ⟨pieces, hdivision⟩ := Strand.exists_division (K := Rat) hgrid
      intro s hs
      rw [List.map_cons]
      rcases hdivision.mem_or_mem hs with hpiece | hleft
      · exact ⟨_, List.mem_cons_self, hdivision.contains s hpiece⟩
      · obtain ⟨o, ho, hos⟩ := ih (hgrid.of_subset hdivision.left_subset) s hleft
        exact ⟨o, List.mem_cons_of_mem _ ho, hos⟩

/-- **Touching segments of one direction are put together, or the point where they touch is swallowed.** Of
two segments that have an end in common and one slope, a single segment after fusion covers both, unless they run
apart from there, some segments of the drawing overlap, and one of those after fusion that cover one of the two has
the common end in its inside. -/
theorem fuse_joins_touching (K : Type) [Field K] [LinearOrder K] [IsStrictOrderedRing K] (grid : Lattice)
    {limit : Nat} {segments : List (Segment Rat)} (hlimit : segments.length ≤ limit)
    (hgrid : grid.CarriesAll segments) {s t : Segment Rat} (hs : s ∈ segments) (ht : t ∈ segments)
    {p : Point Rat} (hsp : s.HasEnd p) (htp : t.HasEnd p) (hparallel : s.parallel t = true) :
    (∃ o ∈ fuse limit segments, s.points K ⊆ o.points K ∧ t.points K ⊆ o.points K) ∨
      (s.points K ∩ t.points K).Subsingleton ∧ ¬NonOverlapping K segments ∧
        ∃ o ∈ fuse limit segments, (s.points K ⊆ o.points K ∨ t.points K ⊆ o.points K) ∧ o.Inside p := by
  rw [fuse, if_neg (not_lt.2 hlimit)]
  have hcross := Lattice.cross_eq_zero_of_parallel (hgrid.carries hs) (hgrid.carries ht) hparallel
  have hmeets : s.meets t = true := Segment.meets_iff.2 ⟨p, hsp, htp⟩
  rcases Segment.points_of_meets K (Segment.proper_of_parallel hparallel) hcross hmeets with hst | hts | hapart
  · obtain ⟨o, ho, hot⟩ := strands_containAll hgrid t ht
    exact Or.inl ⟨o, ho, hst.trans (hot.points_subset K), hot.points_subset K⟩
  · obtain ⟨o, ho, hos⟩ := strands_containAll hgrid s hs
    exact Or.inl ⟨o, ho, hos.points_subset K, hts.trans (hos.points_subset K)⟩
  · refine (strands_join_or_swallow (K := K) hgrid hs ht hsp htp hparallel).imp ?_ ?_
    · rintro ⟨o, ho, hos, hot⟩
      exact ⟨o, ho, hos.points_subset K, hot.points_subset K⟩
    · rintro ⟨hoverlap, o, ho, hcontains, hinside⟩
      have hcovers := hcontains.imp (Segment.Contains.points_subset K) (Segment.Contains.points_subset K)
      exact ⟨hapart, hoverlap, o, ho, hcovers, hinside⟩

/-- The first of three segments of a level line swallows the end that the others have in common. One of
those covers the other all the same, since they run the same way from there. -/
theorem fuse_joins_touching_of_backtrack :
    let back : Segment Rat := ⟨⟨3, 0⟩, ⟨1, 0⟩⟩
    let forth : Segment Rat := ⟨⟨1, 0⟩, ⟨4, 0⟩⟩
    let segments := [⟨⟨0, 0⟩, ⟨3, 0⟩⟩, back, forth]
    Lattice.whole.CarriesAll segments ∧
      ∃ o ∈ fuse 3 segments, back.points ℚ ⊆ o.points ℚ ∧ forth.points ℚ ⊆ o.points ℚ := by
  intro back forth segments
  have hgrid : Lattice.whole.CarriesAll segments := Lattice.carriesAll_whole (by decide +kernel)
  have hone : (⟨1, 0⟩ : Point ℚ) ∈ back.points ℚ ∩ forth.points ℚ :=
    ⟨⟨1, by simp, by decide +kernel⟩, ⟨0, by simp, by decide +kernel⟩⟩
  have hthree : (⟨3, 0⟩ : Point ℚ) ∈ back.points ℚ ∩ forth.points ℚ :=
    ⟨⟨0, by simp, by decide +kernel⟩, ⟨2 / 3, by norm_num, by decide +kernel⟩⟩
  refine ⟨hgrid, ?_⟩
  have hjoins := fuse_joins_touching ℚ Lattice.whole (le_refl 3) hgrid (s := back) (t := forth) (p := ⟨1, 0⟩)
    (by simp [segments]) (by simp [segments]) (Or.inr rfl) (Or.inl rfl) (by decide +kernel)
  refine hjoins.resolve_right ?_
  rintro ⟨hapart, -⟩
  exact absurd (hapart hone hthree) (by decide)

/-- From the end that the first of three segments swallows the other two run apart. Neither of the two segments
that come out covers both. -/
theorem fuse_leaves_touching_apart :
    let first : Segment Rat := ⟨⟨0, 0⟩, ⟨3, 0⟩⟩
    let near : Segment Rat := ⟨⟨0, 0⟩, ⟨1, 0⟩⟩
    let far : Segment Rat := ⟨⟨1, 0⟩, ⟨4, 0⟩⟩
    Lattice.whole.CarriesAll [first, near, far] ∧ near.meets far = true ∧ near.parallel far = true ∧
      ¬∃ o ∈ fuse 3 [first, near, far], near.points ℚ ⊆ o.points ℚ ∧ far.points ℚ ⊆ o.points ℚ := by
  intro first near far
  have hround : Strand.round first [near, far] = (some near, [far]) := by decide +kernel
  have hgrown : (Strand.single first).fold near = ⟨first, [⟨near, first⟩]⟩ := by decide +kernel
  have hstuck : Strand.round first [far] = (none, [far]) := by decide +kernel
  have hfirst : (Strand.single first).gather [near, far] = (⟨first, [⟨near, first⟩]⟩, [far]) := by
    rw [Strand.gather_of_round_some hround, hgrown]
    exact Strand.gather_of_round_none hstuck
  have hfar : (Strand.single far).gather [] = (Strand.single far, []) := Strand.gather_of_round_none rfl
  have hfuse : fuse 3 [first, near, far] = [first, far] := by
    rw [fuse, if_neg (by decide), strands, hfirst, strands, hfar, strands]
    rfl
  refine ⟨Lattice.carriesAll_whole (by decide +kernel), by decide +kernel, by decide +kernel, ?_⟩
  rw [hfuse]
  rintro ⟨o, ho, honear, hofar⟩
  rcases List.mem_pair.1 ho with rfl | rfl
  · obtain ⟨a, ha, hfour⟩ := hofar (show ⟨4, 0⟩ ∈ far.points ℚ from ⟨1, by simp, by decide +kernel⟩)
    have hx : (0 : Rat) + a * 3 = 4 := by simpa [Segment.along, first] using congrArg Point.x hfour
    linarith [ha.2]
  · obtain ⟨a, ha, hzero⟩ := honear (show ⟨0, 0⟩ ∈ near.points ℚ from ⟨0, by simp, by decide +kernel⟩)
    have hx : (1 : Rat) + a * (4 - 1) = 0 := by simpa [Segment.along, far] using congrArg Point.x hzero
    linarith [ha.1]

end LSystem
