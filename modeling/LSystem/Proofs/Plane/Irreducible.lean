import LSystem.Proofs.Plane.Touching

/-! What comes out of a fusion cannot be fused any more. A strand absorbs nothing of what it leaves, but the strands
after it are made of that and grow. They do not grow into it: every end of a strand belongs to a segment of the list
that is the strand itself or runs along with it (`takes_backed`), so whatever could be fused with the strand
at that end could have absorbed this segment. -/

namespace LSystem

/-- Some segment of the list has the end `p` and is `o` or runs along with `o`. -/
def Backed (segments : List (Segment Rat)) (o : Segment Rat) (p : Point Rat) : Prop :=
  ∃ u ∈ segments, u.HasEnd p ∧ (u = o ∨ u.parallel o = true)

theorem Backed.of_subset {segments other : List (Segment Rat)} {o : Segment Rat} {p : Point Rat}
    (h : Backed segments o p) (hsubset : segments ⊆ other) : Backed other o p := by
  obtain ⟨u, hu, hrest⟩ := h
  exact ⟨u, hsubset hu, hrest⟩

variable {grid : Lattice}

namespace Strand

variable {state state' : Segment Rat × List (Segment Rat)} {o s : Segment Rat} {p : Point Rat}

/-- The ends of a running strand are backed by segments that were there at the beginning. -/
theorem takes_backed (h : Relation.ReflTransGen Takes state state') (hgrid : grid.CarriesAll (state.1 :: state.2))
    (hp : state'.1.HasEnd p) : Backed (state.1 :: state.2) state'.1 p := by
  induction h generalizing p with
  | refl => exact ⟨state.1, List.mem_cons_self, hp, Or.inl rfl⟩
  | tail hrun htake ih =>
      cases htake with
      | drop front back heq => exact ih hp
      | @fold s t front back hne hmeets hparallel =>
          obtain ⟨-, hends⟩ := takes_keep (K := Rat) hrun hgrid
          have hnow : grid.CarriesAll (s :: (front ++ t :: back)) := fun q hq => hgrid q (hends hq)
          have hs := hnow.carries (s := s) (by simp)
          have ht := hnow.carries (s := t) (by simp)
          have hparallel' : t.parallel s = true := (Segment.parallel_comm t s).trans hparallel
          obtain ⟨a, b, rfl, -⟩ := Lattice.exists_touching hs ht hmeets hparallel
          have hproper := Segment.proper_of_parallel hparallel
          have hsign := Lattice.keepsSign_of_carries hs
          obtain ⟨hself, hpiece⟩ := Segment.contains_cover hproper hsign a b
          rcases Segment.hasEnd_of_cover hproper hsign hp with hend | hend
          · obtain ⟨u, hu, hup, hbacked⟩ := ih hend
            refine ⟨u, hu, hup, Or.inr ?_⟩
            rw [Segment.parallel_comm]
            rcases hbacked with rfl | hbacked
            · exact hpiece.parallel hparallel'
            · rw [Segment.parallel_comm] at hbacked
              exact hself.parallel hbacked
          · have hmem := (takes_sublist hrun).subset (List.mem_append_right front List.mem_cons_self)
            refine ⟨_, List.mem_cons_of_mem _ hmem, hend, Or.inr ?_⟩
            rw [Segment.parallel_comm]
            exact hself.parallel hparallel

/-- What absorbs a segment absorbs one of those that back it. -/
theorem exists_absorbs_of_backed {segments : List (Segment Rat)} (habsorbs : s.absorbs o = true)
    (hbacked : ∀ {p}, o.HasEnd p → Backed segments o p) : ∃ u ∈ segments, s.absorbs u = true := by
  rcases absorbs_iff.1 habsorbs with heq | ⟨hmeets, hparallel⟩
  · obtain rfl := (Segment.beq_rat o s).1 heq
    obtain ⟨u, hu, hup, rfl | hbacked⟩ := hbacked (Or.inl rfl : o.HasEnd o.start)
    · exact ⟨u, hu, habsorbs⟩
    · rw [Segment.parallel_comm] at hbacked
      exact ⟨u, hu, absorbs_iff.2 (Or.inr ⟨Segment.meets_iff.2 ⟨_, Or.inl rfl, hup⟩, hbacked⟩)⟩
  · obtain ⟨p, hsp, hop⟩ := Segment.meets_iff.1 hmeets
    obtain ⟨u, hu, hup, rfl | hbacked⟩ := hbacked hop
    · exact ⟨u, hu, habsorbs⟩
    · rw [Segment.parallel_comm] at hbacked
      exact ⟨u, hu, absorbs_iff.2
        (Or.inr ⟨Segment.meets_iff.2 ⟨p, hsp, hup⟩, Segment.parallel_trans hparallel hbacked⟩)⟩

end Strand

/-! ### Whole lists -/

theorem strands_backed {segments : List (Segment Rat)} (hgrid : grid.CarriesAll segments) {o : Segment Rat}
    (ho : o ∈ (strands segments).map (·.segment)) {p : Point Rat} (hp : o.HasEnd p) : Backed segments o p := by
  fun_induction strands segments with
  | case1 => cases ho
  | case2 s pending _ ih =>
      have hrun := Strand.gather_takes (Strand.single s) pending
      have hleft : (Strand.gather (Strand.single s) pending).2 ⊆ s :: pending :=
        List.subset_cons_of_subset s (Strand.takes_sublist hrun).subset
      rw [List.map_cons, List.mem_cons] at ho
      rcases ho with rfl | ho
      · exact Strand.takes_backed hrun hgrid hp
      · exact (ih (hgrid.of_subset hleft) ho).of_subset hleft

/-- No strand absorbs the segment of a later one. -/
theorem strands_irreducible {segments : List (Segment Rat)} (hgrid : grid.CarriesAll segments) :
    ((strands segments).map (·.segment)).Pairwise fun s t => s.absorbs t = false := by
  fun_induction strands segments with
  | case1 => exact List.Pairwise.nil
  | case2 s pending _ ih =>
      have hrun := Strand.gather_takes (Strand.single s) pending
      have hleft : grid.CarriesAll (Strand.gather (Strand.single s) pending).2 :=
        hgrid.of_subset (List.subset_cons_of_subset s (Strand.takes_sublist hrun).subset)
      rw [List.map_cons, List.pairwise_cons]
      refine ⟨fun o ho => ?_, ih hleft⟩
      by_contra habsorbs
      obtain ⟨u, hu, habsorbed⟩ :=
        Strand.exists_absorbs_of_backed (by simpa using habsorbs) (strands_backed hleft ho)
      rw [Strand.gather_stuck (Strand.single s) pending u hu] at habsorbed
      cases habsorbed

/-- Segments none of which absorbs a later one are strands by themselves. -/
theorem strands_of_irreducible {α : Type} [Scalar α] {segments : List (Segment α)}
    (h : segments.Pairwise fun s t => s.absorbs t = false) : (strands segments).map (·.segment) = segments := by
  induction segments with
  | nil => rw [strands, List.map_nil]
  | cons s segments ih =>
      rw [List.pairwise_cons] at h
      have hround : Strand.round s segments = (none, segments) :=
        Strand.round_of_not_any (List.any_eq_false.2 fun t ht => by simp [h.1 t ht])
      have hgather : (Strand.single s).gather segments = (Strand.single s, segments) :=
        Strand.gather_of_round_none hround
      rw [strands, hgather, List.map_cons, ih h.2]
      rfl

/-- **Nothing is left to fuse.** No two of the segments that come out of a fusion are equal, and no two that have an
end in common have one slope. So they stay as they are when they are fused again. -/
theorem fuse_irreducible (grid : Lattice) {limit : Nat} {segments : List (Segment Rat)}
    (hlimit : segments.length ≤ limit) (hgrid : grid.CarriesAll segments) :
    (fuse limit segments).Pairwise (fun s t => s ≠ t ∧ ¬(s.meets t = true ∧ s.parallel t = true)) ∧
      fuse limit (fuse limit segments) = fuse limit segments := by
  have hirreducible := strands_irreducible hgrid
  have hfuse : fuse limit segments = (strands segments).map (·.segment) := if_neg (not_lt.2 hlimit)
  rw [hfuse]
  constructor
  · refine hirreducible.imp fun {s t} habsorbs => ?_
    have hnot := mt Strand.absorbs_iff.2 (Bool.eq_false_iff.1 habsorbs)
    rw [not_or, Segment.beq_rat] at hnot
    exact ⟨Ne.symm hnot.1, hnot.2⟩
  · rw [fuse, strands_of_irreducible hirreducible, ite_self]

/-- A segment that overlaps two others, one of them twice in the list, and a single point. -/
theorem fuse_irreducible_of_overlap :
    let segments : List (Segment Rat) :=
      [⟨⟨0, 0⟩, ⟨3, 0⟩⟩, ⟨⟨0, 0⟩, ⟨1, 0⟩⟩, ⟨⟨1, 0⟩, ⟨4, 0⟩⟩, ⟨⟨3, 0⟩, ⟨3, 0⟩⟩, ⟨⟨1, 0⟩, ⟨4, 0⟩⟩]
    Lattice.whole.CarriesAll segments ∧
      (fuse 5 segments).Pairwise (fun s t => s ≠ t ∧ ¬(s.meets t = true ∧ s.parallel t = true)) ∧
      fuse 5 (fuse 5 segments) = fuse 5 segments := by
  intro segments
  have hgrid : Lattice.whole.CarriesAll segments := Lattice.carriesAll_whole (by decide +kernel)
  exact ⟨hgrid, fuse_irreducible Lattice.whole (le_refl 5) hgrid⟩

end LSystem
