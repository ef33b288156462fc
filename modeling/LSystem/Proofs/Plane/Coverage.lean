import LSystem.Proofs.Plane.Gathering
import LSystem.Proofs.Plane.Lattice
import Mathlib.Data.Real.Basic

/-! Fusion does not change the picture. On a lattice a fold is the cover of two touching segments of
one line, so it has their points and no new end; what is dropped was there twice. This carries over
from one segment that is taken to a strand and from the strands to the whole list. -/

namespace LSystem

variable {K : Type} [Field K] [LinearOrder K]

theorem ink_append (front back : List (Segment Rat)) : ink K (front ++ back) = ink K front ∪ ink K back := by
  ext p
  simp [ink, or_and_right, exists_or]

theorem ink_cons (s : Segment Rat) (segments : List (Segment Rat)) :
    ink K (s :: segments) = s.points K ∪ ink K segments := by
  ext p
  simp [ink]

/-- The ends of all segments of a list. -/
def ends (segments : List (Segment Rat)) : Set (Point Rat) := {p | ∃ s ∈ segments, s.HasEnd p}

theorem ends_append (front back : List (Segment Rat)) : ends (front ++ back) = ends front ∪ ends back := by
  ext p
  simp [ends, or_and_right, exists_or]

theorem ends_cons (s : Segment Rat) (segments : List (Segment Rat)) :
    ends (s :: segments) = {p | s.HasEnd p} ∪ ends segments := by
  ext p
  simp [ends]

/-- All ends of a list are nodes. -/
def Lattice.CarriesAll (grid : Lattice) (segments : List (Segment Rat)) : Prop :=
  ∀ p ∈ ends segments, grid.Holds p

theorem Lattice.CarriesAll.carries {grid : Lattice} {segments : List (Segment Rat)}
    (h : grid.CarriesAll segments) {s : Segment Rat} (hs : s ∈ segments) : grid.Carries s := by
  intro p hp
  exact h p ⟨s, hs, hp⟩

theorem Lattice.CarriesAll.of_subset {grid : Lattice} {segments other : List (Segment Rat)}
    (h : grid.CarriesAll segments) (hsubset : other ⊆ segments) : grid.CarriesAll other := by
  rintro p ⟨s, hs, hp⟩
  exact h p ⟨s, hsubset hs, hp⟩

/-- The square lattice of the whole numbers. -/
def Lattice.whole : Lattice := ⟨1, ⟨0, 0⟩, one_pos⟩

/-- Whole coordinates of absolute value at most 20000 are on it. -/
theorem Lattice.carriesAll_whole {segments : List (Segment Rat)}
    (h : ∀ s ∈ segments, ∀ c ∈ [s.start.x, s.start.y, s.finish.x, s.finish.y], c.den = 1 ∧ |c| ≤ 20000) :
    Lattice.whole.CarriesAll segments := by
  have hholds : ∀ x y : Rat, x.den = 1 ∧ |x| ≤ 20000 → y.den = 1 ∧ |y| ≤ 20000 → Lattice.whole.Holds ⟨x, y⟩ := by
    rintro x y ⟨hx, hxle⟩ ⟨hy, hyle⟩
    rw [Rat.den_eq_one_iff] at hx hy
    rw [← hx] at hxle ⊢
    rw [← hy] at hyle ⊢
    refine ⟨x.num, y.num, by exact_mod_cast hxle, by exact_mod_cast hyle, Point.ext ?_ ?_⟩ <;>
      simp [node, whole]
  rintro p ⟨s, hs, rfl | rfl⟩
  · exact hholds _ _ (h s hs _ (by simp)) (h s hs _ (by simp))
  · exact hholds _ _ (h s hs _ (by simp)) (h s hs _ (by simp))

/-- On a lattice a segment that meets another and has its slope is a touching stretch of its line. -/
theorem Lattice.exists_touching {grid : Lattice} {s t : Segment Rat} (hs : grid.Carries s)
    (ht : grid.Carries t) (hmeets : s.meets t = true) (hparallel : s.parallel t = true) :
    ∃ a b, t = s.stretch a b ∧ (a = 0 ∨ a = 1 ∨ b = 0 ∨ b = 1) :=
  Segment.exists_stretch (Segment.proper_of_parallel hparallel)
    (cross_eq_zero_of_parallel hs ht hparallel) hmeets

namespace Strand

variable {grid : Lattice} {state state' : Segment Rat × List (Segment Rat)}

theorem Takes.ends_subset (h : Takes state state') (hgrid : grid.CarriesAll (state.1 :: state.2)) :
    ends (state'.1 :: state'.2) ⊆ ends (state.1 :: state.2) := by
  cases h with
  | @drop s t front back heq =>
      simp only [ends_cons, ends_append]
      exact Set.union_subset_union_right _ (Set.union_subset_union_right _ Set.subset_union_right)
  | @fold s t front back hne hmeets hparallel =>
      have hs := hgrid.carries (s := s) (by simp)
      have ht := hgrid.carries (s := t) (by simp)
      obtain ⟨a, b, rfl, -⟩ := Lattice.exists_touching hs ht hmeets hparallel
      simp only [ends_cons, ends_append]
      -- an end of the cover is an old one; the other ends are those of the segments left alone
      rintro p (hp | hp | hp)
      · rcases Segment.hasEnd_of_cover (Segment.proper_of_parallel hparallel)
          (Lattice.keepsSign_of_carries hs) hp with hp | hp
        · exact Or.inl hp
        · exact Or.inr (Or.inr (Or.inl hp))
      · exact Or.inr (Or.inl hp)
      · exact Or.inr (Or.inr (Or.inr hp))

variable [IsStrictOrderedRing K]

theorem Takes.ink_eq (h : Takes state state') (hgrid : grid.CarriesAll (state.1 :: state.2)) :
    ink K (state'.1 :: state'.2) = ink K (state.1 :: state.2) := by
  cases h with
  | @drop s t front back heq =>
      obtain rfl := (Segment.beq_rat t s).1 heq
      simp only [ink_cons, ink_append]
      ext p
      simp only [Set.mem_union]
      tauto
  | @fold s t front back hne hmeets hparallel =>
      have hs := hgrid.carries (s := s) (by simp)
      have ht := hgrid.carries (s := t) (by simp)
      obtain ⟨a, b, rfl, htouch⟩ := Lattice.exists_touching hs ht hmeets hparallel
      simp only [ink_cons, ink_append]
      rw [Segment.points_cover K (Segment.proper_of_parallel hparallel)
        (Lattice.keepsSign_of_carries hs) htouch]
      ext p
      simp only [Set.mem_union]
      tauto

/-- Taking segments one after the other keeps the picture and brings in no end. -/
theorem takes_keep (h : Relation.ReflTransGen Takes state state')
    (hgrid : grid.CarriesAll (state.1 :: state.2)) :
    ink K (state'.1 :: state'.2) = ink K (state.1 :: state.2) ∧
      ends (state'.1 :: state'.2) ⊆ ends (state.1 :: state.2) := by
  induction h with
  | refl => exact ⟨rfl, subset_rfl⟩
  | tail _ htake ih =>
      obtain ⟨hink, hends⟩ := ih
      have hnext : grid.CarriesAll _ := fun p hp => hgrid p (hends hp)
      exact ⟨(htake.ink_eq hnext).trans hink, (htake.ends_subset hnext).trans hends⟩

end Strand

variable [IsStrictOrderedRing K]

theorem strands_keep {grid : Lattice} (segments : List (Segment Rat)) (hgrid : grid.CarriesAll segments) :
    ink K ((strands segments).map (·.segment)) = ink K segments ∧
      ends ((strands segments).map (·.segment)) ⊆ ends segments := by
  fun_induction strands segments with
  | case1 => exact ⟨rfl, subset_rfl⟩
  | case2 s pending _ ih =>
      obtain ⟨hink, hends⟩ := Strand.takes_keep (K := K) (Strand.gather_takes (Strand.single s) pending) hgrid
      have hleft : grid.CarriesAll (Strand.gather (Strand.single s) pending).2 := by
        intro p hp
        apply hgrid
        apply hends
        rw [ends_cons]
        exact Or.inr hp
      obtain ⟨hinkRest, hendsRest⟩ := ih hleft
      constructor
      · rw [List.map_cons, ink_cons, hinkRest, ← ink_cons]
        exact hink
      · rw [List.map_cons, ends_cons]
        refine subset_trans (Set.union_subset_union_right _ hendsRest) ?_
        rw [← ends_cons]
        exact hends

/-- **Fusion keeps the picture.** Whatever the segments of a lattice are, in whatever order, the
segments after fusion cover the same points of the plane, and all their ends were ends before. -/
theorem fuse_keeps_ink (K : Type) [Field K] [LinearOrder K] [IsStrictOrderedRing K] (grid : Lattice)
    (limit : Nat) (segments : List (Segment Rat)) (hgrid : grid.CarriesAll segments) :
    ink K (fuse limit segments) = ink K segments ∧ ends (fuse limit segments) ⊆ ends segments := by
  unfold fuse
  split_ifs
  · exact ⟨rfl, subset_rfl⟩
  · exact strands_keep segments hgrid

/-- Pieces of one falling line, given out of order and with a backtrack, and a single point. -/
theorem fuse_keeps_ink_of_falling_line :
    let grid : Lattice := ⟨1 / 2, ⟨3, -1 / 3⟩, by norm_num⟩
    let segments : List (Segment Rat) :=
      [⟨grid.node 0 0, grid.node 10 (-10)⟩, ⟨grid.node 30 (-30), grid.node 20 (-20)⟩,
        ⟨grid.node 7 7, grid.node 7 7⟩, ⟨grid.node 20 (-20), grid.node 4 (-4)⟩,
        ⟨grid.node 10 (-10), grid.node 20 (-20)⟩]
    grid.CarriesAll segments ∧
      ink ℝ (fuse 5 segments) = ink ℝ segments ∧ ends (fuse 5 segments) ⊆ ends segments := by
  intro grid segments
  have hgrid : grid.CarriesAll segments := by
    rintro p ⟨s, hs, hp⟩
    simp only [segments, List.mem_cons, List.not_mem_nil, or_false] at hs
    rcases hs with rfl | rfl | rfl | rfl | rfl <;> rcases hp with rfl | rfl <;>
      exact ⟨_, _, by decide, by decide, rfl⟩
  exact ⟨hgrid, fuse_keeps_ink ℝ grid 5 segments hgrid⟩

end LSystem
