import LSystem.Proofs.Plane.Bounds
import LSystem.Proofs.Scalar.Ranks

/-! The bounding box of a drawing in floating point. All that fusion has to know of coordinates is their order, so what
holds of ranked scalars holds of the floating-point numbers, infinite ones included, as long as all coordinates are
numbers. Slopes may be rounded and covers may take the wrong diagonal: the least and the greatest coordinates stay. -/

namespace LSystem

variable {axis : Axis}

namespace Ranking

variable {α β : Type} [Scalar α] [LinearOrder β] {ranking : Ranking α β} {segments : List (Segment α)}

/-- One box lies within the bounds of a list before and after it is fused, and takes its corners from what is left. -/
theorem exists_bounds_fuse (limit : Nat) (hproper : ranking.AllProper axis segments) (hne : segments ≠ []) :
    ∃ box, ranking.Bounds axis box (fuse limit segments) ∧ ranking.Bounds axis box segments := by
  have hkeeps := keeps_fuse limit hproper
  cases hbox : Box.ofSegments? (fuse limit segments) with
  | none => exact absurd (fuse_eq_nil.1 (Box.ofSegments?_eq_none.1 hbox)) hne
  | some box =>
      have hafter := bounds_of_ofSegments? hbox (hproper.of_keeps hkeeps)
      have hlow := hkeeps.spread_subset hafter.low_mem
      have hhigh := hkeeps.spread_subset hafter.high_mem
      refine ⟨box, hafter, ⟨hlow, hhigh, ⟨⟨_, hlow, rfl⟩, ?_⟩, ⟨⟨_, hhigh, rfl⟩, ?_⟩⟩⟩
      · rw [← hkeeps.lower]
        exact hafter.isLeast.2
      · rw [← hkeeps.upper]
        exact hafter.isGreatest.2

end Ranking

/-! ### Floating point -/

open Scalar.Binary

/-- Numbers are proper, what is not a number is not. -/
def Ranking.binary : Ranking Float Rank where
  Proper x := x.isNaN = false
  rank := Scalar.Binary.rank
  lt_iff := lt_iff_rank
  rank_eq hx hy h := (beq_iff_rank hx hy).1 h

variable {segments : List (Segment Float)} {box : Box Float}

theorem Ranking.Bounds.isLeast_spread (h : Ranking.binary.Bounds axis box segments)
    (hproper : Ranking.binary.AllProper axis segments) : IsLeast (spread axis segments) (box.low.coord axis) :=
  ⟨h.low_mem, fun a ha => (le_iff_rank (hproper _ h.low_mem) (hproper a ha)).2 (h.isLeast.2 ⟨a, ha, rfl⟩)⟩

theorem Ranking.Bounds.isGreatest_spread (h : Ranking.binary.Bounds axis box segments)
    (hproper : Ranking.binary.AllProper axis segments) : IsGreatest (spread axis segments) (box.high.coord axis) :=
  ⟨h.high_mem, fun a ha => (le_iff_rank (hproper a ha) (hproper _ h.high_mem)).2 (h.isGreatest.2 ⟨a, ha, rfl⟩)⟩

/-- **Fusion keeps the bounding box.** Along an axis on which all coordinates are numbers, every coordinate that is left
was there before, and unless there is no segment at all, one of those left is the least and one is the greatest both
before and after. -/
theorem fuse_keeps_extremes (limit : Nat) (axis : Axis) {segments : List (Segment Float)}
    (hnumbers : ∀ s ∈ segments, (s.start.coord axis).isNaN = false ∧ (s.finish.coord axis).isNaN = false) :
    spread axis (fuse limit segments) ⊆ spread axis segments ∧
      (segments ≠ [] →
        (∃ least, IsLeast (spread axis segments) least ∧ IsLeast (spread axis (fuse limit segments)) least) ∧
          ∃ greatest, IsGreatest (spread axis segments) greatest ∧
            IsGreatest (spread axis (fuse limit segments)) greatest) := by
  have hproper : Ranking.binary.AllProper axis segments := by
    rintro a ⟨s, hs, rfl | rfl⟩
    · exact (hnumbers s hs).1
    · exact (hnumbers s hs).2
  have hkeeps := Ranking.keeps_fuse limit hproper
  refine ⟨hkeeps.spread_subset, fun hne => ?_⟩
  obtain ⟨box, hafter, hbefore⟩ := Ranking.exists_bounds_fuse limit hproper hne
  have hleft := hproper.of_keeps hkeeps
  exact ⟨⟨_, hbefore.isLeast_spread hproper, hafter.isLeast_spread hleft⟩,
    ⟨_, hbefore.isGreatest_spread hproper, hafter.isGreatest_spread hleft⟩⟩

/-- An almost level line, whose slope is rounded away, and a vertical one that is infinite either way and starts at both
zeros. -/
theorem fuse_keeps_extremes_of_infinite_line :
    let infinite : Float := 1 / 0
    let segments : List (Segment Float) :=
      [⟨⟨0, 0⟩, ⟨100000000000, -1⟩⟩, ⟨⟨-0, 5⟩, ⟨-0, infinite⟩⟩, ⟨⟨100000000000, -1⟩, ⟨200000000000, -2⟩⟩,
        ⟨⟨0, 5⟩, ⟨0, -infinite⟩⟩]
    (∀ s ∈ segments, (s.start.coord .y).isNaN = false ∧ (s.finish.coord .y).isNaN = false) ∧
      spread .y (fuse 4 segments) ⊆ spread .y segments ∧
      (∃ least, IsLeast (spread .y segments) least ∧ IsLeast (spread .y (fuse 4 segments)) least) ∧
      ∃ greatest, IsGreatest (spread .y segments) greatest ∧ IsGreatest (spread .y (fuse 4 segments)) greatest := by
  intro infinite segments
  have hnumbers : ∀ s ∈ segments, (s.start.coord .y).isNaN = false ∧ (s.finish.coord .y).isNaN = false := by
    decide +kernel
  obtain ⟨hsubset, hextremes⟩ := fuse_keeps_extremes 4 .y hnumbers
  obtain ⟨hleast, hgreatest⟩ := hextremes (List.cons_ne_nil _ _)
  exact ⟨hnumbers, hsubset, hleast, hgreatest⟩

end LSystem
