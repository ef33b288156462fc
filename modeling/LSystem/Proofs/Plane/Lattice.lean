import LSystem.Proofs.Plane.Line
import Mathlib.Algebra.Order.Ring.Abs

/-! Square lattices. Two gradients between nodes that are at most 40000 units apart differ by more
than the last decimal of a slope or not at all, so on such a lattice rounded slopes are as good as
exact ones: parallel segments have one direction, and a slope keeps its sign. -/

namespace LSystem

/-- A square lattice, laid over the plane with its axes along those of the plane. -/
structure Lattice where
  unit : Rat
  corner : Point Rat
  unit_pos : 0 < unit

namespace Lattice

def node (grid : Lattice) (a b : Int) : Point Rat :=
  ⟨grid.unit * a + grid.corner.x, grid.unit * b + grid.corner.y⟩

/-- The point is a node of the lattice, at most 20000 units from its corner on either axis. -/
def Holds (grid : Lattice) (p : Point Rat) : Prop :=
  ∃ a b : Int, |a| ≤ 20000 ∧ |b| ≤ 20000 ∧ p = grid.node a b

/-- Both ends of the segment are nodes. -/
def Carries (grid : Lattice) (s : Segment Rat) : Prop := ∀ p, s.HasEnd p → grid.Holds p

theorem Carries.direction {grid : Lattice} {s : Segment Rat} (h : grid.Carries s) :
    ∃ a b : Int, |a| ≤ 40000 ∧ |b| ≤ 40000 ∧
      s.direction.x = grid.unit * a ∧ s.direction.y = grid.unit * b := by
  obtain ⟨a, b, ha, hb, hstart⟩ := h s.start (Or.inl rfl)
  obtain ⟨c, d, hc, hd, hfinish⟩ := h s.finish (Or.inr rfl)
  rw [abs_le] at ha hb hc hd
  refine ⟨c - a, d - b, abs_le.2 ⟨by omega, by omega⟩, abs_le.2 ⟨by omega, by omega⟩, ?_, ?_⟩
  · rw [Segment.direction_x, hstart, hfinish, node, node]
    push_cast
    ring
  · rw [Segment.direction_y, hstart, hfinish, node, node]
    push_cast
    ring

open Scalar.Exact

theorem gradient_unit (grid : Lattice) (a b : Int) :
    grid.unit * b / (grid.unit * a) * slopeUnit = (b : Rat) / a * slopeUnit := by
  rw [mul_div_mul_left _ _ grid.unit_pos.ne']

/-- Gradients of small whole numbers are rounded apart unless they are equal. -/
theorem cross_eq_zero_of_nearest_eq {a b c d : Int} (ha : a ≠ 0) (hc : c ≠ 0)
    (haBound : |a| ≤ 40000) (hcBound : |c| ≤ 40000)
    (h : nearest ((b : Rat) / a * slopeUnit) = nearest ((d : Rat) / c * slopeUnit)) :
    a * d - b * c = 0 := by
  have hclose := abs_sub_le_of_nearest_eq h
  have haRat : (a : Rat) ≠ 0 := by exact_mod_cast ha
  have hcRat : (c : Rat) ≠ 0 := by exact_mod_cast hc
  have hdiff : (b : Rat) / a * slopeUnit - (d : Rat) / c * slopeUnit =
      ((b * c - d * a : Int) : Rat) * slopeUnit / ((a * c : Int) : Rat) := by
    push_cast
    field_simp
  have hscaled : |((b * c - d * a : Int) : Rat)| * slopeUnit ≤ |((a * c : Int) : Rat)| := by
    have hpos : (0 : Rat) < |((a * c : Int) : Rat)| := by
      rw [abs_pos]
      exact_mod_cast mul_ne_zero ha hc
    rw [hdiff, abs_div, div_le_one hpos, abs_mul] at hclose
    have hunit : |slopeUnit| = slopeUnit := by
      rw [slopeUnit_eq]
      norm_num
    rwa [hunit] at hclose
  have hwhole : |b * c - d * a| * 10000000000 ≤ |a * c| := by
    rw [slopeUnit_eq] at hscaled
    exact_mod_cast hscaled
  have hproduct : |a * c| ≤ 40000 * 40000 := by
    rw [abs_mul]
    exact mul_le_mul haBound hcBound (abs_nonneg c) (by norm_num)
  have hsmall : |b * c - d * a| < 1 := by omega
  have hzero := Int.abs_lt_one_iff.1 hsmall
  linarith

theorem cross_eq_zero_of_parallel {grid : Lattice} {s t : Segment Rat} (hs : grid.Carries s)
    (ht : grid.Carries t) (h : s.parallel t = true) : Segment.cross s.direction t.direction = 0 := by
  obtain ⟨a, b, ha, -, hx, hy⟩ := hs.direction
  obtain ⟨c, d, hc, -, hx', hy'⟩ := ht.direction
  unfold Segment.cross
  rcases parallel_slope_iff.1 h with ⟨hvertical, -, hvertical', -⟩ | ⟨hrun, hrun', hnearest⟩
  · rw [hvertical, hvertical']
    ring
  · rw [hx] at hrun
    rw [hx'] at hrun'
    rw [hx, hy, hx', hy', gradient_unit, gradient_unit] at hnearest
    have hzero := cross_eq_zero_of_nearest_eq (by rintro rfl; simp at hrun) (by rintro rfl; simp at hrun')
      ha hc hnearest
    have hcast : (a : Rat) * d - b * c = 0 := by exact_mod_cast hzero
    rw [hx, hy, hx', hy']
    linear_combination grid.unit * grid.unit * hcast

/-- A gradient of small whole numbers that is not zero is not nearly zero. -/
theorem gradient_le_of_neg {a b : Int} (ha : |a| ≤ 40000) (h : (b : Rat) / a < 0) :
    (b : Rat) / a ≤ -(1 / 40000) := by
  have hb : b ≠ 0 := by
    rintro rfl
    simp at h
  have ha0 : a ≠ 0 := by
    rintro rfl
    simp at h
  have hrun : |(a : Rat)| ≤ 40000 := by exact_mod_cast ha
  have hrise : (1 : Rat) ≤ |(b : Rat)| := by exact_mod_cast Int.one_le_abs hb
  have hpos : 0 < |(a : Rat)| := abs_pos.2 (by exact_mod_cast ha0)
  rw [le_neg, ← abs_of_neg h, abs_div, div_le_div_iff₀ (by norm_num) hpos]
  linarith

theorem keepsSign_of_carries {grid : Lattice} {s : Segment Rat} (h : grid.Carries s) : s.KeepsSign := by
  obtain ⟨a, b, ha, -, hx, hy⟩ := h.direction
  rw [Segment.keepsSign_iff, Segment.AlmostLevel, hx, hy, gradient_unit, slopeUnit_eq,
    mul_div_mul_left _ _ grid.unit_pos.ne']
  rintro ⟨hfalls, hflat⟩
  have hsteep := gradient_le_of_neg ha hfalls
  linarith

end Lattice

end LSystem
