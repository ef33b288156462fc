import LSystem.Plane.Fusion
import LSystem.Scalar.Exact
import Mathlib.Algebra.Order.Field.Basic
import Mathlib.Data.Rat.Floor
import Mathlib.Tactic.Linarith
import Mathlib.Tactic.Ring

/-! The plane in exact scalars: comparisons decide what they look like, the lesser and the greater of
two rationals are their minimum and maximum, and a slope is rounded by at most half a unit of its
last decimal. -/

namespace LSystem

namespace Scalar

@[simp] theorem lesser_rat (a b : Rat) : lesser a b = min a b := by
  unfold lesser
  rcases lt_or_ge a b with h | h
  · rw [if_pos h, min_eq_left h.le]
  · rw [if_neg (not_lt.2 h), min_eq_right h]

@[simp] theorem greater_rat (a b : Rat) : greater a b = max a b := by
  unfold greater
  rcases lt_or_ge b a with h | h
  · rw [if_pos h, max_eq_left h.le]
  · rw [if_neg (not_lt.2 h), max_eq_right h]

namespace Exact

theorem nearest_of_neg {q : Rat} (h : q < 0) : nearest q = -⌊-q + 1 / 2⌋ := if_pos h

theorem nearest_of_nonneg {q : Rat} (h : 0 ≤ q) : nearest q = ⌊q + 1 / 2⌋ := if_neg (not_lt.2 h)

theorem abs_nearest_sub_le (q : Rat) : |(nearest q : Rat) - q| ≤ 1 / 2 := by
  rw [abs_le]
  rcases lt_or_ge q 0 with h | h
  · have hle := Int.floor_le (-q + 1 / 2)
    have hlt := Int.lt_floor_add_one (-q + 1 / 2)
    rw [nearest_of_neg h]
    push_cast
    constructor <;> linarith
  · have hle := Int.floor_le (q + 1 / 2)
    have hlt := Int.lt_floor_add_one (q + 1 / 2)
    rw [nearest_of_nonneg h]
    constructor <;> linarith

theorem nearest_neg_iff {q : Rat} : nearest q < 0 ↔ q ≤ -(1 / 2) := by
  rcases lt_or_ge q 0 with h | h
  · rw [nearest_of_neg h, neg_lt_zero, Int.floor_pos]
    constructor <;> intro hle <;> linarith
  · have hfloor : 0 ≤ ⌊q + 1 / 2⌋ := Int.floor_nonneg.2 (by linarith)
    rw [nearest_of_nonneg h]
    constructor
    · intro hneg
      omega
    · intro hle
      linarith

/-- Numbers that are rounded to the same whole number are at most one apart. -/
theorem abs_sub_le_of_nearest_eq {a b : Rat} (h : nearest a = nearest b) : |a - b| ≤ 1 := by
  have ha := abs_le.1 (abs_nearest_sub_le a)
  have hb := abs_le.1 (abs_nearest_sub_le b)
  rw [h] at ha
  rw [abs_le]
  constructor <;> linarith

theorem slopeUnit_eq : slopeUnit = 10000000000 := by
  norm_num [slopeUnit, slopePlaces]

/-- Directions are parallel if both are vertical, or if neither is and their gradients are rounded
to the same decimals. -/
theorem parallel_slope_iff {dx dy dx' dy' : Rat} :
    parallel (slope dx dy) (slope dx' dy') = true ↔
      (dx = 0 ∧ dy ≠ 0 ∧ dx' = 0 ∧ dy' ≠ 0) ∨
      (dx ≠ 0 ∧ dx' ≠ 0 ∧ nearest (dy / dx * slopeUnit) = nearest (dy' / dx' * slopeUnit)) := by
  have hunit : slopeUnit ≠ 0 := by
    rw [slopeUnit_eq]
    norm_num
  unfold slope
  split_ifs <;> simp_all [parallel, div_left_inj']

/-- A direction falls if it is vertical and points down, or if its gradient is rounded below zero. -/
theorem falling_slope_iff {dx dy : Rat} :
    falling (slope dx dy) = true ↔
      (dx = 0 ∧ dy < 0) ∨ (dx ≠ 0 ∧ dy / dx * slopeUnit ≤ -(1 / 2)) := by
  have hunit : 0 < slopeUnit := by
    rw [slopeUnit_eq]
    norm_num
  unfold slope
  split_ifs with hx hy
  · simp [falling, hx, hy]
  · simp only [falling, hx, Bool.not_eq_true', decide_eq_false_iff_not, not_lt, true_and, ne_eq,
      not_true_eq_false, false_and, or_false]
    exact ⟨fun h => lt_of_le_of_ne h hy, le_of_lt⟩
  · rw [← nearest_neg_iff]
    simp [falling, hx, div_neg_iff, hunit, not_lt.2 hunit.le]

end Exact

end Scalar

attribute [ext] Point Segment

namespace Point

variable {α : Type} [Scalar α]

@[simp] theorem lesser_x (p q : Point α) : (p.lesser q).x = Scalar.lesser p.x q.x := rfl

@[simp] theorem lesser_y (p q : Point α) : (p.lesser q).y = Scalar.lesser p.y q.y := rfl

@[simp] theorem greater_x (p q : Point α) : (p.greater q).x = Scalar.greater p.x q.x := rfl

@[simp] theorem greater_y (p q : Point α) : (p.greater q).y = Scalar.greater p.y q.y := rfl

@[simp] theorem sub_x (p q : Point Rat) : (p - q).x = p.x - q.x := rfl

@[simp] theorem sub_y (p q : Point Rat) : (p - q).y = p.y - q.y := rfl

theorem dot_rat (p q : Point Rat) : p.dot q = p.x * q.x + p.y * q.y := rfl

@[simp] theorem beq_rat (p q : Point Rat) : (p == q) = true ↔ p = q := by
  rw [Point.ext_iff]
  exact (Bool.and_eq_true _ _).to_iff.trans (and_congr decide_eq_true_iff decide_eq_true_iff)

end Point

namespace Segment

@[simp] theorem beq_rat (s t : Segment Rat) : (s == t) = true ↔ s = t := by
  rw [Segment.ext_iff]
  exact (Bool.and_eq_true _ _).to_iff.trans (and_congr (Point.beq_rat _ _) (Point.beq_rat _ _))

/-- A segment has two ends, which may be one point. -/
def HasEnd (s : Segment Rat) (p : Point Rat) : Prop := p = s.start ∨ p = s.finish

theorem meets_iff {s t : Segment Rat} : s.meets t = true ↔ ∃ p, s.HasEnd p ∧ t.HasEnd p := by
  simp only [meets, Bool.or_eq_true, Point.beq_rat, HasEnd]
  constructor
  · rintro (((h | h) | h) | h)
    · exact ⟨s.start, Or.inl rfl, Or.inl h⟩
    · exact ⟨s.start, Or.inl rfl, Or.inr h⟩
    · exact ⟨s.finish, Or.inr rfl, Or.inl h⟩
    · exact ⟨s.finish, Or.inr rfl, Or.inr h⟩
  · rintro ⟨p, rfl | rfl, h | h⟩ <;> simp [h]

end Segment

end LSystem
