import LSystem.Scalar.Binary
import Mathlib.Algebra.Order.Ring.Int
import Mathlib.Data.Nat.Cast.Order.Ring
import Mathlib.Data.Prod.Lex
import Mathlib.Order.Compare

/-! The order of floating-point numbers. Two that are numbers compare as their ranks do, in a linear order: first comes
the kind, from the negative infinity to the positive one, and among finite numbers of one sign the exponent decides
before the significand. Only the two zeros are told apart by their bits and not by their ranks. -/

namespace LSystem.Scalar.Binary

open Float.Model

abbrev Rank := ℤ ×ₗ ℤ ×ₗ ℤ

def Rank.of (kind exponent significand : ℤ) : Rank := toLex (kind, toLex (exponent, significand))

theorem Rank.compare_of (kind kind' exponent exponent' significand significand' : ℤ) :
    compare (Rank.of kind exponent significand) (Rank.of kind' exponent' significand') =
      (compare kind kind').then ((compare exponent exponent').then (compare significand significand')) := by
  have hpair : ∀ {β : Type} [LinearOrder β] (a a' : ℤ) (b b' : β),
      compare (toLex (a, b)) (toLex (a', b')) = (compare a a').then (compare b b') := by
    intro β _ a a' b b'
    rw [Prod.Lex.compare_def]
    rfl
  rw [Rank.of, Rank.of, hpair, hpair]

/-- The rank of what is not a number means nothing. -/
def unpackedRank : UnpackedFloat → Rank
  | .infinity .negative => .of (-2) 0 0
  | .finite .negative significand exponent _ => .of (-1) (-exponent) (-significand)
  | .zero _ => .of 0 0 0
  | .finite .positive significand exponent _ => .of 1 exponent significand
  | .infinity .positive => .of 2 0 0
  | .notANumber => .of 0 0 0

theorem compare_neg_neg (a b : ℤ) : compare (-a) (-b) = (compare a b).swap := by
  rw [Int.compare_swap, ← cmp_eq_compare, ← cmp_eq_compare]
  exact StrictAnti.cmp_map_eq (fun _ _ => Int.neg_lt_neg) a b

theorem compare_natCast (a b : ℕ) : compare (a : ℤ) (b : ℤ) = compare a b := by
  rw [← cmp_eq_compare, ← cmp_eq_compare]
  exact Nat.strictMono_cast.cmp_map_eq a b

/-- Exponents and significands count the other way below zero. -/
theorem compare_unpacked_finite (sign sign' : UnpackedFloat.Sign) {significand significand' : ℕ}
    (exponent exponent' : ℤ) (hpos : 0 < significand) (hpos' : 0 < significand') :
    (UnpackedFloat.finite sign significand exponent hpos).compare (.finite sign' significand' exponent' hpos') =
      some (compare (unpackedRank (.finite sign significand exponent hpos))
        (unpackedRank (.finite sign' significand' exponent' hpos'))) := by
  cases sign with
  | positive =>
      cases sign' with
      | positive =>
          show UnpackedFloat.compare _ _ =
            some (compare (Rank.of 1 exponent significand) (Rank.of 1 exponent' significand'))
          rw [Rank.compare_of, compare_natCast]
          rfl
      | negative => rfl
  | negative =>
      cases sign' with
      | positive => rfl
      | negative =>
          show UnpackedFloat.compare _ _ = some (compare (Rank.of (-1) (-exponent) (-significand))
            (Rank.of (-1) (-exponent') (-significand')))
          rw [Rank.compare_of, compare_neg_neg exponent, compare_neg_neg (significand : ℤ), compare_natCast,
            ← Ordering.swap_then]
          rfl

theorem compare_unpacked {a b : UnpackedFloat} (ha : a.isNaN = false) (hb : b.isNaN = false) :
    a.compare b = some (compare (unpackedRank a) (unpackedRank b)) := by
  cases a with
  | notANumber => cases ha
  | zero =>
      cases b with
      | notANumber => cases hb
      | zero => rfl
      | finite sign' => cases sign' <;> rfl
      | infinity sign' => cases sign' <;> rfl
  | finite sign significand exponent hpos =>
      cases b with
      | notANumber => cases hb
      | zero => cases sign <;> rfl
      | finite sign' significand' exponent' hpos' =>
          exact compare_unpacked_finite sign sign' exponent exponent' hpos hpos'
      | infinity sign' => cases sign <;> cases sign' <;> rfl
  | infinity sign =>
      cases b with
      | notANumber => cases hb
      | zero => cases sign <;> rfl
      | finite sign' => cases sign <;> cases sign' <;> rfl
      | infinity sign' => cases sign <;> cases sign' <;> rfl

/-! ### Comparisons -/

def rank (x : Float) : Rank := unpackedRank x.toModel.unpack

variable {x y : Float}

theorem lt_iff_rank (hx : x.isNaN = false) (hy : y.isNaN = false) : x < y ↔ rank x < rank y := by
  have hlt : x < y ↔ (x.toModel.unpack.compare y.toModel.unpack == some .lt) = true := decide_eq_true_iff
  rw [hlt, compare_unpacked hx hy, beq_iff_eq, Option.some_inj, compare_lt_iff_lt]
  rfl

theorem le_iff_rank (hx : x.isNaN = false) (hy : y.isNaN = false) : x ≤ y ↔ rank x ≤ rank y := by
  have hle : x ≤ y ↔ (x.toModel.unpack.compare y.toModel.unpack).any (·.isLE) = true := decide_eq_true_iff
  rw [hle, compare_unpacked hx hy, Option.any_some, Ordering.isLE_iff_ne_gt, ← ne_eq, compare_le_iff_le]
  rfl

theorem beq_iff_rank (hx : x.isNaN = false) (hy : y.isNaN = false) : (x == y) = true ↔ rank x = rank y := by
  have hbeq : (x == y) = (x.toModel.unpack.compare y.toModel.unpack == some .eq) := rfl
  rw [hbeq, compare_unpacked hx hy, beq_iff_eq, Option.some_inj, compare_eq_iff_eq]
  rfl

end LSystem.Scalar.Binary
