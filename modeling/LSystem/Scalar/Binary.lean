import LSystem.Scalar.Basic

/-!
Floating-point scalars. Comparisons are those of the format: nothing compares with NaN, and the two
zeros are equal.
-/

namespace LSystem.Scalar.Binary

/-- Ten to the power `slopePlaces`. -/
@[inline] def slopeUnit : Float := 10000000000

/-- The quotient, rounded to ten decimals; a half goes away from zero. -/
@[inline] def slope (dx dy : Float) : Float :=
  (dy / dx * slopeUnit).round / slopeUnit

@[inline] def parallel (a b : Float) : Bool :=
  (a.isInf && b.isInf) || a == b

end LSystem.Scalar.Binary

namespace LSystem

instance : Scalar Float where
  decLT := inferInstance
  decLE := inferInstance
  isFinite := Float.isFinite
  floor := Float.floor
  Slope := Float
  slope := Scalar.Binary.slope
  parallel := Scalar.Binary.parallel
  falling := fun m => decide (m < 0)

end LSystem
