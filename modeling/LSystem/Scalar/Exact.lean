import LSystem.Scalar.Basic

/-!
Exact scalars. Every rational is finite; a slope is a rational rounded to ten decimals, or vertical, or
undefined for a direction of length zero.
-/

namespace LSystem.Scalar.Exact

inductive Slope where
  | undefined
  | vertical (rising : Bool)
  | level (gradient : Rat)
  deriving DecidableEq

/-- The nearest whole number; a half goes away from zero. -/
def nearest (q : Rat) : Int :=
  if q < 0 then -(-q + 1 / 2).floor else (q + 1 / 2).floor

/-- Ten to the power `slopePlaces`. -/
def slopeUnit : Rat := 10 ^ slopePlaces

def slope (dx dy : Rat) : Slope :=
  if dx = 0 then
    if dy = 0 then .undefined else .vertical (decide (0 < dy))
  else
    .level (nearest (dy / dx * slopeUnit) / slopeUnit)

def parallel : Slope → Slope → Bool
  | .vertical _, .vertical _ => true
  | .level a, .level b => decide (a = b)
  | _, _ => false

def falling : Slope → Bool
  | .undefined => false
  | .vertical rising => !rising
  | .level gradient => decide (gradient < 0)

end LSystem.Scalar.Exact

namespace LSystem

instance : Scalar Rat where
  zero := 0
  one := 1
  decLT := inferInstance
  decLE := inferInstance
  isFinite := fun _ => true
  floor := fun q => q.floor
  Slope := Scalar.Exact.Slope
  slope := Scalar.Exact.slope
  parallel := Scalar.Exact.parallel
  falling := Scalar.Exact.falling

end LSystem
