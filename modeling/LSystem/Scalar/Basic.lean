/-!
The arithmetic of drawings. Geometry and turtle are written once over any `Scalar`; `Scalar.Binary`
gives the 64-bit floating-point numbers that drawings are computed in, `Scalar.Exact` the rationals,
in which the same drawings have no rounding errors to account for.

A slope is a quotient that may be infinite or undefined, so each scalar brings a type of its own for it.
-/

namespace LSystem

class Scalar (α : Type) extends
    Add α, Sub α, Mul α, Div α, Neg α, Zero α, One α, LT α, LE α, BEq α where
  decLT : ∀ a b : α, Decidable (a < b)
  decLE : ∀ a b : α, Decidable (a ≤ b)
  isFinite : α → Bool
  /-- The greatest whole number that is not above the argument. -/
  floor : α → α
  Slope : Type
  /-- The slope of the direction `(dx, dy)`, rounded to `slopePlaces` decimals. It is infinite with
  the sign of `dy` if only `dx` is zero, and undefined if both are. -/
  slope : (dx dy : α) → Slope
  /-- Equal slopes, or two infinite ones. An undefined slope is parallel to none. -/
  parallel : Slope → Slope → Bool
  falling : Slope → Bool

attribute [reducible, instance] Scalar.decLT Scalar.decLE

/-- The number of decimals to which slopes are compared. -/
def slopePlaces : Nat := 10

namespace Scalar

variable {α : Type} [Scalar α]

def two : α := 1 + 1

def half : α := 1 / two

/-- The second argument unless the first is smaller: an unordered pair gives the second. -/
def lesser (a b : α) : α := if a < b then a else b

/-- The second argument unless the first is greater: an unordered pair gives the second. -/
def greater (a b : α) : α := if b < a then a else b

end Scalar

end LSystem
