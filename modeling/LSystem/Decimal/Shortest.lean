/-!
The shortest decimal that reads back as a given floating-point number. A positive number stands for all
reals that round to it, an interval that holds its ends if the significand is even. The decimals with
seventeen digits are a grid fine enough to have points in every such interval; the decimal wanted is the
point on the coarsest grid that still has one, and of two points on that grid the nearer one.
-/

namespace LSystem

/-- `digits * 10 ^ exponent`. -/
structure Decimal where
  digits : Nat
  exponent : Int
  deriving DecidableEq

namespace Decimal

/-- A positive binary number `significand * 2 ^ exponent`. -/
structure Binary where
  significand : Nat
  exponent : Int
  /-- The number below is only half as far away as the number above. -/
  atBoundary : Bool
  deriving DecidableEq

/-- The absolute value of a finite number. -/
def Binary.ofFloat (x : Float) : Binary :=
  let bits : Nat := x.toBits.toNat % Nat.pow 2 63
  let fraction : Nat := bits % Nat.pow 2 52
  let scale : Nat := bits / Nat.pow 2 52
  if scale = 0 then ⟨fraction, -1074, false⟩
  else ⟨Nat.pow 2 52 + fraction, (scale : Int) - 1075, fraction = 0 && 1 < scale⟩

/-- Which of two decimals stands for a number that lies halfway between them. -/
inductive Tie where
  | toEven
  | up
  deriving DecidableEq

/-- A number measured in the steps of its finest grid, with the least and the greatest grid point that
read back as it. -/
structure Target where
  /-- Twice the value, rounded down. -/
  twice : Nat
  /-- Nothing was lost in rounding. -/
  exact : Bool
  least : Nat
  greatest : Nat
  deriving DecidableEq

namespace Target

/-- The neighbour below or above the value on a coarser grid, as a multiple of its step. -/
def onGrid? (target : Target) (tie : Tie) (step : Nat) : Option Nat :=
  let below := target.twice / 2 / step
  let up := (below + 1) * step ≤ target.greatest
  if target.least ≤ below * step then
    if up then
      match compare target.twice ((2 * below + 1) * step) with
      | .lt => some below
      | .gt => some (below + 1)
      | .eq => some (if target.exact ∧ tie = .toEven ∧ below % 2 = 0 then below else below + 1)
    else some below
  else if up then some (below + 1)
  else none

/-- The point on the coarsest grid that has one, as a multiple of the step and the exponent of the step.
The search goes up from the grid of step `step` with the point `found`, over `tries` grids at most; a grid
without a point has none above it that has one. -/
def climb (target : Target) (tie : Tie) (step : Nat) (found : Nat × Nat) : Nat → Nat × Nat
  | 0 => found
  | tries + 1 =>
    match target.onGrid? tie (10 * step) with
    | some multiple => climb target tie (10 * step) (multiple, found.2 + 1) tries
    | none => found

/-- The point on the coarsest of all grids that has one. -/
def coarsest (target : Target) (tie : Tie) : Nat × Nat :=
  target.climb tie 1 ((target.onGrid? tie 1).getD (target.twice / 2), 0) 17

end Target

/-- The least power of ten above `num / den`, looked for from `guess` upwards. -/
def powerAbove (num den : Nat) : Nat → Int → Int
  | 0, guess => guess
  | tries + 1, guess =>
    if num * Nat.pow 10 (-guess).toNat < den * Nat.pow 10 guess.toNat then guess
    else powerAbove num den tries (guess + 1)

namespace Binary

/-- The power of ten just above the number: it has that many digits in front of the point. -/
def power (b : Binary) : Int :=
  let num := b.significand * Nat.pow 2 b.exponent.toNat
  let den := Nat.pow 2 (-b.exponent).toNat
  powerAbove num den 8 (((num.log2 : Int) - den.log2 - 1) * 30103 / 100000 - 1)

/-- The number and its interval on the grid of step `10 ^ step`. Quarters of the last binary place are
enough to name the ends of the interval. -/
def target (b : Binary) (step : Int) : Target :=
  let scale := Nat.pow 2 (b.exponent - 2).toNat * Nat.pow 10 (-step).toNat
  let den := Nat.pow 2 (2 - b.exponent).toNat * Nat.pow 10 step.toNat
  let low := (4 * b.significand - if b.atBoundary then 1 else 2) * scale
  let high := (4 * b.significand + 2) * scale
  let twice := 8 * b.significand * scale
  let even := b.significand % 2 = 0
  ⟨twice / den, twice % den = 0, if even then (low + den - 1) / den else low / den + 1,
    if even then high / den else (high - 1) / den⟩

/-- The shortest decimal that reads back as the number. -/
def shortest (b : Binary) (tie : Tie) : Decimal :=
  let step := b.power - 17
  let (digits, j) := (b.target step).coarsest tie
  ⟨digits, step + j⟩

end Binary

end Decimal

end LSystem
