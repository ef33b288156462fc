import LSystem.Decimal.Shortest

/-!
Decimals as text. The decimal point stands after a number of digits that may be negative or larger than
there are digits; zeros fill the gap.
-/

namespace LSystem.Decimal

def digitsText (n : Nat) : List Char := Nat.toDigits 10 n

def zeros (n : Nat) : List Char := List.replicate n '0'

/-- The digits with the point after `place` of them. A whole number ends in `tail`. -/
def positional (digits : List Char) (place : Int) (tail : List Char) : List Char :=
  if digits.length ≤ place then digits ++ zeros (place.toNat - digits.length) ++ tail
  else if 0 < place then digits.take place.toNat ++ '.' :: digits.drop place.toNat
  else '0' :: '.' :: zeros (-place).toNat ++ digits

/-- How floating-point numbers are written: their sign, the text of zero, and that of a positive finite
number by the digits and the place of the point. -/
structure Layout where
  tie : Tie
  zero : List Char
  positive : (digits : List Char) → (place : Int) → List Char

def Layout.finite (layout : Layout) (x : Float) : List Char :=
  let sign := if x.toBits.toNat < Nat.pow 2 63 then [] else ['-']
  if x == 0 then sign ++ layout.zero
  else
    let decimal := (Binary.ofFloat x).shortest layout.tie
    let digits := digitsText decimal.digits
    sign ++ layout.positive digits (digits.length + decimal.exponent)

/-- Numbers in messages never have an exponent, and whole ones no point; a tie goes up. -/
def plain : Layout where
  tie := .up
  zero := ['0']
  positive := fun digits place => positional digits place []

/-- A number as it stands in messages. -/
def message (x : Float) : String :=
  if x.isNaN then "NaN"
  else if x.isInf then if x < 0 then "-inf" else "inf"
  else String.ofList (plain.finite x)

end LSystem.Decimal
