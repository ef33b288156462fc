import LSystem.Json.Reader

/-!
Reading numbers. The significand takes in digits as long as it stays below 2 to the 64; whole digits that
do not fit count as powers of ten, further decimals count for nothing. The significand is then multiplied
or divided by a power of ten in floating point, so that a number with many digits may miss the nearest
float by a little. A number that has neither point nor exponent nor too many digits stays an integer.
-/

namespace LSystem.Json

inductive Number where
  | integer (value : Int)
  | float (value : Float)
  deriving DecidableEq

namespace Number

/-- The largest significand. -/
def maxSignificand : Nat := 18446744073709551615

def digitValue (c : Char) : Nat := c.toNat - '0'.toNat

def powerOfTen (exponent : Nat) : Float := Float.ofScientific 1 false exponent

/-- The largest exponent with a power of ten among the floats. -/
def maxPower : Nat := 308

/-- Where the exponents in a text stop to grow: far beyond what the digits of a text can make up for. -/
def maxMagnitude : Nat := Nat.pow 2 31

/-- Divides by a power of ten, by the largest one that there is as often as it takes. -/
def divide (x : Float) (exponent : Nat) : Float :=
  if exponent ≤ maxPower then x / powerOfTen exponent
  else if x == 0 then x
  else divide (x / powerOfTen maxPower) (exponent - maxPower)
  termination_by exponent
  decreasing_by simp only [maxPower] at *; omega

/-- `significand * 10 ^ exponent`, unless it is too large for a float. -/
def scaled? (significand : Nat) (exponent : Int) : Option Float :=
  let x := significand.toUInt64.toFloat
  if exponent < 0 then some (divide x exponent.natAbs)
  else if exponent ≤ maxPower then
    let y := x * powerOfTen exponent.toNat
    if y.isInf then none else some y
  else if x == 0 then some x
  else none

def signed (negative : Bool) (x : Float) : Float := if negative then -x else x

/-- Zero has no negative integer and integers end at the 64-bit ones; beyond them a whole number is a
float. -/
def ofWhole (negative : Bool) (significand : Nat) : Number :=
  if !negative then .integer significand
  else if 1 ≤ significand ∧ significand ≤ Nat.pow 2 63 then .integer (-significand)
  else .float (-significand.toUInt64.toFloat)

end Number

namespace Reader

open Number

def onDigits (text : List Char) (significand count : Nat) : (Nat × Nat) × List Char :=
  match text with
  | [] => ((significand, count), [])
  | c :: rest =>
    let larger := significand * 10 + digitValue c
    if c.isDigit && larger ≤ maxSignificand then onDigits rest larger (count + 1)
    else ((significand, count), c :: rest)

private theorem onDigits_suffix (text : List Char) (significand count : Nat) :
    (onDigits text significand count).2 <:+ text := by
  induction text generalizing significand count with
  | nil => exact List.suffix_rfl
  | cons c rest ih =>
    unfold onDigits
    simp only
    split
    · exact (ih _ _).trans (List.suffix_cons c rest)
    · exact List.suffix_rfl

/-- The significand with as many digits taken in as fit, and their number. -/
def digitsOnto (significand : Nat) : Reader (Nat × Nat) where
  read text := .ok (onDigits text significand 0)
  suffix {text value rest} h := by
    have hrest : (onDigits text significand 0).2 = rest := by rw [Except.ok.inj h]
    exact hrest ▸ onDigits_suffix text significand 0

/-- The digits that come next. -/
def digits : Reader (List Char) where
  read text := .ok (text.takeWhile Char.isDigit, text.dropWhile Char.isDigit)
  suffix h := by
    obtain ⟨-, rfl⟩ := Prod.mk.inj (Except.ok.inj h)
    exact List.dropWhile_suffix _

/-- A digit has to come next; it stays where it is. -/
def expectDigit : Reader Unit := do
  match ← peek with
  | none => fail .endOfText
  | some c => if c.isDigit then return () else fail .malformed

/-- The whole part: its significand, and the number of digits that it had no room for. A zero stands
alone. -/
def whole : Reader (Nat × Nat) := do
  expectDigit
  if (← peek) == some '0' then
    skip
    if (← digits).isEmpty then return (0, 0) else fail .malformed
  else
    let (significand, _) ← digitsOnto 0
    return (significand, (← digits).length)

/-- The decimals behind a point: the significand with those that fit, and their number. -/
def decimals (significand : Nat) : Reader (Nat × Nat) := do
  expectDigit
  let taken ← digitsOnto significand
  let _ ← digits
  return taken

/-- The exponent behind its letter. -/
def exponent : Reader Int := do
  let sign ← peek
  if sign == some '+' || sign == some '-' then skip
  expectDigit
  let magnitude := (← digits).foldl (fun n c => min (n * 10 + digitValue c) maxMagnitude) 0
  return if sign == some '-' then -magnitude else magnitude

/-- An exponent if there is one, else zero. -/
def optionalExponent : Reader Int := do
  let letter ← peek
  if letter == some 'e' || letter == some 'E' then
    skip
    exponent
  else return 0

def float (negative : Bool) (significand : Nat) (exponent : Int) : Reader Number :=
  match scaled? significand exponent with
  | some x => return .float (signed negative x)
  | none => fail .malformed

def number : Reader Number := do
  let negative := (← peek) == some '-'
  if negative then skip
  let (significand, dropped) ← whole
  match ← peek with
  | some '.' =>
    skip
    let (significand, places) ← decimals significand
    float negative significand (dropped - places + (← optionalExponent))
  | some 'e' | some 'E' => float negative significand (dropped + (← optionalExponent))
  | _ => if dropped = 0 then return ofWhole negative significand else float negative significand dropped

end Reader

end LSystem.Json
