import LSystem.Json.Chars
import LSystem.Json.Number

/-!
Reading single values of a wanted kind. A value of another kind is read far enough to say what it is: a
scalar to its end, of an array or an object only the bracket.
-/

namespace LSystem.Json

namespace Number

def found : Number → Found
  | .integer value => .integer value
  | .float value => .float value

def toFloat : Number → Float
  | .integer value => signed (value < 0) value.natAbs.toUInt64.toFloat
  | .float value => value

end Number

namespace Reader

variable {β : Type}

def mismatch (what : Mismatch) : Reader β := fail (.mismatch what)

/-- Says what the value is that comes next in the place of an expected one. -/
def unexpected (expected : String) : Reader β := do
  let wrong (found : Found) : Reader β := mismatch (.wrongType found expected)
  let c ← next
  if c = 'n' then
    skip
    literal ['u', 'l', 'l']
    wrong .null
  else if c = 't' then
    skip
    literal ['r', 'u', 'e']
    wrong (.boolean true)
  else if c = 'f' then
    skip
    literal ['a', 'l', 's', 'e']
    wrong (.boolean false)
  else if c = '-' || c.isDigit then wrong (← number).found
  else if c = '"' then
    skip
    wrong (.text (← chars))
  else if c = '[' then wrong .sequence
  else if c = '\x7b' then wrong .map
  else fail .malformed

def boolean : Reader Bool := do
  let c ← next
  if c = 't' then
    skip
    literal ['r', 'u', 'e']
    return true
  else if c = 'f' then
    skip
    literal ['a', 'l', 's', 'e']
    return false
  else unexpected "a boolean"

/-- A number of any kind, where one of the expected kind is wanted. -/
def numberOr (expected : String) : Reader Number := do
  let c ← next
  if c = '-' || c.isDigit then number else unexpected expected

/-- A whole number from 0 to `max`. -/
def natural (max : Nat) (expected : String) : Reader Nat := do
  match ← numberOr expected with
  | .integer value =>
    if 0 ≤ value ∧ value ≤ max then return value.toNat
    else mismatch (.wrongValue (.integer value) expected)
  | .float value => mismatch (.wrongType (.float value) expected)

def real : Reader Float := do
  return (← numberOr "f64").toFloat

def string (expected : String) : Reader (List Char) := do
  let c ← next
  if c = '"' then
    skip
    chars
  else unexpected expected

def singleton (text : List Char) : Reader Char :=
  match text with
  | [c] => return c
  | text => mismatch (.wrongValue (.text text) "a character")

/-- A string of one character. -/
def character : Reader Char := do
  singleton (← string "a character")

end Reader

end LSystem.Json
