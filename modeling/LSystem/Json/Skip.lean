import LSystem.Json.Chars
import LSystem.Json.Number

/-!
Passing over a value of which nothing is wanted, however deep it is nested: the brackets that are open are
kept in a list. Numbers are held to their grammar only, so that one too large for a float does no harm.
-/

namespace LSystem.Json

inductive Bracket where
  | array
  | object
  deriving DecidableEq

def Bracket.closing : Bracket → Char
  | .array => ']'
  | .object => '\x7d'

namespace Reader

/-- At least one digit; where there is none the text is malformed, even at its end. -/
def skipDigits : Reader Unit := do
  if (← digits).isEmpty then fail .malformed

/-- The whole part of a number of which some digits are taken: a zero alone, or digits. -/
def skipWhole (taken : List Char) : Reader Unit := do
  let all := taken ++ (← digits)
  if all.isEmpty || (all.head? == some '0' && 1 < all.length) then fail .malformed

/-- The rest of a number whose first character, a digit or the sign, has been taken. -/
def skipNumber (first : Char) : Reader Unit := do
  skipWhole (if first = '-' then [] else [first])
  if (← peek) == some '.' then
    skip
    skipDigits
  let letter ← peek
  if letter == some 'e' || letter == some 'E' then
    skip
    let sign ← peek
    if sign == some '+' || sign == some '-' then skip
    skipDigits

/-- What is left of the front of a value whose first character has been taken. The front is a bracket
that the value opens, or a whole scalar. -/
def frontAfter (c : Char) : Reader (Option Bracket) :=
  match c with
  | '[' => return some .array
  | '\x7b' => return some .object
  | 'n' => do literal ['u', 'l', 'l']; return none
  | 't' => do literal ['r', 'u', 'e']; return none
  | 'f' => do literal ['a', 'l', 's', 'e']; return none
  | '"' => do skipChars; return none
  | c => if c = '-' || c.isDigit then do skipNumber c; return none else fail .malformed

def front : Reader (Option Bracket) := take >>= frontAfter

/-- A key with the colon behind it. -/
def skipKey : Reader Unit := do
  punctuation '"'
  skipChars
  punctuation ':'

/-- Inside a bracket, just opened or behind a value: whether it is closed here, or a further value
follows, which is then next. -/
def closes (bracket : Bracket) (fresh : Bool) : Reader Bool := do
  let c ← next
  if c = bracket.closing then
    skip
    return true
  else
    if !fresh then punctuation ','
    if bracket = .object then skipKey
    return false

/-- Passes over the rest of the values that `brackets` opened, the innermost first. -/
def skipRest (brackets : List Bracket) (fresh : Bool) (text : List Char) : Outcome Unit :=
  match brackets with
  | [] => .ok ((), text)
  | bracket :: outer =>
    match h : (closes bracket fresh).read text with
    | .error problem => .error problem
    | .ok (true, rest) =>
      have := ((closes bracket fresh).suffix h).length_le
      skipRest outer false rest
    | .ok (false, rest) =>
      have := ((closes bracket fresh).suffix h).length_le
      match h' : front.read rest with
      | .error problem => .error problem
      | .ok (none, rest') =>
        have := length_lt_of_take h'
        skipRest (bracket :: outer) false rest'
      | .ok (some inner, rest') =>
        have := length_lt_of_take h'
        skipRest (inner :: bracket :: outer) true rest'
  termination_by 2 * text.length + brackets.length

private theorem skipRest_suffix {brackets : List Bracket} {fresh : Bool} {text rest : List Char}
    {value : Unit} (h : skipRest brackets fresh text = .ok (value, rest)) : rest <:+ text := by
  fun_induction skipRest brackets fresh text with
  | case1 => exact (Prod.mk.inj (Except.ok.inj h)).2 ▸ List.suffix_rfl
  | case2 => exact nomatch h
  | case3 fresh text bracket outer tail hcloses hle ih =>
    exact (ih h).trans ((closes bracket fresh).suffix hcloses)
  | case4 => exact nomatch h
  | case5 fresh text bracket outer tail hcloses hle tail' hfront hlt ih =>
    exact ((ih h).trans (front.suffix hfront)).trans ((closes bracket fresh).suffix hcloses)
  | case6 fresh text bracket outer tail hcloses hle inner tail' hfront hlt ih =>
    exact ((ih h).trans (front.suffix hfront)).trans ((closes bracket fresh).suffix hcloses)

/-- Passes over the values that are left in the brackets. -/
def skipInside (brackets : List Bracket) : Reader Unit where
  read := skipRest brackets true
  suffix := skipRest_suffix

/-- Passes over a value. -/
def skipValue : Reader Unit := do
  match ← front with
  | none => return ()
  | some bracket => skipInside [bracket]

end Reader

end LSystem.Json
