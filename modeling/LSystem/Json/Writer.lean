import LSystem.Decimal.Layout

/-!
Writing documents: no blanks, members in the order in which they are given. A number is written with the
fewest digits that read back, positionally from 0.00001 up to below 10 to the 16 and with an exponent
outside; what is no number is written `null`.

A value is written in front of the text that follows it, so that a long document is put together from its
end and no part of it is copied. What follows is not looked at.
-/

namespace LSystem.Json

def positiveNumber (digits : List Char) (place : Int) : List Char :=
  if -5 < place ∧ place ≤ 16 then Decimal.positional digits place ['.', '0']
  else
    let exponent := place - 1
    let sign := if exponent < 0 then '-' else '+'
    let fraction := if digits.length ≤ 1 then [] else '.' :: digits.drop 1
    digits.take 1 ++ fraction ++ 'e' :: sign :: Decimal.digitsText exponent.natAbs

/-- Numbers in documents always have a point or an exponent, and the exponent has a sign; a tie goes to
the even digit. -/
def numberLayout : Decimal.Layout where
  tie := .toEven
  zero := ['0', '.', '0']
  positive := positiveNumber

def nullText : List Char := ['n', 'u', 'l', 'l']

def booleanText : Bool → List Char
  | true => ['t', 'r', 'u', 'e']
  | false => ['f', 'a', 'l', 's', 'e']

def floatText (x : Float) : List Char :=
  if x.isFinite then numberLayout.finite x else nullText

def naturalText (n : Nat) : List Char := Decimal.digitsText n

/-- Two lower-case hexadecimal digits. -/
def hexPair (n : Nat) : List Char := [Nat.digitChar (n / 16), Nat.digitChar (n % 16)]

/-- A character inside a string. Quotes, backslashes and the controls below the space are escaped. -/
def stringChar (c : Char) : List Char :=
  match c with
  | '"' => ['\\', '"']
  | '\\' => ['\\', '\\']
  | '\x08' => ['\\', 'b']
  | '\x0c' => ['\\', 'f']
  | '\n' => ['\\', 'n']
  | '\r' => ['\\', 'r']
  | '\t' => ['\\', 't']
  | c => if c.toNat < 32 then ['\\', 'u', '0', '0'] ++ hexPair c.toNat else [c]

/-- Puts the text of a value in front of the text that follows. -/
abbrev Writer (β : Type) := β → List Char → List Char

namespace Writer

variable {β : Type}

def ofText (text : β → List Char) : Writer β := fun value rest => text value ++ rest

def string : Writer (List Char) := fun text rest =>
  '"' :: text.foldr (fun c rest => stringChar c ++ rest) ('"' :: rest)

/-- The values with commas between them. -/
def commas (element : Writer β) : Writer (List β)
  | [], rest => rest
  | first :: others, rest =>
    element first (others.foldr (fun value rest => ',' :: element value rest) rest)

def array (element : Writer β) : Writer (List β) := fun values rest =>
  '[' :: commas element values (']' :: rest)

/-- A member by its key and what writes its value. -/
def member : Writer (List Char × (List Char → List Char)) := fun (key, value) rest =>
  string key (':' :: value rest)

def object : Writer (List (List Char × (List Char → List Char))) := fun members rest =>
  '\x7b' :: commas member members ('\x7d' :: rest)

end Writer

end LSystem.Json
