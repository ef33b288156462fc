import LSystem.Json.Chars
import LSystem.Json.Writer

/-! The texts of JSON values, by the grammar and without any reader: numbers, strings, and values that stand
inside one another to any depth, with blanks wherever the grammar has room for them. -/

namespace LSystem.Json

/-- The blanks of documents. -/
def isSpace (c : Char) : Bool := c = ' ' || c = '\n' || c = '\t' || c = '\r'

/-- A stretch of blanks. -/
abbrev Gap := { blanks : List Char // ∀ c ∈ blanks, isSpace c = true }

namespace Gap

instance : Coe Gap (List Char) := ⟨Subtype.val⟩

def none : Gap := ⟨[], fun _ h => nomatch h⟩

end Gap

/-! ### Numbers -/

/-- One digit or more. -/
def IsDigits (text : List Char) : Prop := text ≠ [] ∧ ∀ c ∈ text, c.isDigit = true

/-- The digits in front of the point: a zero stands alone. -/
inductive IsWhole : List Char → Prop
  | zero : IsWhole ['0']
  | digits {c : Char} {text : List Char} (hdigit : c.isDigit = true) (hne : c ≠ '0')
      (htext : ∀ c ∈ text, c.isDigit = true) : IsWhole (c :: text)

inductive IsFraction : List Char → Prop
  | none : IsFraction []
  | point {text : List Char} (htext : IsDigits text) : IsFraction ('.' :: text)

inductive IsExponent : List Char → Prop
  | none : IsExponent []
  | letter {c : Char} {sign text : List Char} (hletter : c = 'e' ∨ c = 'E')
      (hsign : sign = [] ∨ sign = ['+'] ∨ sign = ['-']) (htext : IsDigits text) :
      IsExponent (c :: (sign ++ text))

inductive IsNumber : List Char → Prop
  | mk {sign whole fraction exponent : List Char} (hsign : sign = [] ∨ sign = ['-']) (hwhole : IsWhole whole)
      (hfraction : IsFraction fraction) (hexponent : IsExponent exponent) :
      IsNumber (sign ++ (whole ++ (fraction ++ exponent)))

/-! ### Strings -/

/-- A character that stands for itself inside a string. -/
def IsRaw (c : Char) : Prop := c ≠ '"' ∧ c ≠ '\\' ∧ 32 ≤ c.toNat

/-- Four hexadecimal digits for a number. -/
def IsHex (text : List Char) (n : Nat) : Prop := text.length = 4 ∧ Reader.hexNumber? text = some n

/-- What may stand between the quotes of a string, whatever it is there for. -/
inductive IsChars : List Char → Prop
  | nil : IsChars []
  | raw {c : Char} {text : List Char} (hraw : IsRaw c) (htext : IsChars text) : IsChars (c :: text)
  | letter {c : Char} {text : List Char} (hletter : (Reader.shortEscape? c).isSome = true)
      (htext : IsChars text) : IsChars ('\\' :: c :: text)
  | code {hex text : List Char} {n : Nat} (hhex : IsHex hex n) (htext : IsChars text) :
      IsChars ('\\' :: 'u' :: (hex ++ text))

/-- A spelling of a word between quotes: any character may be escaped by its code, as two surrogates if it
lies outside the basic plane. -/
inductive Spells : List Char → List Char → Prop
  | nil : Spells [] []
  | raw {c : Char} {text word : List Char} (hraw : IsRaw c) (htext : Spells text word) :
      Spells (c :: text) (c :: word)
  | letter {c escaped : Char} {text word : List Char} (hletter : Reader.shortEscape? c = some escaped)
      (htext : Spells text word) : Spells ('\\' :: c :: text) (escaped :: word)
  | code {hex text word : List Char} {n : Nat} (hhex : IsHex hex n) (hplain : n < 0xD800 ∨ 0xDFFF < n)
      (htext : Spells text word) : Spells ('\\' :: 'u' :: (hex ++ text)) (Char.ofNat n :: word)
  | pair {high low text word : List Char} {m n : Nat} (hhigh : IsHex high m) (hlow : IsHex low n)
      (hm : 0xD800 ≤ m ∧ m ≤ 0xDBFF) (hn : 0xDC00 ≤ n ∧ n ≤ 0xDFFF) (htext : Spells text word) :
      Spells ('\\' :: 'u' :: (high ++ '\\' :: 'u' :: (low ++ text)))
        (Char.ofNat (0x10000 + (m - 0xD800) * 0x400 + (n - 0xDC00)) :: word)

/-! ### Values -/

inductive Phrase where
  | value
  /-- The values of an array, one or more. -/
  | elements
  /-- The members of an object, one or more. -/
  | members
  deriving DecidableEq

/-- The texts of values and of what stands between brackets. -/
inductive Phrase.Is : Phrase → List Char → Prop
  | null : Is .value nullText
  | boolean (b : Bool) : Is .value (booleanText b)
  | number {text : List Char} (htext : IsNumber text) : Is .value text
  | string {text : List Char} (htext : IsChars text) : Is .value ('"' :: (text ++ ['"']))
  | emptyArray (gap : Gap) : Is .value ('[' :: (gap ++ [']']))
  | array {text : List Char} (htext : Is .elements text) : Is .value ('[' :: (text ++ [']']))
  | emptyObject (gap : Gap) : Is .value ('\x7b' :: (gap ++ ['\x7d']))
  | object {text : List Char} (htext : Is .members text) : Is .value ('\x7b' :: (text ++ ['\x7d']))
  | element (before after : Gap) {text : List Char} (htext : Is .value text) :
      Is .elements (before ++ (text ++ after))
  | elements (before after : Gap) {text more : List Char} (htext : Is .value text)
      (hmore : Is .elements more) : Is .elements (before ++ (text ++ (after ++ ',' :: more)))
  | member (before behind inside after : Gap) {key text : List Char} (hkey : IsChars key)
      (htext : Is .value text) :
      Is .members (before ++ '"' :: (key ++ '"' :: (behind ++ ':' :: (inside ++ (text ++ after)))))
  | members (before behind inside after : Gap) {key text more : List Char} (hkey : IsChars key)
      (htext : Is .value text) (hmore : Is .members more) :
      Is .members
        (before ++ '"' :: (key ++ '"' :: (behind ++ ':' :: (inside ++ (text ++ (after ++ ',' :: more))))))

end LSystem.Json
