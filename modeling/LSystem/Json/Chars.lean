import LSystem.Json.Reader

/-!
Reading the characters of strings, from behind the opening quote to behind the closing one. A character
outside the basic plane may be escaped as a pair of surrogates, and a surrogate never stands alone.
-/

namespace LSystem.Json.Reader

def hexValue? (c : Char) : Option Nat :=
  if c.isDigit then some (c.toNat - '0'.toNat)
  else if 'a' ≤ c ∧ c ≤ 'f' then some (c.toNat - 'a'.toNat + 10)
  else if 'A' ≤ c ∧ c ≤ 'F' then some (c.toNat - 'A'.toNat + 10)
  else none

def hexNumber? (text : List Char) : Option Nat :=
  text.foldl (fun n? c => do return (← n?) * 16 + (← hexValue? c)) (some 0)

/-- Four hexadecimal digits. A text of fewer than four bytes ends too early, whatever it holds. -/
def hexFour : Reader Nat where
  read
    | a :: b :: c :: d :: rest =>
      match hexNumber? [a, b, c, d] with
      | some n => .ok (n, rest)
      | none => .error .malformed
    | short => .error (if short.foldl (fun n c => n + c.utf8Size) 0 < 4 then .endOfText else .malformed)
  suffix {text value rest} h := by
    split at h
    · split at h
      · obtain ⟨-, rfl⟩ := Prod.mk.inj (Except.ok.inj h)
        exact ⟨[_, _, _, _], rfl⟩
      · exact nomatch h
    · exact nomatch h

/-- The given character has to come next. -/
def expect (c : Char) : Reader Unit := do
  match ← peek with
  | none => fail .endOfText
  | some found => if found = c then skip else fail .malformed

/-- What follows the first half of a surrogate pair, and the character of both. -/
def secondHalf (first : Nat) : Reader Char := do
  expect '\\'
  expect 'u'
  let second ← hexFour
  if 0xDC00 ≤ second ∧ second ≤ 0xDFFF then
    return Char.ofNat (0x10000 + (first - 0xD800) * 0x400 + (second - 0xDC00))
  else fail .malformed

/-- The character with the code behind `\u`. -/
def codePoint : Reader Char := do
  let n ← hexFour
  if 0xDC00 ≤ n ∧ n ≤ 0xDFFF then fail .malformed
  else if 0xD800 ≤ n ∧ n ≤ 0xDBFF then secondHalf n
  else return Char.ofNat n

/-- The character that an escape of one letter stands for. -/
def shortEscape? : Char → Option Char
  | '"' => some '"'
  | '\\' => some '\\'
  | '/' => some '/'
  | 'b' => some '\x08'
  | 'f' => some '\x0c'
  | 'n' => some '\n'
  | 'r' => some '\r'
  | 't' => some '\t'
  | _ => none

/-- The character of an escape, from behind the backslash. -/
def escape : Reader Char := do
  match ← peek with
  | none => fail .endOfText
  | some c =>
    skip
    if c = 'u' then codePoint
    else
      match shortEscape? c with
      | some escaped => return escaped
      | none => fail .malformed

/-- The characters up to the closing quote, with what `onEscape` makes of each backslash, behind those
seen already, which come in reverse. -/
def charsOnto (onEscape : Reader Char) (seen : List Char) (text : List Char) : Outcome (List Char) :=
  match text with
  | [] => .error .endOfText
  | c :: rest =>
    if c = '"' then .ok (seen.reverse, rest)
    else if c = '\\' then
      match h : onEscape.read rest with
      | .error problem => .error problem
      | .ok (escaped, rest') =>
        have := (onEscape.suffix h).length_le
        charsOnto onEscape (escaped :: seen) rest'
    else if c.toNat < 32 then .error .malformed
    else charsOnto onEscape (c :: seen) rest
  termination_by text.length

private theorem charsOnto_suffix {onEscape : Reader Char} {seen text value rest : List Char}
    (h : charsOnto onEscape seen text = .ok (value, rest)) : rest <:+ text := by
  fun_induction charsOnto onEscape seen text with
  | case1 => exact nomatch h
  | case2 =>
    obtain ⟨-, rfl⟩ := Prod.mk.inj (Except.ok.inj h)
    exact List.suffix_cons _ _
  | case3 => exact nomatch h
  | case4 seen tail escaped rest' hread hle _ ih =>
    exact ((ih h).trans (onEscape.suffix hread)).trans (List.suffix_cons _ _)
  | case5 => exact nomatch h
  | case6 seen c tail _ _ _ ih => exact (ih h).trans (List.suffix_cons _ _)

/-- The characters of a string whose opening quote has been taken. -/
def chars : Reader (List Char) where
  read := charsOnto escape []
  suffix := charsOnto_suffix

/-- An escape that is only passed over: its form counts, not what it stands for. -/
def skipEscape : Reader Char := do
  match ← peek with
  | none => fail .endOfText
  | some c =>
    skip
    if c = 'u' then
      let _ ← hexFour
      return c
    else if (shortEscape? c).isSome then return c
    else fail .malformed

/-- Passes over a string whose opening quote has been taken. -/
def skipChars : Reader Unit where
  read text := (charsOnto skipEscape [] text).map fun (_, rest) => ((), rest)
  suffix {text value rest} h := by
    cases hread : charsOnto skipEscape [] text with
    | error => simp [hread, Except.map] at h
    | ok result =>
      have hrest : result.2 = rest := by simpa [hread, Except.map] using h
      exact hrest ▸ charsOnto_suffix hread

end LSystem.Json.Reader
