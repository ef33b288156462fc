import LSystem.Json.Problem

/-!
Readers take a value off the front of a text, or say what is wrong with it there; so what is decided is
always the first problem in the order of the text. What a reader leaves is a suffix of what it was given,
and this law travels with it: it is what the loops over elements and members end by.
-/

namespace LSystem.Json

abbrev Outcome (β : Type) := Except Problem (β × List Char)

structure Reader (β : Type) where
  read : List Char → Outcome β
  suffix : ∀ {text value rest}, read text = .ok (value, rest) → rest <:+ text

namespace Reader

variable {β γ : Type}

@[inline] def pure (value : β) : Reader β where
  read text := .ok (value, text)
  suffix h := by
    obtain ⟨-, rfl⟩ := Prod.mk.inj (Except.ok.inj h)
    exact List.suffix_rfl

@[inline] def fail (problem : Problem) : Reader β where
  read _ := .error problem
  suffix h := nomatch h

@[inline] def bind (reader : Reader β) (next : β → Reader γ) : Reader γ where
  read text :=
    match reader.read text with
    | .ok (value, rest) => (next value).read rest
    | .error problem => .error problem
  suffix {text value rest} h := by
    split at h
    · exact ((next _).suffix h).trans (reader.suffix ‹_›)
    · exact nomatch h

@[inline] instance : Monad Reader where
  pure := pure
  bind := bind

@[simp] theorem read_pure (value : β) (text : List Char) :
    (Pure.pure value : Reader β).read text = .ok (value, text) := rfl

theorem read_bind (reader : Reader β) (next : β → Reader γ) (text : List Char) :
    (reader >>= next).read text =
      match reader.read text with
      | .ok (value, rest) => (next value).read rest
      | .error problem => .error problem := rfl

/-- The text without the blanks in front. -/
def skipBlanks : List Char → List Char :=
  List.dropWhile fun c => c = ' ' || c = '\n' || c = '\t' || c = '\r'

@[inline] def blanks : Reader Unit where
  read text := .ok ((), skipBlanks text)
  suffix h := by
    obtain ⟨-, rfl⟩ := Prod.mk.inj (Except.ok.inj h)
    exact List.dropWhile_suffix _

/-- Drops one character. -/
@[inline] def skip : Reader Unit where
  read text := .ok ((), text.tail)
  suffix h := by
    obtain ⟨-, rfl⟩ := Prod.mk.inj (Except.ok.inj h)
    exact List.tail_suffix _

/-- The next character, which stays where it is. -/
@[inline] def peek : Reader (Option Char) where
  read text := .ok (text.head?, text)
  suffix h := by
    obtain ⟨-, rfl⟩ := Prod.mk.inj (Except.ok.inj h)
    exact List.suffix_rfl

/-- The next character behind the blanks, which stays where it is; the text must not end there. -/
@[inline] def next : Reader Char := do
  blanks
  match ← peek with
  | some c => return c
  | none => fail .endOfText

/-- The next character behind the blanks, which is taken. -/
@[inline] def take : Reader Char := do
  let c ← next
  skip
  return c

/-- Whoever takes a character first leaves less than there was. -/
theorem length_lt_of_take {after : Char → Reader β} {text rest : List Char} {value : β}
    (h : (take >>= after).read text = .ok (value, rest)) : rest.length < text.length := by
  have hle : (skipBlanks text).length ≤ text.length := (List.dropWhile_suffix _).length_le
  simp only [take, next, read_bind, blanks, peek, skip] at h
  cases hskip : skipBlanks text with
  | nil => simp [hskip, fail] at h
  | cons c tail =>
    simp only [hskip, List.head?_cons, read_pure, List.tail_cons] at h
    have := ((after c).suffix h).length_le
    rw [hskip, List.length_cons] at hle
    omega

/-- The given character has to come next behind the blanks. -/
def punctuation (c : Char) : Reader Unit := do
  if (← take) = c then return () else fail .malformed

/-- The rest of a literal whose first letter has been seen. -/
def literal : List Char → Reader Unit
  | [] => return ()
  | c :: letters => do
    match ← peek with
    | none => fail .endOfText
    | some found => if found = c then do skip; literal letters else fail .malformed

/-- A whole document: the value, and nothing but blanks after it. -/
def document (reader : Reader β) (text : List Char) : Except Problem β :=
  match reader.read text with
  | .ok (value, rest) => if (skipBlanks rest).isEmpty then .ok value else .error .malformed
  | .error problem => .error problem

end Reader

end LSystem.Json
