import LSystem.Grammar.Rulebook

/-!
Growth of words. In one step every symbol is replaced at the same time: one with an active rule by the
rule's successor, any other by itself. What a step has put in waits for the next step. A word that a step
leaves as it is stays so for ever; its generations are not counted out (`generation_succ`).
-/

namespace LSystem

/-- More generations were asked for than are allowed. -/
structure OverLimit where
  requested : Nat
  limit : Nat
  deriving DecidableEq

namespace Rulebook

/-- What one step puts in the place of a symbol. -/
def image (book : Rulebook) (symbol : Char) : Word :=
  match book.get? symbol with
  | some rule => if rule.active then rule.successor else [symbol]
  | none => [symbol]

def step (book : Rulebook) (word : Word) : Word := word.flatMap book.image

/-- The word after `n` steps. -/
def generation (book : Rulebook) : Nat → Word → Word
  | 0, word => word
  | n + 1, word =>
    let next := book.step word
    if next == word then word else book.generation n next

@[simp] theorem generation_zero (book : Rulebook) (word : Word) : book.generation 0 word = word := rfl

theorem generation_of_step_eq {book : Rulebook} {word : Word} (h : book.step word = word) (n : Nat) :
    book.generation n word = word := by
  cases n with
  | zero => rfl
  | succ n => simp [generation, h]

theorem generation_succ (book : Rulebook) (n : Nat) (word : Word) :
    book.generation (n + 1) word = book.generation n (book.step word) := by
  by_cases h : book.step word = word
  · rw [h, generation_of_step_eq h, generation_of_step_eq h]
  · simp [generation, h]

/-- Generation `n` of a word, if `limit` allows it. -/
def grow (book : Rulebook) (limit n : Nat) (word : Word) : Except OverLimit Word :=
  if limit < n then .error ⟨n, limit⟩ else .ok (book.generation n word)

end Rulebook

end LSystem
