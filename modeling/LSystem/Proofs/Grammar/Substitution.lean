import LSystem.Proofs.Grammar.Rulebook

/-! Growth as a substitution. What a symbol becomes after a number of steps depends on nothing but the symbol: it is
the same wherever the symbol stands, and whatever stands beside it. A grown word is put together from the offspring of
its symbols, so that words grow part by part, and a word that has grown can go on growing from where it is. -/

namespace LSystem.Rulebook

variable (book : Rulebook)

/-- What a symbol becomes after `n` steps: each symbol of its image has `n - 1` steps to go. -/
def offspring (book : Rulebook) : Nat → Char → Word
  | 0, symbol => [symbol]
  | n + 1, symbol => (book.image symbol).flatMap (book.offspring n)

/-- A grown word is the offspring of its symbols, in the order of the symbols. -/
theorem generation_eq_flatMap (n : Nat) (word : Word) :
    book.generation n word = word.flatMap (book.offspring n) := by
  induction n generalizing word with
  | zero => exact (List.flatMap_singleton' word).symm
  | succ n ih =>
      calc book.generation (n + 1) word
          = book.generation n (word.flatMap book.image) := book.generation_succ n word
        _ = (word.flatMap book.image).flatMap (book.offspring n) := ih _
        _ = word.flatMap (book.offspring (n + 1)) := List.flatMap_assoc

theorem generation_append (n : Nat) (front back : Word) :
    book.generation n (front ++ back) = book.generation n front ++ book.generation n back := by
  rw [generation_eq_flatMap, generation_eq_flatMap, generation_eq_flatMap, List.flatMap_append]

/-- Growth can be stopped at any generation and taken up again. -/
theorem generation_add (n m : Nat) (word : Word) :
    book.generation (n + m) word = book.generation m (book.generation n word) := by
  induction n generalizing word with
  | zero => rw [Nat.zero_add, generation_zero]
  | succ n ih => rw [Nat.succ_add, generation_succ, ih, generation_succ]

/-- **Growth is a substitution, and substitutions compose.** Within the limit a word grows into the offspring of its
symbols. Two words grow side by side as they grow apart, and after `n` generations a word grows for `m` more into what
it grows into in `n + m`. -/
theorem grow_substitutes {limit n m : Nat} (hlimit : n + m ≤ limit) (front back : Word) :
    ∃ word rest last, book.grow limit n front = .ok word ∧ book.grow limit n back = .ok rest ∧
      book.grow limit n (front ++ back) = .ok (word ++ rest) ∧ word = front.flatMap (book.offspring n) ∧
      book.grow limit m word = .ok last ∧ book.grow limit (n + m) front = .ok last := by
  have hn : n ≤ limit := by omega
  have hm : m ≤ limit := by omega
  refine ⟨book.generation n front, book.generation n back, book.generation (n + m) front, grow_eq_ok.2 ⟨hn, rfl⟩,
    grow_eq_ok.2 ⟨hn, rfl⟩, grow_eq_ok.2 ⟨hn, ?_⟩, ?_, grow_eq_ok.2 ⟨hm, ?_⟩, grow_eq_ok.2 ⟨hlimit, rfl⟩⟩
  · exact book.generation_append n front back
  · exact book.generation_eq_flatMap n front
  · exact (book.generation_add n m front).symm

/-- A rule that grows with branches, one that is switched off, and one that takes its symbol away. -/
theorem grow_substitutes_of_twig :
    let book := Rulebook.collect [('X', .rewriting ['F', '[', 'X', ']', 'Y']), ('Y', .rewriting []),
      ('F', (Rule.rewriting ['F', 'F']).inactive)]
    1 + 2 ≤ 12 ∧ ∃ word rest last, book.grow 12 1 ['X', 'Y'] = .ok word ∧ book.grow 12 1 ['X'] = .ok rest ∧
      book.grow 12 1 (['X', 'Y'] ++ ['X']) = .ok (word ++ rest) ∧
      word = ['X', 'Y'].flatMap (book.offspring 1) ∧ word = ['F', '[', 'X', ']', 'Y'] ∧
      book.grow 12 2 word = .ok last ∧ book.grow 12 (1 + 2) ['X', 'Y'] = .ok last := by
  intro book
  have hlimit : 1 + 2 ≤ 12 := by decide
  obtain ⟨word, rest, last, hword, hrest, hboth, hoffspring, hlast, hsum⟩ :=
    book.grow_substitutes hlimit ['X', 'Y'] ['X']
  have hshown : word = ['F', '[', 'X', ']', 'Y'] := by
    rw [hoffspring]
    decide +kernel
  exact ⟨hlimit, word, rest, last, hword, hrest, hboth, hoffspring, hshown, hlast, hsum⟩

end LSystem.Rulebook
