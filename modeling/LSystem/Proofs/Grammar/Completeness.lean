import LSystem.Proofs.Grammar.Settling

/-! An adapted rulebook has a rule for everything that can come up. Liveness is counted one step deep, over rules that
may then go themselves; but whatever the kept rules put in, in any generation, stems from the start word or from a rule
that was active from the beginning, so it was live when the rules were chosen. -/

namespace LSystem.Rulebook

variable {book : Rulebook} {start : Word} {symbol : Char}

/-- What grows with the adapted book was live in the book before. -/
theorem live_of_mem_generation_adapt {n : Nat} (hmem : symbol ∈ (book.adapt start).generation n start)
    (hplain : Symbol.isPlain symbol = true) : (book.live start).contains symbol = true :=
  live_of_live_adapt (covers_generation (book.adapt start) start n symbol hmem hplain)

/-- A live symbol keeps its rule, or gets one that does nothing if it has none. -/
theorem exists_rule_adapt_of_live (hlive : (book.live start).contains symbol = true) :
    ∃ rule, (book.adapt start).get? symbol = some rule ∧
      (book.get? symbol = some rule ∨ book.get? symbol = none ∧ rule = .idle symbol) := by
  rw [get?_adapt_of_live hlive]
  refine ⟨_, rfl, ?_⟩
  cases hrule : book.get? symbol with
  | none => exact Or.inr ⟨rfl, rfl⟩
  | some rule => exact Or.inl rfl

/-- **Adapted rulebooks are complete.** Within the limit the start word grows with the adapted book, and in every
generation every symbol that is neither blank nor a control symbol has a rule in it: the one that it had in the book
before, or, if it had none, one that is switched off, neither draws nor is mandatory and stands for the symbol
itself. -/
theorem adapt_complete (book : Rulebook) (start : Word) {limit n : Nat} (hlimit : n ≤ limit) :
    ∃ word, (book.adapt start).grow limit n start = .ok word ∧
      ∀ symbol ∈ word, Text.isBlank symbol = false → symbol ∉ ['+', '-', '[', ']'] →
        ∃ rule, (book.adapt start).get? symbol = some rule ∧
          (book.get? symbol = some rule ∨ book.get? symbol = none ∧
            rule = { successor := [symbol], active := false, draws := false, mandatory := false }) := by
  refine ⟨(book.adapt start).generation n start, grow_eq_ok.2 ⟨hlimit, rfl⟩, ?_⟩
  intro symbol hmem hblank hcontrol
  have hisControl : Symbol.isControl symbol = false := by
    rw [Symbol.isControl, Symbol.controls, List.contains_eq_mem, decide_eq_false hcontrol]
  have hplain : Symbol.isPlain symbol = true := by
    rw [Symbol.isPlain, hblank, hisControl]
    rfl
  exact exists_rule_adapt_of_live (live_of_mem_generation_adapt hmem hplain)

/-- `F` keeps its rule, and `Y`, which first comes up in the second generation, gets one. The rule of `Q`, which would
bring in `Y` too, goes. -/
theorem adapt_complete_of_bush :
    let book := collect [('X', .rewriting ['F', '[', '+', 'A', ']', ' ', 'X']), ('A', .rewriting ['Y', 'Z']),
      ('F', (Rule.rewriting ['F', 'F']).drawing.inactive), ('Q', .rewriting ['Y'])]
    2 ≤ 12 ∧ (∃ word, (book.adapt ['X']).grow 12 2 ['X'] = .ok word ∧
      word = ['F', '[', '+', 'Y', 'Z', ']', ' ', 'F', '[', '+', 'A', ']', ' ', 'X']) ∧
      (∃ rule, (book.adapt ['X']).get? 'F' = some rule ∧ book.get? 'F' = some rule) ∧
      (∃ rule, (book.adapt ['X']).get? 'Y' = some rule ∧ book.get? 'Y' = none ∧
        rule = { successor := ['Y'], active := false, draws := false, mandatory := false }) ∧
      (book.adapt ['X']).get? 'Q' = none := by
  intro book
  have hlimit : 2 ≤ 12 := by decide
  obtain ⟨word, hgrow, hrules⟩ := book.adapt_complete ['X'] hlimit
  have hword : word = ['F', '[', '+', 'Y', 'Z', ']', ' ', 'F', '[', '+', 'A', ']', ' ', 'X'] := by
    rw [← (grow_eq_ok.1 hgrow).2]
    decide +kernel
  have hold : book.get? 'F' ≠ none := by decide +kernel
  have hnew : book.get? 'Y' = none := by decide +kernel
  refine ⟨hlimit, ⟨word, hgrow, hword⟩, ?_, ?_, by decide +kernel⟩
  · obtain ⟨rule, hrule, hkept | ⟨hnone, -⟩⟩ := hrules 'F' (by rw [hword]; decide) (by decide +kernel) (by decide)
    · exact ⟨rule, hrule, hkept⟩
    · exact absurd hnone hold
  · obtain ⟨rule, hrule, hkept | hidle⟩ := hrules 'Y' (by rw [hword]; decide) (by decide +kernel) (by decide)
    · rw [hnew] at hkept
      cases hkept
    · exact ⟨rule, hrule, hidle⟩

end LSystem.Rulebook
