import LSystem.Proofs.Grammar.Settling

/-! Adapting a rulebook twice to one start word. The first time every active rule counts, also one that is dropped at
that same time; the second time only those count that were kept. So the second time nothing is added and nothing is
changed, but a symbol goes if only dropped rules called for it. -/

namespace LSystem.Rulebook

variable {book : Rulebook} {start : Word} {symbol : Char} {rule : Rule}

/-- The start word has the symbol, or an active rule that is kept when the book is adapted brings it in. -/
def Sustains (book : Rulebook) (start : Word) (symbol : Char) : Prop :=
  symbol ∈ start ∨ ∃ key rule, book.get? key = some rule ∧ rule.active = true ∧
    (rule.mandatory = true ∨ (book.live start).contains key = true) ∧ symbol ∈ rule.successor

/-- The active rules of the adapted book are those of the book that are kept. -/
theorem mem_actives_adapt :
    (symbol, rule) ∈ (book.adapt start).actives ↔
      book.get? symbol = some rule ∧ rule.active = true ∧
        (rule.mandatory = true ∨ (book.live start).contains symbol = true) := by
  rw [mem_actives, get?_adapt]
  split_ifs with hlive
  · cases hrule : book.get? symbol with
    | none =>
        constructor
        · rintro ⟨hadded, hactive⟩
          obtain rfl := Option.some.inj hadded
          cases hactive
        · rintro ⟨hnone, -⟩
          cases hnone
    | some kept => simp [hlive]
  · rw [Option.filter_eq_some_iff]
    simp only [hlive]
    tauto

theorem contains_live_adapt :
    ((book.adapt start).live start).contains symbol = true ↔
      Symbol.isPlain symbol = true ∧ book.Sustains start symbol := by
  rw [contains_live, Sustains]
  refine and_congr_right fun _ => or_congr_right ?_
  constructor
  · rintro ⟨key, rule, hrule, hactive, hmem⟩
    obtain ⟨hbook, -, hkept⟩ := mem_actives_adapt.1 (mem_actives.2 ⟨hrule, hactive⟩)
    exact ⟨key, rule, hbook, hactive, hkept, hmem⟩
  · rintro ⟨key, rule, hbook, hactive, hkept, hmem⟩
    obtain ⟨hrule, -⟩ := mem_actives.1 (mem_actives_adapt.2 ⟨hbook, hactive, hkept⟩)
    exact ⟨key, rule, hrule, hactive, hmem⟩

/-- The second time a rule stays if it is mandatory or its symbol is still called for. -/
theorem get?_adapt_adapt :
    ((book.adapt start).adapt start).get? symbol = some rule ↔
      (book.adapt start).get? symbol = some rule ∧ (rule.mandatory = true ∨ book.Sustains start symbol) := by
  have hadapted := adapted_adapt book start
  rw [hadapted.get?_adapt_eq_some, contains_live_adapt]
  refine and_congr_right fun hrule => ?_
  constructor
  · exact Or.imp_right And.right
  · rintro (hmandatory | hsustains)
    · exact Or.inl hmandatory
    · cases hplain : Symbol.isPlain symbol with
      | true => exact Or.inr ⟨rfl, hsustains⟩
      | false => exact Or.inl (hadapted.mandatory symbol rule hplain hrule)

/-- **Adapting twice.** The second time a book is adapted to a start word it gains nothing and no rule is changed. It
loses the rules that are neither mandatory nor for a symbol of the start word or of an active rule that was kept. So
it stays the same if and only if every symbol that was live is still called for or has a mandatory rule. -/
theorem adapt_twice (book : Rulebook) (start : Word) :
    (∀ symbol rule, ((book.adapt start).adapt start).get? symbol = some rule ↔
      (book.adapt start).get? symbol = some rule ∧ (rule.mandatory = true ∨ book.Sustains start symbol)) ∧
    ((book.adapt start).adapt start = book.adapt start ↔
      ∀ symbol, (book.live start).contains symbol = true →
        book.Sustains start symbol ∨ ∃ rule, book.get? symbol = some rule ∧ rule.mandatory = true) := by
  refine ⟨fun symbol rule => get?_adapt_adapt, ?_, ?_⟩
  · intro heq symbol hlive
    have hrule := get?_adapt_of_live hlive
    have hkept := hrule
    rw [← heq, get?_adapt_adapt] at hkept
    refine hkept.2.symm.imp_right fun hmandatory => ?_
    cases hbook : book.get? symbol with
    | none =>
        rw [hbook] at hmandatory
        cases hmandatory
    | some rule =>
        rw [hbook] at hmandatory
        exact ⟨rule, rfl, hmandatory⟩
  · intro hcalled
    apply ext_get?
    intro symbol
    ext rule
    rw [get?_adapt_adapt, and_iff_left_of_imp]
    intro hrule
    by_cases hlive : (book.live start).contains symbol = true
    · rw [get?_adapt_of_live hlive] at hrule
      refine (hcalled symbol hlive).symm.imp_left ?_
      rintro ⟨kept, hkept, hmandatory⟩
      rw [hkept] at hrule
      exact Option.some.inj hrule ▸ hmandatory
    · rw [get?_adapt, if_neg hlive] at hrule
      exact Or.inl (Option.filter_eq_some_iff.1 hrule).2

/-- A rule that nothing calls for goes the first time and the symbol that it brought in goes the second time. -/
theorem adapt_twice_of_hanging_symbol :
    let book := collect [('X', .rewriting ['Y'])]
    (book.adapt ['F']).adapt ['F'] ≠ book.adapt ['F'] := by
  decide +kernel

end LSystem.Rulebook
