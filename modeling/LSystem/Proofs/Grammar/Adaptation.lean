import LSystem.Grammar.Adaptation
import LSystem.Proofs.Grammar.Rulebook
import Mathlib.Data.List.Basic

/-! Adapting a rulebook to a start word does not change what grows from that word. The plain symbols of
every generation are live (`covers_generation`): a step puts in nothing but successors of active rules.
On live symbols the two books agree; the rules that were dropped are for symbols that never come, and
those that were added rewrite a symbol to itself. Blanks are plain nowhere and thus never live, so that a
rule for a blank is kept only if it is mandatory. -/

namespace LSystem.Rulebook

variable {book : Rulebook} {start word : Word} {symbol : Char}

/-- A rule for a blank has no effect unless it is mandatory. -/
def BlanksIdle (book : Rulebook) : Prop :=
  ∀ symbol rule, book.get? symbol = some rule → Text.isBlank symbol = true → rule.mandatory = false →
    rule.active = false ∧ rule.draws = false

theorem blanksIdle_iff {book : Rulebook} :
    book.BlanksIdle ↔ ∀ entry ∈ book.toList, Text.isBlank entry.1 = true → entry.2.mandatory = false →
      entry.2.active = false ∧ entry.2.draws = false := by
  simp only [BlanksIdle, Prod.forall, mem_toList_iff]

instance (book : Rulebook) : Decidable book.BlanksIdle := decidable_of_iff _ blanksIdle_iff.symm

/-- The plain symbols of a word are live. -/
def Covers (book : Rulebook) (start word : Word) : Prop :=
  ∀ symbol ∈ word, Symbol.isPlain symbol = true → (book.live start).contains symbol = true

theorem covers_start (book : Rulebook) (start : Word) : book.Covers start start := by
  intro symbol hmem hplain
  exact contains_live.2 ⟨hplain, Or.inl hmem⟩

theorem live_image (book : Rulebook) (start : Word) (symbol : Char)
    (hsymbol : Symbol.isPlain symbol = true → (book.live start).contains symbol = true) (other : Char)
    (hother : other ∈ book.image symbol) (hplain : Symbol.isPlain other = true) :
    (book.live start).contains other = true := by
  rcases mem_image hother with rfl | ⟨rule, hrule, hactive, hsuccessor⟩
  · exact hsymbol hplain
  · exact contains_live.2 ⟨hplain, Or.inr ⟨symbol, rule, hrule, hactive, hsuccessor⟩⟩

theorem covers_step (h : book.Covers start word) : book.Covers start (book.step word) :=
  forall_mem_step (live_image book start) h

/-- **Live symbols.** No generation of the start word has a plain symbol that is not live. -/
theorem covers_generation (book : Rulebook) (start : Word) (n : Nat) :
    book.Covers start (book.generation n start) :=
  forall_mem_generation (live_image book start) (covers_start book start) n

/-! ### Books that agree -/

/-- The other book does with a symbol what the book does, whether the symbol is live or is not plain. No other
symbols come up in what grows from the start word. -/
def Agrees (book : Rulebook) (start : Word) (other : Rulebook) : Prop :=
  ∀ symbol, (Symbol.isPlain symbol = true → (book.live start).contains symbol = true) →
    other.image symbol = book.image symbol ∧ other.draws symbol = book.draws symbol

namespace Agrees

variable {other : Rulebook}

theorem step (hagrees : book.Agrees start other) (h : book.Covers start word) :
    other.step word = book.step word := by
  apply List.flatMap_congr
  intro symbol hmem
  exact (hagrees symbol (h symbol hmem)).1

theorem generation (hagrees : book.Agrees start other) (h : book.Covers start word) (n : Nat) :
    other.generation n word = book.generation n word := by
  induction n generalizing word with
  | zero => rfl
  | succ n ih =>
      -- the first step comes first, so the word changes under the induction and has to stay live
      rw [generation_succ, generation_succ, hagrees.step h]
      exact ih (covers_step h)

/-- Growth does not notice which of the two books is used, and neither does the limit on generations. -/
theorem grow (hagrees : book.Agrees start other) (limit n : Nat) :
    other.grow limit n start = book.grow limit n start := by
  rw [Rulebook.grow, Rulebook.grow, hagrees.generation (covers_start book start)]

theorem draws (hagrees : book.Agrees start other) {n : Nat} (hmem : symbol ∈ book.generation n start) :
    other.draws symbol = book.draws symbol :=
  (hagrees symbol (covers_generation book start n symbol hmem)).2

end Agrees

/-! ### The adapted book -/

theorem get?_adapt_of_live (hlive : (book.live start).contains symbol = true) :
    (book.adapt start).get? symbol = some ((book.get? symbol).getD (.idle symbol)) := by
  rw [get?_adapt, if_pos hlive]

theorem get?_adapt_of_not_plain (hplain : Symbol.isPlain symbol = false) :
    (book.adapt start).get? symbol = (book.get? symbol).filter (·.mandatory) := by
  rw [get?_adapt, if_neg]
  intro hlive
  rw [(contains_live.1 hlive).1] at hplain
  cases hplain

/-- The rule for a symbol that is live or not plain: it is kept, or a rule is added that does nothing,
or a rule is dropped that did nothing. -/
theorem get?_adapt_cases (hblank : book.BlanksIdle)
    (hsymbol : Symbol.isPlain symbol = true → (book.live start).contains symbol = true) :
    (book.adapt start).get? symbol = book.get? symbol ∨
      (book.get? symbol = none ∧ (book.adapt start).get? symbol = some (.idle symbol)) ∨
      ((book.adapt start).get? symbol = none ∧
        ∃ rule, book.get? symbol = some rule ∧ rule.active = false ∧ rule.draws = false) := by
  cases hplain : Symbol.isPlain symbol with
  | true =>
      rw [get?_adapt_of_live (hsymbol hplain)]
      cases hrule : book.get? symbol with
      | none => exact Or.inr (Or.inl ⟨rfl, rfl⟩)
      | some rule => exact Or.inl rfl
  | false =>
      rw [get?_adapt_of_not_plain hplain]
      cases hrule : book.get? symbol with
      | none => exact Or.inl rfl
      | some rule =>
          cases hmandatory : rule.mandatory with
          | true => exact Or.inl (Option.filter_some_pos hmandatory)
          | false =>
              have hisBlank : Text.isBlank symbol = true := by
                simpa [Symbol.isPlain, isControl_of_get? hrule] using hplain
              refine Or.inr (Or.inr ⟨Option.filter_some_neg (by simp [hmandatory]), rule, rfl, ?_⟩)
              exact hblank symbol rule hrule hisBlank hmandatory

/-- A book agrees with the book adapted from it. -/
theorem agrees_adapt (hblank : book.BlanksIdle) : book.Agrees start (book.adapt start) := by
  intro symbol hsymbol
  rcases get?_adapt_cases hblank hsymbol with
    hkept | ⟨hnone, hadded⟩ | ⟨hdropped, rule, hrule, hactive, hdraws⟩
  · rw [image, image, draws, draws, hkept]
    exact ⟨rfl, rfl⟩
  · rw [image_of_some hadded, image_of_none hnone, draws_of_some hadded, draws_of_none hnone]
    exact ⟨rfl, rfl⟩
  · rw [image_of_none hdropped, image_of_some hrule, draws_of_none hdropped, draws_of_some hrule,
      hactive, hdraws]
    exact ⟨rfl, rfl⟩

/-- **Growth does not notice adapting**, and neither does the limit on generations. -/
theorem grow_adapt (hblank : book.BlanksIdle) (limit n : Nat) (start : Word) :
    (book.adapt start).grow limit n start = book.grow limit n start :=
  (agrees_adapt hblank).grow limit n

end LSystem.Rulebook
