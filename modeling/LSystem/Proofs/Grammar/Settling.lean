import LSystem.Proofs.Grammar.Adaptation
import Mathlib.Data.Finset.Card
import Mathlib.Logic.Function.Iterate

/-! Adapting a rulebook over and over. A dropped rule may have been all that kept another symbol live, so
that one time need not be enough. Which symbols are live is decided by the start word and the active rules,
and adapting never adds an active rule. As long as an active rule goes there is one less to go; once none
goes, the next book is the same. So the books change at most as many times as there were active rules,
after the first one (`settle_eq`). -/

namespace LSystem.Rulebook

variable {book other : Rulebook} {start : Word} {symbol : Char} {rule : Rule}

/-- The active rules with their symbols. -/
def actives (book : Rulebook) : Finset (Char × Rule) := (book.toList.filter (·.2.active)).toFinset

theorem mem_actives : (symbol, rule) ∈ book.actives ↔ book.get? symbol = some rule ∧ rule.active = true := by
  rw [actives, List.mem_toFinset, List.mem_filter, mem_toList_iff]

/-- The more active rules, the more symbols are live. -/
theorem live_of_actives_subset (h : book.actives ⊆ other.actives)
    (hlive : (book.live start).contains symbol = true) : (other.live start).contains symbol = true := by
  obtain ⟨hplain, hstart | ⟨key, rule, hrule, hactive, hmem⟩⟩ := contains_live.1 hlive
  · exact contains_live.2 ⟨hplain, Or.inl hstart⟩
  · obtain ⟨hother, -⟩ := mem_actives.1 (h (mem_actives.2 ⟨hrule, hactive⟩))
    exact contains_live.2 ⟨hplain, Or.inr ⟨key, rule, hother, hactive, hmem⟩⟩

/-- A rule of the adapted book is a rule of the book, or it does nothing. -/
theorem get?_of_adapt (h : (book.adapt start).get? symbol = some rule) :
    book.get? symbol = some rule ∨ rule = .idle symbol := by
  rw [get?_adapt] at h
  split_ifs at h with hlive
  · cases hrule : book.get? symbol with
    | none =>
        rw [hrule] at h
        exact Or.inr (Option.some.inj h).symm
    | some kept =>
        rw [hrule] at h
        exact Or.inl h
  · exact Or.inl (Option.filter_eq_some_iff.1 h).1

theorem actives_adapt_subset (book : Rulebook) (start : Word) : (book.adapt start).actives ⊆ book.actives := by
  rintro ⟨symbol, rule⟩ hmem
  obtain ⟨hrule, hactive⟩ := mem_actives.1 hmem
  rcases get?_of_adapt hrule with hkept | rfl
  · exact mem_actives.2 ⟨hkept, hactive⟩
  · cases hactive

/-- Adapting makes no symbol live that was not: what a kept rule puts in counted before. -/
theorem live_of_live_adapt (hlive : ((book.adapt start).live start).contains symbol = true) :
    (book.live start).contains symbol = true :=
  live_of_actives_subset (actives_adapt_subset book start) hlive

/-! ### Adapted books -/

/-- What adapting leaves: every live symbol has a rule, and rules for symbols that are not plain are mandatory. -/
structure Adapted (book : Rulebook) (start : Word) : Prop where
  exists_rule : ∀ symbol, (book.live start).contains symbol = true → ∃ rule, book.get? symbol = some rule
  mandatory : ∀ symbol rule, Symbol.isPlain symbol = false → book.get? symbol = some rule →
    rule.mandatory = true

theorem adapted_adapt (book : Rulebook) (start : Word) : (book.adapt start).Adapted start where
  exists_rule := by
    intro symbol hlive
    exact ⟨_, get?_adapt_of_live (live_of_live_adapt hlive)⟩
  mandatory := by
    intro symbol rule hplain hrule
    rw [get?_adapt_of_not_plain hplain] at hrule
    exact (Option.filter_eq_some_iff.1 hrule).2

/-- From an adapted book adapting only drops rules. -/
theorem Adapted.get?_adapt_eq_some (h : book.Adapted start) :
    (book.adapt start).get? symbol = some rule ↔
      book.get? symbol = some rule ∧ (rule.mandatory = true ∨ (book.live start).contains symbol = true) := by
  rw [get?_adapt]
  split_ifs with hlive
  · obtain ⟨kept, hkept⟩ := h.exists_rule symbol hlive
    simp [hkept, hlive]
  · simp [Option.filter_eq_some_iff, hlive]

/-- What it drops was for symbols that never come up. -/
theorem Adapted.agrees (h : book.Adapted start) : book.Agrees start (book.adapt start) := by
  intro symbol hsymbol
  have hkept : (book.adapt start).get? symbol = book.get? symbol := by
    ext rule
    rw [h.get?_adapt_eq_some, and_iff_left_of_imp]
    intro hrule
    cases hplain : Symbol.isPlain symbol with
    | true => exact Or.inr (hsymbol hplain)
    | false => exact Or.inl (h.mandatory symbol rule hplain hrule)
  rw [image, image, draws, draws, hkept]
  exact ⟨rfl, rfl⟩

/-- If no active rule went when the book was adapted, then nothing goes when it is adapted again. -/
theorem adapt_adapt_of_actives (h : book.actives ⊆ (book.adapt start).actives) :
    (book.adapt start).adapt start = book.adapt start := by
  apply ext_get?
  intro symbol
  ext rule
  rw [(adapted_adapt book start).get?_adapt_eq_some, and_iff_left_of_imp]
  intro hrule
  by_cases hlive : (book.live start).contains symbol = true
  · exact Or.inr (live_of_actives_subset h hlive)
  · rw [get?_adapt, if_neg hlive] at hrule
    exact Or.inl (Option.filter_eq_some_iff.1 hrule).2

/-! ### Settling -/

/-- The book after it was adapted `n` times. -/
def settle (book : Rulebook) (start : Word) (n : Nat) : Rulebook := (fun book => book.adapt start)^[n] book

theorem settle_succ (book : Rulebook) (start : Word) (n : Nat) :
    book.settle start (n + 1) = (book.settle start n).adapt start :=
  Function.iterate_succ_apply' _ n book

theorem adapted_settle (book : Rulebook) (start : Word) (n : Nat) :
    (book.settle start (n + 1)).Adapted start := by
  rw [settle_succ]
  exact adapted_adapt _ start

/-- After the first time no rule comes that was not there before. -/
theorem get?_of_settle {n : Nat} (h : (book.settle start (n + 2)).get? symbol = some rule) :
    (book.settle start (n + 1)).get? symbol = some rule := by
  rw [settle_succ] at h
  exact ((adapted_settle book start n).get?_adapt_eq_some.1 h).1

theorem agrees_settle (book : Rulebook) (start : Word) (n : Nat) :
    (book.settle start (n + 1)).Agrees start (book.settle start (n + 2)) := by
  rw [settle_succ book start (n + 1)]
  exact (adapted_settle book start n).agrees

/-- Each time an active rule goes, or nothing goes any more. -/
theorem settle_progress (book : Rulebook) (start : Word) (n : Nat) :
    book.settle start (n + 2) = book.settle start (n + 1) ∨
      (book.settle start (n + 1)).actives.card < (book.settle start n).actives.card := by
  rw [settle_succ, settle_succ]
  by_cases h : (book.settle start n).actives ⊆ ((book.settle start n).adapt start).actives
  · exact Or.inl (adapt_adapt_of_actives h)
  · exact Or.inr (Finset.card_lt_card ⟨actives_adapt_subset _ start, h⟩)

theorem settle_bound (book : Rulebook) (start : Word) (n : Nat) :
    book.settle start (n + 2) = book.settle start (n + 1) ∨
      (book.settle start (n + 1)).actives.card + (n + 1) ≤ book.actives.card := by
  induction n with
  | zero => exact settle_progress book start 0
  | succ n ih =>
      rcases ih with hsame | hbound
      · left
        rw [settle_succ book start (n + 2), hsame, ← settle_succ, hsame]
      · rcases settle_progress book start (n + 1) with hsame | hless
        · exact Or.inl hsame
        · right
          omega

/-- **Adapting comes to an end.** After the first time the book changes at most as often as it had active
rules. -/
theorem settle_eq {n : Nat} (h : book.actives.card ≤ n) :
    book.settle start (n + 1) = book.settle start (book.actives.card + 1) := by
  have hfixed : (book.settle start (book.actives.card + 1)).adapt start =
      book.settle start (book.actives.card + 1) := by
    rw [← settle_succ]
    refine (settle_bound book start book.actives.card).resolve_right ?_
    omega
  induction n, h using Nat.le_induction with
  | base => rfl
  | succ n _ ih => rw [settle_succ, ih, hfixed]

end LSystem.Rulebook
