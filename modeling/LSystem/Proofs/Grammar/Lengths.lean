import LSystem.Proofs.Grammar.Substitution
import Mathlib.Algebra.Order.BigOperators.Group.List
import Mathlib.Algebra.Order.Group.Nat
import Mathlib.Order.Bounds.Basic
import Mathlib.Tactic.Ring

/-! How long a word gets. A symbol without an active rule is copied, so it counts once in every generation; one with an
active rule counts as many times as the successor is long. A step therefore makes a word longer by no more than the
longest of these successors, and it makes no word shorter if none of them is empty. -/

namespace LSystem.Rulebook

/-- No active rule takes its symbol away. -/
def Propagating (book : Rulebook) : Prop :=
  ∀ symbol rule, book.get? symbol = some rule → rule.active = true → rule.successor ≠ []

variable {book : Rulebook}

theorem propagating_iff :
    book.Propagating ↔ ∀ entry ∈ book.toList, entry.2.active = true → entry.2.successor ≠ [] :=
  ⟨fun h entry hentry => h entry.1 entry.2 (mem_toList_iff.1 hentry),
    fun h symbol rule hrule => h (symbol, rule) (mem_toList_iff.2 hrule)⟩

instance : Decidable book.Propagating := decidable_of_iff' _ propagating_iff

/-! ### The factor of growth -/

/-- The lengths of the successors of the active rules. -/
def activeLengths (book : Rulebook) : List Nat :=
  (book.toList.filter (·.2.active)).map (·.2.successor.length)

/-- The length of the longest successor of an active rule, and 1 if there is none longer. -/
def factor (book : Rulebook) : Nat := book.activeLengths.foldr max 1

theorem mem_activeLengths {length : Nat} :
    length ∈ book.activeLengths ↔
      ∃ symbol rule, book.get? symbol = some rule ∧ rule.active = true ∧ rule.successor.length = length := by
  simp only [activeLengths, List.mem_map, List.mem_filter, Prod.exists, mem_toList_iff, and_assoc]

/-- The factor is the greatest of the lengths and 1. -/
theorem isGreatest_factor (book : Rulebook) :
    IsGreatest {length | length = 1 ∨ length ∈ book.activeLengths} book.factor := by
  unfold factor
  induction book.activeLengths with
  | nil => simp
  | cons length lengths ih =>
      have hset : {k | k = 1 ∨ k ∈ length :: lengths} = Insert.insert length {k | k = 1 ∨ k ∈ lengths} := by
        ext k
        simp only [List.mem_cons, Set.mem_insert_iff, Set.mem_ofPred_eq]
        exact or_left_comm
      rw [hset, List.foldr_cons]
      exact ih.insert length

theorem length_image_le_factor (book : Rulebook) (symbol : Char) : (book.image symbol).length ≤ book.factor := by
  have hone : 1 ≤ book.factor := book.isGreatest_factor.2 (Or.inl rfl)
  cases hrule : book.get? symbol with
  | none =>
      rw [image_of_none hrule]
      exact hone
  | some rule =>
      rw [image_of_some hrule]
      by_cases hactive : rule.active = true
      · rw [if_pos hactive]
        exact book.isGreatest_factor.2 (Or.inr (mem_activeLengths.2 ⟨symbol, rule, hrule, hactive, rfl⟩))
      · rw [if_neg hactive]
        exact hone

theorem Propagating.one_le_length_image (h : book.Propagating) (symbol : Char) : 1 ≤ (book.image symbol).length := by
  rw [Nat.one_le_iff_ne_zero, ne_eq, List.length_eq_zero_iff]
  cases hrule : book.get? symbol with
  | none =>
      rw [image_of_none hrule]
      exact List.cons_ne_nil _ _
  | some rule =>
      rw [image_of_some hrule]
      by_cases hactive : rule.active = true
      · rw [if_pos hactive]
        exact h symbol rule hrule hactive
      · rw [if_neg hactive]
        exact List.cons_ne_nil _ _

/-! ### One step, and many -/

theorem length_step_le (book : Rulebook) (word : Word) : (book.step word).length ≤ book.factor * word.length := by
  have hsum : (word.map fun symbol => (book.image symbol).length).sum ≤ word.length • book.factor := by
    rw [← List.length_map (f := fun symbol => (book.image symbol).length)]
    refine List.sum_le_card_nsmul _ _ fun length hlength => ?_
    obtain ⟨symbol, -, rfl⟩ := List.mem_map.1 hlength
    exact book.length_image_le_factor symbol
  rwa [step, List.length_flatMap, Nat.mul_comm]

theorem Propagating.length_le_step (h : book.Propagating) (word : Word) : word.length ≤ (book.step word).length := by
  have hsum : word.length • 1 ≤ (word.map fun symbol => (book.image symbol).length).sum := by
    rw [← List.length_map (f := fun symbol => (book.image symbol).length)]
    refine List.card_nsmul_le_sum _ _ fun length hlength => ?_
    obtain ⟨symbol, -, rfl⟩ := List.mem_map.1 hlength
    exact h.one_le_length_image symbol
  rwa [step, List.length_flatMap, ← Nat.mul_one word.length]

theorem length_generation_le (book : Rulebook) (n : Nat) (word : Word) :
    (book.generation n word).length ≤ word.length * book.factor ^ n := by
  induction n generalizing word with
  | zero => rw [generation_zero, Nat.pow_zero, Nat.mul_one]
  | succ n ih =>
      calc (book.generation (n + 1) word).length
          = (book.generation n (book.step word)).length := by rw [generation_succ]
        _ ≤ (book.step word).length * book.factor ^ n := ih _
        _ ≤ book.factor * word.length * book.factor ^ n := Nat.mul_le_mul_right _ (book.length_step_le word)
        _ = word.length * book.factor ^ (n + 1) := by ring

theorem Propagating.length_le_generation (h : book.Propagating) (n : Nat) (word : Word) :
    word.length ≤ (book.generation n word).length := by
  induction n generalizing word with
  | zero => exact Nat.le_refl _
  | succ n ih =>
      rw [generation_succ]
      exact (h.length_le_step word).trans (ih _)

/-- **Growth is monotone and bounded.** If no active rule takes its symbol away, then within the limit a word is at
least as long after `n` generations as it was at the start, and at most as many times as long as the `n`-th power of
the factor says. If the limit allows one generation more, the word gets no shorter in it, and its length is multiplied
by no more than the factor. -/
theorem grow_length_bounds (hbook : book.Propagating) {limit n : Nat} (hlimit : n ≤ limit) (start : Word) :
    ∃ word, book.grow limit n start = .ok word ∧
      start.length ≤ word.length ∧ word.length ≤ start.length * book.factor ^ n ∧
      (n + 1 ≤ limit → ∃ next, book.grow limit (n + 1) start = .ok next ∧
        word.length ≤ next.length ∧ next.length ≤ book.factor * word.length) := by
  refine ⟨book.generation n start, grow_eq_ok.2 ⟨hlimit, rfl⟩, hbook.length_le_generation n start,
    book.length_generation_le n start, fun hnext => ?_⟩
  have hstep : book.generation (n + 1) start = book.step (book.generation n start) := by
    rw [generation_add, generation_succ, generation_zero]
  refine ⟨book.generation (n + 1) start, grow_eq_ok.2 ⟨hnext, rfl⟩, ?_, ?_⟩
  · rw [hstep]
    exact hbook.length_le_step _
  · rw [hstep]
    exact book.length_step_le _

/-- `X` grows by the factor and `F` is copied, since the rule that would take it away is switched off. -/
theorem grow_length_bounds_of_bush :
    let book := collect [('X', .rewriting ['F', '[', '+', 'X', ']']), ('Y', .rewriting ['é']),
      ('F', (Rule.rewriting []).drawing.inactive)]
    book.Propagating ∧ 1 ≤ 12 ∧ book.factor = 5 ∧ ∃ word, book.grow 12 1 ['X', ' ', 'Y'] = .ok word ∧
      ['X', ' ', 'Y'].length ≤ word.length ∧ word.length ≤ ['X', ' ', 'Y'].length * 5 ^ 1 ∧
      word = ['F', '[', '+', 'X', ']', ' ', 'é'] ∧
      ∃ next, book.grow 12 (1 + 1) ['X', ' ', 'Y'] = .ok next ∧
        word.length ≤ next.length ∧ next.length ≤ 5 * word.length := by
  intro book
  have hbook : book.Propagating := by decide +kernel
  have hlimit : 1 ≤ 12 := by decide
  have hfactor : book.factor = 5 := by decide +kernel
  obtain ⟨word, hword, hlower, hupper, hnext⟩ := grow_length_bounds hbook hlimit ['X', ' ', 'Y']
  have hshown : word = ['F', '[', '+', 'X', ']', ' ', 'é'] := by
    rw [← (grow_eq_ok.1 hword).2]
    decide +kernel
  rw [hfactor] at hupper hnext
  exact ⟨hbook, hlimit, hfactor, word, hword, hlower, hupper, hshown, hnext (by decide)⟩

end LSystem.Rulebook
