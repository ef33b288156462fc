import LSystem.Grammar.Symbol
import Mathlib.Data.List.Infix

/-! Words whose branches match. Balance is counted from the front: while a word is read, no branch is
closed that is not open. Inside a longer word some branches are open to begin with, so the count is
carried along as a depth (`Guarded`). -/

namespace LSystem.Word

/-- With `depth` branches open at the start, no front of the word closes one that is not open. -/
def Guarded (depth : Nat) (word : Word) : Prop :=
  ∀ front, front <+: word → front.count ']' ≤ depth + front.count '['

/-- No front of the word closes more branches than it opens, and the word closes all that it opens. -/
def Balanced (word : Word) : Prop :=
  (∀ front, front <+: word → front.count ']' ≤ front.count '[') ∧ word.count ']' = word.count '['

theorem balanced_iff_inits {word : Word} :
    Balanced word ↔
      (∀ front ∈ word.inits, front.count ']' ≤ front.count '[') ∧ word.count ']' = word.count '[' := by
  simp only [Balanced, List.mem_inits]

instance (word : Word) : Decidable (Balanced word) := decidable_of_iff _ balanced_iff_inits.symm

variable {word : Word} {symbol : Char} {depth : Nat}

theorem Balanced.guarded (h : Balanced word) : Guarded 0 word := by
  intro front hfront
  rw [Nat.zero_add]
  exact h.1 front hfront

theorem count_cons_eq (symbol other : Char) (word : Word) :
    (symbol :: word).count other = [symbol].count other + word.count other := by
  rw [← List.singleton_append, List.count_append]

/-- A word that starts by closing a branch is inside one. -/
theorem Guarded.pos (h : Guarded depth (']' :: word)) : 0 < depth := by
  have hfirst := h [']'] (List.prefix_append [']'] word)
  simp only [List.count_singleton_self, List.count_singleton] at hfirst
  exact hfirst

/-- What follows the first symbol is guarded by the branches open after it. -/
theorem Guarded.tail (h : Guarded depth (symbol :: word)) {after : Nat}
    (hafter : after + [symbol].count ']' = depth + [symbol].count '[') : Guarded after word := by
  intro front hfront
  have hlonger := h (symbol :: front) (List.cons_prefix_cons.2 ⟨rfl, hfront⟩)
  rw [count_cons_eq symbol ']' front, count_cons_eq symbol '[' front] at hlonger
  omega

end LSystem.Word
