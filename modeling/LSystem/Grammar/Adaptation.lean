import LSystem.Grammar.Growth
import Std.Data.ExtTreeSet

/-!
Adapting a rulebook to a start word. A plain symbol is live if it occurs in the word or in the successor
of an active rule. The adapted book has a rule for every live symbol, and of the other rules only the
mandatory ones (`get?_adapt`).
-/

namespace LSystem.Rulebook

/-- The plain symbols of the word and of the successors of the active rules. -/
def live (book : Rulebook) (word : Word) : Std.ExtTreeSet Char :=
  .ofList ((word ++ book.toList.flatMap fun (_, rule) =>
    if rule.active then rule.successor else []).filter Symbol.isPlain)

theorem contains_live {book : Rulebook} {word : Word} {symbol : Char} :
    (book.live word).contains symbol = true ↔
      Symbol.isPlain symbol = true ∧
        (symbol ∈ word ∨ ∃ key rule, book.get? key = some rule ∧ rule.active = true ∧
          symbol ∈ rule.successor) := by
  simp only [live, Std.ExtTreeSet.contains_ofList, List.contains_iff_mem, List.mem_filter,
    List.mem_append, List.mem_flatMap, Prod.exists, mem_toList_iff]
  constructor
  · rintro ⟨hword | ⟨key, rule, hrule, hmem⟩, hplain⟩
    · exact ⟨hplain, Or.inl hword⟩
    · cases hactive : rule.active with
      | false => simp [hactive] at hmem
      | true =>
        simp only [hactive, if_true] at hmem
        exact ⟨hplain, Or.inr ⟨key, rule, hrule, hactive, hmem⟩⟩
  · rintro ⟨hplain, hword | ⟨key, rule, hrule, hactive, hmem⟩⟩
    · exact ⟨Or.inl hword, hplain⟩
    · exact ⟨Or.inr ⟨key, rule, hrule, by simpa [hactive] using hmem⟩, hplain⟩

private theorem getElem?_foldl_insertIfNew_idle (symbols : List Char) (map : RuleMap) (symbol : Char) :
    (symbols.foldl (fun map symbol => map.insertIfNew symbol (.idle symbol)) map)[symbol]? =
      if symbol ∈ symbols then some (map[symbol]?.getD (.idle symbol)) else map[symbol]? := by
  induction symbols generalizing map with
  | nil => simp
  | cons first symbols ih =>
    simp only [List.foldl_cons, ih, Std.ExtTreeMap.getElem?_insertIfNew,
      Std.LawfulEqCmp.compare_eq_iff_eq, List.mem_cons]
    by_cases heq : first = symbol
    · subst heq
      by_cases hmem : first ∈ map <;> simp [hmem]
    · have hne : symbol ≠ first := fun h => heq h.symm
      simp [heq, hne]

/-- The rules of a book that are kept, and rules for the live symbols that have none. -/
def adaptedMap (book : Rulebook) (word : Word) : RuleMap :=
  let live := book.live word
  let kept := book.map.filter fun symbol rule => rule.mandatory || live.contains symbol
  live.foldl (fun map symbol => map.insertIfNew symbol (.idle symbol)) kept

theorem getElem?_adaptedMap (book : Rulebook) (word : Word) (symbol : Char) :
    (book.adaptedMap word)[symbol]? =
      if (book.live word).contains symbol then some ((book.get? symbol).getD (.idle symbol))
      else (book.get? symbol).filter (·.mandatory) := by
  simp only [get?, adaptedMap, Std.ExtTreeSet.foldl_eq_foldl_toList, getElem?_foldl_insertIfNew_idle,
    Std.ExtTreeSet.mem_toList, Std.ExtTreeSet.contains_iff_mem]
  rw [Std.ExtTreeMap.getElem?_filter']
  by_cases hlive : symbol ∈ book.live word <;> cases book.map[symbol]? <;>
    simp [hlive, Option.filter, Std.ExtTreeSet.contains_iff_mem]

/-- Only plain symbols are live. -/
theorem controlFree_adaptedMap (book : Rulebook) (word : Word) : RuleMap.ControlFree (book.adaptedMap word) := by
  intro symbol hcontrol
  have hdead : ¬(book.live word).contains symbol = true := by
    intro hlive
    have hplain := (contains_live.1 hlive).1
    rw [Symbol.isPlain, hcontrol, Bool.not_true, Bool.and_false] at hplain
    cases hplain
  rw [getElem?_adaptedMap, if_neg hdead, book.get?_of_isControl hcontrol, Option.filter_none]

def adapt (book : Rulebook) (word : Word) : Rulebook :=
  ⟨book.adaptedMap word, book.controlFree_adaptedMap word⟩

theorem get?_adapt (book : Rulebook) (word : Word) (symbol : Char) :
    (book.adapt word).get? symbol =
      if (book.live word).contains symbol then some ((book.get? symbol).getD (.idle symbol))
      else (book.get? symbol).filter (·.mandatory) :=
  book.getElem?_adaptedMap word symbol

end LSystem.Rulebook
