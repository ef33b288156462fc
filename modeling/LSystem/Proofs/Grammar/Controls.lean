import LSystem.Proofs.Grammar.Rulebook
import Mathlib.Data.Char
import Mathlib.Order.Bounds.Basic
import Mathlib.Tactic.SplitIfs

/-! Rules for control symbols are refused: a single one for its own symbol, a map with several of them for the
least, since its symbols are gone through in their order. -/

namespace LSystem.Rulebook

variable {book : Rulebook} {symbol : Char} {rule : Rule} {map : RuleMap}

theorem insert_eq_error_iff {key : ControlKey} :
    book.insert symbol rule = .error key ↔ Symbol.isControl symbol = true ∧ key = ⟨symbol⟩ := by
  unfold insert
  split_ifs with hcontrol
  · simp [hcontrol, eq_comm]
  · simp [hcontrol]

/-! ### Whole maps -/

theorem keys_increasing (map : RuleMap) : map.keys.Pairwise fun a b => a < b :=
  (Std.ExtTreeMap.ordered_keys (t := map)).imp compareOfLessAndEq_eq_lt.1

theorem isLeast_of_find? (h : map.keys.find? Symbol.isControl = some symbol) :
    IsLeast {key | key ∈ map ∧ Symbol.isControl key = true} symbol := by
  obtain ⟨hcontrol, before, behind, hkeys, hbefore⟩ := List.find?_eq_some_iff_append.1 h
  have hincreasing := keys_increasing map
  rw [hkeys, List.pairwise_append, List.pairwise_cons] at hincreasing
  have hmem : symbol ∈ map.keys := by simp [hkeys]
  refine ⟨⟨Std.ExtTreeMap.mem_keys.1 hmem, hcontrol⟩, ?_⟩
  rintro other ⟨hother, hotherControl⟩
  rw [← Std.ExtTreeMap.mem_keys, hkeys, List.mem_append, List.mem_cons] at hother
  rcases hother with hfront | rfl | hback
  · have hplain := hbefore other hfront
    rw [hotherControl] at hplain
    cases hplain
  · exact le_rfl
  · exact le_of_lt (hincreasing.2.1.1 other hback)

/-- A map is refused for the least of its control symbols. -/
theorem ofMap_eq_error_iff {key : ControlKey} :
    ofMap map = .error key ↔ IsLeast {key | key ∈ map ∧ Symbol.isControl key = true} key.symbol := by
  unfold ofMap
  constructor
  · intro h
    split at h
    · next symbol hfound =>
        rw [← Except.error.inj h]
        exact isLeast_of_find? hfound
    · cases h
  · intro hleast
    split
    · next symbol hfound => rw [(isLeast_of_find? hfound).unique hleast]
    · next hnone =>
        obtain ⟨hmem, hcontrol⟩ := hleast.1
        exact absurd hcontrol (List.find?_eq_none.1 hnone _ (Std.ExtTreeMap.mem_keys.2 hmem))

end LSystem.Rulebook
