/-!
Sets of code points as tables of ranges in ascending order. Membership is decided by halving the table
(`covered_iff`).
-/

namespace LSystem.Text

/-- A range by its first and its last member. -/
abbrev Range := Nat × Nat

/-- No range is empty, and each of them begins behind the one before it; the first begins at the bound or behind it. -/
def ascendingFrom (bound : Nat) : List Range → Bool
  | [] => true
  | range :: ranges =>
    decide (bound ≤ range.1) && decide (range.1 ≤ range.2) && ascendingFrom (range.2 + 1) ranges

structure RangeTable where
  ranges : Array Range
  ascending : ascendingFrom 0 ranges.toList = true

/-- Membership in one of the ranges from number `low` to below number `high`. -/
def coveredBetween (table : RangeTable) (n low high : Nat) (inside : high ≤ table.ranges.size) : Bool :=
  if h : low < high then
    let middle := (low + high) / 2
    if n < table.ranges[middle].1 then coveredBetween table n low middle (by omega)
    else if table.ranges[middle].2 < n then coveredBetween table n (middle + 1) high inside
    else true
  else false
  termination_by high - low

/-- Membership in one of the ranges of a table. -/
def covered (table : RangeTable) (n : Nat) : Bool :=
  coveredBetween table n 0 table.ranges.size (Nat.le_refl _)

theorem bounds_of_ascendingFrom {bound : Nat} {ranges : List Range} (h : ascendingFrom bound ranges = true) :
    ∀ range ∈ ranges, bound ≤ range.1 ∧ range.1 ≤ range.2 := by
  induction ranges generalizing bound with
  | nil => exact fun _ hmem => absurd hmem List.not_mem_nil
  | cons first ranges ih =>
    simp only [ascendingFrom, Bool.and_eq_true, decide_eq_true_eq] at h
    obtain ⟨⟨hbound, hproper⟩, hrest⟩ := h
    intro range hmem
    rcases List.mem_cons.1 hmem with rfl | hmem
    · exact ⟨hbound, hproper⟩
    · have hrange := ih hrest range hmem
      omega

theorem pairwise_of_ascendingFrom {bound : Nat} {ranges : List Range} (h : ascendingFrom bound ranges = true) :
    ranges.Pairwise fun a b => a.2 < b.1 := by
  induction ranges generalizing bound with
  | nil => exact .nil
  | cons first ranges ih =>
    simp only [ascendingFrom, Bool.and_eq_true, decide_eq_true_eq] at h
    refine .cons (fun range hmem => ?_) (ih h.2)
    have hrange := bounds_of_ascendingFrom h.2 range hmem
    omega

namespace RangeTable

variable (table : RangeTable)

theorem first_le_last {i : Nat} (hi : i < table.ranges.size) : table.ranges[i].1 ≤ table.ranges[i].2 := by
  have hmem : table.ranges[i] ∈ table.ranges.toList := Array.mem_toList_iff.2 (Array.getElem_mem hi)
  exact (bounds_of_ascendingFrom table.ascending _ hmem).2

/-- Every range of the table is in front of the ranges after it. -/
theorem last_lt_first {i j : Nat} (h : i < j) (hj : j < table.ranges.size) :
    table.ranges[i].2 < table.ranges[j].1 :=
  List.pairwise_iff_getElem.1 (pairwise_of_ascendingFrom table.ascending) i j _ hj h

end RangeTable

theorem coveredBetween_iff {table : RangeTable} {n low high : Nat} {inside : high ≤ table.ranges.size} :
    coveredBetween table n low high inside = true ↔
      ∃ i, ∃ h : i < high, low ≤ i ∧ table.ranges[i].1 ≤ n ∧ n ≤ table.ranges[i].2 := by
  fun_induction coveredBetween table n low high inside with
  | case1 low high inside hlt middle hbelow ih =>
    rw [ih]
    constructor
    · rintro ⟨i, hi, hrange⟩
      exact ⟨i, by omega, hrange⟩
    · rintro ⟨i, hi, hlow, hfirst, hlast⟩
      have hi' : i < middle := by
        rcases Nat.lt_trichotomy i middle with h | rfl | h
        · exact h
        · exact absurd hfirst (by omega)
        · have := table.last_lt_first h (by omega)
          have := table.first_le_last (i := middle) (by omega)
          omega
      exact ⟨i, hi', hlow, hfirst, hlast⟩
  | case2 low high inside hlt middle _ habove ih =>
    rw [ih]
    constructor
    · rintro ⟨i, hi, hlow, hrange⟩
      exact ⟨i, hi, by omega, hrange⟩
    · rintro ⟨i, hi, hlow, hfirst, hlast⟩
      have hi' : middle + 1 ≤ i := by
        rcases Nat.lt_trichotomy i middle with h | rfl | h
        · have := table.last_lt_first h (by omega)
          have := table.first_le_last (i := middle) (by omega)
          omega
        · exact absurd hlast (by omega)
        · exact h
      exact ⟨i, hi, hi', hfirst, hlast⟩
  | case3 low high inside hlt middle hfirst hlast =>
    exact iff_of_true rfl ⟨middle, by omega, by omega, by omega, by omega⟩
  | case4 low high inside hle =>
    simp only [Bool.false_eq_true, false_iff]
    rintro ⟨i, hi, hlow, -⟩
    omega

theorem covered_iff {table : RangeTable} {n : Nat} :
    covered table n = true ↔ ∃ range ∈ table.ranges, range.1 ≤ n ∧ n ≤ range.2 := by
  rw [covered, coveredBetween_iff]
  constructor
  · rintro ⟨i, hi, -, hrange⟩
    exact ⟨table.ranges[i], Array.getElem_mem hi, hrange⟩
  · rintro ⟨range, hmem, hrange⟩
    obtain ⟨i, hi, rfl⟩ := Array.getElem_of_mem hmem
    exact ⟨i, hi, Nat.zero_le i, hrange⟩

end LSystem.Text
