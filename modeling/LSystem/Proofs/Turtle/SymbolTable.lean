import LSystem.Turtle.Codebook
import Mathlib.Data.Finset.Card
import Mathlib.Data.List.Infix
import Mathlib.Tactic.SplitIfs

/-! What a symbol table knows is a list: the symbols that it has met, in the order in which it met them
first, and a code is a place in that list. Coding a word appends the word's new symbols and never
moves an old one, so the codes of the word can be read off the list at the end; it fails if and only
if that list would not fit. All of this follows from what is relied on of tables and stores, so it holds of any. -/

namespace LSystem.SymbolTable

variable {σ τ : Type} [SymbolTable σ] [CodeStore τ] {table : σ} {seen : List Char} {symbol : Char}

/-- The table has numbered the symbols of a list in the order of the list. -/
structure Lists (table : σ) (seen : List Char) : Prop where
  nodup : seen.Nodup
  size_eq : size table = seen.length
  code?_eq : ∀ symbol, code? table symbol = if symbol ∈ seen then some (seen.idxOf symbol) else none

theorem lists_empty : Lists (empty : σ) [] where
  nodup := List.nodup_nil
  size_eq := size_empty
  code?_eq symbol := by
    rw [code?_empty, if_neg List.not_mem_nil]

theorem nodup_append_singleton (h : seen.Nodup) (hnew : symbol ∉ seen) : (seen ++ [symbol]).Nodup := by
  simpa using h.concat hnew

namespace Lists

theorem code?_of_mem (h : Lists table seen) (hmem : symbol ∈ seen) :
    code? table symbol = some (seen.idxOf symbol) := by
  rw [h.code?_eq, if_pos hmem]

theorem code?_of_not_mem (h : Lists table seen) (hnew : symbol ∉ seen) : code? table symbol = none := by
  rw [h.code?_eq, if_neg hnew]

/-- Different symbols have different codes. -/
theorem code?_inj (h : Lists table seen) {other : Char} {code : Nat}
    (hsymbol : code? table symbol = some code) (hother : code? table other = some code) : symbol = other := by
  rw [h.code?_eq] at hsymbol hother
  split_ifs at hsymbol hother with hmem hmem'
  have hindex := (Option.some.inj hsymbol).trans (Option.some.inj hother).symm
  exact (List.idxOf_inj hmem).1 hindex

/-- A new symbol gets the next place in the list. -/
theorem intern_of_not_mem (h : Lists table seen) (hnew : symbol ∉ seen) (hroom : seen.length < capacity) :
    ∃ next, intern table symbol = (some seen.length, next) ∧ Lists next (seen ++ [symbol]) := by
  obtain ⟨next, hintern, hsize, hcodes⟩ := intern_of_room (h.code?_of_not_mem hnew) (by rwa [h.size_eq])
  rw [h.size_eq] at hintern hsize hcodes
  refine ⟨next, hintern, nodup_append_singleton h.nodup hnew, ?_, fun other => ?_⟩
  · rw [hsize, List.length_append, List.length_singleton]
  · rw [hcodes, h.code?_eq]
    by_cases heq : other = symbol
    · subst heq
      simp [List.idxOf_append_of_notMem hnew]
    · by_cases hmem : other ∈ seen
      · simp [heq, hmem, List.idxOf_append_of_mem hmem]
      · simp [heq, hmem]

end Lists

/-! ### The symbols met by the end of a word -/

/-- The list of symbols after one more has come. -/
def enlist (seen : List Char) (symbol : Char) : List Char :=
  if symbol ∈ seen then seen else seen ++ [symbol]

/-- The list of symbols after a whole word has come. -/
def listing (seen : List Char) (word : Word) : List Char := word.foldl enlist seen

theorem listing_cons (seen : List Char) (symbol : Char) (word : Word) :
    listing seen (symbol :: word) = listing (enlist seen symbol) word := rfl

theorem nodup_enlist (h : seen.Nodup) (symbol : Char) : (enlist seen symbol).Nodup := by
  unfold enlist
  split_ifs with hmem
  · exact h
  · exact nodup_append_singleton h hmem

theorem mem_enlist {other : Char} : other ∈ enlist seen symbol ↔ other ∈ seen ∨ other = symbol := by
  unfold enlist
  split_ifs with hmem
  · constructor
    · exact Or.inl
    · rintro (h | rfl)
      · exact h
      · exact hmem
  · simp

theorem prefix_enlist (seen : List Char) (symbol : Char) : seen <+: enlist seen symbol := by
  unfold enlist
  split_ifs
  · exact List.prefix_rfl
  · exact List.prefix_append _ _

theorem prefix_listing (seen : List Char) (word : Word) : seen <+: listing seen word := by
  induction word generalizing seen with
  | nil => exact List.prefix_rfl
  | cons symbol word ih => exact (prefix_enlist seen symbol).trans (ih _)

theorem nodup_listing (h : seen.Nodup) (word : Word) : (listing seen word).Nodup := by
  induction word generalizing seen with
  | nil => exact h
  | cons symbol word ih => exact ih (nodup_enlist h symbol)

theorem mem_listing {word : Word} : symbol ∈ listing seen word ↔ symbol ∈ seen ∨ symbol ∈ word := by
  induction word generalizing seen with
  | nil => simp [listing]
  | cons first word ih => rw [listing_cons, ih, mem_enlist, List.mem_cons, or_assoc]

/-- The list is as long as there are different symbols. -/
theorem length_listing (h : seen.Nodup) (word : Word) :
    (listing seen word).length = (seen ++ word).toFinset.card := by
  rw [← List.toFinset_card_of_nodup (nodup_listing h word)]
  congr 1
  ext symbol
  simp [mem_listing]

theorem idxOf_of_front {front whole : List Char} (h : front <+: whole) (hmem : symbol ∈ front) :
    whole.idxOf symbol = front.idxOf symbol := by
  obtain ⟨back, rfl⟩ := h
  exact List.idxOf_append_of_mem hmem

/-! ### Coding a word -/

namespace Lists

/-- A symbol gets the place that it has in the list once it has come. -/
theorem exists_intern (h : Lists table seen) (hroom : (enlist seen symbol).length ≤ capacity) :
    ∃ next, intern table symbol = (some ((enlist seen symbol).idxOf symbol), next) ∧
      Lists next (enlist seen symbol) := by
  unfold enlist at hroom ⊢
  split_ifs at hroom ⊢ with hmem
  · exact ⟨table, intern_of_known (h.code?_of_mem hmem), h⟩
  · rw [List.length_append, List.length_singleton] at hroom
    obtain ⟨next, hintern, hnext⟩ := h.intern_of_not_mem hmem hroom
    refine ⟨next, ?_, hnext⟩
    rw [hintern, List.idxOf_append_of_notMem hmem]
    simp

/-- A word is coded by the places of its symbols in the list at its end, if that list fits. -/
theorem exists_encodeOnto (h : Lists table seen) (store : τ) {word : Word}
    (hroom : (listing seen word).length ≤ capacity) :
    ∃ full after, encodeOnto table store word = (some full, after) ∧
      CodeStore.codes full = CodeStore.codes store ++ word.map (listing seen word).idxOf ∧
      Lists after (listing seen word) := by
  induction word generalizing table seen store with
  | nil => exact ⟨store, table, rfl, (List.append_nil _).symm, h⟩
  | cons symbol word ih =>
      rw [listing_cons] at hroom ⊢
      have hfront := prefix_listing (enlist seen symbol) word
      have hplace : (listing (enlist seen symbol) word).idxOf symbol = (enlist seen symbol).idxOf symbol :=
        idxOf_of_front hfront (mem_enlist.2 (Or.inr rfl))
      obtain ⟨next, hintern, hnext⟩ := h.exists_intern (hfront.length_le.trans hroom)
      obtain ⟨longer, hpush, hcodes⟩ := CodeStore.exists_push store ((enlist seen symbol).idxOf symbol)
      obtain ⟨full, after, hencode, hfull, hafter⟩ := ih hnext longer hroom
      refine ⟨full, after, ?_, ?_, hafter⟩
      · simp only [encodeOnto, hintern, hpush, hencode]
      · rw [hfull, hcodes, List.map_cons, hplace, List.append_assoc, List.singleton_append]

/-- Otherwise it is coded up to a new symbol for which there is no room, and the symbols before that one stay. -/
theorem encodeOnto_of_full (h : Lists table seen) (hseen : seen.length ≤ capacity) (store : τ) {word : Word}
    (hfull : capacity < (listing seen word).length) :
    ∃ taken refused rest after, word = taken ++ refused :: rest ∧ refused ∉ listing seen taken ∧
      (listing seen taken).length = capacity ∧ encodeOnto table store word = (none, after) ∧
      Lists after (listing seen taken) := by
  induction word generalizing table seen store with
  | nil => exact absurd hfull (not_lt.2 hseen)
  | cons symbol word ih =>
      rw [listing_cons] at hfull
      by_cases hroom : (enlist seen symbol).length ≤ capacity
      · obtain ⟨next, hintern, hnext⟩ := h.exists_intern hroom
        obtain ⟨longer, hpush, -⟩ := CodeStore.exists_push store ((enlist seen symbol).idxOf symbol)
        obtain ⟨taken, refused, rest, after, rfl, hnew, hlength, hencode, hafter⟩ := ih hnext hroom longer hfull
        refine ⟨symbol :: taken, refused, rest, after, rfl, hnew, hlength, ?_, hafter⟩
        simp only [encodeOnto, hintern, hpush, hencode]
      · have hnew : symbol ∉ seen := by
          intro hmem
          rw [enlist, if_pos hmem] at hroom
          exact hroom hseen
        rw [enlist, if_neg hnew, List.length_append, List.length_singleton] at hroom
        have hlength : seen.length = capacity := by omega
        have hrefused := intern_of_full (h.code?_of_not_mem hnew) (by rw [h.size_eq, hlength])
        refine ⟨[], symbol, word, table, rfl, hnew, hlength, ?_, h⟩
        simp only [encodeOnto, hrefused]

end Lists

end LSystem.SymbolTable

namespace LSystem.Codebook

open SymbolTable

abbrev Lists (book : Codebook) (seen : List Char) : Prop := SymbolTable.Lists book seen

variable {book : Codebook} {seen : List Char} {word : Word}

theorem Lists.exists_encode (h : book.Lists seen) (hroom : (listing seen word).length ≤ capacity) :
    ∃ after, book.encode word = (some (word.map (listing seen word).idxOf), after) ∧
      after.Lists (listing seen word) := by
  obtain ⟨full, after, hencode, hcodes, hafter⟩ := h.exists_encodeOnto (CodeStore.empty : CodeStack) hroom
  refine ⟨after, ?_, hafter⟩
  rw [CodeStore.codes_empty, List.nil_append] at hcodes
  simp only [Codebook.encode, SymbolTable.encode, hencode, Option.map_some, hcodes]

theorem Lists.encode_of_full (h : book.Lists seen) (hseen : seen.length ≤ capacity)
    (hfull : capacity < (listing seen word).length) :
    ∃ taken refused rest after, word = taken ++ refused :: rest ∧ refused ∉ listing seen taken ∧
      (listing seen taken).length = capacity ∧ book.encode word = (none, after) ∧
      after.Lists (listing seen taken) := by
  obtain ⟨taken, refused, rest, after, hword, hnew, hlength, hencode, hafter⟩ :=
    h.encodeOnto_of_full hseen (CodeStore.empty : CodeStack) hfull
  refine ⟨taken, refused, rest, after, hword, hnew, hlength, ?_, hafter⟩
  simp only [Codebook.encode, SymbolTable.encode, hencode, Option.map_none]

theorem lists_empty : empty.Lists [] := SymbolTable.lists_empty

/-- A word with at most as many different symbols as there are codes is coded place by place. -/
theorem encode_of_room (hroom : word.toFinset.card ≤ capacity) :
    ∃ after, empty.encode word = (some (word.map (listing [] word).idxOf), after) ∧
      after.Lists (listing [] word) :=
  lists_empty.exists_encode (by rwa [length_listing List.nodup_nil])

theorem encode_of_full (hfull : capacity < word.toFinset.card) : (empty.encode word).1 = none := by
  rw [← List.nil_append word, ← length_listing List.nodup_nil] at hfull
  obtain ⟨-, -, -, after, -, -, -, hencode, -⟩ := lists_empty.encode_of_full (Nat.zero_le _) hfull
  rw [hencode]

end LSystem.Codebook
