import LSystem.Proofs.Grammar.Adaptation
import Mathlib.Logic.Equiv.Basic

/-! Renaming of symbols. The rules of a book are listed in the order of their symbols, and a renaming upsets
that order; but all that growing and adapting ask of a book is the rule of a symbol (`get?_rename`), so both
commute with any renaming that keeps control symbols and blanks what they are. -/

namespace LSystem

/-- A permutation of the symbols that leaves the control symbols alone and does not mix blanks with others. -/
structure Renaming where
  perm : Equiv.Perm Char
  control : ∀ symbol, Symbol.isControl symbol = true → perm symbol = symbol
  blank : ∀ symbol, Text.isBlank (perm symbol) = Text.isBlank symbol

namespace Renaming

instance : CoeFun Renaming fun _ => Char → Char := ⟨fun r => r.perm⟩

variable (r : Renaming) {symbol other : Char}

theorem injective : Function.Injective r := r.perm.injective

theorem exists_eq (symbol : Char) : ∃ source, r source = symbol := r.perm.surjective symbol

theorem eq_control_iff (hother : Symbol.isControl other = true) : r symbol = other ↔ symbol = other := by
  constructor
  · intro h
    exact r.injective (h.trans (r.control other hother).symm)
  · rintro rfl
    exact r.control symbol hother

theorem isControl (symbol : Char) : Symbol.isControl (r symbol) = Symbol.isControl symbol := by
  rw [Bool.eq_iff_iff]
  constructor
  · intro h
    rwa [r.injective (r.control _ h)] at h
  · intro h
    rwa [r.control symbol h]

theorem isPlain (symbol : Char) : Symbol.isPlain (r symbol) = Symbol.isPlain symbol := by
  rw [Symbol.isPlain, Symbol.isPlain, r.isControl, r.blank]

theorem mem_map {word : Word} : r symbol ∈ word.map r ↔ symbol ∈ word :=
  List.mem_map_of_injective r.injective

/-- Two symbols of one kind change places. -/
def swap (a b : Char) (ha : Symbol.isControl a = false) (hb : Symbol.isControl b = false)
    (hblank : Text.isBlank a = Text.isBlank b) : Renaming where
  perm := Equiv.swap a b
  control symbol hsymbol := by
    apply Equiv.swap_apply_of_ne_of_ne
    · rintro rfl
      rw [ha] at hsymbol
      cases hsymbol
    · rintro rfl
      rw [hb] at hsymbol
      cases hsymbol
  blank symbol := by
    rw [Equiv.swap_apply_def]
    split_ifs with hfirst hsecond
    · rw [hfirst, hblank]
    · rw [hsecond, hblank]
    · rfl

end Renaming

def Rule.rename (r : Renaming) (rule : Rule) : Rule := { rule with successor := rule.successor.map r }

namespace Rulebook

variable (r : Renaming) {book : Rulebook} {start word : Word} {symbol : Char}

theorem controlFree_rename (book : Rulebook) :
    RuleMap.ControlFree (.ofList (book.toList.map fun entry => (r entry.1, entry.2.rename r))) := by
  intro symbol hcontrol
  refine Std.ExtTreeMap.getElem?_ofList_of_contains_eq_false ?_
  rw [Bool.eq_false_iff, ne_eq, List.contains_iff_mem, List.map_map, List.mem_map]
  rintro ⟨⟨key, rule⟩, hmem, rfl⟩
  have hplain : Symbol.isControl (r key) = false := (r.isControl key).trans (isControl_of_get? (mem_toList_iff.1 hmem))
  exact Bool.noConfusion (hplain.symm.trans hcontrol)

/-- The rules with their symbols and their successors renamed. -/
def rename (book : Rulebook) : Rulebook :=
  ⟨.ofList (book.toList.map fun entry => (r entry.1, entry.2.rename r)), controlFree_rename r book⟩

theorem get?_rename (book : Rulebook) (symbol : Char) :
    (book.rename r).get? (r symbol) = (book.get? symbol).map (Rule.rename r) := by
  cases hrule : book.get? symbol with
  | none =>
      refine Std.ExtTreeMap.getElem?_ofList_of_contains_eq_false ?_
      rw [Bool.eq_false_iff, Ne, List.contains_iff_mem, List.map_map, List.mem_map]
      rintro ⟨⟨key, rule⟩, hmem, hkey⟩
      obtain rfl : key = symbol := r.injective hkey
      rw [mem_toList_iff, hrule] at hmem
      cases hmem
  | some rule =>
      refine Std.ExtTreeMap.getElem?_ofList_of_mem Std.ReflCmp.compare_self ?_
        (List.mem_map_of_mem (mem_toList_iff.2 hrule))
      rw [List.pairwise_map]
      refine Std.ExtTreeMap.distinct_keys_toList.imp ?_
      intro first second hne heq
      rw [Std.LawfulEqCmp.compare_eq_iff_eq, r.injective.eq_iff] at heq
      exact hne (Std.LawfulEqCmp.compare_eq_iff_eq.2 heq)

/-- Two books are the same if they have the same rules for all renamed symbols. -/
theorem ext_rename {book other : Rulebook} (h : ∀ symbol, book.get? (r symbol) = other.get? (r symbol)) :
    book = other := by
  apply ext_get?
  intro symbol
  obtain ⟨source, rfl⟩ := r.exists_eq symbol
  exact h source

theorem draws_rename (book : Rulebook) (symbol : Char) : (book.rename r).draws (r symbol) = book.draws symbol := by
  rw [draws, draws, get?_rename, Option.any_map]
  rfl

/-! ### Adapting -/

theorem contains_live_rename (book : Rulebook) (start : Word) (symbol : Char) :
    ((book.rename r).live (start.map r)).contains (r symbol) = (book.live start).contains symbol := by
  rw [Bool.eq_iff_iff, contains_live, contains_live, r.isPlain, r.mem_map]
  refine and_congr_right fun _ => or_congr_right ?_
  constructor
  · rintro ⟨key, rule, hrule, hactive, hmem⟩
    obtain ⟨source, rfl⟩ := r.exists_eq key
    rw [get?_rename, Option.map_eq_some_iff] at hrule
    obtain ⟨original, horiginal, rfl⟩ := hrule
    exact ⟨source, original, horiginal, hactive, r.mem_map.1 hmem⟩
  · rintro ⟨key, rule, hrule, hactive, hmem⟩
    refine ⟨r key, rule.rename r, ?_, hactive, r.mem_map.2 hmem⟩
    rw [get?_rename, hrule, Option.map_some]

/-- **Adapting commutes with renaming.** The rules that it adds carry the renamed symbols. -/
theorem adapt_rename (book : Rulebook) (start : Word) :
    (book.rename r).adapt (start.map r) = (book.adapt start).rename r := by
  apply ext_rename r
  intro symbol
  rw [get?_rename, get?_adapt, get?_adapt, contains_live_rename, get?_rename]
  split_ifs with hlive
  · cases book.get? symbol with
    | none => rfl
    | some rule => rfl
  · rw [Option.filter_map]
    rfl

/-! ### Growing -/

theorem image_rename (book : Rulebook) (symbol : Char) :
    (book.rename r).image (r symbol) = (book.image symbol).map r := by
  cases hrule : book.get? symbol with
  | none =>
      rw [image_of_none hrule, image_of_none (by rw [get?_rename, hrule, Option.map_none])]
      rfl
  | some rule =>
      rw [image_of_some hrule, image_of_some (by rw [get?_rename, hrule, Option.map_some]), apply_ite (List.map r)]
      rfl

theorem step_rename (book : Rulebook) (word : Word) :
    (book.rename r).step (word.map r) = (book.step word).map r := by
  rw [step, step, List.flatMap_map, List.map_flatMap]
  exact List.flatMap_congr fun symbol _ => image_rename r book symbol

theorem generation_rename (book : Rulebook) (n : Nat) (word : Word) :
    (book.rename r).generation n (word.map r) = (book.generation n word).map r := by
  induction n generalizing word with
  | zero => rfl
  | succ n ih => rw [generation_succ, generation_succ, step_rename, ih]

/-- **Growing commutes with renaming**, and is refused for the same reason. -/
theorem grow_rename (book : Rulebook) (limit n : Nat) (word : Word) :
    (book.rename r).grow limit n (word.map r) = (book.grow limit n word).map (List.map r) := by
  rw [grow, grow, generation_rename]
  split_ifs <;> rfl

end Rulebook

end LSystem
