import LSystem.Grammar.Rule
import Std.Data.ExtTreeMap

/-!
Rulebooks: at most one rule for each symbol and none for a control symbol, listed in the order of the
symbols. `insert`, `collect` and `ofMap` are the ways in, and each of them keeps the control symbols out in
its own fashion: by refusing the rule, by leaving it aside, by refusing the whole map. Two books are equal
if they have the same rule for every symbol (`ext_get?`).
-/

namespace LSystem

/-- Rules by symbol. The order of characters is that of their code points. -/
abbrev RuleMap := Std.ExtTreeMap Char Rule

namespace RuleMap

/-- No control symbol has a rule. -/
def ControlFree (map : RuleMap) : Prop :=
  ∀ symbol : Char, Symbol.isControl symbol = true → map[symbol]? = none

variable {map : RuleMap}

theorem controlFree_empty : ControlFree ∅ := fun _ _ => Std.ExtTreeMap.getElem?_empty

/-- A change that gives no symbol its first rule. -/
theorem ControlFree.of_none {after : RuleMap} (h : ControlFree map)
    (hnone : ∀ symbol : Char, map[symbol]? = none → after[symbol]? = none) : ControlFree after :=
  fun symbol hcontrol => hnone symbol (h symbol hcontrol)

theorem ControlFree.insert (h : ControlFree map) {symbol : Char} (hsymbol : ¬Symbol.isControl symbol = true)
    (rule : Rule) : ControlFree (map.insert symbol rule) := by
  intro other hother
  have hne : symbol ≠ other := by
    rintro rfl
    exact hsymbol hother
  rw [Std.ExtTreeMap.getElem?_insert, if_neg (mt Std.LawfulEqCmp.compare_eq_iff_eq.1 hne), h other hother]

theorem ControlFree.erase (h : ControlFree map) (symbol : Char) : ControlFree (map.erase symbol) := by
  refine ControlFree.of_none h fun other hnone => ?_
  rw [Std.ExtTreeMap.getElem?_erase, hnone, ite_self]

theorem ControlFree.modify (h : ControlFree map) (symbol : Char) (f : Rule → Rule) :
    ControlFree (map.modify symbol f) := by
  refine ControlFree.of_none h fun other hnone => ?_
  rw [Std.ExtTreeMap.getElem?_modify]
  split
  · next heq => rw [Std.LawfulEqCmp.compare_eq_iff_eq.1 heq, hnone, Option.map_none]
  · exact hnone

theorem controlFree_ofList (entries : List (Char × Rule)) :
    ControlFree (.ofList (entries.filter fun entry => !Symbol.isControl entry.1)) := by
  intro symbol hcontrol
  apply Std.ExtTreeMap.getElem?_ofList_of_contains_eq_false
  simp [hcontrol]

theorem controlFree_of_find? (h : map.keys.find? Symbol.isControl = none) : ControlFree map := by
  intro symbol hcontrol
  apply Std.ExtTreeMap.getElem?_eq_none
  intro hmem
  exact List.find?_eq_none.1 h symbol (Std.ExtTreeMap.mem_keys.2 hmem) hcontrol

end RuleMap

/-- A map of rules with the proof that control symbols stay out of it. -/
structure Rulebook where
  map : RuleMap
  controlFree : map.ControlFree
  deriving DecidableEq

namespace Rulebook

def empty : Rulebook := ⟨∅, RuleMap.controlFree_empty⟩

def get? (book : Rulebook) (symbol : Char) : Option Rule := book.map[symbol]?

def contains (book : Rulebook) (symbol : Char) : Bool := book.map.contains symbol

def size (book : Rulebook) : Nat := book.map.size

def isEmpty (book : Rulebook) : Bool := book.map.isEmpty

def toList (book : Rulebook) : List (Char × Rule) := book.map.toList

theorem ext_map {book other : Rulebook} (h : book.map = other.map) : book = other := by
  cases book
  cases other
  cases h
  rfl

@[ext] theorem ext_get? {book other : Rulebook} (h : ∀ symbol, book.get? symbol = other.get? symbol) :
    book = other :=
  ext_map (Std.ExtTreeMap.ext_getElem? h)

theorem mem_toList_iff {book : Rulebook} {symbol : Char} {rule : Rule} :
    (symbol, rule) ∈ book.toList ↔ book.get? symbol = some rule :=
  Std.ExtTreeMap.mem_toList_iff_getElem?_eq_some

theorem get?_of_isControl (book : Rulebook) {symbol : Char} (hcontrol : Symbol.isControl symbol = true) :
    book.get? symbol = none :=
  book.controlFree symbol hcontrol

theorem isControl_of_get? {book : Rulebook} {symbol : Char} {rule : Rule} (h : book.get? symbol = some rule) :
    Symbol.isControl symbol = false := by
  rw [Bool.eq_false_iff]
  intro hcontrol
  rw [book.get?_of_isControl hcontrol] at h
  cases h

/-- Adds a rule, or replaces the one that the symbol had. -/
def insert (book : Rulebook) (symbol : Char) (rule : Rule) : Except ControlKey Rulebook :=
  if hcontrol : Symbol.isControl symbol then .error ⟨symbol⟩
  else .ok ⟨book.map.insert symbol rule, book.controlFree.insert hcontrol rule⟩

def erase (book : Rulebook) (symbol : Char) : Rulebook :=
  ⟨book.map.erase symbol, book.controlFree.erase symbol⟩

/-- Changes the rule of a symbol, if it has one. -/
def modify (book : Rulebook) (symbol : Char) (f : Rule → Rule) : Rulebook :=
  ⟨book.map.modify symbol f, book.controlFree.modify symbol f⟩

/-- The rules of a list without those for control symbols; of two for one symbol the later one counts. -/
def collect (entries : List (Char × Rule)) : Rulebook :=
  ⟨.ofList (entries.filter fun entry => !Symbol.isControl entry.1), RuleMap.controlFree_ofList entries⟩

/-- A whole map as a book, unless it has a control symbol; then the least one is refused. -/
def ofMap (map : RuleMap) : Except ControlKey Rulebook :=
  match hfind : map.keys.find? Symbol.isControl with
  | some symbol => .error ⟨symbol⟩
  | none => .ok ⟨map, RuleMap.controlFree_of_find? hfind⟩

end Rulebook

end LSystem
