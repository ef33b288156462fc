import LSystem.Proofs.Grammar.Rulebook
import LSystem.Proofs.Turtle.SymbolTable
import LSystem.Turtle.Legend
import Mathlib.Tactic.SplitIfs

/-! What a legend says about a code once it has been entered: the command of the symbol with that
code. Commands are entered one over the other, so the last one for a symbol holds; which one that is
depends on the symbol alone (`Gait.order?`), not on the codes. -/

namespace LSystem

variable {α : Type}

/-- What a symbol stands for: first the control symbols, then the move symbol, then the draw symbol
and the rules that draw. -/
def Gait.order? [Scalar α] (gait : Gait α) (rules : Rulebook) (symbol : Char) : Option (Command α) :=
  if symbol = '+' then some (.turn 1)
  else if symbol = '-' then some (.turn (-1))
  else if symbol = '[' then some .push
  else if symbol = ']' then some .pop
  else if symbol = gait.moveSymbol then some .move
  else if symbol = gait.drawSymbol then some .draw
  else if rules.draws symbol then some .draw
  else none

/-- No two symbols have one code. -/
def Legend.Unambiguous (book : Codebook) : Prop :=
  ∀ ⦃symbol other : Char⦄ ⦃code : Nat⦄,
    book.code? symbol = some code → book.code? other = some code → symbol = other

theorem Codebook.Lists.unambiguous {book : Codebook} {seen : List Char} (h : book.Lists seen) :
    Legend.Unambiguous book := by
  intro symbol other code
  exact h.code?_inj

namespace Legend

variable {book : Codebook} {symbol : Char} {code : Nat}

theorem command_assign (hbook : Unambiguous book) (hcode : book.code? symbol = some code)
    (legend : Legend α) (entry : Char × Command α) :
    (assign book legend entry).command code =
      if entry.1 = symbol then entry.2 else legend.command code := by
  unfold assign
  cases hentry : book.code? entry.1 with
  | none =>
      rw [if_neg]
      rintro rfl
      rw [hcode] at hentry
      cases hentry
  | some other =>
      simp only [command_set]
      by_cases heq : entry.1 = symbol
      · have hsame : other = code := by
          rw [heq, hcode] at hentry
          exact (Option.some.inj hentry).symm
        rw [if_pos heq, if_pos hsame.symm]
      · have hother : code ≠ other := by
          rintro rfl
          exact heq (hbook hentry hcode)
        rw [if_neg heq, if_neg hother]

/-- The command for a symbol after some entries, if there is one among them: the last. -/
def latest? (symbol : Char) (found : Option (Command α)) (entries : List (Char × Command α)) :
    Option (Command α) :=
  entries.foldl (fun found entry => if entry.1 = symbol then some entry.2 else found) found

theorem command_foldl_assign (hbook : Unambiguous book) (hcode : book.code? symbol = some code)
    (legend : Legend α) (entries : List (Char × Command α)) :
    (entries.foldl (assign book) legend).command code =
      (latest? symbol none entries).getD (legend.command code) := by
  have hgeneral : ∀ (legend : Legend α) (found : Option (Command α)) (before : Command α),
      legend.command code = found.getD before →
      (entries.foldl (assign book) legend).command code = (latest? symbol found entries).getD before := by
    induction entries with
    | nil => exact fun _ _ _ h => h
    | cons entry entries ih =>
        intro legend found before h
        rw [List.foldl_cons, latest?, List.foldl_cons]
        refine ih _ _ _ ?_
        rw [command_assign hbook hcode, h]
        split_ifs <;> rfl
  exact hgeneral legend none _ rfl

theorem latest?_append (found : Option (Command α)) (front back : List (Char × Command α)) :
    latest? symbol found (front ++ back) = latest? symbol (latest? symbol found front) back :=
  List.foldl_append

/-- Among entries for one command only the symbols matter. -/
theorem latest?_map (command : Command α) (keys : List Char) :
    latest? symbol none (keys.map fun key => (key, command)) =
      if symbol ∈ keys then some command else none := by
  induction keys using List.reverseRecOn with
  | nil => rfl
  | append_singleton keys key ih =>
      rw [List.map_append, latest?_append, ih]
      by_cases heq : key = symbol
      · subst heq
        simp [latest?]
      · have hne : symbol ≠ key := fun h => heq h.symm
        simp [latest?, heq, hne]

variable [Scalar α]

theorem mem_drawing_iff {rules : Rulebook} :
    symbol ∈ (rules.toList.filter (·.2.draws)).map (·.1) ↔ rules.draws symbol = true := by
  simp only [List.mem_map, List.mem_filter, Prod.exists, exists_and_right, exists_eq_right,
    Rulebook.mem_toList_iff, Rulebook.draws, Option.any_eq_true]

theorem latest?_entries (gait : Gait α) (rules : Rulebook) :
    latest? symbol none (entries gait rules) = gait.order? rules symbol := by
  have hrules : latest? symbol none _ = _ :=
    latest?_map (Command.draw (α := α)) ((rules.toList.filter (·.2.draws)).map (·.1))
  simp only [mem_drawing_iff, List.map_map, Function.comp_def] at hrules
  rw [entries, latest?_append, hrules]
  simp only [latest?, List.foldl_cons, List.foldl_nil, Gait.order?, eq_comm (a := symbol)]
  -- the entries come in rising priority, `order?` asks in falling priority
  grind

/-- Entering gives the code of a symbol the command of the symbol, and leaves it alone if the symbol
stands for none. -/
theorem command_enter (hbook : Unambiguous book) (hcode : book.code? symbol = some code)
    (legend : Legend α) (gait : Gait α) (rules : Rulebook) :
    (legend.enter gait rules book).command code =
      (gait.order? rules symbol).getD (legend.command code) := by
  rw [enter, command_foldl_assign hbook hcode, latest?_entries]

end Legend

end LSystem
