import LSystem.Proofs.Turtle.Legend
import LSystem.Scalar.Exact

/-! Entering commands into a legend that has some already. The commands go in one by one, and the legend is made
longer where a code lies beyond its end. What fills it up on the way there is no command, so codes of other symbols
and codes of no symbol stand for what they stood for before. A legend that has been entered is long enough for all the
codes that can come, and entering it once more leaves it as it is. -/

namespace LSystem.Legend

variable {α : Type} {book : Codebook} {symbol : Char} {code : Nat}

/-! ### Codes of no symbol -/

theorem command_assign_of_unknown (hcode : ∀ symbol, book.code? symbol ≠ some code) (legend : Legend α)
    (entry : Char × Command α) : (assign book legend entry).command code = legend.command code := by
  unfold assign
  split
  · next other hother =>
      have hne : code ≠ other := by
        rintro rfl
        exact hcode entry.1 hother
      rw [command_set, if_neg hne]
  · rfl

/-- What no entry is about stays as it is, however far the legend grows. -/
theorem command_foldl_assign_of_unknown (hcode : ∀ symbol, book.code? symbol ≠ some code) (legend : Legend α)
    (entries : List (Char × Command α)) :
    (entries.foldl (assign book) legend).command code = legend.command code := by
  induction entries generalizing legend with
  | nil => rfl
  | cons entry entries ih => rw [List.foldl_cons, ih, command_assign_of_unknown hcode]

/-! ### The length of a legend -/

theorem size_set (legend : Legend α) (code : Nat) (command : Command α) :
    (legend.set code command).commands.size = max legend.commands.size (code + 1) := by
  unfold set
  split
  · rw [Array.size_setIfInBounds]
    omega
  · rw [Array.size_push, Array.size_append, Array.size_replicate]
    omega

/-- How long a legend must be to have room for the codes of some entries. -/
def reach (book : Codebook) : List (Char × Command α) → Nat
  | [] => 0
  | entry :: entries => max ((book.code? entry.1).elim 0 (· + 1)) (reach book entries)

theorem size_assign (legend : Legend α) (entry : Char × Command α) :
    (assign book legend entry).commands.size =
      max legend.commands.size ((book.code? entry.1).elim 0 (· + 1)) := by
  unfold assign
  cases book.code? entry.1 with
  | none => exact (Nat.max_zero _).symm
  | some code => exact size_set legend code entry.2

theorem size_foldl_assign (legend : Legend α) (entries : List (Char × Command α)) :
    (entries.foldl (assign book) legend).commands.size = max legend.commands.size (reach book entries) := by
  induction entries generalizing legend with
  | nil => exact (Nat.max_zero _).symm
  | cons entry entries ih => rw [List.foldl_cons, ih, size_assign, reach, Nat.max_assoc]

/-- Two legends of one length are the same if they have the same command for every code. -/
theorem ext_command {legend other : Legend α} (hsize : legend.commands.size = other.commands.size)
    (h : ∀ code, legend.command code = other.command code) : legend = other := by
  obtain ⟨commands⟩ := legend
  obtain ⟨others⟩ := other
  congr 1
  apply Array.ext hsize
  intro code hcode hother
  have heq := h code
  simp only [command, Array.getD_eq_getD_getElem?, Array.getElem?_eq_getElem hcode,
    Array.getElem?_eq_getElem hother, Option.getD_some] at heq
  exact heq

/-! ### Entering -/

variable [Scalar α]

theorem command_enter_of_unknown (hcode : ∀ symbol, book.code? symbol ≠ some code) (legend : Legend α)
    (gait : Gait α) (rules : Rulebook) : (legend.enter gait rules book).command code = legend.command code :=
  command_foldl_assign_of_unknown hcode legend _

theorem size_enter (legend : Legend α) (gait : Gait α) (rules : Rulebook) (book : Codebook) :
    (legend.enter gait rules book).commands.size =
      max legend.commands.size (reach book (entries gait rules)) :=
  size_foldl_assign legend _

theorem enter_enter (hbook : Unambiguous book) (legend : Legend α) (gait : Gait α) (rules : Rulebook) :
    (legend.enter gait rules book).enter gait rules book = legend.enter gait rules book := by
  apply ext_command
  · rw [size_enter, size_enter, Nat.max_assoc, Nat.max_self]
  · intro code
    by_cases hcode : ∃ symbol, book.code? symbol = some code
    · obtain ⟨symbol, hsymbol⟩ := hcode
      rw [command_enter hbook hsymbol, command_enter hbook hsymbol]
      cases gait.order? rules symbol <;> rfl
    · exact command_enter_of_unknown (not_exists.1 hcode) _ gait rules

/-- **What a legend says once it has been entered.** The code of a symbol has the command that the symbol stands for:
as a control symbol, else as the move symbol, else as the draw symbol or for a rule that draws. The codes of other
symbols, and those of no symbol, have the commands that they had before. Entering the same once more changes
nothing. -/
theorem enter_commands (legend : Legend α) (gait : Gait α) (rules : Rulebook) (hbook : Unambiguous book) :
    (∀ symbol code, book.code? symbol = some code →
      (legend.enter gait rules book).command code =
        if symbol = '+' then .turn 1
        else if symbol = '-' then .turn (-1)
        else if symbol = '[' then .push
        else if symbol = ']' then .pop
        else if symbol = gait.moveSymbol then .move
        else if symbol = gait.drawSymbol ∨ rules.draws symbol = true then .draw
        else legend.command code) ∧
    (∀ code, (∀ symbol, book.code? symbol ≠ some code) →
      (legend.enter gait rules book).command code = legend.command code) ∧
    (legend.enter gait rules book).enter gait rules book = legend.enter gait rules book := by
  refine ⟨fun symbol code hcode => ?_, fun code hcode => ?_, enter_enter hbook legend gait rules⟩
  · rw [command_enter hbook hcode, Gait.order?]
    by_cases hdraw : symbol = gait.drawSymbol
    · simp only [hdraw, true_or, if_true]
      split_ifs <;> rfl
    · simp only [hdraw, false_or, if_false]
      split_ifs <;> rfl
  · exact command_enter_of_unknown hcode legend gait rules

/-- A move symbol that turns all the same, a rule that draws, and entries that stay: the one for a symbol that stands
for nothing, and the one for a code that no symbol has. -/
theorem enter_commands_of_turning_move :
    let book := (Codebook.empty.encode ['X', '+', 'Y']).2
    let gait : Gait Rat := ⟨90, 10, 'F', '+', true⟩
    let rules := Rulebook.collect [('X', (Rule.rewriting ['X']).drawing)]
    let entered := (ofList [.move, .move, .pop, .push]).enter gait rules book
    Unambiguous book ∧ entered.command 0 = .draw ∧ entered.command 1 = .turn 1 ∧ entered.command 2 = .pop ∧
      entered.command 3 = .push ∧ entered.enter gait rules book = entered := by
  intro book gait rules entered
  have hroom : (['X', '+', 'Y'] : Word).toFinset.card ≤ SymbolTable.capacity := by decide
  obtain ⟨after, hencode, hlists⟩ := Codebook.encode_of_room hroom
  have hbook : book.Lists ['X', '+', 'Y'] := by
    rw [show book = after from congrArg Prod.snd hencode]
    exact hlists
  have hcode : ∀ symbol, book.code? symbol ≠ some 3 := by
    intro symbol heq
    obtain ⟨hmem, hplace⟩ := Option.ite_none_right_eq_some.1 ((hbook.code?_eq symbol).symm.trans heq)
    have hlt := List.idxOf_lt_length_of_mem hmem
    rw [Option.some.inj hplace] at hlt
    exact absurd hlt (by decide)
  obtain ⟨hknown, hunknown, htwice⟩ :=
    enter_commands (ofList [.move, .move, .pop, .push]) gait rules hbook.unambiguous
  refine ⟨hbook.unambiguous, ?_, ?_, ?_, hunknown 3 hcode, htwice⟩
  · exact (hknown 'X' 0 (hbook.code?_of_mem (by decide))).trans (by decide +kernel)
  · exact hknown '+' 1 (hbook.code?_of_mem (by decide))
  · exact (hknown 'Y' 2 (hbook.code?_of_mem (by decide))).trans (by decide +kernel)

end LSystem.Legend
