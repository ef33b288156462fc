import LSystem.Grammar.Rulebook
import LSystem.Turtle.Codebook
import LSystem.Turtle.Command

/-!
Legends say which command a code stands for. A code without an entry stands for `ignore`.
-/

namespace LSystem

structure Legend (α : Type) where
  commands : Array (Command α)
  deriving DecidableEq

namespace Legend

variable {α : Type}

def empty : Legend α := ⟨#[]⟩

def ofList (commands : List (Command α)) : Legend α := ⟨commands.toArray⟩

def command (legend : Legend α) (code : Nat) : Command α := legend.commands.getD code .ignore

/-- Gives a code its command; codes on the way to it that had no entry stay ignored. -/
def set (legend : Legend α) (code : Nat) (command : Command α) : Legend α :=
  if code < legend.commands.size then ⟨legend.commands.setIfInBounds code command⟩
  else ⟨(legend.commands ++ Array.replicate (code - legend.commands.size) Command.ignore).push command⟩

theorem command_set (legend : Legend α) (code other : Nat) (command : Command α) :
    (legend.set code command).command other =
      if other = code then command else legend.command other := by
  unfold set
  split <;> simp only [Legend.command, Array.getD_eq_getD_getElem?] <;> grind

/-- Gives a symbol its command if the codebook knows the symbol. -/
def assign (book : Codebook) (legend : Legend α) (entry : Char × Command α) : Legend α :=
  match book.code? entry.1 with
  | some code => legend.set code entry.2
  | none => legend

variable [Scalar α]

/-- The commands of the rules, of the gait and of the control symbols, in that order: of two for one
symbol the later one holds. -/
def entries (gait : Gait α) (rules : Rulebook) : List (Char × Command α) :=
  (rules.toList.filter (·.2.draws)).map (fun entry => (entry.1, .draw)) ++
    [(gait.drawSymbol, .draw), (gait.moveSymbol, .move), ('+', .turn 1), ('-', .turn (-1)),
      ('[', .push), (']', .pop)]

def enter (legend : Legend α) (gait : Gait α) (rules : Rulebook) (book : Codebook) : Legend α :=
  (entries gait rules).foldl (assign book) legend

end Legend

end LSystem
