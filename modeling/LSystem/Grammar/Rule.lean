import LSystem.Grammar.Symbol

/-!
Rules: what a symbol is rewritten to, and three switches. A mandatory rule cannot be switched off, and it
stays in its book when its symbol is gone; the rewriting itself does not look at that switch.
-/

namespace LSystem

structure Rule where
  successor : Word
  /-- The rule takes part in rewriting. -/
  active : Bool
  /-- The turtle draws when it comes to the symbol. -/
  draws : Bool
  mandatory : Bool
  deriving DecidableEq

namespace Rule

/-- An active rule that does not draw. -/
def rewriting (successor : Word) : Rule := ⟨successor, true, false, false⟩

/-- The rule of a symbol that has just turned up: its successor is the symbol itself, and it is switched
off. -/
def idle (symbol : Char) : Rule := ⟨[symbol], false, false, false⟩

def drawing (rule : Rule) : Rule := { rule with draws := true }

def fixed (rule : Rule) : Rule := { rule with mandatory := true }

def inactive (rule : Rule) : Rule := { rule with active := false }

/-- Switches `active` over; a mandatory rule comes out active. -/
def toggleActive (rule : Rule) : Rule := { rule with active := !rule.active || rule.mandatory }

/-- Switches `draws` over; a mandatory rule comes out drawing. -/
def toggleDraws (rule : Rule) : Rule := { rule with draws := !rule.draws || rule.mandatory }

end Rule

end LSystem
