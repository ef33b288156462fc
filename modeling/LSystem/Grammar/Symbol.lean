import LSystem.Text.Blank

/-!
Symbols are characters and words are lists of them. The four control symbols steer the turtle and never
carry a rule; blanks carry none either unless one is given to them on purpose.
-/

namespace LSystem

abbrev Word := List Char

namespace Symbol

/-- Turn left, turn right, open a branch, close it. -/
def controls : List Char := ['+', '-', '[', ']']

def isControl (c : Char) : Bool := controls.contains c

/-- The symbols that call for a rule when they occur in a word. -/
def isPlain (c : Char) : Bool := !Text.isBlank c && !isControl c

end Symbol

/-- A control symbol that was given as the key of a rule. -/
structure ControlKey where
  symbol : Char
  deriving DecidableEq

end LSystem
