import LSystem.Grammar.Rulebook
import LSystem.Studio.Settings

/-!
Sketches: a grammar and how to draw it. The dragon is the sketch to begin with; it starts from the draw
symbol of the settings, while the strokes that its two rules add are always `F`.
-/

namespace LSystem

structure Sketch (α : Type) where
  start : Word
  rules : Rulebook
  generations : Nat
  /-- In degrees. -/
  angle : α
  length : α
  deriving DecidableEq

namespace Sketch

variable {α : Type}

/-- The rules of the dragon; a draw or move symbol that is `X` or `Y` gives way to the rule for it. -/
def dragonRules (settings : Settings α) : Rulebook :=
  .collect
    [(settings.drawSymbol, (Rule.rewriting [settings.drawSymbol]).drawing.fixed),
      (settings.moveSymbol, Rule.idle settings.moveSymbol),
      ('X', Rule.rewriting ['X', '+', 'Y', 'F', '+']),
      ('Y', Rule.rewriting ['-', 'F', 'X', '-', 'Y'])]

/-- The Heighway dragon before its first generation, whatever the settings. -/
def dragonSeed (settings : Settings α) : Sketch α :=
  ⟨[settings.drawSymbol, 'X'], dragonRules settings, 0, settings.angle, settings.length⟩

def dragon (settings : Settings α) : Except (Fault α) (Sketch α) := do
  settings.check
  return dragonSeed settings

def standard : Sketch Float := dragonSeed Settings.standard

end Sketch

end LSystem
