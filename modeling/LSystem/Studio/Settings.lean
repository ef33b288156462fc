import LSystem.Fault
import LSystem.Scalar.Binary
import LSystem.Turtle.Command

/-!
Settings that hold for every sketch: the limits, the canvas margin, the two symbols that always draw and
always move, and what a new sketch starts with.
-/

namespace LSystem

structure Settings (α : Type) where
  /-- The most generations that a sketch may ask for. -/
  maxGenerations : Nat
  /-- The step length of a new sketch. -/
  length : α
  /-- The turning angle of a new sketch, in degrees. -/
  angle : α
  margin : α
  /-- The most segments that are fused. -/
  fuseLimit : Nat
  drawSymbol : Char
  moveSymbol : Char
  /-- Steps are rounded to whole numbers on both axes. -/
  whole : Bool
  deriving DecidableEq

namespace Settings

/-- The draw and the move symbol are no control symbols, and they differ. -/
def check {α : Type} (settings : Settings α) : Except (Fault α) Unit :=
  if Symbol.isControl settings.drawSymbol then .error (.controlKey ⟨settings.drawSymbol⟩)
  else if Symbol.isControl settings.moveSymbol then .error (.controlKey ⟨settings.moveSymbol⟩)
  else if settings.drawSymbol = settings.moveSymbol then .error (.clash settings.drawSymbol)
  else .ok ()

def standard : Settings Float where
  maxGenerations := 12
  length := 10
  angle := 90
  margin := 16
  fuseLimit := 20000
  drawSymbol := 'F'
  moveSymbol := 'f'
  whole := true

end Settings

def Canvas.standard : Canvas Float := ⟨500, 500, Settings.standard.margin⟩

def Gait.standard : Gait Float :=
  ⟨Settings.standard.angle, Settings.standard.length, Settings.standard.drawSymbol,
    Settings.standard.moveSymbol, Settings.standard.whole⟩

end LSystem
