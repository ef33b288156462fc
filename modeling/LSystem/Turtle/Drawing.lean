import LSystem.Fault
import LSystem.Turtle.Legend

/-!
Drawing a word. The word is coded, a legend is entered for the codes, and the turtle obeys the commands
that the legend has for them.
-/

namespace LSystem

variable {α : Type} [Scalar α]

/-- The angle is finite, and the step finite and positive. -/
def Gait.check (gait : Gait α) : Except (Fault α) Unit :=
  if !Scalar.isFinite gait.angle then .error (.badAngle gait.angle)
  else if !Scalar.isFinite gait.length || decide (gait.length ≤ 0) then .error (.badLength gait.length)
  else .ok ()

variable [Compass α]

/-- The segments that coded symbols draw. -/
def Legend.trace (legend : Legend α) (gait : Gait α) (codes : List Nat) : List (Segment α) :=
  Turtle.initial.trace gait (codes.map legend.command)

def draw (rules : Rulebook) (gait : Gait α) (word : Word) : Except (Fault α) (List (Segment α)) := do
  gait.check
  match Codebook.empty.encode word with
  | (none, _) => throw .codesExhausted
  | (some codes, book) => return (Legend.empty.enter gait rules book).trace gait codes

end LSystem
