import LSystem.Plane.Segment
import LSystem.Turtle.Pose

/-!
Turtle graphics: a list of commands and the segments that a turtle draws when it obeys them. Opening a
branch saves the pose, closing it takes the pose back; a branch that was never opened cannot be closed, and
the command is then passed over.
-/

namespace LSystem

inductive Command (α : Type) where
  /-- A step that leaves a segment behind. -/
  | draw
  | move
  /-- A turn by so many times the turning angle. -/
  | turn (times : α)
  | push
  | pop
  | ignore
  deriving DecidableEq

/-- How the turtle goes: its turning angle in degrees, its step, and the symbols that always draw and
always move. -/
structure Gait (α : Type) where
  angle : α
  length : α
  drawSymbol : Char
  moveSymbol : Char
  /-- Steps are rounded to whole numbers on both axes. -/
  whole : Bool
  deriving DecidableEq

/-- A turtle on its way: its pose and the poses saved by the branches it is in, the innermost first. -/
structure Turtle (α : Type) where
  pose : Pose α
  branches : List (Pose α)
  deriving DecidableEq

namespace Turtle

variable {α : Type} [Scalar α] [Compass α]

def initial : Turtle α := ⟨Pose.initial, []⟩

def obey (gait : Gait α) (turtle : Turtle α) : Command α → Turtle α
  | .draw | .move => { turtle with pose := turtle.pose.advance gait.length gait.whole }
  | .turn times => { turtle with pose := turtle.pose.turn (Compass.ofDegrees gait.angle * times) }
  | .push => { turtle with branches := turtle.pose :: turtle.branches }
  | .pop =>
    match turtle.branches with
    | [] => turtle
    | saved :: outer => ⟨saved, outer⟩
  | .ignore => turtle

/-- The turtle at the end of a list of commands. -/
def walk (gait : Gait α) (turtle : Turtle α) (commands : List (Command α)) : Turtle α :=
  commands.foldl (obey gait) turtle

/-- The segment that a command leaves behind. -/
def mark? (gait : Gait α) (turtle : Turtle α) (command : Command α) : Option (Segment α) :=
  match command with
  | .draw => some ⟨turtle.pose.position, (turtle.obey gait command).pose.position⟩
  | _ => none

/-- The segments of a walk in reverse, in front of those drawn before. -/
def traceOnto (gait : Gait α) (turtle : Turtle α) (drawn : List (Segment α)) :
    List (Command α) → List (Segment α)
  | [] => drawn
  | command :: commands =>
    let drawn := match turtle.mark? gait command with
      | some segment => segment :: drawn
      | none => drawn
    traceOnto gait (turtle.obey gait command) drawn commands

/-- The segments that a list of commands draws, in the order of the commands. -/
def trace (gait : Gait α) (turtle : Turtle α) (commands : List (Command α)) : List (Segment α) :=
  (turtle.traceOnto gait [] commands).reverse

private theorem traceOnto_eq (gait : Gait α) (turtle : Turtle α) (drawn : List (Segment α))
    (commands : List (Command α)) :
    turtle.traceOnto gait drawn commands = turtle.traceOnto gait [] commands ++ drawn := by
  induction commands generalizing turtle drawn with
  | nil => simp [traceOnto]
  | cons command commands ih =>
    rw [traceOnto, traceOnto, ih]
    conv => rhs; rw [ih]
    cases turtle.mark? gait command <;> simp

theorem trace_cons (gait : Gait α) (turtle : Turtle α) (command : Command α)
    (commands : List (Command α)) :
    turtle.trace gait (command :: commands) =
      (turtle.mark? gait command).toList ++ (turtle.obey gait command).trace gait commands := by
  rw [trace, traceOnto, traceOnto_eq, trace]
  cases turtle.mark? gait command <;> simp

end Turtle

end LSystem
