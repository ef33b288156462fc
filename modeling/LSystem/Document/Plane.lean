import LSystem.Json.Field
import LSystem.Plane.Canvas
import LSystem.Turtle.Pose

/-!
Points, segments, canvases and poses as documents. A point is an array of two numbers.
-/

namespace LSystem

open Json

namespace Point

def expected : String := "a sequence of 2 f64 values"

/-- The coordinate with the given number, in an array whose bracket has been taken. -/
def coordinate (index : Nat) : Reader Float := do
  if ← Reader.another ']' (index == 0) then Reader.real
  else Reader.mismatch (.wrongLength index expected)

def reader : Reader (Point Float) := do
  if (← Reader.next) = '[' then
    Reader.skip
    let x ← coordinate 0
    let y ← coordinate 1
    Reader.punctuation ']'
    return ⟨x, y⟩
  else Reader.unexpected expected

def writer : Writer (Point Float) := fun p => Writer.array (.ofText floatText) [p.x, p.y]

end Point

def Segment.record : Record (Segment Float) where
  name := "LineSegment"
  blank := ⟨⟨0, 0⟩, ⟨0, 0⟩⟩
  fields := [
    .number "x1" (·.start.x) fun x s => { s with start.x := x },
    .number "y1" (·.start.y) fun y s => { s with start.y := y },
    .number "x2" (·.finish.x) fun x s => { s with finish.x := x },
    .number "y2" (·.finish.y) fun y s => { s with finish.y := y }]

def Canvas.record : Record (Canvas Float) where
  name := "Viewport"
  blank := ⟨0, 0, 0⟩
  fields := [
    .number "width" (·.width) fun width canvas => { canvas with width := width },
    .number "height" (·.height) fun height canvas => { canvas with height := height },
    .number "padding" (·.margin) fun margin canvas => { canvas with margin := margin }]

def Pose.record : Record (Pose Float) where
  name := "TurtleState"
  blank := ⟨⟨0, 0⟩, 0⟩
  fields := [
    .of Point.reader Point.writer "position" (·.position)
      fun position pose => { pose with position := position },
    .number "heading" (·.heading) fun heading pose => { pose with heading := heading }]

end LSystem
