import LSystem.Plane.Point

/-!
Where the turtle is and where it looks. Headings are added up as turns come, so a heading is not kept
inside a full circle; the compass says which way it points.
-/

namespace LSystem

/-- Directions for headings. -/
class Compass (α : Type) where
  /-- The turn of so many degrees, as it is added to a heading. -/
  ofDegrees : α → α
  cos : α → α
  sin : α → α

/-- Headings in radians; degrees are multiplied by the constant π / 180. -/
instance : Compass Float where
  ofDegrees := fun degrees => degrees * (3.14159265358979323846 / 180)
  cos := Float.cos
  sin := Float.sin

structure Pose (α : Type) where
  position : Point α
  heading : α
  deriving DecidableEq

namespace Pose

variable {α : Type} [Scalar α]

/-- At the origin, with heading 0. -/
def initial : Pose α := ⟨Point.origin, 0⟩

def turn (pose : Pose α) (angle : α) : Pose α := { pose with heading := pose.heading + angle }

/-- The nearest whole number; a half goes up, on either side of zero. -/
def nearest (a : α) : α := Scalar.floor (a + Scalar.half)

variable [Compass α]

/-- The unit vector along the heading. -/
def forward (pose : Pose α) : Point α := ⟨Compass.cos pose.heading, Compass.sin pose.heading⟩

/-- One step along the heading, on each axis rounded to a whole number if `whole` is set. -/
def stride (pose : Pose α) (length : α) (whole : Bool) : Point α :=
  let exact := pose.forward.map (· * length)
  if whole then exact.map nearest else exact

def advance (pose : Pose α) (length : α) (whole : Bool) : Pose α :=
  { pose with position := pose.position + pose.stride length whole }

end Pose

end LSystem
