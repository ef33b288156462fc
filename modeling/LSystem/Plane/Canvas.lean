import LSystem.Plane.Box

/-!
Fitting a drawing into a canvas. One scale serves both axes, so that shapes keep their proportions: the
larger of the two ratios between the extent of the drawing and the room inside the margin. On the axis
with room to spare the drawing is centred.
-/

namespace LSystem

structure Canvas (α : Type) where
  width : α
  height : α
  /-- The least distance that is kept from every edge. -/
  margin : α
  deriving DecidableEq

/-- How a drawing is laid on a canvas: its corner `low` goes to `offset`, and lengths are divided by
`scale`. -/
structure Fit (α : Type) where
  box : Box α
  /-- All ends are one point, so that no scale follows from the extent. -/
  collapsed : Bool
  scale : α
  offset : Point α
  deriving DecidableEq

namespace Fit

variable {α : Type} [Scalar α]

def place (fit : Fit α) (p : Point α) : Point α :=
  (p - fit.box.low).map (· / fit.scale) + fit.offset

end Fit

namespace Canvas

variable {α : Type} [Scalar α]

def size (canvas : Canvas α) : Point α := ⟨canvas.width, canvas.height⟩

/-- The room that the margin leaves. -/
def inner (canvas : Canvas α) : Point α :=
  canvas.size - Point.both (Scalar.two * canvas.margin)

/-- The margin is finite and not negative, and leaves finite room on both axes. -/
def usable (canvas : Canvas α) : Bool :=
  Scalar.isFinite canvas.margin && !decide (canvas.margin < 0) &&
    (Scalar.isFinite canvas.inner.x && Scalar.isFinite canvas.inner.y &&
      decide (0 < Scalar.lesser canvas.inner.x canvas.inner.y))

/-- The larger ratio between an extent and the room inside the margin. -/
def ratio (canvas : Canvas α) (extent : Point α) : α :=
  Scalar.greater (extent.x / canvas.inner.x) (extent.y / canvas.inner.y)

/-- The layout of a drawing with the given bounding box. A box without extent is not scaled. -/
def layout (canvas : Canvas α) (box : Box α) : Fit α :=
  let ratio := canvas.ratio box.extent
  let collapsed := decide (ratio ≤ 0)
  let scale := if collapsed then 1 else ratio
  let slack := canvas.size - box.extent.map (· / scale)
  ⟨box, collapsed, scale, (slack.map (· / Scalar.two)).greater (Point.both canvas.margin)⟩

def layout? (canvas : Canvas α) (segments : List (Segment α)) : Option (Fit α) :=
  (Box.ofSegments? segments).map canvas.layout

/-- The segments moved and scaled into the room inside the margin. -/
def fit (canvas : Canvas α) (segments : List (Segment α)) : List (Segment α) :=
  match canvas.layout? segments with
  | none => []
  | some fit => segments.map (·.map fit.place)

end Canvas

end LSystem
