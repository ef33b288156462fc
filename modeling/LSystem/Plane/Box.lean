import LSystem.Plane.Segment

/-!
Bounding boxes of lists of segments.
-/

namespace LSystem

structure Box (α : Type) where
  low : Point α
  high : Point α
  deriving DecidableEq

namespace Box

variable {α : Type} [Scalar α]

def around (s : Segment α) : Box α := ⟨s.low, s.high⟩

/-- The box grown to hold the ends of `s` too. -/
def widen (box : Box α) (s : Segment α) : Box α :=
  ⟨(box.low.lesser s.start).lesser s.finish, (box.high.greater s.start).greater s.finish⟩

/-- The least box around all ends; there is none around no segment. -/
def ofSegments? : List (Segment α) → Option (Box α)
  | [] => none
  | s :: segments => some (segments.foldl widen (around s))

def extent (box : Box α) : Point α := box.high - box.low

end Box

end LSystem
