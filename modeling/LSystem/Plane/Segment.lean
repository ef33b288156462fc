import LSystem.Plane.Point

/-!
Directed line segments. Two segments are equal only if they run the same way; `meets` and `parallel` do
not look at the direction. The cover of two segments is put together from the least and the greatest
coordinates of their ends, so it has no coordinate that neither of them has.
-/

namespace LSystem

structure Segment (α : Type) where
  start : Point α
  finish : Point α
  deriving DecidableEq

namespace Segment

variable {α : Type} [Scalar α]

@[inline] instance : BEq (Segment α) := ⟨fun s t => s.start == t.start && s.finish == t.finish⟩

def map (f : Point α → Point α) (s : Segment α) : Segment α := ⟨f s.start, f s.finish⟩

def reverse (s : Segment α) : Segment α := ⟨s.finish, s.start⟩

@[inline] def direction (s : Segment α) : Point α := s.finish - s.start

/-- The segments have an end in common. -/
@[inline] def meets (s t : Segment α) : Bool :=
  s.start == t.start || s.start == t.finish || s.finish == t.start || s.finish == t.finish

@[inline] def slope (s : Segment α) : Scalar.Slope α :=
  Scalar.slope s.direction.x s.direction.y

@[inline] def parallel (s t : Segment α) : Bool := Scalar.parallel s.slope t.slope

def low (s : Segment α) : Point α := s.start.lesser s.finish

def high (s : Segment α) : Point α := s.start.greater s.finish

/-- The diagonal of the box around both segments that falls if the first one falls and rises
otherwise, run through in the direction of the first. -/
def cover (s t : Segment α) : Segment α :=
  let low := (s.low.lesser t.start).lesser t.finish
  let high := (s.high.greater t.start).greater t.finish
  let diagonal : Segment α :=
    if Scalar.falling s.slope then ⟨⟨low.x, high.y⟩, ⟨high.x, low.y⟩⟩ else ⟨low, high⟩
  if diagonal.direction.dot s.direction < 0 then diagonal.reverse else diagonal

end Segment

end LSystem
