import LSystem.Scalar.Basic

/-!
Points and vectors of the plane.
-/

namespace LSystem

structure Point (α : Type) where
  x : α
  y : α
  deriving DecidableEq

namespace Point

variable {α : Type} [Scalar α]

@[inline] instance : BEq (Point α) := ⟨fun p q => p.x == q.x && p.y == q.y⟩

instance : Add (Point α) := ⟨fun p q => ⟨p.x + q.x, p.y + q.y⟩⟩

@[inline] instance : Sub (Point α) := ⟨fun p q => ⟨p.x - q.x, p.y - q.y⟩⟩

def origin : Point α := ⟨0, 0⟩

def both (a : α) : Point α := ⟨a, a⟩

def map (f : α → α) (p : Point α) : Point α := ⟨f p.x, f p.y⟩

/-- Axis by axis. -/
def combine (f : α → α → α) (p q : Point α) : Point α := ⟨f p.x q.x, f p.y q.y⟩

def lesser (p q : Point α) : Point α := combine Scalar.lesser p q

def greater (p q : Point α) : Point α := combine Scalar.greater p q

def dot (p q : Point α) : α := p.x * q.x + p.y * q.y

end Point

end LSystem
