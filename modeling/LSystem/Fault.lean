import LSystem.Grammar.Growth
import LSystem.Json.Problem
import LSystem.Plane.Canvas

/-!
Why a drawing was not made. Everything that a word can do to a turtle is harmless; faults are only about
limits, settings and documents.
-/

namespace LSystem

inductive Fault (α : Type) where
  | overLimit (cause : OverLimit)
  | controlKey (cause : ControlKey)
  /-- One symbol was to draw and to move. -/
  | clash (symbol : Char)
  /-- The margin leaves no room on the canvas. -/
  | noRoom (canvas : Canvas α)
  | badLength (length : α)
  | badAngle (angle : α)
  /-- There are more different symbols than codes. -/
  | codesExhausted
  | document (problem : Json.Problem)
  deriving DecidableEq

namespace Canvas

variable {α : Type} [Scalar α]

def check (canvas : Canvas α) : Except (Fault α) (Canvas α) :=
  if canvas.usable then .ok canvas else .error (.noRoom canvas)

theorem usable_of_check {canvas checked : Canvas α} (h : canvas.check = .ok checked) : checked.usable = true := by
  unfold check at h
  split at h
  · next husable => rwa [← Except.ok.inj h]
  · cases h

end Canvas

end LSystem
