import LSystem.Grammar.Adaptation
import LSystem.Plane.Fusion
import LSystem.Studio.Sketch
import LSystem.Turtle.Drawing

/-!
An easel holds checked settings and a canvas, and turns sketches into pictures: the rules are adapted to
the start word, the word is grown and drawn, the drawing is fitted into the canvas and fused. A picture
depends on nothing but the easel and the sketch.
-/

namespace LSystem

structure Picture (α : Type) where
  /-- The rules adapted to the start word, for the sketch to take over. -/
  rules : Rulebook
  /-- The length of the grown word. -/
  symbolCount : Nat
  /-- The number of segments drawn, before they were fused. -/
  drawnCount : Nat
  segments : List (Segment α)
  deriving DecidableEq

structure Easel (α : Type) where
  settings : Settings α
  canvas : Canvas α
  deriving DecidableEq

namespace Easel

variable {α : Type} [Scalar α]

/-- The canvas is taken as it is. -/
def ofCanvas (settings : Settings α) (canvas : Canvas α) : Except (Fault α) (Easel α) := do
  settings.check
  return ⟨settings, canvas⟩

/-- A canvas of the given size with the margin of the settings; the canvas is checked first. -/
def ofSize (settings : Settings α) (width height : α) : Except (Fault α) (Easel α) := do
  let canvas ← Canvas.check ⟨width, height, settings.margin⟩
  ofCanvas settings canvas

def resize (easel : Easel α) (width height : α) : Except (Fault α) (Easel α) := do
  let canvas ← Canvas.check ⟨width, height, easel.settings.margin⟩
  return { easel with canvas := canvas }

/-- How the turtle goes for a sketch. -/
def gait (easel : Easel α) (sketch : Sketch α) : Gait α :=
  ⟨sketch.angle, sketch.length, easel.settings.drawSymbol, easel.settings.moveSymbol,
    easel.settings.whole⟩

/-- The word that a sketch grows into under the given rules. -/
def grow (easel : Easel α) (sketch : Sketch α) (rules : Rulebook) : Except (Fault α) Word :=
  (rules.grow easel.settings.maxGenerations sketch.generations sketch.start).mapError .overLimit

variable [Compass α]

def render (easel : Easel α) (sketch : Sketch α) : Except (Fault α) (Picture α) := do
  let rules := sketch.rules.adapt sketch.start
  let word ← easel.grow sketch rules
  let drawn ← draw rules (easel.gait sketch) word
  return {
    rules := rules
    symbolCount := word.length
    drawnCount := drawn.length
    segments := fuse easel.settings.fuseLimit (easel.canvas.fit drawn) }

end Easel

end LSystem
