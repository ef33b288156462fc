import LSystem.Document.Plane
import LSystem.Document.Rules
import LSystem.Studio.Easel

/-!
Settings, sketches and pictures as documents. Settings may leave out any field and then keep the standard
one; a sketch may leave out its number of generations. Settings are checked when they have been read, and
pictures are only written.
-/

namespace LSystem

open Json

namespace Settings

def record : Record (Settings Float) where
  name := "SandboxConfig"
  blank := standard
  fields := List.map Field.optional [
    .natural Field.max32 "u32" "max_iterations" (·.maxGenerations)
      fun n settings => { settings with maxGenerations := n },
    .number "default_step_length" (·.length) fun x settings => { settings with length := x },
    .number "default_angle" (·.angle) fun x settings => { settings with angle := x },
    .number "padding" (·.margin) fun x settings => { settings with margin := x },
    .natural Field.max64 "usize" "merge_threshold" (·.fuseLimit)
      fun n settings => { settings with fuseLimit := n },
    .symbol "draw_symbol" (·.drawSymbol) fun c settings => { settings with drawSymbol := c },
    .symbol "move_symbol" (·.moveSymbol) fun c settings => { settings with moveSymbol := c },
    .boolean "round_steps" (·.whole) fun whole settings => { settings with whole := whole }]

/-- Reads a document that holds settings, and checks them. -/
def ofText (text : List Char) : Except (Fault Float) (Settings Float) := do
  let settings ← (Reader.document record.reader text).mapError .document
  settings.check
  return settings

end Settings

namespace Sketch

def record : Record (Sketch Float) where
  name := "Scene"
  blank := ⟨[], .empty, 0, 0, 0⟩
  fields := [
    .string "axiom" (·.start) fun word sketch => { sketch with start := word },
    .of Rulebook.reader Rulebook.writer "rules" (·.rules) fun rules sketch =>
      { sketch with rules := rules },
    (Field.natural Field.max32 "u32" "iterations" (·.generations)
      fun n sketch => { sketch with generations := n }).optional,
    .number "angle" (·.angle) fun x sketch => { sketch with angle := x },
    .number "step_length" (·.length) fun x sketch => { sketch with length := x }]

/-- Reads a document that holds a sketch. -/
def ofText (text : List Char) : Except (Fault Float) (Sketch Float) :=
  (Reader.document record.reader text).mapError .document

end Sketch

def Picture.text (picture : Picture Float) : List Char :=
  Writer.object [
    ("rules".toList, Rulebook.writer picture.rules),
    ("symbol_count".toList, Writer.ofText naturalText picture.symbolCount),
    ("raw_segment_count".toList, Writer.ofText naturalText picture.drawnCount),
    ("segments".toList, Writer.array Segment.record.writer picture.segments)] []

end LSystem
