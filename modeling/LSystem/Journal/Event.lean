import LSystem.Decimal.Layout
import LSystem.Grammar.Symbol
import LSystem.Plane.Canvas
import LSystem.Plane.Fusion
import LSystem.Scalar.Binary
import LSystem.Text.Quoted

/-!
Events: what is worth telling about the making of a picture, and how it is worded.
-/

namespace LSystem

/-- How much an event matters, from the most to the least. -/
inductive Level where
  | warn
  | info
  | debug
  | trace
  deriving DecidableEq

namespace Level

def rank : Level → Nat
  | .warn => 0
  | .info => 1
  | .debug => 2
  | .trace => 3

/-- A listener hears of what matters as much as the level listened for, or more. -/
def hears (listener level : Level) : Bool := level.rank ≤ listener.rank

def name : Level → String
  | .warn => "warn"
  | .info => "info"
  | .debug => "debug"
  | .trace => "trace"

end Level

inductive Event where
  | controlKeyDropped (symbol : Char)
  | rulesAdapted (before after : Nat) (start : Word)
  | generationGrown (number length : Nat)
  | wordGrown (start : Word) (generations length : Nat)
  | wordDrawn (symbols segments : Nat)
  | boxCollapsed (point : Point Float)
  | drawingFitted (segments : Nat) (fit : Fit Float)
  | fusionSkipped (segments limit : Nat)
  | pieceFolded (fold : Fold Float)
  | drawingFused (before after : Nat)
  | pictureRendered (generations symbols drawn left : Nat)
  deriving DecidableEq

namespace Event

def level : Event → Level
  | .controlKeyDropped .. | .boxCollapsed .. | .fusionSkipped .. => .warn
  | .generationGrown .. | .pieceFolded .. => .trace
  | _ => .debug

def point (p : Point Float) : String := s!"[{Decimal.message p.x}, {Decimal.message p.y}]"

def segment (s : Segment Float) : String :=
  s!"({Decimal.message s.start.x}, {Decimal.message s.start.y}) -> ({Decimal.message s.finish.x}, {Decimal.message s.finish.y})"

def quoted (word : Word) : String := String.ofList (Text.quoted word)

def message : Event → String
  | .controlKeyDropped symbol => s!"dropping rule for reserved symbol '{symbol}'"
  | .rulesAdapted before after start =>
    s!"reconciled {before} rules into {after} for axiom {quoted start}"
  | .generationGrown number length => s!"generation {number}: {length} symbols"
  | .wordGrown start generations length =>
    s!"expanded {quoted start} through {generations} generations into {length} symbols"
  | .wordDrawn symbols segments => s!"interpreted {symbols} symbols into {segments} segments"
  | .boxCollapsed p =>
    s!"bounding box collapsed to a single point at {point p}; using unit scale"
  | .drawingFitted segments fit =>
    s!"normalizing {segments} segments: bounds {point fit.box.low}..{point fit.box.high}, " ++
      s!"scale {Decimal.message fit.scale}, offset {point fit.offset}"
  | .fusionSkipped segments limit =>
    s!"skipping merge: {segments} segments exceed threshold {limit}"
  | .pieceFolded fold => s!"folding {segment fold.piece} into {segment fold.into}"
  | .drawingFused before after => s!"merged {before} segments into {after}"
  | .pictureRendered generations symbols drawn left =>
    s!"iteration {generations}: {symbols} symbols, {drawn} segments ({left} after merge)"

end Event

end LSystem
