import LSystem.Decimal.Layout
import LSystem.Document.Rules

/-!
The wording of faults.
-/

namespace LSystem.Fault

def message : Fault Float → String
  | .overLimit cause =>
    s!"iteration count {cause.requested} exceeds the maximum of {cause.limit}"
  | .controlKey cause => cause.message
  | .clash symbol => s!"'{symbol}' cannot be both the draw symbol and the move symbol"
  | .noRoom canvas =>
    s!"viewport {Decimal.message canvas.width}x{Decimal.message canvas.height} " ++
      s!"has no drawable area with padding {Decimal.message canvas.margin}"
  | .badLength length => s!"invalid step length: {Decimal.message length}"
  | .badAngle angle => s!"invalid turn angle: {Decimal.message angle}"
  | .codesExhausted => "symbol table error: ID overflow"
  | .document problem =>
    match problem with
    | .mismatch what => s!"invalid configuration: {what.message}"
    | _ => "invalid configuration"

end LSystem.Fault
