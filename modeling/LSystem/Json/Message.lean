import LSystem.Json.Problem
import LSystem.Json.Writer
import LSystem.Text.Quoted

/-!
The wording of problems with documents.
-/

namespace LSystem.Json

def Found.message : Found → String
  | .null => "null"
  | .boolean value => s!"boolean `{String.ofList (booleanText value)}`"
  | .integer value => s!"integer `{value}`"
  | .float value => s!"floating point `{String.ofList (floatText value)}`"
  | .text value => s!"string {String.ofList (Text.quoted value)}"
  | .sequence => "sequence"
  | .map => "map"

def Mismatch.message : Mismatch → String
  | .wrongType found expected => s!"invalid type: {found.message}, expected {expected}"
  | .wrongValue found expected => s!"invalid value: {found.message}, expected {expected}"
  | .wrongLength length expected => s!"invalid length {length}, expected {expected}"
  | .missingField name => s!"missing field `{name}`"
  | .duplicateField name => s!"duplicate field `{name}`"
  | .refused reason => reason

end LSystem.Json
