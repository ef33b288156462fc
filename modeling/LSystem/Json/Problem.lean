/-!
What can be wrong with a document: it ends too early, it is malformed, or it is well-formed so far and
holds something that does not belong there. Only the last kind says more.
-/

namespace LSystem.Json

/-- What was found where something else was expected. -/
inductive Found where
  | null
  | boolean (value : Bool)
  | integer (value : Int)
  | float (value : Float)
  | text (value : List Char)
  | sequence
  | map
  deriving DecidableEq

inductive Mismatch where
  | wrongType (found : Found) (expected : String)
  | wrongValue (found : Found) (expected : String)
  | wrongLength (length : Nat) (expected : String)
  | missingField (name : String)
  | duplicateField (name : String)
  /-- Refused for a reason of its own. -/
  | refused (reason : String)
  deriving DecidableEq

inductive Problem where
  | endOfText
  | malformed
  | mismatch (what : Mismatch)
  deriving DecidableEq

end LSystem.Json
