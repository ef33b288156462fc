import LSystem.Json.Record

/-!
Fields by the kind of value that they hold. They must not be left out unless they are made `optional`.
-/

namespace LSystem.Json.Field

variable {σ β : Type}

/-- The largest whole numbers of 32 and of 64 bits. -/
def max32 : Nat := 4294967295

def max64 : Nat := 18446744073709551615

/-- A field by how its value is read, got from a record, set and written. -/
def of (reader : Reader β) (writer : Writer β) (name : String) (get : σ → β) (set : β → σ → σ) :
    Field σ where
  name := name
  required := true
  reader := do return set (← reader)
  writer := fun value => writer (get value)

def number : (name : String) → (σ → Float) → (Float → σ → σ) → Field σ :=
  of Reader.real (.ofText floatText)

/-- A whole number from 0 to `max`. -/
def natural (max : Nat) (expected : String) : (name : String) → (σ → Nat) → (Nat → σ → σ) → Field σ :=
  of (Reader.natural max expected) (.ofText naturalText)

def boolean : (name : String) → (σ → Bool) → (Bool → σ → σ) → Field σ :=
  of Reader.boolean (.ofText booleanText)

def symbol : (name : String) → (σ → Char) → (Char → σ → σ) → Field σ :=
  of Reader.character fun c => Writer.string [c]

def string : (name : String) → (σ → List Char) → (List Char → σ → σ) → Field σ :=
  of (Reader.string "a string") Writer.string

/-- The same field, which may now be left out. -/
def optional (field : Field σ) : Field σ := { field with required := false }

end LSystem.Json.Field
