import LSystem.Json.Skip
import LSystem.Json.Value
import LSystem.Json.Writer

/-!
Records with named fields. A record is written as an object with all fields in their order. It is read
from an object with the fields in any order and unknown members among them, or from an array of the
values in the order of the fields. Reading starts from a blank record and lets each value that is there
change it, so a field that may be left out keeps what the blank has.
-/

namespace LSystem.Json

structure Field (σ : Type) where
  name : String
  /-- The field must not be left out. -/
  required : Bool
  /-- Reads a value and what it does to the record. -/
  reader : Reader (σ → σ)
  /-- Writes the value that a record has. -/
  writer : Writer σ

structure Record (σ : Type) where
  name : String
  blank : σ
  fields : List (Field σ)

namespace Reader

variable {σ : Type}

/-- Whether a further element or member follows, which is then next. -/
def another (closing : Char) (first : Bool) : Reader Bool := do
  let c ← next
  if c = closing then return false
  else if first then return true
  else if c = ',' then
    skip
    if (← next) = closing then fail .malformed else return true
  else fail .malformed

/-- A member by its key, which has to be a string; its first character has been taken. -/
def keyed (member : σ → List Char → Reader σ) (state : σ) (c : Char) : Reader σ := do
  if c = '"' then member state (← chars) else fail .malformed

/-- The members of an object whose bracket has been taken, each of them dealt with by `member` from
behind its key on; the closing bracket stays. -/
def membersFrom (member : σ → List Char → Reader σ) (first : Bool) (state : σ) (text : List Char) :
    Outcome σ :=
  match h : (another '\x7d' first).read text with
  | .error problem => .error problem
  | .ok (false, rest) => .ok (state, rest)
  | .ok (true, rest) =>
    have := ((another '\x7d' first).suffix h).length_le
    match h' : (take >>= keyed member state).read rest with
    | .error problem => .error problem
    | .ok (state, rest') =>
      have := length_lt_of_take h'
      membersFrom member false state rest'
  termination_by text.length

private theorem membersFrom_suffix {member : σ → List Char → Reader σ} {first : Bool} {state value : σ}
    {text rest : List Char} (h : membersFrom member first state text = .ok (value, rest)) :
    rest <:+ text := by
  fun_induction membersFrom member first state text with
  | case1 => cases h
  | case2 first state text tail hanother =>
    obtain ⟨-, rfl⟩ := Prod.mk.inj (Except.ok.inj h)
    exact (another _ _).suffix hanother
  | case3 => cases h
  | case4 first state text tail hanother hle state' tail' hmember hlt ih =>
    exact ((ih h).trans (Reader.suffix _ hmember)).trans ((another _ _).suffix hanother)

/-- An object whose opening bracket has been taken. -/
def members (member : σ → List Char → Reader σ) (state : σ) : Reader σ := do
  let state ← Reader.mk (membersFrom member true state) membersFrom_suffix
  punctuation '\x7d'
  return state

end Reader

namespace Record

variable {σ : Type}

def member (record : Record σ) (state : σ × List String) (key : List Char) : Reader (σ × List String) :=
  match record.fields.find? fun field => field.name.toList == key with
  | none => do
    Reader.punctuation ':'
    Reader.skipValue
    return state
  | some field => do
    if state.2.contains field.name then Reader.mismatch (.duplicateField field.name)
    else
      Reader.punctuation ':'
      return ((← field.reader) state.1, field.name :: state.2)

/-- Reads a record from its fields and the names of those that were there. -/
def complete (record : Record σ) (state : σ × List String) : Reader σ :=
  match record.fields.find? fun field => field.required && !state.2.contains field.name with
  | some field => Reader.mismatch (.missingField field.name)
  | none => return state.1

/-- The values of an array for the fields from number `index` on. -/
def elements (record : Record σ) (index : Nat) (state : σ) : List (Field σ) → Reader σ
  | [] => return state
  | field :: fields => do
    if ← Reader.another ']' (index == 0) then
      elements record (index + 1) ((← field.reader) state) fields
    else if field.required then
      Reader.mismatch (.wrongLength index
        s!"struct {record.name} with {record.fields.length} elements")
    else elements record (index + 1) state fields

def reader (record : Record σ) : Reader σ := do
  let c ← Reader.next
  if c = '\x7b' then
    Reader.skip
    record.complete (← Reader.members record.member (record.blank, []))
  else if c = '[' then
    Reader.skip
    let value ← record.elements 0 record.blank record.fields
    Reader.punctuation ']'
    return value
  else Reader.unexpected s!"struct {record.name}"

def writer (record : Record σ) : Writer σ := fun value =>
  Writer.object (record.fields.map fun field => (field.name.toList, field.writer value))

def text (record : Record σ) (value : σ) : List Char := record.writer value []

end Record

end LSystem.Json
