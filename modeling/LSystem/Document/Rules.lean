import LSystem.Fault
import LSystem.Json.Field
import LSystem.Json.Message

/-!
Rules and rulebooks as documents. A rulebook is an object with a member for each rule, keyed by its
symbol; of two members for one symbol the later one counts. Control symbols are looked for when all
members have been read.
-/

namespace LSystem

open Json

def ControlKey.message (key : ControlKey) : String :=
  s!"'{key.symbol}' is a reserved control symbol and cannot carry a production rule"

namespace Rule

def record : Record Rule where
  name := "ProductionRule"
  blank := ⟨[], false, false, false⟩
  fields := [
    .string "replacement" (·.successor) fun word rule => { rule with successor := word },
    (Field.boolean "active" (·.active) fun active rule => { rule with active := active }).optional,
    (Field.boolean "drawing" (·.draws) fun draws rule => { rule with draws := draws }).optional,
    (Field.boolean "mandatory" (·.mandatory) fun mandatory rule =>
      { rule with mandatory := mandatory }).optional]

end Rule

namespace Rulebook

/-- One member: a symbol and its rule. -/
def member (map : RuleMap) (key : List Char) : Reader RuleMap := do
  let symbol ← Reader.singleton key
  Reader.punctuation ':'
  return map.insert symbol (← Rule.record.reader)

/-- A map as a book, if no control symbol is in it. -/
def guarded (map : RuleMap) : Reader Rulebook :=
  match ofMap map with
  | .ok book => return book
  | .error key => Reader.mismatch (.refused key.message)

def reader : Reader Rulebook := do
  if (← Reader.next) = '\x7b' then
    Reader.skip
    guarded (← Reader.members member ∅)
  else Reader.unexpected "a map"

def writer : Writer Rulebook := fun book =>
  Writer.object (book.toList.map fun (symbol, rule) => ([symbol], Rule.record.writer rule))

def text (book : Rulebook) : List Char := writer book []

/-- Reads a document that holds a rulebook and nothing else. -/
def ofText (text : List Char) : Except Problem Rulebook := Reader.document reader text

end Rulebook

end LSystem
