import LSystem.Document.Rules
import LSystem.Grammar.Adaptation

/-!
Sessions: a rulebook that is edited step by step. An edit that is refused leaves the book as it was.
-/

namespace LSystem

inductive Edit where
  | insert (symbol : Char) (rule : Rule)
  | erase (symbol : Char)
  | modify (symbol : Char) (change : Rule → Rule)
  | toggleActive (symbol : Char)
  | toggleDraws (symbol : Char)
  /-- Starts anew with the rules of a list. -/
  | collect (entries : List (Char × Rule))
  /-- Starts anew with a whole map. -/
  | replace (map : RuleMap)
  /-- Starts anew with the book in a document. -/
  | load (text : List Char)
  | adapt (word : Word)

inductive Refusal where
  | controlKey (cause : ControlKey)
  | document (problem : Json.Problem)
  deriving DecidableEq

namespace Rulebook

/-- The book after an edit. -/
def edit (book : Rulebook) : Edit → Except Refusal Rulebook
  | .insert symbol rule => (book.insert symbol rule).mapError .controlKey
  | .erase symbol => .ok (book.erase symbol)
  | .modify symbol change => .ok (book.modify symbol change)
  | .toggleActive symbol => .ok (book.modify symbol Rule.toggleActive)
  | .toggleDraws symbol => .ok (book.modify symbol Rule.toggleDraws)
  | .collect entries => .ok (collect entries)
  | .replace map => (ofMap map).mapError .controlKey
  | .load text => (ofText text).mapError .document
  | .adapt word => .ok (book.adapt word)

/-- The book after an edit or, if that is refused, as it was. -/
def edited (book : Rulebook) (change : Edit) : Rulebook :=
  match book.edit change with
  | .ok book => book
  | .error _ => book

/-- The book after a whole session that began with an empty one. -/
def session (changes : List Edit) : Rulebook := changes.foldl edited empty

end Rulebook

end LSystem
