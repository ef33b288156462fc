import LSystem.Turtle.SymbolTable
import Std.Data.HashMap

/-!
Codebooks are symbol tables that keep the numbers in a hash map. The codes of a word are gathered in reverse.
-/

namespace LSystem

/-- Numbers by symbol. -/
abbrev CodeMap := @Std.HashMap Char Nat instBEqOfDecidableEq instHashableChar

structure Codebook where
  codes : CodeMap

namespace Codebook

def empty : Codebook := ⟨∅⟩

def size (book : Codebook) : Nat := book.codes.size

def code? (book : Codebook) (symbol : Char) : Option Nat := book.codes[symbol]?

def intern (book : Codebook) (symbol : Char) : Option Nat × Codebook :=
  match book.code? symbol with
  | some code => (some code, book)
  | none =>
    if book.size < SymbolTable.capacity then (some book.size, ⟨book.codes.insert symbol book.size⟩)
    else (none, book)

variable {book : Codebook} {symbol : Char}

theorem size_insert (h : book.code? symbol = none) (code : Nat) :
    size ⟨book.codes.insert symbol code⟩ = book.size + 1 := by
  have hnew : symbol ∉ book.codes := by
    simpa [code?] using h
  simp [size, Std.HashMap.size_insert, hnew]

theorem code?_insert (book : Codebook) (symbol other : Char) (code : Nat) :
    code? ⟨book.codes.insert symbol code⟩ other = if other = symbol then some code else book.code? other := by
  simp only [code?, Std.HashMap.getElem?_insert, beq_iff_eq, eq_comm (a := symbol)]

instance : SymbolTable Codebook where
  empty := empty
  size := size
  code? := code?
  intern := intern
  size_empty := Std.HashMap.size_empty
  code?_empty symbol := by
    simp [code?, empty]
  intern_of_known h := by
    simp only [intern, h]
  intern_of_room h hroom := by
    refine ⟨_, ?_, size_insert h _, fun other => code?_insert _ _ other _⟩
    simp only [intern, h, if_pos hroom]
  intern_of_full h hfull := by
    simp only [intern, h, if_neg (Nat.not_lt.2 hfull)]

end Codebook

/-- Codes, the last one first. -/
structure CodeStack where
  reversed : List Nat

instance : CodeStore CodeStack where
  empty := ⟨[]⟩
  codes stack := stack.reversed.reverse
  push stack code := some ⟨code :: stack.reversed⟩
  codes_empty := rfl
  exists_push _ _ := ⟨_, rfl, List.reverse_cons⟩

/-- The codes of a word, unless the room runs out; what was taken in until then stays in the book. -/
def Codebook.encode (book : Codebook) (word : Word) : Option (List Nat) × Codebook :=
  let outcome : Option CodeStack × Codebook := SymbolTable.encode book word
  (outcome.1.map CodeStore.codes, outcome.2)

end LSystem
