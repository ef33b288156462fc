import LSystem.Grammar.Symbol

/-!
What coding relies on. A symbol table numbers symbols from 0 on, in the order in which they are first met, and
looks each of them up under its number from then on. There are 65535 numbers; a table that has given them all
away still knows its symbols but takes no more. The codes of a word are pushed to a store, which takes them all.
-/

namespace LSystem

/-- The number of symbols that a symbol table can hold. -/
def SymbolTable.capacity : Nat := 65535

class SymbolTable (σ : Type) where
  empty : σ
  /-- How many symbols have a code. -/
  size : σ → Nat
  code? : σ → Char → Option Nat
  /-- The code of a symbol, and the table after it has come. -/
  intern : σ → Char → Option Nat × σ
  size_empty : size empty = 0
  code?_empty (symbol : Char) : code? empty symbol = none
  intern_of_known {table : σ} {symbol : Char} {code : Nat} (h : code? table symbol = some code) :
    intern table symbol = (some code, table)
  /-- A new symbol gets the next code, if there is one, and the other symbols keep theirs. -/
  intern_of_room {table : σ} {symbol : Char} (h : code? table symbol = none)
    (hroom : size table < SymbolTable.capacity) :
    ∃ next, intern table symbol = (some (size table), next) ∧ size next = size table + 1 ∧
      ∀ other, code? next other = if other = symbol then some (size table) else code? table other
  intern_of_full {table : σ} {symbol : Char} (h : code? table symbol = none)
    (hfull : SymbolTable.capacity ≤ size table) : intern table symbol = (none, table)

class CodeStore (τ : Type) where
  empty : τ
  codes : τ → List Nat
  push : τ → Nat → Option τ
  codes_empty : codes empty = []
  exists_push (store : τ) (code : Nat) :
    ∃ next, push store code = some next ∧ codes next = codes store ++ [code]

namespace SymbolTable

variable {σ τ : Type} [SymbolTable σ] [CodeStore τ]

/-- The codes of a word behind those in a store, unless one is refused; what was taken in until then stays in the
table. -/
@[specialize] def encodeOnto (table : σ) (store : τ) : Word → Option τ × σ
  | [] => (some store, table)
  | symbol :: word =>
    match intern table symbol with
    | (none, table) => (none, table)
    | (some code, table) =>
      match CodeStore.push store code with
      | none => (none, table)
      | some store => encodeOnto table store word

/-- The codes of a word, unless the room runs out. -/
def encode (table : σ) (word : Word) : Option τ × σ := encodeOnto table CodeStore.empty word

end SymbolTable

end LSystem
