import LSystem.Grammar.Growth

/-! What a book does with a symbol (`image`, `draws`), and what collecting rules into a book gives: for
every symbol the last rule that the list has for it, except for the control symbols. -/

namespace LSystem

theorem Symbol.isControl_eq_false_iff {symbol : Char} :
    isControl symbol = false ↔ symbol ≠ '+' ∧ symbol ≠ '-' ∧ symbol ≠ '[' ∧ symbol ≠ ']' := by
  simp [isControl, controls]

namespace Rulebook

/-- The symbol has a rule that draws. -/
def draws (book : Rulebook) (symbol : Char) : Bool := (book.get? symbol).any (·.draws)

variable {book : Rulebook} {symbol : Char}

theorem image_of_none (h : book.get? symbol = none) : book.image symbol = [symbol] := by
  rw [image, h]

theorem image_of_some {rule : Rule} (h : book.get? symbol = some rule) :
    book.image symbol = if rule.active then rule.successor else [symbol] := by
  rw [image, h]

theorem draws_of_none (h : book.get? symbol = none) : book.draws symbol = false := by
  rw [draws, h, Option.any_none]

theorem draws_of_some {rule : Rule} (h : book.get? symbol = some rule) : book.draws symbol = rule.draws := by
  rw [draws, h, Option.any_some]

/-- What a step puts in is the symbol itself or stems from an active rule. -/
theorem mem_image {other : Char} (h : other ∈ book.image symbol) :
    other = symbol ∨ ∃ rule, book.get? symbol = some rule ∧ rule.active = true ∧ other ∈ rule.successor := by
  cases hrule : book.get? symbol with
  | none =>
      rw [image_of_none hrule] at h
      exact Or.inl (List.mem_singleton.1 h)
  | some rule =>
      rw [image_of_some hrule] at h
      by_cases hactive : rule.active = true
      · rw [if_pos hactive] at h
        exact Or.inr ⟨rule, rfl, hactive, h⟩
      · rw [if_neg hactive] at h
        exact Or.inl (List.mem_singleton.1 h)

theorem step_cons (book : Rulebook) (symbol : Char) (word : Word) :
    book.step (symbol :: word) = book.image symbol ++ book.step word :=
  List.flatMap_cons

variable {motive : Char → Prop} {word : Word}

theorem forall_mem_step (himage : ∀ symbol, motive symbol → ∀ other ∈ book.image symbol, motive other)
    (hword : ∀ symbol ∈ word, motive symbol) : ∀ symbol ∈ book.step word, motive symbol := by
  intro other hother
  obtain ⟨symbol, hsymbol, hmem⟩ := List.mem_flatMap.1 hother
  exact himage symbol (hword symbol hsymbol) other hmem

/-- What passes from a symbol to its image passes from a word to all its generations. -/
theorem forall_mem_generation
    (himage : ∀ symbol, motive symbol → ∀ other ∈ book.image symbol, motive other)
    (hword : ∀ symbol ∈ word, motive symbol) (n : Nat) :
    ∀ symbol ∈ book.generation n word, motive symbol := by
  induction n generalizing word with
  | zero => exact hword
  | succ n ih =>
      rw [generation_succ]
      exact ih (forall_mem_step himage hword)

/-- A word grows if the limit allows it, and then it becomes what it is after that many steps. -/
theorem grow_eq_ok {limit n : Nat} {start : Word} :
    book.grow limit n start = .ok word ↔ n ≤ limit ∧ book.generation n start = word := by
  unfold grow
  by_cases h : limit < n
  · rw [if_pos h]
    simp [Nat.not_le.2 h]
  · rw [if_neg h]
    simp [Nat.not_lt.1 h]

/-- A measure that adds up over words is known after a step if it is known on the images of symbols. -/
theorem measure_step {f g : Word → Nat} (hf : ∀ front back, f (front ++ back) = f front + f back)
    (hg : ∀ front back, g (front ++ back) = g front + g back)
    (himage : ∀ symbol, f (book.image symbol) = g [symbol]) (word : Word) : f (book.step word) = g word := by
  induction word with
  | nil =>
      have hfnil := hf [] []
      have hgnil := hg [] []
      rw [List.append_nil] at hfnil hgnil
      show f [] = g []
      omega
  | cons symbol word ih =>
      have hword := hg [symbol] word
      rw [List.singleton_append] at hword
      rw [step_cons, hf, himage, ih, hword]

/-! ### Collecting -/

/-- The rule that a list has for a symbol: of several the last. -/
def lookup (symbol : Char) : List (Char × Rule) → Option Rule
  | [] => none
  | (key, rule) :: entries => (lookup symbol entries).or (if key = symbol then some rule else none)

theorem mem_of_lookup {entries : List (Char × Rule)} {rule : Rule} (h : lookup symbol entries = some rule) :
    (symbol, rule) ∈ entries := by
  induction entries with
  | nil => cases h
  | cons entry entries ih =>
      obtain ⟨key, first⟩ := entry
      rw [lookup, Option.or_eq_some_iff] at h
      rcases h with hrest | ⟨-, hfirst⟩
      · exact List.mem_cons_of_mem _ (ih hrest)
      · by_cases heq : key = symbol
        · rw [if_pos heq] at hfirst
          rw [← heq, Option.some.inj hfirst]
          exact List.mem_cons_self
        · rw [if_neg heq] at hfirst
          cases hfirst

theorem getElem?_insertMany (map : RuleMap) (symbol : Char) (entries : List (Char × Rule)) :
    (map.insertMany (entries.filter fun entry => !Symbol.isControl entry.1))[symbol]? =
      (if Symbol.isControl symbol then none else lookup symbol entries).or map[symbol]? := by
  induction entries generalizing map with
  | nil => simp [lookup]
  | cons entry entries ih =>
      obtain ⟨key, rule⟩ := entry
      by_cases hkey : Symbol.isControl key = true
      · rw [List.filter_cons_of_neg (by simp [hkey]), ih, lookup]
        by_cases heq : key = symbol
        · rw [← heq, if_pos hkey, if_pos hkey]
        · rw [if_neg heq, Option.or_none]
      · rw [List.filter_cons_of_pos (by simp [hkey]), Std.ExtTreeMap.insertMany_cons, ih, lookup,
          Std.ExtTreeMap.getElem?_insert]
        by_cases heq : key = symbol
        · subst heq
          simp [hkey]
        · simp [heq]

theorem get?_collect (entries : List (Char × Rule)) (symbol : Char) :
    (collect entries).get? symbol =
      if Symbol.isControl symbol then none else lookup symbol entries := by
  simp only [get?, collect]
  rw [Std.ExtTreeMap.ofList_eq_insertMany_empty, getElem?_insertMany]
  simp

/-- Every rule of a collected book stands in the list. -/
theorem mem_of_get?_collect {entries : List (Char × Rule)} {rule : Rule}
    (h : (collect entries).get? symbol = some rule) : (symbol, rule) ∈ entries := by
  rw [get?_collect] at h
  by_cases hcontrol : Symbol.isControl symbol = true
  · rw [if_pos hcontrol] at h
    cases h
  · rw [if_neg hcontrol] at h
    exact mem_of_lookup h

end Rulebook

end LSystem
