import LSystem.Document.Session
import LSystem.Proofs.Grammar.Controls
import Mathlib.Data.List.Basic

/-! Rulebooks over whole sessions. What an edit leaves is a book again, and no book has a rule for a control symbol,
so no session ever brings one in. Which edits are refused does not depend on the book: only a rule that is added, a
whole map and a document can be, and then the session goes on with the book as it was. -/

namespace LSystem

/-- What is wrong with an edit, whatever book it is for: a control symbol is to have a rule, or a document cannot be
read as a rulebook. Of the control symbols in a map the least one is named. -/
inductive Edit.Refused : Edit → Refusal → Prop
  | insert {symbol : Char} (rule : Rule) (hcontrol : Symbol.isControl symbol = true) :
      Refused (.insert symbol rule) (.controlKey ⟨symbol⟩)
  | replace {map : RuleMap} {symbol : Char}
      (hleast : IsLeast {key | key ∈ map ∧ Symbol.isControl key = true} symbol) :
      Refused (.replace map) (.controlKey ⟨symbol⟩)
  | load {text : List Char} {problem : Json.Problem} (hproblem : Rulebook.ofText text = .error problem) :
      Refused (.load text) (.document problem)

namespace Rulebook

variable {book after : Rulebook} {change : Edit} {refusal : Refusal}

theorem mapError_eq_error_iff {ε ε' β : Type} {outcome : Except ε β} {f : ε → ε'} {problem : ε'} :
    outcome.mapError f = .error problem ↔ ∃ cause, outcome = .error cause ∧ f cause = problem := by
  cases outcome <;> simp [Except.mapError]

/-- An edit is refused for what is wrong with it and for nothing else. -/
theorem edit_eq_error_iff : book.edit change = .error refusal ↔ change.Refused refusal := by
  constructor
  · intro h
    cases change with
    | insert symbol rule =>
        obtain ⟨key, hkey, rfl⟩ := mapError_eq_error_iff.1 h
        obtain ⟨hcontrol, rfl⟩ := insert_eq_error_iff.1 hkey
        exact .insert rule hcontrol
    | replace map =>
        obtain ⟨key, hkey, rfl⟩ := mapError_eq_error_iff.1 h
        exact .replace (ofMap_eq_error_iff.1 hkey)
    | load text =>
        obtain ⟨problem, hproblem, rfl⟩ := mapError_eq_error_iff.1 h
        exact .load hproblem
    | erase | modify | toggleActive | toggleDraws | collect | adapt => cases h
  · intro h
    cases h with
    | insert rule hcontrol => exact mapError_eq_error_iff.2 ⟨_, insert_eq_error_iff.2 ⟨hcontrol, rfl⟩, rfl⟩
    | replace hleast => exact mapError_eq_error_iff.2 ⟨⟨_⟩, ofMap_eq_error_iff.2 hleast, rfl⟩
    | load hproblem => exact mapError_eq_error_iff.2 ⟨_, hproblem, rfl⟩

theorem edited_of_ok (h : book.edit change = .ok after) : book.edited change = after := by
  rw [edited, h]

theorem edited_of_error (h : book.edit change = .error refusal) : book.edited change = book := by
  rw [edited, h]

/-! ### Sessions -/

theorem session_append (changes : List Edit) (change : Edit) :
    session (changes ++ [change]) = (session changes).edited change :=
  List.foldl_concat edited empty change changes

/-- The symbols that have a rule, in the order in which they are listed. -/
theorem symbols_increasing (book : Rulebook) :
    (book.toList.map (·.1)).Pairwise fun a b => a.toNat < b.toNat := by
  rw [toList, Std.ExtTreeMap.map_fst_toList_eq_keys]
  exact (keys_increasing book.map).imp UInt32.lt_iff_toNat_lt.1

theorem not_mem_controls {symbol : Char} (hsymbol : symbol ∈ book.toList.map (·.1)) : symbol ∉ Symbol.controls := by
  obtain ⟨⟨key, rule⟩, hmem, rfl⟩ := List.mem_map.1 hsymbol
  have hplain := isControl_of_get? (mem_toList_iff.1 hmem)
  intro hcontrol
  exact Bool.noConfusion (hplain.symm.trans (List.contains_iff_mem.2 hcontrol))

end Rulebook

/-- **Rulebooks stay in order over whole sessions.** After any edits, whatever they were and in whatever order, no
control symbol has a rule, and the symbols that have one are listed once each and in the order of their code
points. The next edit is refused if and only if something is wrong with it; then the book stays as it is, and
otherwise it becomes what the edit makes of it. -/
theorem session_invariant (changes : List Edit) :
    (∀ symbol ∈ (Rulebook.session changes).toList.map (·.1), symbol ∉ ['+', '-', '[', ']']) ∧
      ((Rulebook.session changes).toList.map (·.1)).Pairwise (fun a b => a.toNat < b.toNat) ∧
      (∀ change refusal, change.Refused refusal ↔ (Rulebook.session changes).edit change = .error refusal) ∧
      (∀ change refusal, change.Refused refusal →
        Rulebook.session (changes ++ [change]) = Rulebook.session changes) ∧
      ∀ change book, (Rulebook.session changes).edit change = .ok book →
        Rulebook.session (changes ++ [change]) = book := by
  -- The first is what every edit has to prove of the book that it leaves.
  refine ⟨fun _ => Rulebook.not_mem_controls, Rulebook.symbols_increasing _,
    fun _ _ => Rulebook.edit_eq_error_iff.symm, ?_, ?_⟩
  · intro change refusal hrefused
    rw [Rulebook.session_append]
    exact Rulebook.edited_of_error (Rulebook.edit_eq_error_iff.2 hrefused)
  · intro change book hedit
    rw [Rulebook.session_append]
    exact Rulebook.edited_of_ok hedit

/-- A list brings in no bracket, a refused rule for `+` changes nothing, and a rule added last is listed in its
place. -/
theorem session_invariant_of_refused_insert :
    let changes : List Edit :=
      [.collect [('[', Rule.idle '['), ('F', Rule.idle 'F')], .toggleActive 'F', .insert '+' (Rule.idle '+'),
        .insert 'B' (Rule.idle 'B')]
    (Rulebook.session changes).toList.map (·.1) = ['B', 'F'] ∧
      (∀ symbol ∈ (Rulebook.session changes).toList.map (·.1), symbol ∉ ['+', '-', '[', ']']) ∧
      Rulebook.session (changes ++ [.insert ']' (Rule.idle ']')]) = Rulebook.session changes := by
  intro changes
  obtain ⟨hkeys, -, -, hrefused, -⟩ := session_invariant changes
  refine ⟨by decide +kernel, hkeys, hrefused _ _ (.insert (Rule.idle ']') ?_)⟩
  decide

end LSystem
