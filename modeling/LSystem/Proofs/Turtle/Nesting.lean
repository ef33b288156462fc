import LSystem.Proofs.Grammar.Nesting
import LSystem.Proofs.Turtle.Branching

/-! Balanced words and the poses that a turtle saves. After each front of a word the turtle has as many poses
saved as there are branches open, so a balanced word never closes a branch when none is open, and at its end
none is. Balanced grammars grow such words only. -/

namespace LSystem

variable {α : Type} [Scalar α]

/-- Only a closing bracket closes a branch, whatever the draw and the move symbol are. -/
theorem Gait.eq_close_of_order {gait : Gait α} {rules : Rulebook} {symbol : Char}
    (h : gait.order rules symbol = .pop) : symbol = ']' := by
  by_contra hclose
  rw [order, order?, if_neg hclose] at h
  split_ifs at h <;> cases h

variable [Compass α]

namespace Turtle

variable (gait : Gait α) (rules : Rulebook) {turtle : Turtle α} {word : Word}

/-- As many poses are saved as branches are open. -/
theorem length_branches_after (hword : Word.Guarded turtle.branches.length word) :
    (turtle.after gait rules word).branches.length + word.count ']' =
      turtle.branches.length + word.count '[' := by
  obtain ⟨above, habove, hcount⟩ := after_above gait rules (List.append_nil turtle.branches).symm hword
  rw [habove, List.append_nil]
  exact hcount

/-- Where a guarded word closes a branch, there is one. -/
theorem branches_ne_nil_of_close {front back : Word}
    (hword : Word.Guarded turtle.branches.length (front ++ ']' :: back)) :
    (turtle.after gait rules front).branches ≠ [] := by
  have hfront : Word.Guarded turtle.branches.length front := by
    intro part hpart
    exact hword part (hpart.trans (List.prefix_append front _))
  have hopen := length_branches_after gait rules hfront
  exact List.ne_nil_of_length_pos ((Word.guarded_append hopen).1 hword).2.pos

/-- The commands of a balanced word never close a branch when none is open, and leave none open. -/
theorem walk_balanced (hword : Word.Balanced word) :
    (∀ front back, word.map (gait.order rules) = front ++ .pop :: back →
        ((initial : Turtle α).walk gait front).branches ≠ []) ∧
      ((initial : Turtle α).walk gait (word.map (gait.order rules))).branches = [] := by
  have hguarded : Word.Guarded (initial : Turtle α).branches.length word := hword.guarded
  constructor
  · intro front back hcommands
    obtain ⟨before, rest, rfl, rfl, hrest⟩ := List.map_eq_append_iff.1 hcommands
    obtain ⟨symbol, after, rfl, hpop, -⟩ := List.map_eq_cons_iff.1 hrest
    obtain rfl := Gait.eq_close_of_order hpop
    exact branches_ne_nil_of_close gait rules hguarded
  · have hlength := length_branches_after gait rules hguarded
    rw [hword.2, Nat.add_right_cancel_iff] at hlength
    exact List.length_eq_zero_iff.1 hlength

end Turtle

/-- **Balanced grammars never run out of branches.** If the start word and the successors of all active rules are
balanced, so is every generation that the limit allows. Any turtle that can draw it, with any rules for what
draws, obeys commands of which none closes a branch when none is open, and in the end no branch is open. -/
theorem balanced_grammar_nests {book : Rulebook} {start : Word} (hstart : Word.Balanced start)
    (hnests : book.Nests) {limit n : Nat} (hn : n ≤ limit) :
    ∃ word, book.grow limit n start = .ok word ∧ Word.Balanced word ∧
      ∀ (rules : Rulebook) (gait : Gait α), gait.check = .ok () → word.toFinset.card ≤ 65535 →
        ∃ codes codebook, Codebook.empty.encode word = (some codes, codebook) ∧
          ∃ commands, commands = codes.map (Legend.empty.enter gait rules codebook).command ∧
            draw rules gait word = .ok (Turtle.initial.trace gait commands) ∧
            (∀ front back, commands = front ++ .pop :: back →
              ((Turtle.initial : Turtle α).walk gait front).branches ≠ []) ∧
            ((Turtle.initial : Turtle α).walk gait commands).branches = [] := by
  have hbalanced := Rulebook.balanced_generation hnests hstart n
  refine ⟨book.generation n start, if_neg (Nat.not_lt.2 hn), hbalanced, ?_⟩
  intro rules gait hgait hroom
  obtain ⟨codes, codebook, hencode, hcommands⟩ := exists_codes rules gait hroom
  have hdraw : draw rules gait (book.generation n start) =
      .ok ((Legend.empty.enter gait rules codebook).trace gait codes) := by
    rw [draw, hgait]
    simp only [bind, Except.bind, hencode]
    rfl
  refine ⟨codes, codebook, hencode, _, rfl, hdraw, ?_⟩
  rw [hcommands]
  exact Turtle.walk_balanced gait rules hbalanced

/-- A branching grammar whose move symbol is a bracket, which stays a bracket all the same. -/
theorem balanced_grammar_nests_of_bush :
    let book := Rulebook.collect [('X', .rewriting ['F', '[', '+', 'X', ']', 'X']), ('F', Rule.idle 'F')]
    let gait : Gait Float := ⟨60, 10, 'F', '[', false⟩
    Word.Balanced ['[', 'X', ']', 'X'] ∧ book.Nests ∧
      ∃ word commands, book.grow 12 2 ['[', 'X', ']', 'X'] = .ok word ∧ word.count ']' = 7 ∧ Word.Balanced word ∧
        draw book gait word = .ok (Turtle.initial.trace gait commands) ∧
        (∀ front back, commands = front ++ .pop :: back →
          ((Turtle.initial : Turtle Float).walk gait front).branches ≠ []) ∧
        ((Turtle.initial : Turtle Float).walk gait commands).branches = [] := by
  intro book gait
  have hstart : Word.Balanced ['[', 'X', ']', 'X'] := by decide
  have hnests : book.Nests := by
    intro symbol rule hrule hactive
    have hmem := Rulebook.mem_of_get?_collect hrule
    simp only [List.mem_cons, List.not_mem_nil, or_false, Prod.mk.injEq] at hmem
    rcases hmem with ⟨-, rfl⟩ | ⟨-, rfl⟩
    · decide
    · cases hactive
  have hgait : gait.check = .ok () := Gait.check_eq_ok.2 ⟨by decide, by decide, by decide⟩
  obtain ⟨word, hgrow, hword, hdraws⟩ :=
    balanced_grammar_nests (α := Float) hstart hnests (show 2 ≤ 12 by decide)
  have hgrown : word = book.generation 2 ['[', 'X', ']', 'X'] := (Except.ok.inj hgrow).symm
  have hroom : word.toFinset.card ≤ 65535 := by
    rw [hgrown]
    decide +kernel
  have hcount : word.count ']' = 7 := by
    rw [hgrown]
    decide +kernel
  obtain ⟨-, -, -, commands, -, hdraw, hopen, hclosed⟩ := hdraws book gait hgait hroom
  exact ⟨hstart, hnests, word, commands, hgrow, hcount, hword, hdraw, hopen, hclosed⟩

end LSystem
