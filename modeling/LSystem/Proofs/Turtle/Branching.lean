import LSystem.Proofs.Grammar.Balance
import LSystem.Proofs.Turtle.Reading

/-! Branches as detours. Reading a word only ever touches the poses saved above those that were saved
before, as long as the word closes no branch that it has not opened (`obey_above` for one symbol,
`after_above` for a word). A balanced word put between brackets therefore brings the turtle back, with
its pose and with all the poses saved below, and what follows is drawn as if the branch were not there. -/

namespace LSystem

variable {α : Type} [Scalar α]

theorem Gait.order_open (gait : Gait α) (rules : Rulebook) : gait.order rules '[' = .push := rfl

theorem Gait.order_close (gait : Gait α) (rules : Rulebook) : gait.order rules ']' = .pop := rfl

variable [Compass α]

namespace Turtle

variable (gait : Gait α) (rules : Rulebook) {symbol : Char} {turtle : Turtle α}

/-- The turtle when it has read a word. -/
def after (turtle : Turtle α) (word : Word) : Turtle α := turtle.walk gait (word.map (gait.order rules))

theorem after_cons (turtle : Turtle α) (symbol : Char) (word : Word) :
    turtle.after gait rules (symbol :: word) =
      (turtle.obey gait (gait.order rules symbol)).after gait rules word := rfl

theorem after_append (turtle : Turtle α) (front back : Word) :
    turtle.after gait rules (front ++ back) = (turtle.after gait rules front).after gait rules back := by
  rw [after, List.map_append, walk, List.foldl_append]
  rfl

theorem trace_append (turtle : Turtle α) (front back : List (Command α)) :
    turtle.trace gait (front ++ back) = turtle.trace gait front ++ (turtle.walk gait front).trace gait back := by
  induction front generalizing turtle with
  | nil => rfl
  | cons command front ih =>
      rw [List.cons_append, trace_cons, trace_cons, ih, List.append_assoc]
      rfl

/-- A word is drawn piece by piece, each piece by the turtle that has read the pieces before. -/
theorem read_append (turtle : Turtle α) (front back : Word) :
    turtle.read gait rules (front ++ back) =
      turtle.read gait rules front ++ (turtle.after gait rules front).read gait rules back := by
  rw [read_eq_trace, List.map_append, trace_append, read_eq_trace, read_eq_trace, after]

theorem read_open (turtle : Turtle α) (word : Word) :
    turtle.read gait rules ('[' :: word) = (turtle.after gait rules ['[']).read gait rules word := by
  rw [read_eq_trace, List.map_cons, trace_cons, read_eq_trace]
  rfl

theorem read_close (turtle : Turtle α) (word : Word) :
    turtle.read gait rules (']' :: word) = (turtle.after gait rules [']']).read gait rules word := by
  rw [read_eq_trace, List.map_cons, trace_cons, read_eq_trace]
  rfl

/-! ### The saved poses -/

/-- Only the brackets touch the saved poses. -/
theorem branches_obey (hopen : symbol ≠ '[') (hclose : symbol ≠ ']') :
    (turtle.obey gait (gait.order rules symbol)).branches = turtle.branches := by
  rw [Gait.order, Gait.order?]
  split_ifs <;> rfl

/-- One symbol leaves alone the poses below those that it may close. -/
theorem obey_above {inner outer : List (Pose α)} (hbranches : turtle.branches = inner ++ outer)
    (hinner : symbol = ']' → 0 < inner.length) :
    ∃ above, (turtle.obey gait (gait.order rules symbol)).branches = above ++ outer ∧
      above.length + [symbol].count ']' = inner.length + [symbol].count '[' := by
  by_cases hopen : symbol = '['
  · subst hopen
    refine ⟨turtle.pose :: inner, ?_, by simp⟩
    rw [Gait.order_open, obey, hbranches, List.cons_append]
  by_cases hclose : symbol = ']'
  · subst hclose
    obtain ⟨saved, rest, rfl⟩ := List.exists_cons_of_length_pos (hinner rfl)
    refine ⟨rest, ?_, by simp⟩
    rw [Gait.order_close, obey, hbranches, List.cons_append]
  · refine ⟨inner, ?_, by simp [hopen, hclose]⟩
    rw [branches_obey gait rules hopen hclose, hbranches]

/-- A word leaves alone the poses below those that it may close. -/
theorem after_above {inner outer : List (Pose α)} {word : Word}
    (hbranches : turtle.branches = inner ++ outer) (hword : Word.Guarded inner.length word) :
    ∃ above, (turtle.after gait rules word).branches = above ++ outer ∧
      above.length + word.count ']' = inner.length + word.count '[' := by
  induction word generalizing turtle inner with
  | nil => exact ⟨inner, hbranches, rfl⟩
  | cons symbol word ih =>
      have hinner : symbol = ']' → 0 < inner.length := by
        rintro rfl
        exact hword.pos
      obtain ⟨middle, hmiddle, hlength⟩ := obey_above gait rules hbranches hinner
      obtain ⟨above, habove, hcount⟩ := ih hmiddle (hword.tail hlength)
      refine ⟨above, ?_, ?_⟩
      · rw [after_cons, habove]
      · rw [Word.count_cons_eq symbol ']' word, Word.count_cons_eq symbol '[' word]
        omega

/-- A balanced branch brings the turtle back to where it was, in every respect. -/
theorem after_branch (turtle : Turtle α) {detour : Word} (h : Word.Balanced detour) :
    turtle.after gait rules ('[' :: detour ++ [']']) = turtle := by
  set opened : Turtle α := ⟨turtle.pose, turtle.pose :: turtle.branches⟩
  have hopened : turtle.obey gait (gait.order rules '[') = opened := rfl
  have hbranches : opened.branches = [] ++ turtle.pose :: turtle.branches := rfl
  obtain ⟨above, habove, hcount⟩ := after_above gait rules hbranches h.guarded
  have hnone : above = [] := by
    rw [h.2, Nat.add_right_cancel_iff] at hcount
    exact List.length_eq_zero_iff.1 hcount
  subst hnone
  rw [List.cons_append, after_cons, hopened, after_append, after_cons, Gait.order_close, obey, habove]
  rfl

end Turtle

/-- **A balanced branch is a detour.** Wherever it stands, it puts its own segments, one for each symbol in
it that draws, between those drawn before and those drawn after, which are the same as without it. -/
theorem draw_detour (rules : Rulebook) (gait : Gait α) (before detour after : Word)
    (hgait : gait.check = .ok ()) (hdetour : Word.Balanced detour)
    (hroom : (before ++ '[' :: detour ++ ']' :: after).toFinset.card ≤ 65535) :
    ∃ front block back, draw rules gait before = .ok front ∧
      draw rules gait (before ++ after) = .ok (front ++ back) ∧
      draw rules gait (before ++ '[' :: detour ++ ']' :: after) = .ok (front ++ block ++ back) ∧
      block.length = detour.countP (gait.marks rules) := by
  have hdraw : ∀ word : Word, word ⊆ before ++ '[' :: detour ++ ']' :: after →
      draw rules gait word = .ok (Turtle.initial.read gait rules word) := by
    intro word hsubset
    have hcard := Finset.card_le_card fun symbol hsymbol =>
      List.mem_toFinset.2 (hsubset (List.mem_toFinset.1 hsymbol))
    rw [draw_eq, hgait]
    exact if_pos (hcard.trans hroom)
  set reached : Turtle α := Turtle.initial.after gait rules before
  set opened : Turtle α := reached.after gait rules ['[']
  have hreturn : (opened.after gait rules detour).after gait rules [']'] = reached := by
    rw [← Turtle.after_append, ← Turtle.after_append]
    exact Turtle.after_branch gait rules reached hdetour
  refine ⟨Turtle.initial.read gait rules before, opened.read gait rules detour,
    reached.read gait rules after, ?_, ?_, ?_, Turtle.length_read _ _ _ _⟩
  · exact hdraw before (by simp)
  · rw [hdraw (before ++ after) ?_, Turtle.read_append]
    intro symbol hsymbol
    simp only [List.mem_append, List.mem_cons] at hsymbol ⊢
    tauto
  · rw [hdraw _ (List.Subset.refl _), List.append_assoc, List.append_assoc, Turtle.read_append, List.cons_append,
      Turtle.read_open, Turtle.read_append, Turtle.read_close, hreturn]

/-- A branch within a branch, between brackets that have no partner, and a rule that draws. -/
theorem draw_detour_of_nested_branch :
    let rules := Rulebook.collect [('G', (Rule.rewriting ['G']).drawing)]
    let gait : Gait Float := ⟨60, 10, 'F', 'f', false⟩
    let detour := ['G', '[', '+', 'F', ']', 'f', 'F']
    Word.Balanced detour ∧ ∃ front block back, draw rules gait [']', '[', 'F'] = .ok front ∧
      draw rules gait ([']', '[', 'F'] ++ [']', '+', 'G']) = .ok (front ++ back) ∧
      draw rules gait ([']', '[', 'F'] ++ '[' :: detour ++ ']' :: [']', '+', 'G']) =
        .ok (front ++ block ++ back) ∧
      block.length = 3 := by
  intro rules gait detour
  have hgait : gait.check = .ok () := Gait.check_eq_ok.2 ⟨by decide, by decide, by decide⟩
  have hdetour : Word.Balanced detour := by decide
  obtain ⟨front, block, back, hfront, hwithout, hwith, hlength⟩ :=
    draw_detour rules gait [']', '[', 'F'] detour [']', '+', 'G'] hgait hdetour (by decide)
  have hcount : detour.countP (gait.marks rules) = 3 := by decide +kernel
  exact ⟨hdetour, front, block, back, hfront, hwithout, hwith, hlength.trans hcount⟩

end LSystem
