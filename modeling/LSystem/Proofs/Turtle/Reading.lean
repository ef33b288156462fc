import LSystem.Proofs.Turtle.Legend
import LSystem.Scalar.Binary
import LSystem.Turtle.Drawing

/-! A turtle that reads a word symbol by symbol, without codes and without a legend. Drawing a word
gives what this turtle draws (`draw_eq`): the codes tell the symbols of the word apart, and the legend
has for each code the command that the symbol stands for. -/

namespace LSystem

variable {α : Type} [Scalar α]

/-- The command that a symbol stands for; most symbols stand for none and are passed over. -/
def Gait.order (gait : Gait α) (rules : Rulebook) (symbol : Char) : Command α :=
  (gait.order? rules symbol).getD .ignore

theorem Gait.check_eq_ok {gait : Gait α} :
    gait.check = .ok () ↔ Scalar.isFinite gait.angle = true ∧ Scalar.isFinite gait.length = true ∧
      ¬gait.length ≤ 0 := by
  unfold Gait.check
  by_cases hangle : Scalar.isFinite gait.angle = true <;>
    by_cases hlength : Scalar.isFinite gait.length = true <;>
      by_cases hpositive : gait.length ≤ 0 <;> simp [hangle, hlength, hpositive]

/-- The command leaves a segment behind. -/
def Command.marks : Command α → Bool
  | .draw => true
  | _ => false

/-- The symbol stands for a command that leaves a segment behind. -/
def Gait.marks (gait : Gait α) (rules : Rulebook) (symbol : Char) : Bool :=
  (gait.order rules symbol).marks

theorem Gait.marks_iff {gait : Gait α} {rules : Rulebook} {symbol : Char} :
    gait.marks rules symbol = true ↔
      Symbol.isControl symbol = false ∧ symbol ≠ gait.moveSymbol ∧
        (symbol = gait.drawSymbol ∨ rules.draws symbol = true) := by
  rw [Gait.marks, Gait.order, Gait.order?, Symbol.isControl_eq_false_iff]
  split_ifs <;> simp_all [Command.marks]

/-- The commands for the codes of a word are the ones that its symbols stand for. -/
theorem map_command_enter {book : Codebook} {seen : List Char} (hbook : book.Lists seen)
    (gait : Gait α) (rules : Rulebook) {word : Word} (hword : ∀ symbol ∈ word, symbol ∈ seen) :
    (word.map seen.idxOf).map (Legend.empty.enter gait rules book).command =
      word.map (gait.order rules) := by
  rw [List.map_map]
  apply List.map_congr_left
  intro symbol hsymbol
  have hcode := hbook.code?_of_mem (hword symbol hsymbol)
  rw [Function.comp_apply, Legend.command_enter hbook.unambiguous hcode]
  rfl

/-- A word that can be coded has codes for which the legend has the commands that its symbols stand for. -/
theorem exists_codes (rules : Rulebook) (gait : Gait α) {word : Word}
    (hroom : word.toFinset.card ≤ SymbolTable.capacity) :
    ∃ codes book, Codebook.empty.encode word = (some codes, book) ∧
      codes.map (Legend.empty.enter gait rules book).command = word.map (gait.order rules) := by
  obtain ⟨book, hencode, hbook⟩ := Codebook.encode_of_room hroom
  have hword : ∀ symbol ∈ word, symbol ∈ SymbolTable.listing [] word := by
    intro symbol hsymbol
    exact SymbolTable.mem_listing.2 (Or.inr hsymbol)
  exact ⟨_, book, hencode, map_command_enter hbook gait rules hword⟩

variable [Compass α]

namespace Turtle

/-- The segments that a turtle draws on reading a word. -/
def read (gait : Gait α) (rules : Rulebook) (turtle : Turtle α) : Word → List (Segment α)
  | [] => []
  | symbol :: word =>
    if symbol = '+' then
      read gait rules ⟨turtle.pose.turn (Compass.ofDegrees gait.angle * 1), turtle.branches⟩ word
    else if symbol = '-' then
      read gait rules ⟨turtle.pose.turn (Compass.ofDegrees gait.angle * -1), turtle.branches⟩ word
    else if symbol = '[' then
      read gait rules ⟨turtle.pose, turtle.pose :: turtle.branches⟩ word
    else if symbol = ']' then
      match turtle.branches with
      | [] => read gait rules turtle word
      | saved :: outer => read gait rules ⟨saved, outer⟩ word
    else if symbol = gait.moveSymbol then
      read gait rules ⟨turtle.pose.advance gait.length gait.whole, turtle.branches⟩ word
    else if symbol = gait.drawSymbol ∨ rules.draws symbol = true then
      ⟨turtle.pose.position, (turtle.pose.advance gait.length gait.whole).position⟩ ::
        read gait rules ⟨turtle.pose.advance gait.length gait.whole, turtle.branches⟩ word
    else
      read gait rules turtle word

/-- Reading a word is obeying the commands that its symbols stand for. -/
theorem read_eq_trace (gait : Gait α) (rules : Rulebook) (turtle : Turtle α) (word : Word) :
    turtle.read gait rules word = turtle.trace gait (word.map (gait.order rules)) := by
  induction word generalizing turtle with
  | nil => rfl
  | cons symbol word ih =>
      rw [List.map_cons, trace_cons, read, Gait.order, Gait.order?]
      by_cases hleft : symbol = '+'
      · rw [if_pos hleft, if_pos hleft]
        exact ih _
      rw [if_neg hleft, if_neg hleft]
      by_cases hright : symbol = '-'
      · rw [if_pos hright, if_pos hright]
        exact ih _
      rw [if_neg hright, if_neg hright]
      by_cases hpush : symbol = '['
      · rw [if_pos hpush, if_pos hpush]
        exact ih _
      rw [if_neg hpush, if_neg hpush]
      by_cases hpop : symbol = ']'
      · rw [if_pos hpop, if_pos hpop]
        cases turtle with
        | mk pose branches => cases branches <;> exact ih _
      rw [if_neg hpop, if_neg hpop]
      by_cases hmove : symbol = gait.moveSymbol
      · rw [if_pos hmove, if_pos hmove]
        exact ih _
      rw [if_neg hmove, if_neg hmove]
      by_cases hdraw : symbol = gait.drawSymbol
      · rw [if_pos hdraw, if_pos (Or.inl hdraw)]
        exact congrArg _ (ih _)
      rw [if_neg hdraw]
      by_cases hrule : rules.draws symbol = true
      · rw [if_pos hrule, if_pos (Or.inr hrule)]
        exact congrArg _ (ih _)
      · rw [if_neg hrule, if_neg (not_or.2 ⟨hdraw, hrule⟩)]
        exact ih _

/-! ### What leaves segments behind -/

theorem length_trace (gait : Gait α) (turtle : Turtle α) (commands : List (Command α)) :
    (turtle.trace gait commands).length = commands.countP Command.marks := by
  induction commands generalizing turtle with
  | nil => rfl
  | cons command commands ih =>
      rw [trace_cons, List.length_append, ih, List.countP_cons, Nat.add_comm]
      cases command <;> rfl

theorem length_read (gait : Gait α) (rules : Rulebook) (turtle : Turtle α) (word : Word) :
    (turtle.read gait rules word).length = word.countP (gait.marks rules) := by
  rw [read_eq_trace, length_trace, List.countP_map]
  rfl

end Turtle

/-! ### Drawing -/

/-- A word that can be coded is drawn as it is read; any other word is refused. -/
theorem draw_eq (rules : Rulebook) (gait : Gait α) (word : Word) :
    draw rules gait word = gait.check >>= fun _ =>
      if word.toFinset.card ≤ SymbolTable.capacity then .ok (Turtle.initial.read gait rules word)
      else .error .codesExhausted := by
  rw [draw]
  refine bind_congr fun _ => ?_
  by_cases hroom : word.toFinset.card ≤ SymbolTable.capacity
  · obtain ⟨codes, book, hencode, hcommands⟩ := exists_codes rules gait hroom
    rw [if_pos hroom, hencode, Turtle.read_eq_trace, ← hcommands]
    rfl
  · have hencode := Codebook.encode_of_full (not_le.1 hroom)
    rw [if_neg hroom]
    cases hpair : Codebook.empty.encode word with
    | mk codes book =>
        rw [hpair] at hencode
        subst hencode
        rfl

/-- A rulebook counts in a drawing only for whether it draws the symbols of the word. -/
theorem draw_congr {rules other : Rulebook} (gait : Gait α) {word : Word}
    (h : ∀ symbol ∈ word, rules.draws symbol = other.draws symbol) :
    draw rules gait word = draw other gait word := by
  have horder : word.map (gait.order rules) = word.map (gait.order other) := by
    apply List.map_congr_left
    intro symbol hsymbol
    rw [Gait.order, Gait.order, Gait.order?, Gait.order?, h symbol hsymbol]
  rw [draw_eq, draw_eq, Turtle.read_eq_trace, Turtle.read_eq_trace, horder]

/-- **Drawing is reading.** With gait and word within the limits, the codes and the legend between a word
and its drawing leave no trace in it. -/
theorem draw_eq_read (rules : Rulebook) (gait : Gait α) (word : Word) (hgait : gait.check = .ok ())
    (hroom : word.toFinset.card ≤ 65535) :
    draw rules gait word = .ok (Turtle.initial.read gait rules word) := by
  rw [draw_eq, hgait]
  exact if_pos hroom

/-- A move symbol that turns all the same, a rule that draws, a branch that is not open. -/
theorem draw_eq_read_of_turning_move :
    draw (.collect [('X', (Rule.rewriting ['X']).drawing)]) (⟨90, 10, 'F', '+', true⟩ : Gait Float)
        ['F', '+', 'X', ']', 'F'] =
      .ok (Turtle.initial.read ⟨90, 10, 'F', '+', true⟩
        (.collect [('X', (Rule.rewriting ['X']).drawing)]) ['F', '+', 'X', ']', 'F']) :=
  draw_eq_read _ _ _ rfl (by decide)

end LSystem
