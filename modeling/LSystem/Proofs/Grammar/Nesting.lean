import LSystem.Proofs.Grammar.Balance
import LSystem.Proofs.Grammar.Rulebook

/-! Balance under growth. A step puts words in the place of symbols all over a word, within branches and outside
them, so balance alone is too little to carry along. What passes from symbols to words and from step to step is
that one word may stand for another: wherever the other closes no branch that is not open, neither does the one,
and it leaves as many open behind it. -/

namespace LSystem

namespace Word

variable {word other front back : Word} {depth after : Nat}

/-- A word is guarded if its first part is, and its second part by the branches that the first leaves open. -/
theorem guarded_append (hafter : after + front.count ']' = depth + front.count '[') :
    Guarded depth (front ++ back) ↔ Guarded depth front ∧ Guarded after back := by
  constructor
  · intro h
    constructor
    · intro part hpart
      exact h part (hpart.trans (List.prefix_append front back))
    · intro part hpart
      have hlonger := h (front ++ part) ((List.prefix_append_right_inj front).2 hpart)
      rw [List.count_append, List.count_append] at hlonger
      omega
  · rintro ⟨hfront, hback⟩ part hpart
    rcases List.prefix_or_prefix_of_prefix hpart (List.prefix_append front back) with hshort | ⟨rest, rfl⟩
    · exact hfront part hshort
    · have hrest := hback rest ((List.prefix_append_right_inj front).1 hpart)
      rw [List.count_append, List.count_append]
      omega

/-- What a guarded word closes was open. -/
theorem Guarded.exists_after (h : Guarded depth word) :
    ∃ after, after + word.count ']' = depth + word.count '[' :=
  ⟨depth + word.count '[' - word.count ']', Nat.sub_add_cancel (h word List.prefix_rfl)⟩

theorem balanced_iff_guarded : Balanced word ↔ Guarded 0 word ∧ word.count ']' = word.count '[' := by
  simp only [Balanced, Guarded, Nat.zero_add]

/-- With more branches open, a guarded word stays guarded. -/
theorem Guarded.mono (h : Guarded depth word) (hle : depth ≤ after) : Guarded after word := by
  intro front hfront
  have hless := h front hfront
  omega

/-- In the place of `other`, a word closes nothing that `other` could not have closed there, and it leaves as
many branches open. -/
structure StandsFor (word other : Word) : Prop where
  guarded : ∀ depth, Guarded depth other → Guarded depth word
  level : word.count ']' + other.count '[' = word.count '[' + other.count ']'

namespace StandsFor

theorem refl (word : Word) : StandsFor word word := ⟨fun _ h => h, Nat.add_comm _ _⟩

theorem trans {third : Word} (h : StandsFor word other) (h' : StandsFor other third) : StandsFor word third := by
  obtain ⟨hguarded, hlevel⟩ := h
  obtain ⟨hguarded', hlevel'⟩ := h'
  exact ⟨fun depth hthird => hguarded depth (hguarded' depth hthird), by omega⟩

/-- Parts may be replaced one by one. -/
theorem append {front' back' : Word} (hfront : StandsFor front front') (hback : StandsFor back back') :
    StandsFor (front ++ back) (front' ++ back') := by
  have hlevelFront := hfront.level
  have hlevelBack := hback.level
  constructor
  · intro depth h
    obtain ⟨after, hafter⟩ := Guarded.exists_after fun part hpart =>
      h part (hpart.trans (List.prefix_append front' back'))
    obtain ⟨hguardedFront, hguardedBack⟩ := (guarded_append hafter).1 h
    -- both fronts leave the same branches open, and the backs meet the same ones
    have hsame : after + front.count ']' = depth + front.count '[' := by omega
    exact (guarded_append hsame).2 ⟨hfront.guarded depth hguardedFront, hback.guarded after hguardedBack⟩
  · simp only [List.count_append]
    omega

theorem balanced (h : StandsFor word other) (hother : Balanced other) : Balanced word := by
  obtain ⟨hguarded, hcount⟩ := balanced_iff_guarded.1 hother
  have hlevel := h.level
  exact balanced_iff_guarded.2 ⟨h.guarded 0 hguarded, by omega⟩

end StandsFor

/-- A balanced word may stand for any symbol that is no bracket. -/
theorem Balanced.standsFor (h : Balanced word) {symbol : Char} (hopen : symbol ≠ '[') (hclose : symbol ≠ ']') :
    StandsFor word [symbol] where
  guarded depth _ := (balanced_iff_guarded.1 h).1.mono (Nat.zero_le depth)
  level := by
    rw [List.count_singleton, List.count_singleton, if_neg (by simpa using hopen), if_neg (by simpa using hclose)]
    exact (balanced_iff_guarded.1 h).2

end Word

namespace Rulebook

variable {book : Rulebook}

/-- The successors of all active rules are balanced. -/
def Nests (book : Rulebook) : Prop :=
  ∀ symbol rule, book.get? symbol = some rule → rule.active = true → Word.Balanced rule.successor

/-- Brackets have no rules, so what a step puts in the place of a symbol may stand for it. -/
theorem standsFor_image (hnests : book.Nests) (symbol : Char) :
    Word.StandsFor (book.image symbol) [symbol] := by
  cases hrule : book.get? symbol with
  | none =>
      rw [image_of_none hrule]
      exact .refl [symbol]
  | some rule =>
      rw [image_of_some hrule]
      split_ifs with hactive
      · obtain ⟨-, -, hopen, hclose⟩ := Symbol.isControl_eq_false_iff.1 (isControl_of_get? hrule)
        exact (hnests symbol rule hrule hactive).standsFor hopen hclose
      · exact .refl [symbol]

theorem standsFor_step (hnests : book.Nests) (word : Word) :
    Word.StandsFor (book.step word) word := by
  induction word with
  | nil => exact .refl []
  | cons symbol word ih =>
      rw [step_cons, ← List.singleton_append]
      exact (standsFor_image hnests symbol).append ih

theorem standsFor_generation (hnests : book.Nests) (n : Nat) (word : Word) :
    Word.StandsFor (book.generation n word) word := by
  induction n generalizing word with
  | zero => exact .refl word
  | succ n ih =>
      rw [generation_succ]
      exact (ih (book.step word)).trans (standsFor_step hnests word)

/-- **Growth keeps balance**, over any number of generations. -/
theorem balanced_generation (hnests : book.Nests) {start : Word} (hstart : Word.Balanced start) (n : Nat) :
    Word.Balanced (book.generation n start) :=
  (standsFor_generation hnests n start).balanced hstart

end Rulebook

end LSystem
