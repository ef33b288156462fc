import LSystem.Proofs.Plane.Gathering
import Mathlib.Data.List.ReduceOption
import Mathlib.Data.Prod.Lex
import Mathlib.Order.OrderIsoNat

/-! Fusion in place. The segments stand in slots, and a slot is emptied when its segment is taken. The first full slot
starts a strand, which then looks at the slots behind it one by one; whenever a piece has made it longer, it goes back
to the slot right behind the one that it started from. Going back costs a segment every time, so the scan comes to an
end, whatever is said of the segments that are compared (`scan_ends`). With the comparisons of the scalars it is
fusion. -/

namespace LSystem

/-- What is said of a strand and a segment in a slot behind it. -/
inductive Verdict (α : Type) where
  /-- The segment is the strand once more. -/
  | same
  /-- The segment makes the strand what is given here. -/
  | joins (longer : Segment α)
  | apart

/-- Where a scan stands. -/
inductive Stage (α : Type) where
  /-- A strand may start from this slot. -/
  | seek (place : Nat)
  /-- The strand that started from slot `first` looks at another one. -/
  | extend (first : Nat) (strand : Segment α) (place : Nat)

structure Scan (α : Type) where
  slots : List (Option (Segment α))
  /-- The strands that have come to their end. -/
  fused : List (Segment α)
  stage : Stage α

section Judge

variable {α : Type} [Scalar α]

/-- What the scalars say of a strand and a segment. -/
def Segment.judge (s t : Segment α) : Verdict α :=
  if t == s then .same else if s.meets t && s.parallel t then .joins (s.cover t) else .apart

theorem Segment.eq_cover_of_judge {s t longer : Segment α} (h : s.judge t = .joins longer) : longer = s.cover t := by
  unfold judge at h
  split_ifs at h
  exact (Verdict.joins.inj h).symm

/-- A round goes by the verdicts. -/
theorem Strand.round_cons (s t : Segment α) (pending : List (Segment α)) :
    round s (t :: pending) =
      match s.judge t with
      | .same => round s pending
      | .joins _ => (some t, pending)
      | .apart => ((round s pending).1, t :: (round s pending).2) := by
  rw [round, Segment.absorbs, Segment.judge]
  cases t == s <;> cases s.meets t && s.parallel t <;> rfl

end Judge

namespace Scan

/-- What a step leads to. -/
inductive Outcome (α : Type) where
  | ended
  /-- There is no such slot. -/
  | outside (place : Nat)
  | next (scan : Scan α)

variable {α : Type}

def start (segments : List (Segment α)) : Scan α := ⟨segments.map some, [], .seek 0⟩

/-- A verdict on the segment in a slot; what the strand takes leaves its slot empty. -/
def settle (slots : List (Option (Segment α))) (fused : List (Segment α)) (first : Nat) (strand : Segment α)
    (place : Nat) : Verdict α → Scan α
  | .same => ⟨slots.set place none, fused, .extend first strand (place + 1)⟩
  | .joins longer => ⟨slots.set place none, fused, .extend first longer (first + 1)⟩
  | .apart => ⟨slots, fused, .extend first strand (place + 1)⟩

/-- One step of a scan that had `count` segments at the start. A slot is only written to after it has been read. -/
def step (judge : Segment α → Segment α → Verdict α) (count : Nat) : Scan α → Outcome α
  | ⟨slots, fused, .seek place⟩ =>
      if place < count then
        match slots[place]? with
        | none => .outside place
        | some none => .next ⟨slots, fused, .seek (place + 1)⟩
        | some (some s) => .next ⟨slots.set place none, fused, .extend place s (place + 1)⟩
      else .ended
  | ⟨slots, fused, .extend first strand place⟩ =>
      if place < slots.length then
        match slots[place]? with
        | none => .outside place
        | some none => .next ⟨slots, fused, .extend first strand (place + 1)⟩
        | some (some piece) => .next (settle slots fused first strand place (judge strand piece))
      else .next ⟨slots, fused ++ [strand], .seek (first + 1)⟩

/-- A step, whatever is said of the two segments. -/
def Moves (count : Nat) (scan next : Scan α) : Prop := ∃ judge, scan.step judge count = .next next

/-! ### What a step does -/

/-- The segments that are still in the slots behind one. -/
def openBehind (slots : List (Option (Segment α))) (first : Nat) : Nat :=
  (slots.drop (first + 1)).countP Option.isSome

/-- The segments that a strand may still take, and the slots up to the end of the list. -/
def ahead (slots : List (Option (Segment α))) (first place : Nat) : Nat ×ₗ Nat :=
  toLex (openBehind slots first, slots.length - place)

variable {judge : Segment α → Segment α → Verdict α} {count first place : Nat} {s strand : Segment α}
  {slots : List (Option (Segment α))} {fused : List (Segment α)} {scan next : Scan α}

theorem openBehind_set (hplace : first < place) (hslot : slots[place]? = some (some s)) :
    openBehind (slots.set place none) first < openBehind slots first := by
  obtain ⟨hlt, hget⟩ := List.getElem?_eq_some_iff.1 hslot
  have hbehind : place - (first + 1) < (slots.drop (first + 1)).length := by
    rw [List.length_drop]
    omega
  have hfull : (slots.drop (first + 1))[place - (first + 1)] = some s := by
    rw [List.getElem_drop]
    simp only [Nat.add_sub_cancel' hplace, hget]
  have hpos : 0 < (slots.drop (first + 1)).countP Option.isSome :=
    List.countP_pos_iff.2 ⟨some s, hfull ▸ List.getElem_mem hbehind, rfl⟩
  rw [openBehind, openBehind, List.drop_set, if_neg (by omega), List.countP_set hbehind, hfull]
  simp only [Option.isSome_some, Option.isSome_none, if_true, Bool.false_eq_true, if_false]
  omega

theorem ahead_succ (hplace : place < slots.length) : ahead slots first (place + 1) < ahead slots first place :=
  Prod.Lex.toLex_lt_toLex.2 (Or.inr ⟨rfl, by show slots.length - (place + 1) < slots.length - place; omega⟩)

theorem ahead_set (hplace : first < place) (hslot : slots[place]? = some (some s)) (place' : Nat) :
    ahead (slots.set place none) first place' < ahead slots first place :=
  Prod.Lex.toLex_lt_toLex.2 (Or.inl (openBehind_set hplace hslot))

/-- Whatever the verdict, the strand goes on with less ahead of it. -/
theorem settle_eq (hplace : first < place) (hslot : slots[place]? = some (some s)) (verdict : Verdict α) :
    ∃ slots' strand' place',
      settle slots fused first strand place verdict = ⟨slots', fused, .extend first strand' place'⟩ ∧ first < place' ∧
      slots'.length = slots.length ∧ ahead slots' first place' < ahead slots first place := by
  have hlt : place < slots.length := (List.getElem?_eq_some_iff.1 hslot).1
  have hsucc : first < place + 1 := by omega
  cases verdict with
  | same => exact ⟨_, _, _, rfl, hsucc, List.length_set .., ahead_set hplace hslot _⟩
  | joins longer => exact ⟨_, _, _, rfl, Nat.lt_succ_self _, List.length_set .., ahead_set hplace hslot _⟩
  | apart => exact ⟨_, _, _, rfl, hsucc, rfl, ahead_succ hlt⟩

/-- A strand that looks for pieces goes on with less ahead of it, or it has come to the end of the list. -/
theorem step_extend (hplace : first < place)
    (h : step judge count ⟨slots, fused, .extend first strand place⟩ = .next next) :
    (∃ slots' strand' place', next = ⟨slots', fused, .extend first strand' place'⟩ ∧ first < place' ∧
        slots'.length = slots.length ∧ ahead slots' first place' < ahead slots first place) ∨
      next = ⟨slots, fused ++ [strand], .seek (first + 1)⟩ := by
  rw [step] at h
  split_ifs at h with hlt
  · left
    cases hslot : slots[place]? with
    | none =>
        rw [hslot] at h
        cases h
    | some slot =>
        rw [hslot] at h
        cases slot with
        | none =>
            obtain rfl := Outcome.next.inj h
            exact ⟨_, _, _, rfl, by omega, rfl, ahead_succ hlt⟩
        | some piece =>
            obtain rfl := Outcome.next.inj h
            exact settle_eq hplace hslot _
  · exact Or.inr (Outcome.next.inj h).symm

theorem step_seek (h : step judge count ⟨slots, fused, .seek place⟩ = .next next) :
    place < count ∧ (next = ⟨slots, fused, .seek (place + 1)⟩ ∨
      ∃ s, next = ⟨slots.set place none, fused, .extend place s (place + 1)⟩) := by
  rw [step] at h
  split_ifs at h with hlt
  refine ⟨hlt, ?_⟩
  cases hslot : slots[place]? with
  | none =>
      rw [hslot] at h
      cases h
  | some slot =>
      rw [hslot] at h
      cases slot with
      | none => exact Or.inl (Outcome.next.inj h).symm
      | some s => exact Or.inr ⟨s, (Outcome.next.inj h).symm⟩

/-! ### Runs -/

/-- The slots are as many as the segments were, and a strand only looks behind the slot that it started from. -/
structure Sound (count : Nat) (scan : Scan α) : Prop where
  length_slots : scan.slots.length = count
  behind : ∀ first strand place, scan.stage = .extend first strand place → first < count ∧ first < place

theorem sound_start (segments : List (Segment α)) : Sound segments.length (start segments) :=
  ⟨List.length_map _, fun _ _ _ h => by cases h⟩

theorem Sound.moves (h : Sound count scan) (hmoves : Moves count scan next) : Sound count next := by
  obtain ⟨judge, hstep⟩ := hmoves
  obtain ⟨slots, fused, stage⟩ := scan
  obtain ⟨hlength, hbehind⟩ := h
  cases stage with
  | seek place =>
      obtain ⟨hlt, rfl | ⟨s, rfl⟩⟩ := step_seek hstep
      · exact ⟨hlength, fun _ _ _ h => by cases h⟩
      · refine ⟨(List.length_set ..).trans hlength, fun _ _ _ h => ?_⟩
        cases h
        exact ⟨hlt, Nat.lt_succ_self _⟩
  | extend first strand place =>
      obtain ⟨hfirst, hplace⟩ := hbehind _ _ _ rfl
      obtain ⟨slots', strand', place', rfl, hplace', hlength', -⟩ | rfl := step_extend hplace hstep
      · refine ⟨hlength'.trans hlength, fun _ _ _ h => ?_⟩
        cases h
        exact ⟨hfirst, hplace'⟩
      · exact ⟨hlength, fun _ _ _ h => by cases h⟩

/-- There is a slot at every place that is looked at. -/
theorem Sound.step_ne_outside (h : Sound count scan) (judge : Segment α → Segment α → Verdict α) (place : Nat) :
    scan.step judge count ≠ .outside place := by
  obtain ⟨slots, fused, stage⟩ := scan
  have hlength : slots.length = count := h.length_slots
  intro hstep
  cases stage with
  | seek place =>
      rw [step] at hstep
      split_ifs at hstep with hlt
      rw [List.getElem?_eq_getElem (hlength ▸ hlt)] at hstep
      cases hslot : slots[place] <;> rw [hslot] at hstep <;> cases hstep
  | extend first strand place =>
      rw [step] at hstep
      split_ifs at hstep with hlt
      rw [List.getElem?_eq_getElem hlt] at hstep
      cases hslot : slots[place] <;> rw [hslot] at hstep <;> cases hstep

/-- How much of a scan is left: first the slots that a strand may start from, then what is ahead of the strand. -/
def left (count : Nat) (scan : Scan α) : Nat ×ₗ Nat ×ₗ Nat :=
  match scan.stage with
  | .seek place => toLex (2 * (count - place), toLex (0, 0))
  | .extend first _ place => toLex (2 * (count - first) - 1, ahead scan.slots first place)

theorem left_lt (h : Sound count scan) (hmoves : Moves count scan next) : next.left count < scan.left count := by
  obtain ⟨judge, hstep⟩ := hmoves
  obtain ⟨slots, fused, stage⟩ := scan
  cases stage with
  | seek place =>
      obtain ⟨hlt, rfl | ⟨s, rfl⟩⟩ := step_seek hstep
      · refine Prod.Lex.toLex_lt_toLex.2 (Or.inl ?_)
        show 2 * (count - (place + 1)) < 2 * (count - place)
        omega
      · refine Prod.Lex.toLex_lt_toLex.2 (Or.inl ?_)
        show 2 * (count - place) - 1 < 2 * (count - place)
        omega
  | extend first strand place =>
      obtain ⟨hfirst, hplace⟩ := h.behind _ _ _ rfl
      obtain ⟨slots', strand', place', rfl, -, -, hahead⟩ | rfl := step_extend hplace hstep
      · exact Prod.Lex.toLex_lt_toLex.2 (Or.inr ⟨rfl, hahead⟩)
      · refine Prod.Lex.toLex_lt_toLex.2 (Or.inl ?_)
        show 2 * (count - (first + 1)) < 2 * (count - first) - 1
        omega

open Relation

theorem sound_of_moves {segments : List (Segment α)}
    (h : ReflTransGen (Moves segments.length) (start segments) scan) : Sound segments.length scan := by
  induction h with
  | refl => exact sound_start segments
  | tail _ hmoves ih => exact ih.moves hmoves

/-- No scan goes on for ever. -/
theorem not_forall_moves (segments : List (Segment α)) (run : Nat → Scan α) (hstart : run 0 = start segments) :
    ¬∀ n, Moves segments.length (run n) (run (n + 1)) := by
  intro hmoves
  have hsound : ∀ n, Sound segments.length (run n) := by
    intro n
    induction n with
    | zero =>
        rw [hstart]
        exact sound_start segments
    | succ n ih => exact ih.moves (hmoves n)
  exact not_strictAnti_of_wellFoundedLT (fun n => (run n).left segments.length)
    (strictAnti_nat_of_succ_lt fun n => left_lt (hsound n) (hmoves n))

/-! ### The scan and the rounds -/

variable {front rest : List (Option (Segment α))} {piece : Segment α}

theorem step_end (hplace : slots.length = place) :
    step judge count ⟨slots, fused, .extend first strand place⟩ =
      .next ⟨slots, fused ++ [strand], .seek (first + 1)⟩ := by
  rw [step, if_neg (by omega)]

theorem step_empty (hplace : front.length = place) :
    step judge count ⟨front ++ none :: rest, fused, .extend first strand place⟩ =
      .next ⟨front ++ none :: rest, fused, .extend first strand (place + 1)⟩ := by
  rw [step, if_pos (by simp [hplace])]
  simp [← hplace]

theorem step_full {verdict : Verdict α} (hplace : front.length = place) (hjudge : judge strand piece = verdict) :
    step judge count ⟨front ++ some piece :: rest, fused, .extend first strand place⟩ =
      .next (settle (front ++ some piece :: rest) fused first strand place verdict) := by
  rw [step, if_pos (by simp [← hplace])]
  simp [← hplace, hjudge]

theorem step_seek_empty (hplace : front.length = place) (hlt : place < count) :
    step judge count ⟨front ++ none :: rest, fused, .seek place⟩ =
      .next ⟨front ++ none :: rest, fused, .seek (place + 1)⟩ := by
  rw [step, if_pos hlt]
  simp [← hplace]

theorem step_seek_full (hplace : front.length = place) (hlt : place < count) :
    step judge count ⟨front ++ some piece :: rest, fused, .seek place⟩ =
      .next ⟨front ++ none :: rest, fused, .extend place piece (place + 1)⟩ := by
  rw [step, if_pos hlt]
  simp [← hplace]

theorem set_front (hplace : front.length = place) :
    (front ++ some piece :: rest).set place none = front ++ none :: rest := by
  simp [← hplace]

variable [Scalar α]

/-- The scan with the comparisons of the scalars. -/
def Runs (count : Nat) : Scan α → Scan α → Prop :=
  ReflTransGen fun scan next => scan.step Segment.judge count = .next next

/-- Where a round leaves the scan: a strand that has become longer looks at all slots again, any other is at its end. -/
def resume (slots : List (Option (Segment α))) (fused : List (Segment α)) (first : Nat) (strand : Segment α) :
    Option (Segment α) → Scan α
  | none => ⟨slots, fused ++ [strand], .seek (first + 1)⟩
  | some piece => ⟨slots, fused, .extend first (strand.cover piece) (first + 1)⟩

theorem runs_round (count first : Nat) (strand : Segment α) (fused : List (Segment α))
    (hplace : front.length = place) (rest : List (Option (Segment α))) :
    ∃ rest', rest'.length = rest.length ∧ rest'.reduceOption = (Strand.round strand rest.reduceOption).2 ∧
      Runs count ⟨front ++ rest, fused, .extend first strand place⟩
        (resume (front ++ rest') fused first strand (Strand.round strand rest.reduceOption).1) := by
  induction rest generalizing front place with
  | nil =>
      refine ⟨[], rfl, rfl, .single (step_end ?_)⟩
      rw [List.append_nil, hplace]
  | cons slot rest ih =>
      have hbehind : ∀ slot : Option (Segment α), (front ++ [slot]).length = place + 1 := fun slot => by
        rw [List.length_append, hplace, List.length_singleton]
      cases slot with
      | none =>
          obtain ⟨rest', hlength, hleft, hruns⟩ := ih (hbehind none)
          rw [List.append_assoc, List.append_assoc] at hruns
          exact ⟨none :: rest', congrArg (· + 1) hlength, hleft, .head (step_empty hplace) hruns⟩
      | some piece =>
          rw [List.reduceOption_cons_of_some, Strand.round_cons]
          cases hjudge : strand.judge piece with
          | same =>
              obtain ⟨rest', hlength, hleft, hruns⟩ := ih (hbehind none)
              rw [List.append_assoc, List.append_assoc] at hruns
              refine ⟨none :: rest', congrArg (· + 1) hlength, hleft, .head (step_full hplace hjudge) ?_⟩
              rw [settle, set_front hplace]
              exact hruns
          | joins longer =>
              obtain rfl := Segment.eq_cover_of_judge hjudge
              refine ⟨none :: rest, rfl, rfl, .head (step_full hplace hjudge) ?_⟩
              rw [settle, set_front hplace]
              exact .refl
          | apart =>
              obtain ⟨rest', hlength, hleft, hruns⟩ := ih (hbehind (some piece))
              rw [List.append_assoc, List.append_assoc] at hruns
              refine ⟨some piece :: rest', congrArg (· + 1) hlength, ?_, .head (step_full hplace hjudge) hruns⟩
              rw [List.reduceOption_cons_of_some, hleft]

/-- A strand scans until it has gathered all that it can. -/
theorem runs_gather (count : Nat) (strand : Strand α) (fused : List (Segment α)) (hplace : front.length = first + 1)
    (rest : List (Option (Segment α))) :
    ∃ rest', rest'.length = rest.length ∧ rest'.reduceOption = (strand.gather rest.reduceOption).2 ∧
      Runs count ⟨front ++ rest, fused, .extend first strand.segment (first + 1)⟩
        ⟨front ++ rest', fused ++ [(strand.gather rest.reduceOption).1.segment], .seek (first + 1)⟩ := by
  generalize hpending : rest.reduceOption = pending
  fun_induction Strand.gather strand pending generalizing rest with
  | case1 strand pending _ left hround =>
      obtain ⟨rest', hlength, hleft, hruns⟩ := runs_round count first strand.segment fused hplace rest
      rw [hpending, hround] at hleft hruns
      exact ⟨rest', hlength, hleft, hruns⟩
  | case2 strand pending _ piece left hround _ ih =>
      obtain ⟨rest', hlength, hleft, hruns⟩ := runs_round count first strand.segment fused hplace rest
      rw [hpending, hround] at hleft hruns
      obtain ⟨rest'', hlength', hleft', hruns'⟩ := ih rest' hleft
      exact ⟨rest'', hlength'.trans hlength, hleft', hruns.trans hruns'⟩
  | case3 strand pending hany =>
      obtain ⟨rest', hlength, hleft, hruns⟩ := runs_round count first strand.segment fused hplace rest
      rw [hpending, Strand.round_of_not_any (by simpa using hany)] at hleft hruns
      exact ⟨rest', hlength, hleft, hruns⟩

/-- From a slot that a strand may start from, the scan comes to its end with the strands of what is in the slots. -/
theorem runs_strands {count : Nat} (fused : List (Segment α)) (hplace : front.length = place)
    (hcount : place + rest.length = count) :
    ∃ scan, Runs count ⟨front ++ rest, fused, .seek place⟩ scan ∧ scan.step Segment.judge count = .ended ∧
      scan.fused = fused ++ (strands rest.reduceOption).map (·.segment) := by
  -- The slots behind a strand are not the tail of those that it started from, but they are as many.
  induction hlength : rest.length generalizing front rest place fused with
  | zero =>
      obtain rfl := List.length_eq_zero_iff.1 hlength
      refine ⟨_, .refl, ?_, ?_⟩
      · rw [step, if_neg (by omega)]
      · rw [List.reduceOption_nil, strands]
        exact (List.append_nil fused).symm
  | succ length ih =>
      obtain ⟨slot, rest, rfl⟩ := List.exists_cons_of_length_eq_add_one hlength
      rw [List.length_cons] at hcount hlength
      have hbehind : (front ++ [none]).length = place + 1 := by
        rw [List.length_append, hplace, List.length_singleton]
      cases slot with
      | none =>
          obtain ⟨scan, hruns, hended, hfused⟩ := ih fused hbehind (by omega) (Nat.succ.inj hlength)
          rw [List.append_assoc] at hruns
          exact ⟨scan, .head (step_seek_empty hplace (by omega)) hruns, hended, hfused⟩
      | some s =>
          obtain ⟨rest', hlength', hleft, hgather⟩ := runs_gather count (Strand.single s) fused hbehind rest
          obtain ⟨scan, hruns, hended, hfused⟩ :=
            ih (fused ++ [((Strand.single s).gather rest.reduceOption).1.segment]) hbehind (by omega)
              (hlength'.trans (Nat.succ.inj hlength))
          rw [List.append_assoc] at hgather
          refine ⟨scan, .head (step_seek_full hplace (by omega)) (hgather.trans hruns), hended, ?_⟩
          rw [hfused, hleft, List.reduceOption_cons_of_some, strands, List.map_cons, List.append_assoc]
          rfl

end Scan

open Scan Relation

/-- **Fusion comes to an end in place, whatever the comparisons say.** A scan that has come about by any verdicts looks
at no place where there is no slot; and when a strand that has looked at one slot looks at another, there are fewer
segments left in the slots behind the one that it started from, or as many of them and fewer slots up to the end of the
list. So no scan goes on for ever. With the verdicts of the scalars it ends with the fused segments. -/
theorem scan_ends {α : Type} [Scalar α] (segments : List (Segment α)) :
    (∀ scan, ReflTransGen (Moves segments.length) (start segments) scan →
      (∀ judge place, scan.step judge segments.length ≠ .outside place) ∧
        ∀ next first strand place first' strand' place', Moves segments.length scan next →
          scan.stage = .extend first strand place → next.stage = .extend first' strand' place' →
            first' = first ∧
              toLex ((next.slots.drop (first + 1)).countP Option.isSome, next.slots.length - place') <
                toLex ((scan.slots.drop (first + 1)).countP Option.isSome, scan.slots.length - place)) ∧
      (∀ run : Nat → Scan α, run 0 = start segments → ¬∀ n, Moves segments.length (run n) (run (n + 1))) ∧
      ∀ limit, segments.length ≤ limit → ∃ scan,
        ReflTransGen (fun scan next => scan.step Segment.judge segments.length = .next next) (start segments) scan ∧
          scan.step Segment.judge segments.length = .ended ∧ scan.fused = fuse limit segments := by
  refine ⟨fun scan hscan => ⟨(sound_of_moves hscan).step_ne_outside, ?_⟩, not_forall_moves segments, ?_⟩
  · rintro next first strand place first' strand' place' ⟨judge, hstep⟩ hstage hnext
    obtain ⟨slots, fused, stage⟩ := scan
    obtain rfl := hstage
    obtain ⟨-, hplace⟩ := (sound_of_moves hscan).behind _ _ _ rfl
    obtain ⟨slots', other, place'', rfl, -, -, hahead⟩ | rfl := step_extend hplace hstep
    · cases hnext
      exact ⟨rfl, hahead⟩
    · cases hnext
  · intro limit hlimit
    have hfront : ([] : List (Option (Segment α))).length = 0 := rfl
    have hcount : 0 + (segments.map some).length = segments.length := by rw [Nat.zero_add, List.length_map]
    obtain ⟨scan, hruns, hended, hfused⟩ := runs_strands [] hfront hcount
    have hslots : (segments.map some).reduceOption = segments := by
      rw [List.reduceOption, List.filterMap_map]
      exact List.filterMap_some
    rw [hslots] at hfused
    refine ⟨scan, hruns, hended, hfused.trans ?_⟩
    rw [fuse, if_neg (Nat.not_lt.2 hlimit)]
    rfl

end LSystem
