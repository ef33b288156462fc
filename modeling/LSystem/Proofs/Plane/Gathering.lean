import LSystem.Plane.Fusion
import Mathlib.Logic.Relation
import Mathlib.Tactic.SplitIfs

/-! How a strand comes about, whatever the comparisons of the scalars say: segments are taken out of
the pending ones, one at a time. Each is equal to the running segment and dropped, or else meets it
and has its slope and is covered together with it. The strand ends when none of the pending segments
can be taken. An invariant of one such step is an invariant of strands (`gather_takes`). -/

namespace LSystem

variable {α : Type} [Scalar α]

namespace Strand

/-- One segment is taken out of the pending ones. -/
inductive Takes : Segment α × List (Segment α) → Segment α × List (Segment α) → Prop
  | drop {s t : Segment α} (front back : List (Segment α)) (heq : (t == s) = true) :
      Takes (s, front ++ t :: back) (s, front ++ back)
  | fold {s t : Segment α} (front back : List (Segment α)) (hne : (t == s) = false)
      (hmeets : s.meets t = true) (hparallel : s.parallel t = true) :
      Takes (s, front ++ t :: back) (s.cover t, front ++ back)

open Relation

theorem Takes.cons {s s' : Segment α} {pending left : List (Segment α)} (t : Segment α)
    (h : Takes (s, pending) (s', left)) : Takes (s, t :: pending) (s', t :: left) := by
  cases h with
  | drop front back heq => exact Takes.drop (t :: front) back heq
  | fold front back hne hmeets hparallel => exact Takes.fold (t :: front) back hne hmeets hparallel

theorem takes_cons {state state' : Segment α × List (Segment α)} (t : Segment α)
    (h : ReflTransGen Takes state state') :
    ReflTransGen Takes (state.1, t :: state.2) (state'.1, t :: state'.2) :=
  h.lift (fun state : Segment α × List (Segment α) => (state.1, t :: state.2)) fun _ _ => Takes.cons t

/-- A step takes one piece, and does so wherever the piece stands. -/
theorem Takes.exists_piece {state state' : Segment α × List (Segment α)} (h : Takes state state') :
    ∃ front piece back, state.2 = front ++ piece :: back ∧ state'.2 = front ++ back ∧
      ∀ others, Takes (state.1, piece :: others) (state'.1, others) := by
  cases h with
  | @drop s t front back heq => exact ⟨front, t, back, rfl, rfl, fun others => Takes.drop [] others heq⟩
  | @fold s t front back hne hmeets hparallel =>
      exact ⟨front, t, back, rfl, rfl, fun others => Takes.fold [] others hne hmeets hparallel⟩

/-- What is left keeps its order. -/
theorem Takes.sublist {state state' : Segment α × List (Segment α)} (h : Takes state state') :
    state'.2.Sublist state.2 := by
  obtain ⟨front, piece, back, hpending, hleft, -⟩ := h.exists_piece
  rw [hpending, hleft]
  exact (List.sublist_cons_self piece back).append_left front

theorem takes_sublist {state state' : Segment α × List (Segment α)} (h : ReflTransGen Takes state state') :
    state'.2.Sublist state.2 := by
  induction h with
  | refl => exact List.Sublist.refl _
  | tail _ htake ih => exact htake.sublist.trans ih

theorem absorbs_iff {s t : Segment α} :
    s.absorbs t = true ↔ (t == s) = true ∨ s.meets t = true ∧ s.parallel t = true := by
  simp [Segment.absorbs]

/-- A round drops segments and then takes the one that it returns, if there is one. -/
theorem round_takes (s : Segment α) (pending : List (Segment α)) :
    ReflTransGen Takes (s, pending)
      (((round s pending).1.map s.cover).getD s, (round s pending).2) := by
  induction pending with
  | nil => exact .refl
  | cons t pending ih =>
      unfold round
      split_ifs with habsorbs heq
      · exact ReflTransGen.head (Takes.drop [] pending heq) ih
      · have hfold := (absorbs_iff.1 habsorbs).resolve_left heq
        exact .single (Takes.fold [] pending (by simpa using heq) hfold.1 hfold.2)
      · exact takes_cons t ih

/-! ### One round after the other -/

theorem gather_of_round_none {strand : Strand α} {pending left : List (Segment α)}
    (h : round strand.segment pending = (none, left)) : strand.gather pending = (strand, left) := by
  rw [gather]
  split_ifs with hany
  · split
    · next left' h' => rw [h, Prod.mk.injEq] at h'; rw [h'.2]
    · next piece left' h' => rw [h] at h'; cases h'
  · rw [round_of_not_any (by simpa using hany), Prod.mk.injEq] at h
    rw [h.2]

theorem gather_of_round_some {strand : Strand α} {piece : Segment α} {pending left : List (Segment α)}
    (h : round strand.segment pending = (some piece, left)) :
    strand.gather pending = (strand.fold piece).gather left := by
  rw [gather]
  split_ifs with hany
  · split
    · next left' h' => rw [h] at h'; cases h'
    · next piece' left' h' =>
        rw [h, Prod.mk.injEq, Option.some_inj] at h'
        rw [h'.1, h'.2]
  · rw [round_of_not_any (by simpa using hany)] at h
    cases h

/-- Gathering takes segments one by one. -/
theorem gather_takes (strand : Strand α) (pending : List (Segment α)) :
    ReflTransGen Takes (strand.segment, pending)
      ((strand.gather pending).1.segment, (strand.gather pending).2) := by
  fun_induction gather strand pending with
  | case1 strand pending _ left h =>
      have hround := round_takes strand.segment pending
      rwa [h] at hround
  | case2 strand pending _ piece left h _ ih =>
      have hround := round_takes strand.segment pending
      rw [h] at hround
      exact hround.trans ih
  | case3 => exact .refl

/-! ### What is taken and what is left -/

/-- A run parts the places of the segments that it starts with, and takes those at the places of the one part as
if the others were not there. The places left keep their order. -/
theorem exists_places {ι : Type} (f : ι → Segment α) {s s' : Segment α} {places : List ι}
    {left : List (Segment α)} (h : ReflTransGen Takes (s, places.map f) (s', left)) :
    ∃ taken rest : List ι, rest.map f = left ∧ rest.Sublist places ∧ (taken ++ rest).Perm places ∧
      ReflTransGen Takes (s, taken.map f) (s', []) := by
  generalize hstate : (s, places.map f) = state at h
  induction h using ReflTransGen.head_induction_on generalizing s places with
  | refl =>
      obtain ⟨rfl, hleft⟩ := Prod.mk.inj hstate
      exact ⟨[], places, hleft, List.Sublist.refl _, .refl _, .refl⟩
  | @head state next htake _ ih =>
      subst hstate
      obtain ⟨before, piece, behind, hpending, hnext, hpiece⟩ := htake.exists_piece
      obtain ⟨front, rest', rfl, rfl, hrest⟩ := List.map_eq_append_iff.1 hpending
      obtain ⟨place, back, rfl, rfl, rfl⟩ := List.map_eq_cons_iff.1 hrest
      rw [← List.map_append] at hnext
      obtain ⟨taken, rest, hleft, hsublist, hperm, hrun⟩ := ih (Prod.ext rfl hnext.symm)
      refine ⟨place :: taken, rest, hleft, ?_, ?_, hrun.head (hpiece (taken.map f))⟩
      · exact hsublist.trans ((List.sublist_cons_self place back).append_left front)
      · exact (hperm.cons place).trans List.perm_middle.symm

/-- A run that leaves some segments behind does with the others what it would do without those. -/
theorem exists_pieces {s s' : Segment α} {pending left : List (Segment α)}
    (h : ReflTransGen Takes (s, pending) (s', left)) :
    ∃ pieces, (pieces ++ left).Perm pending ∧ ReflTransGen Takes (s, pieces) (s', []) := by
  rw [← List.map_id pending] at h
  obtain ⟨pieces, rest, rfl, -, hperm, hrun⟩ := exists_places id h
  rw [List.map_id] at hrun ⊢
  exact ⟨pieces, hperm, hrun⟩

theorem not_absorbs_of_round_none {s : Segment α} {pending left : List (Segment α)}
    (h : round s pending = (none, left)) : ∀ t ∈ left, s.absorbs t = false := by
  induction pending generalizing left with
  | nil =>
      obtain ⟨-, rfl⟩ := Prod.mk.inj h
      simp
  | cons u pending ih =>
      unfold round at h
      split_ifs at h with habsorbs heq
      · exact ih h
      · cases h
      · obtain ⟨hnone, rfl⟩ := Prod.mk.inj h
        have hround : round s pending = (none, (round s pending).2) := by rw [← hnone]
        intro t ht
        rcases List.mem_cons.1 ht with rfl | ht
        · simpa using habsorbs
        · exact ih hround t ht

/-- A strand that has come to its end absorbs none of the segments left. -/
theorem gather_stuck (strand : Strand α) (pending : List (Segment α)) :
    ∀ t ∈ (strand.gather pending).2, (strand.gather pending).1.segment.absorbs t = false := by
  fun_induction gather strand pending with
  | case1 strand pending _ left h => exact not_absorbs_of_round_none h
  | case2 strand pending _ piece left h _ ih => exact ih
  | case3 strand pending hany => simpa using hany

end Strand

end LSystem
