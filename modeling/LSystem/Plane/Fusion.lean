import LSystem.Plane.Segment

/-!
Fusion of segments that continue each other. The first segment of a list starts a strand. The strand
drops every later segment equal to it and is extended by the first other one that meets it and has its
slope; since it is then another segment, the rest of the list is gone through again from the front. What
the strand does not absorb is left to the strands after it.

A strand only ever takes segments out of the list, so the rounds come to an end
(`length_round_lt`), whatever the comparisons of the scalars say.
-/

namespace LSystem

variable {α : Type} [Scalar α]

/-- `t` is equal to `s`, or meets `s` and has the same slope. -/
@[inline] def Segment.absorbs (s t : Segment α) : Bool :=
  t == s || (s.meets t && s.parallel t)

/-- A piece and the segment that it extended. -/
structure Fold (α : Type) where
  piece : Segment α
  into : Segment α
  deriving DecidableEq

/-- A segment and the folds that made it, the last fold first. -/
structure Strand (α : Type) where
  segment : Segment α
  folds : List (Fold α)
  deriving DecidableEq

namespace Strand

def single (s : Segment α) : Strand α := ⟨s, []⟩

def fold (strand : Strand α) (piece : Segment α) : Strand α :=
  ⟨strand.segment.cover piece, ⟨piece, strand.segment⟩ :: strand.folds⟩

/-- One round through the pending segments: the first that extends `s`, and what is left of the others.
The segments in front of that piece lose those equal to `s`, the segments behind it stay. -/
@[specialize] def round (s : Segment α) : List (Segment α) → Option (Segment α) × List (Segment α)
  | [] => (none, [])
  | t :: pending =>
    if s.absorbs t then
      if t == s then round s pending else (some t, pending)
    else
      ((round s pending).1, t :: (round s pending).2)

theorem length_round_le (s : Segment α) (pending : List (Segment α)) :
    (round s pending).2.length ≤ pending.length := by
  induction pending with
  | nil => simp [round]
  | cons t pending ih =>
    unfold round
    split
    · split <;> simp only [List.length_cons] <;> omega
    · simp only [List.length_cons]
      omega

theorem length_round_lt {s piece : Segment α} {pending left : List (Segment α)}
    (h : round s pending = (some piece, left)) : left.length < pending.length := by
  induction pending generalizing left with
  | nil => simp [round] at h
  | cons t pending ih =>
    unfold round at h
    split at h
    · split at h
      · have := ih h
        simp only [List.length_cons]
        omega
      · obtain ⟨_, rfl⟩ := Prod.mk.inj h
        simp
    · obtain ⟨hpiece, rfl⟩ := Prod.mk.inj h
      have := @ih (round s pending).2 (by rw [← hpiece])
      simp only [List.length_cons]
      omega

/-- A round changes nothing if `s` absorbs none of the pending segments. -/
theorem round_of_not_any {s : Segment α} {pending : List (Segment α)}
    (h : pending.any s.absorbs = false) : round s pending = (none, pending) := by
  induction pending with
  | nil => rfl
  | cons t pending ih =>
    simp only [List.any_cons, Bool.or_eq_false_iff] at h
    simp [round, h.1, ih h.2]

/-- Rounds until nothing extends the strand any more; the strand and the segments left. -/
@[specialize] def gather (strand : Strand α) (pending : List (Segment α)) : Strand α × List (Segment α) :=
  if pending.any strand.segment.absorbs then
    match h : round strand.segment pending with
    | (none, left) => (strand, left)
    | (some piece, left) =>
      have := length_round_lt h
      (strand.fold piece).gather left
  else (strand, pending)
  termination_by pending.length

theorem length_gather_le (strand : Strand α) (pending : List (Segment α)) :
    (strand.gather pending).2.length ≤ pending.length := by
  fun_induction gather strand pending with
  | case1 strand pending _ left h =>
    have := length_round_le strand.segment pending
    simpa [h] using this
  | case2 strand pending _ piece left h hlt ih => omega
  | case3 => simp

end Strand

/-- The strands of a list, in the order of their first segments. -/
@[specialize] def strands : List (Segment α) → List (Strand α)
  | [] => []
  | s :: pending =>
    have := Strand.length_gather_le (Strand.single s) pending
    ((Strand.single s).gather pending).1 :: strands ((Strand.single s).gather pending).2
  termination_by segments => segments.length
  decreasing_by simp only [List.length_cons]; omega

/-- Fuses a list of at most `limit` segments and leaves a longer one alone. -/
@[specialize] def fuse (limit : Nat) (segments : List (Segment α)) : List (Segment α) :=
  if limit < segments.length then segments else (strands segments).map (·.segment)

end LSystem
