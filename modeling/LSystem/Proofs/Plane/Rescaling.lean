import LSystem.Proofs.Plane.Bounds

/-! Maps of the plane that stretch all lengths alike and turn nothing. They keep apart what differs, they
keep the order of coordinates on both axes, and they keep slopes. Everything that fusion asks of segments
is thereby answered as before, so that a rescaled list is fused as the list itself is, fold by fold. -/

namespace LSystem

/-- Lengths are multiplied by `factor`; then everything is moved by `shift`. -/
structure Rescaling where
  factor : Rat
  shift : Point Rat
  factor_pos : 0 < factor

def Box.map {α : Type} (f : Point α → Point α) (box : Box α) : Box α := ⟨f box.low, f box.high⟩

def Fold.map {α : Type} (f : Point α → Point α) (fold : Fold α) : Fold α :=
  ⟨fold.piece.map f, fold.into.map f⟩

def Strand.map {α : Type} (f : Point α → Point α) (strand : Strand α) : Strand α :=
  ⟨strand.segment.map f, strand.folds.map (·.map f)⟩

namespace Rescaling

variable (m : Rescaling)

def apply (p : Point Rat) : Point Rat :=
  ⟨m.factor * p.x + m.shift.x, m.factor * p.y + m.shift.y⟩

/-! ### Points and boxes -/

theorem coord_apply (p : Point Rat) (axis : Axis) :
    (m.apply p).coord axis = m.factor * p.coord axis + m.shift.coord axis := by
  cases axis <;> rfl

theorem monotone_axis (b : Rat) : Monotone fun a : Rat => m.factor * a + b := by
  intro a c hle
  have := mul_le_mul_of_nonneg_left hle m.factor_pos.le
  simpa using this

theorem apply_lesser (p q : Point Rat) : (m.apply p).lesser (m.apply q) = m.apply (p.lesser q) := by
  apply Point.ext_coord
  intro axis
  simp only [Point.coord_lesser, coord_apply, Scalar.lesser_rat]
  exact ((m.monotone_axis _).map_min).symm

theorem apply_greater (p q : Point Rat) : (m.apply p).greater (m.apply q) = m.apply (p.greater q) := by
  apply Point.ext_coord
  intro axis
  simp only [Point.coord_greater, coord_apply, Scalar.greater_rat]
  exact ((m.monotone_axis _).map_max).symm

theorem apply_inj {p q : Point Rat} : m.apply p = m.apply q ↔ p = q := by
  constructor
  · intro h
    apply Point.ext_coord
    intro axis
    have haxis := congrArg (fun point => Point.coord point axis) h
    simp only [coord_apply] at haxis
    exact mul_left_cancel₀ m.factor_pos.ne' (add_right_cancel haxis)
  · rintro rfl
    rfl

theorem around_map (s : Segment Rat) : Box.around (s.map m.apply) = (Box.around s).map m.apply :=
  Box.ext (m.apply_lesser _ _) (m.apply_greater _ _)

theorem widen_map (box : Box Rat) (s : Segment Rat) :
    (box.map m.apply).widen (s.map m.apply) = (box.widen s).map m.apply := by
  refine Box.ext ?_ ?_
  · show ((m.apply _).lesser (m.apply _)).lesser (m.apply _) = m.apply _
    rw [apply_lesser, apply_lesser]
    rfl
  · show ((m.apply _).greater (m.apply _)).greater (m.apply _) = m.apply _
    rw [apply_greater, apply_greater]
    rfl

theorem foldl_widen_map (box : Box Rat) (segments : List (Segment Rat)) :
    (segments.map (·.map m.apply)).foldl Box.widen (box.map m.apply) =
      (segments.foldl Box.widen box).map m.apply := by
  induction segments generalizing box with
  | nil => rfl
  | cons s segments ih => rw [List.map_cons, List.foldl_cons, List.foldl_cons, widen_map, ih]

/-- The box around rescaled segments is the rescaled box. -/
theorem ofSegments?_map (segments : List (Segment Rat)) :
    Box.ofSegments? (segments.map (·.map m.apply)) = (Box.ofSegments? segments).map (·.map m.apply) := by
  cases segments with
  | nil => rfl
  | cons s segments =>
      rw [List.map_cons, Box.ofSegments?, around_map, foldl_widen_map]
      rfl

/-! ### Segments -/

theorem direction_map (s : Segment Rat) :
    (s.map m.apply).direction = ⟨m.factor * s.direction.x, m.factor * s.direction.y⟩ := by
  refine Point.ext ?_ ?_ <;> simp only [Segment.direction, Segment.map, apply, Point.sub_x, Point.sub_y] <;> ring

theorem slope_map (s : Segment Rat) : (s.map m.apply).slope = s.slope := by
  rw [Segment.slope, direction_map]
  show Scalar.Exact.slope _ _ = Scalar.Exact.slope _ _
  simp only [Scalar.Exact.slope, mul_eq_zero, m.factor_pos.ne', false_or, mul_pos_iff_of_pos_left m.factor_pos,
    mul_div_mul_left _ _ m.factor_pos.ne']

theorem point_beq_apply (p q : Point Rat) : (m.apply p == m.apply q) = (p == q) := by
  rw [Bool.eq_iff_iff, Point.beq_rat, Point.beq_rat, apply_inj]

theorem beq_map (s t : Segment Rat) : (s.map m.apply == t.map m.apply) = (s == t) :=
  congrArg₂ and (m.point_beq_apply _ _) (m.point_beq_apply _ _)

theorem meets_map (s t : Segment Rat) : (s.map m.apply).meets (t.map m.apply) = s.meets t := by
  simp only [Segment.meets, Segment.map, point_beq_apply]

theorem absorbs_map (s t : Segment Rat) : (s.map m.apply).absorbs (t.map m.apply) = s.absorbs t := by
  rw [Segment.absorbs, Segment.absorbs, beq_map, meets_map, Segment.parallel, Segment.parallel, slope_map,
    slope_map]

theorem diagonal_map (box : Box Rat) (falling : Bool) :
    (box.map m.apply).diagonal falling = (box.diagonal falling).map m.apply := by
  cases falling <;> rfl

theorem dot_direction_map (s t : Segment Rat) :
    (s.map m.apply).direction.dot (t.map m.apply).direction = m.factor ^ 2 * s.direction.dot t.direction := by
  rw [direction_map, direction_map, Point.dot_rat, Point.dot_rat]
  ring

theorem align_map (s diagonal : Segment Rat) :
    (s.map m.apply).align (diagonal.map m.apply) = (s.align diagonal).map m.apply := by
  have hsign : (diagonal.map m.apply).direction.dot (s.map m.apply).direction < 0 ↔
      diagonal.direction.dot s.direction < 0 := by
    have hsquare := pow_pos m.factor_pos 2
    rw [dot_direction_map]
    exact ⟨fun h => (pos_iff_neg_of_mul_neg h).1 hsquare, mul_neg_of_pos_of_neg hsquare⟩
  unfold Segment.align
  by_cases h : diagonal.direction.dot s.direction < 0
  · rw [if_pos h, if_pos (hsign.2 h)]
    rfl
  · rw [if_neg h, if_neg (mt hsign.1 h)]

theorem cover_map (s t : Segment Rat) : (s.map m.apply).cover (t.map m.apply) = (s.cover t).map m.apply := by
  rw [Segment.cover_eq_align, around_map, widen_map, slope_map, diagonal_map, align_map, Segment.cover_eq_align]

/-! ### Fusion -/

theorem round_map (s : Segment Rat) (pending : List (Segment Rat)) :
    Strand.round (s.map m.apply) (pending.map (·.map m.apply)) =
      ((Strand.round s pending).1.map (·.map m.apply), (Strand.round s pending).2.map (·.map m.apply)) := by
  induction pending with
  | nil => rfl
  | cons t pending ih =>
      rw [List.map_cons, Strand.round, Strand.round, absorbs_map, beq_map, ih]
      split_ifs <;> rfl

theorem fold_map (strand : Strand Rat) (piece : Segment Rat) :
    (strand.map m.apply).fold (piece.map m.apply) = (strand.fold piece).map m.apply :=
  congrArg (Strand.mk · _) (m.cover_map strand.segment piece)

theorem gather_map (strand : Strand Rat) (pending : List (Segment Rat)) :
    (strand.map m.apply).gather (pending.map (·.map m.apply)) =
      ((strand.gather pending).1.map m.apply, (strand.gather pending).2.map (·.map m.apply)) := by
  fun_induction Strand.gather strand pending with
  | case1 strand pending _ left h =>
      have hround := m.round_map strand.segment pending
      rw [h] at hround
      exact Strand.gather_of_round_none hround
  | case2 strand pending _ piece left h _ ih =>
      have hround := m.round_map strand.segment pending
      rw [h] at hround
      rw [Strand.gather_of_round_some hround, fold_map, ih]
  | case3 strand pending hany =>
      have hnone : Strand.round strand.segment pending = (none, pending) :=
        Strand.round_of_not_any (by simpa using hany)
      have hround := m.round_map strand.segment pending
      rw [hnone] at hround
      exact Strand.gather_of_round_none hround

/-- The strands of a rescaled list are the rescaled strands, made of the same folds. -/
theorem strands_map (segments : List (Segment Rat)) :
    strands (segments.map (·.map m.apply)) = (strands segments).map (·.map m.apply) := by
  fun_induction strands segments with
  | case1 => rw [List.map_nil, strands, List.map_nil]
  | case2 s pending _ ih =>
      have hgather := m.gather_map (Strand.single s) pending
      have hsingle : (Strand.single s).map m.apply = Strand.single (s.map m.apply) := rfl
      rw [hsingle] at hgather
      rw [List.map_cons, strands, hgather, ih, List.map_cons]

/-- **Fusion does not see the scale.** -/
theorem fuse_map (limit : Nat) (segments : List (Segment Rat)) :
    fuse limit (segments.map (·.map m.apply)) = (fuse limit segments).map (·.map m.apply) := by
  rw [fuse, fuse, List.length_map, strands_map]
  split_ifs
  · rfl
  · rw [List.map_map, List.map_map]
    rfl

end Rescaling

end LSystem
