import LSystem.Plane.Box
import LSystem.Proofs.Plane.Gathering
import LSystem.Proofs.Plane.Rational
import Mathlib.Order.Bounds.Basic
import Mathlib.Order.Bounds.Image

/-! Bounding boxes, one axis at a time. Fusion keeps the bounding box, and nothing about slopes is needed
for it: the ends of a cover are two opposite corners of the box around both parts, whichever diagonal was
chosen, and what is dropped was there twice.

Only the order of the coordinates counts, so this is said of any scalars that compare as their ranks in
some linear order do. Rationals are their own ranks. -/

namespace LSystem

inductive Axis where
  | x
  | y
  deriving DecidableEq

/-- The coordinate of a point along an axis. -/
def Point.coord {α : Type} (p : Point α) : Axis → α
  | .x => p.x
  | .y => p.y

/-- The coordinates that the ends of the segments have along an axis. -/
def spread {α : Type} (axis : Axis) (segments : List (Segment α)) : Set α :=
  {a | ∃ s ∈ segments, a = s.start.coord axis ∨ a = s.finish.coord axis}

section Spread

variable {α : Type} (axis : Axis)

theorem spread_append (front back : List (Segment α)) :
    spread axis (front ++ back) = spread axis front ∪ spread axis back := by
  ext a
  simp [spread, or_and_right, exists_or]

theorem spread_singleton (s : Segment α) : spread axis [s] = {s.start.coord axis, s.finish.coord axis} := by
  ext a
  simp [spread]

theorem start_mem_spread {s : Segment α} {segments : List (Segment α)} (hs : s ∈ segments) :
    s.start.coord axis ∈ spread axis segments :=
  ⟨s, hs, Or.inl rfl⟩

theorem finish_mem_spread {s : Segment α} {segments : List (Segment α)} (hs : s ∈ segments) :
    s.finish.coord axis ∈ spread axis segments :=
  ⟨s, hs, Or.inr rfl⟩

theorem spread_eq_of_perm {segments other : List (Segment α)} (h : segments.Perm other) :
    spread axis segments = spread axis other := by
  ext a
  simp only [spread, Set.mem_ofPred_eq, h.mem_iff]

end Spread

variable {α : Type} [Scalar α]

theorem Scalar.lesser_mem {values : Set α} {a b : α} (ha : a ∈ values) (hb : b ∈ values) :
    lesser a b ∈ values := by
  unfold lesser
  split_ifs
  · exact ha
  · exact hb

theorem Scalar.greater_mem {values : Set α} {a b : α} (ha : a ∈ values) (hb : b ∈ values) :
    greater a b ∈ values := by
  unfold greater
  split_ifs
  · exact ha
  · exact hb

namespace Point

omit [Scalar α] in
theorem ext_coord {p q : Point α} (h : ∀ axis, p.coord axis = q.coord axis) : p = q :=
  Point.ext (h .x) (h .y)

theorem coord_lesser (p q : Point α) (axis : Axis) :
    (p.lesser q).coord axis = Scalar.lesser (p.coord axis) (q.coord axis) := by
  cases axis <;> rfl

theorem coord_greater (p q : Point α) (axis : Axis) :
    (p.greater q).coord axis = Scalar.greater (p.coord axis) (q.coord axis) := by
  cases axis <;> rfl

end Point

/-- Equal segments have equal coordinates, as far as the scalars tell. -/
theorem Segment.coord_beq {s t : Segment α} (h : (t == s) = true) (axis : Axis) :
    (t.start.coord axis == s.start.coord axis) = true ∧ (t.finish.coord axis == s.finish.coord axis) = true := by
  have hends : ((t.start == s.start) && (t.finish == s.finish)) = true := h
  have hpoint : ∀ {p q : Point α}, (p == q) = true → (p.coord axis == q.coord axis) = true := by
    intro p q hpq
    have haxes : ((p.x == q.x) && (p.y == q.y)) = true := hpq
    rw [Bool.and_eq_true] at haxes
    cases axis
    · exact haxes.1
    · exact haxes.2
  rw [Bool.and_eq_true] at hends
  exact ⟨hpoint hends.1, hpoint hends.2⟩

theorem fuse_eq_nil {limit : Nat} {segments : List (Segment α)} :
    fuse limit segments = [] ↔ segments = [] := by
  unfold fuse
  split_ifs
  · rfl
  · cases segments <;> simp [strands]

theorem Box.ofSegments?_eq_none {segments : List (Segment α)} : ofSegments? segments = none ↔ segments = [] := by
  cases segments <;> simp [ofSegments?]

/-- The diagonal of a box that falls or rises from left to right. -/
def Box.diagonal (box : Box α) (falling : Bool) : Segment α :=
  if falling then ⟨⟨box.low.x, box.high.y⟩, ⟨box.high.x, box.low.y⟩⟩ else ⟨box.low, box.high⟩

/-- A segment turned round if it runs against `s`. -/
def Segment.align (s diagonal : Segment α) : Segment α :=
  if diagonal.direction.dot s.direction < 0 then diagonal.reverse else diagonal

/-- A cover is a diagonal of the box around both parts. -/
theorem Segment.cover_eq_align (s t : Segment α) :
    s.cover t = s.align (((Box.around s).widen t).diagonal (Scalar.falling s.slope)) := rfl

omit [Scalar α] in
theorem spread_diagonal (axis : Axis) (box : Box α) (falling : Bool) :
    spread axis [box.diagonal falling] = {box.low.coord axis, box.high.coord axis} := by
  rw [spread_singleton]
  cases falling <;> cases axis
  · rfl
  · rfl
  · rfl
  · exact Set.pair_comm _ _

theorem spread_align (axis : Axis) (s diagonal : Segment α) :
    spread axis [s.align diagonal] = spread axis [diagonal] := by
  unfold Segment.align
  split_ifs
  · rw [spread_singleton, spread_singleton]
    exact Set.pair_comm _ _
  · rfl

/-- The scalars that are proper numbers compare as their ranks in a linear order. Two of them may have one
rank, as the two zeros of a floating-point format have. -/
structure Ranking (α β : Type) [Scalar α] [LinearOrder β] where
  Proper : α → Prop
  rank : α → β
  lt_iff : ∀ {a b : α}, Proper a → Proper b → (a < b ↔ rank a < rank b)
  rank_eq : ∀ {a b : α}, Proper a → Proper b → (a == b) = true → rank a = rank b

namespace Ranking

variable {β : Type} [LinearOrder β] (ranking : Ranking α β) {axis : Axis}

theorem rank_lesser {a b : α} (ha : ranking.Proper a) (hb : ranking.Proper b) :
    ranking.rank (Scalar.lesser a b) = min (ranking.rank a) (ranking.rank b) := by
  unfold Scalar.lesser
  split_ifs with h
  · exact (min_eq_left ((ranking.lt_iff ha hb).1 h).le).symm
  · exact (min_eq_right (not_lt.1 fun hlt => h ((ranking.lt_iff ha hb).2 hlt))).symm

theorem rank_greater {a b : α} (ha : ranking.Proper a) (hb : ranking.Proper b) :
    ranking.rank (Scalar.greater a b) = max (ranking.rank a) (ranking.rank b) := by
  unfold Scalar.greater
  split_ifs with h
  · exact (max_eq_left ((ranking.lt_iff hb ha).1 h).le).symm
  · exact (max_eq_right (not_lt.1 fun hlt => h ((ranking.lt_iff hb ha).2 hlt))).symm

/-- The ranks of the coordinates along an axis. -/
def reach (axis : Axis) (segments : List (Segment α)) : Set β := ranking.rank '' spread axis segments

/-- All coordinates along an axis are proper numbers. -/
def AllProper (axis : Axis) (segments : List (Segment α)) : Prop :=
  ∀ a ∈ spread axis segments, ranking.Proper a

variable {ranking}

theorem AllProper.of_subset {segments other : List (Segment α)} (h : ranking.AllProper axis segments)
    (hsubset : other ⊆ segments) : ranking.AllProper axis other := by
  rintro a ⟨s, hs, ha⟩
  exact h a ⟨s, hsubset hs, ha⟩

theorem reach_append (front back : List (Segment α)) :
    ranking.reach axis (front ++ back) = ranking.reach axis front ∪ ranking.reach axis back := by
  rw [reach, spread_append, Set.image_union]
  rfl

theorem reach_singleton (s : Segment α) :
    ranking.reach axis [s] = {ranking.rank (s.start.coord axis), ranking.rank (s.finish.coord axis)} := by
  rw [reach, spread_singleton, Set.image_pair]

/-! ### What a box says -/

variable (ranking) in
/-- Along an axis, the box ends at the least and at the greatest coordinate. -/
structure Bounds (axis : Axis) (box : Box α) (segments : List (Segment α)) : Prop where
  low_mem : box.low.coord axis ∈ spread axis segments
  high_mem : box.high.coord axis ∈ spread axis segments
  isLeast : IsLeast (ranking.reach axis segments) (ranking.rank (box.low.coord axis))
  isGreatest : IsGreatest (ranking.reach axis segments) (ranking.rank (box.high.coord axis))

theorem bounds_around {s : Segment α} (hproper : ranking.AllProper axis [s]) :
    ranking.Bounds axis (Box.around s) [s] := by
  have hstart := start_mem_spread axis (List.mem_singleton_self s)
  have hfinish := finish_mem_spread axis (List.mem_singleton_self s)
  have hlow : (Box.around s).low.coord axis = _ := Point.coord_lesser s.start s.finish axis
  have hhigh : (Box.around s).high.coord axis = _ := Point.coord_greater s.start s.finish axis
  constructor
  · rw [hlow]
    exact Scalar.lesser_mem hstart hfinish
  · rw [hhigh]
    exact Scalar.greater_mem hstart hfinish
  · rw [hlow, ranking.rank_lesser (hproper _ hstart) (hproper _ hfinish), reach_singleton]
    exact isLeast_pair
  · rw [hhigh, ranking.rank_greater (hproper _ hstart) (hproper _ hfinish), reach_singleton]
    exact isGreatest_pair

theorem Bounds.widen {box : Box α} {segments : List (Segment α)} {s : Segment α}
    (h : ranking.Bounds axis box segments) (hproper : ranking.AllProper axis (segments ++ [s])) :
    ranking.Bounds axis (box.widen s) (segments ++ [s]) := by
  have hold : spread axis segments ⊆ spread axis (segments ++ [s]) := by
    rw [spread_append]
    exact Set.subset_union_left
  have hs : s ∈ segments ++ [s] := List.mem_append_right _ (List.mem_singleton_self s)
  have hstart := start_mem_spread axis hs
  have hfinish := finish_mem_spread axis hs
  have hlow : (box.widen s).low.coord axis =
      Scalar.lesser (Scalar.lesser (box.low.coord axis) (s.start.coord axis)) (s.finish.coord axis) := by
    rw [← Point.coord_lesser, ← Point.coord_lesser]
    rfl
  have hhigh : (box.widen s).high.coord axis =
      Scalar.greater (Scalar.greater (box.high.coord axis) (s.start.coord axis)) (s.finish.coord axis) := by
    rw [← Point.coord_greater, ← Point.coord_greater]
    rfl
  have hlower := Scalar.lesser_mem (hold h.low_mem) hstart
  have hupper := Scalar.greater_mem (hold h.high_mem) hstart
  constructor
  · rw [hlow]
    exact Scalar.lesser_mem hlower hfinish
  · rw [hhigh]
    exact Scalar.greater_mem hupper hfinish
  · rw [hlow, ranking.rank_lesser (hproper _ hlower) (hproper _ hfinish),
      ranking.rank_lesser (hproper _ (hold h.low_mem)) (hproper _ hstart), min_assoc, reach_append,
      reach_singleton]
    exact h.isLeast.union isLeast_pair
  · rw [hhigh, ranking.rank_greater (hproper _ hupper) (hproper _ hfinish),
      ranking.rank_greater (hproper _ (hold h.high_mem)) (hproper _ hstart), max_assoc, reach_append,
      reach_singleton]
    exact h.isGreatest.union isGreatest_pair

theorem Bounds.foldl_widen {box : Box α} {seen segments : List (Segment α)} (h : ranking.Bounds axis box seen)
    (hproper : ranking.AllProper axis (seen ++ segments)) :
    ranking.Bounds axis (segments.foldl Box.widen box) (seen ++ segments) := by
  induction segments generalizing box seen with
  | nil => rwa [List.append_nil]
  | cons s segments ih =>
      rw [List.append_cons] at hproper ⊢
      exact ih (h.widen (hproper.of_subset (List.subset_append_left _ _))) hproper

/-- The box around some segments ends where they end. -/
theorem bounds_of_ofSegments? {box : Box α} {segments : List (Segment α)}
    (hbox : Box.ofSegments? segments = some box) (hproper : ranking.AllProper axis segments) :
    ranking.Bounds axis box segments := by
  cases segments with
  | nil => cases hbox
  | cons s segments =>
      obtain rfl := Option.some.inj hbox
      exact (bounds_around (hproper.of_subset (List.subset_append_left [s] segments))).foldl_widen hproper

/-! ### What fusion keeps -/

variable (ranking) in
/-- From one list to the other no coordinate is new, and all bounds of the ranks stay. -/
structure Keeps (axis : Axis) (before after : List (Segment α)) : Prop where
  spread_subset : spread axis after ⊆ spread axis before
  lower : lowerBounds (ranking.reach axis after) = lowerBounds (ranking.reach axis before)
  upper : upperBounds (ranking.reach axis after) = upperBounds (ranking.reach axis before)

theorem Keeps.refl (segments : List (Segment α)) : ranking.Keeps axis segments segments :=
  ⟨subset_rfl, rfl, rfl⟩

theorem Keeps.trans {first second third : List (Segment α)} (h : ranking.Keeps axis first second)
    (h' : ranking.Keeps axis second third) : ranking.Keeps axis first third :=
  ⟨h'.spread_subset.trans h.spread_subset, h'.lower.trans h.lower, h'.upper.trans h.upper⟩

theorem Keeps.append {before after front back : List (Segment α)} (h : ranking.Keeps axis before after)
    (h' : ranking.Keeps axis front back) : ranking.Keeps axis (before ++ front) (after ++ back) := by
  constructor
  · rw [spread_append, spread_append]
    exact Set.union_subset_union h.spread_subset h'.spread_subset
  · rw [reach_append, reach_append, lowerBounds_union, lowerBounds_union, h.lower, h'.lower]
  · rw [reach_append, reach_append, upperBounds_union, upperBounds_union, h.upper, h'.upper]

theorem keeps_of_perm {before after : List (Segment α)} (h : before.Perm after) :
    ranking.Keeps axis before after := by
  have hspread := spread_eq_of_perm axis h
  constructor
  · rw [hspread]
  · rw [reach, reach, hspread]
  · rw [reach, reach, hspread]

theorem AllProper.of_keeps {before after : List (Segment α)} (h : ranking.AllProper axis before)
    (hkeeps : ranking.Keeps axis before after) : ranking.AllProper axis after :=
  fun a ha => h a (hkeeps.spread_subset ha)

theorem keeps_drop {s t : Segment α} (heq : (t == s) = true) (hproper : ranking.AllProper axis [s, t]) :
    ranking.Keeps axis [s, t] [s] := by
  have hs : s ∈ [s, t] := List.mem_cons_self
  have ht : t ∈ [s, t] := List.mem_cons_of_mem _ List.mem_cons_self
  obtain ⟨hstart, hfinish⟩ := Segment.coord_beq heq axis
  have hsame : ranking.reach axis [t] = ranking.reach axis [s] := by
    rw [reach_singleton, reach_singleton,
      ranking.rank_eq (hproper _ (start_mem_spread axis ht)) (hproper _ (start_mem_spread axis hs)) hstart,
      ranking.rank_eq (hproper _ (finish_mem_spread axis ht)) (hproper _ (finish_mem_spread axis hs)) hfinish]
  have hreach : ranking.reach axis ([s] ++ [t]) = ranking.reach axis [s] := by
    rw [reach_append, hsame, Set.union_self]
  rw [← List.singleton_append] at hproper ⊢
  constructor
  · rw [spread_append]
    exact Set.subset_union_left
  · rw [hreach]
  · rw [hreach]

theorem keeps_cover {s t : Segment α} (hproper : ranking.AllProper axis [s, t]) :
    ranking.Keeps axis [s, t] [s.cover t] := by
  have hbox : ranking.Bounds axis ((Box.around s).widen t) [s, t] :=
    (bounds_around (hproper.of_subset (List.subset_append_left [s] [t]))).widen hproper
  set box := (Box.around s).widen t
  have hspread : spread axis [s.cover t] = {box.low.coord axis, box.high.coord axis} := by
    rw [Segment.cover_eq_align, spread_align, spread_diagonal]
  have hcover : ranking.reach axis [s.cover t] =
      {ranking.rank (box.low.coord axis), ranking.rank (box.high.coord axis)} := by
    rw [reach, hspread, Set.image_pair]
  have hle := hbox.isLeast.2 hbox.isGreatest.1
  constructor
  · rw [hspread]
    exact Set.pair_subset hbox.low_mem hbox.high_mem
  · rw [hcover, hbox.isLeast.lowerBounds_eq, isLeast_pair.lowerBounds_eq, min_eq_left hle]
  · rw [hcover, hbox.isGreatest.upperBounds_eq, isGreatest_pair.upperBounds_eq, max_eq_right hle]

/-- Whatever is taken out of the pending segments, the coordinates keep their bounds. -/
theorem keeps_of_takes {state state' : Segment α × List (Segment α)} (h : Strand.Takes state state')
    (hproper : ranking.AllProper axis (state.1 :: state.2)) :
    ranking.Keeps axis (state.1 :: state.2) (state'.1 :: state'.2) := by
  have hfront : ∀ (s t : Segment α) (front back : List (Segment α)),
      ranking.Keeps axis (s :: (front ++ t :: back)) ([s, t] ++ (front ++ back)) :=
    fun s t front back => keeps_of_perm (List.perm_middle.cons s)
  cases h with
  | @drop s t front back heq =>
      have hmoved := hfront s t front back
      have hpair := (hproper.of_keeps hmoved).of_subset (List.subset_append_left [s, t] _)
      exact hmoved.trans ((keeps_drop heq hpair).append (.refl _))
  | @fold s t front back hne hmeets hparallel =>
      have hmoved := hfront s t front back
      have hpair := (hproper.of_keeps hmoved).of_subset (List.subset_append_left [s, t] _)
      exact hmoved.trans ((keeps_cover hpair).append (.refl _))

theorem keeps_of_takes_run {state state' : Segment α × List (Segment α)}
    (h : Relation.ReflTransGen Strand.Takes state state')
    (hproper : ranking.AllProper axis (state.1 :: state.2)) :
    ranking.Keeps axis (state.1 :: state.2) (state'.1 :: state'.2) := by
  induction h with
  | refl => exact .refl _
  | tail _ htake ih => exact ih.trans (keeps_of_takes htake (hproper.of_keeps ih))

theorem keeps_strands {segments : List (Segment α)} (hproper : ranking.AllProper axis segments) :
    ranking.Keeps axis segments ((strands segments).map (·.segment)) := by
  fun_induction strands segments with
  | case1 => exact .refl _
  | case2 s pending _ ih =>
      have hgather := keeps_of_takes_run (Strand.gather_takes (Strand.single s) pending) hproper
      have hleft := (hproper.of_keeps hgather).of_subset (List.subset_cons_self _ _)
      exact hgather.trans ((Keeps.refl [_]).append (ih hleft))

/-- **Fusion keeps the bounds** of the coordinates along both axes, and it brings in no new coordinate. -/
theorem keeps_fuse (limit : Nat) {segments : List (Segment α)} (hproper : ranking.AllProper axis segments) :
    ranking.Keeps axis segments (fuse limit segments) := by
  unfold fuse
  split_ifs
  · exact .refl _
  · exact keeps_strands hproper

end Ranking

/-! ### Rational boxes -/

attribute [ext] Box

/-- Rationals are all proper, and ranked by themselves. -/
def Ranking.rational : Ranking Rat Rat where
  Proper _ := True
  rank a := a
  lt_iff _ _ := Iff.rfl
  rank_eq _ _ h := beq_iff_eq.1 h

theorem Ranking.rational_reach (axis : Axis) (segments : List (Segment Rat)) :
    rational.reach axis segments = spread axis segments :=
  Set.image_id _

theorem coord_mem_spread (axis : Axis) {segments : List (Segment Rat)} {s : Segment Rat} {p : Point Rat}
    (hs : s ∈ segments) (hp : s.HasEnd p) : p.coord axis ∈ spread axis segments := by
  rcases hp with rfl | rfl
  · exact start_mem_spread axis hs
  · exact finish_mem_spread axis hs

namespace Box

variable {segments : List (Segment Rat)} {box : Box Rat}

theorem isLeast_low (h : ofSegments? segments = some box) (axis : Axis) :
    IsLeast (spread axis segments) (box.low.coord axis) := by
  have hbounds : Ranking.rational.Bounds axis box segments :=
    Ranking.bounds_of_ofSegments? h fun _ _ => trivial
  rw [← Ranking.rational_reach]
  exact hbounds.isLeast

theorem isGreatest_high (h : ofSegments? segments = some box) (axis : Axis) :
    IsGreatest (spread axis segments) (box.high.coord axis) := by
  have hbounds : Ranking.rational.Bounds axis box segments :=
    Ranking.bounds_of_ofSegments? h fun _ _ => trivial
  rw [← Ranking.rational_reach]
  exact hbounds.isGreatest

/-- Fused segments have the bounding box that they had before. -/
theorem ofSegments?_fuse (limit : Nat) (segments : List (Segment Rat)) :
    ofSegments? (fuse limit segments) = ofSegments? segments := by
  have hkeeps : ∀ axis, Ranking.rational.Keeps axis segments (fuse limit segments) :=
    fun axis => Ranking.keeps_fuse limit fun _ _ => trivial
  cases hbefore : ofSegments? segments with
  | none => rw [ofSegments?_eq_none, fuse_eq_nil, ← ofSegments?_eq_none, hbefore]
  | some box =>
      cases hafter : ofSegments? (fuse limit segments) with
      | none =>
          rw [ofSegments?_eq_none, fuse_eq_nil, ← ofSegments?_eq_none, hbefore] at hafter
          cases hafter
      | some other =>
          have hlow : other.low = box.low := by
            apply Point.ext_coord
            intro axis
            have hother := (isLeast_low hafter axis).isGLB
            have hbox := (isLeast_low hbefore axis).isGLB
            have hlower := (hkeeps axis).lower
            rw [Ranking.rational_reach, Ranking.rational_reach] at hlower
            rw [IsGLB, hlower] at hother
            exact hother.unique hbox
          have hhigh : other.high = box.high := by
            apply Point.ext_coord
            intro axis
            have hother := (isGreatest_high hafter axis).isLUB
            have hbox := (isGreatest_high hbefore axis).isLUB
            have hupper := (hkeeps axis).upper
            rw [Ranking.rational_reach, Ranking.rational_reach] at hupper
            rw [IsLUB, hupper] at hother
            exact hother.unique hbox
          exact congrArg some (Box.ext hlow hhigh)

end Box

end LSystem
