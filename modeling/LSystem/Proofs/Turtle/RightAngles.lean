import LSystem.Proofs.Plane.Bounds
import LSystem.Turtle.Command
import Mathlib.Tactic.NormNum

/-! Turtles that turn by right angles and take rounded steps, in exact scalars. Every step goes along an axis, so what
counts for where a walk ends is how many steps go each way. A step and the step back cancel unless the step is a whole
number and a half: halves are rounded up on either heading, and each such pair of steps then leaves the turtle one unit
further along the axis. -/

namespace LSystem

/-! ### Rounded steps -/

namespace Pose

theorem nearest_rat (a : Rat) : nearest a = ⌊a + 1 / 2⌋ := by
  have hhalf : (Scalar.half : Rat) = 1 / 2 := by
    norm_num [Scalar.half, Scalar.two]
  rw [nearest, hhalf]
  rfl

theorem nearest_zero : nearest (0 : Rat) = 0 := by
  rw [nearest_rat]
  norm_num

theorem add_half_mem_range_iff {a : Rat} :
    a + 1 / 2 ∈ Set.range (Int.cast : ℤ → Rat) ↔ Int.fract a = 1 / 2 := by
  constructor
  · rintro ⟨n, hn⟩
    refine Int.fract_eq_iff.2 ⟨by norm_num, by norm_num, n - 1, ?_⟩
    push_cast
    linarith
  · intro h
    have ha := Int.floor_add_fract a
    refine ⟨⌊a⌋ + 1, ?_⟩
    push_cast
    linarith

/-- What is left over by a rounded step and the rounded step back. -/
theorem nearest_add_nearest_neg (a : Rat) :
    nearest a + nearest (-a) = if Int.fract a = 1 / 2 then 1 else 0 := by
  have hback : ⌊-a + 1 / 2⌋ = -⌈a + 1 / 2⌉ + 1 := by
    rw [show -a + 1 / 2 = -(a + 1 / 2) + 1 by ring, Int.floor_add_one, Int.floor_neg]
  rw [nearest_rat, nearest_rat, hback]
  split_ifs with hhalf
  · obtain ⟨n, hn⟩ := add_half_mem_range_iff.2 hhalf
    rw [← hn, Int.floor_intCast, Int.ceil_intCast]
    push_cast
    ring
  · rw [(Int.ceil_eq_floor_add_one_iff_notMem _).2 (mt add_half_mem_range_iff.1 hhalf)]
    push_cast
    ring

end Pose

/-! ### Directions -/

/-- The direction that lies `k` left turns by a right angle from heading zero. -/
def Point.quarter (k : ℤ) : Point Rat :=
  if k % 4 = 0 then ⟨1, 0⟩ else if k % 4 = 1 then ⟨0, 1⟩ else if k % 4 = 2 then ⟨-1, 0⟩ else ⟨0, -1⟩

theorem Point.quarter_cases (k : ℤ) :
    quarter k = ⟨1, 0⟩ ∨ quarter k = ⟨0, 1⟩ ∨ quarter k = ⟨-1, 0⟩ ∨ quarter k = ⟨0, -1⟩ := by
  unfold quarter
  split_ifs <;> simp

namespace Compass

/-- The compass is exact at every whole number of right angles. -/
def Square [Compass Rat] : Prop :=
  ∀ k : ℤ, (⟨cos (k * ofDegrees (90 : Rat)), sin (k * ofDegrees (90 : Rat))⟩ : Point Rat) = .quarter k

/-- Headings in right angles; one between two axes points along the axis before it. -/
@[reducible] def rightAngles : Compass Rat where
  ofDegrees := fun degrees => degrees / 90
  cos := fun heading => if heading.floor % 4 = 0 then 1 else if heading.floor % 4 = 2 then -1 else 0
  sin := fun heading => if heading.floor % 4 = 1 then 1 else if heading.floor % 4 = 3 then -1 else 0

theorem square_rightAngles : @Square rightAngles := by
  intro k
  have hheading : (k : Rat) * rightAngles.ofDegrees 90 = k := by
    show (k : Rat) * (90 / 90) = k
    rw [div_self (by decide), mul_one]
  have hfloor : (k : Rat).floor = k := Rat.floor_intCast k
  rw [hheading, Point.quarter]
  show Point.mk (if (k : Rat).floor % 4 = 0 then (1 : Rat) else if (k : Rat).floor % 4 = 2 then -1 else 0)
    (if (k : Rat).floor % 4 = 1 then (1 : Rat) else if (k : Rat).floor % 4 = 3 then -1 else 0) = _
  rw [hfloor]
  have hcases : k % 4 = 0 ∨ k % 4 = 1 ∨ k % 4 = 2 ∨ k % 4 = 3 := by omega
  rcases hcases with h | h | h | h <;> rw [h] <;> rfl

end Compass

/-! ### Walks -/

section Courses

variable {α : Type}

/-- The command makes the turtle step. -/
def Command.steps : Command α → Bool
  | .draw | .move => true
  | _ => false

/-- The directions of the steps that a turtle takes when it obeys a list of commands, in the order of the steps. -/
def Turtle.courses [Scalar α] [Compass α] (gait : Gait α) (turtle : Turtle α) :
    List (Command α) → List (Point α)
  | [] => []
  | command :: commands =>
    (if command.steps then [turtle.pose.forward] else []) ++ (turtle.obey gait command).courses gait commands

end Courses

/-- Where a rounded step leads along an axis. -/
def Axis.stepped (axis : Axis) (length a : Rat) (course : Point Rat) : Rat :=
  a + Pose.nearest (course.coord axis * length)

namespace Turtle

variable [Compass Rat] {gait : Gait Rat} {turtle : Turtle Rat} {command : Command Rat}
  {program : List (Command Rat)} (axis : Axis)

/-- A command that closes no branch moves the turtle by its step, if it has one. -/
theorem coord_obey (hwhole : gait.whole = true) (hpop : command ≠ .pop) :
    (turtle.obey gait command).pose.position.coord axis =
      (if command.steps then [turtle.pose.forward] else []).foldl (axis.stepped gait.length)
        (turtle.pose.position.coord axis) := by
  have hstep : (turtle.pose.advance gait.length gait.whole).position.coord axis =
      axis.stepped gait.length (turtle.pose.position.coord axis) turtle.pose.forward := by
    rw [hwhole]
    cases axis <;> rfl
  cases command with
  | draw | move => exact hstep
  | turn | push | ignore => rfl
  | pop => exact absurd rfl hpop

/-- A walk that closes no branch leads where its steps lead one after the other. -/
theorem coord_walk (hwhole : gait.whole = true) (hprogram : ∀ command ∈ program, command ≠ .pop) :
    (turtle.walk gait program).pose.position.coord axis =
      (turtle.courses gait program).foldl (axis.stepped gait.length) (turtle.pose.position.coord axis) := by
  induction program generalizing turtle with
  | nil => rfl
  | cons command program ih =>
      obtain ⟨hfirst, hrest⟩ := List.forall_mem_cons.1 hprogram
      calc (turtle.walk gait (command :: program)).pose.position.coord axis
          = ((turtle.obey gait command).walk gait program).pose.position.coord axis := rfl
        _ = ((turtle.obey gait command).courses gait program).foldl (axis.stepped gait.length)
              ((turtle.obey gait command).pose.position.coord axis) := ih hrest
        _ = _ := by rw [coord_obey axis hwhole hfirst, courses, List.foldl_append]

/-! ### Right angles -/

/-- The commands of a walk without branches: steps and turns by the turning angle. -/
def walking : List (Command Rat) := [.draw, .move, .turn 1, .turn (-1)]

/-- A turn to either side keeps the heading at a whole number of right angles. -/
theorem heading_obey (hangle : gait.angle = 90) (hcommand : command ∈ walking) {k : ℤ}
    (hheading : turtle.pose.heading = k * Compass.ofDegrees 90) :
    ∃ next : ℤ, (turtle.obey gait command).pose.heading = next * Compass.ofDegrees 90 := by
  simp only [walking, List.mem_cons, List.not_mem_nil, or_false] at hcommand
  obtain rfl | rfl | rfl | rfl := hcommand
  · exact ⟨k, hheading⟩
  · exact ⟨k, hheading⟩
  · refine ⟨k + 1, ?_⟩
    show turtle.pose.heading + Compass.ofDegrees gait.angle * 1 = _
    rw [hheading, hangle]
    push_cast
    ring
  · refine ⟨k - 1, ?_⟩
    show turtle.pose.heading + Compass.ofDegrees gait.angle * -1 = _
    rw [hheading, hangle]
    push_cast
    ring

/-- Every step goes along an axis. -/
theorem courses_quarter (hcompass : Compass.Square) (hangle : gait.angle = 90)
    (hprogram : ∀ command ∈ program, command ∈ walking) {k : ℤ}
    (hheading : turtle.pose.heading = k * Compass.ofDegrees 90) :
    ∀ course ∈ turtle.courses gait program, ∃ k, course = .quarter k := by
  induction program generalizing turtle k with
  | nil => simp [courses]
  | cons command program ih =>
      obtain ⟨hfirst, hrest⟩ := List.forall_mem_cons.1 hprogram
      obtain ⟨next, hnext⟩ := heading_obey hangle hfirst hheading
      intro course hcourse
      rw [courses, List.mem_append] at hcourse
      rcases hcourse with hcourse | hcourse
      · have hforward : course = turtle.pose.forward := by
          split_ifs at hcourse with hsteps
          · exact List.mem_singleton.1 hcourse
          · cases hcourse
        refine ⟨k, ?_⟩
        rw [hforward, Pose.forward, hheading]
        exact hcompass k
      · exact ih hrest hnext course hcourse

end Turtle

/-! ### There and back -/

namespace Axis

/-- The way along an axis. -/
def ahead : Axis → Point Rat
  | .x => ⟨1, 0⟩
  | .y => ⟨0, 1⟩

/-- The way back. -/
def back : Axis → Point Rat
  | .x => ⟨-1, 0⟩
  | .y => ⟨0, -1⟩

end Axis

/-- A rounded step changes a coordinate if it goes along the axis, ahead or back. -/
theorem nearest_quarter (k : ℤ) (axis : Axis) (length : Rat) :
    Pose.nearest ((Point.quarter k).coord axis * length) =
      (if Point.quarter k = axis.ahead then Pose.nearest length else 0) +
        if Point.quarter k = axis.back then Pose.nearest (-length) else 0 := by
  have hne : (1 : Rat) ≠ -1 := by norm_num
  rcases Point.quarter_cases k with h | h | h | h <;> rw [h] <;> cases axis <;>
    simp [Axis.ahead, Axis.back, Point.coord, Pose.nearest_zero, hne, hne.symm]

/-- Steps along the axes lead along one of them by what its steps ahead and its steps back add up to. -/
theorem foldl_stepped_quarters {courses : List (Point Rat)} (hcourses : ∀ course ∈ courses, ∃ k, course = .quarter k)
    (axis : Axis) (length a : Rat) :
    courses.foldl (axis.stepped length) a =
      a + (courses.countP (· = axis.ahead) * Pose.nearest length +
        courses.countP (· = axis.back) * Pose.nearest (-length)) := by
  induction courses generalizing a with
  | nil => simp
  | cons course courses ih =>
      obtain ⟨hfirst, hrest⟩ := List.forall_mem_cons.1 hcourses
      obtain ⟨k, rfl⟩ := hfirst
      rw [List.foldl_cons, ih hrest, Axis.stepped, nearest_quarter, List.countP_cons, List.countP_cons]
      simp only [decide_eq_true_eq]
      push_cast
      split_ifs <;> ring

section Pairs

variable [Compass Rat] {gait : Gait Rat} {turtle : Turtle Rat} {program : List (Command Rat)}

/-- How many steps of a walk go in a direction. -/
def Turtle.stepCount (gait : Gait Rat) (turtle : Turtle Rat) (program : List (Command Rat))
    (direction : Point Rat) : Nat :=
  (turtle.courses gait program).countP (· = direction)

/-- As many steps back as ahead leave one unit for each of them along the axis, or nothing. -/
theorem Turtle.coord_walk_of_pairs (hcompass : Compass.Square) (hangle : gait.angle = 90) (hwhole : gait.whole = true)
    {k : ℤ} (hheading : turtle.pose.heading = k * Compass.ofDegrees 90)
    (hprogram : ∀ command ∈ program, command ∈ walking) {axis : Axis}
    (hpairs : turtle.stepCount gait program axis.ahead = turtle.stepCount gait program axis.back) :
    (turtle.walk gait program).pose.position.coord axis = turtle.pose.position.coord axis +
      turtle.stepCount gait program axis.ahead * if Int.fract gait.length = 1 / 2 then 1 else 0 := by
  have hpop : ∀ command ∈ program, command ≠ .pop := by
    intro command hcommand heq
    subst heq
    have hwalking := hprogram .pop hcommand
    simp [walking] at hwalking
  have hquarters := courses_quarter hcompass hangle hprogram hheading
  rw [coord_walk axis hwhole hpop, foldl_stepped_quarters hquarters, ← Pose.nearest_add_nearest_neg, mul_add]
  unfold stepCount at hpairs ⊢
  rw [hpairs]

/-- **Closed walks close, but for half steps.** A turtle that turns by right angles and takes rounded steps, as many back
as ahead along either axis, ends where it started unless the step is a whole number and a half. With such a step it
ends as many units further along the axes as it has taken steps ahead. -/
theorem walk_returns (hcompass : Compass.Square) (hangle : gait.angle = 90) (hwhole : gait.whole = true)
    {k : ℤ} (hheading : turtle.pose.heading = k * Compass.ofDegrees 90)
    (hprogram : ∀ command ∈ program, command ∈ Turtle.walking)
    (hx : turtle.stepCount gait program ⟨1, 0⟩ = turtle.stepCount gait program ⟨-1, 0⟩)
    (hy : turtle.stepCount gait program ⟨0, 1⟩ = turtle.stepCount gait program ⟨0, -1⟩) :
    let finish := (turtle.walk gait program).pose.position
    (Int.fract gait.length ≠ 1 / 2 → finish = turtle.pose.position) ∧
      (Int.fract gait.length = 1 / 2 → finish = turtle.pose.position +
        ⟨turtle.stepCount gait program ⟨1, 0⟩, turtle.stepCount gait program ⟨0, 1⟩⟩) := by
  intro finish
  have hcoord : ∀ axis, finish.coord axis = turtle.pose.position.coord axis +
      turtle.stepCount gait program axis.ahead * if Int.fract gait.length = 1 / 2 then 1 else 0 := by
    intro axis
    apply Turtle.coord_walk_of_pairs hcompass hangle hwhole hheading hprogram
    cases axis
    · exact hx
    · exact hy
  constructor
  · intro hfract
    apply Point.ext_coord
    intro axis
    rw [hcoord, if_neg hfract, mul_zero, add_zero]
  · intro hfract
    apply Point.ext_coord
    intro axis
    rw [hcoord, if_pos hfract, mul_one]
    cases axis <;> rfl

end Pairs

/-- A square with one side that is not drawn, from a start off the origin with more than a full turn behind it. -/
theorem walk_returns_of_square :
    let _ := Compass.rightAngles
    let gait : Gait Rat := ⟨90, 7 / 3, 'F', 'f', true⟩
    let turtle : Turtle Rat := ⟨⟨⟨3, -2⟩, 5⟩, []⟩
    let program : List (Command Rat) := [.draw, .turn (-1), .draw, .turn (-1), .move, .turn (-1), .draw]
    Compass.Square ∧ gait.angle = 90 ∧ gait.whole = true ∧
      turtle.pose.heading = (5 : ℤ) * Compass.ofDegrees 90 ∧ (∀ command ∈ program, command ∈ Turtle.walking) ∧
      turtle.stepCount gait program ⟨1, 0⟩ = turtle.stepCount gait program ⟨-1, 0⟩ ∧
      turtle.stepCount gait program ⟨0, 1⟩ = turtle.stepCount gait program ⟨0, -1⟩ ∧
      Int.fract gait.length ≠ 1 / 2 ∧ (turtle.walk gait program).pose.position = ⟨3, -2⟩ := by
  intro compass gait turtle program
  have hcompass : Compass.Square := Compass.square_rightAngles
  have hheading : turtle.pose.heading = (5 : ℤ) * Compass.ofDegrees 90 := by decide +kernel
  have hprogram : ∀ command ∈ program, command ∈ Turtle.walking := by decide
  have hx : turtle.stepCount gait program ⟨1, 0⟩ = turtle.stepCount gait program ⟨-1, 0⟩ := by decide +kernel
  have hy : turtle.stepCount gait program ⟨0, 1⟩ = turtle.stepCount gait program ⟨0, -1⟩ := by decide +kernel
  have hfract : Int.fract gait.length ≠ 1 / 2 := by decide +kernel
  obtain ⟨hreturn, -⟩ := walk_returns hcompass rfl rfl hheading hprogram hx hy
  exact ⟨hcompass, rfl, rfl, hheading, hprogram, hx, hy, hfract, hreturn hfract⟩

/-- Two steps and a half there take the turtle three units, and two steps and a half back only two. -/
theorem walk_stays_away_of_half_step :
    let _ := Compass.rightAngles
    let gait : Gait Rat := ⟨90, 5 / 2, 'F', 'f', true⟩
    let program : List (Command Rat) := [.draw, .turn 1, .turn 1, .draw]
    Compass.Square ∧ gait.angle = 90 ∧ gait.whole = true ∧ 0 < gait.length ∧
      (∀ command ∈ program, command ∈ Turtle.walking) ∧
      Turtle.initial.stepCount gait program ⟨1, 0⟩ = Turtle.initial.stepCount gait program ⟨-1, 0⟩ ∧
      Turtle.initial.stepCount gait program ⟨0, 1⟩ = Turtle.initial.stepCount gait program ⟨0, -1⟩ ∧
      (Turtle.initial.walk gait program).pose.position = ⟨1, 0⟩ ∧
      (Turtle.initial.walk gait program).pose.position ≠ (Turtle.initial : Turtle Rat).pose.position := by
  intro compass gait program
  refine ⟨Compass.square_rightAngles, rfl, rfl, ?_, ?_, ?_, ?_, ?_, ?_⟩ <;> decide +kernel

end LSystem
