import LSystem.Proofs.Plane.Rescaling
import LSystem.Proofs.Turtle.Reading

/-! Turtles at two scales, in exact scalars and for any compass. If steps are not rounded, a turtle whose pose and
saved poses are rescaled and whose step is stretched by the same factor stays so with every command, and the
segments that it draws are the rescaled ones. A walk that starts at the origin can be rescaled by any factor. -/

namespace LSystem

def Pose.map {α : Type} (f : Point α → Point α) (pose : Pose α) : Pose α := ⟨f pose.position, pose.heading⟩

def Turtle.map {α : Type} (f : Point α → Point α) (turtle : Turtle α) : Turtle α :=
  ⟨turtle.pose.map f, turtle.branches.map (·.map f)⟩

namespace Rescaling

/-- Lengths are multiplied; the origin stays where it is. -/
def dilation (factor : Rat) (hpos : 0 < factor) : Rescaling := ⟨factor, Point.origin, hpos⟩

theorem map_initial {factor : Rat} (hpos : 0 < factor) :
    (Turtle.initial : Turtle Rat).map (dilation factor hpos).apply = .initial := by
  have horigin : (dilation factor hpos).apply Point.origin = Point.origin := by
    refine Point.ext ?_ ?_ <;> show factor * 0 + 0 = (0 : Rat) <;> ring
  exact congrArg (fun position => Turtle.mk (Pose.mk position 0) []) horigin

variable (m : Rescaling) {gait : Gait Rat}

/-- The same way of going with longer or shorter steps. -/
def stretch (gait : Gait Rat) : Gait Rat := { gait with length := m.factor * gait.length }

variable [Compass Rat]

theorem apply_add_stride (pose : Pose Rat) (length : Rat) :
    m.apply (pose.position + pose.stride length false) =
      m.apply pose.position + pose.stride (m.factor * length) false := by
  refine Point.ext ?_ ?_
  · show m.factor * (pose.position.x + Compass.cos pose.heading * length) + m.shift.x =
      m.factor * pose.position.x + m.shift.x + Compass.cos pose.heading * (m.factor * length)
    ring
  · show m.factor * (pose.position.y + Compass.sin pose.heading * length) + m.shift.y =
      m.factor * pose.position.y + m.shift.y + Compass.sin pose.heading * (m.factor * length)
    ring

theorem advance_map (pose : Pose Rat) (length : Rat) :
    (pose.map m.apply).advance (m.factor * length) false = (pose.advance length false).map m.apply :=
  congrArg (Pose.mk · pose.heading) (m.apply_add_stride pose length).symm

/-- One command keeps a turtle and its rescaled double together. -/
theorem obey_map (hwhole : gait.whole = false) (turtle : Turtle Rat) (command : Command Rat) :
    (turtle.map m.apply).obey (m.stretch gait) command = (turtle.obey gait command).map m.apply := by
  have hstep : (turtle.pose.map m.apply).advance (m.stretch gait).length (m.stretch gait).whole =
      (turtle.pose.advance gait.length gait.whole).map m.apply := by
    rw [show (m.stretch gait).whole = gait.whole from rfl, hwhole]
    exact m.advance_map turtle.pose gait.length
  cases command with
  | draw | move => exact congrArg (Turtle.mk · _) hstep
  | turn times => rfl
  | push => rfl
  | pop =>
      obtain ⟨pose, branches⟩ := turtle
      cases branches <;> rfl
  | ignore => rfl

theorem mark?_map (hwhole : gait.whole = false) (turtle : Turtle Rat) (command : Command Rat) :
    (turtle.map m.apply).mark? (m.stretch gait) command = (turtle.mark? gait command).map (·.map m.apply) := by
  cases command with
  | draw =>
      show some (Segment.mk _ ((turtle.map m.apply).obey (m.stretch gait) .draw).pose.position) = _
      rw [obey_map m hwhole]
      rfl
  | move | turn | push | pop | ignore => rfl

/-- Whatever the commands, the double draws the rescaled segments. -/
theorem trace_map (hwhole : gait.whole = false) (turtle : Turtle Rat) (commands : List (Command Rat)) :
    (turtle.map m.apply).trace (m.stretch gait) commands = (turtle.trace gait commands).map (·.map m.apply) := by
  induction commands generalizing turtle with
  | nil => rfl
  | cons command commands ih =>
      rw [Turtle.trace_cons, Turtle.trace_cons, mark?_map m hwhole, obey_map m hwhole, ih, List.map_append,
        Option.toList_map]

end Rescaling

/-- A word drawn with a stretched step is the stretched drawing, unless it cannot be drawn at either step. -/
theorem draw_stretch [Compass Rat] (rules : Rulebook) {gait : Gait Rat} (hwhole : gait.whole = false)
    (hlength : 0 < gait.length) {factor : Rat} (hpos : 0 < factor) (word : Word) :
    let m := Rescaling.dilation factor hpos
    draw rules (m.stretch gait) word = (draw rules gait word).map (·.map (·.map m.apply)) := by
  intro m
  have hgait : gait.check = .ok () := Gait.check_eq_ok.2 ⟨rfl, rfl, not_le.2 hlength⟩
  have hstretched : (m.stretch gait).check = .ok () :=
    Gait.check_eq_ok.2 ⟨rfl, rfl, not_le.2 (mul_pos hpos hlength)⟩
  have hread : Turtle.initial.read (m.stretch gait) rules word =
      (Turtle.initial.read gait rules word).map (·.map m.apply) := by
    rw [Turtle.read_eq_trace, Turtle.read_eq_trace, ← m.trace_map hwhole, Rescaling.map_initial hpos]
    rfl
  rw [draw_eq, draw_eq, hgait, hstretched, hread]
  by_cases hroom : word.toFinset.card ≤ SymbolTable.capacity
  · simp only [bind, Except.bind, if_pos hroom]
    rfl
  · simp only [bind, Except.bind, if_neg hroom]
    rfl

end LSystem
