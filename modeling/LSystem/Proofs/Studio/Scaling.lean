import LSystem.Proofs.Studio.Framing
import LSystem.Proofs.Turtle.Scaling

/-! The step of a sketch, in exact scalars and for any compass. Without rounding the step only sets the scale at
which the turtle draws, and fitting takes the scale out again before anything is fused. -/

namespace LSystem

namespace Easel

variable [Compass Rat] {easel : Easel Rat}

/-- What a sketch is drawn as before it is fitted: the same at every step, but for the scale. -/
theorem draw_gait_of_length (hwhole : easel.settings.whole = false) (sketch : Sketch Rat) {length other : Rat}
    (hlength : 0 < length) (hother : 0 < other) (rules : Rulebook) (word : Word) :
    ∃ m : Rescaling, draw rules (easel.gait { sketch with length := other }) word =
      (draw rules (easel.gait { sketch with length := length }) word).map (·.map (·.map m.apply)) := by
  have hpos : 0 < other / length := div_pos hother hlength
  have hgait : easel.gait { sketch with length := other } =
      (Rescaling.dilation _ hpos).stretch (easel.gait { sketch with length := length }) := by
    have hstep : other = other / length * length := (div_mul_cancel₀ other hlength.ne').symm
    exact congrArg (Gait.mk sketch.angle · _ _ _) hstep
  refine ⟨Rescaling.dilation _ hpos, ?_⟩
  rw [hgait]
  exact draw_stretch rules hwhole hlength hpos word

end Easel

/-- **The step length does not show.** If steps are not rounded and the canvas is a checked one, a sketch comes out
the same at any two positive steps: as the same fault, or as the same picture with rules, numbers and segments. -/
theorem render_of_length [Compass Rat] (easel : CheckedEasel Rat) (hwhole : easel.settings.whole = false)
    (sketch : Sketch Rat) {length other : Rat} (hlength : 0 < length) (hother : 0 < other) :
    easel.render { sketch with length := length } = easel.render { sketch with length := other } := by
  have hgrow : ∀ rules, easel.grow { sketch with length := other } rules =
      easel.grow { sketch with length := length } rules := fun _ => rfl
  rw [Easel.render, Easel.render, hgrow]
  refine bind_congr fun word => ?_
  obtain ⟨m, hdraw⟩ :=
    Easel.draw_gait_of_length hwhole sketch hlength hother (sketch.rules.adapt sketch.start) word
  rw [hdraw]
  cases draw (sketch.rules.adapt sketch.start) (easel.gait { sketch with length := length }) word with
  | error fault => rfl
  | ok drawn =>
      show Except.ok _ = Except.ok (Picture.mk _ _ (drawn.map (·.map m.apply)).length
        (fuse _ (easel.canvas.fit (drawn.map (·.map m.apply)))))
      rw [Canvas.fit_map m easel.usable, List.length_map]

/-- A branch and a move at a whole step and at a third; at either there is a picture of three segments drawn. -/
theorem render_of_length_of_branch :
    let easel : Easel Rat := ⟨⟨12, 10, 90, 10, 20000, 'F', 'f', false⟩, ⟨200, 100, 10⟩⟩
    let sketch : Sketch Rat := ⟨['F', '[', '+', 'f', 'F', ']', 'F'], .empty, 1, 90, 10⟩
    easel.Checked ∧
      @Easel.render _ _ Compass.rightAngles easel { sketch with length := 10 } =
        @Easel.render _ _ Compass.rightAngles easel { sketch with length := 1 / 3 } ∧
      ∃ picture, @Easel.render _ _ Compass.rightAngles easel { sketch with length := 1 / 3 } = .ok picture ∧
        picture.drawnCount = 3 := by
  intro easel sketch
  let _ := Compass.rightAngles
  have hcanvas : easel.canvas.check = .ok easel.canvas := if_pos (by decide +kernel)
  have hsetup : Easel.ofCanvas easel.settings easel.canvas = .ok easel := rfl
  have heasel : easel.Checked := .ofCanvas hcanvas hsetup
  have hgait : (easel.gait { sketch with length := 1 / 3 }).check = .ok () :=
    Gait.check_eq_ok.2 ⟨rfl, rfl, by decide +kernel⟩
  obtain ⟨picture, hpicture, hcount⟩ :=
    easel.paint_of_room { sketch with length := 1 / 3 } (sketch.rules.adapt sketch.start) (by decide) hgait
      (by decide +kernel)
  refine ⟨heasel, render_of_length ⟨easel, heasel⟩ rfl sketch (by decide +kernel) (by decide +kernel), picture, hpicture, ?_⟩
  rw [hcount]
  decide +kernel

end LSystem
