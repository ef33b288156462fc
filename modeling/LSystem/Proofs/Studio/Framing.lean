import LSystem.Proofs.Plane.Fitting
import LSystem.Proofs.Studio.Rendering
import LSystem.Proofs.Turtle.RightAngles

/-! Where pictures lie on the canvas, in exact scalars and for any compass. The drawing is fitted before it
is fused, and fusion does not move its bounding box, so the box of a picture is that of the fitted drawing
whether anything was fused or not. -/

namespace LSystem

namespace Easel

/-- The canvas of the easel has passed its check, when the easel was set up or when it was resized. -/
inductive Checked {α : Type} [Scalar α] : Easel α → Prop
  | ofCanvas {settings : Settings α} {canvas checked : Canvas α} {easel : Easel α}
      (hcanvas : canvas.check = .ok checked) (heasel : Easel.ofCanvas settings checked = .ok easel) :
      Checked easel
  | ofSize {settings : Settings α} {width height : α} {easel : Easel α}
      (heasel : Easel.ofSize settings width height = .ok easel) : Checked easel
  | resize {before easel : Easel α} {width height : α} (heasel : before.resize width height = .ok easel) :
      Checked easel

variable {α : Type}

theorem canvas_of_ofCanvas {settings : Settings α} {canvas : Canvas α} {easel : Easel α}
    (h : Easel.ofCanvas settings canvas = .ok easel) : easel.canvas = canvas := by
  obtain ⟨_, -, heasel⟩ := exists_of_bind_eq_ok h
  rw [← Except.ok.inj heasel]

theorem Checked.usable [Scalar α] {easel : Easel α} (h : easel.Checked) : easel.canvas.usable = true := by
  cases h with
  | ofCanvas hcanvas heasel =>
      rw [canvas_of_ofCanvas heasel]
      exact Canvas.usable_of_check hcanvas
  | ofSize heasel =>
      obtain ⟨checked, hcanvas, hrest⟩ := exists_of_bind_eq_ok heasel
      rw [canvas_of_ofCanvas hrest]
      exact Canvas.usable_of_check hcanvas
  | resize heasel =>
      obtain ⟨checked, hcanvas, hrest⟩ := exists_of_bind_eq_ok heasel
      rw [← Except.ok.inj hrest]
      exact Canvas.usable_of_check hcanvas

end Easel

/-- An easel that has come about in one of the ways in which the canvas is checked. -/
structure CheckedEasel (α : Type) [Scalar α] extends Easel α where
  checked : toEasel.Checked

theorem CheckedEasel.usable {α : Type} [Scalar α] (easel : CheckedEasel α) : easel.canvas.usable = true :=
  easel.checked.usable

/-- **Every picture fits its canvas.** On a checked canvas all ends of a picture keep the margin, the picture
stands in the middle on both axes, and it has the whole inner width or the whole inner height unless all that
was drawn is one point. -/
theorem render_framed [Compass Rat] (easel : CheckedEasel Rat) {sketch : Sketch Rat} {picture : Picture Rat}
    (hrender : easel.render sketch = .ok picture) (hdrawn : 0 < picture.drawnCount) :
    ∃ word drawn frame, easel.grow sketch picture.rules = .ok word ∧
      draw picture.rules (easel.gait sketch) word = .ok drawn ∧ drawn.length = picture.drawnCount ∧
      Box.ofSegments? picture.segments = some frame ∧
      (∀ s ∈ picture.segments, ∀ p, s.HasEnd p →
        (easel.canvas.margin ≤ p.x ∧ p.x ≤ easel.canvas.width - easel.canvas.margin) ∧
          easel.canvas.margin ≤ p.y ∧ p.y ≤ easel.canvas.height - easel.canvas.margin) ∧
      (frame.low.x + frame.high.x = easel.canvas.width ∧ frame.low.y + frame.high.y = easel.canvas.height) ∧
      ((∃ p, ∀ s ∈ drawn, s.start = p ∧ s.finish = p) ∨
        frame.high.x - frame.low.x = easel.canvas.width - 2 * easel.canvas.margin ∨
        frame.high.y - frame.low.y = easel.canvas.height - 2 * easel.canvas.margin) := by
  obtain ⟨word, drawn, hgrow, hdraw, rfl⟩ := (easel.toEasel.paint_eq_ok_iff sketch).1 hrender
  cases hbox : Box.ofSegments? drawn with
  | none =>
      obtain rfl := Box.ofSegments?_eq_none.1 hbox
      exact absurd hdrawn (lt_irrefl 0)
  | some box =>
      obtain ⟨frame, hfitted, haxes, hfills⟩ := Canvas.exists_frame easel.usable hbox
      have hframe := (Box.ofSegments?_fuse easel.settings.fuseLimit _).trans hfitted
      refine ⟨word, drawn, frame, hgrow, hdraw, rfl, hframe, ?_, ⟨(haxes .x).2.2, (haxes .y).2.2⟩, ?_⟩
      · intro s hs p hp
        have hinside : ∀ axis,
            frame.low.coord axis ≤ p.coord axis ∧ p.coord axis ≤ frame.high.coord axis := by
          intro axis
          have hmem := coord_mem_spread axis hs hp
          exact ⟨(Box.isLeast_low hframe axis).2 hmem, (Box.isGreatest_high hframe axis).2 hmem⟩
        have hkept : ∀ axis, easel.canvas.margin ≤ p.coord axis ∧
            p.coord axis ≤ easel.canvas.size.coord axis - easel.canvas.margin := by
          intro axis
          exact ⟨(haxes axis).1.trans (hinside axis).1, (hinside axis).2.trans (haxes axis).2.1⟩
        exact ⟨hkept .x, hkept .y⟩
      · refine hfills.imp_right ?_
        rintro ⟨axis, haxis⟩
        rw [Canvas.coord_inner] at haxis
        cases axis
        · exact Or.inl haxis
        · exact Or.inr haxis

/-- Two steps and a third across them, on a canvas that is wide enough. -/
theorem render_framed_of_corner :
    let easel : Easel Rat := ⟨⟨12, 10, 90, 10, 20000, 'F', 'f', true⟩, ⟨200, 100, 10⟩⟩
    let sketch : Sketch Rat := ⟨['F', 'F', '+', 'F'], .empty, 1, 90, 10⟩
    easel.Checked ∧ ∃ picture frame, @Easel.render _ _ Compass.rightAngles easel sketch = .ok picture ∧
      picture.drawnCount = 3 ∧ Box.ofSegments? picture.segments = some frame ∧
      (∀ s ∈ picture.segments, ∀ p, s.HasEnd p →
        (10 ≤ p.x ∧ p.x ≤ 200 - 10) ∧ 10 ≤ p.y ∧ p.y ≤ 100 - 10) ∧
      frame.low.x + frame.high.x = 200 ∧ frame.low.y + frame.high.y = 100 := by
  intro easel sketch
  let _ := Compass.rightAngles
  have hcanvas : easel.canvas.check = .ok easel.canvas := if_pos (by decide +kernel)
  have hsetup : Easel.ofCanvas easel.settings easel.canvas = .ok easel := rfl
  have heasel : easel.Checked := .ofCanvas hcanvas hsetup
  have hgait : (easel.gait sketch).check = .ok () := Gait.check_eq_ok.2 ⟨rfl, rfl, by decide⟩
  obtain ⟨picture, hpicture, hcount⟩ :=
    easel.paint_of_room sketch (sketch.rules.adapt sketch.start) (by decide) hgait (by decide +kernel)
  have hthree : picture.drawnCount = 3 := by
    rw [hcount]
    decide +kernel
  obtain ⟨-, -, frame, -, -, -, hframe, hinside, hcentred, -⟩ :=
    render_framed ⟨easel, heasel⟩ hpicture (by rw [hthree]; decide)
  exact ⟨heasel, picture, frame, hpicture, hthree, hframe, hinside, hcentred⟩

end LSystem
