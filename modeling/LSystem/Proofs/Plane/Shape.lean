import LSystem.Fault
import LSystem.Proofs.Plane.Fitting

/-! The shape of a drawing, in exact scalars: what it has in common with all drawings that a rescaling takes it to.
On a usable canvas drawings are fitted alike if and only if they have one shape. A fitted drawing has the shape of the
drawing, so that fitting it again changes nothing. -/

namespace LSystem

namespace Rescaling

variable (m n : Rescaling)

/-- First `n`, then `m`. -/
def comp : Rescaling where
  factor := m.factor * n.factor
  shift := m.apply n.shift
  factor_pos := mul_pos m.factor_pos n.factor_pos

def inverse : Rescaling where
  factor := 1 / m.factor
  shift := ⟨-(m.shift.x / m.factor), -(m.shift.y / m.factor)⟩
  factor_pos := one_div_pos.2 m.factor_pos

theorem apply_comp (p : Point Rat) : (m.comp n).apply p = m.apply (n.apply p) := by
  refine Point.ext ?_ ?_ <;> simp only [comp, apply] <;> ring

theorem inverse_apply (p : Point Rat) : m.inverse.apply (m.apply p) = p := by
  have hfactor := m.factor_pos.ne'
  refine Point.ext ?_ ?_ <;> simp only [inverse, apply] <;> field_simp <;> ring

/-- Moving everything and then stretching it. -/
def moveStretch (shift : Point Rat) (factor : Rat) (hpos : 0 < factor) : Rescaling where
  factor := factor
  shift := shift.map (factor * ·)
  factor_pos := hpos

theorem apply_moveStretch (shift : Point Rat) {factor : Rat} (hpos : 0 < factor) :
    (moveStretch shift factor hpos).apply = fun p => (p + shift).map (factor * ·) := by
  funext p
  exact Point.ext (mul_add _ _ _).symm (mul_add _ _ _).symm

end Rescaling

/-- A rescaling takes the one drawing to the other, segment by segment. -/
def SameShape (segments other : List (Segment Rat)) : Prop :=
  ∃ m : Rescaling, other = segments.map (·.map m.apply)

namespace SameShape

variable {segments other third : List (Segment Rat)}

theorem symm (h : SameShape segments other) : SameShape other segments := by
  obtain ⟨m, rfl⟩ := h
  refine ⟨m.inverse, ?_⟩
  rw [List.map_map]
  refine (List.map_id'' (fun s => ?_) segments).symm
  exact Segment.ext (m.inverse_apply _) (m.inverse_apply _)

theorem trans (h : SameShape segments other) (h' : SameShape other third) : SameShape segments third := by
  obtain ⟨m, rfl⟩ := h
  obtain ⟨n, rfl⟩ := h'
  refine ⟨n.comp m, ?_⟩
  rw [List.map_map]
  refine List.map_congr_left fun s _ => ?_
  exact Segment.ext (n.apply_comp m _).symm (n.apply_comp m _).symm

end SameShape

namespace Canvas

variable {canvas : Canvas Rat} {segments other : List (Segment Rat)}

theorem sameShape_fit (canvas : Canvas Rat) (segments : List (Segment Rat)) :
    SameShape segments (canvas.fit segments) := by
  cases hbox : Box.ofSegments? segments with
  | none =>
      obtain rfl := Box.ofSegments?_eq_none.1 hbox
      exact ⟨⟨1, Point.origin, one_pos⟩, rfl⟩
  | some box =>
      refine ⟨(canvas.layout box).rescaling (canvas.scale_pos box), ?_⟩
      rw [fit_of_box canvas hbox, Fit.apply_rescaling]

theorem fit_eq_iff (husable : canvas.usable = true) :
    canvas.fit other = canvas.fit segments ↔ SameShape segments other := by
  constructor
  · intro h
    have hfitted := canvas.sameShape_fit segments
    rw [← h] at hfitted
    exact hfitted.trans (canvas.sameShape_fit other).symm
  · rintro ⟨m, rfl⟩
    exact fit_map m husable segments

end Canvas

/-- **Fitting sees nothing but the shape.** On a checked canvas a drawing comes out as it does when it is moved and
then stretched, and a fitted one as it is. Drawings that come out alike have one shape. -/
theorem fit_of_shape {canvas checked : Canvas Rat} (hcanvas : canvas.check = .ok checked)
    (segments : List (Segment Rat)) :
    (∀ (shift : Point Rat) (factor : Rat), 0 < factor →
        checked.fit (segments.map (·.map fun p => (p + shift).map (factor * ·))) = checked.fit segments) ∧
      checked.fit (checked.fit segments) = checked.fit segments ∧
      ∀ other, checked.fit other = checked.fit segments ↔ SameShape segments other := by
  have husable := Canvas.usable_of_check hcanvas
  refine ⟨fun shift factor hpos => ?_, ?_, fun other => Canvas.fit_eq_iff husable⟩
  · have hshape : SameShape segments (segments.map (·.map fun p => (p + shift).map (factor * ·))) :=
      ⟨.moveStretch shift factor hpos, by rw [Rescaling.apply_moveStretch]⟩
    exact (Canvas.fit_eq_iff husable).2 hshape
  · exact (Canvas.fit_eq_iff husable).2 (checked.sameShape_fit segments)

/-- A flat drawing with a point at its end, moved and stretched; a canvas that is wider than it is high. -/
theorem fit_of_shape_of_level_line :
    let canvas : Canvas Rat := ⟨200, 100, 10⟩
    let segments : List (Segment Rat) := [⟨⟨0, 3⟩, ⟨4, 3⟩⟩, ⟨⟨4, 3⟩, ⟨4, 3⟩⟩]
    canvas.check = .ok canvas ∧ (0 : Rat) < 5 / 2 ∧
      canvas.fit (segments.map (·.map fun p => (p + ⟨1 / 3, -7⟩).map (5 / 2 * ·))) = canvas.fit segments ∧
      canvas.fit (canvas.fit segments) = canvas.fit segments ∧
      canvas.fit segments = [⟨⟨10, 50⟩, ⟨190, 50⟩⟩, ⟨⟨190, 50⟩, ⟨190, 50⟩⟩] := by
  intro canvas segments
  have hcanvas : canvas.check = .ok canvas := if_pos (by decide +kernel)
  have hpos : (0 : Rat) < 5 / 2 := by decide +kernel
  obtain ⟨hmoved, hagain, -⟩ := fit_of_shape hcanvas segments
  exact ⟨hcanvas, hpos, hmoved ⟨1 / 3, -7⟩ (5 / 2) hpos, hagain, by decide +kernel⟩

end LSystem
