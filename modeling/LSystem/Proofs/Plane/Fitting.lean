import LSystem.Plane.Canvas
import LSystem.Proofs.Plane.Rescaling

/-! Fitting in exact scalars. A layout is a rescaling, whatever the canvas is; since fusion sees neither
the scale nor moves the bounding box, a drawing may be fused before or after it is fitted. On a usable
canvas the margin never pushes the drawing off the centre: the scaled extent leaves at least twice the
margin on either axis. How large a drawing is before it is fitted, and where, makes no difference. -/

namespace LSystem

namespace Fit

/-- Placing a point as a rescaling. -/
def rescaling (fit : Fit Rat) (hscale : 0 < fit.scale) : Rescaling where
  factor := 1 / fit.scale
  shift := ⟨fit.offset.x - fit.box.low.x / fit.scale, fit.offset.y - fit.box.low.y / fit.scale⟩
  factor_pos := one_div_pos.2 hscale

theorem place_x (fit : Fit Rat) (p : Point Rat) :
    (fit.place p).x = (p.x - fit.box.low.x) / fit.scale + fit.offset.x := rfl

theorem place_y (fit : Fit Rat) (p : Point Rat) :
    (fit.place p).y = (p.y - fit.box.low.y) / fit.scale + fit.offset.y := rfl

theorem apply_rescaling (fit : Fit Rat) (hscale : 0 < fit.scale) : (fit.rescaling hscale).apply = fit.place := by
  funext p
  refine Point.ext ?_ ?_
  · rw [place_x, Rescaling.apply, rescaling]
    ring
  · rw [place_y, Rescaling.apply, rescaling]
    ring

theorem coord_place (fit : Fit Rat) (p : Point Rat) (axis : Axis) :
    (fit.place p).coord axis = (p.coord axis - fit.box.low.coord axis) / fit.scale + fit.offset.coord axis := by
  cases axis <;> rfl

end Fit

namespace Canvas

variable (canvas : Canvas Rat) (box : Box Rat) {segments : List (Segment Rat)}

theorem scale_layout :
    (canvas.layout box).scale = if canvas.ratio box.extent ≤ 0 then 1 else canvas.ratio box.extent := by
  simp only [layout, decide_eq_true_eq]

theorem scale_pos : 0 < (canvas.layout box).scale := by
  rw [scale_layout]
  split_ifs with h
  · exact zero_lt_one
  · exact not_le.1 h

variable {box}

theorem fit_of_box (h : Box.ofSegments? segments = some box) :
    canvas.fit segments = segments.map (·.map (canvas.layout box).place) := by
  rw [fit, layout?, h]
  rfl

theorem fit_nil : canvas.fit [] = [] := rfl

/-- The box around the fitted segments is the box around the segments, laid out with them. -/
theorem ofSegments?_fit (h : Box.ofSegments? segments = some box) :
    Box.ofSegments? (canvas.fit segments) = some (box.map (canvas.layout box).place) := by
  rw [fit_of_box canvas h, ← Fit.apply_rescaling _ (canvas.scale_pos box), Rescaling.ofSegments?_map, h]
  rfl

/-! ### Room -/

theorem two_rat : (Scalar.two : Rat) = 2 := one_add_one_eq_two

theorem coord_inner (axis : Axis) :
    canvas.inner.coord axis = canvas.size.coord axis - 2 * canvas.margin := by
  rw [← two_rat]
  cases axis <;> rfl

theorem usable_iff : canvas.usable = true ↔ 0 ≤ canvas.margin ∧ ∀ axis, 0 < canvas.inner.coord axis := by
  have haxes : (∀ axis, 0 < canvas.inner.coord axis) ↔ 0 < canvas.inner.x ∧ 0 < canvas.inner.y := by
    constructor
    · intro h
      exact ⟨h .x, h .y⟩
    · rintro ⟨hx, hy⟩ (_ | _)
      · exact hx
      · exact hy
  have hfinite : ∀ a : Rat, Scalar.isFinite a = true := fun _ => rfl
  rw [haxes, usable]
  simp [hfinite]

theorem ratio_eq (extent : Point Rat) :
    canvas.ratio extent = max (extent.x / canvas.inner.x) (extent.y / canvas.inner.y) :=
  Scalar.greater_rat _ _

theorem le_ratio (extent : Point Rat) (axis : Axis) :
    extent.coord axis / canvas.inner.coord axis ≤ canvas.ratio extent := by
  rw [ratio_eq]
  cases axis
  · exact le_max_left _ _
  · exact le_max_right _ _

theorem exists_ratio_eq (extent : Point Rat) :
    ∃ axis, canvas.ratio extent = extent.coord axis / canvas.inner.coord axis := by
  rw [ratio_eq]
  rcases max_choice (extent.x / canvas.inner.x) (extent.y / canvas.inner.y) with h | h
  · exact ⟨.x, h⟩
  · exact ⟨.y, h⟩

variable {canvas}

theorem extent_nonpos (husable : canvas.usable = true) {extent : Point Rat} (hratio : canvas.ratio extent ≤ 0)
    (axis : Axis) : extent.coord axis ≤ 0 := by
  have hinner := (canvas.usable_iff.1 husable).2 axis
  by_contra hpos
  have hquotient := div_pos (not_le.1 hpos) hinner
  exact absurd ((canvas.le_ratio extent axis).trans hratio) (not_le.2 hquotient)

variable (box)

/-- The extent after scaling. -/
theorem scaled_le_inner (husable : canvas.usable = true) (axis : Axis) :
    box.extent.coord axis / (canvas.layout box).scale ≤ canvas.inner.coord axis := by
  have hinner := (canvas.usable_iff.1 husable).2 axis
  rw [scale_layout]
  split_ifs with h
  · rw [div_one]
    exact (extent_nonpos husable h axis).trans hinner.le
  · rw [div_le_iff₀ (not_le.1 h), mul_comm]
    exact (div_le_iff₀ hinner).1 (canvas.le_ratio box.extent axis)

/-- The margin never decides the offset: the drawing stands in the middle. -/
theorem coord_offset (husable : canvas.usable = true) (axis : Axis) :
    (canvas.layout box).offset.coord axis =
      (canvas.size.coord axis - box.extent.coord axis / (canvas.layout box).scale) / 2 := by
  have hscaled := scaled_le_inner box husable axis
  rw [coord_inner] at hscaled
  have hoffset : (canvas.layout box).offset.coord axis =
      max ((canvas.size.coord axis - box.extent.coord axis / (canvas.layout box).scale) / 2) canvas.margin := by
    rw [← Scalar.greater_rat, ← two_rat]
    cases axis <;> rfl
  rw [hoffset, max_eq_left]
  linarith

theorem coord_extent (axis : Axis) :
    box.extent.coord axis = box.high.coord axis - box.low.coord axis := by
  cases axis <;> rfl

/-- Where the box around the fitted segments ends: at half the scaled extent on either side of the middle. -/
theorem coord_frame (husable : canvas.usable = true) (axis : Axis) :
    let frame := box.map (canvas.layout box).place
    let extent := box.extent.coord axis / (canvas.layout box).scale
    frame.low.coord axis = (canvas.size.coord axis - extent) / 2 ∧
      frame.high.coord axis = (canvas.size.coord axis + extent) / 2 := by
  intro frame extent
  have hlow : frame.low.coord axis = 0 / (canvas.layout box).scale + (canvas.layout box).offset.coord axis := by
    rw [← sub_self (box.low.coord axis)]
    exact Fit.coord_place _ _ axis
  have hhigh : frame.high.coord axis = extent + (canvas.layout box).offset.coord axis := by
    rw [show extent = _ / _ from rfl, coord_extent]
    exact Fit.coord_place _ _ axis
  rw [coord_offset box husable] at hlow hhigh
  constructor
  · rw [hlow, zero_div, zero_add]
  · rw [hhigh]
    ring

variable {box}

/-- Without extent there is only one point. -/
theorem eq_low_of_ratio_nonpos (husable : canvas.usable = true) (hbox : Box.ofSegments? segments = some box)
    (hratio : canvas.ratio box.extent ≤ 0) {s : Segment Rat} (hs : s ∈ segments) {p : Point Rat}
    (hp : s.HasEnd p) : p = box.low := by
  apply Point.ext_coord
  intro axis
  have hextent := extent_nonpos husable hratio axis
  have hflat : box.high.coord axis ≤ box.low.coord axis := by
    cases axis <;> exact sub_nonpos.1 hextent
  have hmem := coord_mem_spread axis hs hp
  exact le_antisymm (((Box.isGreatest_high hbox axis).2 hmem).trans hflat) ((Box.isLeast_low hbox axis).2 hmem)

/-- The axis with the larger ratio is filled. -/
theorem exists_filled (hratio : ¬canvas.ratio box.extent ≤ 0) :
    ∃ axis, box.extent.coord axis / (canvas.layout box).scale = canvas.inner.coord axis := by
  obtain ⟨axis, haxis⟩ := canvas.exists_ratio_eq box.extent
  refine ⟨axis, ?_⟩
  have hextent : box.extent.coord axis ≠ 0 := by
    intro hzero
    rw [haxis, hzero, zero_div] at hratio
    exact hratio le_rfl
  rw [scale_layout, if_neg hratio, haxis, div_div_cancel₀ hextent]

/-- Fitted segments stand inside the margin and in the middle, and fill one axis unless they are all one
point. -/
theorem exists_frame (husable : canvas.usable = true) (hbox : Box.ofSegments? segments = some box) :
    ∃ frame, Box.ofSegments? (canvas.fit segments) = some frame ∧
      (∀ axis, canvas.margin ≤ frame.low.coord axis ∧
        frame.high.coord axis ≤ canvas.size.coord axis - canvas.margin ∧
        frame.low.coord axis + frame.high.coord axis = canvas.size.coord axis) ∧
      ((∃ p, ∀ s ∈ segments, s.start = p ∧ s.finish = p) ∨
        ∃ axis, frame.high.coord axis - frame.low.coord axis = canvas.inner.coord axis) := by
  refine ⟨box.map (canvas.layout box).place, ofSegments?_fit canvas hbox, ?_, ?_⟩
  · intro axis
    obtain ⟨hlow, hhigh⟩ := coord_frame box husable axis
    have hscaled := scaled_le_inner box husable axis
    rw [coord_inner] at hscaled
    rw [hlow, hhigh]
    refine ⟨?_, ?_, ?_⟩ <;> linarith
  · by_cases hratio : canvas.ratio box.extent ≤ 0
    · left
      refine ⟨box.low, fun s hs => ⟨?_, ?_⟩⟩
      · exact eq_low_of_ratio_nonpos husable hbox hratio hs (Or.inl rfl)
      · exact eq_low_of_ratio_nonpos husable hbox hratio hs (Or.inr rfl)
    · right
      obtain ⟨axis, haxis⟩ := exists_filled hratio
      obtain ⟨hlow, hhigh⟩ := coord_frame box husable axis
      refine ⟨axis, ?_⟩
      rw [hlow, hhigh, ← haxis]
      ring

/-! ### Scale -/

section

variable (m : Rescaling)

theorem coord_extent_map (box : Box Rat) (axis : Axis) :
    (box.map m.apply).extent.coord axis = m.factor * box.extent.coord axis := by
  rw [coord_extent, coord_extent]
  show (m.apply box.high).coord axis - (m.apply box.low).coord axis = _
  rw [m.coord_apply, m.coord_apply]
  ring

theorem ratio_map (box : Box Rat) :
    canvas.ratio (box.map m.apply).extent = m.factor * canvas.ratio box.extent := by
  have hx : (box.map m.apply).extent.x = m.factor * box.extent.x := coord_extent_map m box .x
  have hy : (box.map m.apply).extent.y = m.factor * box.extent.y := coord_extent_map m box .y
  rw [ratio_eq, ratio_eq, hx, hy, mul_div_assoc, mul_div_assoc, mul_max_of_nonneg _ _ m.factor_pos.le]

/-- Lengths come out alike: what the map multiplies, the scale divides by. A box without extent is not scaled,
but there all lengths are zero. -/
theorem div_scale_map (box : Box Rat) {a : Rat} (ha : canvas.ratio box.extent ≤ 0 → a = 0) :
    m.factor * a / (canvas.layout (box.map m.apply)).scale = a / (canvas.layout box).scale := by
  have hsign : canvas.ratio (box.map m.apply).extent ≤ 0 ↔ canvas.ratio box.extent ≤ 0 := by
    rw [ratio_map, ← not_lt, ← not_lt, mul_pos_iff_of_pos_left m.factor_pos]
  rw [scale_layout, scale_layout]
  by_cases hratio : canvas.ratio box.extent ≤ 0
  · rw [ha hratio, mul_zero, zero_div, zero_div]
  · rw [if_neg hratio, if_neg (mt hsign.1 hratio), ratio_map, mul_div_mul_left _ _ m.factor_pos.ne']

/-- A point of a drawing is placed where it is placed when the drawing is rescaled. -/
theorem place_apply (husable : canvas.usable = true) (hbox : Box.ofSegments? segments = some box)
    {s : Segment Rat} (hs : s ∈ segments) {p : Point Rat} (hp : s.HasEnd p) :
    (canvas.layout (box.map m.apply)).place (m.apply p) = (canvas.layout box).place p := by
  apply Point.ext_coord
  intro axis
  have hextent : canvas.ratio box.extent ≤ 0 → box.extent.coord axis = 0 := by
    intro hratio
    have hlow := (Box.isLeast_low hbox axis).2 (coord_mem_spread axis hs hp)
    have hhigh := (Box.isGreatest_high hbox axis).2 (coord_mem_spread axis hs hp)
    refine le_antisymm (extent_nonpos husable hratio axis) ?_
    rw [coord_extent]
    exact sub_nonneg.2 (hlow.trans hhigh)
  have hpoint : canvas.ratio box.extent ≤ 0 → p.coord axis - box.low.coord axis = 0 := by
    intro hratio
    rw [eq_low_of_ratio_nonpos husable hbox hratio hs hp, sub_self]
  have hmoved : (m.apply p).coord axis - (box.map m.apply).low.coord axis =
      m.factor * (p.coord axis - box.low.coord axis) := by
    rw [show (box.map m.apply).low = m.apply box.low from rfl, m.coord_apply, m.coord_apply]
    ring
  calc ((canvas.layout (box.map m.apply)).place (m.apply p)).coord axis
      = ((m.apply p).coord axis - (box.map m.apply).low.coord axis) / (canvas.layout (box.map m.apply)).scale +
          (canvas.layout (box.map m.apply)).offset.coord axis := Fit.coord_place _ _ axis
    _ = (p.coord axis - box.low.coord axis) / (canvas.layout box).scale +
          (canvas.layout box).offset.coord axis := by
        rw [coord_offset _ husable, coord_offset _ husable, hmoved, coord_extent_map, div_scale_map m box hpoint,
          div_scale_map m box hextent]
    _ = ((canvas.layout box).place p).coord axis := (Fit.coord_place (canvas.layout box) p axis).symm

/-- Fitting does not see the scale. -/
theorem fit_map (husable : canvas.usable = true) (segments : List (Segment Rat)) :
    canvas.fit (segments.map (·.map m.apply)) = canvas.fit segments := by
  cases hbox : Box.ofSegments? segments with
  | none =>
      rw [Box.ofSegments?_eq_none.1 hbox]
      rfl
  | some box =>
      have hmapped : Box.ofSegments? (segments.map (·.map m.apply)) = some (box.map m.apply) := by
        rw [m.ofSegments?_map, hbox]
        rfl
      rw [fit_of_box canvas hmapped, fit_of_box canvas hbox, List.map_map]
      refine List.map_congr_left fun s hs => Segment.ext ?_ ?_
      · exact place_apply m husable hbox hs (Or.inl rfl)
      · exact place_apply m husable hbox hs (Or.inr rfl)

end

end Canvas

/-- **Fusion and fitting commute.** A drawing may be fused before or after it is fitted; either way the same
segments are put together, fold by fold. -/
theorem fuse_fit_comm (canvas : Canvas Rat) (limit : Nat) (segments : List (Segment Rat)) :
    fuse limit (canvas.fit segments) = canvas.fit (fuse limit segments) ∧
      ∃ place, canvas.fit segments = segments.map (·.map place) ∧
        strands (canvas.fit segments) = (strands segments).map (·.map place) := by
  cases h : Box.ofSegments? segments with
  | none =>
      obtain rfl := Box.ofSegments?_eq_none.1 h
      have hnil : fuse limit (canvas.fit []) = [] := fuse_eq_nil.2 rfl
      refine ⟨?_, fun p => p, rfl, ?_⟩
      · rw [hnil, fuse_eq_nil.2 rfl]
        rfl
      · rw [Canvas.fit_nil, strands, List.map_nil]
  | some box =>
      have hfused := (Box.ofSegments?_fuse limit segments).trans h
      have hplace := Fit.apply_rescaling _ (canvas.scale_pos box)
      refine ⟨?_, (canvas.layout box).place, canvas.fit_of_box h, ?_⟩
      · rw [Canvas.fit_of_box canvas h, Canvas.fit_of_box canvas hfused, ← hplace, Rescaling.fuse_map]
      · rw [Canvas.fit_of_box canvas h, ← hplace, Rescaling.strands_map]

end LSystem
