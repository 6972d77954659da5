/-
  BatchDraw.Proofs.Wire.Carried

  What the wire carries of an operation.

  Not everything that is written comes back. A rectangle travels as a frame and
  is put together again, a dash offset without dashes is not written at all, and
  of a miter limit the wire knows only the one of a miter join, which then has to
  be some number. `Op.carried` is what comes back, and `Op.Fits.exists_wireOp`
  says that writing an operation is laying out a wire operation that means it.
-/
import BatchDraw.Proofs.Wire.Grammar

namespace BatchDraw

/-! ## Lists that can be counted -/

/-- Whether the segments of a shape can be counted by an integer operand. -/
def Shape.Fits : Shape → Prop
  | rect _ => True
  | path segments => segments.length ≤ maxCount

variable {N : Type}

/-- Whether the lists of an operation can be counted by an integer operand. -/
def Op.Fits : Op N → Prop
  | setStroke style => style.dash.length ≤ maxCount
  | strokeShape shape | fillShape shape | clipShape shape => shape.Fits
  | _ => True

/-! ## What comes back -/

/-- The second corner is rounded twice, on the way to a size and back. -/
def Rect.carried (rect : Rect) : Rect :=
  ⟨rect.x0, rect.y0, rect.x0 + (rect.x1 - rect.x0), rect.y0 + (rect.y1 - rect.y0)⟩

/-- An offset without dashes is lost, a miter limit is lost without a miter join
    and made up with one. -/
def StrokeStyle.carried (style : StrokeStyle) : StrokeStyle where
  width := style.width
  dash := style.dash
  dashOffset := if style.dash.isEmpty then 0.0 else style.dashOffset
  cap := style.cap
  join := style.join
  miterLimit :=
    if style.join = .miter then some (style.miterLimit.getD defaultMiterLimit) else none

/-- What the wire carries of a shape. -/
def Shape.carried : Shape → Shape
  | rect r => .rect r.carried
  | path segments => .path segments

/-- What the wire carries of an operation. -/
def Op.carried : Op N → Op N
  | setStroke style => .setStroke style.carried
  | strokeShape shape => .strokeShape shape.carried
  | fillShape shape => .fillShape shape.carried
  | clipShape shape => .clipShape shape.carried
  | drawImageRect image source target => .drawImageRect image source.carried target.carried
  | clearRect rect => .clearRect rect.carried
  | op => op

/-! ## Writing lays out wire operations -/

/-- The wire stroke that is written for a style. -/
def StrokeStyle.toWire (style : StrokeStyle) (fits : style.dash.length ≤ maxCount) :
    WireStroke where
  width := style.width
  dash := style.dash
  dashOffset := if style.dash.isEmpty then none else some style.dashOffset
  cap := style.cap
  join := style.join
  miterLimit :=
    if style.join = .miter then some (style.miterLimit.getD defaultMiterLimit) else none
  dash_fits := fits
  offset_iff := by cases style.dash <;> simp
  limit_iff := by cases style.join <;> simp

theorem StrokeStyle.operands_toWire {style : StrokeStyle}
    (fits : style.dash.length ≤ maxCount) :
    ((style.toWire fits).operands : Batch N) = style.wire := by
  have hoffset : (style.toWire fits).dashOffset.toList =
      if style.dash.isEmpty then [] else [style.dashOffset] := by
    show (if style.dash.isEmpty then none else some style.dashOffset).toList = _
    split <;> rfl
  have hlimit : (style.toWire fits).miterLimit.toList =
      if style.join = .miter then [style.miterLimit.getD defaultMiterLimit] else [] := by
    show (if style.join = .miter then some (style.miterLimit.getD defaultMiterLimit)
      else none).toList = _
    split <;> rfl
  rw [WireStroke.operands, hoffset, hlimit]
  rfl

theorem StrokeStyle.toStyle_toWire {style : StrokeStyle}
    (fits : style.dash.length ≤ maxCount) : (style.toWire fits).toStyle = style.carried := by
  have hoffset : (style.toWire fits).dashOffset.getD 0.0 =
      if style.dash.isEmpty then 0.0 else style.dashOffset := by
    show (if style.dash.isEmpty then none else some style.dashOffset).getD 0.0 = _
    split <;> rfl
  rw [WireStroke.toStyle, hoffset]
  rfl

/-- The wire shape that is written for a shape. -/
def Shape.toWire : (shape : Shape) → shape.Fits → WireShape
  | rect r, _ => .frame r.toFrame
  | path segments, fits => .path segments fits

theorem Shape.operands_toWire {shape : Shape} (fits : shape.Fits) :
    ((shape.toWire fits).operands : Batch N) = shape.wire := by
  cases shape <;> rfl

theorem Shape.toShape_toWire {shape : Shape} (fits : shape.Fits) :
    (shape.toWire fits).toShape = shape.carried := by
  cases shape <;> rfl

/-- An operation is written as a wire operation that means what comes back. -/
theorem Op.Fits.exists_wireOp {op : Op N} (h : op.Fits) :
    ∃ w : WireOp N, w.wire = op.wire ∧ w.toOp = op.carried := by
  cases op with
  | setFont font => exact ⟨.setFont font, rfl, rfl⟩
  | setPaint paint => exact ⟨.setPaint paint, rfl, rfl⟩
  | setStroke style =>
    refine ⟨.setStroke (style.toWire h), ?_, ?_⟩
    · rw [WireOp.wire, WireOp.operands, StrokeStyle.operands_toWire h]
      rfl
    · exact congrArg Op.setStroke (StrokeStyle.toStyle_toWire h)
  | setOpacity alpha => exact ⟨.setOpacity alpha, rfl, rfl⟩
  | strokeShape shape =>
    refine ⟨.strokeShape (shape.toWire h), ?_, congrArg Op.strokeShape (shape.toShape_toWire h)⟩
    rw [WireOp.wire, WireOp.operands, Shape.operands_toWire h]
    rfl
  | fillShape shape =>
    refine ⟨.fillShape (shape.toWire h), ?_, congrArg Op.fillShape (shape.toShape_toWire h)⟩
    rw [WireOp.wire, WireOp.operands, Shape.operands_toWire h]
    rfl
  | clipShape shape =>
    refine ⟨.clipShape (shape.toWire h), ?_, congrArg Op.clipShape (shape.toShape_toWire h)⟩
    rw [WireOp.wire, WireOp.operands, Shape.operands_toWire h]
    rfl
  | drawImageRect image source target =>
    exact ⟨.drawImageRect image source.toFrame target.toFrame, rfl, rfl⟩
  | drawImage image m => exact ⟨.drawImage image m, rfl, rfl⟩
  | fillText run => exact ⟨.fillText run, rfl, rfl⟩
  | strokeText run => exact ⟨.strokeText run, rfl, rfl⟩
  | transform m => exact ⟨.transform m, rfl, rfl⟩
  | setTransform m => exact ⟨.setTransform m, rfl, rfl⟩
  | save => exact ⟨.save, rfl, rfl⟩
  | restore => exact ⟨.restore, rfl, rfl⟩
  | clearRect r => exact ⟨.clearRect r.toFrame, rfl, rfl⟩
  | setImageQuality level => exact ⟨.setImageQuality level, rfl, rfl⟩

end BatchDraw
