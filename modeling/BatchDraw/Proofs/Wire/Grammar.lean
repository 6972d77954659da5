/-
  BatchDraw.Proofs.Wire.Grammar

  Operations as they stand on the wire.

  A `WireOp` is an operation before anything was made of its operands. Its
  rectangles are still frames, so nothing has been rounded, and its strokes have
  a dash offset and a miter limit only where the format has room for them.
  `WireOp.toOp` is the operation that is meant.

  `serialise` lays wire operations out in a batch. No two lists of them are laid
  out alike, whatever operands stand behind them (`serialise_append_inj`): the
  kind of an operation is in its tag, and each count comes before what it counts.
-/
import BatchDraw.Wire.Layout

namespace BatchDraw

/-! ## Strokes, shapes and operations -/

structure WireStroke where
  width : Float
  dash : List Float
  dashOffset : Option Float
  cap : Cap
  join : Join
  miterLimit : Option Float
  dash_fits : dash.length ≤ maxCount
  /-- The offset is there behind dashes only. -/
  offset_iff : dashOffset.isSome ↔ dash ≠ []
  /-- The limit is there behind a miter join only. -/
  limit_iff : miterLimit.isSome ↔ join = .miter

inductive WireShape where
  /-- A rectangle: the mark, then its frame. -/
  | frame (frame : Frame)
  /-- A path: how many segments there are, then the segments. -/
  | path (segments : List Segment) (fits : segments.length ≤ maxCount)

inductive WireOp (N : Type) where
  | setFont (font : Option N)
  | setPaint (paint : Option N)
  | setStroke (stroke : WireStroke)
  | setOpacity (alpha : Float)
  | strokeShape (shape : WireShape)
  | fillShape (shape : WireShape)
  | clipShape (shape : WireShape)
  | drawImageRect (image : Option N) (source target : Frame)
  | drawImage (image : Option N) (transform : Affine)
  | fillText (run : TextRun)
  | strokeText (run : TextRun)
  | transform (transform : Affine)
  | setTransform (transform : Affine)
  | save
  | restore
  | clearRect (frame : Frame)
  | setImageQuality (level : Float)

/-! ## What is meant -/

/-- The stroke that is meant. With no offset on the wire, dashes begin at zero. -/
def WireStroke.toStyle (stroke : WireStroke) : StrokeStyle where
  width := stroke.width
  dash := stroke.dash
  dashOffset := stroke.dashOffset.getD 0.0
  cap := stroke.cap
  join := stroke.join
  miterLimit := stroke.miterLimit

def WireShape.toShape : WireShape → Shape
  | frame f => .ofFrame f
  | path segments _ => .path segments

variable {N : Type}

namespace WireOp

def kind : WireOp N → OpKind
  | setFont _ => .setFont
  | setPaint _ => .setPaint
  | setStroke _ => .setStroke
  | setOpacity _ => .setOpacity
  | strokeShape _ => .strokeShape
  | fillShape _ => .fillShape
  | clipShape _ => .clipShape
  | drawImageRect _ _ _ => .drawImageRect
  | drawImage _ _ => .drawImage
  | fillText _ => .fillText
  | strokeText _ => .strokeText
  | transform _ => .transform
  | setTransform _ => .setTransform
  | save => .save
  | restore => .restore
  | clearRect _ => .clearRect
  | setImageQuality _ => .setImageQuality

def toOp : WireOp N → Op N
  | setFont font => .setFont font
  | setPaint paint => .setPaint paint
  | setStroke stroke => .setStroke stroke.toStyle
  | setOpacity alpha => .setOpacity alpha
  | strokeShape shape => .strokeShape shape.toShape
  | fillShape shape => .fillShape shape.toShape
  | clipShape shape => .clipShape shape.toShape
  | drawImageRect image source target => .drawImageRect image source.toRect target.toRect
  | drawImage image m => .drawImage image m
  | fillText run => .fillText run
  | strokeText run => .strokeText run
  | transform m => .transform m
  | setTransform m => .setTransform m
  | save => .save
  | restore => .restore
  | clearRect frame => .clearRect frame.toRect
  | setImageQuality level => .setImageQuality level

end WireOp

/-! ## Layouts -/

def WireStroke.operands (stroke : WireStroke) : Batch N where
  ints := [countWord stroke.dash.length, stroke.cap.code, stroke.join.code]
  reals :=
    [stroke.width] ++ stroke.dash ++ stroke.dashOffset.toList ++ stroke.miterLimit.toList

/-- The operands of a stroke in the order in which they are read. -/
theorem WireStroke.operands_eq (stroke : WireStroke) :
    (stroke.operands : Batch N) =
      { reals := [stroke.width] } ++ { ints := [countWord stroke.dash.length] } ++
        { reals := stroke.dash } ++ { reals := stroke.dashOffset.toList } ++
        { ints := [stroke.cap.code] } ++ { ints := [stroke.join.code] } ++
        { reals := stroke.miterLimit.toList } := by
  ext1 <;> simp [operands]

/-- The operands of one segment: its tag and its points. -/
def Segment.wire (segment : Segment) : Batch N where
  ints := [segment.kind.tag]
  reals := segment.reals

theorem Segment.wire_eq (segment : Segment) :
    (segment.wire : Batch N) = { ints := [segment.kind.tag] } ++ { reals := segment.reals } :=
  rfl

theorem segmentsWire_cons (segment : Segment) (segments : List Segment) :
    (segmentsWire (segment :: segments) : Batch N) =
      segment.wire ++ segmentsWire segments := rfl

def WireShape.operands : WireShape → Batch N
  | frame f => { ints := [rectMark], reals := f.reals }
  | path segments _ => { ints := [countWord segments.length] } ++ segmentsWire segments

theorem WireShape.operands_frame (f : Frame) :
    ((frame f).operands : Batch N) = { ints := [rectMark] } ++ { reals := f.reals } := rfl

namespace WireOp

def operands : WireOp N → Batch N
  | setFont font => { natives := [font] }
  | setPaint paint => { natives := [paint] }
  | setStroke stroke => stroke.operands
  | setOpacity alpha => { reals := [alpha] }
  | strokeShape shape => shape.operands
  | fillShape shape => shape.operands
  | clipShape shape => shape.operands
  | drawImageRect image source target =>
    { natives := [image], reals := source.reals ++ target.reals }
  | drawImage image m => { natives := [image], reals := m.reals }
  | fillText run => run.wire
  | strokeText run => run.wire
  | transform m => { reals := m.reals }
  | setTransform m => { reals := m.reals }
  | save => {}
  | restore => {}
  | clearRect frame => { reals := frame.reals }
  | setImageQuality level => { reals := [level] }

theorem operands_drawImageRect (image : Option N) (source target : Frame) :
    (drawImageRect image source target).operands =
      { natives := [image] } ++
        ({ reals := source.reals } ++ { reals := target.reals } : Batch N) := rfl

theorem operands_drawImage (image : Option N) (m : Affine) :
    (drawImage image m).operands =
      { natives := [image] } ++ ({ reals := m.reals } : Batch N) := rfl

/-- The tag and the operands of an operation. -/
def wire (op : WireOp N) : Batch N :=
  { op.operands with tags := [op.kind.tag] }

@[simp] theorem tags_operands (op : WireOp N) : op.operands.tags = [] := by
  rcases op with _ | _ | _ | _ | shape | shape | shape | _ | _ | _ | _ | _ | _ | _ | _ | _ | _
  case strokeShape | fillShape | clipShape => cases shape <;> rfl
  all_goals rfl

@[simp] theorem tags_wire (op : WireOp N) : op.wire.tags = [op.kind.tag] := rfl

theorem wire_eq (op : WireOp N) : op.wire = { tags := [op.kind.tag] } ++ op.operands := by
  ext1 <;> simp [wire]

end WireOp

/-- Operations behind one another. -/
def serialise (ops : List (WireOp N)) : Batch N :=
  ops.foldr (fun op rest => op.wire ++ rest) .empty

@[simp] theorem serialise_nil : serialise ([] : List (WireOp N)) = .empty := rfl

@[simp] theorem serialise_cons (op : WireOp N) (ops : List (WireOp N)) :
    serialise (op :: ops) = op.wire ++ serialise ops := rfl

@[simp] theorem tags_serialise (ops : List (WireOp N)) :
    (serialise ops).tags = ops.map (·.kind.tag) := by
  induction ops with
  | nil => rfl
  | cons op ops ih => rw [serialise_cons, Batch.tags_append, ih]; rfl

/-! ## Layouts can be told apart

Each of these lemmas compares two layouts with anything behind them. What is in
front of a layout is in each stack the same, so the two begin alike. -/

section Unambiguous

variable {c d : Batch N}

theorem Batch.append_eq_append_iff {a b : Batch N} :
    a ++ c = b ++ d ↔
      a.tags ++ c.tags = b.tags ++ d.tags ∧ a.ints ++ c.ints = b.ints ++ d.ints ∧
      a.reals ++ c.reals = b.reals ++ d.reals ∧ a.texts ++ c.texts = b.texts ++ d.texts ∧
      a.natives ++ c.natives = b.natives ++ d.natives := by
  rw [Batch.ext_iff]
  rfl

/-- Values that are both there or both absent, followed by anything. -/
theorem option_toList_append_inj {α : Type} {x y : Option α} {xs ys : List α}
    (hsome : x.isSome ↔ y.isSome) :
    x.toList ++ xs = y.toList ++ ys ↔ x = y ∧ xs = ys := by
  cases x <;> cases y <;> simp_all

theorem Segment.wire_append_inj {s t : Segment} (h : s.wire ++ c = t.wire ++ d) :
    s = t ∧ c = d := by
  obtain ⟨htags, hints, hreals, htexts, hnatives⟩ := Batch.append_eq_append_iff.mp h
  have hkind : s.kind = t.kind := SegmentKind.tag_inj.mp (List.cons.inj hints).1
  cases s <;> cases t <;> cases hkind <;>
    simp_all [Segment.wire, Segment.reals, Point.reals, Batch.ext_iff, Point.ext_iff]

/-- As many segments, followed by anything. -/
theorem segmentsWire_append_inj {ss ts : List Segment} (hlength : ss.length = ts.length)
    (h : segmentsWire ss ++ c = segmentsWire ts ++ d) : ss = ts ∧ c = d := by
  induction ss generalizing ts with
  | nil =>
    obtain rfl := List.length_eq_zero_iff.mp hlength.symm
    exact ⟨rfl, h⟩
  | cons s ss ih =>
    obtain ⟨t, ts, rfl⟩ := List.exists_cons_of_length_eq_add_one hlength.symm
    rw [segmentsWire_cons, segmentsWire_cons, Batch.append_assoc, Batch.append_assoc] at h
    obtain ⟨rfl, hrest⟩ := Segment.wire_append_inj h
    obtain ⟨rfl, rfl⟩ := ih (Nat.succ.inj hlength) hrest
    exact ⟨rfl, rfl⟩

theorem WireStroke.operands_append_inj {v w : WireStroke}
    (h : v.operands ++ c = w.operands ++ d) : v = w ∧ c = d := by
  obtain ⟨htags, hints, hreals, htexts, hnatives⟩ := Batch.append_eq_append_iff.mp h
  -- The integers come first: they tell how many dashes there are and what the join is.
  simp only [operands, List.cons_append, List.nil_append, List.cons.injEq,
    Cap.code_inj, Join.code_inj, countWord_inj v.dash_fits w.dash_fits] at hints
  obtain ⟨hlength, hcap, hjoin, hints⟩ := hints
  simp only [operands, List.cons_append, List.nil_append, List.cons.injEq,
    List.append_assoc] at hreals
  obtain ⟨hwidth, hreals⟩ := hreals
  -- With as many dashes on both sides, what stands behind them can be compared.
  obtain ⟨hdash, hreals⟩ := List.append_inj hreals hlength
  have hoffset : v.dashOffset.isSome ↔ w.dashOffset.isSome := by
    rw [v.offset_iff, w.offset_iff, hdash]
  have hlimit : v.miterLimit.isSome ↔ w.miterLimit.isSome := by
    rw [v.limit_iff, w.limit_iff, hjoin]
  obtain ⟨hoffset, hreals⟩ := (option_toList_append_inj hoffset).mp hreals
  obtain ⟨hlimit, hreals⟩ := (option_toList_append_inj hlimit).mp hreals
  refine ⟨?_, ?_⟩
  · cases v
    cases w
    simp_all
  · exact Batch.ext htags hints hreals htexts hnatives

theorem WireShape.operands_append_inj {v w : WireShape}
    (h : v.operands ++ c = w.operands ++ d) : v = w ∧ c = d := by
  have hints := (Batch.append_eq_append_iff.mp h).2.1
  cases v with
  | frame f =>
    cases w with
    | frame g =>
      simp_all [operands, Frame.reals, Batch.ext_iff, Frame.ext_iff]
    | path segments fits =>
      -- A count that fits is not negative, and the mark is.
      exact absurd (List.cons.inj hints).1.symm (countWord_ne_rectMark fits)
  | path segments fits =>
    cases w with
    | frame g => exact absurd (List.cons.inj hints).1 (countWord_ne_rectMark fits)
    | path others others_fit =>
      have hlength := (countWord_inj fits others_fit).mp (List.cons.inj hints).1
      simp only [operands, Batch.append_assoc] at h
      have hrest : segmentsWire segments ++ c = segmentsWire others ++ d := by
        simp_all [Batch.append_eq_append_iff]
      obtain ⟨rfl, rfl⟩ := segmentsWire_append_inj hlength hrest
      exact ⟨rfl, rfl⟩

/-- Operations of one kind, followed by anything. -/
theorem WireOp.operands_append_inj {v w : WireOp N} (hkind : v.kind = w.kind)
    (h : v.operands ++ c = w.operands ++ d) : v = w ∧ c = d := by
  -- Of all pairs of kinds the seventeen equal ones are left; three layouts depend on data.
  cases v <;> cases w <;> cases hkind
  case setStroke.setStroke.refl v w =>
    obtain ⟨rfl, rfl⟩ := WireStroke.operands_append_inj h
    exact ⟨rfl, rfl⟩
  case strokeShape.strokeShape.refl v w | fillShape.fillShape.refl v w |
      clipShape.clipShape.refl v w =>
    obtain ⟨rfl, rfl⟩ := WireShape.operands_append_inj h
    exact ⟨rfl, rfl⟩
  all_goals
    simp_all [operands, TextRun.wire, Affine.reals, Frame.reals, Point.reals,
      Batch.ext_iff, Frame.ext_iff, Affine.ext_iff, TextRun.ext_iff, Point.ext_iff]

theorem WireOp.wire_append_inj {v w : WireOp N} (h : v.wire ++ c = w.wire ++ d) :
    v = w ∧ c = d := by
  have htags := (Batch.append_eq_append_iff.mp h).1
  have hkind : v.kind = w.kind := OpKind.tag_inj.mp (List.cons.inj htags).1
  have hrest : v.operands ++ c = w.operands ++ d := by
    rw [wire_eq, wire_eq, Batch.append_assoc, Batch.append_assoc] at h
    simp_all [Batch.append_eq_append_iff]
  exact operands_append_inj hkind hrest

end Unambiguous

end BatchDraw
