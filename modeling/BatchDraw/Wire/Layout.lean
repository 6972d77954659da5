/-
  BatchDraw.Wire.Layout

  How an operation is laid out on the wire.

  `Op.wire` gives the entries of one operation as a batch of its own, so a
  writer only ever appends. Three layouts depend on their data:

    * a rectangle travels as a frame, origin and size;
    * a dash pattern and a list of segments are preceded by their count, and a
      shape that is a rectangle has the mark -1 in place of the count;
    * a stroke carries a dash offset only behind a dash pattern, and a miter
      limit only with a miter join.
-/
import BatchDraw.Wire.Batch

namespace BatchDraw

/-! ## Numbers of the format -/

/-- The largest count that fits an integer operand. -/
def maxCount : Nat := 2147483647

/-- The integer operand for a count; a count that does not fit is written as the
    largest one. -/
def countWord (n : Nat) : Int32 :=
  if n ≤ maxCount then Int32.ofNat n else Int32.ofNat maxCount

/-- A count that fits is written as itself. -/
theorem toInt_countWord {n : Nat} (h : n ≤ maxCount) : (countWord n).toInt = n := by
  unfold countWord maxCount at *
  rw [ite_cond_eq_true _ _ (eq_true h)]
  exact Int32.toInt_ofNat_of_lt (by omega)

/-- The words of counts that fit are those that are not negative. -/
theorem countWord_eq_iff {n : Nat} {word : Int32} :
    n ≤ maxCount ∧ countWord n = word ↔ 0 ≤ word ∧ word.toNatClampNeg = n := by
  refine ⟨?_, ?_⟩
  · intro h
    obtain ⟨hfits, rfl⟩ := h
    have hint : (countWord n).toInt = n := toInt_countWord hfits
    have hnonneg : (0 : Int32) ≤ countWord n := by
      rw [Int32.le_iff_toInt_le, hint]
      exact Int.natCast_nonneg n
    refine ⟨hnonneg, ?_⟩
    rw [← Int32.toNat_toInt, hint, Int.toNat_natCast]
  · intro h
    obtain ⟨hnonneg, rfl⟩ := h
    have hfits : word.toNatClampNeg ≤ maxCount := by
      have hlt := word.toNatClampNeg_lt
      unfold maxCount
      omega
    refine ⟨hfits, ?_⟩
    rw [countWord, if_pos hfits]
    exact Int32.ofNat_toNatClampNeg word hnonneg

/-- Counts that fit are told apart by their words. -/
theorem countWord_inj {m n : Nat} (hm : m ≤ maxCount) (hn : n ≤ maxCount) :
    countWord m = countWord n ↔ m = n := by
  refine ⟨?_, ?_⟩
  · intro h
    have hint : (countWord m).toInt = (countWord n).toInt := congrArg Int32.toInt h
    rw [toInt_countWord hm, toInt_countWord hn] at hint
    omega
  · rintro rfl
    rfl

/-- Stands in place of a segment count and says that the shape is a rectangle. -/
def rectMark : Int32 := -1

/-- No count that fits is written as the mark of a rectangle. -/
theorem countWord_ne_rectMark {n : Nat} (h : n ≤ maxCount) : countWord n ≠ rectMark := by
  intro hmark
  have hint : (countWord n).toInt = rectMark.toInt := congrArg Int32.toInt hmark
  have hneg : rectMark.toInt = -1 := by decide
  rw [toInt_countWord h, hneg] at hint
  omega

/-- The miter limit that is written when a stroke with a miter join has none. -/
def defaultMiterLimit : Float := 10.0

/-! ## Reals of the geometric types -/

/-- A point: x, then y. -/
def Point.reals (p : Point) : List Float := [p.x, p.y]

/-- A frame: origin, then size. -/
def Frame.reals (frame : Frame) : List Float :=
  [frame.x, frame.y, frame.width, frame.height]

/-- A rectangle travels as its frame. -/
def Rect.reals (rect : Rect) : List Float := rect.toFrame.reals

/-- The coefficients in order. -/
def Affine.reals (m : Affine) : List Float := [m.a, m.b, m.c, m.d, m.e, m.f]

/-- The points of a segment in order. -/
def Segment.reals : Segment → List Float
  | moveTo p => p.reals
  | lineTo p => p.reals
  | curveTo p q r => p.reals ++ q.reals ++ r.reals
  | close => []

/-! ## Operations -/

variable {N : Type}

/-- The operands of a stroke: width, dash count, dashes, dash offset behind
    dashes, cap, join, miter limit with a miter join. -/
def StrokeStyle.wire (style : StrokeStyle) : Batch N where
  ints := [countWord style.dash.length, style.cap.code, style.join.code]
  reals :=
    [style.width] ++ style.dash ++
      (if style.dash.isEmpty then [] else [style.dashOffset]) ++
      (if style.join = .miter then [style.miterLimit.getD defaultMiterLimit] else [])

/-- The operands of segments in order: tags among the integers, points among the
    reals. -/
def segmentsWire (segments : List Segment) : Batch N where
  ints := segments.map (·.kind.tag)
  reals := segments.flatMap (·.reals)

/-- The operands of a shape: the mark and the frame of a rectangle, or the count
    and the operands of the segments. -/
def Shape.wire : Shape → Batch N
  | rect r => { ints := [rectMark], reals := r.reals }
  | path segments => { ints := [countWord segments.length] } ++ segmentsWire segments

/-- The operands of a text run: the text, its origin and its spacing. -/
def TextRun.wire (run : TextRun) : Batch N where
  texts := [run.text]
  reals := run.origin.reals ++ [run.spacing]

/-- The operands of an operation. -/
def Op.operands : Op N → Batch N
  | setFont font => { natives := [font] }
  | setPaint paint => { natives := [paint] }
  | setStroke style => style.wire
  | setOpacity alpha => { reals := [alpha] }
  | strokeShape shape => shape.wire
  | fillShape shape => shape.wire
  | clipShape shape => shape.wire
  | drawImageRect image source target =>
    { natives := [image], reals := source.reals ++ target.reals }
  | drawImage image m => { natives := [image], reals := m.reals }
  | fillText run => run.wire
  | strokeText run => run.wire
  | transform m => { reals := m.reals }
  | setTransform m => { reals := m.reals }
  | save => {}
  | restore => {}
  | clearRect rect => { reals := rect.reals }
  | setImageQuality level => { reals := [level] }

/-- The tag and the operands of an operation. -/
def Op.wire (op : Op N) : Batch N :=
  { op.operands with tags := [op.kind.tag] }

namespace Batch

def push (b : Batch N) (op : Op N) : Batch N := b ++ op.wire

/-- Adds a bare tag at the end, without operands and whether or not it stands
    for anything. -/
def pushTag (b : Batch N) (tag : Int32) : Batch N :=
  { b with tags := b.tags ++ [tag] }

theorem push_eq_append (b : Batch N) (op : Op N) : b.push op = b ++ op.wire := rfl

/-- The batch of operations in order. -/
def ofOps (ops : List (Op N)) : Batch N := ops.foldl push empty

end Batch

/-! ## Histories of a batch -/

/-- One thing that can happen to a batch that is being written. -/
inductive BatchStep (N : Type) where
  /-- An operation is added. -/
  | push (op : Op N)
  /-- A bare tag is added. -/
  | pushTag (tag : Int32)
  /-- Everything is discarded. -/
  | clear
  deriving DecidableEq

def BatchStep.apply (b : Batch N) : BatchStep N → Batch N
  | push op => b.push op
  | pushTag tag => b.pushTag tag
  | clear => .empty

/-- The batch that a history leaves. -/
def Batch.ofSteps (steps : List (BatchStep N)) : Batch N :=
  steps.foldl BatchStep.apply .empty

end BatchDraw
