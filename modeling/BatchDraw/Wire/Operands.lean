/-
  BatchDraw.Wire.Operands

  Reading the operands of one operation.

  These readers follow the layouts of `BatchDraw.Wire.Layout` entry by entry.
  Where a layout depends on its data (the dashes of a stroke, the segments of a
  shape, the limit of a miter join) the integer that decides is read first.
-/
import BatchDraw.Wire.Feed
import BatchDraw.Wire.Layout

namespace BatchDraw

namespace Read

variable {N : Type}

/-! ## Geometry -/

/-- Reads a point: x, then y. -/
def point (site : Site) : Read N Point := do
  let x ← real site
  let y ← real site
  return ⟨x, y⟩

/-- Reads a frame: origin, then size. -/
def frame (site : Site) : Read N Frame := do
  let x ← real site
  let y ← real site
  let width ← real site
  let height ← real site
  return ⟨x, y, width, height⟩

/-- Reads a rectangle, which travels as a frame. -/
def rect (site : Site) : Read N Rect := do
  let frame ← frame site
  return frame.toRect

/-- Reads an affine map: its six coefficients. -/
def affine (site : Site) : Read N Affine := do
  let a ← real site
  let b ← real site
  let c ← real site
  let d ← real site
  let e ← real site
  let f ← real site
  return ⟨a, b, c, d, e, f⟩

/-! ## Counts and codes -/

/-- Reads reals one after another. -/
def reals (site : Site) : Nat → Read N (List Float)
  | 0 => return []
  | n + 1 => do
    let x ← real site
    let xs ← reals site n
    return x :: xs

/-- The count that an integer operand stands for. A negative one is out of range
    and counts nothing. -/
def countOf (site : Site) (operand : Operand) (value : Int32) : Read N Nat :=
  if value < 0 then
    outOfRange site operand value 0
  else
    return value.toNatClampNeg

/-- Reads a cap. An unknown code means square. -/
def cap (site : Site) : Read N Cap := do
  let code ← int site
  match Cap.ofCode? code with
  | some cap => return cap
  | none => outOfRange site .lineCap code .square

/-- Reads a join. An unknown code means miter. -/
def join (site : Site) (code : Int32) : Read N Join :=
  match Join.ofCode? code with
  | some join => return join
  | none => outOfRange site .lineJoin code .miter

/-! ## Strokes, shapes and text -/

/-- Reads the dash offset, which is there behind a positive dash count only. -/
def dashOffset (site : Site) (count : Nat) : Read N Float :=
  if count = 0 then
    return 0.0
  else
    real site

/-- Reads the miter limit, which is there behind the code of a miter join only:
    an unknown join is a miter join without a limit. -/
def miterLimit (site : Site) (joinCode : Int32) : Read N (Option Float) :=
  if joinCode = Join.miter.code then
    some <$> real site
  else
    return none

/-- Reads a stroke. -/
def stroke (site : Site) : Read N StrokeStyle := do
  let width ← real site
  let count ← countOf site .dashCount (← int site)
  let dash ← reals site count
  let dashOffset ← dashOffset site count
  let cap ← cap site
  let joinCode ← int site
  let join ← join site joinCode
  let miterLimit ← miterLimit site joinCode
  return { width, dash, dashOffset, cap, join, miterLimit }

/-- Reads one segment, or passes over an unknown one. -/
def segment? (site : Site) : Read N (Option Segment) := do
  let tag ← int site
  match SegmentKind.ofTag? tag with
  | some .moveTo =>
    let p ← point site
    return some (.moveTo p)
  | some .lineTo =>
    let p ← point site
    return some (.lineTo p)
  | some .curveTo =>
    let p ← point site
    let q ← point site
    let r ← point site
    return some (.curveTo p q r)
  | some .close => return some .close
  | none =>
    unknownSegment site tag
    return none

/-- Reads segments one after another. Those that are passed over count. -/
def segments (site : Site) : Nat → Read N (List Segment)
  | 0 => return []
  | n + 1 => do
    let first ← segment? site
    let others ← segments site n
    return first.toList ++ others

/-- Reads a shape: a rectangle behind the mark, else a counted path. -/
def shape (site : Site) : Read N Shape := do
  let word ← int site
  if word = rectMark then
    let rect ← rect site
    return .rect rect
  else
    let count ← countOf site .segmentCount word
    let segments ← segments site count
    return .path segments

/-- Reads a text run: the text, its origin and its spacing. -/
def textRun (site : Site) : Read N TextRun := do
  let text ← text site
  let origin ← point site
  let spacing ← real site
  return { text, origin, spacing }

/-! ## Operations -/

/-- Reads the operands of an operation of the kind that the site names. -/
def op (site : Site) : Read N (Op N) :=
  match site.kind with
  | .setFont => .setFont <$> native site
  | .setPaint => .setPaint <$> native site
  | .setStroke => .setStroke <$> stroke site
  | .setOpacity => .setOpacity <$> real site
  | .strokeShape => .strokeShape <$> shape site
  | .fillShape => .fillShape <$> shape site
  | .clipShape => .clipShape <$> shape site
  | .drawImageRect => do
    let image ← native site
    let source ← rect site
    let target ← rect site
    return .drawImageRect image source target
  | .drawImage => do
    let image ← native site
    let transform ← affine site
    return .drawImage image transform
  | .fillText => .fillText <$> textRun site
  | .strokeText => .strokeText <$> textRun site
  | .transform => .transform <$> affine site
  | .setTransform => .setTransform <$> affine site
  | .save => return .save
  | .restore => return .restore
  | .clearRect => .clearRect <$> rect site
  | .setImageQuality => .setImageQuality <$> real site

/-- Reads the instruction at a position, or passes over it if its tag is
    unknown. -/
def instruction? (policy : Policy) (position : Nat) (tag : Int32) :
    Read N (Option (Op N)) :=
  match OpKind.ofTag? tag with
  | some kind => some <$> op { policy, position, kind }
  | none => do
    unknownOp policy tag position
    return none

/-- Reads instructions one after another, the first at `position`. -/
def instructions (policy : Policy) : Nat → List Int32 → Read N (List (Op N))
  | _, [] => return []
  | position, tag :: tags => do
    let first ← instruction? policy position tag
    let others ← instructions policy (position + 1) tags
    return first.toList ++ others

end Read

end BatchDraw
