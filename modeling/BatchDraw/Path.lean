/-
  BatchDraw.Path

  Paths and how a path in progress grows.

  A `Segment` is one step of a path. The same four segments appear in a shape
  before it is drawn and in the geometry that is drawn; what lies between is
  `PathBuilder`, which follows the rules of a canvas: a path always begins with
  a `moveTo`, so a line or curve that is added while nothing has been started
  first starts a subpath at its own first point, and closing an empty path does
  nothing.
-/
import BatchDraw.Geometry

namespace BatchDraw

/-! ## Segments -/

/-- One step of a path. -/
inductive Segment where
  /-- Start a new subpath. -/
  | moveTo (p : Point)
  /-- A straight line from the current point. -/
  | lineTo (p : Point)
  /-- A cubic curve from the current point: two control points and the end. -/
  | curveTo (p q r : Point)
  /-- Close the current subpath. -/
  | close
  deriving BEq, DecidableEq

/-- What a segment is, without its points. -/
inductive SegmentKind where
  | moveTo
  | lineTo
  | curveTo
  | close
  deriving DecidableEq

namespace SegmentKind

/-- The number that stands for a kind of segment on the wire. -/
def tag : SegmentKind → Int32
  | moveTo => 0
  | lineTo => 1
  | curveTo => 2
  | close => 3

/-- The kind of segment that a number stands for, if any. -/
def ofTag? (tag : Int32) : Option SegmentKind :=
  match tag with
  | 0 => some moveTo
  | 1 => some lineTo
  | 2 => some curveTo
  | 3 => some close
  | _ => none

@[simp] theorem ofTag?_tag (kind : SegmentKind) : ofTag? kind.tag = some kind := by
  cases kind <;> rfl

/-- A number stands for the one kind of segment that has it as its tag. -/
theorem ofTag?_eq_some_iff {tag : Int32} {kind : SegmentKind} :
    ofTag? tag = some kind ↔ kind.tag = tag := by
  refine ⟨?_, ?_⟩
  · intro h
    unfold ofTag? at h
    split at h <;> cases h <;> rfl
  · rintro rfl
    exact ofTag?_tag kind

@[simp] theorem tag_inj {kind other : SegmentKind} : kind.tag = other.tag ↔ kind = other := by
  rw [← ofTag?_eq_some_iff, ofTag?_tag, Option.some.injEq, eq_comm]

end SegmentKind

/-- The kind of a segment. -/
def Segment.kind : Segment → SegmentKind
  | moveTo _ => .moveTo
  | lineTo _ => .lineTo
  | curveTo _ _ _ => .curveTo
  | close => .close

/-- A finished path. -/
abbrev Path := List Segment

/-! ## The path in progress -/

/-- A path in progress: what was built so far, and the first point of the
    subpath that is open, if any subpath was started. -/
structure PathBuilder where
  elements : Path := []
  start : Option Point := none
  deriving BEq, DecidableEq

namespace PathBuilder

/-- Nothing built yet. -/
def empty : PathBuilder := {}

/-- Whether nothing was built yet. -/
def isEmpty (builder : PathBuilder) : Bool :=
  builder.elements.isEmpty

/-- Starts a new subpath. -/
def moveTo (builder : PathBuilder) (p : Point) : PathBuilder :=
  { elements := builder.elements ++ [.moveTo p], start := some p }

/-- Adds a line. With no subpath started, its end becomes the start of one and
    no line is drawn. -/
def lineTo (builder : PathBuilder) (p : Point) : PathBuilder :=
  match builder.start with
  | some _ => { builder with elements := builder.elements ++ [.lineTo p] }
  | none => builder.moveTo p

/-- Adds a curve. With no subpath started, one is started at the first control
    point. -/
def curveTo (builder : PathBuilder) (p q r : Point) : PathBuilder :=
  let opened :=
    match builder.start with
    | some _ => builder
    | none => builder.moveTo p
  { opened with elements := opened.elements ++ [.curveTo p q r] }

/-- Closes the current subpath; does nothing with no subpath started. -/
def close (builder : PathBuilder) : PathBuilder :=
  match builder.start with
  | some _ => { builder with elements := builder.elements ++ [.close] }
  | none => builder

/-- Adds one segment. -/
def add (builder : PathBuilder) : Segment → PathBuilder
  | .moveTo p => builder.moveTo p
  | .lineTo p => builder.lineTo p
  | .curveTo p q r => builder.curveTo p q r
  | .close => builder.close

/-- Adds a closed rectangle as a subpath of its own. The corners are visited in
    the order origin, along x, opposite corner, along y, so the sign of the size
    decides the winding. -/
def addRect (builder : PathBuilder) (rect : Rect) : PathBuilder :=
  let started := builder.moveTo ⟨rect.x0, rect.y0⟩
  { started with
    elements := started.elements ++
      [.lineTo ⟨rect.x1, rect.y0⟩, .lineTo ⟨rect.x1, rect.y1⟩,
        .lineTo ⟨rect.x0, rect.y1⟩, .close] }

/-- Adds segments in order. -/
def addAll (builder : PathBuilder) (segments : List Segment) : PathBuilder :=
  segments.foldl add builder

@[simp] theorem addAll_nil (builder : PathBuilder) : builder.addAll [] = builder := rfl

@[simp] theorem addAll_cons (builder : PathBuilder) (segment : Segment)
    (segments : List Segment) :
    builder.addAll (segment :: segments) = (builder.add segment).addAll segments := rfl

theorem addAll_append (builder : PathBuilder) (segments others : List Segment) :
    builder.addAll (segments ++ others) = (builder.addAll segments).addAll others :=
  List.foldl_append

end PathBuilder

/-! ## Histories of a path in progress -/

/-- One thing that can happen to a path in progress. -/
inductive PathStep where
  /-- A segment is added. -/
  | add (segment : Segment)
  /-- A closed rectangle is added. -/
  | addRect (rect : Rect)
  /-- Everything is discarded. -/
  | clear
  deriving BEq, DecidableEq

/-- What a step does to a path in progress. -/
def PathStep.apply (builder : PathBuilder) : PathStep → PathBuilder
  | add segment => builder.add segment
  | addRect rect => builder.addRect rect
  | clear => .empty

end BatchDraw
