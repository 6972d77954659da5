/-
  BatchDraw.Shape

  The geometry that one drawing operation carries: a rectangle, or segments in
  order.
-/
import BatchDraw.Path

namespace BatchDraw

/-- A shape to be stroked, filled or clipped to. -/
inductive Shape where
  /-- A rectangle, whose corners keep the order they were given in. -/
  | rect (rect : Rect)
  /-- Segments, to be read by the rules of a path in progress. -/
  | path (segments : List Segment)
  deriving BEq, DecidableEq

namespace Shape

/-- The rectangle of a frame. -/
def ofFrame (frame : Frame) : Shape := .rect frame.toRect

/-- Adds a shape to a path in progress. -/
def addTo (builder : PathBuilder) : Shape → PathBuilder
  | rect r => builder.addRect r
  | path segments => builder.addAll segments

/-- The path of a shape that is drawn by itself. -/
def toPath (shape : Shape) : Path :=
  (shape.addTo .empty).elements

end Shape

end BatchDraw
