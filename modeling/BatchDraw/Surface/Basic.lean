/-
  BatchDraw.Surface.Basic

  What operations are drawn on.

  A surface has a current transform, paint, font, pen, opacity, clip and a path
  in progress, and a stack of states that were put aside; the path is not part
  of such a state. Everything a surface is told is a `Call`, which is data, so
  one surface may list its calls, another keep state, a third pass them on to a
  host. The only question put to a surface is how far a text advances the pen.
-/
import BatchDraw.Shape
import BatchDraw.Stroke
import BatchDraw.Smoothing

namespace BatchDraw

/-! ## Calls -/

/-- One thing that a surface is told to do. Fonts, paints and images are values
    of `N`, and never absent. -/
inductive Call (N : Type) where
  | setFont (font : N)
  /-- Set the paint of fills and outlines. -/
  | setPaint (paint : N)
  | setStroke (style : StrokeStyle)
  | setOpacity (alpha : Float)
  | setSmoothing (smoothing : Smoothing)
  /-- Replace the current transform. -/
  | setTransform (transform : Affine)
  /-- Compose a map onto the current transform. -/
  | transform (transform : Affine)
  /-- Put the current state aside. -/
  | save
  /-- Take back the state that was put aside last, if there is one. -/
  | restore
  /-- Discard the path in progress. -/
  | beginPath
  /-- Add a segment to the path in progress. -/
  | addSegment (segment : Segment)
  /-- Add a closed rectangle to the path in progress. -/
  | addRect (rect : Rect)
  /-- Draw the outline of the path in progress. -/
  | stroke
  /-- Fill the path in progress. -/
  | fill
  /-- Restrict drawing to the path in progress. -/
  | clip
  | clearRect (rect : Rect)
  /-- Draw an image with its corner at a point. -/
  | drawImage (image : N) (origin : Point)
  /-- Draw a part of an image into a rectangle. -/
  | drawImageRect (image : N) (source target : Rect)
  | fillText (text : String) (origin : Point)
  | strokeText (text : String) (origin : Point)
  deriving BEq, DecidableEq

/-! ## Surfaces -/

/-- A surface with states of type `σ`, and fonts, paints and images of type
    `N`. -/
class Surface (σ : Type) (N : outParam Type) where
  /-- Does what a call says. -/
  perform : σ → Call N → σ
  /-- How far a text advances the pen. Asking may leave a trace. -/
  measure : σ → String → Float × σ

namespace Surface

variable {σ N : Type} [Surface σ N]

def performAll (surface : σ) (calls : List (Call N)) : σ :=
  calls.foldl perform surface

@[simp] theorem performAll_nil (surface : σ) : performAll surface ([] : List (Call N)) = surface :=
  rfl

@[simp] theorem performAll_cons (surface : σ) (call : Call N) (calls : List (Call N)) :
    performAll surface (call :: calls) = performAll (perform surface call) calls := rfl

theorem performAll_append (surface : σ) (calls others : List (Call N)) :
    performAll surface (calls ++ others) = performAll (performAll surface calls) others :=
  List.foldl_append

end Surface

/-- An advance in proportion to the length of the text in UTF-8 bytes. -/
def byteAdvance (unit : Float) (text : String) : Float :=
  Float.ofNat text.utf8ByteSize * unit

end BatchDraw
