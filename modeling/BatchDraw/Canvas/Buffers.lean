/-
  BatchDraw.Canvas.Buffers

  The buffers of a host, drawn on its canvas.

  The host fills grown buffers and says how many instructions count. Its null
  and undefined values refer to nothing. Numbers without a meaning are passed
  over, never refused.
-/
import BatchDraw.Canvas.Basic
import BatchDraw.Surface.Pass

namespace BatchDraw

namespace Canvas

/-- The buffers of a host. -/
structure Buffers where
  tags : List Int32
  /-- How many of the tags count. -/
  count : Nat
  ints : List Int32
  reals : List Float
  texts : List String
  natives : List HostValue

namespace Buffers

/-- The batch in the buffers. -/
def batch (buffers : Buffers) : Except WireError (Batch HostValue) :=
  Batch.keep
    { tags := buffers.tags
      ints := buffers.ints
      reals := buffers.reals
      texts := buffers.texts
      natives := buffers.natives.map HostValue.reference }
    buffers.count

/-- Draws the buffers on a canvas. Where that is refused the result is the
    message of the error, and the canvas is as it was. -/
def paint (buffers : Buffers) (scale : Float) (c : Canvas) :
    Except HostValue Unit × Canvas :=
  match buffers.batch with
  | .error e => (.error (.string e.message), c)
  | .ok batch =>
    match batch.paint { scale } c with
    | (.error e, c) => (.error (.string e.message), c)
    | (.ok _, c) => (.ok (), c)

/-- What drawing the buffers on a canvas warns about: first what reading them
    passed over, then the warnings of the canvas. -/
def warnings (buffers : Buffers) (scale : Float) (c : Canvas) : List String :=
  match buffers.batch with
  | .error _ => []
  | .ok batch =>
    (batch.notices .skip).map (·.message) ++
      ((buffers.paint scale c).2.warnings.drop c.warnings.length).map (·.message)

end Buffers

end Canvas

end BatchDraw
