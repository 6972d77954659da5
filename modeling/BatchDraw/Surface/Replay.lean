/-
  BatchDraw.Surface.Replay

  Drawing operations on a surface.

  `Op.apply` turns one operation into calls. References to nothing never reach
  the surface: the operation is left out, or, for an image with a transform of
  its own, only the drawing inside its bracket of save and restore is.
-/
import BatchDraw.Op
import BatchDraw.Surface.Basic

namespace BatchDraw

open Surface

variable {σ N : Type} [Surface σ N]

/-! ## Shapes and text -/

/-- The calls that add a shape to the path in progress. -/
def Shape.calls : Shape → List (Call N)
  | rect r => [.addRect r]
  | path segments => segments.map .addSegment

/-- Makes a shape the path in progress and then does something with it. -/
def drawShape (surface : σ) (shape : Shape) (draw : Call N) : σ :=
  performAll surface (.beginPath :: shape.calls ++ [draw])

/-- Draws characters one at a time from `pen` on. The pen moves by the advance
    of each character and the spacing. -/
def drawSpaced (draw : String → Point → Call N) (spacing : Float) :
    σ → Point → List Char → σ
  | surface, _, [] => surface
  | surface, pen, c :: cs =>
    let glyph := String.singleton c
    let (width, surface) := measure (perform surface (draw glyph pen)) glyph
    drawSpaced draw spacing surface ⟨pen.x + (width + spacing), pen.y⟩ cs

/-- Draws a text run: in one piece when its spacing is zero, else character by
    character. -/
def drawText (surface : σ) (run : TextRun) (draw : String → Point → Call N) : σ :=
  if run.spacing == 0.0 then
    perform surface (draw run.text run.origin)
  else
    drawSpaced draw run.spacing surface run.origin run.text.toList

/-! ## Operations -/

/-- Draws one operation. Transforms that replace the current one are brought
    into device units by `scale`. -/
def Op.apply (scale : Float) (surface : σ) : Op N → σ
  | setFont none => surface
  | setFont (some font) => perform surface (.setFont font)
  | setPaint none => surface
  | setPaint (some paint) => perform surface (.setPaint paint)
  | setStroke style => perform surface (.setStroke style)
  | setOpacity alpha => perform surface (.setOpacity alpha)
  | strokeShape shape => drawShape surface shape .stroke
  | fillShape shape => drawShape surface shape .fill
  | clipShape shape => drawShape surface shape .clip
  | drawImageRect none _ _ => surface
  | drawImageRect (some image) source target =>
    perform surface (.drawImageRect image source target)
  | drawImage image m =>
    let placed := [.save, .setTransform (m.scaleDiagonal scale)]
    let drawn := image.toList.map (Call.drawImage · .origin)
    performAll surface (placed ++ drawn ++ [.restore])
  | fillText run => drawText surface run .fillText
  | strokeText run => drawText surface run .strokeText
  | transform m => perform surface (.transform m)
  | setTransform m => perform surface (.setTransform (m.scaleDiagonal scale))
  | save => perform surface .save
  | restore => perform surface .restore
  | clearRect rect => perform surface (.clearRect rect)
  | setImageQuality level => perform surface (.setSmoothing (.ofLevel level))

/-- Draws operations in order, from a transform that only scales. -/
def replay (scale : Float) (surface : σ) (ops : List (Op N)) : σ :=
  ops.foldl (Op.apply scale) (perform surface (.setTransform (.scale scale)))

/-- More operations go on where the first ones ended. -/
theorem replay_append (scale : Float) (surface : σ) (ops others : List (Op N)) :
    replay scale surface (ops ++ others) =
      others.foldl (Op.apply scale) (replay scale surface ops) :=
  List.foldl_append

end BatchDraw
