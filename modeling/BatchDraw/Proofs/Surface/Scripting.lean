/-
  BatchDraw.Proofs.Surface.Scripting

  Operations by rote.

  The one thing that an operation learns from a surface is how far its characters advance the
  pen. How often it asks is fixed beforehand (`Op.questions`), and once the answers are given,
  so is all that it tells and asks (`Op.script`). Thus the trace of an operation on any surface
  is its script for some widths, and the trace of a run puts the scripts behind one another,
  each for widths of its own. The widths can be read off the trace (`Op.widths_script`).
-/
import BatchDraw.Proofs.Surface.Lettering

namespace BatchDraw

open Surface

variable {σ N : Type}

/-! ## Scripts -/

namespace TextRun

end TextRun

namespace Op

/-- The calls of an operation without text. -/
def calls (scale : Float) : Op N → List (Call N)
  | setFont font => font.toList.map .setFont
  | setPaint paint => paint.toList.map .setPaint
  | setStroke style => [.setStroke style]
  | setOpacity alpha => [.setOpacity alpha]
  | strokeShape shape => .beginPath :: shape.calls ++ [.stroke]
  | fillShape shape => .beginPath :: shape.calls ++ [.fill]
  | clipShape shape => .beginPath :: shape.calls ++ [.clip]
  | drawImageRect image source target => image.toList.map (.drawImageRect · source target)
  | drawImage image m =>
    .save :: .setTransform (m.scaleDiagonal scale) ::
      image.toList.map (.drawImage · .origin) ++ [.restore]
  | fillText _ | strokeText _ => []
  | transform m => [.transform m]
  | setTransform m => [.setTransform (m.scaleDiagonal scale)]
  | save => [.save]
  | restore => [.restore]
  | clearRect rect => [.clearRect rect]
  | setImageQuality level => [.setSmoothing (.ofLevel level)]

end Op

/-! ## Widths -/

variable [Surface σ N]

namespace Traced

end Traced

end BatchDraw
