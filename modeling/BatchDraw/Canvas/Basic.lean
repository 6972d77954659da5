/-
  BatchDraw.Canvas.Basic

  A surface that passes its calls on to the drawing context of a host.

  It keeps no drawing state of its own. Values of the host serve as fonts,
  paints and images; one that is not of the expected sort is left out with a
  warning. A failing host stops nothing: a failure is ignored, except that
  drawing an image that fails is warned about, and that a text that cannot be
  measured has no advance.
-/
import BatchDraw.Canvas.Host
import BatchDraw.Surface.Basic

namespace BatchDraw

namespace Canvas

/-! ## Warnings -/

/-- What a canvas warns about. -/
inductive Warning where
  | notFont
  | notPaint
  | notImage
  | drawingFailed
  deriving DecidableEq

/-- The wording of a warning. -/
def Warning.message : Warning → String
  | notFont => "font native is not a CSS font string"
  | notPaint => "paint native is not a color, gradient or pattern"
  | notImage => "image native is not an image, canvas or bitmap"
  | drawingFailed => "drawImage failed"

end Canvas

/-! ## The surface -/

/-- A drawing context, with what it was told and what was warned about, oldest
    first. -/
structure Canvas where
  host : Canvas.Host
  calls : List Canvas.HostCall := []
  warnings : List Canvas.Warning := []

namespace Canvas

/-- How a canvas presents itself: nothing inside is shown. -/
def description (_ : Canvas) : String := "WebCanvasSurface \x7b .. \x7d"

/-- What an element gives when it is asked for its drawing context. -/
inductive ContextAnswer where
  | context
  /-- There is no such context. -/
  | absent
  /-- Something that is no such context. -/
  | other (value : HostValue)
  /-- Asking failed with a value. -/
  | failed (error : HostValue)
  deriving DecidableEq

/-- A canvas on the context of an element, or the value that says why there is
    none. -/
def ofElement (host : Host) : ContextAnswer → Except HostValue Canvas
  | .context => .ok { host }
  | .absent => .error (.string "missing 2d context")
  | .other value => .error value
  | .failed error => .error error

/-- Tells the context something, whatever it answers. -/
def tell (c : Canvas) (call : HostCall) : Canvas :=
  { c with calls := c.calls ++ [call] }

/-- Tells the context several things in order. -/
def tellAll (c : Canvas) (calls : List HostCall) : Canvas :=
  calls.foldl tell c

/-- What is told is told in order, behind what was told before. -/
theorem tellAll_eq (c : Canvas) (calls : List HostCall) :
    c.tellAll calls = { c with calls := c.calls ++ calls } := by
  induction calls generalizing c with
  | nil => simp [tellAll]
  | cons call calls ih =>
    have h : c.tellAll (call :: calls) = (c.tell call).tellAll calls := rfl
    rw [h, ih]
    simp [tell]

/-- Adds a warning. -/
def warn (c : Canvas) (warning : Warning) : Canvas :=
  { c with warnings := c.warnings ++ [warning] }

/-! ## Calls -/

/-- Sets the font to one that a string names. -/
def setFont (c : Canvas) (font : HostValue) : Canvas :=
  match font.font? with
  | some css => c.tell (.set (.font css))
  | none => c.warn .notFont

/-- Sets the paint of fills, then that of outlines. -/
def setPaint (c : Canvas) (paint : HostValue) : Canvas :=
  match paint.paint? with
  | some paint => (c.tell (.set (.fillStyle paint))).tell (.set (.strokeStyle paint))
  | none => c.warn .notPaint

/-- What a stroke style tells a context. A miter limit that is left open is not
    written. -/
def strokeCalls (style : StrokeStyle) : List HostCall :=
  [.set (.lineWidth style.width), .set (.lineCap style.cap.keyword),
    .set (.lineJoin style.join.keyword)] ++
  (style.miterLimit.toList.map fun limit => .set (.miterLimit limit)) ++
  [.setLineDash style.dash, .set (.lineDashOffset style.dashOffset)]

/-- The call that adds a segment. -/
def segmentCall : Segment → HostCall
  | .moveTo p => .moveTo p
  | .lineTo p => .lineTo p
  | .curveTo p q r => .bezierCurveTo p q r
  | .close => .closePath

/-- Draws an image, where `call` says how; warns if that fails. -/
def drawImage (c : Canvas) (image : HostValue) (call : HostObject → HostCall) : Canvas :=
  match image.drawable? with
  | some object =>
    let told := c.tell (call object)
    if c.host.fails c.calls (call object) then told.warn .drawingFailed else told
  | none => c.warn .notImage

/-- Does what a call says. -/
def perform (c : Canvas) : Call HostValue → Canvas
  | .setFont font => c.setFont font
  | .setPaint paint => c.setPaint paint
  | .setStroke style => c.tellAll (strokeCalls style)
  | .setOpacity alpha => c.tell (.set (.globalAlpha alpha))
  | .setSmoothing smoothing =>
    c.tellAll [.set (.imageSmoothingEnabled smoothing.enabled),
      .set (.imageSmoothingQuality smoothing.quality.keyword)]
  | .setTransform m => c.tell (.setTransform m)
  | .transform m => c.tell (.transform m)
  | .save => c.tell .save
  | .restore => c.tell .restore
  | .beginPath => c.tell .beginPath
  | .addSegment segment => c.tell (segmentCall segment)
  | .addRect rect => c.tell (.rect rect.toFrame)
  | .stroke => c.tell .stroke
  | .fill => c.tell .fill
  | .clip => c.tell .clip
  | .clearRect rect => c.tell (.clearRect rect.toFrame)
  | .drawImage image origin => c.drawImage image (.drawImage · origin)
  | .drawImageRect image source target =>
    c.drawImage image (.drawImageFrame · source.toFrame target.toFrame)
  | .fillText text origin => c.tell (.fillText text origin)
  | .strokeText text origin => c.tell (.strokeText text origin)

/-- Measures a text. One that cannot be measured has no advance. -/
def measure (c : Canvas) (text : String) : Float × Canvas :=
  let width :=
    if c.host.fails c.calls (.measureText text) then 0.0 else c.host.width c.calls text
  (width, c.tell (.measureText text))

instance : Surface Canvas HostValue where
  perform := perform
  measure := measure

end Canvas

end BatchDraw
