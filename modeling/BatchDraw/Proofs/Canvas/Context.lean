/-
  BatchDraw.Proofs.Canvas.Context

  What a log means to a drawing context.

  A canvas keeps no drawing state; the context behind it does. A write to a property
  replaces what the property held, a transform is composed onto the one in force, and
  a clip goes on top of the others, so it is enough to count them. `save` puts all of
  this aside together, and `restore` takes back what was put aside last. The other
  calls build or draw, and leave the state as it is.

  A log is read from a context on (`Context.read`), one call behind the other.

  Some properties hold one of a few words. The words of a context are written out here
  once more, so that what is stated of a context does not depend on the words that it is
  told; that these are the same words is proved beside them.
-/
import BatchDraw.Canvas.Host

namespace BatchDraw

namespace Canvas

/-! ## Words of a context -/

/-- The word of `lineCap`. -/
def capWord : Cap → String
  | .butt => "butt"
  | .round => "round"
  | .square => "square"

/-- The word of `lineJoin`. -/
def joinWord : Join → String
  | .bevel => "bevel"
  | .miter => "miter"
  | .round => "round"

/-- The word of `imageSmoothingQuality`. -/
def qualityWord : Quality → String
  | .low => "low"
  | .medium => "medium"
  | .high => "high"

theorem keyword_cap (cap : Cap) : cap.keyword = capWord cap := by
  cases cap <;> rfl

theorem keyword_join (join : Join) : join.keyword = joinWord join := by
  cases join <;> rfl

theorem keyword_quality (quality : Quality) : quality.keyword = qualityWord quality := by
  cases quality <;> rfl

/-! ## States of a context -/

/-- What a context puts aside and takes back as a whole. -/
structure DrawingState where
  transform : Affine
  lineWidth : Float
  lineCap : String
  lineJoin : String
  miterLimit : Float
  dash : List Float
  dashOffset : Float
  globalAlpha : Float
  font : String
  fillStyle : HostValue
  strokeStyle : HostValue
  smoothingEnabled : Bool
  smoothingQuality : String
  /-- How many clips are in force. -/
  clips : Nat

/-- A property holds what was written to it last. -/
def DrawingState.write (s : DrawingState) : Setting → DrawingState
  | .lineWidth width => { s with lineWidth := width }
  | .lineCap keyword => { s with lineCap := keyword }
  | .lineJoin keyword => { s with lineJoin := keyword }
  | .miterLimit limit => { s with miterLimit := limit }
  | .lineDashOffset offset => { s with dashOffset := offset }
  | .globalAlpha alpha => { s with globalAlpha := alpha }
  | .font css => { s with font := css }
  | .fillStyle paint => { s with fillStyle := paint }
  | .strokeStyle paint => { s with strokeStyle := paint }
  | .imageSmoothingEnabled enabled => { s with smoothingEnabled := enabled }
  | .imageSmoothingQuality keyword => { s with smoothingQuality := keyword }

/-! ## Contexts -/

/-- The state of a context, and the states put aside, the last one first. -/
structure Context where
  current : DrawingState
  saved : List DrawingState := []

namespace Context

/-- What a call does to a context. -/
def take (ctx : Context) : HostCall → Context
  | .set setting => { ctx with current := ctx.current.write setting }
  | .save => { ctx with saved := ctx.current :: ctx.saved }
  | .restore =>
    match ctx.saved with
    | [] => ctx
    | state :: saved => ⟨state, saved⟩
  | .clip => { ctx with current := { ctx.current with clips := ctx.current.clips + 1 } }
  | .setLineDash dash => { ctx with current := { ctx.current with dash } }
  | .setTransform transform => { ctx with current := { ctx.current with transform } }
  | .transform m =>
    { ctx with current := { ctx.current with transform := ctx.current.transform * m } }
  | .beginPath | .moveTo _ | .lineTo _ | .bezierCurveTo _ _ _ | .closePath | .rect _ | .stroke
  | .fill | .clearRect _ | .fillText _ _ | .strokeText _ _ | .measureText _ | .drawImage _ _
  | .drawImageFrame _ _ _ => ctx

/-- What a log does to a context. -/
def read (ctx : Context) (log : List HostCall) : Context :=
  log.foldl take ctx

theorem read_append (ctx : Context) (log others : List HostCall) :
    ctx.read (log ++ others) = (ctx.read log).read others :=
  List.foldl_append

end Context

end Canvas

end BatchDraw
