/-
  BatchDraw.Canvas.Host

  The host of a canvas: the values it hands out, the calls it takes and the
  answers it gives.

  A drawing context is told what to do by writing its properties and calling its
  methods. A call can fail. What a host answers may depend on all calls it took
  before, so a `Host` is a pair of functions of that history.
-/
import BatchDraw.Stroke
import BatchDraw.Smoothing

namespace BatchDraw

namespace Canvas

/-! ## Values of the host -/

/-- The classes of host objects that matter to drawing. -/
inductive ObjectClass where
  | gradient
  | pattern
  | image
  | canvas
  | bitmap
  /-- Any other class, by its name. -/
  | other (name : String)
  deriving DecidableEq

/-- An object of the host. -/
structure HostObject where
  cls : ObjectClass
  id : Int
  /-- Whether drawing the object fails. -/
  broken : Bool := false
  deriving DecidableEq

/-- A value of the host. -/
inductive HostValue where
  | null
  | undefined
  | string (text : String)
  | number (value : Float)
  | boolean (value : Bool)
  /-- A list of numbers. -/
  | numbers (values : List Float)
  | object (object : HostObject)
  deriving DecidableEq

namespace HostValue

/-- The reference that a value stands for: null and undefined refer to
    nothing. -/
def reference : HostValue → Option HostValue
  | null => none
  | undefined => none
  | value => some value

/-- The font that a value names: any string. -/
def font? : HostValue → Option String
  | string css => some css
  | _ => none

/-- A value as a paint: a string, a gradient or a pattern. -/
def paint? : HostValue → Option HostValue
  | string css => some (string css)
  | object o =>
    match o.cls with
    | .gradient | .pattern => some (object o)
    | .image | .canvas | .bitmap | .other _ => none
  | _ => none

/-- A value as something to draw: an image, a canvas or a bitmap. -/
def drawable? : HostValue → Option HostObject
  | object o =>
    match o.cls with
    | .image | .canvas | .bitmap => some o
    | .gradient | .pattern | .other _ => none
  | _ => none

end HostValue

/-! ## Calls of the host -/

/-- A property of a drawing context with the value that is written to it. -/
inductive Setting where
  | lineWidth (width : Float)
  | lineCap (keyword : String)
  | lineJoin (keyword : String)
  | miterLimit (limit : Float)
  | lineDashOffset (offset : Float)
  | globalAlpha (alpha : Float)
  | font (css : String)
  | fillStyle (paint : HostValue)
  | strokeStyle (paint : HostValue)
  | imageSmoothingEnabled (enabled : Bool)
  | imageSmoothingQuality (keyword : String)
  deriving DecidableEq

/-- One write to a property, or one call of a method. -/
inductive HostCall where
  | set (setting : Setting)
  | save
  | restore
  | beginPath
  | moveTo (p : Point)
  | lineTo (p : Point)
  | bezierCurveTo (p q r : Point)
  | closePath
  | rect (frame : Frame)
  | stroke
  | fill
  | clip
  | clearRect (frame : Frame)
  | setLineDash (dash : List Float)
  | setTransform (transform : Affine)
  | transform (transform : Affine)
  | fillText (text : String) (origin : Point)
  | strokeText (text : String) (origin : Point)
  | measureText (text : String)
  | drawImage (image : HostObject) (origin : Point)
  | drawImageFrame (image : HostObject) (source target : Frame)
  deriving DecidableEq

/-! ## Calls by name -/

/-- The property that is written, marked as a write. -/
def Setting.name : Setting → String
  | lineWidth _ => "lineWidth="
  | lineCap _ => "lineCap="
  | lineJoin _ => "lineJoin="
  | miterLimit _ => "miterLimit="
  | lineDashOffset _ => "lineDashOffset="
  | globalAlpha _ => "globalAlpha="
  | font _ => "font="
  | fillStyle _ => "fillStyle="
  | strokeStyle _ => "strokeStyle="
  | imageSmoothingEnabled _ => "imageSmoothingEnabled="
  | imageSmoothingQuality _ => "imageSmoothingQuality="

/-- The value that is written. -/
def Setting.value : Setting → HostValue
  | lineWidth width => .number width
  | lineCap keyword => .string keyword
  | lineJoin keyword => .string keyword
  | miterLimit limit => .number limit
  | lineDashOffset offset => .number offset
  | globalAlpha alpha => .number alpha
  | font css => .string css
  | fillStyle paint => paint
  | strokeStyle paint => paint
  | imageSmoothingEnabled enabled => .boolean enabled
  | imageSmoothingQuality keyword => .string keyword

namespace HostCall

/-- The property or method concerned. -/
def name : HostCall → String
  | set setting => setting.name
  | save => "save"
  | restore => "restore"
  | beginPath => "beginPath"
  | moveTo _ => "moveTo"
  | lineTo _ => "lineTo"
  | bezierCurveTo _ _ _ => "bezierCurveTo"
  | closePath => "closePath"
  | rect _ => "rect"
  | stroke => "stroke"
  | fill => "fill"
  | clip => "clip"
  | clearRect _ => "clearRect"
  | setLineDash _ => "setLineDash"
  | setTransform _ => "setTransform"
  | transform _ => "transform"
  | fillText _ _ => "fillText"
  | strokeText _ _ => "strokeText"
  | measureText _ => "measureText"
  | drawImage _ _ => "drawImage"
  | drawImageFrame _ _ _ => "drawImage"

/-- A point as two arguments. -/
def pointArgs (p : Point) : List HostValue := [.number p.x, .number p.y]

/-- A frame as four arguments. -/
def frameArgs (frame : Frame) : List HostValue :=
  [.number frame.x, .number frame.y, .number frame.width, .number frame.height]

/-- The coefficients of a map as six arguments. -/
def affineArgs (m : Affine) : List HostValue :=
  [.number m.a, .number m.b, .number m.c, .number m.d, .number m.e, .number m.f]

/-- The value that is written, or the arguments of the method. -/
def args : HostCall → List HostValue
  | set setting => [setting.value]
  | save | restore | beginPath | closePath | stroke | fill | clip => []
  | moveTo p => pointArgs p
  | lineTo p => pointArgs p
  | bezierCurveTo p q r => pointArgs p ++ pointArgs q ++ pointArgs r
  | rect frame => frameArgs frame
  | clearRect frame => frameArgs frame
  | setLineDash dash => [.numbers dash]
  | setTransform m => affineArgs m
  | transform m => affineArgs m
  | fillText text origin => .string text :: pointArgs origin
  | strokeText text origin => .string text :: pointArgs origin
  | measureText text => [.string text]
  | drawImage image origin => .object image :: pointArgs origin
  | drawImageFrame image source target =>
    .object image :: (frameArgs source ++ frameArgs target)

/-- Whether a call draws a broken object. -/
def drawsBroken : HostCall → Bool
  | drawImage image _ => image.broken
  | drawImageFrame image _ _ => image.broken
  | _ => false

end HostCall

/-! ## Hosts -/

/-- What a host answers, given the calls it took before. -/
structure Host where
  /-- Whether a call fails. Some calls have no way to fail; of those it is never
      asked. -/
  fails : List HostCall → HostCall → Bool
  /-- The advance of a text that is measured. -/
  width : List HostCall → String → Float

/-- A host whose answers do not change: advances in proportion to the length in
    bytes, and failure always or only when a broken object is drawn. -/
def Host.steady (width : String → Float) (failing : Bool) : Host where
  fails _ call := failing || call.drawsBroken
  width _ text := width text

end Canvas

end BatchDraw
