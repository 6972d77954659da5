/-
  BatchDraw.Recorder.State

  The drawing state that a recording surface keeps.

  Fonts and images are plain descriptions here: a font is a family and a size, and
  of an image only the size is known. Paints are whatever the host makes of them,
  colours if nothing else is said; a recorder keeps them and never looks at them.
-/
import BatchDraw.Stroke
import BatchDraw.Smoothing

namespace BatchDraw

namespace Recorder

/-! ## Paints -/

/-- What can be a paint. All that a recorder has to know is the paint that it begins
    with. -/
class Paint (P : Type) where
  black : P

/-- A colour by its components. -/
structure Colour where
  red : Float32
  green : Float32
  blue : Float32
  alpha : Float32
  deriving BEq, DecidableEq

def Colour.black : Colour := ⟨0.0, 0.0, 0.0, 1.0⟩

@[default_instance] instance : Paint Colour := ⟨.black⟩

/-! ## Fonts, images and references -/

structure Font where
  family : String
  size : Float
  deriving BEq, DecidableEq

/-- An image by its size in pixels. -/
structure Image where
  width : UInt32
  height : UInt32
  deriving DecidableEq

/-- A thing that an operation can refer to. -/
inductive Native (P : Type := Colour) where
  | font (font : Font)
  | paint (paint : P)
  | image (image : Image)
  deriving BEq, DecidableEq

inductive NativeKind where
  | font
  | paint
  | image
  deriving DecidableEq

def NativeKind.name : NativeKind → String
  | font => "font"
  | paint => "paint"
  | image => "image"

def Native.kind {P : Type} : Native P → NativeKind
  | font _ => .font
  | paint _ => .paint
  | image _ => .image

/-! ## States -/

/-- What is put aside and taken back as a whole. The path in progress is not
    part of it. -/
structure State (P : Type := Colour) where
  transform : Affine
  font : Font
  /-- The paint of fills and outlines. -/
  paint : P
  pen : Pen
  opacity : Float
  smoothing : Smoothing
  /-- How many clips are in force. -/
  clips : UInt32
  deriving BEq, DecidableEq

/-- The state of a fresh surface: a black paint, and a pen of width one with butt
    caps and mitered joins up to a limit of ten. -/
def State.initial {P : Type} [Paint P] : State P where
  transform := .identity
  font := ⟨"sans-serif", 10.0⟩
  paint := Paint.black
  pen :=
    { width := 1.0
      dash := []
      dashOffset := 0.0
      startCap := .butt
      endCap := .butt
      join := .miter
      miterLimit := 10.0 }
  opacity := 1.0
  smoothing := .initial
  clips := 0

end Recorder

end BatchDraw
