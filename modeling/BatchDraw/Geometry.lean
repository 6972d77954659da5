/-
  BatchDraw.Geometry

  Points, rectangles and affine maps of the drawing plane.

  A rectangle has two spellings. `Rect` names two opposite corners; `Frame`
  names an origin and a signed size. Neither is ever normalised: a negative
  width or height stays negative, so that the order of the corners (and with
  it the winding of a rectangular path) survives every conversion. The
  conversions round, because they add and subtract binary64 numbers.
-/

namespace BatchDraw

/-! ## Points and rectangles -/

/-- A point of the plane. -/
@[ext] structure Point where
  x : Float
  y : Float
  deriving BEq, DecidableEq

namespace Point

/-- The origin of the plane. -/
def origin : Point := ⟨0.0, 0.0⟩

end Point

/-- A rectangle by two opposite corners, in the order they were given. -/
structure Rect where
  x0 : Float
  y0 : Float
  x1 : Float
  y1 : Float
  deriving BEq, DecidableEq

/-- A rectangle by its origin and a size that may be negative. -/
@[ext] structure Frame where
  x : Float
  y : Float
  width : Float
  height : Float
  deriving BEq, DecidableEq

/-- The corners of a frame: its origin, and its origin plus its size. -/
def Frame.toRect (frame : Frame) : Rect :=
  ⟨frame.x, frame.y, frame.x + frame.width, frame.y + frame.height⟩

/-- The frame of a rectangle: its first corner, and the signed way to its
    second. -/
def Rect.toFrame (rect : Rect) : Frame :=
  ⟨rect.x0, rect.y0, rect.x1 - rect.x0, rect.y1 - rect.y0⟩

/-! ## Affine maps -/

/-- The affine map `x' = a*x + c*y + e`, `y' = b*x + d*y + f`. -/
@[ext] structure Affine where
  a : Float
  b : Float
  c : Float
  d : Float
  e : Float
  f : Float
  deriving BEq, DecidableEq

namespace Affine

/-- The map that moves nothing. -/
def identity : Affine := ⟨1.0, 0.0, 0.0, 1.0, 0.0, 0.0⟩

/-- Uniform scaling about the origin. -/
def scale (s : Float) : Affine := ⟨s, 0.0, 0.0, s, 0.0, 0.0⟩

/-- Composition: `p.mul q` applies `q` first. Every coefficient is summed from
    left to right. -/
def mul (p q : Affine) : Affine where
  a := p.a * q.a + p.c * q.b
  b := p.b * q.a + p.d * q.b
  c := p.a * q.c + p.c * q.d
  d := p.b * q.c + p.d * q.d
  e := p.a * q.e + p.c * q.f + p.e
  f := p.b * q.e + p.d * q.f + p.f

instance : Mul Affine := ⟨mul⟩

/-- Brings a map into device units by scaling its two diagonal terms. The skew
    terms and the offsets keep their values. -/
def scaleDiagonal (m : Affine) (s : Float) : Affine :=
  { m with a := m.a * s, d := m.d * s }

end Affine

end BatchDraw
