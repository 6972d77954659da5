/-
  BatchDraw.Stroke

  How outlines are drawn.

  A `StrokeStyle` is what one operation asks for; a `Pen` is what a surface
  draws with. Applying a style replaces every setting of the pen except the
  miter limit, which a style may leave open.
-/
import BatchDraw.Geometry

namespace BatchDraw

/-! ## Line caps and line joins -/

inductive Cap where
  | round
  | butt
  | square
  deriving DecidableEq

namespace Cap

/-- Every cap, in the order of the codes. -/
def all : List Cap := [round, butt, square]

/-- The number that stands for a cap on the wire. -/
def code : Cap → Int32
  | round => 0
  | butt => 1
  | square => 2

/-- The cap that a number stands for, if any. -/
def ofCode? (code : Int32) : Option Cap :=
  match code with
  | 0 => some round
  | 1 => some butt
  | 2 => some square
  | _ => none

@[simp] theorem ofCode?_code (cap : Cap) : ofCode? cap.code = some cap := by
  cases cap <;> rfl

/-- A number stands for the one cap that has it as its code. -/
theorem ofCode?_eq_some_iff {code : Int32} {cap : Cap} :
    ofCode? code = some cap ↔ cap.code = code := by
  refine ⟨?_, ?_⟩
  · intro h
    unfold ofCode? at h
    split at h <;> cases h <;> rfl
  · rintro rfl
    exact ofCode?_code cap

@[simp] theorem code_inj {cap other : Cap} : cap.code = other.code ↔ cap = other := by
  rw [← ofCode?_eq_some_iff, ofCode?_code, Option.some.injEq, eq_comm]

def keyword : Cap → String
  | round => "round"
  | butt => "butt"
  | square => "square"

end Cap

inductive Join where
  | round
  | bevel
  | miter
  deriving DecidableEq

namespace Join

/-- Every join, in the order of the codes. -/
def all : List Join := [round, bevel, miter]

/-- The number that stands for a join on the wire. -/
def code : Join → Int32
  | round => 0
  | bevel => 1
  | miter => 2

/-- The join that a number stands for, if any. -/
def ofCode? (code : Int32) : Option Join :=
  match code with
  | 0 => some round
  | 1 => some bevel
  | 2 => some miter
  | _ => none

@[simp] theorem ofCode?_code (join : Join) : ofCode? join.code = some join := by
  cases join <;> rfl

/-- A number stands for the one join that has it as its code. -/
theorem ofCode?_eq_some_iff {code : Int32} {join : Join} :
    ofCode? code = some join ↔ join.code = code := by
  refine ⟨?_, ?_⟩
  · intro h
    unfold ofCode? at h
    split at h <;> cases h <;> rfl
  · rintro rfl
    exact ofCode?_code join

@[simp] theorem code_inj {join other : Join} : join.code = other.code ↔ join = other := by
  rw [← ofCode?_eq_some_iff, ofCode?_code, Option.some.injEq, eq_comm]

def keyword : Join → String
  | round => "round"
  | bevel => "bevel"
  | miter => "miter"

end Join

/-! ## Styles and pens -/

/-- What one operation asks of the pen. -/
structure StrokeStyle where
  width : Float
  /-- Lengths of dashes and gaps, alternating; empty for a solid line. -/
  dash : List Float
  /-- Where in the dash pattern a line begins. -/
  dashOffset : Float
  /-- The cap of both ends. -/
  cap : Cap
  join : Join
  /-- The new miter limit, or `none` to keep the one in force. -/
  miterLimit : Option Float
  deriving BEq, DecidableEq

/-- What a surface draws outlines with. -/
structure Pen where
  width : Float
  dash : List Float
  dashOffset : Float
  startCap : Cap
  endCap : Cap
  join : Join
  miterLimit : Float
  deriving BEq, DecidableEq

namespace StrokeStyle

/-- A solid line with round caps and joins. -/
def solid (width : Float) : StrokeStyle where
  width := width
  dash := []
  dashOffset := 0.0
  cap := .round
  join := .round
  miterLimit := none

/-- The pen after a style was asked for: all settings are the style's, and the
    miter limit is kept where the style leaves it open. -/
def applyTo (style : StrokeStyle) (pen : Pen) : Pen where
  width := style.width
  dash := style.dash
  dashOffset := style.dashOffset
  startCap := style.cap
  endCap := style.cap
  join := style.join
  miterLimit := style.miterLimit.getD pen.miterLimit

end StrokeStyle

end BatchDraw
