/-
  BatchDraw.Op

  Drawing operations.

  An `Op` is one instruction together with all of its operands. Fonts, paints
  and images belong to the host and are opaque here: they are values of a type
  `N` chosen by the surface, and `none` is a reference to nothing.
-/
import BatchDraw.Shape
import BatchDraw.Stroke

namespace BatchDraw

/-! ## Kinds of operation -/

inductive OpKind where
  | setFont
  | setPaint
  | setStroke
  | setOpacity
  | strokeShape
  | fillShape
  | clipShape
  | drawImageRect
  | drawImage
  | fillText
  | strokeText
  | transform
  | setTransform
  | save
  | restore
  | clearRect
  | setImageQuality
  deriving DecidableEq

namespace OpKind

/-- Every kind of operation, in the order of the tags. -/
def all : List OpKind :=
  [setFont, setPaint, setStroke, setOpacity, strokeShape, fillShape, clipShape,
    drawImageRect, drawImage, fillText, strokeText, transform, setTransform,
    save, restore, clearRect, setImageQuality]

/-- The number that stands for a kind of operation on the wire. -/
def tag : OpKind → Int32
  | setFont => 1
  | setPaint => 2
  | setStroke => 3
  | setOpacity => 4
  | strokeShape => 5
  | fillShape => 6
  | clipShape => 7
  | drawImageRect => 8
  | drawImage => 9
  | fillText => 10
  | strokeText => 11
  | transform => 12
  | setTransform => 13
  | save => 14
  | restore => 15
  | clearRect => 16
  | setImageQuality => 17

/-- The kind of operation that a number stands for, if any. The tags count the kinds from
    one on. -/
def ofTag? (tag : Int32) : Option OpKind :=
  if tag < 0 then none
  else
    match tag.toNatClampNeg with
    | 0 => none
    | index + 1 => all[index]?

@[simp] theorem ofTag?_tag (kind : OpKind) : ofTag? kind.tag = some kind := by
  cases kind <;> rfl

/-- The kinds are listed in the order of their tags. -/
theorem tag_of_getElem?_all {index : Nat} {kind : OpKind} (h : all[index]? = some kind) :
    kind.tag = Int32.ofNat (index + 1) := by
  have hlisted : ∀ i : Fin 17, all[i].tag = Int32.ofNat (i + 1) := by decide
  obtain ⟨hindex, rfl⟩ := List.getElem?_eq_some_iff.mp h
  exact hlisted ⟨index, hindex⟩

/-- A number stands for the one kind of operation that has it as its tag. -/
theorem ofTag?_eq_some_iff {tag : Int32} {kind : OpKind} :
    ofTag? tag = some kind ↔ kind.tag = tag := by
  refine ⟨?_, ?_⟩
  · intro h
    unfold ofTag? at h
    by_cases hneg : tag < 0
    · rw [if_pos hneg] at h
      cases h
    · rw [if_neg hneg] at h
      have hword : Int32.ofNat tag.toNatClampNeg = tag :=
        Int32.ofNat_toNatClampNeg tag (Int32.not_lt.mp hneg)
      cases hindex : tag.toNatClampNeg with
      | zero =>
        rw [hindex] at h
        cases h
      | succ index =>
        rw [hindex] at h hword
        rw [tag_of_getElem?_all h, hword]
  · rintro rfl
    exact ofTag?_tag kind

@[simp] theorem tag_inj {kind other : OpKind} : kind.tag = other.tag ↔ kind = other := by
  rw [← ofTag?_eq_some_iff, ofTag?_tag, Option.some.injEq, eq_comm]

def name : OpKind → String
  | setFont => "set-font"
  | setPaint => "set-paint"
  | setStroke => "set-stroke"
  | setOpacity => "set-opacity"
  | strokeShape => "stroke-shape"
  | fillShape => "fill-shape"
  | clipShape => "clip-shape"
  | drawImageRect => "draw-image-rect"
  | drawImage => "draw-image"
  | fillText => "fill-text"
  | strokeText => "stroke-text"
  | transform => "transform"
  | setTransform => "set-transform"
  | save => "save"
  | restore => "restore"
  | clearRect => "clear-rect"
  | setImageQuality => "set-image-quality"

end OpKind

/-! ## Operations -/

/-- A run of text at a position. -/
@[ext] structure TextRun where
  text : String
  /-- Where the pen stands before the first character. -/
  origin : Point
  /-- What is added to the advance of every character. -/
  spacing : Float
  deriving BEq, DecidableEq

/-- One drawing operation with its operands. -/
inductive Op (N : Type) where
  | setFont (font : Option N)
  /-- Set the paint of fills and outlines. -/
  | setPaint (paint : Option N)
  /-- Set how outlines are drawn. -/
  | setStroke (style : StrokeStyle)
  | setOpacity (alpha : Float)
  /-- Draw the outline of a shape. -/
  | strokeShape (shape : Shape)
  | fillShape (shape : Shape)
  /-- Restrict drawing to a shape. -/
  | clipShape (shape : Shape)
  /-- Draw a part of an image into a rectangle. -/
  | drawImageRect (image : Option N) (source target : Rect)
  /-- Draw an image at the origin of a transform of its own. -/
  | drawImage (image : Option N) (transform : Affine)
  | fillText (run : TextRun)
  /-- Draw the outline of text. -/
  | strokeText (run : TextRun)
  /-- Compose a map onto the current transform. -/
  | transform (transform : Affine)
  /-- Replace the current transform. -/
  | setTransform (transform : Affine)
  /-- Put the current state aside. -/
  | save
  /-- Take back the state that was put aside last. -/
  | restore
  | clearRect (rect : Rect)
  /-- Set the image smoothing by its level. -/
  | setImageQuality (level : Float)
  deriving BEq, DecidableEq

def Op.kind {N : Type} : Op N → OpKind
  | setFont _ => .setFont
  | setPaint _ => .setPaint
  | setStroke _ => .setStroke
  | setOpacity _ => .setOpacity
  | strokeShape _ => .strokeShape
  | fillShape _ => .fillShape
  | clipShape _ => .clipShape
  | drawImageRect _ _ _ => .drawImageRect
  | drawImage _ _ => .drawImage
  | fillText _ => .fillText
  | strokeText _ => .strokeText
  | transform _ => .transform
  | setTransform _ => .setTransform
  | save => .save
  | restore => .restore
  | clearRect _ => .clearRect
  | setImageQuality _ => .setImageQuality

end BatchDraw
