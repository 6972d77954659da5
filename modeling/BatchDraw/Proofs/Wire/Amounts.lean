/-
  BatchDraw.Proofs.Wire.Amounts

  How many operands an operation takes.

  Integers and reals are counted, and the texts and references that an operation
  carries are listed. The counts are those of the decoded operation. They are
  the counts of what was read even where something was passed over: a segment
  that is passed over costs one integer more, and an operand that is replaced
  costs what it would have cost in its range (`Amounts`).
-/
import BatchDraw.Proofs.Wire.Passage
import Mathlib.Algebra.GroupWithZero.Nat

namespace BatchDraw

/-! ## Counts -/

/-- The reals of a segment: those of its points. -/
def Segment.realCount : Segment → Nat
  | moveTo _ => 2
  | lineTo _ => 2
  | curveTo _ _ _ => 6
  | close => 0

/-- The integers of a shape: the mark of a rectangle, or a count and the tags of
    the segments. -/
def Shape.intCount : Shape → Nat
  | rect _ => 1
  | path segments => 1 + segments.length

/-- The reals of a shape: those of a frame, or those of the segments. -/
def Shape.realCount : Shape → Nat
  | rect _ => 4
  | path segments => (segments.map Segment.realCount).sum

/-- The reals of a stroke: its width, its dashes, an offset behind dashes, and the
    miter limit if it has one. -/
def StrokeStyle.realCount (style : StrokeStyle) : Nat :=
  1 + style.dash.length + (if style.dash.isEmpty then 0 else 1) +
    (if style.miterLimit.isSome then 1 else 0)

namespace Op

variable {N : Type}

/-- The integers of an operation. Only strokes and shapes have some. -/
def intCount : Op N → Nat
  | setStroke _ => 3
  | strokeShape shape | fillShape shape | clipShape shape => shape.intCount
  | _ => 0

/-- The reals of an operation. -/
def realCount : Op N → Nat
  | setFont _ | setPaint _ | save | restore => 0
  | setStroke style => style.realCount
  | strokeShape shape | fillShape shape | clipShape shape => shape.realCount
  | setOpacity _ | setImageQuality _ => 1
  | fillText _ | strokeText _ => 3
  | clearRect _ => 4
  | drawImage _ _ | transform _ | setTransform _ => 6
  | drawImageRect _ _ _ => 8

/-- The texts that an operation carries. -/
def texts : Op N → List String
  | fillText run | strokeText run => [run.text]
  | _ => []

/-- The references that an operation carries. -/
def natives : Op N → List (Option N)
  | setFont font => [font]
  | setPaint paint => [paint]
  | drawImageRect image _ _ => [image]
  | drawImage image _ => [image]
  | _ => []

end Op

/-! ## Amounts of operands -/

variable {N : Type}

/-- The operands `b` are so many integers and reals, and these texts and
    references. For every segment that was passed over there is one integer more;
    instructions were not passed over. -/
structure Amounts (ints reals : Nat) (texts : List String) (natives : List (Option N))
    (b : Batch N) (notices : List Notice) : Prop where
  ints : b.ints.length = ints + notices.countP Notice.isUnknownSegment
  reals : b.reals.length = reals
  texts : b.texts = texts
  natives : b.natives = natives
  known : notices.countP Notice.isUnknownOp = 0

/-- Integers and reals only. -/
abbrev Numbers (ints reals : Nat) (b : Batch N) (notices : List Notice) : Prop :=
  Amounts ints reals [] [] b notices

/-- The amounts of an operation. -/
abbrev Op.Amounts (op : Op N) (b : Batch N) (notices : List Notice) : Prop :=
  BatchDraw.Amounts op.intCount op.realCount op.texts op.natives b notices

variable {b c : Batch N} {m n : List Notice}

theorem numbers_empty : Numbers 0 0 (.empty : Batch N) [] :=
  ⟨rfl, rfl, rfl, rfl, rfl⟩

theorem numbers_int (value : Int32) : Numbers 1 0 ({ ints := [value] } : Batch N) [] :=
  ⟨rfl, rfl, rfl, rfl, rfl⟩

/-- Amounts add up. -/
theorem Amounts.append {i j r q : Nat} {ts us : List String} {vs ws : List (Option N)}
    (hb : Amounts i r ts vs b m) (hc : Amounts j q us ws c n) :
    Amounts (i + j) (r + q) (ts ++ us) (vs ++ ws) (b ++ c) (m ++ n) := by
  refine ⟨?_, ?_, ?_, ?_, ?_⟩
  · rw [Batch.ints_append, List.length_append, hb.ints, hc.ints, List.countP_append]
    omega
  · rw [Batch.reals_append, List.length_append, hb.reals, hc.reals]
  · rw [Batch.texts_append, hb.texts, hc.texts]
  · rw [Batch.natives_append, hb.natives, hc.natives]
  · rw [List.countP_append, hb.known, hc.known]

/-- The counts may be written in another way. -/
theorem Amounts.of_eq {i j r q : Nat} {ts : List String} {vs : List (Option N)}
    (h : Amounts i r ts vs b m) (hints : i = j) (hreals : r = q) : Amounts j q ts vs b m := by
  rwa [← hints, ← hreals]

end BatchDraw
