/-
  BatchDraw.Proofs.Wire.Composite

  What the readers are made of.

  A reader of operands does six things: it reads an entry of one of the four
  stacks, puts a fallback in place of an integer, or passes over a segment.
  Everything else is sequence, and a choice by the kind of operation that is
  read (`Read.Composite`). What holds of the six and is kept by sequence and
  choice therefore holds of all readers up to `Read.op`, and is shown by
  induction on how the reader is made, without going through the layouts again.
-/
import BatchDraw.Wire.Operands

namespace BatchDraw

namespace Read

variable {N α β : Type}

/-- A reader that is put together from the readers of one entry and the two ways
    of passing something over. -/
inductive Composite : {α : Type} → (Site → Read N α) → Prop where
  | pure {α : Type} (a : α) : Composite fun _ => Pure.pure a
  | bind {α β : Type} {m : Site → Read N α} {k : α → Site → Read N β} (hm : Composite m)
    (hk : ∀ a, Composite (k a)) : Composite fun site => m site >>= fun a => k a site
  /-- A reader that takes the operation for one of a given kind. -/
  | atKind {α : Type} {m : Site → Read N α} (kind : OpKind) (hm : Composite m) :
    Composite fun site => m { site with kind }
  /-- A reader that is one of these for each kind. -/
  | byKind {α : Type} {m : Site → Read N α}
    (hm : ∀ kind, Composite fun site => m { site with kind }) : Composite m
  | int : Composite int
  | real : Composite real
  | text : Composite text
  | native : Composite native
  | outOfRange {α : Type} (operand : Operand) (value : Int32) (fallback : α) :
    Composite fun site => outOfRange site operand value fallback
  | unknownSegment (tag : Int32) : Composite fun site => unknownSegment site tag

namespace Composite

theorem map {m : Site → Read N α} (f : α → β) (hm : Composite m) :
    Composite fun site => f <$> m site := by
  simp only [map_eq_pure_bind]
  exact hm.bind fun a => .pure (f a)

/-! ## Counts and codes -/

theorem countOf (operand : Operand) (value : Int32) :
    Composite fun site => (Read.countOf site operand value : Read N Nat) := by
  unfold Read.countOf
  -- The integer decides; the site is looked at only behind the sign.
  by_cases hneg : value < 0
  · simp only [if_pos hneg]
    exact .outOfRange operand value 0
  · simp only [if_neg hneg]
    exact .pure _

theorem cap : Composite (Read.cap (N := N)) := by
  refine .bind .int fun code => ?_
  cases Cap.ofCode? code with
  | some c => exact .pure c
  | none => exact .outOfRange .lineCap code Cap.square

theorem join (code : Int32) : Composite fun site => (Read.join site code : Read N Join) := by
  unfold Read.join
  cases Join.ofCode? code with
  | some j => exact .pure j
  | none => exact .outOfRange .lineJoin code Join.miter

/-! ## Reals in a row -/

theorem point : Composite (Read.point (N := N)) :=
  .bind .real fun _ => .bind .real fun _ => .pure _

theorem frame : Composite (Read.frame (N := N)) :=
  .bind .real fun _ => .bind .real fun _ => .bind .real fun _ => .bind .real fun _ => .pure _

theorem rect : Composite (Read.rect (N := N)) :=
  .bind .frame fun _ => .pure _

theorem affine : Composite (Read.affine (N := N)) :=
  .bind .real fun _ => .bind .real fun _ => .bind .real fun _ => .bind .real fun _ =>
    .bind .real fun _ => .bind .real fun _ => .pure _

theorem reals (n : Nat) :
    Composite fun site => (Read.reals site n : Read N (List Float)) := by
  induction n with
  | zero => exact .pure []
  | succ n ih => exact .bind .real fun _ => .bind ih fun _ => .pure _

/-! ## Strokes, shapes and text -/

theorem dashOffset (count : Nat) :
    Composite fun site => (Read.dashOffset site count : Read N Float) := by
  cases count with
  | zero => exact .pure 0.0
  | succ n => exact .real

theorem miterLimit (code : Int32) :
    Composite fun site => (Read.miterLimit site code : Read N (Option Float)) := by
  unfold Read.miterLimit
  by_cases hcode : code = Join.miter.code
  · simp only [if_pos hcode]
    exact .map some .real
  · simp only [if_neg hcode]
    exact .pure none

theorem stroke : Composite (Read.stroke (N := N)) :=
  .bind .real fun _ => .bind .int fun word => .bind (.countOf .dashCount word) fun count =>
    .bind (.reals count) fun _ => .bind (.dashOffset count) fun _ => .bind .cap fun _ =>
      .bind .int fun code => .bind (.join code) fun _ => .bind (.miterLimit code) fun _ =>
        .pure _

theorem segment? : Composite (Read.segment? (N := N)) := by
  refine .bind .int fun tag => ?_
  rcases SegmentKind.ofTag? tag with _ | kind
  · exact .bind (.unknownSegment tag) fun _ => .pure none
  · cases kind with
    | moveTo => exact .bind .point fun _ => .pure _
    | lineTo => exact .bind .point fun _ => .pure _
    | curveTo => exact .bind .point fun _ => .bind .point fun _ => .bind .point fun _ => .pure _
    | close => exact .pure _

theorem segments (n : Nat) :
    Composite fun site => (Read.segments site n : Read N (List Segment)) := by
  induction n with
  | zero => exact .pure []
  | succ n ih => exact .bind .segment? fun _ => .bind ih fun _ => .pure _

theorem shape : Composite (Read.shape (N := N)) := by
  refine .bind .int fun word => ?_
  by_cases hmark : word = rectMark
  · simp only [if_pos hmark]
    exact .bind .rect fun _ => .pure _
  · simp only [if_neg hmark]
    exact .bind (.countOf .segmentCount word) fun count => .bind (.segments count) fun _ =>
      .pure _

theorem textRun : Composite (Read.textRun (N := N)) :=
  .bind .text fun _ => .bind .point fun _ => .bind .real fun _ => .pure _

/-! ## Operations -/

theorem op : Composite (Read.op (N := N)) := by
  refine .byKind fun kind => ?_
  cases kind with
  | setFont => exact (map Op.setFont .native).atKind _
  | setPaint => exact (map Op.setPaint .native).atKind _
  | setStroke => exact (map Op.setStroke .stroke).atKind _
  | setOpacity => exact (map Op.setOpacity .real).atKind _
  | strokeShape => exact (map Op.strokeShape .shape).atKind _
  | fillShape => exact (map Op.fillShape .shape).atKind _
  | clipShape => exact (map Op.clipShape .shape).atKind _
  | drawImageRect =>
    have himage : Composite fun site => do
        let image ← Read.native site
        let source ← Read.rect site
        let target ← Read.rect site
        return (.drawImageRect image source target : Op N) :=
      .bind .native fun _ => .bind .rect fun _ => .bind .rect fun _ => .pure _
    exact himage.atKind _
  | drawImage =>
    have himage : Composite fun site => do
        let image ← Read.native site
        let transform ← Read.affine site
        return (.drawImage image transform : Op N) :=
      .bind .native fun _ => .bind .affine fun _ => .pure _
    exact himage.atKind _
  | fillText => exact (map Op.fillText .textRun).atKind _
  | strokeText => exact (map Op.strokeText .textRun).atKind _
  | transform => exact (map Op.transform .affine).atKind _
  | setTransform => exact (map Op.setTransform .affine).atKind _
  | save => exact .pure Op.save
  | restore => exact .pure Op.restore
  | clearRect => exact (map Op.clearRect .rect).atKind _
  | setImageQuality => exact (map Op.setImageQuality .real).atKind _

end Composite

end Read

end BatchDraw
