/-
  BatchDraw.Proofs.Recorder.Shapes

  Shapes on a recorder.

  A shape is walked twice. Its path is built segment by segment from nothing
  (`Shape.toPath`), and a surface is told to build it call by call on the path in progress,
  which is begun anew. On a recorder the two come to the same (`performAll_shape`), so what
  was in progress before is of no matter, and the event of a shape carries the path of the
  shape.

  No other operation touches the path in progress. Behind a run it is therefore that of the
  last shape, if there was one (`path_foldl_apply`).

  A rectangle travels as a frame behind a mark, or else as a path of its four sides. Both are
  operations of the grammar, and they come to the same path.
-/
import BatchDraw.Recorder.Basic
import BatchDraw.Surface.Pass
import BatchDraw.Proofs.Surface.Keeping
import BatchDraw.Proofs.Wire.Policies
import BatchDraw.Proofs.Wire.Spelling
import Mathlib.Data.List.Basic
import Mathlib.Data.List.Induction

namespace BatchDraw

open Surface

variable {N : Type}

/-! ## Uses of a shape -/

/-- What can be done with a shape. -/
inductive ShapeUse where
  | stroke
  | fill
  | clip

namespace ShapeUse

def kind : ShapeUse → OpKind
  | stroke => .strokeShape
  | fill => .fillShape
  | clip => .clipShape

/-- The operation that puts a shape to this use. -/
def op : ShapeUse → Shape → Op N
  | stroke => .strokeShape
  | fill => .fillShape
  | clip => .clipShape

/-- The operation as it stands on the wire. -/
def wireOp : ShapeUse → WireShape → WireOp N
  | stroke => .strokeShape
  | fill => .fillShape
  | clip => .clipShape

/-- The call that puts the path in progress to this use. -/
def call : ShapeUse → Call N
  | stroke => .stroke
  | fill => .fill
  | clip => .clip

/-- What is recorded of it. -/
def action : ShapeUse → Path → Recorder.Action
  | stroke => .stroke
  | fill => .fill
  | clip => .clip

/-- The state behind it: a clip is counted, and nothing else changes. -/
def leave {P : Type} : ShapeUse → Recorder.State P → Recorder.State P
  | stroke, state | fill, state => state
  | clip, state => { state with clips := state.clips + 1 }

theorem op_apply {σ : Type} [Surface σ N] (use : ShapeUse) (scale : Float) (surface : σ)
    (shape : Shape) : (use.op shape).apply scale surface = drawShape surface shape use.call := by
  cases use <;> rfl

theorem toOp_wireOp (use : ShapeUse) (shape : WireShape) :
    (use.wireOp shape : WireOp N).toOp = use.op shape.toShape := by
  cases use <;> rfl

end ShapeUse

/-- The shape that an operation uses, if it uses one. -/
def Op.shape? : Op N → Option Shape
  | strokeShape shape | fillShape shape | clipShape shape => some shape
  | _ => none

/-- The shape of the last operation that uses one. -/
def lastShape? (ops : List (Op N)) : Option Shape :=
  (ops.filterMap Op.shape?).getLast?

theorem lastShape?_concat (ops : List (Op N)) (op : Op N) :
    lastShape? (ops ++ [op]) = op.shape?.or (lastShape? ops) := by
  unfold lastShape?
  rw [List.filterMap_append, List.getLast?_append]
  cases hshape : op.shape? with
  | none => rw [List.filterMap_cons_none hshape]; rfl
  | some shape => rw [List.filterMap_cons_some hshape]; rfl

/-! ## Frames on the wire -/

namespace Frame

/-- The sides of a frame, from its origin along x. -/
def outline (f : Frame) : List Segment :=
  [.moveTo ⟨f.x, f.y⟩, .lineTo ⟨f.x + f.width, f.y⟩,
    .lineTo ⟨f.x + f.width, f.y + f.height⟩, .lineTo ⟨f.x, f.y + f.height⟩, .close]

/-- A batch of one instruction, with the frame behind the mark of a rectangle. -/
def marked (f : Frame) (use : ShapeUse) : Batch N where
  tags := [use.kind.tag]
  ints := [-1]
  reals := [f.x, f.y, f.width, f.height]

/-- A batch of one instruction, with five segments: a start, three lines and a close. -/
def outlined (f : Frame) (use : ShapeUse) : Batch N where
  tags := [use.kind.tag]
  ints := [5, 0, 1, 1, 1, 3]
  reals :=
    [f.x, f.y, f.x + f.width, f.y, f.x + f.width, f.y + f.height, f.x, f.y + f.height]

theorem length_outline_le (f : Frame) : f.outline.length ≤ maxCount := by
  show 5 ≤ maxCount
  decide

theorem wire_marked (f : Frame) (use : ShapeUse) :
    (use.wireOp (.frame f) : WireOp N).wire = f.marked use := by
  cases use <;> rfl

theorem wire_outlined (f : Frame) (use : ShapeUse) :
    (use.wireOp (.path f.outline f.length_outline_le) : WireOp N).wire = f.outlined use := by
  cases use <;> rfl

end Frame

/-- A single operation of the grammar is read back under both policies. -/
theorem WireOp.exists_decode_wire (w : WireOp N) (policy : Policy) :
    ∃ p, w.wire.decode policy = .ok p ∧ p.ops = [w.toOp] := by
  have hspells : Spells [w] w.wire := by
    have hwire := spells_serialise [w]
    rwa [serialise_cons, serialise_nil, Batch.append_empty] at hwire
  obtain ⟨htags, feed, htakes⟩ := spells_iff_exists_takes.mp hspells
  have hreject : w.wire.decode .reject = .ok ⟨[w.toOp], feed.stats ⟨w.wire.tags.length, []⟩⟩ :=
    Batch.decode_reject_eq_ok_iff.mpr ⟨[w], feed, htags, rfl, htakes, rfl⟩
  cases policy with
  | reject => exact ⟨_, hreject, rfl⟩
  | skip => exact ⟨_, (Batch.decode_skip_of_reject_ok hreject).1, rfl⟩

namespace Recorder

variable {P : Type}

/-! ## Building a path -/

/-- Segments that are told one by one are added in order. -/
theorem performAll_segments (r : Recorder P) (segments : List Segment) :
    performAll r (segments.map Call.addSegment) = { r with path := r.path.addAll segments } := by
  induction segments generalizing r with
  | nil => rfl
  | cons segment segments ih =>
    rw [List.map_cons, performAll_cons, ih]
    rfl

/-- The calls of a shape make it the path in progress, whatever was in progress before. -/
theorem performAll_shape (r : Recorder P) (shape : Shape) :
    performAll r (.beginPath :: shape.calls) = { r with path := shape.addTo .empty } := by
  cases shape with
  | rect rect => rfl
  | path segments => exact performAll_segments { r with path := .empty } segments

theorem drawShape_eq_perform (r : Recorder P) (shape : Shape) (draw : Call (Native P)) :
    drawShape r shape draw = perform { r with path := shape.addTo .empty } draw := by
  rw [drawShape_eq, performAll_shape]
  rfl

/-- Only the calls that build a path touch the path in progress. -/
theorem path_perform_of_not_buildsPath (r : Recorder P) {call : Call (Native P)}
    (h : call.buildsPath = false) : (r.perform call).path = r.path := by
  cases call with
  | beginPath | addSegment _ | addRect _ => cases h
  | setFont thing | setPaint thing | drawImage thing _ | drawImageRect thing _ _ =>
    -- Whatever thing is passed, the path is not looked at.
    cases thing <;> rfl
  | restore =>
    show r.restore.path = r.path
    unfold restore
    split <;> rfl
  | _ => rfl

theorem keeps_path (path : PathBuilder) :
    Keeps (fun call : Call (Native P) => call.buildsPath = false)
      fun r : Recorder P => r.path = path where
  perform hcall h := (path_perform_of_not_buildsPath _ hcall).trans h
  measure _ h := h

/-! ## Operations and runs -/

/-- An operation with a shape leaves the path of that shape in progress, any other leaves the
    path as it was. -/
theorem path_apply (scale : Float) (r : Recorder P) (op : Op (Native P)) :
    (op.apply scale r).path = (op.shape?.map (·.addTo .empty)).getD r.path := by
  have hkeeps := keeps_path (P := P) r.path
  cases op with
  | strokeShape shape | fillShape shape | clipShape shape =>
    exact congrArg Recorder.path (drawShape_eq_perform r shape _)
  | setFont thing | setPaint thing | drawImageRect thing _ _ =>
    cases thing with
    | none => rfl
    | some thing => exact hkeeps.perform rfl rfl
  | drawImage image m =>
    -- The state that its bracket takes back is the one that it has put aside.
    cases image with
    | none => rfl
    | some thing => cases thing <;> rfl
  | fillText run | strokeText run => exact hkeeps.drawText run (fun _ _ => rfl) rfl
  | setStroke _ | setOpacity _ | transform _ | setTransform _ | save | restore | clearRect _
  | setImageQuality _ => exact hkeeps.perform rfl rfl

/-- Behind a run, the path in progress is that of the last shape. -/
theorem path_foldl_apply (scale : Float) (r : Recorder P) (ops : List (Op (Native P))) :
    (ops.foldl (Op.apply scale) r).path = ((lastShape? ops).map (·.addTo .empty)).getD r.path := by
  -- A run grows at its end, and its last operation decides first.
  induction ops using List.reverseRecOn with
  | nil => rfl
  | append_singleton ops op ih =>
    rw [List.foldl_concat, path_apply, ih, lastShape?_concat]
    cases op.shape? <;> rfl

/-- One event was recorded, that of using this path, which is the path in progress. -/
structure Draws (r : Recorder P) (event : Event P) (path : Path) (r' : Recorder P) : Prop where
  events : r'.events = r.events ++ [event]
  path : r'.path.elements = path
  state : r'.state = event.state
  saved : r'.saved = r.saved

theorem draws_apply (scale : Float) (r : Recorder P) (use : ShapeUse) (shape : Shape) :
    Draws r ⟨use.action shape.toPath, use.leave r.state⟩ shape.toPath
      ((use.op shape).apply scale r) := by
  rw [use.op_apply, drawShape_eq_perform]
  cases use <;> exact ⟨rfl, rfl, rfl, rfl⟩

/-- A frame is drawn like its sides, whatever the signs of its size. -/
theorem apply_outline (scale : Float) (r : Recorder P) (use : ShapeUse) (f : Frame) :
    (use.op (.path f.outline)).apply scale r = (use.op (.ofFrame f)).apply scale r := by
  rw [use.op_apply, use.op_apply, drawShape_eq_perform, drawShape_eq_perform]
  rfl

/-! ## Shapes -/

/-- What a shape draws is its own geometry. Whatever path is in progress, using a shape records
    one event, with the path of the shape, and leaves that path in progress; so behind a replay
    the path in progress is that of the last shape, or the one before if there was no shape.
    And a frame on the wire is drawn like its sides on the wire: both can be read, their passes
    leave the same behind, and they can stand for each other among other operations. -/
theorem shapes_draw_geometry (scale : Float) (r : Recorder P) :
    (∀ (use : ShapeUse) (shape : Shape),
      Draws r ⟨use.action shape.toPath, use.leave r.state⟩ shape.toPath
        ((use.op shape).apply scale r)) ∧
    (∀ ops : List (Op (Native P)),
      (replay scale r ops).path.elements =
        ((lastShape? ops).map Shape.toPath).getD r.path.elements) ∧
    ∀ (use : ShapeUse) (f : Frame) (policy : Policy),
      (∃ p, (f.marked use : Batch (Native P)).decode policy = .ok p ∧
        p.ops = [use.op (.ofFrame f)]) ∧
      (∃ p, (f.outlined use : Batch (Native P)).decode policy = .ok p ∧
        p.ops = [use.op (.path f.outline)]) ∧
      ((f.marked use).paint ⟨scale, policy⟩ r).2 = ((f.outlined use).paint ⟨scale, policy⟩ r).2 ∧
      ∀ front back,
        replay scale r (front ++ use.op (.ofFrame f) :: back) =
          replay scale r (front ++ use.op (.path f.outline) :: back) := by
  refine ⟨draws_apply scale r, ?_, ?_⟩
  · intro ops
    have hpath : (replay scale r ops).path =
        ((lastShape? ops).map (·.addTo .empty)).getD r.path :=
      path_foldl_apply scale _ ops
    rw [hpath]
    cases lastShape? ops <;> rfl
  · intro use f policy
    obtain ⟨p, hmarked, hp⟩ :=
      (use.wireOp (.frame f) : WireOp (Native P)).exists_decode_wire policy
    obtain ⟨q, houtlined, hq⟩ :=
      (use.wireOp (.path f.outline f.length_outline_le) :
        WireOp (Native P)).exists_decode_wire policy
    rw [f.wire_marked] at hmarked
    rw [f.wire_outlined] at houtlined
    rw [use.toOp_wireOp] at hp hq
    refine ⟨⟨p, hmarked, hp⟩, ⟨q, houtlined, hq⟩, ?_, ?_⟩
    · rw [Batch.paint_of_decode_eq_ok r hmarked, Batch.paint_of_decode_eq_ok r houtlined, hp, hq]
      exact (apply_outline scale _ use f).symm
    · intro front back
      have hsame := apply_outline scale (replay scale r front) use f
      rw [replay_append, replay_append, List.foldl_cons, List.foldl_cons, hsame]

/-- A recorder on which a path was started and left there. -/
def halfBuilt : Recorder := { fresh with path := PathBuilder.empty.moveTo ⟨7.0, 7.0⟩ }

/-- A path that begins with a close and a line. -/
def unstarted : Shape := .path [.close, .lineTo ⟨3.0, 4.0⟩, .lineTo ⟨5.0, 6.0⟩, .close]

/-- Nothing of the started path is drawn, the line of the other one is its start, and a frame
    to the left is drawn like its sides. -/
theorem shapes_draw_geometry_halfBuilt :
    ((Op.fillShape unstarted).apply 2.0 halfBuilt).events =
      [⟨.fill [.moveTo ⟨3.0, 4.0⟩, .lineTo ⟨5.0, 6.0⟩, .close], .initial⟩] ∧
    (replay 2.0 halfBuilt [.save, .fillShape unstarted, .setOpacity 0.5]).path.elements =
      [.moveTo ⟨3.0, 4.0⟩, .lineTo ⟨5.0, 6.0⟩, .close] ∧
    (replay 2.0 halfBuilt [.save, .restore]).path.elements = [.moveTo ⟨7.0, 7.0⟩] ∧
    ((Frame.marked ⟨10.0, 10.0, -4.0, 6.0⟩ .clip).paint ⟨2.0, .reject⟩ halfBuilt).2 =
      ((Frame.outlined ⟨10.0, 10.0, -4.0, 6.0⟩ .clip).paint ⟨2.0, .reject⟩ halfBuilt).2 := by
  obtain ⟨hdraws, hpath, hframe⟩ := shapes_draw_geometry 2.0 halfBuilt
  refine ⟨(hdraws .fill unstarted).events, ?_, ?_, ?_⟩
  · exact hpath [.save, .fillShape unstarted, .setOpacity 0.5]
  · exact hpath [.save, .restore]
  · exact (hframe .clip ⟨10.0, 10.0, -4.0, 6.0⟩ .reject).2.2.1

end Recorder

end BatchDraw
