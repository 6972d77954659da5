/-
  BatchDraw.Proofs.Recorder.Independence

  A pass does not depend on what earlier passes left behind.

  A pass sets the transform before anything else, begins every path that it draws,
  and takes back no more states than it puts aside. All that it finds on a recorder
  and looks at is the size of the font, which says how far a text advances the pen.

  So two recorders that agree on that size are kept in step (`InStep`): they record
  the same actions with the same transforms, and what the pass has put aside on them
  agrees state by state, above what was put aside before. One call keeps two recorders
  in step when it draws no path, or the paths in progress are the same
  (`InStep.perform`); from there it goes up to operations and runs.
-/
import BatchDraw.Proofs.Recorder.Brackets
import Mathlib.Data.List.Forall2

namespace BatchDraw

open Surface

/-- Whether a call draws the path in progress. -/
def Call.drawsPath {N : Type} : Call N → Bool
  | stroke | fill | clip => true
  | _ => false

namespace Recorder

variable {P : Type}

/-! ## Two recorders in step -/

/-- Two states that a pass cannot tell apart. -/
structure State.Akin (state state' : State P) : Prop where
  transform : state'.transform = state.transform
  fontSize : state'.font.size = state.font.size

/-- Two events with the same action, and with the same transform behind it. -/
structure Event.Akin (event event' : Event P) : Prop where
  action : event'.action = event.action
  transform : event'.state.transform = event.state.transform

/-- Two recorders behind runs that cannot be told apart, one that began with `start` and
    one that began with `start'`. Each run has `depth` states put aside. -/
structure InStep (start start' : Recorder P) (depth : Nat) (r r' : Recorder P) : Prop where
  state : r.state.Akin r'.state
  saved : ∃ inner inner', r.saved = inner ++ start.saved ∧ r'.saved = inner' ++ start'.saved ∧
    inner.length = depth ∧ List.Forall₂ State.Akin inner inner'
  events : ∃ recorded recorded', r.events = start.events ++ recorded ∧
    r'.events = start'.events ++ recorded' ∧ List.Forall₂ Event.Akin recorded recorded'

/-- Texts advance the pen alike under states akin. -/
theorem State.Akin.advance {r r' : Recorder P} (h : r.state.Akin r'.state) (text : String) :
    r'.advance text = r.advance text := by
  unfold Recorder.advance
  rw [h.fontSize]

variable {start start' r r' : Recorder P} {depth : Nat}

/-- What is built of a path depends on the path in progress and the call. -/
theorem path_perform (hpath : r'.path = r.path) {call : Call (Native P)}
    (hbracket : call.isBracket = false) : (r'.perform call).path = (r.perform call).path := by
  cases call with
  | save | restore => cases hbracket
  | beginPath => rfl
  | addSegment segment => exact congrArg (PathBuilder.add · segment) hpath
  | addRect rect => exact congrArg (PathBuilder.addRect · rect) hpath
  | setFont thing | setPaint thing | drawImage thing _ | drawImageRect thing _ _ =>
    cases thing <;> exact hpath
  | _ => exact hpath

namespace InStep

/-! ## Calls -/

/-- Both take on a state and record the same action. -/
theorem update (h : InStep start start' depth r r') {state state' : State P}
    (hstate : state.Akin state') (action : Action) :
    InStep start start' depth ({ r with state }.record action)
      ({ r' with state := state' }.record action) := by
  obtain ⟨recorded, recorded', hevents, hevents', hrecorded⟩ := h.events
  refine ⟨hstate, h.saved, recorded ++ [⟨action, state⟩], recorded' ++ [⟨action, state'⟩],
    ?_, ?_, ?_⟩
  · show r.events ++ [_] = _
    rw [hevents, List.append_assoc]
  · show r'.events ++ [_] = _
    rw [hevents', List.append_assoc]
  · have hlast : Event.Akin ⟨action, state⟩ ⟨action, state'⟩ := ⟨rfl, hstate.transform⟩
    exact List.rel_append hrecorded (.cons hlast .nil)

theorem record (h : InStep start start' depth r r') (action : Action) :
    InStep start start' depth (r.record action) (r'.record action) :=
  h.update h.state action

/-- A call keeps two recorders in step. Where it draws the path in progress, that has to
    be the same. -/
theorem perform (h : InStep start start' depth r r') {call : Call (Native P)}
    (hbracket : call.isBracket = false) (hpath : call.drawsPath = true → r'.path = r.path) :
    InStep start start' depth (r.perform call) (r'.perform call) := by
  obtain ⟨htransform, hfont⟩ := h.state
  cases call with
  | save | restore => cases hbracket
  | setFont thing =>
    -- A thing of the wrong kind is ignored by both.
    cases thing with
    | font font =>
      refine h.update ?_ .setFont
      exact ⟨htransform, rfl⟩
    | paint _ | image _ => exact ⟨h.state, h.saved, h.events⟩
  | setPaint thing =>
    cases thing with
    | paint paint =>
      refine h.update ?_ .setPaint
      exact ⟨htransform, hfont⟩
    | font _ | image _ => exact ⟨h.state, h.saved, h.events⟩
  | setStroke style =>
    refine h.update ?_ .setStroke
    exact ⟨htransform, hfont⟩
  | setOpacity alpha =>
    refine h.update ?_ .setOpacity
    exact ⟨htransform, hfont⟩
  | setSmoothing smoothing =>
    refine h.update ?_ .setSmoothing
    exact ⟨htransform, hfont⟩
  | setTransform m =>
    refine h.update ?_ (.setTransform m)
    exact ⟨rfl, hfont⟩
  | transform m =>
    refine h.update ?_ (.transform m)
    exact ⟨congrArg (· * m) htransform, hfont⟩
  | beginPath | addSegment _ | addRect _ => exact ⟨h.state, h.saved, h.events⟩
  | stroke =>
    show InStep _ _ _ (r.record (.stroke r.path.elements)) (r'.record (.stroke r'.path.elements))
    rw [hpath rfl]
    exact h.record _
  | fill =>
    show InStep _ _ _ (r.record (.fill r.path.elements)) (r'.record (.fill r'.path.elements))
    rw [hpath rfl]
    exact h.record _
  | clip =>
    have haction : Action.clip r'.path.elements = .clip r.path.elements := by rw [hpath rfl]
    show InStep _ _ _ r.clip r'.clip
    unfold clip
    rw [haction]
    refine h.update ?_ (.clip r.path.elements)
    exact ⟨htransform, hfont⟩
  | clearRect rect => exact h.record _
  | drawImage thing origin | drawImageRect thing source target =>
    cases thing with
    | image image => exact h.record _
    | font _ | paint _ => exact ⟨h.state, h.saved, h.events⟩
  | fillText text origin | strokeText text origin => exact h.record _

/-- A call that does not draw the path in progress does not look at it. -/
theorem perform_of_pathless (h : InStep start start' depth r r') (call : Call (Native P))
    (hbracket : call.isBracket = false) (hdraws : call.drawsPath = false) :
    InStep start start' depth (r.perform call) (r'.perform call) := by
  refine h.perform hbracket fun hdraws' => ?_
  rw [hdraws] at hdraws'
  cases hdraws'

/-- Both put their states aside, which are akin. -/
theorem save (h : InStep start start' depth r r') :
    InStep start start' (depth + 1) r.save r'.save := by
  obtain ⟨inner, inner', hsaved, hsaved', hlength, hinner⟩ := h.saved
  have hrecord := h.record .save
  refine ⟨h.state, ⟨r.state :: inner, r'.state :: inner', ?_, ?_, ?_, ?_⟩, hrecord.events⟩
  · exact congrArg (r.state :: ·) hsaved
  · exact congrArg (r'.state :: ·) hsaved'
  · rw [List.length_cons, hlength]
  · exact .cons h.state hinner

/-- Both take back a state that they have put aside in step. -/
theorem restore (h : InStep start start' (depth + 1) r r') :
    InStep start start' depth r.restore r'.restore := by
  obtain ⟨inner, inner', hsaved, hsaved', hlength, hinner⟩ := h.saved
  cases hinner with
  | nil => cases hlength
  | @cons state state' inner inner' hstate hinner =>
    rw [List.length_cons, Nat.add_right_cancel_iff] at hlength
    rw [restore_of_saved hsaved, restore_of_saved hsaved']
    have hrecord := h.update hstate (.restore true)
    exact ⟨hstate, ⟨inner, inner', rfl, rfl, hlength, hinner⟩, hrecord.events⟩

variable (start start' depth)

/-- Calls that do not draw the path in progress keep two recorders in step, and texts
    advance the pen alike. -/
theorem relates_pathless :
    Relates (fun call => call.isBracket = false ∧ call.drawsPath = false)
      (InStep start start' depth) where
  perform hquiet h := h.perform_of_pathless _ hquiet.1 hquiet.2
  measure text h := ⟨h.state.advance text, h⟩

/-- With the same path in progress, all calls keep two recorders in step. -/
theorem relates_path :
    Relates (fun call => call.isBracket = false)
      (fun r r' => InStep start start' depth r r' ∧ r'.path = r.path) where
  perform hbracket h := ⟨h.1.perform hbracket fun _ => h.2, path_perform h.2 hbracket⟩
  measure text h := ⟨h.1.state.advance text, h⟩

variable {start start' depth}

/-! ## Shapes and text -/

/-- A shape begins a path, so what was in progress before is of no matter. -/
theorem drawShape (h : InStep start start' depth r r') (shape : Shape) {draw : Call (Native P)}
    (hdraw : draw.isBracket = false) :
    InStep start start' depth (drawShape r shape draw) (drawShape r' shape draw) := by
  have hbegin : InStep start start' depth (r.perform .beginPath) (r'.perform .beginPath) :=
    h.perform_of_pathless .beginPath rfl rfl
  have hpath : (r'.perform .beginPath).path = (r.perform .beginPath).path := rfl
  have hdrawn := (relates_path start start' depth).performAll ⟨hbegin, hpath⟩ fun call hcall =>
    shape.isBracket_of_mem_calls hdraw hcall
  exact hdrawn.1

/-- The characters are drawn at the same points, because they advance the pen alike. -/
theorem drawText (h : InStep start start' depth r r') (run : TextRun)
    {draw : String → Point → Call (Native P)}
    (hbracket : ∀ text origin, (draw text origin).isBracket = false)
    (hpath : ∀ text origin, (draw text origin).drawsPath = false) :
    InStep start start' depth (drawText r run draw) (drawText r' run draw) :=
  (relates_pathless start start' depth).drawText h run fun text origin =>
    ⟨hbracket text origin, hpath text origin⟩

/-! ## Operations -/

/-- An image is drawn in a bracket of its own. -/
theorem drawImage (h : InStep start start' depth r r') (scale : Float) (image : Option (Native P))
    (m : Affine) :
    InStep start start' depth ((Op.drawImage image m).apply scale r)
      ((Op.drawImage image m).apply scale r') := by
  have hplaced := h.save.perform_of_pathless (.setTransform (m.scaleDiagonal scale)) rfl rfl
  cases image with
  | none => exact hplaced.restore
  | some image =>
    have hdrawn := hplaced.perform_of_pathless (.drawImage image .origin) rfl rfl
    exact hdrawn.restore

/-- An operation that is no bracket keeps two recorders in step. -/
theorem apply_of_not_bracket (h : InStep start start' depth r r') (scale : Float)
    {op : Op (Native P)} (hsave : op.isSave = false) (hrestore : op.isRestore = false) :
    InStep start start' depth (op.apply scale r) (op.apply scale r') := by
  cases op with
  | save => cases hsave
  | restore => cases hrestore
  | setFont thing =>
    cases thing with
    | none => exact h
    | some font => exact h.perform_of_pathless (.setFont font) rfl rfl
  | setPaint thing =>
    cases thing with
    | none => exact h
    | some paint => exact h.perform_of_pathless (.setPaint paint) rfl rfl
  | drawImageRect thing source target =>
    cases thing with
    | none => exact h
    | some image => exact h.perform_of_pathless (.drawImageRect image source target) rfl rfl
  | setStroke style => exact h.perform_of_pathless (.setStroke style) rfl rfl
  | setOpacity alpha => exact h.perform_of_pathless (.setOpacity alpha) rfl rfl
  | strokeShape shape | fillShape shape | clipShape shape => exact h.drawShape shape rfl
  | drawImage image m => exact h.drawImage scale image m
  | fillText run | strokeText run => exact h.drawText run (fun _ _ => rfl) fun _ _ => rfl
  | transform m => exact h.perform_of_pathless (.transform m) rfl rfl
  | setTransform m => exact h.perform_of_pathless (.setTransform (m.scaleDiagonal scale)) rfl rfl
  | clearRect rect => exact h.perform_of_pathless (.clearRect rect) rfl rfl
  | setImageQuality level => exact h.perform_of_pathless (.setSmoothing (.ofLevel level)) rfl rfl

/-- An operation keeps two recorders in step, as long as it takes back no state that was
    put aside before. -/
theorem apply (h : InStep start start' depth r r') (scale : Float) (op : Op (Native P))
    (hcovered : [op].countP Op.isRestore ≤ depth + [op].countP Op.isSave) :
    ∃ depth', InStep start start' depth' (op.apply scale r) (op.apply scale r') ∧
      depth' + [op].countP Op.isRestore = depth + [op].countP Op.isSave := by
  cases hsave : op.isSave with
  | true =>
    obtain rfl := Op.eq_save hsave
    exact ⟨depth + 1, h.save, rfl⟩
  | false =>
    cases hrestore : op.isRestore with
    | true =>
      obtain rfl := Op.eq_restore hrestore
      cases depth with
      | zero => exact absurd hcovered (Nat.not_succ_le_zero 0)
      | succ depth => exact ⟨depth, h.restore, rfl⟩
    | false =>
      refine ⟨depth, h.apply_of_not_bracket scale hsave hrestore, ?_⟩
      simp only [List.countP_singleton, hsave, hrestore]

/-- Covered operations keep two recorders in step. What they have put aside and not taken
    back is `depth'` states. -/
theorem foldl_apply (h : InStep start start' 0 r r') (scale : Float) {ops : List (Op (Native P))}
    (hcovered : Covered ops) :
    ∃ depth', InStep start start' depth' (ops.foldl (Op.apply scale) r)
        (ops.foldl (Op.apply scale) r') ∧
      depth' + ops.countP Op.isRestore = ops.countP Op.isSave := by
  -- Covered operations are covered at each of their fronts, so the last one is taken off.
  induction ops using List.reverseRecOn with
  | nil => exact ⟨0, h, rfl⟩
  | append_singleton ops op ih =>
    obtain ⟨depth, hfront, hdepth⟩ := ih hcovered.front
    have hlast := hcovered (ops ++ [op]) (List.prefix_refl _)
    rw [List.countP_append, List.countP_append] at hlast
    obtain ⟨depth', hop, hdepth'⟩ := hfront.apply scale op (by omega)
    refine ⟨depth', ?_, ?_⟩
    · rw [List.foldl_concat, List.foldl_concat]
      exact hop
    · rw [List.countP_append, List.countP_append]
      omega

end InStep

/-! ## Passes -/

/-- Before a pass two recorders may differ in all but the size of the font; the first thing
    a pass does is to set the transform. -/
theorem inStep_setTransform (hfont : r'.state.font.size = r.state.font.size) (m : Affine) :
    InStep r r' 0 (r.perform (.setTransform m)) (r'.perform (.setTransform m)) := by
  have hakin : Event.Akin ⟨.setTransform m, { r.state with transform := m }⟩
      ⟨.setTransform m, { r'.state with transform := m }⟩ := ⟨rfl, rfl⟩
  exact ⟨⟨rfl, hfont⟩, ⟨[], [], rfl, rfl, rfl, .nil⟩, ⟨_, _, rfl, rfl, .cons hakin .nil⟩⟩

/-- What a pass does is not a matter of what earlier passes left behind: drawn on any two
    recorders with the same font size, operations that take back only what they have put
    aside record as many events, with the same actions and the same transforms one by one,
    and leave what was put aside before as it was, below as many states of their own as
    they have put aside and not taken back. -/
theorem replay_independent (scale : Float) (r r' : Recorder P)
    (hfont : r'.state.font.size = r.state.font.size) {ops : List (Op (Native P))}
    (hcovered : Covered ops) :
    ∃ recorded recorded' inner inner',
      (replay scale r ops).events = r.events ++ recorded ∧
      (replay scale r' ops).events = r'.events ++ recorded' ∧
      recorded'.length = recorded.length ∧ List.Forall₂ Event.Akin recorded recorded' ∧
      (replay scale r ops).saved = inner ++ r.saved ∧
      (replay scale r' ops).saved = inner' ++ r'.saved ∧
      inner'.length = inner.length ∧
      inner.length + ops.countP Op.isRestore = ops.countP Op.isSave := by
  have hstart := inStep_setTransform hfont (.scale scale)
  obtain ⟨depth, hstep, hdepth⟩ := hstart.foldl_apply scale hcovered
  obtain ⟨recorded, recorded', hevents, hevents', hrecorded⟩ := hstep.events
  obtain ⟨inner, inner', hsaved, hsaved', hlength, hinner⟩ := hstep.saved
  have hcount : recorded'.length = recorded.length := hrecorded.length_eq.symm
  have hheight : inner'.length = inner.length := hinner.length_eq.symm
  refine ⟨recorded, recorded', inner, inner', hevents, hevents', hcount, hrecorded, hsaved,
    hsaved', hheight, ?_⟩
  rw [hlength]
  exact hdepth

/-- A recorder on which an earlier pass has left a transform, an opacity, a state that was
    put aside and a path. -/
def leftBehind : Recorder where
  state := { State.initial with transform := ⟨2.0, 0.0, 0.0, 2.0, 5.0, 6.0⟩, opacity := 0.5 }
  saved := [.initial]
  path := PathBuilder.empty.add (.moveTo ⟨7.0, 7.0⟩)
  events := [⟨.save, .initial⟩]

/-- A spaced text, a clip to a path that does not begin with a start, in a bracket, and a
    state that is put aside and stays there. -/
def spacedPass : List (Op Native) :=
  [.fillText ⟨"ab", ⟨1.0, 2.0⟩, 0.5⟩, .save, .setFont (some (.font ⟨"serif", 14.0⟩)),
    .clipShape (.path [.lineTo ⟨3.0, 4.0⟩, .close]), .restore, .save]

/-- On what was left behind, the pass does what it does on a fresh recorder. -/
theorem replay_independent_leftBehind :
    leftBehind.state.font.size = fresh.state.font.size ∧ Covered spacedPass ∧
    ∃ recorded recorded' inner inner',
      (replay 2.0 fresh spacedPass).events = fresh.events ++ recorded ∧
      (replay 2.0 leftBehind spacedPass).events = leftBehind.events ++ recorded' ∧
      recorded'.length = recorded.length ∧ List.Forall₂ Event.Akin recorded recorded' ∧
      (replay 2.0 fresh spacedPass).saved = inner ++ [] ∧
      (replay 2.0 leftBehind spacedPass).saved = inner' ++ [.initial] ∧
      inner'.length = inner.length ∧ inner.length + 1 = 2 := by
  have hfont : leftBehind.state.font.size = fresh.state.font.size := rfl
  have hcovered : Covered spacedPass := by decide
  exact ⟨hfont, hcovered, replay_independent 2.0 fresh leftBehind hfont hcovered⟩

end Recorder

end BatchDraw
