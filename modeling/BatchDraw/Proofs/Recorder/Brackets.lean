/-
  BatchDraw.Proofs.Recorder.Brackets

  A bracket of save and restore undoes what is between.

  Only `save` and `restore` touch the states that a recorder puts aside. Between
  them, calls are `Within` what was put aside. So as long as no more states are taken
  back than were put aside, what was there before stays underneath
  (`exists_saved_foldl_apply`), and where they are as many, nothing is above it.
-/
import BatchDraw.Recorder.Basic
import BatchDraw.Surface.Pass
import BatchDraw.Proofs.Surface.Keeping
import Mathlib.Data.List.Infix
import Mathlib.Data.List.Induction

namespace BatchDraw

open Surface

/-! ## Balance -/

section Balance

variable {N : Type}

def Op.isSave (op : Op N) : Bool := op.kind == .save

def Op.isRestore (op : Op N) : Bool := op.kind == .restore

theorem Op.eq_save {op : Op N} (h : op.isSave = true) : op = .save := by
  cases op <;> first | rfl | cases h

theorem Op.eq_restore {op : Op N} (h : op.isRestore = true) : op = .restore := by
  cases op <;> first | rfl | cases h

/-- Operations between `save` and `restore`. -/
def Op.bracket (body : List (Op N)) : List (Op N) := .save :: body ++ [.restore]

/-- At no point have more states been taken back than put aside. -/
def Covered (ops : List (Op N)) : Prop :=
  ∀ front, front <+: ops → front.countP Op.isRestore ≤ front.countP Op.isSave

/-- All that is put aside is taken back, and nothing else. -/
structure Balanced (ops : List (Op N)) : Prop where
  covered : Covered ops
  countP_eq : ops.countP Op.isRestore = ops.countP Op.isSave

instance (ops : List (Op N)) : Decidable (Covered ops) :=
  decidable_of_iff (∀ front ∈ ops.inits, front.countP Op.isRestore ≤ front.countP Op.isSave) <|
    forall_congr' fun front => imp_congr_left (List.mem_inits front ops)

instance (ops : List (Op N)) : Decidable (Balanced ops) :=
  decidable_of_iff (Covered ops ∧ ops.countP Op.isRestore = ops.countP Op.isSave)
    ⟨fun h => ⟨h.1, h.2⟩, fun h => ⟨h.covered, h.countP_eq⟩⟩

theorem Covered.front {ops others : List (Op N)} (h : Covered (ops ++ others)) : Covered ops :=
  fun front hfront => h front (hfront.trans (List.prefix_append ops others))

/-- Whether a call touches the states that are put aside. -/
def Call.isBracket : Call N → Bool
  | save | restore => true
  | _ => false

/-- Building a path does not touch the states that are put aside. -/
theorem Call.isBracket_of_buildsPath {call : Call N} (h : call.buildsPath = true) :
    call.isBracket = false := by
  cases call <;> first | rfl | cases h

/-- The calls that add a shape to a path and then do something with it do not touch the
    states that are put aside, if that thing does not. -/
theorem Shape.isBracket_of_mem_calls (shape : Shape) {draw call : Call N}
    (hdraw : draw.isBracket = false) (hcall : call ∈ shape.calls ++ [draw]) :
    call.isBracket = false := by
  rcases List.mem_append.mp hcall with hcall | hcall
  · exact Call.isBracket_of_buildsPath (shape.buildsPath_of_mem_calls hcall)
  · rw [List.mem_singleton.mp hcall]
    exact hdraw

end Balance

namespace Recorder

variable {P : Type}

/-! ## Between brackets -/

/-- From one recorder to the other, no state was put aside or taken back. -/
structure Within (r r' : Recorder P) : Prop where
  saved : r'.saved = r.saved
  events : ∃ recorded, r'.events = r.events ++ recorded ∧
    ∀ event ∈ recorded, ∀ popped, event.action ≠ .restore popped

namespace Within

variable {r r' r'' : Recorder P}

theorem refl (r : Recorder P) : Within r r :=
  ⟨rfl, [], (List.append_nil _).symm, fun _ h => nomatch h⟩

theorem trans (h : Within r r') (h' : Within r' r'') : Within r r'' := by
  obtain ⟨recorded, hevents, hrecorded⟩ := h.events
  obtain ⟨recorded', hevents', hrecorded'⟩ := h'.events
  refine ⟨h'.saved.trans h.saved, recorded ++ recorded', ?_, ?_⟩
  · rw [hevents', hevents, List.append_assoc]
  · intro event hevent
    rcases List.mem_append.mp hevent with hmem | hmem
    · exact hrecorded event hmem
    · exact hrecorded' event hmem

theorem silent (hsaved : r'.saved = r.saved) (hevents : r'.events = r.events) : Within r r' :=
  ⟨hsaved, [], by rw [hevents, List.append_nil], fun _ h => nomatch h⟩

/-- One action was recorded, which is not that of taking back a state. -/
theorem logged {event : Event P} (hsaved : r'.saved = r.saved)
    (hevents : r'.events = r.events ++ [event])
    (hevent : ∀ popped, event.action ≠ .restore popped) : Within r r' := by
  refine ⟨hsaved, [event], hevents, ?_⟩
  intro other hother
  rw [List.mem_singleton.mp hother]
  exact hevent

/-- Only `save` and `restore` touch what is put aside. -/
theorem perform (r : Recorder P) {call : Call (Native P)} (h : call.isBracket = false) :
    Within r (r.perform call) := by
  cases call with
  | save | restore => cases h
  | beginPath | addSegment _ | addRect _ => exact silent rfl rfl
  | setFont font | setPaint font | drawImage font _ | drawImageRect font _ _ =>
    -- A thing of the wrong kind leaves no event.
    cases font <;> first | exact silent rfl rfl | exact logged rfl rfl (fun _ h => nomatch h)
  | _ => exact logged rfl rfl (fun _ h => nomatch h)

/-- Measuring leaves no trace, so all that is made of other calls is within what was put
    aside. -/
theorem keeps (r : Recorder P) : Keeps (fun call => call.isBracket = false) (Within r) where
  perform hcall h := h.trans (perform _ hcall)
  measure _ h := h

theorem performAll (r : Recorder P) {calls : List (Call (Native P))}
    (h : ∀ call ∈ calls, call.isBracket = false) : Within r (performAll r calls) :=
  (keeps r).performAll h (refl r)

theorem drawShape (r : Recorder P) (shape : Shape) {draw : Call (Native P)}
    (h : draw.isBracket = false) : Within r (drawShape r shape draw) := by
  rw [drawShape_eq]
  have hbuilt := (keeps r).beginShape (fun _ => Call.isBracket_of_buildsPath) shape (refl r)
  exact (keeps r).perform h hbuilt

theorem drawText (r : Recorder P) (run : TextRun) {draw : String → Point → Call (Native P)}
    (h : ∀ text origin, (draw text origin).isBracket = false) : Within r (drawText r run draw) :=
  (keeps r).drawText run h (refl r)

end Within

/-! ## Brackets -/

/-- What was put aside last is taken back. -/
theorem restore_of_saved {r : Recorder P} {state : State P} {saved : List (State P)}
    (h : r.saved = state :: saved) :
    r.restore = { r with state, saved }.record (.restore true) := by
  rw [restore, h]

/-- A `save` was recorded, its own `restore` behind it, and no other `restore` in between.
    The state and what is put aside are as before. -/
structure Bracketed (r r' : Recorder P) : Prop where
  state : r'.state = r.state
  saved : r'.saved = r.saved
  events : ∃ recorded,
    r'.events = r.events ++ ⟨.save, r.state⟩ :: recorded ++ [⟨.restore true, r.state⟩] ∧
    ∀ event ∈ recorded, ∀ popped, event.action ≠ .restore popped

/-- Calls that do not touch what is put aside are undone by a bracket around them. -/
theorem bracketed_performAll (r : Recorder P) {calls : List (Call (Native P))}
    (h : ∀ call ∈ calls, call.isBracket = false) :
    Bracketed r (performAll r (.save :: calls ++ [.restore])) := by
  have hwithin := Within.performAll r.save h
  obtain ⟨recorded, hevents, hrecorded⟩ := hwithin.events
  -- What is put aside last is still what `save` has put there.
  have hrestore := restore_of_saved hwithin.saved
  have hall : performAll r (.save :: calls ++ [.restore]) = (performAll r.save calls).restore :=
    performAll_append r.save calls [.restore]
  rw [hall, hrestore]
  refine ⟨rfl, rfl, recorded, ?_, hrecorded⟩
  show (performAll r.save calls).events ++ [_] = _
  rw [hevents]
  show r.events ++ [_] ++ recorded ++ [_] = _
  simp only [List.append_assoc, List.cons_append, List.nil_append]

/-- An image with a transform of its own is drawn in a bracket, whether or not there
    is an image. -/
theorem bracketed_drawImage (scale : Float) (r : Recorder P) (image : Option (Native P))
    (m : Affine) :
    Bracketed r ((Op.drawImage image m).apply scale r) := by
  have hcalls : ∀ call ∈ Call.setTransform (m.scaleDiagonal scale) ::
      image.toList.map (Call.drawImage · .origin), call.isBracket = false := by
    intro call hcall
    rcases List.mem_cons.mp hcall with rfl | hcall
    · rfl
    · obtain ⟨thing, -, rfl⟩ := List.mem_map.mp hcall
      rfl
  exact bracketed_performAll r hcalls

/-! ## Operations -/

/-- Only the operations `save` and `restore` leave something put aside or take back what
    was there before. -/
theorem saved_apply (scale : Float) (r : Recorder P) {op : Op (Native P)}
    (hsave : op.isSave = false) (hrestore : op.isRestore = false) :
    (op.apply scale r).saved = r.saved := by
  cases op with
  | save => cases hsave
  | restore => cases hrestore
  | setFont thing | setPaint thing | drawImageRect thing _ _ =>
    cases thing with
    | none => rfl
    | some thing => exact (Within.perform r rfl).saved
  | drawImage image m =>
    -- It puts a state aside, and takes that one back.
    exact (bracketed_drawImage scale r image m).saved
  | strokeShape shape | fillShape shape | clipShape shape =>
    exact (Within.drawShape r shape rfl).saved
  | fillText run | strokeText run => exact (Within.drawText r run fun _ _ => rfl).saved
  | setStroke _ | setOpacity _ | transform _ | setTransform _ | clearRect _
  | setImageQuality _ => exact (Within.perform r rfl).saved

/-- One operation, above what was put aside before: `save` adds a state, `restore` takes
    one back if there is one, and no other operation does either. -/
theorem exists_saved_apply (scale : Float) {r : Recorder P} {inner base : List (State P)}
    (op : Op (Native P)) (hsaved : r.saved = inner ++ base)
    (hcovered : [op].countP Op.isRestore ≤ inner.length + [op].countP Op.isSave) :
    ∃ inner', (op.apply scale r).saved = inner' ++ base ∧
      inner'.length + [op].countP Op.isRestore = inner.length + [op].countP Op.isSave := by
  cases hsave : op.isSave with
  | true =>
    obtain rfl := Op.eq_save hsave
    exact ⟨r.state :: inner, congrArg (r.state :: ·) hsaved, rfl⟩
  | false =>
    cases hrestore : op.isRestore with
    | true =>
      obtain rfl := Op.eq_restore hrestore
      cases inner with
      | nil =>
        -- With nothing above, one more was taken back than was put aside.
        exact absurd hcovered (Nat.not_succ_le_zero 0)
      | cons state inner => exact ⟨inner, congrArg saved (restore_of_saved hsaved), rfl⟩
    | false =>
      refine ⟨inner, (saved_apply scale r hsave hrestore).trans hsaved, ?_⟩
      simp only [List.countP_singleton, hsave, hrestore]

/-- What was put aside before a run stays underneath, and above it is what the run has put
    aside and not yet taken back. -/
theorem exists_saved_foldl_apply (scale : Float) (r : Recorder P) {ops : List (Op (Native P))}
    (h : Covered ops) :
    ∃ inner, (ops.foldl (Op.apply scale) r).saved = inner ++ r.saved ∧
      inner.length + ops.countP Op.isRestore = ops.countP Op.isSave := by
  -- A run grows at its end, so the last operation is taken off.
  induction ops using List.reverseRecOn with
  | nil => exact ⟨[], rfl, rfl⟩
  | append_singleton ops op ih =>
    obtain ⟨inner, hsaved, hlength⟩ := ih h.front
    have hcovered := h (ops ++ [op]) (List.prefix_refl _)
    rw [List.countP_append, List.countP_append] at hcovered
    obtain ⟨inner', hsaved', hlength'⟩ := exists_saved_apply scale op hsaved (by omega)
    refine ⟨inner', ?_, ?_⟩
    · rw [List.foldl_concat]
      exact hsaved'
    · rw [List.countP_append, List.countP_append]
      omega

/-- Balanced operations leave nothing of their own above what was put aside before. -/
theorem saved_foldl_apply (scale : Float) (r : Recorder P) {ops : List (Op (Native P))}
    (h : Balanced ops) : (ops.foldl (Op.apply scale) r).saved = r.saved := by
  obtain ⟨inner, hsaved, hlength⟩ := exists_saved_foldl_apply scale r h.covered
  have hcount := h.countP_eq
  obtain rfl : inner = [] := List.length_eq_zero_iff.mp (by omega)
  exact hsaved

/-- The outermost `restore` takes back what the outermost `save` has put aside. -/
theorem foldl_apply_bracket (scale : Float) (r : Recorder P) {body : List (Op (Native P))}
    (h : Balanced body) :
    ((Op.bracket body).foldl (Op.apply scale) r).state = r.state ∧
    ((Op.bracket body).foldl (Op.apply scale) r).saved = r.saved := by
  have hbody : (body.foldl (Op.apply scale) r.save).saved = r.state :: r.saved :=
    saved_foldl_apply scale r.save h
  have hall : (Op.bracket body).foldl (Op.apply scale) r =
      (body.foldl (Op.apply scale) r.save).restore := by
    rw [Op.bracket, List.foldl_concat]
    rfl
  rw [hall, restore_of_saved hbody]
  exact ⟨rfl, rfl⟩

/-- A bracket undoes everything between: around balanced operations it leaves the state
    and the states put aside as they were; a pass that is such a bracket changes the
    transform alone; and the bracket in which an image is drawn has always a state to take
    back, its own. -/
theorem bracket_undoes (scale : Float) (r : Recorder P) :
    (∀ body : List (Op (Native P)), Balanced body →
      ((Op.bracket body).foldl (Op.apply scale) r).state = r.state ∧
      ((Op.bracket body).foldl (Op.apply scale) r).saved = r.saved) ∧
    (∀ (b : Batch (Native P)) (policy : Policy) (p : Program (Native P))
      (body : List (Op (Native P))),
      b.decode policy = .ok p → p.ops = Op.bracket body → Balanced body →
        (b.paint ⟨scale, policy⟩ r).2.state = { r.state with transform := .scale scale } ∧
        (b.paint ⟨scale, policy⟩ r).2.saved = r.saved) ∧
    ∀ (image : Option (Native P)) (m : Affine),
      ((Op.drawImage image m).apply scale r).state = r.state ∧
      ((Op.drawImage image m).apply scale r).saved = r.saved ∧
      ∃ recorded,
        ((Op.drawImage image m).apply scale r).events =
          r.events ++ ⟨.save, r.state⟩ :: recorded ++ [⟨.restore true, r.state⟩] ∧
        ∀ event ∈ recorded, ∀ popped, event.action ≠ .restore popped := by
  refine ⟨?_, ?_, ?_⟩
  · intro body hbody
    exact foldl_apply_bracket scale r hbody
  · intro b policy p body hdecode hops hbody
    rw [Batch.paint_of_decode_eq_ok r hdecode, hops]
    exact foldl_apply_bracket scale _ hbody
  · intro image m
    obtain ⟨hstate, hsaved, hevents⟩ := bracketed_drawImage scale r image m
    exact ⟨hstate, hsaved, hevents⟩

/-- A transform and a clip in a bracket of their own, and a font where an image should
    be. -/
def nestedBody : List (Op Native) :=
  [.setOpacity 0.5, .save, .setTransform ⟨1.0, 0.0, 0.0, 1.0, 4.0, 5.0⟩,
    .clipShape (.rect ⟨0.0, 0.0, 8.0, 6.0⟩), .restore,
    .drawImage (some (.font ⟨"serif", 14.0⟩)) ⟨1.0, 0.0, 0.0, 1.0, 2.0, 3.0⟩]

/-- Two opacities, the second one in an inner bracket. -/
def nestedBatch : Batch Native where
  tags := [14, 4, 14, 4, 15, 15]
  reals := [0.5, 0.25]

/-- The bracket is closed where another state has been put aside already. -/
theorem bracket_undoes_nested :
    ∃ r : Recorder, r.saved = [.initial] ∧ r.state = { State.initial with opacity := 0.75 } ∧
      Balanced nestedBody ∧
      ((Op.bracket nestedBody).foldl (Op.apply 2.0) r).state = r.state ∧
      ((Op.bracket nestedBody).foldl (Op.apply 2.0) r).saved = [.initial] ∧
      (nestedBatch.paint ⟨2.0, .reject⟩ r).2.state =
        { State.initial with opacity := 0.75, transform := .scale 2.0 } ∧
      (nestedBatch.paint ⟨2.0, .reject⟩ r).2.saved = [.initial] := by
  let r : Recorder :=
    { fresh with saved := [.initial], state := { State.initial with opacity := 0.75 } }
  have hbody : Balanced nestedBody := by decide
  have hdecode : nestedBatch.decode .reject =
      .ok ⟨Op.bracket [.setOpacity 0.5, .save, .setOpacity 0.25, .restore],
        { consumed := { tags := 6, reals := 2 } }⟩ := rfl
  obtain ⟨hbracket, hpass, -⟩ := bracket_undoes 2.0 r
  obtain ⟨hstate, hsaved⟩ := hbracket nestedBody hbody
  obtain ⟨hpass_state, hpass_saved⟩ := hpass nestedBatch .reject _ _ hdecode rfl (by decide)
  exact ⟨r, rfl, rfl, hbody, hstate, hsaved, hpass_state, hpass_saved⟩

end Recorder

end BatchDraw
