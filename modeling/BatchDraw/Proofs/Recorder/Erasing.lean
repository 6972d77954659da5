/-
  BatchDraw.Proofs.Recorder.Erasing

  Operations that can be left out.

  What is told to one surface of a related pair and not to the other can be left out for
  the other, if it keeps them related (`Surface.Relates.foldl_filter`). On a recorder the
  relation is that a part of it is the same, where that part alone decides what the same
  calls make of it (`Recorder.Reduces`). Two parts are of this sort: all but the
  mismatches, which an operation without a fitting reference leaves as it is; and the
  states alone, which a drawing operation leaves as they are.
-/
import BatchDraw.Proofs.Recorder.Brackets
import BatchDraw.Proofs.Recorder.Shapes
import BatchDraw.Proofs.Wire.Amounts

namespace BatchDraw

open Surface

/-! ## Leaving out -/

section Relating

variable {σ τ N : Type} [Surface σ N] [Surface τ N] {R : σ → τ → Prop}

/-- Operations that do not disturb the relation can be left out for the second surface,
    wherever they stand. -/
theorem Surface.Relates.foldl_filter (hR : Relates (fun _ => True) R) (scale : Float)
    {keep : Op N → Bool}
    (hdrop : ∀ {s : σ} {t : τ} {op : Op N}, keep op = false → R s t → R (op.apply scale s) t)
    {s : σ} {t : τ} (h : R s t) (ops : List (Op N)) :
    R (ops.foldl (Op.apply scale) s) ((ops.filter keep).foldl (Op.apply scale) t) := by
  -- On the operations. One that is left out is told to the first surface only.
  induction ops generalizing s t with
  | nil => exact h
  | cons op ops ih =>
    cases hkeep : keep op with
    | true =>
      rw [List.filter_cons_of_pos hkeep]
      exact ih (hR.apply h scale op)
    | false =>
      have hop : ¬keep op = true := by simp [hkeep]
      rw [List.filter_cons_of_neg hop]
      exact ih (hdrop hkeep h)

end Relating

/-! ## Sorts of operations -/

section Sorts

variable {N : Type}

/-- Whether an operation draws something, be it nothing but an absent image. -/
def Op.draws : Op N → Bool
  | strokeShape _ | fillShape _ | clearRect _ | drawImageRect _ _ _ | drawImage _ _
  | fillText _ | strokeText _ => true
  | setFont _ | setPaint _ | setStroke _ | setOpacity _ | clipShape _ | transform _
  | setTransform _ | save | restore | setImageQuality _ => false

/-- Whether a call leaves marks on the surface. -/
def Call.marks : Call N → Bool
  | stroke | fill | clearRect _ | drawImage _ _ | drawImageRect _ _ _ | fillText _ _
  | strokeText _ _ => true
  | setFont _ | setPaint _ | setStroke _ | setOpacity _ | setSmoothing _ | setTransform _
  | transform _ | save | restore | beginPath | addSegment _ | addRect _ | clip => false

end Sorts

namespace Recorder

variable {P : Type}

/-- Whether a reference is to a thing of the expected kind. -/
def suits (expected : NativeKind) : Option (Native P) → Bool
  | some thing => thing.kind == expected
  | none => false

/-- Whether a font, a paint or a part of an image is set or drawn with a reference that does
    not suit. -/
def isIdle : Op (Native P) → Bool
  | .setFont font => !suits .font font
  | .setPaint paint => !suits .paint paint
  | .drawImageRect image _ _ => !suits .image image
  | _ => false

/-! ## Parts of a recorder -/

/-- A recorder with a part of it cleared, the current state not. Clearing it before a call
    makes no difference if it is cleared behind the call as well. -/
structure Reduces (part : Recorder P → Recorder P) : Prop where
  state : ∀ r, (part r).state = r.state
  perform : ∀ r call, part ((part r).perform call) = part (r.perform call)

/-- Recorders that are the same in part stay so, whatever they are told. -/
theorem Reduces.relates {part : Recorder P → Recorder P} (h : Reduces part) :
    Relates (fun _ => True) fun r r' => part r' = part r where
  perform := by
    intro r r' call _ hpart
    calc part (r'.perform call)
      _ = part ((part r').perform call) := (h.perform r' call).symm
      _ = part ((part r).perform call) := by rw [hpart]
      _ = part (r.perform call) := h.perform r call
  measure := by
    intro r r' text hpart
    have hstate : r'.state = r.state := by rw [← h.state r', hpart, h.state r]
    have hadvance : r'.advance text = r.advance text := by rw [advance, advance, hstate]
    exact ⟨hadvance, hpart⟩

/-- Operations that leave a part as it is can be left out of a pass, wherever they stand. -/
theorem Reduces.replay_filter {part : Recorder P → Recorder P} (h : Reduces part) (scale : Float)
    {keep : Op (Native P) → Bool}
    (hdrop : ∀ (r : Recorder P) (op : Op (Native P)), keep op = false →
      part (op.apply scale r) = part r)
    (r : Recorder P) (ops : List (Op (Native P))) :
    part (replay scale r (ops.filter keep)) = part (replay scale r ops) := by
  refine h.relates.foldl_filter scale ?_ rfl ops
  intro s t op hkeep hpart
  exact hpart.trans (hdrop s op hkeep).symm

/-- All of a recorder but the mismatches. -/
def unwarned (r : Recorder P) : Recorder P := { r with mismatches := [] }

/-- The state and the states put aside. -/
def states (r : Recorder P) : Recorder P := { state := r.state, saved := r.saved }

theorem unwarned_perform (r : Recorder P) (call : Call (Native P)) :
    (r.unwarned.perform call).unwarned = (r.perform call).unwarned := by
  cases call with
  | setFont thing | setPaint thing | drawImage thing _ | drawImageRect thing _ _ =>
    cases thing <;> rfl
  | restore =>
    show r.unwarned.restore.unwarned = r.restore.unwarned
    have hsaved : r.unwarned.saved = r.saved := rfl
    unfold restore
    rw [hsaved]
    split <;> rfl
  | _ => rfl

theorem states_perform (r : Recorder P) (call : Call (Native P)) :
    (r.states.perform call).states = (r.perform call).states := by
  cases call with
  | setFont thing | setPaint thing | drawImage thing _ | drawImageRect thing _ _ =>
    cases thing <;> rfl
  | restore =>
    show r.states.restore.states = r.restore.states
    have hsaved : r.states.saved = r.saved := rfl
    unfold restore
    rw [hsaved]
    split <;> rfl
  | _ => rfl

theorem reduces_unwarned : Reduces (unwarned (P := P)) := ⟨fun _ => rfl, unwarned_perform⟩

theorem reduces_states : Reduces (states (P := P)) := ⟨fun _ => rfl, states_perform⟩

variable {r r' : Recorder P}

theorem states_eq (hstate : r'.state = r.state) (hsaved : r'.saved = r.saved) :
    r'.states = r.states := by
  unfold states
  rw [hstate, hsaved]

/-- The states are a part of the other part. -/
theorem states_of_unwarned (h : r'.unwarned = r.unwarned) : r'.states = r.states := by
  show r'.unwarned.states = r.unwarned.states
  rw [h]

/-! ## Operations -/

/-- A reference that does not suit is passed over, with a mismatch at most. -/
theorem unwarned_apply_of_isIdle (scale : Float) (r : Recorder P) {op : Op (Native P)}
    (h : isIdle op = true) : (op.apply scale r).unwarned = r.unwarned := by
  cases op with
  | setFont thing =>
    rcases thing with _ | ⟨_ | _ | _⟩
    case some.font => cases h
    all_goals rfl
  | setPaint thing =>
    rcases thing with _ | ⟨_ | _ | _⟩
    case some.paint => cases h
    all_goals rfl
  | drawImageRect thing source target =>
    rcases thing with _ | ⟨_ | _ | _⟩
    case some.image => cases h
    all_goals rfl
  | _ => cases h

/-- Calls that leave marks leave the states as they are. -/
theorem keeps_states (r : Recorder P) :
    Keeps (fun call : Call (Native P) => call.marks = true)
      fun r' : Recorder P => r'.states = r.states where
  perform := by
    intro r' call hmarks h
    cases call with
    | drawImage thing _ | drawImageRect thing _ _ => cases thing <;> exact h
    | stroke | fill | clearRect _ | fillText _ _ | strokeText _ _ => exact h
    | _ => cases hmarks
  measure _ h := h

/-- Drawing leaves the states as they are. -/
theorem states_apply_of_draws (scale : Float) (r : Recorder P) {op : Op (Native P)}
    (h : op.draws = true) : (op.apply scale r).states = r.states := by
  have hkeeps := keeps_states r
  cases op with
  | strokeShape shape =>
    obtain ⟨-, -, hstate, hsaved⟩ := draws_apply scale r .stroke shape
    exact states_eq hstate hsaved
  | fillShape shape =>
    obtain ⟨-, -, hstate, hsaved⟩ := draws_apply scale r .fill shape
    exact states_eq hstate hsaved
  | clearRect rect => exact hkeeps.perform rfl rfl
  | drawImageRect thing source target =>
    cases thing with
    | none => rfl
    | some thing => exact hkeeps.perform rfl rfl
  | drawImage image m =>
    -- Its bracket undoes the transform.
    have hbracket := bracketed_drawImage scale r image m
    exact states_eq hbracket.state hbracket.saved
  | fillText run | strokeText run => exact hkeeps.drawText run (fun _ _ => rfl) rfl
  | _ => cases h

/-! ## Events without marks -/

/-- What was recorded from one recorder to the other leaves no marks. -/
def Unmarked (r r' : Recorder P) : Prop :=
  ∃ recorded, r'.events = r.events ++ recorded ∧ ∀ event ∈ recorded, event.action.marks = false

theorem Unmarked.refl (r : Recorder P) : Unmarked r r :=
  ⟨[], (List.append_nil _).symm, fun _ h => nomatch h⟩

/-- One event more, and it leaves no marks. -/
theorem Unmarked.add {r'' : Recorder P} (h : Unmarked r r') {event : Event P}
    (hevents : r''.events = r'.events ++ [event]) (hevent : event.action.marks = false) :
    Unmarked r r'' := by
  obtain ⟨recorded, hrecorded, hmarks⟩ := h
  refine ⟨recorded ++ [event], ?_, ?_⟩
  · rw [hevents, hrecorded, List.append_assoc]
  · intro other hother
    rcases List.mem_append.mp hother with hmem | hmem
    · exact hmarks other hmem
    · rw [List.mem_singleton.mp hmem]
      exact hevent

theorem keeps_unmarked (r : Recorder P) :
    Keeps (fun call : Call (Native P) => call.marks = false) (Unmarked r) where
  perform := by
    intro r' call hmarks h
    cases call with
    | setFont thing | setPaint thing =>
      -- A thing of the wrong kind leaves no event.
      cases thing <;> first | exact h | exact h.add rfl rfl
    | beginPath | addSegment _ | addRect _ => exact h
    | restore =>
      show Unmarked r r'.restore
      unfold restore
      split <;> exact h.add rfl rfl
    | setStroke _ | setOpacity _ | setSmoothing _ | setTransform _ | transform _ | save
    | clip => exact h.add rfl rfl
    | _ => cases hmarks
  measure _ h := h

/-- All that an operation refers to is absent, and it has no shape, no text and no rectangle
    to clear. -/
structure Bare (op : Op (Native P)) : Prop where
  natives : ∀ thing ∈ op.natives, thing = none
  shape : op.shape? = none
  texts : op.texts = []
  kind : op.kind ≠ .clearRect

theorem Unmarked.apply (h : Unmarked r r') (scale : Float) {op : Op (Native P)} (hbare : Bare op) :
    Unmarked r (op.apply scale r') := by
  have hkeeps := keeps_unmarked r
  obtain ⟨hnatives, hshape, htexts, hkind⟩ := hbare
  cases op with
  | setFont thing | setPaint thing | drawImageRect thing _ _ =>
    obtain rfl : thing = none := hnatives thing List.mem_cons_self
    exact h
  | drawImage thing m =>
    obtain rfl : thing = none := hnatives thing List.mem_cons_self
    -- What is left of it is its bracket and the transform inside.
    have hcalls : ∀ call ∈ [Call.save, .setTransform (m.scaleDiagonal scale), .restore],
        (call : Call (Native P)).marks = false := by
      simp [Call.marks]
    exact hkeeps.performAll hcalls h
  | strokeShape _ | fillShape _ | clipShape _ => cases hshape
  | fillText _ | strokeText _ => cases htexts
  | clearRect _ => exact absurd rfl hkind
  | setStroke _ | setOpacity _ | transform _ | setTransform _ | save | restore
  | setImageQuality _ => exact hkeeps.perform rfl h

theorem Unmarked.foldl_apply (h : Unmarked r r') (scale : Float) {ops : List (Op (Native P))}
    (hbare : ∀ op ∈ ops, Bare op) : Unmarked r (ops.foldl (Op.apply scale) r') := by
  induction ops generalizing r' with
  | nil => exact h
  | cons op ops ih =>
    have happly := h.apply scale (hbare op List.mem_cons_self)
    exact ih happly fun other hother => hbare other (List.mem_cons_of_mem op hother)

/-! ## Erasing -/

/-- Operations whose reference is absent or of the wrong kind can be left out of a pass,
    wherever they stand: what is recorded, the state, the states put aside and the path in
    progress are the same. When all that draws is left out too, the state and the states
    put aside are still the same. And operations that have neither a reference nor a shape,
    a text or a rectangle to clear leave no marks. -/
theorem replay_erased (scale : Float) (r : Recorder P) (ops : List (Op (Native P))) :
    ((replay scale r (ops.filter fun op => !isIdle op)).events = (replay scale r ops).events ∧
      (replay scale r (ops.filter fun op => !isIdle op)).state = (replay scale r ops).state ∧
      (replay scale r (ops.filter fun op => !isIdle op)).saved = (replay scale r ops).saved ∧
      (replay scale r (ops.filter fun op => !isIdle op)).path = (replay scale r ops).path) ∧
    ((replay scale r (ops.filter fun op => !isIdle op && !op.draws)).state =
        (replay scale r ops).state ∧
      (replay scale r (ops.filter fun op => !isIdle op && !op.draws)).saved =
        (replay scale r ops).saved) ∧
    ((∀ op ∈ ops, Bare op) →
      ∃ recorded, (replay scale r ops).events = r.events ++ recorded ∧
        ∀ event ∈ recorded, event.action.marks = false) := by
  refine ⟨?_, ?_, ?_⟩
  · have hsame : (replay scale r (ops.filter fun op => !isIdle op)).unwarned =
        (replay scale r ops).unwarned := by
      refine reduces_unwarned.replay_filter scale ?_ r ops
      intro r' op hkeep
      have hidle : isIdle op = true := by simpa using hkeep
      exact unwarned_apply_of_isIdle scale r' hidle
    have hevents := congrArg events hsame
    have hstate := congrArg state hsame
    have hsaved := congrArg saved hsame
    have hpath := congrArg path hsame
    exact ⟨hevents, hstate, hsaved, hpath⟩
  · have hsame : (replay scale r (ops.filter fun op => !isIdle op && !op.draws)).states =
        (replay scale r ops).states := by
      refine reduces_states.replay_filter scale ?_ r ops
      intro r' op hkeep
      have hdrop : isIdle op = true ∨ op.draws = true := by
        simpa [Decidable.or_iff_not_imp_left] using hkeep
      rcases hdrop with hidle | hdraws
      · exact states_of_unwarned (unwarned_apply_of_isIdle scale r' hidle)
      · exact states_apply_of_draws scale r' hdraws
    have hstate := congrArg state hsame
    have hsaved := congrArg saved hsame
    exact ⟨hstate, hsaved⟩
  · intro hbare
    have hstart : Unmarked r (r.perform (.setTransform (.scale scale))) :=
      (keeps_unmarked r).perform rfl (Unmarked.refl r)
    exact hstart.foldl_apply scale hbare

/-- An image in place of a font, a font in place of a paint and of an image, all in brackets
    and between other operations. -/
def misfits : List (Op Native) :=
  [.save, .setFont (some (.image ⟨8, 6⟩)), .setOpacity 0.5, .save,
    .setPaint (some (.font ⟨"serif", 14.0⟩)), .fillShape (.rect ⟨0.0, 0.0, 8.0, 6.0⟩),
    .drawImageRect (some (.font ⟨"serif", 14.0⟩)) ⟨0.0, 0.0, 1.0, 1.0⟩ ⟨0.0, 0.0, 2.0, 2.0⟩,
    .restore, .setPaint none, .drawImage (some (.image ⟨8, 6⟩)) .identity]

/-- References to nothing, in a bracket. -/
def unreferring : List (Op Native) :=
  [.save, .setFont none, .setOpacity 0.5, .drawImage none .identity,
    .drawImageRect none ⟨0.0, 0.0, 1.0, 1.0⟩ ⟨0.0, 0.0, 2.0, 2.0⟩, .restore]

/-- Four operations can be left out, and two more for the states alone; and the operations
    that refer to nothing record no marks. -/
theorem replay_erased_misfits :
    (replay 2.0 halfBuilt [.save, .setOpacity 0.5, .save,
        .fillShape (.rect ⟨0.0, 0.0, 8.0, 6.0⟩), .restore,
        .drawImage (some (.image ⟨8, 6⟩)) .identity]).events =
      (replay 2.0 halfBuilt misfits).events ∧
    (replay 2.0 halfBuilt [.save, .setOpacity 0.5, .save, .restore]).state =
      (replay 2.0 halfBuilt misfits).state ∧
    (∀ op ∈ unreferring, Bare op) ∧
    ∃ recorded, (replay 2.0 halfBuilt unreferring).events = halfBuilt.events ++ recorded ∧
      ∀ event ∈ recorded, event.action.marks = false := by
  obtain ⟨⟨hevents, -⟩, ⟨hstate, -⟩, -⟩ := replay_erased 2.0 halfBuilt misfits
  obtain ⟨-, -, hunmarked⟩ := replay_erased 2.0 halfBuilt unreferring
  have hbare : ∀ op ∈ unreferring, Bare op := by
    simp only [unreferring, List.forall_mem_cons]
    refine ⟨⟨?_, rfl, rfl, ?_⟩, ⟨?_, rfl, rfl, ?_⟩, ⟨?_, rfl, rfl, ?_⟩, ⟨?_, rfl, rfl, ?_⟩,
      ⟨?_, rfl, rfl, ?_⟩, ⟨?_, rfl, rfl, ?_⟩, fun _ h => nomatch h⟩
    all_goals simp [Op.natives, Op.kind]
  exact ⟨hevents, hstate, hbare, hunmarked hbare⟩

end Recorder

end BatchDraw
