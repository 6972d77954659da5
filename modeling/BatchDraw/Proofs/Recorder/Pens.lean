/-
  BatchDraw.Proofs.Recorder.Pens

  The pens of a recorder.

  A recorder has one pen in use and one in each state that was put aside. What an operation
  makes of them depends on nothing but the pens (`pens_apply`): strokes change the pen in
  use, states are put aside and taken back with their pens, and all else leaves the pens as
  they are. So it does not matter for the pens what else of an operation comes back from the
  wire, and a program that is written and read again leaves the same pens, unless a stroke
  of it left its limit open.
-/
import BatchDraw.Proofs.Recorder.Erasing
import BatchDraw.Proofs.Wire.Strokes

namespace BatchDraw

open Surface

namespace Recorder

variable {P : Type}

/-! ## Pens -/

/-- The pen in use, and those that were put aside, the last one first. -/
structure Pens where
  current : Pen
  saved : List Pen

/-- The pens of a recorder. -/
def pens (r : Recorder P) : Pens := ⟨r.state.pen, r.saved.map (·.pen)⟩

namespace Pens

/-- What is left when the pen that was put aside last is taken back, if there is one. -/
def restore : Pens → Pens
  | ⟨pen, []⟩ => ⟨pen, []⟩
  | ⟨_, pen :: saved⟩ => ⟨pen, saved⟩

/-- What an operation makes of the pens. -/
def apply (pens : Pens) : Op (Native P) → Pens
  | .setStroke style => { pens with current := style.applyTo pens.current }
  | .save => { pens with saved := pens.current :: pens.saved }
  | .restore => pens.restore
  | _ => pens

/-- Besides strokes, nothing that the wire changes of an operation matters for the pens. -/
theorem apply_carried (pens : Pens) {op : Op (Native P)}
    (h : ∀ style, op = .setStroke style → style.carried = style) :
    pens.apply op.carried = pens.apply op := by
  cases op with
  | setStroke style =>
    show pens.apply (.setStroke style.carried) = _
    rw [h style rfl]
  | _ => rfl

theorem foldl_apply_carried (pens : Pens) {ops : List (Op (Native P))}
    (h : ∀ style, .setStroke style ∈ ops → style.carried = style) :
    (ops.map Op.carried).foldl apply pens = ops.foldl apply pens := by
  induction ops generalizing pens with
  | nil => rfl
  | cons op ops ih =>
    have hop : pens.apply op.carried = pens.apply op := by
      refine pens.apply_carried fun style hstyle => h style ?_
      rw [hstyle]
      exact List.mem_cons_self
    rw [List.map_cons, List.foldl_cons, List.foldl_cons, hop]
    exact ih (pens.apply op) fun style hstyle => h style (List.mem_cons_of_mem op hstyle)

end Pens

/-! ## Operations -/

theorem pens_of_states {r r' : Recorder P} (h : r'.states = r.states) : r'.pens = r.pens := by
  show r'.states.pens = r.states.pens
  rw [h]

theorem pens_restore (r : Recorder P) : r.restore.pens = r.pens.restore := by
  obtain ⟨state, saved, path, events, mismatches⟩ := r
  cases saved <;> rfl

/-- What an operation makes of the pens depends on the pens alone. -/
theorem pens_apply (scale : Float) (r : Recorder P) (op : Op (Native P)) :
    (op.apply scale r).pens = r.pens.apply op := by
  cases op with
  | setFont thing | setPaint thing =>
    rcases thing with _ | ⟨_ | _ | _⟩ <;> rfl
  | strokeShape _ | fillShape _ | clearRect _ | drawImageRect _ _ _ | drawImage _ _ | fillText _
  | strokeText _ => exact pens_of_states (states_apply_of_draws scale r rfl)
  | clipShape shape =>
    show (drawShape r shape .clip).pens = r.pens
    rw [drawShape_eq_perform]
    rfl
  | restore => exact pens_restore r
  | setStroke _ | setOpacity _ | transform _ | setTransform _ | save | setImageQuality _ => rfl

theorem pens_foldl_apply (scale : Float) (r : Recorder P) (ops : List (Op (Native P))) :
    (ops.foldl (Op.apply scale) r).pens = ops.foldl Pens.apply r.pens := by
  induction ops generalizing r with
  | nil => rfl
  | cons op ops ih => rw [List.foldl_cons, List.foldl_cons, ih, pens_apply]

theorem pens_replay (scale : Float) (r : Recorder P) (ops : List (Op (Native P))) :
    (replay scale r ops).pens = ops.foldl Pens.apply r.pens :=
  pens_foldl_apply scale (r.perform (.setTransform (.scale scale))) ops

end Recorder

/-! ## Writing what was read -/

open Recorder

variable {P : Type}

/-- The strokes that can be read, and what becomes of them when they are written. A stroke of
    a batch that can be read has no offset without dashes and no limit without a miter join,
    and with the strict reader a miter join has its limit. Pushed to an empty batch and read
    strictly it comes back as it was. The one exception is a miter join without a limit, which
    is what the tolerant reader makes of a code that stands for no join: it comes back with
    the limit ten, while by itself it leaves the limit of the pen as it is. So a program
    without that exception can be written and read, and leaves the same pens on every
    recorder. -/
theorem strokes_rewritten :
    (∀ {N : Type} {b : Batch N} {policy : Policy} {p : Program N}, b.decode policy = .ok p →
      ∀ front style back, p.ops = front ++ .setStroke style :: back →
        (style.dash = [] → style.dashOffset = 0.0) ∧
        (style.miterLimit ≠ none → style.join = .miter) ∧
        (policy = .reject → style.join = .miter → style.miterLimit ≠ none) ∧
        (∃ q, ((Batch.empty : Batch N).push (.setStroke style)).decode .reject = .ok q ∧
          q.ops = [.setStroke
            (if style.Unlimited then { style with miterLimit := some 10.0 } else style)]) ∧
        (∃ i q code, b.tags[i]? = some OpKind.setStroke.tag ∧ (b.cut i).decode policy = .ok q ∧
          q.ops = front ∧ b.ints[q.stats.consumed.ints + 2]? = some code ∧
          (style.Unlimited ↔ code < 0 ∨ 2 < code)) ∧
        (style.Unlimited → policy = .skip ∧ ∀ scale (r : Recorder P),
          ((Op.setStroke style).apply scale r).state.pen.miterLimit = r.state.pen.miterLimit ∧
          ((Op.setStroke { style with miterLimit := some 10.0 }).apply
            scale r).state.pen.miterLimit = 10.0)) ∧
    ∀ {b : Batch (Native P)} {policy : Policy} {p : Program (Native P)},
      b.decode policy = .ok p → (∀ style, .setStroke style ∈ p.ops → ¬ style.Unlimited) →
      ∀ policy', ∃ q, (Batch.ofOps p.ops).decode policy' = .ok q ∧
        ∀ scale (r : Recorder P), (replay scale r q.ops).pens = (replay scale r p.ops).pens := by
  refine ⟨?_, ?_⟩
  · intro N b policy p hdecode front style back hops
    obtain ⟨hreadable, i, q, code, htag, hcut, hfront, hcode, hreads⟩ :=
      Batch.reads_of_decode hdecode hops
    have hwritten : ∃ q, ((Batch.empty : Batch N).push (.setStroke style)).decode .reject =
        .ok q ∧ q.ops = [.setStroke style.rewritten] := by
      have hfits : ∀ op ∈ [(.setStroke style : Op N)], op.Fits := by
        intro op hop
        rw [List.mem_singleton.mp hop]
        exact hreadable.fits
      obtain ⟨q, hq, hops⟩ := Batch.exists_decode_ofOps .reject hfits
      rw [List.map_singleton, Op.carried, hreadable.carried_eq] at hops
      exact ⟨q, hq, hops⟩
    refine ⟨hreadable.offset, hreadable.limit, hreads.strict, hwritten,
      ⟨i, q, code, htag, hcut, hfront, hcode, hreads.unlimited⟩, ?_⟩
    intro hunlimited
    refine ⟨?_, fun scale r => ⟨hunlimited.applyTo r.state.pen, rfl⟩⟩
    cases policy with
    | skip => rfl
    | reject => exact absurd hunlimited.2 (hreads.strict rfl hunlimited.1)
  · intro b policy p hdecode hlimits policy'
    have hsame : ∀ style, .setStroke style ∈ p.ops → style.carried = style := by
      intro style hstyle
      obtain ⟨front, back, hops⟩ := List.append_of_mem hstyle
      obtain ⟨hreadable, -⟩ := Batch.reads_of_decode hdecode hops
      rw [hreadable.carried_eq]
      exact StrokeStyle.rewritten_of_not_unlimited (hlimits style hstyle)
    -- The pens see no difference between the operations and what the wire carries of them.
    obtain ⟨q, hq, hops⟩ :=
      Batch.exists_decode_ofOps policy' (Batch.fits_of_decode hdecode hlimits)
    refine ⟨q, hq, fun scale r => ?_⟩
    rw [pens_replay, pens_replay, hops]
    exact Pens.foldl_apply_carried r.pens hsame

/-- The style of a miter join without a limit. -/
def openStyle : StrokeStyle := ⟨2.0, [], 0.0, .butt, .miter, none⟩

/-- A saved state, and a stroke with a join that does not exist. -/
def unjoined : Batch Native where
  tags := [14, 3]
  ints := [0, 1, 7]
  reals := [2.0]

/-- The same with a miter join and its limit. -/
def joined : Batch Native where
  tags := [14, 3]
  ints := [0, 1, 2]
  reals := [2.0, 4.0]

/-- The code 7 is the third integer, and what comes of it is written with the limit ten; the
    program of the other batch can be written and read under both policies. -/
theorem strokes_rewritten_unjoined :
    unjoined.decode .skip =
      .ok ⟨[.save, .setStroke openStyle], 0, 0, { tags := 2, ints := 3, reals := 1 }, .zero⟩ ∧
    openStyle.Unlimited ∧
    (∃ q, ((Batch.empty : Batch Native).push (.setStroke openStyle)).decode .reject = .ok q ∧
      q.ops = [.setStroke { openStyle with miterLimit := some 10.0 }]) ∧
    (∀ scale (r : Recorder), ((Op.setStroke openStyle).apply scale r).state.pen.miterLimit =
      r.state.pen.miterLimit) ∧
    ∀ policy, ∃ q, (Batch.ofOps [.save, .setStroke { openStyle with miterLimit := some 4.0 }] :
        Batch Native).decode policy = .ok q ∧ ∀ scale (r : Recorder), (replay scale r q.ops).pens =
      (replay scale r [.save, .setStroke { openStyle with miterLimit := some 4.0 }]).pens := by
  have hunjoined : unjoined.decode .skip =
      .ok ⟨[.save, .setStroke openStyle], 0, 0, { tags := 2, ints := 3, reals := 1 }, .zero⟩ := rfl
  have hjoined : joined.decode .reject =
      .ok ⟨[.save, .setStroke { openStyle with miterLimit := some 4.0 }], 0, 0,
        { tags := 2, ints := 3, reals := 2 }, .zero⟩ := rfl
  have hopen : openStyle.Unlimited := ⟨rfl, rfl⟩
  obtain ⟨hstrokes, hprograms⟩ := strokes_rewritten (P := Colour)
  obtain ⟨-, -, -, hwritten, -, heffect⟩ := hstrokes hunjoined [.save] openStyle [] rfl
  rw [if_pos hopen] at hwritten
  refine ⟨hunjoined, hopen, hwritten, fun scale r => ((heffect hopen).2 scale r).1, ?_⟩
  refine hprograms hjoined ?_
  intro style hstyle hunlimited
  obtain rfl : style = { openStyle with miterLimit := some 4.0 } := by simpa using hstyle
  cases hunlimited.2

end BatchDraw
