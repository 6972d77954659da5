/-
  BatchDraw.Proofs.Wire.RoundTrip

  Writing a batch and reading it back.

  A history may add operations and bare tags and may discard everything. What is
  left of it are the steps since the last `clear`, and the batch is their layout
  (`Batch.ofSteps_eq_layout`). The tolerant reader goes through a layout step by
  step, in front of any operands (`Read.run_layout`): an operation comes back as
  the wire carries it, a tag without a meaning leaves a notice. The strict reader
  does the same until the first such tag.
-/
import BatchDraw.Proofs.Wire.Acceptance
import BatchDraw.Proofs.Wire.Carried
import BatchDraw.Proofs.Wire.Lockstep
import BatchDraw.Proofs.Wire.Streaming
import Mathlib.Data.List.DropRight
import Mathlib.Data.List.Induction

namespace BatchDraw

variable {N : Type}

/-! ## Steps -/

namespace BatchStep

/-- Whether a step can be told from what is read later: its lists can be counted,
    and a bare tag does not announce operands that never come. -/
def Fits : BatchStep N → Prop
  | push op => op.Fits
  | pushTag tag => OpKind.ofTag? tag = none
  | clear => True

/-- Whether a step discards everything. -/
def isClear : BatchStep N → Bool
  | clear => true
  | push _ | pushTag _ => false

/-- The operation that a step adds. -/
def op? : BatchStep N → Option (Op N)
  | push op => some op
  | pushTag _ | clear => none

/-- The bare tag that a step adds. -/
def tag? : BatchStep N → Option Int32
  | pushTag tag => some tag
  | push _ | clear => none

/-- What a step adds to a batch. -/
def wire : BatchStep N → Batch N
  | push op => op.wire
  | pushTag tag => { tags := [tag] }
  | clear => .empty

theorem apply_eq_append {step : BatchStep N} (h : step.isClear = false) (b : Batch N) :
    step.apply b = b ++ step.wire := by
  cases step with
  | push op => rfl
  | pushTag tag => ext1 <;> simp [BatchStep.apply, Batch.pushTag, wire]
  | clear => cases h

end BatchStep

/-! ## Histories -/

/-- The steps since everything was last discarded. -/
def sinceClear (steps : List (BatchStep N)) : List (BatchStep N) :=
  steps.rtakeWhile (fun step => !step.isClear)

theorem isClear_of_mem_sinceClear {steps : List (BatchStep N)} {step : BatchStep N}
    (h : step ∈ sinceClear steps) : step.isClear = false := by
  simpa using List.mem_rtakeWhile_imp h

/-- What steps add to a batch, one behind the other. -/
def layout (steps : List (BatchStep N)) : Batch N :=
  steps.foldr (fun step rest => step.wire ++ rest) .empty

@[simp] theorem layout_nil : layout ([] : List (BatchStep N)) = .empty := rfl

@[simp] theorem layout_cons (step : BatchStep N) (steps : List (BatchStep N)) :
    layout (step :: steps) = step.wire ++ layout steps := rfl

theorem layout_append (steps others : List (BatchStep N)) :
    layout (steps ++ others) = layout steps ++ layout others := by
  induction steps with
  | nil => rfl
  | cons step steps ih => rw [List.cons_append, layout_cons, ih, layout_cons, Batch.append_assoc]

/-- Without a `clear` there is one instruction for each step. -/
theorem length_tags_layout {steps : List (BatchStep N)}
    (h : ∀ step ∈ steps, step.isClear = false) :
    (layout steps).tags.length = steps.length := by
  induction steps with
  | nil => rfl
  | cons step steps ih =>
    have hrest : (layout steps).tags.length = steps.length :=
      ih fun other hother => h other (List.mem_cons_of_mem _ hother)
    have hstep : step.wire.tags.length = 1 := by
      cases step with
      | push op => rfl
      | pushTag tag => rfl
      | clear => cases h .clear List.mem_cons_self
    rw [layout_cons, Batch.tags_append, List.length_append, hstep, hrest, List.length_cons]
    omega

theorem Batch.ofSteps_concat (steps : List (BatchStep N)) (step : BatchStep N) :
    ofSteps (steps ++ [step]) = step.apply (ofSteps steps) := by
  rw [ofSteps, List.foldl_append]
  rfl

/-- A batch holds what was added since it was last discarded. -/
theorem Batch.ofSteps_eq_layout (steps : List (BatchStep N)) :
    ofSteps steps = layout (sinceClear steps) := by
  -- A history grows at its end, and its last step decides what is kept.
  induction steps using List.reverseRecOn with
  | nil => rfl
  | append_singleton steps step ih =>
    rw [ofSteps_concat, ih, sinceClear, sinceClear]
    by_cases hclear : step.isClear = true
    · rw [List.rtakeWhile_concat_neg _ _ _ (by simp [hclear])]
      cases step with
      | clear => rfl
      | push op => cases hclear
      | pushTag tag => cases hclear
    · rw [Bool.not_eq_true] at hclear
      rw [List.rtakeWhile_concat_pos _ _ _ (by simp [hclear]), layout_append,
        BatchStep.apply_eq_append hclear]
      simp

/-! ## Tags without a meaning -/

/-- The notices that the bare tags of a layout leave, the first instruction being
    at `position`. -/
def tagNotices : Nat → List (BatchStep N) → List Notice
  | _, [] => []
  | position, .push _ :: steps => tagNotices (position + 1) steps
  | position, .pushTag tag :: steps => .unknownOp tag position :: tagNotices (position + 1) steps
  | position, .clear :: steps => tagNotices position steps

/-- Every bare tag is counted as a skipped instruction. -/
theorem countP_isUnknownOp_tagNotices (position : Nat) (steps : List (BatchStep N)) :
    (tagNotices position steps).countP Notice.isUnknownOp =
      (steps.filterMap BatchStep.tag?).length := by
  induction steps generalizing position with
  | nil => rfl
  | cons step steps ih =>
    cases step with
    | push op => exact ih (position + 1)
    | pushTag tag =>
      show (Notice.unknownOp tag position :: tagNotices (position + 1) steps).countP _ = _
      rw [List.countP_cons_of_pos rfl, ih]
      rfl
    | clear => exact ih position

/-- No segment is skipped for a bare tag. -/
theorem countP_isUnknownSegment_tagNotices (position : Nat) (steps : List (BatchStep N)) :
    (tagNotices position steps).countP Notice.isUnknownSegment = 0 := by
  induction steps generalizing position with
  | nil => rfl
  | cons step steps ih =>
    cases step with
    | push op => exact ih (position + 1)
    | pushTag tag => exact ih (position + 1)
    | clear => exact ih position

theorem tagNotices_eq_nil {position : Nat} {steps : List (BatchStep N)}
    (h : steps.filterMap BatchStep.tag? = []) : tagNotices position steps = [] := by
  induction steps generalizing position with
  | nil => rfl
  | cons step steps ih =>
    cases step with
    | push op => exact ih h
    | pushTag tag => cases h
    | clear => exact ih h

/-- Where there is a bare tag there is a first one. -/
theorem exists_first_tag {steps : List (BatchStep N)}
    (h : steps.filterMap BatchStep.tag? ≠ []) :
    ∃ before tag after, steps = before ++ .pushTag tag :: after ∧
      before.filterMap BatchStep.tag? = [] := by
  induction steps with
  | nil => exact absurd rfl h
  | cons step steps ih =>
    cases step with
    | push op =>
      obtain ⟨before, tag, after, rfl, hbefore⟩ := ih h
      exact ⟨.push op :: before, tag, after, rfl, hbefore⟩
    | pushTag tag => exact ⟨[], tag, steps, rfl, rfl⟩
    | clear =>
      obtain ⟨before, tag, after, rfl, hbefore⟩ := ih h
      exact ⟨.clear :: before, tag, after, rfl, hbefore⟩

/-! ## Reading a layout -/

namespace Read

variable {feed feed' : Feed N}

/-- What is written for an operation is read as what the wire carries of it, under
    both policies. -/
theorem run_instruction?_wire (position : Nat) {op : Op N} (hfits : op.Fits)
    (h : feed.Takes op.wire feed') :
    (instruction? .skip position op.kind.tag).run feed = .ok (some op.carried) feed' := by
  obtain ⟨w, hwire, hcarried⟩ := hfits.exists_wireOp
  have htag : w.kind.tag = op.kind.tag := by
    have htags : w.wire.tags = op.wire.tags := congrArg Batch.tags hwire
    exact (List.cons.inj htags).1
  have hoperands : feed.Takes w.operands feed' := by
    rw [← hwire, ← Batch.append_empty w.wire, Feed.takes_wire_append_iff] at h
    obtain ⟨middle, htakes, hrest⟩ := h
    rwa [Feed.takes_empty_iff.mp hrest] at htakes
  -- The strict reader accepts the wire operation, and the tolerant one reads it alike.
  have hreject : (instruction? .reject position op.kind.tag).run feed =
      .ok (some op.carried) feed' :=
    run_instruction?_reject_eq_ok_iff.mpr ⟨w, htag, by rw [hcarried], hoperands⟩
  have hagree := lockstep_instruction? position op.kind.tag feed
  rw [hreject] at hagree
  exact hagree.of_ok.1

/-- A bare tag without a meaning is passed over, and moves no cursor. -/
theorem run_instruction?_unknown {position : Nat} {tag : Int32}
    (htag : OpKind.ofTag? tag = none)
    (h : feed.Passes { tags := [tag] } [.unknownOp tag position] feed') :
    (instruction? .skip position tag : Read N (Option (Op N))).run feed = .ok none feed' := by
  -- The passage moves no cursor, so all that it tells is the notice and its counter.
  have hback : feed' =
      { feed.note (.unknownOp tag position) with skippedOps := feed.skippedOps + 1 } := by
    obtain ⟨hints, hreals, htexts, hnatives, hops, hsegments, hnotices⟩ := h
    rw [Cursor.passes_nil_iff] at hints hreals htexts hnatives
    cases feed'
    simp_all [Feed.note, Notice.isUnknownOp, Notice.isUnknownSegment]
  rw [instruction?, htag, hback]
  rfl

/-- A layout is read step by step, whatever operands stand behind it. -/
theorem run_layout {position : Nat} {steps : List (BatchStep N)}
    (hfits : ∀ step ∈ steps, step.Fits)
    (h : feed.Passes (layout steps) (tagNotices position steps) feed') :
    (instructions .skip position (layout steps).tags).run feed =
      .ok ((steps.filterMap BatchStep.op?).map Op.carried) feed' := by
  -- On the steps; the passage of the whole is cut behind the first of them.
  induction steps generalizing position feed with
  | nil =>
    have hfeed : feed = feed' := Feed.takes_empty_iff.mp h
    exact run_pure_eq_ok_iff.mpr ⟨rfl, hfeed⟩
  | cons step steps ih =>
    have hrest : ∀ other ∈ steps, other.Fits :=
      fun other hother => hfits other (List.mem_cons_of_mem _ hother)
    have hstep : step.Fits := hfits step List.mem_cons_self
    cases step with
    | push op =>
      obtain ⟨middle, hop, hsteps⟩ := Feed.passes_append_iff (m := []).mp h
      have hfirst := run_instruction?_wire position hstep hop
      show (instructions .skip position (op.kind.tag :: (layout steps).tags)).run feed = _
      simp only [instructions, run_bind_eq_ok_iff, run_pure_eq_ok_iff]
      exact ⟨_, middle, hfirst, _, feed', ih hrest hsteps, rfl, rfl⟩
    | pushTag tag =>
      obtain ⟨middle, htag, hsteps⟩ :=
        Feed.passes_append_iff (m := [.unknownOp tag position]).mp h
      have hfirst := run_instruction?_unknown hstep htag
      show (instructions .skip position (tag :: (layout steps).tags)).run feed = _
      simp only [instructions, run_bind_eq_ok_iff, run_pure_eq_ok_iff]
      exact ⟨_, middle, hfirst, _, feed', ih hrest hsteps, rfl, rfl⟩
    | clear => exact ih hrest h

/-- Without a bare tag the strict reader reads a layout as well. -/
theorem run_layout_reject (position : Nat) {steps : List (BatchStep N)}
    (hfits : ∀ step ∈ steps, step.Fits) (htags : steps.filterMap BatchStep.tag? = [])
    (h : feed.Takes (layout steps) feed') :
    (instructions .reject position (layout steps).tags).run feed =
      .ok ((steps.filterMap BatchStep.op?).map Op.carried) feed' := by
  have hpasses : feed.Passes (layout steps) (tagNotices position steps) feed' := by
    rw [tagNotices_eq_nil htags]
    exact h
  have hskip := run_layout hfits hpasses
  have hagree := lockstep_instructions position (layout steps).tags feed
  rw [hskip] at hagree
  rcases hagree.of_tolerant_ok with hreject | ⟨b, notices, hne, hleft⟩
  · exact hreject
  · -- A notice was left, but taking a layout leaves none.
    have hnotices : feed.notices ++ [] = feed.notices ++ notices :=
      h.notices.symm.trans hleft.notices
    exact absurd (List.append_cancel_left hnotices).symm hne

end Read

/-! ## Reading a batch that was written -/

/-- Behind the last operand of a batch, with `notices` left on the way. -/
def Feed.atEnd (b : Batch N) (notices : List Notice) : Feed N where
  ints := ⟨b.ints.length, []⟩
  reals := ⟨b.reals.length, []⟩
  texts := ⟨b.texts.length, []⟩
  natives := ⟨b.natives.length, []⟩
  skippedOps := notices.countP Notice.isUnknownOp
  skippedSegments := notices.countP Notice.isUnknownSegment
  notices := notices

theorem Feed.passes_atEnd (b : Batch N) (notices : List Notice) :
    (Feed.ofBatch b).Passes b notices (.atEnd b notices) := by
  have hcursor : ∀ {α : Type} (entries : List α),
      (Cursor.ofList entries).Passes entries ⟨entries.length, []⟩ :=
    fun entries => ⟨(List.append_nil entries).symm, (Nat.zero_add _).symm⟩
  exact ⟨hcursor _, hcursor _, hcursor _, hcursor _, (Nat.zero_add _).symm,
    (Nat.zero_add _).symm, rfl⟩

namespace Batch

variable {steps : List (BatchStep N)}

/-- A layout is read to its end, and nothing of it is left. -/
theorem decode_skip_layout (hfits : ∀ step ∈ steps, step.Fits) :
    (layout steps).decode .skip = .ok
      { ops := (steps.filterMap BatchStep.op?).map Op.carried
        stats :=
          { skippedOps := (steps.filterMap BatchStep.tag?).length
            skippedSegments := 0
            consumed := (layout steps).sizes
            remaining := .zero } } := by
  refine decode_eq_ok_iff.mpr ⟨.atEnd (layout steps) (tagNotices 0 steps), ?_, ?_⟩
  · exact Read.run_layout hfits (Feed.passes_atEnd _ _)
  · rw [Feed.stats, Feed.atEnd, countP_isUnknownOp_tagNotices,
      countP_isUnknownSegment_tagNotices]
    rfl

/-- Without a bare tag the policies agree on a layout. -/
theorem decode_reject_layout (hfits : ∀ step ∈ steps, step.Fits)
    (htags : steps.filterMap BatchStep.tag? = []) :
    (layout steps).decode .reject = (layout steps).decode .skip := by
  rw [decode_skip_layout hfits]
  refine decode_eq_ok_iff.mpr ⟨.atEnd (layout steps) [], ?_, ?_⟩
  · exact Read.run_layout_reject 0 hfits htags (Feed.passes_atEnd _ _)
  · rw [htags]
    rfl

/-- The first bare tag is what the strict reader refuses. -/
theorem decode_reject_layout_tag {before after : List (BatchStep N)} {tag : Int32}
    (hfits : ∀ step ∈ before ++ .pushTag tag :: after, step.Fits)
    (hclear : ∀ step ∈ before, step.isClear = false)
    (htags : before.filterMap BatchStep.tag? = []) :
    (layout (before ++ .pushTag tag :: after)).decode .reject =
      .error (.unknownOp tag before.length) := by
  have htag : OpKind.ofTag? tag = none := hfits (.pushTag tag) (by simp)
  rw [layout_append, layout_cons]
  -- The strict reader stops between the operands of `before` and those of `after`.
  obtain ⟨middle, hbefore, -⟩ := Feed.takes_append_iff.mp
    (Feed.passes_atEnd (layout before ++ (BatchStep.wire (.pushTag tag) ++ layout after)) [])
  have hread := Read.run_layout_reject 0
    (fun step hstep => hfits step (List.mem_append_left _ hstep)) htags hbefore
  refine decode_eq_error_iff.mpr ⟨middle, ?_⟩
  show (Read.instructions .reject 0 ((layout before).tags ++ tag :: (layout after).tags)).run _ = _
  rw [Read.instructions_append, EStateM.run_bind, hread, length_tags_layout hclear, Nat.zero_add]
  simp only [Read.instructions, Read.instruction?, htag]
  rfl

/-- Whatever was written is read back: under `Policy.skip` the operations since the
    last `clear`, as the wire carries them, and under `Policy.reject` the same up to
    the first bare tag. -/
theorem decode_ofSteps (steps : List (BatchStep N)) (hfits : ∀ step ∈ steps, step.Fits) :
    (ofSteps steps).decode .skip = .ok
      { ops := ((sinceClear steps).filterMap BatchStep.op?).map Op.carried
        stats :=
          { skippedOps := ((sinceClear steps).filterMap BatchStep.tag?).length
            skippedSegments := 0
            consumed := (ofSteps steps).sizes
            remaining := .zero } } ∧
    ((sinceClear steps).filterMap BatchStep.tag? = [] →
      (ofSteps steps).decode .reject = (ofSteps steps).decode .skip) ∧
    ((sinceClear steps).filterMap BatchStep.tag? ≠ [] →
      ∃ before tag after, sinceClear steps = before ++ .pushTag tag :: after ∧
        before.filterMap BatchStep.tag? = [] ∧
        (ofSteps steps).decode .reject = .error (.unknownOp tag before.length)) := by
  have hrecent : ∀ step ∈ sinceClear steps, step.Fits :=
    fun step hstep => hfits step ((List.rtakeWhile_suffix _ _).subset hstep)
  rw [ofSteps_eq_layout]
  refine ⟨decode_skip_layout hrecent, decode_reject_layout hrecent, ?_⟩
  intro htags
  obtain ⟨before, tag, after, hsplit, hbefore⟩ := exists_first_tag htags
  refine ⟨before, tag, after, hsplit, hbefore, ?_⟩
  have hclear : ∀ step ∈ before, step.isClear = false := by
    intro step hstep
    exact isClear_of_mem_sinceClear (hsplit ▸ List.mem_append_left _ hstep)
  rw [hsplit] at hrecent ⊢
  exact decode_reject_layout_tag hrecent hclear hbefore

/-- Two steps that are discarded, then a dashed miter stroke without a limit, a
    rectangle, a bare tag and one more operation. -/
def redrawn : List (BatchStep Nat) :=
  [.push .save, .pushTag 0, .clear,
    .push (.setStroke ⟨2.0, [4.0, 1.0], 0.5, .butt, .miter, none⟩),
    .push (.fillShape (.rect ⟨1.0, 2.0, 4.0, 6.0⟩)), .pushTag 99, .push .restore]

theorem decode_ofSteps_redrawn :
    (∀ step ∈ redrawn, step.Fits) ∧
    (ofSteps redrawn).decode .skip = .ok
      { ops :=
          [.setStroke ⟨2.0, [4.0, 1.0], 0.5, .butt, .miter, some 10.0⟩,
            .fillShape (.rect ⟨1.0, 2.0, 1.0 + (4.0 - 1.0), 2.0 + (6.0 - 2.0)⟩), .restore]
        stats :=
          { skippedOps := 1
            skippedSegments := 0
            consumed := { tags := 4, ints := 4, reals := 9, texts := 0, natives := 0 }
            remaining := .zero } } ∧
    ∃ before tag after, sinceClear redrawn = before ++ .pushTag tag :: after ∧
      before.filterMap BatchStep.tag? = [] ∧
      (ofSteps redrawn).decode .reject = .error (.unknownOp tag before.length) := by
  have hunknown : OpKind.ofTag? 0 = none ∧ OpKind.ofTag? 99 = none := by decide
  have hfits : ∀ step ∈ redrawn, step.Fits := by
    simp [redrawn, BatchStep.Fits, Op.Fits, Shape.Fits, maxCount, hunknown]
  have htags : (sinceClear redrawn).filterMap BatchStep.tag? ≠ [] := by
    show [(99 : Int32)] ≠ []
    decide
  obtain ⟨hskip, -, hreject⟩ := decode_ofSteps redrawn hfits
  exact ⟨hfits, hskip, hreject htags⟩

end Batch

end BatchDraw
