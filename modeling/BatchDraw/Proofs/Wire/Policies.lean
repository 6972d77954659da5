/-
  BatchDraw.Proofs.Wire.Policies

  How the two policies compare on a whole batch.

  They agree on everything in front of the first number without a meaning, and
  on the batch if there is none. Behind that number the strict reader has
  stopped; the tolerant one goes on and can only run out of operands. The
  statement (`Batch.decode_policies_agree`) is the lockstep of the readers, cut
  at the instruction that the strict one refuses.
-/
import BatchDraw.Proofs.Wire.Acceptance
import BatchDraw.Proofs.Wire.Lockstep
import BatchDraw.Proofs.Wire.Streaming

namespace BatchDraw

variable {N : Type} {b : Batch N} {p : Program N} {e : WireError} {i : Nat}

/-! ## Notices -/

/-- A notice of none of the three sorts does not exist. -/
theorem Notice.eq_nil_of_countP {notices : List Notice}
    (hops : notices.countP isUnknownOp = 0) (hsegments : notices.countP isUnknownSegment = 0)
    (hrange : ∀ notice ∈ notices, notice.isOutOfRange = false) : notices = [] := by
  rw [List.countP_eq_zero] at hops hsegments
  refine List.eq_nil_iff_forall_not_mem.mpr ?_
  intro notice hmem
  cases notice with
  | unknownOp tag position => exact hops _ hmem rfl
  | unknownSegment tag position => exact hsegments _ hmem rfl
  | outOfRange operand value position => exact absurd (hrange _ hmem) (by simp [isOutOfRange])

/-- One operation for each tag: the strict reader passes over nothing. -/
theorem Read.length_of_run_reject {position : Nat} {tags : List Int32} {feed feed' : Feed N}
    {ops : List (Op N)} (h : (instructions .reject position tags).run feed = .ok ops feed') :
    ops.length = tags.length := by
  obtain ⟨ws, rfl, rfl, -⟩ := run_instructions_reject_eq_ok_iff.mp h
  rw [List.length_map, List.length_map]

namespace Batch

/-! ## Batches without an anomaly -/

/-- What is accepted strictly is read alike when unknown numbers are allowed, and
    there was none. -/
theorem decode_skip_of_reject_ok (h : b.decode .reject = .ok p) :
    b.decode .skip = .ok p ∧ p.stats.skippedOps = 0 ∧ p.stats.skippedSegments = 0 := by
  obtain ⟨feed, hrun, hstats⟩ := decode_eq_ok_iff.mp h
  have hagree := Read.lockstep_instructions 0 b.tags (.ofBatch b)
  rw [hrun] at hagree
  obtain ⟨hskip, c, htakes⟩ := hagree.of_ok
  refine ⟨decode_eq_ok_iff.mpr ⟨feed, hskip, hstats⟩, ?_, ?_⟩
  · rw [hstats]
    exact htakes.skippedOps
  · rw [hstats]
    exact htakes.skippedSegments

/-- Running out of operands first is the same under both policies. -/
theorem decode_skip_of_reject_underflow (h : b.decode .reject = .error e)
    (he : e.underflow? = some i) : b.decode .skip = .error e := by
  obtain ⟨feed, hrun⟩ := decode_eq_error_iff.mp h
  have hagree := Read.lockstep_instructions 0 b.tags (.ofBatch b)
  rw [hrun] at hagree
  exact decode_eq_error_iff.mpr ⟨feed, hagree.of_underflow he⟩

/-- With unknown numbers allowed, operands that are missing are the only error. -/
theorem underflow?_of_decode_skip (h : b.decode .skip = .error e) :
    ∃ i, e.underflow? = some i := by
  obtain ⟨feed, hrun⟩ := decode_eq_error_iff.mp h
  obtain ⟨notices, htolerated⟩ :=
    (Read.lockstep_instructions 0 b.tags (.ofBatch b)).tolerated
  rw [hrun] at htolerated
  cases htolerated with
  | underflow he hP => exact ⟨_, he⟩

/-- A batch that is read to its end with nothing passed over is accepted
    strictly. -/
theorem decode_reject_of_skip_ok (h : b.decode .skip = .ok p) (hops : p.stats.skippedOps = 0)
    (hsegments : p.stats.skippedSegments = 0)
    (hrange : ∀ notice ∈ b.notices .skip, notice.isOutOfRange = false) :
    b.decode .reject = .ok p := by
  obtain ⟨feed, hrun, hstats⟩ := decode_eq_ok_iff.mp h
  have hagree := Read.lockstep_instructions 0 b.tags (.ofBatch b)
  rw [hrun] at hagree
  rcases hagree.of_tolerant_ok with hreject | ⟨c, notices, hne, hpasses⟩
  · exact decode_eq_ok_iff.mpr ⟨feed, hreject, hstats⟩
  · -- The policies have parted, so a notice was left; all three sorts are excluded.
    have hnotices : b.notices .skip = notices := by
      rw [Batch.notices, readAll, hrun]
      exact hpasses.notices
    rw [hstats] at hops hsegments
    rw [hnotices] at hrange
    have hcount_ops : notices.countP Notice.isUnknownOp = 0 := by
      have hskipped := hpasses.skippedOps
      simp only [Feed.stats] at hops
      omega
    have hcount_segments : notices.countP Notice.isUnknownSegment = 0 := by
      have hskipped := hpasses.skippedSegments
      simp only [Feed.stats] at hsegments
      omega
    exact absurd (Notice.eq_nil_of_countP hcount_ops hcount_segments hrange) hne

/-! ## Batches with an anomaly -/

/-- In front of the first number without a meaning the policies agree operation by
    operation; behind it the tolerant reader can only run out of operands. -/
theorem decode_skip_of_reject_anomaly (h : b.decode .reject = .error e)
    (he : e.anomaly? = some i) :
    ∃ ops : List (Op N), ops.length = i ∧
      (Decoder.ofBatch b .reject).items i = ops.map (fun op => some (.ok op)) ∧
      (Decoder.ofBatch b .skip).items i = ops.map (fun op => some (.ok op)) ∧
      ((∃ p, b.decode .skip = .ok p ∧ ops <+: p.ops) ∨
        ∃ e' j, b.decode .skip = .error e' ∧ e'.underflow? = some j ∧ i ≤ j) := by
  obtain ⟨feed, hrun⟩ := decode_eq_error_iff.mp h
  obtain ⟨before, tag, after, ops, middle, htags, hbefore, hbad⟩ :=
    Read.exists_split_of_run_error hrun
  have hlength : ops.length = before.length := Read.length_of_run_reject hbefore
  -- The refused instruction is the one the error names.
  have hposition : i = before.length := by
    have hagree := Read.lockstep_instruction? (0 + before.length) tag middle
    rw [hbad] at hagree
    rw [hagree.of_anomaly he, Nat.zero_add]
  have hbefore_skip : (Read.instructions .skip 0 before).run (.ofBatch b) = .ok ops middle := by
    have hagree := Read.lockstep_instructions 0 before (.ofBatch b)
    rw [hbefore] at hagree
    exact hagree.of_ok.1
  have hitems : ∀ policy, (Read.instructions policy 0 before).run (.ofBatch b) = .ok ops middle →
      (Decoder.ofBatch b policy).items i = ops.map fun op => some (.ok op) := by
    intro policy hread
    rw [hposition, ← hlength, Decoder.ofBatch, Cursor.ofList, htags]
    exact Decoder.items_of_run_ok hread
  refine ⟨ops, hlength.trans hposition.symm, hitems .reject hbefore, hitems .skip hbefore_skip, ?_⟩
  -- From there on only the tolerant reader is still going.
  have hsplit : (Read.instructions .skip 0 b.tags).run (.ofBatch b) =
      ((fun others => ops ++ others) <$> Read.instructions .skip i (tag :: after)).run middle := by
    rw [htags, Read.instructions_append, EStateM.run_bind, hbefore_skip, hposition, Nat.zero_add,
      map_eq_pure_bind]
  obtain ⟨notices, htolerated⟩ :=
    ((Read.lockstep_instructions i (tag :: after)).map (fun others => ops ++ others)
      middle).tolerated
  rw [← hsplit] at htolerated
  generalize hskip : (Read.instructions .skip 0 b.tags).run (.ofBatch b) = result at htolerated
  cases htolerated with
  | @ok all feed' c passes =>
    refine .inl ⟨⟨all, feed'.stats ⟨b.tags.length, []⟩⟩, ?_, ?_⟩
    · exact decode_eq_ok_iff.mpr ⟨feed', hskip, rfl⟩
    · rw [hsplit] at hskip
      obtain ⟨others, -, hall⟩ := Read.run_map_eq_ok_iff.mp hskip
      exact ⟨others, hall⟩
  | @underflow e' feed' j hunderflow hj =>
    exact .inr ⟨e', j, decode_eq_error_iff.mpr ⟨feed', hskip⟩, hunderflow, hj⟩

/-- The two policies agree on a batch up to its first number without a meaning. -/
theorem decode_policies_agree (b : Batch N) :
    (∀ p, b.decode .reject = .ok p →
      b.decode .skip = .ok p ∧ p.stats.skippedOps = 0 ∧ p.stats.skippedSegments = 0) ∧
    (∀ e i, b.decode .reject = .error e → e.underflow? = some i →
      b.decode .skip = .error e) ∧
    (∀ e i, b.decode .reject = .error e → e.anomaly? = some i →
      ∃ ops : List (Op N), ops.length = i ∧
        (Decoder.ofBatch b .reject).items i = ops.map (fun op => some (.ok op)) ∧
        (Decoder.ofBatch b .skip).items i = ops.map (fun op => some (.ok op)) ∧
        ((∃ p, b.decode .skip = .ok p ∧ ops <+: p.ops) ∨
          ∃ e' j, b.decode .skip = .error e' ∧ e'.underflow? = some j ∧ i ≤ j)) ∧
    (∀ e, b.decode .skip = .error e → ∃ i, e.underflow? = some i) ∧
    (∀ p, b.decode .skip = .ok p → p.stats.skippedOps = 0 → p.stats.skippedSegments = 0 →
      (∀ notice ∈ b.notices .skip, notice.isOutOfRange = false) →
      b.decode .reject = .ok p) := by
  refine ⟨?_, ?_, ?_, ?_, ?_⟩
  · intro p hp
    exact decode_skip_of_reject_ok hp
  · intro e i hdecode he
    exact decode_skip_of_reject_underflow hdecode he
  · intro e i hdecode he
    exact decode_skip_of_reject_anomaly hdecode he
  · intro e hdecode
    exact underflow?_of_decode_skip hdecode
  · intro p hp hops hsegments hrange
    exact decode_reject_of_skip_ok hp hops hsegments hrange

/-- Three batches, one for each way: nothing is wrong with the first, the second
    lacks an operand, and the third has an unknown tag in the middle. -/
theorem decode_policies_agree_three :
    (∃ p, Batch.decode ({ tags := [14, 15] } : Batch Nat) .skip = .ok p ∧
      Batch.decode ({ tags := [14, 15] } : Batch Nat) .reject = .ok p) ∧
    Batch.decode ({ tags := [14, 4] } : Batch Nat) .skip =
      .error (.underflow .real 0 1 .setOpacity) ∧
    ∃ ops : List (Op Nat), ops.length = 1 ∧
      (Decoder.ofBatch { tags := [14, 99, 15] } .reject).items 1 =
        ops.map (fun op => some (.ok op)) ∧
      (Decoder.ofBatch { tags := [14, 99, 15] } .skip).items 1 =
        ops.map (fun op => some (.ok op)) := by
  have hplain : Batch.decode ({ tags := [14, 15] } : Batch Nat) .skip =
      .ok ⟨[.save, .restore], { consumed := { tags := 2 } }⟩ := rfl
  have hshort : Batch.decode ({ tags := [14, 4] } : Batch Nat) .reject =
      .error (.underflow .real 0 1 .setOpacity) := rfl
  have hunknown : Batch.decode ({ tags := [14, 99, 15] } : Batch Nat) .reject =
      .error (.unknownOp 99 1) := rfl
  refine ⟨⟨_, hplain, ?_⟩, ?_, ?_⟩
  · exact (decode_policies_agree _).2.2.2.2 _ hplain rfl rfl (by decide)
  · exact (decode_policies_agree _).2.1 _ 1 hshort rfl
  · obtain ⟨ops, hlength, hreject, hskip, -⟩ :=
      (decode_policies_agree _).2.2.1 _ 1 hunknown rfl
    exact ⟨ops, hlength, hreject, hskip⟩

end Batch

end BatchDraw
