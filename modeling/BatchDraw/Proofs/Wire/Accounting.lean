/-
  BatchDraw.Proofs.Wire.Accounting

  The account that a decoder gives of itself.

  After any number of calls, what was read and what is left add up to the batch;
  and as long as no error was yielded, what was read are the operands of the
  operations that were yielded, with one tag more for each one that was passed
  over (`Batch.stats_advance`).
-/
import BatchDraw.Proofs.Wire.Calls
import BatchDraw.Proofs.Wire.Runs

namespace BatchDraw

variable {N : Type} {b c : Batch N} {policy : Policy} {ops : List (Op N)}
  {notices : List Notice} {feed : Feed N} {tags : Cursor Int32}

/-! ## Accounts -/

/-- The account is one of having read the operations `ops` in `b`. -/
structure Stats.Accounts (stats : Stats) (b : Batch N) (ops : List (Op N)) : Prop where
  tags : stats.consumed.tags = ops.length + stats.skippedOps
  ints : stats.consumed.ints = (ops.map Op.intCount).sum + stats.skippedSegments
  reals : stats.consumed.reals = (ops.map Op.realCount).sum
  texts : b.texts.take stats.consumed.texts = ops.flatMap Op.texts
  natives : b.natives.take stats.consumed.natives = ops.flatMap Op.natives

/-- What was passed and what is in front of the feed make up the batch. -/
theorem Feed.Passes.consumed_add_remaining (h : (ofBatch b).Passes c notices feed)
    (htags : tags.position + tags.rest.length = b.tags.length) :
    (feed.stats tags).consumed + (feed.stats tags).remaining = b.sizes := by
  refine Sizes.ext_of htags ?_
  intro s
  have hposition : (feed.cursor s).position = (c.stack s).length := h.position_ofBatch s
  rw [Sizes.of_add, consumed_stats_of, remaining_stats_of, Batch.sizes_of, h.stack_eq s,
    List.length_append, hposition]

/-- The operands passed are accounted for by the operations that they are of. -/
theorem Feed.Passes.accounts (h : (ofBatch b).Passes c notices feed)
    (htotals : Totals tags.position ops c notices) : (feed.stats tags).Accounts b ops := by
  have hops : feed.skippedOps = notices.countP Notice.isUnknownOp := by
    rw [h.skippedOps, ofBatch, Nat.zero_add]
  have hsegments : feed.skippedSegments = notices.countP Notice.isUnknownSegment := by
    rw [h.skippedSegments, ofBatch, Nat.zero_add]
  have hints : feed.ints.position = c.ints.length := h.position_ofBatch .int
  have hreals : feed.reals.position = c.reals.length := h.position_ofBatch .real
  have htexts : b.texts.take feed.texts.position = c.texts := h.take_eq .text
  have hnatives : b.natives.take feed.natives.position = c.natives := h.take_eq .native
  refine ⟨?_, ?_, ?_, ?_, ?_⟩
  · rw [Feed.stats, hops]
    exact htotals.tags
  · rw [Feed.stats, hsegments, hints]
    exact htotals.ints
  · rw [Feed.stats, hreals]
    exact htotals.reals
  · rw [Feed.stats, htexts]
    exact htotals.texts
  · rw [Feed.stats, hnatives]
    exact htotals.natives

/-- A program has an account of its operations. -/
theorem Batch.accounts_of_decode {p : Program N} (h : b.decode policy = .ok p) :
    p.stats.Accounts b p.ops := by
  obtain ⟨feed, hrun, hstats⟩ := decode_eq_ok_iff.mp h
  obtain ⟨c, notices, hpasses, htotals, -⟩ := Read.exists_totals_of_run_ok hrun
  rw [hstats]
  exact hpasses.accounts htotals

/-! ## Decoders -/

namespace Decoder

variable {d : Decoder N} {e : WireError}

/-- Where nothing went wrong, the stretch that was read is accounted for. -/
theorem Behind.stats (h : Behind b policy ops d) :
    d.stats.consumed + d.stats.remaining = b.sizes ∧ d.stats.Accounts b ops := by
  cases h with
  | @intro before after ops feed htags hrun =>
    obtain ⟨c, notices, hpasses, htotals, -⟩ := Read.exists_totals_of_run_ok hrun
    refine ⟨hpasses.consumed_add_remaining ?_, hpasses.accounts htotals⟩
    rw [htags, List.length_append]

/-- The entries that an instruction took before it went wrong are counted too. -/
theorem Stopped.consumed_add_remaining (h : Stopped b policy e d) :
    d.stats.consumed + d.stats.remaining = b.sizes := by
  cases h with
  | @intro before after tag ops front back e htags hrun hbad =>
    obtain ⟨c, m, hbefore, -⟩ := Read.exists_totals_of_run_ok hrun
    obtain ⟨c', n, htag⟩ := Read.exists_passes_of_run_instruction?_error hbad
    refine (hbefore.trans htag).consumed_add_remaining ?_
    rw [htags, List.length_append, List.length_cons, Nat.add_right_comm]
    rfl

end Decoder

/-- After any number of calls, what was read and what is left add up to the batch.
    Unless an error was yielded, what was read are the operands of the operations
    that were yielded, and what was passed over. -/
theorem Batch.stats_advance (b : Batch N) (policy : Policy) (n : Nat) :
    ((Decoder.ofBatch b policy).advance n).stats.consumed +
        ((Decoder.ofBatch b policy).advance n).stats.remaining = b.sizes ∧
      ((∀ e, ¬ (Decoder.ofBatch b policy).Fails n e) →
        ((Decoder.ofBatch b policy).advance n).stats.Accounts b
          ((Decoder.ofBatch b policy).yielded n)) := by
  rcases (Decoder.behind_ofBatch b policy).standing n with ⟨-, hbehind⟩ | ⟨e, hfails, hstopped⟩
  · obtain ⟨hsum, haccounts⟩ := hbehind.stats
    exact ⟨hsum, fun _ => haccounts⟩
  · refine ⟨hstopped.consumed_add_remaining, ?_⟩
    intro hok
    exact absurd ((hfails e).mpr rfl) (hok e)

/-- An unknown instruction and a text; for the opacity behind them there is no real
    left. -/
def Batch.patchy : Batch Nat where
  tags := [99, 10, 4]
  reals := [8.0, 9.0, 0.0]
  texts := ["read", "unread"]

/-- The text is accounted for when it was yielded, and the account still adds up when
    the next call has failed. -/
theorem Batch.stats_advance_patchy :
    ((Decoder.ofBatch Batch.patchy .skip).advance 1).stats.Accounts Batch.patchy
        [.fillText ⟨"read", ⟨8.0, 9.0⟩, 0.0⟩] ∧
      ((Decoder.ofBatch Batch.patchy .skip).advance 2).stats.consumed +
        ((Decoder.ofBatch Batch.patchy .skip).advance 2).stats.remaining =
          ⟨3, 0, 3, 2, 0⟩ := by
  have hitems : (Decoder.ofBatch Batch.patchy .skip).items 1 =
      [some (.ok (.fillText ⟨"read", ⟨8.0, 9.0⟩, 0.0⟩))] := rfl
  have hyielded : (Decoder.ofBatch Batch.patchy .skip).yielded 1 =
      [.fillText ⟨"read", ⟨8.0, 9.0⟩, 0.0⟩] := by
    rw [Decoder.yielded, hitems]
    rfl
  have hok : ∀ e, ¬ (Decoder.ofBatch Batch.patchy .skip).Fails 1 e := by
    intro e hfails
    rw [Decoder.Fails, hitems] at hfails
    simp at hfails
  have haccounts := (Batch.stats_advance Batch.patchy .skip 1).2 hok
  rw [hyielded] at haccounts
  exact ⟨haccounts, (Batch.stats_advance Batch.patchy .skip 2).1⟩

end BatchDraw
