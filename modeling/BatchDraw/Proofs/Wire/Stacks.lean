/-
  BatchDraw.Proofs.Wire.Stacks

  The four operand stacks under one roof.

  A batch keeps its stacks in four fields of four types. Here a stack is given
  by its name: `b.stack s` is the stack `s` of a batch and `feed.cursor s` the
  cursor into it, so what holds of each stack is stated and proved once.

  `feed.Lacks b s k` says that a feed has the operands of `b` in front of it but
  for one stack, which ends behind its first `k` entries. A feed that lacks
  operands of two batches behind one another lacks them of the first, or passes
  the first and lacks them of the second (`Feed.Lacks.left`, `Feed.Lacks.right`).
-/
import BatchDraw.Wire.Program
import BatchDraw.Proofs.Wire.Passage

namespace BatchDraw

variable {N : Type}

/-! ## Stacks by name -/

/-- What the entries of a stack are. -/
abbrev Stack.Entry (N : Type) : Stack → Type
  | int => Int32
  | real => Float
  | text => String
  | native => Option N

/-- The count for one stack. -/
def Sizes.of (sizes : Sizes) : Stack → Nat
  | .int => sizes.ints
  | .real => sizes.reals
  | .text => sizes.texts
  | .native => sizes.natives

/-- One stack of a batch. -/
def Batch.stack (b : Batch N) : (s : Stack) → List (s.Entry N)
  | .int => b.ints
  | .real => b.reals
  | .text => b.texts
  | .native => b.natives

/-- The cursor into one stack. -/
def Feed.cursor (feed : Feed N) : (s : Stack) → Cursor (s.Entry N)
  | .int => feed.ints
  | .real => feed.reals
  | .text => feed.texts
  | .native => feed.natives

@[simp] theorem Sizes.of_add (m n : Sizes) (s : Stack) : (m + n).of s = m.of s + n.of s := by
  cases s <;> rfl

/-- Sizes are the same when they are for the tags and for each stack. -/
theorem Sizes.ext_of {m n : Sizes} (htags : m.tags = n.tags) (h : ∀ s, m.of s = n.of s) :
    m = n :=
  Sizes.ext htags (h .int) (h .real) (h .text) (h .native)

namespace Batch

@[simp] theorem stack_empty (s : Stack) : (empty : Batch N).stack s = [] := by
  cases s <;> rfl

@[simp] theorem stack_append (b c : Batch N) (s : Stack) :
    (b ++ c).stack s = b.stack s ++ c.stack s := by
  cases s <;> rfl

theorem sizes_of (b : Batch N) (s : Stack) : b.sizes.of s = (b.stack s).length := by
  cases s <;> rfl

end Batch

namespace Feed

variable {b c : Batch N} {m n : List Notice} {front back : Feed N} {s : Stack}

@[simp] theorem cursor_ofBatch (b : Batch N) (s : Stack) :
    (ofBatch b).cursor s = .ofList (b.stack s) := by
  cases s <;> rfl

@[simp] theorem consumed_stats_of (feed : Feed N) (tags : Cursor Int32) (s : Stack) :
    (feed.stats tags).consumed.of s = (feed.cursor s).position := by
  cases s <;> rfl

@[simp] theorem remaining_stats_of (feed : Feed N) (tags : Cursor Int32) (s : Stack) :
    (feed.stats tags).remaining.of s = (feed.cursor s).rest.length := by
  cases s <;> rfl

/-! ## Passages -/

/-- A passage moves the cursor of each stack behind its operands. -/
theorem Passes.cursor (h : front.Passes b n back) (s : Stack) :
    (front.cursor s).Passes (b.stack s) (back.cursor s) := by
  cases s with
  | int => exact h.ints
  | real => exact h.reals
  | text => exact h.texts
  | native => exact h.natives

theorem Passes.position (h : front.Passes b n back) (s : Stack) :
    (back.cursor s).position = (front.cursor s).position + (b.stack s).length :=
  (h.cursor s).position

/-- Where no cursor moves, all that happens is that notices are left and counted. -/
theorem passes_empty_iff :
    front.Passes .empty n back ↔
      back = { front with
        skippedOps := front.skippedOps + n.countP Notice.isUnknownOp
        skippedSegments := front.skippedSegments + n.countP Notice.isUnknownSegment
        notices := front.notices ++ n } := by
  refine ⟨?_, ?_⟩
  · intro h
    obtain ⟨hints, hreals, htexts, hnatives, hops, hsegments, hnotices⟩ := h
    rw [Batch.empty, Cursor.passes_nil_iff] at hints hreals htexts hnatives
    cases back
    simp_all
  · rintro rfl
    exact passes_empty front n

/-- With the operands of a batch in front, they can be passed. -/
theorem exists_passes (n : List Notice) (h : ∀ s, b.stack s <+: (front.cursor s).rest) :
    ∃ back, front.Passes b n back := by
  obtain ⟨ints, hints⟩ : ∃ back, front.ints.Passes b.ints back :=
    Cursor.exists_passes_iff.mpr (h .int)
  obtain ⟨reals, hreals⟩ : ∃ back, front.reals.Passes b.reals back :=
    Cursor.exists_passes_iff.mpr (h .real)
  obtain ⟨texts, htexts⟩ : ∃ back, front.texts.Passes b.texts back :=
    Cursor.exists_passes_iff.mpr (h .text)
  obtain ⟨natives, hnatives⟩ : ∃ back, front.natives.Passes b.natives back :=
    Cursor.exists_passes_iff.mpr (h .native)
  exact ⟨⟨ints, reals, texts, natives, _, _, _⟩, hints, hreals, htexts, hnatives, rfl, rfl, rfl⟩

/-- In front of a batch, what is passed is what its stacks begin with. -/
theorem Passes.stack_eq (h : (ofBatch b).Passes c n back) (s : Stack) :
    b.stack s = c.stack s ++ (back.cursor s).rest := by
  have hrest := (h.cursor s).rest
  rwa [cursor_ofBatch] at hrest

/-- In front of a batch, the positions behind a passage are the numbers of the
    operands passed. -/
theorem Passes.position_ofBatch (h : (ofBatch b).Passes c n back) (s : Stack) :
    (back.cursor s).position = (c.stack s).length := by
  have hposition := h.position s
  rwa [cursor_ofBatch, Cursor.ofList, Nat.zero_add] at hposition

/-- What was passed are the first entries of each stack, as many as its cursor
    tells. -/
theorem Passes.take_eq (h : (ofBatch b).Passes c n back) (s : Stack) :
    (b.stack s).take (back.cursor s).position = c.stack s := by
  rw [h.position_ofBatch s, h.stack_eq s, List.take_left]

/-- What is left of each stack stands behind them. -/
theorem Passes.drop_eq (h : (ofBatch b).Passes c n back) (s : Stack) :
    (b.stack s).drop (back.cursor s).position = (back.cursor s).rest := by
  rw [h.position_ofBatch s, h.stack_eq s, List.drop_left]

/-! ## Operands that are lacking -/

/-- The operands of `b` are in front of the feed, but for those of one stack,
    which ends behind its first `k` entries. -/
structure Lacks (front : Feed N) (b : Batch N) (s : Stack) (k : Nat) : Prop where
  others : ∀ t, t ≠ s → b.stack t <+: (front.cursor t).rest
  rest : (front.cursor s).rest = (b.stack s).take k
  short : k < (b.stack s).length

variable {k : Nat}

/-- Nothing is lacking where nothing is needed. -/
theorem not_lacks_empty : ¬ front.Lacks .empty s k := by
  intro h
  have hshort := h.short
  rw [Batch.stack_empty, List.length_nil] at hshort
  omega

/-- The stack ends among the operands of the first of two batches. -/
theorem Lacks.left (h : front.Lacks (b ++ c) s k) (hk : k < (b.stack s).length) :
    front.Lacks b s k := by
  refine ⟨?_, ?_, hk⟩
  · intro t ht
    have hprefix := h.others t ht
    rw [Batch.stack_append] at hprefix
    exact (List.prefix_append _ _).trans hprefix
  · rw [h.rest, Batch.stack_append, List.take_append_of_le_length (Nat.le_of_lt hk)]

/-- The stack ends behind the operands of the first of two batches, which can then
    be passed. -/
theorem Lacks.right (n : List Notice) (h : front.Lacks (b ++ c) s k)
    (hk : (b.stack s).length ≤ k) :
    ∃ middle, front.Passes b n middle ∧ middle.Lacks c s (k - (b.stack s).length) := by
  have hrest_s : (front.cursor s).rest =
      b.stack s ++ (c.stack s).take (k - (b.stack s).length) := by
    rw [h.rest, Batch.stack_append, List.take_append, List.take_of_length_le hk]
  have hprefix : ∀ t, b.stack t <+: (front.cursor t).rest := by
    intro t
    by_cases ht : t = s
    · subst ht
      rw [hrest_s]
      exact List.prefix_append _ _
    · have hother := h.others t ht
      rw [Batch.stack_append] at hother
      exact (List.prefix_append _ _).trans hother
  obtain ⟨middle, hpasses⟩ := exists_passes n hprefix
  refine ⟨middle, hpasses, ?_, ?_, ?_⟩
  · intro t ht
    have hother := h.others t ht
    rw [Batch.stack_append, (hpasses.cursor t).rest] at hother
    exact (List.prefix_append_right_inj _).mp hother
  · have hmiddle := (hpasses.cursor s).rest
    rw [hrest_s] at hmiddle
    exact (List.append_cancel_left hmiddle).symm
  · have hshort := h.short
    rw [Batch.stack_append, List.length_append] at hshort
    omega

end Feed

end BatchDraw
