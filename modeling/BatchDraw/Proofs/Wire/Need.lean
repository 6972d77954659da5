/-
  BatchDraw.Proofs.Wire.Need

  What was read of a batch is just what it needs.

  A batch with the same tags and, on each stack, the same entries as far as they
  were read, is read alike whatever stands behind them. If one of its stacks ends
  before that, it runs out of that stack, in the instruction that read the entry
  which is missing (`Batch.decode_need`).
-/
import BatchDraw.Proofs.Wire.Blame

namespace BatchDraw

variable {N : Type} {b c d : Batch N} {policy : Policy} {p : Program N} {ops : List (Op N)}
  {notices : List Notice} {feed : Feed N} {s : Stack} {k : Nat}

namespace Batch

/-- The stack of `c` is at least `n` long and begins like that of `b`. -/
def Shares (b c : Batch N) (s : Stack) (n : Nat) : Prop :=
  n ≤ (c.stack s).length ∧ (c.stack s).take n = (b.stack s).take n

/-- Entry `k` of a stack is read by the instruction at a position: not yet when the
    batch is cut off in front of it, but when it is cut off behind it. -/
structure ReadsAt (b : Batch N) (policy : Policy) (s : Stack) (k position : Nat) : Prop where
  unread : ∃ p, (b.cut position).decode policy = .ok p ∧ p.stats.consumed.of s ≤ k
  read : ∃ p, (b.cut (position + 1)).decode policy = .ok p ∧ k < p.stats.consumed.of s

end Batch

/-! ## Enough operands -/

/-- What was passed in front of `b` is in front of a batch that shares the stack. -/
theorem Feed.Passes.isPrefix_of_shares (h : (ofBatch b).Passes d notices feed)
    (hshares : b.Shares c s (feed.cursor s).position) : d.stack s <+: c.stack s := by
  have hbegin : (c.stack s).take (feed.cursor s).position = d.stack s :=
    hshares.2.trans (h.take_eq s)
  rw [← hbegin]
  exact List.take_prefix _ _

/-- Behind a passage, what was consumed is the size of the operands passed. -/
theorem Feed.Passes.consumed_eq {back : Feed N} (hb : (ofBatch b).Passes d notices feed)
    (hc : (ofBatch c).Passes d notices back) (tags : Cursor Int32) :
    (back.stats tags).consumed = (feed.stats tags).consumed := by
  refine Sizes.ext_of rfl ?_
  intro s
  rw [consumed_stats_of, consumed_stats_of, hc.position_ofBatch s, hb.position_ofBatch s]

/-- A batch that shares all stacks as far as they were read is read alike. -/
theorem Batch.decode_of_shares (h : b.decode policy = .ok p) (htags : c.tags = b.tags)
    (hshares : ∀ s, b.Shares c s (p.stats.consumed.of s)) :
    ∃ q, c.decode policy = .ok q ∧ q.ops = p.ops ∧
      q.stats.skippedOps = p.stats.skippedOps ∧
      q.stats.skippedSegments = p.stats.skippedSegments ∧
      q.stats.consumed = p.stats.consumed := by
  obtain ⟨feed, hrun, hstats⟩ := decode_eq_ok_iff.mp h
  obtain ⟨d, notices, hpasses, -, hagain⟩ := Read.exists_totals_of_run_ok hrun
  have hfront : ∀ s, d.stack s <+: ((Feed.ofBatch c).cursor s).rest := by
    intro s
    rw [Feed.cursor_ofBatch]
    refine hpasses.isPrefix_of_shares ?_
    rw [← Feed.consumed_stats_of feed ⟨b.tags.length, []⟩ s, ← hstats]
    exact hshares s
  obtain ⟨back, hback⟩ := Feed.exists_passes notices hfront
  have hrun_c : (Read.instructions policy 0 c.tags).run (.ofBatch c) = .ok p.ops back := by
    rw [htags]
    exact hagain hback
  refine ⟨⟨p.ops, back.stats ⟨c.tags.length, []⟩⟩, decode_eq_ok_iff.mpr ⟨back, hrun_c, rfl⟩,
    rfl, ?_, ?_, ?_⟩
  · rw [hstats]
    exact hback.skippedOps.trans hpasses.skippedOps.symm
  · rw [hstats]
    exact hback.skippedSegments.trans hpasses.skippedSegments.symm
  · rw [hstats, htags]
    exact hpasses.consumed_eq hback _

/-! ## A stack that ends early -/

/-- Operands that were passed in front of `b` are lacking in a batch whose stack ends
    among them, and which shares the other stacks. -/
theorem Feed.Passes.lacks (h : (ofBatch b).Passes d notices feed)
    (hk : k < (feed.cursor s).position) (hshort : c.stack s = (b.stack s).take k)
    (hothers : ∀ t, t ≠ s → d.stack t <+: c.stack t) : (ofBatch c).Lacks d s k := by
  rw [h.position_ofBatch s] at hk
  refine ⟨?_, ?_, hk⟩
  · intro t ht
    rw [cursor_ofBatch]
    exact hothers t ht
  · rw [cursor_ofBatch]
    show c.stack s = (d.stack s).take k
    rw [hshort, h.stack_eq s, List.take_append_of_le_length (Nat.le_of_lt hk)]

namespace Batch

variable {before after : List Int32} {tag : Int32} {kind : OpKind} {middle behind : Feed N}
  {found : Option (Op N)}

/-- The instruction that moves a cursor over an entry reads it. -/
theorem readsAt_of_split (htags : b.tags = before ++ tag :: after)
    (hbefore : (Read.instructions policy 0 before).run (.ofBatch b) = .ok ops middle)
    (htag : (Read.instruction? policy (0 + before.length) tag).run middle = .ok found behind)
    (hmiddle : (middle.cursor s).position ≤ k) (hbehind : k < (behind.cursor s).position) :
    b.ReadsAt policy s k before.length := by
  refine ⟨⟨_, decode_cut_eq_ok htags hbefore, ?_⟩, ?_⟩
  · rw [Feed.consumed_stats_of]
    exact hmiddle
  · have hmoved : b.tags = before ++ [tag] ++ after :=
      htags.trans (List.append_cons before tag after)
    have hcut := decode_cut_eq_ok hmoved (Read.run_concat hbefore htag)
    rw [List.length_append] at hcut
    refine ⟨_, hcut, ?_⟩
    rw [Feed.consumed_stats_of]
    exact hbehind

/-- A batch that can be read up to an instruction, and there lacks operands that the
    instruction needs, runs out of them there. -/
theorem decode_of_lacks {d₁ d₂ : Batch N} {n₁ n₂ : List Notice}
    (htags : c.tags = before ++ tag :: after)
    (hbefore : ∀ {start stop : Feed N}, start.Passes d₁ n₁ stop →
      (Read.instructions policy 0 before).run start = .ok ops stop)
    (hneeds : Read.Needs (Site.underflow ⟨policy, 0 + before.length, kind⟩)
      (Read.instruction? policy (0 + before.length) tag) d₂ n₂ found)
    (hlacks : (Feed.ofBatch c).Lacks (d₁ ++ d₂) s k) (hk : (d₁.stack s).length ≤ k) :
    c.decode policy = .error (.underflow s k before.length kind) := by
  obtain ⟨front, hfront, hlacks⟩ := hlacks.right n₁ hk
  obtain ⟨back, hfail⟩ := hneeds.lacking hlacks
  have hindex : (front.cursor s).position + (k - (d₁.stack s).length) = k := by
    rw [hfront.position_ofBatch s]
    omega
  rw [hindex] at hfail
  have herror := Read.run_eq_error_of_split after (hbefore hfront) hfail
  rw [← htags, Site.underflow, Nat.zero_add] at herror
  exact decode_eq_error_iff.mpr ⟨back, herror⟩

/-- A batch whose stack ends before an entry that was read, and which shares the
    others, runs out of it in the instruction that read the entry. -/
theorem decode_of_short (h : b.decode policy = .ok p) (htags : c.tags = b.tags)
    (hk : k < p.stats.consumed.of s) (hshort : c.stack s = (b.stack s).take k)
    (hshares : ∀ t, t ≠ s → b.Shares c t (p.stats.consumed.of t)) :
    ∃ i kind, b.kindAt? i = some kind ∧ b.ReadsAt policy s k i ∧
      c.decode policy = .error (.underflow s k i kind) := by
  obtain ⟨feed, hrun, hstats⟩ := decode_eq_ok_iff.mp h
  have hconsumed : ∀ t, p.stats.consumed.of t = (feed.cursor t).position := by
    intro t
    rw [hstats, Feed.consumed_stats_of]
  rw [hconsumed s] at hk
  have hstart : ((Feed.ofBatch b).cursor s).position ≤ k := by
    rw [Feed.cursor_ofBatch]
    exact Nat.zero_le k
  obtain ⟨before, tag, after, begun, middle, found, behind, rest, hsplit, hbefore, htag, hafter,
    hmiddle, hbehind⟩ := Read.exists_split_of_position hrun hstart hk
  obtain ⟨d₁, n₁, hd₁, -, hagain⟩ := Read.exists_totals_of_run_ok hbefore
  obtain ⟨d₃, n₃, hd₃, -, -⟩ := Read.exists_totals_of_run_ok hafter
  cases hkind : OpKind.ofTag? tag with
  | none =>
    -- An instruction that is passed over reads nothing.
    obtain ⟨-, -, hnothing⟩ := (Read.run_instruction?_unknown_eq_ok_iff hkind).mp htag
    have hstill := hnothing.position s
    rw [Batch.stack_empty, List.length_nil] at hstill
    omega
  | some kind =>
    obtain ⟨d₂, n₂, hd₂, -, hneeds⟩ := (Read.contract_instruction? none hkind).ok htag
    have hothers : ∀ t, t ≠ s → (d₁ ++ d₂).stack t <+: c.stack t := by
      intro t ht
      have hall := ((hd₁.trans hd₂).trans hd₃).isPrefix_of_shares (hconsumed t ▸ hshares t ht)
      rw [Batch.stack_append] at hall
      exact (List.prefix_append _ _).trans hall
    have hlacks : (Feed.ofBatch c).Lacks (d₁ ++ d₂) s k :=
      (hd₁.trans hd₂).lacks hbehind hshort hothers
    have hpassed : (d₁.stack s).length ≤ k := by
      rw [← hd₁.position_ofBatch s]
      exact hmiddle
    exact ⟨before.length, kind, (kindAt?_of_tags hsplit).trans hkind,
      readsAt_of_split hsplit hbefore htag hmiddle hbehind,
      decode_of_lacks (htags.trans hsplit) hagain hneeds hlacks hpassed⟩

end Batch

/-! ## The need of a batch -/

namespace Batch

/-- What was read of a batch is enough for its operations, and each entry of it is
    necessary. -/
theorem decode_need (h : b.decode policy = .ok p) :
    (∀ c : Batch N, c.tags = b.tags → (∀ s, b.Shares c s (p.stats.consumed.of s)) →
      ∃ q, c.decode policy = .ok q ∧ q.ops = p.ops ∧
        q.stats.skippedOps = p.stats.skippedOps ∧
        q.stats.skippedSegments = p.stats.skippedSegments ∧
        q.stats.consumed = p.stats.consumed) ∧
    (∀ (c : Batch N) (s : Stack) (k : Nat), c.tags = b.tags → k < p.stats.consumed.of s →
      c.stack s = (b.stack s).take k →
      (∀ t, t ≠ s → b.Shares c t (p.stats.consumed.of t)) →
      ∃ i kind, b.kindAt? i = some kind ∧ b.ReadsAt policy s k i ∧
        c.decode policy = .error (.underflow s k i kind)) := by
  refine ⟨?_, ?_⟩
  · intro c htags hshares
    exact decode_of_shares h htags hshares
  · intro c s k htags hk hshort hshares
    exact decode_of_short h htags hk hshort hshares

/-- An opacity and a text, with spare operands on two stacks. -/
def ample : Batch Nat where
  tags := [4, 10]
  reals := [0.5, 1.0, 2.0, 3.0, 77.0]
  texts := ["a"]
  natives := [none]

/-- What stands behind the need may be another; and with two reals only, the text
    lacks the second of its own. -/
theorem decode_need_ample :
    (∃ q, { ample with reals := [0.5, 1.0, 2.0, 3.0], ints := [8] }.decode .reject = .ok q ∧
      q.ops = [.setOpacity 0.5, .fillText ⟨"a", ⟨1.0, 2.0⟩, 3.0⟩] ∧
      q.stats.consumed = { tags := 2, reals := 4, texts := 1 }) ∧
    ∃ i kind, ample.kindAt? i = some kind ∧ ample.ReadsAt .reject .real 2 i ∧
      { ample with reals := [0.5, 1.0] }.decode .reject =
        .error (.underflow .real 2 i kind) := by
  have hdecode : ample.decode .reject =
      .ok ⟨[.setOpacity 0.5, .fillText ⟨"a", ⟨1.0, 2.0⟩, 3.0⟩],
        { consumed := { tags := 2, reals := 4, texts := 1 },
          remaining := { reals := 1, natives := 1 } }⟩ := rfl
  refine ⟨?_, ?_⟩
  · obtain ⟨q, hq, hops, -, -, hconsumed⟩ := (decode_need hdecode).1
      { ample with reals := [0.5, 1.0, 2.0, 3.0], ints := [8] } rfl fun s => by
        cases s <;> exact ⟨by decide, rfl⟩
    exact ⟨q, hq, hops, hconsumed⟩
  · refine (decode_need hdecode).2 { ample with reals := [0.5, 1.0] } .real 2 rfl (by decide)
      rfl ?_
    intro t ht
    cases t with
    | real => exact absurd rfl ht
    | int | text | native => exact ⟨by decide, rfl⟩

end Batch

end BatchDraw
