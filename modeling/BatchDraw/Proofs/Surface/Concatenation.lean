/-
  BatchDraw.Proofs.Surface.Concatenation

  Batches behind one another.

  A batch that reads all its operands leaves a reader of the two batches in front
  of the operands of the second one, as if that one were read by itself but with
  the first one behind it (`Batch.exists_feed_between`). So the second batch is
  read by itself in another place: the programs are put behind one another, or the
  error is moved.

  Drawing goes on likewise. A listing is not disturbed by what was listed before,
  when texts are measured by themselves; what the second batch draws behind the
  first is what it draws alone, but for the first transform of the pass.
-/
import BatchDraw.Proofs.Wire.Relocation
import BatchDraw.Proofs.Surface.Tracing

namespace BatchDraw

variable {N : Type}

/-! ## Programs -/

/-- Two programs behind one another, with the account of reading the second one on
    from where the first one ended. -/
def Program.append (p q : Program N) : Program N where
  ops := p.ops ++ q.ops
  stats :=
    { skippedOps := p.stats.skippedOps + q.stats.skippedOps
      skippedSegments := p.stats.skippedSegments + q.stats.skippedSegments
      consumed := p.stats.consumed + q.stats.consumed
      remaining := q.stats.remaining }

namespace Batch

variable {b c : Batch N} {policy : Policy} {p q : Program N} {e : WireError}

/-- Behind a batch that reads all its operands, a reader of both batches stands in
    front of the second one, and tells of the first what the first one tells. -/
theorem exists_feed_between (hb : b.decode policy = .ok p)
    (hread : ∀ s, p.stats.remaining.of s = 0) (c : Batch N) :
    ∃ feed, (Read.instructions policy 0 b.tags).run (.ofBatch (b ++ c)) = .ok p.ops feed ∧
      feed.Continues (.ofBatch c) feed ∧
      (∀ s, (feed.cursor s).position = (b.stack s).length) ∧
      feed.skippedOps = p.stats.skippedOps ∧
      feed.skippedSegments = p.stats.skippedSegments ∧
      (feed.stats ⟨b.tags.length, []⟩).consumed = p.stats.consumed := by
  obtain ⟨last, hrun, hstats⟩ := decode_eq_ok_iff.mp hb
  obtain ⟨taken, notices, hpasses, -, hagain⟩ := Read.exists_totals_of_run_ok hrun
  -- All operands of the batch were taken.
  have htaken : ∀ s, b.stack s = taken.stack s := by
    intro s
    have hleft := hread s
    rw [hstats, Feed.remaining_stats_of, List.length_eq_zero_iff] at hleft
    have hstack := hpasses.stack_eq s
    rwa [hleft, List.append_nil] at hstack
  have hprefix : ∀ s, taken.stack s <+: ((Feed.ofBatch (b ++ c)).cursor s).rest := by
    intro s
    rw [Feed.cursor_ofBatch, ← htaken s, stack_append]
    exact List.prefix_append _ _
  obtain ⟨feed, hboth⟩ := Feed.exists_passes notices hprefix
  have hrest : ∀ s, (feed.cursor s).rest = c.stack s := by
    intro s
    have hstack := hboth.stack_eq s
    rw [stack_append, htaken s] at hstack
    exact (List.append_cancel_left hstack).symm
  have hposition : ∀ s, (feed.cursor s).position = (last.cursor s).position := by
    intro s
    rw [hboth.position_ofBatch, hpasses.position_ofBatch]
  refine ⟨feed, hagain hboth, Feed.continues_ofBatch hrest, ?_, ?_, ?_, ?_⟩
  · intro s
    rw [hboth.position_ofBatch, htaken s]
  · rw [hstats]
    exact hboth.skippedOps.trans hpasses.skippedOps.symm
  · rw [hstats]
    exact hboth.skippedSegments.trans hpasses.skippedSegments.symm
  · rw [hstats]
    refine Sizes.ext_of rfl fun s => ?_
    rw [Feed.consumed_stats_of, Feed.consumed_stats_of, hposition s]

/-- The second batch is read behind the first as it is by itself. -/
theorem decode_append_eq_ok (hb : b.decode policy = .ok p)
    (hread : ∀ s, p.stats.remaining.of s = 0) (hc : c.decode policy = .ok q) :
    (b ++ c).decode policy = .ok (p.append q) := by
  obtain ⟨feed, hfirst, hcontinues, -, hops, hsegments, hconsumed⟩ :=
    exists_feed_between hb hread c
  obtain ⟨last, hrun, hstats⟩ := decode_eq_ok_iff.mp hc
  have hmoved := Read.relocated_instructions hcontinues b.tags.length policy 0 c.tags
  rw [hrun] at hmoved
  obtain ⟨last', hsecond, hlast⟩ := hmoved.of_ok
  refine decode_eq_ok_iff.mpr ⟨last', ?_, ?_⟩
  · rw [tags_append, Read.instructions_append, Nat.zero_add]
    exact Read.run_bind_eq_ok_iff.mpr ⟨p.ops, feed, hfirst,
      Read.run_bind_eq_ok_iff.mpr ⟨q.ops, last', hsecond, rfl⟩⟩
  · rw [tags_append, List.length_append, hlast.stats, hops, hsegments, hconsumed,
      Program.append, hstats]
    rfl

/-- An error in the second batch is there behind the first one too. -/
theorem decode_append_eq_error (hb : b.decode policy = .ok p)
    (hread : ∀ s, p.stats.remaining.of s = 0) (hc : c.decode policy = .error e) :
    (b ++ c).decode policy =
      .error (e.moved (fun s => (b.stack s).length) (b.tags.length + ·)) := by
  obtain ⟨feed, hfirst, hcontinues, hposition, -⟩ := exists_feed_between hb hread c
  obtain ⟨last, hrun⟩ := decode_eq_error_iff.mp hc
  have hmoved := Read.relocated_instructions hcontinues b.tags.length policy 0 c.tags
  rw [hrun] at hmoved
  obtain ⟨last', hsecond⟩ := hmoved.of_error
  rw [funext hposition] at hsecond
  refine decode_eq_error_iff.mpr ⟨last', ?_⟩
  rw [tags_append, Read.instructions_append, Nat.zero_add]
  exact Read.run_bind_eq_error_iff.mpr (.inr ⟨p.ops, feed, hfirst,
    Read.run_bind_eq_error_iff.mpr (.inl hsecond)⟩)

end Batch

/-! ## Listings -/

/-- What is listed by a surface on which the advance of a text is a matter of the text
    alone. -/
structure Steady (width : String → Float) (N : Type) where
  entries : List (Entry N) := []

namespace Steady

variable {width : String → Float}

instance : Surface (Steady width N) N where
  perform steady call := ⟨steady.entries ++ [.call call]⟩
  measure steady text := (width text, ⟨steady.entries ++ [.measured text (width text)]⟩)

/-- The listing with these entries and advances. -/
def listing (steady : Steady width N) : Listing N := ⟨fun _ => width, steady.entries⟩

/-- The same entries behind others. -/
def behind (front : List (Entry N)) (steady : Steady width N) : Steady width N :=
  ⟨front ++ steady.entries⟩

theorem simulates_listing : Surface.Simulates (listing : Steady width N → Listing N) where
  perform _ _ := rfl
  measure _ _ := rfl

/-- What was listed before does not change what is listed. -/
theorem simulates_behind (front : List (Entry N)) :
    Surface.Simulates (behind front : Steady width N → Steady width N) where
  perform steady call := by
    show (⟨front ++ (steady.entries ++ [.call call])⟩ : Steady width N) = _
    rw [← List.append_assoc]
    rfl
  measure steady text := by
    show _ = (width text, (⟨front ++ (steady.entries ++ [_])⟩ : Steady width N))
    rw [← List.append_assoc]
    rfl

/-- Operations are listed behind what was listed before. -/
theorem entries_foldl_apply (scale : Float) (steady : Steady width N) (ops : List (Op N)) :
    (ops.foldl (Op.apply scale) steady).entries =
      steady.entries ++ (ops.foldl (Op.apply scale) (⟨[]⟩ : Steady width N)).entries := by
  have hbehind :=
    (simulates_behind steady.entries).foldl_apply scale (⟨[]⟩ : Steady width N) ops
  have hstart : behind steady.entries (⟨[]⟩ : Steady width N) = steady :=
    congrArg Steady.mk (List.append_nil steady.entries)
  rw [hstart] at hbehind
  exact (congrArg entries hbehind).symm

end Steady

namespace Batch

variable {b c : Batch N} {policy : Policy} {p q : Program N}

/-- The entries that a pass adds to a listing, with advances that depend on the text
    alone. -/
def listed (b : Batch N) (options : Options) (width : String → Float) : List (Entry N) :=
  (b.paint options (⟨fun _ => width, []⟩ : Listing N)).2.entries

/-- The entries of a pass begin with its transform; the operations follow. -/
theorem entries_paint (hb : b.decode policy = .ok p) (scale : Float) (width : String → Float)
    (before : List (Entry N)) :
    (b.paint ⟨scale, policy⟩ (⟨fun _ => width, before⟩ : Listing N)).2.entries =
      before ++ .call (.setTransform (.scale scale)) ::
        (p.ops.foldl (Op.apply scale) (⟨[]⟩ : Steady width N)).entries := by
  have hlisting := Steady.simulates_listing.foldl_apply scale
    (⟨before ++ [.call (.setTransform (.scale scale))]⟩ : Steady width N) p.ops
  have hentries := Steady.entries_foldl_apply scale
    (⟨before ++ [.call (.setTransform (.scale scale))]⟩ : Steady width N) p.ops
  rw [paint_of_decode_eq_ok _ hb]
  refine (congrArg Listing.entries hlisting).symm.trans (hentries.trans ?_)
  exact List.append_assoc before _ _

/-- Batches compose, if the first one reads all its operands. What the second one comes
    to by itself decides what both come to: a program behind that of the first one, or its
    error in another place; and the two draw what they draw one by one, but for the
    transform with which the second pass begins. -/
theorem decode_append (hb : b.decode policy = .ok p) (hread : ∀ s, p.stats.remaining.of s = 0)
    (c : Batch N) :
    (∀ q, c.decode policy = .ok q → (b ++ c).decode policy = .ok (p.append q)) ∧
    (∀ e, c.decode policy = .error e →
      (b ++ c).decode policy =
        .error (e.moved (fun s => (b.stack s).length) (b.tags.length + ·))) ∧
    ∀ q, c.decode policy = .ok q →
      ∀ (scale : Float) (width : String → Float) (before : List (Entry N)),
        ∃ drawn,
          c.listed ⟨scale, policy⟩ width = .call (.setTransform (.scale scale)) :: drawn ∧
          ((b ++ c).paint ⟨scale, policy⟩
              (⟨fun _ => width, before⟩ : Listing N)).2.entries =
            before ++ b.listed ⟨scale, policy⟩ width ++ drawn := by
  refine ⟨?_, ?_, ?_⟩
  · intro q hc
    exact decode_append_eq_ok hb hread hc
  · intro e hc
    exact decode_append_eq_error hb hread hc
  · intro q hc scale width before
    have hboth := decode_append_eq_ok hb hread hc
    refine ⟨_, entries_paint hc scale width [], ?_⟩
    rw [entries_paint hboth scale width before, listed, entries_paint hb scale width [],
      Program.append, List.foldl_append, Steady.entries_foldl_apply]
    simp only [List.nil_append, List.append_assoc, List.cons_append]

/-- An opacity behind an unknown tag, and a path with an unknown segment. -/
def opening : Batch Nat := { tags := [99, 4, 6], ints := [2, 7, 3], reals := [0.5] }

/-- A spaced text and a real that nobody reads. -/
def closing : Batch Nat := { tags := [10], reals := [1.0, 2.0, 0.25, 8.0], texts := ["ab"] }

/-- A text with half of its origin. -/
def broken : Batch Nat := { tags := [15, 11], reals := [3.0], texts := ["c"] }

/-- Behind the opening, the closing is read and drawn as it is by itself, and what the
    broken batch misses is missed in another place. -/
theorem decode_append_opening :
    (opening ++ closing).decode .skip =
      .ok ⟨[.setOpacity 0.5, .fillShape (.path [.close]),
          .fillText ⟨"ab", ⟨1.0, 2.0⟩, 0.25⟩],
        { skippedOps := 1, skippedSegments := 1,
          consumed := { tags := 4, ints := 3, reals := 4, texts := 1 },
          remaining := { reals := 1 } }⟩ ∧
    (opening ++ broken).decode .skip = .error (.underflow .real 2 4 .strokeText) ∧
    ∃ drawn,
      closing.listed ⟨2.0, .skip⟩ (byteAdvance 8.0) =
        .call (.setTransform (.scale 2.0)) :: drawn ∧
      ((opening ++ closing).paint ⟨2.0, .skip⟩
        (⟨fun _ => byteAdvance 8.0, [.call .save]⟩ : Listing Nat)).2.entries =
        [.call .save] ++ opening.listed ⟨2.0, .skip⟩ (byteAdvance 8.0) ++ drawn := by
  have hopening : opening.decode .skip =
      .ok ⟨[.setOpacity 0.5, .fillShape (.path [.close])],
        { skippedOps := 1, skippedSegments := 1,
          consumed := { tags := 3, ints := 3, reals := 1 } }⟩ := rfl
  have hclosing : closing.decode .skip =
      .ok ⟨[.fillText ⟨"ab", ⟨1.0, 2.0⟩, 0.25⟩],
        { consumed := { tags := 1, reals := 3, texts := 1 }, remaining := { reals := 1 } }⟩ := rfl
  have hbroken : broken.decode .skip = .error (.underflow .real 1 1 .strokeText) := rfl
  have hread : ∀ s, Sizes.of {} s = 0 := by
    intro s
    cases s <;> rfl
  have happend := decode_append hopening hread
  refine ⟨?_, ?_, ?_⟩
  · exact (happend closing).1 _ hclosing
  · exact (happend broken).2.1 _ hbroken
  · exact (happend closing).2.2 _ hclosing 2.0 (byteAdvance 8.0) [.call .save]

end Batch

end BatchDraw
