/-
  BatchDraw.Proofs.Wire.UnknownTags

  Unknown instruction tags make no difference where they are allowed.

  `b.known` is a batch without its unknown tags. An unknown tag takes nothing and
  leaves a count, so a reader of the batch is behind it where a reader of the known
  tags is in front of it, but for that count. Each known tag is then the same
  instruction in both batches, at two positions; the one in the whole batch is that
  of the known tag with as many known tags before it.
-/
import BatchDraw.Proofs.Wire.Relocation
import BatchDraw.Proofs.Wire.Blame
import BatchDraw.Surface.Listing
import BatchDraw.Surface.Pass
import Mathlib.Data.List.Basic

namespace BatchDraw

/-- Whether a tag stands for a kind of operation. -/
def OpKind.knows (tag : Int32) : Bool := (ofTag? tag).isSome

variable {N : Type}

/-- The batch without the instructions whose tags are unknown, and with all its
    operands. -/
def Batch.known (b : Batch N) : Batch N := { b with tags := b.tags.filter OpKind.knows }

/-- How many instructions of a batch have unknown tags. -/
def Batch.unknownCount (b : Batch N) : Nat := b.tags.countP fun tag => !OpKind.knows tag

@[simp] theorem Batch.stack_known (b : Batch N) (s : Stack) : b.known.stack s = b.stack s := by
  cases s <;> rfl

/-- The place of a tag in a list is that of the tag with as many known tags before it. -/
theorem findIdxNth_knows {before after : List Int32} {tag : Int32}
    (htag : OpKind.knows tag = true) :
    (before ++ tag :: after).findIdxNth OpKind.knows (before.countP OpKind.knows) =
      before.length := by
  induction before with
  | nil => exact List.findIdxNth_cons_zero_of_pos htag
  | cons first before ih =>
    rw [List.cons_append, List.length_cons, ← ih]
    cases hfirst : OpKind.knows first with
    | true => rw [List.countP_cons_of_pos hfirst, List.findIdxNth_cons_succ_of_pos hfirst]
    | false =>
      have hnot : ¬ OpKind.knows first = true := by simp [hfirst]
      rw [List.countP_cons_of_neg hnot, List.findIdxNth_cons_of_neg hfirst]

namespace Feed

/-- The feed with so many more tags passed over. -/
def passOver (feed : Feed N) (count : Nat) : Feed N :=
  { feed with skippedOps := feed.skippedOps + count }

theorem passOver_passOver (feed : Feed N) (m n : Nat) :
    (feed.passOver m).passOver n = feed.passOver (m + n) := by
  simp only [passOver, Nat.add_assoc]

/-- Behind unknown tags and nothing else. -/
def behindTags (count : Nat) : Feed N := (ofBatch .empty).passOver count

@[simp] theorem position_behindTags (count : Nat) (s : Stack) :
    ((behindTags count : Feed N).cursor s).position = 0 := by
  cases s <;> rfl

/-- Unknown tags are all that the second account tells more. -/
theorem Continues.stats_behindTags {count : Nat} {feed feed' : Feed N}
    (h : (behindTags count).Continues feed feed') (n : Nat) :
    feed'.stats ⟨n, []⟩ =
      { feed.stats ⟨n, []⟩ with skippedOps := count + feed.skippedOps } := by
  have htotal := h.stats 0 n
  have hops : (behindTags count : Feed N).skippedOps = count := Nat.zero_add count
  have hsegments : (behindTags count : Feed N).skippedSegments + feed.skippedSegments =
      feed.skippedSegments := Nat.zero_add _
  have hconsumed : ((behindTags count : Feed N).stats ⟨0, []⟩).consumed +
      (feed.stats ⟨n, []⟩).consumed = (feed.stats ⟨n, []⟩).consumed := Sizes.zero_add _
  rw [Nat.zero_add, hops, hsegments, hconsumed] at htotal
  exact htotal

end Feed

namespace Read

variable {front back feed feed' : Feed N} {ops : List (Op N)}

/-- Where all tags are known, none is passed over. -/
theorem skippedOps_of_run_known {policy : Policy} {position : Nat} {tags : List Int32}
    (hknown : ∀ tag ∈ tags, OpKind.knows tag = true)
    (h : (instructions policy position tags).run front = .ok ops back) :
    back.skippedOps = front.skippedOps := by
  induction tags generalizing position front ops with
  | nil =>
    obtain ⟨-, rfl⟩ := run_pure_eq_ok_iff.mp h
    rfl
  | cons tag tags ih =>
    simp only [instructions, run_bind_eq_ok_iff, run_pure_eq_ok_iff] at h
    obtain ⟨first, middle, hfirst, others, last, hothers, rfl, rfl⟩ := h
    rw [ih (fun tag htag => hknown tag (List.mem_cons_of_mem _ htag)) hothers]
    obtain ⟨kind, hkind⟩ := Option.isSome_iff_exists.mp (hknown tag List.mem_cons_self)
    obtain ⟨b, notices, hpasses, htotals, -⟩ := (contract_instruction? none hkind).ok hfirst
    -- The one operation is all that came of the instruction.
    rw [instruction?, hkind] at hfirst
    obtain ⟨op, -, rfl⟩ := run_map_eq_ok_iff.mp hfirst
    have hcount : 1 = 1 + notices.countP Notice.isUnknownOp := htotals.tags
    rw [hpasses.skippedOps]
    omega

/-- The known tags of a stretch are read as the whole stretch is, when `place` takes the
    position of each of them to the one that it has there. -/
theorem relocated_known {place : Nat → Nat} {i j : Nat} {tags : List Int32}
    (h : front.Continues feed feed')
    (hplace : ∀ before tag after, tags = before ++ tag :: after → OpKind.knows tag = true →
      place (j + before.countP OpKind.knows) = i + before.length) :
    Relocated (front.passOver (tags.countP fun tag => !OpKind.knows tag)) place
      ((instructions .skip j (tags.filter OpKind.knows)).run feed)
      ((instructions .skip i tags).run feed') := by
  induction tags generalizing i j front feed feed' with
  | nil => exact .ok h
  | cons tag tags ih =>
    cases htag : OpKind.knows tag with
    | true =>
      -- The tag is the first one of both stretches, and the positions correspond.
      have hhere : place j = i := hplace [] tag tags rfl htag
      have hfirst := relocated_instruction? h place .skip j tag
      rw [hhere] at hfirst
      have hlater : ∀ before other after, tags = before ++ other :: after →
          OpKind.knows other = true →
            place (j + 1 + before.countP OpKind.knows) = i + 1 + before.length := by
        rintro before other after rfl hother
        have hthere := hplace (tag :: before) other after rfl hother
        rw [List.countP_cons_of_pos htag, List.length_cons] at hthere
        rw [Nat.add_right_comm j, Nat.add_right_comm i]
        exact hthere
      rw [List.filter_cons_of_pos htag, List.countP_cons_of_neg (by simp [htag])]
      refine hfirst.bind rfl fun found feed feed' h => ?_
      exact (ih h hlater).bind rfl fun others _ _ h => .ok h
    | false =>
      -- The tag is missing from the first stretch; in the second one it leaves a count.
      have hnone : OpKind.ofTag? tag = none := by
        rwa [OpKind.knows, Option.isSome_eq_false_iff, Option.isNone_iff_eq_none] at htag
      have hlater : ∀ before other after, tags = before ++ other :: after →
          OpKind.knows other = true →
            place (j + before.countP OpKind.knows) = i + 1 + before.length := by
        rintro before other after rfl hother
        have hthere := hplace (tag :: before) other after rfl hother
        rw [List.countP_cons_of_neg (by simp [htag]), List.length_cons] at hthere
        rw [Nat.add_right_comm i]
        exact hthere
      have hskip : (instructions .skip i (tag :: tags)).run feed' =
          (instructions .skip (i + 1) tags : Read N (List (Op N))).run
            { feed'.note (.unknownOp tag i) with skippedOps := feed'.skippedOps + 1 } := by
        rw [instructions, instruction?, hnone, EStateM.run_bind]
        exact congrArg (EStateM.run · _) (bind_pure _)
      have hcontinues : (front.passOver 1).Continues feed
          { feed'.note (.unknownOp tag i) with skippedOps := feed'.skippedOps + 1 } := by
        refine ⟨h.cursor, ?_, h.skippedSegments⟩
        have hcount := h.skippedOps
        show feed'.skippedOps + 1 = front.skippedOps + 1 + feed.skippedOps
        omega
      have hcount : (tag :: tags).countP (fun tag => !OpKind.knows tag) =
          1 + tags.countP fun tag => !OpKind.knows tag := by
        rw [List.countP_cons_of_pos (by simp [htag]), Nat.add_comm]
      rw [List.filter_cons_of_neg (by simp [htag]), hskip, hcount]
      have hothers := ih hcontinues hlater
      rwa [Feed.passOver_passOver] at hothers

end Read

namespace Batch

variable {b : Batch N} {e : WireError}

/-- The whole batch and its known tags begin with the same operands in front. -/
theorem continues_known (b : Batch N) :
    (Feed.ofBatch .empty : Feed N).Continues (.ofBatch b.known) (.ofBatch b) := by
  refine ⟨?_, rfl, rfl⟩
  intro s
  rw [Feed.cursor_ofBatch, Feed.cursor_ofBatch, Feed.cursor_ofBatch, stack_known]
  exact ⟨rfl, rfl⟩

/-- A reader of the known tags, and a reader of the whole batch. -/
theorem relocated_readAll (b : Batch N) :
    Relocated (.behindTags b.unknownCount) (b.tags.findIdxNth OpKind.knows)
      (b.known.readAll .skip) (b.readAll .skip) := by
  refine Read.relocated_known b.continues_known ?_
  intro before tag after htags htag
  rw [htags, Nat.zero_add, Nat.zero_add]
  exact findIdxNth_knows htag

theorem decode_skip_of_known_ok {p : Program N} (h : b.known.decode .skip = .ok p) :
    b.decode .skip =
      .ok ⟨p.ops, { p.stats with
        skippedOps := b.unknownCount
        consumed := { p.stats.consumed with tags := b.tags.length } }⟩ := by
  obtain ⟨last, hrun, hstats⟩ := decode_eq_ok_iff.mp h
  have hrelocated := b.relocated_readAll
  rw [readAll, hrun] at hrelocated
  obtain ⟨last', hwhole, hlast⟩ := hrelocated.of_ok
  have hnone : last.skippedOps = 0 :=
    Read.skippedOps_of_run_known (fun tag htag => (List.mem_filter.mp htag).2) hrun
  refine decode_eq_ok_iff.mpr ⟨last', hwhole, ?_⟩
  rw [hlast.stats_behindTags, hnone, Nat.add_zero, hstats]
  rfl

theorem decode_skip_of_known_error (h : b.known.decode .skip = .error e) :
    b.decode .skip = .error (e.moved (fun _ => 0) (b.tags.findIdxNth OpKind.knows)) := by
  obtain ⟨last, hrun⟩ := decode_eq_error_iff.mp h
  have hrelocated := b.relocated_readAll
  rw [readAll, hrun] at hrelocated
  obtain ⟨last', hwhole⟩ := hrelocated.of_error
  simp only [Feed.position_behindTags] at hwhole
  exact decode_eq_error_iff.mpr ⟨last', hwhole⟩

/-- What the known tags of a batch miss is an operand of one of them, and `findIdxNth` tells
    where it stands in the batch. -/
theorem exists_underflow_of_known (h : b.known.decode .skip = .error e) :
    ∃ s index j kind, e = .underflow s index j kind ∧
      (b.tags.take (b.tags.findIdxNth OpKind.knows j)).countP OpKind.knows = j ∧
      b.kindAt? (b.tags.findIdxNth OpKind.knows j) = some kind := by
  obtain ⟨last, hrun⟩ := decode_eq_error_iff.mp h
  obtain ⟨_, tag, _, ops, middle, htags, -, hbad⟩ := Read.exists_split_of_run_error hrun
  -- The known tag, with everything before it in the batch.
  obtain ⟨before, rest, hwhole, rfl, hrest⟩ := List.filter_eq_append_iff.mp htags
  obtain ⟨unknown, after, rfl, hunknown, htag, -⟩ := List.filter_eq_cons_iff.mp hrest
  rw [← List.append_assoc] at hwhole
  have hcount : (before ++ unknown).countP OpKind.knows = (before.filter OpKind.knows).length := by
    rw [List.countP_append, List.countP_eq_zero.mpr hunknown, List.countP_eq_length_filter,
      Nat.add_zero]
  have hplace : b.tags.findIdxNth OpKind.knows (before.filter OpKind.knows).length =
      (before ++ unknown).length := by
    rw [hwhole, ← hcount]
    exact findIdxNth_knows htag
  obtain ⟨kind, hkind⟩ := Option.isSome_iff_exists.mp htag
  obtain ⟨_, _, -, hblames⟩ := (Read.contract_instruction? none hkind).error hbad
  rw [Nat.zero_add] at hblames
  cases hblames with
  | underflow s ended =>
    refine ⟨s, _, _, kind, rfl, ?_, ?_⟩
    · rw [hplace, hwhole, List.take_left, hcount]
    · rw [hplace, kindAt?_of_tags hwhole, hkind]
  | unknownSegment strict => cases strict
  | invalidOperand strict => cases strict

/-- Where unknown tags are allowed they are transparent. A batch comes to what its known
    tags come to, but for their count and the position of the instruction that misses an
    operand, which is that of the known tag with as many known tags before it; and it draws
    the same. -/
theorem decode_skip_eq_known (b : Batch N) :
    (b.decode .skip =
      match b.known.decode .skip with
      | .ok p =>
        .ok ⟨p.ops, { p.stats with
          skippedOps := b.unknownCount
          consumed := { p.stats.consumed with tags := b.tags.length } }⟩
      | .error e => .error (e.moved (fun _ => 0) (b.tags.findIdxNth OpKind.knows))) ∧
    (∀ e, b.known.decode .skip = .error e →
      ∃ s index j kind, e = .underflow s index j kind ∧
        (b.tags.take (b.tags.findIdxNth OpKind.knows j)).countP OpKind.knows = j ∧
        b.kindAt? (b.tags.findIdxNth OpKind.knows j) = some kind) ∧
    ∀ {σ : Type} [Surface σ N] (scale : Float) (surface : σ),
      (b.paint ⟨scale, .skip⟩ surface).2 = (b.known.paint ⟨scale, .skip⟩ surface).2 := by
  refine ⟨?_, fun e h => exists_underflow_of_known h, ?_⟩
  · cases h : b.known.decode .skip with
    | ok p => exact decode_skip_of_known_ok h
    | error e => exact decode_skip_of_known_error h
  · intro σ _ scale surface
    cases h : b.known.decode .skip with
    | ok p =>
      have hwhole := decode_skip_of_known_ok h
      rw [paint, paint, h, hwhole]
    | error e =>
      have hwhole := decode_skip_of_known_error h
      rw [paint, paint, h, hwhole]

/-- Unknown tags at both ends and in between, and a text whose spacing is missing. -/
def sprinkled : Batch Nat where
  tags := [0, 14, -7, 99, 4, 18, 10, 2147483647]
  reals := [0.5, 1.0, 2.0]
  texts := ["a"]

/-- The text is the third known instruction, and the seventh of all. With its spacing, the
    three are drawn. -/
theorem decode_skip_eq_known_sprinkled :
    sprinkled.decode .skip = .error (.underflow .real 3 6 .fillText) ∧
    { sprinkled with reals := [0.5, 1.0, 2.0, 0.0] }.decode .skip =
      .ok ⟨[.save, .setOpacity 0.5, .fillText ⟨"a", ⟨1.0, 2.0⟩, 0.0⟩],
        { skippedOps := 5, consumed := { tags := 8, reals := 4, texts := 1 } }⟩ ∧
    ∀ listing : Listing Nat,
      (sprinkled.paint ⟨2.0, .skip⟩ listing).2 =
        (sprinkled.known.paint ⟨2.0, .skip⟩ listing).2 := by
  refine ⟨?_, ?_, ?_⟩
  · have hknown : sprinkled.known.decode .skip = .error (.underflow .real 3 2 .fillText) := rfl
    rw [(decode_skip_eq_known sprinkled).1, hknown]
    rfl
  · have hknown : { sprinkled with reals := [0.5, 1.0, 2.0, 0.0] }.known.decode .skip =
        .ok ⟨[.save, .setOpacity 0.5, .fillText ⟨"a", ⟨1.0, 2.0⟩, 0.0⟩],
          { consumed := { tags := 3, reals := 4, texts := 1 } }⟩ := rfl
    rw [(decode_skip_eq_known { sprinkled with reals := [0.5, 1.0, 2.0, 0.0] }).1, hknown]
    rfl
  · intro listing
    exact (decode_skip_eq_known sprinkled).2.2 2.0 listing

end Batch

end BatchDraw
