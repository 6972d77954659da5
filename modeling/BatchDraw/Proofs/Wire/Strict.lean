/-
  BatchDraw.Proofs.Wire.Strict

  Strict batches in place of tolerated ones.

  Whatever the tolerant reader passes over or replaces can be mended in the batch:
  unknown tags are dropped, and out of the integers unknown segment tags are,
  with the counts in front of them lowered, and counts and caps out of their
  range become the fallbacks that stand in for them. `b.strict` is the batch after
  that. The integers of different operations share one stack, so mending goes
  through it operation by operation, as reading does: a `Mend` takes its integers
  off the front and gives those that go in their place.

  `feed.PassesAs mend c feed'` says that what was read between the feeds are the
  operands of `c`, but for integers that `mend` makes those of `c`. This is kept by
  sequencing (`Feed.PassesAs.append`), and the strict reader reads `c`.

  There is one thing that cannot be mended. A join out of its range is a miter join
  without a limit, and no code stands for that.
-/
import BatchDraw.Proofs.Wire.Spelling
import BatchDraw.Proofs.Wire.Accounting
import BatchDraw.Proofs.Wire.UnknownTags

namespace BatchDraw

/-! ## Mending -/

/-- Takes integers off the front of a list: those that go in their place, and those
    that are left. -/
abbrev Mend := List Int32 → List Int32 × List Int32

namespace Mend

/-- Takes nothing. -/
def none : Mend := fun ints => ([], ints)

/-- One after the other. -/
def andThen (mend other : Mend) : Mend := fun ints =>
  let (front, rest) := mend ints
  let (behind, rest) := other rest
  (front ++ behind, rest)

/-- A negative count becomes zero. -/
def count (word : Int32) : Int32 := if word < 0 then 0 else word

/-- The code of no cap becomes that of the square cap. -/
def cap (code : Int32) : Int32 := if 0 ≤ code ∧ code ≤ 2 then code else 2

/-- The integers of a stroke: dash count, cap and join. -/
def stroke : Mend
  | dashes :: code :: join :: rest => ([count dashes, cap code, join], rest)
  | ints => ([], ints)

end Mend

/-- Whether a tag stands for a kind of segment. -/
def SegmentKind.knows (tag : Int32) : Bool := (ofTag? tag).isSome

/-- The integers of a shape: the mark of a rectangle, or a count and as many tags. Unknown
    tags are dropped, and the count is lowered by one for each. -/
def Mend.shape : Mend
  | [] => ([], [])
  | word :: rest =>
    if word = rectMark then
      ([rectMark], rest)
    else
      let length := (count word).toNatClampNeg
      let tags := rest.take length
      let unknown := tags.countP fun tag => !SegmentKind.knows tag
      (countWord (length - unknown) :: tags.filter SegmentKind.knows, rest.drop length)

/-- The integers of an operation. -/
def OpKind.mend : OpKind → Mend
  | setStroke => .stroke
  | strokeShape | fillShape | clipShape => .shape
  | _ => .none

/-- The integers of operations behind one another. -/
def Mend.all : List OpKind → Mend
  | [] => .none
  | kind :: kinds => kind.mend.andThen (all kinds)

variable {N : Type}

/-- The batch without its unknown tags and with the integers of its operations mended. -/
def Batch.strict (b : Batch N) : Batch N :=
  let (front, rest) := Mend.all (b.tags.filterMap OpKind.ofTag?) b.ints
  { b.known with ints := front ++ rest }

/-! ## Counts and codes -/

namespace Mend

/-- A mended count is one that fits. -/
theorem count_fits (word : Int32) :
    (count word).toNatClampNeg ≤ maxCount ∧
      countWord (count word).toNatClampNeg = count word := by
  refine countWord_eq_iff.mpr ⟨?_, rfl⟩
  unfold count
  by_cases hneg : word < 0
  · rw [if_pos hneg]
    decide
  · rw [if_neg hneg]
    exact Int32.not_lt.mp hneg

@[simp] theorem cap_code (c : Cap) : cap c.code = c.code := by
  cases c <;> rfl

/-- What stands for no cap is out of the range of caps. -/
theorem cap_of_unknown {code : Int32} (h : Cap.ofCode? code = Option.none) :
    cap code = Cap.square.code := by
  unfold cap
  refine if_neg ?_
  rintro ⟨hlow, hhigh⟩
  rcases Cap.out_of_range h with hneg | hlarge
  · exact Int32.not_lt.mpr hlow hneg
  · exact Int32.not_lt.mpr hhigh hlarge

end Mend

/-! ## Passages -/

/-- The operands of `c` were passed, but for integers that `mend` makes those of `c`. -/
def Feed.PassesAs (feed : Feed N) (mend : Mend) (c : Batch N) (feed' : Feed N) : Prop :=
  ∃ ints notices, feed.Passes { c with ints } notices feed' ∧
    ∀ rest, mend (ints ++ rest) = (c.ints, rest)

namespace Feed

variable {feed middle feed' : Feed N} {mend other : Mend} {c d : Batch N}

/-- Operands without integers need no mending. -/
theorem Takes.passesAs (h : feed.Takes c feed') (hints : c.ints = []) :
    feed.PassesAs .none c feed' := by
  refine ⟨[], [], ?_, ?_⟩
  · rw [← hints]
    exact h
  · intro rest
    rw [hints]
    rfl

/-- Tags that are passed over have no operands. -/
theorem PassesAs.after {notices : List Notice} (hskip : feed.Passes .empty notices middle)
    (h : middle.PassesAs mend c feed') : feed.PassesAs mend c feed' := by
  obtain ⟨ints, notices', hpasses, hmend⟩ := h
  exact ⟨ints, notices ++ notices', hskip.trans hpasses, hmend⟩

/-- The tag of an operation is on none of the stacks. -/
theorem PassesAs.wire {w : WireOp N} (h : feed.PassesAs mend w.operands feed') :
    feed.PassesAs mend w.wire feed' := by
  obtain ⟨ints, notices, hpasses, hmend⟩ := h
  refine ⟨ints, notices, ?_, hmend⟩
  exact ⟨hpasses.ints, hpasses.reals, hpasses.texts, hpasses.natives, hpasses.skippedOps,
    hpasses.skippedSegments, hpasses.notices⟩

theorem PassesAs.append (h : feed.PassesAs mend c middle) (h' : middle.PassesAs other d feed') :
    feed.PassesAs (mend.andThen other) (c ++ d) feed' := by
  obtain ⟨ints, notices, hpasses, hmend⟩ := h
  obtain ⟨ints', notices', hpasses', hmend'⟩ := h'
  refine ⟨ints ++ ints', notices ++ notices', hpasses.trans hpasses', ?_⟩
  intro rest
  rw [List.append_assoc, Mend.andThen, hmend]
  show (c.ints ++ (other (ints' ++ rest)).1, (other (ints' ++ rest)).2) = _
  rw [hmend']
  rfl

end Feed

namespace Read

variable {site : Site} {feed feed' : Feed N}

/-- Where the fallback is taken, no cursor moves. -/
theorem passes_of_run_outOfRange {α : Type} {operand : Operand} {value : Int32} {fallback a : α}
    (h : (outOfRange site operand value fallback : Read N α).run feed = .ok a feed') :
    a = fallback ∧ ∃ notices, feed.Passes .empty notices feed' := by
  obtain ⟨policy, position, kind⟩ := site
  cases policy with
  | reject => cases h
  | skip =>
    cases h
    exact ⟨rfl, _, feed.passes_empty [.outOfRange operand value position]⟩

theorem passes_of_run_unknownSegment {tag : Int32}
    (h : (unknownSegment site tag : Read N Unit).run feed = .ok () feed') :
    ∃ notices, feed.Passes .empty notices feed' := by
  obtain ⟨policy, position, kind⟩ := site
  cases policy with
  | reject => cases h
  | skip =>
    cases h
    exact ⟨_, feed.passes_empty [.unknownSegment tag position]⟩

/-- What a count stands for is what the mended count stands for. -/
theorem passes_of_run_countOf {operand : Operand} {word : Int32} {n : Nat}
    (h : (countOf site operand word : Read N Nat).run feed = .ok n feed') :
    n = (Mend.count word).toNatClampNeg ∧ ∃ notices, feed.Passes .empty notices feed' := by
  unfold countOf at h
  unfold Mend.count
  by_cases hneg : word < 0
  · rw [if_pos hneg] at h ⊢
    exact passes_of_run_outOfRange h
  · rw [if_neg hneg] at h ⊢
    obtain ⟨rfl, rfl⟩ := run_pure_eq_ok_iff.mp h
    exact ⟨rfl, [], Feed.Takes.refl _⟩

theorem passes_of_run_cap {c : Cap} (h : (cap site).run feed = .ok c feed') :
    ∃ code notices, Mend.cap code = c.code ∧ feed.Passes { ints := [code] } notices feed' := by
  simp only [cap, run_bind_eq_ok_iff, run_int_eq_ok_iff] at h
  obtain ⟨code, middle, hcode, h⟩ := h
  cases hof : Cap.ofCode? code with
  | none =>
    rw [hof] at h
    obtain ⟨rfl, notices, hpasses⟩ := passes_of_run_outOfRange h
    exact ⟨code, notices, Mend.cap_of_unknown hof, Feed.Passes.trans hcode hpasses⟩
  | some found =>
    rw [hof] at h
    obtain ⟨rfl, rfl⟩ := run_pure_eq_ok_iff.mp h
    obtain rfl := Cap.ofCode?_eq_some_iff.mp hof
    exact ⟨found.code, [], Mend.cap_code found, hcode⟩

/-- Unless it is a miter join without a limit, a join is the one that its code stands
    for. -/
theorem code_of_run_join {code : Int32} {j : Join} {limit : Option Float} {middle : Feed N}
    (h : (join site code).run feed = .ok j middle)
    (hlimit : (miterLimit site code).run middle = .ok limit feed')
    (hmiter : j = .miter → limit ≠ none) : j.code = code ∧ feed = middle := by
  unfold join at h
  cases hof : Join.ofCode? code with
  | none =>
    rw [hof] at h
    obtain ⟨rfl, -⟩ := passes_of_run_outOfRange h
    -- An unknown code is not the one with a limit behind it.
    have hcode : code ≠ Join.miter.code := by
      rintro rfl
      rw [Join.ofCode?_code] at hof
      cases hof
    rw [miterLimit, if_neg hcode] at hlimit
    obtain ⟨hnone, -⟩ := run_pure_eq_ok_iff.mp hlimit
    exact absurd hnone.symm (hmiter rfl)
  | some found =>
    rw [hof] at h
    obtain ⟨rfl, rfl⟩ := run_pure_eq_ok_iff.mp h
    exact ⟨Join.ofCode?_eq_some_iff.mp hof, rfl⟩

/-! ## Strokes and shapes -/

theorem passesAs_of_run_stroke {style : StrokeStyle}
    (h : (stroke site).run feed = .ok style feed')
    (hmiter : style.join = .miter → style.miterLimit ≠ none) :
    ∃ w : WireStroke, w.toStyle = style ∧ feed.PassesAs .stroke w.operands feed' := by
  simp only [stroke, run_bind_eq_ok_iff, run_real_eq_ok_iff, run_int_eq_ok_iff,
    run_reals_eq_ok_iff, run_dashOffset_eq_ok_iff, run_pure_eq_ok_iff] at h
  obtain ⟨width, f₁, hwidth, word, f₂, hword, count, f₃, hcount, dash, f₄, ⟨hlength, hdash⟩,
    offset, f₅, ⟨found, hfound, rfl, hoffset⟩, cap, f₆, hcap, code, f₇, hcode, join, f₈, hjoin,
    limit, f₉, hlimit, rfl, rfl⟩ := h
  obtain ⟨rfl, m, hcount⟩ := passes_of_run_countOf hcount
  obtain ⟨capCode, n, hcap_code, hcap⟩ := passes_of_run_cap hcap
  obtain ⟨rfl, rfl⟩ := code_of_run_join hjoin hlimit hmiter
  obtain ⟨hlimit_iff, hlimit⟩ := run_miterLimit_eq_ok_iff.mp hlimit
  obtain ⟨hfits, hcountWord⟩ := Mend.count_fits word
  rw [← hlength] at hfits hcountWord hfound
  have hoffset_iff : found.isSome ↔ dash ≠ [] := by
    rw [hfound, ne_eq, List.length_eq_zero_iff]
  let w : WireStroke :=
    ⟨width, dash, found, cap, join, limit, hfits, hoffset_iff, hlimit_iff⟩
  have hdashes := (Feed.Passes.trans (hwidth.trans hword) hcount).trans hdash
  have hpasses := (((hdashes.trans hoffset).trans hcap).trans hcode).trans hlimit
  have hbatch : { (w.operands : Batch N) with ints := [word, capCode, join.code] } =
      { reals := [width] } ++ { ints := [word] } ++ .empty ++ { reals := dash } ++
        { reals := found.toList } ++ { ints := [capCode] } ++ { ints := [join.code] } ++
        { reals := limit.toList } := by
    ext1 <;> simp [w, WireStroke.operands]
  refine ⟨w, rfl, [word, capCode, join.code], _, hbatch ▸ hpasses, ?_⟩
  intro rest
  show ([Mend.count word, Mend.cap capCode, join.code], rest) = _
  rw [← hcountWord, hcap_code]
  rfl

/-- A segment that is passed over is a tag that mending drops. -/
theorem passes_of_run_segment? {found : Option Segment}
    (h : (segment? site).run feed = .ok found feed') :
    ∃ tag notices,
      feed.Passes { segmentsWire found.toList with ints := [tag] } notices feed' ∧
      [tag].filter SegmentKind.knows = found.toList.map (·.kind.tag) := by
  simp only [segment?, run_bind_eq_ok_iff, run_int_eq_ok_iff] at h
  obtain ⟨tag, middle, htag, h⟩ := h
  cases hof : SegmentKind.ofTag? tag with
  | none =>
    rw [hof] at h
    obtain ⟨_, _, hunknown, hpure⟩ := run_bind_eq_ok_iff.mp h
    obtain ⟨rfl, rfl⟩ := run_pure_eq_ok_iff.mp hpure
    obtain ⟨notices, hpasses⟩ := passes_of_run_unknownSegment hunknown
    refine ⟨tag, notices, Feed.Passes.trans htag hpasses, ?_⟩
    simp [SegmentKind.knows, hof]
  | some kind =>
    -- Behind a known tag the policy is not looked at.
    have hstrict : (segment? { site with policy := .reject } : Read N (Option Segment)).run feed =
        .ok found feed' := by
      simp only [segment?, run_bind_eq_ok_iff, run_int_eq_ok_iff]
      refine ⟨tag, middle, htag, ?_⟩
      rw [hof] at h ⊢
      cases kind <;> exact h
    obtain ⟨segment, rfl, htakes⟩ := (run_segment?_eq_ok_iff rfl).mp hstrict
    have hwire : { (segmentsWire [segment] : Batch N) with ints := [segment.kind.tag] } =
        segment.wire := by
      ext1 <;> simp [segmentsWire, Segment.wire]
    refine ⟨segment.kind.tag, [], hwire ▸ htakes, ?_⟩
    simp [SegmentKind.knows]

/-- Of the tags of segments, the unknown ones are dropped. -/
theorem passes_of_run_segments {n : Nat} {ss : List Segment}
    (h : (segments site n).run feed = .ok ss feed') :
    ∃ tags notices, feed.Passes { segmentsWire ss with ints := tags } notices feed' ∧
      tags.length = n ∧ tags.filter SegmentKind.knows = ss.map (·.kind.tag) := by
  induction n generalizing feed feed' ss with
  | zero =>
    obtain ⟨rfl, rfl⟩ := run_pure_eq_ok_iff.mp h
    exact ⟨[], [], Feed.Takes.refl _, rfl, rfl⟩
  | succ n ih =>
    simp only [segments, run_bind_eq_ok_iff, run_pure_eq_ok_iff] at h
    obtain ⟨found, middle, hfirst, others, _, hothers, rfl, rfl⟩ := h
    obtain ⟨tag, m, hpasses, htag⟩ := passes_of_run_segment? hfirst
    obtain ⟨tags, n, hpasses', rfl, htags⟩ := ih hothers
    have hwire : { (segmentsWire (found.toList ++ others) : Batch N) with ints := tag :: tags } =
        { segmentsWire found.toList with ints := [tag] } ++
          { segmentsWire others with ints := tags } := by
      ext1 <;> simp [segmentsWire]
    refine ⟨tag :: tags, m ++ n, hwire ▸ hpasses.trans hpasses', rfl, ?_⟩
    rw [List.map_append, ← htag, ← htags, ← List.filter_append]
    rfl

theorem passesAs_of_run_shape {shape : Shape}
    (h : (Read.shape site).run feed = .ok shape feed') :
    ∃ w : WireShape, w.toShape = shape ∧ feed.PassesAs .shape w.operands feed' := by
  simp only [Read.shape, run_bind_eq_ok_iff, run_int_eq_ok_iff] at h
  obtain ⟨word, middle, hword, h⟩ := h
  by_cases hmark : word = rectMark
  · rw [if_pos hmark] at h
    simp only [run_bind_eq_ok_iff, run_rect_eq_ok_iff, run_pure_eq_ok_iff] at h
    obtain ⟨_, _, ⟨f, rfl, hframe⟩, rfl, rfl⟩ := h
    subst hmark
    refine ⟨.frame f, rfl, [rectMark], [], hword.trans hframe, ?_⟩
    intro rest
    rw [List.singleton_append, Mend.shape, if_pos rfl]
    rfl
  · rw [if_neg hmark] at h
    simp only [run_bind_eq_ok_iff, run_pure_eq_ok_iff] at h
    obtain ⟨n, _, hcount, ss, _, hss, rfl, rfl⟩ := h
    obtain ⟨rfl, m, hcount⟩ := passes_of_run_countOf hcount
    obtain ⟨tags, m', hss, hlength, htags⟩ := passes_of_run_segments hss
    -- As many tags are known as there are segments.
    have hknown : tags.countP SegmentKind.knows = ss.length := by
      rw [List.countP_eq_length_filter, htags, List.length_map]
    have hsplit : tags.length =
        tags.countP SegmentKind.knows + tags.countP fun tag => !SegmentKind.knows tag := by
      simpa using List.length_eq_countP_add_countP SegmentKind.knows
    have hfits : ss.length ≤ maxCount := by
      have hcount_fits := (Mend.count_fits word).1
      omega
    refine ⟨.path ss hfits, rfl, word :: tags, _, (Feed.Passes.trans hword hcount).trans hss, ?_⟩
    intro rest
    have hleft : tags.length - tags.countP (fun tag => !SegmentKind.knows tag) = ss.length := by
      omega
    simp only [List.cons_append, Mend.shape, if_neg hmark, ← hlength, List.take_left,
      List.drop_left, hleft, htags]
    rfl

end Read

/-! ## Operations -/

/-- Whether operations of a kind have no integers. -/
def OpKind.isPlain (kind : OpKind) : Bool := kind != .setStroke && !kind.hasShape

theorem OpKind.mend_of_isPlain {kind : OpKind} (h : kind.isPlain = true) : kind.mend = .none := by
  cases kind <;> first | rfl | cases h

theorem WireOp.ints_of_isPlain {w : WireOp N} (h : w.kind.isPlain = true) :
    w.operands.ints = [] := by
  cases w <;> first | rfl | cases h

namespace Read

variable {feed feed' : Feed N}

/-- Where there are no integers, the policy is not looked at. -/
theorem op_skip_eq_reject {position : Nat} {kind : OpKind} (h : kind.isPlain = true) :
    (Read.op ⟨.skip, position, kind⟩ : Read N (Op N)) = Read.op ⟨.reject, position, kind⟩ := by
  cases kind <;> first | rfl | cases h

/-- What the tolerant reader returns is meant by a wire operation, and mending makes the
    integers of that one out of those that were read. -/
theorem passesAs_of_run_op {position : Nat} {kind : OpKind} {op : Op N}
    (h : (Read.op ⟨.skip, position, kind⟩).run feed = .ok op feed')
    (hmiter : ∀ style, op = .setStroke style → style.join = .miter → style.miterLimit ≠ none) :
    ∃ w : WireOp N, w.kind = kind ∧ w.toOp = op ∧ feed.PassesAs kind.mend w.operands feed' := by
  cases hplain : kind.isPlain with
  | true =>
    rw [op_skip_eq_reject hplain] at h
    obtain ⟨w, rfl, rfl, htakes⟩ := exists_wireOp_of_run_op rfl h
    refine ⟨w, rfl, rfl, ?_⟩
    rw [OpKind.mend_of_isPlain hplain]
    exact htakes.passesAs (WireOp.ints_of_isPlain hplain)
  | false =>
    cases kind with
    | setStroke =>
      obtain ⟨style, hrun, rfl⟩ := run_map_eq_ok_iff.mp h
      obtain ⟨w, rfl, hpasses⟩ := passesAs_of_run_stroke hrun (hmiter style rfl)
      exact ⟨.setStroke w, rfl, rfl, hpasses⟩
    | strokeShape =>
      obtain ⟨_, hrun, rfl⟩ := run_map_eq_ok_iff.mp h
      obtain ⟨w, rfl, hpasses⟩ := passesAs_of_run_shape hrun
      exact ⟨.strokeShape w, rfl, rfl, hpasses⟩
    | fillShape =>
      obtain ⟨_, hrun, rfl⟩ := run_map_eq_ok_iff.mp h
      obtain ⟨w, rfl, hpasses⟩ := passesAs_of_run_shape hrun
      exact ⟨.fillShape w, rfl, rfl, hpasses⟩
    | clipShape =>
      obtain ⟨_, hrun, rfl⟩ := run_map_eq_ok_iff.mp h
      obtain ⟨w, rfl, hpasses⟩ := passesAs_of_run_shape hrun
      exact ⟨.clipShape w, rfl, rfl, hpasses⟩
    | _ => cases hplain

/-- The operations of a tolerated stretch are meant by wire operations with its known tags. -/
theorem passesAs_of_run_instructions {position : Nat} {tags : List Int32} {ops : List (Op N)}
    (h : (instructions .skip position tags).run feed = .ok ops feed')
    (hmiter : ∀ style, .setStroke style ∈ ops → style.join = .miter → style.miterLimit ≠ none) :
    ∃ ws : List (WireOp N),
      ws.map (·.kind.tag) = tags.filter OpKind.knows ∧
      ws.map WireOp.toOp = ops ∧
      feed.PassesAs (Mend.all (tags.filterMap OpKind.ofTag?)) (serialise ws) feed' := by
  induction tags generalizing position feed ops with
  | nil =>
    obtain ⟨rfl, rfl⟩ := run_pure_eq_ok_iff.mp h
    exact ⟨[], rfl, rfl, (Feed.Takes.refl _).passesAs rfl⟩
  | cons tag tags ih =>
    simp only [instructions, run_bind_eq_ok_iff, run_pure_eq_ok_iff] at h
    obtain ⟨first, middle, hfirst, others, _, hothers, rfl, rfl⟩ := h
    obtain ⟨ws, htags, rfl, hws⟩ := ih hothers fun style hstyle =>
      hmiter style (List.mem_append_right _ hstyle)
    cases htag : OpKind.ofTag? tag with
    | none =>
      obtain ⟨-, rfl, hskip⟩ := (run_instruction?_unknown_eq_ok_iff htag).mp hfirst
      rw [List.filter_cons_of_neg (by simp [OpKind.knows, htag]), List.filterMap_cons_none htag]
      exact ⟨ws, htags, rfl, hws.after hskip⟩
    | some kind =>
      rw [instruction?, htag] at hfirst
      obtain ⟨op, hop, rfl⟩ := run_map_eq_ok_iff.mp hfirst
      obtain ⟨w, rfl, rfl, hw⟩ := passesAs_of_run_op hop fun style hstyle =>
        hmiter style (List.mem_cons.mpr (.inl hstyle.symm))
      rw [List.filter_cons_of_pos (by simp [OpKind.knows, htag]), List.filterMap_cons_some htag]
      refine ⟨w :: ws, ?_, rfl, hw.wire.append hws⟩
      rw [List.map_cons, htags, OpKind.ofTag?_eq_some_iff.mp htag]

end Read

/-! ## Batches -/

namespace Batch

variable {b : Batch N} {p : Program N}

@[simp] theorem stack_strict_of_ne {s : Stack} (h : s ≠ .int) (b : Batch N) :
    b.strict.stack s = b.stack s := by
  cases s <;> first | rfl | exact absurd rfl h

/-- What mending has made the operands of `c` can be taken from the strict batch, and the
    same is left behind them. -/
theorem exists_takes_strict {c : Batch N} {last : Feed N}
    (h : (Feed.ofBatch b).PassesAs (Mend.all (b.tags.filterMap OpKind.ofTag?)) c last) :
    ∃ feed, (Feed.ofBatch b.strict).Takes c feed ∧
      (∀ s, (feed.cursor s).rest = (last.cursor s).rest) ∧
      ∀ s, s ≠ .int → (feed.cursor s).position = (last.cursor s).position := by
  obtain ⟨ints, notices, hpasses, hmend⟩ := h
  have hothers : ∀ s, s ≠ .int → ({ c with ints } : Batch N).stack s = c.stack s := by
    intro s hs
    cases s <;> first | rfl | exact absurd rfl hs
  have hstack : ∀ s, b.strict.stack s = c.stack s ++ (last.cursor s).rest := by
    intro s
    by_cases hs : s = .int
    · subst hs
      have hints : b.ints = ints ++ last.ints.rest := hpasses.stack_eq .int
      show (Mend.all _ b.ints).1 ++ (Mend.all _ b.ints).2 = _
      rw [hints, hmend]
      rfl
    · rw [stack_strict_of_ne hs, hpasses.stack_eq s, hothers s hs]
  obtain ⟨feed, htakes⟩ : ∃ feed, (Feed.ofBatch b.strict).Takes c feed := by
    refine Feed.exists_passes [] fun s => ?_
    rw [Feed.cursor_ofBatch, Cursor.ofList, hstack s]
    exact List.prefix_append _ _
  refine ⟨feed, htakes, ?_, ?_⟩
  · intro s
    have hfeed := htakes.stack_eq s
    rw [hstack s] at hfeed
    exact (List.append_cancel_left hfeed).symm
  · intro s hs
    rw [htakes.position_ofBatch, hpasses.position_ofBatch, hothers s hs]

/-- Every tolerated batch has a strict equivalent, unless a miter join without a limit came
    of it. The strict batch means the same; of the integers that are read, those of unknown
    segments are missing, and all others are as many and in the same place. -/
theorem decode_strict (h : b.decode .skip = .ok p)
    (hmiter : ∀ style, .setStroke style ∈ p.ops → style.join = .miter →
      style.miterLimit ≠ none) :
    ∃ q, b.strict.decode .reject = .ok q ∧ q.ops = p.ops ∧
      (∀ s, s ≠ .int → q.stats.consumed.of s = p.stats.consumed.of s) ∧
      q.stats.remaining = p.stats.remaining ∧
      b.strict.ints.drop q.stats.consumed.ints = b.ints.drop p.stats.consumed.ints ∧
      q.stats.consumed.ints + p.stats.skippedSegments = p.stats.consumed.ints := by
  obtain ⟨last, hrun, hstats⟩ := decode_eq_ok_iff.mp h
  obtain ⟨ws, htags, hops, hpassesAs⟩ := Read.passesAs_of_run_instructions hrun hmiter
  obtain ⟨feed, htakes, hrest, hposition⟩ := exists_takes_strict hpassesAs
  have hq : b.strict.decode .reject = .ok ⟨p.ops, feed.stats ⟨b.strict.tags.length, []⟩⟩ :=
    decode_reject_eq_ok_iff.mpr ⟨ws, feed, htags, hops, htakes, rfl⟩
  refine ⟨_, hq, rfl, ?_, ?_, ?_, ?_⟩
  · intro s hs
    rw [hstats, Feed.consumed_stats_of, Feed.consumed_stats_of, hposition s hs]
  · rw [hstats]
    refine Sizes.ext_of rfl fun s => ?_
    rw [Feed.remaining_stats_of, Feed.remaining_stats_of, hrest s]
  · obtain ⟨_, _, hpasses, -⟩ := hpassesAs
    have hleft := htakes.drop_eq .int
    have hleft' := hpasses.drop_eq .int
    rw [hrest .int] at hleft
    rw [hstats]
    exact hleft.trans hleft'.symm
  · -- The integers read are accounted for alike, but for the tags of unknown segments.
    have hints := (accounts_of_decode h).ints
    have hstrict_ints := (accounts_of_decode hq).ints
    have hnone : feed.skippedSegments = 0 := htakes.skippedSegments
    rw [hints, hstrict_ints]
    show _ + feed.skippedSegments + _ = _
    rw [hnone, Nat.add_zero]

/-- An unknown tag; a miter stroke with a negative dash count and no cap, a path with an
    unknown segment, one of less than no segments; and spare operands. -/
def ragged : Batch Nat where
  tags := [99, 3, 6, 5]
  ints := [-5, 7, 2, 2, 9, 3, -2, 42]
  reals := [2.0, 4.0, 1.5]

/-- The miter join has its limit, so nothing stands in the way. -/
theorem decode_strict_ragged :
    ragged.strict =
      { tags := [3, 6, 5], ints := [0, 2, 2, 1, 3, 0, 42], reals := [2.0, 4.0, 1.5] } ∧
    ∃ q, ragged.strict.decode .reject = .ok q ∧
      q.ops =
        [.setStroke ⟨2.0, [], 0.0, .square, .miter, some 4.0⟩, .fillShape (.path [.close]),
          .strokeShape (.path [])] ∧
      q.stats.remaining = { ints := 1, reals := 1 } ∧ q.stats.consumed.ints + 1 = 7 := by
  -- The tolerant run, instruction by instruction.
  have hstart : (Read.instructions .skip 0 []).run (.ofBatch ragged) =
      .ok [] (.ofBatch ragged) := rfl
  have hunknown : (Read.instruction? .skip 0 99).run (.ofBatch ragged) =
      .ok none { Feed.ofBatch ragged with skippedOps := 1, notices := [.unknownOp 99 0] } := rfl
  let notices : List Notice :=
    [.unknownOp 99 0, .outOfRange .dashCount (-5) 1, .outOfRange .lineCap 7 1]
  have hstroke : (Read.instruction? .skip 1 3).run
        { Feed.ofBatch ragged with skippedOps := 1, notices := [.unknownOp 99 0] } =
      .ok (some (.setStroke ⟨2.0, [], 0.0, .square, .miter, some 4.0⟩))
        ⟨⟨3, [2, 9, 3, -2, 42]⟩, ⟨2, [1.5]⟩, ⟨0, []⟩, ⟨0, []⟩, 1, 0, notices⟩ := rfl
  have hfill : (Read.instruction? .skip 2 6).run
        ⟨⟨3, [2, 9, 3, -2, 42]⟩, ⟨2, [1.5]⟩, ⟨0, []⟩, ⟨0, []⟩, 1, 0, notices⟩ =
      .ok (some (.fillShape (.path [.close])) : Option (Op Nat))
        ⟨⟨6, [-2, 42]⟩, ⟨2, [1.5]⟩, ⟨0, []⟩, ⟨0, []⟩, 1, 1, notices ++ [.unknownSegment 9 2]⟩ :=
    rfl
  have hlast : (Read.instruction? .skip 3 5).run
        ⟨⟨6, [-2, 42]⟩, ⟨2, [1.5]⟩, ⟨0, []⟩, ⟨0, []⟩, 1, 1, notices ++ [.unknownSegment 9 2]⟩ =
      .ok (some (.strokeShape (.path [])) : Option (Op Nat))
        ⟨⟨7, [42]⟩, ⟨2, [1.5]⟩, ⟨0, []⟩, ⟨0, []⟩, 1, 1,
          notices ++ [.unknownSegment 9 2, .outOfRange .segmentCount (-2) 3]⟩ :=
    rfl
  have hstrokes := Read.run_concat (Read.run_concat hstart hunknown) hstroke
  have hrun := Read.run_concat (Read.run_concat hstrokes hfill) hlast
  have hdecode : ragged.decode .skip =
      .ok ⟨[.setStroke ⟨2.0, [], 0.0, .square, .miter, some 4.0⟩, .fillShape (.path [.close]),
          .strokeShape (.path [])],
        { skippedOps := 1, skippedSegments := 1,
          consumed := { tags := 4, ints := 7, reals := 2 },
          remaining := { ints := 1, reals := 1 } }⟩ :=
    decode_eq_ok_iff.mpr ⟨_, hrun, rfl⟩
  obtain ⟨q, hq, hops, -, hremaining, -, hints⟩ := decode_strict hdecode (by simp)
  exact ⟨rfl, q, hq, hops, hremaining, hints⟩

end Batch

end BatchDraw
