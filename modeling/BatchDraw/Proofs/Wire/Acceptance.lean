/-
  BatchDraw.Proofs.Wire.Acceptance

  What the strict reader accepts.

  Under `Policy.reject` every reader that branches on its entries accepts exactly
  the layouts of `BatchDraw.Proofs.Wire.Grammar`: it succeeds when the feed
  begins with a layout of the grammar, takes that layout, and returns what is
  meant by it. Both directions are proved together, reader by reader, so the
  statement for all instructions (`Read.run_instructions_reject_eq_ok_iff`) is an
  induction over their tags and nothing else.
-/
import BatchDraw.Proofs.Wire.Grammar
import BatchDraw.Proofs.Wire.Passage

namespace BatchDraw

variable {N : Type} {site : Site} {feed feed' : Feed N}

/-- Taking a layout leaves the instruction tags out of account. -/
theorem Feed.takes_wire_append_iff {w : WireOp N} {b : Batch N} :
    feed.Takes (w.wire ++ b) feed' ↔
      ∃ middle, feed.Takes w.operands middle ∧ middle.Takes b feed' := by
  rw [Feed.takes_append_iff]
  simp only [Feed.takes_iff]
  rfl

/-! ## Optional operands -/

namespace Read

/-- The dash offset is there behind a positive count, and zero otherwise. -/
theorem run_dashOffset_eq_ok_iff {count : Nat} {offset : Float} :
    (dashOffset site count).run feed = .ok offset feed' ↔
      ∃ found : Option Float, (found.isSome ↔ count ≠ 0) ∧ found.getD 0.0 = offset ∧
        feed.Takes { reals := found.toList } feed' := by
  unfold dashOffset
  by_cases hcount : count = 0
  · rw [if_pos hcount, run_pure_eq_ok_iff]
    refine ⟨?_, ?_⟩
    · intro h
      obtain ⟨rfl, rfl⟩ := h
      exact ⟨none, by simp [hcount], rfl, .refl feed⟩
    · intro h
      obtain ⟨found, hfound, rfl, htakes⟩ := h
      obtain rfl : found = none := by simpa [hcount] using hfound
      exact ⟨rfl, Feed.takes_empty_iff.mp htakes⟩
  · rw [if_neg hcount, run_real_eq_ok_iff]
    refine ⟨?_, ?_⟩
    · intro htakes
      exact ⟨some offset, by simp [hcount], rfl, htakes⟩
    · intro h
      obtain ⟨found, hfound, rfl, htakes⟩ := h
      obtain ⟨x, rfl⟩ := Option.isSome_iff_exists.mp (hfound.mpr hcount)
      exact htakes

/-- The miter limit is there behind the code of a miter join. -/
theorem run_miterLimit_eq_ok_iff {join : Join} {limit : Option Float} :
    (miterLimit site join.code).run feed = .ok limit feed' ↔
      (limit.isSome ↔ join = .miter) ∧ feed.Takes { reals := limit.toList } feed' := by
  unfold miterLimit
  by_cases hjoin : join = .miter
  · rw [if_pos (Join.code_inj.mpr hjoin), run_map_eq_ok_iff]
    simp only [run_real_eq_ok_iff]
    refine ⟨?_, ?_⟩
    · intro h
      obtain ⟨x, htakes, rfl⟩ := h
      exact ⟨by simp [hjoin], htakes⟩
    · intro h
      obtain ⟨hlimit, htakes⟩ := h
      obtain ⟨x, rfl⟩ := Option.isSome_iff_exists.mp (hlimit.mpr hjoin)
      exact ⟨x, htakes, rfl⟩
  · rw [if_neg (fun hcode => hjoin (Join.code_inj.mp hcode)), run_pure_eq_ok_iff]
    refine ⟨?_, ?_⟩
    · intro h
      obtain ⟨rfl, rfl⟩ := h
      exact ⟨by simp [hjoin], .refl feed⟩
    · intro h
      obtain ⟨hlimit, htakes⟩ := h
      obtain rfl : limit = none := by simpa [hjoin] using hlimit
      exact ⟨rfl, Feed.takes_empty_iff.mp htakes⟩

/-! ## Counts and codes -/

section Strict

variable (hsite : site.policy = .reject)
include hsite

/-- A strict reader has no use for a fallback. -/
theorem run_outOfRange_ne_ok {α : Type} {operand : Operand} {value : Int32}
    {fallback a : α} :
    (outOfRange site operand value fallback : Read N α).run feed ≠ .ok a feed' := by
  simp [EStateM.run, outOfRange, hsite]

theorem run_countOf_eq_ok_iff {operand : Operand} {word : Int32} {n : Nat} :
    (countOf site operand word : Read N Nat).run feed = .ok n feed' ↔
      (n ≤ maxCount ∧ countWord n = word) ∧ feed = feed' := by
  rw [countWord_eq_iff]
  unfold countOf
  by_cases hneg : word < 0
  · rw [if_pos hneg]
    have hnot : ¬ (0 : Int32) ≤ word := Int32.not_le.mpr hneg
    refine ⟨fun h => absurd h (run_outOfRange_ne_ok hsite), ?_⟩
    intro h
    obtain ⟨⟨hnonneg, -⟩, -⟩ := h
    exact absurd hnonneg hnot
  · have hnonneg : (0 : Int32) ≤ word := Int32.not_lt.mp hneg
    rw [if_neg hneg, run_pure_eq_ok_iff]
    simp only [hnonneg, true_and]

theorem run_cap_eq_ok_iff {c : Cap} :
    (cap site).run feed = .ok c feed' ↔ feed.Takes { ints := [c.code] } feed' := by
  simp only [cap, run_bind_eq_ok_iff, run_int_eq_ok_iff]
  refine ⟨?_, ?_⟩
  · intro h
    obtain ⟨code, f₁, hcode, h⟩ := h
    -- A code without a cap would be out of range, which a strict reader refuses.
    cases hof : Cap.ofCode? code with
    | none =>
      rw [hof] at h
      exact absurd h (run_outOfRange_ne_ok hsite)
    | some c' =>
      rw [hof] at h
      obtain ⟨rfl, rfl⟩ := run_pure_eq_ok_iff.mp h
      rwa [Cap.ofCode?_eq_some_iff.mp hof]
  · intro h
    refine ⟨c.code, feed', h, ?_⟩
    rw [Cap.ofCode?_code]
    rfl

theorem run_join_eq_ok_iff {code : Int32} {j : Join} :
    (join site code).run feed = .ok j feed' ↔ j.code = code ∧ feed = feed' := by
  unfold join
  cases hof : Join.ofCode? code with
  | none =>
    refine ⟨fun h => absurd h (run_outOfRange_ne_ok hsite), ?_⟩
    intro h
    obtain ⟨hcode, -⟩ := h
    rw [Join.ofCode?_eq_some_iff.mpr hcode] at hof
    cases hof
  | some j' =>
    have hcode : j'.code = code := Join.ofCode?_eq_some_iff.mp hof
    show (pure j' : Read N Join).run feed = .ok j feed' ↔ _
    rw [run_pure_eq_ok_iff, ← hcode, Join.code_inj, eq_comm (a := j)]

/-! ## Strokes and shapes -/

theorem run_stroke_eq_ok_iff {style : StrokeStyle} :
    (stroke site).run feed = .ok style feed' ↔
      ∃ w : WireStroke, w.toStyle = style ∧ feed.Takes w.operands feed' := by
  simp only [stroke, run_bind_eq_ok_iff, run_real_eq_ok_iff, run_int_eq_ok_iff,
    run_countOf_eq_ok_iff hsite, run_reals_eq_ok_iff, run_dashOffset_eq_ok_iff,
    run_cap_eq_ok_iff hsite, run_join_eq_ok_iff hsite, run_pure_eq_ok_iff]
  refine ⟨?_, ?_⟩
  · intro h
    obtain ⟨width, f₁, hwidth, word, f₂, hword, count, f₃, ⟨⟨hfits, rfl⟩, rfl⟩, dash, f₄,
      ⟨rfl, hdash⟩, offset, f₅, ⟨found, hfound, rfl, hoffset⟩, cap, f₆, hcap, code, f₇,
      hcode, join, f₈, ⟨rfl, rfl⟩, limit, f₉, hlimit, rfl, rfl⟩ := h
    obtain ⟨hlimit_iff, hlimit⟩ := run_miterLimit_eq_ok_iff.mp hlimit
    -- What the reader checked is what a wire stroke has to prove.
    have hoffset_iff : found.isSome ↔ dash ≠ [] := by
      rw [hfound, ne_eq, List.length_eq_zero_iff]
    refine ⟨⟨width, dash, found, cap, join, limit, hfits, hoffset_iff, hlimit_iff⟩, rfl, ?_⟩
    rw [WireStroke.operands_eq]
    exact (((((hwidth.trans hword).trans hdash).trans hoffset).trans hcap).trans hcode).trans
      hlimit
  · intro h
    obtain ⟨w, rfl, htakes⟩ := h
    rw [WireStroke.operands_eq] at htakes
    obtain ⟨f₆, htakes, hlimit⟩ := Feed.takes_append_iff.mp htakes
    obtain ⟨f₅, htakes, hcode⟩ := Feed.takes_append_iff.mp htakes
    obtain ⟨f₄, htakes, hcap⟩ := Feed.takes_append_iff.mp htakes
    obtain ⟨f₃, htakes, hoffset⟩ := Feed.takes_append_iff.mp htakes
    obtain ⟨f₂, htakes, hdash⟩ := Feed.takes_append_iff.mp htakes
    obtain ⟨f₁, hwidth, hword⟩ := Feed.takes_append_iff.mp htakes
    have hoffset_iff : w.dashOffset.isSome ↔ w.dash.length ≠ 0 := by
      rw [w.offset_iff, ne_eq, ne_eq, List.length_eq_zero_iff]
    exact ⟨_, f₁, hwidth, _, f₂, hword, _, f₂, ⟨⟨w.dash_fits, rfl⟩, rfl⟩, _, f₃, ⟨rfl, hdash⟩,
      _, f₄, ⟨w.dashOffset, hoffset_iff, rfl, hoffset⟩, _, f₅, hcap, _, f₆, hcode, _, f₆,
      ⟨rfl, rfl⟩, _, feed', run_miterLimit_eq_ok_iff.mpr ⟨w.limit_iff, hlimit⟩, rfl, rfl⟩

/-- A strict reader passes over no segment. -/
theorem run_segment?_eq_ok_iff {found : Option Segment} :
    (segment? site).run feed = .ok found feed' ↔
      ∃ s : Segment, found = some s ∧ feed.Takes s.wire feed' := by
  simp only [segment?, run_bind_eq_ok_iff, run_int_eq_ok_iff]
  refine ⟨?_, ?_⟩
  · intro h
    obtain ⟨tag, f₁, htag, h⟩ := h
    cases hof : SegmentKind.ofTag? tag with
    | none =>
      rw [hof] at h
      obtain ⟨_, f₂, hunknown, -⟩ := run_bind_eq_ok_iff.mp h
      simp [EStateM.run, unknownSegment, hsite] at hunknown
    | some kind =>
      obtain rfl : kind.tag = tag := SegmentKind.ofTag?_eq_some_iff.mp hof
      rw [hof] at h
      cases kind with
      | moveTo =>
        simp only [run_bind_eq_ok_iff, run_point_eq_ok_iff, run_pure_eq_ok_iff] at h
        obtain ⟨p, f₂, hp, rfl, rfl⟩ := h
        exact ⟨.moveTo p, rfl, htag.trans hp⟩
      | lineTo =>
        simp only [run_bind_eq_ok_iff, run_point_eq_ok_iff, run_pure_eq_ok_iff] at h
        obtain ⟨p, f₂, hp, rfl, rfl⟩ := h
        exact ⟨.lineTo p, rfl, htag.trans hp⟩
      | curveTo =>
        simp only [run_bind_eq_ok_iff, run_point_eq_ok_iff, run_pure_eq_ok_iff] at h
        obtain ⟨p, f₂, hp, q, f₃, hq, r, f₄, hr, rfl, rfl⟩ := h
        exact ⟨.curveTo p q r, rfl, ((htag.trans hp).trans hq).trans hr⟩
      | close =>
        obtain ⟨rfl, rfl⟩ := run_pure_eq_ok_iff.mp h
        exact ⟨.close, rfl, htag⟩
  · intro h
    obtain ⟨s, rfl, htakes⟩ := h
    obtain ⟨f₁, htag, hpoints⟩ := Feed.takes_append_iff.mp (s.wire_eq ▸ htakes)
    refine ⟨s.kind.tag, f₁, htag, ?_⟩
    rw [SegmentKind.ofTag?_tag]
    cases s with
    | moveTo p =>
      simp only [Segment.kind, run_bind_eq_ok_iff, run_point_eq_ok_iff, run_pure_eq_ok_iff]
      exact ⟨p, feed', hpoints, rfl, rfl⟩
    | lineTo p =>
      simp only [Segment.kind, run_bind_eq_ok_iff, run_point_eq_ok_iff, run_pure_eq_ok_iff]
      exact ⟨p, feed', hpoints, rfl, rfl⟩
    | curveTo p q r =>
      obtain ⟨f₃, hpoints, hr⟩ := Feed.takes_reals_append_iff.mp hpoints
      obtain ⟨f₂, hp, hq⟩ := Feed.takes_reals_append_iff.mp hpoints
      simp only [Segment.kind, run_bind_eq_ok_iff, run_point_eq_ok_iff, run_pure_eq_ok_iff]
      exact ⟨p, f₂, hp, q, f₃, hq, r, feed', hr, rfl, rfl⟩
    | close =>
      exact run_pure_eq_ok_iff.mpr ⟨rfl, Feed.takes_empty_iff.mp hpoints⟩

theorem run_segments_eq_ok_iff {n : Nat} {ss : List Segment} :
    (segments site n).run feed = .ok ss feed' ↔
      ss.length = n ∧ feed.Takes (segmentsWire ss) feed' := by
  -- On the count; the segments are as many as it says.
  induction n generalizing feed feed' ss with
  | zero =>
    simp only [segments, run_pure_eq_ok_iff, List.length_eq_zero_iff]
    refine ⟨?_, ?_⟩
    · intro h
      obtain ⟨rfl, rfl⟩ := h
      exact ⟨rfl, .refl feed⟩
    · intro h
      obtain ⟨rfl, h⟩ := h
      exact ⟨rfl, Feed.takes_empty_iff.mp h⟩
  | succ n ih =>
    simp only [segments, run_bind_eq_ok_iff, run_segment?_eq_ok_iff hsite,
      run_pure_eq_ok_iff, ih]
    refine ⟨?_, ?_⟩
    · intro h
      obtain ⟨found, f₁, ⟨s, rfl, hs⟩, others, f₂, ⟨hlength, hothers⟩, rfl, rfl⟩ := h
      exact ⟨congrArg (· + 1) hlength, hs.trans hothers⟩
    · intro h
      obtain ⟨hlength, h⟩ := h
      obtain ⟨s, others, rfl⟩ := List.exists_cons_of_length_eq_add_one hlength
      rw [segmentsWire_cons] at h
      obtain ⟨f₁, hs, hothers⟩ := Feed.takes_append_iff.mp h
      exact ⟨_, f₁, ⟨s, rfl, hs⟩, others, feed', ⟨Nat.succ.inj hlength, hothers⟩, rfl, rfl⟩

theorem run_shape_eq_ok_iff {shape : Shape} :
    (Read.shape site).run feed = .ok shape feed' ↔
      ∃ w : WireShape, w.toShape = shape ∧ feed.Takes w.operands feed' := by
  simp only [Read.shape, run_bind_eq_ok_iff, run_int_eq_ok_iff]
  refine ⟨?_, ?_⟩
  · intro h
    obtain ⟨word, f₁, hword, h⟩ := h
    -- The first integer tells a rectangle from a path.
    by_cases hmark : word = rectMark
    · rw [if_pos hmark] at h
      simp only [run_bind_eq_ok_iff, run_rect_eq_ok_iff, run_pure_eq_ok_iff] at h
      obtain ⟨_, f₂, ⟨f, rfl, hframe⟩, rfl, rfl⟩ := h
      subst hmark
      exact ⟨.frame f, rfl, hword.trans hframe⟩
    · rw [if_neg hmark] at h
      simp only [run_bind_eq_ok_iff, run_countOf_eq_ok_iff hsite,
        run_segments_eq_ok_iff hsite, run_pure_eq_ok_iff] at h
      obtain ⟨n, f₂, ⟨⟨hfits, rfl⟩, rfl⟩, ss, f₃, ⟨rfl, hss⟩, rfl, rfl⟩ := h
      exact ⟨.path ss hfits, rfl, hword.trans hss⟩
  · intro h
    obtain ⟨w, rfl, htakes⟩ := h
    cases w with
    | frame f =>
      rw [WireShape.operands_frame] at htakes
      obtain ⟨f₁, hword, hframe⟩ := Feed.takes_append_iff.mp htakes
      refine ⟨rectMark, f₁, hword, ?_⟩
      rw [if_pos rfl]
      simp only [run_bind_eq_ok_iff, run_rect_eq_ok_iff, run_pure_eq_ok_iff]
      exact ⟨f.toRect, feed', ⟨f, rfl, hframe⟩, rfl, rfl⟩
    | path ss fits =>
      obtain ⟨f₁, hword, hss⟩ := Feed.takes_append_iff.mp htakes
      refine ⟨countWord ss.length, f₁, hword, ?_⟩
      rw [if_neg (countWord_ne_rectMark fits)]
      simp only [run_bind_eq_ok_iff, run_countOf_eq_ok_iff hsite,
        run_segments_eq_ok_iff hsite, run_pure_eq_ok_iff]
      exact ⟨ss.length, f₁, ⟨⟨fits, rfl⟩, rfl⟩, ss, feed', ⟨rfl, hss⟩, rfl, rfl⟩

/-! ## Operations -/

/-- What the strict reader returns is meant by a wire operation of its kind. -/
theorem exists_wireOp_of_run_op {op : Op N} (h : (Read.op site).run feed = .ok op feed') :
    ∃ w : WireOp N, w.kind = site.kind ∧ w.toOp = op ∧ feed.Takes w.operands feed' := by
  unfold Read.op at h
  -- The reader is chosen by the kind; what each one took is known by now.
  cases hkind : site.kind <;> rw [hkind] at h <;>
    simp only [run_map_eq_ok_iff, run_bind_eq_ok_iff, run_pure_eq_ok_iff,
      run_native_eq_ok_iff, run_real_eq_ok_iff, run_rect_eq_ok_iff,
      run_affine_eq_ok_iff, run_textRun_eq_ok_iff, run_stroke_eq_ok_iff hsite,
      run_shape_eq_ok_iff hsite] at h
  case setFont =>
    obtain ⟨font, htakes, rfl⟩ := h
    exact ⟨.setFont font, rfl, rfl, htakes⟩
  case setPaint =>
    obtain ⟨paint, htakes, rfl⟩ := h
    exact ⟨.setPaint paint, rfl, rfl, htakes⟩
  case setStroke =>
    obtain ⟨_, ⟨w, rfl, htakes⟩, rfl⟩ := h
    exact ⟨.setStroke w, rfl, rfl, htakes⟩
  case setOpacity =>
    obtain ⟨alpha, htakes, rfl⟩ := h
    exact ⟨.setOpacity alpha, rfl, rfl, htakes⟩
  case strokeShape =>
    obtain ⟨_, ⟨w, rfl, htakes⟩, rfl⟩ := h
    exact ⟨.strokeShape w, rfl, rfl, htakes⟩
  case fillShape =>
    obtain ⟨_, ⟨w, rfl, htakes⟩, rfl⟩ := h
    exact ⟨.fillShape w, rfl, rfl, htakes⟩
  case clipShape =>
    obtain ⟨_, ⟨w, rfl, htakes⟩, rfl⟩ := h
    exact ⟨.clipShape w, rfl, rfl, htakes⟩
  case drawImageRect =>
    obtain ⟨image, f₁, himage, _, f₂, ⟨source, rfl, hsource⟩, _, f₃,
      ⟨target, rfl, htarget⟩, rfl, rfl⟩ := h
    exact ⟨.drawImageRect image source target, rfl, rfl,
      himage.trans (hsource.trans htarget)⟩
  case drawImage =>
    obtain ⟨image, f₁, himage, m, f₂, hm, rfl, rfl⟩ := h
    exact ⟨.drawImage image m, rfl, rfl, himage.trans hm⟩
  case fillText =>
    obtain ⟨run, htakes, rfl⟩ := h
    exact ⟨.fillText run, rfl, rfl, htakes⟩
  case strokeText =>
    obtain ⟨run, htakes, rfl⟩ := h
    exact ⟨.strokeText run, rfl, rfl, htakes⟩
  case transform =>
    obtain ⟨m, htakes, rfl⟩ := h
    exact ⟨.transform m, rfl, rfl, htakes⟩
  case setTransform =>
    obtain ⟨m, htakes, rfl⟩ := h
    exact ⟨.setTransform m, rfl, rfl, htakes⟩
  case save =>
    obtain ⟨rfl, rfl⟩ := h
    exact ⟨.save, rfl, rfl, .refl feed⟩
  case restore =>
    obtain ⟨rfl, rfl⟩ := h
    exact ⟨.restore, rfl, rfl, .refl feed⟩
  case clearRect =>
    obtain ⟨_, ⟨f, rfl, htakes⟩, rfl⟩ := h
    exact ⟨.clearRect f, rfl, rfl, htakes⟩
  case setImageQuality =>
    obtain ⟨level, htakes, rfl⟩ := h
    exact ⟨.setImageQuality level, rfl, rfl, htakes⟩

/-- The strict reader reads every wire operation of its kind. -/
theorem run_op_of_takes {w : WireOp N} (hkind : w.kind = site.kind)
    (htakes : feed.Takes w.operands feed') : (Read.op site).run feed = .ok w.toOp feed' := by
  unfold Read.op
  rw [← hkind]
  cases w <;>
    simp only [WireOp.kind, run_map_eq_ok_iff, run_bind_eq_ok_iff, run_pure_eq_ok_iff,
      run_native_eq_ok_iff, run_real_eq_ok_iff, run_rect_eq_ok_iff,
      run_affine_eq_ok_iff, run_textRun_eq_ok_iff, run_stroke_eq_ok_iff hsite,
      run_shape_eq_ok_iff hsite]
  case setStroke w => exact ⟨_, ⟨w, rfl, htakes⟩, rfl⟩
  case strokeShape w | fillShape w | clipShape w => exact ⟨_, ⟨w, rfl, htakes⟩, rfl⟩
  case drawImageRect image source target =>
    rw [WireOp.operands_drawImageRect] at htakes
    obtain ⟨f₁, himage, htakes⟩ := Feed.takes_append_iff.mp htakes
    obtain ⟨f₂, hsource, htarget⟩ := Feed.takes_append_iff.mp htakes
    exact ⟨image, f₁, himage, _, f₂, ⟨source, rfl, hsource⟩, _, feed',
      ⟨target, rfl, htarget⟩, rfl, rfl⟩
  case drawImage image m =>
    rw [WireOp.operands_drawImage] at htakes
    obtain ⟨f₁, himage, hm⟩ := Feed.takes_append_iff.mp htakes
    exact ⟨image, f₁, himage, m, feed', hm, rfl, rfl⟩
  case save | restore => exact ⟨rfl, Feed.takes_empty_iff.mp htakes⟩
  case clearRect f => exact ⟨_, ⟨f, rfl, htakes⟩, rfl⟩
  all_goals exact ⟨_, htakes, rfl⟩

end Strict

/-! ## Instructions -/

theorem run_instruction?_reject_eq_ok_iff {position : Nat} {tag : Int32}
    {found : Option (Op N)} :
    (instruction? .reject position tag).run feed = .ok found feed' ↔
      ∃ w : WireOp N, w.kind.tag = tag ∧ found = some w.toOp ∧
        feed.Takes w.operands feed' := by
  unfold instruction?
  cases hof : OpKind.ofTag? tag with
  | none =>
    refine ⟨?_, ?_⟩
    · intro h
      obtain ⟨_, f₁, hunknown, -⟩ := run_bind_eq_ok_iff.mp h
      simp [EStateM.run, unknownOp] at hunknown
    · intro h
      obtain ⟨w, htag, -⟩ := h
      rw [OpKind.ofTag?_eq_some_iff.mpr htag] at hof
      cases hof
  | some kind =>
    obtain rfl : kind.tag = tag := OpKind.ofTag?_eq_some_iff.mp hof
    refine ⟨?_, ?_⟩
    · intro h
      obtain ⟨op, hop, rfl⟩ := run_map_eq_ok_iff.mp h
      obtain ⟨w, hkind, rfl, htakes⟩ := exists_wireOp_of_run_op rfl hop
      exact ⟨w, OpKind.tag_inj.mpr hkind, rfl, htakes⟩
    · intro h
      obtain ⟨w, htag, rfl, htakes⟩ := h
      have hkind : w.kind = kind := OpKind.tag_inj.mp htag
      exact run_map_eq_ok_iff.mpr ⟨w.toOp, run_op_of_takes rfl hkind htakes, rfl⟩

/-- The strict reader accepts exactly the lists of wire operations with the given
    tags, whatever position it counts from. -/
theorem run_instructions_reject_eq_ok_iff {position : Nat} {tags : List Int32}
    {ops : List (Op N)} :
    (instructions .reject position tags).run feed = .ok ops feed' ↔
      ∃ ws : List (WireOp N), ws.map (·.kind.tag) = tags ∧ ws.map WireOp.toOp = ops ∧
        feed.Takes (serialise ws) feed' := by
  -- On the tags: each of them stands for one operation, and reading goes on behind it.
  induction tags generalizing position feed feed' ops with
  | nil =>
    simp only [instructions, run_pure_eq_ok_iff, List.map_eq_nil_iff]
    refine ⟨?_, ?_⟩
    · intro h
      obtain ⟨rfl, rfl⟩ := h
      exact ⟨[], rfl, rfl, .refl feed⟩
    · intro h
      obtain ⟨ws, rfl, rfl, htakes⟩ := h
      exact ⟨rfl, Feed.takes_empty_iff.mp htakes⟩
  | cons tag tags ih =>
    simp only [instructions, run_bind_eq_ok_iff, run_instruction?_reject_eq_ok_iff,
      run_pure_eq_ok_iff, ih]
    refine ⟨?_, ?_⟩
    · intro h
      obtain ⟨found, f₁, ⟨w, rfl, rfl, hw⟩, others, f₂, ⟨ws, rfl, rfl, hws⟩, rfl, rfl⟩ := h
      refine ⟨w :: ws, rfl, rfl, ?_⟩
      rw [serialise_cons, Feed.takes_wire_append_iff]
      exact ⟨f₁, hw, hws⟩
    · intro h
      obtain ⟨ws, htags, rfl, htakes⟩ := h
      obtain ⟨w, ws, rfl, rfl, rfl⟩ := List.map_eq_cons_iff.mp htags
      rw [serialise_cons, Feed.takes_wire_append_iff] at htakes
      obtain ⟨f₁, hw, hws⟩ := htakes
      exact ⟨_, f₁, ⟨w, rfl, rfl, hw⟩, _, feed', ⟨ws, rfl, rfl, hws⟩, rfl, rfl⟩

end Read

end BatchDraw
