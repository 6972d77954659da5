/-
  BatchDraw.Proofs.Wire.Strokes

  Strokes that can be read.

  Not every stroke comes out of a batch. A stroke that does has an offset only with dashes
  and a miter limit only with a miter join, and its dashes can be counted
  (`StrokeStyle.Readable`). So writing it loses nothing, with one exception: a join out of
  its range is read as a miter join without a limit (`StrokeStyle.Unlimited`), and a miter
  join is written with one.

  Where a stroke stands in a batch is told by the operations in front of it: the batch that
  is cut off there is read to these operations, and the code of the join is the third
  integer behind what they take.
-/
import BatchDraw.Proofs.Wire.Strict
import BatchDraw.Proofs.Wire.Blame
import BatchDraw.Proofs.Wire.RoundTrip
import BatchDraw.Proofs.Wire.Policies

namespace BatchDraw

/-! ## Styles -/

namespace StrokeStyle

variable {style : StrokeStyle}

/-- A miter join that leaves the limit open. No code of a join stands for that. -/
def Unlimited (style : StrokeStyle) : Prop := style.join = .miter ∧ style.miterLimit = none

instance (style : StrokeStyle) : Decidable style.Unlimited :=
  inferInstanceAs (Decidable (style.join = .miter ∧ style.miterLimit = none))

/-- What is true of a style that was read. -/
structure Readable (style : StrokeStyle) : Prop where
  fits : style.dash.length ≤ maxCount
  offset : style.dash = [] → style.dashOffset = 0.0
  limit : style.miterLimit ≠ none → style.join = .miter

/-- The style that comes back when a style is written that was read. -/
def rewritten (style : StrokeStyle) : StrokeStyle :=
  if style.Unlimited then { style with miterLimit := some defaultMiterLimit } else style

/-- Of a style that was read, the wire carries everything but an open limit. -/
theorem Readable.carried_eq (h : style.Readable) : style.carried = style.rewritten := by
  obtain ⟨width, dash, offset, cap, join, limit⟩ := style
  obtain ⟨-, hoffset, hlimit⟩ := h
  have hdash : (if dash.isEmpty then 0.0 else offset) = offset := by
    cases dash with
    | nil => exact (hoffset rfl).symm
    | cons length dash => rfl
  unfold carried rewritten
  simp only [hdash]
  by_cases hjoin : join = .miter
  · cases limit with
    | none => rw [if_pos hjoin, if_pos ⟨hjoin, rfl⟩]; rfl
    | some limit => rw [if_pos hjoin, if_neg fun hnone => nomatch hnone.2]; rfl
  · have hnone : limit = none := Decidable.of_not_not fun hsome => hjoin (hlimit hsome)
    rw [if_neg hjoin, if_neg fun hunlimited => hjoin hunlimited.1, hnone]

theorem rewritten_of_not_unlimited (h : ¬ style.Unlimited) : style.rewritten = style :=
  if_neg h

/-- Where a style leaves the limit open, the pen keeps its own. -/
theorem Unlimited.applyTo (h : style.Unlimited) (pen : Pen) :
    (style.applyTo pen).miterLimit = pen.miterLimit := by
  rw [StrokeStyle.applyTo, h.2]
  rfl

end StrokeStyle

/-! ## Reading a stroke -/

variable {N : Type}

namespace Read

variable {site : Site} {feed feed' : Feed N}

/-- Only the tolerant reader takes a fallback. -/
theorem policy_of_run_outOfRange {α : Type} {operand : Operand} {value : Int32} {fallback a : α}
    (h : (outOfRange site operand value fallback : Read N α).run feed = .ok a feed') :
    site.policy = .skip := by
  cases hpolicy : site.policy with
  | skip => rfl
  | reject => exact absurd h (run_outOfRange_ne_ok hpolicy)

/-- What the code of a join makes of the join and the limit. -/
structure ReadsJoin (policy : Policy) (code : Int32) (join : Join) (limit : Option Float) :
    Prop where
  miter : limit ≠ none → join = .miter
  unlimited : join = .miter ∧ limit = none ↔ code < 0 ∨ 2 < code
  strict : policy = .reject → join = .miter → limit ≠ none

/-- An unknown join has no limit, and a known one has the limit that it needs. -/
theorem readsJoin_of_run {code : Int32} {j : Join} {limit : Option Float} {middle : Feed N}
    (hjoin : (join site code).run feed = .ok j middle)
    (hlimit : (miterLimit site code).run middle = .ok limit feed') :
    ReadsJoin site.policy code j limit ∧
      ∃ reals notices, feed.Passes { reals } notices feed' := by
  unfold join at hjoin
  cases hof : Join.ofCode? code with
  | none =>
    rw [hof] at hjoin
    -- The fallback is a miter join, but the code is not that of one, so no limit is read.
    have hpolicy := policy_of_run_outOfRange hjoin
    obtain ⟨rfl, notices, hpasses⟩ := passes_of_run_outOfRange hjoin
    have hcode : code ≠ Join.miter.code := by
      rintro rfl
      rw [Join.ofCode?_code] at hof
      cases hof
    rw [miterLimit, if_neg hcode] at hlimit
    obtain ⟨rfl, rfl⟩ := run_pure_eq_ok_iff.mp hlimit
    have hrange := Join.out_of_range hof
    refine ⟨⟨fun _ => rfl, ⟨fun _ => hrange, fun _ => ⟨rfl, rfl⟩⟩, ?_⟩, [], notices, hpasses⟩
    intro hreject
    rw [hpolicy] at hreject
    cases hreject
  | some found =>
    rw [hof] at hjoin
    obtain ⟨rfl, rfl⟩ := run_pure_eq_ok_iff.mp hjoin
    obtain rfl := Join.ofCode?_eq_some_iff.mp hof
    obtain ⟨hlimit_iff, htakes⟩ := run_miterLimit_eq_ok_iff.mp hlimit
    have hsome : limit ≠ none ↔ found = .miter := by
      rw [← hlimit_iff, ← Option.isSome_iff_ne_none]
    have hrange : ¬ (found.code < 0 ∨ 2 < found.code) := by
      rw [← Join.ofCode?_eq_none_iff, hof]
      exact Option.some_ne_none found
    refine ⟨⟨hsome.mp, ⟨?_, fun h => absurd h hrange⟩, fun _ => hsome.mpr⟩, _, _, htakes⟩
    rintro ⟨hmiter, hnone⟩
    exact absurd hnone (hsome.mpr hmiter)

/-- A stroke that is read takes three integers, and the last one is the code of its join. -/
theorem reads_of_run_stroke {style : StrokeStyle}
    (h : (stroke site).run feed = .ok style feed') :
    style.Readable ∧ ∃ c notices word capCode code,
      feed.Passes c notices feed' ∧ c.ints = [word, capCode, code] ∧
      ReadsJoin site.policy code style.join style.miterLimit := by
  simp only [stroke, run_bind_eq_ok_iff, run_real_eq_ok_iff, run_int_eq_ok_iff,
    run_reals_eq_ok_iff, run_dashOffset_eq_ok_iff, run_pure_eq_ok_iff] at h
  obtain ⟨width, f₁, hwidth, word, f₂, hword, count, f₃, hcount, dash, f₄, ⟨hlength, hdash⟩,
    offset, f₅, ⟨found, hfound, rfl, hoffset⟩, cap, f₆, hcap, code, f₇, hcode, join, f₈, hjoin,
    limit, f₉, hlimit, rfl, rfl⟩ := h
  obtain ⟨rfl, m, hcount⟩ := passes_of_run_countOf hcount
  obtain ⟨capCode, n, -, hcap⟩ := passes_of_run_cap hcap
  obtain ⟨hreads, limits, n', hlimits⟩ := readsJoin_of_run hjoin hlimit
  have hfits : dash.length ≤ maxCount := by
    rw [hlength]
    exact (Mend.count_fits word).1
  have hzero : dash = [] → found.getD 0.0 = 0.0 := by
    rintro rfl
    -- Without a count there is no offset to read.
    have hnone : ¬ found.isSome := by
      rw [hfound, ← hlength]
      exact fun h => h rfl
    rw [Option.not_isSome_iff_eq_none.mp hnone]
    rfl
  have hdashes := (Feed.Passes.trans (hwidth.trans hword) hcount).trans hdash
  have hpasses := ((hdashes.trans hoffset).trans hcap).trans (Feed.Passes.trans hcode hlimits)
  exact ⟨⟨hfits, hzero, hreads.miter⟩, _, _, word, capCode, code, hpasses, rfl, hreads⟩

/-- Only the tag of a stroke is read as one. -/
theorem stroke_of_run_instruction? {policy : Policy} {position : Nat} {tag : Int32}
    {style : StrokeStyle}
    (h : (instruction? policy position tag).run feed = .ok (some (.setStroke style)) feed') :
    tag = OpKind.setStroke.tag ∧
      (stroke ⟨policy, position, .setStroke⟩).run feed = .ok style feed' := by
  unfold instruction? at h
  cases htag : OpKind.ofTag? tag with
  | none =>
    rw [htag] at h
    obtain ⟨_, _, -, hpure⟩ := run_bind_eq_ok_iff.mp h
    obtain ⟨hnone, -⟩ := run_pure_eq_ok_iff.mp hpure
    cases hnone
  | some kind =>
    rw [htag] at h
    obtain ⟨op, hop, hsome⟩ := run_map_eq_ok_iff.mp h
    obtain rfl := Option.some.inj hsome
    cases kind with
    | setStroke =>
      obtain ⟨found, hrun, hfound⟩ := run_map_eq_ok_iff.mp hop
      obtain rfl := Op.setStroke.inj hfound
      exact ⟨(OpKind.ofTag?_eq_some_iff.mp htag).symm, hrun⟩
    | drawImageRect | drawImage | save | restore =>
      -- These are put together from several readers, or from none.
      simp only [Read.op, run_bind_eq_ok_iff, run_pure_eq_ok_iff, reduceCtorEq, false_and,
        and_false, exists_false] at hop
    | _ =>
      obtain ⟨_, -, hother⟩ := run_map_eq_ok_iff.mp hop
      cases hother

/-! ## Operations among others -/

/-- An operation that was read was read by an instruction, behind the operations in front
    of it. -/
theorem exists_split_of_run_ok {policy : Policy} {position : Nat} {tags : List Int32}
    {front back : List (Op N)} {op : Op N}
    (h : (instructions policy position tags).run feed = .ok (front ++ op :: back) feed') :
    ∃ before tag after middle behind, tags = before ++ tag :: after ∧
      (instructions policy position before).run feed = .ok front middle ∧
      (instruction? policy (position + before.length) tag).run middle = .ok (some op) behind := by
  induction tags generalizing position feed front with
  | nil =>
    obtain ⟨hnil, -⟩ := run_pure_eq_ok_iff.mp h
    simp at hnil
  | cons tag tags ih =>
    simp only [instructions, run_bind_eq_ok_iff, run_pure_eq_ok_iff] at h
    obtain ⟨first, next, hfirst, others, last, hothers, hops, rfl⟩ := h
    -- The operation is read by the first instruction or behind it, where `rest` is what the
    -- others read in front of it.
    have hbehind : ∀ rest, others = rest ++ op :: back → first.toList ++ rest = front →
        ∃ before reader after middle behind, tag :: tags = before ++ reader :: after ∧
          (instructions policy position before).run feed = .ok front middle ∧
          (instruction? policy (position + before.length) reader).run middle =
            .ok (some op) behind := by
      intro rest hrest hfront
      rw [hrest] at hothers
      obtain ⟨before, reader, after, middle, behind, rfl, hbefore, hreader⟩ := ih hothers
      have hposition : position + (tag :: before).length = position + 1 + before.length := by
        rw [List.length_cons]
        omega
      refine ⟨tag :: before, reader, after, middle, behind, rfl, ?_, ?_⟩
      · simp only [instructions, run_bind_eq_ok_iff, run_pure_eq_ok_iff]
        exact ⟨first, next, hfirst, rest, middle, hbefore, hfront, rfl⟩
      · rwa [hposition]
    cases first with
    | none => exact hbehind front hops rfl
    | some found =>
      cases front with
      | nil =>
        obtain ⟨rfl, -⟩ := List.cons.inj hops
        exact ⟨[], tag, tags, feed, next, rfl, rfl, hfirst⟩
      | cons other front =>
        obtain ⟨rfl, hrest⟩ := List.cons.inj hops
        exact hbehind front hrest rfl

end Read

/-! ## Batches -/

/-- What a wire operation means has lists that can be counted. -/
theorem WireOp.fits_toOp (w : WireOp N) : w.toOp.Fits := by
  cases w with
  | setStroke stroke => exact stroke.dash_fits
  | strokeShape shape | fillShape shape | clipShape shape =>
    cases shape with
    | frame f => trivial
    | path segments fits => exact fits
  | _ => trivial

namespace Batch

variable {b : Batch N} {policy : Policy} {p : Program N} {front back ops : List (Op N)}
  {style : StrokeStyle}

/-- A stroke of a batch that can be read, with the code of its join and with the place where
    that stands. -/
theorem reads_of_decode (h : b.decode policy = .ok p)
    (hops : p.ops = front ++ .setStroke style :: back) :
    style.Readable ∧ ∃ i q code, b.tags[i]? = some OpKind.setStroke.tag ∧
      (b.cut i).decode policy = .ok q ∧ q.ops = front ∧
      b.ints[q.stats.consumed.ints + 2]? = some code ∧
      Read.ReadsJoin policy code style.join style.miterLimit := by
  obtain ⟨feed, hrun, -⟩ := decode_eq_ok_iff.mp h
  rw [hops] at hrun
  obtain ⟨before, tag, after, middle, behind, htags, hbefore, hreader⟩ :=
    Read.exists_split_of_run_ok hrun
  obtain ⟨rfl, hstroke⟩ := Read.stroke_of_run_instruction? hreader
  obtain ⟨hreadable, c, _, word, capCode, code, hpasses, hints, hreads⟩ :=
    Read.reads_of_run_stroke hstroke
  obtain ⟨_, _, hfront, -⟩ := Read.exists_totals_of_run_ok hbefore
  have hcode : b.ints[middle.ints.position + 2]? = some code := by
    have hdrop : b.ints.drop middle.ints.position = middle.ints.rest := hfront.drop_eq .int
    have hrest : middle.ints.rest = c.ints ++ behind.ints.rest := hpasses.ints.rest
    rw [← List.getElem?_drop, hdrop, hrest, hints]
    rfl
  exact ⟨hreadable, before.length, _, code, getElem?_tags htags,
    decode_cut_eq_ok htags hbefore, rfl, hcode, hreads⟩

/-- Without an open limit, all that was read can be written and counted again. -/
theorem fits_of_decode (h : b.decode policy = .ok p)
    (hlimits : ∀ style, .setStroke style ∈ p.ops → ¬ style.Unlimited) :
    ∀ op ∈ p.ops, op.Fits := by
  have hskip : b.decode .skip = .ok p := by
    cases policy with
    | skip => exact h
    | reject => exact (decode_skip_of_reject_ok h).1
  obtain ⟨feed, hrun, -⟩ := decode_eq_ok_iff.mp hskip
  -- Whatever was read is what some operation of the wire means.
  obtain ⟨ws, -, hws, -⟩ := Read.passesAs_of_run_instructions hrun fun style hstyle hmiter hnone =>
    hlimits style hstyle ⟨hmiter, hnone⟩
  intro op hop
  rw [← hws] at hop
  obtain ⟨w, -, rfl⟩ := List.mem_map.mp hop
  exact w.fits_toOp

/-- Pushing operations lays them out. -/
theorem ofOps_eq_layout (ops : List (Op N)) : ofOps ops = layout (ops.map .push) := by
  induction ops using List.reverseRecOn with
  | nil => rfl
  | append_singleton ops op ih =>
    have hconcat : ofOps (ops ++ [op]) = ofOps ops ++ op.wire := List.foldl_concat ..
    rw [hconcat, ih, List.map_append, layout_append]
    exact congrArg _ (append_empty op.wire).symm

theorem ofOps_append (ops others : List (Op N)) :
    ofOps (ops ++ others) = ofOps ops ++ ofOps others := by
  rw [ofOps_eq_layout, ofOps_eq_layout, ofOps_eq_layout, List.map_append, layout_append]

/-- Pushing is a history without bare tags, and its steps can be told from what is read. -/
theorem fits_map_push (hfits : ∀ op ∈ ops, op.Fits) :
    (∀ step ∈ ops.map BatchStep.push, step.Fits) ∧
      (ops.map BatchStep.push).filterMap BatchStep.tag? = [] := by
  refine ⟨?_, by simp [List.filterMap_eq_nil_iff, BatchStep.tag?]⟩
  intro step hstep
  obtain ⟨op, hop, rfl⟩ := List.mem_map.mp hstep
  exact hfits op hop

/-- Operations that were pushed are read as the wire carries them, and nothing is left. -/
theorem decode_skip_ofOps (hfits : ∀ op ∈ ops, op.Fits) :
    (ofOps ops).decode .skip =
      .ok ⟨ops.map Op.carried, { consumed := (ofOps ops).sizes, remaining := .zero }⟩ := by
  obtain ⟨hsteps, htags⟩ := fits_map_push hfits
  have hops : (ops.map BatchStep.push).filterMap BatchStep.op? = ops := by
    rw [List.filterMap_map]
    exact List.filterMap_some
  rw [ofOps_eq_layout, decode_skip_layout hsteps, hops, htags]
  rfl

/-- Operations that were pushed are read under both policies, as the wire carries them. -/
theorem exists_decode_ofOps (policy : Policy) (hfits : ∀ op ∈ ops, op.Fits) :
    ∃ q, (ofOps ops).decode policy = .ok q ∧ q.ops = ops.map Op.carried := by
  obtain ⟨hsteps, htags⟩ := fits_map_push hfits
  have hskip := decode_skip_ofOps hfits
  cases policy with
  | skip => exact ⟨_, hskip, rfl⟩
  | reject =>
    have hagree := decode_reject_layout hsteps htags
    rw [← ofOps_eq_layout] at hagree
    exact ⟨_, hagree.trans hskip, rfl⟩

end Batch

end BatchDraw
