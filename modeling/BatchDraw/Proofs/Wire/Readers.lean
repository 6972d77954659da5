/-
  BatchDraw.Proofs.Wire.Readers

  The contract of each reader.

  Every reader of `BatchDraw.Wire.Operands` keeps a contract that names the
  amounts of operands it takes. The readers of one entry and the two places that
  look at the policy are shown to keep theirs; the others are sequences of those.
-/
import BatchDraw.Proofs.Wire.Contract
import BatchDraw.Proofs.Wire.Amounts

namespace BatchDraw

variable {N : Type}

/-! ## One entry -/

/-- A batch of one operand. -/
def Batch.single : (s : Stack) → s.Entry N → Batch N
  | .int, value => { ints := [value] }
  | .real, value => { reals := [value] }
  | .text, value => { texts := [value] }
  | .native, value => { natives := [value] }

theorem Batch.stack_single_self (s : Stack) (value : s.Entry N) :
    (single s value).stack s = [value] := by
  cases s <;> rfl

theorem Batch.stack_single_of_ne {s t : Stack} (h : t ≠ s) (value : s.Entry N) :
    (single s value).stack t = [] := by
  cases s <;> cases t <;> first | rfl | exact absurd rfl h

namespace Feed

/-- The feed with the cursor of one stack replaced. -/
def withCursor (feed : Feed N) : (s : Stack) → Cursor (s.Entry N) → Feed N
  | .int, cursor => { feed with ints := cursor }
  | .real, cursor => { feed with reals := cursor }
  | .text, cursor => { feed with texts := cursor }
  | .native, cursor => { feed with natives := cursor }

theorem cursor_withCursor_self (feed : Feed N) (s : Stack) (cursor : Cursor (s.Entry N)) :
    (feed.withCursor s cursor).cursor s = cursor := by
  cases s <;> rfl

theorem cursor_withCursor_of_ne {s t : Stack} (h : t ≠ s) (feed : Feed N)
    (cursor : Cursor (s.Entry N)) : (feed.withCursor s cursor).cursor t = feed.cursor t := by
  cases s <;> cases t <;> first | rfl | exact absurd rfl h

theorem skippedOps_withCursor (feed : Feed N) (s : Stack) (cursor : Cursor (s.Entry N)) :
    (feed.withCursor s cursor).skippedOps = feed.skippedOps := by
  cases s <;> rfl

theorem skippedSegments_withCursor (feed : Feed N) (s : Stack) (cursor : Cursor (s.Entry N)) :
    (feed.withCursor s cursor).skippedSegments = feed.skippedSegments := by
  cases s <;> rfl

end Feed

theorem Cursor.next?_eq_none_iff {α : Type} {cursor : Cursor α} :
    cursor.next? = none ↔ cursor.rest = [] := by
  unfold next?
  cases cursor.rest <;> simp

namespace Read

variable {α : Type} {site : Site} {last : Option Int32} {front back : Feed N}

/-- Reads the next entry of a stack given by its name. -/
def entry (s : Stack) (site : Site) : Read N (s.Entry N) := fun feed =>
  match (feed.cursor s).next? with
  | none => .error (site.underflow s (feed.cursor s).position) feed
  | some (value, cursor) => .ok value (feed.withCursor s cursor)

theorem int_eq_entry : (int site : Read N Int32) = entry .int site := by
  funext feed
  simp only [int, entry, Feed.cursor]
  cases feed.ints.next? <;> rfl

theorem real_eq_entry : (real site : Read N Float) = entry .real site := by
  funext feed
  simp only [real, entry, Feed.cursor]
  cases feed.reals.next? <;> rfl

theorem text_eq_entry : (text site : Read N String) = entry .text site := by
  funext feed
  simp only [text, entry, Feed.cursor]
  cases feed.texts.next? <;> rfl

theorem native_eq_entry : (native site : Read N (Option N)) = entry .native site := by
  funext feed
  simp only [native, entry, Feed.cursor]
  cases feed.natives.next? <;> rfl

theorem run_entry_eq_ok_iff {s : Stack} {value : s.Entry N} :
    (entry s site).run front = .ok value back ↔ front.Takes (.single s value) back := by
  cases s with
  | int => rw [← int_eq_entry]; exact run_int_eq_ok_iff
  | real => rw [← real_eq_entry]; exact run_real_eq_ok_iff
  | text => rw [← text_eq_entry]; exact run_text_eq_ok_iff
  | native => rw [← native_eq_entry]; exact run_native_eq_ok_iff

theorem run_entry_eq_error_iff {s : Stack} {e : WireError} :
    (entry s site).run front = .error e back ↔
      (front.cursor s).rest = [] ∧ e = site.underflow s (front.cursor s).position ∧
        back = front := by
  rw [← Cursor.next?_eq_none_iff]
  simp only [EStateM.run, entry]
  cases (front.cursor s).next? with
  | none => simp [eq_comm]
  | some found => simp

theorem contract_entry (s : Stack) :
    Contract site last (entry s site : Read N (s.Entry N))
      fun value b notices => b = .single s value ∧ notices = [] where
  ok := by
    intro front back value hrun
    refine ⟨.single s value, [], run_entry_eq_ok_iff.mp hrun, ⟨rfl, rfl⟩, ?_, ?_⟩
    · intro front back h
      exact run_entry_eq_ok_iff.mpr h
    · intro front t k hlacks
      have hshort := hlacks.short
      by_cases ht : t = s
      · subst ht
        rw [Batch.stack_single_self, List.length_singleton] at hshort
        obtain rfl : k = 0 := by omega
        exact ⟨front, run_entry_eq_error_iff.mpr ⟨hlacks.rest, rfl, rfl⟩⟩
      · rw [Batch.stack_single_of_ne ht, List.length_nil] at hshort
        omega
  error := by
    intro front back e hrun
    obtain ⟨hended, rfl, rfl⟩ := run_entry_eq_error_iff.mp hrun
    exact ⟨.empty, [], Feed.Takes.refl _, .underflow s hended⟩

theorem contract_int :
    Contract site last (int site : Read N Int32)
      fun value b notices => b = { ints := [value] } ∧ notices = [] := by
  rw [int_eq_entry]
  exact contract_entry .int

theorem contract_real :
    Contract site last (real site : Read N Float) fun _ => Numbers 0 1 := by
  rw [real_eq_entry]
  refine (contract_entry .real).mono ?_
  rintro value _ _ ⟨rfl, rfl⟩
  exact ⟨rfl, rfl, rfl, rfl, rfl⟩

theorem contract_text :
    Contract site last (text site : Read N String) fun text => Amounts 0 0 [text] [] := by
  rw [text_eq_entry]
  refine (contract_entry .text).mono ?_
  rintro text _ _ ⟨rfl, rfl⟩
  exact ⟨rfl, rfl, rfl, rfl, rfl⟩

theorem contract_native :
    Contract site last (native site : Read N (Option N))
      fun reference => Amounts 0 0 [] [reference] := by
  rw [native_eq_entry]
  refine (contract_entry .native).mono ?_
  rintro reference _ _ ⟨rfl, rfl⟩
  exact ⟨rfl, rfl, rfl, rfl, rfl⟩

/-! ## What has no meaning -/

/-- Leaving a notice takes no operand. -/
theorem needs_note {out : Stack → Nat → WireError} {m : Read N α} {notices : List Notice} {a : α}
    (h : ∀ front : Feed N, m.run front = .ok a
      { front with
        skippedOps := front.skippedOps + notices.countP Notice.isUnknownOp
        skippedSegments := front.skippedSegments + notices.countP Notice.isUnknownSegment
        notices := front.notices ++ notices }) : Needs out m .empty notices a where
  enough hpasses := by
    rw [Feed.passes_empty_iff.mp hpasses]
    exact h _
  lacking hlacks := absurd hlacks Feed.not_lacks_empty

theorem contract_outOfRange {operand : Operand} {value : Int32} (fallback : α)
    (hread : last = some value) (hrange : operand.Refuses site.kind value) :
    Contract site last (outOfRange site operand value fallback : Read N α)
      fun _ => Numbers 0 0 where
  ok := by
    intro front back a hrun
    cases hpolicy : site.policy with
    | reject => simp [EStateM.run, outOfRange, hpolicy] at hrun
    | skip =>
      have hskip : ∀ front : Feed N,
          (outOfRange site operand value fallback : Read N α).run front =
            .ok fallback (front.note (.outOfRange operand value site.position)) := by
        intro front
        simp [EStateM.run, outOfRange, hpolicy]
      rw [hskip front] at hrun
      cases hrun
      exact ⟨.empty, [.outOfRange operand value site.position], Feed.passes_empty _ _,
        ⟨rfl, rfl, rfl, rfl, rfl⟩, needs_note hskip⟩
  error := by
    intro front back e hrun
    cases hpolicy : site.policy with
    | skip => simp [EStateM.run, outOfRange, hpolicy] at hrun
    | reject =>
      simp only [EStateM.run, outOfRange, hpolicy] at hrun
      cases hrun
      exact ⟨.empty, [], Feed.Takes.refl _, .invalidOperand hpolicy hrange hread⟩

theorem contract_unknownSegment {tag : Int32} (hread : last = some tag)
    (hshape : site.kind.hasShape = true) (hrange : tag < 0 ∨ 3 < tag) :
    Contract site last (unknownSegment site tag : Read N Unit)
      fun _ b notices => b = .empty ∧ notices = [.unknownSegment tag site.position] where
  ok := by
    intro front back a hrun
    cases hpolicy : site.policy with
    | reject => simp [EStateM.run, unknownSegment, hpolicy] at hrun
    | skip =>
      have hskip : ∀ front : Feed N, (unknownSegment site tag : Read N Unit).run front =
          .ok () { front.note (.unknownSegment tag site.position) with
            skippedSegments := front.skippedSegments + 1 } := by
        intro front
        simp [EStateM.run, unknownSegment, hpolicy]
      rw [hskip front] at hrun
      cases hrun
      exact ⟨.empty, [.unknownSegment tag site.position], Feed.passes_empty _ _, ⟨rfl, rfl⟩,
        needs_note hskip⟩
  error := by
    intro front back e hrun
    cases hpolicy : site.policy with
    | skip => simp [EStateM.run, unknownSegment, hpolicy] at hrun
    | reject =>
      simp only [EStateM.run, unknownSegment, hpolicy] at hrun
      cases hrun
      exact ⟨.empty, [], Feed.Takes.refl _, .unknownSegment hpolicy hshape hrange hread⟩

/-! ## Several entries -/

theorem contract_point :
    Contract site last (point site : Read N Point) fun _ => Numbers 0 2 := by
  refine .bind contract_real fun _ _ _ hx => .bind contract_real fun _ _ _ hy => .pure ?_
  exact hx.append (hy.append numbers_empty)

theorem contract_frame :
    Contract site last (Read.frame site : Read N Frame) fun _ => Numbers 0 4 := by
  refine .bind contract_real fun _ _ _ hx => .bind contract_real fun _ _ _ hy =>
    .bind contract_real fun _ _ _ hwidth => .bind contract_real fun _ _ _ hheight => .pure ?_
  exact hx.append (hy.append (hwidth.append (hheight.append numbers_empty)))

theorem contract_rect :
    Contract site last (rect site : Read N Rect) fun _ => Numbers 0 4 := by
  refine .bind contract_frame fun _ _ _ hframe => .pure ?_
  exact hframe.append numbers_empty

theorem contract_affine :
    Contract site last (affine site : Read N Affine) fun _ => Numbers 0 6 := by
  refine .bind contract_real fun _ _ _ ha => .bind contract_real fun _ _ _ hb =>
    .bind contract_real fun _ _ _ hc => .bind contract_real fun _ _ _ hd =>
      .bind contract_real fun _ _ _ he => .bind contract_real fun _ _ _ hf => .pure ?_
  exact ha.append (hb.append (hc.append (hd.append (he.append (hf.append numbers_empty)))))

/-- Counted reals are as many as were asked for. -/
theorem contract_reals (n : Nat) :
    Contract site last (reals site n : Read N (List Float))
      fun xs b notices => xs.length = n ∧ Numbers 0 n b notices := by
  induction n generalizing last with
  | zero => exact .pure ⟨rfl, numbers_empty⟩
  | succ n ih =>
    refine .bind contract_real fun _ _ _ hx => .bind ih ?_
    rintro xs b notices ⟨hlength, hxs⟩
    have hall := hx.append (hxs.append numbers_empty)
    exact .pure ⟨congrArg (· + 1) hlength, hall.of_eq rfl (Nat.add_comm 1 n)⟩

/-! ## Strokes -/

theorem contract_countOf {operand : Operand} {value : Int32} (hread : last = some value)
    (hrange : value < 0 → operand.Refuses site.kind value) :
    Contract site last (countOf site operand value : Read N Nat) fun _ => Numbers 0 0 := by
  unfold countOf
  by_cases hneg : value < 0
  · rw [if_pos hneg]
    exact contract_outOfRange 0 hread (hrange hneg)
  · rw [if_neg hneg]
    exact .pure numbers_empty

/-- The offset is there behind dashes only. -/
theorem contract_dashOffset (count : Nat) :
    Contract site last (dashOffset site count : Read N Float)
      fun _ => Numbers 0 (if count = 0 then 0 else 1) := by
  unfold dashOffset
  by_cases hcount : count = 0
  · rw [if_pos hcount, if_pos hcount]
    exact .pure numbers_empty
  · rw [if_neg hcount, if_neg hcount]
    exact contract_real

theorem contract_cap (hkind : site.kind = .setStroke) :
    Contract site last (cap site : Read N Cap) fun _ => Numbers 1 0 := by
  refine .bind contract_int ?_
  rintro code _ _ ⟨rfl, rfl⟩
  cases hof : Cap.ofCode? code with
  | some c => exact .pure ((numbers_int code).append numbers_empty)
  | none =>
    have hrange : Operand.Refuses site.kind code .lineCap := ⟨hkind, Cap.out_of_range hof⟩
    refine (contract_outOfRange Cap.square rfl hrange).mono ?_
    intro _ b notices h
    exact (numbers_int code).append h

/-- The code of a join was read before. -/
theorem contract_join {code : Int32} (hread : last = some code)
    (hkind : site.kind = .setStroke) :
    Contract site last (join site code : Read N Join) fun _ => Numbers 0 0 := by
  unfold join
  cases hof : Join.ofCode? code with
  | some j => exact .pure numbers_empty
  | none => exact contract_outOfRange Join.miter hread ⟨hkind, Join.out_of_range hof⟩

theorem contract_miterLimit (code : Int32) :
    Contract site last (miterLimit site code : Read N (Option Float))
      fun limit => Numbers 0 (if limit.isSome then 1 else 0) := by
  unfold miterLimit
  by_cases hcode : code = Join.miter.code
  · rw [if_pos hcode]
    exact contract_real.map fun _ _ _ hlimit => hlimit
  · rw [if_neg hcode]
    exact .pure numbers_empty

theorem contract_stroke (hkind : site.kind = .setStroke) :
    Contract site last (stroke site : Read N StrokeStyle)
      fun style => Numbers 3 style.realCount := by
  refine .bind contract_real fun width _ _ hwidth => .bind contract_int ?_
  rintro word _ _ ⟨rfl, rfl⟩
  have hrange : word < 0 → Operand.Refuses site.kind word .dashCount := fun hneg => ⟨hkind, hneg⟩
  refine .bind (contract_countOf rfl hrange) fun count _ _ hcount =>
    .bind (contract_reals count) ?_
  rintro dash _ _ ⟨hlength, hdash⟩
  refine .bind (contract_dashOffset count) fun offset _ _ hoffset =>
    .bind (contract_cap hkind) fun cap _ _ hcap => .bind contract_int ?_
  rintro code _ _ ⟨rfl, rfl⟩
  refine .bind (contract_join rfl hkind) fun join _ _ hjoin =>
    .bind (contract_miterLimit code) fun limit _ _ hlimit => .pure ?_
  have hall := hwidth.append ((numbers_int word).append (hcount.append (hdash.append (hoffset.append
    (hcap.append ((numbers_int code).append (hjoin.append (hlimit.append numbers_empty))))))))
  -- The count is that of the dashes, so the offset is there when they are.
  refine hall.of_eq rfl ?_
  subst hlength
  cases dash with
  | nil =>
    simp only [StrokeStyle.realCount, List.length_nil, List.isEmpty_nil, if_true]
    omega
  | cons x dash =>
    have hcount : (x :: dash).length ≠ 0 := Nat.succ_ne_zero _
    simp only [StrokeStyle.realCount, List.isEmpty_cons, if_neg hcount, Bool.false_eq_true,
      if_false]
    omega

/-! ## Shapes and text -/

theorem contract_segment? (hshape : site.kind.hasShape = true) :
    Contract site last (segment? site : Read N (Option Segment))
      fun found => Numbers found.toList.length (found.toList.map Segment.realCount).sum := by
  refine .bind contract_int ?_
  rintro tag _ _ ⟨rfl, rfl⟩
  cases hof : SegmentKind.ofTag? tag with
  | none =>
    refine .bind (contract_unknownSegment rfl hshape (SegmentKind.out_of_range hof)) ?_
    rintro _ _ _ ⟨rfl, rfl⟩
    -- The one integer is that of the notice.
    exact .pure ⟨rfl, rfl, rfl, rfl, rfl⟩
  | some kind =>
    cases kind with
    | moveTo =>
      exact .bind contract_point fun _ _ _ hp =>
        .pure ((numbers_int tag).append (hp.append numbers_empty))
    | lineTo =>
      exact .bind contract_point fun _ _ _ hp =>
        .pure ((numbers_int tag).append (hp.append numbers_empty))
    | curveTo =>
      exact .bind contract_point fun _ _ _ hp => .bind contract_point fun _ _ _ hq =>
        .bind contract_point fun _ _ _ hr =>
          .pure ((numbers_int tag).append (hp.append (hq.append (hr.append numbers_empty))))
    | close => exact .pure ((numbers_int tag).append numbers_empty)

theorem contract_segments (hshape : site.kind.hasShape = true) (n : Nat) :
    Contract site last (segments site n : Read N (List Segment))
      fun found => Numbers found.length (found.map Segment.realCount).sum := by
  induction n generalizing last with
  | zero => exact .pure numbers_empty
  | succ n ih =>
    refine .bind (contract_segment? hshape) fun first _ _ hfirst =>
      .bind ih fun others _ _ hothers => .pure ?_
    refine (hfirst.append (hothers.append numbers_empty)).of_eq ?_ ?_
    · rw [List.length_append, Nat.add_zero]
    · rw [List.map_append, List.sum_append, Nat.add_zero]

theorem contract_shape (hshape : site.kind.hasShape = true) :
    Contract site last (Read.shape site : Read N Shape)
      fun shape => Numbers shape.intCount shape.realCount := by
  refine .bind contract_int ?_
  rintro word _ _ ⟨rfl, rfl⟩
  by_cases hmark : word = rectMark
  · simp only [if_pos hmark]
    exact .bind contract_rect fun _ _ _ hrect =>
      .pure ((numbers_int word).append (hrect.append numbers_empty))
  · simp only [if_neg hmark]
    have hrange : word < 0 → Operand.Refuses site.kind word .segmentCount := by
      intro hneg
      refine ⟨hshape, ?_⟩
      have hne : word.toInt ≠ (-1 : Int32).toInt := fun h => hmark (Int32.toInt_inj.mp h)
      rw [Int32.lt_iff_toInt_lt] at hneg ⊢
      have hzero : (0 : Int32).toInt = 0 := rfl
      have hone : (-1 : Int32).toInt = -1 := by decide
      omega
    refine .bind (contract_countOf rfl hrange) fun count _ _ hcount =>
      .bind (contract_segments hshape count) fun found _ _ hfound => .pure ?_
    refine ((numbers_int word).append (hcount.append (hfound.append numbers_empty))).of_eq ?_ ?_
    · simp only [Shape.intCount]
      omega
    · simp only [Shape.realCount]
      omega

theorem contract_textRun :
    Contract site last (textRun site : Read N TextRun)
      fun run => Amounts 0 3 [run.text] [] :=
  .bind contract_text fun _ _ _ htext => .bind contract_point fun _ _ _ horigin =>
    .bind contract_real fun _ _ _ hspacing =>
      .pure (htext.append (horigin.append (hspacing.append numbers_empty)))

/-! ## Operations -/

/-- What is read for an operation are its amounts. -/
theorem contract_op :
    Contract site last (Read.op site : Read N (Op N)) fun op => op.Amounts := by
  unfold Read.op
  cases hkind : site.kind with
  | setFont => exact contract_native.map fun _ _ _ h => h
  | setPaint => exact contract_native.map fun _ _ _ h => h
  | setStroke => exact (contract_stroke hkind).map fun _ _ _ h => h
  | setOpacity => exact contract_real.map fun _ _ _ h => h
  | strokeShape | fillShape | clipShape =>
    exact (contract_shape (by rw [hkind]; rfl)).map fun _ _ _ h => h
  | drawImageRect =>
    exact .bind contract_native fun _ _ _ himage => .bind contract_rect fun _ _ _ hsource =>
      .bind contract_rect fun _ _ _ htarget =>
        .pure (himage.append (hsource.append (htarget.append numbers_empty)))
  | drawImage =>
    exact .bind contract_native fun _ _ _ himage => .bind contract_affine fun _ _ _ hm =>
      .pure (himage.append (hm.append numbers_empty))
  | fillText => exact contract_textRun.map fun _ _ _ h => h
  | strokeText => exact contract_textRun.map fun _ _ _ h => h
  | transform => exact contract_affine.map fun _ _ _ h => h
  | setTransform => exact contract_affine.map fun _ _ _ h => h
  | save => exact .pure numbers_empty
  | restore => exact .pure numbers_empty
  | clearRect => exact contract_rect.map fun _ _ _ h => h
  | setImageQuality => exact contract_real.map fun _ _ _ h => h

end Read

end BatchDraw
