/-
  BatchDraw.Proofs.Wire.Steering

  What decides how a batch is read.

  The tags and the integers of a batch decide which operand is read next; reals,
  texts and references are only handed on. So two batches that have the former in
  common, and as many of each of the latter, are read alike: with the same error,
  or with the same account and operations of the same form.

  The form of an operation (`Op.form`) is what is left of it without the operands
  that are handed on. Two feeds are side by side (`Feed.Beside`) when a reader that
  looks at integers only cannot tell them apart. Readers are then compared with a
  relation on what they return (`Read.Alike`), which is kept by sequence when the
  second part goes on alike from all values that are so related.
-/
import BatchDraw.Proofs.Wire.Readers

namespace BatchDraw

/-! ## Forms -/

/-- A stroke style without its lengths: how many dashes there are, and whether there
    is a miter limit. -/
structure StrokeStyle.Form where
  dashes : Nat
  cap : Cap
  join : Join
  limited : Bool
  deriving DecidableEq

def StrokeStyle.form (style : StrokeStyle) : StrokeStyle.Form where
  dashes := style.dash.length
  cap := style.cap
  join := style.join
  limited := style.miterLimit.isSome

/-- A shape without its points. -/
inductive Shape.Form where
  | rect
  | path (kinds : List SegmentKind)
  deriving DecidableEq

def Shape.form : Shape → Shape.Form
  | rect _ => .rect
  | path segments => .path (segments.map Segment.kind)

/-- An operation without its reals, texts and references. -/
inductive Op.Form where
  | stroke (style : StrokeStyle.Form)
  | shape (kind : OpKind) (shape : Shape.Form)
  /-- Of all other operations only the kind is left. -/
  | plain (kind : OpKind)
  deriving DecidableEq

def Op.form {N : Type} : Op N → Op.Form
  | setStroke style => .stroke style.form
  | strokeShape shape => .shape .strokeShape shape.form
  | fillShape shape => .shape .fillShape shape.form
  | clipShape shape => .shape .clipShape shape.form
  | op => .plain op.kind

variable {M N α β γ δ : Type}

/-! ## Feeds -/

/-- As many entries have been read and are left. -/
structure Cursor.Beside (cursor : Cursor α) (cursor' : Cursor β) : Prop where
  position : cursor'.position = cursor.position
  rest : cursor'.rest.length = cursor.rest.length

/-- The same integers are in front of two feeds, as many entries of the other stacks, and
    the same was passed over. -/
structure Feed.Beside (feed : Feed M) (feed' : Feed N) : Prop where
  ints : feed'.ints = feed.ints
  cursor : ∀ s, (feed.cursor s).Beside (feed'.cursor s)
  skippedOps : feed'.skippedOps = feed.skippedOps
  skippedSegments : feed'.skippedSegments = feed.skippedSegments

/-- Two batches with the same tags and integers, and with as many reals, texts and
    references. -/
structure Batch.Beside (b : Batch M) (c : Batch N) : Prop where
  tags : c.tags = b.tags
  ints : c.ints = b.ints
  reals : c.reals.length = b.reals.length
  texts : c.texts.length = b.texts.length
  natives : c.natives.length = b.natives.length

theorem Batch.Beside.feed {b : Batch M} {c : Batch N} (h : b.Beside c) :
    (Feed.ofBatch b).Beside (Feed.ofBatch c) := by
  refine ⟨congrArg Cursor.ofList h.ints, ?_, rfl, rfl⟩
  intro s
  cases s with
  | int => exact ⟨rfl, congrArg List.length h.ints⟩
  | real => exact ⟨rfl, h.reals⟩
  | text => exact ⟨rfl, h.texts⟩
  | native => exact ⟨rfl, h.natives⟩

/-- The accounts of two feeds side by side are the same. -/
theorem Feed.Beside.stats {feed : Feed M} {feed' : Feed N} (h : feed.Beside feed')
    (tags : Cursor Int32) : feed'.stats tags = feed.stats tags := by
  have hconsumed : (feed'.stats tags).consumed = (feed.stats tags).consumed := by
    refine Sizes.ext_of rfl fun s => ?_
    rw [consumed_stats_of, consumed_stats_of, (h.cursor s).position]
  have hremaining : (feed'.stats tags).remaining = (feed.stats tags).remaining := by
    refine Sizes.ext_of rfl fun s => ?_
    rw [remaining_stats_of, remaining_stats_of, (h.cursor s).rest]
  calc feed'.stats tags
    _ = ⟨feed'.skippedOps, feed'.skippedSegments, (feed'.stats tags).consumed,
          (feed'.stats tags).remaining⟩ := rfl
    _ = ⟨feed.skippedOps, feed.skippedSegments, (feed.stats tags).consumed,
          (feed.stats tags).remaining⟩ := by
      rw [h.skippedOps, h.skippedSegments, hconsumed, hremaining]
    _ = feed.stats tags := rfl

/-- One stack is read on from both feeds, and the integers alike. -/
theorem Feed.Beside.withCursor {feed : Feed M} {feed' : Feed N} (h : feed.Beside feed')
    {s : Stack} {cursor : Cursor (s.Entry M)} {cursor' : Cursor (s.Entry N)}
    (hints : (feed'.withCursor s cursor').ints = (feed.withCursor s cursor).ints)
    (hcursor : cursor.Beside cursor') :
    (feed.withCursor s cursor).Beside (feed'.withCursor s cursor') := by
  refine ⟨hints, ?_, ?_, ?_⟩
  · intro t
    by_cases ht : t = s
    · subst ht
      rw [cursor_withCursor_self, cursor_withCursor_self]
      exact hcursor
    · rw [cursor_withCursor_of_ne ht, cursor_withCursor_of_ne ht]
      exact h.cursor t
  · rw [skippedOps_withCursor, skippedOps_withCursor, h.skippedOps]
  · rw [skippedSegments_withCursor, skippedSegments_withCursor, h.skippedSegments]

/-! ## Results -/

/-- Two results with values that are related by `R`, or with the same error. -/
inductive EndAlike (R : α → β → Prop) :
    EStateM.Result WireError (Feed M) α → EStateM.Result WireError (Feed N) β → Prop where
  | ok {a : α} {b : β} {feed : Feed M} {feed' : Feed N} (value : R a b)
    (feeds : feed.Beside feed') : EndAlike R (.ok a feed) (.ok b feed')
  | error {e : WireError} {feed : Feed M} {feed' : Feed N} (feeds : feed.Beside feed') :
    EndAlike R (.error e feed) (.error e feed')

/-- From feeds side by side, the two readers have results alike. -/
def Read.Alike (R : α → β → Prop) (m : Read M α) (m' : Read N β) : Prop :=
  ∀ feed feed', feed.Beside feed' → EndAlike R (m.run feed) (m'.run feed')

namespace Read

namespace Alike

variable {R : α → β → Prop} {S : γ → δ → Prop} {m : Read M α} {m' : Read N β}

theorem pure {a : α} {b : β} (h : R a b) :
    Alike R (Pure.pure a : Read M α) (Pure.pure b : Read N β) :=
  fun _ _ hfeeds => .ok h hfeeds

theorem bind {k : α → Read M γ} {k' : β → Read N δ} (hm : Alike R m m')
    (hk : ∀ a b, R a b → Alike S (k a) (k' b)) : Alike S (m >>= k) (m' >>= k') := by
  intro feed feed' hfeeds
  rw [EStateM.run_bind, EStateM.run_bind]
  have h := hm feed feed' hfeeds
  generalize m.run feed = r at h
  generalize m'.run feed' = r' at h
  cases h with
  | ok value feeds => exact hk _ _ value _ _ feeds
  | error feeds => exact .error feeds

theorem map {f : α → γ} {g : β → δ} (hm : Alike R m m')
    (hf : ∀ a b, R a b → S (f a) (g b)) : Alike S (f <$> m) (g <$> m') := by
  rw [map_eq_pure_bind, map_eq_pure_bind]
  exact hm.bind fun a b hvalue => .pure (hf a b hvalue)

end Alike

/-- Nothing is asked of the values. -/
abbrev Handed (m : Read M α) (m' : Read N β) : Prop := Alike (fun _ _ => True) m m'

/-! ## One entry -/

/-- An entry that is not an integer is there in both feeds or missing in both. -/
theorem handed_entry {s : Stack} (hs : s ≠ .int) (site : Site) :
    Handed (entry (N := M) s site) (entry (N := N) s site) := by
  intro feed feed' h
  obtain ⟨hposition, hrest⟩ := h.cursor s
  simp only [EStateM.run, entry, Cursor.next?, hposition]
  cases hleft : (feed.cursor s).rest with
  | nil =>
    rw [hleft, List.length_nil, List.length_eq_zero_iff] at hrest
    rw [hrest]
    exact .error h
  | cons value rest =>
    rw [hleft, List.length_cons] at hrest
    obtain ⟨value', rest', hleft'⟩ := List.exists_cons_of_length_eq_add_one hrest
    rw [hleft', List.length_cons, Nat.add_right_cancel_iff] at hrest
    rw [hleft']
    refine .ok trivial (h.withCursor ?_ ⟨rfl, hrest⟩)
    cases s with
    | int => exact absurd rfl hs
    | real | text | native => exact h.ints

theorem handed_real (site : Site) :
    Handed (real site : Read M Float) (real site : Read N Float) := by
  rw [real_eq_entry, real_eq_entry]
  exact handed_entry (by decide) site

theorem handed_text (site : Site) :
    Handed (text site : Read M String) (text site : Read N String) := by
  rw [text_eq_entry, text_eq_entry]
  exact handed_entry (by decide) site

theorem handed_native (site : Site) :
    Handed (native site : Read M (Option M)) (native site : Read N (Option N)) := by
  rw [native_eq_entry, native_eq_entry]
  exact handed_entry (by decide) site

/-- The integer in front is the same in both feeds. -/
theorem alike_int (site : Site) :
    Alike Eq (int site : Read M Int32) (int site : Read N Int32) := by
  intro feed feed' h
  rw [int_eq_entry, int_eq_entry]
  have hcursor : feed'.cursor .int = feed.cursor .int := h.ints
  simp only [EStateM.run, entry, hcursor]
  cases (feed.cursor .int).next? with
  | none => exact .error h
  | some found => exact .ok rfl (h.withCursor rfl ⟨rfl, rfl⟩)

/-! ## What has no meaning -/

/-- The policy decides, which is the same for both. -/
theorem alike_outOfRange (site : Site) (operand : Operand) (value : Int32) (fallback : α) :
    Alike Eq (outOfRange site operand value fallback : Read M α)
      (outOfRange site operand value fallback : Read N α) := by
  intro feed feed' h
  obtain ⟨policy, position, kind⟩ := site
  cases policy with
  | skip => exact .ok rfl ⟨h.ints, h.cursor, h.skippedOps, h.skippedSegments⟩
  | reject => exact .error h

theorem handed_unknownSegment (site : Site) (tag : Int32) :
    Handed (unknownSegment site tag : Read M Unit) (unknownSegment site tag : Read N Unit) := by
  intro feed feed' h
  obtain ⟨policy, position, kind⟩ := site
  cases policy with
  | skip =>
    exact .ok trivial ⟨h.ints, h.cursor, h.skippedOps, congrArg (· + 1) h.skippedSegments⟩
  | reject => exact .error h

theorem handed_unknownOp (policy : Policy) (tag : Int32) (position : Nat) :
    Handed (unknownOp policy tag position : Read M Unit)
      (unknownOp policy tag position : Read N Unit) := by
  intro feed feed' h
  cases policy with
  | skip =>
    exact .ok trivial ⟨h.ints, h.cursor, congrArg (· + 1) h.skippedOps, h.skippedSegments⟩
  | reject => exact .error h

/-! ## Counts and codes -/

theorem alike_countOf (site : Site) (operand : Operand) (value : Int32) :
    Alike Eq (countOf site operand value : Read M Nat)
      (countOf site operand value : Read N Nat) := by
  unfold countOf
  by_cases hneg : value < 0
  · rw [if_pos hneg, if_pos hneg]
    exact alike_outOfRange site operand value 0
  · rw [if_neg hneg, if_neg hneg]
    exact .pure rfl

theorem alike_cap (site : Site) : Alike Eq (cap site : Read M Cap) (cap site : Read N Cap) := by
  refine (alike_int site).bind fun code code' hcode => ?_
  subst hcode
  cases Cap.ofCode? code with
  | some c => exact .pure rfl
  | none => exact alike_outOfRange site .lineCap code Cap.square

theorem alike_join (site : Site) (code : Int32) :
    Alike Eq (join site code : Read M Join) (join site code : Read N Join) := by
  unfold join
  cases Join.ofCode? code with
  | some j => exact .pure rfl
  | none => exact alike_outOfRange site .lineJoin code Join.miter

/-! ## Reals in a row -/

theorem handed_point (site : Site) :
    Handed (point site : Read M Point) (point site : Read N Point) := by
  refine (handed_real site).bind fun _ _ _ => ?_
  exact (handed_real site).map fun _ _ _ => trivial

theorem handed_rect (site : Site) : Handed (rect site : Read M Rect) (rect site : Read N Rect) := by
  have hframe : Handed (frame site : Read M Frame) (frame site : Read N Frame) := by
    refine (handed_real site).bind fun _ _ _ => ?_
    refine (handed_real site).bind fun _ _ _ => ?_
    refine (handed_real site).bind fun _ _ _ => ?_
    exact (handed_real site).map fun _ _ _ => trivial
  exact hframe.map fun _ _ _ => trivial

theorem handed_affine (site : Site) :
    Handed (affine site : Read M Affine) (affine site : Read N Affine) := by
  refine (handed_real site).bind fun _ _ _ => ?_
  refine (handed_real site).bind fun _ _ _ => ?_
  refine (handed_real site).bind fun _ _ _ => ?_
  refine (handed_real site).bind fun _ _ _ => ?_
  refine (handed_real site).bind fun _ _ _ => ?_
  exact (handed_real site).map fun _ _ _ => trivial

theorem alike_reals (site : Site) (n : Nat) :
    Alike (fun xs ys => xs.length = ys.length) (reals site n : Read M (List Float))
      (reals site n : Read N (List Float)) := by
  induction n with
  | zero => exact .pure rfl
  | succ n ih =>
    refine (handed_real site).bind fun _ _ _ => ?_
    exact ih.map fun _ _ hlength => congrArg (· + 1) hlength

/-! ## Strokes, shapes and text -/

theorem handed_dashOffset (site : Site) (count : Nat) :
    Handed (dashOffset site count : Read M Float) (dashOffset site count : Read N Float) := by
  cases count with
  | zero => exact .pure trivial
  | succ n => exact handed_real site

/-- The code of the join decides whether there is a miter limit. -/
theorem alike_miterLimit (site : Site) (code : Int32) :
    Alike (fun limit limit' => limit.isSome = limit'.isSome)
      (miterLimit site code : Read M (Option Float))
      (miterLimit site code : Read N (Option Float)) := by
  unfold miterLimit
  by_cases hcode : code = Join.miter.code
  · rw [if_pos hcode, if_pos hcode]
    exact (handed_real site).map fun _ _ _ => rfl
  · rw [if_neg hcode, if_neg hcode]
    exact .pure rfl

theorem alike_stroke (site : Site) :
    Alike (fun s t => s.form = t.form) (stroke site : Read M StrokeStyle)
      (stroke site : Read N StrokeStyle) := by
  refine (handed_real site).bind fun width width' _ => ?_
  refine (alike_int site).bind fun word word' hword => ?_
  subst hword
  refine (alike_countOf site .dashCount word).bind fun count count' hcount => ?_
  subst hcount
  refine (alike_reals site count).bind fun dash dash' hdash => ?_
  refine (handed_dashOffset site count).bind fun offset offset' _ => ?_
  refine (alike_cap site).bind fun cap cap' hcap => ?_
  refine (alike_int site).bind fun code code' hcode => ?_
  subst hcode
  refine (alike_join site code).bind fun join join' hjoin => ?_
  refine (alike_miterLimit site code).map fun limit limit' hlimit => ?_
  simp only [StrokeStyle.form, hdash, hcap, hjoin, hlimit]

/-- The tag decides which points there are. -/
theorem alike_segment? (site : Site) :
    Alike (fun s t => s.map Segment.kind = t.map Segment.kind)
      (segment? site : Read M (Option Segment)) (segment? site : Read N (Option Segment)) := by
  refine (alike_int site).bind fun tag tag' htag => ?_
  subst htag
  rcases SegmentKind.ofTag? tag with _ | kind
  · exact (handed_unknownSegment site tag).map fun _ _ _ => rfl
  · cases kind with
    | moveTo => exact (handed_point site).map fun _ _ _ => rfl
    | lineTo => exact (handed_point site).map fun _ _ _ => rfl
    | curveTo =>
      refine (handed_point site).bind fun _ _ _ => ?_
      refine (handed_point site).bind fun _ _ _ => ?_
      exact (handed_point site).map fun _ _ _ => rfl
    | close => exact .pure rfl

/-- Where two entries are both there or both missing, so are they behind others. -/
theorem map_toList_append {f : α → γ} {g : β → γ} {a : Option α} {b : Option β}
    {as : List α} {bs : List β} (hfirst : a.map f = b.map g) (hothers : as.map f = bs.map g) :
    (a.toList ++ as).map f = (b.toList ++ bs).map g := by
  rw [List.map_append, List.map_append, ← Option.toList_map, ← Option.toList_map, hfirst,
    hothers]

theorem alike_segments (site : Site) (n : Nat) :
    Alike (fun s t => s.map Segment.kind = t.map Segment.kind)
      (segments site n : Read M (List Segment)) (segments site n : Read N (List Segment)) := by
  induction n with
  | zero => exact .pure rfl
  | succ n ih =>
    refine (alike_segment? site).bind fun first first' hfirst => ?_
    exact ih.map fun others others' hothers => map_toList_append hfirst hothers

theorem alike_shape (site : Site) :
    Alike (fun s t => s.form = t.form) (shape site : Read M Shape) (shape site : Read N Shape) := by
  refine (alike_int site).bind fun word word' hword => ?_
  subst hword
  by_cases hmark : word = rectMark
  · rw [if_pos hmark, if_pos hmark]
    exact (handed_rect site).map fun _ _ _ => rfl
  · rw [if_neg hmark, if_neg hmark]
    refine (alike_countOf site .segmentCount word).bind fun count count' hcount => ?_
    subst hcount
    exact (alike_segments site count).map fun _ _ hkinds => congrArg Shape.Form.path hkinds

theorem handed_textRun (site : Site) :
    Handed (textRun site : Read M TextRun) (textRun site : Read N TextRun) := by
  refine (handed_text site).bind fun _ _ _ => ?_
  refine (handed_point site).bind fun _ _ _ => ?_
  exact (handed_real site).map fun _ _ _ => trivial

/-! ## Operations and instructions -/

theorem alike_op (site : Site) :
    Alike (fun o p => o.form = p.form) (op site : Read M (Op M)) (op site : Read N (Op N)) := by
  obtain ⟨policy, position, kind⟩ := site
  -- The kind decides which operands there are.
  cases kind with
  | setFont | setPaint => exact (handed_native _).map fun _ _ _ => rfl
  | setStroke => exact (alike_stroke _).map fun _ _ hform => congrArg Op.Form.stroke hform
  | strokeShape | fillShape | clipShape =>
    exact (alike_shape _).map fun _ _ hform => congrArg (Op.Form.shape _) hform
  | drawImageRect =>
    refine (handed_native _).bind fun _ _ _ => ?_
    refine (handed_rect _).bind fun _ _ _ => ?_
    exact (handed_rect _).map fun _ _ _ => rfl
  | drawImage =>
    refine (handed_native _).bind fun _ _ _ => ?_
    exact (handed_affine _).map fun _ _ _ => rfl
  | fillText | strokeText => exact (handed_textRun _).map fun _ _ _ => rfl
  | transform | setTransform => exact (handed_affine _).map fun _ _ _ => rfl
  | clearRect => exact (handed_rect _).map fun _ _ _ => rfl
  | setOpacity | setImageQuality => exact (handed_real _).map fun _ _ _ => rfl
  | save | restore => exact .pure rfl

theorem alike_instruction? (policy : Policy) (position : Nat) (tag : Int32) :
    Alike (fun o p => o.map Op.form = p.map Op.form)
      (instruction? policy position tag : Read M (Option (Op M)))
      (instruction? policy position tag : Read N (Option (Op N))) := by
  unfold instruction?
  cases OpKind.ofTag? tag with
  | some kind => exact (alike_op _).map fun _ _ hform => congrArg some hform
  | none => exact (handed_unknownOp policy tag position).map fun _ _ _ => rfl

theorem alike_instructions (policy : Policy) (position : Nat) (tags : List Int32) :
    Alike (fun os ps => os.map Op.form = ps.map Op.form)
      (instructions policy position tags : Read M (List (Op M)))
      (instructions policy position tags : Read N (List (Op N))) := by
  induction tags generalizing position with
  | nil => exact .pure rfl
  | cons tag tags ih =>
    refine (alike_instruction? policy position tag).bind fun first first' hfirst => ?_
    exact (ih (position + 1)).map fun others others' hothers => map_toList_append hfirst hothers

end Read

/-! ## Batches -/

namespace Batch

/-- Only tags and integers decide how a batch is read. Two batches that have these in
    common, and as many reals, texts and references, are both refused with the same error, or
    both read with the same account, into operations that agree one by one in all but the
    reals, texts and references. -/
theorem decode_beside {b : Batch M} {c : Batch N} (h : b.Beside c) (policy : Policy) :
    (∃ e, b.decode policy = .error e ∧ c.decode policy = .error e) ∨
    ∃ p q, b.decode policy = .ok p ∧ c.decode policy = .ok q ∧ q.stats = p.stats ∧
      q.ops.length = p.ops.length ∧ q.ops.map Op.form = p.ops.map Op.form := by
  have halike := Read.alike_instructions policy 0 b.tags _ _ h.feed
  generalize hb : (Read.instructions policy 0 b.tags).run (Feed.ofBatch b) = r at halike
  generalize hc : (Read.instructions policy 0 b.tags).run (Feed.ofBatch c) = r' at halike
  rw [← h.tags] at hc
  cases halike with
  | error feeds =>
    have hrefused := decode_eq_error_iff.mpr ⟨_, hb⟩
    have hrefused' := decode_eq_error_iff.mpr ⟨_, hc⟩
    exact .inl ⟨_, hrefused, hrefused'⟩
  | @ok ops ops' feed feed' forms feeds =>
    have hread : b.decode policy = .ok ⟨ops, feed.stats ⟨b.tags.length, []⟩⟩ :=
      decode_eq_ok_iff.mpr ⟨feed, hb, rfl⟩
    have hread' : c.decode policy = .ok ⟨ops', feed'.stats ⟨c.tags.length, []⟩⟩ :=
      decode_eq_ok_iff.mpr ⟨feed', hc, rfl⟩
    have hstats : feed'.stats ⟨c.tags.length, []⟩ = feed.stats ⟨b.tags.length, []⟩ := by
      rw [feeds.stats, h.tags]
    have hlength : ops'.length = ops.length := by
      rw [← List.length_map Op.form, ← forms, List.length_map]
    exact .inr ⟨_, _, hread, hread', hstats, hlength, forms.symm⟩

/-- A dashed stroke with a miter limit, a path with an unknown segment, an unknown tag, a
    text and a font. -/
def drawn : Batch Nat where
  tags := [3, 5, 99, 10, 1]
  ints := [1, 1, 2, 3, 0, 7, 3]
  reals := [2.0, 1.0, 0.5, 4.0, 3.0, 5.0, 1.0, 2.0, 0.25]
  texts := ["total"]
  natives := [some 7]

/-- The same with everything blackened that can be. -/
def redacted : Batch String where
  tags := [3, 5, 99, 10, 1]
  ints := [1, 1, 2, 3, 0, 7, 3]
  reals := List.replicate 9 0.0
  texts := [""]
  natives := [none]

/-- What is blackened can still be seen to be a stroke, a path, a text and a font. -/
theorem decode_beside_redacted :
    drawn.Beside redacted ∧
    ∃ q, redacted.decode .skip = .ok q ∧
      q.stats =
        { skippedOps := 1, skippedSegments := 1,
          consumed := { tags := 5, ints := 7, reals := 9, texts := 1, natives := 1 } } ∧
      q.ops.length = 4 ∧
      q.ops.map Op.form =
        [.stroke ⟨1, .butt, .miter, true⟩, .shape .strokeShape (.path [.moveTo, .close]),
          .plain .fillText, .plain .setFont] := by
  have hbeside : drawn.Beside redacted := ⟨rfl, rfl, rfl, rfl, rfl⟩
  have hdecode : (drawn.decode .skip).toOption =
      some ⟨[.setStroke ⟨2.0, [1.0], 0.5, .butt, .miter, some 4.0⟩,
          .strokeShape (.path [.moveTo ⟨3.0, 5.0⟩, .close]),
          .fillText ⟨"total", ⟨1.0, 2.0⟩, 0.25⟩, .setFont (some 7)],
        { skippedOps := 1, skippedSegments := 1,
          consumed := { tags := 5, ints := 7, reals := 9, texts := 1, natives := 1 } }⟩ := by
    decide +kernel
  rcases decode_beside hbeside .skip with
    ⟨e, hrefused, -⟩ | ⟨p, q, hread, hread', hstats, hlength, hforms⟩
  · rw [hrefused] at hdecode
    cases hdecode
  · rw [hread] at hdecode
    cases hdecode
    exact ⟨hbeside, q, hread', hstats, hlength, hforms⟩

end Batch

end BatchDraw
