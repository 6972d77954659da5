/-
  BatchDraw.Proofs.Wire.Noticing

  What the tolerant reader says about a batch.

  Only integers can be out of place: tags of instructions, and among the operands counts,
  codes and tags of segments. So what is noticed follows from the tags and the integers
  alone, and `Notice.due` lists it without reading: the integers are shared out among the
  operations, and each operation has notices about its own ones, in their order.

  A decoder has noticed what is due for the tags and the integers that it has read
  (`Batch.notices_skip`). It does not matter where an error stops it: what was noticed
  before is due for the integers that were read before.
-/
import BatchDraw.Proofs.Wire.Strict
import BatchDraw.Proofs.Wire.Reports
import BatchDraw.Proofs.Wire.Calls

namespace BatchDraw

/-! ## Notices that are due -/

instance (kind : OpKind) (value : Int32) :
    (operand : Operand) → Decidable (operand.Refuses kind value)
  | .dashCount => inferInstanceAs (Decidable (kind = .setStroke ∧ value < 0))
  | .lineCap | .lineJoin =>
    inferInstanceAs (Decidable (kind = .setStroke ∧ (value < 0 ∨ 2 < value)))
  | .segmentCount => inferInstanceAs (Decidable (kind.hasShape = true ∧ value < -1))

/-- The notice that is due for a value of an operand, if it is out of its range. -/
def Operand.due (kind : OpKind) (position : Nat) (operand : Operand) (value : Int32) :
    List Notice :=
  if operand.Refuses kind value then [.outOfRange operand value position] else []

/-- The notices that are due for the tags of segments. -/
def SegmentKind.due (position : Nat) (tags : List Int32) : List Notice :=
  (tags.filter fun tag => !knows tag).map (.unknownSegment · position)

namespace OpKind

/-- How many of the integers that are left belong to an operation of a kind. -/
def intLength (kind : OpKind) (ints : List Int32) : Nat :=
  if kind = .setStroke then 3
  else if kind.hasShape then 1 + (ints.headD 0).toNatClampNeg
  else 0

/-- The notices that are due for the integers of an operation of a kind. -/
def due (kind : OpKind) (position : Nat) (ints : List Int32) : List Notice :=
  if kind = .setStroke then
    (List.zipWith (Operand.due kind position) [.dashCount, .lineCap, .lineJoin] ints).flatten
  else if kind.hasShape then
    (ints.take 1).flatMap (Operand.due kind position .segmentCount) ++
      SegmentKind.due position (ints.drop 1)
  else []

end OpKind

/-- The notices that are due for tags, the first of them at a position, and for the integers
    of their operations. -/
def Notice.due : Nat → List Int32 → List Int32 → List Notice
  | _, [], _ => []
  | position, tag :: tags, ints =>
    match OpKind.ofTag? tag with
    | none => .unknownOp tag position :: due (position + 1) tags ints
    | some kind =>
      kind.due position (ints.take (kind.intLength ints)) ++
        due (position + 1) tags (ints.drop (kind.intLength ints))

theorem SegmentKind.due_append (position : Nat) (tags others : List Int32) :
    due position (tags ++ others) = due position tags ++ due position others := by
  rw [due, List.filter_append, List.map_append]
  rfl

namespace OpKind

variable {kind : OpKind} {position : Nat} {ints : List Int32}

theorem ne_setStroke_of_hasShape (h : kind.hasShape = true) : kind ≠ .setStroke := by
  rintro rfl
  cases h

/-- The integers of a shape are its word and as many tags as that counts. -/
theorem intLength_shape (h : kind.hasShape = true) (word : Int32) (tags : List Int32) :
    kind.intLength (word :: tags) = 1 + word.toNatClampNeg := by
  rw [intLength, if_neg (ne_setStroke_of_hasShape h), if_pos h, List.headD_cons]

theorem intLength_plain (h : kind.isPlain = true) (ints : List Int32) :
    kind.intLength ints = 0 := by
  obtain ⟨hstroke, hshape⟩ : kind ≠ .setStroke ∧ ¬ kind.hasShape = true := by
    simpa [isPlain] using h
  rw [intLength, if_neg hstroke, if_neg hshape]

/-- Nothing is due before an integer is read. -/
theorem due_nil (kind : OpKind) (position : Nat) : kind.due position [] = [] := by
  unfold due
  split_ifs <;> rfl

theorem due_shape (h : kind.hasShape = true) (word : Int32) (tags : List Int32) :
    kind.due position (word :: tags) =
      Operand.segmentCount.due kind position word ++ SegmentKind.due position tags := by
  rw [due, if_neg (ne_setStroke_of_hasShape h), if_pos h]
  show [word].flatMap _ ++ _ = _
  rw [List.flatMap_singleton]
  rfl

/-- An operation reads its integers in front of any others. -/
theorem intLength_append (h : ints.length = kind.intLength ints) (rest : List Int32) :
    kind.intLength (ints ++ rest) = kind.intLength ints := by
  unfold intLength at h ⊢
  by_cases hshape : kind.hasShape = true
  · cases ints with
    | nil =>
      -- There is at least the word of the shape.
      rw [if_pos hshape, List.length_nil] at h
      split at h <;> omega
    | cons word ints => rfl
  · rw [if_neg hshape, if_neg hshape]

end OpKind

/-- Of the negative counts of segments only the mark of a rectangle is in range. -/
theorem Operand.refuses_segmentCount_iff {kind : OpKind} {word : Int32}
    (hshape : kind.hasShape = true) (hmark : word ≠ rectMark) :
    segmentCount.Refuses kind word ↔ word < 0 := by
  have hne : word.toInt ≠ -1 := fun h => hmark (Int32.toInt_inj.mp h)
  have hone : (-1 : Int32).toInt = -1 := by decide
  have hzero : (0 : Int32).toInt = 0 := by decide
  simp only [Refuses, hshape, true_and, Int32.lt_iff_toInt_lt]
  omega

namespace Notice

variable {kind : OpKind} {position : Nat} {tag : Int32} {ints : List Int32}

theorem due_unknown (htag : OpKind.ofTag? tag = none) (tags ints : List Int32) :
    due position (tag :: tags) ints = .unknownOp tag position :: due (position + 1) tags ints := by
  rw [due, htag]

/-- An operation with all its integers is noticed in front of the others. -/
theorem due_known (htag : OpKind.ofTag? tag = some kind) (h : ints.length = kind.intLength ints)
    (tags rest : List Int32) :
    due position (tag :: tags) (ints ++ rest) =
      kind.due position ints ++ due (position + 1) tags rest := by
  simp only [due, htag, OpKind.intLength_append h, ← h, List.take_left, List.drop_left]

/-- An operation that stopped among its integers is noticed as far as it came. -/
theorem due_stopped (htag : OpKind.ofTag? tag = some kind)
    (h : ints.length ≤ kind.intLength ints) : due position [tag] ints = kind.due position ints := by
  simp only [due, htag, List.take_of_length_le h, List.append_nil]

end Notice

variable {N : Type}

namespace Read

variable {position : Nat} {kind : OpKind}

/-! ## Strokes -/

/-- The integers are some of those of an operation, and the notices are due for them. -/
def Partly (kind : OpKind) (position : Nat) (ints : List Int32) (notices : List Notice) : Prop :=
  ints.length ≤ kind.intLength ints ∧ notices = kind.due position ints

/-- The integers are those of an operation, and the notices are due for them. -/
def Wholly (kind : OpKind) (position : Nat) (ints : List Int32) (notices : List Notice) : Prop :=
  ints.length = kind.intLength ints ∧ notices = kind.due position ints

variable {ints : List Int32} {notices : List Notice}

theorem partly_nil : Partly kind position [] [] :=
  ⟨Nat.zero_le _, (kind.due_nil position).symm⟩

theorem Wholly.partly (h : Wholly kind position ints notices) : Partly kind position ints notices :=
  ⟨Nat.le_of_eq h.1, h.2⟩

/-- A code that stands for nothing is noticed, and no other code is. -/
theorem reports_code {α : Type} {m : Read N α} {operand : Operand} {code : Int32} {fallback : α}
    {found : Option α} (hrefused : found = none ↔ operand.Refuses kind code)
    (hnone : found = none → m = outOfRange ⟨.skip, position, kind⟩ operand code fallback)
    (hsome : ∀ a, found = some a → m = Pure.pure a) :
    Reports m (fun _ _ => False) fun _ ints notices =>
      ints = [] ∧ notices = operand.due kind position code := by
  cases found with
  | none =>
    have hdue : operand.due kind position code = [.outOfRange operand code position] :=
      if_pos (hrefused.mp rfl)
    rw [hnone rfl]
    refine (reports_outOfRange operand code fallback).mono (fun _ _ h => h) ?_
    rintro _ i n ⟨-, rfl, rfl⟩
    exact ⟨rfl, hdue.symm⟩
  | some a =>
    have hdue : operand.due kind position code = [] :=
      if_neg fun h => Option.some_ne_none a (hrefused.mpr h)
    rw [hsome a rfl]
    exact .pure ⟨rfl, hdue.symm⟩

theorem reports_cap :
    Reports (cap ⟨.skip, position, .setStroke⟩ : Read N Cap)
      (fun ints notices => ints = [] ∧ notices = []) fun _ ints notices =>
        ∃ code, ints = [code] ∧ notices = Operand.lineCap.due .setStroke position code := by
  refine reports_int_bind ⟨rfl, rfl⟩ fun code => ?_
  have hrefused : Cap.ofCode? code = none ↔ Operand.lineCap.Refuses .setStroke code := by
    rw [Cap.ofCode?_eq_none_iff, Operand.Refuses, eq_self, true_and]
  refine (reports_code hrefused (fun h => by rw [h]) (fun a h => by rw [h])).mono ?_ ?_
  · intro _ _ h
    exact h.elim
  · rintro _ _ _ ⟨rfl, rfl⟩
    exact ⟨code, rfl, rfl⟩

theorem reports_join (code : Int32) :
    Reports (join ⟨.skip, position, .setStroke⟩ code : Read N Join) (fun _ _ => False)
      fun _ ints notices =>
        ints = [] ∧ notices = Operand.lineJoin.due .setStroke position code := by
  have hrefused : Join.ofCode? code = none ↔ Operand.lineJoin.Refuses .setStroke code := by
    rw [Join.ofCode?_eq_none_iff, Operand.Refuses, eq_self, true_and]
  exact reports_code hrefused (fun h => by rw [join, h]) (fun a h => by rw [join, h])

/-- A stroke reads its three integers in the order of the notices. -/
theorem reports_stroke :
    Reports (stroke ⟨.skip, position, .setStroke⟩ : Read N StrokeStyle)
      (Partly .setStroke position) fun _ => Wholly .setStroke position := by
  refine silent_real.andThen partly_nil fun width => reports_int_bind partly_nil fun word => ?_
  refine (reports_countOf .dashCount word).bind (fun _ _ h => h.elim) ?_
  rintro count _ notices ⟨-, rfl, hnotices⟩
  obtain rfl : notices = Operand.dashCount.due .setStroke position word := by
    rw [hnotices, Operand.due]
    simp only [Operand.Refuses, true_and]
  -- What can fail from here on leaves the notices of the integers in front of it.
  have hword : Partly .setStroke position [word]
      (Operand.dashCount.due .setStroke position word ++ []) :=
    ⟨Nat.le_add_left 1 2, rfl⟩
  refine (silent_reals count).andThen hword fun dash => ?_
  refine (silent_dashOffset count).andThen hword fun offset => ?_
  refine reports_cap.bind ?_ ?_
  · rintro _ _ ⟨rfl, rfl⟩
    exact hword
  rintro cap _ _ ⟨capCode, rfl, rfl⟩
  have hcap : Partly .setStroke position [word, capCode]
      (Operand.dashCount.due .setStroke position word ++
        (Operand.lineCap.due .setStroke position capCode ++ [])) :=
    ⟨Nat.le_add_left 2 1, rfl⟩
  refine reports_int_bind hcap fun joinCode => ?_
  refine (reports_join joinCode).bind (fun _ _ h => h.elim) ?_
  rintro join _ _ ⟨rfl, rfl⟩
  have hjoin : Wholly .setStroke position [word, capCode, joinCode]
      (Operand.dashCount.due .setStroke position word ++
        (Operand.lineCap.due .setStroke position capCode ++
          (Operand.lineJoin.due .setStroke position joinCode ++ []))) := ⟨rfl, rfl⟩
  exact (silent_miterLimit joinCode).andThen hjoin.partly fun limit => .pure hjoin

/-! ## Shapes -/

/-- A segment reads a tag, which is noticed when it is unknown. -/
theorem reports_segment? :
    Reports (segment? ⟨.skip, position, kind⟩ : Read N (Option Segment))
      (fun ints notices => ints.length ≤ 1 ∧ notices = SegmentKind.due position ints)
      fun _ ints notices => ints.length = 1 ∧ notices = SegmentKind.due position ints := by
  refine reports_int_bind ⟨Nat.zero_le _, rfl⟩ fun tag => ?_
  cases hof : SegmentKind.ofTag? tag with
  | none =>
    have hdue : SegmentKind.due position [tag] = [.unknownSegment tag position] := by
      simp [SegmentKind.due, SegmentKind.knows, hof]
    refine (reports_unknownSegment tag).bind (fun _ _ h => h.elim) ?_
    rintro _ _ _ ⟨rfl, rfl⟩
    exact .pure ⟨rfl, hdue.symm⟩
  | some found =>
    have hdue : SegmentKind.due position [tag] = [] := by
      simp [SegmentKind.due, SegmentKind.knows, hof]
    have htag : [tag].length ≤ 1 ∧ [] = SegmentKind.due position [tag] := ⟨Nat.le_refl 1, hdue.symm⟩
    cases found with
    | moveTo | lineTo => exact silent_point.andThen htag fun _ => .pure ⟨rfl, hdue.symm⟩
    | curveTo =>
      exact silent_point.andThen htag fun _ => silent_point.andThen htag fun _ =>
        silent_point.andThen htag fun _ => .pure ⟨rfl, hdue.symm⟩
    | close => exact .pure ⟨rfl, hdue.symm⟩

/-- Segments read one tag each. -/
theorem reports_segments (count : Nat) :
    Reports (segments ⟨.skip, position, kind⟩ count : Read N (List Segment))
      (fun ints notices => ints.length ≤ count ∧ notices = SegmentKind.due position ints)
      fun _ ints notices => ints.length = count ∧ notices = SegmentKind.due position ints := by
  induction count with
  | zero => exact .pure ⟨rfl, rfl⟩
  | succ count ih =>
    refine reports_segment?.bind ?_ ?_
    · rintro i n ⟨hlength, hnotices⟩
      exact ⟨by omega, hnotices⟩
    rintro found i n ⟨hlength, rfl⟩
    refine ih.bind ?_ ?_
    · rintro j n' ⟨hlength', rfl⟩
      refine ⟨?_, (SegmentKind.due_append position i j).symm⟩
      rw [List.length_append]
      omega
    rintro others j n' ⟨hlength', rfl⟩
    refine .pure ⟨?_, ?_⟩
    · rw [List.append_nil, List.length_append]
      omega
    · rw [List.append_nil, List.append_nil, SegmentKind.due_append]

/-- A shape reads its word and as many tags as that counts. -/
theorem reports_shape (hshape : kind.hasShape = true) :
    Reports (Read.shape ⟨.skip, position, kind⟩ : Read N Shape) (Partly kind position)
      fun _ => Wholly kind position := by
  refine reports_int_bind partly_nil fun word => ?_
  by_cases hmark : word = rectMark
  · rw [if_pos hmark]
    subst hmark
    -- The mark is negative, but it is not out of range.
    have hrange : ¬ Operand.segmentCount.Refuses kind rectMark := by
      rintro ⟨-, hrange⟩
      exact absurd hrange (by decide)
    have hrect : Wholly kind position [rectMark] [] := by
      refine ⟨(OpKind.intLength_shape hshape rectMark []).symm, ?_⟩
      rw [OpKind.due_shape hshape, Operand.due, if_neg hrange]
      rfl
    exact silent_rect.andThen hrect.partly fun _ => .pure hrect
  · rw [if_neg hmark]
    refine (reports_countOf .segmentCount word).bind (fun _ _ h => h.elim) ?_
    rintro count _ notices ⟨rfl, rfl, hnotices⟩
    obtain rfl : notices = Operand.segmentCount.due kind position word := by
      rw [hnotices, Operand.due]
      simp only [Operand.refuses_segmentCount_iff hshape hmark]
    refine (reports_segments word.toNatClampNeg).bind ?_ ?_
    · rintro tags _ ⟨htags, rfl⟩
      refine ⟨?_, (OpKind.due_shape hshape word tags).symm⟩
      show (word :: tags).length ≤ kind.intLength (word :: tags)
      rw [OpKind.intLength_shape hshape, List.length_cons]
      omega
    · rintro segments tags _ ⟨htags, rfl⟩
      refine .pure ?_
      rw [List.append_nil, List.append_nil]
      refine ⟨?_, (OpKind.due_shape hshape word tags).symm⟩
      show (word :: tags).length = kind.intLength (word :: tags)
      rw [OpKind.intLength_shape hshape, List.length_cons]
      omega

/-! ## Operations -/

/-- A reader of an operation without integers. -/
theorem Silent.reports {m : Read N (Op N)} (h : Silent m) (hplain : kind.isPlain = true) :
    Reports m (Partly kind position) fun _ => Wholly kind position := by
  have hwholly : Wholly kind position [] [] :=
    ⟨(OpKind.intLength_plain hplain []).symm, (kind.due_nil position).symm⟩
  refine h.mono ?_ ?_
  · rintro _ _ ⟨rfl, rfl⟩
    exact partly_nil
  · rintro _ _ _ ⟨rfl, rfl⟩
    exact hwholly

theorem reports_op :
    Reports (Read.op ⟨.skip, position, kind⟩ : Read N (Op N)) (Partly kind position)
      fun _ => Wholly kind position := by
  unfold Read.op
  cases kind with
  | setFont | setPaint => exact Silent.reports silent_native.map rfl
  | setStroke => exact reports_stroke.map fun _ _ _ h => h
  | setOpacity | setImageQuality => exact Silent.reports silent_real.map rfl
  | strokeShape | fillShape | clipShape => exact (reports_shape rfl).map fun _ _ _ h => h
  | drawImageRect =>
    refine Silent.reports ?_ rfl
    exact silent_native.bind fun _ => silent_rect.bind fun _ => silent_rect.bind fun _ => .pure _
  | drawImage =>
    refine Silent.reports ?_ rfl
    exact silent_native.bind fun _ => silent_affine.bind fun _ => .pure _
  | fillText | strokeText => exact Silent.reports silent_textRun.map rfl
  | transform | setTransform => exact Silent.reports silent_affine.map rfl
  | save | restore => exact Silent.reports (.pure _) rfl
  | clearRect => exact Silent.reports silent_rect.map rfl

/-! ## Instructions -/

section Instructions

variable {tag : Int32} {tags : List Int32} {found : Option (Op N)} {ops : List (Op N)}
  {front back : Feed N} {e : WireError}

/-- An instruction that was read or passed over is noticed in front of the others. -/
theorem leaves_of_run_instruction?_ok
    (h : (instruction? .skip position tag).run front = .ok found back) :
    ∃ ints notices, front.Leaves ints notices back ∧ ∀ others rest,
      Notice.due position (tag :: others) (ints ++ rest) =
        notices ++ Notice.due (position + 1) others rest := by
  cases htag : OpKind.ofTag? tag with
  | none =>
    obtain ⟨-, -, hpasses⟩ := (run_instruction?_unknown_eq_ok_iff htag).mp h
    refine ⟨_, _, hpasses.leaves, fun others rest => ?_⟩
    exact Notice.due_unknown htag others rest
  | some kind =>
    rw [instruction?, htag] at h
    obtain ⟨op, hop, -⟩ := run_map_eq_ok_iff.mp h
    obtain ⟨ints, notices, hleaves, hlength, rfl⟩ := reports_op.ok hop
    exact ⟨ints, _, hleaves, Notice.due_known htag hlength⟩

/-- An instruction that cannot be read is noticed as far as it was read. -/
theorem leaves_of_run_instruction?_error
    (h : (instruction? .skip position tag).run front = .error e back) :
    ∃ ints, front.Leaves ints (Notice.due position [tag] ints) back := by
  cases htag : OpKind.ofTag? tag with
  | none =>
    obtain ⟨hpolicy, -⟩ := (run_instruction?_unknown_eq_error_iff htag).mp h
    cases hpolicy
  | some kind =>
    have hreports : Reports (instruction? .skip position tag : Read N (Option (Op N)))
        (Partly kind position) fun _ => Wholly kind position := by
      rw [instruction?, htag]
      exact reports_op.map fun _ _ _ h => h
    obtain ⟨ints, notices, hleaves, hlength, rfl⟩ := hreports.error h
    rw [← Notice.due_stopped htag hlength] at hleaves
    exact ⟨ints, hleaves⟩

/-- A stretch is noticed in front of what is behind it. -/
theorem leaves_of_run_instructions
    (h : (instructions .skip position tags).run front = .ok ops back) :
    ∃ ints notices, front.Leaves ints notices back ∧ ∀ others rest,
      Notice.due position (tags ++ others) (ints ++ rest) =
        notices ++ Notice.due (position + tags.length) others rest := by
  -- On the tags. What is due is stated with the tags and integers behind the stretch, so the
  -- first instruction can take its integers off the front.
  induction tags generalizing position front ops with
  | nil =>
    obtain ⟨-, rfl⟩ := run_pure_eq_ok_iff.mp h
    exact ⟨[], [], Feed.Leaves.refl _, fun _ _ => rfl⟩
  | cons tag tags ih =>
    simp only [instructions, run_bind_eq_ok_iff, run_pure_eq_ok_iff] at h
    obtain ⟨first, middle, hfirst, others, last, hothers, -, rfl⟩ := h
    obtain ⟨i, m, hi, hdue⟩ := leaves_of_run_instruction?_ok hfirst
    obtain ⟨j, n, hj, hdue'⟩ := ih hothers
    refine ⟨i ++ j, m ++ n, hi.trans hj, fun others rest => ?_⟩
    have hposition : position + (tag :: tags).length = position + 1 + tags.length := by
      rw [List.length_cons]
      omega
    rw [List.append_assoc, List.cons_append, hdue, hdue', hposition, List.append_assoc]

end Instructions

end Read

/-! ## Batches -/

namespace Decoder

variable {b : Batch N} {policy : Policy} {ops : List (Op N)} {e : WireError} {d : Decoder N}

/-- The decoder of a batch after so many calls that it has come to the end or to an error. -/
def last (b : Batch N) (policy : Policy) : Decoder N := (ofBatch b policy).advance (b.length + 1)

/-- A decoder has left the notices that are due for what it has read of a batch. -/
def Notes (b : Batch N) (d : Decoder N) : Prop :=
  d.feed.notices =
    Notice.due 0 (b.tags.take d.stats.consumed.tags) (b.ints.take d.stats.consumed.ints)

theorem Behind.notes (h : Behind b .skip ops d) : Notes b d := by
  cases h with
  | @intro before after ops feed htags hrun =>
    obtain ⟨ints, notices, hleaves, hdue⟩ := Read.leaves_of_run_instructions hrun
    obtain ⟨hints, hnotices⟩ := hleaves.ofBatch
    have hdue_all := hdue [] []
    rw [List.append_nil, List.append_nil, Notice.due, List.append_nil] at hdue_all
    show feed.notices = Notice.due 0 (b.tags.take before.length) (b.ints.take feed.ints.position)
    rw [hnotices, hints, htags, List.take_left, hdue_all]

theorem Stopped.notes (h : Stopped b .skip e d) : Notes b d := by
  cases h with
  | @intro before after tag ops front back e htags hrun hbad =>
    -- The tag of the instruction that failed was read, and some of its integers.
    obtain ⟨i, m, hbefore, hdue⟩ := Read.leaves_of_run_instructions hrun
    obtain ⟨j, hlast⟩ := Read.leaves_of_run_instruction?_error hbad
    obtain ⟨hints, hnotices⟩ := (hbefore.trans hlast).ofBatch
    have htake : b.tags.take (before.length + 1) = before ++ [tag] := by
      rw [htags, List.append_cons, ← List.length_singleton (a := tag), ← List.length_append,
        List.take_left]
    show back.notices =
      Notice.due 0 (b.tags.take (before.length + 1)) (b.ints.take back.ints.position)
    rw [hnotices, hints, htake, hdue, Nat.zero_add]

/-- At the end of the tags, the notices are those of the whole batch. -/
theorem Behind.notices_eq (h : Behind b policy ops d) (hrest : d.tags.rest = []) :
    b.notices policy = d.feed.notices := by
  obtain ⟨htags, hrun⟩ := h
  obtain rfl := hrest
  rw [List.append_nil] at htags
  rw [← htags] at hrun
  rw [Batch.notices, Batch.readAll, hrun]

theorem Stopped.notices_eq (h : Stopped b policy e d) : b.notices policy = d.feed.notices := by
  cases h with
  | @intro before after tag ops front back e htags hrun hbad =>
    rw [← Nat.zero_add before.length] at hbad
    have herror := Read.run_eq_error_of_split after hrun hbad
    rw [← htags] at herror
    rw [Batch.notices, Batch.readAll, herror]

/-- The last decoder stands at the end of the tags, or it has stopped. -/
theorem last_cases (b : Batch N) (policy : Policy) :
    (∃ ops, Behind b policy ops (last b policy) ∧ (last b policy).tags.rest = []) ∨
      ∃ e, Stopped b policy e (last b policy) := by
  have hstart := behind_ofBatch b policy
  rcases hstart.standing (b.length + 1) with ⟨hok, hbehind⟩ | ⟨e, -, hstopped⟩
  · exact .inl ⟨_, hbehind, hstart.rest_eq_nil (Nat.lt_succ_self _) hok⟩
  · exact .inr ⟨e, hstopped⟩

end Decoder

namespace Batch

variable {b : Batch N} {policy : Policy} {p : Program N}

/-- The notices of a batch are those due for as much of it as was read. -/
theorem notices_skip (b : Batch N) :
    b.notices .skip = Notice.due 0 (b.tags.take (Decoder.last b .skip).stats.consumed.tags)
      (b.ints.take (Decoder.last b .skip).stats.consumed.ints) := by
  rcases Decoder.last_cases b .skip with ⟨ops, hbehind, hrest⟩ | ⟨e, hstopped⟩
  · exact (hbehind.notices_eq hrest).trans hbehind.notes
  · exact hstopped.notices_eq.trans hstopped.notes

/-- The strict reader leaves no notice. -/
theorem notices_reject (b : Batch N) : b.notices .reject = [] := by
  have hdiscreet : Read.Discreet (Read.instructions .reject 0 b.tags : Read N (List (Op N))) :=
    Read.discreet_instructions b.tags
  unfold notices readAll
  cases hrun : (Read.instructions .reject 0 b.tags).run (.ofBatch b) with
  | ok ops feed =>
    obtain ⟨_, _, hleaves, rfl⟩ := hdiscreet.ok hrun
    exact hleaves.ofBatch.2
  | error e feed =>
    obtain ⟨_, _, hleaves, rfl⟩ := hdiscreet.error hrun
    exact hleaves.ofBatch.2

/-- A batch that can be read has the account of its last decoder, -/
theorem stats_of_decode (h : b.decode policy = .ok p) :
    p.stats = (Decoder.last b policy).stats := by
  rcases Decoder.last_cases b policy with ⟨ops, hbehind, hrest⟩ | ⟨e, hstopped⟩
  · rw [hbehind.decode_eq_ok hrest] at h
    cases h
    rfl
  · rw [hstopped.decode_eq_error] at h
    cases h

/-- and what it counts as passed over was noticed. -/
theorem skipped_of_decode (h : b.decode policy = .ok p) :
    p.stats.skippedOps = (b.notices policy).countP Notice.isUnknownOp ∧
      p.stats.skippedSegments = (b.notices policy).countP Notice.isUnknownSegment := by
  obtain ⟨feed, hrun, hstats⟩ := decode_eq_ok_iff.mp h
  obtain ⟨c, notices, hpasses, -⟩ := Read.exists_totals_of_run_ok hrun
  have hnotices : b.notices policy = notices := by
    rw [Batch.notices, readAll, hrun]
    exact hpasses.notices
  have hops : feed.skippedOps = 0 + notices.countP Notice.isUnknownOp := hpasses.skippedOps
  have hsegments : feed.skippedSegments = 0 + notices.countP Notice.isUnknownSegment :=
    hpasses.skippedSegments
  rw [Nat.zero_add] at hops hsegments
  rw [hstats, hnotices]
  exact ⟨hops, hsegments⟩

end Batch

end BatchDraw
