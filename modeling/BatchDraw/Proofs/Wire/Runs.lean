/-
  BatchDraw.Proofs.Wire.Runs

  What a run over a stretch of instructions takes.

  An instruction of a known kind keeps the contract of its operation; one with an
  unknown tag takes nothing. So a run over a stretch takes the operands of the
  operations it returns, and a segment tag more for every segment that was passed
  over (`Totals`). In front of the same operands it runs alike
  (`Read.exists_totals_of_run_ok`), and every entry that it takes is taken by one
  of its instructions (`Read.exists_split_of_position`).
-/
import BatchDraw.Proofs.Wire.Readers
import BatchDraw.Proofs.Wire.Streaming

namespace BatchDraw

variable {N : Type} {b c : Batch N} {m n : List Notice} {ops others : List (Op N)}

/-! ## Totals -/

/-- The operands `b` are those of `ops`, and `count` instructions were read for
    them: one for each operation and one for each that was passed over. -/
structure Totals (count : Nat) (ops : List (Op N)) (b : Batch N) (notices : List Notice) :
    Prop where
  tags : count = ops.length + notices.countP Notice.isUnknownOp
  ints : b.ints.length =
    (ops.map Op.intCount).sum + notices.countP Notice.isUnknownSegment
  reals : b.reals.length = (ops.map Op.realCount).sum
  texts : b.texts = ops.flatMap Op.texts
  natives : b.natives = ops.flatMap Op.natives

theorem totals_empty : Totals 0 [] (.empty : Batch N) [] :=
  ⟨rfl, rfl, rfl, rfl, rfl⟩

/-- An unknown tag is an instruction without an operation and without operands. -/
theorem totals_unknownOp (tag : Int32) (position : Nat) :
    Totals 1 [] (.empty : Batch N) [.unknownOp tag position] :=
  ⟨rfl, rfl, rfl, rfl, rfl⟩

theorem Op.Amounts.totals {op : Op N} (h : op.Amounts b n) : Totals 1 [op] b n := by
  refine ⟨?_, ?_, ?_, ?_, ?_⟩
  · rw [h.known, List.length_singleton]
  · rw [h.ints, List.map_singleton, List.sum_singleton]
  · rw [h.reals, List.map_singleton, List.sum_singleton]
  · rw [h.texts, List.flatMap_singleton]
  · rw [h.natives, List.flatMap_singleton]

/-- Totals add up. -/
theorem Totals.append {j k : Nat} (hb : Totals j ops b m) (hc : Totals k others c n) :
    Totals (j + k) (ops ++ others) (b ++ c) (m ++ n) := by
  refine ⟨?_, ?_, ?_, ?_, ?_⟩
  · rw [hb.tags, hc.tags, List.length_append, List.countP_append]
    omega
  · rw [Batch.ints_append, List.length_append, hb.ints, hc.ints, List.map_append,
      List.sum_append, List.countP_append]
    omega
  · rw [Batch.reals_append, List.length_append, hb.reals, hc.reals, List.map_append,
      List.sum_append]
  · rw [Batch.texts_append, hb.texts, hc.texts, List.flatMap_append]
  · rw [Batch.natives_append, hb.natives, hc.natives, List.flatMap_append]

namespace Read

variable {policy : Policy} {position : Nat} {tag : Int32} {tags : List Int32} {kind : OpKind}
  {front back : Feed N} {found : Option (Op N)} {e : WireError}

/-! ## Instructions -/

/-- An instruction of a known kind is its operation. -/
theorem contract_instruction? (last : Option Int32) (hkind : OpKind.ofTag? tag = some kind) :
    Contract ⟨policy, position, kind⟩ last
      (instruction? policy position tag : Read N (Option (Op N)))
      fun found => Totals 1 found.toList := by
  unfold instruction?
  rw [hkind]
  exact contract_op.map fun op b notices h => h.totals

/-- An unknown tag is passed over when that is allowed, and only a notice is left. -/
theorem run_instruction?_unknown_eq_ok_iff (htag : OpKind.ofTag? tag = none) :
    (instruction? policy position tag).run front = .ok found back ↔
      policy = .skip ∧ found = none ∧
        front.Passes .empty [.unknownOp tag position] back := by
  unfold instruction?
  rw [htag, Feed.passes_empty_iff]
  cases policy with
  | skip =>
    simp only [run_bind_eq_ok_iff, run_pure_eq_ok_iff, true_and]
    refine ⟨?_, ?_⟩
    · intro h
      obtain ⟨_, middle, hskip, rfl, rfl⟩ := h
      cases hskip
      exact ⟨rfl, rfl⟩
    · intro h
      obtain ⟨rfl, rfl⟩ := h
      exact ⟨(), _, rfl, rfl, rfl⟩
  | reject =>
    refine ⟨?_, ?_⟩
    · intro h
      obtain ⟨_, _, hskip, -⟩ := run_bind_eq_ok_iff.mp h
      cases hskip
    · intro h
      obtain ⟨hpolicy, -⟩ := h
      cases hpolicy

/-- Else it is refused where it stands. -/
theorem run_instruction?_unknown_eq_error_iff (htag : OpKind.ofTag? tag = none) :
    (instruction? policy position tag).run front = .error e back ↔
      policy = .reject ∧ e = .unknownOp tag position ∧ back = front := by
  unfold instruction?
  rw [htag, run_bind_eq_error_iff]
  cases policy with
  | skip =>
    refine ⟨?_, ?_⟩
    · rintro (hskip | ⟨_, _, -, hpure⟩)
      · cases hskip
      · cases hpure
    · intro h
      obtain ⟨hpolicy, -⟩ := h
      cases hpolicy
  | reject =>
    refine ⟨?_, ?_⟩
    · rintro (hreject | ⟨_, _, -, hpure⟩)
      · cases hreject
        exact ⟨rfl, rfl, rfl⟩
      · cases hpure
    · intro h
      obtain ⟨-, rfl, rfl⟩ := h
      exact .inl rfl

/-- An instruction takes the operands of its operation, and in front of the same
    operands it does so again. -/
theorem exists_totals_of_run_instruction?_ok
    (h : (instruction? policy position tag).run front = .ok found back) :
    ∃ b notices, front.Passes b notices back ∧ Totals 1 found.toList b notices ∧
      ∀ {start stop : Feed N}, start.Passes b notices stop →
        (instruction? policy position tag).run start = .ok found stop := by
  cases htag : OpKind.ofTag? tag with
  | none =>
    obtain ⟨hpolicy, rfl, hpasses⟩ := (run_instruction?_unknown_eq_ok_iff htag).mp h
    refine ⟨.empty, _, hpasses, totals_unknownOp tag position, ?_⟩
    intro start stop hstart
    exact (run_instruction?_unknown_eq_ok_iff htag).mpr ⟨hpolicy, rfl, hstart⟩
  | some kind =>
    obtain ⟨b, notices, hpasses, htotals, hneeds⟩ := (contract_instruction? none htag).ok h
    exact ⟨b, notices, hpasses, htotals, hneeds.enough⟩

/-- An instruction that cannot be read has taken what it came across before. -/
theorem exists_passes_of_run_instruction?_error
    (h : (instruction? policy position tag).run front = .error e back) :
    ∃ b notices, front.Passes b notices back := by
  cases htag : OpKind.ofTag? tag with
  | none =>
    obtain ⟨-, -, rfl⟩ := (run_instruction?_unknown_eq_error_iff htag).mp h
    exact ⟨.empty, [], Feed.Takes.refl _⟩
  | some kind =>
    obtain ⟨b, notices, hpasses, -⟩ := (contract_instruction? none htag).error h
    exact ⟨b, notices, hpasses⟩

/-! ## Stretches -/

/-- A stretch takes the operands of its operations, and in front of the same
    operands it does so again. -/
theorem exists_totals_of_run_ok
    (h : (instructions policy position tags).run front = .ok ops back) :
    ∃ b notices, front.Passes b notices back ∧ Totals tags.length ops b notices ∧
      ∀ {start stop : Feed N}, start.Passes b notices stop →
        (instructions policy position tags).run start = .ok ops stop := by
  induction tags generalizing position front ops with
  | nil =>
    obtain ⟨rfl, rfl⟩ := run_pure_eq_ok_iff.mp h
    refine ⟨.empty, [], Feed.Takes.refl _, totals_empty, ?_⟩
    intro start stop hstart
    exact run_pure_eq_ok_iff.mpr ⟨rfl, Feed.takes_empty_iff.mp hstart⟩
  | cons tag tags ih =>
    simp only [instructions, run_bind_eq_ok_iff, run_pure_eq_ok_iff] at h
    obtain ⟨first, middle, hfirst, others, last, hothers, rfl, rfl⟩ := h
    obtain ⟨b, m, hb, hb_totals, hb_again⟩ := exists_totals_of_run_instruction?_ok hfirst
    obtain ⟨c, n, hc, hc_totals, hc_again⟩ := ih hothers
    refine ⟨b ++ c, m ++ n, hb.trans hc, ?_, ?_⟩
    · rw [List.length_cons, Nat.add_comm]
      exact hb_totals.append hc_totals
    · intro start stop hstart
      obtain ⟨middle, hstart_b, hstart_c⟩ := Feed.passes_append_iff.mp hstart
      simp only [instructions, run_bind_eq_ok_iff, run_pure_eq_ok_iff]
      exact ⟨first, middle, hb_again hstart_b, others, stop, hc_again hstart_c, rfl, rfl⟩

/-- Every entry of a stack that a stretch takes is taken by one of its
    instructions. -/
theorem exists_split_of_position {s : Stack} {k : Nat}
    (h : (instructions policy position tags).run front = .ok ops back)
    (hfront : (front.cursor s).position ≤ k) (hback : k < (back.cursor s).position) :
    ∃ before tag after begun middle found behind rest, tags = before ++ tag :: after ∧
      (instructions policy position before).run front = .ok begun middle ∧
      (instruction? policy (position + before.length) tag).run middle = .ok found behind ∧
      (instructions policy (position + before.length + 1) after).run behind = .ok rest back ∧
      (middle.cursor s).position ≤ k ∧ k < (behind.cursor s).position := by
  induction tags generalizing position front ops with
  | nil =>
    obtain ⟨-, rfl⟩ := run_pure_eq_ok_iff.mp h
    omega
  | cons tag tags ih =>
    simp only [instructions, run_bind_eq_ok_iff, run_pure_eq_ok_iff] at h
    obtain ⟨first, next, hfirst, others, last, hothers, rfl, rfl⟩ := h
    -- Either the first instruction takes the entry, or one of the others does.
    by_cases hnext : k < (next.cursor s).position
    · exact ⟨[], tag, tags, [], front, first, next, others, rfl, rfl, hfirst, hothers, hfront,
        hnext⟩
    · obtain ⟨before, reader, after, begun, middle, found, behind, rest, rfl, hbefore, hreader,
        hafter, hmiddle, hbehind⟩ := ih hothers (Nat.le_of_not_lt hnext)
      have hposition : position + (tag :: before).length = position + 1 + before.length := by
        rw [List.length_cons]
        omega
      refine ⟨tag :: before, reader, after, first.toList ++ begun, middle, found, behind, rest,
        rfl, ?_, ?_, ?_, hmiddle, hbehind⟩
      · simp only [instructions, run_bind_eq_ok_iff, run_pure_eq_ok_iff]
        exact ⟨first, next, hfirst, begun, middle, hbefore, rfl, rfl⟩
      · rwa [hposition]
      · rwa [hposition]

end Read

end BatchDraw
