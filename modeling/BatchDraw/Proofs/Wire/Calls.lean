/-
  BatchDraw.Proofs.Wire.Calls

  Where a decoder stands after any number of calls.

  Either it stands behind a stretch of tags that was read and has yielded the
  operations of the stretch (`Decoder.Behind`), or it stands behind an instruction
  that could not be read and has yielded the error (`Decoder.Stopped`). One call
  goes from the former to one of the two (`Decoder.Behind.next`) and from the
  latter nowhere, so the same holds of any number of calls
  (`Decoder.Behind.standing`).

  There are enough calls to come to the end. So the error of a whole batch is the
  one that its decoder yields (`Batch.decode_eq_error_iff_fails`).
-/
import BatchDraw.Proofs.Wire.Streaming

namespace BatchDraw

variable {N : Type} {b : Batch N} {policy : Policy} {e : WireError}

namespace Decoder

variable {d d' : Decoder N} {ops : List (Op N)} {op : Op N} {n : Nat}

/-- The operations among what the first calls yield. -/
def yielded (d : Decoder N) (n : Nat) : List (Op N) :=
  (d.items n).filterMap fun item => item.bind Except.toOption

/-- One of the first calls yields the error. -/
def Fails (d : Decoder N) (n : Nat) (e : WireError) : Prop :=
  some (.error e) ∈ d.items n

/-! ## Counting calls -/

theorem items_add_one (d : Decoder N) (n : Nat) :
    d.items (n + 1) = d.items n ++ [(d.advance n).next.1] := by
  induction n generalizing d with
  | zero => rfl
  | succ n ih =>
    rw [items, ih, ← List.cons_append]
    rfl

theorem advance_add_one (d : Decoder N) (n : Nat) :
    d.advance (n + 1) = (d.advance n).next.2 := by
  induction n generalizing d with
  | zero => rfl
  | succ n ih => exact ih d.next.2

theorem not_fails_zero : ¬ d.Fails 0 e := List.not_mem_nil

/-- An error is yielded by the first call or behind it. -/
theorem fails_add_one_iff :
    d.Fails (n + 1) e ↔ d.next.1 = some (.error e) ∨ d.next.2.Fails n e := by
  rw [Fails, items, List.mem_cons, eq_comm, Fails]

/-- An error is yielded by the last call or in front of it. -/
theorem fails_add_one_iff_last :
    d.Fails (n + 1) e ↔ d.Fails n e ∨ (d.advance n).next.1 = some (.error e) := by
  rw [Fails, items_add_one, List.mem_append, List.mem_singleton, eq_comm, Fails]

/-- An error that is yielded is yielded by a certain call. -/
theorem exists_next_of_fails (h : d.Fails n e) : ∃ m, (d.advance m).next.1 = some (.error e) := by
  induction n with
  | zero => exact absurd h not_fails_zero
  | succ n ih =>
    rcases fails_add_one_iff_last.mp h with hbefore | hlast
    · exact ih hbefore
    · exact ⟨n, hlast⟩

/-- A call that yields an operation yields it before the others. -/
theorem yielded_of_next_ok (h : d.next = (some (.ok op), d')) :
    d.yielded (n + 1) = op :: d'.yielded n := by
  rw [yielded, items, h]
  rfl

theorem yielded_of_next_none (h : d.next = (none, d')) : d.yielded (n + 1) = d'.yielded n := by
  rw [yielded, items, h]
  rfl

/-- A decoder that has failed does not move, -/
theorem advance_of_failed (h : d.failed = true) (n : Nat) : d.advance n = d := by
  induction n with
  | zero => rfl
  | succ n ih => rw [advance, next, if_pos h, ih]

/-- and it does not fail again. -/
theorem not_fails_of_failed (h : d.failed = true) (n : Nat) : ¬ d.Fails n e := by
  induction n with
  | zero => exact not_fails_zero
  | succ n ih =>
    rw [fails_add_one_iff, next, if_pos h]
    rintro (hnone | hfails)
    · cases hnone
    · exact ih hfails

/-- A call that yields an operation has read a tag. -/
theorem rest_lt_of_next (h : d.next = (some (.ok op), d')) :
    d'.tags.rest.length < d.tags.rest.length := by
  unfold next at h
  split at h
  · cases h
  · generalize d.tags.rest = tags at h ⊢
    generalize d.tags.position = position at h
    generalize d.feed = feed at h
    induction tags generalizing position feed with
    | nil => cases h
    | cons tag tags ih =>
      -- The call ends at this tag or passes over it.
      rw [seek] at h
      split at h
      · cases h
        exact Nat.lt_succ_self _
      · exact Nat.lt_succ_of_lt (ih _ _ h)
      · cases h

/-! ## One call -/

/-- The decoder stands behind a stretch of the tags of `b`, which was read and
    holds the operations `ops`. -/
inductive Behind (b : Batch N) (policy : Policy) : List (Op N) → Decoder N → Prop where
  | intro {before after : List Int32} {ops : List (Op N)} {feed : Feed N}
    (tags : b.tags = before ++ after)
    (run : (Read.instructions policy 0 before).run (.ofBatch b) = .ok ops feed) :
    Behind b policy ops { policy, tags := ⟨before.length, after⟩, feed }

/-- The decoder stands behind an instruction of `b` that could not be read. -/
inductive Stopped (b : Batch N) (policy : Policy) : WireError → Decoder N → Prop where
  | intro {before after : List Int32} {tag : Int32} {ops : List (Op N)} {front back : Feed N}
    {e : WireError} (tags : b.tags = before ++ tag :: after)
    (run : (Read.instructions policy 0 before).run (.ofBatch b) = .ok ops front)
    (bad : (Read.instruction? policy before.length tag).run front = .error e back) :
    Stopped b policy e
      { policy, tags := ⟨before.length + 1, after⟩, feed := back, failed := true }

theorem behind_ofBatch (b : Batch N) (policy : Policy) :
    Behind b policy [] (ofBatch b policy) :=
  .intro (List.nil_append _).symm rfl

theorem Stopped.failed (h : Stopped b policy e d) : d.failed = true := by
  cases h
  rfl

/-- What a call leads to from behind the operations `ops`: to the end of the tags,
    behind one more operation, or to a stop. -/
def Leads (b : Batch N) (policy : Policy) (ops : List (Op N)) : Item N × Decoder N → Prop
  | (none, d) => Behind b policy ops d ∧ d.tags.rest = []
  | (some (.ok op), d) => Behind b policy (ops ++ [op]) d
  | (some (.error e), d) => Stopped b policy e d

theorem Behind.next (h : Behind b policy ops d) : Leads b policy ops d.next := by
  cases h with
  | @intro before after ops feed htags hrun =>
    rw [Decoder.next, if_neg Bool.false_ne_true]
    -- On the tags in front of it: an unknown tag that is passed over belongs to the
    -- stretch that was read.
    induction after generalizing before feed with
    | nil => exact ⟨.intro htags hrun, rfl⟩
    | cons tag after ih =>
      have hmoved : b.tags = before ++ [tag] ++ after :=
        htags.trans (List.append_cons before tag after)
      have hlength : (before ++ [tag]).length = before.length + 1 := List.length_append
      simp only [seek]
      cases hread : (Read.instruction? policy before.length tag).run feed with
      | error e back => exact .intro htags hrun hread
      | ok found back =>
        have hconcat := Read.run_concat hrun ((Nat.zero_add before.length).symm ▸ hread)
        cases found with
        | some op =>
          have hbehind := Behind.intro hmoved hconcat
          rwa [hlength] at hbehind
        | none =>
          rw [Option.toList_none, List.append_nil] at hconcat
          have hleads := ih hmoved hconcat
          simp only [hlength] at hleads
          exact hleads

/-! ## Any number of calls -/

/-- After any number of calls the decoder stands behind what it yielded, or it has
    stopped at the one error that it yielded. -/
theorem Behind.standing (h : Behind b policy ops d) (n : Nat) :
    ((∀ e, ¬ d.Fails n e) ∧ Behind b policy (ops ++ d.yielded n) (d.advance n)) ∨
    ∃ e, (∀ e', d.Fails n e' ↔ e' = e) ∧ Stopped b policy e (d.advance n) := by
  induction n generalizing d ops with
  | zero =>
    refine .inl ⟨fun e => not_fails_zero, ?_⟩
    rw [yielded, items, List.filterMap_nil, List.append_nil]
    exact h
  | succ n ih =>
    have hleads := h.next
    rcases hnext : d.next with ⟨_ | e | op, d'⟩
    · rw [hnext] at hleads
      obtain ⟨hbehind, -⟩ := hleads
      simp only [fails_add_one_iff, advance, hnext, yielded_of_next_none hnext, reduceCtorEq,
        false_or]
      exact ih hbehind
    · rw [hnext] at hleads
      have hfailed : d'.failed = true := Stopped.failed hleads
      refine .inr ⟨e, ?_, ?_⟩
      · intro e'
        simp only [fails_add_one_iff, hnext, Option.some.injEq, Except.error.injEq,
          not_fails_of_failed hfailed, or_false, eq_comm]
      · rw [advance, hnext, advance_of_failed hfailed]
        exact hleads
    · rw [hnext] at hleads
      simp only [fails_add_one_iff, advance, hnext, yielded_of_next_ok hnext, reduceCtorEq,
        Option.some.injEq, false_or]
      rw [← List.singleton_append, ← List.append_assoc]
      exact ih hleads

/-- Calls that are more than the tags come to the end of the tags. -/
theorem Behind.rest_eq_nil (h : Behind b policy ops d) (hn : d.tags.rest.length < n)
    (hok : ∀ e, ¬ d.Fails n e) : (d.advance n).tags.rest = [] := by
  induction n generalizing d ops with
  | zero => omega
  | succ n ih =>
    simp only [fails_add_one_iff, not_or] at hok
    have hleads := h.next
    rcases hnext : d.next with ⟨_ | e | op, d'⟩
    · rw [hnext] at hleads
      obtain ⟨hbehind, hrest⟩ := hleads
      rw [advance, hnext]
      cases n with
      | zero => exact hrest
      | succ n =>
        refine ih hbehind ?_ fun e => hnext ▸ (hok e).2
        rw [hrest, List.length_nil]
        exact Nat.succ_pos n
    · exact absurd (congrArg Prod.fst hnext) (hok e).1
    · rw [hnext] at hleads
      have hlt : d'.tags.rest.length < d.tags.rest.length := rest_lt_of_next hnext
      have hn' : d'.tags.rest.length < n := by omega
      rw [advance, hnext]
      exact ih hleads hn' fun e => hnext ▸ (hok e).2

/-! ## The batch as a whole -/

/-- At the end of the tags the batch was read as a whole. -/
theorem Behind.decode_eq_ok (h : Behind b policy ops d) (hrest : d.tags.rest = []) :
    b.decode policy = .ok ⟨ops, d.stats⟩ := by
  obtain ⟨htags, hrun⟩ := h
  obtain rfl := hrest
  rw [List.append_nil] at htags
  rw [← htags] at hrun
  refine Batch.decode_eq_ok_iff.mpr ⟨_, hrun, ?_⟩
  rw [htags]
  rfl

/-- Where the decoder stopped, the batch cannot be read. -/
theorem Stopped.decode_eq_error (h : Stopped b policy e d) : b.decode policy = .error e := by
  cases h with
  | @intro before after tag ops front back e htags hrun hbad =>
    rw [← Nat.zero_add before.length] at hbad
    have herror := Read.run_eq_error_of_split after hrun hbad
    rw [← htags] at herror
    exact Batch.decode_eq_error_iff.mpr ⟨back, herror⟩

end Decoder

/-- The error of a batch is the error that its decoder yields. -/
theorem Batch.decode_eq_error_iff_fails :
    b.decode policy = .error e ↔ ∃ n, (Decoder.ofBatch b policy).Fails n e := by
  have hstart := Decoder.behind_ofBatch b policy
  refine ⟨?_, ?_⟩
  · intro hdecode
    refine ⟨b.tags.length + 1, ?_⟩
    rcases hstart.standing (b.tags.length + 1) with ⟨hok, hbehind⟩ | ⟨e', hfails, hstopped⟩
    · have hrest := hstart.rest_eq_nil (Nat.lt_succ_self _) hok
      rw [hbehind.decode_eq_ok hrest] at hdecode
      cases hdecode
    · rw [hstopped.decode_eq_error] at hdecode
      cases hdecode
      exact (hfails _).mpr rfl
  · intro h
    obtain ⟨n, hfail⟩ := h
    rcases hstart.standing n with ⟨hok, -⟩ | ⟨e', hfails, hstopped⟩
    · exact absurd hfail (hok e)
    · rw [(hfails e).mp hfail]
      exact hstopped.decode_eq_error

end BatchDraw
