/-
  BatchDraw.Proofs.Wire.Streaming

  Reading in stages.

  A batch that is read to its end, one that is read up to an error, and one that
  is read operation by operation go through the same instructions. A reading of
  two stretches of tags is a reading of the first and then of the second
  (`Read.instructions_append`); an error is the error of one instruction behind
  a stretch that was read (`Read.exists_split_of_run_error`), and the other way round
  (`Read.run_eq_error_of_split`); and the operations of a stretch that was read are
  what a `Decoder` yields first (`Decoder.items_of_run_ok`).
-/
import BatchDraw.Wire.Decoder
import BatchDraw.Proofs.Wire.Passage

namespace BatchDraw

variable {N : Type} {policy : Policy} {feed feed' : Feed N}

namespace Read

theorem instructions_append (policy : Policy) (position : Nat) (before after : List Int32) :
    (instructions policy position (before ++ after) : Read N (List (Op N))) = do
      let ops ← instructions policy position before
      let others ← instructions policy (position + before.length) after
      return ops ++ others := by
  induction before generalizing position with
  | nil => simp [instructions]
  | cons tag before ih =>
    have hposition : position + 1 + before.length = position + (before.length + 1) := by omega
    simp only [List.cons_append, instructions, ih, List.length_cons, hposition, bind_assoc,
      pure_bind, List.append_assoc]

/-- Where an error came from: everything before one instruction was read, and the
    instruction could not be. -/
theorem exists_split_of_run_error {position : Nat} {tags : List Int32} {e : WireError}
    (h : (instructions policy position tags).run feed = .error e feed') :
    ∃ before tag after ops middle, tags = before ++ tag :: after ∧
      (instructions policy position before).run feed = .ok ops middle ∧
      (instruction? policy (position + before.length) tag).run middle = .error e feed' := by
  induction tags generalizing position feed with
  | nil => cases h
  | cons tag tags ih =>
    -- Either this instruction cannot be read, or one of those behind it.
    rw [instructions, run_bind_eq_error_iff] at h
    rcases h with hfirst | ⟨first, f₁, hfirst, h⟩
    · exact ⟨[], tag, tags, [], feed, rfl, rfl, hfirst⟩
    · rw [run_bind_eq_error_iff] at h
      rcases h with hothers | ⟨others, f₂, -, hpure⟩
      · obtain ⟨before, bad, after, ops, middle, rfl, hbefore, hbad⟩ := ih hothers
        refine ⟨tag :: before, bad, after, first.toList ++ ops, middle, rfl, ?_, ?_⟩
        · simp only [instructions, run_bind_eq_ok_iff, run_pure_eq_ok_iff]
          exact ⟨first, f₁, hfirst, ops, middle, hbefore, rfl, rfl⟩
        · have hposition : position + (tag :: before).length = position + 1 + before.length := by
            rw [List.length_cons]
            omega
          rwa [hposition]
      · cases hpure

/-- An instruction that cannot be read is where every run through it ends. -/
theorem run_eq_error_of_split {position : Nat} {before : List Int32} {tag : Int32}
    {ops : List (Op N)} {middle : Feed N} {e : WireError} (after : List Int32)
    (hbefore : (instructions policy position before).run feed = .ok ops middle)
    (hbad : (instruction? policy (position + before.length) tag).run middle = .error e feed') :
    (instructions policy position (before ++ tag :: after)).run feed = .error e feed' := by
  rw [instructions_append]
  have htail : (instructions policy (position + before.length) (tag :: after)).run middle =
      .error e feed' := run_bind_eq_error_iff.mpr (.inl hbad)
  exact run_bind_eq_error_iff.mpr (.inr ⟨ops, middle, hbefore, run_bind_eq_error_iff.mpr
    (.inl htail)⟩)

/-- A stretch is read tag by tag. -/
theorem run_concat {position : Nat} {before : List Int32} {tag : Int32} {ops : List (Op N)}
    {middle : Feed N} {found : Option (Op N)}
    (hbefore : (instructions policy position before).run feed = .ok ops middle)
    (htag : (instruction? policy (position + before.length) tag).run middle = .ok found feed') :
    (instructions policy position (before ++ [tag])).run feed =
      .ok (ops ++ found.toList) feed' := by
  rw [instructions_append]
  have hlast : (instructions policy (position + before.length) [tag]).run middle =
      .ok found.toList feed' := by
    simp only [instructions, run_bind_eq_ok_iff, run_pure_eq_ok_iff]
    exact ⟨found, feed', htag, [], feed', ⟨rfl, rfl⟩, List.append_nil _, rfl⟩
  exact run_bind_eq_ok_iff.mpr ⟨ops, middle, hbefore, run_bind_eq_ok_iff.mpr
    ⟨found.toList, feed', hlast, rfl⟩⟩

end Read

/-! ## Calls of a decoder -/

namespace Decoder

/-- What the first calls yield. -/
def items (decoder : Decoder N) : Nat → List (Item N)
  | 0 => []
  | n + 1 => decoder.next.1 :: decoder.next.2.items n

/-- An instruction that is passed over might as well not be there. -/
theorem items_of_run_none {position n : Nat} {tag : Int32} {tags : List Int32}
    (h : (Read.instruction? policy position tag).run feed = .ok none feed') :
    items { policy, tags := ⟨position, tag :: tags⟩, feed } n =
      items { policy, tags := ⟨position + 1, tags⟩, feed := feed' } n := by
  cases n with
  | zero => rfl
  | succ n =>
    have hnext : next { policy, tags := ⟨position, tag :: tags⟩, feed } =
        next { policy, tags := ⟨position + 1, tags⟩, feed := feed' } := by
      simp [next, seek, h]
    rw [items, items, hnext]

theorem items_of_run_some {position n : Nat} {tag : Int32} {tags : List Int32} {op : Op N}
    (h : (Read.instruction? policy position tag).run feed = .ok (some op) feed') :
    items { policy, tags := ⟨position, tag :: tags⟩, feed } (n + 1) =
      some (.ok op) :: items { policy, tags := ⟨position + 1, tags⟩, feed := feed' } n := by
  have hnext : next { policy, tags := ⟨position, tag :: tags⟩, feed } =
      (some (.ok op), { policy, tags := ⟨position + 1, tags⟩, feed := feed' }) := by
    simp [next, seek, h]
  rw [items, hnext]

/-- The operations of a stretch that can be read are yielded first, whatever
    stands behind it. -/
theorem items_of_run_ok {position : Nat} {before after : List Int32} {ops : List (Op N)}
    (h : (Read.instructions policy position before).run feed = .ok ops feed') :
    items { policy, tags := ⟨position, before ++ after⟩, feed } ops.length =
      ops.map fun op => some (.ok op) := by
  -- On the stretch: a call stops at each operation and runs over each unknown tag.
  induction before generalizing position feed ops with
  | nil =>
    obtain ⟨rfl, -⟩ := Read.run_pure_eq_ok_iff.mp h
    rfl
  | cons tag before ih =>
    simp only [Read.instructions, Read.run_bind_eq_ok_iff, Read.run_pure_eq_ok_iff] at h
    obtain ⟨first, f₁, hfirst, others, f₂, hothers, rfl, rfl⟩ := h
    have hrest := ih hothers
    rw [List.cons_append]
    cases first with
    | none => rw [items_of_run_none hfirst]; exact hrest
    | some op =>
      show items _ (others.length + 1) = _
      rw [items_of_run_some hfirst, hrest]
      rfl

end Decoder

end BatchDraw
