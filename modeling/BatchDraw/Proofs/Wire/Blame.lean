/-
  BatchDraw.Proofs.Wire.Blame

  Errors name the first instruction that is bad, and what they say of it is so.

  The batch cut off in front of that instruction can be read; cut off anywhere
  behind it, it has the same error (`Decoder.Stopped.exists_position`). What an
  error says beside the position is compared with the batch and with the account
  of the decoder that yielded it (`WireError.IsTrueOf`).
-/
import BatchDraw.Proofs.Wire.Calls
import BatchDraw.Proofs.Wire.Runs

namespace BatchDraw

variable {N : Type} {b c : Batch N} {policy : Policy} {e : WireError} {ops : List (Op N)}

/-! ## What an error says -/

/-- The position of the instruction at fault. -/
def WireError.position? : WireError → Option Nat
  | countOutOfRange _ _ => none
  | underflow _ _ position _ | unknownOp _ position | unknownSegment _ position
  | invalidOperand _ _ position => some position

namespace Batch

/-- The kind of the operation at a position, if there is one and its tag is known. -/
def kindAt? (b : Batch N) (position : Nat) : Option OpKind :=
  b.tags[position]?.bind OpKind.ofTag?

/-- The batch without the instructions behind the first `n`, and with all its
    operands. -/
def cut (b : Batch N) (n : Nat) : Batch N := { b with tags := b.tags.take n }

variable {before after : List Int32} {tag : Int32}

/-- The tag behind a stretch of tags stands at the position that is its length. -/
theorem getElem?_tags (htags : b.tags = before ++ tag :: after) :
    b.tags[before.length]? = some tag := by
  rw [htags, List.getElem?_append_right (Nat.le_refl _), Nat.sub_self, List.getElem?_cons_zero]

theorem kindAt?_of_tags (htags : b.tags = before ++ tag :: after) :
    b.kindAt? before.length = OpKind.ofTag? tag := by
  rw [kindAt?, getElem?_tags htags, Option.bind_some]

end Batch

/-- What the error says of an instruction of `b` is so, when `stats` is the account
    of the decoder that yielded it. -/
def WireError.IsTrueOf (b : Batch N) (policy : Policy) (stats : Stats) : WireError → Prop
  -- No batch has this error; it is one of the buffers that a batch is kept of.
  | countOutOfRange _ _ => False
  | underflow s index position kind =>
    b.kindAt? position = some kind ∧ index = (b.stack s).length ∧
      stats.consumed.of s = index ∧ stats.remaining.of s = 0
  | unknownOp tag position =>
    policy = .reject ∧ b.tags[position]? = some tag ∧ OpKind.ofTag? tag = none
  | unknownSegment tag position =>
    policy = .reject ∧ (∃ kind, b.kindAt? position = some kind ∧ kind.hasShape = true) ∧
      (tag < 0 ∨ 3 < tag) ∧ (b.ints.take stats.consumed.ints).getLast? = some tag
  | invalidOperand operand value position =>
    policy = .reject ∧ (∃ kind, b.kindAt? position = some kind ∧ operand.Refuses kind value) ∧
      (b.ints.take stats.consumed.ints).getLast? = some value

/-! ## Instructions -/

namespace Read

variable {position : Nat} {tag : Int32} {site : Site} {last : Option Int32} {front back : Feed N}
  {notices : List Notice}

theorem Blames.position? (h : Blames site last back e) : e.position? = some site.position := by
  cases h <;> rfl

/-- An instruction that cannot be read is the one that its error names. -/
theorem position?_of_run_instruction?_error
    (h : (instruction? policy position tag).run front = .error e back) :
    e.position? = some position := by
  cases htag : OpKind.ofTag? tag with
  | none =>
    obtain ⟨-, rfl, -⟩ := (run_instruction?_unknown_eq_error_iff htag).mp h
    rfl
  | some kind =>
    obtain ⟨_, _, -, hblames⟩ := (contract_instruction? none htag).error h
    exact hblames.position?

/-- An error is true of the batch when the operands `c` were read up to it. -/
theorem Blames.isTrueOf (h : Blames site c.ints.getLast? back e)
    (hpasses : (Feed.ofBatch b).Passes c notices back)
    (hkind : b.kindAt? site.position = some site.kind) (tags : Cursor Int32) :
    e.IsTrueOf b site.policy (back.stats tags) := by
  have hlast : (b.ints.take (back.stats tags).consumed.ints).getLast? = c.ints.getLast? :=
    congrArg List.getLast? (hpasses.take_eq .int)
  cases h with
  | underflow s ended =>
    have hlength : (back.cursor s).position = (b.stack s).length := by
      rw [hpasses.position_ofBatch s, hpasses.stack_eq s, ended, List.append_nil]
    refine ⟨hkind, hlength, Feed.consumed_stats_of back tags s, ?_⟩
    rw [Feed.remaining_stats_of, ended, List.length_nil]
  | unknownSegment strict shape range read =>
    exact ⟨strict, ⟨site.kind, hkind, shape⟩, range, hlast.trans read⟩
  | invalidOperand strict range read =>
    exact ⟨strict, ⟨site.kind, hkind, range⟩, hlast.trans read⟩

end Read

/-! ## Cuts -/

namespace Batch

variable {before after : List Int32} {tag : Int32} {feed back : Feed N}

/-- A batch that is cut off behind a stretch that can be read can be read. -/
theorem decode_cut_eq_ok (htags : b.tags = before ++ after)
    (hrun : (Read.instructions policy 0 before).run (.ofBatch b) = .ok ops feed) :
    (b.cut before.length).decode policy = .ok ⟨ops, feed.stats ⟨before.length, []⟩⟩ := by
  have htake : (b.cut before.length).tags = before := by
    rw [cut, htags, List.take_left]
  refine decode_eq_ok_iff.mpr ⟨feed, ?_, ?_⟩
  · rw [htake]
    exact hrun
  · rw [htake]

/-- Where a batch is cut off does not matter for an error in front of the cut. -/
theorem decode_cut_eq_error {n : Nat} (htags : b.tags = before ++ tag :: after)
    (hrun : (Read.instructions policy 0 before).run (.ofBatch b) = .ok ops feed)
    (hbad : (Read.instruction? policy before.length tag).run feed = .error e back)
    (hn : before.length < n) : (b.cut n).decode policy = .error e := by
  obtain ⟨k, rfl⟩ := Nat.exists_eq_add_of_lt hn
  have htake : (b.cut (before.length + k + 1)).tags = before ++ tag :: after.take k := by
    rw [cut, htags, Nat.add_assoc, List.take_append, List.take_of_length_le (Nat.le_add_right _ _),
      Nat.add_sub_cancel_left, List.take_succ_cons]
  rw [← Nat.zero_add before.length] at hbad
  have herror := Read.run_eq_error_of_split (after.take k) hrun hbad
  rw [← htake] at herror
  exact decode_eq_error_iff.mpr ⟨back, herror⟩

end Batch

/-! ## Decoders -/

/-- A decoder that has stopped did so behind the instruction that its error names,
    the first one that makes the batch unreadable. -/
theorem Decoder.Stopped.exists_position {d : Decoder N} (h : Stopped b policy e d) :
    ∃ i, e.position? = some i ∧ i < b.tags.length ∧
      (∃ p, (b.cut i).decode policy = .ok p) ∧
      (∀ n, i < n → (b.cut n).decode policy = .error e) ∧
      d.stats.consumed.tags = i + 1 ∧ e.IsTrueOf b policy d.stats := by
  cases h with
  | @intro before after tag ops front back e htags hrun hbad =>
    have hget : b.tags[before.length]? = some tag := Batch.getElem?_tags htags
    refine ⟨before.length, Read.position?_of_run_instruction?_error hbad, ?_,
      ⟨_, Batch.decode_cut_eq_ok htags hrun⟩,
      fun n hn => Batch.decode_cut_eq_error htags hrun hbad hn, rfl, ?_⟩
    · exact (List.getElem?_eq_some_iff.mp hget).1
    · cases htag : OpKind.ofTag? tag with
      | none =>
        obtain ⟨hpolicy, rfl, -⟩ := (Read.run_instruction?_unknown_eq_error_iff htag).mp hbad
        exact ⟨hpolicy, hget, htag⟩
      | some kind =>
        -- The integer that was read last may be one of an instruction before.
        obtain ⟨c, m, hbefore, -⟩ := Read.exists_totals_of_run_ok hrun
        obtain ⟨c', n, hpasses, hblames⟩ :=
          (Read.contract_instruction? c.ints.getLast? htag).error hbad
        have hkind : b.kindAt? before.length = some kind :=
          (Batch.kindAt?_of_tags htags).trans htag
        rw [← List.getLast?_append, ← Batch.ints_append] at hblames
        exact hblames.isTrueOf (hbefore.trans hpasses) hkind _

namespace Batch

/-- A batch that cannot be read has a first bad instruction. The error names it, and
    the decoder that yields the error has read the tags up to it. -/
theorem decode_error_blames (h : b.decode policy = .error e) :
    ∃ i, e.position? = some i ∧ i < b.tags.length ∧
      (∃ p, (b.cut i).decode policy = .ok p) ∧
      (∀ n, i < n → (b.cut n).decode policy = .error e) ∧
      (∃ n, ((Decoder.ofBatch b policy).advance n).next.1 = some (.error e)) ∧
      ∀ n e' failed,
        ((Decoder.ofBatch b policy).advance n).next = (some (.error e'), failed) →
          e' = e ∧ failed.stats.consumed.tags = i + 1 ∧ e.IsTrueOf b policy failed.stats := by
  have hstart := Decoder.behind_ofBatch b policy
  obtain ⟨n, hfails⟩ := decode_eq_error_iff_fails.mp h
  -- A decoder that has failed has stopped at this error, whichever call it was.
  have hstopped : ∀ n e', (Decoder.ofBatch b policy).Fails n e' →
      e' = e ∧ Decoder.Stopped b policy e ((Decoder.ofBatch b policy).advance n) := by
    intro n e' hfails
    rcases hstart.standing n with ⟨hok, -⟩ | ⟨e₁, hiff, hstopped⟩
    · exact absurd hfails (hok e')
    · have herror : e₁ = e := by
        have hdecode := hstopped.decode_eq_error
        rw [h] at hdecode
        cases hdecode
        rfl
      rw [herror] at hiff hstopped
      exact ⟨(hiff e').mp hfails, hstopped⟩
  obtain ⟨i, hposition, hlt, hok, hcut, -, -⟩ := (hstopped n e hfails).2.exists_position
  refine ⟨i, hposition, hlt, hok, hcut, Decoder.exists_next_of_fails hfails, ?_⟩
  intro n e' failed hnext
  have hfails : (Decoder.ofBatch b policy).Fails (n + 1) e' :=
    Decoder.fails_add_one_iff_last.mpr (.inr (congrArg Prod.fst hnext))
  obtain ⟨rfl, hend⟩ := hstopped (n + 1) e' hfails
  rw [Decoder.advance_add_one, hnext] at hend
  obtain ⟨j, hposition', -, -, -, htags, htrue⟩ := hend.exists_position
  have hsame : i = j := by
    rw [hposition] at hposition'
    exact Option.some.inj hposition'
  rw [hsame]
  exact ⟨rfl, htags, htrue⟩

/-- A saved state, and then a stroke with a cap that does not exist. -/
def frayed : Batch Nat where
  tags := [14, 3, 15]
  ints := [0, 9, 1]
  reals := [2.0]

theorem decode_error_blames_frayed :
    ∃ failed, ((Decoder.ofBatch frayed .reject).advance 1).next =
        (some (.error (.invalidOperand .lineCap 9 1)), failed) ∧
      failed.stats.consumed.tags = 2 ∧
      (WireError.invalidOperand .lineCap 9 1).IsTrueOf frayed .reject failed.stats := by
  have hdecode : frayed.decode .reject = .error (.invalidOperand .lineCap 9 1) := rfl
  have hitem : ((Decoder.ofBatch frayed .reject).advance 1).next.1 =
      some (.error (.invalidOperand .lineCap 9 1)) := rfl
  have hnext := Prod.ext hitem rfl
  obtain ⟨i, hposition, -, -, -, -, hyields⟩ := decode_error_blames hdecode
  obtain rfl : i = 1 := (Option.some.inj hposition).symm
  obtain ⟨-, htags, htrue⟩ := hyields 1 (.invalidOperand .lineCap 9 1) _ hnext
  exact ⟨_, hnext, htags, htrue⟩

end Batch

end BatchDraw
