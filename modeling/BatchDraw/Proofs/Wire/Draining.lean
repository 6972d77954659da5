/-
  BatchDraw.Proofs.Wire.Draining

  All the calls of a decoder.

  The calls of a decoder yield operations, then perhaps one error, and from there on
  nothing. `Decoder.Drains` follows them call by call, up to a decoder that stands still.
  The tags that are left get fewer with each operation, so every decoder in front of a
  batch drains (`Decoder.Behind.exists_drains`), and what it drains to is what the batch
  is read to as a whole.

  Because it stands still in the end, the list of what was yielded tells what any call
  yields, also one that is made behind the end (`Decoder.Drains.next_advance`).
-/
import BatchDraw.Proofs.Wire.Calls

namespace BatchDraw

variable {N : Type} {b : Batch N} {policy : Policy}

namespace Decoder

variable {d d' last : Decoder N} {front ops : List (Op N)} {ending : Option WireError}
  {op : Op N} {e : WireError} {m n : Nat}

/-! ## Standing still -/

/-- A call yields nothing and leaves the decoder as it is. -/
def Rests (d : Decoder N) : Prop := d.next = (none, d)

/-- Behind an error there is nothing to yield, even with tags left. -/
theorem Stopped.rests (h : Stopped b policy e d) : d.Rests := by
  rw [Rests, next, if_pos h.failed]

/-- In front of no tag there is nothing to yield. -/
theorem Behind.rests (h : Behind b policy front d) (hrest : d.tags.rest = []) : d.Rests := by
  obtain ⟨htags, hrun⟩ := h
  obtain rfl := hrest
  rfl

theorem Rests.advance (h : d.Rests) (n : Nat) : d.advance n = d := by
  induction n with
  | zero => rfl
  | succ n ih =>
    have hnext : d.next.2 = d := congrArg Prod.snd h
    rw [Decoder.advance, hnext, ih]

/-! ## Draining -/

/-- Operations in order, and the error behind them if there is one. -/
def drained (ops : List (Op N)) (ending : Option WireError) : List (Except WireError (Op N)) :=
  ops.map .ok ++ ending.toList.map .error

theorem length_drained (ops : List (Op N)) (ending : Option WireError) :
    (drained ops ending).length = ops.length + ending.toList.length := by
  simp only [drained, List.length_append, List.length_map]

/-- The calls of `d` yield `ops` one by one, then the error `ending` if there is one, and
    then nothing, because `last` stands still. -/
inductive Drains : Decoder N → List (Op N) → Option WireError → Decoder N → Prop where
  | stop {d last : Decoder N} {ending : Option WireError}
    (hnext : d.next = (ending.map .error, last)) (hlast : last.Rests) : Drains d [] ending last
  | op {d d' last : Decoder N} {op : Op N} {ops : List (Op N)} {ending : Option WireError}
    (hnext : d.next = (some (.ok op), d')) (h : Drains d' ops ending last) :
    Drains d (op :: ops) ending last

namespace Drains

/-- Every call yields its entry of the list, and nothing behind the list. -/
theorem next_advance (h : Drains d ops ending last) (n : Nat) :
    (d.advance n).next.1 = (drained ops ending)[n]? := by
  -- A call goes on to the next decoder and takes the first entry off the list.
  induction h generalizing n with
  | @stop d last ending hnext hlast =>
    cases n with
    | zero =>
      have hitem : d.next.1 = ending.map .error := congrArg Prod.fst hnext
      rw [advance, hitem]
      cases ending <;> rfl
    | succ n =>
      have hitem : last.next.1 = none := congrArg Prod.fst hlast
      have hshort : (drained ([] : List (Op N)) ending).length ≤ n + 1 := by
        rw [length_drained, List.length_nil, Nat.zero_add]
        cases ending <;> simp
      rw [advance, hnext, hlast.advance n, hitem, List.getElem?_eq_none hshort]
  | @op d d' last op ops ending hnext h ih =>
    cases n with
    | zero => exact congrArg Prod.fst hnext
    | succ n =>
      rw [advance, hnext]
      exact ih n

/-- One call more than there are operations, and the decoder stands still. -/
theorem advance_eq (h : Drains d ops ending last) (hn : ops.length < n) :
    d.advance n = last := by
  induction h generalizing n with
  | @stop d last ending hnext hlast =>
    obtain ⟨n, rfl⟩ : ∃ k, n = k + 1 := ⟨n - 1, by omega⟩
    rw [advance, hnext]
    exact hlast.advance n
  | @op d d' last op ops ending hnext h ih =>
    rw [List.length_cons] at hn
    obtain ⟨n, rfl⟩ : ∃ k, n = k + 1 := ⟨n - 1, by omega⟩
    rw [advance, hnext]
    exact ih (by omega)

/-- Each of the first calls yields an operation. -/
theorem length_le_of_next (h : Drains d ops ending last)
    (hm : ∀ op, (d.advance m).next.1 ≠ some (.ok op)) : ops.length ≤ m := by
  rw [h.next_advance] at hm
  refine Nat.le_of_not_lt fun hlt => ?_
  have hitem : (drained ops ending)[m]? = some (.ok ops[m]) := by
    rw [drained, List.getElem?_append_left (by rwa [List.length_map]), List.getElem?_map,
      List.getElem?_eq_getElem hlt, Option.map_some]
  exact hm ops[m] hitem

/-- Behind an error or the end there is nothing, and nothing is read any more. -/
theorem fused (h : Drains d ops ending last)
    (hm : ∀ op, (d.advance m).next.1 ≠ some (.ok op)) (hmn : m < n) :
    (d.advance n).next.1 = none ∧ d.advance n = d.advance (m + 1) := by
  have hlength : ops.length ≤ m := h.length_le_of_next hm
  have hshort : (drained ops ending).length ≤ n := by
    have hending : ending.toList.length ≤ 1 := by cases ending <;> simp
    rw [length_drained]
    omega
  refine ⟨?_, ?_⟩
  · rw [h.next_advance, List.getElem?_eq_none hshort]
  · rw [h.advance_eq (by omega), h.advance_eq (by omega)]

end Drains

/-! ## Decoders of a batch -/

/-- The end of a reading: the operations with the account of them, or the error. -/
def outcome (ops : List (Op N)) (last : Decoder N) : Option WireError → Except WireError (Program N)
  | none => .ok ⟨ops, last.stats⟩
  | some e => .error e

/-- A call that yields something reads a tag. -/
theorem Behind.rest_ne_nil (h : Behind b policy front d) (hnext : d.next.1 = some (.error e)) :
    d.tags.rest ≠ [] := by
  intro hrest
  have hnone : d.next.1 = none := congrArg Prod.fst (h.rests hrest)
  rw [hnext] at hnone
  cases hnone

/-- Behind the operations `front` a decoder drains to the others of the batch. What it
    yields is no more than the tags it has left. -/
theorem Behind.exists_drains (h : Behind b policy front d) :
    ∃ ops ending last, Drains d ops ending last ∧
      (drained ops ending).length ≤ d.tags.rest.length ∧
      b.decode policy = outcome (front ++ ops) last ending := by
  -- On the tags that are left.
  induction hleft : d.tags.rest.length using Nat.strongRecOn generalizing d front with
  | ind left ih =>
    have hleads := h.next
    rcases hnext : d.next with ⟨_ | e | op, d'⟩
    · rw [hnext] at hleads
      obtain ⟨hbehind, hrest⟩ := hleads
      refine ⟨[], none, d', .stop hnext (hbehind.rests hrest), Nat.zero_le _, ?_⟩
      rw [List.append_nil]
      exact hbehind.decode_eq_ok hrest
    · rw [hnext] at hleads
      have hstopped : Stopped b policy e d' := hleads
      -- The error counts as an entry, so there has to be a tag for it.
      have hne : d.tags.rest ≠ [] := h.rest_ne_nil (congrArg Prod.fst hnext)
      have hpos : 0 < d.tags.rest.length := List.length_pos_iff.mpr hne
      refine ⟨[], some e, d', .stop hnext hstopped.rests, ?_, hstopped.decode_eq_error⟩
      rw [← hleft]
      exact hpos
    · rw [hnext] at hleads
      have hbehind : Behind b policy (front ++ [op]) d' := hleads
      have hlt : d'.tags.rest.length < d.tags.rest.length := rest_lt_of_next hnext
      rw [hleft] at hlt
      obtain ⟨ops, ending, last, hdrains, hlength, hdecode⟩ := ih _ hlt hbehind rfl
      refine ⟨op :: ops, ending, last, .op hnext hdrains, ?_, ?_⟩
      · rw [length_drained] at hlength ⊢
        rw [List.length_cons]
        omega
      · rw [List.append_assoc, List.singleton_append] at hdecode
        exact hdecode

end Decoder

namespace Batch

/-- Reading a batch call by call and reading it as a whole are the same. The calls yield a
    finite list of operations, with an error at its end or without, that has no more
    entries than the batch has instructions; the whole batch is read to these operations,
    with the account behind the call that found nothing more, or it has that error. Behind
    an error and behind the end every call yields nothing and leaves the account as it is. -/
theorem decode_drains (b : Batch N) (policy : Policy) :
    ∃ ops ending,
      (∀ n, ((Decoder.ofBatch b policy).advance n).next.1 = (Decoder.drained ops ending)[n]?) ∧
      (Decoder.drained ops ending).length ≤ b.length ∧
      b.decode policy =
        Decoder.outcome ops ((Decoder.ofBatch b policy).advance (ops.length + 1)) ending ∧
      ∀ m n, (∀ op, ((Decoder.ofBatch b policy).advance m).next.1 ≠ some (.ok op)) → m < n →
        ((Decoder.ofBatch b policy).advance n).next.1 = none ∧
        ((Decoder.ofBatch b policy).advance n).stats =
          ((Decoder.ofBatch b policy).advance (m + 1)).stats := by
  obtain ⟨ops, ending, last, hdrains, hlength, hdecode⟩ :=
    (Decoder.behind_ofBatch b policy).exists_drains
  refine ⟨ops, ending, hdrains.next_advance, hlength, ?_, ?_⟩
  · rw [hdrains.advance_eq (Nat.lt_succ_self _)]
    exact hdecode
  · intro m n hm hmn
    obtain ⟨hnone, hsame⟩ := hdrains.fused hm hmn
    exact ⟨hnone, congrArg Decoder.stats hsame⟩

/-- An unknown tag, a saved state, an opacity without its operand, and two instructions
    that are not reached. -/
def stranded : Batch Nat where
  tags := [99, 14, 4, 15, 15]

/-- The second call yields the error, and from there on nothing is read: three tags stay
    read, and two are left. -/
theorem decode_drains_stranded :
    (∀ n, 1 < n → ((Decoder.ofBatch stranded .skip).advance n).next.1 = none ∧
      ((Decoder.ofBatch stranded .skip).advance n).stats =
        { skippedOps := 1, consumed := { tags := 3 }, remaining := { tags := 2 } }) ∧
    stranded.decode .skip = .error (.underflow .real 0 2 .setOpacity) := by
  obtain ⟨ops, ending, hyields, -, hdecode, hfused⟩ := decode_drains stranded .skip
  have hsecond : ((Decoder.ofBatch stranded .skip).advance 1).next.1 =
      some (.error (.underflow .real 0 2 .setOpacity)) := rfl
  have hno : ∀ op, ((Decoder.ofBatch stranded .skip).advance 1).next.1 ≠ some (.ok op) := by
    intro op hop
    rw [hsecond] at hop
    cases hop
  refine ⟨?_, rfl⟩
  intro n hn
  exact hfused 1 n hno hn

end Batch

end BatchDraw
