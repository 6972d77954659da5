/-
  BatchDraw.Proofs.Wire.Contract

  What can be relied on when a reader is run.

  A reader that succeeds has taken certain operands, and they are just what it
  needs: in front of the same operands it does the same again, whatever stands
  behind them, and if one stack ends among them it runs out of that stack there
  (`Read.Needs`). A reader that fails has taken some operands too, and its error
  says of the instruction only what is so (`Read.Blames`). `Read.Contract` is
  both, with a statement about the value and the operands of a success.

  Contracts are kept by sequencing (`Read.Contract.bind`). Of what was read
  before, a reader has to know one thing only: the integer that was read last,
  because an error may name it.
-/
import BatchDraw.Proofs.Wire.Stacks

namespace BatchDraw

/-! ## Numbers without a meaning -/

/-- Whether operations of a kind carry a shape. -/
def OpKind.hasShape : OpKind → Bool
  | strokeShape | fillShape | clipShape => true
  | _ => false

/-- The operand is one of operations of the kind, and the value is out of its
    range. -/
def Operand.Refuses (kind : OpKind) (value : Int32) : Operand → Prop
  | dashCount => kind = .setStroke ∧ value < 0
  | lineCap => kind = .setStroke ∧ (value < 0 ∨ 2 < value)
  | lineJoin => kind = .setStroke ∧ (value < 0 ∨ 2 < value)
  | segmentCount => kind.hasShape = true ∧ value < -1

/-- A property that no number from 0 to `n` has is one of numbers out of that
    range. -/
theorem out_of_range_of_forall {P : Int32 → Prop} {n : Nat} (hn : n ≤ maxCount)
    (h : ∀ k ≤ n, ¬ P (countWord k)) {value : Int32} (hP : P value) :
    value < 0 ∨ countWord n < value := by
  by_cases hneg : value < 0
  · exact .inl hneg
  · refine .inr ?_
    have hnonneg : (0 : Int32) ≤ value := Int32.not_lt.mp hneg
    obtain ⟨hfits, hword⟩ := countWord_eq_iff.mpr ⟨hnonneg, rfl⟩
    have hlarge : n < value.toNatClampNeg :=
      Nat.lt_of_not_le fun hsmall => h _ hsmall (hword.symm ▸ hP)
    rw [Int32.lt_iff_toInt_lt, toInt_countWord hn, ← hword, toInt_countWord hfits]
    omega

theorem Cap.out_of_range {code : Int32} (h : ofCode? code = none) : code < 0 ∨ 2 < code :=
  out_of_range_of_forall (P := fun code => ofCode? code = none) (n := 2) (by decide)
    (by decide) h

theorem Join.out_of_range {code : Int32} (h : ofCode? code = none) : code < 0 ∨ 2 < code :=
  out_of_range_of_forall (P := fun code => ofCode? code = none) (n := 2) (by decide)
    (by decide) h

/-- A number out of the range of caps stands for none, and no other number does. -/
theorem Cap.ofCode?_eq_none_iff {code : Int32} : ofCode? code = none ↔ code < 0 ∨ 2 < code := by
  refine ⟨Cap.out_of_range, fun hrange => ?_⟩
  refine Option.eq_none_iff_forall_ne_some.mpr fun cap hof => ?_
  obtain rfl := ofCode?_eq_some_iff.mp hof
  cases cap <;> exact absurd hrange (by decide)

/-- A number out of the range of joins stands for none, and no other number does. -/
theorem Join.ofCode?_eq_none_iff {code : Int32} : ofCode? code = none ↔ code < 0 ∨ 2 < code := by
  refine ⟨Join.out_of_range, fun hrange => ?_⟩
  refine Option.eq_none_iff_forall_ne_some.mpr fun join hof => ?_
  obtain rfl := ofCode?_eq_some_iff.mp hof
  cases join <;> exact absurd hrange (by decide)

theorem SegmentKind.out_of_range {tag : Int32} (h : ofTag? tag = none) : tag < 0 ∨ 3 < tag :=
  out_of_range_of_forall (P := fun tag => ofTag? tag = none) (n := 3) (by decide)
    (by decide) h

/-- A number stands for a kind of segment from 0 to 3, and else for none. -/
theorem SegmentKind.ofTag?_eq_none_iff {tag : Int32} : ofTag? tag = none ↔ tag < 0 ∨ 3 < tag := by
  refine ⟨SegmentKind.out_of_range, fun hrange => ?_⟩
  refine Option.eq_none_iff_forall_ne_some.mpr fun kind hof => ?_
  obtain rfl := ofTag?_eq_some_iff.mp hof
  cases kind <;> exact absurd hrange (by decide)

/-- A number stands for a kind of operation from 1 to 17, and else for none. -/
theorem OpKind.ofTag?_eq_none_iff {tag : Int32} : ofTag? tag = none ↔ tag < 1 ∨ 17 < tag := by
  refine ⟨fun hof => ?_, fun hrange => ?_⟩
  · -- Zero is no tag, though it is in the range of counts.
    by_cases hzero : tag = 0
    · rw [hzero]
      exact .inl (by decide)
    · have hrange : tag < 0 ∨ 17 < tag :=
        out_of_range_of_forall (P := fun tag => tag ≠ 0 ∧ ofTag? tag = none) (n := 17)
          (by decide) (by decide) ⟨hzero, hof⟩
      exact hrange.imp_left fun hneg => Int32.lt_trans hneg (by decide)
  · refine Option.eq_none_iff_forall_ne_some.mpr fun kind hof => ?_
    obtain rfl := ofTag?_eq_some_iff.mp hof
    cases kind <;> exact absurd hrange (by decide)

variable {N α β : Type}

/-- The error of an instruction that ran out of a stack. -/
def Site.underflow (site : Site) (s : Stack) (index : Nat) : WireError :=
  .underflow s index site.position site.kind

namespace Read

/-! ## Contracts -/

/-- The operands `b` are what the reader needs in order to return `a`: with them in
    front it does, and with one stack ending among them it fails there. -/
structure Needs (out : Stack → Nat → WireError) (m : Read N α) (b : Batch N)
    (notices : List Notice) (a : α) : Prop where
  enough : ∀ {front back : Feed N}, front.Passes b notices back → m.run front = .ok a back
  lacking : ∀ {front : Feed N} {s : Stack} {k : Nat}, front.Lacks b s k →
    ∃ back, m.run front = .error (out s ((front.cursor s).position + k)) back

/-- What an error says of the instruction at a site, when `last` is the integer that
    was read last and the reader came as far as `back`. -/
inductive Blames (site : Site) (last : Option Int32) (back : Feed N) : WireError → Prop where
  /-- The stack has ended. -/
  | underflow (s : Stack) (ended : (back.cursor s).rest = []) :
    Blames site last back (site.underflow s (back.cursor s).position)
  /-- The last integer is no tag of a segment, but stands in a shape. -/
  | unknownSegment {tag : Int32} (strict : site.policy = .reject)
    (shape : site.kind.hasShape = true) (range : tag < 0 ∨ 3 < tag) (read : last = some tag) :
    Blames site last back (.unknownSegment tag site.position)
  /-- The last integer is not in the range of the operand. -/
  | invalidOperand {operand : Operand} {value : Int32} (strict : site.policy = .reject)
    (range : operand.Refuses site.kind value) (read : last = some value) :
    Blames site last back (.invalidOperand operand value site.position)

/-- A reader at a site, behind the integer `last`: on success `returns` holds of the
    value and of the operands that were needed, and an error is to blame. -/
structure Contract (site : Site) (last : Option Int32) (m : Read N α)
    (returns : α → Batch N → List Notice → Prop) : Prop where
  ok : ∀ {front back : Feed N} {a : α}, m.run front = .ok a back →
    ∃ b notices, front.Passes b notices back ∧ returns a b notices ∧
      Needs site.underflow m b notices a
  error : ∀ {front back : Feed N} {e : WireError}, m.run front = .error e back →
    ∃ b notices, front.Passes b notices back ∧ Blames site (b.ints.getLast?.or last) back e

variable {site : Site} {last : Option Int32} {out : Stack → Nat → WireError}

/-! ## Sequencing -/

theorem needs_pure (a : α) : Needs out (pure a : Read N α) .empty [] a where
  enough h := by
    rw [Feed.takes_empty_iff.mp h]
    rfl
  lacking h := absurd h Feed.not_lacks_empty

theorem Needs.bind {m : Read N α} {k : α → Read N β} {b c : Batch N} {n n' : List Notice}
    {a : α} {r : β} (hm : Needs out m b n a) (hk : Needs out (k a) c n' r) :
    Needs out (m >>= k) (b ++ c) (n ++ n') r where
  enough h := by
    obtain ⟨middle, hb, hc⟩ := Feed.passes_append_iff.mp h
    exact run_bind_eq_ok_iff.mpr ⟨a, middle, hm.enough hb, hk.enough hc⟩
  lacking := by
    intro front s j h
    -- The stack ends either among the operands of the first reader or behind them.
    by_cases hj : j < (b.stack s).length
    · obtain ⟨back, hfail⟩ := hm.lacking (h.left hj)
      exact ⟨back, run_bind_eq_error_iff.mpr (.inl hfail)⟩
    · obtain ⟨middle, hpasses, hlacks⟩ := h.right n (Nat.le_of_not_lt hj)
      obtain ⟨back, hfail⟩ := hk.lacking hlacks
      have hindex : (middle.cursor s).position + (j - (b.stack s).length) =
          (front.cursor s).position + j := by
        rw [hpasses.position s]
        omega
      rw [hindex] at hfail
      exact ⟨back, run_bind_eq_error_iff.mpr (.inr ⟨a, middle, hm.enough hpasses, hfail⟩)⟩

namespace Contract

variable {returns : α → Batch N → List Notice → Prop}

theorem pure {a : α} (h : returns a .empty []) :
    Contract site last (Pure.pure a : Read N α) returns where
  ok := by
    intro front back found hrun
    obtain ⟨rfl, rfl⟩ := run_pure_eq_ok_iff.mp hrun
    exact ⟨.empty, [], Feed.Takes.refl _, h, needs_pure _⟩
  error := by
    intro front back e hrun
    cases hrun

/-- The second reader may rely on what the first one returned and took. -/
theorem bind {m : Read N α} {k : α → Read N β} {yields : β → Batch N → List Notice → Prop}
    (hm : Contract site last m returns)
    (hk : ∀ a b n, returns a b n → Contract site (b.ints.getLast?.or last) (k a)
      fun r c n' => yields r (b ++ c) (n ++ n')) :
    Contract site last (m >>= k) yields where
  ok := by
    intro front back r hrun
    obtain ⟨a, middle, hfirst, hsecond⟩ := run_bind_eq_ok_iff.mp hrun
    obtain ⟨b, n, hb, ha, hneeds⟩ := hm.ok hfirst
    obtain ⟨c, n', hc, hr, hneeds'⟩ := (hk a b n ha).ok hsecond
    exact ⟨b ++ c, n ++ n', hb.trans hc, hr, hneeds.bind hneeds'⟩
  error := by
    intro front back e hrun
    rcases run_bind_eq_error_iff.mp hrun with hfirst | ⟨a, middle, hfirst, hsecond⟩
    · exact hm.error hfirst
    · obtain ⟨b, n, hb, ha, -⟩ := hm.ok hfirst
      obtain ⟨c, n', hc, hblames⟩ := (hk a b n ha).error hsecond
      refine ⟨b ++ c, n ++ n', hb.trans hc, ?_⟩
      rwa [Batch.ints_append, List.getLast?_append, Option.or_assoc]

theorem mono {m : Read N α} {yields : α → Batch N → List Notice → Prop}
    (hm : Contract site last m returns) (h : ∀ a b n, returns a b n → yields a b n) :
    Contract site last m yields where
  ok := by
    intro front back a hrun
    obtain ⟨b, n, hb, ha, hneeds⟩ := hm.ok hrun
    exact ⟨b, n, hb, h a b n ha, hneeds⟩
  error := hm.error

theorem map {m : Read N α} {f : α → β} {yields : β → Batch N → List Notice → Prop}
    (hm : Contract site last m returns) (h : ∀ a b n, returns a b n → yields (f a) b n) :
    Contract site last (f <$> m) yields := by
  rw [map_eq_pure_bind]
  refine hm.bind fun a b n ha => .pure ?_
  rw [Batch.append_empty, List.append_nil]
  exact h a b n ha

end Contract

end Read

end BatchDraw
