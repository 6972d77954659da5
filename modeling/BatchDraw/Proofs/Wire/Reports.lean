/-
  BatchDraw.Proofs.Wire.Reports

  What a reader says while it reads.

  A reader that ends, with a value or with an error, has read certain integers and has left
  certain notices (`Read.Reports`). What is said of both is said of either end, because an
  error does not take back what was noticed before. Reports are kept by sequencing, and a
  reader that reads no integers reports nothing (`Read.Silent`).

  Only the tolerant reader leaves notices. That the strict one leaves none, whether or not
  it ends with an error, is shown by what the readers are made of (`Read.Discreet`).
-/
import BatchDraw.Proofs.Wire.Composite
import BatchDraw.Proofs.Wire.Runs

namespace BatchDraw

/-! ## What was read and noticed -/

variable {N α β : Type}

/-- The integers between two feeds, and the notices that were left there. -/
structure Feed.Leaves (front : Feed N) (ints : List Int32) (notices : List Notice)
    (back : Feed N) : Prop where
  ints : front.ints.Passes ints back.ints
  notices : back.notices = front.notices ++ notices

namespace Feed

variable {b : Batch N} {i j : List Int32} {m n : List Notice} {front middle back : Feed N}

theorem Leaves.refl (feed : Feed N) : feed.Leaves [] [] feed :=
  ⟨Cursor.passes_nil_iff.mpr rfl, (List.append_nil _).symm⟩

theorem Leaves.trans (h : front.Leaves i m middle) (h' : middle.Leaves j n back) :
    front.Leaves (i ++ j) (m ++ n) back := by
  refine ⟨Cursor.passes_append_iff.mpr ⟨_, h.ints, h'.ints⟩, ?_⟩
  rw [h'.notices, h.notices, List.append_assoc]

theorem Passes.leaves (h : front.Passes b n back) : front.Leaves b.ints n back :=
  ⟨h.ints, h.notices⟩

/-- Behind a batch, the integers read are the first ones of the batch, and all notices are
    new. -/
theorem Leaves.ofBatch (h : (ofBatch b).Leaves i n back) :
    b.ints.take back.ints.position = i ∧ back.notices = n := by
  obtain ⟨⟨hrest, hposition⟩, hnotices⟩ := h
  have hints : b.ints = i ++ back.ints.rest := hrest
  have hlength : back.ints.position = i.length := hposition.trans (Nat.zero_add _)
  refine ⟨?_, hnotices⟩
  rw [hints, hlength, List.take_left]

end Feed

namespace Read

/-- A reader that stops at an error or returns a value: `stops` or `returns` holds of the
    integers that it has read and of the notices that it has left. -/
structure Reports (m : Read N α) (stops : List Int32 → List Notice → Prop)
    (returns : α → List Int32 → List Notice → Prop) : Prop where
  ok : ∀ {front back : Feed N} {a : α}, m.run front = .ok a back →
    ∃ ints notices, front.Leaves ints notices back ∧ returns a ints notices
  error : ∀ {front back : Feed N} {e : WireError}, m.run front = .error e back →
    ∃ ints notices, front.Leaves ints notices back ∧ stops ints notices

/-- A reader that reads no integer and leaves no notice. -/
abbrev Silent (m : Read N α) : Prop :=
  Reports m (fun ints notices => ints = [] ∧ notices = [])
    fun _ ints notices => ints = [] ∧ notices = []

variable {stops halts : List Int32 → List Notice → Prop}
  {returns : α → List Int32 → List Notice → Prop}
  {yields : β → List Int32 → List Notice → Prop} {m : Read N α} {k : α → Read N β}

namespace Reports

theorem pure {a : α} (h : returns a [] []) : Reports (Pure.pure a : Read N α) stops returns where
  ok := by
    intro front back found hrun
    obtain ⟨rfl, rfl⟩ := run_pure_eq_ok_iff.mp hrun
    exact ⟨[], [], Feed.Leaves.refl _, h⟩
  error := by
    intro front back e hrun
    cases hrun

/-- The second reader goes on from what the first one has read and noticed. -/
theorem bind (hm : Reports m stops returns) (hstops : ∀ i n, stops i n → halts i n)
    (hk : ∀ a i n, returns a i n →
      Reports (k a) (fun j n' => halts (i ++ j) (n ++ n'))
        fun r j n' => yields r (i ++ j) (n ++ n')) :
    Reports (m >>= k) halts yields where
  ok := by
    intro front back r hrun
    obtain ⟨a, middle, hfirst, hsecond⟩ := run_bind_eq_ok_iff.mp hrun
    obtain ⟨i, n, hi, ha⟩ := hm.ok hfirst
    obtain ⟨j, n', hj, hr⟩ := (hk a i n ha).ok hsecond
    exact ⟨i ++ j, n ++ n', hi.trans hj, hr⟩
  error := by
    intro front back e hrun
    rcases run_bind_eq_error_iff.mp hrun with hfirst | ⟨a, middle, hfirst, hsecond⟩
    · obtain ⟨i, n, hi, hstop⟩ := hm.error hfirst
      exact ⟨i, n, hi, hstops i n hstop⟩
    · -- The second reader fails, but the first one has left its notices.
      obtain ⟨i, n, hi, ha⟩ := hm.ok hfirst
      obtain ⟨j, n', hj, hstop⟩ := (hk a i n ha).error hsecond
      exact ⟨i ++ j, n ++ n', hi.trans hj, hstop⟩

theorem mono {gives : α → List Int32 → List Notice → Prop} (hm : Reports m stops returns)
    (hstops : ∀ i n, stops i n → halts i n) (hreturns : ∀ a i n, returns a i n → gives a i n) :
    Reports m halts gives where
  ok := by
    intro front back a hrun
    obtain ⟨i, n, hi, ha⟩ := hm.ok hrun
    exact ⟨i, n, hi, hreturns a i n ha⟩
  error := by
    intro front back e hrun
    obtain ⟨i, n, hi, hstop⟩ := hm.error hrun
    exact ⟨i, n, hi, hstops i n hstop⟩

theorem map {f : α → β} (hm : Reports m stops returns)
    (h : ∀ a i n, returns a i n → yields (f a) i n) : Reports (f <$> m) stops yields := by
  rw [map_eq_pure_bind]
  refine hm.bind (fun _ _ h => h) fun a i n ha => .pure ?_
  rw [List.append_nil, List.append_nil]
  exact h a i n ha

end Reports

namespace Silent

/-- Behind a silent reader nothing has changed for the next one. -/
theorem andThen (hm : Silent m) (hhalts : halts [] []) (hk : ∀ a, Reports (k a) halts yields) :
    Reports (m >>= k) halts yields := by
  refine Reports.bind hm ?_ ?_
  · rintro i n ⟨rfl, rfl⟩
    exact hhalts
  · rintro a i n ⟨rfl, rfl⟩
    exact hk a

theorem pure (a : α) : Silent (Pure.pure a : Read N α) :=
  Reports.pure ⟨rfl, rfl⟩

theorem bind (hm : Silent m) (hk : ∀ a, Silent (k a)) : Silent (m >>= k) :=
  hm.andThen ⟨rfl, rfl⟩ hk

theorem map {f : α → β} (hm : Silent m) : Silent (f <$> m) :=
  Reports.map hm fun _ _ _ h => h

end Silent

variable {site : Site} {position : Nat} {kind : OpKind}

/-! ## Entries -/

/-- Entries that are not integers are read in silence. -/
theorem silent_entry {s : Stack} (hs : s ≠ .int) :
    Silent (entry s site : Read N (s.Entry N)) where
  ok := by
    intro front back value hrun
    have hleaves := (run_entry_eq_ok_iff.mp hrun).leaves
    have hnone : (Batch.single s value).ints = [] := Batch.stack_single_of_ne hs.symm value
    exact ⟨_, _, hleaves, hnone, rfl⟩
  error := by
    intro front back e hrun
    obtain ⟨-, -, rfl⟩ := run_entry_eq_error_iff.mp hrun
    exact ⟨[], [], Feed.Leaves.refl _, rfl, rfl⟩

theorem silent_real : Silent (real site : Read N Float) := by
  rw [real_eq_entry]
  exact silent_entry (by decide)

theorem silent_text : Silent (text site : Read N String) := by
  rw [text_eq_entry]
  exact silent_entry (by decide)

theorem silent_native : Silent (native site : Read N (Option N)) := by
  rw [native_eq_entry]
  exact silent_entry (by decide)

/-- An integer is read, or there is none. -/
theorem reports_int :
    Reports (int site : Read N Int32) (fun ints notices => ints = [] ∧ notices = [])
      fun value ints notices => ints = [value] ∧ notices = [] where
  ok := by
    intro front back value hrun
    have hleaves := (run_int_eq_ok_iff.mp hrun).leaves
    exact ⟨_, _, hleaves, rfl, rfl⟩
  error := by
    intro front back e hrun
    rw [int_eq_entry] at hrun
    obtain ⟨-, -, rfl⟩ := run_entry_eq_error_iff.mp hrun
    exact ⟨[], [], Feed.Leaves.refl _, rfl, rfl⟩

/-- The next reader knows the integer. -/
theorem reports_int_bind {k : Int32 → Read N β} (hhalts : halts [] [])
    (hk : ∀ value, Reports (k value) (fun ints notices => halts (value :: ints) notices)
      fun r ints notices => yields r (value :: ints) notices) :
    Reports (int site >>= k) halts yields := by
  refine reports_int.bind ?_ ?_
  · rintro i n ⟨rfl, rfl⟩
    exact hhalts
  · rintro value i n ⟨rfl, rfl⟩
    exact hk value

/-! ## What has no meaning -/

/-- The tolerant reader takes the fallback and says so. -/
theorem reports_outOfRange (operand : Operand) (value : Int32) (fallback : α) :
    Reports (outOfRange ⟨.skip, position, kind⟩ operand value fallback : Read N α)
      (fun _ _ => False) fun a ints notices =>
        a = fallback ∧ ints = [] ∧ notices = [.outOfRange operand value position] where
  ok := by
    intro front back a hrun
    cases hrun
    have hleaves := (front.passes_empty [.outOfRange operand value position]).leaves
    exact ⟨_, _, hleaves, rfl, rfl, rfl⟩
  error := by
    intro front back e hrun
    cases hrun

theorem reports_unknownSegment (tag : Int32) :
    Reports (unknownSegment ⟨.skip, position, kind⟩ tag : Read N Unit) (fun _ _ => False)
      fun _ ints notices => ints = [] ∧ notices = [.unknownSegment tag position] where
  ok := by
    intro front back a hrun
    cases hrun
    have hleaves := (front.passes_empty [.unknownSegment tag position]).leaves
    exact ⟨_, _, hleaves, rfl, rfl⟩
  error := by
    intro front back e hrun
    cases hrun

/-- A count is noticed when it is negative, and counts nothing then. -/
theorem reports_countOf (operand : Operand) (value : Int32) :
    Reports (countOf ⟨.skip, position, kind⟩ operand value : Read N Nat) (fun _ _ => False)
      fun count ints notices => count = value.toNatClampNeg ∧ ints = [] ∧
        notices = if value < 0 then [.outOfRange operand value position] else [] := by
  unfold countOf
  by_cases hneg : value < 0
  · have hzero : 0 = value.toNatClampNeg := by
      have hlt : value.toInt < 0 := Int32.lt_iff_toInt_lt.mp hneg
      rw [← Int32.toNat_toInt]
      omega
    rw [if_pos hneg, if_pos hneg, ← hzero]
    exact reports_outOfRange operand value 0
  · rw [if_neg hneg, if_neg hneg]
    exact .pure ⟨rfl, rfl, rfl⟩

/-! ## Reals in a row -/

theorem silent_point : Silent (point site : Read N Point) :=
  silent_real.bind fun _ => silent_real.bind fun _ => .pure _

theorem silent_rect : Silent (rect site : Read N Rect) := by
  have hframe : Silent (Read.frame site : Read N Frame) :=
    silent_real.bind fun _ => silent_real.bind fun _ => silent_real.bind fun _ =>
      silent_real.bind fun _ => .pure _
  exact hframe.bind fun _ => .pure _

theorem silent_affine : Silent (affine site : Read N Affine) :=
  silent_real.bind fun _ => silent_real.bind fun _ => silent_real.bind fun _ =>
    silent_real.bind fun _ => silent_real.bind fun _ => silent_real.bind fun _ => .pure _

theorem silent_reals (n : Nat) : Silent (reals site n : Read N (List Float)) := by
  induction n with
  | zero => exact .pure []
  | succ n ih => exact silent_real.bind fun _ => ih.bind fun _ => .pure _

theorem silent_dashOffset (count : Nat) : Silent (dashOffset site count : Read N Float) := by
  cases count with
  | zero => exact .pure 0.0
  | succ n => exact silent_real

theorem silent_miterLimit (code : Int32) :
    Silent (miterLimit site code : Read N (Option Float)) := by
  unfold miterLimit
  by_cases hcode : code = Join.miter.code
  · rw [if_pos hcode]
    exact silent_real.map
  · rw [if_neg hcode]
    exact .pure none

theorem silent_textRun : Silent (textRun site : Read N TextRun) :=
  silent_text.bind fun _ => silent_point.bind fun _ => silent_real.bind fun _ => .pure _

/-! ## The strict reader -/

/-- A reader that leaves no notice, whatever it reads and however it ends. -/
abbrev Discreet (m : Read N α) : Prop :=
  Reports m (fun _ notices => notices = []) fun _ _ notices => notices = []

namespace Discreet

theorem bind (hm : Discreet m) (hk : ∀ a, Discreet (k a)) : Discreet (m >>= k) := by
  refine Reports.bind hm (fun _ _ h => h) ?_
  rintro a i _ rfl
  exact hk a

theorem of_silent (hm : Silent m) : Discreet m :=
  hm.mono (fun _ _ h => h.2) fun _ _ _ h => h.2

/-- A reader that always stops where it is. -/
theorem of_error (h : ∀ front : Feed N, ∃ e, m.run front = .error e front) : Discreet m where
  ok := by
    intro front back a hrun
    obtain ⟨e, herror⟩ := h front
    rw [herror] at hrun
    cases hrun
  error := by
    intro front back e hrun
    obtain ⟨e', herror⟩ := h front
    rw [herror] at hrun
    cases hrun
    exact ⟨[], [], Feed.Leaves.refl _, rfl⟩

end Discreet

theorem Composite.discreet {m : Site → Read N α} (hm : Composite m)
    (hsite : site.policy = .reject) : Discreet (m site) := by
  -- On how the reader is made.
  induction hm generalizing site with
  | pure a => exact .of_silent (.pure a)
  | bind hm hk ihm ihk => exact (ihm hsite).bind fun a => ihk a hsite
  | atKind kind hm ih => exact ih hsite
  | byKind hm ih => exact ih site.kind hsite
  | int => exact reports_int.mono (fun _ _ h => h.2) fun _ _ _ h => h.2
  | real => exact .of_silent silent_real
  | text => exact .of_silent silent_text
  | native => exact .of_silent silent_native
  | outOfRange operand value fallback =>
    -- Here the strict reader stops, where the tolerant one leaves a notice.
    obtain ⟨policy, position, kind⟩ := site
    cases hsite
    exact .of_error fun front => ⟨.invalidOperand operand value position, rfl⟩
  | unknownSegment tag =>
    obtain ⟨policy, position, kind⟩ := site
    cases hsite
    exact .of_error fun front => ⟨.unknownSegment tag position, rfl⟩

theorem discreet_instruction? (tag : Int32) :
    Discreet (instruction? .reject position tag : Read N (Option (Op N))) := by
  unfold instruction?
  cases OpKind.ofTag? tag with
  | some kind =>
    have hop : Discreet (Read.op ⟨.reject, position, kind⟩ : Read N (Op N)) :=
      Composite.op.discreet rfl
    exact hop.map fun _ _ _ h => h
  | none =>
    have hunknown : Discreet (unknownOp .reject tag position : Read N Unit) :=
      .of_error fun front => ⟨.unknownOp tag position, rfl⟩
    exact hunknown.bind fun _ => .of_silent (.pure none)

theorem discreet_instructions (tags : List Int32) :
    Discreet (instructions .reject position tags : Read N (List (Op N))) := by
  induction tags generalizing position with
  | nil => exact .of_silent (.pure [])
  | cons tag tags ih =>
    exact (discreet_instruction? tag).bind fun _ => ih.bind fun _ => .of_silent (.pure _)

end Read

end BatchDraw
