/-
  BatchDraw.Proofs.Wire.Lockstep

  The strict and the tolerant reader side by side.

  Started from one feed, the two compare in one of three ways (`Agreement`): both
  succeed alike and leave no notice, or both run out of the same operands, or
  they part, because the strict one refuses what the tolerant one passes over
  with a notice. Agreement is kept by sequencing (`Lockstep.bind`), so it is
  shown for what the readers are made of and follows for all of them
  (`Read.Composite.agrees`).

  Behind the point where they part nothing is said about the tolerant reader but
  that it never refuses anything: it can only run out of operands (`Tolerated`).
-/
import BatchDraw.Proofs.Wire.Passage
import BatchDraw.Proofs.Wire.Composite

namespace BatchDraw

/-! ## Errors -/

namespace WireError

/-- The instruction that ran out of operands, if that is what is wrong. -/
def underflow? : WireError → Option Nat
  | underflow _ _ position _ => some position
  | countOutOfRange _ _ | unknownOp _ _ | unknownSegment _ _ | invalidOperand _ _ _ => none

/-- The instruction that has a number without a meaning, if that is what is
    wrong. -/
def anomaly? : WireError → Option Nat
  | unknownOp _ position | unknownSegment _ position | invalidOperand _ _ position =>
    some position
  | countOutOfRange _ _ | underflow _ _ _ _ => none

/-- Running out of operands is no anomaly. -/
theorem anomaly?_of_underflow? {e : WireError} {position : Nat}
    (h : e.underflow? = some position) : e.anomaly? = none := by
  cases e <;> first | rfl | cases h

end WireError

variable {N α β : Type}

/-! ## Agreement of two results -/

/-- A result of a tolerant reading from `feed`: success with `notices` left on the
    way, or an instruction at a position in `P` that ran out of operands. -/
inductive Tolerated (P : Nat → Prop) (feed : Feed N) (notices : List Notice) :
    EStateM.Result WireError (Feed N) α → Prop where
  | ok {a : α} {feed' : Feed N} (b : Batch N) (passes : feed.Passes b notices feed') :
    Tolerated P feed notices (.ok a feed')
  | underflow {e : WireError} {feed' : Feed N} {position : Nat}
    (he : e.underflow? = some position) (hP : P position) :
    Tolerated P feed notices (.error e feed')

/-- How a strict and a tolerant reading from `feed` compare. Errors are those of
    instructions at positions in `P`. -/
inductive Agreement (P : Nat → Prop) (feed : Feed N) :
    EStateM.Result WireError (Feed N) α → EStateM.Result WireError (Feed N) α → Prop where
  /-- Both succeed alike, without a notice. -/
  | same {a : α} {feed' : Feed N} (b : Batch N) (takes : feed.Takes b feed') :
    Agreement P feed (.ok a feed') (.ok a feed')
  /-- Both run out of the same operands. -/
  | underflow {e : WireError} {feed' : Feed N} {position : Nat}
    (he : e.underflow? = some position) (hP : P position) :
    Agreement P feed (.error e feed') (.error e feed')
  /-- The strict one refuses what the tolerant one passes over. -/
  | parted {e : WireError} {feed' : Feed N} {position : Nat} {notices : List Notice}
    {result : EStateM.Result WireError (Feed N) α}
    (he : e.anomaly? = some position) (hP : P position) (hnotices : notices ≠ [])
    (tolerated : Tolerated P feed notices result) :
    Agreement P feed (.error e feed') result

/-- Two readers that agree from every feed. -/
def Lockstep (P : Nat → Prop) (strict tolerant : Read N α) : Prop :=
  ∀ feed, Agreement P feed (strict.run feed) (tolerant.run feed)

variable {P Q : Nat → Prop} {feed feed' : Feed N}

theorem Tolerated.mono {notices : List Notice} {r : EStateM.Result WireError (Feed N) α}
    (hPQ : ∀ position, P position → Q position) (h : Tolerated P feed notices r) :
    Tolerated Q feed notices r := by
  cases h with
  | ok b passes => exact .ok b passes
  | underflow he hP => exact .underflow he (hPQ _ hP)

theorem Agreement.mono {r s : EStateM.Result WireError (Feed N) α}
    (hPQ : ∀ position, P position → Q position) (h : Agreement P feed r s) :
    Agreement Q feed r s := by
  cases h with
  | same b takes => exact .same b takes
  | underflow he hP => exact .underflow he (hPQ _ hP)
  | parted he hP hnotices tolerated =>
    exact .parted he (hPQ _ hP) hnotices (tolerated.mono hPQ)

/-- A reading goes on behind a passage. -/
theorem Tolerated.after {b : Batch N} {m n : List Notice}
    {r : EStateM.Result WireError (Feed N) α} (hpasses : feed.Passes b m feed')
    (h : Tolerated P feed' n r) : Tolerated P feed (m ++ n) r := by
  cases h with
  | ok c passes => exact .ok (b ++ c) (hpasses.trans passes)
  | underflow he hP => exact .underflow he hP

theorem Agreement.after {b : Batch N} {r s : EStateM.Result WireError (Feed N) α}
    (htakes : feed.Takes b feed') (h : Agreement P feed' r s) : Agreement P feed r s := by
  cases h with
  | same c takes => exact .same (b ++ c) (htakes.trans takes)
  | underflow he hP => exact .underflow he hP
  | parted he hP hnotices tolerated =>
    exact .parted he hP hnotices (Tolerated.after htakes tolerated)

/-- In all three ways the tolerant reading is tolerant. -/
theorem Agreement.tolerated {r s : EStateM.Result WireError (Feed N) α}
    (h : Agreement P feed r s) : ∃ notices, Tolerated P feed notices s := by
  cases h with
  | same b takes => exact ⟨[], .ok b takes⟩
  | underflow he hP => exact ⟨[], .underflow he hP⟩
  | parted he hP hnotices tolerated => exact ⟨_, tolerated⟩

/-! ### What the strict side tells -/

/-- What the strict reading accepts, the tolerant one reads alike. -/
theorem Agreement.of_ok {a : α} {s : EStateM.Result WireError (Feed N) α}
    (h : Agreement P feed (.ok a feed') s) : s = .ok a feed' ∧ ∃ b, feed.Takes b feed' := by
  cases h with
  | same b takes => exact ⟨rfl, b, takes⟩

/-- Where the strict reading runs out of operands, so does the tolerant one. -/
theorem Agreement.of_underflow {e : WireError} {position : Nat}
    {s : EStateM.Result WireError (Feed N) α} (he : e.underflow? = some position)
    (h : Agreement P feed (.error e feed') s) : s = .error e feed' := by
  cases h with
  | underflow => rfl
  | parted hanomaly =>
    rw [WireError.anomaly?_of_underflow? he] at hanomaly
    cases hanomaly

/-- A number without a meaning is at a position in `P`. -/
theorem Agreement.of_anomaly {e : WireError} {position : Nat}
    {s : EStateM.Result WireError (Feed N) α} (he : e.anomaly? = some position)
    (h : Agreement P feed (.error e feed') s) : P position := by
  cases h with
  | underflow hunderflow =>
    rw [WireError.anomaly?_of_underflow? hunderflow] at he
    cases he
  | parted hanomaly hP =>
    rw [hanomaly] at he
    cases he
    exact hP

/-- What the tolerant reading reads without a notice, the strict one accepts. -/
theorem Agreement.of_tolerant_ok {a : α} {r : EStateM.Result WireError (Feed N) α}
    (h : Agreement P feed r (.ok a feed')) :
    r = .ok a feed' ∨ ∃ b notices, notices ≠ [] ∧ feed.Passes b notices feed' := by
  cases h with
  | same b takes => exact .inl rfl
  | parted he hP hnotices tolerated =>
    cases tolerated with
    | ok b passes => exact .inr ⟨b, _, hnotices, passes⟩

/-! ## Sequencing -/

namespace Lockstep

theorem mono {strict tolerant : Read N α} (hPQ : ∀ position, P position → Q position)
    (h : Lockstep P strict tolerant) : Lockstep Q strict tolerant :=
  fun feed => (h feed).mono hPQ

theorem pure (a : α) : Lockstep P (Pure.pure a : Read N α) (Pure.pure a) :=
  fun feed => .same .empty (.refl feed)

theorem bind {m n : Read N α} {k l : α → Read N β} (hm : Lockstep P m n)
    (hk : ∀ a, Lockstep P (k a) (l a)) : Lockstep P (m >>= k) (n >>= l) := by
  intro feed
  rw [EStateM.run_bind, EStateM.run_bind]
  have h := hm feed
  generalize m.run feed = r at h
  generalize n.run feed = s at h
  cases h with
  | same b takes => exact (hk _ _).after takes
  | underflow he hP => exact .underflow he hP
  | parted he hP hnotices tolerated =>
    -- The strict side is done; the tolerant side may still go on.
    cases tolerated with
    | underflow he' hP' => exact .parted he hP hnotices (.underflow he' hP')
    | ok b passes =>
      obtain ⟨more, hmore⟩ := (hk _ _).tolerated
      exact .parted he hP (by simp [hnotices]) (hmore.after passes)

theorem map {m n : Read N α} (f : α → β) (hm : Lockstep P m n) :
    Lockstep P (f <$> m) (f <$> n) := by
  rw [map_eq_pure_bind, map_eq_pure_bind]
  exact hm.bind fun a => .pure (f a)

end Lockstep

/-! ## Readers -/

/-- A reader that agrees with itself under the two policies, at every
    instruction. -/
def Read.Agrees (m : Site → Read N α) : Prop :=
  ∀ position kind, Lockstep (· = position) (m ⟨.reject, position, kind⟩)
    (m ⟨.skip, position, kind⟩)

namespace Read

theorem Agrees.pure (a : α) : Agrees fun _ => (Pure.pure a : Read N α) :=
  fun _ _ => .pure a

theorem Agrees.bind {m : Site → Read N α} {k : α → Site → Read N β} (hm : Agrees m)
    (hk : ∀ a, Agrees (k a)) : Agrees fun site => m site >>= fun a => k a site :=
  fun position kind => (hm position kind).bind fun a => hk a position kind

/-! ### One entry -/

/-- A reader that does not look at the policy agrees with itself if it only ever
    takes operands or runs out of them. -/
theorem agreement_self {position : Nat} {m : Read N α}
    (hok : ∀ a feed', m.run feed = .ok a feed' → ∃ b, feed.Takes b feed')
    (herror : ∀ e feed', m.run feed = .error e feed' → e.underflow? = some position) :
    Agreement (· = position) feed (m.run feed) (m.run feed) := by
  cases h : m.run feed with
  | ok a feed' =>
    obtain ⟨b, htakes⟩ := hok a feed' h
    exact .same b htakes
  | error e feed' => exact .underflow (herror e feed' h) rfl

theorem agrees_int : Agrees (int (N := N)) := by
  intro position kind feed
  refine agreement_self (fun value _ h => ⟨_, run_int_eq_ok_iff.mp h⟩) ?_
  intro e feed' h
  simp only [EStateM.run, int] at h
  split at h <;> cases h
  rfl

theorem agrees_real : Agrees (real (N := N)) := by
  intro position kind feed
  refine agreement_self (fun value _ h => ⟨_, run_real_eq_ok_iff.mp h⟩) ?_
  intro e feed' h
  simp only [EStateM.run, real] at h
  split at h <;> cases h
  rfl

theorem agrees_text : Agrees (text (N := N)) := by
  intro position kind feed
  refine agreement_self (fun value _ h => ⟨_, run_text_eq_ok_iff.mp h⟩) ?_
  intro e feed' h
  simp only [EStateM.run, text] at h
  split at h <;> cases h
  rfl

theorem agrees_native : Agrees (native (N := N)) := by
  intro position kind feed
  refine agreement_self (fun value _ h => ⟨_, run_native_eq_ok_iff.mp h⟩) ?_
  intro e feed' h
  simp only [EStateM.run, native] at h
  split at h <;> cases h
  rfl

/-! ### What has no meaning -/

theorem agrees_outOfRange (operand : Operand) (value : Int32) (fallback : α) :
    Agrees fun site => (outOfRange site operand value fallback : Read N α) := by
  intro position kind feed
  -- The fallback is taken without moving a cursor.
  have htolerated : Tolerated (· = position) feed [.outOfRange operand value position]
      ((outOfRange ⟨.skip, position, kind⟩ operand value fallback).run feed) :=
    .ok .empty (feed.passes_empty [.outOfRange operand value position])
  exact .parted rfl rfl (List.cons_ne_nil _ _) htolerated

theorem agrees_unknownSegment (tag : Int32) :
    Agrees fun site => (unknownSegment site tag : Read N Unit) := by
  intro position kind feed
  have htolerated : Tolerated (· = position) feed [.unknownSegment tag position]
      ((unknownSegment ⟨.skip, position, kind⟩ tag).run feed) :=
    .ok .empty (feed.passes_empty [.unknownSegment tag position])
  exact .parted rfl rfl (List.cons_ne_nil _ _) htolerated

theorem lockstep_unknownOp (tag : Int32) (position : Nat) :
    Lockstep (· = position) (unknownOp .reject tag position : Read N Unit)
      (unknownOp .skip tag position) := by
  intro feed
  have htolerated : Tolerated (· = position) feed [.unknownOp tag position]
      ((unknownOp .skip tag position).run feed) :=
    .ok .empty (feed.passes_empty [.unknownOp tag position])
  exact .parted rfl rfl (List.cons_ne_nil _ _) htolerated

/-! ### Operations and instructions -/

/-- Every reader that is made of these agrees with itself. -/
theorem Composite.agrees {m : Site → Read N α} (h : Composite m) : Agrees m := by
  -- On how the reader is made.
  induction h with
  | pure a => exact .pure a
  | bind hm hk ihm ihk => exact .bind ihm ihk
  | atKind kind hm ih => exact fun position _ => ih position kind
  | byKind hm ih => exact fun position kind => ih kind position kind
  | int => exact agrees_int
  | real => exact agrees_real
  | text => exact agrees_text
  | native => exact agrees_native
  | outOfRange operand value fallback => exact agrees_outOfRange operand value fallback
  | unknownSegment tag => exact agrees_unknownSegment tag

theorem lockstep_instruction? (position : Nat) (tag : Int32) :
    Lockstep (· = position) (instruction? .reject position tag : Read N (Option (Op N)))
      (instruction? .skip position tag) := by
  unfold instruction?
  cases OpKind.ofTag? tag with
  | some kind => exact (Composite.op.agrees position kind).map some
  | none => exact (lockstep_unknownOp tag position).bind fun _ => .pure none

/-- The instructions from a position on agree, and the errors among them are of
    instructions from that position on. -/
theorem lockstep_instructions (position : Nat) (tags : List Int32) :
    Lockstep (position ≤ ·) (instructions .reject position tags : Read N (List (Op N)))
      (instructions .skip position tags) := by
  induction tags generalizing position with
  | nil => exact .pure []
  | cons tag tags ih =>
    -- Errors of the first instruction are at `position`, those of the others behind it.
    have hfirst := (lockstep_instruction? (N := N) position tag).mono
      (Q := (position ≤ ·)) fun i hi => Nat.le_of_eq hi.symm
    have hothers := (ih (position + 1)).mono (Q := (position ≤ ·)) fun i hi =>
      Nat.le_of_succ_le hi
    exact hfirst.bind fun _ => hothers.bind fun _ => .pure _

end Read

end BatchDraw
