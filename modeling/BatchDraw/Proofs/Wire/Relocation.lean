/-
  BatchDraw.Proofs.Wire.Relocation

  The same operands in another place.

  A reader sees which entries are in front of its cursors, not how many it has
  passed; these numbers only turn up in errors and accounts. `front.Continues
  feed feed'` says that `feed'` has the same entries in front of it as `feed`,
  and behind it all that `front` has and then all that `feed` has. An instruction
  read there is read as it is from `feed`, and so is a stretch of instructions; an
  error is the same but for the position of the instruction and the index of the
  missing entry (`WireError.moved`).

  The lemma for readers is by induction on what they are made of, so its cases are
  one entry, what has no meaning, and sequence.
-/
import BatchDraw.Proofs.Wire.Composite
import BatchDraw.Proofs.Wire.Runs

namespace BatchDraw

/-! ## Errors -/

/-- The same error of the instruction at another position, with `offset s` entries
    of each stack `s` ahead of the ones that were there. -/
def WireError.moved (offset : Stack → Nat) (place : Nat → Nat) : WireError → WireError
  | countOutOfRange count available => countOutOfRange count available
  | underflow s index position kind => underflow s (offset s + index) (place position) kind
  | unknownOp tag position => unknownOp tag (place position)
  | unknownSegment tag position => unknownSegment tag (place position)
  | invalidOperand operand value position => invalidOperand operand value (place position)

/-! ## Feeds -/

/-- The same entries are in front of two cursors, and the second one has those behind
    it that `front` has, and then those that the first one has. -/
structure Cursor.Continues {α : Type} (front cursor cursor' : Cursor α) : Prop where
  rest : cursor'.rest = cursor.rest
  position : cursor'.position = front.position + cursor.position

variable {N α β : Type}

/-- The same entries are in front of two feeds, and the second one has an account of
    what `front` passed and then of what the first one passed. -/
structure Feed.Continues (front feed feed' : Feed N) : Prop where
  cursor : ∀ s, (front.cursor s).Continues (feed.cursor s) (feed'.cursor s)
  skippedOps : feed'.skippedOps = front.skippedOps + feed.skippedOps
  skippedSegments : feed'.skippedSegments = front.skippedSegments + feed.skippedSegments

namespace Feed

variable {front feed feed' : Feed N}

/-- One stack is read on from both feeds, the others stay. -/
theorem Continues.withCursor {s : Stack} {cursor cursor' : Cursor (s.Entry N)}
    (h : front.Continues feed feed') (hcursor : (front.cursor s).Continues cursor cursor') :
    front.Continues (feed.withCursor s cursor) (feed'.withCursor s cursor') := by
  refine ⟨?_, ?_, ?_⟩
  · intro t
    by_cases ht : t = s
    · subst ht
      rw [cursor_withCursor_self, cursor_withCursor_self]
      exact hcursor
    · rw [cursor_withCursor_of_ne ht, cursor_withCursor_of_ne ht]
      exact h.cursor t
  · rw [skippedOps_withCursor, skippedOps_withCursor, h.skippedOps]
  · rw [skippedSegments_withCursor, skippedSegments_withCursor, h.skippedSegments]

/-- In front of a batch nothing was passed. -/
theorem continues_ofBatch {c : Batch N} (hrest : ∀ s, (front.cursor s).rest = c.stack s) :
    front.Continues (ofBatch c) front := by
  refine ⟨?_, rfl, rfl⟩
  intro s
  rw [cursor_ofBatch]
  exact ⟨hrest s, rfl⟩

/-- The account of the second feed is that of `front` and that of the first one. -/
theorem Continues.stats (h : front.Continues feed feed') (m n : Nat) :
    feed'.stats ⟨m + n, []⟩ =
      { skippedOps := front.skippedOps + feed.skippedOps
        skippedSegments := front.skippedSegments + feed.skippedSegments
        consumed := (front.stats ⟨m, []⟩).consumed + (feed.stats ⟨n, []⟩).consumed
        remaining := (feed.stats ⟨n, []⟩).remaining } := by
  have hconsumed : (feed'.stats ⟨m + n, []⟩).consumed =
      (front.stats ⟨m, []⟩).consumed + (feed.stats ⟨n, []⟩).consumed := by
    refine Sizes.ext_of rfl fun s => ?_
    rw [Sizes.of_add, consumed_stats_of, consumed_stats_of, consumed_stats_of]
    exact (h.cursor s).position
  have hremaining : (feed'.stats ⟨m + n, []⟩).remaining = (feed.stats ⟨n, []⟩).remaining := by
    refine Sizes.ext_of rfl fun s => ?_
    rw [remaining_stats_of, remaining_stats_of, (h.cursor s).rest]
  rw [← hconsumed, ← hremaining, ← h.skippedOps, ← h.skippedSegments]
  rfl

end Feed

/-! ## Results -/

/-- The second result is the first one behind `front`: the same value, or the same error
    of the instruction at another position. -/
inductive Relocated (front : Feed N) (place : Nat → Nat) :
    EStateM.Result WireError (Feed N) α → EStateM.Result WireError (Feed N) α → Prop where
  | ok {a : α} {feed feed' : Feed N} (h : front.Continues feed feed') :
    Relocated front place (.ok a feed) (.ok a feed')
  | error {e : WireError} {feed feed' : Feed N} :
    Relocated front place (.error e feed)
      (.error (e.moved (fun s => (front.cursor s).position) place) feed')

namespace Relocated

variable {front last feed feed' : Feed N} {place : Nat → Nat}

theorem of_ok {a : α} {r : EStateM.Result WireError (Feed N) α}
    (h : Relocated front place (.ok a feed) r) :
    ∃ feed', r = .ok a feed' ∧ front.Continues feed feed' := by
  cases h with
  | ok h => exact ⟨_, rfl, h⟩

theorem of_error {e : WireError} {r : EStateM.Result WireError (Feed N) α}
    (h : Relocated front place (.error e feed) r) :
    ∃ feed', r = .error (e.moved (fun s => (front.cursor s).position) place) feed' := by
  cases h with
  | error => exact ⟨_, rfl⟩

/-- Readings go in sequence. The second part may have more skipped tags behind it,
    which no error tells. -/
theorem bind {m n : Read N α} {k l : α → Read N β}
    (hm : Relocated front place (m.run feed) (n.run feed')) (hlast : last.cursor = front.cursor)
    (hk : ∀ a feed feed', front.Continues feed feed' →
      Relocated last place ((k a).run feed) ((l a).run feed')) :
    Relocated last place ((m >>= k).run feed) ((n >>= l).run feed') := by
  rw [EStateM.run_bind, EStateM.run_bind]
  generalize m.run feed = r at hm
  generalize n.run feed' = r' at hm
  cases hm with
  | ok h => exact hk _ _ _ h
  | error =>
    rw [← hlast]
    exact .error

theorem map {m n : Read N α} (f : α → β)
    (hm : Relocated front place (m.run feed) (n.run feed')) :
    Relocated front place ((f <$> m).run feed) ((f <$> n).run feed') := by
  rw [map_eq_pure_bind, map_eq_pure_bind]
  exact hm.bind rfl fun a _ _ h => .ok h

end Relocated

namespace Read

variable {front feed feed' : Feed N} {place : Nat → Nat}

/-! ## Readers -/

/-- At another position and behind any `front`, the reader does the same. -/
def Relocates (m : Site → Read N α) : Prop :=
  ∀ (front : Feed N) (place : Nat → Nat) (site : Site) (feed feed' : Feed N),
    front.Continues feed feed' →
      Relocated front place ((m site).run feed)
        ((m { site with position := place site.position }).run feed')

/-- An entry is read, or missing, behind `front` as it is by itself. -/
theorem relocates_entry (s : Stack) : Relocates (entry (N := N) s) := by
  intro front place site feed feed' h
  obtain ⟨hrest, hposition⟩ := h.cursor s
  simp only [EStateM.run, entry, Cursor.next?, hrest]
  cases (feed.cursor s).rest with
  | nil =>
    rw [hposition]
    exact .error
  | cons value rest =>
    refine .ok (h.withCursor ⟨rfl, ?_⟩)
    show (feed'.cursor s).position + 1 = (front.cursor s).position + ((feed.cursor s).position + 1)
    omega

/-- The policy decides, which is the same in both places. -/
theorem relocates_outOfRange (operand : Operand) (value : Int32) (fallback : α) :
    Relocates fun site => (outOfRange site operand value fallback : Read N α) := by
  rintro front place ⟨policy, position, kind⟩ feed feed' h
  cases policy with
  | skip => exact .ok ⟨h.cursor, h.skippedOps, h.skippedSegments⟩
  | reject => exact .error (e := .invalidOperand operand value position)

theorem relocates_unknownSegment (tag : Int32) :
    Relocates fun site => (unknownSegment site tag : Read N Unit) := by
  rintro front place ⟨policy, position, kind⟩ feed feed' h
  cases policy with
  | skip => exact .ok ⟨h.cursor, h.skippedOps, congrArg (· + 1) h.skippedSegments⟩
  | reject => exact .error (e := .unknownSegment tag position)

/-- Every reader does in another place what it does in this one. -/
theorem Composite.relocates {m : Site → Read N α} (hm : Composite m) : Relocates m := by
  -- On how the reader is made.
  induction hm with
  | pure a => exact fun _ _ _ _ _ h => .ok h
  | bind hm hk ihm ihk =>
    intro front place site feed feed' h
    exact (ihm front place site feed feed' h).bind rfl fun a feed feed' h =>
      ihk a front place site feed feed' h
  | atKind kind hm ih =>
    exact fun front place site feed feed' h => ih front place { site with kind } feed feed' h
  | byKind hm ih =>
    exact fun front place site feed feed' h => ih site.kind front place site feed feed' h
  | int =>
    rw [show Read.int = entry .int from funext fun _ => int_eq_entry]
    exact relocates_entry .int
  | real =>
    rw [show Read.real = entry .real from funext fun _ => real_eq_entry]
    exact relocates_entry .real
  | text =>
    rw [show Read.text = entry .text from funext fun _ => text_eq_entry]
    exact relocates_entry .text
  | native =>
    rw [show Read.native = entry .native from funext fun _ => native_eq_entry]
    exact relocates_entry .native
  | outOfRange operand value fallback => exact relocates_outOfRange operand value fallback
  | unknownSegment tag => exact relocates_unknownSegment tag

/-! ## Instructions -/

theorem relocated_instruction? (h : front.Continues feed feed') (place : Nat → Nat)
    (policy : Policy) (position : Nat) (tag : Int32) :
    Relocated front place ((instruction? policy position tag).run feed)
      ((instruction? policy (place position) tag).run feed') := by
  unfold instruction?
  cases OpKind.ofTag? tag with
  | some kind =>
    exact (Composite.op.relocates front place ⟨policy, position, kind⟩ feed feed' h).map some
  | none =>
    cases policy with
    | skip => exact .ok ⟨h.cursor, congrArg (· + 1) h.skippedOps, h.skippedSegments⟩
    | reject => exact .error (e := .unknownOp tag position)

/-- A stretch that is moved by `n` instructions and put behind `front` is read as it was. -/
theorem relocated_instructions (h : front.Continues feed feed') (n : Nat) (policy : Policy)
    (position : Nat) (tags : List Int32) :
    Relocated front (n + ·) ((instructions policy position tags).run feed)
      ((instructions policy (n + position) tags).run feed') := by
  induction tags generalizing position feed feed' with
  | nil => exact .ok h
  | cons tag tags ih =>
    have hfirst := relocated_instruction? h (n + ·) policy position tag
    refine hfirst.bind rfl fun found feed feed' h => ?_
    have hothers := ih h (position + 1)
    exact hothers.bind rfl fun others _ _ h => .ok h

end Read

end BatchDraw
