/-
  BatchDraw.Wire.Program

  A batch read to its end.

  `Batch.decode` either yields all operations of a batch together with an
  account of what was read, or the first error, and then no operation at all.
-/
import BatchDraw.Wire.Operands

namespace BatchDraw

variable {N : Type}

/-! ## Accounts -/

/-- An account of what was read and what was passed over. -/
structure Stats where
  /-- Tags that stood for no kind of operation. -/
  skippedOps : Nat := 0
  /-- Tags inside shapes that stood for no kind of segment. -/
  skippedSegments : Nat := 0
  /-- How many entries of each sequence were read. -/
  consumed : Sizes := {}
  /-- How many entries of each sequence are left. -/
  remaining : Sizes := {}
  deriving DecidableEq

/-- The account of a feed, with the cursor of the instruction tags. -/
def Feed.stats (feed : Feed N) (tags : Cursor Int32) : Stats where
  skippedOps := feed.skippedOps
  skippedSegments := feed.skippedSegments
  consumed :=
    { tags := tags.position
      ints := feed.ints.position
      reals := feed.reals.position
      texts := feed.texts.position
      natives := feed.natives.position }
  remaining :=
    { tags := tags.rest.length
      ints := feed.ints.rest.length
      reals := feed.reals.rest.length
      texts := feed.texts.rest.length
      natives := feed.natives.rest.length }

/-! ## Programs -/

/-- The operations of a batch in drawing order, and the account of reading
    them. -/
structure Program (N : Type) where
  ops : List (Op N)
  stats : Stats
  deriving DecidableEq

namespace Batch

/-- Reads every instruction of a batch. -/
def readAll (b : Batch N) (policy : Policy) :
    EStateM.Result WireError (Feed N) (List (Op N)) :=
  (Read.instructions policy 0 b.tags).run (.ofBatch b)

/-- The operations of a batch, or the first error in it. -/
def decode (b : Batch N) (policy : Policy) : Except WireError (Program N) :=
  match b.readAll policy with
  | .ok ops feed => .ok { ops, stats := feed.stats ⟨b.tags.length, []⟩ }
  | .error e _ => .error e

/-- A batch is decoded when its instructions can be read to the end. -/
theorem decode_eq_ok_iff {b : Batch N} {policy : Policy} {p : Program N} :
    b.decode policy = .ok p ↔
      ∃ feed, (Read.instructions policy 0 b.tags).run (.ofBatch b) = .ok p.ops feed ∧
        p.stats = feed.stats ⟨b.tags.length, []⟩ := by
  unfold decode readAll
  cases (Read.instructions policy 0 b.tags).run (.ofBatch b) with
  | error e feed => simp
  | ok found feed =>
    refine ⟨?_, ?_⟩
    · intro h
      cases h
      exact ⟨feed, rfl, rfl⟩
    · intro h
      obtain ⟨last, hrun, hstats⟩ := h
      cases hrun
      exact congrArg (fun stats => Except.ok (Program.mk p.ops stats)) hstats.symm

/-- A batch is refused for the first error that its instructions lead to. -/
theorem decode_eq_error_iff {b : Batch N} {policy : Policy} {e : WireError} :
    b.decode policy = .error e ↔
      ∃ feed, (Read.instructions policy 0 b.tags).run (.ofBatch b) = .error e feed := by
  unfold decode readAll
  cases (Read.instructions policy 0 b.tags).run (.ofBatch b) with
  | ok found feed => simp
  | error e' feed => simp

/-- What is passed over while a batch is read to its end or to its first
    error. -/
def notices (b : Batch N) (policy : Policy) : List Notice :=
  match b.readAll policy with
  | .ok _ feed => feed.notices
  | .error _ feed => feed.notices

end Batch

end BatchDraw
