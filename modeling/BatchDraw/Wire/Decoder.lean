/-
  BatchDraw.Wire.Decoder

  A batch read one operation at a time.

  Each call of `Decoder.next` passes over unknown tags up to the next operation
  and yields it. An error ends the sequence: what comes behind it is never read.
-/
import BatchDraw.Wire.Program

namespace BatchDraw

variable {N : Type}

/-- A reader that stands between two instructions of a batch. -/
structure Decoder (N : Type) where
  policy : Policy
  tags : Cursor Int32
  feed : Feed N
  /-- Whether an error was yielded. -/
  failed : Bool := false
  deriving DecidableEq

namespace Decoder

/-- In front of the first instruction. -/
def ofBatch (b : Batch N) (policy : Policy) : Decoder N where
  policy := policy
  tags := .ofList b.tags
  feed := .ofBatch b

/-- The account of what was read so far. -/
def stats (decoder : Decoder N) : Stats := decoder.feed.stats decoder.tags

/-- What one call yields: an operation, an error, or `none` at the end. -/
abbrev Item (N : Type) := Option (Except WireError (Op N))

/-- Reads on from given tags, the first of them at `position`, up to the next
    operation. -/
def seek (policy : Policy) (feed : Feed N) (position : Nat) :
    List Int32 → Item N × Decoder N
  | [] => (none, { policy, tags := ⟨position, []⟩, feed })
  | tag :: tags =>
    match (Read.instruction? policy position tag).run feed with
    | .ok (some op) feed =>
      (some (.ok op), { policy, tags := ⟨position + 1, tags⟩, feed })
    | .ok none feed => seek policy feed (position + 1) tags
    | .error e feed =>
      (some (.error e), { policy, tags := ⟨position + 1, tags⟩, feed, failed := true })

/-- The next operation or error, and the reader behind it. Behind an error there
    is nothing more. -/
def next (decoder : Decoder N) : Item N × Decoder N :=
  if decoder.failed then
    (none, decoder)
  else
    seek decoder.policy decoder.feed decoder.tags.position decoder.tags.rest

/-- The reader after a number of calls. -/
def advance (decoder : Decoder N) : Nat → Decoder N
  | 0 => decoder
  | n + 1 => decoder.next.2.advance n

end Decoder

end BatchDraw
