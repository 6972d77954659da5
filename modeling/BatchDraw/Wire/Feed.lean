/-
  BatchDraw.Wire.Feed

  Reading operands off their stacks.

  A `Feed` is the state of a reader: a cursor into each operand stack, and an
  account of what was passed over. `Read` is a computation on it that may end
  with an error; the feed stays where the error found it, so that what was
  consumed can still be told afterwards. Entries are read once and in order.
-/
import BatchDraw.Wire.Batch

namespace BatchDraw

/-! ## Cursors and feeds -/

/-- A sequence that is read from the front: how many entries were read, and
    those that are left. -/
structure Cursor (α : Type) where
  position : Nat
  rest : List α
  deriving DecidableEq

/-- A cursor in front of a sequence. -/
def Cursor.ofList {α : Type} (entries : List α) : Cursor α := ⟨0, entries⟩

/-- The next entry and the cursor behind it, if there is one. -/
def Cursor.next? {α : Type} (cursor : Cursor α) : Option (α × Cursor α) :=
  match cursor.rest with
  | [] => none
  | entry :: rest => some (entry, ⟨cursor.position + 1, rest⟩)

/-- The operand stacks while they are read, and what was passed over. -/
structure Feed (N : Type) where
  ints : Cursor Int32
  reals : Cursor Float
  texts : Cursor String
  natives : Cursor (Option N)
  /-- Tags that stood for no kind of operation. -/
  skippedOps : Nat := 0
  /-- Tags inside shapes that stood for no kind of segment. -/
  skippedSegments : Nat := 0
  /-- What was passed over, oldest first. -/
  notices : List Notice := []
  deriving DecidableEq

/-- Where a reader is, and how strict: what an error or a notice has to know. -/
structure Site where
  policy : Policy
  /-- The position of the instruction that is being read. -/
  position : Nat
  /-- The kind of operation it stands for. -/
  kind : OpKind
  deriving DecidableEq

/-- Reading from the operand stacks, with an error as one of the ends. -/
abbrev Read (N : Type) : Type → Type := EStateM WireError (Feed N)

variable {N : Type}

namespace Feed

/-- The stacks of a batch, with nothing read yet. -/
def ofBatch (b : Batch N) : Feed N where
  ints := .ofList b.ints
  reals := .ofList b.reals
  texts := .ofList b.texts
  natives := .ofList b.natives

def note (feed : Feed N) (notice : Notice) : Feed N :=
  { feed with notices := feed.notices ++ [notice] }

end Feed

/-! ## One entry -/

namespace Read

def int (site : Site) : Read N Int32 := fun feed =>
  match feed.ints.next? with
  | none => .error (.underflow .int feed.ints.position site.position site.kind) feed
  | some (value, ints) => .ok value { feed with ints }

def real (site : Site) : Read N Float := fun feed =>
  match feed.reals.next? with
  | none => .error (.underflow .real feed.reals.position site.position site.kind) feed
  | some (value, reals) => .ok value { feed with reals }

def text (site : Site) : Read N String := fun feed =>
  match feed.texts.next? with
  | none => .error (.underflow .text feed.texts.position site.position site.kind) feed
  | some (value, texts) => .ok value { feed with texts }

/-- Reads a reference to a thing of the host. -/
def native (site : Site) : Read N (Option N) := fun feed =>
  match feed.natives.next? with
  | none => .error (.underflow .native feed.natives.position site.position site.kind) feed
  | some (value, natives) => .ok value { feed with natives }

/-! ## What has no meaning -/

/-- Passes over an unknown instruction tag, or refuses it. -/
def unknownOp (policy : Policy) (tag : Int32) (position : Nat) : Read N Unit := fun feed =>
  match policy with
  | .skip =>
    .ok () { feed.note (.unknownOp tag position) with
      skippedOps := feed.skippedOps + 1 }
  | .reject => .error (.unknownOp tag position) feed

/-- Passes over an unknown segment tag, or refuses it. -/
def unknownSegment (site : Site) (tag : Int32) : Read N Unit := fun feed =>
  match site.policy with
  | .skip =>
    .ok () { feed.note (.unknownSegment tag site.position) with
      skippedSegments := feed.skippedSegments + 1 }
  | .reject => .error (.unknownSegment tag site.position) feed

/-- Puts `fallback` in place of an operand that is out of its range, or refuses
    the operand. -/
def outOfRange {α : Type} (site : Site) (operand : Operand) (value : Int32)
    (fallback : α) : Read N α := fun feed =>
  match site.policy with
  | .skip => .ok fallback (feed.note (.outOfRange operand value site.position))
  | .reject => .error (.invalidOperand operand value site.position) feed

end Read

end BatchDraw
