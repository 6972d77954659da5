/-
  BatchDraw.Wire.Batch

  Batches: the form in which drawing operations travel.

  A batch is five sequences side by side. One holds an instruction tag per
  operation; the other four are stacks of operands, one stack per type, from
  which each instruction takes what it needs in order. Putting two batches
  behind one another means appending them sequence by sequence.
-/
import BatchDraw.Wire.Error

namespace BatchDraw

/-! ## Sizes -/

/-- A count for each of the five sequences. -/
@[ext] structure Sizes where
  tags : Nat := 0
  ints : Nat := 0
  reals : Nat := 0
  texts : Nat := 0
  natives : Nat := 0
  deriving DecidableEq

namespace Sizes

def zero : Sizes := {}

def add (m n : Sizes) : Sizes where
  tags := m.tags + n.tags
  ints := m.ints + n.ints
  reals := m.reals + n.reals
  texts := m.texts + n.texts
  natives := m.natives + n.natives

instance : Add Sizes := ⟨add⟩

@[simp] theorem tags_add (m n : Sizes) : (m + n).tags = m.tags + n.tags := rfl

@[simp] theorem ints_add (m n : Sizes) : (m + n).ints = m.ints + n.ints := rfl

@[simp] theorem reals_add (m n : Sizes) : (m + n).reals = m.reals + n.reals := rfl

@[simp] theorem texts_add (m n : Sizes) : (m + n).texts = m.texts + n.texts := rfl

@[simp] theorem natives_add (m n : Sizes) : (m + n).natives = m.natives + n.natives := rfl

/-- Whether all five counts are zero. -/
def isZero (sizes : Sizes) : Bool := sizes == zero

@[simp] theorem isZero_iff {sizes : Sizes} : sizes.isZero = true ↔ sizes = zero := by
  simp [isZero]

@[simp] theorem zero_add (n : Sizes) : zero + n = n := by
  ext <;> simp [zero]

@[simp] theorem add_zero (n : Sizes) : n + zero = n := rfl

theorem add_assoc (k m n : Sizes) : k + m + n = k + (m + n) := by
  ext <;> simp [Nat.add_assoc]

end Sizes

/-! ## Batches -/

/-- Instruction tags and the four stacks of operands. -/
@[ext] structure Batch (N : Type) where
  /-- One tag per instruction, in drawing order. -/
  tags : List Int32 := []
  ints : List Int32 := []
  reals : List Float := []
  texts : List String := []
  /-- References to things of the host; `none` refers to nothing. -/
  natives : List (Option N) := []
  deriving DecidableEq

namespace Batch

variable {N : Type}

/-- The batch that draws nothing. -/
def empty : Batch N := {}

/-- Two batches behind one another. -/
def append (b c : Batch N) : Batch N where
  tags := b.tags ++ c.tags
  ints := b.ints ++ c.ints
  reals := b.reals ++ c.reals
  texts := b.texts ++ c.texts
  natives := b.natives ++ c.natives

instance : Append (Batch N) := ⟨append⟩

@[simp] theorem tags_append (b c : Batch N) : (b ++ c).tags = b.tags ++ c.tags := rfl

@[simp] theorem ints_append (b c : Batch N) : (b ++ c).ints = b.ints ++ c.ints := rfl

@[simp] theorem reals_append (b c : Batch N) : (b ++ c).reals = b.reals ++ c.reals := rfl

@[simp] theorem texts_append (b c : Batch N) : (b ++ c).texts = b.texts ++ c.texts := rfl

@[simp] theorem natives_append (b c : Batch N) :
    (b ++ c).natives = b.natives ++ c.natives := rfl

@[simp] theorem empty_append (b : Batch N) : empty ++ b = b := rfl

@[simp] theorem append_empty (b : Batch N) : b ++ empty = b := by
  ext1 <;> simp [empty]

theorem append_assoc (b c d : Batch N) : b ++ c ++ d = b ++ (c ++ d) := by
  ext1 <;> simp

/-- How many entries each sequence has. -/
def sizes (b : Batch N) : Sizes where
  tags := b.tags.length
  ints := b.ints.length
  reals := b.reals.length
  texts := b.texts.length
  natives := b.natives.length

/-- Putting batches behind one another adds up their sizes. -/
theorem sizes_append (b c : Batch N) : (b ++ c).sizes = b.sizes + c.sizes := by
  ext <;> simp [sizes]

def length (b : Batch N) : Nat := b.tags.length

def isEmpty (b : Batch N) : Bool := b.tags.isEmpty

/-- Keeps the first `count` instructions of a buffer that may have spare room
    behind them. Announcing more than the buffer holds is an error. -/
def keep (b : Batch N) (count : Nat) : Except WireError (Batch N) :=
  if count ≤ b.tags.length then
    .ok { b with tags := b.tags.take count }
  else
    .error (.countOutOfRange count b.tags.length)

end Batch

end BatchDraw
