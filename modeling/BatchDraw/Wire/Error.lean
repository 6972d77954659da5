/-
  BatchDraw.Wire.Error

  What can be wrong with a batch, and what is said about it.

  A batch is read under one of two policies. `Policy.reject` turns every number
  without a meaning into an error; `Policy.skip` passes over it and leaves a
  `Notice`. Running out of operands is an error under both.
-/
import BatchDraw.Op

namespace BatchDraw

/-! ## The parts that can be at fault -/

/-- The four operand stacks of a batch. -/
inductive Stack where
  | int
  | real
  | text
  | native
  deriving DecidableEq

def Stack.name : Stack → String
  | int => "int"
  | real => "real"
  | text => "text"
  | native => "native"

/-- The integer operands that only some values are good for. -/
inductive Operand where
  /-- How many dash lengths follow: not negative. -/
  | dashCount
  /-- The code of a cap. -/
  | lineCap
  /-- The code of a join. -/
  | lineJoin
  /-- How many segments follow: not negative, or the mark of a rectangle. -/
  | segmentCount
  deriving DecidableEq

def Operand.name : Operand → String
  | dashCount => "dash count"
  | lineCap => "line cap"
  | lineJoin => "line join"
  | segmentCount => "path op count"

/-! ## Policies, errors and notices -/

/-- What becomes of a number without a meaning. -/
inductive Policy where
  /-- It is passed over, with a notice; an operand out of its range is replaced
      by a fixed value. -/
  | skip
  /-- It is an error. -/
  | reject
  deriving DecidableEq

/-- Why a batch cannot be read. Positions are those of the instruction at
    fault. -/
inductive WireError where
  /-- More instructions were announced than there are. -/
  | countOutOfRange (count available : Nat)
  /-- An operand stack ended before the instruction had its operands; `index` is
      the entry that is missing. -/
  | underflow (stack : Stack) (index position : Nat) (kind : OpKind)
  /-- A tag stands for no kind of operation. -/
  | unknownOp (tag : Int32) (position : Nat)
  /-- A tag inside a shape stands for no kind of segment. -/
  | unknownSegment (tag : Int32) (position : Nat)
  /-- An integer operand is out of its range. -/
  | invalidOperand (operand : Operand) (value : Int32) (position : Nat)
  deriving DecidableEq

def WireError.message : WireError → String
  | countOutOfRange count available =>
    s!"instruction count {count} exceeds instruction buffer length {available}"
  | underflow stack index position kind =>
    s!"{stack.name} stack exhausted at index {index} while decoding {kind.name} (instruction {position})"
  | unknownOp tag position =>
    s!"unknown opcode tag {tag} at instruction {position}"
  | unknownSegment tag position =>
    s!"unknown path operation tag {tag} in shape at instruction {position}"
  | invalidOperand operand value position =>
    s!"invalid {operand.name} value {value} at instruction {position}"

/-- What was passed over. Positions are those of the instruction concerned. -/
inductive Notice where
  /-- A tag that stands for no kind of operation. -/
  | unknownOp (tag : Int32) (position : Nat)
  /-- A tag inside a shape that stands for no kind of segment. -/
  | unknownSegment (tag : Int32) (position : Nat)
  /-- An integer operand out of its range. -/
  | outOfRange (operand : Operand) (value : Int32) (position : Nat)
  deriving DecidableEq

def Notice.message : Notice → String
  | unknownOp _ _ => "unknown instruction; skipping"
  | unknownSegment _ _ => "unknown path operation; skipping"
  | outOfRange _ _ _ => "out-of-range operand; using fallback"

end BatchDraw
