/-
  BatchDraw.Recorder.Diagnostics

  The lines that a pass on a recording surface writes about itself.

  The pass opens with its scale and size. Then come the notices of reading the
  batch, then each operation as it is drawn with the mismatches it caused, and
  last a summary. A pass that fails ends behind the notices.
-/
import BatchDraw.Recorder.Basic
import BatchDraw.Surface.Pass

namespace BatchDraw

namespace Recorder

/-! ## Lines -/

/-- How much a line matters. -/
inductive Level where
  | warn
  | debug
  | trace
  deriving DecidableEq

/-- One line about a pass. -/
inductive Line where
  /-- A pass begins. -/
  | started (scale : Float) (instructions : Nat)
  /-- Reading passed over something. -/
  | notice (notice : Notice)
  /-- An operation is about to be drawn. -/
  | drawing (index : Nat) (kind : OpKind)
  /-- The surface ignored something. -/
  | mismatch (mismatch : Mismatch)
  /-- The pass is over. -/
  | finished (report : Report)
  deriving DecidableEq

/-- A value in a line. -/
inductive Field where
  | real (value : Float)
  | int (value : Int32)
  | count (value : Nat)
  | text (value : String)
  deriving DecidableEq

/-- What is printed of a line. -/
structure Printed where
  level : Level
  message : String
  /-- The values of the line, each with its name. -/
  fields : List (String × Field)
  deriving DecidableEq

namespace Line

/-- How much a line matters. -/
def level : Line → Level
  | started _ _ => .debug
  | notice _ => .warn
  | drawing _ _ => .trace
  | mismatch _ => .warn
  | finished _ => .debug

def message : Line → String
  | started _ _ => "paint_stacks"
  | notice n => n.message
  | drawing _ _ => "replay"
  | mismatch m => m.message
  | finished _ => "paint pass finished"

/-- The values that a line comes with. -/
def fields : Line → List (String × Field)
  | started scale instructions =>
    [("device_scale", .real scale), ("instructions", .count instructions)]
  | notice (.unknownOp tag position) =>
    [("tag", .int tag), ("instruction", .count position)]
  | notice (.unknownSegment tag position) =>
    [("tag", .int tag), ("instruction", .count position)]
  | notice (.outOfRange operand value position) =>
    [("what", .text operand.name), ("value", .int value), ("instruction", .count position)]
  | drawing index kind => [("index", .count index), ("opcode", .text kind.name)]
  | mismatch m => [("kind", .text m.found.name)]
  | finished report =>
    let stats := report.stats
    [("ops", .count report.ops), ("skipped_opcodes", .count stats.skippedOps),
      ("skipped_path_ops", .count stats.skippedSegments),
      ("leftover_ints", .count stats.remaining.ints),
      ("leftover_reals", .count stats.remaining.reals),
      ("leftover_texts", .count stats.remaining.texts),
      ("leftover_natives", .count stats.remaining.natives)]

def print (line : Line) : Printed where
  level := line.level
  message := line.message
  fields := line.fields

end Line

/-! ## Passes that are told of -/

variable {P : Type}

/-- Draws operations in order, the first of them at `index`, and tells of each, with
    the mismatches it caused behind it. -/
def drawTelling (scale : Float) : Nat → Recorder P → List (Op (Native P)) →
    List Line × Recorder P
  | _, r, [] => ([], r)
  | index, r, op :: ops =>
    let r' := op.apply scale r
    let ignored := r'.mismatches.drop r.mismatches.length
    let (lines, last) := drawTelling scale (index + 1) r' ops
    (.drawing index op.kind :: (ignored.map .mismatch ++ lines), last)

/-- Reads a batch, draws it, and tells of both. -/
def paintTelling (r : Recorder P) (b : Batch (Native P)) (options : Options) :
    List Line × Except WireError Report × Recorder P :=
  let opening := .started options.scale b.length :: (b.notices options.policy).map .notice
  match b.decode options.policy with
  | .error e => (opening, .error e, r)
  | .ok program =>
    let placed := r.perform (.setTransform (.scale options.scale))
    let (lines, last) := drawTelling options.scale 0 placed program.ops
    let report := Report.ofProgram program
    (opening ++ lines ++ [.finished report], .ok report, last)

/-- The lines of a pass. -/
def passLines (r : Recorder P) (b : Batch (Native P)) (options : Options) : List Line :=
  (r.paintTelling b options).1

end Recorder

end BatchDraw
