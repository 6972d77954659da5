/-
  BatchDraw.Surface.Pass

  A pass: one batch drawn on one surface.

  The batch is read to its end before anything is drawn. So a batch with an
  error leaves the surface as it was.
-/
import BatchDraw.Wire.Program
import BatchDraw.Surface.Replay

namespace BatchDraw

/-- How a pass is made. -/
structure Options where
  /-- Pixels of the surface per logical unit. -/
  scale : Float := 1.0
  /-- What becomes of numbers without a meaning. -/
  policy : Policy := .skip
  deriving DecidableEq

/-- What a finished pass did. -/
structure Report where
  /-- How many operations were drawn. -/
  ops : Nat := 0
  stats : Stats := {}
  deriving DecidableEq

namespace Report

/-- The report of a program that was drawn. -/
def ofProgram {N : Type} (program : Program N) : Report where
  ops := program.ops.length
  stats := program.stats

/-- Whether everything was read and nothing was passed over. -/
def isExact (report : Report) : Bool :=
  report.stats.remaining.isZero && report.stats.skippedOps == 0
    && report.stats.skippedSegments == 0

end Report

/-- Reads a batch and draws it: the report and the surface after it, or the
    first error and the surface as it was. -/
def Batch.paint {σ N : Type} [Surface σ N] (b : Batch N) (options : Options)
    (surface : σ) : Except WireError Report × σ :=
  match b.decode options.policy with
  | .ok program => (.ok (.ofProgram program), replay options.scale surface program.ops)
  | .error e => (.error e, surface)

/-- A batch that can be read is drawn as a whole. -/
theorem Batch.paint_of_decode_eq_ok {σ N : Type} [Surface σ N] {b : Batch N}
    {options : Options} {program : Program N} (surface : σ)
    (h : b.decode options.policy = .ok program) :
    b.paint options surface =
      (.ok (.ofProgram program), replay options.scale surface program.ops) := by
  simp only [paint, h]

/-- A batch that cannot be read leaves the surface as it was. -/
theorem Batch.paint_of_decode_eq_error {σ N : Type} [Surface σ N] {b : Batch N}
    {options : Options} {e : WireError} (surface : σ)
    (h : b.decode options.policy = .error e) :
    b.paint options surface = (.error e, surface) := by
  simp only [paint, h]

end BatchDraw
