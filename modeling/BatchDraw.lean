import BatchDraw.Wire.Decoder
import BatchDraw.Surface.Listing
import BatchDraw.Recorder.Diagnostics
import BatchDraw.Canvas.Buffers
import BatchDraw.Proofs.Wire.Passage
import BatchDraw.Proofs.Wire.Grammar
import BatchDraw.Proofs.Wire.Acceptance
import BatchDraw.Proofs.Wire.Lockstep
import BatchDraw.Proofs.Recorder.Log
import BatchDraw.Proofs.Recorder.Brackets
import BatchDraw.Proofs.Wire.Carried
import BatchDraw.Proofs.Wire.Composite
import BatchDraw.Proofs.Wire.Policies
import BatchDraw.Proofs.Wire.RoundTrip
import BatchDraw.Proofs.Wire.Spelling
import BatchDraw.Proofs.Wire.Contract
import BatchDraw.Proofs.Wire.Amounts
import BatchDraw.Proofs.Wire.Readers
import BatchDraw.Proofs.Wire.Runs
import BatchDraw.Proofs.Wire.Relocation
import BatchDraw.Proofs.Wire.Calls
import BatchDraw.Proofs.Wire.Accounting
import BatchDraw.Proofs.Wire.Blame
import BatchDraw.Proofs.Wire.Need
import BatchDraw.Proofs.Wire.UnknownTags
import BatchDraw.Proofs.Wire.Strict
import BatchDraw.Proofs.Surface.Tracing
import BatchDraw.Proofs.Surface.Interleaving
import BatchDraw.Proofs.Surface.Concatenation
import BatchDraw.Proofs.Wire.Steering
import BatchDraw.Proofs.Recorder.Independence
import BatchDraw.Proofs.Surface.Keeping
import BatchDraw.Proofs.Canvas.Context
import BatchDraw.Proofs.Canvas.Translation
import BatchDraw.Proofs.Canvas.Mirroring
import BatchDraw.Proofs.Path.Reading
import BatchDraw.Proofs.Recorder.Shapes
import BatchDraw.Proofs.Surface.Lettering
import BatchDraw.Proofs.Surface.Scripting
import BatchDraw.Proofs.Canvas.Failures
import BatchDraw.Proofs.Wire.Draining
import BatchDraw.Proofs.Recorder.Erasing
import BatchDraw.Proofs.Wire.Reports
import BatchDraw.Proofs.Wire.Noticing
import BatchDraw.Proofs.Recorder.Telling
import BatchDraw.Proofs.Wire.Strokes
import BatchDraw.Proofs.Recorder.Pens
import BatchDraw.Proofs.Canvas.Paints
import BatchDraw.Proofs.Canvas.Restyling
import BatchDraw.Proofs.Wire.Uncounted
