/-
  BatchDraw.Proofs.Surface.Interleaving

  A pass, and drawing while reading.

  A pass reads its batch to the end before it draws. An interpreter that draws each
  operation as soon as a decoder yields it needs one loop only, but when the decoder
  comes to an error, it has already drawn. Where there is no error the two do the
  same, and where there is one the pass has done nothing (`Batch.paint_atomic`).

  The loop is followed from any state of the decoder that one call can lead to
  (`Interpreter.run_of_behind`).
-/
import BatchDraw.Proofs.Surface.Tracing
import BatchDraw.Proofs.Wire.Calls
import BatchDraw.Recorder.Basic

namespace BatchDraw

variable {σ N : Type} [Surface σ N] {b : Batch N} {policy : Policy} {scale : Float}

/-! ## Drawing while reading -/

/-- A decoder, the surface that its operations are drawn on, and how many it has
    yielded. -/
structure Interpreter (σ N : Type) where
  decoder : Decoder N
  surface : σ
  yielded : Nat := 0

namespace Interpreter

/-- In front of a batch, with a transform that only scales. -/
def start (b : Batch N) (options : Options) (surface : σ) : Interpreter σ N where
  decoder := .ofBatch b options.policy
  surface := Surface.perform surface (.setTransform (.scale options.scale))

/-- Draws each operation as soon as it is yielded, up to an error or to the end. -/
def run (scale : Float) (i : Interpreter σ N) : Option WireError × Interpreter σ N :=
  match h : i.decoder.next with
  | (some (.ok op), decoder) =>
    run scale ⟨decoder, op.apply scale i.surface, i.yielded + 1⟩
  | (some (.error e), decoder) => (some e, { i with decoder })
  | (none, decoder) => (none, { i with decoder })
termination_by i.decoder.tags.rest.length
decreasing_by exact Decoder.rest_lt_of_next h

/-- What is left of a batch that is drawn while it is read: the error that was come
    to, and the interpreter behind it. -/
def final (b : Batch N) (options : Options) (surface : σ) :
    Option WireError × Interpreter σ N :=
  (start b options surface).run options.scale

/-- Behind a stretch of operations the interpreter comes to an error of the batch, or
    it draws all the other operations of it. -/
theorem run_of_behind {i : Interpreter σ N} {ops : List (Op N)}
    (h : Decoder.Behind b policy ops i.decoder) (hcount : i.yielded = ops.length) :
    (∃ e last, i.run scale = (some e, last) ∧ b.decode policy = .error e) ∨
    ∃ others last, i.run scale = (none, last) ∧
      b.decode policy = .ok ⟨ops ++ others, last.decoder.stats⟩ ∧
      last.surface = others.foldl (Op.apply scale) i.surface ∧
      last.yielded = (ops ++ others).length := by
  have hleads := h.next
  fun_induction run scale i generalizing ops with
  | case1 i op decoder hnext ih =>
    rw [hnext] at hleads
    have hbehind : Decoder.Behind b policy (ops ++ [op]) decoder := hleads
    have hcount' : i.yielded + 1 = (ops ++ [op]).length := by
      rw [List.length_append, List.length_singleton, hcount]
    rcases ih hbehind hcount' hbehind.next with
      herror | ⟨others, last, hrun, hdecode, hdrawn, hlast⟩
    · exact .inl herror
    · rw [List.append_assoc] at hdecode hlast
      exact .inr ⟨op :: others, last, hrun, hdecode, hdrawn, hlast⟩
  | case2 i e decoder hnext =>
    rw [hnext] at hleads
    have hstopped : Decoder.Stopped b policy e decoder := hleads
    exact .inl ⟨e, _, rfl, hstopped.decode_eq_error⟩
  | case3 i decoder hnext =>
    rw [hnext] at hleads
    obtain ⟨hbehind, hrest⟩ := hleads
    refine .inr ⟨[], _, rfl, ?_, rfl, ?_⟩
    · rw [List.append_nil]
      exact Decoder.Behind.decode_eq_ok hbehind hrest
    · rw [List.append_nil]
      exact hcount

end Interpreter

/-! ## The pass -/

namespace Batch

/-- A pass on the surface does nothing when the decoder comes to an error, and else
    it does what drawing while reading does, and reports on it. -/
structure Atomic (b : Batch N) (options : Options) (surface : σ) : Prop where
  failed : ∀ n e, (Decoder.ofBatch b options.policy).Fails n e →
    b.paint options surface = (.error e, surface)
  finished : (∀ n e, ¬ (Decoder.ofBatch b options.policy).Fails n e) →
    ∃ last, Interpreter.final b options surface = (none, last) ∧
      b.paint options surface = (.ok ⟨last.yielded, last.decoder.stats⟩, last.surface)

theorem atomic (b : Batch N) (options : Options) (surface : σ) : b.Atomic options surface where
  failed := by
    intro n e hfails
    exact paint_of_decode_eq_error surface (decode_eq_error_iff_fails.mpr ⟨n, hfails⟩)
  finished := by
    intro hok
    have hstart := Decoder.behind_ofBatch b options.policy
    rcases Interpreter.run_of_behind (i := Interpreter.start b options surface) hstart rfl with
      ⟨e, last, -, hdecode⟩ | ⟨ops, last, hrun, hdecode, hsurface, hcount⟩
    · obtain ⟨n, hfails⟩ := decode_eq_error_iff_fails.mp hdecode
      exact absurd hfails (hok n e)
    · rw [List.nil_append] at hdecode hcount
      refine ⟨last, hrun, ?_⟩
      rw [paint_of_decode_eq_ok surface hdecode, Report.ofProgram, hsurface, hcount]
      rfl

/-- What a pass answers is a matter of the batch and the policy. -/
theorem paint_fst {τ : Type} [Surface τ N] (b : Batch N) (options : Options) (surface : σ)
    (scale : Float) (other : τ) :
    (b.paint { options with scale } other).1 = (b.paint options surface).1 := by
  unfold paint
  cases b.decode options.policy <;> rfl

/-- A pass is an atomic version of drawing while reading, for the surface and for all
    that it is told and asked; and whether it is made, and the error if it is not, do
    not depend on surface and scale. -/
theorem paint_atomic (b : Batch N) (options : Options) (surface : σ) (entries : List (Entry N)) :
    b.Atomic options surface ∧
    b.Atomic options (Traced.mk surface entries) ∧
    b.paint options surface =
      ((b.paint options (Traced.mk surface entries)).1,
        (b.paint options (Traced.mk surface entries)).2.surface) ∧
    ∀ (τ : Type) [Surface τ N] (other : τ) (scale : Float),
      (b.paint { options with scale } other).1 = (b.paint options surface).1 := by
  refine ⟨b.atomic options surface, b.atomic options _, ?_, ?_⟩
  · exact Traced.simulates_surface.paint b options (Traced.mk surface entries)
  · intro τ _ other scale
    exact b.paint_fst options surface scale other

/-- A traced recorder on which something was set before. -/
def halfway : Traced Recorder Recorder.Native :=
  Surface.perform ⟨Recorder.fresh, []⟩ (.setOpacity 0.5)

/-- Two operations and an unknown tag are drawn; with an operand that is missing behind
    them, none of them is. -/
theorem paint_atomic_halfway :
    (∃ last, Interpreter.final { tags := [14, 99, 15] } {} halfway = (none, last) ∧
      Batch.paint { tags := [14, 99, 15] } {} halfway =
        (.ok ⟨last.yielded, last.decoder.stats⟩, last.surface)) ∧
    Batch.paint { tags := [14, 99, 15, 4] } {} halfway =
      (.error (.underflow .real 0 3 .setOpacity), halfway) := by
  refine ⟨?_, ?_⟩
  · have hpass := paint_atomic { tags := [14, 99, 15] } {} halfway.surface halfway.entries
    refine hpass.2.1.finished ?_
    intro n e hfails
    have herror := decode_eq_error_iff_fails.mpr ⟨n, hfails⟩
    have hdecode : Batch.decode ({ tags := [14, 99, 15] } : Batch Recorder.Native) .skip =
        .ok ⟨[.save, .restore], { skippedOps := 1, consumed := { tags := 3 } }⟩ := rfl
    rw [hdecode] at herror
    cases herror
  · have hdecode : Batch.decode ({ tags := [14, 99, 15, 4] } : Batch Recorder.Native) .skip =
        .error (.underflow .real 0 3 .setOpacity) := rfl
    obtain ⟨n, hfails⟩ := decode_eq_error_iff_fails.mp hdecode
    have hpass := paint_atomic { tags := [14, 99, 15, 4] } {} halfway.surface halfway.entries
    exact hpass.2.1.failed n _ hfails

end Batch

end BatchDraw
