/-
  BatchDraw.Proofs.Surface.Relating

  Two surfaces that are told the same.

  A relation between surfaces lasts when every call of some sort that both of them are
  told keeps it, and when both measure every text alike and are still related behind
  that (`Surface.Relates`). All that is drawn is made of calls and measurements, and
  where the pen goes depends on the measurements only. So two surfaces stay related
  through calls in a row and through text; and where the relation lasts through all
  calls, they stay related through operations and a whole pass.
-/
import BatchDraw.Surface.Pass

namespace BatchDraw

variable {σ τ N : Type} [Surface σ N] [Surface τ N]

/-- A quiet call keeps the two related, and they measure alike. -/
structure Surface.Relates (quiet : Call N → Prop) (R : σ → τ → Prop) : Prop where
  perform : ∀ {s : σ} {t : τ} {call : Call N}, quiet call → R s t →
    R (Surface.perform s call) (Surface.perform t call)
  measure : ∀ {s : σ} {t : τ} (text : String), R s t →
    (Surface.measure t text).1 = (Surface.measure s text).1 ∧
    R (Surface.measure s text).2 (Surface.measure t text).2

namespace Surface.Relates

variable {quiet : Call N → Prop} {R : σ → τ → Prop} {s : σ} {t : τ}

/-! ## Calls and text -/

theorem performAll (hR : Relates quiet R) (h : R s t) {calls : List (Call N)}
    (hcalls : ∀ call ∈ calls, quiet call) :
    R (Surface.performAll s calls) (Surface.performAll t calls) := by
  induction calls generalizing s t with
  | nil => exact h
  | cons call calls ih =>
    rw [performAll_cons, performAll_cons]
    have hcall := hR.perform (hcalls call List.mem_cons_self) h
    exact ih hcall fun other hother => hcalls other (List.mem_cons_of_mem call hother)

theorem drawSpaced (hR : Relates quiet R) (h : R s t) {draw : String → Point → Call N}
    (hdraw : ∀ text origin, quiet (draw text origin)) (spacing : Float) (pen : Point)
    (cs : List Char) :
    R (BatchDraw.drawSpaced draw spacing s pen cs)
      (BatchDraw.drawSpaced draw spacing t pen cs) := by
  induction cs generalizing s t pen with
  | nil => exact h
  | cons c cs ih =>
    have hdrawn := hR.perform (hdraw (String.singleton c) pen) h
    obtain ⟨hwidth, hmeasured⟩ := hR.measure (String.singleton c) hdrawn
    -- The pens of both go to the same point.
    simp only [BatchDraw.drawSpaced, hwidth]
    exact ih hmeasured _

theorem drawText (hR : Relates quiet R) (h : R s t) (run : TextRun)
    {draw : String → Point → Call N} (hdraw : ∀ text origin, quiet (draw text origin)) :
    R (BatchDraw.drawText s run draw) (BatchDraw.drawText t run draw) := by
  unfold BatchDraw.drawText
  cases run.spacing == 0.0 with
  | true => exact hR.perform (hdraw run.text run.origin) h
  | false => exact hR.drawSpaced h hdraw run.spacing run.origin run.text.toList

/-! ## Operations and passes -/

section All

variable (hR : Relates (fun _ => True) R)

include hR

/-- An operation is drawn by calls and measurements. -/
theorem apply (h : R s t) (scale : Float) (op : Op N) :
    R (op.apply scale s) (op.apply scale t) := by
  cases op with
  | setFont font =>
    cases font with
    | none => exact h
    | some font => exact hR.perform trivial h
  | setPaint paint =>
    cases paint with
    | none => exact h
    | some paint => exact hR.perform trivial h
  | drawImageRect image source target =>
    cases image with
    | none => exact h
    | some image => exact hR.perform trivial h
  | strokeShape shape | fillShape shape | clipShape shape =>
    exact hR.performAll h fun _ _ => trivial
  | drawImage image m => exact hR.performAll h fun _ _ => trivial
  | fillText run | strokeText run => exact hR.drawText h run fun _ _ => trivial
  | setStroke _ | setOpacity _ | transform _ | setTransform _ | save | restore | clearRect _
  | setImageQuality _ => exact hR.perform trivial h

theorem foldl_apply (h : R s t) (scale : Float) (ops : List (Op N)) :
    R (ops.foldl (Op.apply scale) s) (ops.foldl (Op.apply scale) t) := by
  induction ops generalizing s t with
  | nil => exact h
  | cons op ops ih => exact ih (hR.apply h scale op)

theorem replay (h : R s t) (scale : Float) (ops : List (Op N)) :
    R (BatchDraw.replay scale s ops) (BatchDraw.replay scale t ops) :=
  hR.foldl_apply (hR.perform trivial h) scale ops

/-- A pass answers the same on both. -/
theorem paint (h : R s t) (b : Batch N) (options : Options) :
    (b.paint options t).1 = (b.paint options s).1 ∧
    R (b.paint options s).2 (b.paint options t).2 := by
  cases hdecode : b.decode options.policy with
  | error e =>
    rw [Batch.paint_of_decode_eq_error s hdecode, Batch.paint_of_decode_eq_error t hdecode]
    exact ⟨rfl, h⟩
  | ok program =>
    rw [Batch.paint_of_decode_eq_ok s hdecode, Batch.paint_of_decode_eq_ok t hdecode]
    exact ⟨rfl, hR.replay h options.scale program.ops⟩

end All

end Surface.Relates

end BatchDraw
