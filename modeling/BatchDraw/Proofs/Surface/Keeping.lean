/-
  BatchDraw.Proofs.Surface.Keeping

  What calls of some sort leave as it is.

  Many calls do not concern a given part of a surface. A property that speaks of
  that part only is kept by each of these calls and by every measurement
  (`Surface.Keeps`), and so it is kept by all that is made of them: calls in a row,
  the shape that is made the path in progress, and text, in one piece or character by
  character.
-/
import BatchDraw.Proofs.Surface.Relating

namespace BatchDraw

variable {σ N : Type}

/-! ## Building a path -/

/-- Whether a call does nothing but to build the path in progress. -/
def Call.buildsPath : Call N → Bool
  | beginPath | addSegment _ | addRect _ => true
  | _ => false

/-- A shape is added by calls that build the path in progress. -/
theorem Shape.buildsPath_of_mem_calls (shape : Shape) {call : Call N}
    (hcall : call ∈ shape.calls) : call.buildsPath = true := by
  cases shape with
  | rect rect =>
    rw [List.mem_singleton.mp hcall]
    rfl
  | path segments =>
    obtain ⟨segment, -, rfl⟩ := List.mem_map.mp hcall
    rfl

variable [Surface σ N]

/-- A shape is made the path in progress, and then something is done with it. -/
theorem drawShape_eq (surface : σ) (shape : Shape) (draw : Call N) :
    drawShape surface shape draw =
      Surface.perform (Surface.performAll surface (.beginPath :: shape.calls)) draw :=
  Surface.performAll_append surface (.beginPath :: shape.calls) [draw]

/-! ## Quiet calls -/

/-- Quiet calls keep the property, and measuring keeps it too. -/
structure Surface.Keeps (quiet : Call N → Prop) (P : σ → Prop) : Prop where
  perform : ∀ {surface : σ} {call : Call N}, quiet call → P surface →
    P (Surface.perform surface call)
  measure : ∀ {surface : σ} (text : String), P surface → P (Surface.measure surface text).2

namespace Surface.Keeps

variable {quiet : Call N → Prop} {P : σ → Prop} {surface : σ}

/-- What is kept of one surface is a relation of the surface to itself. -/
theorem relates (h : Keeps quiet P) : Relates quiet fun s t => s = t ∧ P t where
  perform := by
    rintro s _ call hquiet ⟨rfl, hs⟩
    exact ⟨rfl, h.perform hquiet hs⟩
  measure := by
    rintro s _ text ⟨rfl, hs⟩
    exact ⟨rfl, rfl, h.measure text hs⟩

theorem performAll (h : Keeps quiet P) {calls : List (Call N)}
    (hcalls : ∀ call ∈ calls, quiet call) (hsurface : P surface) :
    P (Surface.performAll surface calls) :=
  (h.relates.performAll ⟨rfl, hsurface⟩ hcalls).2

/-- A shape is made the path in progress by quiet calls, if building a path is quiet. -/
theorem beginShape (h : Keeps quiet P) (hbuilds : ∀ call, call.buildsPath = true → quiet call)
    (shape : Shape) (hsurface : P surface) :
    P (Surface.performAll surface (.beginPath :: shape.calls)) := by
  refine h.performAll (fun call hcall => hbuilds call ?_) hsurface
  rcases List.mem_cons.mp hcall with rfl | hcall
  · rfl
  · exact shape.buildsPath_of_mem_calls hcall

theorem drawText (h : Keeps quiet P) (run : TextRun) {draw : String → Point → Call N}
    (hdraw : ∀ text origin, quiet (draw text origin)) (hsurface : P surface) :
    P (BatchDraw.drawText surface run draw) :=
  (h.relates.drawText ⟨rfl, hsurface⟩ run hdraw).2

end Surface.Keeps

end BatchDraw
