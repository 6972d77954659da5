/-
  BatchDraw.Proofs.Surface.Tracing

  Surfaces seen through others.

  A map from surfaces to surfaces simulates when it goes along with every call and
  with every measurement (`Surface.Simulates`). So a surface and its image are related
  for as long as both are told the same, and drawing goes along with such a map too, up
  to a whole pass.

  `Traced` adds to a surface the list of all that it was told and asked. Dropping
  the list is such a map: a surface is not disturbed by being traced.
-/
import BatchDraw.Surface.Listing
import BatchDraw.Proofs.Surface.Relating

namespace BatchDraw

variable {σ τ N : Type} [Surface σ N] [Surface τ N]

/-! ## Simulations -/

/-- The map goes along with every call, and its images measure as they do. -/
structure Surface.Simulates (f : σ → τ) : Prop where
  perform : ∀ (surface : σ) (call : Call N),
    f (Surface.perform surface call) = Surface.perform (f surface) call
  measure : ∀ (surface : σ) (text : String),
    Surface.measure (f surface) text =
      ((Surface.measure surface text).1, f (Surface.measure surface text).2)

namespace Surface.Simulates

variable {f : σ → τ}

/-- A surface is related to its image. -/
theorem relates (hf : Simulates f) : Relates (fun _ => True) fun s t => f s = t where
  perform := by
    rintro s _ call - rfl
    exact hf.perform s call
  measure := by
    rintro s _ text rfl
    rw [hf.measure]
    exact ⟨rfl, rfl⟩

theorem foldl_apply (hf : Simulates f) (scale : Float) (surface : σ) (ops : List (Op N)) :
    f (ops.foldl (Op.apply scale) surface) = ops.foldl (Op.apply scale) (f surface) :=
  hf.relates.foldl_apply rfl scale ops

/-- A pass is made alike through a simulation. -/
theorem paint (hf : Simulates f) (b : Batch N) (options : Options) (surface : σ) :
    b.paint options (f surface) =
      ((b.paint options surface).1, f (b.paint options surface).2) := by
  obtain ⟨hanswer, hsurface⟩ := hf.relates.paint rfl b options
  exact Prod.ext hanswer hsurface.symm

end Surface.Simulates

/-! ## Traces -/

/-- A surface, and what it was told and asked so far, oldest first. -/
structure Traced (σ N : Type) where
  surface : σ
  entries : List (Entry N) := []

namespace Traced

instance : Surface (Traced σ N) N where
  perform traced call :=
    ⟨Surface.perform traced.surface call, traced.entries ++ [.call call]⟩
  measure traced text :=
    let (width, surface) := Surface.measure traced.surface text
    (width, ⟨surface, traced.entries ++ [.measured text width]⟩)

theorem simulates_surface : Surface.Simulates (surface : Traced σ N → σ) where
  perform _ _ := rfl
  measure _ _ := rfl

end Traced

end BatchDraw
