/-
  BatchDraw.Smoothing

  How images are resampled when they are drawn.
-/

namespace BatchDraw

/-- The effort spent on resampling. -/
inductive Quality where
  | low
  | medium
  | high
  deriving DecidableEq

def Quality.keyword : Quality → String
  | low => "low"
  | medium => "medium"
  | high => "high"

/-- Whether images are smoothed, and how well. -/
structure Smoothing where
  enabled : Bool
  quality : Quality
  deriving DecidableEq

namespace Smoothing

/-- The setting of a fresh surface. -/
def initial : Smoothing := ⟨true, .low⟩

/-- The setting for a level from 0 to 1: high above 0.67, medium above 0.33, and
    off at low quality for anything else, a NaN included. -/
def ofLevel (level : Float) : Smoothing where
  enabled := 0.33 < level
  quality :=
    if 0.67 < level then .high
    else if 0.33 < level then .medium
    else .low

end Smoothing

end BatchDraw
