/-
  BatchDraw.Surface.Listing

  A surface that lists what it is told.

  It keeps no drawing state. How far a text advances the pen is a function given
  beforehand, which may depend on what was listed so far.
-/
import BatchDraw.Surface.Basic

namespace BatchDraw

variable {N : Type}

/-- One line of a listing. -/
inductive Entry (N : Type) where
  /-- A call was made. -/
  | call (call : Call N)
  /-- A text was measured, with this answer. -/
  | measured (text : String) (width : Float)
  deriving BEq, DecidableEq

/-- A listing so far, and how texts are measured. -/
structure Listing (N : Type) where
  /-- The advance of a text behind the entries so far. -/
  width : List (Entry N) → String → Float
  /-- What was listed, oldest first. -/
  entries : List (Entry N) := []

namespace Listing

/-- An empty listing with advances in proportion to the length in bytes. -/
def ofUnit (unit : Float) : Listing N where
  width _ text := byteAdvance unit text

/-- Adds an entry. -/
def add (listing : Listing N) (entry : Entry N) : Listing N :=
  { listing with entries := listing.entries ++ [entry] }

/-- Measures a text and lists the question with its answer. -/
def measure (listing : Listing N) (text : String) : Float × Listing N :=
  let width := listing.width listing.entries text
  (width, listing.add (.measured text width))

instance : Surface (Listing N) N where
  perform listing call := listing.add (.call call)
  measure := measure

end Listing

end BatchDraw
