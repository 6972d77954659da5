/-
  BatchDraw.Recorder.Basic

  A surface that records what is done to it.

  It draws no pixels. It keeps the drawing state, the states put aside and the
  path in progress, and records every action together with the state behind it.
  Building a path is not recorded; the action that uses a path carries it whole.
  A thing of the wrong kind, such as an image in place of a font, is ignored and
  leaves a mismatch in place of an action.
-/
import BatchDraw.Recorder.State
import BatchDraw.Surface.Basic

namespace BatchDraw

namespace Recorder

/-! ## What is recorded -/

/-- One thing that was done. -/
inductive Action where
  | setFont
  | setPaint
  | setStroke
  | setOpacity
  | setSmoothing
  | setTransform (transform : Affine)
  | transform (transform : Affine)
  | save
  /-- Whether there was a state to take back. -/
  | restore (popped : Bool)
  | fill (path : Path)
  | stroke (path : Path)
  | clip (path : Path)
  | clearRect (rect : Rect)
  | drawImage (image : Image) (origin : Point)
  | drawImageRect (image : Image) (source target : Rect)
  | fillText (text : String) (origin : Point)
  | strokeText (text : String) (origin : Point)
  deriving BEq, DecidableEq

/-- Whether an action leaves marks on the surface. -/
def Action.marks : Action → Bool
  | fill _ | stroke _ | clearRect _ | drawImage _ _ | drawImageRect _ _ _
  | fillText _ _ | strokeText _ _ => true
  | setFont | setPaint | setStroke | setOpacity | setSmoothing | setTransform _
  | transform _ | save | restore _ | clip _ => false

/-- An action and the state behind it. -/
structure Event (P : Type := Colour) where
  action : Action
  state : State P
  deriving BEq, DecidableEq

/-- A thing of one kind where one of another kind was expected. -/
structure Mismatch where
  expected : NativeKind
  found : NativeKind
  deriving DecidableEq

def Mismatch.message (mismatch : Mismatch) : String :=
  match mismatch.expected with
  | .font => "expected a font native"
  | .paint => "expected a paint native"
  | .image => "expected an image native"

end Recorder

/-! ## The surface -/

structure Recorder (P : Type := Recorder.Colour) where
  state : Recorder.State P
  /-- The states put aside, the last one first. -/
  saved : List (Recorder.State P) := []
  path : PathBuilder := {}
  /-- What was recorded, oldest first. -/
  events : List (Recorder.Event P) := []
  /-- What was ignored, oldest first. -/
  mismatches : List Recorder.Mismatch := []
  deriving DecidableEq

namespace Recorder

variable {P : Type}

def fresh [Paint P] : Recorder P where
  state := .initial

/-- How many states are put aside. -/
def saveDepth (r : Recorder P) : Nat := r.saved.length

/-- Forgets the events and nothing else. -/
def clearEvents (r : Recorder P) : Recorder P := { r with events := [] }

/-- Records an action, with the state as it is now. -/
def record (r : Recorder P) (action : Action) : Recorder P :=
  { r with events := r.events ++ [⟨action, r.state⟩] }

/-- Ignores a thing that is not of the expected kind. -/
def ignore (r : Recorder P) (expected : NativeKind) (thing : Native P) : Recorder P :=
  { r with mismatches := r.mismatches ++ [⟨expected, thing.kind⟩] }

def setFont (r : Recorder P) : Native P → Recorder P
  | .font font => { r with state := { r.state with font } }.record .setFont
  | thing => r.ignore .font thing

def setPaint (r : Recorder P) : Native P → Recorder P
  | .paint paint => { r with state := { r.state with paint } }.record .setPaint
  | thing => r.ignore .paint thing

/-- Puts the state aside. -/
def save (r : Recorder P) : Recorder P :=
  { r with saved := r.state :: r.saved }.record .save

/-- Takes back the state that was put aside last; with none put aside, the state
    stays. -/
def restore (r : Recorder P) : Recorder P :=
  match r.saved with
  | [] => r.record (.restore false)
  | state :: saved => { r with state, saved }.record (.restore true)

/-- Restricts drawing to the path in progress. -/
def clip (r : Recorder P) : Recorder P :=
  { r with state := { r.state with clips := r.state.clips + 1 } }.record
    (.clip r.path.elements)

/-- Draws an image, where `action` says how. -/
def drawImage (r : Recorder P) (action : Image → Action) : Native P → Recorder P
  | .image image => r.record (action image)
  | thing => r.ignore .image thing

/-- Does what a call says. -/
def perform (r : Recorder P) : Call (Native P) → Recorder P
  | .setFont font => r.setFont font
  | .setPaint paint => r.setPaint paint
  | .setStroke style =>
    { r with state := { r.state with pen := style.applyTo r.state.pen } }.record .setStroke
  | .setOpacity alpha =>
    { r with state := { r.state with opacity := alpha } }.record .setOpacity
  | .setSmoothing smoothing =>
    { r with state := { r.state with smoothing } }.record .setSmoothing
  | .setTransform m =>
    { r with state := { r.state with transform := m } }.record (.setTransform m)
  | .transform m =>
    { r with state := { r.state with transform := r.state.transform * m } }.record
      (.transform m)
  | .save => r.save
  | .restore => r.restore
  | .beginPath => { r with path := .empty }
  | .addSegment segment => { r with path := r.path.add segment }
  | .addRect rect => { r with path := r.path.addRect rect }
  | .stroke => r.record (.stroke r.path.elements)
  | .fill => r.record (.fill r.path.elements)
  | .clip => r.clip
  | .clearRect rect => r.record (.clearRect rect)
  | .drawImage image origin => r.drawImage (.drawImage · origin) image
  | .drawImageRect image source target => r.drawImage (.drawImageRect · source target) image
  | .fillText text origin => r.record (.fillText text origin)
  | .strokeText text origin => r.record (.strokeText text origin)

/-- The advance of a text: half the font size for each character. The number of
    characters stops at the largest 32-bit number. -/
def advance (r : Recorder P) (text : String) : Float :=
  let count := if text.length ≤ 4294967295 then text.length else 4294967295
  Float.ofNat count * r.state.font.size * 0.5

instance : Surface (Recorder P) (Native P) where
  perform := perform
  measure r text := (r.advance text, r)

end Recorder

end BatchDraw
