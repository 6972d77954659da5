/-
  BatchDraw.Proofs.Recorder.Log

  What the events of a recorder tell about its state.

  A recorder is used in any order: it is told to do things and asked for
  advances. One use either leaves no trace at all or records one event whose
  state follows from the state before and the action alone (`Use.apply_cases`).
  So the events of a whole run account for the current state and for the states
  put aside (`events_explain_state`); nothing has to be known about the calls
  that were not recorded.
-/
import BatchDraw.Recorder.Basic
import Mathlib.Data.List.Induction

namespace BatchDraw

namespace Recorder

variable {P : Type}

/-! ## Uses -/

/-- One use of a recorder: a call, or the question how far a text advances the
    pen. -/
inductive Use (P : Type := Colour) where
  | perform (call : Call (Native P))
  | measure (text : String)

namespace Use

/-- The recorder behind a use. -/
def apply (r : Recorder P) : Use P → Recorder P
  | perform call => Surface.perform r call
  | measure text => (Surface.measure r text).2

/-- Whether a use restricts drawing. -/
def isClip : Use P → Bool
  | perform .clip => true
  | perform _ | measure _ => false

end Use

/-- A fresh recorder after uses in order. -/
def run [Paint P] (uses : List (Use P)) : Recorder P := uses.foldl Use.apply fresh

theorem run_concat [Paint P] (uses : List (Use P)) (use : Use P) :
    run (uses ++ [use]) = use.apply (run uses) := by
  rw [run, List.foldl_append]
  rfl

/-! ## Reading the events -/

/-- The state behind the last event, which is the initial one in front of the
    first. -/
def lastState [Paint P] (events : List (Event P)) : State P :=
  (events.getLast?.map (·.state)).getD .initial

@[simp] theorem lastState_concat [Paint P] (events : List (Event P)) (event : Event P) :
    lastState (events ++ [event]) = event.state := by
  simp [lastState]

/-- The `save` events that are open behind one more event: a `restore` closes the
    innermost one, if there is one. -/
def closeSaves (saves : List (Event P)) (event : Event P) : List (Event P) :=
  match event.action with
  | .save => event :: saves
  | .restore _ => saves.tail
  | _ => saves

/-- The `save` events that no `restore` has matched, the innermost first. -/
def openSaves (events : List (Event P)) : List (Event P) := events.foldl closeSaves []

@[simp] theorem openSaves_concat (events : List (Event P)) (event : Event P) :
    openSaves (events ++ [event]) = closeSaves (openSaves events) event := by
  rw [openSaves, List.foldl_append]
  rfl

/-- The state behind an event follows from its action, the state before, and the
    states of the `save` events that are open. -/
def Follows (before : State P) (saves : List (State P)) (event : Event P) : Prop :=
  match event.action with
  | .save | .clearRect _ | .fill _ | .stroke _ | .drawImage _ _ | .drawImageRect _ _ _
  | .fillText _ _ | .strokeText _ _ => event.state = before
  | .setTransform m => event.state = { before with transform := m }
  | .transform m => event.state = { before with transform := before.transform * m }
  | .setFont => ∃ font, event.state = { before with font }
  | .setPaint => ∃ paint, event.state = { before with paint }
  | .setStroke => ∃ pen, event.state = { before with pen }
  | .setOpacity => ∃ opacity, event.state = { before with opacity }
  | .setSmoothing => ∃ smoothing, event.state = { before with smoothing }
  | .clip _ => ∃ clips, event.state = { before with clips } ∧
      clips.toNat = before.clips.toNat + 1
  | .restore true => ∃ outer, saves = event.state :: outer
  | .restore false => saves = [] ∧ event.state = before

/-- Every event follows from the events in front of it. -/
def Explained [Paint P] (events : List (Event P)) : Prop :=
  ∀ before event after, events = before ++ event :: after →
    Follows (lastState before) ((openSaves before).map (·.state)) event

theorem explained_nil [Paint P] : Explained ([] : List (Event P)) := by
  intro before event after h
  simp at h

theorem explained_concat [Paint P] {events : List (Event P)} {last : Event P} (h : Explained events)
    (hlast : Follows (lastState events) ((openSaves events).map (·.state)) last) :
    Explained (events ++ [last]) := by
  intro before event after hsplit
  -- Either the event is the last one, or what stands behind it ends with the last one.
  rcases List.eq_nil_or_concat after with rfl | ⟨middle, final, rfl⟩
  · obtain ⟨rfl, hevent⟩ := List.append_inj' hsplit rfl
    cases hevent
    exact hlast
  · rw [List.concat_eq_append, ← List.cons_append, ← List.append_assoc] at hsplit
    obtain ⟨hevents, -⟩ := List.append_inj' hsplit rfl
    exact h before event middle hevents

/-! ## One use -/

/-- Nothing that can be seen of the state has changed. -/
structure Silent (r r' : Recorder P) : Prop where
  events : r'.events = r.events
  state : r'.state = r.state
  saved : r'.saved = r.saved

/-- One event was recorded, and it accounts for the change of state. -/
structure Logs (r : Recorder P) (event : Event P) (r' : Recorder P) : Prop where
  events : r'.events = r.events ++ [event]
  state : r'.state = event.state
  follows : Follows r.state r.saved event
  saved : ∀ saves : List (Event P), r.saved = saves.map (·.state) →
    r'.saved = (closeSaves saves event).map (·.state)

/-- Taking back a state is always recorded. Whether one was put aside decides what
    is recorded. -/
theorem exists_logs_restore (r : Recorder P) : ∃ event, Logs r event r.restore := by
  unfold restore
  cases hsaved : r.saved with
  | nil =>
    refine ⟨⟨.restore false, r.state⟩, rfl, rfl, ⟨hsaved, rfl⟩, ?_⟩
    intro saves hsaves
    rw [hsaved, eq_comm, List.map_eq_nil_iff] at hsaves
    rw [hsaves]
    exact hsaved
  | cons state saved =>
    refine ⟨⟨.restore true, state⟩, rfl, rfl, ⟨saved, hsaved⟩, ?_⟩
    -- The innermost open `save` goes with the state that it put aside.
    intro saves hsaves
    have htail : saves.tail.map (·.state) = saved := by
      rw [List.map_tail, ← hsaves, hsaved]
      rfl
    exact htail.symm

/-- A use leaves no trace, or one event that accounts for what it did. The number
    of clips must not have reached its limit. -/
theorem Use.apply_cases (r : Recorder P) (use : Use P)
    (hclips : use.isClip = true → r.state.clips.toNat + 1 < UInt32.size) :
    Silent r (use.apply r) ∨ ∃ event, Logs r event (use.apply r) := by
  cases use with
  | measure text => exact .inl ⟨rfl, rfl, rfl⟩
  | perform call =>
    -- Only `save` and `restore` touch what is put aside, so for every other action the
    -- open saves stay as they are.
    cases call with
    | setFont font =>
      cases font with
      | font font => exact .inr ⟨_, rfl, rfl, ⟨font, rfl⟩, fun _ h => h⟩
      | paint _ => exact .inl ⟨rfl, rfl, rfl⟩
      | image _ => exact .inl ⟨rfl, rfl, rfl⟩
    | setPaint paint =>
      cases paint with
      | paint paint => exact .inr ⟨_, rfl, rfl, ⟨paint, rfl⟩, fun _ h => h⟩
      | font _ => exact .inl ⟨rfl, rfl, rfl⟩
      | image _ => exact .inl ⟨rfl, rfl, rfl⟩
    | setStroke style => exact .inr ⟨_, rfl, rfl, ⟨_, rfl⟩, fun _ h => h⟩
    | setOpacity alpha => exact .inr ⟨_, rfl, rfl, ⟨alpha, rfl⟩, fun _ h => h⟩
    | setSmoothing smoothing => exact .inr ⟨_, rfl, rfl, ⟨smoothing, rfl⟩, fun _ h => h⟩
    | setTransform m => exact .inr ⟨_, rfl, rfl, rfl, fun _ h => h⟩
    | transform m => exact .inr ⟨_, rfl, rfl, rfl, fun _ h => h⟩
    | save => exact .inr ⟨_, rfl, rfl, rfl, fun _ h => congrArg (r.state :: ·) h⟩
    | restore => exact .inr (exists_logs_restore r)
    | beginPath => exact .inl ⟨rfl, rfl, rfl⟩
    | addSegment segment => exact .inl ⟨rfl, rfl, rfl⟩
    | addRect rect => exact .inl ⟨rfl, rfl, rfl⟩
    | stroke => exact .inr ⟨_, rfl, rfl, rfl, fun _ h => h⟩
    | fill => exact .inr ⟨_, rfl, rfl, rfl, fun _ h => h⟩
    | clip =>
      -- The counter has 32 bits, so one more is one more only while there is room.
      have hroom : r.state.clips.toNat + 1 < UInt32.size := hclips rfl
      have hcount : (r.state.clips + 1).toNat = r.state.clips.toNat + 1 := by
        rw [UInt32.toNat_add]
        exact Nat.mod_eq_of_lt hroom
      exact .inr ⟨_, rfl, rfl, ⟨r.state.clips + 1, rfl, hcount⟩, fun _ h => h⟩
    | clearRect rect => exact .inr ⟨_, rfl, rfl, rfl, fun _ h => h⟩
    | drawImage image origin =>
      cases image with
      | image image => exact .inr ⟨_, rfl, rfl, rfl, fun _ h => h⟩
      | font _ => exact .inl ⟨rfl, rfl, rfl⟩
      | paint _ => exact .inl ⟨rfl, rfl, rfl⟩
    | drawImageRect image source target =>
      cases image with
      | image image => exact .inr ⟨_, rfl, rfl, rfl, fun _ h => h⟩
      | font _ => exact .inl ⟨rfl, rfl, rfl⟩
      | paint _ => exact .inl ⟨rfl, rfl, rfl⟩
    | fillText text origin => exact .inr ⟨_, rfl, rfl, rfl, fun _ h => h⟩
    | strokeText text origin => exact .inr ⟨_, rfl, rfl, rfl, fun _ h => h⟩

/-! ## Clips -/

/-- No state, current or put aside, counts more than `n` clips. -/
structure ClipsLe (n : Nat) (r : Recorder P) : Prop where
  state : r.state.clips.toNat ≤ n
  saved : ∀ state ∈ r.saved, state.clips.toNat ≤ n

theorem ClipsLe.mono {m n : Nat} {r : Recorder P} (h : ClipsLe m r) (hmn : m ≤ n) : ClipsLe n r :=
  ⟨Nat.le_trans h.state hmn, fun state hstate => Nat.le_trans (h.saved state hstate) hmn⟩

/-- A use that is no clip leaves no state with more clips than there were. -/
theorem ClipsLe.apply {n : Nat} {r : Recorder P} (h : ClipsLe n r) {use : Use P}
    (hclip : use.isClip = false) : ClipsLe n (use.apply r) := by
  cases use with
  | measure text => exact h
  | perform call =>
    cases call with
    | clip => cases hclip
    | save =>
      refine ⟨h.state, ?_⟩
      intro state hstate
      rcases List.mem_cons.mp hstate with rfl | hstate
      · exact h.state
      · exact h.saved state hstate
    | restore =>
      show ClipsLe n r.restore
      unfold restore
      cases hsaved : r.saved with
      | nil => exact ⟨h.state, h.saved⟩
      | cons state saved =>
        have hall := h.saved
        rw [hsaved] at hall
        exact ⟨hall state List.mem_cons_self,
          fun other hother => hall other (List.mem_cons_of_mem _ hother)⟩
    | setFont native | setPaint native | drawImage native | drawImageRect native =>
      -- Whatever thing is passed, the clips are not looked at.
      cases native <;> exact ⟨h.state, h.saved⟩
    | _ => exact ⟨h.state, h.saved⟩

/-- A clip adds at most one. -/
theorem ClipsLe.apply_clip {n : Nat} {r : Recorder P} (h : ClipsLe n r) :
    ClipsLe (n + 1) (Use.apply r (.perform .clip)) := by
  refine ⟨?_, (h.mono (Nat.le_succ n)).saved⟩
  show (r.state.clips + 1).toNat ≤ n + 1
  have hone : (1 : UInt32).toNat = 1 := rfl
  have hmod := Nat.mod_le (r.state.clips.toNat + (1 : UInt32).toNat) UInt32.size
  have hstate := h.state
  rw [UInt32.toNat_add]
  omega

/-- A run leaves no state with more clips than it made. -/
theorem clipsLe_run [Paint P] (uses : List (Use P)) :
    ClipsLe (uses.countP Use.isClip) (run uses) := by
  -- A run grows at its end, so the last use is taken off.
  induction uses using List.reverseRecOn with
  | nil =>
    refine ⟨Nat.le_refl 0, ?_⟩
    intro state hstate
    cases hstate
  | append_singleton uses use ih =>
    rw [run_concat, List.countP_append]
    cases hclip : use.isClip with
    | false => exact (ih.apply hclip).mono (Nat.le_add_right _ _)
    | true =>
      obtain rfl : use = .perform .clip := by
        unfold Use.isClip at hclip
        split at hclip
        · rfl
        · cases hclip
        · cases hclip
      exact ih.apply_clip

/-! ## Runs -/

/-- The events of a run account for all that can be seen of the state. -/
structure Accounted [Paint P] (r : Recorder P) : Prop where
  explained : Explained r.events
  saved : r.saved = (openSaves r.events).map (·.state)
  state : r.state = lastState r.events

theorem accounted_fresh [Paint P] : Accounted (fresh : Recorder P) := ⟨explained_nil, rfl, rfl⟩

/-- One event more, and the account still holds. -/
theorem Accounted.logs [Paint P] {r r' : Recorder P} {event : Event P} (h : Accounted r)
    (hlogs : Logs r event r') : Accounted r' := by
  have hfollows : Follows (lastState r.events) ((openSaves r.events).map (·.state)) event := by
    rw [← h.state, ← h.saved]
    exact hlogs.follows
  refine ⟨?_, ?_, ?_⟩
  · rw [hlogs.events]
    exact explained_concat h.explained hfollows
  · rw [hlogs.events, openSaves_concat]
    exact hlogs.saved _ h.saved
  · rw [hlogs.events, lastState_concat]
    exact hlogs.state

theorem Accounted.silent [Paint P] {r r' : Recorder P} (h : Accounted r) (hsilent : Silent r r') :
    Accounted r' := by
  refine ⟨?_, ?_, ?_⟩
  · rw [hsilent.events]
    exact h.explained
  · rw [hsilent.saved, hsilent.events]
    exact h.saved
  · rw [hsilent.state, hsilent.events]
    exact h.state

theorem accounted_run [Paint P] {uses : List (Use P)}
    (hclips : uses.countP Use.isClip < UInt32.size) :
    Accounted (run uses) := by
  induction uses using List.reverseRecOn with
  | nil => exact accounted_fresh
  | append_singleton uses use ih =>
    rw [List.countP_append] at hclips
    have hrun : Accounted (run uses) := ih (by omega)
    -- A clip that is made now was not counted before, so there is room for it.
    have hroom : use.isClip = true → (run uses).state.clips.toNat + 1 < UInt32.size := by
      intro hclip
      have hstate := (clipsLe_run uses).state
      have hone : [use].countP Use.isClip = 1 := by simp [hclip]
      omega
    rw [run_concat]
    rcases Use.apply_cases (run uses) use hroom with hsilent | ⟨event, hlogs⟩
    · exact hrun.silent hsilent
    · exact hrun.logs hlogs

/-- However a fresh recorder is used, with fewer clips than its counter can tell:
    every event follows from the events in front of it, the states put aside are
    those of the open `save` events, and the current state is that of the last
    event. -/
theorem events_explain_state [Paint P] (uses : List (Use P))
    (hclips : uses.countP Use.isClip < UInt32.size) :
    (∀ before event after, (run uses).events = before ++ event :: after →
      Follows (lastState before) ((openSaves before).map (·.state)) event) ∧
    (run uses).saved = (openSaves (run uses).events).map (·.state) ∧
    (run uses).state = lastState (run uses).events := by
  have h := accounted_run hclips
  exact ⟨h.explained, h.saved, h.state⟩

/-- A clip and two transforms between two saves, of which only the inner one is taken back,
    and a font that is none. -/
def nestedUses : List Use :=
  [.perform (.setOpacity 0.5), .perform .save, .perform .clip,
    .perform (.setTransform ⟨1.0, 2.0, 3.0, 4.0, 5.0, 6.0⟩),
    .perform (.transform ⟨7.0, 8.0, 9.0, 10.0, 11.0, 12.0⟩), .perform .save,
    .perform (.setFont (.image ⟨1, 1⟩)), .measure "text", .perform (.setOpacity 0.25),
    .perform .restore]

/-- The second transform is composed onto the first one: their product is in force. -/
theorem events_explain_state_nested :
    nestedUses.countP Use.isClip < UInt32.size ∧
    (∀ before event after, (run nestedUses).events = before ++ event :: after →
      Follows (lastState before) ((openSaves before).map (·.state)) event) ∧
    (run nestedUses).saved = [{ State.initial with opacity := 0.5 }] ∧
    (run nestedUses).state =
      { State.initial with
        transform := ⟨31.0, 46.0, 39.0, 58.0, 52.0, 76.0⟩
        opacity := 0.5
        clips := 1 } := by
  have hclips : nestedUses.countP Use.isClip < UInt32.size := by decide
  have hlast : lastState (run nestedUses).events =
      { State.initial with
        transform := ⟨31.0, 46.0, 39.0, 58.0, 52.0, 76.0⟩
        opacity := 0.5
        clips := 1 } := by
    decide +kernel
  obtain ⟨hfollows, hsaved, hstate⟩ := events_explain_state nestedUses hclips
  exact ⟨hclips, hfollows, hsaved, hstate.trans hlast⟩

end Recorder

end BatchDraw
