/-
  BatchDraw.Proofs.Wire.Passage

  How far a reading has come.

  `feed.Passes b notices feed'` says that `feed` stands in front of the operands
  of `b` and `feed'` behind them, and that exactly `notices` were left on the
  way. Passages go in sequence as batches append, so what a reader does with
  several entries is put together from what it does with each
  (`Feed.passes_append_iff`). A passage without a notice is a `Feed.Takes`.

  The second half says of the readers that never branch on their entries which
  passage each of them makes.
-/
import BatchDraw.Wire.Operands

namespace BatchDraw

/-! ## Cursors -/

/-- The second cursor stands behind `entries`, the first one in front of them. -/
structure Cursor.Passes {α : Type} (front : Cursor α) (entries : List α)
    (back : Cursor α) : Prop where
  rest : front.rest = entries ++ back.rest
  position : back.position = front.position + entries.length

namespace Cursor

variable {α : Type} {entries others : List α} {front back : Cursor α}

/-- Nothing is passed by standing still. -/
theorem passes_nil_iff : front.Passes [] back ↔ front = back := by
  refine ⟨?_, ?_⟩
  · intro h
    obtain ⟨hrest, hposition⟩ := h
    cases front
    cases back
    simp_all
  · rintro rfl
    exact ⟨rfl, rfl⟩

/-- Two stretches are passed one after the other. -/
theorem passes_append_iff :
    front.Passes (entries ++ others) back ↔
      ∃ middle, front.Passes entries middle ∧ middle.Passes others back := by
  refine ⟨?_, ?_⟩
  · intro h
    obtain ⟨hrest, hposition⟩ := h
    refine ⟨⟨front.position + entries.length, others ++ back.rest⟩, ⟨?_, rfl⟩, ⟨rfl, ?_⟩⟩
    · rw [hrest, List.append_assoc]
    · rw [hposition, List.length_append, Nat.add_assoc]
  · intro h
    obtain ⟨middle, ⟨hrest₁, hposition₁⟩, ⟨hrest₂, hposition₂⟩⟩ := h
    refine ⟨?_, ?_⟩
    · rw [hrest₁, hrest₂, List.append_assoc]
    · rw [hposition₂, hposition₁, List.length_append, Nat.add_assoc]

/-- One entry is passed by reading it. -/
theorem next?_eq_some_iff {entry : α} :
    front.next? = some (entry, back) ↔ front.Passes [entry] back := by
  -- The entry in front of the cursor, if there is one, decides both sides.
  unfold next?
  cases hrest : front.rest with
  | nil =>
    refine ⟨?_, ?_⟩
    · intro h
      cases h
    · intro h
      have hnil := h.rest.symm.trans hrest
      cases hnil
  | cons first rest =>
    refine ⟨?_, ?_⟩
    · intro h
      cases h
      exact ⟨hrest, rfl⟩
    · intro h
      have hcons : first :: rest = entry :: back.rest := hrest.symm.trans h.rest
      cases hcons
      have hposition : back.position = front.position + 1 := h.position
      exact congrArg some (congrArg (Prod.mk entry) (by rw [← hposition]))

/-- A cursor passes what the entries in front of it begin with. -/
theorem exists_passes_iff : (∃ back, front.Passes entries back) ↔ entries <+: front.rest := by
  refine ⟨?_, ?_⟩
  · intro h
    obtain ⟨back, hrest, -⟩ := h
    exact ⟨back.rest, hrest.symm⟩
  · intro h
    obtain ⟨rest, hrest⟩ := h
    exact ⟨⟨front.position + entries.length, rest⟩, hrest.symm, rfl⟩

end Cursor

/-! ## Feeds -/

/-- Whether a notice is about an instruction tag. -/
def Notice.isUnknownOp : Notice → Bool
  | unknownOp _ _ => true
  | unknownSegment _ _ | outOfRange _ _ _ => false

/-- Whether a notice is about a tag inside a shape. -/
def Notice.isUnknownSegment : Notice → Bool
  | unknownSegment _ _ => true
  | unknownOp _ _ | outOfRange _ _ _ => false

/-- Whether a notice is about an integer operand. -/
def Notice.isOutOfRange : Notice → Bool
  | outOfRange _ _ _ => true
  | unknownOp _ _ | unknownSegment _ _ => false

variable {N : Type}

namespace Feed

/-- The second feed stands behind the operands of `b`, the first one in front of
    them, and `notices` were left and counted on the way. -/
structure Passes (front : Feed N) (b : Batch N) (notices : List Notice)
    (back : Feed N) : Prop where
  ints : front.ints.Passes b.ints back.ints
  reals : front.reals.Passes b.reals back.reals
  texts : front.texts.Passes b.texts back.texts
  natives : front.natives.Passes b.natives back.natives
  skippedOps : back.skippedOps = front.skippedOps + notices.countP Notice.isUnknownOp
  skippedSegments :
    back.skippedSegments = front.skippedSegments + notices.countP Notice.isUnknownSegment
  notices : back.notices = front.notices ++ notices

/-- A passage that leaves no notice. -/
def Takes (front : Feed N) (b : Batch N) (back : Feed N) : Prop :=
  front.Passes b [] back

variable {b c : Batch N} {m n : List Notice} {front back : Feed N}

/-- Two passages, one after the other. -/
theorem passes_append_iff :
    front.Passes (b ++ c) (m ++ n) back ↔
      ∃ middle, front.Passes b m middle ∧ middle.Passes c n back := by
  refine ⟨?_, ?_⟩
  · intro h
    obtain ⟨hints, hreals, htexts, hnatives, hops, hsegments, hnotices⟩ := h
    -- Each cursor has a place between the two, and the counters are split like the
    -- notices.
    obtain ⟨ints, hints₁, hints₂⟩ := Cursor.passes_append_iff.mp hints
    obtain ⟨reals, hreals₁, hreals₂⟩ := Cursor.passes_append_iff.mp hreals
    obtain ⟨texts, htexts₁, htexts₂⟩ := Cursor.passes_append_iff.mp htexts
    obtain ⟨natives, hnatives₁, hnatives₂⟩ := Cursor.passes_append_iff.mp hnatives
    rw [List.countP_append, ← Nat.add_assoc] at hops hsegments
    rw [← List.append_assoc] at hnotices
    exact ⟨⟨ints, reals, texts, natives, _, _, _⟩,
      ⟨hints₁, hreals₁, htexts₁, hnatives₁, rfl, rfl, rfl⟩,
      ⟨hints₂, hreals₂, htexts₂, hnatives₂, hops, hsegments, hnotices⟩⟩
  · intro h
    obtain ⟨middle, h₁, h₂⟩ := h
    refine ⟨?_, ?_, ?_, ?_, ?_, ?_, ?_⟩
    · exact Cursor.passes_append_iff.mpr ⟨_, h₁.ints, h₂.ints⟩
    · exact Cursor.passes_append_iff.mpr ⟨_, h₁.reals, h₂.reals⟩
    · exact Cursor.passes_append_iff.mpr ⟨_, h₁.texts, h₂.texts⟩
    · exact Cursor.passes_append_iff.mpr ⟨_, h₁.natives, h₂.natives⟩
    · rw [h₂.skippedOps, h₁.skippedOps, List.countP_append, Nat.add_assoc]
    · rw [h₂.skippedSegments, h₁.skippedSegments, List.countP_append, Nat.add_assoc]
    · rw [h₂.notices, h₁.notices, List.append_assoc]

theorem Passes.trans {middle : Feed N} (h₁ : front.Passes b m middle)
    (h₂ : middle.Passes c n back) : front.Passes (b ++ c) (m ++ n) back :=
  passes_append_iff.mpr ⟨middle, h₁, h₂⟩

theorem takes_append_iff :
    front.Takes (b ++ c) back ↔ ∃ middle, front.Takes b middle ∧ middle.Takes c back :=
  passes_append_iff (m := []) (n := [])

theorem Takes.trans {middle : Feed N} (h₁ : front.Takes b middle)
    (h₂ : middle.Takes c back) : front.Takes (b ++ c) back :=
  takes_append_iff.mpr ⟨middle, h₁, h₂⟩

/-- Notices are left and counted without moving a cursor. -/
theorem passes_empty (feed : Feed N) (notices : List Notice) :
    feed.Passes .empty notices
      { feed with
        skippedOps := feed.skippedOps + notices.countP Notice.isUnknownOp
        skippedSegments := feed.skippedSegments + notices.countP Notice.isUnknownSegment
        notices := feed.notices ++ notices } :=
  ⟨Cursor.passes_nil_iff.mpr rfl, Cursor.passes_nil_iff.mpr rfl,
    Cursor.passes_nil_iff.mpr rfl, Cursor.passes_nil_iff.mpr rfl, rfl, rfl, rfl⟩

/-- Taking operands moves the four cursors and changes nothing else. -/
theorem takes_iff :
    front.Takes b back ↔
      ∃ ints reals texts natives,
        front.ints.Passes b.ints ints ∧ front.reals.Passes b.reals reals ∧
        front.texts.Passes b.texts texts ∧ front.natives.Passes b.natives natives ∧
        back = { front with ints, reals, texts, natives } := by
  refine ⟨?_, ?_⟩
  · intro h
    obtain ⟨hints, hreals, htexts, hnatives, hops, hsegments, hnotices⟩ := h
    rw [List.append_nil] at hnotices
    refine ⟨_, _, _, _, hints, hreals, htexts, hnatives, ?_⟩
    -- Without a notice the counters and the account of notices are the old ones.
    cases back
    cases hops
    cases hsegments
    cases hnotices
    rfl
  · intro h
    obtain ⟨ints, reals, texts, natives, hints, hreals, htexts, hnatives, rfl⟩ := h
    exact ⟨hints, hreals, htexts, hnatives, rfl, rfl, (List.append_nil _).symm⟩

/-- No operand is taken by standing still. -/
theorem takes_empty_iff : front.Takes .empty back ↔ front = back := by
  simp only [takes_iff, Batch.empty, Cursor.passes_nil_iff]
  refine ⟨?_, ?_⟩
  · intro h
    obtain ⟨ints, reals, texts, natives, rfl, rfl, rfl, rfl, rfl⟩ := h
    rfl
  · rintro rfl
    exact ⟨_, _, _, _, rfl, rfl, rfl, rfl, rfl⟩

theorem Takes.refl (feed : Feed N) : feed.Takes .empty feed :=
  takes_empty_iff.mpr rfl

theorem takes_ints_iff {ints : List Int32} :
    front.Takes { ints } back ↔
      ∃ cursor, front.ints.Passes ints cursor ∧ back = { front with ints := cursor } := by
  simp [takes_iff, Cursor.passes_nil_iff]

theorem takes_reals_iff {reals : List Float} :
    front.Takes { reals } back ↔
      ∃ cursor, front.reals.Passes reals cursor ∧ back = { front with reals := cursor } := by
  simp [takes_iff, Cursor.passes_nil_iff]

/-- Reals are taken one after another. -/
theorem takes_reals_append_iff {xs ys : List Float} :
    front.Takes { reals := xs ++ ys } back ↔
      ∃ middle, front.Takes { reals := xs } middle ∧ middle.Takes { reals := ys } back :=
  takes_append_iff (b := { reals := xs }) (c := { reals := ys })

theorem takes_reals_cons_iff {x : Float} {xs : List Float} :
    front.Takes { reals := x :: xs } back ↔
      ∃ middle, front.Takes { reals := [x] } middle ∧ middle.Takes { reals := xs } back :=
  takes_append_iff (b := { reals := [x] }) (c := { reals := xs })

theorem takes_texts_iff {texts : List String} :
    front.Takes { texts } back ↔
      ∃ cursor, front.texts.Passes texts cursor ∧ back = { front with texts := cursor } := by
  simp [takes_iff, Cursor.passes_nil_iff]

theorem takes_natives_iff {natives : List (Option N)} :
    front.Takes { natives } back ↔
      ∃ cursor, front.natives.Passes natives cursor ∧
        back = { front with natives := cursor } := by
  simp [takes_iff, Cursor.passes_nil_iff]

end Feed

/-! ## Readers that take what they return -/

namespace Read

variable {α β : Type} {site : Site} {feed feed' : Feed N}

theorem run_pure_eq_ok_iff {a b : α} :
    (pure a : Read N α).run feed = .ok b feed' ↔ a = b ∧ feed = feed' := by
  rw [← EStateM.Result.ok.injEq]
  rfl

/-- A sequence of readers succeeds when both do, the second from where the first
    one ended. -/
theorem run_bind_eq_ok_iff {m : Read N α} {k : α → Read N β} {b : β} :
    (m >>= k).run feed = .ok b feed' ↔
      ∃ a middle, m.run feed = .ok a middle ∧ (k a).run middle = .ok b feed' := by
  rw [EStateM.run_bind]
  cases m.run feed with
  | error e middle => simp
  | ok a middle =>
    refine ⟨?_, ?_⟩
    · intro h
      exact ⟨a, middle, rfl, h⟩
    · intro h
      obtain ⟨a, middle, h, hk⟩ := h
      cases h
      exact hk

/-- A sequence of readers fails where the first one does, or else where the second
    one does. -/
theorem run_bind_eq_error_iff {m : Read N α} {k : α → Read N β} {e : WireError} :
    (m >>= k).run feed = .error e feed' ↔
      m.run feed = .error e feed' ∨
        ∃ a middle, m.run feed = .ok a middle ∧ (k a).run middle = .error e feed' := by
  rw [EStateM.run_bind]
  cases m.run feed with
  | error e' middle => simp
  | ok a middle =>
    refine ⟨?_, ?_⟩
    · intro h
      exact .inr ⟨a, middle, rfl, h⟩
    · rintro (h | ⟨a, middle, h, hk⟩)
      · cases h
      · cases h
        exact hk

theorem run_map_eq_ok_iff {m : Read N α} {f : α → β} {b : β} :
    (f <$> m).run feed = .ok b feed' ↔ ∃ a, m.run feed = .ok a feed' ∧ f a = b := by
  rw [map_eq_pure_bind, run_bind_eq_ok_iff]
  simp only [run_pure_eq_ok_iff]
  refine ⟨?_, ?_⟩
  · intro h
    obtain ⟨a, middle, hm, rfl, rfl⟩ := h
    exact ⟨a, hm, rfl⟩
  · intro h
    obtain ⟨a, hm, rfl⟩ := h
    exact ⟨a, feed', hm, rfl, rfl⟩

theorem run_int_eq_ok_iff {value : Int32} :
    (int site).run feed = .ok value feed' ↔ feed.Takes { ints := [value] } feed' := by
  simp only [Feed.takes_ints_iff, ← Cursor.next?_eq_some_iff, EStateM.run, int]
  rcases feed.ints.next? with _ | ⟨first, cursor⟩
  · simp
  · simp [and_assoc, eq_comm (b := feed')]

theorem run_real_eq_ok_iff {value : Float} :
    (real site).run feed = .ok value feed' ↔ feed.Takes { reals := [value] } feed' := by
  simp only [Feed.takes_reals_iff, ← Cursor.next?_eq_some_iff, EStateM.run, real]
  rcases feed.reals.next? with _ | ⟨first, cursor⟩
  · simp
  · simp [and_assoc, eq_comm (b := feed')]

theorem run_text_eq_ok_iff {value : String} :
    (text site).run feed = .ok value feed' ↔ feed.Takes { texts := [value] } feed' := by
  simp only [Feed.takes_texts_iff, ← Cursor.next?_eq_some_iff, EStateM.run, text]
  rcases feed.texts.next? with _ | ⟨first, cursor⟩
  · simp
  · simp [and_assoc, eq_comm (b := feed')]

theorem run_native_eq_ok_iff {value : Option N} :
    (native site).run feed = .ok value feed' ↔ feed.Takes { natives := [value] } feed' := by
  simp only [Feed.takes_natives_iff, ← Cursor.next?_eq_some_iff, EStateM.run, native]
  rcases feed.natives.next? with _ | ⟨first, cursor⟩
  · simp
  · simp [and_assoc, eq_comm (b := feed')]

/-! ### Several entries -/

theorem run_point_eq_ok_iff {p : Point} :
    (point site).run feed = .ok p feed' ↔ feed.Takes { reals := p.reals } feed' := by
  simp only [point, run_bind_eq_ok_iff, run_real_eq_ok_iff, run_pure_eq_ok_iff]
  refine ⟨?_, ?_⟩
  · intro h
    obtain ⟨x, f₁, hx, y, f₂, hy, rfl, rfl⟩ := h
    exact hx.trans hy
  · intro h
    obtain ⟨f₁, hx, hy⟩ := Feed.takes_reals_cons_iff.mp h
    exact ⟨p.x, f₁, hx, p.y, feed', hy, rfl, rfl⟩

theorem run_frame_eq_ok_iff {frame : Frame} :
    (Read.frame site).run feed = .ok frame feed' ↔
      feed.Takes { reals := frame.reals } feed' := by
  simp only [Read.frame, run_bind_eq_ok_iff, run_real_eq_ok_iff, run_pure_eq_ok_iff]
  refine ⟨?_, ?_⟩
  · intro h
    obtain ⟨x, f₁, hx, y, f₂, hy, width, f₃, hwidth, height, f₄, hheight, rfl, rfl⟩ := h
    exact ((hx.trans hy).trans hwidth).trans hheight
  · intro h
    obtain ⟨f₁, hx, h⟩ := Feed.takes_reals_cons_iff.mp h
    obtain ⟨f₂, hy, h⟩ := Feed.takes_reals_cons_iff.mp h
    obtain ⟨f₃, hwidth, hheight⟩ := Feed.takes_reals_cons_iff.mp h
    exact ⟨_, f₁, hx, _, f₂, hy, _, f₃, hwidth, _, feed', hheight, rfl, rfl⟩

/-- Many frames have the same rectangle, since their corners are rounded. -/
theorem run_rect_eq_ok_iff {r : Rect} :
    (rect site).run feed = .ok r feed' ↔
      ∃ f : Frame, f.toRect = r ∧ feed.Takes { reals := f.reals } feed' := by
  simp only [rect, run_bind_eq_ok_iff, run_frame_eq_ok_iff, run_pure_eq_ok_iff]
  refine ⟨?_, ?_⟩
  · intro h
    obtain ⟨f, f₁, hframe, rfl, rfl⟩ := h
    exact ⟨f, rfl, hframe⟩
  · intro h
    obtain ⟨f, rfl, hframe⟩ := h
    exact ⟨f, feed', hframe, rfl, rfl⟩

theorem run_affine_eq_ok_iff {m : Affine} :
    (affine site).run feed = .ok m feed' ↔ feed.Takes { reals := m.reals } feed' := by
  simp only [affine, run_bind_eq_ok_iff, run_real_eq_ok_iff, run_pure_eq_ok_iff]
  refine ⟨?_, ?_⟩
  · intro h
    obtain ⟨a, f₁, ha, b, f₂, hb, c, f₃, hc, d, f₄, hd, e, f₅, he, f, f₆, hf, rfl, rfl⟩ := h
    exact ((((ha.trans hb).trans hc).trans hd).trans he).trans hf
  · intro h
    obtain ⟨f₁, ha, h⟩ := Feed.takes_reals_cons_iff.mp h
    obtain ⟨f₂, hb, h⟩ := Feed.takes_reals_cons_iff.mp h
    obtain ⟨f₃, hc, h⟩ := Feed.takes_reals_cons_iff.mp h
    obtain ⟨f₄, hd, h⟩ := Feed.takes_reals_cons_iff.mp h
    obtain ⟨f₅, he, hf⟩ := Feed.takes_reals_cons_iff.mp h
    exact ⟨_, f₁, ha, _, f₂, hb, _, f₃, hc, _, f₄, hd, _, f₅, he, _, feed', hf, rfl, rfl⟩

/-- Counted reals are exactly that many. -/
theorem run_reals_eq_ok_iff {n : Nat} {xs : List Float} :
    (reals site n).run feed = .ok xs feed' ↔
      xs.length = n ∧ feed.Takes { reals := xs } feed' := by
  -- On the count, which is read before any of the reals.
  induction n generalizing feed feed' xs with
  | zero =>
    simp only [reals, run_pure_eq_ok_iff, List.length_eq_zero_iff]
    refine ⟨?_, ?_⟩
    · intro h
      obtain ⟨rfl, rfl⟩ := h
      exact ⟨rfl, .refl feed⟩
    · intro h
      obtain ⟨rfl, h⟩ := h
      exact ⟨rfl, Feed.takes_empty_iff.mp h⟩
  | succ n ih =>
    simp only [reals, run_bind_eq_ok_iff, run_real_eq_ok_iff, run_pure_eq_ok_iff, ih]
    refine ⟨?_, ?_⟩
    · intro h
      obtain ⟨x, f₁, hx, others, f₂, ⟨hlength, hothers⟩, rfl, rfl⟩ := h
      exact ⟨congrArg (· + 1) hlength, hx.trans hothers⟩
    · intro h
      obtain ⟨hlength, h⟩ := h
      obtain ⟨x, others, rfl⟩ := List.exists_cons_of_length_eq_add_one hlength
      obtain ⟨f₁, hx, hothers⟩ := Feed.takes_reals_cons_iff.mp h
      exact ⟨x, f₁, hx, others, feed', ⟨Nat.succ.inj hlength, hothers⟩, rfl, rfl⟩

theorem run_textRun_eq_ok_iff {run : TextRun} :
    (textRun site).run feed = .ok run feed' ↔ feed.Takes run.wire feed' := by
  simp only [textRun, run_bind_eq_ok_iff, run_text_eq_ok_iff, run_point_eq_ok_iff,
    run_real_eq_ok_iff, run_pure_eq_ok_iff]
  refine ⟨?_, ?_⟩
  · intro h
    obtain ⟨text, f₁, htext, origin, f₂, horigin, spacing, f₃, hspacing, rfl, rfl⟩ := h
    exact (htext.trans horigin).trans hspacing
  · intro h
    -- The layout of a text run lists its texts and reals apart; in reading they alternate.
    have hwire : (run.wire : Batch N) =
        { texts := [run.text] } ++ { reals := run.origin.reals } ++
          { reals := [run.spacing] } := rfl
    rw [hwire] at h
    obtain ⟨f₂, h, hspacing⟩ := Feed.takes_append_iff.mp h
    obtain ⟨f₁, htext, horigin⟩ := Feed.takes_append_iff.mp h
    exact ⟨_, f₁, htext, _, f₂, horigin, _, feed', hspacing, rfl, rfl⟩

end Read

end BatchDraw
