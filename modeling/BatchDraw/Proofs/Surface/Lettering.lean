/-
  BatchDraw.Proofs.Surface.Lettering

  Text in pieces.

  A run without spacing is drawn whole, and nothing is measured. Any other run is drawn
  character by character; each character is measured behind its drawing, and what was
  measured moves the pen. Where the characters come to stand is a matter of their widths
  alone (`layOut`): the x coordinates are the running sums of widths and spacings.

  What a surface answers may depend on all that it was told before. So the trace of a spaced
  run is that of its layout for some widths, one for each character
  (`Traced.exists_entries_drawSpaced`), and where the answers are known, the widths are.
-/
import BatchDraw.Recorder.Basic
import BatchDraw.Proofs.Surface.Concatenation
import Mathlib.Data.List.Forall2

namespace BatchDraw

variable {σ N : Type}

/-! ## Zeros -/

section

open Float.Model Float.Model.UnpackedFloat

/-- Of the bits of a zero none but the first can be set. -/
theorem toNat_of_unpack_eq_zero {bits : BitVec Format.binary64.numBits} {sign : Sign}
    (h : UnpackedFloat.unpack Format.binary64 bits = .zero sign) :
    bits.toNat = 0 ∨ bits.toNat = 2 ^ 63 := by
  unfold UnpackedFloat.unpack at h
  dsimp only at h
  -- With all bits of the exponent set it is infinite or not a number, and with none of them
  -- set it is a zero or too small for a leading bit.
  by_cases hones : unpackExponent bits = -1#11
  · rw [if_pos hones] at h
    split at h <;> cases h
  · rw [if_neg hones] at h
    by_cases hexponent : unpackExponent bits = 0#11
    · rw [if_pos hexponent] at h
      by_cases hmantissa : unpackMantissa bits = 0#52
      · have hexponent : bits.toNat / 2 ^ 52 % 2 ^ 11 = 0 := by
          rw [← Nat.shiftRight_eq_div_pow]
          exact congrArg BitVec.toNat hexponent
        have hmantissa : bits.toNat % 2 ^ 52 = 0 := congrArg BitVec.toNat hmantissa
        have hbits : bits.toNat < 2 ^ 64 := bits.isLt
        omega
      · rw [dif_neg hmantissa] at h
        cases h
    · rw [if_neg hexponent] at h
      cases h

end

/-- Two numbers compare equal to zero, and what is not a number does not. -/
theorem beq_zero_iff (x : Float) : (x == 0.0) = true ↔ x = 0.0 ∨ x = -0.0 := by
  refine ⟨?_, ?_⟩
  · intro h
    have hcompare : (x.toModel.unpack.compare (.zero .positive) == some .eq) = true := h
    have hunpack : ∃ sign, x.toModel.unpack = .zero sign := by
      cases hx : x.toModel.unpack with
      | zero sign => exact ⟨sign, rfl⟩
      | notANumber => rw [hx] at hcompare; cases hcompare
      | infinity sign | finite sign _ _ _ => rw [hx] at hcompare; cases sign <;> cases hcompare
    -- A number is its bits, so the two zeros are all that is left.
    have hext : ∀ y : Float, x.toModel.toBits.toNat = y.toModel.toBits.toNat → x = y := by
      intro y hbits
      obtain ⟨⟨xbits, hx⟩⟩ := x
      obtain ⟨⟨ybits, hy⟩⟩ := y
      obtain rfl : xbits = ybits := UInt64.toNat_inj.mp hbits
      rfl
    obtain ⟨sign, hsign⟩ := hunpack
    rcases toNat_of_unpack_eq_zero hsign with hbits | hbits
    · exact .inl (hext 0.0 hbits)
    · exact .inr (hext (-0.0) hbits)
  · rintro (rfl | rfl) <;> decide

/-! ## Layouts -/

/-- A piece of text, how far it advances the pen, and where the pen stands in front of it. -/
structure Piece where
  text : String
  width : Float
  pen : Point

/-- Texts in a row, with these widths. The pen moves by each width and the spacing. -/
def layOut (spacing : Float) (origin : Point) (texts : List String) (widths : List Float) :
    List Piece :=
  let pens := widths.scanl (fun x width => x + (width + spacing)) origin.x
  ((texts.zip widths).zip pens).map fun ((text, width), x) => ⟨text, width, ⟨x, origin.y⟩⟩

section

variable (spacing : Float) (origin : Point)

theorem layOut_cons (text : String) (texts : List String) (width : Float) (widths : List Float) :
    layOut spacing origin (text :: texts) (width :: widths) =
      ⟨text, width, origin⟩ ::
        layOut spacing ⟨origin.x + (width + spacing), origin.y⟩ texts widths := by
  unfold layOut
  rw [List.scanl_cons]
  rfl

variable (texts : List String) (widths : List Float)

theorem map_layOut :
    (layOut spacing origin texts widths).map (fun piece => (piece.text, piece.width)) =
      texts.zip widths := by
  unfold layOut
  rw [List.map_map]
  refine List.map_fst_zip ?_
  rw [List.length_zip, List.length_scanl]
  omega

variable {texts widths}

theorem map_text_layOut (h : widths.length = texts.length) :
    (layOut spacing origin texts widths).map Piece.text = texts := by
  have hpairs := congrArg (List.map Prod.fst) (map_layOut spacing origin texts widths)
  rwa [List.map_map, List.map_fst_zip (Nat.le_of_eq h.symm)] at hpairs

end

namespace Piece

/-- A piece that is drawn and then measured. -/
def entries (draw : String → Point → Call N) (piece : Piece) : List (Entry N) :=
  [.call (draw piece.text piece.pen), .measured piece.text piece.width]

theorem length_flatMap_entries (draw : String → Point → Call N) (pieces : List Piece) :
    (pieces.flatMap (entries draw)).length = 2 * pieces.length := by
  induction pieces with
  | nil => rfl
  | cons piece pieces ih =>
    rw [List.flatMap_cons, List.length_append, ih, List.length_cons]
    show 2 + 2 * pieces.length = 2 * (pieces.length + 1)
    omega

/-- What every piece has one of is found once for each piece. -/
theorem filterMap_flatMap_entries {α : Type} {draw : String → Point → Call N}
    {f : Entry N → Option α} {g : Piece → α}
    (h : ∀ piece, (entries draw piece).filterMap f = [g piece]) (pieces : List Piece) :
    (pieces.flatMap (entries draw)).filterMap f = pieces.map g := by
  rw [List.filterMap_flatMap, List.map_eq_flatMap]
  simp only [h]

end Piece

/-! ## Runs -/

namespace TextRun

/-- The characters of a run, each as a text. -/
def glyphs (run : TextRun) : List String := run.text.toList.map String.singleton

/-- A run laid out character by character, for characters of these widths. -/
def pieces (run : TextRun) (widths : List Float) : List Piece :=
  layOut run.spacing run.origin run.glyphs widths

theorem length_glyphs (run : TextRun) : run.glyphs.length = run.text.length := by
  unfold glyphs
  rw [List.length_map, String.length_toList]

theorem join_glyphs (run : TextRun) : String.join run.glyphs = run.text := by
  refine String.toList_inj.mp ?_
  unfold glyphs
  rw [String.toList_join, List.flatMap_map]
  simp

end TextRun

/-- What can be done with text. -/
inductive TextUse where
  | fill
  | stroke

namespace TextUse

/-- The operation that puts a run to this use. -/
def op : TextUse → TextRun → Op N
  | fill => .fillText
  | stroke => .strokeText

/-- The call that puts a text to this use. -/
def call : TextUse → String → Point → Call N
  | fill => .fillText
  | stroke => .strokeText

/-- What is recorded of it. -/
def action : TextUse → String → Point → Recorder.Action
  | fill => .fillText
  | stroke => .strokeText

theorem op_apply [Surface σ N] (use : TextUse) (scale : Float) (surface : σ) (run : TextRun) :
    (use.op run).apply scale surface = drawText surface run use.call := by
  cases use <;> rfl

end TextUse

/-- The text that an entry draws. -/
def Entry.drawn? : Entry N → Option String
  | .call (.fillText text _) | .call (.strokeText text _) => some text
  | _ => none

theorem TextUse.drawn?_call (use : TextUse) (text : String) (origin : Point) :
    Entry.drawn? (.call (use.call text origin) : Entry N) = some text := by
  cases use <;> rfl

theorem TextUse.filterMap_drawn? (use : TextUse) (pieces : List Piece) :
    (pieces.flatMap (Piece.entries use.call) : List (Entry N)).filterMap Entry.drawn? =
      pieces.map Piece.text := by
  refine Piece.filterMap_flatMap_entries ?_ pieces
  intro piece
  cases use <;> rfl

/-! ## Surfaces -/

section

variable [Surface σ N]

theorem drawText_whole (surface : σ) {run : TextRun} (h : (run.spacing == 0.0) = true)
    (draw : String → Point → Call N) :
    drawText surface run draw = Surface.perform surface (draw run.text run.origin) := by
  rw [drawText, if_pos h]

theorem drawText_spaced (surface : σ) {run : TextRun} (h : (run.spacing == 0.0) = false)
    (draw : String → Point → Call N) :
    drawText surface run draw =
      drawSpaced draw run.spacing surface run.origin run.text.toList := by
  rw [drawText, h]
  rfl

/-- Each character is drawn and then measured, and `A` holds of each answer if it holds of
    all that the surface ever answers. -/
theorem Traced.exists_entries_drawSpaced {A : String → Float → Prop}
    (hA : ∀ (surface : σ) (text : String), A text (Surface.measure surface text).1)
    (draw : String → Point → Call N) (spacing : Float) (traced : Traced σ N) (pen : Point)
    (cs : List Char) :
    ∃ widths, List.Forall₂ A (cs.map String.singleton) widths ∧
      (drawSpaced draw spacing traced pen cs).entries =
        traced.entries ++
          (layOut spacing pen (cs.map String.singleton) widths).flatMap (Piece.entries draw) := by
  induction cs generalizing traced pen with
  | nil => exact ⟨[], .nil, (List.append_nil _).symm⟩
  | cons c cs ih =>
    let told := Surface.perform traced (draw (String.singleton c) pen)
    let answer := Surface.measure told (String.singleton c)
    obtain ⟨widths, hwidths, hentries⟩ := ih answer.2 ⟨pen.x + (answer.1 + spacing), pen.y⟩
    refine ⟨answer.1 :: widths, .cons (hA told.surface _) hwidths, ?_⟩
    refine hentries.trans ?_
    -- The other characters are traced behind the drawing and the answer of this one.
    rw [List.map_cons, layOut_cons, List.flatMap_cons, ← List.append_assoc]
    show traced.entries ++ [_] ++ [_] ++ _ = _
    rw [List.append_assoc traced.entries]
    rfl

end

/-! ## The recorder -/

namespace Recorder

variable {P : Type}

/-- The advance of a single character. -/
theorem advance_singleton (r : Recorder P) (c : Char) :
    r.advance (String.singleton c) = 1.0 * r.state.font.size * 0.5 := by
  have hone : Float.ofNat 1 = 1.0 := by decide
  simp only [advance, String.length_singleton, Nat.reduceLeDiff, if_true, hone]

theorem perform_call (r : Recorder P) (use : TextUse) (text : String) (pen : Point) :
    r.perform (use.call text pen) =
      { r with events := r.events ++ [⟨use.action text pen, r.state⟩] } := by
  cases use <;> rfl

/-- The characters are recorded one by one, and no state changes. -/
theorem drawSpaced_eq (r : Recorder P) (use : TextUse) (spacing : Float) (pen : Point)
    (cs : List Char) :
    drawSpaced use.call spacing r pen cs =
      { r with
        events := r.events ++
          (layOut spacing pen (cs.map String.singleton)
            (cs.map fun _ => 1.0 * r.state.font.size * 0.5)).map
            fun piece => ⟨use.action piece.text piece.pen, r.state⟩ } := by
  induction cs generalizing r pen with
  | nil => exact congrArg (fun events => { r with events }) (List.append_nil r.events).symm
  | cons c cs ih =>
    show drawSpaced use.call spacing (r.perform (use.call (String.singleton c) pen))
      ⟨pen.x + ((r.perform (use.call (String.singleton c) pen)).advance (String.singleton c) +
        spacing), pen.y⟩ cs = _
    -- The font that measures the other characters is still that of the first one.
    rw [ih, advance_singleton, perform_call, List.map_cons, List.map_cons, layOut_cons,
      List.map_cons, List.append_assoc]
    rfl

end Recorder

/-! ## Text -/

/-- What is told and asked for a run, when every text `text` advances the pen by `m text`. -/
structure TextRun.Drawn (run : TextRun) (use : TextUse) (m : String → Float)
    (entries : List (Entry N)) : Prop where
  /-- Without spacing it is drawn whole, and nothing is measured. -/
  whole : (run.spacing == 0.0) = true → entries = [.call (use.call run.text run.origin)]
  /-- With spacing each character is drawn and then measured. -/
  spaced : (run.spacing == 0.0) = false →
    entries = (run.pieces (run.glyphs.map m)).flatMap (Piece.entries use.call)
  length : (run.spacing == 0.0) = false → entries.length = 2 * run.text.length
  /-- Either way, what is drawn is the text. -/
  join : String.join (entries.filterMap Entry.drawn?) = run.text

theorem TextRun.drawn_whole {run : TextRun} (h : (run.spacing == 0.0) = true) (use : TextUse)
    (m : String → Float) :
    run.Drawn use m [(.call (use.call run.text run.origin) : Entry N)] where
  whole _ := rfl
  spaced hspaced := by rw [h] at hspaced; cases hspaced
  length hspaced := by rw [h] at hspaced; cases hspaced
  join := by
    rw [List.filterMap_cons_some (use.drawn?_call run.text run.origin), List.filterMap_nil,
      String.join_cons, String.join_nil, String.append_empty]

theorem TextRun.drawn_spaced {run : TextRun} (h : (run.spacing == 0.0) = false) (use : TextUse)
    (m : String → Float) :
    run.Drawn use m
      ((run.pieces (run.glyphs.map m)).flatMap (Piece.entries use.call) : List (Entry N)) := by
  have htexts : (run.pieces (run.glyphs.map m)).map Piece.text = run.glyphs :=
    map_text_layOut run.spacing run.origin (List.length_map m)
  exact {
    whole := fun hwhole => by rw [h] at hwhole; cases hwhole
    spaced := fun _ => rfl
    length := fun _ => by
      rw [Piece.length_flatMap_entries, ← List.length_map Piece.text, htexts, run.length_glyphs]
    join := by rw [use.filterMap_drawn?, htexts, run.join_glyphs] }

/-- Text is drawn as its spacing says. On any surface that measures every text by itself, a run
    without spacing is one call, and any other is drawn character by character, with a
    measurement behind each; the pen moves by what was measured and the spacing. On a recorder
    every such call is an event with the state as it was, and each character advances the pen
    by half the size of the font. -/
theorem TextUse.draws_text (use : TextUse) (run : TextRun) (scale : Float) :
    ((run.spacing == 0.0) = true ↔ run.spacing = 0.0 ∨ run.spacing = -0.0) ∧
    (∀ {σ N : Type} [Surface σ N] (m : String → Float),
      (∀ (surface : σ) (text : String), (Surface.measure surface text).1 = m text) →
      ∀ traced : Traced σ N,
        ((use.op run).apply scale traced).surface = (use.op run).apply scale traced.surface ∧
        ∃ added, ((use.op run).apply scale traced).entries = traced.entries ++ added ∧
          run.Drawn use m added) ∧
    ∀ {P : Type} (r : Recorder P),
      ((run.spacing == 0.0) = true →
        (use.op run).apply scale r =
          { r with events := r.events ++ [⟨use.action run.text run.origin, r.state⟩] }) ∧
      ((run.spacing == 0.0) = false →
        (use.op run).apply scale r =
          { r with
            events := r.events ++
              (run.pieces (run.glyphs.map fun _ => 1.0 * r.state.font.size * 0.5)).map
                fun piece => ⟨use.action piece.text piece.pen, r.state⟩ }) := by
  refine ⟨beq_zero_iff run.spacing, ?_, ?_⟩
  · intro σ N _ m hm traced
    refine ⟨Traced.simulates_surface.foldl_apply scale traced [use.op run], ?_⟩
    rw [use.op_apply]
    cases hspacing : run.spacing == 0.0 with
    | true =>
      rw [drawText_whole traced hspacing]
      exact ⟨_, rfl, run.drawn_whole hspacing use m⟩
    | false =>
      rw [drawText_spaced traced hspacing]
      obtain ⟨widths, hwidths, hentries⟩ :=
        Traced.exists_entries_drawSpaced (A := fun text width => m text = width)
          (fun surface text => (hm surface text).symm) use.call run.spacing traced run.origin
          run.text.toList
      -- The answers are known, so there is one list of widths only.
      rw [← List.forall₂_map_left_iff, List.forall₂_eq_eq_eq] at hwidths
      subst hwidths
      exact ⟨_, hentries, run.drawn_spaced hspacing use m⟩
  · intro P r
    refine ⟨?_, ?_⟩
    · intro hwhole
      rw [use.op_apply, drawText_whole r hwhole]
      exact r.perform_call use run.text run.origin
    · intro hspaced
      rw [use.op_apply, drawText_spaced r hspaced, r.drawSpaced_eq]
      unfold TextRun.pieces TextRun.glyphs
      rw [List.map_map]
      rfl

/-- Two characters of one and of two bytes, with a spacing that is not a number. -/
def adrift : TextRun := ⟨"aé", ⟨1.0, 2.0⟩, 0.0 / 0.0⟩

/-- No text, with a negative zero for its spacing. -/
def blank : TextRun := ⟨"", ⟨3.0, 4.0⟩, -0.0⟩

/-- Nothing, on a surface where each byte advances the pen by eight. -/
def untold : Traced (Steady (byteAdvance 8.0) Nat) Nat := { surface := {} }

/-- A spacing that is not a number is a spacing, a negative zero is none, and a font of size ten
    advances the pen by five. -/
theorem TextUse.draws_text_adrift :
    ((TextUse.fill.op adrift).apply 2.0 untold).entries =
      [.call (.fillText "a" ⟨1.0, 2.0⟩), .measured "a" 8.0,
        .call (.fillText "é" ⟨0.0 / 0.0, 2.0⟩), .measured "é" 16.0] ∧
    ((TextUse.stroke.op blank).apply 2.0 untold).entries =
      [.call (.strokeText "" ⟨3.0, 4.0⟩)] ∧
    ((TextUse.stroke.op ⟨"ab", ⟨1.0, 2.0⟩, 0.5⟩).apply 2.0 Recorder.fresh).events =
      [⟨.strokeText "a" ⟨1.0, 2.0⟩, .initial⟩, ⟨.strokeText "b" ⟨6.5, 2.0⟩, .initial⟩] := by
  have hmeasure : ∀ (surface : Steady (byteAdvance 8.0) Nat) (text : String),
      (Surface.measure surface text).1 = byteAdvance 8.0 text := fun _ _ => rfl
  obtain ⟨-, hadrift, -⟩ := TextUse.fill.draws_text adrift 2.0
  obtain ⟨-, hblank, -⟩ := TextUse.stroke.draws_text blank 2.0
  obtain ⟨-, -, hrecorder⟩ := TextUse.stroke.draws_text ⟨"ab", ⟨1.0, 2.0⟩, 0.5⟩ 2.0
  obtain ⟨-, spaced, hspaced, hdrawn⟩ := hadrift (byteAdvance 8.0) hmeasure untold
  obtain ⟨-, whole, hwhole, hdrawn'⟩ := hblank (byteAdvance 8.0) hmeasure untold
  refine ⟨?_, ?_, ?_⟩
  · rw [hspaced, hdrawn.spaced (by decide)]
    decide +kernel
  · rw [hwhole, hdrawn'.whole (by decide)]
    rfl
  · rw [(hrecorder Recorder.fresh).2 (by decide)]
    decide +kernel

end BatchDraw
