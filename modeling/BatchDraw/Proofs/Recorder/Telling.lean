/-
  BatchDraw.Proofs.Recorder.Telling

  What a pass tells about itself.

  The lines of drawing are found by looking at the recorder between the operations. But what
  a recorder ignores does not depend on its state: each operation has its own mismatches,
  those of the thing that it refers to (`mismatches_apply`). So the lines can be written
  down from the operations alone, one line for each with its mismatches behind it, and the
  recorder that is told of at the end is the one that the operations leave
  (`drawTelling_eq`).

  What is printed of the lines is written out here once more, word by word, for the
  operations, the notices, the mismatches and the report.
-/
import BatchDraw.Recorder.Diagnostics
import BatchDraw.Proofs.Recorder.Shapes
import BatchDraw.Proofs.Wire.Noticing

namespace BatchDraw

open Surface

namespace Recorder

variable {P : Type}

/-! ## Mismatches -/

/-- What is ignored where a thing of a certain kind is expected. -/
def mismatchesOf (expected : NativeKind) (thing : Native P) : List Mismatch :=
  if thing.kind = expected then [] else [⟨expected, thing.kind⟩]

/-- The mismatches that a call leaves. -/
def callMismatches : Call (Native P) → List Mismatch
  | .setFont thing => mismatchesOf .font thing
  | .setPaint thing => mismatchesOf .paint thing
  | .drawImage thing _ | .drawImageRect thing _ _ => mismatchesOf .image thing
  | _ => []

/-- The mismatches that an operation leaves: those of the thing that it refers to, if there
    is one. -/
def opMismatches : Op (Native P) → List Mismatch
  | .setFont font => font.toList.flatMap (mismatchesOf .font)
  | .setPaint paint => paint.toList.flatMap (mismatchesOf .paint)
  | .drawImageRect image _ _ | .drawImage image _ => image.toList.flatMap (mismatchesOf .image)
  | _ => []

theorem mismatches_perform (r : Recorder P) (call : Call (Native P)) :
    (r.perform call).mismatches = r.mismatches ++ callMismatches call := by
  have hnone : r.mismatches = r.mismatches ++ [] := (List.append_nil _).symm
  cases call with
  | setFont thing | setPaint thing | drawImage thing _ | drawImageRect thing _ _ =>
    -- A thing of the expected kind leaves an event instead.
    cases thing <;> first | rfl | exact hnone
  | restore =>
    show r.restore.mismatches = _
    unfold restore
    split <;> exact hnone
  | _ => exact hnone

theorem mismatches_performAll (r : Recorder P) (calls : List (Call (Native P))) :
    (performAll r calls).mismatches = r.mismatches ++ calls.flatMap callMismatches := by
  induction calls generalizing r with
  | nil => exact (List.append_nil _).symm
  | cons call calls ih =>
    have hcall : (Surface.perform r call).mismatches = r.mismatches ++ callMismatches call :=
      mismatches_perform r call
    rw [performAll_cons, ih, hcall, List.append_assoc, List.flatMap_cons]

/-- Building a path leaves no mismatch. -/
theorem mismatches_drawShape (r : Recorder P) (shape : Shape) (draw : Call (Native P)) :
    (drawShape r shape draw).mismatches = r.mismatches ++ callMismatches draw := by
  rw [drawShape_eq_perform]
  exact mismatches_perform _ draw

/-- Calls that leave no mismatch keep them, and so does measuring. -/
theorem keeps_mismatches (mismatches : List Mismatch) :
    Keeps (fun call : Call (Native P) => callMismatches call = [])
      fun r : Recorder P => r.mismatches = mismatches where
  perform := by
    intro r call hcall h
    have hperform := mismatches_perform r call
    rw [hcall, List.append_nil, h] at hperform
    exact hperform
  measure _ h := h

/-- What an operation leaves does not depend on the recorder. -/
theorem mismatches_apply (scale : Float) (r : Recorder P) (op : Op (Native P)) :
    (op.apply scale r).mismatches = r.mismatches ++ opMismatches op := by
  have hnone : r.mismatches = r.mismatches ++ [] := (List.append_nil _).symm
  cases op with
  | setFont thing =>
    cases thing with
    | none => exact hnone
    | some thing => exact mismatches_performAll r [.setFont thing]
  | setPaint thing =>
    cases thing with
    | none => exact hnone
    | some thing => exact mismatches_performAll r [.setPaint thing]
  | drawImageRect thing source target =>
    cases thing with
    | none => exact hnone
    | some thing => exact mismatches_performAll r [.drawImageRect thing source target]
  | drawImage thing m =>
    -- The bracket around the image leaves no mismatch.
    have hcalls := mismatches_performAll r
      ([.save, .setTransform (m.scaleDiagonal scale)] ++
        thing.toList.map (Call.drawImage · .origin) ++ [.restore])
    cases thing with
    | none => exact hcalls
    | some thing => exact hcalls
  | strokeShape shape => exact mismatches_drawShape r shape .stroke
  | fillShape shape => exact mismatches_drawShape r shape .fill
  | clipShape shape => exact mismatches_drawShape r shape .clip
  | fillText run | strokeText run =>
    exact ((keeps_mismatches r.mismatches).drawText run (fun _ _ => rfl) rfl).trans hnone
  | setStroke _ | setOpacity _ | transform _ | setTransform _ | save | restore | clearRect _
  | setImageQuality _ => exact mismatches_perform r _

/-! ## What is printed -/

/-- The name of an operation. -/
def opWord {N : Type} : Op N → String
  | .setFont _ => "set-font"
  | .setPaint _ => "set-paint"
  | .setStroke _ => "set-stroke"
  | .setOpacity _ => "set-opacity"
  | .strokeShape _ => "stroke-shape"
  | .fillShape _ => "fill-shape"
  | .clipShape _ => "clip-shape"
  | .drawImageRect _ _ _ => "draw-image-rect"
  | .drawImage _ _ => "draw-image"
  | .fillText _ => "fill-text"
  | .strokeText _ => "stroke-text"
  | .transform _ => "transform"
  | .setTransform _ => "set-transform"
  | .save => "save"
  | .restore => "restore"
  | .clearRect _ => "clear-rect"
  | .setImageQuality _ => "set-image-quality"

theorem name_kind {N : Type} (op : Op N) : op.kind.name = opWord op := by
  cases op <;> rfl

/-- The name of an operand that is out of its range. -/
def operandWord : Operand → String
  | .dashCount => "dash count"
  | .lineCap => "line cap"
  | .lineJoin => "line join"
  | .segmentCount => "path op count"

/-- The name of a kind of thing. -/
def kindWord : NativeKind → String
  | .font => "font"
  | .paint => "paint"
  | .image => "image"

/-- What is printed of a notice: the number that was passed over, and where. -/
def printedNotice : Notice → Printed
  | .unknownOp tag position =>
    ⟨.warn, "unknown instruction; skipping", [("tag", .int tag), ("instruction", .count position)]⟩
  | .unknownSegment tag position =>
    ⟨.warn, "unknown path operation; skipping",
      [("tag", .int tag), ("instruction", .count position)]⟩
  | .outOfRange operand value position =>
    ⟨.warn, "out-of-range operand; using fallback",
      [("what", .text (operandWord operand)), ("value", .int value),
        ("instruction", .count position)]⟩

/-- What is printed of a mismatch: the kind of thing that was ignored. -/
def printedMismatch : Mismatch → Printed
  | ⟨.font, found⟩ => ⟨.warn, "expected a font native", [("kind", .text (kindWord found))]⟩
  | ⟨.paint, found⟩ => ⟨.warn, "expected a paint native", [("kind", .text (kindWord found))]⟩
  | ⟨.image, found⟩ => ⟨.warn, "expected an image native", [("kind", .text (kindWord found))]⟩

/-- What is printed of an operation at an index: its name, and what was ignored of it. -/
def printedOp (op : Op (Native P)) (index : Nat) : List Printed :=
  ⟨.trace, "replay", [("index", .count index), ("opcode", .text (opWord op))]⟩ ::
    (opMismatches op).map printedMismatch

/-- What is printed of a report. -/
def printedReport (report : Report) : Printed where
  level := .debug
  message := "paint pass finished"
  fields :=
    [("ops", .count report.ops), ("skipped_opcodes", .count report.stats.skippedOps),
      ("skipped_path_ops", .count report.stats.skippedSegments),
      ("leftover_ints", .count report.stats.remaining.ints),
      ("leftover_reals", .count report.stats.remaining.reals),
      ("leftover_texts", .count report.stats.remaining.texts),
      ("leftover_natives", .count report.stats.remaining.natives)]

theorem print_notice (notice : Notice) : (Line.notice notice).print = printedNotice notice := by
  cases notice with
  | unknownOp tag position | unknownSegment tag position => rfl
  | outOfRange operand value position => cases operand <;> rfl

theorem print_mismatch (m : Mismatch) : (Line.mismatch m).print = printedMismatch m := by
  obtain ⟨expected, found⟩ := m
  cases expected <;> cases found <;> rfl

/-! ## Lines -/

/-- What is printed of the lines of reading, and of what follows them. -/
theorem print_opening (scale : Float) (instructions : Nat) (notices : List Notice)
    (rest : List Line) :
    (Line.started scale instructions :: (notices.map .notice ++ rest)).map Line.print =
      ⟨.debug, "paint_stacks",
        [("device_scale", .real scale), ("instructions", .count instructions)]⟩ ::
          (notices.map printedNotice ++ rest.map Line.print) := by
  have hnotices : notices.map (Line.print ∘ .notice) = notices.map printedNotice :=
    List.map_congr_left fun notice _ => print_notice notice
  rw [List.map_cons, List.map_append, List.map_map, hnotices]
  rfl

/-- The lines of an operation at an index: that it is drawn, and what was ignored of it. -/
def opLines (op : Op (Native P)) (index : Nat) : List Line :=
  .drawing index op.kind :: (opMismatches op).map .mismatch

theorem print_opLines (op : Op (Native P)) (index : Nat) :
    (opLines op index).map Line.print = printedOp op index := by
  rw [opLines, printedOp, List.map_cons, List.map_map, ← name_kind]
  exact congrArg _ (List.map_congr_left fun m _ => print_mismatch m)

/-- What is printed of the lines of operations, and of the report behind them. -/
theorem print_drawing (ops : List (Op (Native P))) (report : Report) :
    List.map Line.print ((ops.zipIdx.flatMap fun (op, index) => opLines op index) ++
        [.finished report]) =
      (ops.zipIdx.flatMap fun (op, index) => printedOp op index) ++ [printedReport report] := by
  rw [List.map_append, List.map_flatMap]
  simp only [print_opLines]
  rfl

/-- Drawing tells of the operations one by one, in order, and leaves what they leave when
    nothing is told. -/
theorem drawTelling_eq (scale : Float) (index : Nat) (r : Recorder P)
    (ops : List (Op (Native P))) :
    drawTelling scale index r ops =
      ((ops.zipIdx index).flatMap fun (op, index) => opLines op index,
        ops.foldl (Op.apply scale) r) := by
  induction ops generalizing index r with
  | nil => rfl
  | cons op ops ih =>
    -- What is new behind the operation is what was added to the mismatches.
    have hnew : (op.apply scale r).mismatches.drop r.mismatches.length = opMismatches op := by
      rw [mismatches_apply, List.drop_left]
    rw [drawTelling, hnew, ih, List.zipIdx_cons, List.flatMap_cons]
    rfl

/-! ## Passes -/

section Passes

variable {b : Batch (Native P)} {options : Options}

/-- Of a pass that fails nothing is told but the notices of reading. -/
theorem paintTelling_of_decode_eq_error (r : Recorder P) {e : WireError}
    (h : b.decode options.policy = .error e) :
    r.paintTelling b options =
      (.started options.scale b.length :: (b.notices options.policy).map .notice,
        .error e, r) := by
  simp only [paintTelling, h]

theorem paintTelling_of_decode_eq_ok (r : Recorder P) {p : Program (Native P)}
    (h : b.decode options.policy = .ok p) :
    r.paintTelling b options =
      (.started options.scale b.length :: ((b.notices options.policy).map .notice ++
          ((p.ops.zipIdx.flatMap fun (op, index) => opLines op index) ++
            [.finished (.ofProgram p)])),
        .ok (.ofProgram p), replay options.scale r p.ops) := by
  simp only [paintTelling, h, drawTelling_eq, List.cons_append, List.append_assoc]
  rfl

/-- Telling of a pass changes nothing of it. -/
theorem paintTelling_snd (r : Recorder P) (b : Batch (Native P)) (options : Options) :
    (r.paintTelling b options).2 = b.paint options r := by
  cases hdecode : b.decode options.policy with
  | error e =>
    rw [paintTelling_of_decode_eq_error r hdecode, Batch.paint_of_decode_eq_error r hdecode]
  | ok p => rw [paintTelling_of_decode_eq_ok r hdecode, Batch.paint_of_decode_eq_ok r hdecode]

end Passes

/-- A pass tells what comes of it, and telling changes nothing of it. First come the notices of
    reading: none from the strict reader, and from the tolerant one those due for as much of the
    tags and of the integers as was read. Behind the notices of a pass that fails nothing
    follows. A pass that is made goes on with the lines of its operations, which are counted
    from zero and each followed by its own mismatches, and ends with the report that it
    returns; and as many unknown tags were noticed as the report says were passed over. Each
    line is printed with its values: a notice with the number and where it stands, an operation
    with its index and its name, and the report with its counts. -/
theorem passLines_tell (r : Recorder P) (b : Batch (Native P)) (options : Options) :
    (r.paintTelling b options).2 = b.paint options r ∧
    ∃ rest,
      passLines r b options =
        .started options.scale b.length ::
          ((b.notices options.policy).map .notice ++ rest) ∧
      (passLines r b options).map Line.print =
        ⟨.debug, "paint_stacks",
          [("device_scale", .real options.scale), ("instructions", .count b.length)]⟩ ::
            ((b.notices options.policy).map printedNotice ++ rest.map Line.print) ∧
      (options.policy = .reject → b.notices options.policy = []) ∧
      (options.policy = .skip → b.notices options.policy =
        Notice.due 0 (b.tags.take (Decoder.last b .skip).stats.consumed.tags)
          (b.ints.take (Decoder.last b .skip).stats.consumed.ints)) ∧
      (∀ e, (b.paint options r).1 = .error e → rest = []) ∧
      ∀ report, (b.paint options r).1 = .ok report →
        report.stats = (Decoder.last b options.policy).stats ∧
        (∃ p, b.decode options.policy = .ok p ∧ p.ops.length = report.ops ∧
          rest = (p.ops.zipIdx.flatMap fun (op, index) => opLines op index) ++
            [.finished report] ∧
          rest.map Line.print =
            (p.ops.zipIdx.flatMap fun (op, index) => printedOp op index) ++
              [printedReport report]) ∧
        (b.notices options.policy).countP Notice.isUnknownOp = report.stats.skippedOps ∧
        (b.notices options.policy).countP Notice.isUnknownSegment =
          report.stats.skippedSegments := by
  refine ⟨paintTelling_snd r b options, ?_⟩
  have hstrict : options.policy = .reject → b.notices options.policy = [] := by
    intro hpolicy
    rw [hpolicy]
    exact b.notices_reject
  have htolerant : options.policy = .skip → b.notices options.policy =
      Notice.due 0 (b.tags.take (Decoder.last b .skip).stats.consumed.tags)
        (b.ints.take (Decoder.last b .skip).stats.consumed.ints) := by
    intro hpolicy
    rw [hpolicy]
    exact b.notices_skip
  cases hdecode : b.decode options.policy with
  | error e =>
    have hlines : passLines r b options =
        .started options.scale b.length :: ((b.notices options.policy).map .notice ++ []) := by
      rw [passLines, paintTelling_of_decode_eq_error r hdecode, List.append_nil]
    rw [Batch.paint_of_decode_eq_error r hdecode]
    refine ⟨[], hlines, ?_, hstrict, htolerant, fun _ _ => rfl, ?_⟩
    · rw [hlines, print_opening]
    · intro report hreport
      cases hreport
  | ok p =>
    have hskipped := Batch.skipped_of_decode hdecode
    have hlines : passLines r b options =
        .started options.scale b.length :: ((b.notices options.policy).map .notice ++
          ((p.ops.zipIdx.flatMap fun (op, index) => opLines op index) ++
            [.finished (.ofProgram p)])) := by
      rw [passLines, paintTelling_of_decode_eq_ok r hdecode]
    rw [Batch.paint_of_decode_eq_ok r hdecode]
    refine ⟨_, hlines, ?_, hstrict, htolerant, ?_, ?_⟩
    · rw [hlines, print_opening]
    · intro e he
      cases he
    · intro report hreport
      cases hreport
      exact ⟨Batch.stats_of_decode hdecode, ⟨p, rfl, rfl, rfl, print_drawing p.ops _⟩,
        hskipped.1.symm, hskipped.2.symm⟩

/-- An unknown tag, a path with an unknown segment, a path of less than no segments, and an
    image in place of a font. -/
def muddled : Batch Native where
  tags := [99, 6, 5, 1]
  ints := [2, 9, 3, -5]
  natives := [some (.image ⟨8, 6⟩)]

/-- All of it is noticed while it is read, and the image when it is drawn. Without the
    reference the pass fails, and nothing is told but the notices. -/
theorem passLines_tell_muddled :
    passLines fresh muddled ⟨2.0, .skip⟩ =
      [.started 2.0 4, .notice (.unknownOp 99 0), .notice (.unknownSegment 9 1),
        .notice (.outOfRange .segmentCount (-5) 2), .drawing 0 .fillShape,
        .drawing 1 .strokeShape, .drawing 2 .setFont, .mismatch ⟨.font, .image⟩,
        .finished ⟨3, 1, 1, { tags := 4, ints := 4, natives := 1 }, .zero⟩] ∧
    (passLines fresh muddled ⟨2.0, .skip⟩).map Line.print =
      [⟨.debug, "paint_stacks", [("device_scale", .real 2.0), ("instructions", .count 4)]⟩,
        ⟨.warn, "unknown instruction; skipping", [("tag", .int 99), ("instruction", .count 0)]⟩,
        ⟨.warn, "unknown path operation; skipping", [("tag", .int 9), ("instruction", .count 1)]⟩,
        ⟨.warn, "out-of-range operand; using fallback",
          [("what", .text "path op count"), ("value", .int (-5)), ("instruction", .count 2)]⟩,
        ⟨.trace, "replay", [("index", .count 0), ("opcode", .text "fill-shape")]⟩,
        ⟨.trace, "replay", [("index", .count 1), ("opcode", .text "stroke-shape")]⟩,
        ⟨.trace, "replay", [("index", .count 2), ("opcode", .text "set-font")]⟩,
        ⟨.warn, "expected a font native", [("kind", .text "image")]⟩,
        ⟨.debug, "paint pass finished",
          [("ops", .count 3), ("skipped_opcodes", .count 1), ("skipped_path_ops", .count 1),
            ("leftover_ints", .count 0), ("leftover_reals", .count 0),
            ("leftover_texts", .count 0), ("leftover_natives", .count 0)]⟩] ∧
    passLines fresh { muddled with natives := [] } ⟨2.0, .skip⟩ =
      [.started 2.0 4, .notice (.unknownOp 99 0), .notice (.unknownSegment 9 1),
        .notice (.outOfRange .segmentCount (-5) 2)] := by
  have hdecode : muddled.decode (Options.mk 2.0 .skip).policy =
      .ok ⟨[.fillShape (.path [.close]), .strokeShape (.path []), .setFont (some (.image ⟨8, 6⟩))],
        ⟨1, 1, { tags := 4, ints := 4, natives := 1 }, .zero⟩⟩ := rfl
  have hfail : ({ muddled with natives := [] } : Batch Native).decode
      (Options.mk 2.0 .skip).policy = .error (.underflow .native 0 3 .setFont) := rfl
  obtain ⟨-, rest, hlines, hprinted, -, hnotices, -, hmade⟩ :=
    passLines_tell fresh muddled ⟨2.0, .skip⟩
  have hpaint := Batch.paint_of_decode_eq_ok fresh hdecode
  obtain ⟨-, ⟨p, hp, -, hrest, hdrawn⟩, -, -⟩ := hmade _ (congrArg Prod.fst hpaint)
  obtain rfl := Except.ok.inj (hp.symm.trans hdecode)
  refine ⟨?_, ?_, ?_⟩
  · rw [hlines, hnotices rfl, hrest]
    rfl
  · rw [hprinted, hnotices rfl, hdrawn]
    rfl
  · obtain ⟨-, rest, hlines, -, -, hnotices, hfails, -⟩ :=
      passLines_tell fresh { muddled with natives := [] } ⟨2.0, .skip⟩
    have hpaint := Batch.paint_of_decode_eq_error fresh hfail
    rw [hlines, hnotices rfl, hfails _ (congrArg Prod.fst hpaint)]
    rfl

end Recorder

end BatchDraw
