/-
  BatchDraw.Proofs.Canvas.Translation

  What a host is told.

  Whatever a canvas is told to do, it tells its host in a fixed translation, which
  depends on that call alone (`told`). It asks its host one question only, how far a
  text advances the pen, and the answer may depend on all that the host was told
  before.

  So a listing that is given the answers of the host lists just what the host is told,
  before it is translated (`Lists`). Calls and measurements keep it so, and with them a
  pass does; what is left is to see which batch the buffers hold.
-/
import BatchDraw.Canvas.Buffers
import BatchDraw.Proofs.Canvas.Context
import BatchDraw.Proofs.Surface.Relating
import BatchDraw.Surface.Listing

namespace BatchDraw

namespace Canvas

/-! ## The translation -/

/-- What a host is told of a paint. The style of fills comes first. -/
def toldPaint (paint : HostValue) : List HostCall :=
  [.set (.fillStyle paint), .set (.strokeStyle paint)]

/-- What a host is told of a stroke style. A miter limit is told only if there is one. -/
def toldStroke (style : StrokeStyle) : List HostCall :=
  match style.miterLimit with
  | none =>
    [.set (.lineWidth style.width), .set (.lineCap (capWord style.cap)),
      .set (.lineJoin (joinWord style.join)), .setLineDash style.dash,
      .set (.lineDashOffset style.dashOffset)]
  | some limit =>
    [.set (.lineWidth style.width), .set (.lineCap (capWord style.cap)),
      .set (.lineJoin (joinWord style.join)), .set (.miterLimit limit), .setLineDash style.dash,
      .set (.lineDashOffset style.dashOffset)]

/-- What a host is told for one call. A thing that cannot serve as what it should be leaves
    nothing to tell. -/
def told : Call HostValue → List HostCall
  | .setFont (.string css) => [.set (.font css)]
  | .setFont _ => []
  | .setPaint (.string css) => toldPaint (.string css)
  | .setPaint (.object o) =>
    if o.cls = .gradient ∨ o.cls = .pattern then toldPaint (.object o) else []
  | .setPaint _ => []
  | .setStroke style => toldStroke style
  | .setOpacity alpha => [.set (.globalAlpha alpha)]
  | .setSmoothing smoothing =>
    [.set (.imageSmoothingEnabled smoothing.enabled),
      .set (.imageSmoothingQuality (qualityWord smoothing.quality))]
  | .setTransform m => [.setTransform m]
  | .transform m => [.transform m]
  | .save => [.save]
  | .restore => [.restore]
  | .beginPath => [.beginPath]
  | .addSegment (.moveTo p) => [.moveTo p]
  | .addSegment (.lineTo p) => [.lineTo p]
  | .addSegment (.curveTo p q r) => [.bezierCurveTo p q r]
  | .addSegment .close => [.closePath]
  | .addRect ⟨x0, y0, x1, y1⟩ => [.rect ⟨x0, y0, x1 - x0, y1 - y0⟩]
  | .stroke => [.stroke]
  | .fill => [.fill]
  | .clip => [.clip]
  | .clearRect ⟨x0, y0, x1, y1⟩ => [.clearRect ⟨x0, y0, x1 - x0, y1 - y0⟩]
  | .drawImage (.object o) origin =>
    if o.cls = .image ∨ o.cls = .canvas ∨ o.cls = .bitmap then [.drawImage o origin] else []
  | .drawImage _ _ => []
  | .drawImageRect (.object o) ⟨sx0, sy0, sx1, sy1⟩ ⟨tx0, ty0, tx1, ty1⟩ =>
    if o.cls = .image ∨ o.cls = .canvas ∨ o.cls = .bitmap then
      [.drawImageFrame o ⟨sx0, sy0, sx1 - sx0, sy1 - sy0⟩ ⟨tx0, ty0, tx1 - tx0, ty1 - ty0⟩]
    else []
  | .drawImageRect _ _ _ => []
  | .fillText text origin => [.fillText text origin]
  | .strokeText text origin => [.strokeText text origin]

/-- What a host is told for one entry of a listing. -/
def toldEntry : Entry HostValue → List HostCall
  | .call call => told call
  | .measured text _ => [.measureText text]

/-- What a host is told for a whole listing. -/
def toldAll (entries : List (Entry HostValue)) : List HostCall :=
  entries.flatMap toldEntry

theorem toldAll_concat (entries : List (Entry HostValue)) (entry : Entry HostValue) :
    toldAll (entries ++ [entry]) = toldAll entries ++ toldEntry entry := by
  unfold toldAll
  rw [List.flatMap_append, List.flatMap_singleton]

/-! ## One call -/

theorem strokeCalls_eq (style : StrokeStyle) : strokeCalls style = toldStroke style := by
  unfold strokeCalls toldStroke
  rw [keyword_cap, keyword_join]
  cases style.miterLimit <;> rfl

/-- What serves as a paint is told as such, and nothing else is. -/
theorem calls_setPaint (c : Canvas) (paint : HostValue) :
    (c.setPaint paint).calls = c.calls ++ told (.setPaint paint) := by
  have htold : ∀ value,
      ((c.tell (.set (.fillStyle value))).tell (.set (.strokeStyle value))).calls =
        c.calls ++ toldPaint value := fun value => List.append_assoc c.calls _ _
  cases paint with
  | string css => exact htold (.string css)
  | object o =>
    obtain ⟨cls, id, broken⟩ := o
    cases cls with
    | gradient => exact htold (.object ⟨.gradient, id, broken⟩)
    | pattern => exact htold (.object ⟨.pattern, id, broken⟩)
    | image | canvas | bitmap | other _ => exact (List.append_nil c.calls).symm
  | null | undefined | number _ | boolean _ | numbers _ => exact (List.append_nil c.calls).symm

/-- Whether drawing fails or not, the host is told of it. -/
theorem calls_drawImage (c : Canvas) (image : HostValue) (call : HostObject → HostCall) :
    (c.drawImage image call).calls = c.calls ++ (image.drawable?.map call).toList := by
  unfold drawImage
  cases image.drawable? with
  | none => exact (List.append_nil c.calls).symm
  | some object =>
    simp only
    split <;> rfl

/-- Nothing but an image, a canvas or a bitmap can be drawn. -/
theorem toList_drawable? (image : HostValue) (call : HostObject → HostCall) :
    (image.drawable?.map call).toList =
      match image with
      | .object o =>
        if o.cls = .image ∨ o.cls = .canvas ∨ o.cls = .bitmap then [call o] else []
      | _ => [] := by
  cases image with
  | object o =>
    obtain ⟨cls, id, broken⟩ := o
    cases cls <;> rfl
  | _ => rfl

/-- A canvas tells its host the translation of what it is told. -/
theorem calls_perform (c : Canvas) (call : Call HostValue) :
    (c.perform call).calls = c.calls ++ told call := by
  cases call with
  | setFont font =>
    cases font with
    | string css => rfl
    | _ => exact (List.append_nil c.calls).symm
  | setPaint paint => exact c.calls_setPaint paint
  | setStroke style =>
    show (c.tellAll (strokeCalls style)).calls = c.calls ++ toldStroke style
    rw [tellAll_eq, strokeCalls_eq]
  | setSmoothing smoothing =>
    show (c.tellAll _).calls = _
    rw [tellAll_eq, keyword_quality]
    rfl
  | addSegment segment => cases segment <;> rfl
  | drawImage image origin =>
    have hdrawn := c.calls_drawImage image (.drawImage · origin)
    rw [toList_drawable?] at hdrawn
    refine hdrawn.trans ?_
    cases image <;> rfl
  | drawImageRect image source target =>
    have hdrawn := c.calls_drawImage image (.drawImageFrame · source.toFrame target.toFrame)
    rw [toList_drawable?] at hdrawn
    refine hdrawn.trans ?_
    cases image <;> rfl
  | _ => rfl

/-- A canvas keeps its host. -/
theorem host_perform (c : Canvas) (call : Call HostValue) : (c.perform call).host = c.host := by
  cases call with
  | setFont font => cases font <;> rfl
  | setPaint paint =>
    show (c.setPaint paint).host = c.host
    unfold setPaint
    split <;> rfl
  | setStroke style =>
    show (c.tellAll (strokeCalls style)).host = c.host
    rw [tellAll_eq]
  | drawImage image origin | drawImageRect image source target =>
    show (c.drawImage image _).host = c.host
    unfold drawImage
    cases image.drawable? with
    | none => rfl
    | some object =>
      simp only
      split <;> rfl
  | _ => rfl

/-! ## Passes -/

/-- The advance of a text on a host that was told these calls; nothing, if the host cannot
    tell. -/
def Host.advance (host : Host) (calls : List HostCall) (text : String) : Float :=
  if host.fails calls (.measureText text) then 0.0 else host.width calls text

/-- An empty listing that is given the answers of the host of a canvas. -/
def listing (c : Canvas) : Listing HostValue where
  width entries text := c.host.advance (c.calls ++ toldAll entries) text

/-- Since it stood as `start` did, the host of the canvas was told what was listed. -/
structure Lists (start : Canvas) (l : Listing HostValue) (c : Canvas) : Prop where
  width : l.width = start.listing.width
  host : c.host = start.host
  calls : c.calls = start.calls ++ toldAll l.entries

theorem lists_listing (c : Canvas) : Lists c c.listing c :=
  ⟨rfl, rfl, (List.append_nil c.calls).symm⟩

/-- A listing and a canvas that are told the same stay together. -/
theorem relates_lists (start : Canvas) : Surface.Relates (fun _ => True) (Lists start) where
  perform := by
    intro l c call _ h
    refine ⟨h.width, (c.host_perform call).trans h.host, ?_⟩
    show (c.perform call).calls = _ ++ toldAll (l.entries ++ [.call call])
    rw [calls_perform, h.calls, toldAll_concat, List.append_assoc]
    rfl
  measure := by
    intro l c text h
    refine ⟨?_, ?_⟩
    · -- The host answers for what it was told; so does the listing.
      show c.host.advance c.calls text = l.width l.entries text
      rw [h.host, h.calls, h.width]
      rfl
    · refine ⟨h.width, h.host, ?_⟩
      show c.calls ++ [.measureText text] = _ ++ toldAll (l.entries ++ [.measured text _])
      rw [h.calls, toldAll_concat, List.append_assoc]
      rfl

namespace Buffers

/-- The batch that the counted instructions and the other buffers make. Where the host gives
    null or undefined, the batch refers to nothing. -/
def referred (buffers : Buffers) : Batch HostValue where
  tags := buffers.tags.take buffers.count
  ints := buffers.ints
  reals := buffers.reals
  texts := buffers.texts
  natives := buffers.natives.map fun value =>
    if value = .null ∨ value = .undefined then none else some value

theorem reference_eq (value : HostValue) :
    value.reference = if value = .null ∨ value = .undefined then none else some value := by
  cases value <;> rfl

theorem batch_eq (buffers : Buffers) :
    buffers.batch =
      if buffers.count ≤ buffers.tags.length then .ok buffers.referred
      else .error (.countOutOfRange buffers.count buffers.tags.length) := by
  rw [batch, funext reference_eq]
  rfl

/-- Drawing buffers is the pass of the batch in them, seen through the translation. A count
    beyond the instructions, or an error in the batch, is answered by its text, and the host
    is told nothing. Else drawing succeeds, and what the host is told is the translation,
    entry by entry, of what the pass lists, when texts advance the pen as the host says. -/
theorem paint_translates (buffers : Buffers) (scale : Float) (c : Canvas) :
    (buffers.tags.length < buffers.count →
      buffers.paint scale c =
        (.error (.string
          (WireError.countOutOfRange buffers.count buffers.tags.length).message), c)) ∧
    (buffers.count ≤ buffers.tags.length →
      (∀ e, buffers.referred.decode .skip = .error e →
        buffers.paint scale c = (.error (.string e.message), c)) ∧
      ∀ p, buffers.referred.decode .skip = .ok p →
        (buffers.paint scale c).1 = .ok () ∧
        (buffers.paint scale c).2.calls =
          c.calls ++ toldAll (buffers.referred.paint ⟨scale, .skip⟩ c.listing).2.entries) := by
  refine ⟨?_, ?_⟩
  · intro hcount
    rw [paint, batch_eq, if_neg (by omega)]
  · intro hcount
    have hbatch : buffers.batch = .ok buffers.referred := by
      rw [batch_eq, if_pos hcount]
    refine ⟨?_, ?_⟩
    · intro e he
      have hpass : buffers.referred.paint ⟨scale, .skip⟩ c = (.error e, c) :=
        Batch.paint_of_decode_eq_error c he
      simp only [paint, hbatch, hpass]
    · intro p hp
      have hpass : buffers.referred.paint ⟨scale, .skip⟩ c =
          (.ok (.ofProgram p), replay scale c p.ops) := Batch.paint_of_decode_eq_ok c hp
      obtain ⟨-, hlists⟩ := (relates_lists c).paint c.lists_listing buffers.referred ⟨scale, .skip⟩
      rw [hpass] at hlists
      simp only [paint, hbatch, hpass]
      exact ⟨trivial, hlists.calls⟩

/-- A paint, a number where a font should be, a stroke style, a level of smoothing, two images
    that are not there, a spaced text, an unknown tag, and a tag that does not count. -/
def patchwork : Buffers where
  tags := [2, 1, 3, 17, 8, 9, 10, 99, 6]
  count := 8
  ints := [0, 1, 2]
  reals :=
    [3.0, 4.0, 0.5, 0.0, 0.0, 8.0, 8.0, 1.0, 1.0, 4.0, 4.0, 1.0, 0.0, 0.0, 1.0, 5.0, 6.0, 1.0,
      2.0, 0.5]
  texts := ["ab"]
  natives := [.string "red", .number 3.0, .null, .undefined]

/-- One fill, whose shape is missing. -/
def shapeless : Buffers where
  tags := [6]
  count := 1
  ints := []
  reals := []
  texts := []
  natives := []

/-- The patchwork with more instructions counted than there are. -/
def overcounted : Buffers := { patchwork with count := 10 }

/-- A canvas on a host on which everything fails. -/
def onFailingHost : Canvas := { host := .steady (byteAdvance 8.0) true }

/-- What a host is told of the patchwork, when it cannot measure a text. -/
def patchworkCalls : List HostCall :=
  [.setTransform ⟨2.0, 0.0, 0.0, 2.0, 0.0, 0.0⟩, .set (.fillStyle (.string "red")),
    .set (.strokeStyle (.string "red")), .set (.lineWidth 3.0), .set (.lineCap "butt"),
    .set (.lineJoin "miter"), .set (.miterLimit 4.0), .setLineDash [],
    .set (.lineDashOffset 0.0), .set (.imageSmoothingEnabled true),
    .set (.imageSmoothingQuality "medium"), .save, .setTransform ⟨2.0, 0.0, 0.0, 2.0, 5.0, 6.0⟩,
    .restore, .fillText "a" ⟨1.0, 2.0⟩, .measureText "a", .fillText "b" ⟨1.5, 2.0⟩,
    .measureText "b"]

/-- The patchwork is drawn even on a host that fails, where no text has an advance. A fill
    without a shape is not drawn, and no more instructions than there are can count. -/
theorem paint_translates_patchwork :
    (patchwork.paint 2.0 onFailingHost).1 = .ok () ∧
    (patchwork.paint 2.0 onFailingHost).2.calls = patchworkCalls ∧
    shapeless.paint 2.0 onFailingHost =
      (.error (.string
        "int stack exhausted at index 0 while decoding fill-shape (instruction 0)"),
        onFailingHost) ∧
    overcounted.paint 2.0 onFailingHost =
      (.error (.string "instruction count 10 exceeds instruction buffer length 9"),
        onFailingHost) := by
  have hread : (patchwork.referred.decode .skip).toOption.isSome = true := by
    decide +kernel
  have hlisted : toldAll (patchwork.referred.paint ⟨2.0, .skip⟩ onFailingHost.listing).2.entries =
      patchworkCalls := by
    decide +kernel
  have hmissing : shapeless.referred.decode .skip = .error (.underflow .int 0 0 .fillShape) := rfl
  have hunderflow : (WireError.underflow .int 0 0 .fillShape).message =
      "int stack exhausted at index 0 while decoding fill-shape (instruction 0)" := by
    decide +kernel
  have hcount : (WireError.countOutOfRange overcounted.count overcounted.tags.length).message =
      "instruction count 10 exceeds instruction buffer length 9" := by
    decide +kernel
  obtain ⟨-, hpatchwork⟩ := patchwork.paint_translates 2.0 onFailingHost
  obtain ⟨-, hshapeless⟩ := shapeless.paint_translates 2.0 onFailingHost
  obtain ⟨hovercounted, -⟩ := overcounted.paint_translates 2.0 onFailingHost
  cases hdecode : patchwork.referred.decode .skip with
  | error e =>
    rw [hdecode] at hread
    cases hread
  | ok p =>
    obtain ⟨hok, hcalls⟩ := (hpatchwork (by decide)).2 p hdecode
    rw [hlisted] at hcalls
    have hrefused := (hshapeless (by decide)).1 _ hmissing
    have hbeyond := hovercounted (by decide)
    rw [hunderflow] at hrefused
    rw [hcount] at hbeyond
    exact ⟨hok, hcalls, hrefused, hbeyond⟩

end Buffers

end Canvas

end BatchDraw
