/-
  BatchDraw.Proofs.Canvas.Mirroring

  A context and a recorder on which the same is drawn.

  A recorder keeps the drawing state itself; a canvas leaves it to the context of its
  host. Both come to the same: what the canvas tells its host, read by a context that
  showed the state of the recorder before, leads to a context that shows the state of
  the recorder behind it, and so do the states put aside (`Context.Mirrors`).

  Most calls are quiet. Of what the two have in common they leave everything as it is,
  on either side, so it is of no matter that a font, a paint or an image is good for
  one of the two only, or that the characters of a text are drawn at other points.
  The other calls are told to both alike, and change both alike.
-/
import BatchDraw.Proofs.Canvas.Context
import BatchDraw.Proofs.Canvas.Translation
import BatchDraw.Proofs.Recorder.Brackets
import Mathlib.Algebra.GroupWithZero.Nat
import Mathlib.Data.List.Forall2

namespace BatchDraw

open Surface

/-! ## Operations on other surfaces -/

section Rebound

variable {M N : Type}

/-- The operation with this reference in place of its own, if it has one. -/
def Op.withNative (native : Option M) : Op N → Op M
  | setFont _ => .setFont native
  | setPaint _ => .setPaint native
  | setStroke style => .setStroke style
  | setOpacity alpha => .setOpacity alpha
  | strokeShape shape => .strokeShape shape
  | fillShape shape => .fillShape shape
  | clipShape shape => .clipShape shape
  | drawImageRect _ source target => .drawImageRect native source target
  | drawImage _ m => .drawImage native m
  | fillText run => .fillText run
  | strokeText run => .strokeText run
  | transform m => .transform m
  | setTransform m => .setTransform m
  | save => .save
  | restore => .restore
  | clearRect rect => .clearRect rect
  | setImageQuality level => .setImageQuality level

/-- The operations are the same but for what they refer to. -/
def Op.Rebound (op : Op N) (op' : Op M) : Prop := ∃ native, op' = op.withNative native

/-! ## Quiet calls and operations -/

/-- Whether a call changes fonts, paints, the path in progress and the picture at most. -/
def Call.isQuiet : Call N → Bool
  | setFont _ | setPaint _ | beginPath | addSegment _ | addRect _ | stroke | fill | clearRect _
  | drawImage _ _ | drawImageRect _ _ _ | fillText _ _ | strokeText _ _ => true
  | setStroke _ | setOpacity _ | setSmoothing _ | setTransform _ | transform _ | save | restore
  | clip => false

theorem Call.isQuiet_of_buildsPath (call : Call N) (h : call.buildsPath = true) :
    call.isQuiet = true := by
  cases call <;> first | rfl | cases h

theorem Call.isQuiet_of_mem_images (image : Option N) :
    ∀ call ∈ image.toList.map (Call.drawImage · .origin), call.isQuiet = true := by
  intro call hcall
  obtain ⟨thing, -, rfl⟩ := List.mem_map.mp hcall
  rfl

/-- Whether an operation is drawn by quiet calls. -/
def Op.isQuiet : Op N → Bool
  | setFont _ | setPaint _ | strokeShape _ | fillShape _ | drawImageRect _ _ _ | fillText _
  | strokeText _ | clearRect _ => true
  | setStroke _ | setOpacity _ | clipShape _ | drawImage _ _ | transform _ | setTransform _ | save
  | restore | setImageQuality _ => false

theorem Op.isQuiet_withNative (op : Op N) (native : Option M) :
    (op.withNative native).isQuiet = op.isQuiet := by
  cases op <;> rfl

/-- A quiet operation keeps what quiet calls keep. -/
theorem Surface.Keeps.apply_of_isQuiet {σ : Type} [Surface σ N] {P : σ → Prop} {surface : σ}
    (h : Keeps (fun call => call.isQuiet = true) P) (scale : Float) {op : Op N}
    (hop : op.isQuiet = true) (hsurface : P surface) : P (op.apply scale surface) := by
  cases op with
  | setFont font =>
    cases font with
    | none => exact hsurface
    | some font => exact h.perform rfl hsurface
  | setPaint paint =>
    cases paint with
    | none => exact hsurface
    | some paint => exact h.perform rfl hsurface
  | drawImageRect image source target =>
    cases image with
    | none => exact hsurface
    | some image => exact h.perform rfl hsurface
  | strokeShape shape | fillShape shape =>
    show P (drawShape surface shape _)
    rw [drawShape_eq]
    exact h.perform rfl (h.beginShape Call.isQuiet_of_buildsPath shape hsurface)
  | fillText run | strokeText run => exact h.drawText run (fun _ _ => rfl) hsurface
  | clearRect rect => exact h.perform rfl hsurface
  | setStroke _ | setOpacity _ | clipShape _ | drawImage _ _ | transform _ | setTransform _ | save
  | restore | setImageQuality _ => cases hop

end Rebound

namespace Canvas

variable {P : Type}

/-! ## What both have in common -/

/-- One of the two ends of a line. -/
inductive Tip where
  | start
  | finish

/-- The cap of that end. -/
def Tip.cap (pen : Pen) : Tip → Cap
  | start => pen.startCap
  | finish => pen.endCap

/-- A context in this state shows that state of a recorder. A context has one cap for both
    ends of a line, and shows that of the tip. Clips are counted in 32 bits. -/
structure DrawingState.Shows (tip : Tip) (s : DrawingState) (state : Recorder.State P) :
    Prop where
  transform : s.transform = state.transform
  lineWidth : s.lineWidth = state.pen.width
  lineCap : s.lineCap = capWord (tip.cap state.pen)
  lineJoin : s.lineJoin = joinWord state.pen.join
  miterLimit : s.miterLimit = state.pen.miterLimit
  dash : s.dash = state.pen.dash
  dashOffset : s.dashOffset = state.pen.dashOffset
  globalAlpha : s.globalAlpha = state.opacity
  smoothingEnabled : s.smoothingEnabled = state.smoothing.enabled
  smoothingQuality : s.smoothingQuality = qualityWord state.smoothing.quality
  clips : UInt32.ofNat s.clips = state.clips

/-- The context shows the state of the recorder, and the states put aside one by one. -/
structure Context.Mirrors (tip : Tip) (ctx : Context) (r : Recorder P) : Prop where
  current : ctx.current.Shows tip r.state
  saved : List.Forall₂ (DrawingState.Shows tip) ctx.saved r.saved

/-- A context with the values of a state of a recorder, and nothing put aside. Fonts and paints
    of a host are of another kind, so they are given apart. -/
def Context.ofState (tip : Tip) (state : Recorder.State P) (font : String)
    (fillStyle strokeStyle : HostValue) : Context where
  current :=
    { transform := state.transform
      lineWidth := state.pen.width
      lineCap := capWord (tip.cap state.pen)
      lineJoin := joinWord state.pen.join
      miterLimit := state.pen.miterLimit
      dash := state.pen.dash
      dashOffset := state.pen.dashOffset
      globalAlpha := state.opacity
      font
      fillStyle
      strokeStyle
      smoothingEnabled := state.smoothing.enabled
      smoothingQuality := qualityWord state.smoothing.quality
      clips := state.clips.toNat }

/-- The values of a recorder on which nothing is put aside make a context that mirrors it. -/
theorem Context.mirrors_ofState (tip : Tip) (r : Recorder P) (hsaved : r.saved = [])
    (font : String) (fillStyle strokeStyle : HostValue) :
    (Context.ofState tip r.state font fillStyle strokeStyle).Mirrors tip r := by
  refine ⟨⟨rfl, rfl, rfl, rfl, rfl, rfl, rfl, rfl, rfl, rfl, UInt32.ofNat_toNat⟩, ?_⟩
  rw [hsaved]
  exact .nil

variable {tip : Tip}

namespace DrawingState.Shows

variable {s : DrawingState} {state : Recorder.State P}

/-- Fonts and paints of the context are not looked at. -/
theorem inked (h : s.Shows tip state) (font : String) (fillStyle strokeStyle : HostValue) :
    { s with font, fillStyle, strokeStyle }.Shows tip state :=
  { h with }

/-- Fonts and paints of the recorder are not looked at. -/
theorem of_inked (h : s.Shows tip state) (font : Recorder.Font) (paint : P) :
    s.Shows tip { state with font, paint } :=
  { h with }

theorem placed (h : s.Shows tip state) {m m' : Affine} (hm : m = m') :
    { s with transform := m }.Shows tip { state with transform := m' } :=
  { h with transform := hm }

theorem clipped (h : s.Shows tip state) :
    { s with clips := s.clips + 1 }.Shows tip { state with clips := state.clips + 1 } := by
  have hclips : UInt32.ofNat (s.clips + 1) = state.clips + 1 := by
    rw [← h.clips, UInt32.ofNat_add]
    rfl
  exact { h with clips := hclips }

/-- A style is taken on, with the miter limit that comes of it. Both ends get its cap. -/
theorem stroked (h : s.Shows tip state) (style : StrokeStyle) {limit : Float}
    (hlimit : limit = (style.applyTo state.pen).miterLimit) :
    { s with
      lineWidth := style.width
      lineCap := capWord style.cap
      lineJoin := joinWord style.join
      miterLimit := limit
      dash := style.dash
      dashOffset := style.dashOffset }.Shows tip
      { state with pen := style.applyTo state.pen } := by
  have hcap : style.cap = tip.cap (style.applyTo state.pen) := by
    cases tip <;> rfl
  exact
    { h with
      lineWidth := rfl
      lineCap := congrArg capWord hcap
      lineJoin := rfl
      miterLimit := hlimit
      dash := rfl
      dashOffset := rfl }

/-- A count of clips that 32 bits can hold is exact. -/
theorem clips_eq (h : s.Shows tip state) (hclips : s.clips < 2 ^ 32) :
    s.clips = state.clips.toNat := by
  rw [← h.clips, UInt32.toNat_ofNat_of_lt' hclips]

end DrawingState.Shows

namespace Context.Mirrors

variable {ctx : Context} {r : Recorder P}

/-! ## Quiet calls -/

/-- A quiet call to the canvas is not seen by the recorder. -/
theorem read_of_isQuiet (h : ctx.Mirrors tip r) {call : Call HostValue}
    (hquiet : call.isQuiet = true) : (ctx.read (told call)).Mirrors tip r := by
  have hpaint : ∀ paint, (ctx.read (toldPaint paint)).Mirrors tip r :=
    fun paint => ⟨h.current.inked _ paint paint, h.saved⟩
  cases call with
  | setFont font =>
    cases font with
    | string css => exact ⟨h.current.inked css _ _, h.saved⟩
    | _ => exact h
  | setPaint paint =>
    cases paint with
    | string css => exact hpaint (.string css)
    | object o =>
      show (ctx.read (if _ then toldPaint (.object o) else [])).Mirrors tip r
      split
      · exact hpaint (.object o)
      · exact h
    | _ => exact h
  | addSegment segment => cases segment <;> exact h
  | drawImage image origin =>
    cases image with
    | object o =>
      show (ctx.read (if _ then [.drawImage o origin] else [])).Mirrors tip r
      split <;> exact h
    | _ => exact h
  | drawImageRect image source target =>
    cases image with
    | object o =>
      show (ctx.read (if _ then [.drawImageFrame o _ _] else [])).Mirrors tip r
      split <;> exact h
    | _ => exact h
  | beginPath | addRect _ | stroke | fill | clearRect _ | fillText _ _ | strokeText _ _ => exact h
  | setStroke _ | setOpacity _ | setSmoothing _ | setTransform _ | transform _ | save | restore
  | clip => cases hquiet

/-- A quiet call to the recorder is not seen by the canvas. -/
theorem perform_of_isQuiet (h : ctx.Mirrors tip r) {call : Call (Recorder.Native P)}
    (hquiet : call.isQuiet = true) : ctx.Mirrors tip (r.perform call) := by
  have hrecord : ∀ action, ctx.Mirrors tip (r.record action) := fun _ => ⟨h.current, h.saved⟩
  cases call with
  | setFont thing =>
    cases thing with
    | font font => exact ⟨h.current.of_inked font _, h.saved⟩
    | paint _ | image _ => exact ⟨h.current, h.saved⟩
  | setPaint thing =>
    cases thing with
    | paint paint => exact ⟨h.current.of_inked _ paint, h.saved⟩
    | font _ | image _ => exact ⟨h.current, h.saved⟩
  | drawImage thing _ | drawImageRect thing _ _ =>
    cases thing with
    | image image => exact hrecord _
    | font _ | paint _ => exact ⟨h.current, h.saved⟩
  | beginPath | addSegment _ | addRect _ => exact ⟨h.current, h.saved⟩
  | stroke | fill | clearRect _ | fillText _ _ | strokeText _ _ => exact hrecord _
  | setStroke _ | setOpacity _ | setSmoothing _ | setTransform _ | transform _ | save | restore
  | clip => cases hquiet

/-! ## Calls to both -/

/-- A miter limit that the style leaves open stays as it was on both sides. -/
theorem setStroke (h : ctx.Mirrors tip r) (style : StrokeStyle) :
    (ctx.read (toldStroke style)).Mirrors tip (r.perform (.setStroke style)) := by
  unfold toldStroke
  cases hlimit : style.miterLimit with
  | none =>
    have hkept : ctx.current.miterLimit = (style.applyTo r.state.pen).miterLimit := by
      rw [StrokeStyle.applyTo, hlimit]
      exact h.current.miterLimit
    exact ⟨h.current.stroked style hkept, h.saved⟩
  | some limit =>
    have hset : limit = (style.applyTo r.state.pen).miterLimit := by
      rw [StrokeStyle.applyTo, hlimit]
      rfl
    exact ⟨h.current.stroked style hset, h.saved⟩

theorem setOpacity (h : ctx.Mirrors tip r) (alpha : Float) :
    (ctx.take (.set (.globalAlpha alpha))).Mirrors tip (r.perform (.setOpacity alpha)) :=
  ⟨{ h.current with globalAlpha := rfl }, h.saved⟩

theorem setSmoothing (h : ctx.Mirrors tip r) (smoothing : Smoothing) :
    (ctx.read (told (.setSmoothing smoothing))).Mirrors tip
      (r.perform (.setSmoothing smoothing)) :=
  ⟨{ h.current with smoothingEnabled := rfl, smoothingQuality := rfl }, h.saved⟩

theorem setTransform (h : ctx.Mirrors tip r) (m : Affine) :
    (ctx.take (.setTransform m)).Mirrors tip (r.perform (.setTransform m)) :=
  ⟨h.current.placed rfl, h.saved⟩

theorem transform (h : ctx.Mirrors tip r) (m : Affine) :
    (ctx.take (.transform m)).Mirrors tip (r.perform (.transform m)) :=
  ⟨h.current.placed (congrArg (· * m) h.current.transform), h.saved⟩

theorem clip (h : ctx.Mirrors tip r) : (ctx.take .clip).Mirrors tip r.clip :=
  ⟨h.current.clipped, h.saved⟩

theorem save (h : ctx.Mirrors tip r) : (ctx.take .save).Mirrors tip r.save :=
  ⟨h.current, .cons h.current h.saved⟩

/-- Both have a state to take back, or neither has. -/
theorem restore (h : ctx.Mirrors tip r) : (ctx.take .restore).Mirrors tip r.restore := by
  have hsaved := h.saved
  cases hr : r.saved with
  | nil =>
    rw [hr, List.forall₂_nil_right_iff] at hsaved
    have hctx : ctx.take .restore = ctx := by
      simp only [take, hsaved]
    have hrestore : r.restore = r.record (.restore false) := by
      rw [Recorder.restore, hr]
    rw [hctx, hrestore]
    exact ⟨h.current, h.saved⟩
  | cons state' states' =>
    rw [hr, List.forall₂_cons_right_iff] at hsaved
    obtain ⟨state, states, hstate, hstates, hctx⟩ := hsaved
    have htake : ctx.take .restore = ⟨state, states⟩ := by
      simp only [take, hctx]
    rw [htake, Recorder.restore_of_saved hr]
    exact ⟨hstate, hstates⟩

end Context.Mirrors

/-! ## A canvas and a recorder -/

/-- Since it stood as `start` did, the canvas has told its host what leads from the context to
    one that mirrors the recorder. -/
def Follows (tip : Tip) (ctx : Context) (start c : Canvas) (r : Recorder P) : Prop :=
  ∃ log, c.calls = start.calls ++ log ∧ (ctx.read log).Mirrors tip r

namespace Follows

variable {ctx : Context} {start c : Canvas} {r r' : Recorder P}

/-- The canvas is told something that makes up for a change of the recorder. -/
theorem perform (h : Follows tip ctx start c r) (call : Call HostValue)
    (hcall : ∀ {now : Context}, now.Mirrors tip r → (now.read (told call)).Mirrors tip r') :
    Follows tip ctx start (c.perform call) r' := by
  obtain ⟨log, hcalls, hmirrors⟩ := h
  refine ⟨log ++ told call, ?_, ?_⟩
  · rw [calls_perform, hcalls, List.append_assoc]
  · rw [Context.read_append]
    exact hcall hmirrors

/-- The recorder changes in a way that the context need not follow. -/
theorem mono (h : Follows tip ctx start c r)
    (hr : ∀ {now : Context}, now.Mirrors tip r → now.Mirrors tip r') :
    Follows tip ctx start c r' := by
  obtain ⟨log, hcalls, hmirrors⟩ := h
  exact ⟨log, hcalls, hr hmirrors⟩

variable (tip ctx start)

theorem keeps_canvas (r : Recorder P) :
    Keeps (fun call : Call HostValue => call.isQuiet = true) (Follows tip ctx start · r) where
  perform hquiet h := h.perform _ fun hnow => hnow.read_of_isQuiet hquiet
  measure := by
    rintro c text ⟨log, hcalls, hmirrors⟩
    refine ⟨log ++ [.measureText text], ?_, ?_⟩
    · show c.calls ++ [.measureText text] = _
      rw [hcalls, List.append_assoc]
    · -- A context does not care for being asked.
      rw [Context.read_append]
      exact hmirrors

theorem keeps_recorder (c : Canvas) :
    Keeps (fun call : Call (Recorder.Native P) => call.isQuiet = true)
      (Follows tip ctx start c) where
  perform hquiet h := h.mono fun hnow => hnow.perform_of_isQuiet hquiet
  measure _ h := h

variable {tip ctx start}

/-! ## Operations -/

/-- A clip is told to both, when the shape is built on both. -/
theorem clipShape (h : Follows tip ctx start c r) (shape : Shape) :
    Follows tip ctx start (drawShape c shape .clip) (drawShape r shape .clip) := by
  rw [drawShape_eq, drawShape_eq]
  have hbuilt := (keeps_canvas tip ctx start r).beginShape Call.isQuiet_of_buildsPath shape h
  have hbuilt' := (keeps_recorder tip ctx start _).beginShape Call.isQuiet_of_buildsPath shape
    hbuilt
  exact hbuilt'.perform .clip fun hnow => hnow.clip

/-- An image is drawn in a bracket, and on one of the two it may be left out. -/
theorem drawImage (h : Follows tip ctx start c r) (scale : Float) (m : Affine)
    (image : Option HostValue) (image' : Option (Recorder.Native P)) :
    Follows tip ctx start ((Op.drawImage image m).apply scale c)
      ((Op.drawImage image' m).apply scale r) := by
  have hsaved := h.perform .save fun hnow => hnow.save
  have hplaced := hsaved.perform (.setTransform (m.scaleDiagonal scale)) fun hnow =>
    hnow.setTransform (m.scaleDiagonal scale)
  have hdrawn := (keeps_canvas tip ctx start _).performAll (Call.isQuiet_of_mem_images image)
    hplaced
  have hdrawn' := (keeps_recorder tip ctx start _).performAll (Call.isQuiet_of_mem_images image')
    hdrawn
  simp only [Op.apply, performAll_append]
  exact hdrawn'.perform .restore fun hnow => hnow.restore

/-- An operation is drawn on both, each with a reference of its own. -/
theorem apply (h : Follows tip ctx start c r) (scale : Float) (op : Op HostValue)
    (native : Option (Recorder.Native P)) :
    Follows tip ctx start (op.apply scale c) ((op.withNative native).apply scale r) := by
  cases hquiet : op.isQuiet with
  | true =>
    have hquiet' : (op.withNative native).isQuiet = true := by
      rw [op.isQuiet_withNative native, hquiet]
    have hcanvas := (keeps_canvas tip ctx start r).apply_of_isQuiet scale hquiet h
    exact (keeps_recorder tip ctx start _).apply_of_isQuiet scale hquiet' hcanvas
  | false =>
    cases op with
    | setStroke style => exact h.perform (.setStroke style) fun hnow => hnow.setStroke style
    | setOpacity alpha => exact h.perform (.setOpacity alpha) fun hnow => hnow.setOpacity alpha
    | clipShape shape => exact h.clipShape shape
    | drawImage image m => exact h.drawImage scale m image native
    | transform m => exact h.perform (.transform m) fun hnow => hnow.transform m
    | setTransform m =>
      exact h.perform (.setTransform (m.scaleDiagonal scale)) fun hnow => hnow.setTransform _
    | save => exact h.perform .save fun hnow => hnow.save
    | restore => exact h.perform .restore fun hnow => hnow.restore
    | setImageQuality level =>
      exact h.perform (.setSmoothing (.ofLevel level)) fun hnow => hnow.setSmoothing _
    | setFont _ | setPaint _ | strokeShape _ | fillShape _ | drawImageRect _ _ _ | fillText _
    | strokeText _ | clearRect _ => cases hquiet

theorem foldl_apply (h : Follows tip ctx start c r) (scale : Float) {ops : List (Op HostValue)}
    {ops' : List (Op (Recorder.Native P))} (hops : List.Forall₂ Op.Rebound ops ops') :
    Follows tip ctx start (ops.foldl (Op.apply scale) c) (ops'.foldl (Op.apply scale) r) := by
  induction hops generalizing c r with
  | nil => exact h
  | @cons op op' ops ops' hop hops ih =>
    obtain ⟨native, rfl⟩ := hop
    exact ih (h.apply scale op native)

end Follows

/-! ## Passes -/

/-- A canvas and a recorder agree on the drawing state. Let a context show the state of a
    recorder before a pass. When the same operations are drawn on a canvas and on the recorder,
    each with references of its own, then behind every one of them the context that has read
    what the canvas told its host shows the state of the recorder. As many states are put aside
    on both, and as many clips are in force, if 32 bits can hold their number. -/
theorem replay_mirrors {ctx : Context} {r : Recorder P} (hstart : ctx.Mirrors tip r) (c : Canvas)
    (scale : Float) {ops : List (Op HostValue)} {ops' : List (Op (Recorder.Native P))}
    (hops : List.Forall₂ Op.Rebound ops ops') (n : Nat) :
    ∃ log, (replay scale c (ops.take n)).calls = c.calls ++ log ∧
      (ctx.read log).Mirrors tip (replay scale r (ops'.take n)) ∧
      (ctx.read log).saved.length = (replay scale r (ops'.take n)).saveDepth ∧
      ((ctx.read log).current.clips < 2 ^ 32 →
        (ctx.read log).current.clips = (replay scale r (ops'.take n)).state.clips.toNat) := by
  have hbefore : Follows tip ctx c c r := ⟨[], (List.append_nil c.calls).symm, hstart⟩
  have hplaced := hbefore.perform (.setTransform (.scale scale)) fun hnow => hnow.setTransform _
  obtain ⟨log, hcalls, hmirrors⟩ := hplaced.foldl_apply scale (List.forall₂_take n hops)
  exact ⟨log, hcalls, hmirrors, hmirrors.saved.length_eq, hmirrors.current.clips_eq⟩

/-- A canvas on a host on which only broken objects fail. -/
def onSteadyHost : Canvas := { host := .steady (byteAdvance 8.0) false }

/-- A context like a recorder when it is fresh. -/
def likeFresh : Context :=
  .ofState .finish Recorder.State.initial "10px sans-serif" (.string "black") (.string "black")

/-- A stroke without a miter limit, a level of smoothing, a transform, a number for a font, a
    clip, an image that is not there and a spaced text, behind a state that is taken back where
    there is none. -/
def hostPass : List (Op HostValue) :=
  [.restore, .setStroke ⟨2.0, [1.0], 0.5, .butt, .bevel, none⟩, .setImageQuality 0.9,
    .transform ⟨1.0, 0.0, 0.0, 1.0, 3.0, 0.0⟩, .setFont (some (.number 3.0)), .save,
    .clipShape (.rect ⟨0.0, 0.0, 8.0, 6.0⟩), .drawImage none ⟨1.0, 0.0, 0.0, 1.0, 2.0, 3.0⟩,
    .fillText ⟨"ab", ⟨1.0, 2.0⟩, 0.5⟩, .restore]

/-- The same with a font and an image that a recorder knows. -/
def recorderPass : List (Op Recorder.Native) :=
  [.restore, .setStroke ⟨2.0, [1.0], 0.5, .butt, .bevel, none⟩, .setImageQuality 0.9,
    .transform ⟨1.0, 0.0, 0.0, 1.0, 3.0, 0.0⟩, .setFont (some (.font ⟨"serif", 14.0⟩)), .save,
    .clipShape (.rect ⟨0.0, 0.0, 8.0, 6.0⟩),
    .drawImage (some (.image ⟨16, 16⟩)) ⟨1.0, 0.0, 0.0, 1.0, 2.0, 3.0⟩,
    .fillText ⟨"ab", ⟨1.0, 2.0⟩, 0.5⟩, .restore]

/-- Behind the text the context shows the state of the recorder: the words of the style and of
    the level, the transform composed onto the scale, one clip in force and one state put
    aside. -/
theorem replay_mirrors_hostPass :
    likeFresh.Mirrors .finish Recorder.fresh ∧ List.Forall₂ Op.Rebound hostPass recorderPass ∧
    ∃ log, (replay 2.0 onSteadyHost (hostPass.take 9)).calls = log ∧
      (likeFresh.read log).Mirrors .finish (replay 2.0 Recorder.fresh (recorderPass.take 9)) ∧
      (likeFresh.read log).current.lineCap = "butt" ∧
      (likeFresh.read log).current.lineJoin = "bevel" ∧
      (likeFresh.read log).current.smoothingQuality = "high" ∧
      (likeFresh.read log).current.transform = ⟨2.0, 0.0, 0.0, 2.0, 6.0, 0.0⟩ ∧
      (likeFresh.read log).saved.length = 1 ∧ (likeFresh.read log).current.clips = 1 := by
  have hstart : likeFresh.Mirrors .finish Recorder.fresh :=
    Context.mirrors_ofState .finish Recorder.fresh rfl "10px sans-serif" (.string "black")
      (.string "black")
  have hops : List.Forall₂ Op.Rebound hostPass recorderPass :=
    .cons ⟨none, rfl⟩ (.cons ⟨none, rfl⟩ (.cons ⟨none, rfl⟩ (.cons ⟨none, rfl⟩
      (.cons ⟨some (.font ⟨"serif", 14.0⟩), rfl⟩ (.cons ⟨none, rfl⟩ (.cons ⟨none, rfl⟩
        (.cons ⟨some (.image ⟨16, 16⟩), rfl⟩ (.cons ⟨none, rfl⟩ (.cons ⟨none, rfl⟩ .nil)))))))))
  obtain ⟨log, hcalls, hmirrors, hdepth, hclips⟩ :=
    replay_mirrors hstart onSteadyHost 2.0 hops 9
  have hshown := hmirrors.current
  have hstate : (replay 2.0 Recorder.fresh (recorderPass.take 9)).state =
      { Recorder.State.initial with
        transform := ⟨2.0, 0.0, 0.0, 2.0, 6.0, 0.0⟩
        font := ⟨"serif", 14.0⟩
        pen := ⟨2.0, [1.0], 0.5, .butt, .butt, .bevel, 10.0⟩
        smoothing := ⟨true, .high⟩
        clips := 1 } := by
    decide +kernel
  have hdepth' : (replay 2.0 Recorder.fresh (recorderPass.take 9)).saveDepth = 1 := by
    decide +kernel
  have hbound :
      (likeFresh.read (replay 2.0 onSteadyHost (hostPass.take 9)).calls).current.clips <
        2 ^ 32 := by
    decide +kernel
  have hlog : (replay 2.0 onSteadyHost (hostPass.take 9)).calls = log := hcalls
  rw [hlog] at hbound
  rw [hdepth'] at hdepth
  rw [hstate] at hshown hclips
  exact ⟨hstart, hops, log, hlog, hmirrors, hshown.lineCap, hshown.lineJoin,
    hshown.smoothingQuality, hshown.transform, hdepth, hclips hbound⟩

end Canvas

end BatchDraw
