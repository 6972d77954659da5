/-
  BatchDraw.Proofs.Canvas.Restyling

  Stroke styles asked for one after the other.

  A style replaces every setting of a pen but the miter limit, which it may leave open. So
  of a row of styles the last one decides, and for the miter limit the last one that sets
  it, however far back that is (`StrokeStyle.miterLimit_applyAll`). A canvas keeps no pen;
  there the same is true of what its host is told last under each name (`lastArgs?`).
-/
import BatchDraw.Proofs.Canvas.Translation
import Mathlib.Data.List.Induction

namespace BatchDraw

namespace StrokeStyle

/-! ## Pens -/

/-- The pen after styles were asked for in order. -/
def applyAll (styles : List StrokeStyle) (pen : Pen) : Pen :=
  styles.foldl (fun pen style => style.applyTo pen) pen

theorem applyAll_concat (styles : List StrokeStyle) (last : StrokeStyle) (pen : Pen) :
    applyAll (styles ++ [last]) pen = last.applyTo (applyAll styles pen) := by
  rw [applyAll, List.foldl_append]
  rfl

/-- The miter limits that styles set, in order. -/
def limits (styles : List StrokeStyle) : List Float :=
  styles.filterMap (·.miterLimit)

theorem limits_concat (styles : List StrokeStyle) (last : StrokeStyle) :
    limits (styles ++ [last]) = limits styles ++ last.miterLimit.toList := by
  rw [limits, List.filterMap_append, limits, List.filterMap_cons]
  cases last.miterLimit <;> rfl

/-- The limit that was set last is in force, or that of before if none was set. -/
theorem miterLimit_applyAll (styles : List StrokeStyle) (pen : Pen) :
    (applyAll styles pen).miterLimit = (limits styles).getLast?.getD pen.miterLimit := by
  -- A row of styles grows at its end, where a limit is set or left open.
  induction styles using List.reverseRecOn with
  | nil => rfl
  | append_singleton styles last ih =>
    have hlast : (applyAll (styles ++ [last]) pen).miterLimit =
        last.miterLimit.getD (applyAll styles pen).miterLimit := by
      rw [applyAll_concat]
      rfl
    rw [hlast, ih, limits_concat]
    cases last.miterLimit with
    | none =>
      rw [Option.toList_none, List.append_nil]
      rfl
    | some limit =>
      rw [Option.toList_some, List.getLast?_concat]
      rfl

end StrokeStyle

namespace Canvas

open StrokeStyle

/-! ## Logs -/

/-- What is written, or given to the method, by the last call of that name in a log. -/
def lastArgs? (name : String) (log : List HostCall) : Option (List HostValue) :=
  (log.filter (·.name == name)).getLast?.map HostCall.args

theorem lastArgs?_append_of_some {name : String} {values : List HostValue} (log : List HostCall)
    {others : List HostCall} (h : lastArgs? name others = some values) :
    lastArgs? name (log ++ others) = some values := by
  obtain ⟨call, hcall, hvalues⟩ := Option.map_eq_some_iff.mp h
  rw [lastArgs?, List.filter_append, List.getLast?_append, hcall, ← hvalues]
  rfl

/-- The calls that write a miter limit. -/
def limitWrites (log : List HostCall) : List HostCall :=
  log.filter (·.name == "miterLimit=")

/-- Every style is told in full, but for a miter limit that it leaves open. -/
theorem lastArgs?_toldStroke (style : StrokeStyle) :
    lastArgs? "lineWidth=" (toldStroke style) = some [.number style.width] ∧
    lastArgs? "setLineDash" (toldStroke style) = some [.numbers style.dash] ∧
    lastArgs? "lineDashOffset=" (toldStroke style) = some [.number style.dashOffset] ∧
    lastArgs? "lineCap=" (toldStroke style) = some [.string (capWord style.cap)] ∧
    lastArgs? "lineJoin=" (toldStroke style) = some [.string (joinWord style.join)] := by
  unfold toldStroke
  cases style.miterLimit <;>
    simp [lastArgs?, HostCall.name, Setting.name, HostCall.args, Setting.value]

theorem limitWrites_toldStroke (style : StrokeStyle) :
    limitWrites (toldStroke style) = style.miterLimit.toList.map (.set <| .miterLimit ·) := by
  unfold toldStroke
  cases style.miterLimit <;> simp [limitWrites, HostCall.name, Setting.name]

/-- A canvas that is asked for styles tells them one behind the other. -/
theorem calls_performAll_setStroke (c : Canvas) (styles : List StrokeStyle) :
    (Surface.performAll c (styles.map .setStroke)).calls =
      c.calls ++ styles.flatMap toldStroke := by
  induction styles generalizing c with
  | nil => exact (List.append_nil c.calls).symm
  | cons style styles ih =>
    rw [List.map_cons, Surface.performAll_cons, ih, List.flatMap_cons, ← List.append_assoc]
    exact congrArg (· ++ styles.flatMap toldStroke) (c.calls_perform (.setStroke style))

/-- The limits that are told are those that the styles set. -/
theorem limitWrites_flatMap_toldStroke (styles : List StrokeStyle) :
    limitWrites (styles.flatMap toldStroke) = (limits styles).map (.set <| .miterLimit ·) := by
  induction styles using List.reverseRecOn with
  | nil => rfl
  | append_singleton styles last ih =>
    rw [limitWrites] at ih ⊢
    rw [List.flatMap_append, List.flatMap_singleton, List.filter_append, ih, limits_concat,
      List.map_append]
    exact congrArg _ (limitWrites_toldStroke last)

/-! ## Both -/

/-- Styles leave nothing of the styles before them but a miter limit. Behind a row of styles a
    pen has the width, the dashes with their offset, the join and, at both ends, the cap of the
    last one; and its miter limit is the last one that any of them sets, or the one of before.
    A canvas that is asked for the same styles tells its host these values last. It tells just
    the miter limits that the styles set, and none if they set none. -/
theorem styles_succeed (front : List StrokeStyle) (last : StrokeStyle) (pen : Pen) (c : Canvas) :
    applyAll (front ++ [last]) pen =
      { width := last.width
        dash := last.dash
        dashOffset := last.dashOffset
        startCap := last.cap
        endCap := last.cap
        join := last.join
        miterLimit := (limits (front ++ [last])).getLast?.getD pen.miterLimit } ∧
    ∃ log, (Surface.performAll c ((front ++ [last]).map .setStroke)).calls = c.calls ++ log ∧
      lastArgs? "lineWidth=" log = some [.number last.width] ∧
      lastArgs? "setLineDash" log = some [.numbers last.dash] ∧
      lastArgs? "lineDashOffset=" log = some [.number last.dashOffset] ∧
      lastArgs? "lineCap=" log =
        some [.string (match last.cap with
          | .butt => "butt"
          | .round => "round"
          | .square => "square")] ∧
      lastArgs? "lineJoin=" log =
        some [.string (match last.join with
          | .bevel => "bevel"
          | .miter => "miter"
          | .round => "round")] ∧
      lastArgs? "miterLimit=" log =
        (limits (front ++ [last])).getLast?.map (fun limit => [.number limit]) ∧
      limitWrites log = (limits (front ++ [last])).map (.set <| .miterLimit ·) := by
  refine ⟨?_, (front ++ [last]).flatMap toldStroke, c.calls_performAll_setStroke _, ?_⟩
  · rw [← miterLimit_applyAll (front ++ [last]) pen, applyAll_concat]
    rfl
  · have hwrites := limitWrites_flatMap_toldStroke (front ++ [last])
    have hlimit : lastArgs? "miterLimit=" ((front ++ [last]).flatMap toldStroke) =
        (limits (front ++ [last])).getLast?.map (fun limit => [.number limit]) := by
      rw [lastArgs?, ← limitWrites, hwrites, List.getLast?_map, Option.map_map]
      rfl
    obtain ⟨hwidth, hdash, hoffset, hcap, hjoin⟩ := lastArgs?_toldStroke last
    refine ⟨?_, ?_, ?_, ?_, ?_, hlimit, hwrites⟩ <;>
      rw [List.flatMap_append, List.flatMap_singleton]
    · exact lastArgs?_append_of_some _ hwidth
    · exact lastArgs?_append_of_some _ hdash
    · exact lastArgs?_append_of_some _ hoffset
    · exact lastArgs?_append_of_some _ hcap
    · exact lastArgs?_append_of_some _ hjoin

/-- A dashed style with a mitered join and its limit. -/
def mitered : StrokeStyle := ⟨2.0, [1.0], 0.5, .butt, .miter, some 4.0⟩

/-- A solid style that leaves the miter limit open. -/
def unmitered : StrokeStyle := ⟨3.0, [], 0.0, .square, .round, none⟩

/-- Of the first style nothing is left but its limit. -/
theorem styles_succeed_unmitered :
    applyAll [mitered, unmitered] ⟨1.0, [], 0.0, .butt, .butt, .miter, 10.0⟩ =
      ⟨3.0, [], 0.0, .square, .square, .round, 4.0⟩ ∧
    ∃ log, (Surface.performAll (Canvas.mk (.steady (byteAdvance 8.0) false) [] [])
        [.setStroke mitered, .setStroke unmitered]).calls = log ∧
      lastArgs? "lineCap=" log = some [.string "square"] ∧
      lastArgs? "lineJoin=" log = some [.string "round"] ∧
      lastArgs? "setLineDash" log = some [.numbers []] ∧
      lastArgs? "miterLimit=" log = some [.number 4.0] := by
  obtain ⟨hpen, log, hcalls, -, hdash, -, hcap, hjoin, hlimit, -⟩ :=
    styles_succeed [mitered] unmitered ⟨1.0, [], 0.0, .butt, .butt, .miter, 10.0⟩
      (Canvas.mk (.steady (byteAdvance 8.0) false) [] [])
  exact ⟨hpen, log, hcalls, hcap, hjoin, hdash, hlimit⟩

end Canvas

end BatchDraw
