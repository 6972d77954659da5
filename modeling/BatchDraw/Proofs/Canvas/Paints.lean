/-
  BatchDraw.Proofs.Canvas.Paints

  The paint of fills and the paint of outlines.

  A context has a paint for each, but a canvas knows one paint only and writes it to
  both, one directly behind the other. So the log of its host falls into such pairs and
  into calls that touch neither paint (`Paired`), however the canvas is used and whatever
  it is given for a paint.

  A context that has one paint for both, in its state and in the states put aside
  (`Context.Single`), has one again behind every pair and behind every other call. Only
  between the two halves of a pair do the paints differ, and there nothing is told.
-/
import BatchDraw.Proofs.Canvas.Mirroring

namespace BatchDraw

namespace Canvas

/-! ## Paints -/

/-- Whether a value serves as a paint: a string, a gradient or a pattern. -/
def HostValue.IsPaint : HostValue → Prop
  | string _ => True
  | object o => o.cls = .gradient ∨ o.cls = .pattern
  | null | undefined | number _ | boolean _ | numbers _ => False

instance : (value : HostValue) → Decidable value.IsPaint
  | .string _ => inferInstanceAs (Decidable True)
  | .object o => inferInstanceAs (Decidable (o.cls = .gradient ∨ o.cls = .pattern))
  | .null | .undefined | .number _ | .boolean _ | .numbers _ => inferInstanceAs (Decidable False)

/-- What serves as a paint is told for fills and for outlines, and nothing else is told. -/
theorem told_setPaint (paint : HostValue) :
    told (.setPaint paint) = if paint.IsPaint then toldPaint paint else [] := by
  cases paint with
  | string css => exact (if_pos trivial).symm
  | object o => rfl
  | null | undefined | number _ | boolean _ | numbers _ => exact (if_neg id).symm

/-- Whether a call writes one of the two paints. -/
def HostCall.inks : HostCall → Bool
  | set (.fillStyle _) | set (.strokeStyle _) => true
  | _ => false

/-! ## Logs in pairs -/

/-- The paints are written in pairs: first that of fills, then the same one for outlines. -/
inductive Paired : List HostCall → Prop where
  | nil : Paired []
  | plain {call : HostCall} {log : List HostCall} (hcall : call.inks = false)
      (hlog : Paired log) : Paired (call :: log)
  | pair {paint : HostValue} {log : List HostCall} (hpaint : paint.IsPaint)
      (hlog : Paired log) :
      Paired (.set (.fillStyle paint) :: .set (.strokeStyle paint) :: log)

namespace Paired

variable {log others before after : List HostCall} {call : HostCall} {paint : HostValue}

theorem append (h : Paired log) (hothers : Paired others) : Paired (log ++ others) := by
  induction h with
  | nil => exact hothers
  | plain hcall _ ih => exact .plain hcall ih
  | pair hpaint _ ih => exact .pair hpaint ih

theorem of_plain (h : ∀ call ∈ log, call.inks = false) : Paired log := by
  induction log with
  | nil => exact .nil
  | cons call log ih =>
    exact .plain (h call List.mem_cons_self) (ih fun other hother => h other (.tail call hother))

/-- A log can be cut in front of every call that is not the second half of a pair. -/
theorem cut (h : Paired (before ++ call :: after)) :
    (Paired before ∧ Paired (call :: after)) ∨
      ∃ front paint, before = front ++ [.set (.fillStyle paint)] ∧
        call = .set (.strokeStyle paint) ∧ Paired front := by
  generalize hlog : before ++ call :: after = log at h
  -- On the blocks of the log; the cut is in front of the first one, inside it, or behind it.
  induction h generalizing before with
  | nil => simp at hlog
  | @plain first log hfirst hrest ih =>
    cases before with
    | nil =>
      obtain ⟨rfl, rfl⟩ := List.cons.inj hlog
      exact .inl ⟨.nil, .plain hfirst hrest⟩
    | cons other before =>
      rw [List.cons_append, List.cons_eq_cons] at hlog
      obtain ⟨rfl, hlog⟩ := hlog
      rcases ih hlog with ⟨hbefore, hafter⟩ | ⟨front, paint, rfl, hcall, hfront⟩
      · exact .inl ⟨.plain hfirst hbefore, hafter⟩
      · exact .inr ⟨_, paint, rfl, hcall, .plain hfirst hfront⟩
  | @pair paint log hpaint hrest ih =>
    rcases before with _ | ⟨first, _ | ⟨second, before⟩⟩
    · obtain ⟨rfl, rfl⟩ := List.cons.inj hlog
      exact .inl ⟨.nil, .pair hpaint hrest⟩
    · rw [List.cons_append, List.nil_append, List.cons_eq_cons, List.cons_eq_cons] at hlog
      obtain ⟨rfl, rfl, rfl⟩ := hlog
      exact .inr ⟨[], paint, rfl, rfl, .nil⟩
    · rw [List.cons_append, List.cons_append, List.cons_eq_cons, List.cons_eq_cons] at hlog
      obtain ⟨rfl, rfl, hlog⟩ := hlog
      rcases ih hlog with ⟨hbefore, hafter⟩ | ⟨front, other, rfl, hcall, hfront⟩
      · exact .inl ⟨.pair hpaint hbefore, hafter⟩
      · exact .inr ⟨_, other, rfl, hcall, .pair hpaint hfront⟩

/-- Behind the paint of fills comes the same paint for outlines. -/
theorem fillStyle (h : Paired (before ++ .set (.fillStyle paint) :: after)) :
    paint.IsPaint ∧ ∃ rest, after = .set (.strokeStyle paint) :: rest := by
  rcases h.cut with ⟨-, hafter⟩ | ⟨_, _, _, hcall, _⟩
  · cases hafter with
    | plain hcall _ => cases hcall
    | pair hpaint _ => exact ⟨hpaint, _, rfl⟩
  · cases hcall

/-- In front of the paint of outlines comes the same paint for fills. -/
theorem strokeStyle (h : Paired (before ++ .set (.strokeStyle paint) :: after)) :
    ∃ front, before = front ++ [.set (.fillStyle paint)] := by
  rcases h.cut with ⟨-, hafter⟩ | ⟨front, _, rfl, hcall, -⟩
  · cases hafter with
    | plain hcall _ => cases hcall
  · cases hcall
    exact ⟨front, rfl⟩

end Paired

/-! ## Contexts with one paint -/

/-- The paint of fills is the paint of outlines, now and in every state put aside. -/
structure Context.Single (ctx : Context) : Prop where
  current : ctx.current.fillStyle = ctx.current.strokeStyle
  saved : ∀ state ∈ ctx.saved, state.fillStyle = state.strokeStyle

namespace Context.Single

variable {ctx : Context}

/-- A call that writes no paint leaves one paint: the one of before, or one put aside. -/
theorem take (h : ctx.Single) {call : HostCall} (hcall : call.inks = false) :
    (ctx.take call).Single := by
  cases call with
  | set setting =>
    cases setting with
    | fillStyle _ | strokeStyle _ => cases hcall
    | _ => exact ⟨h.current, h.saved⟩
  | save => exact ⟨h.current, List.forall_mem_cons.mpr ⟨h.current, h.saved⟩⟩
  | restore =>
    obtain ⟨current, saved⟩ := ctx
    cases saved with
    | nil => exact h
    | cons state saved =>
      obtain ⟨hstate, hsaved⟩ := List.forall_mem_cons.mp h.saved
      exact ⟨hstate, hsaved⟩
  | _ => exact ⟨h.current, h.saved⟩

/-- Between two blocks of a log in pairs there is one paint. -/
theorem read {log : List HostCall} (h : ctx.Single) (hlog : Paired log) :
    (ctx.read log).Single := by
  induction hlog generalizing ctx with
  | nil => exact h
  | plain hcall _ ih => exact ih (h.take hcall)
  | pair _ _ ih => exact ih ⟨rfl, h.saved⟩

/-- Anywhere in a log in pairs the states put aside have one paint each, and so has the
    current state, unless a pair is half told. -/
theorem read_front {before after : List HostCall} {call : HostCall} (h : ctx.Single)
    (hlog : Paired (before ++ call :: after)) :
    (∀ state ∈ (ctx.read before).saved, state.fillStyle = state.strokeStyle) ∧
      (call.inks = false →
        (ctx.read before).current.fillStyle = (ctx.read before).current.strokeStyle) := by
  rcases hlog.cut with ⟨hbefore, -⟩ | ⟨front, paint, rfl, rfl, hfront⟩
  · have hsingle := h.read hbefore
    exact ⟨hsingle.saved, fun _ => hsingle.current⟩
  · refine ⟨?_, fun hcall => nomatch hcall⟩
    rw [read_append]
    exact (h.read hfront).saved

end Context.Single

/-! ## Uses of a canvas -/

/-- One use of a canvas: a call, or the question how far a text advances the pen. -/
inductive Use where
  | perform (call : Call HostValue)
  | measure (text : String)

namespace Use

/-- The canvas behind a use. -/
def apply (c : Canvas) : Use → Canvas
  | perform call => Surface.perform c call
  | measure text => (Surface.measure c text).2

/-- What a host is told for one use. -/
def told : Use → List HostCall
  | perform call => Canvas.told call
  | measure text => [.measureText text]

theorem calls_apply (c : Canvas) (use : Use) : (use.apply c).calls = c.calls ++ use.told := by
  cases use with
  | perform call => exact c.calls_perform call
  | measure text => rfl

theorem calls_foldl_apply (c : Canvas) (uses : List Use) :
    (uses.foldl apply c).calls = c.calls ++ uses.flatMap told := by
  induction uses generalizing c with
  | nil => exact (List.append_nil c.calls).symm
  | cons use uses ih =>
    rw [List.foldl_cons, ih, calls_apply, List.append_assoc, List.flatMap_cons]

/-- Only a paint is told as a paint, and it is told for both. -/
theorem paired_told (use : Use) : Paired use.told := by
  cases use with
  | measure text => exact .plain rfl .nil
  | perform call =>
    show Paired (Canvas.told call)
    cases call with
    | setPaint paint =>
      rw [told_setPaint]
      split
      · exact .pair ‹_› .nil
      · exact .nil
    | setStroke style =>
      show Paired (toldStroke style)
      unfold toldStroke
      cases style.miterLimit <;> exact .of_plain (by simp [HostCall.inks])
    | drawImage image _ | drawImageRect image _ _ =>
      cases image with
      | object o =>
        show Paired (if _ then [_] else [])
        split
        · exact .plain rfl .nil
        · exact .nil
      | _ => exact .nil
    | setFont font => cases font <;> exact .of_plain (by simp [Canvas.told, HostCall.inks])
    | addSegment segment => cases segment <;> exact .plain rfl .nil
    | setSmoothing smoothing => exact .plain rfl (.plain rfl .nil)
    | _ => exact .plain rfl .nil

theorem paired_flatMap_told (uses : List Use) : Paired (uses.flatMap told) := by
  induction uses with
  | nil => exact .nil
  | cons use uses ih => exact use.paired_told.append ih

end Use

/-- Fills and outlines have one paint. However a canvas is used, each paint that its host is
    told for fills is a string, a gradient or a pattern, and directly behind it the host is told
    the same for outlines, of which it is told nothing else. So let a context have one paint for
    both, now and in the states put aside. When it reads what the host was told, it has one at
    every call that does not write a paint, whatever is drawn or put aside by that call; it has
    one at the end; and at all times it has one in every state put aside. What does not serve as
    a paint is not told at all. -/
theorem paints_agree (uses : List Use) (c : Canvas) :
    ∃ log, (uses.foldl Use.apply c).calls = c.calls ++ log ∧
      (∀ before paint after, log = before ++ .set (.fillStyle paint) :: after →
        paint.IsPaint ∧ ∃ rest, after = .set (.strokeStyle paint) :: rest) ∧
      (∀ before paint after, log = before ++ .set (.strokeStyle paint) :: after →
        ∃ front, before = front ++ [.set (.fillStyle paint)]) ∧
      (∀ ctx : Context, ctx.Single →
        (∀ before call after, log = before ++ call :: after →
          (∀ state ∈ (ctx.read before).saved, state.fillStyle = state.strokeStyle) ∧
          (call.inks = false →
            (ctx.read before).current.fillStyle = (ctx.read before).current.strokeStyle)) ∧
        (ctx.read log).Single) ∧
      ∀ paint, ((uses.foldl Use.apply c).perform (.setPaint paint)).calls =
        c.calls ++ log ++
          if paint.IsPaint then [.set (.fillStyle paint), .set (.strokeStyle paint)] else [] := by
  have hpaired := Use.paired_flatMap_told uses
  refine ⟨uses.flatMap Use.told, Use.calls_foldl_apply c uses, ?_, ?_, ?_, ?_⟩
  · intro before paint after hlog
    rw [hlog] at hpaired
    exact hpaired.fillStyle
  · intro before paint after hlog
    rw [hlog] at hpaired
    exact hpaired.strokeStyle
  · intro ctx hsingle
    refine ⟨?_, hsingle.read hpaired⟩
    intro before call after hlog
    rw [hlog] at hpaired
    exact hsingle.read_front hpaired
  · intro paint
    rw [calls_perform, Use.calls_foldl_apply, told_setPaint]
    rfl

/-- A string and, inside a bracket, a gradient for a paint; a number, which is none; something is
    filled there and lettered behind the bracket. -/
def repainting : List Use :=
  [.perform (.setPaint (.string "red")), .perform .save,
    .perform (.setPaint (.object ⟨.gradient, 7, false⟩)), .measure "a",
    .perform (.setPaint (.number 3.0)), .perform .fill, .perform .restore,
    .perform (.fillText "a" ⟨1.0, 2.0⟩)]

/-- The gradient is filled with, the string is put aside, and the string is lettered with. -/
theorem paints_agree_repainting :
    likeFresh.Single ∧
    ∃ log, (repainting.foldl Use.apply onSteadyHost).calls = log ∧
      log = log.take 6 ++ .fill :: log.drop 7 ∧ (HostCall.fill).inks = false ∧
      (likeFresh.read (log.take 6)).current.fillStyle =
        (likeFresh.read (log.take 6)).current.strokeStyle ∧
      (likeFresh.read (log.take 6)).current.fillStyle = .object ⟨.gradient, 7, false⟩ ∧
      (∀ state ∈ (likeFresh.read (log.take 6)).saved, state.fillStyle = state.strokeStyle) ∧
      (likeFresh.read log).Single ∧ (likeFresh.read log).current.strokeStyle = .string "red" := by
  have hstart : likeFresh.Single := ⟨rfl, fun _ h => nomatch h⟩
  obtain ⟨log, hcalls, -, -, hread, -⟩ := paints_agree repainting onSteadyHost
  obtain ⟨hwithin, hend⟩ := hread likeFresh hstart
  have hlog : (repainting.foldl Use.apply onSteadyHost).calls = log := hcalls
  have hsplit : log = log.take 6 ++ .fill :: log.drop 7 := by
    rw [← hlog]
    rfl
  obtain ⟨hsaved, hcurrent⟩ := hwithin (log.take 6) .fill (log.drop 7) hsplit
  refine ⟨hstart, log, hlog, hsplit, rfl, hcurrent rfl, ?_, hsaved, hend, ?_⟩
  · rw [← hlog]
    rfl
  · rw [← hlog]
    rfl

end Canvas

end BatchDraw
