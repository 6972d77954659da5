/-
  BatchDraw.Proofs.Path.Reading

  What a path in progress holds.

  A path in progress keeps a start beside its elements. That is no second memory: the
  start is that of the last subpath among the elements, and there is one as soon as there
  are elements, because these begin with a start. So a path in progress is a matter of its
  elements alone (`PathBuilder.ofPath`), and a step finds only two cases, a path that is
  empty and one that is not.

  What a history leaves can therefore be read off the steps since everything was last
  discarded (`PathStep.reading`). They count one for one, except in front. There a close
  counts nothing, a line is only the start that it needs, and a curve brings its start
  along.
-/
import BatchDraw.Path
import Mathlib.Data.List.DropRight
import Mathlib.Data.List.Induction

namespace BatchDraw

/-! ## Starts -/

/-- The point at which a segment starts a subpath, if it starts one. -/
def Segment.start? : Segment → Option Point
  | moveTo p => some p
  | lineTo _ | curveTo _ _ _ | close => none

/-- The point at which the last subpath of a path starts. -/
def lastStart (path : Path) : Option Point :=
  (path.filterMap Segment.start?).getLast?

theorem lastStart_append (path others : Path) :
    lastStart (path ++ others) = (lastStart others).or (lastStart path) := by
  unfold lastStart
  rw [List.filterMap_append, List.getLast?_append]

/-- Nothing stands in front of the first subpath. -/
def Begun (path : Path) : Prop :=
  ∀ segment, path.head? = some segment → ∃ p, segment = .moveTo p

theorem begun_nil : Begun [] := by
  intro segment h
  cases h

theorem begun_cons (p : Point) (path : Path) : Begun (.moveTo p :: path) := by
  intro segment h
  cases h
  exact ⟨p, rfl⟩

/-- A path that is not empty has a last start. -/
theorem Begun.exists_lastStart {path : Path} (h : Begun path) (hpath : path ≠ []) :
    ∃ p, lastStart path = some p := by
  cases path with
  | nil => exact absurd rfl hpath
  | cons first path =>
    obtain ⟨p, rfl⟩ := h first rfl
    have hsplit : lastStart (.moveTo p :: path) = (lastStart path).or (some p) :=
      lastStart_append [.moveTo p] path
    rw [hsplit]
    cases lastStart path with
    | none => exact ⟨p, rfl⟩
    | some q => exact ⟨q, rfl⟩

/-- There is a last start exactly where there is anything. -/
theorem Begun.isSome_lastStart_iff {path : Path} (h : Begun path) :
    (lastStart path).isSome = true ↔ path ≠ [] := by
  refine ⟨?_, ?_⟩
  · rintro hsome rfl
    cases hsome
  · intro hpath
    obtain ⟨p, hp⟩ := h.exists_lastStart hpath
    rw [hp]
    rfl

/-! ## Reading steps -/

namespace PathStep

/-- Whether a step discards everything. -/
def isClear : PathStep → Bool
  | clear => true
  | add _ | addRect _ => false

/-- What a step stands for where a subpath is open. -/
def elements : PathStep → Path
  | add segment => [segment]
  | addRect rect =>
    [.moveTo ⟨rect.x0, rect.y0⟩, .lineTo ⟨rect.x1, rect.y0⟩, .lineTo ⟨rect.x1, rect.y1⟩,
      .lineTo ⟨rect.x0, rect.y1⟩, .close]
  | clear => []

/-- What steps stand for where nothing is open. -/
def reading : List PathStep → Path
  | [] => []
  | clear :: steps | add .close :: steps => reading steps
  | add (.lineTo p) :: steps => .moveTo p :: steps.flatMap elements
  | add (.curveTo p q r) :: steps => .moveTo p :: .curveTo p q r :: steps.flatMap elements
  | add (.moveTo p) :: steps => .moveTo p :: steps.flatMap elements
  | addRect rect :: steps => (addRect rect).elements ++ steps.flatMap elements

theorem begun_reading (steps : List PathStep) : Begun (reading steps) := by
  fun_induction reading steps with
  | case1 => exact begun_nil
  | case2 steps ih | case3 steps ih => exact ih
  | case4 p steps | case5 p q r steps | case6 p steps | case7 rect steps => exact begun_cons _ _

/-- What a path becomes by a step. -/
def grow (path : Path) (step : PathStep) : Path :=
  if path = [] then reading [step] else path ++ step.elements

/-- A reading grows step by step. -/
theorem reading_concat (steps : List PathStep) (step : PathStep) :
    reading (steps ++ [step]) = grow (reading steps) step := by
  unfold grow
  fun_induction reading steps with
  | case1 => rfl
  | case2 steps ih | case3 steps ih => exact ih
  | case4 p steps | case5 p q r steps | case6 p steps =>
    -- A subpath is open, so the last step counts as it is.
    rw [if_neg (List.cons_ne_nil _ _)]
    simp only [List.cons_append, reading, List.flatMap_append, List.flatMap_singleton]
  | case7 rect steps =>
    have hopen : (addRect rect).elements ++ steps.flatMap elements ≠ [] := List.cons_ne_nil _ _
    rw [if_neg hopen]
    simp only [List.cons_append, reading, List.flatMap_append, List.flatMap_singleton,
      List.append_assoc]

/-- A step only ever adds behind what is there, and what it adds to an empty path begins with a
    start. -/
theorem exists_grow_eq_append (path : Path) (step : PathStep) :
    ∃ pushed, grow path step = path ++ pushed ∧ (path = [] → Begun pushed) := by
  unfold grow
  split
  · rename_i hpath
    exact ⟨reading [step], by rw [hpath, List.nil_append], fun _ => begun_reading [step]⟩
  · rename_i hpath
    exact ⟨step.elements, rfl, fun h => absurd h hpath⟩

/-- The steps since everything was last discarded. -/
def sinceClear (steps : List PathStep) : List PathStep :=
  steps.rtakeWhile (fun step => !step.isClear)

theorem sinceClear_concat_of_isClear {step : PathStep} (h : step.isClear = true)
    (steps : List PathStep) : sinceClear (steps ++ [step]) = [] := by
  rw [sinceClear, List.rtakeWhile_concat_neg _ _ _ (by simp [h])]

theorem sinceClear_concat {step : PathStep} (h : step.isClear = false) (steps : List PathStep) :
    sinceClear (steps ++ [step]) = sinceClear steps ++ [step] := by
  rw [sinceClear, List.rtakeWhile_concat_pos _ _ _ (by simp [h]), sinceClear]

end PathStep

/-! ## Histories -/

namespace PathBuilder

open PathStep

/-- The path in progress with these elements. -/
def ofPath (path : Path) : PathBuilder := ⟨path, lastStart path⟩

/-- The path in progress that a history leaves. -/
def ofSteps (steps : List PathStep) : PathBuilder := steps.foldl PathStep.apply .empty

theorem ofSteps_concat (steps : List PathStep) (step : PathStep) :
    ofSteps (steps ++ [step]) = step.apply (ofSteps steps) := by
  rw [ofSteps, List.foldl_append]
  rfl

/-- A step finds all that it needs among the elements. -/
theorem apply_ofPath {path : Path} (hpath : Begun path) {step : PathStep}
    (hstep : step.isClear = false) : step.apply (ofPath path) = ofPath (grow path step) := by
  unfold grow
  split
  · -- Nothing is open.
    subst path
    cases step with
    | add segment => cases segment <;> rfl
    | addRect rect => rfl
    | clear => cases hstep
  · rename_i hopen
    obtain ⟨start, hstart⟩ := hpath.exists_lastStart hopen
    have hgrown : ofPath (path ++ step.elements) =
        ⟨path ++ step.elements, (lastStart step.elements).or (some start)⟩ := by
      rw [ofPath, lastStart_append, hstart]
    have hbefore : ofPath path = ⟨path, some start⟩ := by rw [ofPath, hstart]
    rw [hgrown, hbefore]
    cases step with
    | add segment => cases segment <;> rfl
    | addRect rect =>
      show PathBuilder.mk (path ++ [_] ++ _) _ = _
      rw [List.append_assoc]
      rfl
    | clear => cases hstep

/-- A path in progress holds the reading of the steps since everything was last discarded. -/
theorem ofSteps_eq_ofPath (steps : List PathStep) :
    ofSteps steps = ofPath (reading (sinceClear steps)) := by
  -- A history grows at its end, and its last step decides what is kept.
  induction steps using List.reverseRecOn with
  | nil => rfl
  | append_singleton steps step ih =>
    rw [ofSteps_concat, ih]
    cases hclear : step.isClear with
    | false => rw [apply_ofPath (begun_reading _) hclear, sinceClear_concat hclear, reading_concat]
    | true =>
      rw [sinceClear_concat_of_isClear hclear]
      cases step with
      | clear => rfl
      | add _ | addRect _ => cases hclear

theorem ofSteps_concat_eq_ofPath {step : PathStep} (hstep : step.isClear = false)
    (steps : List PathStep) :
    ofSteps (steps ++ [step]) = ofPath (grow (ofSteps steps).elements step) := by
  rw [ofSteps_concat, ofSteps_eq_ofPath, apply_ofPath (begun_reading _) hstep]
  rfl

/-- A path in progress follows the rules of a canvas, whatever was done to it. Its elements are
    the reading of the steps since everything was last discarded. They are empty or begin with a
    start, and a start is kept exactly when they are not empty, that of their last subpath. Each
    step pushes its elements one by one behind those that are there, and none but a start is
    ever pushed onto an empty path. -/
theorem ofSteps_reads (steps : List PathStep) :
    (ofSteps steps).elements = reading (sinceClear steps) ∧
    ((ofSteps steps).elements = [] ∨ ∃ p rest, (ofSteps steps).elements = .moveTo p :: rest) ∧
    ((ofSteps steps).start.isSome = true ↔ (ofSteps steps).elements ≠ []) ∧
    (ofSteps steps).start = lastStart (ofSteps steps).elements ∧
    ∀ step : PathStep, step.isClear = false →
      ∃ pushed, (ofSteps (steps ++ [step])).elements = (ofSteps steps).elements ++ pushed ∧
        ∀ front segment back, pushed = front ++ segment :: back →
          (ofSteps steps).elements ++ front = [] → ∃ p, segment = .moveTo p := by
  have hpath : ofSteps steps = ofPath (reading (sinceClear steps)) := ofSteps_eq_ofPath steps
  have hbegun : Begun (reading (sinceClear steps)) := begun_reading _
  refine ⟨congrArg elements hpath, ?_, ?_, ?_, ?_⟩
  · rw [hpath]
    cases helements : reading (sinceClear steps) with
    | nil => exact .inl rfl
    | cons first rest =>
      rw [helements] at hbegun
      obtain ⟨p, rfl⟩ := hbegun first rfl
      exact .inr ⟨p, rest, rfl⟩
  · rw [hpath]
    exact hbegun.isSome_lastStart_iff
  · rw [hpath]
    rfl
  · intro step hstep
    obtain ⟨pushed, hgrow, hpushed⟩ := exists_grow_eq_append (ofSteps steps).elements step
    refine ⟨pushed, ?_, ?_⟩
    · rw [ofSteps_concat_eq_ofPath hstep]
      exact hgrow
    · rintro front segment back rfl hempty
      obtain ⟨hnil, rfl⟩ := List.append_eq_nil_iff.mp hempty
      exact hpushed hnil segment rfl

/-- A rectangle that is discarded, then a close and a curve with nothing open, a line behind a
    close, and another rectangle. -/
def scribble : List PathStep :=
  [.addRect ⟨0.0, 0.0, 8.0, 6.0⟩, .clear, .add .close,
    .add (.curveTo ⟨1.0, 1.0⟩ ⟨2.0, 2.0⟩ ⟨3.0, 1.0⟩), .add .close, .add (.lineTo ⟨5.0, 6.0⟩),
    .addRect ⟨4.0, 4.0, 2.0, 7.0⟩]

/-- The curve has brought its start along, the start that is kept is that of the rectangle, and
    behind a `clear` the next line is pushed as a start. -/
theorem ofSteps_reads_scribble :
    (ofSteps scribble).elements =
      [.moveTo ⟨1.0, 1.0⟩, .curveTo ⟨1.0, 1.0⟩ ⟨2.0, 2.0⟩ ⟨3.0, 1.0⟩, .close, .lineTo ⟨5.0, 6.0⟩,
        .moveTo ⟨4.0, 4.0⟩, .lineTo ⟨2.0, 4.0⟩, .lineTo ⟨2.0, 7.0⟩, .lineTo ⟨4.0, 7.0⟩, .close] ∧
    (ofSteps scribble).start = some ⟨4.0, 4.0⟩ ∧
    PathStep.isClear (.add (.lineTo ⟨3.0, 4.0⟩)) = false ∧
    ∃ pushed,
      (ofSteps (scribble ++ [.clear] ++ [.add (.lineTo ⟨3.0, 4.0⟩)])).elements = [] ++ pushed ∧
      ∀ front segment back, pushed = front ++ segment :: back →
        [] ++ front = [] → ∃ p, segment = .moveTo p := by
  have hline : PathStep.isClear (.add (.lineTo ⟨3.0, 4.0⟩)) = false := rfl
  obtain ⟨helements, -, -, hstart, -⟩ := ofSteps_reads scribble
  obtain ⟨-, -, -, -, hpushes⟩ := ofSteps_reads (scribble ++ [.clear])
  have hempty : (ofSteps (scribble ++ [.clear])).elements = [] := rfl
  have hpushed := hpushes _ hline
  rw [hempty] at hpushed
  rw [helements] at hstart
  exact ⟨helements, hstart, hline, hpushed⟩

end PathBuilder

end BatchDraw
