/-
  BatchDraw.Proofs.Wire.Uncounted

  Lists that are too long to be counted.

  A count that does not fit is written as the largest one, but everything that was to be
  counted is written behind it. An operation with such a list comes back with as much of the
  list as the count says (`Op.counted`), and what it leaves of its operands (`Op.surplus`)
  stays in front of the operands of the next operations. These are read from the surplus on
  (`Batch.decode_ofOps_uncounted`), while the operations in front are read as ever.

  An operation whose lists can be counted leaves nothing. Any other one leaves something,
  and there are operations that do not come back behind it as they do without it.
-/
import BatchDraw.Proofs.Wire.Strokes
import BatchDraw.Proofs.Surface.Concatenation

namespace BatchDraw

variable {N : Type}

/-! ## Counts that do not fit -/

/-- A count that does not fit is written as the largest one. -/
theorem countWord_min (n : Nat) : countWord (min maxCount n) = countWord n := by
  by_cases hfits : n ≤ maxCount
  · rw [Nat.min_eq_right hfits]
  · have hmin : min maxCount n = maxCount := Nat.min_eq_left (by omega)
    rw [hmin, countWord, countWord, if_pos (Nat.le_refl maxCount), if_neg hfits]

/-- A list leaves entries behind its count when the count does not fit. -/
theorem exists_drop_eq_cons {α : Type} {entries : List α} (h : maxCount < entries.length) :
    ∃ first others, entries.drop maxCount = first :: others := by
  have hlength : (entries.drop maxCount).length ≠ 0 := by
    rw [List.length_drop]
    omega
  exact List.exists_cons_of_ne_nil fun hnil => hlength (congrArg List.length hnil)

/-! ## Strokes -/

namespace StrokeStyle

variable {style : StrokeStyle}

/-- A style as far as the count of its dashes reaches. The reals behind the counted dashes
    are read as the offset and as the miter limit. -/
def counted (style : StrokeStyle) : StrokeStyle :=
  match style.dash.drop maxCount with
  | [] => style
  | first :: others =>
    { style with
      dash := style.dash.take maxCount
      dashOffset := first
      miterLimit := some (others.headD style.dashOffset) }

/-- The reals of a style that are left behind those that are read. -/
def surplus (style : StrokeStyle) : List Float :=
  match style.dash.drop maxCount with
  | [] => []
  | _ :: others =>
    if style.join = .miter then
      (others ++ [style.dashOffset]).tail ++ [style.miterLimit.getD defaultMiterLimit]
    else
      others ++ [style.dashOffset]

/-- A style whose dashes can be counted is read to its end. -/
theorem counted_of_fits (h : style.dash.length ≤ maxCount) :
    style.counted = style ∧ style.surplus = [] := by
  have hdrop : style.dash.drop maxCount = [] := List.drop_eq_nil_of_le h
  unfold counted surplus
  rw [hdrop]
  exact ⟨rfl, rfl⟩

theorem surplus_ne_nil (h : maxCount < style.dash.length) : style.surplus ≠ [] := by
  obtain ⟨first, others, hdrop⟩ := exists_drop_eq_cons h
  unfold surplus
  rw [hdrop]
  show (if style.join = .miter then _ else _) ≠ []
  split <;> simp

/-- One dash too many without a miter join leaves the offset. -/
theorem surplus_of_drop {last : Float} (hjoin : style.join ≠ .miter)
    (hdrop : style.dash.drop maxCount = [last]) : style.surplus = [style.dashOffset] := by
  unfold surplus
  rw [hdrop]
  exact if_neg hjoin

theorem length_counted_le (style : StrokeStyle) : style.counted.dash.length ≤ maxCount := by
  unfold counted
  split
  case h_1 hdrop => exact List.drop_eq_nil_iff.mp hdrop
  case h_2 => exact List.length_take_le maxCount style.dash

/-- The operands of a style are those of the style that is read, and the surplus. -/
theorem wire_eq_counted (style : StrokeStyle) :
    (style.wire : Batch N) = style.counted.wire ++ { reals := style.surplus } := by
  unfold counted surplus
  cases hdrop : style.dash.drop maxCount with
  | nil => exact (Batch.append_empty _).symm
  | cons first others =>
    have hcount : countWord (style.dash.take maxCount).length = countWord style.dash.length := by
      rw [List.length_take, countWord_min]
    have hdash : style.dash = style.dash.take maxCount ++ first :: others := by
      rw [← hdrop, List.take_append_drop]
    -- There are dashes on both sides, so both sides have an offset.
    have htake : (style.dash.take maxCount).isEmpty = false := by
      rw [List.isEmpty_eq_false_iff, Ne, List.take_eq_nil_iff, hdash]
      simp [maxCount]
    refine Batch.ext rfl ?_ ?_ rfl rfl
    · show [countWord style.dash.length, _, _] = [countWord (style.dash.take maxCount).length, _, _]
      rw [hcount]
    · simp only [wire, Batch.reals_append, htake]
      generalize style.dash.take maxCount = front at hdash
      rw [hdash]
      cases others <;> cases style.join <;> simp

end StrokeStyle

/-! ## Paths -/

theorem segmentsWire_append (segments others : List Segment) :
    (segmentsWire (segments ++ others) : Batch N) =
      segmentsWire segments ++ segmentsWire others := by
  ext1 <;> simp [segmentsWire]

namespace Shape

/-- A shape as far as the count of its segments reaches. -/
def counted : Shape → Shape
  | rect r => .rect r
  | path segments => .path (segments.take maxCount)

/-- The operands of the segments that are not counted. -/
def surplus : Shape → Batch N
  | rect _ => .empty
  | path segments => segmentsWire (segments.drop maxCount)

theorem counted_of_fits {shape : Shape} (h : shape.Fits) :
    shape.counted = shape ∧ (shape.surplus : Batch N) = .empty := by
  cases shape with
  | rect r => exact ⟨rfl, rfl⟩
  | path segments =>
    have hdrop : segments.drop maxCount = [] := List.drop_eq_nil_of_le h
    have htake : segments.take maxCount = segments := List.take_of_length_le h
    rw [counted, surplus, hdrop, htake]
    exact ⟨rfl, rfl⟩

theorem fits_counted (shape : Shape) : shape.counted.Fits := by
  cases shape with
  | rect r => trivial
  | path segments => exact List.length_take_le maxCount segments

/-- The operands of a shape are those of the shape that is read, and the surplus. -/
theorem wire_eq_counted (shape : Shape) :
    (shape.wire : Batch N) = shape.counted.wire ++ shape.surplus := by
  cases shape with
  | rect r => exact (Batch.append_empty _).symm
  | path segments =>
    have hcount : countWord (segments.take maxCount).length = countWord segments.length := by
      rw [List.length_take, countWord_min]
    rw [counted, surplus, wire, wire, hcount, Batch.append_assoc, ← segmentsWire_append,
      List.take_append_drop]

end Shape

/-! ## Operations -/

namespace Op

/-- An operation as far as the counts of its lists reach. -/
def counted : Op N → Op N
  | setStroke style => .setStroke style.counted
  | strokeShape shape => .strokeShape shape.counted
  | fillShape shape => .fillShape shape.counted
  | clipShape shape => .clipShape shape.counted
  | op => op

/-- The operands of an operation that are left behind those that are read. -/
def surplus : Op N → Batch N
  | setStroke style => { reals := style.surplus }
  | strokeShape shape | fillShape shape | clipShape shape => shape.surplus
  | _ => .empty

theorem fits_counted (op : Op N) : op.counted.Fits := by
  cases op with
  | setStroke style => exact style.length_counted_le
  | strokeShape shape | fillShape shape | clipShape shape => exact shape.fits_counted
  | _ => trivial

/-- An operation whose lists can be counted is read to its end. -/
theorem counted_of_fits {op : Op N} (h : op.Fits) : op.counted = op ∧ op.surplus = .empty := by
  cases op with
  | setStroke style =>
    obtain ⟨hcounted, hsurplus⟩ := StrokeStyle.counted_of_fits h
    rw [counted, surplus, hcounted, hsurplus]
    exact ⟨rfl, rfl⟩
  | strokeShape shape | fillShape shape | clipShape shape =>
    obtain ⟨hcounted, hsurplus⟩ := Shape.counted_of_fits (N := N) h
    rw [counted, surplus, hcounted, hsurplus]
    exact ⟨rfl, rfl⟩
  | _ => exact ⟨rfl, rfl⟩

theorem tags_surplus (op : Op N) : op.surplus.tags = [] := by
  cases op with
  | strokeShape shape | fillShape shape | clipShape shape => cases shape <;> rfl
  | _ => rfl

/-- What is written for an operation is what is written for the one that is read, and the
    surplus. -/
theorem wire_eq_counted (op : Op N) : op.wire = op.counted.wire ++ op.surplus := by
  have hkind : op.counted.kind = op.kind := by cases op <;> rfl
  have hoperands : op.operands = op.counted.operands ++ op.surplus := by
    cases op with
    | setStroke style => exact style.wire_eq_counted
    | strokeShape shape | fillShape shape | clipShape shape => exact shape.wire_eq_counted
    | _ => exact (Batch.append_empty _).symm
  have htags : op.wire.tags = (op.counted.wire ++ op.surplus).tags := by
    rw [Batch.tags_append, tags_surplus, List.append_nil, wire, wire, hkind]
  -- The stacks of what is written are those of the operands.
  exact Batch.ext htags (congrArg Batch.ints hoperands :) (congrArg Batch.reals hoperands :)
    (congrArg Batch.texts hoperands :) (congrArg Batch.natives hoperands :)

end Op

/-! ## Reading on from a surplus -/

theorem Sizes.of_zero (s : Stack) : Sizes.zero.of s = 0 := by
  cases s <;> rfl

namespace Batch

variable {before after : List (Op N)} {op : Op N}

/-- An operation leaves its surplus in front of the operands of those behind it. -/
theorem ofOps_uncounted (before : List (Op N)) (op : Op N) (after : List (Op N)) :
    ofOps (before ++ op :: after) =
      ofOps (before ++ [op.counted]) ++ (op.surplus ++ ofOps after) := by
  have hwire : ∀ other : Op N, ofOps [other] = other.wire := fun other => empty_append other.wire
  rw [List.append_cons, ofOps_append, ofOps_append, ofOps_append, hwire, hwire,
    op.wire_eq_counted]
  simp only [append_assoc]

theorem length_tags_ofOps (ops : List (Op N)) : (ofOps ops).tags.length = ops.length := by
  have hclear : ∀ step ∈ ops.map BatchStep.push, step.isClear = false := by
    intro step hstep
    obtain ⟨op, -, rfl⟩ := List.mem_map.mp hstep
    rfl
  rw [ofOps_eq_layout, length_tags_layout hclear, List.length_map]

theorem fits_append_counted (hbefore : ∀ o ∈ before, o.Fits) (op : Op N) :
    ∀ o ∈ before ++ [op.counted], o.Fits :=
  List.forall_mem_append.mpr ⟨hbefore, List.forall_mem_singleton.mpr op.fits_counted⟩

/-- Operations that can be counted are yielded first, whatever stands behind them. -/
theorem items_ofOps_append (hbefore : ∀ o ∈ before, o.Fits) (c : Batch N) :
    (Decoder.ofBatch (ofOps before ++ c) .skip).items before.length =
      before.map fun o => some (.ok o.carried) := by
  obtain ⟨feed, hrun, -⟩ := exists_feed_between (decode_skip_ofOps hbefore) Sizes.of_zero c
  have hitems : (Decoder.ofBatch (ofOps before ++ c) .skip).items (before.map Op.carried).length =
      (before.map Op.carried).map fun o => some (.ok o) := Decoder.items_of_run_ok hrun
  rw [List.length_map, List.map_map] at hitems
  exact hitems

/-- Behind an operation with a surplus, what is read from the surplus on decides. -/
theorem decode_ofOps_uncounted (hbefore : ∀ o ∈ before, o.Fits) (op : Op N)
    (after : List (Op N)) :
    (∀ q, (op.surplus ++ ofOps after).decode .skip = .ok q →
      ∃ p, (ofOps (before ++ op :: after)).decode .skip = .ok p ∧
        p.ops = before.map Op.carried ++ op.counted.carried :: q.ops) ∧
    ∀ e, (op.surplus ++ ofOps after).decode .skip = .error e →
      (ofOps (before ++ op :: after)).decode .skip =
        .error (e.moved (fun s => ((ofOps (before ++ [op.counted])).stack s).length)
          ((before.length + 1) + ·)) := by
  have hfront := decode_skip_ofOps (fits_append_counted hbefore op)
  have htags : (ofOps (before ++ [op.counted])).tags.length = before.length + 1 := by
    rw [length_tags_ofOps, List.length_append]
    rfl
  rw [ofOps_uncounted]
  refine ⟨?_, ?_⟩
  · intro q hq
    refine ⟨_, decode_append_eq_ok hfront Sizes.of_zero hq, ?_⟩
    show (before ++ [op.counted]).map Op.carried ++ q.ops = _
    rw [List.map_append, List.append_assoc]
    rfl
  · intro e he
    rw [decode_append_eq_error hfront Sizes.of_zero he, htags]

/-! ## Neighbours -/

/-- Whether the operations around an operation come back as they do without it. -/
def Undisturbed (before : List (Op N)) (op : Op N) (after : List (Op N)) : Prop :=
  ∃ p q found,
    (ofOps (before ++ op :: after)).decode .skip = .ok p ∧
    (ofOps (before ++ after)).decode .skip = .ok q ∧
    p.ops = q.ops.take before.length ++ found :: q.ops.drop before.length

/-- The operations around an operation are not disturbed when those behind it come back
    from its surplus. -/
theorem undisturbed_iff (hbefore : ∀ o ∈ before, o.Fits) (hafter : ∀ o ∈ after, o.Fits) :
    Undisturbed before op after ↔
      ∃ q, (op.surplus ++ ofOps after).decode .skip = .ok q ∧ q.ops = after.map Op.carried := by
  obtain ⟨hok, herror⟩ := decode_ofOps_uncounted hbefore op after
  have hwithout := decode_skip_ofOps (List.forall_mem_append.mpr ⟨hbefore, hafter⟩)
  have htake : ((before ++ after).map Op.carried).take before.length = before.map Op.carried := by
    rw [List.map_append]
    exact List.take_left' (List.length_map ..)
  have hdrop : ((before ++ after).map Op.carried).drop before.length = after.map Op.carried := by
    rw [List.map_append]
    exact List.drop_left' (List.length_map ..)
  refine ⟨?_, ?_⟩
  · rintro ⟨p, q, found, hp, hq, hops⟩
    cases hread : (op.surplus ++ ofOps after).decode .skip with
    | error e =>
      rw [herror e hread] at hp
      cases hp
    | ok r =>
      obtain ⟨p', hp', hops'⟩ := hok r hread
      rw [hp'] at hp
      cases hp
      rw [hwithout] at hq
      cases hq
      rw [hops', htake, hdrop] at hops
      exact ⟨r, rfl, (List.cons.inj (List.append_cancel_left hops)).2⟩
  · rintro ⟨r, hread, hr⟩
    obtain ⟨p, hp, hops⟩ := hok r hread
    refine ⟨p, _, op.counted.carried, hp, hwithout, ?_⟩
    rw [htake, hdrop, hops, hr]

end Batch

/-! ## What a surplus disturbs -/

namespace Read

variable {feed feed' : Feed N}

/-- Only behind the mark a rectangle is read. -/
theorem mark_of_run_shape {site : Site} {r : Rect}
    (h : (shape site).run feed = .ok (.rect r) feed') : feed.ints.rest.head? = some rectMark := by
  simp only [shape, run_bind_eq_ok_iff, run_int_eq_ok_iff] at h
  obtain ⟨word, middle, hword, h⟩ := h
  by_cases hmark : word = rectMark
  · have hrest : feed.ints.rest = word :: middle.ints.rest := hword.ints.rest
    rw [hrest, hmark]
    rfl
  · rw [if_neg hmark] at h
    simp only [run_bind_eq_ok_iff, run_pure_eq_ok_iff, reduceCtorEq, false_and, and_false,
      exists_false] at h

/-- What is filled by the only instruction is the shape that it reads. -/
theorem shape_of_run_fill {policy : Policy} {position : Nat} {filled : Shape}
    (h : (instructions policy position [OpKind.fillShape.tag]).run feed =
      .ok [.fillShape filled] feed') :
    (shape ⟨policy, position, .fillShape⟩).run feed = .ok filled feed' := by
  simp only [instructions, instruction?, OpKind.ofTag?_tag, op, run_bind_eq_ok_iff,
    run_pure_eq_ok_iff, run_map_eq_ok_iff] at h
  obtain ⟨_, middle, ⟨_, ⟨found, hfound, rfl⟩, rfl⟩, _, _, ⟨rfl, rfl⟩, hops, rfl⟩ := h
  obtain rfl : found = filled := Op.fillShape.inj (List.cons.inj hops).1
  exact hfound

end Read

/-- No segment has the mark of a rectangle as its tag. -/
theorem SegmentKind.tag_ne_rectMark (kind : SegmentKind) : kind.tag ≠ rectMark := by
  cases kind <;> decide

namespace Batch

/-- An opacity is read from the first real that is left over. -/
theorem decode_setOpacity_behind (x alpha : Float) (reals : List Float) :
    ∃ q, (({ reals := x :: reals } : Batch N) ++ ofOps [.setOpacity alpha]).decode .skip = .ok q ∧
      q.ops = [.setOpacity x] :=
  ⟨_, rfl, rfl⟩

/-- Whether operands that are left over change some operation that stands behind them. -/
def Changing (surplus : Batch N) : Prop :=
  ∃ other : Op N, other.Fits ∧
    ∀ q, (surplus ++ ofOps [other]).decode .skip = .ok q → q.ops ≠ [other.carried]

/-- A real that is left over changes every opacity but one. -/
theorem changing_reals (x : Float) (reals : List Float) :
    Changing ({ reals := x :: reals } : Batch N) := by
  have hother : ∃ alpha : Float, alpha ≠ x := by
    by_cases hzero : x = 0.0
    · rw [hzero]
      exact ⟨1.0, by decide⟩
    · exact ⟨0.0, Ne.symm hzero⟩
  obtain ⟨alpha, halpha⟩ := hother
  refine ⟨.setOpacity alpha, trivial, ?_⟩
  intro q hq hops
  obtain ⟨found, hfound, hx⟩ := decode_setOpacity_behind (N := N) x alpha reals
  have hsame : q = found := Except.ok.inj (hq.symm.trans hfound)
  rw [hsame, hx] at hops
  exact halpha (Op.setOpacity.inj (List.cons.inj hops).1).symm

/-- Where segments are left over, the tag of the first one stands in place of the mark of a
    rectangle. -/
theorem changing_segments {segments : List Segment} (hne : segments ≠ []) :
    Changing (segmentsWire segments : Batch N) := by
  refine ⟨.fillShape (.rect ⟨0.0, 0.0, 0.0, 0.0⟩), trivial, ?_⟩
  intro q hq hops
  obtain ⟨feed, hrun, -⟩ := decode_eq_ok_iff.mp hq
  rw [hops] at hrun
  obtain ⟨first, others, rfl⟩ := List.exists_cons_of_ne_nil hne
  have hshape := Read.shape_of_run_fill hrun
  have hmark : some first.kind.tag = some rectMark := Read.mark_of_run_shape hshape
  exact first.kind.tag_ne_rectMark (Option.some.inj hmark)

/-- What an operation leaves changes some operation. -/
theorem changing_surplus {op : Op N} (h : ¬ op.Fits) : Changing op.surplus := by
  cases op with
  | setStroke style =>
    have hlong : maxCount < style.dash.length := Nat.not_le.mp h
    obtain ⟨x, reals, hsurplus⟩ := List.exists_cons_of_ne_nil (StrokeStyle.surplus_ne_nil hlong)
    rw [Op.surplus, hsurplus]
    exact changing_reals x reals
  | strokeShape shape | fillShape shape | clipShape shape =>
    cases shape with
    | rect r => exact absurd trivial h
    | path segments =>
      have hlong : maxCount < segments.length := Nat.not_le.mp h
      obtain ⟨first, others, hdrop⟩ := exists_drop_eq_cons hlong
      rw [Op.surplus, Shape.surplus, hdrop]
      exact changing_segments (List.cons_ne_nil first others)
  | _ => exact absurd trivial h

/-- In front of an operation nothing changes, whatever it is. Behind it nothing changes if and
    only if its lists can be counted, and if they cannot be, what stands behind it is read
    from its surplus on. -/
theorem undisturbed_iff_fits (hbefore : ∀ o ∈ before, o.Fits) (op : Op N) :
    (∀ after,
      (Decoder.ofBatch (ofOps (before ++ op :: after)) .skip).items (before.length + 1) =
        (before ++ [op.counted]).map fun o => some (.ok o.carried)) ∧
    ((∀ after, (∀ o ∈ after, o.Fits) → Undisturbed before op after) ↔ op.Fits) ∧
    ∀ after,
      (∀ q, (op.surplus ++ ofOps after).decode .skip = .ok q →
        ∃ p, (ofOps (before ++ op :: after)).decode .skip = .ok p ∧
          p.ops = before.map Op.carried ++ op.counted.carried :: q.ops) ∧
      ∀ e, (op.surplus ++ ofOps after).decode .skip = .error e →
        (ofOps (before ++ op :: after)).decode .skip =
          .error (e.moved (fun s => ((ofOps (before ++ [op.counted])).stack s).length)
            ((before.length + 1) + ·)) := by
  refine ⟨?_, ⟨?_, ?_⟩, decode_ofOps_uncounted hbefore op⟩
  · intro after
    rw [ofOps_uncounted]
    have hitems := items_ofOps_append (fits_append_counted hbefore op) (op.surplus ++ ofOps after)
    rwa [List.length_append] at hitems
  · intro hall
    by_contra hlong
    obtain ⟨other, hother, hchanged⟩ := changing_surplus hlong
    have hafter : ∀ o ∈ [other], o.Fits := List.forall_mem_singleton.mpr hother
    obtain ⟨q, hread, hops⟩ := (undisturbed_iff hbefore hafter).mp (hall [other] hafter)
    exact hchanged q hread hops
  · intro hfits after hafter
    obtain ⟨-, hsurplus⟩ := Op.counted_of_fits hfits
    rw [undisturbed_iff hbefore hafter, hsurplus, empty_append]
    exact ⟨_, decode_skip_ofOps hafter, rfl⟩

/-- A round stroke with a number of dashes that are all alike. -/
def dotted (n : Nat) : StrokeStyle :=
  ⟨1.0, List.replicate n 0.0, 0.5, .round, .round, none⟩

theorem length_dotted (n : Nat) : (dotted n).dash.length = n := List.length_replicate

/-- With one dash more than can be counted the offset is left over. -/
theorem surplus_dotted : (dotted (maxCount + 1)).surplus = [0.5] := by
  have hdrop : ∀ n, (dotted (n + 1)).dash.drop n = [0.0] := by
    intro n
    show (List.replicate (n + 1) 0.0).drop n = _
    rw [List.drop_replicate, Nat.add_sub_cancel_left]
    rfl
  have hjoin : (dotted (maxCount + 1)).join ≠ .miter := nofun
  exact StrokeStyle.surplus_of_drop hjoin (hdrop maxCount)

/-- An opacity in front of the long stroke stays, but not every one behind it. -/
theorem undisturbed_iff_fits_dotted :
    (∀ after : List (Op Nat),
      (Decoder.ofBatch
          (ofOps ([.setOpacity 0.25] ++ .setStroke (dotted (maxCount + 1)) :: after)) .skip).items
          2 =
        [some (.ok (.setOpacity 0.25)),
          some (.ok (.setStroke (dotted (maxCount + 1)).counted.carried))]) ∧
    ¬ ∀ after : List (Op Nat), (∀ o ∈ after, o.Fits) →
      Undisturbed [.setOpacity 0.25] (.setStroke (dotted (maxCount + 1))) after := by
  have hbefore : ∀ o ∈ [(.setOpacity 0.25 : Op Nat)], o.Fits :=
    List.forall_mem_singleton.mpr trivial
  obtain ⟨hfront, hiff, -⟩ := undisturbed_iff_fits hbefore (.setStroke (dotted (maxCount + 1)))
  refine ⟨hfront, ?_⟩
  intro hall
  have hfits : (dotted (maxCount + 1)).dash.length ≤ maxCount := hiff.mp hall
  rw [length_dotted] at hfits
  omega

/-- Behind the long stroke an opacity comes back as the offset of its dashes. -/
theorem disturbed_dotted :
    (∃ p, (ofOps [.setStroke (dotted (maxCount + 1)), .setOpacity 1.0] : Batch Nat).decode .skip =
        .ok p ∧
      p.ops = [.setStroke (dotted (maxCount + 1)).counted.carried, .setOpacity 0.5]) ∧
    (∃ q, (ofOps [.setOpacity 1.0] : Batch Nat).decode .skip = .ok q ∧
      q.ops = [.setOpacity 1.0]) ∧
    ¬ Undisturbed ([] : List (Op Nat)) (.setStroke (dotted (maxCount + 1))) [.setOpacity 1.0] := by
  have hnone : ∀ o ∈ ([] : List (Op Nat)), o.Fits := nofun
  have hafter : ∀ o ∈ [(.setOpacity 1.0 : Op Nat)], o.Fits := List.forall_mem_singleton.mpr trivial
  obtain ⟨q, hread, hq⟩ := decode_setOpacity_behind (N := Nat) 0.5 1.0 []
  rw [← surplus_dotted] at hread
  refine ⟨?_, ⟨_, decode_skip_ofOps hafter, rfl⟩, ?_⟩
  · obtain ⟨p, hp, hops⟩ :=
      (decode_ofOps_uncounted hnone (.setStroke (dotted (maxCount + 1))) _).1 q hread
    rw [hq] at hops
    exact ⟨p, hp, hops⟩
  · rw [undisturbed_iff hnone hafter]
    intro h
    obtain ⟨r, hr, hops⟩ := h
    have hsame : r = q := Except.ok.inj (hr.symm.trans hread)
    rw [hsame, hq] at hops
    have halpha : (0.5 : Float) = 1.0 := Op.setOpacity.inj (List.cons.inj hops).1
    exact absurd halpha (by decide)

end Batch

end BatchDraw
