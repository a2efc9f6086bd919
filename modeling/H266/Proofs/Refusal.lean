import H266.Proofs.Building

/-!
# Refused NAL Units

What can fail when a NAL unit is added to a record under construction is reading it; folding in
what was read cannot. So whether a NAL unit is refused, and with which error, can be told from
the NAL unit alone, and one that is refused leaves the builder as it was. A run over NAL units
comes to the same as a run over those of them that are added.

## Main results

* `RecordBuilder.of_add_eq_error`, `RecordBuilder.of_add_eq_ok`: what one NAL unit does.
* `RecordBuilder.forM_added`: a run over the NAL units that are added does not fail.
* `RecordBuilder.add_leaves_no_trace`: all of this, for any builder.
-/

namespace H266.RecordBuilder

/-! ### One NAL unit -/

/-- A NAL unit that is refused was not accepted, and leaves no trace. -/
theorem of_add_eq_error {nalUnit : Bytes} {builder builder' : RecordBuilder} {error : Error}
    (h : add nalUnit builder = (.error error, builder')) :
    accept nalUnit = .error error ∧ builder' = builder := by
  rw [add_eq] at h
  cases haccept : accept nalUnit with
  | error own =>
    rw [haccept] at h
    cases h
    exact ⟨rfl, rfl⟩
  | ok accepted =>
    rw [haccept] at h
    cases h

/-- A NAL unit that is added was accepted, and what it does to the builder follows from what was
read of it. -/
theorem of_add_eq_ok {nalUnit : Bytes} {builder builder' : RecordBuilder}
    (h : add nalUnit builder = (.ok (), builder')) :
    ∃ accepted, accept nalUnit = .ok accepted ∧ builder' = builder.withNalUnit accepted := by
  rw [add_eq] at h
  cases haccept : accept nalUnit with
  | error error =>
    rw [haccept] at h
    cases h
  | ok accepted =>
    rw [haccept] at h
    cases h
    exact ⟨accepted, rfl, rfl⟩

/-- How adding a NAL unit ends does not depend on the builder. -/
theorem add_fst_eq (builder : RecordBuilder) (nalUnit : Bytes) :
    (add nalUnit builder).1 = (accept nalUnit).map fun _ => () := by
  rw [add_eq]
  cases accept nalUnit <;> rfl

/-! ### Runs -/

/-- Those of the NAL units offered one by one that are added, each by the builder as it is by
then. -/
def added (builder : RecordBuilder) : (nalUnits : List Bytes) → List Bytes
  | [] => []
  | nalUnit :: nalUnits =>
    match add nalUnit builder with
    | (.ok _, builder') => nalUnit :: builder'.added nalUnits
    | (.error _, builder') => builder'.added nalUnits

/-- Which NAL units are added can be told without the builder. -/
theorem added_eq_filter (builder : RecordBuilder) (nalUnits : List Bytes) :
    builder.added nalUnits = nalUnits.filter fun nalUnit => (accept nalUnit).isOk := by
  induction nalUnits generalizing builder with
  | nil => rfl
  | cons nalUnit nalUnits ih =>
    rcases hadd : add nalUnit builder with ⟨error | _, builder'⟩
    · obtain ⟨haccept, -⟩ := of_add_eq_error hadd
      rw [added, hadd, List.filter_cons_of_neg (by rw [haccept]; exact Bool.false_ne_true)]
      exact ih builder'
    · obtain ⟨accepted, haccept, -⟩ := of_add_eq_ok hadd
      rw [added, hadd, List.filter_cons_of_pos (by rw [haccept]; rfl)]
      exact congrArg (nalUnit :: ·) (ih builder')

/-- A run over the NAL units that are added does not fail, and ends as the run in which the
others were offered too. -/
theorem forM_added (builder : RecordBuilder) (nalUnits : List Bytes) :
    (builder.added nalUnits).forM add builder = (.ok (), builder.offer nalUnits) := by
  induction nalUnits generalizing builder with
  | nil => rfl
  | cons nalUnit nalUnits ih =>
    rw [offer, List.foldl_cons]
    rcases hadd : add nalUnit builder with ⟨error | _, builder'⟩
    · obtain ⟨-, rfl⟩ := of_add_eq_error hadd
      rw [added, hadd]
      exact ih builder'
    · rw [added, hadd]
      exact (StateStep.ok_bind hadd).trans (ih builder')

/-- Offering NAL units of which none is refused is a run over them. -/
theorem offer_of_forM_eq_ok {nalUnits : List Bytes} {builder builder' : RecordBuilder}
    (h : nalUnits.forM add builder = (.ok (), builder')) : builder.offer nalUnits = builder' := by
  induction nalUnits generalizing builder with
  | nil =>
    cases h
    rfl
  | cons nalUnit nalUnits ih =>
    have hstep : (add nalUnit >>= fun _ => nalUnits.forM add) builder = (.ok (), builder') := h
    rw [offer, List.foldl_cons]
    rcases hadd : add nalUnit builder with ⟨error | _, middle⟩
    · rw [StateStep.error_bind hadd] at hstep
      cases hstep
    · rw [StateStep.ok_bind hadd] at hstep
      exact ih hstep

/-- **Refusal**: a NAL unit that is refused leaves the builder as it was. Whether it is refused,
and with which error, is the same for every builder; merging what was read is no reason for it.
So which of some NAL units are added can be told from each of them alone, and offering all of
them ends as offering those that are added, of which none fails. -/
theorem add_leaves_no_trace (builder : RecordBuilder) :
    (∀ nalUnit error final, add nalUnit builder = (.error error, final) → final = builder) ∧
    (∀ nalUnit (other : RecordBuilder), (add nalUnit builder).1 = (add nalUnit other).1) ∧
    (∀ ptl sublayers, ∃ merged, builder.profile.merge ptl sublayers = .ok merged) ∧
    ∀ nalUnits,
      builder.added nalUnits = nalUnits.filter (fun nalUnit => (add nalUnit builder).1.isOk) ∧
      (builder.added nalUnits).forM add builder = (.ok (), builder.offer nalUnits) ∧
      builder.offer (builder.added nalUnits) = builder.offer nalUnits := by
  refine ⟨fun nalUnit error final h => (of_add_eq_error h).2, fun nalUnit other => ?_,
    fun ptl sublayers => ⟨_, ProfileAggregate.merge_eq builder.profile ptl sublayers⟩,
    fun nalUnits => ⟨?_, forM_added builder nalUnits,
      offer_of_forM_eq_ok (forM_added builder nalUnits)⟩⟩
  · rw [add_fst_eq, add_fst_eq]
  · rw [added_eq_filter]
    refine congrArg (nalUnits.filter ·) (funext fun nalUnit => ?_)
    rw [add_fst_eq]
    cases accept nalUnit <;> rfl

/-- A sequence parameter set that ends too early, offered after a video parameter set and before
another NAL unit. -/
theorem add_leaves_no_trace_cut_short :
    let vps : Bytes := [0x00, 0x71, 0x00, 0x00, 0x1F, 0x02, 0x3C, 0x80, 0x00, 0x40]
    let cut : Bytes := [0x00, 0x79, 0x00, 0x4C, 0x00]
    let pps : Bytes := [0x00, 0x81]
    let builder := (empty .standard).offer [vps]
    builder.sublayers = 1 ∧ builder.profile.merged = 1 ∧
      (∃ final, add cut builder = (.error .outOfData, final) ∧ final = builder) ∧
      (∀ other, (add cut other).1 = .error .outOfData) ∧
      builder.added [cut, pps] = [pps] ∧ builder.offer [pps] = builder.offer [cut, pps] := by
  intro vps cut pps builder
  obtain ⟨hleft, hsame, -, hruns⟩ := add_leaves_no_trace builder
  have hsublayers : builder.sublayers = 1 := by decide +kernel
  have hmerged : builder.profile.merged = 1 := by decide +kernel
  have herror : (add cut builder).1 = .error .outOfData := by decide +kernel
  have hadded : builder.added [cut, pps] = [pps] := by
    rw [(hruns [cut, pps]).1]
    decide +kernel
  clear_value builder cut pps
  obtain ⟨final, hadd⟩ : ∃ final, add cut builder = (.error .outOfData, final) :=
    ⟨_, Prod.ext herror rfl⟩
  refine ⟨hsublayers, hmerged, ⟨final, hadd, hleft cut _ final hadd⟩,
    fun other => (hsame cut other).symm.trans herror, hadded, ?_⟩
  calc builder.offer [pps]
      = builder.offer (builder.added [cut, pps]) := congrArg builder.offer hadded.symm
    _ = builder.offer [cut, pps] := (hruns [cut, pps]).2.2

end H266.RecordBuilder
