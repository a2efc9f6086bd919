import H266.Conversion
import H266.Proofs.BitWriter
import H266.Proofs.Header

/-!
# Adding NAL Units

Adding a NAL unit to a record under construction comes down to two things: whether the NAL
unit is accepted and what is read of it, which does not depend on what was added before, and
what an accepted NAL unit does to the builder, which is a total function.

## Main results

* `RecordBuilder.add_eq`: a NAL unit that is not accepted leaves no trace.
* `RecordBuilder.of_forM_add_eq_ok`: a run that succeeds adds accepted NAL units one by one.
* `RecordBuilder.offer_eq`: NAL units that are offered one by one are added if they are accepted.
-/

namespace H266

/-! ### Merging -/

/-- Constraints can always be encoded. -/
theorem GeneralConstraints.encode_eq_pack (constraints : GeneralConstraints) :
    constraints.encode = .ok (Bits.pack constraints.layout.bits) := by
  have hhigh : constraints.flags / 2 ^ 64 % 2 ^ 7 < 2 ^ 7 := Nat.mod_lt _ (by decide)
  have hlow : constraints.flags % 2 ^ 64 < 2 ^ 64 := Nat.mod_lt _ (by decide)
  have hreserved : constraints.reservedBits.toNat < 2 ^ 8 := constraints.reservedBits.toNat_lt
  refine BitWriter.encode_eq_pack ?_
  simp only [layout, Layout.fits_cons, Item.fits_flag, Item.fits_number, Item.fits_leading,
    Layout.fits_nil, and_true, true_and]
  exact ⟨hhigh, hlow, hreserved⟩

namespace ProfileAggregate

/-- The constraints information that a structure gives a record. -/
def constraintBytes (ptl : ProfileTierLevel) : Bytes :=
  match ptl.constraints with
  | some constraints => Bits.pack constraints.layout.bits
  | none => [0]

/-- Merging never fails. -/
theorem merge_eq (aggregate : ProfileAggregate) (ptl : ProfileTierLevel) (sublayers : Nat) :
    aggregate.merge ptl sublayers =
      .ok (aggregate.combine ptl sublayers (constraintBytes ptl)) := by
  have hinfo : constraintInfo ptl = .ok (constraintBytes ptl) := by
    rw [constraintInfo, constraintBytes]
    cases ptl.constraints with
    | none => rfl
    | some constraints => exact constraints.encode_eq_pack
  rw [merge, hinfo]
  rfl

/-- The aggregate with several structures merged in. -/
def combineAll (aggregate : ProfileAggregate) (sublayers : Nat) (ptls : List ProfileTierLevel) :
    ProfileAggregate :=
  ptls.foldl (fun aggregate ptl => aggregate.combine ptl sublayers (constraintBytes ptl)) aggregate

end ProfileAggregate

/-! ### Accepting -/

/-- What is read of a NAL unit that is accepted. -/
inductive NalUnitContent
  | video (vps : VideoParameterSet)
  | sequence (sps : SequenceParameterSet)
  /-- Nothing that a record tells. -/
  | other

/-- A NAL unit that is accepted. -/
structure AcceptedNalUnit where
  type : NalUnitType
  data : Bytes
  content : NalUnitContent

namespace RecordBuilder

/-- What is read of a NAL unit of the given type. -/
def readContent (type : NalUnitType) (nalUnit : Bytes) : Except Error NalUnitContent :=
  match type with
  | .videoParameterSet => (VideoParameterSet.parse nalUnit).map fun result => .video result.1
  | .sequenceParameterSet =>
    (SequenceParameterSet.parse nalUnit).map fun result => .sequence result.1
  | .pictureParameterSet => (PictureParameterSet.parse nalUnit).map fun _ => .other
  | _ => .ok .other

/-- What is read of a NAL unit is a parameter set, or nothing that a record tells. -/
theorem of_readContent_eq_ok {type : NalUnitType} {nalUnit : Bytes} {content : NalUnitContent}
    (h : readContent type nalUnit = .ok content) :
    (∃ vps rest, content = .video vps ∧ VideoParameterSet.parse nalUnit = .ok (vps, rest)) ∨
      (∃ sps rest, content = .sequence sps ∧
        SequenceParameterSet.parse nalUnit = .ok (sps, rest)) ∨
      content = .other := by
  unfold readContent at h
  split at h
  · obtain ⟨⟨vps, rest⟩, hparse, rfl⟩ := Check.of_map_eq_ok h
    exact .inl ⟨vps, rest, rfl, hparse⟩
  · obtain ⟨⟨sps, rest⟩, hparse, rfl⟩ := Check.of_map_eq_ok h
    exact .inr (.inl ⟨sps, rest, rfl, hparse⟩)
  · obtain ⟨_, -, rfl⟩ := Check.of_map_eq_ok h
    exact .inr (.inr rfl)
  · cases h
    exact .inr (.inr rfl)

/-- Reads a NAL unit that is to be added. -/
def accept (nalUnit : Bytes) : Except Error AcceptedNalUnit :=
  match NalUnitHeader.split nalUnit with
  | .error error => .error error
  | .ok (header, _) =>
    if header.type.isCollected then
      (readContent header.type nalUnit).map fun content => ⟨header.type, nalUnit, content⟩
    else
      .error (.invalidData (.typeNotCollected header.type))

/-- What a NAL unit must be like to be accepted. -/
theorem of_accept_eq_ok {nalUnit : Bytes} {accepted : AcceptedNalUnit}
    (h : accept nalUnit = .ok accepted) :
    accepted.data = nalUnit ∧ accepted.type.isCollected = true ∧
      NalUnitType.ofHeaderBytes? nalUnit = some accepted.type ∧
      readContent accepted.type nalUnit = .ok accepted.content := by
  rw [accept] at h
  cases hsplit : NalUnitHeader.split nalUnit with
  | error error =>
    rw [hsplit] at h
    cases h
  | ok result =>
    obtain ⟨header, payload⟩ := result
    have htype := NalUnitHeader.ofHeaderBytes?_of_split hsplit
    rw [hsplit] at h
    simp only at h
    by_cases hcollected : header.type.isCollected = true
    · rw [if_pos hcollected] at h
      cases hcontent : readContent header.type nalUnit with
      | error error =>
        rw [hcontent] at h
        cases h
      | ok content =>
        rw [hcontent] at h
        cases h
        exact ⟨rfl, hcollected, htype, hcontent⟩
    · rw [if_neg hcollected] at h
      cases h

/-! ### Adding -/

variable (builder : RecordBuilder)

/-- The builder after a video parameter set is folded in. -/
def withVideo (vps : VideoParameterSet) : RecordBuilder :=
  let sublayers := max builder.sublayers (vps.maxSublayersMinus1 + 1)
  { builder with
    sublayers
    profile := builder.profile.combineAll sublayers vps.profileTierLevels }

/-- The builder after a sequence parameter set is folded in. -/
def withSequence (sps : SequenceParameterSet) : RecordBuilder :=
  let sublayers := max builder.sublayers (sps.maxSublayersMinus1 + 1)
  { builder with
    sublayers
    profile := builder.profile.combineAll sublayers sps.profileTierLevel.toList
    maxWidth := max builder.maxWidth sps.maxWidth
    maxHeight := max builder.maxHeight sps.maxHeight
    chromaFormat := sps.chromaFormat
    bitDepthMinus8 := sps.bitDepthMinus8 }

/-- The builder after what was read of a NAL unit is folded in. -/
def withContent : NalUnitContent → RecordBuilder
  | .video vps => builder.withVideo vps
  | .sequence sps => builder.withSequence sps
  | .other => builder

/-- The builder after an accepted NAL unit is added. -/
def withNalUnit (accepted : AcceptedNalUnit) : RecordBuilder :=
  { builder.withContent accepted.content with
    latestFirst :=
      insertNalUnit (accepted.type.isParameterSet && builder.completeArrays) accepted.type
        accepted.data builder.latestFirst }

theorem mergeProfile_eq (ptl : ProfileTierLevel) :
    mergeProfile ptl builder =
      (.ok (), { builder with
        profile := builder.profile.combine ptl builder.sublayers
          (ProfileAggregate.constraintBytes ptl) }) := by
  rw [mergeProfile, StateStep.get_bind, ProfileAggregate.merge_eq]
  rfl

theorem forM_mergeProfile_eq (ptls : List ProfileTierLevel) :
    ptls.forM mergeProfile builder =
      (.ok (), { builder with
        profile := builder.profile.combineAll builder.sublayers ptls }) := by
  induction ptls generalizing builder with
  | nil => rfl
  | cons ptl ptls ih => exact (StateStep.ok_bind (mergeProfile_eq builder ptl)).trans (ih _)

theorem foldVideo_eq (vps : VideoParameterSet) :
    foldVideo vps builder = (.ok (), builder.withVideo vps) :=
  forM_mergeProfile_eq { builder with sublayers := _ } vps.profileTierLevels

theorem foldSequence_eq (sps : SequenceParameterSet) :
    foldSequence sps builder = (.ok (), builder.withSequence sps) := by
  have hmerge : ∀ raised : RecordBuilder, sps.profileTierLevel.forM mergeProfile raised =
      (.ok (), { raised with
        profile := raised.profile.combineAll raised.sublayers sps.profileTierLevel.toList }) := by
    intro raised
    cases sps.profileTierLevel with
    | none => rfl
    | some ptl => exact mergeProfile_eq raised ptl
  exact StateStep.ok_bind (hmerge { builder with sublayers := _ })

/-- **Adding**: whether a NAL unit is accepted does not depend on the builder, and if it is not
accepted it leaves no trace. -/
theorem add_eq (nalUnit : Bytes) :
    add nalUnit builder =
      match accept nalUnit with
      | .ok accepted => (.ok (), builder.withNalUnit accepted)
      | .error error => (.error error, builder) := by
  rw [add, accept]
  cases NalUnitHeader.split nalUnit with
  | error error => rfl
  | ok result =>
    obtain ⟨⟨layerId, type, temporalIdPlus1⟩, payload⟩ := result
    cases type
    case videoParameterSet =>
      simp only [readContent]
      cases VideoParameterSet.parse nalUnit with
      | error error => rfl
      | ok result => exact StateStep.ok_bind (foldVideo_eq builder result.1)
    case sequenceParameterSet =>
      simp only [readContent]
      cases SequenceParameterSet.parse nalUnit with
      | error error => rfl
      | ok result => exact StateStep.ok_bind (foldSequence_eq builder result.1)
    case pictureParameterSet =>
      simp only [readContent]
      cases PictureParameterSet.parse nalUnit with
      | error error => rfl
      | ok result => rfl
    all_goals rfl

/-! ### Runs -/

/-- The builder after accepted NAL units are added one by one. -/
def withNalUnits (accepted : List AcceptedNalUnit) : RecordBuilder :=
  accepted.foldl withNalUnit builder

/-- A run that succeeds has accepted all of its NAL units. -/
theorem of_forM_add_eq_ok {nalUnits : List Bytes} {builder builder' : RecordBuilder}
    (h : nalUnits.forM add builder = (.ok (), builder')) :
    ∃ accepted, nalUnits.map accept = accepted.map .ok ∧
      builder' = builder.withNalUnits accepted := by
  induction nalUnits generalizing builder with
  | nil =>
    cases h
    exact ⟨[], rfl, rfl⟩
  | cons nalUnit nalUnits ih =>
    have hadd := add_eq builder nalUnit
    cases haccept : accept nalUnit with
    | error error =>
      rw [haccept] at hadd
      have herror : (nalUnit :: nalUnits).forM add builder = (.error error, builder) :=
        StateStep.error_bind hadd
      rw [herror] at h
      cases h
    | ok first =>
      rw [haccept] at hadd
      have hrest : (nalUnit :: nalUnits).forM add builder =
          nalUnits.forM add (builder.withNalUnit first) :=
        StateStep.ok_bind hadd
      rw [hrest] at h
      obtain ⟨accepted, haccepted, hbuilder⟩ := ih h
      exact ⟨first :: accepted, by rw [List.map_cons, List.map_cons, haccept, haccepted],
        hbuilder⟩

/-- The builder after NAL units were offered to it one by one, whether they were accepted or
not. -/
def offer (builder : RecordBuilder) (nalUnits : List Bytes) : RecordBuilder :=
  nalUnits.foldl (fun builder nalUnit => (add nalUnit builder).2) builder

/-- Those of some NAL units that are accepted. -/
theorem mem_filterMap_accept_iff {nalUnits : List Bytes} {accepted : AcceptedNalUnit} :
    accepted ∈ nalUnits.filterMap (fun nalUnit => (accept nalUnit).toOption) ↔
      ∃ nalUnit ∈ nalUnits, accept nalUnit = .ok accepted := by
  have hok (nalUnit : Bytes) :
      (accept nalUnit).toOption = some accepted ↔ accept nalUnit = .ok accepted := by
    cases accept nalUnit <;> simp [Except.toOption]
  simp only [List.mem_filterMap, hok]

/-- A run adds the NAL units that are accepted. -/
theorem offer_eq (builder : RecordBuilder) (nalUnits : List Bytes) :
    builder.offer nalUnits =
      builder.withNalUnits (nalUnits.filterMap fun nalUnit => (accept nalUnit).toOption) := by
  induction nalUnits generalizing builder with
  | nil => rfl
  | cons nalUnit nalUnits ih =>
    rw [offer, List.foldl_cons, add_eq, List.filterMap_cons]
    cases accept nalUnit with
    | error error => exact ih builder
    | ok accepted => exact ih (builder.withNalUnit accepted)

end RecordBuilder

end H266
