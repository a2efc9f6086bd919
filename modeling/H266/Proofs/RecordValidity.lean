import H266.Proofs.Steps
import H266.Record.Writer

/-!
# Valid Records

What it takes for a record to pass its checks, as plain conditions on its fields: the counts
of parameter sets are in range, and every number fits the field that it is written in.

## Main results

* `ProfileRecord.validate_eq_ok_iff`, `DecoderRecord.validate_eq_ok_iff`: exactly the valid
  records pass.
-/

namespace H266

/-! ### Parts of a record -/

/-- A profile, tier and level record whose numbers fit their fields. -/
structure ProfileRecord.Valid (record : ProfileRecord) : Prop where
  one_le_constraintInfo : 1 ≤ record.constraintInfo.length
  constraintInfo_le : record.constraintInfo.length ≤ 63
  profile_le : record.profile ≤ 127
  subProfiles_le : record.subProfiles.length ≤ 255

/-- Exactly the valid structures pass their checks. -/
theorem ProfileRecord.validate_eq_ok_iff {record : ProfileRecord} :
    record.validate = .ok () ↔ record.Valid := by
  simp only [ProfileRecord.validate, Check.throw_bind_eq_ok_iff, Check.throw_eq_ok_iff]
  constructor
  · rintro ⟨hconstraints, hprofile, hsubs⟩
    exact ⟨by omega, by omega, by omega, by omega⟩
  · rintro ⟨hpos, hconstraints, hprofile, hsubs⟩
    exact ⟨by omega, by omega, by omega⟩

/-- An array of a type that a record may hold, with as many NAL units as there may be of it,
all of which fit their length fields. -/
structure NalUnitArray.Valid (array : NalUnitArray) : Prop where
  storable : array.type.isStorable = true
  single : array.type.isSingle = true → array.nalUnits.length = 1
  count_le : array.nalUnits.length ≤ 65535
  length_le : ∀ nalUnit ∈ array.nalUnits, nalUnit.length ≤ 65535

/-- A description of a stream whose numbers fit their fields. -/
structure StreamInfo.Valid (stream : StreamInfo) : Prop where
  olsIndex_le : stream.olsIndex ≤ 511
  sublayers_le : stream.sublayers ≤ 7
  chromaFormat_le : stream.chromaFormat ≤ 3
  bitDepthMinus8_le : stream.bitDepthMinus8 ≤ 7
  profile : stream.profile.Valid

/-- A record that can be written. -/
structure DecoderRecord.Valid (record : DecoderRecord) : Prop where
  lengthSize : record.lengthSizeMinus1 ∈ [0, 1, 3]
  minCount_le : ∀ kind, minCount kind ≤ record.count kind.nalUnitType
  count_le : ∀ kind, record.count kind.nalUnitType ≤ maxCount kind
  arrays_le : record.arrays.length ≤ 255
  arrays : ∀ array ∈ record.arrays, array.Valid
  stream : ∀ stream, record.stream = some stream → stream.Valid

/-! ### Checks -/

namespace DecoderRecord

/-- A number of parameter sets passes its check if it is in range. -/
theorem validateCount_eq_ok_iff {record : DecoderRecord} {kind : ParameterSetKind} :
    record.validateCount kind = .ok () ↔
      minCount kind ≤ record.count kind.nalUnitType ∧
        record.count kind.nalUnitType ≤ maxCount kind := by
  simp only [validateCount, Check.throw_eq_ok_iff]
  omega

/-- The numbers of parameter sets that a record may have. -/
theorem counts_inRange_iff {record : DecoderRecord} :
    (∀ kind, minCount kind ≤ record.count kind.nalUnitType ∧
        record.count kind.nalUnitType ≤ maxCount kind) ↔
      (1 ≤ record.count .videoParameterSet ∧ record.count .videoParameterSet ≤ 16) ∧
      (1 ≤ record.count .sequenceParameterSet ∧ record.count .sequenceParameterSet ≤ 16) ∧
      record.count .pictureParameterSet ≤ 64 := by
  constructor
  · intro h
    exact ⟨h .video, h .sequence, (h .picture).2⟩
  · rintro ⟨hvideo, hsequence, hpicture⟩ kind
    cases kind with
    | video => exact hvideo
    | sequence => exact hsequence
    | picture => exact ⟨Nat.zero_le _, hpicture⟩

/-- Exactly the valid arrays pass their checks. -/
theorem validateArray_eq_ok_iff {array : NalUnitArray} :
    validateArray array = .ok () ↔ array.Valid := by
  simp only [validateArray, Check.throw_bind_eq_ok_iff]
  cases hlarge : array.nalUnits.find? (65535 < ·.length) with
  | some nalUnit =>
    constructor
    · rintro ⟨-, -, -, h⟩
      cases h
    · intro h
      have hle := h.length_le nalUnit (List.mem_of_find?_eq_some hlarge)
      have hlt := List.find?_some hlarge
      rw [decide_eq_true_eq] at hlt
      omega
  | none =>
    have hlength := List.find?_eq_none.1 hlarge
    simp only [decide_eq_true_eq, Nat.not_lt] at hlength
    constructor
    · rintro ⟨hstorable, hsingle, hcount, -⟩
      refine ⟨by simpa using hstorable, fun h => ?_, by omega, hlength⟩
      exact Decidable.byContradiction fun hne => hsingle ⟨h, hne⟩
    · rintro ⟨hstorable, hsingle, hcount, -⟩
      exact ⟨by simp [hstorable], fun ⟨h, hne⟩ => hne (hsingle h), by omega, rfl⟩

/-- Exactly the valid descriptions of a stream pass their checks. -/
theorem validateStream_eq_ok_iff {stream : StreamInfo} :
    validateStream stream = .ok () ↔ stream.Valid := by
  simp only [validateStream, Check.throw_bind_eq_ok_iff, ProfileRecord.validate_eq_ok_iff,
    maxSublayers]
  constructor
  · rintro ⟨hols, hsublayers, hchroma, hdepth, hprofile⟩
    exact ⟨by omega, by omega, by omega, by omega, hprofile⟩
  · rintro ⟨hols, hsublayers, hchroma, hdepth, hprofile⟩
    exact ⟨by omega, by omega, by omega, by omega, hprofile⟩

/-- **Validity**: exactly the valid records pass the check. -/
theorem validate_eq_ok_iff {record : DecoderRecord} :
    record.validate = .ok () ↔ record.Valid := by
  simp only [validate, Check.throw_bind_eq_ok_iff, Check.bind_eq_ok_iff,
    validateCount_eq_ok_iff, Check.forM_eq_ok_iff, validateArray_eq_ok_iff,
    Check.option_forM_eq_ok_iff, validateStream_eq_ok_iff, Decidable.not_not, Nat.not_lt]
  constructor
  · rintro ⟨hsize, hvideo, hsequence, hpicture, hcount, harrays, hstream⟩
    refine ⟨hsize, fun kind => ?_, fun kind => ?_, hcount, harrays, hstream⟩
    · cases kind with
      | video => exact hvideo.1
      | sequence => exact hsequence.1
      | picture => exact hpicture.1
    · cases kind with
      | video => exact hvideo.2
      | sequence => exact hsequence.2
      | picture => exact hpicture.2
  · intro h
    exact ⟨h.lengthSize, ⟨h.minCount_le .video, h.count_le .video⟩,
      ⟨h.minCount_le .sequence, h.count_le .sequence⟩,
      ⟨h.minCount_le .picture, h.count_le .picture⟩, h.arrays_le, h.arrays, h.stream⟩

end DecoderRecord

end H266
