import H266.Proofs.OrderIndependence
import H266.Proofs.ReadValues
import H266.Proofs.RecordValidity
import H266.Proofs.Refusal
import Mathlib.Data.List.Perm.Subperm

/-!
# What Built Records Can Be Rejected For

A record that was built of NAL units has few ways to be one that cannot be written. Its numbers
come from parameter sets that were read, so they fit their fields, except for the bit depth, and
its arrays hold NAL units of six types, each under its own type. What is left to check are the
numbers of NAL units, their lengths, and the bit depth. The picture size is not a matter of the
check: a record is not even finished if it has no room for it.

## Main results

* `ProfileAggregate.valid_withMerges`: a run of merges keeps the profile, tier and level valid.
* `RecordBuilder.InRange.withNalUnit`, `RecordBuilder.InRange.withNalUnits`: the numbers of a
  builder stay in range.
* `RecordBuilder.arrays_offer`: the arrays of a builder in terms of the NAL units that were added.
* `RecordBuilder.InRange.validate_finished_iff`: what is left to check.
* `RecordBuilder.finish_offer_validate_iff`: all of this for the records of any NAL units.
-/

namespace H266

/-! ### Types that are collected -/

namespace NalUnitType

/-- Decoding capability information is never collected. -/
theorem eq_operatingPoint {type : NalUnitType} (hcollected : type.isCollected = true)
    (hsingle : type.isSingle = true) : type = operatingPoint := by
  cases type <;> simp_all [isCollected, isSingle]

end NalUnitType

/-- An array that has NAL units, all with headers that state its type, which is one that is
collected. -/
structure NalUnitArray.HoldsOwnType (array : NalUnitArray) : Prop where
  ne_nil : array.nalUnits ≠ []
  isCollected : array.type.isCollected = true
  header : ∀ nalUnit ∈ array.nalUnits, ∃ header payload,
    NalUnitHeader.split nalUnit = .ok (header, payload) ∧ header.type = array.type

/-! ### Merged structures -/

/-- Constraints have the encoded length that is stated for them. -/
theorem GeneralConstraints.length_pack_layout (constraints : GeneralConstraints) :
    (Bits.pack constraints.layout.bits).length = constraints.encodedLength := by
  have hlength : constraints.layout.bits.length = 80 + constraints.reservedBits.toNat := by
    simp [layout, Layout.bitsAt_cons, Item.bitsAt]
    omega
  rw [Bits.length_pack, hlength, encodedLength]
  omega

namespace ProfileAggregate

/-- The constraints information of a structure has at most 42 bytes, and never none. -/
theorem length_constraintBytes (ptl : ProfileTierLevel) :
    1 ≤ (constraintBytes ptl).length ∧ (constraintBytes ptl).length ≤ 42 := by
  rw [constraintBytes]
  cases ptl.constraints with
  | none => decide
  | some constraints =>
    have := constraints.reservedBits.toNat_lt
    simp only [constraints.length_pack_layout, GeneralConstraints.encodedLength]
    omega

/-- Nothing is out of range at first. -/
theorem valid_empty : empty.record.Valid :=
  ⟨Nat.le_refl 1, by decide, Nat.zero_le _, Nat.zero_le _⟩

/-- One merge keeps the record valid. -/
theorem valid_withMerge {aggregate : ProfileAggregate} (h : aggregate.record.Valid)
    {own : ProfileMerge} (hown : own.ptl.InRange) : (aggregate.withMerge own).record.Valid where
  one_le_constraintInfo := (length_constraintBytes own.ptl).1
  constraintInfo_le := Nat.le_trans (length_constraintBytes own.ptl).2 (by decide)
  profile_le := Nat.max_le.2 ⟨h.profile_le, hown.profile_le⟩
  subProfiles_le := by
    show (mergedSubProfiles _ _).length ≤ 255
    rw [length_mergedSubProfiles]
    exact Nat.max_le.2 ⟨h.subProfiles_le, hown.subProfiles_le⟩

/-- A run of merges keeps the record valid. -/
theorem valid_withMerges {aggregate : ProfileAggregate} (h : aggregate.record.Valid)
    {merges : List ProfileMerge} (hmerges : ∀ own ∈ merges, own.ptl.InRange) :
    (aggregate.withMerges merges).record.Valid :=
  withMerges_induction (motive := fun _ aggregate => aggregate.record.Valid) merges h
    fun _ own hown _ hvalid => valid_withMerge hvalid (hmerges own hown)

end ProfileAggregate

/-! ### Accepted NAL units -/

namespace NalUnitContent

/-- What was read of a NAL unit, with all numbers in range. -/
def InRange : NalUnitContent → Prop
  | .video vps => vps.InRange
  | .sequence sps => sps.InRange
  | .other => True

/-- No NAL unit tells of more than seven sublayers. -/
theorem InRange.sublayers_le {content : NalUnitContent} (h : content.InRange) :
    content.sublayers ≤ 7 := by
  cases content with
  | video vps => exact Nat.succ_le_succ h.maxSublayersMinus1_le
  | sequence sps => exact Nat.succ_le_succ h.maxSublayersMinus1_le
  | other => exact Nat.zero_le 7

/-- All structures of a NAL unit are in range. -/
theorem InRange.profileTierLevels {content : NalUnitContent} (h : content.InRange) :
    ∀ ptl ∈ content.profileTierLevels, ptl.InRange := by
  intro ptl hmem
  cases content with
  | video vps => exact VideoParameterSet.InRange.profileTierLevels h ptl hmem
  | sequence sps =>
    exact SequenceParameterSet.InRange.profileTierLevel h ptl (Option.mem_toList.1 hmem)
  | other => cases hmem

end NalUnitContent

namespace RecordBuilder

open NalUnitContent

/-- What was accepted is in range. -/
theorem inRange_of_accept {nalUnit : Bytes} {accepted : AcceptedNalUnit}
    (h : accept nalUnit = .ok accepted) : accepted.content.InRange := by
  obtain ⟨-, -, -, hread⟩ := of_accept_eq_ok h
  rcases of_readContent_eq_ok hread with
    ⟨vps, rest, hvideo, hparse⟩ | ⟨sps, rest, hsequence, hparse⟩ | hother
  · rw [hvideo]
    exact VideoParameterSet.inRange_of_parse hparse
  · rw [hsequence]
    exact SequenceParameterSet.inRange_of_parse hparse
  · rw [hother]
    trivial

/-- A NAL unit that is accepted has a header that was read. -/
theorem exists_split_of_accept {nalUnit : Bytes} {accepted : AcceptedNalUnit}
    (h : accept nalUnit = .ok accepted) :
    ∃ header payload, NalUnitHeader.split nalUnit = .ok (header, payload) := by
  rcases hsplit : NalUnitHeader.split nalUnit with error | ⟨header, payload⟩
  · rw [accept, hsplit] at h
    cases h
  · exact ⟨header, payload, rfl⟩

/-- What is read of a NAL unit that is accepted is the sequence parameter set that it parses to. -/
theorem content_of_parse {nalUnit rest : Bytes} {accepted : AcceptedNalUnit}
    {sps : SequenceParameterSet} (h : accept nalUnit = .ok accepted)
    (hparse : SequenceParameterSet.parse nalUnit = .ok (sps, rest)) :
    accepted.content = .sequence sps := by
  obtain ⟨⟨header, payload⟩, hsplit, -⟩ := Check.of_bind_eq_ok hparse
  obtain ⟨hsplit, hkind⟩ := NalUnitHeader.of_splitParameterSet_eq_ok hsplit
  obtain ⟨-, -, htype, hread⟩ := of_accept_eq_ok h
  rw [NalUnitHeader.ofHeaderBytes?_of_split hsplit, hkind, Option.some.injEq] at htype
  rw [← htype, ParameterSetKind.nalUnitType, readContent, hparse] at hread
  exact (Except.ok.inj hread).symm

/-! ### Ranges -/

/-- A builder with all numbers in range. The bit depth may be one too many for a record. -/
structure InRange (builder : RecordBuilder) : Prop where
  sublayers_le : builder.sublayers ≤ 7
  chromaFormat_le : builder.chromaFormat ≤ 3
  bitDepthMinus8_le : builder.bitDepthMinus8 ≤ 8
  profile : builder.profile.record.Valid

/-- A new builder is in range. -/
theorem inRange_empty (options : ConversionOptions) : (empty options).InRange :=
  ⟨Nat.zero_le _, Nat.zero_le _, Nat.zero_le _, ProfileAggregate.valid_empty⟩

/-- What was read of a NAL unit keeps the numbers in range. -/
theorem InRange.withContent {builder : RecordBuilder} (h : builder.InRange)
    {content : NalUnitContent} (hcontent : content.InRange) :
    (builder.withContent content).InRange := by
  refine ⟨?_, ?_, ?_, ?_⟩
  · rw [sublayers_withContent]
    exact Nat.max_le.2 ⟨h.sublayers_le, hcontent.sublayers_le⟩
  · cases content with
    | video vps => exact h.chromaFormat_le
    | sequence sps => exact hcontent.chromaFormat_le
    | other => exact h.chromaFormat_le
  · cases content with
    | video vps => exact h.bitDepthMinus8_le
    | sequence sps => exact hcontent.bitDepthMinus8_le
    | other => exact h.bitDepthMinus8_le
  · rw [profile_withContent]
    refine ProfileAggregate.valid_withMerges h.profile fun own hown => ?_
    obtain ⟨ptl, hptl, rfl⟩ := List.mem_map.1 hown
    exact hcontent.profileTierLevels ptl hptl

/-- Adding a NAL unit keeps the numbers in range. -/
theorem InRange.withNalUnit {builder : RecordBuilder} (h : builder.InRange)
    {accepted : AcceptedNalUnit} (haccepted : accepted.content.InRange) :
    (builder.withNalUnit accepted).InRange := by
  obtain ⟨hsublayers, hchroma, hdepth, hprofile⟩ := h.withContent haccepted
  exact ⟨hsublayers, hchroma, hdepth, hprofile⟩

/-- Adding NAL units keeps the numbers in range. -/
theorem InRange.withNalUnits {builder : RecordBuilder} (h : builder.InRange)
    {accepted : List AcceptedNalUnit} (haccepted : ∀ entry ∈ accepted, entry.content.InRange) :
    (builder.withNalUnits accepted).InRange := by
  induction accepted generalizing builder with
  | nil => exact h
  | cons first accepted ih =>
    obtain ⟨hfirst, hrest⟩ := List.forall_mem_cons.1 haccepted
    exact ih (h.withNalUnit hfirst) hrest

/-- The numbers of a builder are in range whatever NAL units were offered. -/
theorem inRange_offer (options : ConversionOptions) (nalUnits : List Bytes) :
    ((empty options).offer nalUnits).InRange := by
  rw [offer_eq]
  refine (inRange_empty options).withNalUnits fun entry hentry => ?_
  obtain ⟨nalUnit, -, haccept⟩ := mem_filterMap_accept_iff.1 hentry
  exact inRange_of_accept haccept

/-! ### Arrays -/

section Collected

variable {completeArrays : Bool} {nalUnits : List Bytes}

/-- There is an array for each type to be collected that occurs. -/
theorem types_collected : (collected completeArrays nalUnits).map (·.type) =
    ((nalUnits.filterMap NalUnitType.ofHeaderBytes?).filter (·.isCollected)).eraseDups := by
  rw [collected_eq, List.map_map]
  exact List.map_id _

/-- No two arrays have the same type. -/
theorem nodup_types_collected : ((collected completeArrays nalUnits).map (·.type)).Nodup := by
  rw [types_collected]
  exact nodup_eraseDups _

/-- A type has an array if it is collected and occurs. -/
theorem mem_types_collected {type : NalUnitType} :
    type ∈ (collected completeArrays nalUnits).map (·.type) ↔
      type.isCollected = true ∧
        ∃ nalUnit ∈ nalUnits, NalUnitType.ofHeaderBytes? nalUnit = some type := by
  rw [types_collected, List.mem_eraseDups, List.mem_filter, List.mem_filterMap, and_comm]

/-- An array holds all NAL units of its type. -/
theorem nalUnits_eq_of_mem_collected {array : NalUnitArray}
    (h : array ∈ collected completeArrays nalUnits) : array.nalUnits =
      nalUnits.filter fun nalUnit => NalUnitType.ofHeaderBytes? nalUnit = some array.type := by
  obtain ⟨type, -, rfl⟩ := List.mem_map.1 h
  rfl

/-- No array is without NAL units. -/
theorem ne_nil_of_mem_collected {array : NalUnitArray}
    (h : array ∈ collected completeArrays nalUnits) : array.nalUnits ≠ [] := by
  obtain ⟨-, nalUnit, hmem, htype⟩ := mem_types_collected.1 (List.mem_map_of_mem h)
  rw [nalUnits_eq_of_mem_collected h]
  exact List.ne_nil_of_mem (List.mem_filter.2 ⟨hmem, decide_eq_true htype⟩)

/-- There are no more arrays than types that are collected. -/
theorem length_collected_le : (collected completeArrays nalUnits).length ≤ 6 := by
  have htypes : (collected completeArrays nalUnits).map (·.type) ⊆ NalUnitType.collectedTypes :=
    fun type hmem => NalUnitType.mem_collectedTypes.2 (mem_types_collected.1 hmem).1
  calc (collected completeArrays nalUnits).length
      = ((collected completeArrays nalUnits).map (·.type)).length := (List.length_map _).symm
    _ ≤ NalUnitType.collectedTypes.length :=
        (List.subperm_of_subset nodup_types_collected htypes).length_le

/-- The only type of which a record holds a single NAL unit and that is collected is that of
operating point information. -/
theorem forall_isSingle_collected_iff :
    (∀ array ∈ collected completeArrays nalUnits,
        array.type.isSingle = true → array.nalUnits.length = 1) ↔
      (nalUnits.filter fun nalUnit =>
        NalUnitType.ofHeaderBytes? nalUnit = some .operatingPoint).length ≤ 1 := by
  constructor
  · intro h
    by_cases hnone : (nalUnits.filter fun nalUnit =>
        NalUnitType.ofHeaderBytes? nalUnit = some .operatingPoint) = []
    · rw [hnone]
      exact Nat.zero_le 1
    · obtain ⟨nalUnit, hmem⟩ := List.exists_mem_of_ne_nil _ hnone
      obtain ⟨hin, htype⟩ := List.mem_filter.1 hmem
      have hoccurs : .operatingPoint ∈ (collected completeArrays nalUnits).map (·.type) :=
        mem_types_collected.2 ⟨rfl, nalUnit, hin, of_decide_eq_true htype⟩
      obtain ⟨array, harray, hown⟩ := List.mem_map.1 hoccurs
      have hone := h array harray (by rw [hown]; rfl)
      rw [nalUnits_eq_of_mem_collected harray, hown] at hone
      exact hone.le
  · intro h array hmem hsingle
    have htype : array.type = .operatingPoint :=
      NalUnitType.eq_operatingPoint
        (NalUnitType.mem_collectedTypes.1 (of_mem_collected hmem).1) hsingle
    have hpos := List.length_pos_of_ne_nil (ne_nil_of_mem_collected hmem)
    rw [nalUnits_eq_of_mem_collected hmem, htype] at hpos ⊢
    exact Nat.le_antisymm h hpos

end Collected

/-- The NAL units that are added are those that are accepted. -/
theorem mem_added_iff (builder : RecordBuilder) {nalUnits : List Bytes} {nalUnit : Bytes} :
    nalUnit ∈ builder.added nalUnits ↔
      nalUnit ∈ nalUnits ∧ ∃ accepted, accept nalUnit = .ok accepted := by
  have hok : (accept nalUnit).isOk = true ↔ ∃ accepted, accept nalUnit = .ok accepted := by
    cases accept nalUnit <;> simp [Except.isOk, Except.toBool]
  rw [added_eq_filter, List.mem_filter, hok]

/-- The arrays hold the NAL units that were added, by type. -/
theorem arrays_offer (options : ConversionOptions) (nalUnits : List Bytes) :
    ((empty options).offer nalUnits).arrays =
      collected options.completeArrays ((empty options).added nalUnits) := by
  have hall : ((empty options).added nalUnits).filter isCollected =
      (empty options).added nalUnits := by
    refine List.filter_eq_self.2 fun nalUnit hmem => ?_
    obtain ⟨-, accepted, haccept⟩ := (mem_added_iff _).1 hmem
    obtain ⟨-, hcollected, htype, -⟩ := of_accept_eq_ok haccept
    rw [isCollected, htype]
    exact hcollected
  refine arrays_of_forM_add ?_
  rw [hall]
  exact forM_added (empty options) nalUnits

/-- Each array of a builder has NAL units, and their headers state its type, which is one that
is collected. -/
theorem holdsOwnType_of_mem_arrays {options : ConversionOptions} {nalUnits : List Bytes}
    {array : NalUnitArray} (h : array ∈ ((empty options).offer nalUnits).arrays) :
    array.HoldsOwnType := by
  rw [arrays_offer] at h
  obtain ⟨hcollected, -, hnalUnits⟩ := of_mem_collected h
  refine ⟨ne_nil_of_mem_collected h, NalUnitType.mem_collectedTypes.1 hcollected,
    fun nalUnit hmem => ?_⟩
  obtain ⟨hadded, htype⟩ := hnalUnits nalUnit hmem
  obtain ⟨-, accepted, haccept⟩ := (mem_added_iff _).1 hadded
  obtain ⟨header, payload, hsplit⟩ := exists_split_of_accept haccept
  rw [NalUnitHeader.ofHeaderBytes?_of_split hsplit] at htype
  exact ⟨header, payload, hsplit, Option.some.inj htype⟩

/-! ### Finished records -/

/-- The record that a builder is finished with, if that has room for the picture size. -/
def finished (builder : RecordBuilder) : DecoderRecord where
  lengthSizeMinus1 := builder.lengthSize.minus1
  arrays := builder.arrays
  stream := some {
    olsIndex := 0
    sublayers := builder.sublayers
    frameRate := .constant
    chromaFormat := builder.chromaFormat
    bitDepthMinus8 := builder.bitDepthMinus8
    profile := builder.profile.record
    maxWidth := UInt16.ofNat builder.maxWidth
    maxHeight := UInt16.ofNat builder.maxHeight
    averageFrameRate := 0 }

/-- A picture size is accepted if it has a field that is wide enough. -/
theorem pictureSize_eq_ok_iff {field : String} {value : Nat} {size : UInt16} :
    pictureSize field value = .ok size ↔ value ≤ 65535 ∧ size = UInt16.ofNat value := by
  rw [pictureSize]
  by_cases hfits : value < 65536
  · rw [if_pos hfits, Except.ok.injEq, eq_comm, iff_and_self]
    exact fun _ => Nat.le_of_lt_succ hfits
  · rw [if_neg hfits]
    constructor
    · rintro ⟨⟩
    · rintro ⟨hle, -⟩
      exact absurd (Nat.lt_succ_of_le hle) hfits

/-- A builder is finished unless its pictures are too large. -/
theorem finish_eq_ok_iff {builder : RecordBuilder} {record : DecoderRecord} :
    builder.finish = .ok record ↔
      (builder.maxWidth ≤ 65535 ∧ builder.maxHeight ≤ 65535) ∧ record = builder.finished := by
  constructor
  · intro h
    obtain ⟨width, hwidth, h⟩ := Check.of_bind_eq_ok h
    obtain ⟨height, hheight, h⟩ := Check.of_bind_eq_ok h
    obtain ⟨hwidthLe, rfl⟩ := pictureSize_eq_ok_iff.1 hwidth
    obtain ⟨hheightLe, rfl⟩ := pictureSize_eq_ok_iff.1 hheight
    cases h
    exact ⟨⟨hwidthLe, hheightLe⟩, rfl⟩
  · rintro ⟨⟨hwidth, hheight⟩, rfl⟩
    rw [finish, pictureSize_eq_ok_iff.2 ⟨hwidth, rfl⟩, pictureSize_eq_ok_iff.2 ⟨hheight, rfl⟩]
    rfl

/-- Finishing fails if the width or the height is too large, and only then. -/
theorem exists_finish_eq_error_iff {builder : RecordBuilder} :
    (∃ error, builder.finish = .error error) ↔
      65535 < builder.maxWidth ∨ 65535 < builder.maxHeight := by
  have hsizes : (65535 < builder.maxWidth ∨ 65535 < builder.maxHeight) ↔
      ¬(builder.maxWidth ≤ 65535 ∧ builder.maxHeight ≤ 65535) := by omega
  rw [hsizes]
  constructor
  · rintro ⟨error, herror⟩ hle
    rw [finish_eq_ok_iff.2 ⟨hle, rfl⟩] at herror
    cases herror
  · intro hlarge
    rcases hfinish : builder.finish with error | record
    · exact ⟨error, rfl⟩
    · exact absurd (finish_eq_ok_iff.1 hfinish).1 hlarge

/-- What is left to check of a builder with its numbers in range. -/
theorem InRange.validate_finished_iff {builder : RecordBuilder} (h : builder.InRange)
    (hcount : builder.arrays.length ≤ 6)
    (htypes : ∀ array ∈ builder.arrays, array.type.isCollected = true) :
    builder.finished.validate = .ok () ↔
      (∀ kind, DecoderRecord.minCount kind ≤ builder.finished.count kind.nalUnitType ∧
        builder.finished.count kind.nalUnitType ≤ DecoderRecord.maxCount kind) ∧
      (∀ array ∈ builder.arrays, array.type.isSingle = true → array.nalUnits.length = 1) ∧
      (∀ array ∈ builder.arrays, array.nalUnits.length ≤ 65535) ∧
      (∀ array ∈ builder.arrays, ∀ nalUnit ∈ array.nalUnits, nalUnit.length ≤ 65535) ∧
      builder.bitDepthMinus8 ≤ 7 := by
  rw [DecoderRecord.validate_eq_ok_iff]
  constructor
  · intro hvalid
    exact ⟨fun kind => ⟨hvalid.minCount_le kind, hvalid.count_le kind⟩,
      fun array hmem => (hvalid.arrays array hmem).single,
      fun array hmem => (hvalid.arrays array hmem).count_le,
      fun array hmem => (hvalid.arrays array hmem).length_le,
      (hvalid.stream _ rfl).bitDepthMinus8_le⟩
  · rintro ⟨hkinds, hsingle, hmany, hlong, hdepth⟩
    refine ⟨?_, fun kind => (hkinds kind).1, fun kind => (hkinds kind).2,
      Nat.le_trans hcount (by decide), fun array hmem => ?_, ?_⟩
    · show builder.lengthSize.minus1 ∈ [0, 1, 3]
      cases builder.lengthSize <;> decide
    · have hstorable : array.type.isStorable = true := by
        rw [NalUnitType.isStorable, htypes array hmem, Bool.true_or]
      exact ⟨hstorable, hsingle array hmem, hmany array hmem, hlong array hmem⟩
    · rintro stream ⟨⟩
      exact ⟨Nat.zero_le _, h.sublayers_le, h.chromaFormat_le, hdepth, h.profile⟩

/-! ### Picture sizes -/

/-- A number is below the greatest value if it is below one of them. -/
theorem lt_greatest_iff {α : Type} {value : α → Nat} {entries : List α} {n : Nat} :
    n < greatest value entries ↔ ∃ entry ∈ entries, n < value entry := by
  induction entries using List.reverseRecOn with
  | nil => simp [greatest]
  | append_singleton entries last ih =>
    rw [greatest_concat, lt_max_iff, ih]
    simp [or_and_right, exists_or]

/-- A builder summarizes what was accepted of the NAL units that were offered to it. -/
theorem summarizes_offer (options : ConversionOptions) (nalUnits : List Bytes) :
    ((empty options).offer nalUnits).Summarizes (acceptedContents nalUnits) := by
  rw [offer_eq]
  exact (summarizes_empty options).withNalUnits fun _ => isCovered_of_mem

/-- What is read of the NAL units that are accepted is read of those that are added. -/
theorem mem_acceptedContents_iff (builder : RecordBuilder) {nalUnits : List Bytes}
    {content : NalUnitContent} :
    content ∈ acceptedContents nalUnits ↔ ∃ nalUnit ∈ builder.added nalUnits,
      ∃ accepted, accept nalUnit = .ok accepted ∧ accepted.content = content := by
  rw [acceptedContents, List.mem_map]
  constructor
  · rintro ⟨accepted, hmem, rfl⟩
    obtain ⟨nalUnit, hin, haccept⟩ := mem_filterMap_accept_iff.1 hmem
    exact ⟨nalUnit, (mem_added_iff builder).2 ⟨hin, accepted, haccept⟩, accepted, haccept, rfl⟩
  · rintro ⟨nalUnit, hmem, accepted, haccept, rfl⟩
    obtain ⟨hin, -⟩ := (mem_added_iff builder).1 hmem
    exact ⟨accepted, mem_filterMap_accept_iff.2 ⟨nalUnit, hin, haccept⟩, rfl⟩

/-- A NAL unit with a picture size that is too large was added if one was accepted. -/
theorem exists_large_iff (builder : RecordBuilder) {nalUnits : List Bytes} :
    (∃ content ∈ acceptedContents nalUnits,
        65535 < content.maxWidth ∨ 65535 < content.maxHeight) ↔
      ∃ nalUnit ∈ builder.added nalUnits, ∃ sps rest,
        SequenceParameterSet.parse nalUnit = .ok (sps, rest) ∧
          (65535 < sps.maxWidth ∨ 65535 < sps.maxHeight) := by
  constructor
  · rintro ⟨content, hmem, hlarge⟩
    obtain ⟨nalUnit, hadded, accepted, haccept, rfl⟩ := (mem_acceptedContents_iff builder).1 hmem
    obtain ⟨-, -, -, hread⟩ := of_accept_eq_ok haccept
    rcases of_readContent_eq_ok hread with
      ⟨vps, rest, hvideo, -⟩ | ⟨sps, rest, hsequence, hparse⟩ | hother
    · rw [hvideo] at hlarge
      rcases hlarge with hlarge | hlarge <;> cases hlarge
    · rw [hsequence] at hlarge
      exact ⟨nalUnit, hadded, sps, rest, hparse, hlarge⟩
    · rw [hother] at hlarge
      rcases hlarge with hlarge | hlarge <;> cases hlarge
  · rintro ⟨nalUnit, hadded, sps, rest, hparse, hlarge⟩
    obtain ⟨-, accepted, haccept⟩ := (mem_added_iff builder).1 hadded
    have hcontent := content_of_parse haccept hparse
    exact ⟨accepted.content,
      (mem_acceptedContents_iff builder).2 ⟨nalUnit, hadded, accepted, haccept, rfl⟩,
      by rwa [hcontent]⟩

/-- Finishing fails if a sequence parameter set that was added states a picture size that is too
large, and only then. -/
theorem exists_finish_offer_eq_error_iff (options : ConversionOptions) (nalUnits : List Bytes) :
    (∃ error, ((empty options).offer nalUnits).finish = .error error) ↔
      ∃ nalUnit ∈ (empty options).added nalUnits, ∃ sps rest,
        SequenceParameterSet.parse nalUnit = .ok (sps, rest) ∧
          (65535 < sps.maxWidth ∨ 65535 < sps.maxHeight) := by
  have hsummary := summarizes_offer options nalUnits
  rw [exists_finish_eq_error_iff, hsummary.maxWidth_eq, hsummary.maxHeight_eq, lt_greatest_iff,
    lt_greatest_iff, ← exists_large_iff, ← exists_or]
  simp only [and_or_left]

/-! ### Records of any NAL units -/

/-- **Rejection of built records**: whatever NAL units were offered, a record that is finished has
at most six arrays, no two of one type, each with NAL units of its own type, and all its numbers
but the bit depth fit their fields. So it can be written exactly if there are as many parameter
sets as there have to be and not too many of them, at most one NAL unit of operating point
information was added, no array and no NAL unit is too long, and the bit depth is at most 15. It
is finished unless a sequence parameter set was added in which the picture is too large. -/
theorem finish_offer_validate_iff (options : ConversionOptions) (nalUnits : List Bytes) :
    (∀ record, ((empty options).offer nalUnits).finish = .ok record →
      record.arrays.length ≤ 6 ∧ (record.arrays.map (·.type)).Nodup ∧
      (∀ array ∈ record.arrays, array.HoldsOwnType) ∧
      ∃ stream, record.stream = some stream ∧ stream.sublayers ≤ 7 ∧ stream.chromaFormat ≤ 3 ∧
        stream.bitDepthMinus8 ≤ 8 ∧ stream.profile.validate = .ok () ∧
        (record.validate = .ok () ↔
          (1 ≤ record.count .videoParameterSet ∧ record.count .videoParameterSet ≤ 16) ∧
          (1 ≤ record.count .sequenceParameterSet ∧ record.count .sequenceParameterSet ≤ 16) ∧
          record.count .pictureParameterSet ≤ 64 ∧
          (((empty options).added nalUnits).filter fun nalUnit =>
            NalUnitType.ofHeaderBytes? nalUnit = some .operatingPoint).length ≤ 1 ∧
          (∀ array ∈ record.arrays, array.nalUnits.length ≤ 65535) ∧
          (∀ array ∈ record.arrays, ∀ nalUnit ∈ array.nalUnits, nalUnit.length ≤ 65535) ∧
          stream.bitDepthMinus8 ≤ 7)) ∧
    ((∃ error, ((empty options).offer nalUnits).finish = .error error) ↔
      ∃ nalUnit ∈ (empty options).added nalUnits, ∃ sps rest,
        SequenceParameterSet.parse nalUnit = .ok (sps, rest) ∧
          (65535 < sps.maxWidth ∨ 65535 < sps.maxHeight)) := by
  refine ⟨fun record hfinish => ?_, exists_finish_offer_eq_error_iff options nalUnits⟩
  obtain ⟨-, rfl⟩ := finish_eq_ok_iff.1 hfinish
  have hrange := inRange_offer options nalUnits
  have hown : ∀ array ∈ ((empty options).offer nalUnits).arrays, array.HoldsOwnType :=
    fun _ => holdsOwnType_of_mem_arrays
  have harrays := arrays_offer options nalUnits
  have hcount : ((empty options).offer nalUnits).arrays.length ≤ 6 := by
    rw [harrays]
    exact length_collected_le
  have htypes : (((empty options).offer nalUnits).arrays.map (·.type)).Nodup := by
    rw [harrays]
    exact nodup_types_collected
  have hvalid := hrange.validate_finished_iff hcount fun array hmem => (hown array hmem).isCollected
  refine ⟨hcount, htypes, hown, _, rfl, hrange.sublayers_le, hrange.chromaFormat_le,
    hrange.bitDepthMinus8_le, ProfileRecord.validate_eq_ok_iff.2 hrange.profile, hvalid.trans ?_⟩
  have hsingle := @forall_isSingle_collected_iff options.completeArrays
    ((empty options).added nalUnits)
  rw [← harrays] at hsingle
  rw [hsingle, DecoderRecord.counts_inRange_iff]
  constructor
  · rintro ⟨⟨hvideo, hsequence, hpicture⟩, hrest⟩
    exact ⟨hvideo, hsequence, hpicture, hrest⟩
  · rintro ⟨hvideo, hsequence, hpicture, hrest⟩
    exact ⟨⟨hvideo, hsequence, hpicture⟩, hrest⟩

/-- Operating point information that was added twice makes a record that cannot be written. A
sequence parameter set with pictures of 65536 samples in width makes none. -/
theorem finish_offer_validate_iff_added_twice :
    let vps : Bytes := [0x00, 0x71, 0x00, 0x00, 0x1F, 0x02, 0x3C, 0x80, 0x00, 0x40]
    let sps : Bytes := [0x00, 0x79, 0x00, 0x4C, 0x00, 0x0F, 0x02, 0x00, 0x43, 0x91, 0xC0]
    let wide : Bytes := [0x00, 0x79, 0x00, 0x0C, 0x00, 0x00, 0x20, 0x00, 0x22, 0x47]
    let opi : Bytes := [0x00, 0x61, 0x80]
    (∃ record, ((empty .standard).offer [vps, sps, opi, opi]).finish = .ok record ∧
      record.arrays.length ≤ 6 ∧ record.validate ≠ .ok ()) ∧
    ∃ error, ((empty .standard).offer [vps, wide, opi]).finish = .error error := by
  intro vps sps wide opi
  have hfinishes : ((empty .standard).offer [vps, sps, opi, opi]).finish.isOk = true := by
    decide +kernel
  have htwice : (((empty .standard).added [vps, sps, opi, opi]).filter fun nalUnit =>
      NalUnitType.ofHeaderBytes? nalUnit = some .operatingPoint).length = 2 := by decide +kernel
  have hadded : wide ∈ (empty .standard).added [vps, wide, opi] := by decide +kernel
  have hwide : (SequenceParameterSet.parse wide).toOption.map (·.1.maxWidth) = some 65536 := by
    decide +kernel
  obtain ⟨hrecords, -⟩ := finish_offer_validate_iff .standard [vps, sps, opi, opi]
  obtain ⟨-, hfails⟩ := finish_offer_validate_iff .standard [vps, wide, opi]
  clear_value vps sps wide opi
  constructor
  · rcases hfinish : ((empty .standard).offer [vps, sps, opi, opi]).finish with error | record
    · rw [hfinish] at hfinishes
      cases hfinishes
    · obtain ⟨hcount, -, -, stream, -, -, -, -, -, hvalid⟩ := hrecords record hfinish
      refine ⟨record, rfl, hcount, fun hvalidate => ?_⟩
      obtain ⟨-, -, -, hsingle, -⟩ := hvalid.1 hvalidate
      omega
  · rcases hparse : SequenceParameterSet.parse wide with error | ⟨sps, rest⟩
    · rw [hparse] at hwide
      cases hwide
    · rw [hparse] at hwide
      have hwidth : sps.maxWidth = 65536 := Option.some.inj hwide
      exact hfails.2 ⟨wide, hadded, sps, rest, hparse, .inl (by omega)⟩

end RecordBuilder

end H266
