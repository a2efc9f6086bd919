import H266.Proofs.MergedSummary
import H266.Proofs.SublayerCoverage
import Mathlib.Data.List.Forall2

/-!
# Order Independence

A record that is built of the same NAL units in another order differs from the first only in what
is decided by the last parameter set, in the levels, and in the order of the arrays and of the NAL
units in them. The number of sublayers and the picture size are the same, and with the latter
whether the record can be finished, and so is the summary of the profile, tier and level
structures.

## Main results

* `RecordBuilder.listsSameUpToOrder_grouped`: the arrays of NAL units in another order.
* `RecordBuilder.Summarizes.withNalUnit`, `RecordBuilder.Summarizes.withNalUnits`: what a builder
  knows of all its NAL units at once.
* `RecordBuilder.finish_offer_perm`: finished records of NAL units in different orders.
-/

namespace H266

/-! ### Agreement up to order -/

/-- Arrays of one type and completeness that hold the same NAL units in whatever order. -/
structure NalUnitArray.SameUpToOrder (array other : NalUnitArray) : Prop where
  type_eq : array.type = other.type
  complete_eq : array.complete = other.complete
  nalUnits_perm : array.nalUnits.Perm other.nalUnits

/-- Lists of arrays that hold the same NAL units, where neither the order of the arrays counts
nor that of the NAL units in them. -/
def NalUnitArray.ListsSameUpToOrder (arrays others : List NalUnitArray) : Prop :=
  ∃ reordered : List NalUnitArray, reordered.Perm others ∧
    List.Forall₂ SameUpToOrder arrays reordered

/-- Descriptions that agree in all that does not depend on the order of NAL units: the chroma
format, the bit depth and parts of the profile record may differ. -/
structure StreamInfo.AgreesWith (stream other : StreamInfo) : Prop where
  olsIndex_eq : stream.olsIndex = other.olsIndex
  sublayers_eq : stream.sublayers = other.sublayers
  frameRate_eq : stream.frameRate = other.frameRate
  profile : stream.profile.AgreesWith other.profile
  maxWidth_eq : stream.maxWidth = other.maxWidth
  maxHeight_eq : stream.maxHeight = other.maxHeight
  averageFrameRate_eq : stream.averageFrameRate = other.averageFrameRate

/-- Records of streams that agree in all that does not depend on the order of NAL units. -/
structure DecoderRecord.AgreesWith (record other : DecoderRecord) : Prop where
  lengthSize_eq : record.lengthSizeMinus1 = other.lengthSizeMinus1
  stream : ∃ own others, record.stream = some own ∧ other.stream = some others ∧
    own.AgreesWith others
  arrays : NalUnitArray.ListsSameUpToOrder record.arrays other.arrays

/-- Builders that finish with records that agree. -/
structure RecordBuilder.AgreesWith (builder other : RecordBuilder) : Prop where
  lengthSize_eq : builder.lengthSize = other.lengthSize
  sublayers_eq : builder.sublayers = other.sublayers
  maxWidth_eq : builder.maxWidth = other.maxWidth
  maxHeight_eq : builder.maxHeight = other.maxHeight
  profile : builder.profile.record.AgreesWith other.profile.record
  arrays : NalUnitArray.ListsSameUpToOrder builder.arrays other.arrays

namespace NalUnitContent

/-- The picture width that a NAL unit states, zero if it states none. -/
def maxWidth : NalUnitContent → Nat
  | .sequence sps => sps.maxWidth
  | _ => 0

/-- The picture height that a NAL unit states, zero if it states none. -/
def maxHeight : NalUnitContent → Nat
  | .sequence sps => sps.maxHeight
  | _ => 0

end NalUnitContent

namespace RecordBuilder

open NalUnitContent

/-! ### Finishing -/

section Finishing

variable {builder other : RecordBuilder}

/-- Only the picture size can keep a record from being finished. -/
theorem AgreesWith.finish_eq_error_iff (h : builder.AgreesWith other) (error : Error) :
    builder.finish = .error error ↔ other.finish = .error error := by
  rw [finish, finish, h.maxWidth_eq, h.maxHeight_eq]
  rcases pictureSize "max_picture_width" other.maxWidth with _ | width
  · exact Iff.rfl
  · rcases pictureSize "max_picture_height" other.maxHeight with _ | height
    · exact Iff.rfl
    · constructor
      · rintro ⟨⟩
      · rintro ⟨⟩

/-- Where one of two agreeing builders finishes, so does the other, with an agreeing record. -/
theorem AgreesWith.exists_finish (h : builder.AgreesWith other) {record : DecoderRecord}
    (hfinish : builder.finish = .ok record) :
    ∃ otherRecord, other.finish = .ok otherRecord ∧ record.AgreesWith otherRecord := by
  obtain ⟨width, hwidth, hfinish⟩ := Check.of_bind_eq_ok hfinish
  obtain ⟨height, hheight, hfinish⟩ := Check.of_bind_eq_ok hfinish
  cases hfinish
  rw [h.maxWidth_eq] at hwidth
  rw [h.maxHeight_eq] at hheight
  rw [finish, hwidth, hheight]
  exact ⟨_, rfl, congrArg LengthSize.minus1 h.lengthSize_eq,
    ⟨_, _, rfl, rfl, ⟨rfl, h.sublayers_eq, rfl, h.profile, rfl, rfl, rfl⟩⟩, h.arrays⟩

end Finishing

/-! ### Arrays -/

/-- NAL units in another order give arrays of the same types, each with the same NAL units. -/
theorem listsSameUpToOrder_grouped (completeArrays : Bool)
    {accepted permuted : List AcceptedNalUnit} (h : permuted.Perm accepted) :
    NalUnitArray.ListsSameUpToOrder (grouped completeArrays permuted)
      (grouped completeArrays accepted) := by
  have htypes : (permuted.map (·.type)).eraseDups.Perm (accepted.map (·.type)).eraseDups := by
    refine (List.perm_ext_iff_of_nodup (nodup_eraseDups _) (nodup_eraseDups _)).2 fun type => ?_
    rw [List.mem_eraseDups, List.mem_eraseDups, (h.map _).mem_iff]
  refine ⟨_, htypes.map _, ?_⟩
  rw [grouped, List.forall₂_map_left_iff, List.forall₂_map_right_iff, List.forall₂_same]
  intro type _
  exact ⟨rfl, rfl, (h.filter _).map _⟩

/-! ### What a builder knows of all NAL units at once -/

/-- What a builder knows of all the given NAL units at once. -/
structure Summarizes (builder : RecordBuilder) (contents : List NalUnitContent) : Prop where
  sublayers_eq : builder.sublayers = highestSublayers contents
  maxWidth_eq : builder.maxWidth = greatest (·.maxWidth) contents
  maxHeight_eq : builder.maxHeight = greatest (·.maxHeight) contents
  profile : builder.profile.Summarizes (contents.flatMap (·.profileTierLevels))

/-- A new builder summarizes no content. -/
theorem summarizes_empty (options : ConversionOptions) : (empty options).Summarizes [] :=
  ⟨rfl, rfl, rfl, ProfileAggregate.summarizes_empty⟩

/-- The content of a NAL unit can only raise the largest width and height. -/
theorem pictureSize_withContent (builder : RecordBuilder) (content : NalUnitContent) :
    (builder.withContent content).maxWidth = max builder.maxWidth content.maxWidth ∧
      (builder.withContent content).maxHeight = max builder.maxHeight content.maxHeight := by
  cases content with
  | video vps => exact ⟨(Nat.max_zero _).symm, (Nat.max_zero _).symm⟩
  | sequence sps => exact ⟨rfl, rfl⟩
  | other => exact ⟨(Nat.max_zero _).symm, (Nat.max_zero _).symm⟩

/-- What an accepted NAL unit adds to the summary. Its own sublayers are counted before its
structures are merged, so no flag of theirs is lost, however few sublayers came before. -/
theorem Summarizes.withNalUnit {builder : RecordBuilder} {contents : List NalUnitContent}
    (h : builder.Summarizes contents) {accepted : AcceptedNalUnit}
    (hcovered : accepted.content.IsCovered) :
    (builder.withNalUnit accepted).Summarizes (contents ++ [accepted.content]) := by
  obtain ⟨hwidth, hheight⟩ := pictureSize_withContent builder accepted.content
  have hprofile := profile_withContent builder accepted.content
  refine ⟨?_, ?_, ?_, ?_⟩
  · rw [highestSublayers_concat, ← h.sublayers_eq]
    exact sublayers_withContent builder accepted.content
  · rw [greatest_concat, ← h.maxWidth_eq]
    exact hwidth
  · rw [greatest_concat, ← h.maxHeight_eq]
    exact hheight
  · have hptls := h.profile.withMerges_map fun ptl hmem =>
      Nat.lt_of_lt_of_le (hcovered ptl hmem) (Nat.le_max_right builder.sublayers _)
    rw [← hprofile] at hptls
    rw [List.flatMap_append, List.flatMap_singleton]
    exact hptls

/-- What accepted NAL units add to the summary. -/
theorem Summarizes.withNalUnits {builder : RecordBuilder} {contents : List NalUnitContent}
    (h : builder.Summarizes contents) {accepted : List AcceptedNalUnit}
    (hcovered : ∀ entry ∈ accepted, entry.content.IsCovered) :
    (builder.withNalUnits accepted).Summarizes (contents ++ accepted.map (·.content)) := by
  induction accepted generalizing builder contents with
  | nil => rwa [List.map_nil, List.append_nil]
  | cons first accepted ih =>
    obtain ⟨hfirst, hrest⟩ := List.forall_mem_cons.1 hcovered
    have hrun := ih (h.withNalUnit hfirst) hrest
    rwa [List.append_assoc] at hrun

/-- NAL units leave the size of the length prefixes as the options gave it. -/
theorem lengthSize_withNalUnits (builder : RecordBuilder) (accepted : List AcceptedNalUnit) :
    (builder.withNalUnits accepted).lengthSize = builder.lengthSize := by
  induction accepted generalizing builder with
  | nil => rfl
  | cons first accepted ih =>
    have hfirst : (builder.withNalUnit first).lengthSize = builder.lengthSize := by
      rw [withNalUnit]
      cases first.content <;> rfl
    exact (ih (builder.withNalUnit first)).trans hfirst

/-! ### NAL units in different orders -/

/-- Accepted NAL units in different orders make builders that agree. -/
theorem agreesWith_withNalUnits (options : ConversionOptions)
    {accepted permuted : List AcceptedNalUnit} (h : permuted.Perm accepted)
    (hcovered : ∀ entry ∈ accepted, entry.content.IsCovered) :
    ((empty options).withNalUnits permuted).AgreesWith
      ((empty options).withNalUnits accepted) := by
  have hcontents : (permuted.map (·.content)).Perm (accepted.map (·.content)) := h.map _
  have hother := (summarizes_empty options).withNalUnits hcovered
  have hown := (summarizes_empty options).withNalUnits fun entry hentry =>
    hcovered entry (h.mem_iff.1 hentry)
  rw [List.nil_append] at hother hown
  refine ⟨?_, ?_, ?_, ?_, ?_, ?_⟩
  · rw [lengthSize_withNalUnits, lengthSize_withNalUnits]
  · rw [hown.sublayers_eq, hother.sublayers_eq]
    exact greatest_perm _ hcontents
  · rw [hown.maxWidth_eq, hother.maxWidth_eq, greatest_perm _ hcontents]
  · rw [hown.maxHeight_eq, hother.maxHeight_eq, greatest_perm _ hcontents]
  · exact hown.profile.agreesWith hother.profile (hcontents.flatMap_right _)
  · rw [arrays_withNalUnits_empty, arrays_withNalUnits_empty]
    exact listsSameUpToOrder_grouped options.completeArrays h

/-- **Order independence**: whatever NAL units are offered, and in whichever order, the number of
sublayers is the same, finishing fails with the same error if it fails, and otherwise the
records agree. -/
theorem finish_offer_perm (options : ConversionOptions) {nalUnits permuted : List Bytes}
    (h : permuted.Perm nalUnits) :
    ((empty options).offer permuted).sublayers = ((empty options).offer nalUnits).sublayers ∧
      (∀ error, ((empty options).offer permuted).finish = .error error ↔
        ((empty options).offer nalUnits).finish = .error error) ∧
      ∀ record, ((empty options).offer permuted).finish = .ok record →
        ∃ other, ((empty options).offer nalUnits).finish = .ok other ∧
          record.AgreesWith other := by
  have hagrees := agreesWith_withNalUnits options (h.filterMap fun nalUnit =>
    (accept nalUnit).toOption) fun _ => isCovered_of_mem
  rw [← offer_eq, ← offer_eq] at hagrees
  exact ⟨hagrees.sublayers_eq, hagrees.finish_eq_error_iff, fun _ => hagrees.exists_finish⟩

/-- A video parameter set of one sublayer and a sequence parameter set of three: the records of the
two orders are not the same, but they agree. -/
theorem finish_offer_perm_sequence_first :
    let vps : Bytes := [0x00, 0x71, 0x00, 0x00, 0x1F, 0x02, 0x3C, 0x80, 0x00, 0x40]
    let sps : Bytes := [0x00, 0x79, 0x00, 0x4C, 0x00, 0x0F, 0x02, 0x00, 0x43, 0x91, 0xC0]
    [sps, vps].Perm [vps, sps] ∧ ∃ record other,
      ((empty .standard).offer [sps, vps]).finish = .ok record ∧
        ((empty .standard).offer [vps, sps]).finish = .ok other ∧
        record ≠ other ∧ record.AgreesWith other := by
  intro vps sps
  have hperm : [sps, vps].Perm [vps, sps] := .swap vps sps []
  have hdiffer : ((empty .standard).offer [sps, vps]).finish ≠
      ((empty .standard).offer [vps, sps]).finish := by decide +kernel
  have hfinishes : ((empty .standard).offer [sps, vps]).finish.isOk = true := by decide +kernel
  obtain ⟨-, -, hagrees⟩ := finish_offer_perm .standard hperm
  clear_value vps sps
  rcases hfinish : ((empty .standard).offer [sps, vps]).finish with error | record
  · rw [hfinish] at hfinishes
    cases hfinishes
  · obtain ⟨other, hother, hagree⟩ := hagrees record hfinish
    refine ⟨hperm, record, other, rfl, hother, ?_, hagree⟩
    rintro rfl
    exact hdiffer (hfinish.trans hother.symm)

end RecordBuilder

end H266
