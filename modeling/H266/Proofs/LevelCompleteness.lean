import H266.Proofs.RecordBytes
import H266.Proofs.SublayerLevels
import Mathlib.Data.List.DropRight

/-!
# Completeness of Recorded Levels

When the table of sublayer levels of a finished record is complete. Merging a structure completes
the table for the number of sublayers that the stream is known to have by then, and leaves the
entries above alone. A parameter set without such a structure may raise that number afterwards,
and the entries that come into use then stay as they are: without a stated level, and with level
zero.

## Main results

* `RecordBuilder.HasLevelsOf.withNalUnit`: what a NAL unit does to the table.
* `RecordBuilder.HasLevelsOf.hasCompleteLevels_iff`: when the table is complete.
* `RecordBuilder.exists_hasCompleteLevels_iff`: the table of a finished record.
-/

namespace H266

/-! ### What NAL units say about sublayers -/

namespace NalUnitContent

/-- The number of temporal sublayers that a NAL unit states. -/
def sublayers : NalUnitContent → Nat
  | .video vps => vps.maxSublayersMinus1 + 1
  | .sequence sps => sps.maxSublayersMinus1 + 1
  | .other => 0

/-- The profile, tier and level structures in a NAL unit. -/
def profileTierLevels : NalUnitContent → List ProfileTierLevel
  | .video vps => vps.profileTierLevels
  | .sequence sps => sps.profileTierLevel.toList
  | .other => []

/-- The greatest number of temporal sublayers that NAL units state. -/
def highestSublayers (contents : List NalUnitContent) : Nat :=
  contents.foldl (fun most content => max most content.sublayers) 0

/-- The greatest number of temporal sublayers that NAL units state up to the last one in which
there is a profile, tier and level structure. -/
def mergedSublayers (contents : List NalUnitContent) : Nat :=
  highestSublayers (contents.rdropWhile (·.profileTierLevels.isEmpty))

/-- One more NAL unit at the end. -/
theorem highestSublayers_concat (contents : List NalUnitContent) (last : NalUnitContent) :
    highestSublayers (contents ++ [last]) = max (highestSublayers contents) last.sublayers :=
  List.foldl_append

/-- One more NAL unit tells of its sublayers only if it has structures to merge. -/
theorem mergedSublayers_concat (contents : List NalUnitContent) (last : NalUnitContent) :
    mergedSublayers (contents ++ [last]) =
      if last.profileTierLevels.isEmpty then mergedSublayers contents
      else highestSublayers (contents ++ [last]) := by
  rw [mergedSublayers, List.rdropWhile_concat]
  split <;> rfl

end NalUnitContent

/-! ### Tables -/

namespace ProfileRecord

/-- Whether a table is complete depends on the entries in use only. -/
theorem hasCompleteLevels_congr (record : ProfileRecord) {m n : Nat}
    (h : usedEntries m = usedEntries n) :
    record.HasCompleteLevels m ↔ record.HasCompleteLevels n := by
  simp only [HasCompleteLevels, levelOf, ← lt_usedEntries_iff, h]

/-- A table that nothing was written into from the given number of sublayers on. -/
def IsUnusedFrom (record : ProfileRecord) (covered : Nat) : Prop :=
  ∀ i : Fin sublayerEntries, covered ≤ i.val + 1 →
    record.sublayerLevelPresent.get i = false ∧ record.sublayerLevels.get i = 0

section Unused

variable {record : ProfileRecord} {covered : Nat}

/-- Entries that are not in use are clear. -/
theorem IsUnusedFrom.of_usedEntries_le (h : record.IsUnusedFrom covered)
    {i : Fin sublayerEntries} (hi : usedEntries covered ≤ i.val) :
    record.sublayerLevelPresent.get i = false ∧ record.sublayerLevels.get i = 0 :=
  h i (Nat.not_lt.1 (mt (lt_usedEntries_iff i).2 (Nat.not_lt.2 hi)))

/-- All levels above the covered ones are zero if the general level is. -/
theorem IsUnusedFrom.levelOf_eq_zero (h : record.IsUnusedFrom covered) (hzero : record.level = 0)
    {i : Nat} (hi : usedEntries covered ≤ i) (sublayers : Nat) :
    record.levelOf sublayers i = 0 := by
  by_cases hused : i < usedEntries sublayers
  · obtain ⟨entry, rfl, hmany⟩ := exists_entry_of_lt hused
    rw [levelOf_of_lt _ entry hmany]
    exact (h.of_usedEntries_le hi).2
  · rw [levelOf_of_le _ (Nat.not_lt.1 hused), hzero]

/-- With a level of zero, entries that are clear are complete. -/
theorem IsUnusedFrom.hasCompleteLevels_of_level_eq_zero (h : record.IsUnusedFrom covered)
    (hcomplete : record.HasCompleteLevels covered) (hzero : record.level = 0) {sublayers : Nat}
    (hle : covered ≤ sublayers) : record.HasCompleteLevels sublayers := by
  intro i hi habsent
  by_cases hcovered : i.val + 1 < covered
  · rw [hcomplete i hcovered habsent]
    by_cases hnext : i.val + 1 < usedEntries covered
    · obtain ⟨next, hnext, hmany⟩ := exists_entry_of_lt hnext
      rw [← hnext, levelOf_of_lt record next hmany,
        levelOf_of_lt record next (Nat.lt_of_lt_of_le hmany hle)]
    · rw [h.levelOf_eq_zero hzero (Nat.not_lt.1 hnext),
        h.levelOf_eq_zero hzero (Nat.not_lt.1 hnext)]
  · have hcovered := Nat.not_lt.1 (mt (lt_usedEntries_iff i).1 hcovered)
    rw [(h.of_usedEntries_le hcovered).2, h.levelOf_eq_zero hzero (Nat.le_succ_of_le hcovered)]

/-- The highest entry in use has the general level, so that is zero if the entry is unused. -/
theorem IsUnusedFrom.level_eq_zero (h : record.IsUnusedFrom covered) {sublayers : Nat}
    (hcomplete : record.HasCompleteLevels sublayers)
    (hmore : usedEntries covered < usedEntries sublayers) : record.level = 0 := by
  obtain ⟨i, htop⟩ := Nat.exists_eq_add_of_lt hmore
  have hlast : usedEntries covered + i < usedEntries sublayers := by omega
  obtain ⟨entry, hentry, hmany⟩ := exists_entry_of_lt hlast
  obtain ⟨habsent, hlevel⟩ := h.of_usedEntries_le (hentry ▸ Nat.le_add_right _ _)
  have habove := hcomplete entry hmany habsent
  rw [hlevel, levelOf_of_le _ (by omega)] at habove
  exact habove.symm

end Unused

end ProfileRecord

/-! ### Runs -/

namespace RecordBuilder

open NalUnitContent

/-- What is read of the NAL units that are accepted. -/
def acceptedContents (nalUnits : List Bytes) : List NalUnitContent :=
  (nalUnits.filterMap fun nalUnit => (accept nalUnit).toOption).map (·.content)

/-- The number of sublayers only grows. -/
theorem sublayers_withContent (builder : RecordBuilder) (content : NalUnitContent) :
    (builder.withContent content).sublayers = max builder.sublayers content.sublayers := by
  cases content with
  | video vps => rfl
  | sequence sps => rfl
  | other => exact (Nat.max_zero _).symm

/-- The structures of a NAL unit are merged with the number of sublayers as it is by then. -/
theorem profile_withContent (builder : RecordBuilder) (content : NalUnitContent) :
    (builder.withContent content).profile = builder.profile.withMerges
      (content.profileTierLevels.map (⟨·, max builder.sublayers content.sublayers⟩)) := by
  cases content with
  | video vps => exact ProfileAggregate.combineAll_eq_withMerges _ _ _
  | sequence sps => exact ProfileAggregate.combineAll_eq_withMerges _ _ _
  | other => rfl

/-- A builder that has added the given NAL units: its table is complete for the number of
sublayers at the last merge, and unused above. -/
structure HasLevelsOf (builder : RecordBuilder) (contents : List NalUnitContent) : Prop where
  sublayers_eq : builder.sublayers = highestSublayers contents
  merged_le : mergedSublayers contents ≤ highestSublayers contents
  complete : builder.profile.record.HasCompleteLevels (mergedSublayers contents)
  unused : builder.profile.record.IsUnusedFrom (mergedSublayers contents)

/-- No levels were merged at first. -/
theorem hasLevelsOf_empty (options : ConversionOptions) : (empty options).HasLevelsOf [] := by
  refine ⟨rfl, Nat.le_refl 0, fun i h => absurd h (Nat.not_lt_zero _), fun i _ => ⟨?_, ?_⟩⟩
  · simp [empty, ProfileAggregate.empty, ProfileRecord.empty, vector_get_eq]
  · simp [empty, ProfileAggregate.empty, ProfileRecord.empty, vector_get_eq]

/-- Merges that are told of one number of sublayers leave the entries above unused. -/
theorem isUnusedFrom_withMerges {aggregate : ProfileAggregate} {merges : List ProfileMerge}
    {sublayers : Nat} (hall : ∀ own ∈ merges, own.sublayers = sublayers)
    (h : aggregate.record.IsUnusedFrom sublayers) :
    (aggregate.withMerges merges).record.IsUnusedFrom sublayers := by
  refine ProfileAggregate.withMerges_induction
    (motive := fun _ aggregate => aggregate.record.IsUnusedFrom sublayers) merges h
      fun _ own hmem aggregate h i hi => ?_
  have hunused : ¬i.val + 1 < own.sublayers := by
    rw [hall own hmem]
    exact Nat.not_lt.2 hi
  rw [ProfileAggregate.present_withMerge, ProfileAggregate.levels_withMerge, if_neg hunused,
    decide_eq_false hunused, Bool.false_and, Bool.or_false]
  exact h i hi

/-- Merges that are told of one number of sublayers complete the table for it. -/
theorem hasCompleteLevels_withMerges {aggregate : ProfileAggregate} {merges : List ProfileMerge}
    {sublayers : Nat} (hall : ∀ own ∈ merges, own.sublayers = sublayers) (hne : merges ≠ []) :
    (aggregate.withMerges merges).record.HasCompleteLevels sublayers := by
  obtain ⟨init, last, rfl⟩ := (List.eq_nil_or_concat merges).resolve_left hne
  rw [List.concat_eq_append, ProfileAggregate.withMerges_append, ← hall last (by simp)]
  exact ProfileAggregate.hasCompleteLevels_withMerge _ last

/-- The sublayers with one more NAL unit. -/
theorem HasLevelsOf.sublayers_withNalUnit {builder : RecordBuilder}
    {contents : List NalUnitContent} (h : builder.HasLevelsOf contents)
    (accepted : AcceptedNalUnit) :
    (builder.withNalUnit accepted).sublayers =
      highestSublayers (contents ++ [accepted.content]) := by
  rw [highestSublayers_concat, ← h.sublayers_eq]
  exact sublayers_withContent builder accepted.content

/-- A NAL unit without a profile, tier and level structure leaves the table as it was. -/
theorem HasLevelsOf.withNalUnit_of_eq_nil {builder : RecordBuilder}
    {contents : List NalUnitContent} (h : builder.HasLevelsOf contents)
    {accepted : AcceptedNalUnit} (hnone : accepted.content.profileTierLevels = []) :
    (builder.withNalUnit accepted).HasLevelsOf (contents ++ [accepted.content]) := by
  have hhighest := highestSublayers_concat contents accepted.content
  have hmerged : mergedSublayers (contents ++ [accepted.content]) = mergedSublayers contents := by
    rw [mergedSublayers_concat, if_pos (List.isEmpty_iff.2 hnone)]
  have hprofile : (builder.withNalUnit accepted).profile = builder.profile := by
    have hmerges := profile_withContent builder accepted.content
    rw [hnone] at hmerges
    exact hmerges
  refine ⟨h.sublayers_withNalUnit accepted, ?_, ?_, ?_⟩
  · rw [hmerged, hhighest]
    exact Nat.le_trans h.merged_le (Nat.le_max_left _ _)
  · rw [hmerged, hprofile]
    exact h.complete
  · rw [hmerged, hprofile]
    exact h.unused

/-- A NAL unit with such structures completes the table for the sublayers of the stream. -/
theorem HasLevelsOf.withNalUnit_of_ne_nil {builder : RecordBuilder}
    {contents : List NalUnitContent} (h : builder.HasLevelsOf contents)
    {accepted : AcceptedNalUnit} (hsome : accepted.content.profileTierLevels ≠ []) :
    (builder.withNalUnit accepted).HasLevelsOf (contents ++ [accepted.content]) := by
  have hhighest := highestSublayers_concat contents accepted.content
  have hmerged : mergedSublayers (contents ++ [accepted.content]) =
      highestSublayers (contents ++ [accepted.content]) := by
    rw [mergedSublayers_concat, if_neg (mt List.isEmpty_iff.1 hsome)]
  have hprofile : (builder.withNalUnit accepted).profile = builder.profile.withMerges
      (accepted.content.profileTierLevels.map
        (⟨·, highestSublayers (contents ++ [accepted.content])⟩)) := by
    rw [hhighest, ← h.sublayers_eq]
    exact profile_withContent builder accepted.content
  have hall : ∀ own ∈ accepted.content.profileTierLevels.map
      (ProfileMerge.mk · (highestSublayers (contents ++ [accepted.content]))),
        own.sublayers = highestSublayers (contents ++ [accepted.content]) := by
    intro own hown
    obtain ⟨ptl, -, rfl⟩ := List.mem_map.1 hown
    rfl
  have hgrown : mergedSublayers contents ≤ highestSublayers (contents ++ [accepted.content]) := by
    rw [hhighest]
    exact Nat.le_trans h.merged_le (Nat.le_max_left _ _)
  refine ⟨h.sublayers_withNalUnit accepted, Nat.le_of_eq hmerged, ?_, ?_⟩
  · rw [hmerged, hprofile]
    exact hasCompleteLevels_withMerges hall (mt List.map_eq_nil_iff.1 hsome)
  · rw [hmerged, hprofile]
    exact isUnusedFrom_withMerges hall fun i hi => h.unused i (Nat.le_trans hgrown hi)

/-- What an accepted NAL unit does to the table. -/
theorem HasLevelsOf.withNalUnit {builder : RecordBuilder} {contents : List NalUnitContent}
    (h : builder.HasLevelsOf contents) (accepted : AcceptedNalUnit) :
    (builder.withNalUnit accepted).HasLevelsOf (contents ++ [accepted.content]) := by
  by_cases hnone : accepted.content.profileTierLevels = []
  · exact h.withNalUnit_of_eq_nil hnone
  · exact h.withNalUnit_of_ne_nil hnone

/-- All NAL units, one after the other. -/
theorem hasLevelsOf_withNalUnits {builder : RecordBuilder} {contents : List NalUnitContent}
    (h : builder.HasLevelsOf contents) (accepted : List AcceptedNalUnit) :
    (builder.withNalUnits accepted).HasLevelsOf (contents ++ accepted.map (·.content)) := by
  induction accepted generalizing builder contents with
  | nil => rwa [List.map_nil, List.append_nil]
  | cons first accepted ih =>
    have hrest := ih (h.withNalUnit first)
    rwa [List.append_assoc] at hrest

/-- The table is complete exactly if all entries in use were in use at the last merge, or if the
level of the stream is zero, as the unused entries are. -/
theorem HasLevelsOf.hasCompleteLevels_iff {builder : RecordBuilder}
    {contents : List NalUnitContent} (h : builder.HasLevelsOf contents) :
    builder.profile.record.HasCompleteLevels builder.sublayers ↔
      usedEntries builder.sublayers = usedEntries (mergedSublayers contents) ∨
        builder.profile.record.level = 0 := by
  have hle := h.merged_le
  rw [← h.sublayers_eq] at hle
  constructor
  · intro hcomplete
    rcases Nat.eq_or_lt_of_le (usedEntries_mono hle) with hsame | hmore
    · exact .inl hsame.symm
    · exact .inr (h.unused.level_eq_zero hcomplete hmore)
  · rintro (hsame | hzero)
    · exact (ProfileRecord.hasCompleteLevels_congr _ hsame).2 h.complete
    · exact h.unused.hasCompleteLevels_of_level_eq_zero h.complete hzero hle

/-- **Completeness of the table of levels**: whatever NAL units were offered, the table of a
finished record is complete exactly if every entry in use was in use already when the last
structure was merged, or if the level of the stream is zero. -/
theorem exists_hasCompleteLevels_iff {options : ConversionOptions} {nalUnits : List Bytes}
    {record : DecoderRecord} (h : ((empty options).offer nalUnits).finish = .ok record) :
    ∃ stream, record.stream = some stream ∧
      stream.sublayers = highestSublayers (acceptedContents nalUnits) ∧
      (stream.profile.HasCompleteLevels stream.sublayers ↔
        usedEntries stream.sublayers = usedEntries (mergedSublayers (acceptedContents nalUnits)) ∨
          stream.profile.level = 0) := by
  obtain ⟨-, stream, hstream, hsublayers, hprofile⟩ := of_finish_eq_ok h
  have hlevels := hasLevelsOf_withNalUnits (hasLevelsOf_empty options)
    (nalUnits.filterMap fun nalUnit => (accept nalUnit).toOption)
  rw [← offer_eq, List.nil_append] at hlevels
  refine ⟨stream, hstream, hsublayers.trans hlevels.sublayers_eq, ?_⟩
  rw [hsublayers, hprofile]
  exact hlevels.hasCompleteLevels_iff

/-- A sequence parameter set of three sublayers, then a video parameter set: the table is
completed with the level of the latter. -/
theorem exists_hasCompleteLevels_iff_merged_last :
    let sps : Bytes := [0x00, 0x79, 0x00, 0x4C, 0x00, 0x0F, 0x02, 0x00, 0x43, 0x91, 0xC0]
    let vps : Bytes := [0x00, 0x71, 0x00, 0x00, 0x1F, 0x02, 0x3C, 0x80, 0x00, 0x40]
    let record : DecoderRecord :=
      { lengthSizeMinus1 := 3
        stream := some ⟨0, 3, .constant, 1, 2,
          { ProfileRecord.empty with
            profile := 1, level := 60, frameOnly := true
            sublayerLevels := #v[60, 60, 0, 0, 0, 0] }, 1920, 1080, 0⟩
        arrays := [⟨true, .sequenceParameterSet, [sps]⟩, ⟨true, .videoParameterSet, [vps]⟩] }
    ((empty .standard).offer [sps, vps]).finish = .ok record ∧
      ∃ stream, record.stream = some stream ∧ stream.sublayers = 3 ∧
        stream.profile.HasCompleteLevels stream.sublayers := by
  intro sps vps record
  have hfinish : ((empty .standard).offer [sps, vps]).finish = .ok record := by decide +kernel
  have hhighest : highestSublayers (acceptedContents [sps, vps]) = 3 := by decide +kernel
  have hmerged : mergedSublayers (acceptedContents [sps, vps]) = 3 := by decide +kernel
  obtain ⟨stream, hstream, hsublayers, hcomplete⟩ := exists_hasCompleteLevels_iff hfinish
  rw [hhighest] at hsublayers
  refine ⟨hfinish, stream, hstream, hsublayers, hcomplete.2 (.inl ?_)⟩
  rw [hsublayers, hmerged]

/-- A video parameter set of one sublayer, then a sequence parameter set of three sublayers without
a structure of its own: the entries that come into use stay zero, below the level of the stream. -/
theorem not_hasCompleteLevels_raised_after_merge :
    let nalUnits : List Bytes :=
      [[0x00, 0x71, 0x00, 0x00, 0x1F, 0x02, 0x3C, 0x80, 0x00, 0x40],
        [0x00, 0x79, 0x00, 0x4C, 0x00, 0x0F, 0x02, 0x00, 0x43, 0x91, 0xC0]]
    let stream : StreamInfo :=
      ⟨0, 3, .constant, 1, 2,
        { ProfileRecord.empty with profile := 1, level := 60, frameOnly := true }, 1920, 1080, 0⟩
    ((empty .standard).offer nalUnits).finish.map (·.stream) = .ok (some stream) ∧
      ¬stream.profile.HasCompleteLevels stream.sublayers := by
  intro nalUnits stream
  exact ⟨by decide +kernel, by decide⟩

end RecordBuilder

end H266
