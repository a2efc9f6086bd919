import H266.Proofs.LevelCompleteness
import H266.Proofs.LevelDominance

/-!
# Sublayers of Parameter Sets

A parameter set states at most seven temporal sublayers, and the profile, tier and level
structures in it state levels only for sublayers below the highest of these. A structure in a
video parameter set may cover fewer sublayers than the parameter set has, but not more; one that
takes profile and tier over from the structure before it keeps its own table.

## Main results

* `VideoParameterSet.length_le_of_parse`, `SequenceParameterSet.length_eq_of_parse`: the tables of
  the structures in a parameter set.
* `RecordBuilder.isCovered_of_accept`: those of the structures in an accepted NAL unit.
-/

namespace H266

open BitReader

/-! ### Video parameter sets -/

namespace VideoParameterSet

/-- A structure covers no more sublayers than the parameter set has. -/
theorem maxTid_le_of_yields {defaultMaxTid : Bool} {maxSublayersMinus1 index : Nat}
    {coding : PtlCoding}
    (h : Yields (readPtlCoding defaultMaxTid maxSublayersMinus1 index) coding) :
    coding.maxTid ≤ maxSublayersMinus1 := by
  obtain ⟨profilePresent, -, h⟩ := Yields.of_bind h
  obtain ⟨maxTid, hmaxTid, h⟩ := h.of_bind
  obtain rfl := h.of_pure
  rcases hmaxTid.of_readIf with ⟨-, hread⟩ | ⟨-, hall⟩
  · exact hread.of_readInRange.2.2
  · exact hall.ge

/-- The table of a structure has an entry for each sublayer that it covers below the highest,
also if profile and tier are taken over from the structure before it. -/
theorem exists_coding_of_yields {previous : Option ProfileTierLevel} {codings : List PtlCoding}
    {ptls : List ProfileTierLevel} (h : Yields (readPtls previous codings) ptls)
    {ptl : ProfileTierLevel} (hmem : ptl ∈ ptls) :
    ∃ coding ∈ codings, ptl.sublayerLevelPresent.length = coding.maxTid := by
  induction codings generalizing previous ptls with
  | nil =>
    obtain rfl := Yields.of_pure h
    cases hmem
  | cons coding codings ih =>
    obtain ⟨own, hown, h⟩ := Yields.of_bind h
    obtain ⟨following, hfollowing, h⟩ := h.of_bind
    obtain rfl := h.of_pure
    rcases List.mem_cons.1 hmem with rfl | hmem
    · obtain ⟨htable, hlength⟩ := ProfileTierLevel.hasInferredLevels_of_yields hown
      refine ⟨coding, .head _, ?_⟩
      rw [← hlength, ← htable.length_eq]
      rcases previous with _ | previous
      · rfl
      · cases coding.profilePresent <;> rfl
    · obtain ⟨other, hother, hlength⟩ := ih hfollowing hmem
      exact ⟨other, .tail _ hother, hlength⟩

/-- The structures in a video parameter set state no levels beyond its sublayers. -/
theorem length_le_of_parse {nalUnit rest : Bytes} {vps : VideoParameterSet}
    (h : parse nalUnit = .ok (vps, rest)) {ptl : ProfileTierLevel}
    (hmem : ptl ∈ vps.profileTierLevels) :
    ptl.sublayerLevelPresent.length ≤ vps.maxSublayersMinus1 := by
  obtain ⟨header, hread⟩ := NalUnitHeader.exists_yields_of_eq_ok .video h
  obtain ⟨-, codings, hcodings, hptls⟩ := of_yields_readPayload hread
  obtain ⟨coding, hcoding, hlength⟩ := exists_coding_of_yields hptls hmem
  obtain ⟨index, hown⟩ := hcodings coding hcoding
  rw [hlength]
  exact maxTid_le_of_yields hown

end VideoParameterSet

/-! ### Sequence parameter sets -/

/-- The structure in a sequence parameter set covers all of its sublayers. -/
theorem SequenceParameterSet.length_eq_of_parse {nalUnit rest : Bytes}
    {sps : SequenceParameterSet} (h : parse nalUnit = .ok (sps, rest)) {ptl : ProfileTierLevel}
    (hsome : sps.profileTierLevel = some ptl) :
    ptl.sublayerLevelPresent.length = sps.maxSublayersMinus1 := by
  obtain ⟨header, hread⟩ := NalUnitHeader.exists_yields_of_eq_ok .sequence h
  obtain ⟨-, -, -, hptl⟩ := of_yields_readPayload hread
  obtain ⟨htable, hlength⟩ := ProfileTierLevel.hasInferredLevels_of_yields (hptl ptl hsome)
  rw [htable.length_eq, hlength]

/-! ### Accepted NAL units -/

/-- A NAL unit in which the profile, tier and level structures state levels only for sublayers
below the highest that the NAL unit has. -/
def NalUnitContent.IsCovered (content : NalUnitContent) : Prop :=
  ∀ ptl ∈ content.profileTierLevels, ptl.sublayerLevelPresent.length < content.sublayers

namespace RecordBuilder

/-- A NAL unit that is accepted is one of these. -/
theorem isCovered_of_accept {nalUnit : Bytes} {accepted : AcceptedNalUnit}
    (h : accept nalUnit = .ok accepted) : accepted.content.IsCovered := by
  obtain ⟨-, -, -, hread⟩ := of_accept_eq_ok h
  intro ptl hmem
  rcases of_readContent_eq_ok hread with
    ⟨vps, rest, hvideo, hparse⟩ | ⟨sps, rest, hsequence, hparse⟩ | hother
  · rw [hvideo] at hmem ⊢
    exact Nat.lt_succ_of_le (VideoParameterSet.length_le_of_parse hparse hmem)
  · rw [hsequence] at hmem ⊢
    exact Nat.lt_succ_of_le (Nat.le_of_eq
      (SequenceParameterSet.length_eq_of_parse hparse (Option.mem_toList.1 hmem)))
  · rw [hother] at hmem
    cases hmem

/-- So is every one of the NAL units that are accepted when some are offered. -/
theorem isCovered_of_mem {nalUnits : List Bytes} {accepted : AcceptedNalUnit}
    (h : accepted ∈ nalUnits.filterMap fun nalUnit => (accept nalUnit).toOption) :
    accepted.content.IsCovered := by
  obtain ⟨nalUnit, -, haccept⟩ := mem_filterMap_accept_iff.1 h
  exact isCovered_of_accept haccept

end RecordBuilder

end H266
