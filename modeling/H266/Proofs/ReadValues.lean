import H266.ParameterSet.Sequence
import H266.ParameterSet.Video
import H266.Proofs.Bits
import H266.Proofs.Steps

/-!
# Values That Were Read

What is known of a value because it was read, whatever it was read from: a number fits the width
that it is coded in, a list is as long as its count says, and a value that was checked is in its
range. So parameter sets hold no numbers that are too large for a decoder configuration record,
with one exception: the bit depth can be one more than the record has room for.

A step *yields* a value if it gives it for some reader. That a sequence yields a value is taken
apart step by step, and readers need not be mentioned.

## Main results

* `Yields.of_bind`: what a sequence yields comes of what its steps yield.
* `lt_of_yields_readBits`, `length_of_yields_readTimes`, `Yields.of_readInRange`: the basic steps.
* `ProfileTierLevel.of_yields_read`, `VideoParameterSet.of_yields_readPayload`,
  `SequenceParameterSet.of_yields_readPayload`: how the values of a structure were read.
* `ProfileTierLevel.inRange_of_yields`, `VideoParameterSet.inRange_of_parse`,
  `SequenceParameterSet.inRange_of_parse`: the ranges of these values.
-/

namespace H266

namespace BitReader

variable {α β ι : Type}

/-! ### Steps -/

/-- A value that a step gives for some reader. -/
def Yields (step : ReadM α) (value : α) : Prop :=
  ∃ reader reader', step reader = .ok (value, reader')

/-- Only the value that is given comes of it. -/
theorem Yields.of_pure {value own : α} (h : Yields (pure own) value) : own = value := by
  obtain ⟨reader, reader', h⟩ := h
  cases h
  rfl

/-- What a sequence yields comes of what its steps yield. -/
theorem Yields.of_bind {step : ReadM α} {next : α → ReadM β} {value : β}
    (h : Yields (step >>= next) value) :
    ∃ first, Yields step first ∧ Yields (next first) value := by
  obtain ⟨reader, reader', h⟩ := h
  obtain ⟨first, middle, hfirst, h⟩ := PureStep.of_bind_eq_ok h
  exact ⟨first, ⟨reader, middle, hfirst⟩, ⟨middle, reader', h⟩⟩

/-- What comes of it was made of what the step gave. -/
theorem Yields.of_map {step : ReadM α} {f : α → β} {value : β} (h : Yields (f <$> step) value) :
    ∃ first, Yields step first ∧ f first = value := by
  have h : Yields (step >>= fun first => pure (f first)) value := h
  obtain ⟨first, hfirst, h⟩ := h.of_bind
  exact ⟨first, hfirst, h.of_pure⟩

/-- Either it was there and was read, or it was inferred. -/
theorem Yields.of_readIf {present : Bool} {step : ReadM α} {inferred value : α}
    (h : Yields (readIf present step inferred) value) :
    present = true ∧ Yields step value ∨ present = false ∧ inferred = value := by
  cases present with
  | true => exact .inl ⟨rfl, h⟩
  | false => exact .inr ⟨rfl, h.of_pure⟩

/-- A value that passed the check for its range. -/
theorem Yields.of_readInRange {element : String} {low high value : Nat} {step : ReadM Nat}
    (h : Yields (readInRange element low high step) value) :
    Yields step value ∧ low ≤ value ∧ value ≤ high := by
  obtain ⟨own, hstep, h⟩ := h.of_bind
  by_cases hrange : own < low ∨ high < own
  · rw [if_pos hrange] at h
    obtain ⟨_, ⟨_, _, hthrow⟩, -⟩ := h.of_bind
    cases hthrow
  · rw [if_neg hrange] at h
    obtain rfl := h.of_pure
    exact ⟨hstep, by omega, by omega⟩

/-- Each further bit doubles what a number can be. -/
theorem lt_of_yields_readBitsAfter {high count value : Nat}
    (h : Yields (readBitsAfter high count) value) : value < (high + 1) * 2 ^ count := by
  induction count generalizing high with
  | zero =>
    obtain rfl := h.of_pure
    omega
  | succ count ih =>
    obtain ⟨bit, -, h⟩ := h.of_bind
    have hbit : 2 * high + bit.toNat + 1 ≤ (high + 1) * 2 := by
      have := bit.toNat_le
      omega
    calc value < (2 * high + bit.toNat + 1) * 2 ^ count := ih h
      _ ≤ (high + 1) * 2 * 2 ^ count := Nat.mul_le_mul_right _ hbit
      _ = (high + 1) * 2 ^ (count + 1) := by rw [Nat.mul_assoc, ← Nat.pow_succ']

/-- A number fits the width that it is coded in. -/
theorem lt_of_yields_readBits {count value : Nat} (h : Yields (readBits count) value) :
    value < 2 ^ min count 64 := by
  have hlt := lt_of_yields_readBitsAfter h
  rwa [Nat.zero_add, Nat.one_mul] at hlt

/-- As many values were read as were asked for, behind those that were read before. -/
theorem length_of_yields_repeatAfter {step : ReadM α} {done values : List α} {count : Nat}
    (h : Yields (repeatAfter step done count) values) : values.length = done.length + count := by
  induction count generalizing done with
  | zero =>
    obtain rfl := h.of_pure
    exact List.length_reverse
  | succ count ih =>
    obtain ⟨value, -, h⟩ := h.of_bind
    rw [ih h, List.length_cons]
    omega

/-- A list is as long as its count says. -/
theorem length_of_yields_readTimes {step : ReadM α} {values : List α} {count : Nat}
    (h : Yields (readTimes count step) values) : values.length = count :=
  (length_of_yields_repeatAfter h).trans (Nat.zero_add count)

/-- Every value of a list is one that a step yields. -/
theorem Yields.of_mapM {step : ι → ReadM α} {indices : List ι} {values : List α}
    (h : Yields (indices.mapM step) values) {value : α} (hmem : value ∈ values) :
    ∃ index, Yields (step index) value := by
  induction indices generalizing values with
  | nil =>
    obtain rfl := h.of_pure
    cases hmem
  | cons index indices ih =>
    rw [List.mapM_cons] at h
    obtain ⟨first, hfirst, h⟩ := h.of_bind
    obtain ⟨following, hfollowing, h⟩ := h.of_bind
    obtain rfl := h.of_pure
    rcases List.mem_cons.1 hmem with rfl | hmem
    · exact ⟨index, hfirst⟩
    · exact ih hfollowing hmem

end BitReader

open BitReader

/-- What was read of a parameter set was read off some payload. -/
theorem NalUnitHeader.exists_yields_of_eq_ok {α : Type} (kind : ParameterSetKind)
    {readPayload : NalUnitHeader → ReadM α} {nalUnit rest : Bytes} {value : α}
    (h : (do
      let (header, payload) ← splitParameterSet kind nalUnit
      let (parameterSet, reader) ← readPayload header (.ofEscaped payload)
      return (parameterSet, reader.unread)) = Except.ok (value, rest)) :
    ∃ header, Yields (readPayload header) value := by
  obtain ⟨⟨header, payload⟩, -, h⟩ := Check.of_bind_eq_ok h
  obtain ⟨⟨own, reader'⟩, hread, h⟩ := Check.of_bind_eq_ok h
  cases h
  exact ⟨header, .ofEscaped payload, reader', hread⟩

/-! ### Profile, tier and level structures -/

namespace ProfileTierLevel

/-- How the values of a structure were read. -/
theorem of_yields_read {profilePresent : Bool} {lowerSublayers : Nat} {ptl : ProfileTierLevel}
    (h : Yields (read profilePresent lowerSublayers) ptl) :
    lowerSublayers ≤ maxSublayers - 1 ∧
      Yields (readIf profilePresent (readBits 7) 0) ptl.profile ∧
      (∃ present levels, Yields (readTimes lowerSublayers readBit) present ∧
        Yields (readLevels ptl.level present) levels ∧
        ptl.sublayerLevelPresent = present.reverse ∧ ptl.sublayerLevels = levels.reverse) ∧
      Yields (readIf profilePresent readSubProfiles []) ptl.subProfiles := by
  obtain ⟨count, hcount, h⟩ := Yields.of_bind h
  obtain ⟨profile, hprofile, h⟩ := h.of_bind
  obtain ⟨tier, -, h⟩ := h.of_bind
  obtain ⟨level, -, h⟩ := h.of_bind
  obtain ⟨frameOnly, -, h⟩ := h.of_bind
  obtain ⟨multilayer, -, h⟩ := h.of_bind
  obtain ⟨constraints, -, h⟩ := h.of_bind
  obtain ⟨present, hpresent, h⟩ := h.of_bind
  obtain ⟨_, -, h⟩ := h.of_bind
  obtain ⟨levels, hlevels, h⟩ := h.of_bind
  obtain ⟨subProfiles, hsubProfiles, h⟩ := h.of_bind
  obtain rfl := h.of_pure
  obtain ⟨hsame, -, hle⟩ := hcount.of_readInRange
  obtain rfl := hsame.of_pure
  exact ⟨hle, hprofile, ⟨present, levels, hpresent, hlevels, rfl, rfl⟩, hsubProfiles⟩

/-- A structure whose numbers fit the fields of a record. -/
structure InRange (ptl : ProfileTierLevel) : Prop where
  profile_le : ptl.profile ≤ 127
  subProfiles_le : ptl.subProfiles.length ≤ 255

/-- The count of sub-profiles has eight bits. -/
theorem length_le_of_yields_readSubProfiles {subProfiles : List UInt32}
    (h : Yields readSubProfiles subProfiles) : subProfiles.length ≤ 255 := by
  obtain ⟨count, -, h⟩ := Yields.of_bind h
  rw [length_of_yields_readTimes h]
  exact Nat.le_of_lt_succ count.toNat_lt

/-- The numbers of a structure that was read are in range. -/
theorem inRange_of_yields {profilePresent : Bool} {lowerSublayers : Nat} {ptl : ProfileTierLevel}
    (h : Yields (read profilePresent lowerSublayers) ptl) : ptl.InRange := by
  obtain ⟨-, hprofile, -, hsubProfiles⟩ := of_yields_read h
  constructor
  · rcases hprofile.of_readIf with ⟨-, hread⟩ | ⟨-, hzero⟩
    · exact Nat.le_of_lt_succ (lt_of_yields_readBits hread)
    · omega
  · rcases hsubProfiles.of_readIf with ⟨-, hread⟩ | ⟨-, hnone⟩
    · exact length_le_of_yields_readSubProfiles hread
    · rw [← hnone]
      exact Nat.zero_le _

/-- A structure has in range what it takes from another one. -/
theorem InRange.inherit {previous : ProfileTierLevel} (h : previous.InRange)
    (own : ProfileTierLevel) : (own.inherit previous).InRange :=
  ⟨h.profile_le, h.subProfiles_le⟩

end ProfileTierLevel

/-! ### Video parameter sets -/

namespace VideoParameterSet

/-- How the values of a video parameter set were read, as far as the sublayers and the structures
go. -/
theorem of_yields_readPayload {header : NalUnitHeader} {vps : VideoParameterSet}
    (h : Yields (readPayload header) vps) :
    vps.maxSublayersMinus1 ≤ 6 ∧ ∃ codings,
      (∀ coding ∈ codings, ∃ index,
        Yields (readPtlCoding vps.defaultMaxTid vps.maxSublayersMinus1 index) coding) ∧
      Yields (readPtls none codings) vps.profileTierLevels := by
  obtain ⟨id, -, h⟩ := Yields.of_bind h
  obtain ⟨maxLayersMinus1, -, h⟩ := h.of_bind
  obtain ⟨maxSublayersMinus1, hsublayers, h⟩ := h.of_bind
  obtain ⟨defaultMaxTid, -, h⟩ := h.of_bind
  obtain ⟨independentLayers, -, h⟩ := h.of_bind
  obtain ⟨references, -, h⟩ := h.of_bind
  obtain ⟨olsMode, -, h⟩ := h.of_bind
  obtain ⟨ptlCountMinus1, -, h⟩ := h.of_bind
  obtain ⟨codings, hcodings, h⟩ := h.of_bind
  obtain ⟨_, -, h⟩ := h.of_bind
  obtain ⟨ptls, hptls, h⟩ := h.of_bind
  obtain ⟨_, -, h⟩ := h.of_bind
  obtain ⟨timingPresent, -, h⟩ := h.of_bind
  obtain rfl := h.of_pure
  exact ⟨hsublayers.of_readInRange.2.2, codings, fun coding => hcodings.of_mapM, hptls⟩

/-- A video parameter set whose numbers fit the fields of a record. -/
structure InRange (vps : VideoParameterSet) : Prop where
  maxSublayersMinus1_le : vps.maxSublayersMinus1 ≤ 6
  profileTierLevels : ∀ ptl ∈ vps.profileTierLevels, ptl.InRange

/-- Structures that follow one in range are in range, also if they take profile and sub-profiles
over from it. -/
theorem inRange_of_yields_readPtls {previous : Option ProfileTierLevel} {codings : List PtlCoding}
    {ptls : List ProfileTierLevel} (h : Yields (readPtls previous codings) ptls)
    (hprevious : ∀ ptl, previous = some ptl → ptl.InRange) : ∀ ptl ∈ ptls, ptl.InRange := by
  induction codings generalizing previous ptls with
  | nil =>
    obtain rfl := Yields.of_pure h
    intro ptl hmem
    cases hmem
  | cons coding codings ih =>
    obtain ⟨own, hown, h⟩ := Yields.of_bind h
    obtain ⟨following, hfollowing, h⟩ := h.of_bind
    obtain rfl := h.of_pure
    have hrange := ProfileTierLevel.inRange_of_yields hown
    rw [List.forall_mem_cons]
    rcases previous with _ | previous
    · exact ⟨hrange, ih hfollowing fun ptl hptl => Option.some.inj hptl ▸ hrange⟩
    · have hfirst : (if coding.profilePresent then own else own.inherit previous).InRange := by
        split
        · exact hrange
        · exact (hprevious previous rfl).inherit own
      exact ⟨hfirst, ih hfollowing fun ptl hptl => Option.some.inj hptl ▸ hfirst⟩

/-- The numbers of a video parameter set that was parsed are in range. -/
theorem inRange_of_parse {nalUnit rest : Bytes} {vps : VideoParameterSet}
    (h : parse nalUnit = .ok (vps, rest)) : vps.InRange := by
  obtain ⟨header, hread⟩ := NalUnitHeader.exists_yields_of_eq_ok .video h
  obtain ⟨hsublayers, codings, -, hptls⟩ := of_yields_readPayload hread
  exact ⟨hsublayers, inRange_of_yields_readPtls hptls fun _ hnone => by cases hnone⟩

end VideoParameterSet

/-! ### Sequence parameter sets -/

namespace SequenceParameterSet

/-- How the values of a sequence parameter set were read, as far as they matter to a record. -/
theorem of_yields_readPayload {header : NalUnitHeader} {sps : SequenceParameterSet}
    (h : Yields (readPayload header) sps) :
    sps.maxSublayersMinus1 ≤ 6 ∧ Yields (readBits 2) sps.chromaFormat ∧
      sps.bitDepthMinus8 ≤ 8 ∧ ∀ ptl, sps.profileTierLevel = some ptl →
        Yields (ProfileTierLevel.read true sps.maxSublayersMinus1) ptl := by
  obtain ⟨id, -, h⟩ := Yields.of_bind h
  obtain ⟨videoParameterSetId, -, h⟩ := h.of_bind
  obtain ⟨maxSublayersMinus1, hsublayers, h⟩ := h.of_bind
  obtain ⟨chromaFormat, hchroma, h⟩ := h.of_bind
  obtain ⟨log2CtuSizeMinus5, -, h⟩ := h.of_bind
  obtain ⟨profilePresent, -, h⟩ := h.of_bind
  obtain ⟨profileTierLevel, hprofile, h⟩ := h.of_bind
  obtain ⟨_, -, h⟩ := h.of_bind
  obtain ⟨resampling, -, h⟩ := h.of_bind
  obtain ⟨_, -, h⟩ := h.of_bind
  obtain ⟨maxWidth, -, h⟩ := h.of_bind
  obtain ⟨maxHeight, -, h⟩ := h.of_bind
  obtain ⟨windowPresent, -, h⟩ := h.of_bind
  obtain ⟨_, -, h⟩ := h.of_bind
  obtain ⟨subpicturesPresent, -, h⟩ := h.of_bind
  obtain ⟨subpicturesMinus1, -, h⟩ := h.of_bind
  obtain ⟨bitDepthMinus8, hdepth, h⟩ := h.of_bind
  obtain rfl := h.of_pure
  refine ⟨hsublayers.of_readInRange.2.2, hchroma, hdepth.of_readInRange.2.2, ?_⟩
  rintro ptl rfl
  rcases hprofile.of_readIf with ⟨-, hread⟩ | ⟨-, hnone⟩
  · obtain ⟨own, hown, hsome⟩ := hread.of_map
    cases hsome
    exact hown
  · cases hnone

/-- A sequence parameter set whose numbers fit the fields of a record, except that the bit depth
can be one too many. -/
structure InRange (sps : SequenceParameterSet) : Prop where
  maxSublayersMinus1_le : sps.maxSublayersMinus1 ≤ 6
  chromaFormat_le : sps.chromaFormat ≤ 3
  bitDepthMinus8_le : sps.bitDepthMinus8 ≤ 8
  profileTierLevel : ∀ ptl, sps.profileTierLevel = some ptl → ptl.InRange

/-- The numbers of a sequence parameter set that was parsed are in range. -/
theorem inRange_of_parse {nalUnit rest : Bytes} {sps : SequenceParameterSet}
    (h : parse nalUnit = .ok (sps, rest)) : sps.InRange := by
  obtain ⟨header, hread⟩ := NalUnitHeader.exists_yields_of_eq_ok .sequence h
  obtain ⟨hsublayers, hchroma, hdepth, hptl⟩ := of_yields_readPayload hread
  exact ⟨hsublayers, Nat.le_of_lt_succ (lt_of_yields_readBits hchroma), hdepth,
    fun ptl hsome => ProfileTierLevel.inRange_of_yields (hptl ptl hsome)⟩

end SequenceParameterSet

end H266
