import H266.NalUnit.Header
import H266.OutputLayerSets
import H266.ProfileTierLevel
import H266.TimingHrd

/-!
# Video Parameter Sets

A video parameter set describes the layers of a stream, the output layer sets that can be
decoded, and what each demands of a decoder. It is read as far as the timing and HRD
parameters. Of what follows the profile, tier and level structures nothing is kept, but it is
read, so that a malformed parameter set is refused.
-/

namespace H266

open BitReader

/-- A video parameter set, as far as it is read. -/
structure VideoParameterSet where
  header : NalUnitHeader
  /-- `vps_video_parameter_set_id`. -/
  id : Nat
  /-- `vps_max_layers_minus1`, at most 63. -/
  maxLayersMinus1 : Nat
  /-- `vps_max_sublayers_minus1`, at most 6. -/
  maxSublayersMinus1 : Nat
  /-- Whether all structures cover all temporal sublayers, so that none states how many. -/
  defaultMaxTid : Bool
  /-- Whether no layer refers to another. -/
  independentLayers : Bool
  /-- How output layer sets are formed. -/
  olsMode : OlsMode
  /-- The number of output layer sets. -/
  olsCount : Nat
  /-- The number of output layer sets with more than one layer. -/
  multiLayerOlsCount : Nat
  /-- The profile, tier and level structures, with what is inferred filled in. -/
  profileTierLevels : List ProfileTierLevel
  /-- For each of these structures the highest temporal sublayer that it covers. -/
  maxTids : List Nat
  /-- Whether there are timing and HRD parameters. -/
  timingPresent : Bool
  deriving DecidableEq, Repr

namespace VideoParameterSet

/-! ### Layers -/

/-- Reads the references of a layer to the lower layers. A reference may come with the
highest sublayer that it is made to, which is skipped. -/
def readReferences (lowerLayers : Nat) : ReadM (List Bool) := do
  let maxTidPresent ← readBit
  readTimes lowerLayers do
    let refers ← readBit
    skipIf (maxTidPresent && refers) (skipNumber 3)
    return refers

/-- Reads the description of a layer above the given number of lower layers and returns which
of them it refers to. -/
def readLayer (allIndependent : Bool) (lowerLayers : Nat) : ReadM (List Bool) := do
  skipNumber 6
  let independent ← readIf (lowerLayers != 0 && !allIndependent) readBit true
  readIf (!independent) (readReferences lowerLayers) (List.replicate lowerLayers false)

/-- Reads the descriptions of all layers, the lowest first. -/
def readLayers (allIndependent : Bool) (layers : Nat) : ReadM (List (List Bool)) :=
  (List.range layers).mapM (readLayer allIndependent)

/-! ### Output layer sets -/

/-- Reads the output layer sets that are listed, except the first, which is the lowest
layer. -/
def readListedSets (layers : Nat) : ReadM (List (List Bool)) := do
  let countMinus2 ← readBits 8
  readTimes (countMinus2 + 1) (readTimes layers readBit)

/-- Reads how the output layer sets of more than one layer are formed. Independent layers may
each be a set; if they are not, their sets are listed. -/
def readOlsMode (allIndependent : Bool) (layers : Nat) : ReadM OlsMode := do
  let eachLayer ← readIf allIndependent readBit false
  if eachLayer then
    return .eachLayer
  let code ←
    readIf (!allIndependent) (readInRange "vps_ols_mode_idc" 0 2 (readBits 2)) 2
  match code with
  | 0 => return .highestLayer
  | 1 => return .allLayers
  | _ => return .listed (← readListedSets layers)

/-! ### Profile, tier and level structures -/

/-- How a profile, tier and level structure is coded. -/
structure PtlCoding where
  /-- Whether it states profile and tier. -/
  profilePresent : Bool
  /-- The highest temporal sublayer that it covers. -/
  maxTid : Nat
  deriving DecidableEq, Repr

/-- Reads how a structure is coded. The first one always states profile and tier. -/
def readPtlCoding (defaultMaxTid : Bool) (maxSublayersMinus1 index : Nat) :
    ReadM PtlCoding := do
  let profilePresent ← readIf (index != 0) readBit true
  let maxTid ←
    readIf (!defaultMaxTid)
      (readInRange "vps_ptl_max_tids[i]" 0 maxSublayersMinus1 (readBits 3))
      maxSublayersMinus1
  return { profilePresent, maxTid }

/-- Reads structures that are coded as given, after `previous`. A structure that does not
state profile and tier has those of the one before it. -/
def readPtls (previous : Option ProfileTierLevel) :
    (codings : List PtlCoding) → ReadM (List ProfileTierLevel)
  | [] => pure []
  | coding :: codings => do
    let own ← ProfileTierLevel.read coding.profilePresent coding.maxTid
    let ptl :=
      match previous with
      | some previous => if coding.profilePresent then own else own.inherit previous
      | none => own
    let following ← readPtls (some ptl) codings
    return ptl :: following

/-- Skips which structure each output layer set has. This is coded only if there are several
structures, and not one for each set. -/
def skipOlsPtls (ptlCount olsCount : Nat) : ReadM Unit :=
  skipIf (ptlCount != 1 && ptlCount != olsCount) (skipTimes olsCount (skipNumber 8))

/-! ### Decoded picture buffers and timing -/

/-- Skips the parameters of a decoded picture buffer for the sublayers from `first` to
`last`. -/
def skipDpbParameters (first last : Nat) : ReadM Unit :=
  skipTimes (last + 1 - first) (skipTimes 3 skipExpGolomb)

/-- Reads the highest sublayer that a set of parameters covers; it is not checked. -/
def readMaxTid (defaultMaxTid : Bool) (maxSublayersMinus1 : Nat) : ReadM Nat :=
  readIf (!defaultMaxTid) (readBits 3) maxSublayersMinus1

/-- Skips the picture format of an output layer set with several layers, and which of the
given number of buffer parameters it has, where this is coded. -/
def skipOlsFormat (indexPresent : Bool) : ReadM Unit := do
  skipExpGolomb
  skipExpGolomb
  skipNumber 2
  skipExpGolomb
  skipIf indexPresent skipExpGolomb

/-- Skips the parameters of the decoded picture buffers. -/
def skipBuffers (defaultMaxTid : Bool) (maxSublayersMinus1 olsCount multiLayerOlsCount : Nat) :
    ReadM Unit := do
  let countMinus1 ← readInRange "vps_num_dpb_params_minus1" 0 olsCount readExpGolomb
  let count := countMinus1 + 1
  let allSublayers ← readIf (maxSublayersMinus1 != 0) readBit false
  skipTimes count do
    let maxTid ← readMaxTid defaultMaxTid maxSublayersMinus1
    skipDpbParameters (if allSublayers then 0 else maxTid) maxTid
  skipTimes multiLayerOlsCount
    (skipOlsFormat (count != 1 && count != multiLayerOlsCount))

/-- Skips timing and HRD parameters. -/
def skipTiming (defaultMaxTid : Bool) (maxSublayersMinus1 multiLayerOlsCount : Nat) :
    ReadM Unit := do
  let general ← TimingHrd.read
  let allSublayers ← readIf (maxSublayersMinus1 != 0) readBit false
  let countMinus1 ←
    readInRange "vps_num_ols_timing_hrd_params_minus1" 0 multiLayerOlsCount readExpGolomb
  let count := countMinus1 + 1
  skipTimes count do
    let maxTid ← readMaxTid defaultMaxTid maxSublayersMinus1
    general.skipOutputLayerSet (if allSublayers then 0 else maxTid) maxTid
  skipIf (count != 1 && count != multiLayerOlsCount)
    (skipTimes multiLayerOlsCount skipExpGolomb)

/-- Skips what is coded about output layer sets unless each layer is a set of its own, and
returns whether there are timing and HRD parameters. -/
def readOlsParameters
    (defaultMaxTid : Bool) (maxSublayersMinus1 olsCount multiLayerOlsCount : Nat) :
    ReadM Bool := do
  skipBuffers defaultMaxTid maxSublayersMinus1 olsCount multiLayerOlsCount
  let timingPresent ← readBit
  skipIf timingPresent (skipTiming defaultMaxTid maxSublayersMinus1 multiLayerOlsCount)
  return timingPresent

/-! ### Reading -/

/-- Reads what follows the header. -/
def readPayload (header : NalUnitHeader) : ReadM VideoParameterSet := do
  let id ← readBits 4
  let maxLayersMinus1 ← readBits 6
  let maxSublayersMinus1 ← readInRange "vps_max_sublayers_minus1" 0 6 (readBits 3)
  let layers := maxLayersMinus1 + 1
  let severalLayers := maxLayersMinus1 != 0
  let defaultMaxTid ← readIf (severalLayers && maxSublayersMinus1 != 0) readBit true
  let independentLayers ← readIf severalLayers readBit true
  let references ← readLayers independentLayers layers
  let olsMode ← readIf severalLayers (readOlsMode independentLayers layers) .eachLayer
  let ptlCountMinus1 ← readIf severalLayers (readBits 8) 0
  let layerCounts := OutputLayerSets.layerCounts layers references olsMode
  let olsCount := layerCounts.length
  let multiLayerOlsCount := layerCounts.countP (1 < ·)
  let codings ←
    (List.range (ptlCountMinus1 + 1)).mapM (readPtlCoding defaultMaxTid maxSublayersMinus1)
  align
  let profileTierLevels ← readPtls none codings
  skipOlsPtls (ptlCountMinus1 + 1) olsCount
  let timingPresent ←
    readIf (olsMode != .eachLayer)
      (readOlsParameters defaultMaxTid maxSublayersMinus1 olsCount multiLayerOlsCount) false
  return {
    header, id, maxLayersMinus1, maxSublayersMinus1, defaultMaxTid, independentLayers,
    olsMode, olsCount, multiLayerOlsCount, profileTierLevels, timingPresent
    maxTids := codings.map (·.maxTid) }

/-- Reads a video parameter set and returns it with the bytes that were not read. -/
def parse (nalUnit : Bytes) : Except Error (VideoParameterSet × Bytes) := do
  let (header, payload) ← NalUnitHeader.splitParameterSet .video nalUnit
  let (vps, reader) ← readPayload header (.ofEscaped payload)
  return (vps, reader.unread)

end VideoParameterSet

end H266
