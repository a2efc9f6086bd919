import H266.ConversionOptions
import H266.ParameterSet.Picture
import H266.ParameterSet.Sequence
import H266.ParameterSet.Video
import H266.Record.Aggregate
import H266.Record.Basic

/-!
# Building Decoder Configuration Records

A record is built from the NAL units of a stream, given one by one. Parameter sets and SEI
messages are collected in arrays by type, in the order in which the types first appear, and
what parameter sets say about the stream is folded into its description.
-/

namespace H266

/-- A record under construction. -/
structure RecordBuilder where
  lengthSize : LengthSize
  completeArrays : Bool
  /-- The greatest number of temporal sublayers of a parameter set so far. -/
  sublayers : Nat
  /-- The chroma format of the last sequence parameter set. -/
  chromaFormat : Nat
  /-- The bit depth, less 8, of the last sequence parameter set. -/
  bitDepthMinus8 : Nat
  /-- The greatest picture width so far. -/
  maxWidth : Nat
  /-- The greatest picture height so far. -/
  maxHeight : Nat
  profile : ProfileAggregate
  /-- The NAL units collected so far, in arrays that have the latest of them first. -/
  latestFirst : List NalUnitArray
  deriving DecidableEq, Repr

/-- A step that adds to a record. It ends with a value or an error, and in either case with
the record as it then is. -/
abbrev BuildM := ExceptT Error (StateM RecordBuilder)

namespace RecordBuilder

/-- A record to which nothing was added yet. -/
def empty (options : ConversionOptions) : RecordBuilder where
  lengthSize := options.lengthSize
  completeArrays := options.completeArrays
  sublayers := 0
  chromaFormat := 0
  bitDepthMinus8 := 0
  maxWidth := 0
  maxHeight := 0
  profile := .empty
  latestFirst := []

/-- The NAL units collected so far, by type: the types in the order in which they first
appeared, the NAL units of a type in the order in which they were added. -/
def arrays (builder : RecordBuilder) : List NalUnitArray :=
  builder.latestFirst.map fun array => { array with nalUnits := array.nalUnits.reverse }

/-! ### Folding in parameter sets -/

/-- Raises the number of temporal sublayers to at least the given one. -/
def raiseSublayers (sublayers : Nat) : BuildM Unit :=
  modify fun builder => { builder with sublayers := max builder.sublayers sublayers }

/-- Merges a profile, tier and level structure. -/
def mergeProfile (ptl : ProfileTierLevel) : BuildM Unit := do
  let builder ← get
  let profile ← builder.profile.merge ptl builder.sublayers
  set { builder with profile }

/-- Folds in a video parameter set. -/
def foldVideo (vps : VideoParameterSet) : BuildM Unit := do
  raiseSublayers (vps.maxSublayersMinus1 + 1)
  vps.profileTierLevels.forM mergeProfile

/-- Folds in a sequence parameter set. -/
def foldSequence (sps : SequenceParameterSet) : BuildM Unit := do
  raiseSublayers (sps.maxSublayersMinus1 + 1)
  sps.profileTierLevel.forM mergeProfile
  modify fun builder =>
    { builder with
      maxWidth := max builder.maxWidth sps.maxWidth
      maxHeight := max builder.maxHeight sps.maxHeight
      chromaFormat := sps.chromaFormat
      bitDepthMinus8 := sps.bitDepthMinus8 }

/-! ### Collecting NAL units -/

/-- The arrays with a NAL unit put at the front of the first array of its type, or in a new
array at the end, which is marked as complete if `complete` says so. -/
def insertNalUnit (complete : Bool) (type : NalUnitType) (nalUnit : Bytes) :
    List NalUnitArray → List NalUnitArray
  | [] => [⟨complete, type, [nalUnit]⟩]
  | array :: arrays =>
    if array.type = type then
      { array with nalUnits := nalUnit :: array.nalUnits } :: arrays
    else
      array :: insertNalUnit complete type nalUnit arrays

/-- Collects a NAL unit. Only arrays of parameter sets can be complete. -/
def collect (type : NalUnitType) (nalUnit : Bytes) : BuildM Unit :=
  modify fun builder =>
    { builder with
      latestFirst :=
        insertNalUnit (type.isParameterSet && builder.completeArrays) type nalUnit
          builder.latestFirst }

/-- Adds a NAL unit, with its header and without a start code. A parameter set is read first,
so one that is malformed adds nothing; other NAL units are collected as they are. -/
def add (nalUnit : Bytes) : BuildM Unit := do
  let (header, _) ← NalUnitHeader.split nalUnit
  if !header.type.isCollected then
    throw (.invalidData (.typeNotCollected header.type))
  match header.type with
  | .videoParameterSet =>
    let (vps, _) ← VideoParameterSet.parse nalUnit
    foldVideo vps
  | .sequenceParameterSet =>
    let (sps, _) ← SequenceParameterSet.parse nalUnit
    foldSequence sps
  | .pictureParameterSet =>
    let _ ← PictureParameterSet.parse nalUnit
  | _ => pure ()
  collect header.type nalUnit

/-! ### Finishing -/

/-- A picture size as a record states it. -/
def pictureSize (field : String) (value : Nat) : Except Error UInt16 :=
  if value < 65536 then
    .ok (UInt16.ofNat value)
  else
    .error (.invalidData (.exceedsWidth field 16 value))

/-- The finished record, which may still be one that cannot be written. Parameter sets do not
tell the frame rate, so the record always says that it is constant and of unknown value. -/
def finish (builder : RecordBuilder) : Except Error DecoderRecord := do
  let maxWidth ← pictureSize "max_picture_width" builder.maxWidth
  let maxHeight ← pictureSize "max_picture_height" builder.maxHeight
  return {
    lengthSizeMinus1 := builder.lengthSize.minus1
    arrays := builder.arrays
    stream := some {
      maxWidth, maxHeight
      olsIndex := 0
      sublayers := builder.sublayers
      frameRate := .constant
      chromaFormat := builder.chromaFormat
      bitDepthMinus8 := builder.bitDepthMinus8
      profile := builder.profile.record
      averageFrameRate := 0 } }

end RecordBuilder

end H266
