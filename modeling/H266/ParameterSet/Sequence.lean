import H266.NalUnit.Header
import H266.ProfileTierLevel
import H266.ExpGolomb

/-!
# Sequence Parameter Sets

A sequence parameter set is read as far as the bit depth. What follows does not matter to a
decoder configuration record and is left unread.
-/

namespace H266

open BitReader

/-- A sequence parameter set, as far as it is read. -/
structure SequenceParameterSet where
  header : NalUnitHeader
  /-- `sps_seq_parameter_set_id`. -/
  id : Nat
  /-- `sps_video_parameter_set_id`, zero if no video parameter set is referred to. -/
  videoParameterSetId : Nat
  /-- `sps_max_sublayers_minus1`, at most 6. -/
  maxSublayersMinus1 : Nat
  /-- `sps_chroma_format_idc`, at most 3. -/
  chromaFormat : Nat
  /-- `sps_log2_ctu_size_minus5`, at most 2. -/
  log2CtuSizeMinus5 : Nat
  profileTierLevel : Option ProfileTierLevel
  /-- `sps_pic_width_max_in_luma_samples`. -/
  maxWidth : Nat
  /-- `sps_pic_height_max_in_luma_samples`. -/
  maxHeight : Nat
  /-- `sps_num_subpics_minus1`, zero if there is no subpicture information. -/
  subpicturesMinus1 : Nat
  /-- `sps_bitdepth_minus8`, at most 8. -/
  bitDepthMinus8 : Nat
  deriving DecidableEq, Repr

namespace SequenceParameterSet

/-! ### Subpictures -/

/-- The base-2 logarithm of `n`, rounded up, and zero for `n = 0`. -/
def ceilLog2 (n : Nat) : Nat :=
  if n ≤ 1 then 0 else (n - 1).log2 + 1

/-- How the places and sizes of subpictures are coded: a picture that is wider, or taller,
than one coding tree block counts blocks in numbers that are just wide enough. -/
structure SubpictureGrid where
  /-- The size of a coding tree block in luma samples. -/
  blockSize : Nat
  maxWidth : Nat
  maxHeight : Nat

/-- The width of numbers of blocks along so many samples, if they are coded. -/
def SubpictureGrid.placeBits (grid : SubpictureGrid) (samples : Nat) : Option Nat :=
  if grid.blockSize < samples then
    some (ceilLog2 ((samples + grid.blockSize - 1) / grid.blockSize))
  else
    none

/-- The width of horizontal places and sizes, if they are coded. -/
def SubpictureGrid.columnBits (grid : SubpictureGrid) : Option Nat :=
  grid.placeBits grid.maxWidth

/-- The width of vertical places and sizes, if they are coded. -/
def SubpictureGrid.rowBits (grid : SubpictureGrid) : Option Nat :=
  grid.placeBits grid.maxHeight

/-- Skips a number of the given width, if there is one. -/
def skipSized (width : Option Nat) : ReadM Unit :=
  match width with
  | none => pure ()
  | some width => skipNumber width

/-- Skips the layout of the subpictures from subpicture `i` on, of which `left` come after
it. Subpictures of one size are placed by the first alone; the first is placed at the
origin, and the last takes what is left of the picture. -/
def skipSubpictures (grid : SubpictureGrid) (independent sameSize : Bool) (i : Nat) :
    (left : Nat) → ReadM Unit
  | 0 => skipSubpicture i true
  | left + 1 => do
    skipSubpicture i false
    skipSubpictures grid independent sameSize (i + 1) left
where
  /-- Skips the place, size and flags of subpicture `i`. -/
  skipSubpicture (i : Nat) (isLast : Bool) : ReadM Unit := do
    skipIf (!sameSize || i == 0) do
      skipIf (i != 0) do
        skipSized grid.columnBits
        skipSized grid.rowBits
      skipIf (!isLast) do
        skipSized grid.columnBits
        skipSized grid.rowBits
    skipIf (!independent) do
      skipFlag
      skipFlag

/-- Skips subpicture information and returns one less than the number of subpictures. -/
def readSubpictureInfo (grid : SubpictureGrid) : ReadM Nat := do
  let countMinus1 ← readInRange "sps_num_subpics_minus1" 0 599 readExpGolomb
  let several := countMinus1 != 0
  let independent ← readIf several readBit true
  let sameSize ← readIf several readBit false
  skipIf several (skipSubpictures grid independent sameSize 0 countMinus1)
  let idLengthMinus1 ← readInRange "sps_subpic_id_len_minus1" 0 15 readExpGolomb
  let explicitIds ← readBit
  let idsHere ← readIf explicitIds readBit false
  skipIf idsHere (skipBits ((countMinus1 + 1) * (idLengthMinus1 + 1)))
  return countMinus1

/-! ### Reading -/

/-- The size of a coding tree block in luma samples. -/
def ctbSize (sps : SequenceParameterSet) : Nat :=
  1 <<< (sps.log2CtuSizeMinus5 + 5)

/-- Skips the offsets of a conformance window. -/
def skipConformanceWindow : ReadM Unit :=
  skipTimes 4 skipExpGolomb

/-- Reads what follows the header. -/
def readPayload (header : NalUnitHeader) : ReadM SequenceParameterSet := do
  let id ← readBits 4
  let videoParameterSetId ← readBits 4
  let maxSublayersMinus1 ← readInRange "sps_max_sublayers_minus1" 0 6 (readBits 3)
  let chromaFormat ← readBits 2
  let log2CtuSizeMinus5 ← readInRange "sps_log2_ctu_size_minus5" 0 2 (readBits 2)
  let profilePresent ← readBit
  let profileTierLevel ←
    readIf profilePresent (some <$> ProfileTierLevel.read true maxSublayersMinus1) none
  skipFlag
  let resampling ← readBit
  skipIf resampling skipFlag
  let maxWidth ← readExpGolomb
  let maxHeight ← readExpGolomb
  let windowPresent ← readBit
  skipIf windowPresent skipConformanceWindow
  let subpicturesPresent ← readBit
  let grid : SubpictureGrid :=
    { blockSize := 1 <<< (log2CtuSizeMinus5 + 5), maxWidth, maxHeight }
  let subpicturesMinus1 ← readIf subpicturesPresent (readSubpictureInfo grid) 0
  let bitDepthMinus8 ← readInRange "sps_bitdepth_minus8" 0 8 readExpGolomb
  return {
    header, id, videoParameterSetId, maxSublayersMinus1, chromaFormat, log2CtuSizeMinus5,
    profileTierLevel, maxWidth, maxHeight, subpicturesMinus1, bitDepthMinus8 }

/-- Reads a sequence parameter set and returns it with the bytes that were not read. -/
def parse (nalUnit : Bytes) : Except Error (SequenceParameterSet × Bytes) := do
  let (header, payload) ← NalUnitHeader.splitParameterSet .sequence nalUnit
  let (sps, reader) ← readPayload header (.ofEscaped payload)
  return (sps, reader.unread)

end SequenceParameterSet

end H266
