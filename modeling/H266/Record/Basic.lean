import H266.Record.ProfileRecord

/-!
# Decoder Configuration Records

The record that a file format stores beside an H.266 stream: how long the length fields of
the stream are, what the stream demands of a decoder, and its parameter sets and SEI
messages, in one array for each NAL unit type.
-/

namespace H266

/-- What a record says about the frame rate being constant. -/
inductive FrameRate
  | unknown
  | constant
  /-- Each temporal sublayer has a constant frame rate. -/
  | constantPerSublayer
  | reserved
  deriving DecidableEq, Repr

namespace FrameRate

/-- The value of `constant_frame_rate`. -/
def code : FrameRate → Nat
  | unknown => 0
  | constant => 1
  | constantPerSublayer => 2
  | reserved => 3

/-- The frame rate with the given code, of which only the lowest two bits count. -/
def ofCode (n : Nat) : FrameRate :=
  match n % 4 with
  | 0 => unknown
  | 1 => constant
  | 2 => constantPerSublayer
  | _ => reserved

/-- The word for it in the log. -/
def name : FrameRate → String
  | unknown => "Unknown"
  | constant => "Constant"
  | constantPerSublayer => "TemporalLayerConstant"
  | reserved => "Reserved"

/-- Every value is found again by its code. -/
@[simp] theorem ofCode_code (rate : FrameRate) : ofCode rate.code = rate := by
  cases rate <;> rfl

end FrameRate

/-- What a record says about the stream. -/
structure StreamInfo where
  /-- The output layer set that the record describes, written in 9 bits. -/
  olsIndex : Nat
  /-- The number of temporal sublayers, at most 7; zero if it is not known. -/
  sublayers : Nat
  frameRate : FrameRate
  /-- `chroma_format_idc`, written in 2 bits. -/
  chromaFormat : Nat
  /-- The bit depth less 8, written in 3 bits. -/
  bitDepthMinus8 : Nat
  profile : ProfileRecord
  maxWidth : UInt16
  maxHeight : UInt16
  /-- The average frame rate in frames per 256 seconds; zero if it is not known. -/
  averageFrameRate : UInt16
  deriving DecidableEq, Repr

/-- The NAL units of one type that a record holds. -/
structure NalUnitArray where
  /-- Whether the stream itself has no further NAL units of this type. -/
  complete : Bool
  type : NalUnitType
  /-- The NAL units, each with its header and without a start code. -/
  nalUnits : List Bytes
  deriving DecidableEq, Repr

/-- A decoder configuration record. -/
structure DecoderRecord where
  /-- The number of bytes of a length field in the stream, less one: 0, 1 or 3. -/
  lengthSizeMinus1 : Nat
  stream : Option StreamInfo
  arrays : List NalUnitArray
  deriving DecidableEq, Repr

namespace DecoderRecord

/-! ### Counts and sizes -/

/-- The sum of counts or sizes. -/
def total (sizes : List Nat) : Nat :=
  sizes.foldr (· + ·) 0

/-- The number of NAL units of the given type in all arrays. -/
def count (record : DecoderRecord) (type : NalUnitType) : Nat :=
  total ((record.arrays.filter (·.type = type)).map (·.nalUnits.length))

/-- How many bytes the description of a stream takes. -/
def streamSize (stream : StreamInfo) : Nat :=
  3 + stream.profile.size stream.sublayers + 6

/-- How many bytes an array takes. -/
def arraySize (array : NalUnitArray) : Nat :=
  1 + (if array.type.isSingle then 0 else 2)
    + total (array.nalUnits.map fun nalUnit => 2 + nalUnit.length)

/-- How many bytes the record takes. -/
def size (record : DecoderRecord) : Nat :=
  1 + (record.stream.map streamSize).getD 0 + 1 + total (record.arrays.map arraySize)

/-- Whether a byte string starts as a record does and not as a stream with start codes: with
five set bits. -/
def isRecordFormat : Bytes → Bool
  | [] => false
  | first :: _ => first ≥ 0xF8

/-! ### Validity -/

/-- The fewest NAL units of a kind of parameter set that a record must have. -/
def minCount : ParameterSetKind → Nat
  | .video | .sequence => 1
  | .picture => 0

/-- The most NAL units of a kind of parameter set that a record may have. -/
def maxCount : ParameterSetKind → Nat
  | .video | .sequence => 16
  | .picture => 64

/-- Checks that the number of parameter sets of a kind is in range. -/
def validateCount (record : DecoderRecord) (kind : ParameterSetKind) : Except Error Unit := do
  let count := record.count kind.nalUnitType
  if count < minCount kind ∨ maxCount kind < count then
    throw (.invalidData
      (.fieldOutOfRange s!"{kind.abbreviation} count" (minCount kind) (maxCount kind) count))

/-- Checks an array: its type must be one that a record may hold, its NAL units must be as
many as there may be of the type, and they and their number must fit their length fields. -/
def validateArray (array : NalUnitArray) : Except Error Unit := do
  let count := array.nalUnits.length
  if !array.type.isStorable then
    throw (.invalidData (.typeNotStorable array.type))
  if array.type.isSingle ∧ count ≠ 1 then
    throw (.invalidData (.notSingle array.type count))
  if 65535 < count then
    throw (.invalidData (.tooManyNalUnits count))
  match array.nalUnits.find? (65535 < ·.length) with
  | some nalUnit => throw (.invalidData (.nalUnitTooLarge array.type nalUnit.length))
  | none => return

/-- Checks that what is said about the stream fits its fields. -/
def validateStream (stream : StreamInfo) : Except Error Unit := do
  if 511 < stream.olsIndex then
    throw (.invalidData (.exceedsWidth "ols_idx" 9 stream.olsIndex))
  if maxSublayers < stream.sublayers then
    throw (.invalidData (.fieldOutOfRange "num_sublayers" 0 maxSublayers stream.sublayers))
  if 3 < stream.chromaFormat then
    throw (.invalidData (.exceedsWidth "chroma_format_idc" 2 stream.chromaFormat))
  if 7 < stream.bitDepthMinus8 then
    throw (.invalidData (.exceedsWidth "bit_depth_minus8" 3 stream.bitDepthMinus8))
  stream.profile.validate

/-- Checks that the record can be written. Of several faults the one found first is
reported: the length size, the numbers of parameter sets, the arrays in order, and last what
is said about the stream. -/
def validate (record : DecoderRecord) : Except Error Unit := do
  if record.lengthSizeMinus1 ∉ [0, 1, 3] then
    throw (.invalidData (.lengthSizeField record.lengthSizeMinus1))
  record.validateCount .video
  record.validateCount .sequence
  record.validateCount .picture
  if 255 < record.arrays.length then
    throw (.invalidData (.tooManyArrays record.arrays.length))
  record.arrays.forM validateArray
  record.stream.forM validateStream

end DecoderRecord

end H266
