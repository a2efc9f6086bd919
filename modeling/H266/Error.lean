import H266.NalUnit.Type

/-!
# Errors

What can go wrong, by cause. A `Fault` says in what way data breaks the rules of a syntax
structure or of a record, an `IoFailure` is what a stream or a file reports, and an `Error`
is what the operations of this library return. The wording of every message is here and
nowhere else.
-/

namespace H266

/-! ### Faults -/

/-- A way in which data is invalid. -/
inductive Fault
  /-- A syntax element was read whose value lies outside its range. -/
  | elementOutOfRange (element : String) (low high value : Nat)
  /-- A field of a record is to be written whose value lies outside its range. -/
  | fieldOutOfRange (field : String) (low high value : Nat)
  /-- A field is to be written whose value needs more bits than the field has. -/
  | exceedsWidth (field : String) (width value : Nat)
  /-- An exp-Golomb code starts with more than 63 zero bits. -/
  | codeTooLong
  /-- A number is to be written in fewer bits than it needs. -/
  | bitsTooLarge
  /-- The first bit of a NAL unit header is set. -/
  | forbiddenBit
  /-- A NAL unit header has no temporal identifier. -/
  | missingTemporalId
  /-- A NAL unit is not of the kind of parameter set that was asked for. -/
  | otherNalUnitType (expected : ParameterSetKind)
  /-- A profile, tier and level record announces no constraint bytes, but its two flags
  share the first of them. -/
  | noConstraintInfo
  /-- A profile, tier and level record has more sub-profiles than its count can state. -/
  | tooManySubProfiles (count : Nat)
  /-- The first byte of a record does not start with five set bits. -/
  | reservedBitsClear
  /-- A record that is read states the length size code 2. -/
  | reservedLengthSize
  /-- A record that is to be written has no valid length size code. -/
  | lengthSizeField (value : Nat)
  /-- No length field has this many bytes. -/
  | lengthSizeOption (value : Nat)
  /-- A record has an array for NAL units that it may not hold. -/
  | typeNotStorable (type : NalUnitType)
  /-- A NAL unit was offered that no record is built from. -/
  | typeNotCollected (type : NalUnitType)
  /-- A record has more arrays than its count can state. -/
  | tooManyArrays (count : Nat)
  /-- An array that must hold one NAL unit holds another number of them. -/
  | notSingle (type : NalUnitType) (count : Nat)
  /-- An array has more NAL units than its count can state. -/
  | tooManyNalUnits (count : Nat)
  /-- A NAL unit in a record is longer than its length field can state. -/
  | nalUnitTooLarge (type : NalUnitType) (length : Nat)
  /-- A NAL unit in a stream is longer than its length field can state. -/
  | nalUnitTooLong (length width : Nat)
  /-- An input cannot be a record or a stream to make one of, being too short. -/
  | inputTooShort (length : Nat)
  /-- An input is neither a record nor does it begin with a start code. -/
  | noStartCode
  /-- Any other fault, in the words of the stream that found it. -/
  | reported (text : String)
  deriving DecidableEq, Repr

/-- The message for a fault. -/
def Fault.message : Fault → String
  | elementOutOfRange element low high value =>
    s!"{element} is out of range [{low}, {high}]: {value}"
  | fieldOutOfRange field low high value => s!"{field} out of range [{low}, {high}]: {value}"
  | exceedsWidth field width value => s!"{field} does not fit {width} bits: {value}"
  | codeTooLong => "exp-golomb prefix too long"
  | bitsTooLarge => "bits too large to write"
  | forbiddenBit => "forbidden_zero_bit is not zero"
  | missingTemporalId => "nuh_temporal_id_plus1 cannot be 0"
  | otherNalUnitType expected => s!"nal_unit_type is not {expected.abbreviation}_NUT"
  | noConstraintInfo => "num_bytes_constraint_info must not be 0"
  | tooManySubProfiles count => s!"too many sub profiles: {count}"
  | reservedBitsClear => "reserved bits of the first byte must be set"
  | reservedLengthSize => "length_size_minus_one must be 0, 1, or 3"
  | lengthSizeField value => s!"length_size_minus_one must be 0, 1, or 3: {value}"
  | lengthSizeOption value => s!"length size must be 1, 2 or 4: {value}"
  | typeNotStorable type => s!"invalid nal_unit_type: {type.name}"
  | typeNotCollected type =>
    s!"{type.name} cannot be stored in a decoder configuration record"
  | tooManyArrays count => s!"too many NAL unit arrays: {count}"
  | notSingle type count => s!"{type.name} array must hold exactly one NAL unit: {count}"
  | tooManyNalUnits count => s!"too many NAL units: {count}"
  | nalUnitTooLarge type length => s!"{type.name} NAL unit too large: {length} bytes"
  | nalUnitTooLong length width =>
    s!"NAL unit of {length} bytes does not fit a {width} byte length prefix"
  | inputTooShort length =>
    s!"{length} bytes are too short for a decoder configuration record"
  | noStartCode => "input does not start with an Annex-B start code"
  | reported text => text

/-! ### Failures of streams and files -/

/-- What kind of failure a stream or a file reports. -/
inductive IoKind
  /-- The data ended early. -/
  | unexpectedEnd
  /-- The data is malformed. -/
  | invalidData
  /-- An operation was asked for with a value that it does not take. -/
  | invalidInput
  /-- A sink takes no more bytes. -/
  | sinkFull
  | notFound
  | alreadyExists
  | isDirectory
  | notDirectory
  | permissionDenied
  /-- A name or a path is longer than it may be. -/
  | nameTooLong
  /-- Any other kind, by its name. -/
  | other (name : String)
  deriving DecidableEq, Repr

/-- A failure that a stream or a file reports: its kind and a text about it. -/
structure IoFailure where
  kind : IoKind
  text : String
  deriving DecidableEq, Repr

/-! ### Errors -/

/-- What an operation of this library fails with. -/
inductive Error
  /-- The bits ran out before the end of a syntax structure. -/
  | outOfData
  /-- The data breaks a rule. -/
  | invalidData (fault : Fault)
  /-- `hrd_cpb_cnt_minus1` is above 31. -/
  | unsupportedCpbCount (countMinus1 : Nat)
  /-- Any other failure of a stream, usually of the sink that is written to. -/
  | io (failure : IoFailure)
  deriving DecidableEq, Repr

namespace Error

/-- A stream that ends early is out of data and one that reports malformed data makes it
invalid; every other failure is passed on as it is. -/
def ofIo (failure : IoFailure) : Error :=
  match failure.kind with
  | .unexpectedEnd => outOfData
  | .invalidData => invalidData (.reported failure.text)
  | _ => io failure

/-- A bounded sink is full. -/
def sinkFull : Error :=
  io ⟨.sinkFull, "failed to write whole buffer"⟩

/-- A number is too large for any exp-Golomb code. -/
def codeTooLarge : Error :=
  io ⟨.invalidInput, "exp-golomb value too large"⟩

/-- The message for an error. -/
def message : Error → String
  | outOfData => "Bitstream exhausted before the end of a syntax structure"
  | invalidData fault => s!"Invalid data: {fault.message}"
  | unsupportedCpbCount countMinus1 =>
    s!"Unsupported CPB count: hrd_cpb_cnt_minus1 = {countMinus1} (max 31)"
  | io failure => s!"I/O error: {failure.text}"

/-- Whether the error says that the input is malformed. An unsupported number of coded
picture buffers counts as malformed. -/
def isInvalidData : Error → Bool
  | invalidData _ | unsupportedCpbCount _ => true
  | outOfData | io _ => false

end Error

end H266
