import H266.AnnexB
import H266.Record.Builder
import H266.Record.Writer

/-!
# Conversions

What can be made of a byte stream with start codes: a stream in which each NAL unit follows
its length, a decoder configuration record, and the bytes of that record.
-/

namespace H266

/-! ### Streams with length fields -/

/-- A stream in which each NAL unit follows its length. -/
structure LengthPrefixedStream where
  data : Bytes
  /-- How many parameter sets were left out. -/
  dropped : Nat
  deriving DecidableEq, Repr

namespace LengthPrefixedStream

/-- Whether the header of a NAL unit says that it is a parameter set. -/
def isParameterSet (nalUnit : Bytes) : Bool :=
  ((NalUnitType.ofHeaderBytes? nalUnit).map (·.isParameterSet)).getD false

/-- The NAL unit after its length, if the length field can state that. -/
def delimit (size : LengthSize) (nalUnit : Bytes) : Except Error Bytes :=
  if size.maxLength < nalUnit.length then
    .error (.invalidData (.nalUnitTooLong nalUnit.length size.bytes))
  else
    .ok (Bytes.ofNat size.bytes nalUnit.length ++ nalUnit)

/-- Whether the options leave a NAL unit out. -/
def isDropped (options : ConversionOptions) (nalUnit : Bytes) : Bool :=
  options.filterParameterSets && isParameterSet nalUnit

/-- Converts a byte stream with start codes. Parameter sets are left out and counted if the
options say so. -/
def ofAnnexB (options : ConversionOptions) (data : Bytes) :
    Except Error LengthPrefixedStream := do
  let nalUnits := AnnexB.nalUnits data
  let kept := nalUnits.filter fun nalUnit => !isDropped options nalUnit
  let parts ← kept.mapM (delimit options.lengthSize)
  return { data := parts.flatten, dropped := nalUnits.countP (isDropped options) }

end LengthPrefixedStream

/-! ### Records -/

namespace RecordBuilder

/-- Whether the header of a NAL unit says that it is one to collect. -/
def isCollected (nalUnit : Bytes) : Bool :=
  ((NalUnitType.ofHeaderBytes? nalUnit).map (·.isCollected)).getD false

/-- Adds those NAL units of a byte stream with start codes that are to be collected. -/
def addAnnexB (data : Bytes) : BuildM Unit :=
  ((AnnexB.nalUnits data).filter isCollected).forM add

/-- The builder to which the NAL units of a byte stream were added. -/
def ofAnnexB (options : ConversionOptions) (data : Bytes) : Except Error RecordBuilder :=
  match (addAnnexB data).run (empty options) with
  | (.ok _, builder) => .ok builder
  | (.error error, _) => .error error

end RecordBuilder

namespace DecoderRecord

/-- Builds a record from a byte stream with start codes. NAL units of which no record is
built are passed over. -/
def ofAnnexB (options : ConversionOptions) (data : Bytes) : Except Error DecoderRecord := do
  let builder ← RecordBuilder.ofAnnexB options data
  builder.finish

/-- The fewest bytes that are taken for a record or for a stream to make one of. -/
def minInput : Nat := 6

/-- The bytes of the record for an input. The input is a record already, which is returned as
it is, or a byte stream that begins with a start code. -/
def bytesOf (options : ConversionOptions) (data : Bytes) : Except Error Bytes := do
  if data.length < minInput then
    throw (.invalidData (.inputTooShort data.length))
  if isRecordFormat data then
    return data
  if !AnnexB.hasStartCode data then
    throw (.invalidData .noStartCode)
  let record ← ofAnnexB options data
  record.encode

end DecoderRecord

end H266
