import H266.Record.Basic

/-!
# Reading Decoder Configuration Records

A record is read from the start of a byte string; bytes after it are left over. Reserved bits
are skipped, except the five at the very start, by which a record is recognised.
-/

namespace H266

open BitReader

namespace DecoderRecord

/-- Reads a NAL unit with its 16-bit length. -/
def readNalUnit : ReadM Bytes := do
  let length ← readUInt16
  readBytes length.toNat

/-- Reads an array. Arrays of a type of which there is one NAL unit have no count. -/
def readArray : ReadM NalUnitArray := do
  let complete ← readBit
  skipNumber 2
  let code ← readBits 5
  let type := NalUnitType.ofCode code
  if !type.isStorable then
    throw (.invalidData (.typeNotStorable type))
  let count ← readIf (!type.isSingle) readUInt16 1
  let nalUnits ← readTimes count.toNat readNalUnit
  return { complete, type, nalUnits }

/-- Reads what is said about the stream. -/
def readStream : ReadM StreamInfo := do
  let olsIndex ← readBits 9
  let sublayers ← readBits 3
  let frameRate ← readBits 2
  let chromaFormat ← readBits 2
  let bitDepthMinus8 ← readBits 3
  skipNumber 5
  let profile ← ProfileRecord.read sublayers
  let maxWidth ← readUInt16
  let maxHeight ← readUInt16
  let averageFrameRate ← readUInt16
  return {
    olsIndex, sublayers, chromaFormat, bitDepthMinus8, profile, maxWidth, maxHeight,
    averageFrameRate
    frameRate := .ofCode frameRate }

/-- Reads a record. -/
def read : ReadM DecoderRecord := do
  let reserved ← readBits 5
  if reserved ≠ 0b11111 then
    throw (.invalidData .reservedBitsClear)
  let lengthSizeMinus1 ← readBits 2
  if lengthSizeMinus1 = 2 then
    throw (.invalidData .reservedLengthSize)
  let streamPresent ← readBit
  let stream ← readIf streamPresent (some <$> readStream) none
  let arrayCount ← readUInt8
  let arrays ← readTimes arrayCount.toNat readArray
  return { lengthSizeMinus1, stream, arrays }

/-- Reads a record from the start of a byte string and returns it with the bytes after it. -/
def parse (data : Bytes) : Except Error (DecoderRecord × Bytes) := do
  let (record, reader) ← read (.ofBytes data)
  return (record, reader.unread)

end DecoderRecord

end H266
