import H266.Record.Basic

/-!
# Writing Decoder Configuration Records

A record is checked before the first bit of it is written, so a record that is refused leaves
the sink as it was.
-/

namespace H266

namespace DecoderRecord

/-- The written form of a NAL unit. -/
def nalUnitLayout (nalUnit : Bytes) : Layout :=
  [.bytes (Bytes.ofNat 2 nalUnit.length), .bytes nalUnit]

/-- The written form of an array. -/
def arrayLayout (array : NalUnitArray) : Layout :=
  [.flag array.complete, .number 0 2, .number array.type.code 5]
    ++ (if array.type.isSingle then [] else [.bytes (Bytes.ofNat 2 array.nalUnits.length)])
    ++ array.nalUnits.flatMap nalUnitLayout

/-- The written form of what is said about the stream, up to the profile record. -/
def streamHeadLayout (stream : StreamInfo) : Layout :=
  [.number stream.olsIndex 9,
   .number stream.sublayers 3,
   .number stream.frameRate.code 2,
   .number stream.chromaFormat 2,
   .number stream.bitDepthMinus8 3,
   .number 0b11111 5]

/-- The written form of what is said about the stream. -/
def streamLayout (stream : StreamInfo) : Layout :=
  streamHeadLayout stream
    ++ stream.profile.layout stream.sublayers
    ++ [.bytes (Bytes.ofNat 2 stream.maxWidth.toNat),
        .bytes (Bytes.ofNat 2 stream.maxHeight.toNat),
        .bytes (Bytes.ofNat 2 stream.averageFrameRate.toNat)]

/-- The written form of a record. -/
def layout (record : DecoderRecord) : Layout :=
  [.number 0b11111 5, .number record.lengthSizeMinus1 2, .flag record.stream.isSome]
    ++ (record.stream.map streamLayout).getD []
    ++ [.bytes (Bytes.ofNat 1 record.arrays.length)]
    ++ record.arrays.flatMap arrayLayout

/-- Writes a record, if it is valid. -/
def write (record : DecoderRecord) : WriteM Unit := do
  record.validate
  BitWriter.writeLayout record.layout

/-- Writes a record to a sink and returns how this ended and the sink. -/
def writeTo (record : DecoderRecord) (sink : ByteSink) : Except Error Unit × ByteSink :=
  BitWriter.runOn sink record.write

/-- The bytes of a record, if it is valid. -/
def encode (record : DecoderRecord) : Except Error Bytes :=
  let (result, sink) := record.writeTo (.empty false none)
  result.map fun _ => sink.stored.toList

end DecoderRecord

end H266
