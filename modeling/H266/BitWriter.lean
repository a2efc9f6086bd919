import H266.ByteSink

/-!
# Writing Bits

Bits are gathered, most significant first, until they fill a byte, which then goes to the
sink. Bytes that are written at a byte boundary go to the sink directly.

A `WriteM` is a step that writes. Since a bounded sink may fail in the middle of it and keeps
what it took until then, such a step leaves a writer behind also when it fails.
-/

namespace H266

/-- Bits on their way to a sink. -/
structure BitWriter where
  sink : ByteSink
  /-- The bits of the byte that is not full yet. -/
  pending : Bits

/-- A step that writes bits. -/
abbrev WriteM := ExceptT Error (StateM BitWriter)

namespace BitWriter

/-- A writer to a sink, at a byte boundary. -/
def ofSink (sink : ByteSink) : BitWriter :=
  ⟨sink, []⟩

/-- How many bits of the byte that is not full yet are there. -/
def bitOffset (writer : BitWriter) : Nat :=
  writer.pending.length

/-- Whether the writer is at a byte boundary. -/
def isAligned (writer : BitWriter) : Bool :=
  writer.pending.isEmpty

/-- A step on the sink as a step on its writer. -/
def onSink {α : Type} (step : SinkM α) : WriteM α := fun writer =>
  let (result, sink) := step writer.sink
  (result, { writer with sink := sink })

/-! ### Bits -/

/-- Writes one bit, and with it the byte that it completes. -/
def writeBit (bit : Bool) : WriteM Unit := do
  let bits := (← get).pending ++ [bit]
  if bits.length = 8 then
    onSink (ByteSink.writeByte (Bits.toByte bits))
    modify fun writer => { writer with pending := [] }
  else
    modify fun writer => { writer with pending := bits }

/-- Writes a bit string. -/
def writeString (bits : Bits) : WriteM Unit :=
  bits.forM writeBit

/-- Writes a number of `count` bits. No more than 64 bits are written at once, and nothing is
written if the number does not fit. -/
def writeBits (value count : Nat) : WriteM Unit := do
  let width := min count 64
  if 1 <<< width ≤ value then
    throw (.invalidData .bitsTooLarge)
  writeString (Bits.ofNat width value)

/-- Writes the first `count` bits of a byte string, and zero bits for those past its end. -/
def writeLeading (bytes : Bytes) (count : Nat) : WriteM Unit := do
  writeString ((Bits.ofBytes bytes).take count)
  writeString (List.replicate (count - 8 * bytes.length) false)

/-- Writes zero bits up to the next byte boundary. -/
def align : WriteM Unit := do
  let writer ← get
  unless writer.isAligned do
    writeBits 0 (8 - writer.bitOffset)

/-! ### Bytes -/

/-- Writes whole bytes, at any bit offset. -/
def writeBytes (bytes : Bytes) : WriteM Unit := do
  if (← get).isAligned then
    onSink (ByteSink.writeAll bytes)
  else
    bytes.forM fun byte => writeBits byte.toNat 8

/-- Offers whole bytes and returns how many were taken. Only a bounded sink that is offered
them at a byte boundary takes less than all. -/
def writeSome (bytes : Bytes) : WriteM Nat := do
  if (← get).isAligned then
    onSink (ByteSink.write bytes)
  else
    bytes.forM fun byte => writeBits byte.toNat 8
    return bytes.length

/-! ### Whole runs -/

/-- Runs a step on a writer to the given sink, fills up the last byte, and returns how this
ended and the sink. -/
def runOn (sink : ByteSink) (step : WriteM Unit) : Except Error Unit × ByteSink :=
  let (result, writer) := (do step; align : WriteM Unit) (ofSink sink)
  (result, writer.sink)

end BitWriter

end H266
