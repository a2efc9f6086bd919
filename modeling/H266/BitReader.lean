import H266.ByteSource
import H266.Error

/-!
# Reading Bits

A cursor over the bits of a byte source, most significant bit first. A byte is fetched from
the source when its first bit is needed; the bits of it that are still to be read are kept,
and reading at a byte boundary goes past them straight to the source.

Everything that is read off a bit string, from a single flag to a whole decoder
configuration record, is a `ReadM`: a step that moves the cursor and ends with a value or
with an error.
-/

namespace H266

/-- A cursor over bits. -/
structure BitReader where
  /-- Where further bytes come from. -/
  source : ByteSource
  /-- The bits of the current byte that are not read yet, seven at most. -/
  pending : Bits
  /-- How many bits were read. -/
  position : Nat

/-- A step that reads bits. -/
abbrev ReadM := StateT BitReader (Except Error)

namespace BitReader

/-! ### Cursors -/

/-- A cursor at the first bit of a source. -/
def ofSource (source : ByteSource) : BitReader :=
  ⟨source, [], 0⟩

/-- A cursor at the first bit of a byte string. -/
def ofBytes (bytes : Bytes) : BitReader :=
  ofSource (.ofBytes bytes)

/-- A cursor at the first bit of a byte string without its emulation prevention bytes. -/
def ofEscaped (bytes : Bytes) : BitReader :=
  ofSource (.ofEscaped bytes)

/-- The bytes that were not fetched from the source. -/
def unread (reader : BitReader) : Bytes :=
  reader.source.remaining

/-- How many bits of the current byte were read, none at a byte boundary. -/
def bitOffset (reader : BitReader) : Nat :=
  reader.position % 8

/-- Whether the cursor is at a byte boundary. -/
def isAligned (reader : BitReader) : Bool :=
  reader.pending.isEmpty

/-! ### Bits -/

/-- Reads one bit. -/
def readBit : ReadM Bool := fun reader =>
  match reader.pending with
  | bit :: pending => .ok (bit, ⟨reader.source, pending, reader.position + 1⟩)
  | [] =>
    match reader.source.next? with
    | none => .error .outOfData
    | some (byte, source) =>
      .ok (byte.toNat.testBit 7, ⟨source, Bits.ofNat 7 byte.toNat, reader.position + 1⟩)

/-- Reads `count` further bits of a number whose bits so far make `high`. -/
def readBitsAfter (high : Nat) : (count : Nat) → ReadM Nat
  | 0 => pure high
  | count + 1 => do
    let bit ← readBit
    readBitsAfter (2 * high + bit.toNat) count

/-- Reads a number of `count` bits. No more than 64 bits are read at once. -/
def readBits (count : Nat) : ReadM Nat :=
  readBitsAfter 0 (min count 64)

/-- Moves on to the next byte boundary, if the cursor is not at one. -/
def align : ReadM Unit :=
  modify fun reader =>
    { reader with pending := [], position := reader.position + reader.pending.length }

/-! ### Bytes -/

/-- Reads `count` bytes bit by bit, to follow the ones in `taken`, which are in reverse
order. -/
def readUnalignedAfter (taken : Bytes) : (count : Nat) → ReadM Bytes
  | 0 => pure taken.reverse
  | count + 1 => do
    let byte ← readBits 8
    readUnalignedAfter (UInt8.ofNat byte :: taken) count

/-- Reads up to `count` bytes. At a byte boundary fewer are read if there are no more;
elsewhere all of them must be there. -/
def readSome (count : Nat) : ReadM Bytes := do
  let reader ← get
  if reader.isAligned then
    let (bytes, source) := reader.source.take count
    set { reader with source := source, position := reader.position + 8 * bytes.length }
    return bytes
  else
    readUnalignedAfter [] count

/-- Reads `count` bytes. -/
def readBytes (count : Nat) : ReadM Bytes := do
  let bytes ← readSome count
  if bytes.length < count then
    throw .outOfData
  return bytes

/-- Reads all bytes that are left. Off a byte boundary this fails, since the last bits of
the source never fill a byte. -/
def readToEnd : ReadM Bytes := do
  let reader ← get
  if reader.isAligned then
    let (bytes, source) := reader.source.takeAll
    set { reader with source := source, position := reader.position + 8 * bytes.length }
    return bytes
  else
    throw .outOfData

/-- Reads a big-endian integer of `count` bytes. -/
def readBigEndian (count : Nat) : ReadM Nat :=
  Bytes.toNat <$> readBytes count

/-- Reads an 8-bit integer. -/
def readUInt8 : ReadM UInt8 :=
  UInt8.ofNat <$> readBigEndian 1

/-- Reads a 16-bit integer. -/
def readUInt16 : ReadM UInt16 :=
  UInt16.ofNat <$> readBigEndian 2

/-- Reads a 32-bit integer. -/
def readUInt32 : ReadM UInt32 :=
  UInt32.ofNat <$> readBigEndian 4

/-- Skips `count` bits: those that are left of the current byte, then whole bytes, then the
first bits of the byte after them. -/
def skipBits (count : Nat) : ReadM Unit := do
  let buffered := min count (← get).pending.length
  let _ ← readBits buffered
  let ahead := count - buffered
  if 8 ≤ ahead then
    let _ ← readBytes (ahead / 8)
  let _ ← readBits (ahead % 8)

/-! ### Repetition and checks -/

/-- Runs a step `count` times, its values following those in `done`, which are in reverse
order. -/
def repeatAfter {α : Type} (step : ReadM α) (done : List α) : (count : Nat) → ReadM (List α)
  | 0 => pure done.reverse
  | count + 1 => do
    let value ← step
    repeatAfter step (value :: done) count

/-- Runs a step `count` times and lists its values in order. -/
def readTimes {α : Type} (count : Nat) (step : ReadM α) : ReadM (List α) :=
  repeatAfter step [] count

/-- Runs a step `count` times for what it skips. -/
def skipTimes (count : Nat) (step : ReadM Unit) : ReadM Unit :=
  match count with
  | 0 => pure ()
  | count + 1 => do
    step
    skipTimes count step

/-- Runs a step if it is called for, and otherwise takes the value that is inferred. -/
def readIf {α : Type} (present : Bool) (step : ReadM α) (inferred : α) : ReadM α :=
  if present then step else pure inferred

/-- Runs a step for what it skips, if it is called for. -/
def skipIf (present : Bool) (step : ReadM Unit) : ReadM Unit :=
  readIf present step ()

/-- Skips a flag. -/
def skipFlag : ReadM Unit := do
  let _ ← readBit

/-- Skips a number of `count` bits. -/
def skipNumber (count : Nat) : ReadM Unit := do
  let _ ← readBits count

/-- Reads the value of a syntax element that must lie between `low` and `high`. -/
def readInRange (element : String) (low high : Nat) (step : ReadM Nat) : ReadM Nat := do
  let value ← step
  if value < low ∨ high < value then
    throw (.invalidData (.elementOutOfRange element low high value))
  return value

end BitReader

end H266
