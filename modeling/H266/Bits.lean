/-!
# Bits and Bytes

Bit strings and byte strings, written most significant first as every H.266 syntax
structure is. A bit string is a `List Bool` and a byte string a `List UInt8`; the
conversions below fix how a number of a given width, and a byte, read as bits.
-/

namespace H266

/-- A string of bits, the first one sent first. -/
abbrev Bits := List Bool

/-- A string of bytes, the first one sent first. -/
abbrev Bytes := List UInt8

namespace Bits

/-! ### Numbers -/

/-- The lowest `width` bits of `n`, the most significant one first. -/
def ofNat : (width n : Nat) → Bits
  | 0, _ => []
  | width + 1, n => n.testBit width :: ofNat width n

/-- The number that a bit string denotes, its first bit being the most significant. -/
def toNat (bits : Bits) : Nat :=
  bits.foldl (fun n bit => 2 * n + bit.toNat) 0

/-! ### Bytes -/

/-- The eight bits of a byte. -/
def ofByte (byte : UInt8) : Bits :=
  ofNat 8 byte.toNat

/-- The byte whose bits these eight are. -/
def toByte (bits : Bits) : UInt8 :=
  UInt8.ofNat (toNat bits)

/-- The first `count` bytes that a bit string fills, in which zero bits stand for bits past
its end. -/
def toBytes : (count : Nat) → Bits → Bytes
  | 0, _ => []
  | count + 1, bits =>
    toByte (bits.take 8 ++ List.replicate (8 - bits.length) false) ::
      toBytes count (bits.drop 8)

/-- The bytes that a bit string fills, the last one filled up with zero bits. -/
def pack (bits : Bits) : Bytes :=
  toBytes ((bits.length + 7) / 8) bits

/-- The bits of a byte string, byte after byte. -/
def ofBytes (bytes : Bytes) : Bits :=
  bytes.flatMap ofByte

end Bits

namespace Bytes

/-! ### Big-endian integers -/

/-- The lowest `count` bytes of `n`, the most significant one first. -/
def ofNat : (count n : Nat) → Bytes
  | 0, _ => []
  | count + 1, n => UInt8.ofNat (n >>> (8 * count)) :: ofNat count n

/-- The number whose big-endian bytes these are. -/
def toNat (bytes : Bytes) : Nat :=
  bytes.foldl (fun n byte => 256 * n + byte.toNat) 0

end Bytes

end H266
