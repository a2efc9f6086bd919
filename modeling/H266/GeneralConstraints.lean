import H266.BitReader
import H266.Layout

/-!
# General Constraints Information

The constraint flags of a profile, tier and level structure. They are kept as one number of
71 bits; what the reserved bits after them say is dropped, only how many there are is kept.
-/

namespace H266

open BitReader

/-- General constraints information. -/
structure GeneralConstraints where
  /-- The 71 constraint flags, the last of them in the lowest bit. -/
  flags : Nat
  /-- `gci_num_reserved_bits`. -/
  reservedBits : UInt8
  deriving DecidableEq, Repr

namespace GeneralConstraints

/-- Reads general constraints information and moves on to the next byte boundary. Nothing is
returned if the first bit says that there are no constraints. -/
def read : ReadM (Option GeneralConstraints) := do
  let present ← readBit
  let constraints ← readIf present (some <$> readPresent) none
  align
  return constraints
where
  /-- Reads what follows the first bit if that is set. -/
  readPresent : ReadM GeneralConstraints := do
    let high ← readBits 7
    let low ← readBits 64
    let reservedBits ← readUInt8
    skipBits reservedBits.toNat
    return { flags := high * UInt64.size + low, reservedBits }

/-- How many bytes the encoded form has. -/
def encodedLength (constraints : GeneralConstraints) : Nat :=
  10 + (constraints.reservedBits.toNat + 7) / 8

/-- The encoded form: the first bit set, the flags, the number of reserved bits, and that
many clear bits. -/
def layout (constraints : GeneralConstraints) : Layout :=
  [.flag true,
   .number (constraints.flags / UInt64.size % 128) 7,
   .number (constraints.flags % UInt64.size) 64,
   .number constraints.reservedBits.toNat 8,
   .leading [] constraints.reservedBits.toNat]

/-- The bytes of the encoded form. -/
def encode (constraints : GeneralConstraints) : Except Error Bytes :=
  BitWriter.encode constraints.layout

end GeneralConstraints

end H266
