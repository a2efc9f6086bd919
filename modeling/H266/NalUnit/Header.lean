import H266.BitReader

/-!
# NAL Unit Headers

Every NAL unit starts with two bytes that state the layer it belongs to, its type and its
temporal sublayer. They are never escaped: emulation prevention starts after them.
-/

namespace H266

open BitReader

/-- A NAL unit header. -/
structure NalUnitHeader where
  /-- `nuh_layer_id`, six bits. -/
  layerId : Nat
  type : NalUnitType
  /-- `nuh_temporal_id_plus1`, one to seven. -/
  temporalIdPlus1 : Nat
  deriving DecidableEq, Repr

namespace NalUnitHeader

/-- The temporal sublayer that the NAL unit belongs to. -/
def temporalId (header : NalUnitHeader) : Nat :=
  header.temporalIdPlus1 - 1

/-- Reads a NAL unit header. The first bit must be clear and the temporal identifier must
not be; the second bit is reserved. -/
def read : ReadM NalUnitHeader := do
  if ← readBit then
    throw (.invalidData .forbiddenBit)
  skipFlag
  let layerId ← readBits 6
  let type ← readBits 5
  let temporalIdPlus1 ← readBits 3
  if temporalIdPlus1 = 0 then
    throw (.invalidData .missingTemporalId)
  return { layerId, type := .ofCode type, temporalIdPlus1 }

/-- The header of a NAL unit and the bytes after it, which are still escaped. -/
def split (nalUnit : Bytes) : Except Error (NalUnitHeader × Bytes) := do
  let (header, reader) ← read (.ofBytes nalUnit)
  return (header, reader.unread)

/-- The header of a NAL unit that must hold a parameter set of the given kind, and the bytes
after it. -/
def splitParameterSet (kind : ParameterSetKind) (nalUnit : Bytes) :
    Except Error (NalUnitHeader × Bytes) := do
  let (header, payload) ← split nalUnit
  if header.type ≠ kind.nalUnitType then
    throw (.invalidData (.otherNalUnitType kind))
  return (header, payload)

end NalUnitHeader

end H266
