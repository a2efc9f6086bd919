import H266.ExpGolomb

/-!
# Layouts

What is to be written is described by a *layout*, a list of items such as "a number of six
bits" or "zero bits up to the next byte boundary". Layouts are plain data: they are built by
pure functions, and one operation writes any of them.
-/

namespace H266

/-- An item of a layout. -/
inductive Item
  /-- A single bit. -/
  | flag (bit : Bool)
  /-- A number of `width` bits. -/
  | number (value width : Nat)
  /-- The first `count` bits of a byte string. -/
  | leading (bytes : Bytes) (count : Nat)
  /-- Whole bytes. -/
  | bytes (bytes : Bytes)
  /-- An unsigned exp-Golomb code. -/
  | expGolomb (value : Nat)
  /-- A signed exp-Golomb code. -/
  | signedExpGolomb (value : Int)
  /-- Zero bits up to the next byte boundary. -/
  | align

/-- What is to be written, item by item. -/
abbrev Layout := List Item

namespace BitWriter

/-- Writes one item. -/
def writeItem : Item → WriteM Unit
  | .flag bit => writeBit bit
  | .number value width => writeBits value width
  | .leading bytes count => writeLeading bytes count
  | .bytes bytes => writeBytes bytes
  | .expGolomb value => writeExpGolomb value
  | .signedExpGolomb value => writeSignedExpGolomb value
  | .align => align

/-- Writes the items of a layout in order, up to the first that fails. -/
def writeLayout (layout : Layout) : WriteM Unit :=
  layout.forM writeItem

/-- The bytes that a layout fills, its last byte filled up with zero bits. -/
def encode (layout : Layout) : Except Error Bytes :=
  let (result, sink) := runOn (.empty false none) (writeLayout layout)
  result.map fun _ => sink.stored.toList

end BitWriter

end H266
