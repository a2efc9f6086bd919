import H266.NalUnit.Header

/-!
# Picture Parameter Sets

Nothing of a picture parameter set but its header matters to a decoder configuration record.
-/

namespace H266

/-- A picture parameter set. -/
structure PictureParameterSet where
  header : NalUnitHeader
  deriving DecidableEq, Repr

/-- Reads a picture parameter set and returns it with the bytes that were not read. -/
def PictureParameterSet.parse (nalUnit : Bytes) :
    Except Error (PictureParameterSet × Bytes) := do
  let (header, payload) ← NalUnitHeader.splitParameterSet .picture nalUnit
  return ({ header }, payload)

end H266
