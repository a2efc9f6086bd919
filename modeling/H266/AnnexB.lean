import H266.Bits

/-!
# Byte Streams with Start Codes

In a byte stream of Annex B each NAL unit follows a start code, the bytes `00 00 01`. A zero
byte right before a start code belongs to the start code. Bytes before the first start code,
and start codes with nothing between them, stand for no NAL unit.
-/

namespace H266.AnnexB

/-- Whether a byte string begins with a start code of three or four bytes. -/
def hasStartCode : Bytes → Bool
  | 0 :: 0 :: 1 :: _ | 0 :: 0 :: 0 :: 1 :: _ => true
  | _ => false

/-- Splits a byte string at its first start code, if there is one: the bytes before it in
reverse order, with the ones in `before`, and the bytes after it. -/
def splitAfter? (before : Bytes) : Bytes → Option (Bytes × Bytes)
  | 0 :: 0 :: 1 :: rest => some (before, rest)
  | byte :: rest => splitAfter? (byte :: before) rest
  | [] => none

/-- What is left after a start code is shorter than the string it was found in. -/
theorem length_lt_of_splitAfter? {before data initial rest : Bytes}
    (h : splitAfter? before data = some (initial, rest)) : rest.length < data.length := by
  fun_induction splitAfter? before data with
  | case1 before tail => simp at h; simp [h.2]; omega
  | case2 before byte tail _ ih =>
    have := ih h
    simp only [List.length_cons]
    omega
  | case3 => simp at h

/-- The NAL unit that ends where a start code begins: the bytes before it, given in reverse
order, without a last zero byte. -/
def closedNalUnit : Bytes → Bytes
  | 0 :: reversed => reversed.reverse
  | reversed => reversed.reverse

/-- The NAL units of a byte string that begins right after a start code. -/
def nalUnitsFrom (data : Bytes) : List Bytes :=
  match h : splitAfter? [] data with
  | none => if data.isEmpty then [] else [data]
  | some (reversed, rest) =>
    have := length_lt_of_splitAfter? h
    let nalUnit := closedNalUnit reversed
    if nalUnit.isEmpty then nalUnitsFrom rest else nalUnit :: nalUnitsFrom rest
termination_by data.length

/-- The NAL units of a byte stream, in order, without start codes. -/
def nalUnits (data : Bytes) : List Bytes :=
  match splitAfter? [] data with
  | none => []
  | some (_, rest) => nalUnitsFrom rest

end H266.AnnexB
