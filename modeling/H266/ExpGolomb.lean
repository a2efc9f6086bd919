import H266.BitReader
import H266.BitWriter

/-!
# Exp-Golomb Codes

An unsigned code is a run of zero bits, a one bit, and as many bits again as there were
zeros; with `n` zeros and a suffix of value `s` it stands for `2 ^ n - 1 + s`. Codes with
more than 63 zeros, whose values would not fit 64 bits, are refused, and the largest number
of 64 bits has no code. A signed code is the unsigned code of the place that the value has
in `0, 1, -1, 2, -2, …`.

## Main results

* `ExpGolomb.signedValue_signedPlace`, `ExpGolomb.signedPlace_signedValue`: values and places
  determine each other.
-/

namespace H266

/-! ### Signed values -/

namespace ExpGolomb

/-- The value at a place of `0, 1, -1, 2, -2, …`. -/
def signedValue (place : Nat) : Int :=
  if place % 2 = 0 then -(place / 2 : Nat) else (place / 2 : Nat) + 1

/-- The place that a value has in `0, 1, -1, 2, -2, …`. -/
def signedPlace (value : Int) : Nat :=
  if value ≤ 0 then 2 * value.natAbs else 2 * value.natAbs - 1

/-- Every value is found at its place. -/
@[simp] theorem signedValue_signedPlace (value : Int) :
    signedValue (signedPlace value) = value := by
  unfold signedValue signedPlace
  split <;> split <;> omega

/-- Every place is the place of its value. -/
@[simp] theorem signedPlace_signedValue (place : Nat) :
    signedPlace (signedValue place) = place := by
  unfold signedValue signedPlace
  split <;> split <;> omega

end ExpGolomb

/-! ### Reading -/

namespace BitReader

/-- Reads zero bits up to and including the first one bit and returns how many zeros there
were, at most `allowed`. -/
def readZeros : (allowed : Nat) → ReadM Nat
  | 0 => do
    if ← readBit then
      return 0
    else
      throw (.invalidData .codeTooLong)
  | allowed + 1 => do
    if ← readBit then
      return 0
    else
      let more ← readZeros allowed
      return more + 1

/-- Reads an unsigned exp-Golomb code, `ue(v)`. -/
def readExpGolomb : ReadM Nat := do
  let zeros ← readZeros 63
  let suffix ← readBits zeros
  return 1 <<< zeros - 1 + suffix

/-- Reads a signed exp-Golomb code, `se(v)`. -/
def readSignedExpGolomb : ReadM Int :=
  ExpGolomb.signedValue <$> readExpGolomb

/-- Skips an exp-Golomb code. -/
def skipExpGolomb : ReadM Unit := do
  let _ ← readExpGolomb

end BitReader

/-! ### Writing -/

namespace BitWriter

/-- Writes an unsigned exp-Golomb code, `ue(v)`: one less zero bits than `value + 1` has
bits, then `value + 1`. -/
def writeExpGolomb (value : Nat) : WriteM Unit := do
  if UInt64.size ≤ value + 1 then
    throw .codeTooLarge
  let zeros := (value + 1).log2
  writeBits 0 zeros
  writeBits (value + 1) (zeros + 1)

/-- Writes a signed exp-Golomb code, `se(v)`. -/
def writeSignedExpGolomb (value : Int) : WriteM Unit :=
  writeExpGolomb (ExpGolomb.signedPlace value)

end BitWriter

end H266
