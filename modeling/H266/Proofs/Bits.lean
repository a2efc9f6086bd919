import H266.Bits
import Mathlib.Algebra.Ring.Nat

/-!
# Numbers, Bytes and Their Bits

Numbers of a given width and bytes are read back from their bits, and a bit string is determined
by its length and the number it denotes.

## Main results

* `Bits.toNat_ofNat`: a number that fits its width is read back.
* `Bits.ofNat_toNat`: a bit string is the fixed-width form of the number it denotes.
* `Bits.toByte_ofByte`: a byte is read back from its eight bits.
-/

namespace H266

namespace Bits

/-! ### Numbers -/

/-- No bits of a number. -/
@[simp] theorem ofNat_zero (n : Nat) : ofNat 0 n = [] := rfl

/-- The highest bit of a number comes first. -/
theorem ofNat_succ (width n : Nat) :
    ofNat (width + 1) n = n.testBit width :: ofNat width n := rfl

/-- A number takes as many bits as are asked for. -/
@[simp] theorem length_ofNat (width n : Nat) : (ofNat width n).length = width := by
  induction width with
  | zero => rfl
  | succ width ih => simp [ofNat_succ, ih]

/-- Bits already read weigh in above the bits still to come. -/
theorem foldl_eq (bits : Bits) (n : Nat) :
    bits.foldl (fun n bit => 2 * n + bit.toNat) n = n * 2 ^ bits.length + toNat bits := by
  induction bits generalizing n with
  | nil => simp [toNat]
  | cons bit bits ih =>
    rw [toNat, List.foldl_cons, List.foldl_cons, ih, ih, List.length_cons, Nat.pow_succ]
    simp only [Nat.mul_zero, Nat.zero_add, Nat.add_mul]
    have : 2 * n * 2 ^ bits.length = n * (2 ^ bits.length * 2) := by
      rw [Nat.mul_comm 2 n, Nat.mul_assoc, Nat.mul_comm 2]
    omega

@[simp] theorem toNat_nil : toNat [] = 0 := rfl

/-- The first bit weighs in above the others. -/
theorem toNat_cons (bit : Bool) (bits : Bits) :
    toNat (bit :: bits) = bit.toNat * 2 ^ bits.length + toNat bits := by
  rw [toNat, List.foldl_cons, foldl_eq]
  simp

/-- A string of bits weighs in above the one that follows it. -/
theorem toNat_append (a b : Bits) : toNat (a ++ b) = toNat a * 2 ^ b.length + toNat b := by
  rw [toNat, List.foldl_append, foldl_eq]
  rfl

/-- A bit string denotes a number that fits its width. -/
theorem toNat_lt (bits : Bits) : toNat bits < 2 ^ bits.length := by
  induction bits with
  | nil => simp
  | cons bit bits ih =>
    rw [toNat_cons, List.length_cons, Nat.pow_succ]
    cases bit <;> simp <;> omega

/-- Only the lowest `width` bits of a number are written. -/
theorem toNat_ofNat_mod (width n : Nat) : toNat (ofNat width n) = n % 2 ^ width := by
  induction width with
  | zero => simp [Nat.mod_one]
  | succ width ih =>
    rw [ofNat_succ, toNat_cons, length_ofNat, ih, Nat.toNat_testBit, Nat.mod_pow_succ,
      Nat.mul_comm, Nat.add_comm]

/-- A number that fits its width is read back. -/
theorem toNat_ofNat {width n : Nat} (h : n < 2 ^ width) : toNat (ofNat width n) = n := by
  rw [toNat_ofNat_mod, Nat.mod_eq_of_lt h]

/-- A bit string is determined by its length and the number it denotes. -/
theorem eq_of_toNat_eq {a b : Bits} (hl : a.length = b.length) (hn : toNat a = toNat b) :
    a = b := by
  induction a generalizing b with
  | nil => exact (List.length_eq_zero_iff.1 hl.symm).symm
  | cons x a ih =>
    cases b with
    | nil => simp at hl
    | cons y b =>
      have hl' : a.length = b.length := by simpa using hl
      rw [toNat_cons, toNat_cons, hl'] at hn
      have ha := toNat_lt a
      have hb := toNat_lt b
      rw [hl'] at ha
      have hxy : x = y := by
        cases x <;> cases y <;> simp at hn ⊢ <;> omega
      subst hxy
      rw [ih hl' (by omega)]

/-- A bit string is the fixed-width form of the number it denotes. -/
@[simp] theorem ofNat_toNat (bits : Bits) : ofNat bits.length (toNat bits) = bits :=
  eq_of_toNat_eq (length_ofNat _ _) (toNat_ofNat (toNat_lt bits))

/-! ### Bytes -/

/-- A byte has eight bits. -/
@[simp] theorem length_ofByte (byte : UInt8) : (ofByte byte).length = 8 :=
  length_ofNat _ _

/-- A byte is read back from its eight bits. -/
@[simp] theorem toByte_ofByte (byte : UInt8) : toByte (ofByte byte) = byte := by
  rw [toByte, ofByte, toNat_ofNat byte.toNat_lt, UInt8.ofNat_toNat]

/-- Eight bits are the bits of the byte they make. -/
theorem ofByte_toByte {bits : Bits} (h : bits.length = 8) : ofByte (toByte bits) = bits := by
  have hlt := toNat_lt bits
  rw [h] at hlt
  rw [ofByte, toByte, UInt8.toNat_ofNat_of_lt' hlt]
  have := ofNat_toNat bits
  rwa [h] at this

@[simp] theorem ofBytes_nil : ofBytes [] = [] := rfl

/-- The bits of the first byte come first. -/
theorem ofBytes_cons (byte : UInt8) (bytes : Bytes) :
    ofBytes (byte :: bytes) = ofByte byte ++ ofBytes bytes := rfl

/-- The bits of byte strings that follow each other follow each other. -/
theorem ofBytes_append (a b : Bytes) : ofBytes (a ++ b) = ofBytes a ++ ofBytes b :=
  List.flatMap_append

/-- Every byte has eight bits. -/
@[simp] theorem length_ofBytes (bytes : Bytes) : (ofBytes bytes).length = 8 * bytes.length := by
  induction bytes with
  | nil => rfl
  | cons byte bytes ih =>
    rw [ofBytes_cons, List.length_append, length_ofByte, ih, List.length_cons]
    omega

end Bits

namespace Bytes

/-- A number takes as many bytes as are asked for. -/
@[simp] theorem length_ofNat (count n : Nat) : (ofNat count n).length = count := by
  induction count with
  | zero => rfl
  | succ count ih => simp [ofNat, ih]

end Bytes

end H266
