import H266.ExpGolomb
import H266.Proofs.BitReader

/-!
# Reading Exp-Golomb Codes

The code of `value` is the number `value + 1` behind as many zero bits as it has bits after its
first, which is set. A reader that counts the zero bits therefore knows where the code ends.

## Main results

* `BitReader.reads_readExpGolomb`: reading the code of a value gives the value.
-/

namespace H266

namespace ExpGolomb

/-- The first bit of the fixed-width form of a number is set if no shorter form fits. -/
theorem ofNat_log2 (n : Nat) (h : n ≠ 0) :
    Bits.ofNat (n.log2 + 1) n = true :: Bits.ofNat n.log2 n := by
  rw [Bits.ofNat_succ, Nat.testBit_log2 h]

/-- A code is a run of zero bits, a one bit, and the other bits of the number after it. -/
theorem code_eq (value : Nat) :
    code value = List.replicate (value + 1).log2 false ++
      true :: Bits.ofNat (value + 1).log2 (value + 1) := by
  rw [code, ofNat_log2 _ (Nat.succ_ne_zero value)]

/-- What the bits after the one bit of a code denote. -/
theorem toNat_suffix (value : Nat) :
    2 ^ (value + 1).log2 - 1 + Bits.toNat (Bits.ofNat (value + 1).log2 (value + 1)) = value := by
  have hle : 2 ^ (value + 1).log2 ≤ value + 1 := Nat.log2_self_le (Nat.succ_ne_zero value)
  have hlt : value + 1 < 2 ^ ((value + 1).log2 + 1) := Nat.lt_log2_self
  have hpos : 0 < 2 ^ (value + 1).log2 := Nat.two_pow_pos _
  rw [Bits.toNat_ofNat_mod, Nat.mod_eq_sub_mod hle, Nat.mod_eq_of_lt]
  · omega
  · rw [Nat.pow_succ] at hlt
    omega

end ExpGolomb

namespace BitReader

/-- Zero bits are counted up to the first one bit. -/
theorem reads_readZeros {zeros allowed : Nat} (h : zeros ≤ allowed) :
    Reads (readZeros allowed) (fun _ => List.replicate zeros false ++ [true]) zeros := by
  induction allowed generalizing zeros with
  | zero =>
    obtain rfl : zeros = 0 := by omega
    exact (reads_readBit true).bind_nil (reads_pure 0)
  | succ allowed ih =>
    cases zeros with
    | zero => exact (reads_readBit true).bind_nil (reads_pure 0)
    | succ zeros =>
      have hmore := ih (Nat.le_of_succ_le_succ h)
      exact (reads_readBit false).bind (hmore.bind_nil (reads_pure (zeros + 1))) fun _ => rfl

/-- Reading the code of a value gives the value. -/
theorem reads_readExpGolomb {value : Nat} (h : value + 1 < 2 ^ 64) :
    Reads readExpGolomb (fun _ => ExpGolomb.code value) value := by
  have hlog : (value + 1).log2 < 64 := (Nat.log2_lt (Nat.succ_ne_zero value)).2 h
  have hzeros := reads_readZeros (by omega : (value + 1).log2 ≤ 63)
  have hsuffix : Reads
      (readBits (Bits.ofNat (value + 1).log2 (value + 1)).length)
      (fun _ => Bits.ofNat (value + 1).log2 (value + 1)) _ :=
    reads_readBits (by rw [Bits.length_ofNat]; omega)
  rw [Bits.length_ofNat] at hsuffix
  have hrest : Reads (readBits (value + 1).log2 >>= fun suffix =>
      pure (1 <<< (value + 1).log2 - 1 + suffix))
      (fun _ => Bits.ofNat (value + 1).log2 (value + 1)) value := by
    refine hsuffix.bind_nil ?_
    rw [Nat.one_shiftLeft, ExpGolomb.toNat_suffix]
    exact reads_pure value
  refine hzeros.bind hrest fun _ => ?_
  rw [ExpGolomb.code_eq, List.append_assoc, List.singleton_append]

end BitReader

end H266
