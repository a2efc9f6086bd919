import H266.ExpGolomb
import H266.Proofs.Words.Reading

/-!
# Reading Exp-Golomb Codes with Words

A code is read into 64 bits. With no more than 63 zero bits in front the power of two that comes
with them is a word, and so is the sum: the largest value falls short of the largest word by one.
This is also why half of it, and one more, is a signed word.

## Main results

* `simulates_readExpGolomb`: unsigned codes.
* `simulates_readSignedExpGolomb`: signed codes.
* `computes_signedPlace`: the places of signed words.
-/

namespace H266


namespace WordM

/-! ### Steps -/

/-- Counts zero bits up to the first one bit; `zeros` were counted before. -/
def readZeros : (rounds : Nat) → (zeros : UInt32) → WordM UInt32
  | 0, _ => throw .overrun
  | rounds + 1, zeros => do
    if ← readBit then
      return zeros
    else
      let zeros ← Word.add zeros 1
      if 63 < zeros.toNat then
        refuse (.invalidData .codeTooLong)
      readZeros rounds zeros

/-- Reads an unsigned exp-Golomb code. -/
def readExpGolomb : WordM UInt64 := do
  let zeros ← readZeros 64 0
  let width ← Word.convert zeros
  let suffix ← readBits width
  let power ← Word.shiftLeft (1 : UInt64) zeros
  let offset ← Word.sub power 1
  Word.add offset suffix

/-- Skips an exp-Golomb code. -/
def skipExpGolomb : WordM Unit := do
  let _ ← readExpGolomb

/-- The signed word for a number, if there is one. -/
def exactlySigned (stop : Stop) (n : Int) : WordM Int64 :=
  if Int64.minValue.toInt ≤ n ∧ n ≤ Int64.maxValue.toInt then pure (Int64.ofInt n) else throw stop

/-- Reads a signed exp-Golomb code. -/
def readSignedExpGolomb : WordM Int64 := do
  let code ← readExpGolomb
  let half ← exactlySigned .truncation (code / 2).toNat
  if code % 2 = 0 then
    exactlySigned .overflow (-half.toInt)
  else
    exactlySigned .overflow (half.toInt + 1)

/-- The unsigned word for a signed one that is not negative. -/
def magnitude (number : Int64) : WordM UInt64 :=
  if 0 ≤ number.toInt then Word.exactly .truncation number.toInt.toNat else throw .truncation

/-- The place that a signed word has in `0, 1, -1, 2, -2, …`. -/
def signedPlace (number : Int64) : WordM UInt64 := do
  if number.toInt ≤ 0 then
    let negated ← exactlySigned .overflow (-number.toInt)
    let distance ← magnitude negated
    Word.mul distance 2
  else
    let distance ← magnitude number
    let doubled ← Word.mul distance 2
    Word.sub doubled 1

end WordM

open WordM

/-! ### Unsigned codes -/

/-- The zero bits are counted up to 63, with one more for a code that is too long. -/
theorem simulates_readZeros {allowed : Nat} {zeros : UInt32} (h : zeros.toNat + allowed = 63) :
    Simulates (allowed + 1) (fun word value => word.toNat = zeros.toNat + value ∧ value ≤ allowed)
      (readZeros (allowed + 1) zeros) (BitReader.readZeros allowed) := by
  have hsum : Word.toNat zeros + Word.toNat (1 : UInt32) < Word.size UInt32 :=
    Nat.lt_of_le_of_lt (show zeros.toNat + 1 ≤ 64 by omega) (by decide)
  induction allowed generalizing zeros with
  | zero =>
    refine simulates_readBit.bindSame fun bit => ?_
    cases bit with
    | true => exact simulates_pure ⟨rfl, Nat.le_refl 0⟩
    | false =>
      refine .after (Word.computes_add hsum) fun next hnext => ?_
      have hvalue : next.toNat = zeros.toNat + 1 := hnext
      rw [if_pos (by omega)]
      exact simulates_refuse fun _ => rfl
  | succ allowed ih =>
    refine simulates_readBit.bindSame fun bit => ?_
    cases bit with
    | true => exact simulates_pure ⟨rfl, Nat.zero_le _⟩
    | false =>
      refine .after (Word.computes_add hsum) fun next hnext => ?_
      have hvalue : next.toNat = zeros.toNat + 1 := hnext
      rw [if_neg (by omega)]
      refine (ih (by omega) ?_).mapSpec fun word more hword => ?_
      · exact Nat.lt_of_le_of_lt (show next.toNat + 1 ≤ 64 by omega) (by decide)
      · obtain ⟨hword, hmore⟩ := hword
        exact ⟨by omega, by omega⟩

/-- A code is a word, and so is the number after it. -/
abbrev IsCode (word : UInt64) (value : Nat) : Prop :=
  word.toNat = value ∧ value + 1 < UInt64.size

/-- An exp-Golomb code has 127 bits at the most. -/
theorem simulates_readExpGolomb :
    Simulates 127 IsCode readExpGolomb BitReader.readExpGolomb := by
  have hzeros : Simulates 64 (fun (word : UInt32) value => word.toNat = value ∧ value ≤ 63)
      (readZeros 64 0) (BitReader.readZeros 63) :=
    (simulates_readZeros rfl).mono (Nat.le_refl _) fun word value hword =>
      ⟨hword.1.trans (Nat.zero_add value), hword.2⟩
  refine hzeros.bind fun zeros _ hzeros => ?_
  obtain ⟨rfl, hle⟩ := hzeros
  refine .after (Word.computes_convert (Nat.lt_of_le_of_lt hle (by decide))) fun width hwidth => ?_
  have hsuffix := (simulates_readBits (show width.toNat = zeros.toNat from hwidth)
    (Nat.le_trans hle (by decide))).widen hle
  refine hsuffix.bind fun suffix _ hsuffix => ?_
  obtain ⟨rfl, hlt⟩ := hsuffix
  -- The offset and the suffix are both less than the power, which is `2 ^ 63` at most.
  have hpower : 2 ^ zeros.toNat ≤ 2 ^ 63 := Nat.pow_le_pow_right (by decide) hle
  have hsize : 2 ^ zeros.toNat < UInt64.size := Nat.lt_of_le_of_lt hpower (by decide)
  have hone : Word.toNat (1 : UInt64) * 2 ^ Word.toNat zeros = 2 ^ zeros.toNat := Nat.one_mul _
  refine .after (Word.computes_shiftLeft hsize (by rwa [hone])) fun power hpowerNat => ?_
  have hpowerValue : Word.toNat power = 2 ^ zeros.toNat := hpowerNat.trans hone
  have hpositive : 1 ≤ 2 ^ zeros.toNat := Nat.one_le_two_pow
  refine .after (Word.computes_sub (show 1 ≤ Word.toNat power by omega)) fun offset hoffset => ?_
  have hvalue :
      Word.toNat offset + Word.toNat suffix = 2 ^ zeros.toNat - 1 + Word.toNat suffix := by
    rw [hoffset, hpowerValue]
    rfl
  have hfits : 2 ^ zeros.toNat - 1 + Word.toNat suffix + 1 < UInt64.size := by
    have : 2 ^ 63 + 2 ^ 63 = UInt64.size := by decide
    omega
  refine (Word.computes_add (by rw [hvalue]; exact Nat.lt_of_succ_lt hfits)).simulates
    fun word hword => ?_
  rw [hvalue] at hword
  rw [Nat.shiftLeft_eq, Nat.one_mul]
  exact ⟨hword, hfits⟩

/-- An exp-Golomb code is skipped. -/
theorem skips_skipExpGolomb : Skips 127 skipExpGolomb BitReader.skipExpGolomb :=
  simulates_readExpGolomb.drop

/-! ### Signed codes -/

/-- A number in the range of signed words is kept as it is. -/
theorem computes_exactlySigned {stop : Stop} {n : Int} (hlow : -9223372036854775808 ≤ n)
    (hhigh : n < 9223372036854775808) :
    Computes (exactlySigned stop n) fun word => word.toInt = n :=
  ⟨Int64.ofInt n, if_pos ⟨hlow, Int.le_of_lt_add_one hhigh⟩, Int64.toInt_ofInt_of_le hlow hhigh⟩

/-- A signed exp-Golomb code is read. -/
theorem simulates_readSignedExpGolomb :
    Simulates 127 (fun word value => word.toInt = value) readSignedExpGolomb
      BitReader.readSignedExpGolomb := by
  rw [BitReader.readSignedExpGolomb, map_eq_pure_bind]
  refine simulates_readExpGolomb.bind fun code _ hcode => ?_
  obtain ⟨rfl, hlt⟩ := hcode
  have hhalf : (code / 2).toNat = code.toNat / 2 := UInt64.toNat_div code 2
  have heven : code % 2 = 0 ↔ code.toNat % 2 = 0 := by
    rw [← UInt64.toNat_inj, UInt64.toNat_mod]
    rfl
  have hsize : UInt64.size = 2 ^ 63 + 2 ^ 63 := by decide
  refine .after (computes_exactlySigned (by omega) (by omega)) fun half hvalue => ?_
  rw [ExpGolomb.signedValue]
  by_cases hparity : code.toNat % 2 = 0
  · rw [if_pos (heven.2 hparity), if_pos hparity]
    exact (computes_exactlySigned (by omega) (by omega)).simulates fun word hword => by omega
  · rw [if_neg (mt heven.1 hparity), if_neg hparity]
    exact (computes_exactlySigned (by omega) (by omega)).simulates fun word hword => by omega

/-! ### Places -/

/-- A number that is not negative keeps its magnitude. -/
theorem computes_magnitude {number : Int64} (h : 0 ≤ number.toInt) :
    Computes (magnitude number) fun word => word.toNat = number.toInt.natAbs := by
  have hlt := number.toInt_lt
  rw [magnitude, if_pos h]
  have hfits : number.toInt.toNat < Word.size UInt64 :=
    Nat.lt_trans (by omega : number.toInt.toNat < 2 ^ 63) (by decide)
  refine (Word.computes_exactly hfits).mono fun word hword => ?_
  have hvalue : word.toNat = number.toInt.toNat := hword
  omega

/-- Only the least signed word has no place, since twice its distance from zero is no word. -/
theorem computes_signedPlace {number : Int64} (h : number ≠ Int64.minValue) :
    Computes (signedPlace number) fun place =>
      place.toNat = ExpGolomb.signedPlace number.toInt := by
  have hne : number.toInt ≠ -9223372036854775808 := fun hleast => h (Int64.toInt_inj.1 hleast)
  have hlow := number.le_toInt
  have hhigh := number.toInt_lt
  have hsize : UInt64.size = 2 ^ 63 + 2 ^ 63 := by decide
  -- The distance from zero is less than half of the words.
  have hdouble {distance : UInt64} (hdistance : distance.toNat = number.toInt.natAbs) :
      Computes (Word.mul distance 2) fun doubled => doubled.toNat = 2 * number.toInt.natAbs := by
    have hproduct : Word.toNat distance * Word.toNat (2 : UInt64) = 2 * number.toInt.natAbs := by
      rw [← hdistance, Nat.mul_comm]
      rfl
    refine (Word.computes_mul (hproduct ▸ ?_)).mono fun word hword => hword.trans hproduct
    show 2 * number.toInt.natAbs < UInt64.size
    omega
  rw [signedPlace, ExpGolomb.signedPlace]
  by_cases hsign : number.toInt ≤ 0
  · rw [if_pos hsign, if_pos hsign]
    refine (computes_exactlySigned (by omega) (by omega)).bind fun negated hnegated => ?_
    refine (computes_magnitude (by omega)).bind fun distance hdistance => ?_
    exact hdouble (hdistance.trans (by omega))
  · rw [if_neg hsign, if_neg hsign]
    refine (computes_magnitude (by omega)).bind fun distance hdistance => ?_
    refine (hdouble hdistance).bind fun doubled hdoubled => ?_
    have hone : Word.toNat (1 : UInt64) ≤ Word.toNat doubled := by
      show 1 ≤ doubled.toNat
      omega
    refine (Word.computes_sub hone).mono fun place hplace => ?_
    exact hplace.trans (congrArg (· - 1) hdoubled)

end H266
