import H266.Proofs.Words.Bytes
import H266.Proofs.Words.ExpGolomb
import H266.TimingHrd

/-!
# Timing and Hypothetical Reference Decoder Parameters in Words

The general timing and HRD parameters as they are read into words, and the parameters of output
layer sets as they are skipped. The number of delivery schedules is read into 64 bits and kept in
eight, which it fits since more than 32 schedules are refused.

## Main results

* `TimingHrd.simulates_readWords`: the general parameters.
* `TimingHrd.skips_skipOutputLayerSetWords`: the parameters of an output layer set.
-/

namespace H266

open WordM

namespace TimingHrd

/-! ### General parameters -/

/-- Reads what the general parameters say about schedules. -/
def readScheduleWords : WordM (Bool × UInt8) := do
  skipFlag
  let decodingUnits ← readBit
  WordM.skipIf decodingUnits (skipNumber 8)
  skipNumber 4
  skipNumber 4
  WordM.skipIf decodingUnits (skipNumber 4)
  let countMinus1 ← readExpGolomb
  if maxScheduleCountMinus1 < countMinus1.toNat then
    refuse (.unsupportedCpbCount countMinus1.toNat)
  let kept ← Word.convert countMinus1
  return (decodingUnits, kept)

/-- Reads the general parameters. -/
def readWords : WordM TimingHrd := do
  let unitsInTick ← readUInt32
  let timeScale ← readUInt32
  let nal ← readBit
  let vcl ← readBit
  let (decodingUnits, countMinus1) ← WordM.readIf (nal || vcl) readScheduleWords (false, 0)
  return {
    unitsInTick, timeScale, nal, vcl, decodingUnits
    scheduleCountMinus1 := countMinus1.toNat }

/-- What is said about schedules takes 149 bits at the most, and leaves a number of them that is
small enough for its word. -/
theorem simulates_readScheduleWords :
    Simulates 149 (fun word value => word.1 = value.1 ∧ word.2.toNat = value.2 ∧ value.2 ≤ 31)
      readScheduleWords readSchedules := by
  refine skips_skipFlag.seq ?_
  refine simulates_readBit.bindSame fun decodingUnits => ?_
  refine (Skips.skipIf fun _ => skips_number 8 (by decide)).seq ?_
  refine (skips_number 4 (by decide)).seq ?_
  refine (skips_number 4 (by decide)).seq ?_
  refine (Skips.skipIf fun _ => skips_number 4 (by decide)).seq ?_
  refine simulates_readExpGolomb.bind fun countMinus1 _ hcount => ?_
  obtain ⟨rfl, -⟩ := hcount
  by_cases hmany : maxScheduleCountMinus1 < countMinus1.toNat
  · rw [if_pos hmany, if_pos hmany]
    exact simulates_refuse fun _ => rfl
  · rw [if_neg hmany, if_neg hmany]
    refine .after (Word.computes_convert (Nat.lt_of_le_of_lt (Nat.le_of_not_lt hmany) (by decide)))
      fun kept hkept => simulates_pure ⟨rfl, hkept, Nat.le_of_not_lt hmany⟩

/-- The general parameters. -/
theorem simulates_readWords :
    Simulates 215 (fun word value => word = value ∧ value.scheduleCountMinus1 ≤ 31) readWords
      read := by
  refine simulates_readUInt32.bindSame fun unitsInTick => ?_
  refine simulates_readUInt32.bindSame fun timeScale => ?_
  refine simulates_readBit.bindSame fun nal => ?_
  refine simulates_readBit.bindSame fun vcl => ?_
  refine (Simulates.readIf (fun _ => simulates_readScheduleWords)
    fun _ => ⟨rfl, rfl, Nat.zero_le _⟩).bind fun word value hvalue => ?_
  obtain ⟨decodingUnits, countMinus1⟩ := word
  obtain ⟨_, _⟩ := value
  obtain ⟨rfl, rfl, hle⟩ := hvalue
  exact simulates_pure ⟨rfl, hle⟩

/-! ### Parameters of output layer sets -/

/-- Skips one schedule. -/
def skipScheduleWords (general : TimingHrd) : WordM Unit := do
  WordM.skipExpGolomb
  WordM.skipExpGolomb
  WordM.skipIf general.decodingUnits do
    WordM.skipExpGolomb
    WordM.skipExpGolomb
  WordM.skipFlag

/-- Skips all schedules of a sublayer. -/
def skipSchedulesWords (general : TimingHrd) : WordM Unit :=
  times (general.scheduleCountMinus1 + 1) general.skipScheduleWords

/-- Skips the parameters of a sublayer. -/
def skipSublayerWords (general : TimingHrd) : WordM Unit := do
  let fixedInGeneral ← readBit
  let fixedWithinSequence ← WordM.readIf (!fixedInGeneral) readBit true
  if fixedWithinSequence then
    WordM.skipExpGolomb
  else
    WordM.skipIf (general.present && general.scheduleCountMinus1 == 0) WordM.skipFlag
  WordM.skipIf general.nal general.skipSchedulesWords
  WordM.skipIf general.vcl general.skipSchedulesWords

/-- Skips the parameters of an output layer set for the sublayers from `first` to `last`. -/
def skipOutputLayerSetWords (general : TimingHrd) (first last : UInt8) : WordM Unit :=
  times (countFrom first last) general.skipSublayerWords

variable {general : TimingHrd}

/-- A schedule is four exp-Golomb codes of 127 bits at the most, and a flag. -/
theorem skips_skipScheduleWords : Skips 509 general.skipScheduleWords general.skipSchedule := by
  refine skips_skipExpGolomb.seq ?_
  refine skips_skipExpGolomb.seq ?_
  have htwo : Skips 254 (do WordM.skipExpGolomb; WordM.skipExpGolomb)
      (do BitReader.skipExpGolomb; BitReader.skipExpGolomb) :=
    skips_skipExpGolomb.seq skips_skipExpGolomb
  exact (Skips.skipIf fun _ => htwo).seq skips_skipFlag

/-- There are at most 32 schedules. -/
theorem skips_skipSchedulesWords (hfew : general.scheduleCountMinus1 ≤ 31) :
    Skips 16288 general.skipSchedulesWords general.skipSchedules :=
  (skips_skipScheduleWords.times _).widen (by omega)

/-- The parameters of a sublayer, with schedules of two kinds. -/
theorem skips_skipSublayerWords (hfew : general.scheduleCountMinus1 ≤ 31) :
    Skips 32705 general.skipSublayerWords general.skipSublayer := by
  refine simulates_readBit.bindSame fun fixedInGeneral => ?_
  refine (Simulates.readIf (fun _ => simulates_readBit) fun _ => rfl).bindSame
    fun fixedWithinSequence => ?_
  have hschedules : Skips 32576
      (do
        WordM.skipIf general.nal general.skipSchedulesWords
        WordM.skipIf general.vcl general.skipSchedulesWords)
      (do
        BitReader.skipIf general.nal general.skipSchedules
        BitReader.skipIf general.vcl general.skipSchedules) :=
    (Skips.skipIf fun _ => skips_skipSchedulesWords hfew).seq
      (Skips.skipIf fun _ => skips_skipSchedulesWords hfew)
  cases fixedWithinSequence with
  | true => exact skips_skipExpGolomb.seq hschedules
  | false =>
    exact ((Skips.skipIf fun _ => skips_skipFlag).widen (show 1 ≤ 127 by decide)).seq hschedules

/-- The parameters of an output layer set, for eight sublayers at the most. -/
theorem skips_skipOutputLayerSetWords (hfew : general.scheduleCountMinus1 ≤ 31) {first last : UInt8}
    (hlast : last.toNat ≤ 7) :
    Skips 261640 (general.skipOutputLayerSetWords first last)
      (general.skipOutputLayerSet first.toNat last.toNat) := by
  refine ((skips_skipSublayerWords hfew).times _).widen ?_
  have hcount : countFrom first last ≤ 8 := Nat.le_trans (Nat.sub_le _ _) (Nat.succ_le_succ hlast)
  omega

end TimingHrd

end H266
