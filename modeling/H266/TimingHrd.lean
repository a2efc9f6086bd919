import H266.ExpGolomb

/-!
# Timing and Hypothetical Reference Decoder Parameters

A video parameter set may carry timing and buffer parameters. The general ones are read;
those of the output layer sets are only skipped, but how long they are depends on the
general ones.
-/

namespace H266

open BitReader

/-- The general timing and HRD parameters: those that say how to read the parameters of the
output layer sets, and the clock. -/
structure TimingHrd where
  /-- `num_units_in_tick`: how many units of the clock make one tick. -/
  unitsInTick : UInt32
  /-- `time_scale`: how many units of the clock pass in a second. -/
  timeScale : UInt32
  /-- Whether there are parameters for whole NAL unit streams. -/
  nal : Bool
  /-- Whether there are parameters for streams of VCL NAL units. -/
  vcl : Bool
  /-- Whether there are parameters for decoding units. -/
  decodingUnits : Bool
  /-- `hrd_cpb_cnt_minus1`: one less than the number of delivery schedules. -/
  scheduleCountMinus1 : Nat
  deriving DecidableEq, Repr

namespace TimingHrd

/-- The largest value of `hrd_cpb_cnt_minus1`. -/
def maxScheduleCountMinus1 : Nat := 31

/-- Whether there are any HRD parameters. -/
def present (general : TimingHrd) : Bool :=
  general.nal || general.vcl

/-- Reads what the general parameters say about schedules: whether there are parameters for
decoding units, and one less than the number of schedules. -/
def readSchedules : ReadM (Bool × Nat) := do
  skipFlag
  let decodingUnits ← readBit
  skipIf decodingUnits (skipNumber 8)
  skipNumber 4
  skipNumber 4
  skipIf decodingUnits (skipNumber 4)
  let countMinus1 ← readExpGolomb
  if maxScheduleCountMinus1 < countMinus1 then
    throw (.unsupportedCpbCount countMinus1)
  return (decodingUnits, countMinus1)

/-- Reads the general parameters. -/
def read : ReadM TimingHrd := do
  let unitsInTick ← readUInt32
  let timeScale ← readUInt32
  let nal ← readBit
  let vcl ← readBit
  let (decodingUnits, scheduleCountMinus1) ← readIf (nal || vcl) readSchedules (false, 0)
  return { unitsInTick, timeScale, nal, vcl, decodingUnits, scheduleCountMinus1 }

/-! ### Parameters of output layer sets -/

/-- Skips one schedule. -/
def skipSchedule (general : TimingHrd) : ReadM Unit := do
  skipExpGolomb
  skipExpGolomb
  skipIf general.decodingUnits do
    skipExpGolomb
    skipExpGolomb
  skipFlag

/-- Skips all schedules of a sublayer. -/
def skipSchedules (general : TimingHrd) : ReadM Unit :=
  skipTimes (general.scheduleCountMinus1 + 1) general.skipSchedule

/-- Skips the parameters of a sublayer. If its picture rate is fixed a duration is stated,
and otherwise a flag for low delay, if there is a single schedule. -/
def skipSublayer (general : TimingHrd) : ReadM Unit := do
  let fixedInGeneral ← readBit
  let fixedWithinSequence ← readIf (!fixedInGeneral) readBit true
  if fixedWithinSequence then
    skipExpGolomb
  else
    skipIf (general.present && general.scheduleCountMinus1 == 0) skipFlag
  skipIf general.nal general.skipSchedules
  skipIf general.vcl general.skipSchedules

/-- Skips the parameters of an output layer set for the sublayers from `first` to `last`,
none if `last` is below `first`. -/
def skipOutputLayerSet (general : TimingHrd) (first last : Nat) : ReadM Unit :=
  skipTimes (last + 1 - first) general.skipSublayer

end TimingHrd

end H266
