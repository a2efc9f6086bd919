import H266.BitReader
import H266.Layout
import H266.ProfileTierLevel

/-!
# Profile, Tier and Level Records

The form that profile, tier and level take in a decoder configuration record. It differs from
the structure in parameter sets: the constraints information is a counted string of bytes,
the first two bits of which are shared with two flags, and there is a fixed table for the
levels of the sublayers, of which only as many entries are written as the stream has
sublayers below the highest.
-/

namespace H266

open BitReader

/-- The number of entries in the table of sublayers: the highest has the general level. -/
abbrev sublayerEntries : Nat := maxSublayers - 1

/-- How many entries of the table count for a stream with the given number of sublayers. -/
def usedEntries (sublayers : Nat) : Nat :=
  min (sublayers - 1) sublayerEntries

/-- A profile, tier and level record. -/
structure ProfileRecord where
  /-- `general_profile_idc`, written in seven bits. -/
  profile : Nat
  /-- `general_tier_flag`. -/
  tier : Bool
  /-- `general_level_idc`. -/
  level : UInt8
  /-- `ptl_frame_only_constraint_flag`. -/
  frameOnly : Bool
  /-- `ptl_multilayer_enabled_flag`. -/
  multilayer : Bool
  /-- The constraints information; its last two bits are not written, since the two flags
  above take their place. -/
  constraintInfo : Bytes
  /-- For each sublayer but the highest, the lowest first, whether its level is stated. -/
  sublayerLevelPresent : Vector Bool sublayerEntries
  /-- For each sublayer but the highest, the lowest first, its level. -/
  sublayerLevels : Vector UInt8 sublayerEntries
  /-- The `general_sub_profile_idc` values. -/
  subProfiles : List UInt32
  deriving DecidableEq, Repr

namespace ProfileRecord

/-- The record of a stream about which nothing is known. -/
def empty : ProfileRecord where
  profile := 0
  tier := false
  level := 0
  frameOnly := false
  multilayer := false
  constraintInfo := [0]
  sublayerLevelPresent := Vector.replicate _ false
  sublayerLevels := Vector.replicate _ 0
  subProfiles := []

/-! ### Reading -/

/-- Reads the levels that are present, given which they are, in the order of that list. -/
def readLevels (present : List Bool) : ReadM (List UInt8) :=
  present.mapM fun stated => readIf stated readUInt8 0

/-- Reads which levels are present, the highest sublayer first, up to a byte boundary. This
is left out altogether if there are no sublayers but the highest. -/
def readPresent (sublayers : Nat) : ReadM (List Bool) :=
  readIf (decide (1 < sublayers)) (do
    let present ← readTimes (usedEntries sublayers) readBit
    align
    return present) []

/-- Reads the record of a stream with the given number of sublayers. -/
def read (sublayers : Nat) : ReadM ProfileRecord := do
  skipNumber 2
  let constraintBytes ← readBits 6
  if constraintBytes = 0 then
    throw (.invalidData .noConstraintInfo)
  let profile ← readBits 7
  let tier ← readBit
  let level ← readUInt8
  let frameOnly ← readBit
  let multilayer ← readBit
  let constraintBits ← readTimes (8 * constraintBytes - 2) readBit
  let present ← readPresent sublayers
  let levels ← readLevels present
  let subProfiles ← ProfileTierLevel.readSubProfiles
  return {
    profile, tier, level, frameOnly, multilayer, subProfiles
    constraintInfo := Bits.toBytes constraintBytes constraintBits
    sublayerLevelPresent := .ofFn fun i => present.reverse.getD i false
    sublayerLevels := .ofFn fun i => levels.reverse.getD i 0 }

/-! ### Writing -/

/-- The entries of the table that count, the highest sublayer first: whether the level is
present, and the level. -/
def usedLevels (record : ProfileRecord) (sublayers : Nat) : List (Bool × UInt8) :=
  ((record.sublayerLevelPresent.toList.zip record.sublayerLevels.toList).take
    (usedEntries sublayers)).reverse

/-- How many bytes the record of a stream with the given number of sublayers takes, if it
starts at a byte boundary. -/
def size (record : ProfileRecord) (sublayers : Nat) : Nat :=
  3 + record.constraintInfo.length
    + (if 1 < sublayers then 1 else 0)
    + (record.sublayerLevelPresent.toList.take (usedEntries sublayers)).count true
    + 1 + 4 * record.subProfiles.length

/-- Checks that the record can be written: that the number of constraint bytes, the profile
and the number of sub-profiles fit their fields. -/
def validate (record : ProfileRecord) : Except Error Unit := do
  let constraintBytes := record.constraintInfo.length
  if constraintBytes = 0 ∨ 63 < constraintBytes then
    throw (.invalidData (.fieldOutOfRange "num_bytes_constraint_info" 1 63 constraintBytes))
  if 127 < record.profile then
    throw (.invalidData (.exceedsWidth "general_profile_idc" 7 record.profile))
  if 255 < record.subProfiles.length then
    throw (.invalidData (.tooManySubProfiles record.subProfiles.length))

/-- The presence bits for the levels of sublayers, and the levels that are present. -/
def levelLayout (record : ProfileRecord) (sublayers : Nat) : Layout :=
  let used := record.usedLevels sublayers
  (if 1 < sublayers then used.map (fun entry => .flag entry.1) ++ [.align] else [])
    ++ (used.filter (·.1)).map (fun entry => .bytes [entry.2])

/-- The written form of the record of a stream with the given number of sublayers. -/
def layout (record : ProfileRecord) (sublayers : Nat) : Layout :=
  [.number 0 2,
   .number record.constraintInfo.length 6,
   .number record.profile 7,
   .flag record.tier,
   .bytes [record.level],
   .flag record.frameOnly,
   .flag record.multilayer,
   .leading record.constraintInfo (8 * record.constraintInfo.length - 2)]
    ++ record.levelLayout sublayers
    ++ [.bytes (Bytes.ofNat 1 record.subProfiles.length)]
    ++ record.subProfiles.map (fun value => .bytes (Bytes.ofNat 4 value.toNat))

/-- Writes the record of a stream with the given number of sublayers, if it is valid. -/
def write (record : ProfileRecord) (sublayers : Nat) : WriteM Unit := do
  record.validate
  BitWriter.writeLayout (record.layout sublayers)

end ProfileRecord

end H266
