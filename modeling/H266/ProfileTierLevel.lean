import H266.GeneralConstraints

/-!
# Profile, Tier and Level

The `profile_tier_level()` structure, which says what a decoder must be capable of. Levels
may be stated for each temporal sublayer; a sublayer without one has the level of the next
higher sublayer, and the highest sublayer has the general level.
-/

namespace H266

open BitReader

/-- The largest number of temporal sublayers. -/
abbrev maxSublayers : Nat := 7

/-- A profile, tier and level structure. -/
structure ProfileTierLevel where
  /-- `general_profile_idc`, zero if the structure does not state it. -/
  profile : Nat
  /-- `general_tier_flag`, clear if the structure does not state it. -/
  tier : Bool
  /-- `general_level_idc`. -/
  level : UInt8
  /-- `ptl_frame_only_constraint_flag`. -/
  frameOnly : Bool
  /-- `ptl_multilayer_enabled_flag`. -/
  multilayer : Bool
  constraints : Option GeneralConstraints
  /-- For each sublayer but the highest, the lowest first, whether its level is stated. -/
  sublayerLevelPresent : List Bool
  /-- For each sublayer but the highest, the lowest first, its level. -/
  sublayerLevels : List UInt8
  /-- The `general_sub_profile_idc` values. -/
  subProfiles : List UInt32
  deriving DecidableEq, Repr

namespace ProfileTierLevel

/-- Reads the levels of sublayers from the highest down, given which of them are present and
the level of the sublayer above. -/
def readLevels (above : UInt8) : (present : List Bool) → ReadM (List UInt8)
  | [] => pure []
  | stated :: present => do
    let level ← readIf stated readUInt8 above
    let below ← readLevels level present
    return level :: below

/-- Reads a list of sub-profiles: a count of eight bits and as many numbers of 32 bits. -/
def readSubProfiles : ReadM (List UInt32) := do
  let count ← readUInt8
  readTimes count.toNat readUInt32

/-- Reads a profile, tier and level structure, with profile and tier if `profilePresent`, and
with levels for the given number of sublayers below the highest. -/
def read (profilePresent : Bool) (lowerSublayers : Nat) : ReadM ProfileTierLevel := do
  let count ←
    readInRange "max_num_sub_layers_minus1" 0 (maxSublayers - 1) (pure lowerSublayers)
  let profile ← readIf profilePresent (readBits 7) 0
  let tier ← readIf profilePresent readBit false
  let level ← readUInt8
  let frameOnly ← readBit
  let multilayer ← readBit
  let constraints ← readIf profilePresent GeneralConstraints.read none
  let present ← readTimes count readBit
  align
  let levels ← readLevels level present
  let subProfiles ← readIf profilePresent readSubProfiles []
  return {
    profile, tier, level, frameOnly, multilayer, constraints, subProfiles
    sublayerLevelPresent := present.reverse
    sublayerLevels := levels.reverse }

/-- The structure with what it does not state itself taken from the one before it: profile,
tier, constraints and sub-profiles. -/
def inherit (own previous : ProfileTierLevel) : ProfileTierLevel :=
  { own with
    profile := previous.profile
    tier := previous.tier
    constraints := previous.constraints
    subProfiles := previous.subProfiles }

end ProfileTierLevel

end H266
