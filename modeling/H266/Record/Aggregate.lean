import H266.Record.ProfileRecord

/-!
# Aggregating Profile, Tier and Level

A record describes all parameter sets of a stream at once, so their profile, tier and level
structures are merged one after the other into a single profile record:

* profile and tier are the greatest seen;
* the level follows a structure that is the first of the higher tier, and otherwise only
  grows;
* the frame-only and multilayer flags are set if all structures set them;
* the constraints information is that of the last structure;
* a sublayer has a level if one structure states one, and then the greatest of those; the
  level of any other sublayer is that of the next higher one;
* the sub-profiles are those of the last structure, followed by what earlier structures with
  longer lists had further on.
-/

namespace H266

/-- The structures merged so far. -/
structure ProfileAggregate where
  record : ProfileRecord
  /-- How many structures were merged. -/
  merged : Nat
  deriving DecidableEq, Repr

namespace ProfileAggregate

/-- The aggregate of no structures. -/
def empty : ProfileAggregate :=
  ⟨.empty, 0⟩

/-- The level after a merge: that of the structure if it is the first of the higher tier, and
otherwise the greater of the two. -/
def mergedLevel (record : ProfileRecord) (ptl : ProfileTierLevel) : UInt8 :=
  if !record.tier && ptl.tier then ptl.level else max record.level ptl.level

/-- A flag that is set if all structures set it. -/
def mergedFlag (merged : Nat) (flag new : Bool) : Bool :=
  if merged = 0 then new else flag && new

/-- The bytes of the constraints information of a structure, a single zero byte if it has
none. -/
def constraintInfo (ptl : ProfileTierLevel) : Except Error Bytes :=
  match ptl.constraints with
  | some constraints => constraints.encode
  | none => .ok [0]

/-- For each used entry of the table, the lowest sublayer first, whether its level is present
after a merge, and the level that it then has. -/
def usedEntryLevels (record : ProfileRecord) (ptl : ProfileTierLevel) (used : Nat) :
    List (Bool × UInt8) :=
  (record.sublayerLevelPresent.toList.zip record.sublayerLevels.toList).take used
    |>.mapIdx fun i (present, level) =>
      (present || ptl.sublayerLevelPresent.getD i false,
        max level (ptl.sublayerLevels.getD i 0))

/-- The levels of sublayers from the highest down, where one that is not present is that of
the sublayer above. -/
def inheritLevels (above : UInt8) : List (Bool × UInt8) → List UInt8
  | [] => []
  | (present, own) :: below =>
    let level := if present then own else above
    level :: inheritLevels level below

/-- The first entries of a table replaced by the given ones. -/
def overwrite {α : Type} {n : Nat} (table : Vector α n) (entries : List α) : Vector α n :=
  .ofFn fun i => (entries[i.val]?).getD table[i]

/-- The list of sub-profiles after a merge. -/
def mergedSubProfiles (old new : List UInt32) : List UInt32 :=
  new ++ old.drop new.length

/-- The aggregate with a structure merged in, given how many temporal sublayers the stream has,
those of the structure included, and the constraints information of the structure. -/
def combine (aggregate : ProfileAggregate) (ptl : ProfileTierLevel) (sublayers : Nat)
    (constraintInfo : Bytes) : ProfileAggregate :=
  let record := aggregate.record
  let level := mergedLevel record ptl
  let entries := usedEntryLevels record ptl (usedEntries sublayers)
  let levels := (inheritLevels level entries.reverse).reverse
  { merged := aggregate.merged + 1
    record := {
      level, constraintInfo
      profile := max record.profile ptl.profile
      tier := record.tier || ptl.tier
      frameOnly := mergedFlag aggregate.merged record.frameOnly ptl.frameOnly
      multilayer := mergedFlag aggregate.merged record.multilayer ptl.multilayer
      sublayerLevelPresent := overwrite record.sublayerLevelPresent (entries.map (·.1))
      sublayerLevels := overwrite record.sublayerLevels levels
      subProfiles := mergedSubProfiles record.subProfiles ptl.subProfiles } }

/-- Merges a structure, if its constraints information can be encoded. -/
def merge (aggregate : ProfileAggregate) (ptl : ProfileTierLevel) (sublayers : Nat) :
    Except Error ProfileAggregate := do
  let constraintInfo ← constraintInfo ptl
  return aggregate.combine ptl sublayers constraintInfo

end ProfileAggregate

end H266
