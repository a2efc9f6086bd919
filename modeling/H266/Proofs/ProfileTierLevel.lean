import H266.Proofs.Decoding
import H266.ProfileTierLevel

/-!
# Syntax of Profile, Tier and Level

The syntax trees of a profile, tier and level structure and of the general constraints
information in it: what a bitstream states, reserved bits included. Each tree has a written
form and a value, which is what is left of it after reading, with the levels of sublayers
inferred where the tree does not state them.

## Main results

* `ConstraintsSyntax.decodes_read`: reading constraints information drops its reserved bits.
* `PtlSyntax.decodes_read`: reading a profile, tier and level structure.
-/

namespace H266

open BitReader

/-! ### General constraints information -/

/-- General constraints information that states constraints. -/
structure ConstraintsSyntax where
  /-- The 71 constraint flags, the last of them in the lowest bit. -/
  flags : Fin (2 ^ 71)
  /-- The reserved bits, which may have any value. -/
  reserved : Bits
  reserved_length_lt : reserved.length < 256

namespace ConstraintsSyntax

/-- What is kept of constraints information. -/
def value (constraints : ConstraintsSyntax) : GeneralConstraints :=
  ⟨constraints.flags, UInt8.ofNat constraints.reserved.length⟩

/-- The written form after the first bit. -/
def layout (constraints : ConstraintsSyntax) : Layout :=
  [.number (constraints.flags / 2 ^ 64) 7, .number (constraints.flags % 2 ^ 64) 64,
    .bytes [UInt8.ofNat constraints.reserved.length]] ++ constraints.reserved.map .flag

/-- The written form of constraints information that may state no constraints. -/
def optionLayout (constraints : Option ConstraintsSyntax) : Layout :=
  .flag constraints.isSome :: (constraints.toList.flatMap layout ++ [.align])

/-- Constraints that are there are read, bits in reserve and all. -/
theorem decodes_readPresent (constraints : ConstraintsSyntax) :
    Decodes GeneralConstraints.read.readPresent constraints.layout constraints.value := by
  have hlength : (UInt8.ofNat constraints.reserved.length).toNat = constraints.reserved.length :=
    UInt8.toNat_ofNat_of_lt' constraints.reserved_length_lt
  have hskip := decodes_skipBits constraints.reserved
  rw [← hlength] at hskip
  have hflags : constraints.flags / 2 ^ 64 * UInt64.size + constraints.flags % 2 ^ 64 =
      (constraints.flags : Nat) :=
    Nat.div_add_mod' _ (2 ^ 64)
  refine (decodes_readBits _ 7).cons ((decodes_readBits _ 64).cons ((decodes_readUInt8 _).cons
    (hskip.bind_nil ?_)))
  rw [hflags]
  exact decodes_pure _

/-- Constraints information is read up to a byte boundary. -/
theorem decodes_read (constraints : Option ConstraintsSyntax) :
    Decodes GeneralConstraints.read (optionLayout constraints) (constraints.map value) := by
  have hpresent : Decodes
      (readIf constraints.isSome (some <$> GeneralConstraints.read.readPresent) none)
      (constraints.toList.flatMap layout) ((constraints.map fun own => some own.value).getD none) :=
    decodes_readIf_option rfl fun own _ => (decodes_readPresent own).map some
  have hvalue : (constraints.map fun own => some own.value).getD none = constraints.map value := by
    cases constraints <;> rfl
  rw [hvalue] at hpresent
  exact (decodes_readBit constraints.isSome).cons
    (hpresent.bind (decodes_align.bind_nil (decodes_pure _)))

/-- The numbers of constraints fit their widths. -/
theorem fits_optionLayout (constraints : Option ConstraintsSyntax) :
    (optionLayout constraints).Fits := by
  cases constraints with
  | none => simp [optionLayout]
  | some constraints =>
    have hflags := constraints.flags.isLt
    simp [optionLayout, layout]
    omega

end ConstraintsSyntax

/-! ### Levels of sublayers -/

/-- The level of each sublayer, the lowest sublayer first: that of the nearest sublayer from
it upwards that states one, and the general level if there is none. -/
def inferredLevels (general : UInt8) : List (Option UInt8) → List UInt8
  | [] => []
  | level :: above => ((level :: above).findSome? id).getD general :: inferredLevels general above

/-- The levels from the highest sublayer down, each inferred from the one above. -/
def descendingLevels (above : UInt8) : List (Option UInt8) → List UInt8
  | [] => []
  | level :: below => level.getD above :: descendingLevels (level.getD above) below

/-- One more sublayer below the others takes the last level that was stated, unless it states
one. -/
theorem descendingLevels_concat (above : UInt8) (levels : List (Option UInt8))
    (last : Option UInt8) :
    descendingLevels above (levels ++ [last]) = descendingLevels above levels ++
      [last.getD (levels.foldl (fun above level => level.getD above) above)] := by
  induction levels generalizing above with
  | nil => rfl
  | cons level levels ih =>
    rw [List.cons_append, descendingLevels, ih, descendingLevels, List.cons_append,
      List.foldl_cons]

/-- The level that is passed down to a sublayer is that of the nearest sublayer above it that
states one. -/
theorem foldr_getD (general : UInt8) (levels : List (Option UInt8)) :
    levels.foldr (fun level above => level.getD above) general =
      (levels.findSome? id).getD general := by
  induction levels with
  | nil => rfl
  | cons level levels ih =>
    cases level with
    | none => exact ih
    | some level => rfl

/-- Going down from the highest sublayer infers the levels of all. -/
theorem descendingLevels_reverse (general : UInt8) (levels : List (Option UInt8)) :
    descendingLevels general levels.reverse = (inferredLevels general levels).reverse := by
  induction levels with
  | nil => rfl
  | cons level levels ih =>
    rw [List.reverse_cons, descendingLevels_concat, ih, inferredLevels, List.reverse_cons,
      List.foldl_reverse, ← foldr_getD, List.foldr_cons]

/-- Levels are read from the highest sublayer down, those that are stated. -/
theorem decodes_readLevels (above : UInt8) (levels : List (Option UInt8)) :
    Decodes (ProfileTierLevel.readLevels above (levels.map (·.isSome)))
      (levels.flatMap fun level => level.toList.flatMap fun level => [.bytes [level]])
      (descendingLevels above levels) := by
  induction levels generalizing above with
  | nil => exact decodes_pure []
  | cons level levels ih =>
    have hlevel : Decodes (readIf level.isSome readUInt8 above)
        (level.toList.flatMap fun level => [.bytes [level]]) ((level.map id).getD above) :=
      decodes_readIf_option rfl fun own _ => decodes_readUInt8 own
    rw [Option.map_id_fun] at hlevel
    exact hlevel.bind ((ih (level.getD above)).bind_nil (decodes_pure _))

/-! ### Profile, tier and level -/

/-- Sub-profiles are read behind their number. -/
theorem decodes_readSubProfiles {subProfiles : List UInt32} (h : subProfiles.length < 256) :
    Decodes ProfileTierLevel.readSubProfiles
      (.bytes (Bytes.ofNat 1 subProfiles.length) ::
        subProfiles.map fun value => .bytes (Bytes.ofNat 4 value.toNat))
      subProfiles := by
  refine (decodes_readUInt8_ofNat h).cons ?_
  have hvalues := decodes_readTimes subProfiles fun value _ => decodes_readUInt32 value
  rw [← List.map_eq_flatMap, List.map_id'] at hvalues
  have hcount : (UInt8.ofNat subProfiles.length).toNat = subProfiles.length :=
    UInt8.toNat_ofNat_of_lt' h
  rwa [hcount]

/-- What a profile, tier and level structure states about profile and tier. -/
structure ProfileTierSyntax where
  /-- `general_profile_idc`. -/
  profile : Fin 128
  /-- `general_tier_flag`. -/
  tier : Bool
  constraints : Option ConstraintsSyntax
  /-- The `general_sub_profile_idc` values. -/
  subProfiles : List UInt32
  subProfiles_length_lt : subProfiles.length < 256

/-- A profile, tier and level structure. -/
structure PtlSyntax where
  /-- Profile and tier, where they are stated. -/
  profileTier : Option ProfileTierSyntax
  /-- `general_level_idc`. -/
  level : UInt8
  /-- `ptl_frame_only_constraint_flag`. -/
  frameOnly : Bool
  /-- `ptl_multilayer_enabled_flag`. -/
  multilayer : Bool
  /-- For each sublayer but the highest, the lowest first, its level where that is stated. -/
  sublayerLevels : List (Option UInt8)
  sublayerLevels_length_lt : sublayerLevels.length < maxSublayers

namespace PtlSyntax

/-- The written form. -/
def layout (ptl : PtlSyntax) : Layout :=
  ptl.profileTier.toList.flatMap (fun own => [.number own.profile 7, .flag own.tier])
    ++ [.bytes [ptl.level], .flag ptl.frameOnly, .flag ptl.multilayer]
    ++ ptl.profileTier.toList.flatMap (fun own => ConstraintsSyntax.optionLayout own.constraints)
    ++ ptl.sublayerLevels.reverse.map (fun level => .flag level.isSome)
    ++ [.align]
    ++ ptl.sublayerLevels.reverse.flatMap
      (fun level => level.toList.flatMap fun level => [.bytes [level]])
    ++ ptl.profileTier.toList.flatMap fun own =>
      .bytes (Bytes.ofNat 1 own.subProfiles.length) ::
        own.subProfiles.map fun value => .bytes (Bytes.ofNat 4 value.toNat)

/-- What is left of the structure after reading, if profile and tier are the given ones. -/
def valueWith (ptl : PtlSyntax) (profileTier : Option ProfileTierSyntax) : ProfileTierLevel where
  profile := (profileTier.map fun own => own.profile.val).getD 0
  tier := (profileTier.map (·.tier)).getD false
  level := ptl.level
  frameOnly := ptl.frameOnly
  multilayer := ptl.multilayer
  constraints := (profileTier.map fun own => own.constraints.map ConstraintsSyntax.value).getD none
  sublayerLevelPresent := ptl.sublayerLevels.map (·.isSome)
  sublayerLevels := inferredLevels ptl.level ptl.sublayerLevels
  subProfiles := (profileTier.map (·.subProfiles)).getD []

/-- What is left of the structure after reading. -/
def value (ptl : PtlSyntax) : ProfileTierLevel :=
  ptl.valueWith ptl.profileTier

/-- A number of sublayers that is known already is only checked. -/
theorem decodes_readLowerSublayers {count : Nat} (h : count < maxSublayers) :
    Decodes (readInRange "max_num_sub_layers_minus1" 0 (maxSublayers - 1) (pure count)) [] count :=
  decodes_readInRange (decodes_pure count) (Nat.zero_le _) (Nat.le_pred_of_lt h)

/-- A structure is read back, with what it does not state inferred. -/
theorem decodes_read (ptl : PtlSyntax) :
    Decodes (ProfileTierLevel.read ptl.profileTier.isSome ptl.sublayerLevels.length) ptl.layout
      ptl.value := by
  have hprofile : Decodes (readIf ptl.profileTier.isSome (readBits 7) 0)
      (ptl.profileTier.toList.flatMap fun own => [.number own.profile 7])
      ((ptl.profileTier.map fun own => own.profile.val).getD 0) :=
    decodes_readIf_option rfl fun own _ => decodes_readBits own.profile 7
  have htier : Decodes (readIf ptl.profileTier.isSome readBit false)
      (ptl.profileTier.toList.flatMap fun own => [.flag own.tier])
      ((ptl.profileTier.map (·.tier)).getD false) :=
    decodes_readIf_option rfl fun own _ => decodes_readBit own.tier
  have hconstraints : Decodes (readIf ptl.profileTier.isSome GeneralConstraints.read none)
      (ptl.profileTier.toList.flatMap fun own => ConstraintsSyntax.optionLayout own.constraints)
      ((ptl.profileTier.map fun own => own.constraints.map ConstraintsSyntax.value).getD none) :=
    decodes_readIf_option rfl fun own _ => ConstraintsSyntax.decodes_read own.constraints
  have hpresent := decodes_readTimes ptl.sublayerLevels.reverse
    fun level _ => decodes_readBit level.isSome
  rw [List.length_reverse, ← List.map_eq_flatMap] at hpresent
  have hlevels := decodes_readLevels ptl.level ptl.sublayerLevels.reverse
  have hsubProfiles : Decodes
      (readIf ptl.profileTier.isSome ProfileTierLevel.readSubProfiles [])
      (ptl.profileTier.toList.flatMap fun own =>
        .bytes (Bytes.ofNat 1 own.subProfiles.length) ::
          own.subProfiles.map fun value => .bytes (Bytes.ofNat 4 value.toNat))
      ((ptl.profileTier.map (·.subProfiles)).getD []) :=
    decodes_readIf_option rfl fun own _ => decodes_readSubProfiles own.subProfiles_length_lt
  have hhead : (ptl.profileTier.toList.flatMap fun own =>
        [Item.number own.profile 7, .flag own.tier]) =
      (ptl.profileTier.toList.flatMap fun own => [.number own.profile 7]) ++
        ptl.profileTier.toList.flatMap fun own => [.flag own.tier] := by
    cases ptl.profileTier <;> rfl
  simp only [layout, hhead, List.append_assoc, List.cons_append, List.nil_append]
  refine (decodes_readLowerSublayers ptl.sublayerLevels_length_lt).bind
    (hprofile.bind (htier.bind ((decodes_readUInt8 _).cons ((decodes_readBit _).cons
    ((decodes_readBit _).cons (hconstraints.bind (hpresent.bind (decodes_align.cons
    (hlevels.bind (hsubProfiles.bind_nil ?_))))))))))
  rw [← List.map_reverse, List.reverse_reverse, descendingLevels_reverse, List.reverse_reverse]
  exact decodes_pure _

/-- The numbers of a structure fit their widths. -/
theorem fits_layout (ptl : PtlSyntax) : ptl.layout.Fits := by
  have hconstraints (own : ProfileTierSyntax) := ConstraintsSyntax.fits_optionLayout own.constraints
  cases hprofileTier : ptl.profileTier with
  | none => simp [layout, hprofileTier]
  | some own => simp [layout, hprofileTier, hconstraints]

end PtlSyntax

end H266
