import H266.ProfileTierLevel
import H266.Proofs.Words.Bytes
import H266.Proofs.Words.Loops

/-!
# Profile, Tier and Level in Words

The profile, tier and level structure as it is read into words. The constraint flags fill 71 bits
of a word of 128; sublayers are indices, and the level of a sublayer that states none is found at
the next index, unless there is none.

## Main results

* `GeneralConstraints.simulates_readWords`: general constraints information.
* `ProfileTierLevel.simulates_readWords`: the whole structure.
-/

namespace H266

open WordM

/-! ### General constraints information -/

namespace GeneralConstraints

/-- Reads what follows the first bit if that is set. -/
def readPresentWords : WordM GeneralConstraints := do
  let width ← Word.sub (71 : UInt8) 64
  let high : BitVec 128 ← readNumber width
  let low : BitVec 128 ← readNumber 64
  let reservedBits ← readUInt8
  let count ← Word.convert reservedBits
  skipBits count
  let shifted ← Word.shiftLeft high (64 : UInt8)
  let flags ← Word.union shifted low
  return { flags := flags.toNat, reservedBits }

/-- Reads general constraints information and moves on to the next byte boundary. -/
def readWords : WordM (Option GeneralConstraints) := do
  let present ← readBit
  let constraints ← WordM.readIf present (some <$> readPresentWords) none
  align
  return constraints

/-- Constraints that are there, of which 71 bits are kept in a wide word. -/
theorem simulates_readPresentWords :
    Simulates 334 (· = ·) readPresentWords read.readPresent := by
  have hsmaller : Word.toNat (64 : UInt8) ≤ Word.toNat (71 : UInt8) := by decide
  refine .after (Word.computes_sub hsmaller) fun width hwidth => ?_
  refine (simulates_readNumber (show width.toNat = 7 from hwidth) (by decide)
    (by decide : 2 ^ 7 ≤ Word.size (BitVec 128))).bind fun high _ hhigh => ?_
  obtain ⟨rfl, hhighLt⟩ := hhigh
  refine (simulates_number (BitVec 128) 64 (by decide) (by decide)).bind fun low _ hlow => ?_
  obtain ⟨rfl, hlowLt⟩ := hlow
  refine simulates_readUInt8.bindSame fun reservedBits => ?_
  refine .after (Word.computes_convert (Nat.lt_trans (Word.toNat_lt reservedBits) (by decide)))
    fun count hcount => ?_
  have hskip := (skips_skipBits (show count.toNat = reservedBits.toNat from hcount)).widen
    (Nat.le_of_lt_succ reservedBits.toNat_lt)
  refine hskip.seq ?_
  have hproduct : Word.toNat high * 2 ^ 64 + Word.toNat low < Word.size (BitVec 128) := by
    have : Word.size (BitVec 128) = 2 ^ 128 := rfl
    omega
  refine .after (Word.computes_shiftLeft (by decide) (Nat.lt_of_le_of_lt (Nat.le_add_right _ _)
    hproduct)) fun shifted hshifted => ?_
  refine .after (Word.computes_union hshifted hlowLt hproduct) fun flags hflags => ?_
  have hvalue : flags.toNat = Word.toNat high * UInt64.size + Word.toNat low := hflags
  rw [hvalue]
  exact simulates_pure rfl

/-- General constraints, up to the byte boundary behind them. -/
theorem simulates_readWords : Simulates 342 (· = ·) readWords read := by
  refine simulates_readBit.bindSame fun present => ?_
  have hread : Simulates 334 (· = ·) (some <$> readPresentWords) (some <$> read.readPresent) :=
    simulates_readPresentWords.map fun _ _ => congrArg some
  refine (Simulates.readIf (fun _ => hread) fun _ => rfl).bindSame fun constraints => ?_
  exact simulates_align.seq (simulates_pure rfl)

end GeneralConstraints

/-! ### Profile, tier and level -/

namespace ProfileTierLevel

/-- Reads a list of sub-profiles. -/
def readSubProfileWords : WordM (List UInt32) := do
  let count ← readUInt8
  collect count.toNat readUInt32

/-- Reads the level of a sublayer, or finds it at the next index; the highest sublayer has the
general level. -/
def readLevelWords (general : UInt8) (sublayers : USize) (present : List Bool)
    (levels : List UInt8) (index : USize) : WordM UInt8 := do
  if ← entry present index then
    readUInt8
  else
    let next ← Word.add index 1
    if next.toNat = sublayers.toNat then
      return general
    else
      entry levels next

/-- Reads a profile, tier and level structure. -/
def readWords (profilePresent : Bool) (lowerSublayers : UInt8) : WordM ProfileTierLevel := do
  let most : UInt8 ← Word.convert (7 : USize)
  let limit ← Word.sub most 1
  let count ← WordM.readInRange "max_num_sub_layers_minus1" 0 limit (pure lowerSublayers)
  let sublayers : USize ← Word.convert count
  let profile : UInt8 ← WordM.readIf profilePresent (readNumber 7) 0
  let tier ← WordM.readIf profilePresent readBit false
  let level ← readUInt8
  let frameOnly ← readBit
  let multilayer ← readBit
  let constraints ← WordM.readIf profilePresent GeneralConstraints.readWords none
  let present ← fillDown (List.replicate sublayers.toNat false) sublayers.toNat fun _ _ => readBit
  align
  let levels ← fillDown (List.replicate sublayers.toNat 0) sublayers.toNat
    (readLevelWords level sublayers present)
  let subProfiles ← WordM.readIf profilePresent readSubProfileWords []
  return {
    profile := profile.toNat
    tier, level, frameOnly, multilayer, constraints, subProfiles
    sublayerLevelPresent := present
    sublayerLevels := levels }

/-- Sub-profiles behind their number. -/
theorem simulates_readSubProfileWords :
    Simulates 8168 (· = ·) readSubProfileWords readSubProfiles := by
  refine simulates_readUInt8.bindSame fun count => ?_
  refine (simulates_readUInt32.collect count.toNat).widen ?_
  have := count.toNat_lt
  omega

/-- The level of a sublayer is read, or is the one of the sublayer above it. -/
theorem simulates_readLevelWords {general : UInt8} {sublayers : USize} {lower above : List Bool}
    {stated : Bool} {unset done : List UInt8} {index : USize} (hindex : index.toNat = lower.length)
    (hunset : unset.length = lower.length + 1)
    (hlength : unset.length + done.length = sublayers.toNat) (hsublayers : sublayers.toNat ≤ 6) :
    Simulates 8 (· = ·)
      (readLevelWords general sublayers (lower ++ stated :: above) (unset ++ done) index)
      (BitReader.readIf stated BitReader.readUInt8 (done.headD general)) := by
  refine .after (computes_entry_append hindex) fun own hown => ?_
  subst hown
  cases own with
  | true => exact simulates_readUInt8
  | false =>
    refine .after (Word.computes_addIndex (show index.toNat + 1 < _ by omega)) fun next hnext => ?_
    have hvalue : next.toNat = unset.length := by
      rw [hnext, hunset, hindex]
    -- The next entry is the first one that was filled, unless this is the highest sublayer.
    cases done with
    | nil =>
      rw [if_pos (hvalue.trans hlength)]
      exact simulates_pure rfl
    | cons level done =>
      rw [if_neg (by rw [hvalue, ← hlength, List.length_cons]; omega)]
      exact (computes_entry_append hvalue).simulates fun _ => id

/-- The levels are filled in from the highest sublayer down; `done` are those of the sublayers
above. -/
theorem simulates_fillLevels {general : UInt8} {sublayers : USize} {present above : List Bool}
    {done : List UInt8} (hlength : present.length + done.length = sublayers.toNat)
    (hsublayers : sublayers.toNat ≤ 6) :
    Simulates (present.length * 8) (fun entries levels => entries = levels.reverse ++ done)
      (fillDown (List.replicate present.length 0 ++ done) present.length
        (readLevelWords general sublayers (present.reverse ++ above)))
      (readLevels (done.headD general) present) := by
  induction present generalizing above done with
  | nil => exact simulates_pure rfl
  | cons stated present ih =>
    rw [List.length_cons] at hlength
    have hindex := Word.toNat_index present.length (by omega)
    rw [List.length_cons, Nat.succ_mul, fillDown, reverse_indices_succ, List.foldlM_cons,
      bind_assoc, readLevels, List.reverse_cons, List.append_assoc]
    have hstep : Simulates 8 (· = ·)
        (readLevelWords general sublayers (present.reverse ++ stated :: above)
          (List.replicate (present.length + 1) 0 ++ done) (USize.ofNat present.length))
        (BitReader.readIf stated BitReader.readUInt8 (done.headD general)) :=
      simulates_readLevelWords (by rw [hindex, List.length_reverse])
        (by rw [List.length_replicate, List.length_reverse])
        (by rw [List.length_replicate]; exact hlength) hsublayers
    refine hstep.bindSame fun level => ?_
    rw [List.replicate_succ', List.append_assoc]
    refine .after (computes_setEntry_append (by rw [hindex, List.length_replicate]))
      fun entries hset => ?_
    subst hset
    refine (@ih (stated :: above) (level :: done) ?_).mapSpec fun entries levels hentries => ?_
    · rw [List.length_cons]
      omega
    · rw [hentries, List.reverse_cons, List.append_assoc]
      rfl

/-- A profile, tier and level structure has fewer than `2 ^ 14` bits, and nothing in it goes past
its words. -/
theorem simulates_readWords (profilePresent : Bool) (lowerSublayers : UInt8) :
    Simulates 16384 (· = ·) (readWords profilePresent lowerSublayers)
      (read profilePresent lowerSublayers.toNat) := by
  have hseven : Word.toNat (7 : USize) = 7 := Word.toNat_index 7 (by decide)
  refine .after (Word.computes_convert (by rw [hseven]; decide)) fun most hmost => ?_
  have hpositive : Word.toNat (1 : UInt8) ≤ Word.toNat most := by
    rw [hmost, hseven]
    decide
  refine .after (Word.computes_sub hpositive) fun limit hlimit => ?_
  have hlimitNat : Word.toNat limit = 6 := by
    rw [hlimit, hmost, hseven]
    rfl
  have hgiven : Simulates 0 (fun word value => Word.toNat word = value) (pure lowerSublayers)
      (pure lowerSublayers.toNat) :=
    simulates_pure rfl
  refine (hgiven.readInRange rfl hlimitNat fun _ _ => id).bind fun count _ hcount => ?_
  obtain ⟨rfl, hle⟩ := hcount
  refine .after (Word.computes_convert (Word.lt_size_index (Nat.lt_of_le_of_lt hle (by decide))))
    fun sublayers hsublayers => ?_
  have hsublayersNat : sublayers.toNat = Word.toNat count := hsublayers
  rw [hsublayersNat]
  refine (Simulates.readIf (fun _ => simulates_number UInt8 7 (by decide) (by decide))
    fun _ => ⟨rfl, by decide⟩).bind fun profile _ hprofile => ?_
  obtain ⟨rfl, -⟩ := hprofile
  refine (Simulates.readIf (fun _ => simulates_readBit) fun _ => rfl).bindSame fun tier => ?_
  refine simulates_readUInt8.bindSame fun level => ?_
  refine simulates_readBit.bindSame fun frameOnly => ?_
  refine simulates_readBit.bindSame fun multilayer => ?_
  refine (Simulates.readIf (fun _ => GeneralConstraints.simulates_readWords) fun _ => rfl).bindSame
    fun constraints => ?_
  have hfew : Word.toNat count < 4294967296 := Nat.lt_of_le_of_lt hle (by decide)
  have hpresent := (Simulates.fillDown (fun _ _ => simulates_readBit) false [] hfew).widen
    (show Word.toNat count * 1 ≤ 6 by omega)
  rw [List.append_nil] at hpresent
  refine hpresent.bind fun _ present hvalues => ?_
  obtain ⟨rfl, hlength⟩ := hvalues
  refine simulates_align.seq ?_
  have hlevels : Simulates 48 (fun entries levels => entries = levels.reverse ++ [])
      (fillDown (List.replicate (Word.toNat count) 0) (Word.toNat count)
        (readLevelWords level sublayers (present.reverse ++ [])))
      (readLevels level present) := by
    have hfill := @simulates_fillLevels level sublayers present [] []
      (hlength.trans hsublayersNat.symm) (hsublayersNat.symm ▸ hle)
    rw [List.append_nil, hlength] at hfill
    exact hfill.widen (show Word.toNat count * 8 ≤ 48 by omega)
  refine hlevels.bind fun _ levels hentries => ?_
  subst hentries
  refine (Simulates.readIf (fun _ => simulates_readSubProfileWords) fun _ => rfl).bindSame
    fun subProfiles => ?_
  rw [List.append_nil, List.append_nil]
  exact simulates_pure rfl

end ProfileTierLevel

end H266
