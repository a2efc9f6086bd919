import H266.Proofs.BitWriter
import H266.Proofs.LevelDominance

/-!
# Profile, Tier and Level Round Trip

The written form of a profile, tier and level structure fills whole bytes, so it can be written
by itself, and it is read back wherever a byte boundary is. What comes after it is left alone.
Reading keeps what the structure states, apart from the values of the reserved bits, and fills in
the levels that it does not state.

## Main results

* `PtlSyntax.exists_fills_layout`: the written form fills whole bytes.
* `PtlSyntax.getElem?_sublayerLevels_value`: the level of each sublayer.
* `PtlSyntax.exists_encode_read`: what is written is read back, and just that.
-/

namespace H266

open BitReader

/-- The level of a sublayer is that of the nearest one from it upwards that states a level. -/
theorem getElem?_inferredLevels_of_lt (general : UInt8) {levels : List (Option UInt8)} {i : Nat}
    (h : i < levels.length) :
    (inferredLevels general levels)[i]? =
      some (((levels.drop i).findSome? id).getD general) := by
  induction levels generalizing i with
  | nil => cases h
  | cons level levels ih =>
    cases i with
    | zero => rfl
    | succ i => exact ih (Nat.lt_of_succ_lt_succ h)

namespace PtlSyntax

/-- The levels and the sub-profiles come after an alignment and are whole bytes. -/
theorem exists_fills_layout (ptl : PtlSyntax) : ∃ size, ptl.layout.Fills size := by
  have hlevels : ∀ level ∈ ptl.sublayerLevels.reverse,
      Layout.Fills (level.toList.flatMap fun level => [.bytes [level]]) level.toList.length := by
    rintro (_ | level) -
    · exact Layout.fills_nil
    · exact Layout.fills_bytes [level]
  have hsubProfiles : ∀ own ∈ ptl.profileTier.toList,
      Layout.Fills (.bytes (Bytes.ofNat 1 own.subProfiles.length) ::
        own.subProfiles.map fun value => .bytes (Bytes.ofNat 4 value.toNat))
        (1 + 4 * own.subProfiles.length) := by
    intro own _
    have hcount := Layout.fills_bytes (Bytes.ofNat 1 own.subProfiles.length)
    rw [Bytes.length_ofNat] at hcount
    exact hcount.append (Layout.fills_map_bytes own.subProfiles fun _ _ => Bytes.length_ofNat _ _)
  obtain ⟨size, hhead⟩ := Layout.exists_fills_append_align _
  exact ⟨_, (hhead.append (Layout.fills_flatMap _ hlevels)).append
    (Layout.fills_flatMap _ hsubProfiles)⟩

/-- A sublayer has the level of the nearest one at or above it that states a level, and else the
general level. -/
theorem getElem?_sublayerLevels_value (ptl : PtlSyntax) {i : Nat}
    (h : i < ptl.sublayerLevels.length) :
    ptl.value.sublayerLevels[i]? =
      some (((ptl.sublayerLevels.drop i).findSome? id).getD ptl.level) :=
  getElem?_inferredLevels_of_lt ptl.level h

/-- **Reading against the syntax**: a profile, tier and level structure can be written, and where
its bytes come next at a byte boundary it is read back, whatever bits follow. Just its bytes are
read. Levels, flags and which sublayers state a level are those of the structure, and a sublayer
without a level has that of the nearest sublayer above it that states one, or the general level.
Profile, tier, constraints and sub-profiles are those that are stated, if any are; of the reserved
bits only their number is kept. -/
theorem exists_encode_read (ptl : PtlSyntax) {reader : BitReader} (hvalid : reader.Valid)
    (hboundary : reader.position % 8 = 0) {following : Bits}
    (hbits : reader.bits = ptl.layout.bits ++ following) :
    (∃ bytes reader', BitWriter.encode ptl.layout = .ok bytes ∧
      Bits.ofBytes bytes = ptl.layout.bits ∧
      ProfileTierLevel.read ptl.profileTier.isSome ptl.sublayerLevels.length reader =
        .ok (ptl.value, reader') ∧
      reader'.Valid ∧ reader'.position = reader.position + 8 * bytes.length ∧
      reader'.bits = following) ∧
    (ptl.value.level = ptl.level ∧ ptl.value.frameOnly = ptl.frameOnly ∧
      ptl.value.multilayer = ptl.multilayer ∧
      ptl.value.sublayerLevelPresent = ptl.sublayerLevels.map (·.isSome) ∧
      ptl.value.sublayerLevels.length = ptl.sublayerLevels.length ∧
      ∀ i < ptl.sublayerLevels.length, ptl.value.sublayerLevels[i]? =
        some (((ptl.sublayerLevels.drop i).findSome? id).getD ptl.level)) ∧
    (ptl.profileTier = none → ptl.value.profile = 0 ∧ ptl.value.tier = false ∧
      ptl.value.constraints = none ∧ ptl.value.subProfiles = []) ∧
    ∀ own, ptl.profileTier = some own →
      ptl.value.profile = own.profile ∧ ptl.value.tier = own.tier ∧
      ptl.value.constraints = own.constraints.map (fun constraints =>
        ⟨constraints.flags, UInt8.ofNat constraints.reserved.length⟩) ∧
      ptl.value.subProfiles = own.subProfiles := by
  obtain ⟨size, hfills⟩ := ptl.exists_fills_layout
  have hwhole : ptl.layout.bits.length = 8 * size := hfills 0 rfl
  have hpacked : Bits.ofBytes (Bits.pack ptl.layout.bits) = ptl.layout.bits :=
    Bits.ofBytes_pack_of_whole (by omega)
  have hsame : ptl.layout.bitsAt reader.position = ptl.layout.bits :=
    Layout.bitsAt_congr hboundary ptl.layout
  obtain ⟨reader', hread, hadvance⟩ :=
    ptl.decodes_read ptl.fits_layout reader following hvalid (by simp only [hsame, hbits])
  simp only [hsame] at hadvance
  refine ⟨⟨_, reader', BitWriter.encode_eq_pack ptl.fits_layout, hpacked, hread,
    hadvance.valid hvalid, ?_, ?_⟩, ⟨rfl, rfl, rfl, rfl, length_inferredLevels _ _, fun i hi =>
      ptl.getElem?_sublayerLevels_value hi⟩, fun hnone => ?_, fun own hown => ?_⟩
  · rw [hadvance.position_eq, ← Bits.length_ofBytes, hpacked]
  · exact hadvance.rest_eq hbits
  · rw [value, valueWith, hnone]
    exact ⟨rfl, rfl, rfl, rfl⟩
  · rw [value, valueWith, hown]
    exact ⟨rfl, rfl, rfl, rfl⟩

/-- A structure with constraints, three reserved bits, a level for the middle one of three lower
sublayers and one sub-profile, which is read after a byte of something else and before two bits of
the next structure. -/
theorem exists_encode_read_middle_level :
    let constraints : ConstraintsSyntax := ⟨5, [true, false, true], by decide⟩
    let ptl : PtlSyntax :=
      { profileTier := some ⟨1, true, some constraints, [7], by decide⟩
        level := 60
        frameOnly := true
        multilayer := false
        sublayerLevels := [none, some 32, none]
        sublayerLevels_length_lt := by decide }
    let reader : BitReader := ⟨.ofBytes (Bits.pack ptl.layout.bits ++ [0x80]), [], 8⟩
    let following : Bits := Bits.ofBytes [0x80]
    reader.Valid ∧ reader.position % 8 = 0 ∧ reader.bits = ptl.layout.bits ++ following ∧
      (∃ bytes reader', BitWriter.encode ptl.layout = .ok bytes ∧
        ProfileTierLevel.read true 3 reader = .ok (ptl.value, reader') ∧
        reader'.position = 8 + 8 * bytes.length ∧ reader'.bits = following) ∧
      ptl.value.constraints = some ⟨5, 3⟩ ∧ ptl.value.sublayerLevels[0]? = some 32 ∧
      ptl.value.sublayerLevels[2]? = some 60 := by
  intro constraints ptl reader following
  have hvalid : reader.Valid := ⟨Nat.zero_lt_succ 7, Nat.mod_self 8⟩
  have hboundary : reader.position % 8 = 0 := Nat.mod_self 8
  have hbits : reader.bits = ptl.layout.bits ++ following := by
    obtain ⟨size, hfills⟩ := ptl.exists_fills_layout
    have hwhole : ptl.layout.bits.length = 8 * size := hfills 0 rfl
    show Bits.ofBytes (ByteSource.ofBytes _).contents = _
    rw [ByteSource.contents_ofBytes, Bits.ofBytes_append, Bits.ofBytes_pack_of_whole (by omega)]
  obtain ⟨⟨bytes, reader', hencode, -, hread, -, hposition, hafter⟩,
    ⟨-, -, -, -, -, hlevels⟩, -, hstated⟩ := exists_encode_read ptl hvalid hboundary hbits
  exact ⟨hvalid, hboundary, hbits, ⟨bytes, reader', hencode, hread, hposition, hafter⟩,
    (hstated _ rfl).2.2.1, hlevels 0 (by decide), hlevels 2 (by decide)⟩

end PtlSyntax

end H266
