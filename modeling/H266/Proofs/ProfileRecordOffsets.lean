import H266.Proofs.BitOffsets
import H266.Proofs.BuiltRecords
import H266.Proofs.ProfileRecord

/-!
# Profile Records at Any Bit Offset

Behind any other bits a valid profile, tier and level record is read back up to its normal form,
and a record that is not valid is refused before anything of it is written. The normal form drops
the last two bits of the constraints information; those of encoded constraints are clear, since
there is at least a byte of clear bits at the end: reserved bits and padding, or the number of
reserved bits if that is zero. So constraints are found again in the record.

## Main results

* `ProfileRecord.clearLastBits_eq_self`: information that ends in two clear bits is kept.
* `GeneralConstraints.exists_ofBytes_pack_eq`: encoded constraints end in clear bits.
* `GeneralConstraints.exists_read_pack`: they are read back, with nothing left over.
* `ProfileRecord.write_readBack`: what is read back of a record, and what is refused.
* `GeneralConstraints.encode_readBack`: encoded constraints are kept by a record.
-/

namespace H266

open BitReader

/-! ### Writing -/

namespace ProfileRecord

/-- A record that validates is written by its layout, the check in front leaving nothing behind. -/
theorem write_of_valid {record : ProfileRecord} (h : record.Valid) (sublayers : Nat) :
    record.write sublayers = BitWriter.writeLayout (record.layout sublayers) := by
  rw [write, validate_eq_ok_iff.2 h]
  rfl

/-- The check comes before anything is written. -/
theorem write_of_validate_eq_error {record : ProfileRecord} {error : Error}
    (h : record.validate = .error error) (sublayers : Nat) (writer : BitWriter) :
    record.write sublayers writer = (.error error, writer) := by
  rw [write, h]
  rfl

/-- A valid record is read back as its normal form, at any place of a bit string. -/
theorem Valid.isReadBack {record : ProfileRecord} (h : record.Valid) (sublayers : Nat) :
    IsReadBack (record.write sublayers) (read sublayers) (record.normal sublayers) := by
  rw [write_of_valid h]
  exact (decodes_read h sublayers).isReadBack (fits_layout h sublayers)

/-- **Records at any bit offset**: what is read back of a record that passes the check is its
normal form, and a record that does not pass is refused with the error of the check and leaves
the writer as it was. -/
theorem write_readBack (record : ProfileRecord) (sublayers : Nat) :
    (record.validate = .ok () →
      IsReadBack (record.write sublayers) (read sublayers) (record.normal sublayers)) ∧
    ∀ error, record.validate = .error error →
      ∀ writer, record.write sublayers writer = (.error error, writer) :=
  ⟨fun h => (validate_eq_ok_iff.1 h).isReadBack sublayers,
    fun _ h => write_of_validate_eq_error h sublayers⟩

/-- A record for four sublayers of which two state a level, with a level for a sublayer that
states none and one for a sublayer that is not there; and a record that has no constraints
information at all. -/
theorem write_readBack_four_sublayers :
    let record : ProfileRecord :=
      { profile := 17
        tier := true
        level := 80
        frameOnly := false
        multilayer := true
        constraintInfo := [0xFF, 0xFF]
        sublayerLevelPresent := #v[true, false, true, false, true, false]
        sublayerLevels := #v[32, 48, 64, 0, 80, 0]
        subProfiles := [0x01020304] }
    let readBack : ProfileRecord :=
      { record with
        constraintInfo := [0xFF, 0xFC]
        sublayerLevelPresent := #v[true, false, true, false, false, false]
        sublayerLevels := #v[32, 0, 64, 0, 0, 0] }
    let noInfo : ProfileRecord := { record with constraintInfo := [] }
    let error : Error :=
      .invalidData (.fieldOutOfRange "num_bytes_constraint_info" 1 63 0)
    (record.validate = .ok () ∧ IsReadBack (record.write 4) (read 4) readBack) ∧
      noInfo.validate = .error error ∧
        ∀ writer, noInfo.write 4 writer = (.error error, writer) := by
  intro record readBack noInfo error
  have hnormal : record.normal 4 = readBack := by decide
  exact ⟨⟨rfl, hnormal ▸ (write_readBack record 4).1 rfl⟩, rfl, (write_readBack noInfo 4).2 _ rfl⟩

/-! ### Constraints information -/

/-- Information that ends in two clear bits is kept as it is. -/
theorem clearLastBits_eq_self {bytes : Bytes}
    (h : (Bits.ofBytes bytes).drop (8 * bytes.length - 2) = [false, false]) :
    clearLastBits bytes = bytes := by
  have hlast : (Bits.ofBytes bytes).drop (8 * bytes.length - 2) = List.replicate 2 false := h
  calc clearLastBits bytes
      = Bits.toBytes bytes.length ((Bits.ofBytes bytes).take (8 * bytes.length - 2)) :=
        (toBytes_take bytes).symm
    _ = Bits.toBytes bytes.length
          ((Bits.ofBytes bytes).take (8 * bytes.length - 2) ++ List.replicate 2 false) :=
        (Bits.toBytes_append_replicate _ 2 _).symm
    _ = Bits.toBytes bytes.length (Bits.ofBytes bytes ++ []) := by
        rw [← hlast, List.take_append_drop, List.append_nil]
    _ = bytes := Bits.toBytes_ofBytes_append bytes []

end ProfileRecord

namespace GeneralConstraints

/-- The bits of the encoded form before the reserved bits. -/
def headBits (constraints : GeneralConstraints) : Bits :=
  true :: (Bits.ofNat 7 (constraints.flags / UInt64.size % 128)
    ++ (Bits.ofNat 64 (constraints.flags % UInt64.size)
    ++ Bits.ofNat 8 constraints.reservedBits.toNat))

/-- Ten bytes: that there are constraints, the 71 flags, and the number of reserved bits. -/
theorem length_headBits (constraints : GeneralConstraints) : constraints.headBits.length = 80 := by
  simp [headBits]

/-- The number of reserved bits is followed by the reserved bits and what fills up the last byte,
which are all clear. -/
theorem ofBytes_pack_layout (constraints : GeneralConstraints) :
    Bits.ofBytes (Bits.pack constraints.layout.bits) = constraints.headBits ++
      List.replicate (constraints.reservedBits.toNat +
        (8 - (80 + constraints.reservedBits.toNat) % 8) % 8) false := by
  have hbits : constraints.layout.bits =
      constraints.headBits ++ List.replicate constraints.reservedBits.toNat false := by
    simp [layout, headBits, Layout.bitsAt_cons, Item.bitsAt]
  rw [Bits.ofBytes_pack, hbits, List.append_assoc, List.length_append, length_headBits,
    List.length_replicate, List.replicate_append_replicate]

/-- The encoded form ends in a byte of clear bits or more: the number of reserved bits if that is
zero, and otherwise the reserved bits and what fills up the last byte. -/
theorem exists_ofBytes_pack_eq (constraints : GeneralConstraints) :
    ∃ front zeros, 8 ≤ zeros ∧
      Bits.ofBytes (Bits.pack constraints.layout.bits) = front ++ List.replicate zeros false := by
  rw [ofBytes_pack_layout]
  by_cases hnone : constraints.reservedBits.toNat = 0
  · rw [headBits, hnone, Bits.ofNat_zero_right, ← List.append_assoc, ← List.cons_append,
      List.append_assoc, List.replicate_append_replicate]
    exact ⟨_, _, Nat.le_add_right 8 _, rfl⟩
  · exact ⟨_, _, by omega, rfl⟩

/-- The two bits that a record has no room for are clear. -/
theorem drop_ofBytes_pack_eq (constraints : GeneralConstraints) :
    (Bits.ofBytes (Bits.pack constraints.layout.bits)).drop
      (8 * (Bits.pack constraints.layout.bits).length - 2) = [false, false] := by
  obtain ⟨front, zeros, hzeros, hbits⟩ := constraints.exists_ofBytes_pack_eq
  have hlength := congrArg List.length hbits
  rw [Bits.length_ofBytes, List.length_append, List.length_replicate] at hlength
  have hbehind : front.length + zeros - 2 - front.length = zeros - 2 := by omega
  have htwo : zeros - (zeros - 2) = 2 := by omega
  rw [hbits, hlength, List.drop_append, List.drop_of_length_le (by omega), hbehind,
    List.drop_replicate, htwo]
  rfl

/-- The reserved bits of a syntax tree take the place of the clear ones. -/
theorem bits_optionLayout (tree : ConstraintsSyntax) :
    (ConstraintsSyntax.optionLayout (some tree)).bits = tree.value.headBits ++
      (tree.reserved ++ List.replicate ((8 - (80 + tree.reserved.length) % 8) % 8) false) := by
  have hhead : Layout.bitsAt 0 [.flag true, .number (tree.flags / 2 ^ 64) 7,
      .number (tree.flags % 2 ^ 64) 64, .bytes [UInt8.ofNat tree.reserved.length]] =
        tree.value.headBits := by
    have hhigh : tree.value.flags / UInt64.size % 128 = tree.flags / 2 ^ 64 :=
      Nat.mod_eq_of_lt (Nat.div_lt_of_lt_mul tree.flags.isLt)
    simp only [headBits, hhigh, Layout.bitsAt_cons, Layout.bitsAt_nil, Item.bitsAt,
      Bits.ofBytes_singleton, List.append_nil]
    rfl
  have hend : Layout.bitsAt tree.value.headBits.length (tree.reserved.map .flag ++ [.align]) =
      tree.reserved ++ List.replicate ((8 - (80 + tree.reserved.length) % 8) % 8) false := by
    rw [Layout.bitsAt_append, Layout.bitsAt_map_flag, Layout.bitsAt_singleton, Item.bitsAt,
      length_headBits]
  rw [← hend, ← hhead, ConstraintsSyntax.optionLayout, Option.toList_some,
    List.flatMap_singleton, ConstraintsSyntax.layout, List.append_assoc, ← List.cons_append,
    Layout.bits, Layout.bitsAt_append, Nat.zero_add]
  rfl

/-- The encoded form is that of a syntax tree with clear reserved bits, filled up to a byte. -/
theorem exists_tree {constraints : GeneralConstraints} (hflags : constraints.flags < 2 ^ 71) :
    ∃ tree : ConstraintsSyntax, tree.value = constraints ∧
      (ConstraintsSyntax.optionLayout (some tree)).bits =
        Bits.ofBytes (Bits.pack constraints.layout.bits) := by
  have hlt : (List.replicate constraints.reservedBits.toNat false).length < 256 := by
    rw [List.length_replicate]
    exact constraints.reservedBits.toNat_lt
  have hvalue : ConstraintsSyntax.value ⟨⟨constraints.flags, hflags⟩, _, hlt⟩ = constraints := by
    simp [ConstraintsSyntax.value]
  refine ⟨_, hvalue, ?_⟩
  rw [bits_optionLayout, hvalue, ofBytes_pack_layout, List.length_replicate,
    List.replicate_append_replicate]

/-- Encoded constraints are read back, and nothing of their bytes is left over. -/
theorem exists_read_pack {constraints : GeneralConstraints} (hflags : constraints.flags < 2 ^ 71) :
    ∃ reader, read (.ofBytes (Bits.pack constraints.layout.bits)) =
        .ok (some constraints, reader) ∧
      reader.position = 8 * (Bits.pack constraints.layout.bits).length ∧ reader.bits = [] := by
  obtain ⟨tree, hvalue, hbits⟩ := exists_tree hflags
  have hstart : Bits.ofBytes (ByteSource.ofBytes (Bits.pack constraints.layout.bits)).contents =
      (ConstraintsSyntax.optionLayout (some tree)).bits ++ [] := by
    rw [ByteSource.contents_ofBytes, hbits, List.append_nil]
  obtain ⟨reader, hread, hadvance, hrest⟩ :=
    (ConstraintsSyntax.decodes_read (some tree)).run_ofSource
      (ConstraintsSyntax.fits_optionLayout _) hstart
  rw [Option.map_some, hvalue] at hread
  refine ⟨reader, hread, ?_, hrest⟩
  rw [hadvance.position_eq, hbits, Bits.length_ofBytes]
  exact Nat.zero_add _

/-- **Constraints in a record**: the encoded form has the length that is stated for it and ends in
two clear bits, so a record that has it as its constraints information is read back with the same
information, of which the constraints are read to its end. -/
theorem encode_readBack {constraints : GeneralConstraints} (hflags : constraints.flags < 2 ^ 71) :
    ∃ bytes, constraints.encode = .ok bytes ∧
      bytes.length = constraints.encodedLength ∧
      (Bits.ofBytes bytes).drop (8 * bytes.length - 2) = [false, false] ∧
      ∀ (record : ProfileRecord) (sublayers : Nat), record.constraintInfo = bytes →
        record.validate = .ok () →
        ∃ value : ProfileRecord,
          IsReadBack (record.write sublayers) (ProfileRecord.read sublayers) value ∧
          value.constraintInfo = bytes ∧
          ∃ reader, read (.ofBytes value.constraintInfo) = .ok (some constraints, reader) ∧
            reader.position = 8 * value.constraintInfo.length ∧ reader.bits = [] := by
  refine ⟨_, constraints.encode_eq_pack, constraints.length_pack_layout,
    constraints.drop_ofBytes_pack_eq, fun record sublayers hinfo hvalidate => ?_⟩
  have hvalid := ProfileRecord.validate_eq_ok_iff.1 hvalidate
  have hkept : (record.normal sublayers).constraintInfo = Bits.pack constraints.layout.bits := by
    show ProfileRecord.clearLastBits record.constraintInfo = _
    rw [hinfo]
    exact ProfileRecord.clearLastBits_eq_self constraints.drop_ofBytes_pack_eq
  refine ⟨_, hvalid.isReadBack sublayers, hkept, ?_⟩
  rw [hkept]
  exact exists_read_pack hflags

/-- The first and the last flag, with eight reserved bits that leave nothing to be filled up. -/
theorem encode_readBack_eight_reserved :
    let constraints : GeneralConstraints := ⟨0x400000000000000001, 8⟩
    let bytes : Bytes := [0xC0, 0, 0, 0, 0, 0, 0, 0, 1, 8, 0]
    let record : ProfileRecord :=
      { profile := 1
        tier := false
        level := 60
        frameOnly := true
        multilayer := true
        constraintInfo := bytes
        sublayerLevelPresent := #v[true, false, false, false, false, false]
        sublayerLevels := #v[51, 0, 0, 0, 0, 0]
        subProfiles := [] }
    constraints.flags < 2 ^ 71 ∧ constraints.encode = .ok bytes ∧
      bytes.length = constraints.encodedLength ∧
      (Bits.ofBytes bytes).drop (8 * bytes.length - 2) = [false, false] ∧
      record.validate = .ok () ∧
      ∃ value : ProfileRecord,
        IsReadBack (record.write 3) (ProfileRecord.read 3) value ∧
        value.constraintInfo = bytes ∧
        ∃ reader, read (.ofBytes value.constraintInfo) = .ok (some constraints, reader) ∧
          reader.position = 8 * value.constraintInfo.length ∧ reader.bits = [] := by
  intro constraints bytes record
  have hflags : constraints.flags < 2 ^ 71 := by decide
  have hbytes : constraints.encode = .ok bytes := by
    rw [encode_eq_pack]
    decide
  obtain ⟨encoded, hencode, hlength, hlast, hrecord⟩ := encode_readBack hflags
  obtain rfl : encoded = bytes := Except.ok.inj (hencode.symm.trans hbytes)
  exact ⟨hflags, hencode, hlength, hlast, rfl, hrecord record 3 rfl rfl⟩

end GeneralConstraints

end H266
