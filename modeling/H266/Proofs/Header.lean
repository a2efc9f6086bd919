import H266.NalUnit.Header
import H266.Proofs.Layout
import H266.Proofs.Steps

/-!
# NAL Unit Headers in Bytes

What reading a NAL unit header makes of the first two bytes of a NAL unit, and the two bytes of
a given header.

## Main results

* `NalUnitHeader.split_cons_cons`: the header that two bytes state, or the fault of them.
* `NalUnitHeader.split_bytes`: a valid header is read back from its two bytes.
-/

namespace H266

open BitReader

namespace NalUnitHeader

/-! ### Reading -/

/-- The upper five bits of a byte. -/
theorem toNat_take_five (byte : UInt8) :
    Bits.toNat ((Bits.ofByte byte).take 5) = byte.toNat / 8 := by
  have hall : ∀ n < 256, Bits.toNat ((Bits.ofNat 8 n).take 5) = n / 8 := by
    decide +kernel
  exact hall byte.toNat byte.toNat_lt

/-- The first bit must be clear and the last three must not all be. -/
theorem split_cons_cons (first second : UInt8) (rest : Bytes) :
    split (first :: second :: rest) =
      if first.toNat.testBit 7 then .error (.invalidData .forbiddenBit)
      else if second.toNat % 8 = 0 then .error (.invalidData .missingTemporalId)
      else .ok (⟨first.toNat % 64, .ofCode (second.toNat / 8), second.toNat % 8⟩, rest) := by
  have hforbidden : readBit (.ofBytes (first :: second :: rest)) =
      .ok (first.toNat.testBit 7, ⟨⟨second :: rest, false, 0⟩, Bits.ofNat 7 first.toNat, 1⟩) :=
    rfl
  have hreserved : skipFlag ⟨⟨second :: rest, false, 0⟩, Bits.ofNat 7 first.toNat, 1⟩ =
      .ok ((), ⟨⟨second :: rest, false, 0⟩, Bits.ofNat 6 first.toNat, 2⟩) :=
    rfl
  have hlayer : readBits 6 ⟨⟨second :: rest, false, 0⟩, Bits.ofNat 6 first.toNat, 2⟩ =
      .ok (Bits.toNat (Bits.ofNat 6 first.toNat), ⟨⟨second :: rest, false, 0⟩, [], 8⟩) :=
    rfl
  have htype : readBits 5 ⟨⟨second :: rest, false, 0⟩, [], 8⟩ =
      .ok (Bits.toNat ((Bits.ofByte second).take 5),
        ⟨⟨rest, false, 0⟩, Bits.ofNat 3 second.toNat, 13⟩) :=
    rfl
  have htemporal : readBits 3 ⟨⟨rest, false, 0⟩, Bits.ofNat 3 second.toNat, 13⟩ =
      .ok (Bits.toNat (Bits.ofNat 3 second.toNat), ⟨⟨rest, false, 0⟩, [], 16⟩) :=
    rfl
  rw [Bits.toNat_ofNat_mod] at hlayer htemporal
  rw [toNat_take_five] at htype
  rw [split, read, PureStep.ok_bind hforbidden]
  cases first.toNat.testBit 7 with
  | true => rfl
  | false =>
    simp only [Bool.false_eq_true, if_false]
    rw [PureStep.ok_bind hreserved, PureStep.ok_bind hlayer, PureStep.ok_bind htype,
      PureStep.ok_bind htemporal]
    by_cases hzero : second.toNat % 8 = 0
    · rw [if_pos hzero, if_pos (by exact hzero)]
      rfl
    · rw [if_neg hzero, if_neg (by exact hzero)]
      rfl

/-- A single byte is only enough to tell that the first bit is set. -/
theorem split_singleton (first : UInt8) :
    split [first] =
      if first.toNat.testBit 7 then .error (.invalidData .forbiddenBit)
      else .error .outOfData := by
  have hforbidden : readBit (.ofBytes [first]) =
      .ok (first.toNat.testBit 7, ⟨⟨[], false, 0⟩, Bits.ofNat 7 first.toNat, 1⟩) :=
    rfl
  rw [split, read, PureStep.ok_bind hforbidden]
  cases first.toNat.testBit 7 with
  | true => rfl
  | false => rfl

/-- The type in the header is the one that the second byte states. -/
theorem ofHeaderBytes?_of_split {nalUnit payload : Bytes} {header : NalUnitHeader}
    (h : split nalUnit = .ok (header, payload)) :
    NalUnitType.ofHeaderBytes? nalUnit = some header.type := by
  match nalUnit, h with
  | [], h => cases h
  | [first], h =>
    rw [split_singleton] at h
    split at h <;> cases h
  | first :: second :: rest, h =>
    rw [split_cons_cons] at h
    split at h
    · cases h
    · split at h
      · cases h
      · cases h
        rfl

/-- A NAL unit that was taken for a parameter set has a header that says so. -/
theorem of_splitParameterSet_eq_ok {kind : ParameterSetKind} {nalUnit payload : Bytes}
    {header : NalUnitHeader} (h : splitParameterSet kind nalUnit = .ok (header, payload)) :
    split nalUnit = .ok (header, payload) ∧ header.type = kind.nalUnitType := by
  obtain ⟨⟨own, rest⟩, hsplit, h⟩ := Check.of_bind_eq_ok h
  simp only [Check.throw_bind_eq_ok_iff, Decidable.not_not] at h
  obtain ⟨htype, h⟩ := h
  cases h
  exact ⟨hsplit, htype⟩

/-! ### Writing -/

/-- A header whose fields have their ranges. -/
structure Valid (header : NalUnitHeader) : Prop where
  layerId_lt : header.layerId < 64
  one_le_temporalIdPlus1 : 1 ≤ header.temporalIdPlus1
  temporalIdPlus1_lt : header.temporalIdPlus1 < 8

/-- The two bytes of a header, with the given reserved bit. -/
def bytes (header : NalUnitHeader) (reserved : Bool) : Bytes :=
  [UInt8.ofNat (64 * reserved.toNat + header.layerId),
    UInt8.ofNat (8 * header.type.code + header.temporalIdPlus1)]

/-- A valid header is read back from its two bytes, whatever the reserved bit. -/
theorem split_bytes {header : NalUnitHeader} (h : header.Valid) (reserved : Bool)
    (payload : Bytes) : split (header.bytes reserved ++ payload) = .ok (header, payload) := by
  obtain ⟨hlayer, hpos, htemporal⟩ := h
  have hcode := header.type.code_lt
  have hreserved := reserved.toNat_le
  have hfirst : (UInt8.ofNat (64 * reserved.toNat + header.layerId)).toNat =
      64 * reserved.toNat + header.layerId :=
    UInt8.toNat_ofNat_of_lt' (show _ < 256 by omega)
  have hsecond : (UInt8.ofNat (8 * header.type.code + header.temporalIdPlus1)).toNat =
      8 * header.type.code + header.temporalIdPlus1 :=
    UInt8.toNat_ofNat_of_lt' (show _ < 256 by omega)
  have hclear : (64 * reserved.toNat + header.layerId).testBit 7 = false :=
    Nat.testBit_lt_two_pow (by omega)
  have hlow : (64 * reserved.toNat + header.layerId) % 64 = header.layerId := by omega
  have htype : (8 * header.type.code + header.temporalIdPlus1) / 8 = header.type.code := by
    omega
  have htid : (8 * header.type.code + header.temporalIdPlus1) % 8 = header.temporalIdPlus1 := by
    omega
  rw [bytes, List.cons_append, List.singleton_append, split_cons_cons, hfirst, hsecond, hclear,
    hlow, htype, htid, if_neg Bool.false_ne_true, if_neg (by omega), NalUnitType.ofCode_code]

end NalUnitHeader

end H266
