import H266.Proofs.RecordBytes

/-!
# Records Passed Through

An input that is a record already is passed through as it is, and it is told from a byte stream
by its length and its first byte alone. That never goes wrong for what was made of a stream: a
record that can be written has a video and a sequence parameter set, each behind a length field of
its own, and with its two fixed bytes this is as much as an input has to have. So the bytes that
can be made of anything are the inputs that are passed through, whatever the options.

## Main results

* `DecoderRecord.Valid.minInput_le_size`: how small a record that can be written is.
* `DecoderRecord.bytesOf_eq_ok_self_iff`: which inputs are passed through.
* `DecoderRecord.bytesOf_idempotent`: what was made of an input is passed through.
-/

namespace H266

namespace DecoderRecord

/-! ### The least size -/

theorem total_cons (first : Nat) (sizes : List Nat) :
    total (first :: sizes) = first + total sizes := rfl

/-- Each NAL unit of an array takes at least the two bytes of its length field. -/
theorem two_mul_length_le_arraySize (array : NalUnitArray) :
    2 * array.nalUnits.length ≤ arraySize array := by
  have hlengths : 2 * array.nalUnits.length ≤
      total (array.nalUnits.map fun nalUnit => 2 + nalUnit.length) := by
    induction array.nalUnits with
    | nil => exact Nat.le_refl 0
    | cons nalUnit nalUnits ih =>
      rw [List.map_cons, total_cons, List.length_cons]
      omega
  rw [arraySize]
  omega

/-- Counting the NAL units of a type in one more array. -/
theorem total_lengths_cons (type : NalUnitType) (array : NalUnitArray)
    (arrays : List NalUnitArray) :
    total (((array :: arrays).filter (·.type = type)).map (·.nalUnits.length)) =
      (if array.type = type then array.nalUnits.length else 0) +
        total ((arrays.filter (·.type = type)).map (·.nalUnits.length)) := by
  by_cases htype : array.type = type
  · simp [htype, total_cons]
  · simp [htype]

/-- No array has NAL units of two types, so the sizes of the arrays account for both. -/
theorem two_mul_totals_le_total_arraySize {a b : NalUnitType} (h : a ≠ b)
    (arrays : List NalUnitArray) :
    2 * (total ((arrays.filter (·.type = a)).map (·.nalUnits.length)) +
        total ((arrays.filter (·.type = b)).map (·.nalUnits.length))) ≤
      total (arrays.map arraySize) := by
  induction arrays with
  | nil => exact Nat.le_refl 0
  | cons array arrays ih =>
    have hfirst := two_mul_length_le_arraySize array
    have hone : (if array.type = a then array.nalUnits.length else 0) +
        (if array.type = b then array.nalUnits.length else 0) ≤ array.nalUnits.length := by
      by_cases ha : array.type = a
      · have hb : array.type ≠ b := ha ▸ h
        rw [if_pos ha, if_neg hb, Nat.add_zero]
      · rw [if_neg ha, Nat.zero_add]
        split <;> omega
    rw [total_lengths_cons, total_lengths_cons, List.map_cons, total_cons]
    omega

/-- Every NAL unit takes the two bytes of its length at the least, so that those of two types bound
the size of a record from below. -/
theorem two_mul_counts_le_size (record : DecoderRecord) {a b : NalUnitType} (h : a ≠ b) :
    2 + 2 * (record.count a + record.count b) ≤ record.size := by
  have harrays := two_mul_totals_le_total_arraySize h record.arrays
  rw [count, count, size]
  omega

/-- A record that can be written is not too short to be taken for one. -/
theorem Valid.minInput_le_size {record : DecoderRecord} (h : record.Valid) :
    minInput ≤ record.size := by
  have htypes : NalUnitType.videoParameterSet ≠ .sequenceParameterSet := by decide
  have hsize := record.two_mul_counts_le_size htypes
  have hvideo : 1 ≤ record.count .videoParameterSet := h.minCount_le .video
  have hsequence : 1 ≤ record.count .sequenceParameterSet := h.minCount_le .sequence
  rw [minInput]
  omega

/-- What is written of a record is taken for one. -/
theorem of_encode_eq_ok {record : DecoderRecord} {out : Bytes} (h : record.encode = .ok out) :
    minInput ≤ out.length ∧ isRecordFormat out = true := by
  obtain ⟨hvalid, rfl⟩ := encode_eq_ok_iff.1 h
  rw [length_pack_layout hvalid]
  exact ⟨hvalid.minInput_le_size, isRecordFormat_pack record⟩

/-! ### Inputs that are passed through -/

/-- What is taken for a record is passed through. -/
theorem bytesOf_of_isRecordFormat {data : Bytes} (hlength : minInput ≤ data.length)
    (hformat : isRecordFormat data = true) (options : ConversionOptions) :
    bytesOf options data = .ok data := by
  rw [bytesOf, if_neg (Nat.not_lt.2 hlength), hformat]
  rfl

/-- Whatever is made of an input is taken for a record. -/
theorem of_bytesOf_eq_ok {options : ConversionOptions} {data out : Bytes}
    (h : bytesOf options data = .ok out) : minInput ≤ out.length ∧ isRecordFormat out = true := by
  have hlength : minInput ≤ data.length := by
    rw [bytesOf, Check.throw_bind_eq_ok_iff] at h
    exact Nat.not_lt.1 h.1
  cases hformat : isRecordFormat data with
  | true =>
    rw [bytesOf_of_isRecordFormat hlength hformat] at h
    cases h
    exact ⟨hlength, hformat⟩
  | false =>
    obtain ⟨record, -, hencode⟩ := exists_record_of_bytesOf hformat h
    exact of_encode_eq_ok hencode

/-- The inputs that are passed through do not depend on the options. -/
theorem bytesOf_eq_ok_self_iff {options : ConversionOptions} {data : Bytes} :
    bytesOf options data = .ok data ↔ minInput ≤ data.length ∧ isRecordFormat data = true :=
  ⟨of_bytesOf_eq_ok, fun h => bytesOf_of_isRecordFormat h.1 h.2 options⟩

/-- **Pass-through**: what was made of an input with some options is made of itself with any
options. A record that was built of a byte stream and can be written takes at least the six bytes
that an input has to have, and its bytes are recognised as those of a record, so they are passed
through unchanged. -/
theorem bytesOf_idempotent (options : ConversionOptions) (data : Bytes) :
    (∀ out, bytesOf options data = .ok out → ∀ other, bytesOf other out = .ok out) ∧
    ∀ record out, ofAnnexB options data = .ok record → record.encode = .ok out →
      6 ≤ out.length ∧ isRecordFormat out = true ∧
        ∀ other, bytesOf other out = .ok out := by
  constructor
  · intro out h other
    exact bytesOf_eq_ok_self_iff.2 (of_bytesOf_eq_ok h)
  · intro record out _ hencode
    obtain ⟨hlength, hformat⟩ := of_encode_eq_ok hencode
    exact ⟨hlength, hformat, bytesOf_of_isRecordFormat hlength hformat⟩

/-- The record of a stream with one-byte length fields is passed through by the standard
options. -/
theorem bytesOf_idempotent_one_byte_lengths :
    let options : ConversionOptions := ⟨.one, false, true⟩
    let data : Bytes :=
      [0x00, 0x00, 0x01, 0x00, 0x71, 0x00, 0x00, 0x1F, 0x02, 0x3C, 0x80, 0x00, 0x40,
       0x00, 0x00, 0x01, 0x00, 0x79, 0x00, 0x0D, 0x02, 0x3C, 0x80, 0x00, 0x40, 0x07, 0x81, 0x00,
       0x21, 0xC8, 0xEA, 0xA0]
    let out : Bytes :=
      [0xF9, 0x00, 0x15, 0x5F, 0x01, 0x02, 0x3C, 0x80, 0x00, 0x07, 0x80, 0x04, 0x38, 0x00, 0x00,
       0x02, 0x0E, 0x00, 0x01, 0x00, 0x0A, 0x00, 0x71, 0x00, 0x00, 0x1F, 0x02, 0x3C, 0x80, 0x00,
       0x40, 0x0F, 0x00, 0x01, 0x00, 0x10, 0x00, 0x79, 0x00, 0x0D, 0x02, 0x3C, 0x80, 0x00, 0x40,
       0x07, 0x81, 0x00, 0x21, 0xC8, 0xEA, 0xA0]
    bytesOf options data = .ok out ∧ bytesOf .standard out = .ok out ∧
      ∃ record, ofAnnexB options data = .ok record ∧ record.encode = .ok out ∧
        6 ≤ out.length ∧ isRecordFormat out = true := by
  intro options data out
  have hbytes : bytesOf options data = .ok out := by decide +kernel
  have hformat : isRecordFormat data = false := by decide
  obtain ⟨record, hrecord, hencode⟩ := exists_record_of_bytesOf hformat hbytes
  obtain ⟨hthrough, hbuilt⟩ := bytesOf_idempotent options data
  obtain ⟨hlength, hrecognised, -⟩ := hbuilt record out hrecord hencode
  exact ⟨hbytes, hthrough out hbytes .standard, record, hrecord, hencode, hlength, hrecognised⟩

end DecoderRecord

end H266
