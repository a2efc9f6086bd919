import H266.Proofs.BitWriter
import H266.Proofs.ProfileRecord
import H266.Record.Reader

/-!
# Record Round Trip

A valid record is written, and read back from what was written whatever bytes come after it,
but for what its profile record has no room for.

## Main results

* `DecoderRecord.encode_eq_pack`: what is written of a valid record.
* `DecoderRecord.parse_pack`: what is read of it, and that the bytes after it are left over.
* `DecoderRecord.exists_encode_parse`: both together, for every record that passes its checks.
-/

namespace H266

open BitReader

/-! ### Normal forms -/

/-- What is left of a description of a stream once it is written and read back. -/
def StreamInfo.normal (stream : StreamInfo) : StreamInfo :=
  { stream with profile := stream.profile.normal stream.sublayers }

/-- What reading leaves of a valid description is valid. -/
theorem StreamInfo.Valid.normal {stream : StreamInfo} (h : stream.Valid) :
    stream.normal.Valid :=
  ⟨h.olsIndex_le, h.sublayers_le, h.chromaFormat_le, h.bitDepthMinus8_le,
    h.profile.normal stream.sublayers⟩

namespace DecoderRecord

/-- What is left of a record once it is written and read back. -/
def normal (record : DecoderRecord) : DecoderRecord :=
  { record with stream := record.stream.map StreamInfo.normal }

/-- What reading leaves of a valid record is valid. -/
theorem Valid.normal {record : DecoderRecord} (h : record.Valid) : record.normal.Valid := by
  refine ⟨h.lengthSize, h.minCount_le, h.count_le, h.arrays_le, h.arrays, fun stream hstream => ?_⟩
  obtain ⟨original, horiginal, rfl⟩ := Option.map_eq_some_iff.1 hstream
  exact (h.stream original horiginal).normal

/-! ### Reading -/

/-- A NAL unit is read if its length has a field. -/
theorem decodes_readNalUnit {nalUnit : Bytes} (h : nalUnit.length ≤ 65535) :
    Decodes readNalUnit (nalUnitLayout nalUnit) nalUnit := by
  refine (decodes_readUInt16_ofNat (by omega)).cons ?_
  have hlength : (UInt16.ofNat nalUnit.length).toNat = nalUnit.length :=
    UInt16.toNat_ofNat_of_lt' (Nat.lt_succ_of_le h)
  rw [hlength]
  exact decodes_readBytes nalUnit

/-- An array is read back, of whichever type it is. -/
theorem decodes_readArray {array : NalUnitArray} (h : array.Valid) :
    Decodes readArray (arrayLayout array) array := by
  have hcount : (UInt16.ofNat array.nalUnits.length).toNat = array.nalUnits.length :=
    UInt16.toNat_ofNat_of_lt' (Nat.lt_succ_of_le h.count_le)
  have hreadCount : Decodes (readIf (!array.type.isSingle) readUInt16 1)
      (if array.type.isSingle then [] else [.bytes (Bytes.ofNat 2 array.nalUnits.length)])
      (UInt16.ofNat array.nalUnits.length) := by
    refine decodes_readIf (fun hmany => ?_) fun hsingle => ?_
    · rw [if_neg (by simpa using hmany)]
      exact decodes_readUInt16_ofNat (Nat.lt_succ_of_le h.count_le)
    · have hone : array.type.isSingle = true := by simpa using hsingle
      rw [if_pos hone, h.single hone]
      exact ⟨rfl, rfl⟩
  have hnalUnits := decodes_readTimes array.nalUnits
    fun nalUnit hmem => decodes_readNalUnit (h.length_le nalUnit hmem)
  rw [List.map_id'] at hnalUnits
  simp only [arrayLayout, List.cons_append, List.nil_append]
  refine (decodes_readBit array.complete).cons ((decodes_skipNumber 0 2).cons
    ((decodes_readBits array.type.code 5).cons ?_))
  simp only [NalUnitType.ofCode_code, h.storable, Bool.not_true, Bool.false_eq_true, if_false]
  refine hreadCount.bind ?_
  rw [hcount]
  exact hnalUnits.bind_nil (decodes_pure _)

/-- The description of the stream is read. -/
theorem decodes_readStream {stream : StreamInfo} (h : stream.Valid) :
    Decodes readStream (streamLayout stream) stream.normal := by
  simp only [streamLayout, streamHeadLayout, List.cons_append, List.nil_append]
  refine (decodes_readBits _ 9).cons ((decodes_readBits _ 3).cons ((decodes_readBits _ 2).cons
    ((decodes_readBits _ 2).cons ((decodes_readBits _ 3).cons ((decodes_skipNumber _ 5).cons
    ((ProfileRecord.decodes_read h.profile _).bind ((decodes_readUInt16 _).cons
    ((decodes_readUInt16 _).cons ((decodes_readUInt16 _).bind_nil ?_)))))))))
  rw [FrameRate.ofCode_code]
  exact decodes_pure _

/-- The written form of a valid record is decoded to the normal form of the record. -/
theorem decodes_read {record : DecoderRecord} (h : record.Valid) :
    Decodes read record.layout record.normal := by
  have hcount : (UInt8.ofNat record.arrays.length).toNat = record.arrays.length :=
    UInt8.toNat_ofNat_of_lt' (Nat.lt_succ_of_le h.arrays_le)
  have hstream : Decodes (readIf record.stream.isSome (some <$> readStream) none)
      ((record.stream.map streamLayout).getD []) (record.stream.map StreamInfo.normal) := by
    cases hs : record.stream with
    | none => exact decodes_pure none
    | some stream => exact (decodes_readStream (h.stream stream hs)).map some
  have harrays := decodes_readTimes record.arrays
    fun array hmem => decodes_readArray (h.arrays array hmem)
  rw [List.map_id'] at harrays
  have hsize : record.lengthSizeMinus1 ≠ 2 := by
    have := h.lengthSize
    rintro htwo
    simp [htwo] at this
  simp only [layout, List.append_assoc, List.cons_append, List.nil_append]
  refine (decodes_readBits 0b11111 5).cons ?_
  rw [if_neg (fun hne => hne rfl)]
  refine (decodes_readBits record.lengthSizeMinus1 2).cons ?_
  rw [if_neg hsize]
  refine (decodes_readBit record.stream.isSome).cons (hstream.bind
    ((decodes_readUInt8_ofNat (Nat.lt_succ_of_le h.arrays_le)).cons ?_))
  rw [hcount]
  exact harrays.bind_nil (decodes_pure _)

/-! ### The written form -/

/-- The numbers of an array always fit. -/
theorem fits_arrayLayout {array : NalUnitArray} : (arrayLayout array).Fits := by
  have hcode := array.type.code_lt
  rw [arrayLayout]
  split <;> simp [nalUnitLayout, hcode]

/-- Those of a valid description of the stream fit. -/
theorem fits_streamLayout {stream : StreamInfo} (h : stream.Valid) :
    (streamLayout stream).Fits := by
  have hols := h.olsIndex_le
  have hsublayers := h.sublayers_le
  have hchroma := h.chromaFormat_le
  have hdepth := h.bitDepthMinus8_le
  have hrate : stream.frameRate.code < 4 := by
    cases stream.frameRate <;> decide
  simp [streamLayout, streamHeadLayout, ProfileRecord.fits_layout h.profile]
  omega

/-- All numbers of a valid record fit. -/
theorem fits_layout {record : DecoderRecord} (h : record.Valid) : record.layout.Fits := by
  have hstream : Layout.Fits ((record.stream.map streamLayout).getD []) := by
    cases hs : record.stream with
    | none => exact Layout.fits_nil
    | some stream => exact fits_streamLayout (h.stream stream hs)
  have hsize : record.lengthSizeMinus1 < 4 := by
    have := h.lengthSize
    simp at this
    omega
  simp [layout, hstream, hsize, fits_arrayLayout]

/-- An array fills as many bytes as its size says. -/
theorem fills_arrayLayout (array : NalUnitArray) :
    (arrayLayout array).Fills (arraySize array) := by
  have hhead : Layout.Fills [.flag array.complete, .number 0 2, .number array.type.code 5] 1 := by
    intro position _
    simp [Layout.bitsAt_cons, Item.bitsAt]
  have hcount : Layout.Fills
      (if array.type.isSingle then [] else [.bytes (Bytes.ofNat 2 array.nalUnits.length)])
      (if array.type.isSingle then 0 else 2) := by
    split
    · exact Layout.fills_nil
    · exact Layout.fills_bytes (Bytes.ofNat 2 array.nalUnits.length)
  have hnalUnits := Layout.fills_flatMap array.nalUnits fun nalUnit _ =>
    (Layout.fills_bytes (Bytes.ofNat 2 nalUnit.length)).append (Layout.fills_bytes nalUnit)
  exact (hhead.append hcount).append hnalUnits

/-- What comes before profile, tier and level fills three bytes. -/
theorem fills_streamHeadLayout (stream : StreamInfo) : (streamHeadLayout stream).Fills 3 := by
  intro position _
  simp [streamHeadLayout, Layout.bitsAt_cons, Item.bitsAt]

/-- A valid description of the stream fills as many bytes as its size says. -/
theorem fills_streamLayout {stream : StreamInfo} (h : stream.Valid) :
    (streamLayout stream).Fills (streamSize stream) := by
  have hhead := fills_streamHeadLayout stream
  have hsizes := ((Layout.fills_bytes (Bytes.ofNat 2 stream.maxWidth.toNat)).append
    (Layout.fills_bytes (Bytes.ofNat 2 stream.maxHeight.toNat))).append
      (Layout.fills_bytes (Bytes.ofNat 2 stream.averageFrameRate.toNat))
  exact (hhead.append (ProfileRecord.fills_layout h.profile stream.sublayers)).append hsizes

/-- The first byte of a record. -/
theorem fills_headLayout (lengthSizeMinus1 : Nat) (streamPresent : Bool) : Layout.Fills
    [.number 0b11111 5, .number lengthSizeMinus1 2, .flag streamPresent] 1 := by
  intro position _
  simp [Layout.bitsAt_cons, Item.bitsAt]

/-- The written form of a record fills as many bytes as the size of the record. -/
theorem fills_layout {record : DecoderRecord}
    (h : ∀ stream, record.stream = some stream → stream.Valid) :
    record.layout.Fills record.size := by
  have hhead := fills_headLayout record.lengthSizeMinus1 record.stream.isSome
  have hstream : Layout.Fills ((record.stream.map streamLayout).getD [])
      ((record.stream.map streamSize).getD 0) := by
    cases hs : record.stream with
    | none => exact Layout.fills_nil
    | some stream => exact fills_streamLayout (h stream hs)
  have harrays := Layout.fills_flatMap record.arrays fun array _ => fills_arrayLayout array
  exact ((hhead.append hstream).append
    (Layout.fills_bytes (Bytes.ofNat 1 record.arrays.length))).append harrays

/-! ### Round trip -/

/-- What is written of a valid record. -/
theorem encode_eq_pack {record : DecoderRecord} (h : record.Valid) :
    record.encode = .ok (Bits.pack record.layout.bits) := by
  rw [← BitWriter.encode_eq_pack (fits_layout h)]
  have hwrite : record.write = BitWriter.writeLayout record.layout := by
    rw [write, validate_eq_ok_iff.2 h]
    rfl
  rw [encode, writeTo, hwrite]
  rfl

/-- What is written of a valid record takes as many bytes as the record says. -/
theorem length_pack_layout {record : DecoderRecord} (h : record.Valid) :
    (Bits.pack record.layout.bits).length = record.size := by
  have hlength : record.layout.bits.length = 8 * record.size := fills_layout h.stream 0 rfl
  rw [Bits.length_pack, hlength]
  omega

/-- A valid record is read back, and the bytes after it are left over. -/
theorem parse_pack {record : DecoderRecord} (h : record.Valid) (tail : Bytes) :
    parse (Bits.pack record.layout.bits ++ tail) = .ok (record.normal, tail) := by
  have hlength : record.layout.bits.length = 8 * record.size := fills_layout h.stream 0 rfl
  have hwhole : record.layout.bits.length % 8 = 0 := by omega
  obtain ⟨reader, hread, hunread⟩ :=
    (decodes_read h).run_ofBytes (fits_layout h) hwhole tail
  rw [parse, hread, ← hunread]
  rfl

/-- A byte string is recognised as a record by its first byte, whatever follows. -/
theorem isRecordFormat_pack_append (lengthSizeMinus1 : Nat) (streamPresent : Bool)
    (layout : Layout) (tail : Bytes) :
    isRecordFormat (Bits.pack (Layout.bits
      (.number 0b11111 5 :: .number lengthSizeMinus1 2 :: .flag streamPresent :: layout))
        ++ tail) = true := by
  have hfirst : ∃ a b c rest, Layout.bits
      (.number 0b11111 5 :: .number lengthSizeMinus1 2 :: .flag streamPresent :: layout) =
        [true, true, true, true, true, a, b, c] ++ rest :=
    ⟨_, _, _, _, rfl⟩
  obtain ⟨a, b, c, rest, hbits⟩ := hfirst
  have hbyte : 0xF8 ≤ Bits.toByte [true, true, true, true, true, a, b, c] := by
    cases a <;> cases b <;> cases c <;> decide
  rw [hbits, Bits.pack_append rfl]
  exact decide_eq_true hbyte

/-- The written form of a record is recognised as one by its first byte. -/
theorem isRecordFormat_pack (record : DecoderRecord) :
    isRecordFormat (Bits.pack record.layout.bits) = true := by
  rw [← List.append_nil (Bits.pack record.layout.bits), layout, List.append_assoc,
    List.append_assoc]
  exact isRecordFormat_pack_append _ _ _ []

/-- **Round trip**: a record that passes its checks is written to bytes that are recognised as
a record. Whatever bytes come after them, they are read back as the normal form of the record,
and nothing of what comes after is touched; so a record in normal form is read back as it
is. -/
theorem exists_encode_parse {record : DecoderRecord} (h : record.validate = .ok ()) :
    ∃ bytes, record.encode = .ok bytes ∧ isRecordFormat bytes = true ∧
      (∀ tail, parse (bytes ++ tail) = .ok (record.normal, tail)) ∧
      (record = record.normal → parse bytes = .ok (record, [])) := by
  have hvalid := validate_eq_ok_iff.1 h
  refine ⟨Bits.pack record.layout.bits, encode_eq_pack hvalid, isRecordFormat_pack record,
    parse_pack hvalid, fun hnormal => ?_⟩
  have hparse := parse_pack hvalid []
  rwa [List.append_nil, ← hnormal] at hparse

/-- A record of a stream with three sublayers, the constraints information of which ends with
set bits. -/
theorem exists_encode_parse_three_sublayers :
    let record : DecoderRecord :=
      { lengthSizeMinus1 := 3
        stream := some ⟨0, 3, .constant, 1, 2,
          { ProfileRecord.empty with level := 67, constraintInfo := [0xFF] }, 1920, 1080, 0⟩
        arrays := [⟨true, .videoParameterSet, [[0, 0x71]]⟩,
          ⟨true, .sequenceParameterSet, [[0, 0x79]]⟩] }
    record.validate = .ok () ∧
      ∃ bytes, record.encode = .ok bytes ∧ isRecordFormat bytes = true ∧
        (∀ tail, parse (bytes ++ tail) = .ok (record.normal, tail)) ∧
        (record = record.normal → parse bytes = .ok (record, [])) := by
  intro record
  have hvalidate : record.validate = .ok () := by decide
  exact ⟨hvalidate, exists_encode_parse hvalidate⟩

end DecoderRecord

end H266
