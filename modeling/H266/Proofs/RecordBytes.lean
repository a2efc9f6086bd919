import H266.Proofs.Collecting
import H266.Proofs.RecordRoundTrip

/-!
# Records of Byte Streams

The record that is made of a byte stream with start codes holds the NAL units of the stream
that a record is made of, grouped by type, and nothing else; and what is written of it reads
back as such a record.

## Main results

* `DecoderRecord.encode_eq_ok_iff`: exactly the valid records are written.
* `DecoderRecord.exists_parse_of_bytesOf`: from the bytes of a stream to the arrays of the
  record.
-/

namespace H266

/-! ### Writing -/

namespace DecoderRecord

/-- A record that fails its check is not written: the sink is left as it was. -/
theorem writeTo_of_validate_eq_error {record : DecoderRecord} {error : Error}
    (h : record.validate = .error error) (sink : ByteSink) :
    record.writeTo sink = (.error error, sink) := by
  have hwrite : record.write = throw error := by
    rw [write, h]
    rfl
  rw [writeTo, hwrite]
  rfl

/-- Exactly the valid records are written. -/
theorem encode_eq_ok_iff {record : DecoderRecord} {bytes : Bytes} :
    record.encode = .ok bytes ↔ record.Valid ∧ bytes = Bits.pack record.layout.bits := by
  cases hvalidate : record.validate with
  | error error =>
    have hinvalid : ¬record.Valid := fun h => by
      rw [validate_eq_ok_iff.2 h] at hvalidate
      cases hvalidate
    rw [encode, writeTo_of_validate_eq_error hvalidate]
    constructor
    · intro h
      cases h
    · exact fun h => absurd h.1 hinvalid
  | ok _ =>
    have hvalid := validate_eq_ok_iff.1 hvalidate
    rw [encode_eq_pack hvalid, Except.ok.injEq]
    exact ⟨fun h => ⟨hvalid, h.symm⟩, fun h => h.2.symm⟩

end DecoderRecord

/-! ### Types that are collected -/

namespace NalUnitType

/-- The types that are collected. -/
def collectedTypes : List NalUnitType :=
  [operatingPoint, videoParameterSet, sequenceParameterSet, pictureParameterSet, prefixSei,
    suffixSei]

/-- The types of parameter sets. -/
def parameterSetTypes : List NalUnitType :=
  [videoParameterSet, sequenceParameterSet, pictureParameterSet]

/-- The list holds the types a record takes, and no other. -/
theorem mem_collectedTypes {type : NalUnitType} :
    type ∈ collectedTypes ↔ type.isCollected = true := by
  cases type <;> simp [collectedTypes, isCollected]

/-- The list holds the types of the parameter sets, and no other. -/
theorem mem_parameterSetTypes {type : NalUnitType} :
    type ∈ parameterSetTypes ↔ type.isParameterSet = true := by
  cases type <;> simp [parameterSetTypes, isParameterSet]

end NalUnitType

/-! ### Grouping -/

namespace RecordBuilder

/-- The arrays that a record made of the given NAL units has: one for each type to be
collected that occurs, the types in the order in which they first occur. Those of parameter sets
are marked as complete if that is asked for. -/
def collected (completeArrays : Bool) (nalUnits : List Bytes) : List NalUnitArray :=
  ((nalUnits.filterMap NalUnitType.ofHeaderBytes?).filter
      (· ∈ NalUnitType.collectedTypes)).eraseDups.map fun type =>
    ⟨decide (type ∈ NalUnitType.parameterSetTypes) && completeArrays, type,
      nalUnits.filter fun nalUnit => NalUnitType.ofHeaderBytes? nalUnit = some type⟩

/-- The arrays as a builder makes them. -/
theorem collected_eq (completeArrays : Bool) (nalUnits : List Bytes) :
    collected completeArrays nalUnits =
      ((nalUnits.filterMap NalUnitType.ofHeaderBytes?).filter (·.isCollected)).eraseDups.map
        fun type => ⟨type.isParameterSet && completeArrays, type,
          nalUnits.filter fun nalUnit => NalUnitType.ofHeaderBytes? nalUnit = some type⟩ := by
  simp only [collected, NalUnitType.mem_collectedTypes, NalUnitType.mem_parameterSetTypes,
    Bool.decide_eq_true]

/-- The arrays hold NAL units of types to be collected only, each in the array of its type, and
just those of parameter sets may be marked as complete. -/
theorem of_mem_collected {completeArrays : Bool} {nalUnits : List Bytes} {array : NalUnitArray}
    (h : array ∈ collected completeArrays nalUnits) :
    array.type ∈ NalUnitType.collectedTypes ∧
    (array.complete = true ↔
      array.type ∈ NalUnitType.parameterSetTypes ∧ completeArrays = true) ∧
    ∀ nalUnit ∈ array.nalUnits,
      nalUnit ∈ nalUnits ∧ NalUnitType.ofHeaderBytes? nalUnit = some array.type := by
  obtain ⟨type, htype, rfl⟩ := List.mem_map.1 h
  have hcollected := (List.mem_filter.1 (List.mem_eraseDups.1 htype)).2
  refine ⟨of_decide_eq_true hcollected, by simp, fun nalUnit hmem => ?_⟩
  obtain ⟨hin, hown⟩ := List.mem_filter.1 hmem
  exact ⟨hin, of_decide_eq_true hown⟩

/-- A NAL unit that is not to be collected adds nothing, whichever type it is of. -/
theorem types_and_data_cons_of_not_collected {nalUnit : Bytes} (nalUnits : List Bytes)
    (h : isCollected nalUnit = false) :
    ((nalUnit :: nalUnits).filterMap NalUnitType.ofHeaderBytes?).filter (·.isCollected) =
        (nalUnits.filterMap NalUnitType.ofHeaderBytes?).filter (·.isCollected) ∧
      ∀ type, type.isCollected = true →
        ((nalUnit :: nalUnits).filter fun own => NalUnitType.ofHeaderBytes? own = some type) =
          nalUnits.filter fun own => NalUnitType.ofHeaderBytes? own = some type := by
  rw [isCollected] at h
  cases htype : NalUnitType.ofHeaderBytes? nalUnit with
  | none =>
    refine ⟨by rw [List.filterMap_cons_none htype], fun type _ => ?_⟩
    rw [List.filter_cons_of_neg (by simp [htype])]
  | some own =>
    rw [htype, Option.map_some, Option.getD_some] at h
    constructor
    · rw [List.filterMap_cons_some htype, List.filter_cons_of_neg (by simp [h])]
    · intro type hstored
      have hne : own ≠ type := by
        rintro rfl
        rw [h] at hstored
        cases hstored
      rw [List.filter_cons_of_neg (by simp [htype, hne])]

/-- The NAL units that are accepted have the types that their second bytes state, and are all
of those that are to be collected. -/
theorem types_and_data_of_accept {nalUnits : List Bytes} {accepted : List AcceptedNalUnit}
    (h : (nalUnits.filter isCollected).map accept = accepted.map .ok) :
    accepted.map (·.type) =
        (nalUnits.filterMap NalUnitType.ofHeaderBytes?).filter (·.isCollected) ∧
      ∀ type, type.isCollected = true → (accepted.filter (·.type = type)).map (·.data) =
        nalUnits.filter fun nalUnit => NalUnitType.ofHeaderBytes? nalUnit = some type := by
  induction nalUnits generalizing accepted with
  | nil =>
    have hnil : accepted = [] := List.map_eq_nil_iff.1 h.symm
    subst hnil
    exact ⟨rfl, fun _ _ => rfl⟩
  | cons nalUnit nalUnits ih =>
    cases hcollected : isCollected nalUnit with
    | false =>
      rw [List.filter_cons_of_neg (by simp [hcollected])] at h
      obtain ⟨htypes, hdata⟩ := ih h
      obtain ⟨htypesSame, hdataSame⟩ := types_and_data_cons_of_not_collected nalUnits hcollected
      refine ⟨by rw [htypes, htypesSame], fun type hstored => ?_⟩
      rw [hdata type hstored, hdataSame type hstored]
    | true =>
      rw [List.filter_cons_of_pos hcollected, List.map_cons] at h
      cases accepted with
      | nil => cases h
      | cons first accepted =>
        rw [List.map_cons, List.cons.injEq] at h
        obtain ⟨hfirst, hrest⟩ := h
        obtain ⟨htypes, hdata⟩ := ih hrest
        obtain ⟨hown, hstored, htype, -⟩ := of_accept_eq_ok hfirst
        constructor
        · rw [List.map_cons, htypes, List.filterMap_cons_some htype,
            List.filter_cons_of_pos hstored]
        · intro type htypeStored
          by_cases heq : first.type = type
          · rw [List.filter_cons_of_pos (by simp [heq]), List.map_cons, hdata type htypeStored,
              hown, List.filter_cons_of_pos (by simp [htype, heq])]
          · rw [List.filter_cons_of_neg (by simp [heq]), hdata type htypeStored,
              List.filter_cons_of_neg (by simp [htype, heq])]

/-- The arrays after a run over those NAL units that are to be collected. -/
theorem arrays_of_forM_add {options : ConversionOptions} {nalUnits : List Bytes}
    {builder : RecordBuilder}
    (h : (nalUnits.filter isCollected).forM add (empty options) = (.ok (), builder)) :
    builder.arrays = collected options.completeArrays nalUnits := by
  obtain ⟨accepted, haccepted, hfinal⟩ := of_forM_add_eq_ok h
  obtain ⟨htypes, hdata⟩ := types_and_data_of_accept haccepted
  rw [hfinal, arrays_withNalUnits_empty, grouped, collected_eq, htypes]
  refine List.map_congr_left fun type htype => ?_
  have hstored : type.isCollected = true :=
    (List.mem_filter.1 (List.mem_eraseDups.1 htype)).2
  rw [hdata type hstored]

/-- The arrays of the record that is made of a byte stream. -/
theorem arrays_of_ofAnnexB {options : ConversionOptions} {data : Bytes}
    {builder : RecordBuilder} (h : ofAnnexB options data = .ok builder) :
    builder.arrays = collected options.completeArrays (AnnexB.nalUnits data) := by
  rw [ofAnnexB] at h
  rcases hrun : (addAnnexB data).run (empty options) with ⟨_ | _, final⟩
  · rw [hrun] at h
    cases h
  · rw [hrun] at h
    cases h
    exact arrays_of_forM_add hrun

/-- What a finished record has of its builder. -/
theorem of_finish_eq_ok {builder : RecordBuilder} {record : DecoderRecord}
    (h : builder.finish = .ok record) :
    record.arrays = builder.arrays ∧ ∃ stream, record.stream = some stream ∧
      stream.sublayers = builder.sublayers ∧ stream.profile = builder.profile.record := by
  obtain ⟨width, -, h⟩ := Check.of_bind_eq_ok h
  obtain ⟨height, -, h⟩ := Check.of_bind_eq_ok h
  cases h
  exact ⟨rfl, _, rfl, rfl, rfl⟩

end RecordBuilder

/-! ### Records of byte streams -/

namespace DecoderRecord

/-- The bytes made of a byte stream are those of a record that was built of it. -/
theorem exists_record_of_bytesOf {options : ConversionOptions} {data out : Bytes}
    (hformat : isRecordFormat data = false) (h : bytesOf options data = .ok out) :
    ∃ record, ofAnnexB options data = .ok record ∧ record.encode = .ok out := by
  simp only [bytesOf, Check.throw_bind_eq_ok_iff, hformat, Bool.false_eq_true, if_false] at h
  obtain ⟨-, -, h⟩ := h
  cases hrecord : ofAnnexB options data with
  | error error =>
    rw [hrecord] at h
    cases h
  | ok record =>
    rw [hrecord] at h
    exact ⟨record, rfl, h⟩

/-- **From stream to record**: what is made of a byte stream reads back as a record that passes
its checks, with no byte left over. Its arrays are the NAL units of the stream that are to be
collected, grouped by type; none of another type is among them, and just the arrays of parameter
sets are marked as complete, if the options ask for it. -/
theorem exists_parse_of_bytesOf {options : ConversionOptions} {data out : Bytes}
    (hformat : isRecordFormat data = false) (h : bytesOf options data = .ok out) :
    ∃ record, parse out = .ok (record, []) ∧ record.validate = .ok () ∧
      record.arrays =
        RecordBuilder.collected options.completeArrays (AnnexB.nalUnits data) ∧
      ∀ array ∈ record.arrays, array.type ∈ NalUnitType.collectedTypes ∧
        (array.complete = true ↔
          array.type ∈ [.videoParameterSet, .sequenceParameterSet, .pictureParameterSet] ∧
            options.completeArrays = true) ∧
        ∀ nalUnit ∈ array.nalUnits, NalUnitType.ofHeaderBytes? nalUnit = some array.type := by
  obtain ⟨record, hrecord, hencode⟩ := exists_record_of_bytesOf hformat h
  obtain ⟨hvalid, rfl⟩ := encode_eq_ok_iff.1 hencode
  have hparse := parse_pack hvalid []
  rw [List.append_nil] at hparse
  have harrays : record.arrays =
      RecordBuilder.collected options.completeArrays (AnnexB.nalUnits data) := by
    rw [ofAnnexB] at hrecord
    cases hbuilder : RecordBuilder.ofAnnexB options data with
    | error error =>
      rw [hbuilder] at hrecord
      cases hrecord
    | ok builder =>
      rw [hbuilder] at hrecord
      rw [← RecordBuilder.arrays_of_ofAnnexB hbuilder]
      exact (RecordBuilder.of_finish_eq_ok hrecord).1
  refine ⟨record.normal, hparse, validate_eq_ok_iff.2 hvalid.normal, harrays, fun array hmem => ?_⟩
  have hcollected : array ∈ record.arrays := hmem
  rw [harrays] at hcollected
  obtain ⟨htype, hcomplete, hnalUnits⟩ := RecordBuilder.of_mem_collected hcollected
  exact ⟨htype, hcomplete, fun nalUnit hin => (hnalUnits nalUnit hin).2⟩

/-- A stream of a video and a sequence parameter set. -/
theorem exists_parse_of_bytesOf_two_parameter_sets :
    let data : Bytes :=
      [0x00, 0x00, 0x01, 0x00, 0x71, 0x00, 0x00, 0x1F, 0x02, 0x3C, 0x80, 0x00, 0x40,
       0x00, 0x00, 0x01, 0x00, 0x79, 0x00, 0x0D, 0x02, 0x3C, 0x80, 0x00, 0x40, 0x07, 0x81, 0x00,
       0x21, 0xC8, 0xEA, 0xA0]
    isRecordFormat data = false ∧ ∃ out, bytesOf .standard data = .ok out ∧
      ∃ record, parse out = .ok (record, []) ∧ record.validate = .ok () ∧
        record.arrays = RecordBuilder.collected true (AnnexB.nalUnits data) ∧
        ∀ array ∈ record.arrays, array.type ∈ NalUnitType.collectedTypes ∧
          (array.complete = true ↔
            array.type ∈ [.videoParameterSet, .sequenceParameterSet, .pictureParameterSet] ∧
              ConversionOptions.standard.completeArrays = true) ∧
          ∀ nalUnit ∈ array.nalUnits, NalUnitType.ofHeaderBytes? nalUnit = some array.type := by
  intro data
  have hformat : isRecordFormat data = false := by decide
  have hbytes : bytesOf .standard data = .ok
      [0xFF, 0x00, 0x15, 0x5F, 0x01, 0x02, 0x3C, 0x80, 0x00, 0x07, 0x80, 0x04, 0x38, 0x00, 0x00,
       0x02, 0x8E, 0x00, 0x01, 0x00, 0x0A, 0x00, 0x71, 0x00, 0x00, 0x1F, 0x02, 0x3C, 0x80, 0x00,
       0x40, 0x8F, 0x00, 0x01, 0x00, 0x10, 0x00, 0x79, 0x00, 0x0D, 0x02, 0x3C, 0x80, 0x00, 0x40,
       0x07, 0x81, 0x00, 0x21, 0xC8, 0xEA, 0xA0] := by
    decide +kernel
  exact ⟨hformat, _, hbytes, exists_parse_of_bytesOf hformat hbytes⟩

end DecoderRecord

end H266
