import H266.Proofs.BuiltRecords
import H266.Proofs.LengthPrefixes

/-!
# Separated Parameter Sets

A byte stream can be stored in two parts: a decoder configuration record, which has its parameter
sets, and a stream with length fields, from which they are left out. The two are made in separate
passes. For the stream the type of a NAL unit is read off its second byte, which may be missing;
for the record the header is read in full, and a NAL unit with a malformed header is refused. As
long as nothing is refused the passes agree, so what one of them leaves out is what the other one
has taken in.

## Main results

* `RecordBuilder.flatMap_filter_collected`: what the arrays of a type hold.
* `DecoderRecord.nalUnitsOf_eq`: the same for the record that was built of a byte stream.
* `perm_filter_parameterSets`: NAL units are those that are no parameter sets and those of the
  three kinds.
* `perm_separated`: the two parts have all NAL units of a byte stream between them, and none of
  them twice.
-/

namespace H266

/-! ### NAL units of a type -/

/-- Whether the second byte of a NAL unit states the given type. -/
def statesType (type : NalUnitType) (nalUnit : Bytes) : Bool :=
  NalUnitType.ofHeaderBytes? nalUnit = some type

/-- A NAL unit states one type at the most. -/
theorem statesType_of_ne {a b : NalUnitType} (h : a ≠ b) {nalUnit : Bytes}
    (ha : statesType a nalUnit = true) : statesType b nalUnit = false := by
  rw [statesType, decide_eq_true_eq] at ha
  simp [statesType, ha, h]

/-! ### Arrays of a type -/

/-- Among arrays of different types there is no other of the type of one of them. -/
theorem NalUnitArray.filter_type_eq_singleton {arrays : List NalUnitArray} {array : NalUnitArray}
    (h : (arrays.map (·.type)).Nodup) (hmem : array ∈ arrays) :
    arrays.filter (·.type = array.type) = [array] := by
  induction arrays with
  | nil => cases hmem
  | cons first arrays ih =>
    rw [List.map_cons, List.nodup_cons] at h
    obtain ⟨hfirst, hrest⟩ := h
    rcases List.mem_cons.1 hmem with rfl | hmem
    · have hnone : arrays.filter (·.type = array.type) = [] := by
        rw [List.filter_eq_nil_iff]
        intro other hother htype
        exact hfirst (List.mem_map.2 ⟨other, hother, of_decide_eq_true htype⟩)
      simp [hnone]
    · have hne : first.type ≠ array.type := fun htype =>
        hfirst (List.mem_map.2 ⟨array, hmem, htype.symm⟩)
      rw [List.filter_cons_of_neg (by simp [hne]), ih hrest hmem]

namespace RecordBuilder

/-- All NAL units of a type that is collected are in the arrays of this type. -/
theorem flatMap_filter_collected (completeArrays : Bool) (nalUnits : List Bytes)
    {type : NalUnitType} (h : type.isCollected = true) :
    ((collected completeArrays nalUnits).filter (·.type = type)).flatMap (·.nalUnits) =
      nalUnits.filter (statesType type) := by
  by_cases hoccurs : type ∈ (collected completeArrays nalUnits).map (·.type)
  · obtain ⟨array, hmem, rfl⟩ := List.mem_map.1 hoccurs
    rw [NalUnitArray.filter_type_eq_singleton nodup_types_collected hmem, List.flatMap_singleton,
      nalUnits_eq_of_mem_collected hmem]
    rfl
  · have harrays : (collected completeArrays nalUnits).filter (·.type = type) = [] := by
      rw [List.filter_eq_nil_iff]
      intro array hmem htype
      exact hoccurs (List.mem_map.2 ⟨array, hmem, of_decide_eq_true htype⟩)
    have hnalUnits : nalUnits.filter (statesType type) = [] := by
      rw [List.filter_eq_nil_iff]
      intro nalUnit hmem htype
      exact hoccurs (mem_types_collected.2 ⟨h, nalUnit, hmem, of_decide_eq_true htype⟩)
    rw [harrays, hnalUnits, List.flatMap_nil]

end RecordBuilder

namespace DecoderRecord

/-- The NAL units of a type that a record holds. -/
def nalUnitsOf (record : DecoderRecord) (type : NalUnitType) : List Bytes :=
  (record.arrays.filter (·.type = type)).flatMap (·.nalUnits)

/-- The NAL units counted for a type are those its arrays hold. -/
theorem count_eq_length_nalUnitsOf (record : DecoderRecord) (type : NalUnitType) :
    record.count type = (record.nalUnitsOf type).length := by
  rw [nalUnitsOf, List.length_flatMap]
  rfl

/-- The record that is made of a byte stream has all NAL units of each type that is collected. -/
theorem nalUnitsOf_eq {options : ConversionOptions} {data : Bytes} {record : DecoderRecord}
    (h : ofAnnexB options data = .ok record) {type : NalUnitType}
    (htype : type.isCollected = true) :
    record.nalUnitsOf type = (AnnexB.nalUnits data).filter (statesType type) := by
  obtain ⟨builder, hbuilder, hfinish⟩ := Check.of_bind_eq_ok h
  rw [nalUnitsOf, (RecordBuilder.of_finish_eq_ok hfinish).1,
    RecordBuilder.arrays_of_ofAnnexB hbuilder, RecordBuilder.flatMap_filter_collected _ _ htype]

end DecoderRecord

/-! ### Both parts -/

open LengthPrefixedStream

/-- A parameter set is one of the three types, whichever it is. -/
theorem statesParameterSet_eq : statesParameterSet = fun nalUnit =>
    statesType .videoParameterSet nalUnit || (statesType .sequenceParameterSet nalUnit ||
      statesType .pictureParameterSet nalUnit) := by
  funext nalUnit
  rw [← isParameterSet_eq, isParameterSet, statesType, statesType, statesType]
  cases NalUnitType.ofHeaderBytes? nalUnit with
  | none => rfl
  | some type => cases type <;> rfl

/-- A list is split by two conditions that exclude each other. -/
theorem perm_filter_or {α : Type} (p q : α → Bool) (list : List α)
    (h : ∀ x ∈ list, p x = true → q x = false) :
    (list.filter fun x => p x || q x).Perm (list.filter p ++ list.filter q) := by
  have hfirst : (list.filter fun x => p x || q x).filter p = list.filter p := by
    rw [List.filter_filter]
    exact List.filter_congr fun x _ => by cases p x <;> rfl
  have hsecond : (list.filter fun x => p x || q x).filter (fun x => !p x) = list.filter q := by
    rw [List.filter_filter]
    refine List.filter_congr fun x hmem => ?_
    cases hp : p x with
    | true => rw [h x hmem hp]; rfl
    | false => rfl
  have hsplit := List.filter_append_perm p (list.filter fun x => p x || q x)
  rw [hfirst, hsecond] at hsplit
  exact hsplit.symm

/-- NAL units are those that are no parameter sets and those of the three kinds. -/
theorem perm_filter_parameterSets (nalUnits : List Bytes) : nalUnits.Perm
    (nalUnits.filter (fun nalUnit => !statesParameterSet nalUnit) ++
      (nalUnits.filter (statesType .videoParameterSet) ++
        (nalUnits.filter (statesType .sequenceParameterSet) ++
          nalUnits.filter (statesType .pictureParameterSet)))) := by
  have hsplit : nalUnits.Perm (nalUnits.filter (fun nalUnit => !statesParameterSet nalUnit) ++
      nalUnits.filter statesParameterSet) :=
    (List.filter_append_perm statesParameterSet nalUnits).symm.trans List.perm_append_comm
  have hvideo := perm_filter_or (statesType .videoParameterSet)
    (fun nalUnit => statesType .sequenceParameterSet nalUnit ||
      statesType .pictureParameterSet nalUnit) nalUnits fun nalUnit _ h => by
    rw [statesType_of_ne (by decide) h, statesType_of_ne (by decide) h]
    rfl
  have hsequence := perm_filter_or (statesType .sequenceParameterSet)
    (statesType .pictureParameterSet) nalUnits fun nalUnit _ => statesType_of_ne (by decide)
  rw [← statesParameterSet_eq] at hvideo
  exact hsplit.trans ((hvideo.trans (hsequence.append_left _)).append_left _)

/-- **Separation**: if the parameter sets are left out of the stream with length fields, they are
those of the record. What was left out is counted as what the record has of the three types; the
NAL units of the byte stream are those read of the one part and those of the three types in the
other, each as often as it occurs; and no NAL unit of the stream with length fields is a parameter
set, be it told by its second byte or by its header. -/
theorem perm_separated {options : ConversionOptions} {data : Bytes} {record : DecoderRecord}
    {stream : LengthPrefixedStream} (hfilter : options.filterParameterSets = true)
    (hrecord : DecoderRecord.ofAnnexB options data = .ok record)
    (hstream : LengthPrefixedStream.ofAnnexB options data = .ok stream) :
    stream.dropped = record.count .videoParameterSet + record.count .sequenceParameterSet +
        record.count .pictureParameterSet ∧
      ∃ kept, nalUnits? options.lengthSize stream.data = some kept ∧
        (AnnexB.nalUnits data).Perm (kept ++ (record.nalUnitsOf .videoParameterSet ++
          (record.nalUnitsOf .sequenceParameterSet ++ record.nalUnitsOf .pictureParameterSet))) ∧
        ∀ nalUnit ∈ kept, statesParameterSet nalUnit = false ∧
          ∀ header payload, NalUnitHeader.split nalUnit = .ok (header, payload) →
            header.type.isParameterSet = false := by
  obtain ⟨-, hread, hcount⟩ := of_ofAnnexB_eq_ok hstream
  have hkept : keptNalUnits options data =
      (AnnexB.nalUnits data).filter fun nalUnit => !statesParameterSet nalUnit := by
    rw [keptNalUnits, hfilter]
    rfl
  have hperm := perm_filter_parameterSets (AnnexB.nalUnits data)
  rw [← hkept, ← DecoderRecord.nalUnitsOf_eq hrecord rfl, ← DecoderRecord.nalUnitsOf_eq hrecord rfl,
    ← DecoderRecord.nalUnitsOf_eq hrecord rfl] at hperm
  refine ⟨?_, keptNalUnits options data, hread, hperm, fun nalUnit hmem => ?_⟩
  · have hlength := hperm.length_eq
    simp only [List.length_append, ← DecoderRecord.count_eq_length_nalUnitsOf] at hlength
    omega
  · rw [hkept] at hmem
    have hother : statesParameterSet nalUnit = false := by
      simpa using (List.mem_filter.1 hmem).2
    refine ⟨hother, fun header payload hsplit => ?_⟩
    rwa [← isParameterSet_eq, isParameterSet,
      NalUnitHeader.ofHeaderBytes?_of_split hsplit] at hother

/-- A stream with a second picture parameter set after a slice, and with a NAL unit that is too
short to state a type. -/
theorem perm_separated_short_nalUnit :
    let options : ConversionOptions := ⟨.two, true, true⟩
    let data : Bytes :=
      [0x00, 0x00, 0x01, 0x00, 0x71, 0x00, 0x00, 0x1F, 0x02, 0x3C, 0x80, 0x00, 0x40,
       0x00, 0x00, 0x01, 0x00, 0x79, 0x00, 0x0D, 0x02, 0x3C, 0x80, 0x00, 0x40, 0x07, 0x81, 0x00,
       0x21, 0xC8, 0xEA, 0xA0,
       0x00, 0x00, 0x01, 0x00, 0x81, 0x11, 0x00, 0x00, 0x01, 0x00, 0x09, 0xCD,
       0x00, 0x00, 0x01, 0x00, 0x82, 0x22, 0x00, 0x00, 0x01, 0x42]
    options.filterParameterSets = true ∧ ∃ record stream,
      DecoderRecord.ofAnnexB options data = .ok record ∧
      LengthPrefixedStream.ofAnnexB options data = .ok stream ∧ stream.dropped = 4 ∧
      ∃ kept, nalUnits? options.lengthSize stream.data = some kept ∧
        (AnnexB.nalUnits data).Perm (kept ++ (record.nalUnitsOf .videoParameterSet ++
          (record.nalUnitsOf .sequenceParameterSet ++ record.nalUnitsOf .pictureParameterSet))) ∧
        ∀ nalUnit ∈ kept, statesParameterSet nalUnit = false := by
  intro options data
  have hcounts : (DecoderRecord.ofAnnexB options data).toOption.map (fun record =>
      (record.count .videoParameterSet, record.count .sequenceParameterSet,
        record.count .pictureParameterSet)) = some (1, 1, 2) := by
    decide +kernel
  have hconverts : (LengthPrefixedStream.ofAnnexB options data).isOk = true := by
    decide +kernel
  have hfilter : options.filterParameterSets = true := rfl
  clear_value options data
  rcases hrecord : DecoderRecord.ofAnnexB options data with error | record
  · rw [hrecord] at hcounts
    cases hcounts
  rcases hstream : LengthPrefixedStream.ofAnnexB options data with error | stream
  · rw [hstream] at hconverts
    cases hconverts
  obtain ⟨hdropped, kept, hread, hperm, hkept⟩ := perm_separated hfilter hrecord hstream
  rw [hrecord] at hcounts
  obtain ⟨hvideo, hpair⟩ := Prod.mk.inj (Option.some.inj hcounts)
  obtain ⟨hsequence, hpicture⟩ := Prod.mk.inj hpair
  rw [hvideo, hsequence, hpicture] at hdropped
  exact ⟨hfilter, record, stream, rfl, rfl, hdropped, kept, hread, hperm,
    fun nalUnit hmem => (hkept nalUnit hmem).1⟩

end H266
