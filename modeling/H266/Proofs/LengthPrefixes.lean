import H266.Conversion
import H266.Proofs.Consuming

/-!
# Reading Streams with Length Fields

A stream in which each NAL unit follows its length is read without looking into the NAL units:
as many bytes as a length field has, then as many as it states, again and again until nothing is
left. This is a second account of such streams beside the conversion that makes them, and the two
are each other's inverse.

Whether a conversion leaves a NAL unit out is told by the second byte alone, which is the one that
states the type. The length of a NAL unit that is left out does not matter, since no length field
has to state it.

## Main results

* `LengthPrefixedStream.nalUnits?_eq_some_iff`: what is read of a stream.
* `LengthPrefixedStream.of_ofAnnexB_eq_ok`, `LengthPrefixedStream.of_ofAnnexB_eq_error`: how a
  conversion ends.
* `LengthPrefixedStream.keptNalUnits_ofAnnexB`: when a byte stream can be converted, and what is
  read of the result.
-/

namespace H266

namespace LengthSize

/-- A length field has a byte at least. -/
theorem bytes_pos (size : LengthSize) : 0 < size.bytes := by
  cases size <;> decide

/-- The largest number that a length field can hold. -/
theorem maxLength_eq (size : LengthSize) : size.maxLength = 2 ^ (8 * size.bytes) - 1 := by
  cases size <;> rfl

/-- The lengths that a length field can state are the numbers that its bytes denote. -/
theorem le_maxLength_iff {size : LengthSize} {length : Nat} :
    length ≤ size.maxLength ↔ length < 256 ^ size.bytes := by
  have hpow : 2 ^ (8 * size.bytes) = 256 ^ size.bytes := Nat.pow_mul 2 8 size.bytes
  have hpos : 0 < 256 ^ size.bytes := Nat.pow_pos (by decide)
  rw [maxLength_eq, hpow]
  omega

end LengthSize

namespace LengthPrefixedStream

variable {size : LengthSize}

/-! ### Parameter sets by their second bytes -/

/-- Whether the second byte of a NAL unit states one of the types 14, 15 and 16, which are those
of video, sequence and picture parameter sets. -/
def statesParameterSet (nalUnit : Bytes) : Bool :=
  nalUnit[1]?.any fun second => second.toNat / 8 ∈ [14, 15, 16]

/-- A parameter set is told by the type that its second byte states. -/
theorem isParameterSet_eq (nalUnit : Bytes) :
    isParameterSet nalUnit = statesParameterSet nalUnit := by
  have hcodes : ∀ code < 32, (NalUnitType.ofCode code).isParameterSet =
      decide (code ∈ [14, 15, 16]) := by decide
  cases nalUnit with
  | nil => rfl
  | cons first nalUnit =>
    cases nalUnit with
    | nil => rfl
    | cons second nalUnit =>
      have hlt := second.toNat_lt
      exact hcodes (second.toNat / 8) (by omega)

/-- The NAL units of a byte stream that a conversion is to keep: all of them, or all but the
parameter sets. -/
def keptNalUnits (options : ConversionOptions) (data : Bytes) : List Bytes :=
  (AnnexB.nalUnits data).filter fun nalUnit =>
    !(options.filterParameterSets && statesParameterSet nalUnit)

/-! ### Reading -/

/-- The NAL unit that a stream begins with, read by its length, and what comes after it. -/
def first? (size : LengthSize) (data : Bytes) : Option (Bytes × Bytes) :=
  let length := Bytes.toNat (data.take size.bytes)
  if size.bytes + length ≤ data.length then
    some ((data.drop size.bytes).take length, data.drop (size.bytes + length))
  else
    none

/-- A NAL unit after its length. -/
def delimited (size : LengthSize) (nalUnit : Bytes) : Bytes :=
  Bytes.ofNat size.bytes nalUnit.length ++ nalUnit

/-- A length field comes before the bytes of a NAL unit. -/
theorem length_delimited (nalUnit : Bytes) :
    (delimited size nalUnit).length = size.bytes + nalUnit.length := by
  rw [delimited, List.length_append, Bytes.length_ofNat]

/-- The reader of one NAL unit inverts the writer of it, in both directions. -/
theorem first?_eq_some_iff {data nalUnit rest : Bytes} : first? size data = some (nalUnit, rest) ↔
    nalUnit.length ≤ size.maxLength ∧ data = delimited size nalUnit ++ rest := by
  constructor
  · intro h
    rw [first?] at h
    obtain ⟨hle, hparts⟩ := Option.ite_none_right_eq_some.1 h
    obtain ⟨rfl, rfl⟩ := Prod.mk.inj (Option.some.inj hparts)
    have hfield : (data.take size.bytes).length = size.bytes := by
      rw [List.length_take]
      omega
    have hlength : ((data.drop size.bytes).take (Bytes.toNat (data.take size.bytes))).length =
        Bytes.toNat (data.take size.bytes) := by
      rw [List.length_take, List.length_drop]
      omega
    have hlt := Bytes.toNat_lt (data.take size.bytes)
    have hbytes := Bytes.ofNat_toNat (data.take size.bytes)
    rw [hfield] at hlt hbytes
    rw [delimited, hlength, hbytes, LengthSize.le_maxLength_iff, List.append_assoc,
      ← List.drop_drop, List.take_append_drop, List.take_append_drop]
    exact ⟨hlt, rfl⟩
  · rintro ⟨hle, rfl⟩
    have hfield : (Bytes.ofNat size.bytes nalUnit.length).length = size.bytes :=
      Bytes.length_ofNat _ _
    have hlength := Bytes.toNat_ofNat (LengthSize.le_maxLength_iff.1 hle)
    rw [first?, delimited, List.append_assoc, List.take_left' hfield, hlength, ← List.drop_drop,
      List.drop_left' hfield, List.take_left, List.drop_left, if_pos]
    simp only [List.length_append, hfield]
    omega

/-- What comes after a NAL unit is shorter than the stream. -/
theorem length_lt_of_first? {data nalUnit rest : Bytes}
    (h : first? size data = some (nalUnit, rest)) : rest.length < data.length := by
  have hpos := size.bytes_pos
  rw [(first?_eq_some_iff.1 h).2, List.length_append, length_delimited]
  omega

/-- The NAL units of a stream, if their lengths leave no bytes over. -/
def nalUnits? (size : LengthSize) (data : Bytes) : Option (List Bytes) :=
  if data.isEmpty then
    some []
  else
    match h : first? size data with
    | none => none
    | some (nalUnit, rest) =>
      have := length_lt_of_first? h
      (nalUnits? size rest).map (nalUnit :: ·)
termination_by data.length

theorem nalUnits?_nil : nalUnits? size [] = some [] := by
  rw [nalUnits?]
  rfl

/-- A NAL unit behind its length is found, whatever follows it. -/
theorem nalUnits?_delimited_append {nalUnit : Bytes} (h : nalUnit.length ≤ size.maxLength)
    (rest : Bytes) : nalUnits? size (delimited size nalUnit ++ rest) =
      (nalUnits? size rest).map (nalUnit :: ·) := by
  have hfirst : first? size (delimited size nalUnit ++ rest) = some (nalUnit, rest) :=
    first?_eq_some_iff.2 ⟨h, rfl⟩
  have hne : (delimited size nalUnit ++ rest).isEmpty = false := by
    have hpos := size.bytes_pos
    rw [List.isEmpty_eq_false_iff, ← List.length_pos_iff, List.length_append, length_delimited]
    omega
  rw [nalUnits?, hne]
  simp only [Bool.false_eq_true, if_false]
  split
  · rename_i hnone
    rw [hfirst] at hnone
    cases hnone
  · rename_i own more hsome
    rw [hfirst] at hsome
    cases hsome
    rfl

/-- Reading a stream inverts writing its NAL units one after the other, in both directions. -/
theorem nalUnits?_eq_some_iff {data : Bytes} {nalUnits : List Bytes} :
    nalUnits? size data = some nalUnits ↔
      (∀ nalUnit ∈ nalUnits, nalUnit.length ≤ size.maxLength) ∧
        data = nalUnits.flatMap (delimited size) := by
  constructor
  · intro h
    fun_induction nalUnits? size data generalizing nalUnits with
    | case1 data hempty =>
      cases h
      exact ⟨fun _ hmem => absurd hmem List.not_mem_nil, List.isEmpty_iff.1 hempty⟩
    | case2 => cases h
    | case3 data _ nalUnit rest hfirst _ ih =>
      obtain ⟨nalUnits, hrest, rfl⟩ := Option.map_eq_some_iff.1 h
      obtain ⟨hle, hdata⟩ := first?_eq_some_iff.1 hfirst
      obtain ⟨hall, hnalUnits⟩ := ih hrest
      rw [List.flatMap_cons, ← hnalUnits]
      exact ⟨List.forall_mem_cons.2 ⟨hle, hall⟩, hdata⟩
  · rintro ⟨hall, rfl⟩
    induction nalUnits with
    | nil => exact nalUnits?_nil
    | cons nalUnit nalUnits ih =>
      obtain ⟨hle, hrest⟩ := List.forall_mem_cons.1 hall
      rw [List.flatMap_cons, nalUnits?_delimited_append hle, ih hrest]
      rfl

/-! ### Converting -/

/-- A NAL unit that is not too long is put behind its length. -/
theorem delimit_of_le {nalUnit : Bytes} (h : nalUnit.length ≤ size.maxLength) :
    delimit size nalUnit = .ok (delimited size nalUnit) :=
  if_neg (Nat.not_lt.2 h)

/-- NAL units that all fit are written one after the other. -/
theorem mapM_delimit_of_find?_eq_none {nalUnits : List Bytes}
    (h : nalUnits.find? (size.maxLength < ·.length) = none) :
    nalUnits.mapM (delimit size) = .ok (nalUnits.map (delimited size)) := by
  induction nalUnits with
  | nil => rfl
  | cons nalUnit nalUnits ih =>
    rw [List.find?_cons] at h
    by_cases hlong : size.maxLength < nalUnit.length
    · simp [hlong] at h
    · simp only [hlong, decide_false] at h
      rw [List.mapM_cons, delimit_of_le (Nat.not_lt.1 hlong), ih h]
      rfl

/-- The first NAL unit that is too long ends the conversion, however those after it are. -/
theorem mapM_delimit_of_find?_eq_some {nalUnits : List Bytes} {nalUnit : Bytes}
    (h : nalUnits.find? (size.maxLength < ·.length) = some nalUnit) :
    nalUnits.mapM (delimit size) =
      .error (.invalidData (.nalUnitTooLong nalUnit.length size.bytes)) := by
  induction nalUnits with
  | nil => cases h
  | cons first nalUnits ih =>
    rw [List.find?_cons] at h
    by_cases hlong : size.maxLength < first.length
    · simp only [hlong, decide_true, Option.some.injEq] at h
      rw [List.mapM_cons, delimit, if_pos hlong, h]
      rfl
    · simp only [hlong, decide_false] at h
      rw [List.mapM_cons, delimit_of_le (Nat.not_lt.1 hlong), ih h]
      rfl

/-- The NAL units that are kept are those that are not dropped. -/
theorem keptNalUnits_eq (options : ConversionOptions) (data : Bytes) :
    keptNalUnits options data =
      (AnnexB.nalUnits data).filter fun nalUnit => !isDropped options nalUnit := by
  refine List.filter_congr fun nalUnit _ => ?_
  rw [isDropped, isParameterSet_eq]

/-- A conversion writes the NAL units to keep and counts the others. -/
theorem ofAnnexB_eq (options : ConversionOptions) (data : Bytes) :
    ofAnnexB options data =
      ((keptNalUnits options data).mapM (delimit options.lengthSize)).map fun parts =>
        ⟨parts.flatten, (AnnexB.nalUnits data).countP (isDropped options)⟩ := by
  rw [ofAnnexB, ← keptNalUnits_eq]
  rcases (keptNalUnits options data).mapM (delimit options.lengthSize) with error | parts <;> rfl

/-- Every NAL unit is either kept or counted as left out. -/
theorem countP_add_length_keptNalUnits (options : ConversionOptions) (data : Bytes) :
    (AnnexB.nalUnits data).countP (isDropped options) + (keptNalUnits options data).length =
      (AnnexB.nalUnits data).length := by
  have hsum := @List.length_eq_countP_add_countP _ (isDropped options) (AnnexB.nalUnits data)
  simp only [Bool.not_eq_true, Bool.decide_eq_false] at hsum
  rw [keptNalUnits_eq, ← List.countP_eq_length_filter, hsum]

/-- What a conversion that succeeds has made. -/
theorem of_ofAnnexB_eq_ok {options : ConversionOptions} {data : Bytes}
    {stream : LengthPrefixedStream} (h : ofAnnexB options data = .ok stream) :
    (∀ nalUnit ∈ keptNalUnits options data, nalUnit.length ≤ options.lengthSize.maxLength) ∧
      nalUnits? options.lengthSize stream.data = some (keptNalUnits options data) ∧
      stream.dropped + (keptNalUnits options data).length = (AnnexB.nalUnits data).length := by
  rw [ofAnnexB_eq] at h
  cases hlong : (keptNalUnits options data).find? (options.lengthSize.maxLength < ·.length) with
  | some nalUnit =>
    rw [mapM_delimit_of_find?_eq_some hlong] at h
    cases h
  | none =>
    have hfit : ∀ nalUnit ∈ keptNalUnits options data,
        nalUnit.length ≤ options.lengthSize.maxLength := by
      simpa using List.find?_eq_none.1 hlong
    rw [mapM_delimit_of_find?_eq_none hlong] at h
    cases h
    exact ⟨hfit, nalUnits?_eq_some_iff.2 ⟨hfit, List.flatMap_def.symm⟩,
      countP_add_length_keptNalUnits options data⟩

/-- A conversion that fails says how long a NAL unit is. -/
theorem of_ofAnnexB_eq_error {options : ConversionOptions} {data : Bytes} {error : Error}
    (h : ofAnnexB options data = .error error) :
    ∃ nalUnit ∈ keptNalUnits options data, options.lengthSize.maxLength < nalUnit.length ∧
      error = .invalidData (.nalUnitTooLong nalUnit.length options.lengthSize.bytes) := by
  rw [ofAnnexB_eq] at h
  cases hlong : (keptNalUnits options data).find? (options.lengthSize.maxLength < ·.length) with
  | some nalUnit =>
    rw [mapM_delimit_of_find?_eq_some hlong] at h
    cases h
    exact ⟨nalUnit, List.mem_of_find?_eq_some hlong, by simpa using List.find?_some hlong, rfl⟩
  | none =>
    rw [mapM_delimit_of_find?_eq_none hlong] at h
    cases h

/-- **Length fields**: a byte stream cannot be converted exactly if a NAL unit to keep is longer
than a length field can state, and then its data is invalid. Otherwise what is read of the result
by its length fields are the NAL units to keep, with no byte left over, and together with those
that were left out they are as many as the stream has. -/
theorem keptNalUnits_ofAnnexB (options : ConversionOptions) (data : Bytes) :
    let limit := 2 ^ (8 * options.lengthSize.bytes) - 1
    ((∃ error, ofAnnexB options data = .error error) ↔
      ∃ nalUnit ∈ keptNalUnits options data, limit < nalUnit.length) ∧
    (∀ error, ofAnnexB options data = .error error →
      ∃ nalUnit ∈ keptNalUnits options data, limit < nalUnit.length ∧
        error = .invalidData (.nalUnitTooLong nalUnit.length options.lengthSize.bytes)) ∧
    ∀ stream, ofAnnexB options data = .ok stream →
      nalUnits? options.lengthSize stream.data = some (keptNalUnits options data) ∧
        stream.dropped + (keptNalUnits options data).length = (AnnexB.nalUnits data).length := by
  intro limit
  have hlimit : options.lengthSize.maxLength = limit := LengthSize.maxLength_eq _
  rw [← hlimit]
  refine ⟨⟨?_, ?_⟩, fun error => of_ofAnnexB_eq_error, fun stream h => (of_ofAnnexB_eq_ok h).2⟩
  · rintro ⟨error, h⟩
    obtain ⟨nalUnit, hmem, hlong, -⟩ := of_ofAnnexB_eq_error h
    exact ⟨nalUnit, hmem, hlong⟩
  · rintro ⟨nalUnit, hmem, hlong⟩
    rcases hresult : ofAnnexB options data with error | stream
    · exact ⟨error, rfl⟩
    · exact absurd ((of_ofAnnexB_eq_ok hresult).1 nalUnit hmem) (Nat.not_le.2 hlong)

/-- A parameter set that is too long for one-byte length fields does no harm if it is left out. A
NAL unit that is too short to state a type is kept. -/
theorem keptNalUnits_ofAnnexB_long_parameter_set :
    let data : Bytes := [0x00, 0x00, 0x01, 0x00, 0x81] ++ List.replicate 254 0xAB ++
      [0x00, 0x00, 0x01, 0x00, 0x09, 0xCD, 0x00, 0x00, 0x01, 0x42]
    (∃ stream, ofAnnexB ⟨.one, true, true⟩ data = .ok stream ∧
      nalUnits? .one stream.data = some [[0x00, 0x09, 0xCD], [0x42]] ∧ stream.dropped + 2 = 3) ∧
    ∃ nalUnit ∈ keptNalUnits ⟨.one, true, false⟩ data, 255 < nalUnit.length ∧
      ofAnnexB ⟨.one, true, false⟩ data =
        .error (.invalidData (.nalUnitTooLong nalUnit.length 1)) := by
  intro data
  have hcount : (AnnexB.nalUnits data).length = 3 := by decide +kernel
  have hkept : keptNalUnits ⟨.one, true, true⟩ data = [[0x00, 0x09, 0xCD], [0x42]] := by
    decide +kernel
  have hfit : ∀ nalUnit ∈ keptNalUnits ⟨.one, true, true⟩ data, nalUnit.length ≤ 255 := by
    decide +kernel
  have hlong : ∃ nalUnit ∈ keptNalUnits ⟨.one, true, false⟩ data, 255 < nalUnit.length := by
    decide +kernel
  clear_value data
  constructor
  · obtain ⟨hfails, -, hread⟩ := keptNalUnits_ofAnnexB ⟨.one, true, true⟩ data
    rcases hresult : ofAnnexB ⟨.one, true, true⟩ data with error | stream
    · obtain ⟨nalUnit, hmem, htooLong⟩ := hfails.1 ⟨error, hresult⟩
      exact absurd (hfit nalUnit hmem) (Nat.not_le.2 htooLong)
    · obtain ⟨hdata, hnumber⟩ := hread stream hresult
      rw [hkept] at hdata hnumber
      rw [hcount] at hnumber
      exact ⟨stream, rfl, hdata, hnumber⟩
  · obtain ⟨hfails, herror, -⟩ := keptNalUnits_ofAnnexB ⟨.one, true, false⟩ data
    obtain ⟨error, hresult⟩ := hfails.2 hlong
    obtain ⟨nalUnit, hmem, htooLong, rfl⟩ := herror error hresult
    exact ⟨nalUnit, hmem, htooLong, hresult⟩

end LengthPrefixedStream

end H266
