import H266.Proofs.Consuming
import H266.Proofs.RecordBytes
import H266.Proofs.RecordSyntax

/-!
# Reading and Writing Again

Every byte string that is read as a record begins with the written form of a syntax tree that
has this record as its value. So nothing that reading returns can fail the checks before
writing, but for the numbers of parameter sets, and what is written of it is the same bytes with
their reserved bits in canonical form.

## Main results

* `ProfileRecord.consumes_read`, `DecoderRecord.consumes_read`: what is read off comes from a
  syntax tree.
* `DecoderRecord.exists_encode_of_parse`: what is written of a record that was read.
-/

namespace H266

open BitReader

/-! ### Profile, tier and level -/

/-- Sub-profiles that were read were written behind their number. -/
theorem ProfileTierLevel.consumes_readSubProfiles {n : Nat} :
    Consumes n readSubProfiles fun subProfiles layout => subProfiles.length < 256 ∧
      layout = .bytes (Bytes.ofNat 1 subProfiles.length) ::
        subProfiles.map fun value => .bytes (Bytes.ofNat 4 value.toNat) := by
  have hvalue (n : Nat) : Consumes n readUInt32 fun value layout =>
      ∃ part : UInt32, value = part ∧ layout = [.bytes (Bytes.ofNat 4 part.toNat)] :=
    consumes_readUInt32.mono fun value _ hlayout => ⟨value, rfl, hlayout⟩
  refine consumes_readUInt8.bind ?_
  rintro count _ rfl
  refine (consumes_readTimes hvalue count.toNat).mono ?_
  rintro _ _ ⟨subProfiles, hlength, rfl, rfl⟩
  rw [List.map_id', hlength]
  exact ⟨count.toNat_lt, by rw [← List.map_eq_flatMap]; rfl⟩

namespace ProfileRecord

/-- The first bits of the bytes that were filled with them. -/
theorem take_ofBytes_toBytes {bits : Bits} {count : Nat} (h : bits.length = 8 * count - 2) :
    (Bits.ofBytes (Bits.toBytes count bits)).take (8 * count - 2) = bits := by
  rw [Bits.ofBytes_toBytes (by omega), ← h, List.take_left]

/-- Bits that were read for constraints information were those of bytes, but for the last two. -/
theorem consumes_readLeading {n count : Nat} :
    Consumes n (readTimes (8 * count - 2) readBit) fun bits layout =>
      bits.length = 8 * count - 2 ∧
        layout = [.leading (Bits.toBytes count bits) (8 * count - 2)] := by
  refine (consumes_readTimes_readBit (8 * count - 2)).exchange ?_
  rintro bits _ ⟨hlength, rfl⟩
  refine ⟨_, ⟨hlength, rfl⟩, ?_⟩
  have hzeros : 8 * count - 2 - 8 * (Bits.toBytes count bits).length = 0 := by
    rw [Bits.length_toBytes]
    omega
  rw [Layout.bitsAt_singleton, Item.bitsAt, take_ofBytes_toBytes hlength, hzeros,
    List.replicate_zero, List.append_nil, Layout.bitsAt_map_flag]

/-- Constraints information that was read has its last two bits clear. -/
theorem clearLastBits_toBytes {bits : Bits} {count : Nat} (h : bits.length = 8 * count - 2) :
    clearLastBits (Bits.toBytes count bits) = Bits.toBytes count bits := by
  have hclear := toBytes_take (Bits.toBytes count bits)
  rw [Bits.length_toBytes, take_ofBytes_toBytes h] at hclear
  exact hclear.symm

/-- Flags that were read for sublayers were followed by reserved bits up to the byte boundary,
whatever these were. -/
theorem consumes_readPresent {n sublayers : Nat} (hn : n % 8 = 0) :
    Consumes n (readPresent sublayers) fun present layout =>
      present.length = usedEntries sublayers ∧ ∃ padding : Fin 128,
        layout = if 1 < sublayers then
          present.map .flag ++ [.number padding (8 - usedEntries sublayers)] else [] := by
  have hused : usedEntries sublayers = min (sublayers - 1) 6 := rfl
  refine consumes_readIf (fun hmany => ?_) fun hsingle => ?_
  · have hmany := of_decide_eq_true hmany
    refine (consumes_readTimes_readBit (usedEntries sublayers)).bind ?_
    rintro present _ ⟨hlength, rfl⟩
    have hwidth : (8 - (n + (Layout.bitsAt n (present.map .flag)).length) % 8) % 8 =
        8 - usedEntries sublayers := by
      rw [Layout.bitsAt_map_flag]
      omega
    refine consumes_align.bind ?_
    rintro _ _ ⟨padding, hpadding, rfl⟩
    rw [hwidth] at hpadding ⊢
    have hlt : padding < 128 :=
      Nat.lt_of_lt_of_le hpadding (Nat.pow_le_pow_right (by decide) (by omega : _ ≤ 7))
    refine consumes_pure ⟨hlength, ⟨padding, hlt⟩, ?_⟩
    rw [if_pos hmany, List.append_nil]
  · have hfew := of_decide_eq_false hsingle
    refine ⟨?_, 0, (if_neg hfew).symm⟩
    rw [List.length_nil]
    omega

/-- Levels that were read belong to the flags that are set; the others were read as zero. -/
theorem consumes_readLevels {n : Nat} (present : List Bool) :
    Consumes n (readLevels present) fun levels layout =>
      ∃ entries : List (Bool × UInt8), entries.map (·.1) = present ∧
        entries.map (·.2) = levels ∧ (∀ entry ∈ entries, entry.1 = false → entry.2 = 0) ∧
        layout = (entries.filter (·.1)).map fun entry => .bytes [entry.2] := by
  -- Which levels are absent is handed through the loop by reading an entry only as far as its
  -- level is present.
  have hlevel (stated : Bool) (n : Nat) :
      Consumes n (readIf stated readUInt8 0) fun level layout =>
        ∃ entry : Bool × UInt8, entry.1 = stated ∧ level = (if entry.1 then entry.2 else 0) ∧
          layout = if entry.1 then [.bytes [entry.2]] else [] := by
    refine consumes_readIf (fun hpresent => consumes_readUInt8.mono ?_) fun habsent =>
      ⟨(stated, 0), rfl, by simp, by simp [habsent]⟩
    rintro level _ rfl
    exact ⟨(stated, level), rfl, by simp [hpresent], by simp [hpresent, Bytes.ofNat]⟩
  refine (consumes_mapM hlevel present).mono ?_
  rintro _ _ ⟨entries, rfl, rfl, rfl⟩
  refine ⟨entries.map fun entry => (entry.1, if entry.1 then entry.2 else 0), ?_, ?_, ?_, ?_⟩
  · rw [List.map_map]
    rfl
  · rw [List.map_map]
    rfl
  · intro entry hentry habsent
    obtain ⟨own, -, rfl⟩ := List.mem_map.1 hentry
    exact if_neg (by simpa using habsent)
  · have hlayout (entry : Bool × UInt8) :
        (if entry.1 then [Item.bytes [if entry.1 then entry.2 else 0]] else []) =
          if entry.1 then [Item.bytes [entry.2]] else [] := by
      cases entry.1 <;> rfl
    rw [map_filter_present, List.flatMap_map]
    simp only [hlayout]

/-- A record whose table was made of the given entries, of which the first is that of the
highest sublayer. -/
structure HasEntries (record : ProfileRecord) (entries : List (Bool × UInt8)) : Prop where
  present_eq : record.sublayerLevelPresent =
    .ofFn fun i => (entries.map (·.1)).reverse.getD i false
  levels_eq : record.sublayerLevels = .ofFn fun i => (entries.map (·.2)).reverse.getD i 0
  absent : ∀ entry ∈ entries, entry.1 = false → entry.2 = 0

section HasEntries

variable {record : ProfileRecord} {sublayers : Nat} {entries : List (Bool × UInt8)}

/-- An entry is stated if it was read and its flag was set. -/
theorem HasEntries.present_get (h : record.HasEntries entries) (i : Fin sublayerEntries) :
    record.sublayerLevelPresent.get i = (entries.reverse[i.val]?.map (·.1)).getD false := by
  rw [h.present_eq, vector_get_eq, Vector.getElem_ofFn, List.getD_eq_getElem?_getD,
    ← List.map_reverse, List.getElem?_map]

/-- An entry has the level that was read, or none. -/
theorem HasEntries.levels_get (h : record.HasEntries entries) (i : Fin sublayerEntries) :
    record.sublayerLevels.get i = (entries.reverse[i.val]?.map (·.2)).getD 0 := by
  rw [h.levels_eq, vector_get_eq, Vector.getElem_ofFn, List.getD_eq_getElem?_getD,
    ← List.map_reverse, List.getElem?_map]

/-- The entries are those that count, if they are as many. -/
theorem HasEntries.usedLevels_eq (h : record.HasEntries entries)
    (hlength : entries.length = usedEntries sublayers) : record.usedLevels sublayers = entries := by
  refine List.reverse_inj.1 (List.ext_getElem? fun i => ?_)
  by_cases hi : i < sublayerEntries
  · have hlow : i < entries.reverse.length ↔ i + 1 < sublayers := by
      rw [List.length_reverse, hlength]
      exact lt_usedEntries_iff ⟨i, hi⟩
    have hentry : (record.usedLevels sublayers).reverse[i]? = if i + 1 < sublayers then
        some (record.sublayerLevelPresent.get ⟨i, hi⟩, record.sublayerLevels.get ⟨i, hi⟩)
          else none :=
      getElem?_reverse_usedLevels record sublayers ⟨i, hi⟩
    rw [hentry, h.present_get, h.levels_get]
    by_cases hmany : i + 1 < sublayers
    · rw [if_pos hmany, List.getElem?_eq_getElem (hlow.2 hmany)]
      rfl
    · rw [if_neg hmany, List.getElem?_eq_none (Nat.le_of_not_lt (mt hlow.1 hmany))]
  · have hnone (levels : List (Bool × UInt8)) (hlevels : levels.length = usedEntries sublayers) :
        levels.reverse[i]? = none := by
      refine List.getElem?_eq_none ?_
      rw [List.length_reverse, hlevels]
      exact Nat.le_trans (usedEntries_le _) (Nat.le_of_not_lt hi)
    rw [hnone _ (length_usedLevels record sublayers), hnone _ hlength]

/-- A level that is not written was not read either. -/
theorem HasEntries.level_eq_zero (h : record.HasEntries entries)
    (hlength : entries.length = usedEntries sublayers) {i : Fin sublayerEntries}
    (hi : record.isWritten sublayers i = false) :
    record.sublayerLevelPresent.get i = false ∧ record.sublayerLevels.get i = 0 := by
  have hused : i.val < usedEntries sublayers ↔ i.val + 1 < sublayers := lt_usedEntries_iff i
  have hi : (record.sublayerLevelPresent.get i && decide (i.val + 1 < sublayers)) = false := hi
  rw [h.levels_get]
  rw [h.present_get] at hi ⊢
  cases hentry : entries.reverse[i.val]? with
  | none => exact ⟨rfl, rfl⟩
  | some entry =>
    obtain ⟨hlow, -⟩ := List.getElem?_eq_some_iff.1 hentry
    rw [List.length_reverse, hlength] at hlow
    have hpresent : entry.1 = false := by
      rw [hentry, decide_eq_true (hused.1 hlow), Bool.and_true] at hi
      exact hi
    exact ⟨hpresent, h.absent entry (List.mem_reverse.1 (List.mem_of_getElem? hentry)) hpresent⟩

/-- Writing a record that was read and reading it again changes nothing. -/
theorem HasEntries.normal_eq (h : record.HasEntries entries)
    (hlength : entries.length = usedEntries sublayers)
    (hclear : clearLastBits record.constraintInfo = record.constraintInfo) :
    record.normal sublayers = record := by
  have hpresent : (Vector.ofFn fun i => record.isWritten sublayers i) =
      record.sublayerLevelPresent := by
    refine Vector.ext fun i hi => ?_
    rw [Vector.getElem_ofFn]
    cases hwritten : record.isWritten sublayers ⟨i, hi⟩ with
    | false => exact (h.level_eq_zero hlength hwritten).1.symm
    | true => exact (Bool.and_eq_true_iff.1 hwritten).1.symm
  have hlevels : (Vector.ofFn fun i =>
      if record.isWritten sublayers i then record.sublayerLevels[i] else 0) =
        record.sublayerLevels := by
    refine Vector.ext fun i hi => ?_
    rw [Vector.getElem_ofFn]
    cases hwritten : record.isWritten sublayers ⟨i, hi⟩ with
    | false => exact (h.level_eq_zero hlength hwritten).2.symm
    | true => rfl
  rw [normal, hpresent, hlevels, hclear]

/-- The written form, by the entries. -/
theorem HasEntries.layoutWith_eq (h : record.HasEntries entries)
    (hlength : entries.length = usedEntries sublayers) (reserved padding : Nat) :
    record.layoutWith sublayers reserved padding =
      record.headLayout reserved ++
        ((if 1 < sublayers then
            (entries.map (·.1)).map .flag ++ [.number padding (8 - usedEntries sublayers)]
          else []) ++
        ((entries.filter (·.1)).map (fun entry => .bytes [entry.2]) ++
        (.bytes (Bytes.ofNat 1 record.subProfiles.length) ::
          record.subProfiles.map fun value => .bytes (Bytes.ofNat 4 value.toNat)))) := by
  rw [layoutWith, levelLayoutWith, h.usedLevels_eq hlength, List.map_map]
  simp only [List.append_assoc, List.cons_append, List.nil_append, Function.comp_def]

end HasEntries

/-- A record that is read comes from its written form with some reserved bits in it. -/
theorem consumes_read {n sublayers : Nat} (hn : n % 8 = 0) :
    Consumes n (read sublayers) fun record layout =>
      record.Valid ∧ record.normal sublayers = record ∧
        ∃ (reserved : Fin 4) (padding : Fin 128),
          layout = record.layoutWith sublayers reserved padding := by
  refine (consumes_skipNumber 2).bind ?_
  rintro _ _ ⟨reserved, hreserved, rfl⟩
  refine (consumes_readBits 6).bind ?_
  rintro count _ ⟨hcount, rfl⟩
  refine consumes_check fun hpos => ?_
  refine (consumes_readBits 7).bind ?_
  rintro profile _ ⟨hprofile, rfl⟩
  refine consumes_readBit.bind ?_
  rintro tier _ rfl
  refine consumes_readUInt8.bind ?_
  rintro level _ rfl
  refine consumes_readBit.bind ?_
  rintro frameOnly _ rfl
  refine consumes_readBit.bind ?_
  rintro multilayer _ rfl
  refine consumes_readLeading.bind ?_
  rintro bits _ ⟨hbits, rfl⟩
  refine (consumes_readPresent ?_).bind ?_
  · simp only [Layout.bitsAt_singleton, Item.bitsAt, List.length_singleton, Bits.length_ofNat,
      Bits.length_ofBytes, Bytes.length_ofNat, List.length_append, List.length_take,
      List.length_replicate, Bits.length_toBytes]
    omega
  rintro present _ ⟨hpresent, padding, rfl⟩
  refine (consumes_readLevels present).bind ?_
  rintro levels _ ⟨entries, rfl, rfl, habsent, rfl⟩
  refine ProfileTierLevel.consumes_readSubProfiles.bind ?_
  rintro subProfiles _ ⟨hsubProfiles, rfl⟩
  rw [List.length_map] at hpresent
  have hlength : (Bits.toBytes count bits).length = count := Bits.length_toBytes count bits
  have hlevel : Bytes.ofNat 1 level.toNat = [level] := by
    rw [Bytes.ofNat, Bytes.ofNat, Nat.mul_zero, Nat.shiftRight_zero, UInt8.ofNat_toNat]
  refine consumes_pure ⟨⟨?_, ?_, ?_, ?_⟩,
    HasEntries.normal_eq ⟨rfl, rfl, habsent⟩ hpresent
      (clearLastBits_toBytes hbits), ⟨reserved, hreserved⟩, padding, ?_⟩
  · exact Nat.le_trans (Nat.pos_of_ne_zero hpos) (Nat.le_of_eq hlength.symm)
  · exact Nat.le_trans (Nat.le_of_eq hlength) (Nat.le_of_lt_succ hcount)
  · exact Nat.le_of_lt_succ hprofile
  · exact Nat.le_of_lt_succ hsubProfiles
  · refine Eq.trans ?_
      (HasEntries.layoutWith_eq ⟨rfl, rfl, habsent⟩ hpresent _ _).symm
    simp only [headLayout, hlength, hlevel, List.cons_append, List.nil_append, List.append_nil]

end ProfileRecord

/-- A code of two bits is found again. -/
theorem FrameRate.code_ofCode {code : Nat} (h : code < 4) : (ofCode code).code = code := by
  have hall : ∀ code < 4, (ofCode code).code = code := by decide
  exact hall code h

namespace DecoderRecord

/-! ### Arrays -/

/-- A NAL unit that was read has a length with a field. -/
theorem consumes_readNalUnit {n : Nat} :
    Consumes n readNalUnit fun nalUnit layout =>
      ∃ part : { data : Bytes // data.length ≤ 65535 }, nalUnit = part.val ∧
        layout = nalUnitLayout part.val := by
  refine consumes_readUInt16.bind ?_
  rintro length _ rfl
  refine (consumes_readBytes length.toNat).mono ?_
  rintro nalUnit _ ⟨hlength, rfl⟩
  have hle : nalUnit.length ≤ 65535 := hlength ▸ Nat.le_of_lt_succ length.toNat_lt
  refine ⟨⟨nalUnit, hle⟩, rfl, ?_⟩
  rw [← hlength]
  rfl

/-- An array that was read comes from a syntax tree. -/
theorem consumes_readArray {n : Nat} :
    Consumes n readArray fun array layout =>
      ∃ part : ArraySyntax, array = part.array ∧ layout = part.layout := by
  refine consumes_readBit.bind ?_
  rintro complete _ rfl
  refine (consumes_skipNumber 2).bind ?_
  rintro _ _ ⟨reserved, hreserved, rfl⟩
  refine (consumes_readBits 5).bind ?_
  rintro code _ ⟨hcode, rfl⟩
  refine consumes_check fun hstorable => ?_
  have hstorable : (NalUnitType.ofCode code).isStorable = true := by simpa using hstorable
  have hcount {n : Nat} : Consumes n (readIf (!(NalUnitType.ofCode code).isSingle) readUInt16 1)
      fun count layout => ((NalUnitType.ofCode code).isSingle = true → count.toNat = 1) ∧
        layout = if (NalUnitType.ofCode code).isSingle then []
          else [.bytes (Bytes.ofNat 2 count.toNat)] := by
    refine consumes_readIf (fun hmany => consumes_readUInt16.mono ?_) fun hone => ?_
    · rintro count _ rfl
      have hmany : ¬(NalUnitType.ofCode code).isSingle = true := by simpa using hmany
      exact ⟨fun hone => absurd hone hmany, (if_neg hmany).symm⟩
    · have hone : (NalUnitType.ofCode code).isSingle = true := by simpa using hone
      exact ⟨fun _ => rfl, (if_pos hone).symm⟩
  refine hcount.bind ?_
  rintro count _ ⟨hsingle, rfl⟩
  refine (consumes_readTimes (fun _ => consumes_readNalUnit) count.toNat).bind ?_
  rintro _ _ ⟨nalUnits, hlength, rfl, rfl⟩
  have hcode : (NalUnitType.ofCode code).code = code :=
    (NalUnitType.code_ofCode code).trans (Nat.mod_eq_of_lt hcode)
  have hvalid : NalUnitArray.Valid ⟨complete, .ofCode code, nalUnits.map (·.val)⟩ := by
    refine ⟨hstorable, fun hone => ?_, ?_, fun nalUnit hmem => ?_⟩
    · rw [List.length_map, hlength, hsingle hone]
    · rw [List.length_map, hlength]
      exact Nat.le_of_lt_succ count.toNat_lt
    · obtain ⟨part, -, rfl⟩ := List.mem_map.1 hmem
      exact part.property
  refine consumes_pure ⟨⟨_, hvalid, ⟨reserved, hreserved⟩⟩, rfl, ?_⟩
  simp only [ArraySyntax.layout, hcode, List.length_map, hlength, List.flatMap_map,
    List.cons_append, List.nil_append, List.append_nil]

/-! ### Streams -/

/-- A description of the stream that was read comes from a syntax tree. -/
theorem consumes_readStream {n : Nat} (hn : n % 8 = 0) :
    Consumes n readStream fun info layout =>
      ∃ stream : StreamSyntax, info = stream.info ∧ layout = stream.layout := by
  refine (consumes_readBits 9).bind ?_
  rintro olsIndex _ ⟨hols, rfl⟩
  refine (consumes_readBits 3).bind ?_
  rintro sublayers _ ⟨hsublayers, rfl⟩
  refine (consumes_readBits 2).bind ?_
  rintro rate _ ⟨hrate, rfl⟩
  refine (consumes_readBits 2).bind ?_
  rintro chromaFormat _ ⟨hchroma, rfl⟩
  refine (consumes_readBits 3).bind ?_
  rintro bitDepthMinus8 _ ⟨hdepth, rfl⟩
  refine (consumes_skipNumber 5).bind ?_
  rintro _ _ ⟨afterBitDepth, hafter, rfl⟩
  refine (ProfileRecord.consumes_read ?_).bind ?_
  · simp only [Layout.bitsAt_singleton, Item.bitsAt, Bits.length_ofNat]
    omega
  rintro profile _ ⟨hvalid, hnormal, beforeConstraints, afterPresence, rfl⟩
  refine consumes_readUInt16.bind ?_
  rintro maxWidth _ rfl
  refine consumes_readUInt16.bind ?_
  rintro maxHeight _ rfl
  refine consumes_readUInt16.bind ?_
  rintro averageFrameRate _ rfl
  have hvalid : StreamInfo.Valid ⟨olsIndex, sublayers, .ofCode rate, chromaFormat, bitDepthMinus8,
      profile, maxWidth, maxHeight, averageFrameRate⟩ :=
    ⟨Nat.le_of_lt_succ hols, Nat.le_of_lt_succ hsublayers, Nat.le_of_lt_succ hchroma,
      Nat.le_of_lt_succ hdepth, hvalid⟩
  refine consumes_pure ⟨⟨_, hvalid, ?_, ⟨afterBitDepth, hafter⟩, beforeConstraints,
    afterPresence⟩, rfl, ?_⟩
  · rw [StreamInfo.normal, hnormal]
  · simp only [StreamSyntax.layout, FrameRate.code_ofCode hrate, List.cons_append,
      List.nil_append, List.append_nil]

/-! ### Records -/

/-- A record that is read comes from the written form of a syntax tree. -/
theorem consumes_read :
    Consumes 0 read fun record layout =>
      ∃ tree : RecordSyntax, record = tree.value ∧ layout = tree.layout := by
  refine (consumes_readBits 5).bind ?_
  rintro reserved _ ⟨-, rfl⟩
  refine consumes_check fun hreserved => ?_
  refine (consumes_readBits 2).bind ?_
  rintro lengthSizeMinus1 _ ⟨hsize, rfl⟩
  refine consumes_check fun hsupported => ?_
  refine consumes_readBit.bind ?_
  rintro streamPresent _ rfl
  have hstream : Consumes 8 (readIf streamPresent (some <$> readStream) none) fun info layout =>
      ∃ stream : Option StreamSyntax, stream.isSome = streamPresent ∧
        info = stream.map (·.info) ∧ layout = (stream.map StreamSyntax.layout).getD [] := by
    refine consumes_readIf (fun hpresent => ?_) fun habsent =>
      ⟨none, habsent.symm, rfl, rfl⟩
    refine Consumes.map ((consumes_readStream rfl).mono ?_)
    rintro _ _ ⟨stream, rfl, rfl⟩
    exact ⟨some stream, hpresent.symm, rfl, rfl⟩
  refine hstream.bind ?_
  rintro _ _ ⟨stream, rfl, rfl, rfl⟩
  refine consumes_readUInt8.bind ?_
  rintro count _ rfl
  refine (consumes_readTimes (fun _ => consumes_readArray) count.toNat).bind ?_
  rintro _ _ ⟨arrays, hlength, rfl, rfl⟩
  have hcount : arrays.length < 256 := hlength ▸ count.toNat_lt
  have hsize : lengthSizeMinus1 ∈ [0, 1, 3] := by
    have hlt : lengthSizeMinus1 < 4 := hsize
    simp
    omega
  refine consumes_pure ⟨⟨lengthSizeMinus1, hsize, stream, arrays, hcount⟩, rfl, ?_⟩
  simp only [RecordSyntax.layout, Decidable.not_not.1 hreserved, hlength, List.append_assoc,
    List.cons_append, List.nil_append, List.append_nil]

/-! ### Writing again -/

/-- **Reading, then writing**: a record that was read passes its checks exactly if the numbers of
its parameter sets are in range: 1 to 16 video, 1 to 16 sequence and at most 64 picture parameter
sets. It was read off bytes that are the written form of a syntax
tree. If it passes, what is written of it is the canonical form of this tree, in as many bytes,
and these are read as the same record again. -/
theorem exists_encode_of_parse {data rest : Bytes} {record : DecoderRecord}
    (h : parse data = .ok (record, rest)) :
    (record.validate = .ok () ↔
      (1 ≤ record.count .videoParameterSet ∧ record.count .videoParameterSet ≤ 16) ∧
      (1 ≤ record.count .sequenceParameterSet ∧ record.count .sequenceParameterSet ≤ 16) ∧
      record.count .pictureParameterSet ≤ 64) ∧
    ∃ (tree : RecordSyntax) (consumed : Bytes), tree.value = record ∧
      data = consumed ++ rest ∧ Bits.ofBytes consumed = tree.layout.bits ∧
      (record.validate = .ok () →
        ∃ written, record.encode = .ok written ∧
          Bits.ofBytes written = tree.canonical.layout.bits ∧
          written.length = consumed.length ∧
          ∀ tail, parse (written ++ tail) = .ok (record, tail)) := by
  rw [parse] at h
  cases hread : read (.ofBytes data) with
  | error error =>
    rw [hread] at h
    cases h
  | ok result =>
    obtain ⟨own, reader⟩ := result
    rw [hread] at h
    cases h
    obtain ⟨_, ⟨tree, rfl, rfl⟩, hdata⟩ := consumes_read.run_ofBytes hread
    have hlength := tree.length_bits
    have hwhole : tree.layout.bits.length % 8 = 0 := by omega
    refine ⟨validate_eq_ok_iff.trans (tree.valid_value_iff.trans counts_inRange_iff), tree, _, rfl,
      hdata hwhole, Bits.ofBytes_pack_of_whole hwhole, fun hvalidate => ?_⟩
    have hvalid := validate_eq_ok_iff.1 hvalidate
    have hlength' : tree.value.layout.bits.length = 8 * tree.value.size :=
      fills_layout hvalid.stream 0 rfl
    refine ⟨_, encode_eq_pack hvalid, ?_, ?_, fun tail => ?_⟩
    · rw [tree.bits_canonical]
      exact Bits.ofBytes_pack_of_whole (by omega)
    · rw [Bits.length_pack, Bits.length_pack, hlength, hlength']
    · rw [parse_pack hvalid, tree.normal_value]

/-- A record whose reserved bits are all the other way round. -/
theorem exists_encode_of_parse_reserved_bits :
    let data : Bytes := [0xFF, 0x00, 0x25, 0x40, 0xC1, 0x02, 0x33, 0x80, 0xFF, 0x30, 0x00,
      0x07, 0x80, 0x04, 0x38, 0x00, 0x00, 0x02, 0xEE, 0x00, 0x01, 0x00, 0x02, 0x00, 0x71,
      0x6F, 0x00, 0x01, 0x00, 0x02, 0x00, 0x79, 0xAB]
    let record : DecoderRecord :=
      { lengthSizeMinus1 := 3
        stream := some ⟨0, 2, .constant, 1, 2,
          { ProfileRecord.empty with
            profile := 1, level := 0x33, frameOnly := true
            sublayerLevelPresent := #v[true, false, false, false, false, false]
            sublayerLevels := #v[0x30, 0, 0, 0, 0, 0] }, 1920, 1080, 0⟩
        arrays := [⟨true, .videoParameterSet, [[0, 0x71]]⟩,
          ⟨false, .sequenceParameterSet, [[0, 0x79]]⟩] }
    parse data = .ok (record, [0xAB]) ∧
      ∃ (tree : RecordSyntax) (consumed written : Bytes), tree.value = record ∧
        data = consumed ++ [0xAB] ∧ Bits.ofBytes consumed = tree.layout.bits ∧
        record.encode = .ok written ∧ Bits.ofBytes written = tree.canonical.layout.bits ∧
        written.length = consumed.length ∧ parse written = .ok (record, []) := by
  intro data record
  have hparse : parse data = .ok (record, [0xAB]) := by decide +kernel
  have hvalidate : record.validate = .ok () := by decide
  obtain ⟨_, tree, consumed, hvalue, hdata, hconsumed, hagain⟩ := exists_encode_of_parse hparse
  obtain ⟨written, hwritten, hcanonical, hlength, hread⟩ := hagain hvalidate
  have hread := hread []
  rw [List.append_nil] at hread
  exact ⟨hparse, tree, consumed, written, hvalue, hdata, hconsumed, hwritten, hcanonical,
    hlength, hread⟩

end DecoderRecord

end H266
