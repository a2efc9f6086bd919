import H266.Proofs.ProfileTierLevel
import H266.Proofs.RecordValidity

/-!
# Profile Record Round Trip

A valid profile, tier and level record is read back from its written form, at any bit offset
and whatever follows it, but for what the form has no room for: the last two bits of the
constraints information, and the table entries of sublayers whose level is not stated or which
the stream does not have.

## Main results

* `ProfileRecord.decodes_read`: the written form is decoded to the normal form of the record.
* `ProfileRecord.fits_layout`: the written form of a valid record fits.
* `ProfileRecord.fills_layout`: from a byte boundary it fills as many bytes as the record says.
-/

namespace H266

open BitReader

/-! ### Entries of a table -/

theorem vector_get_eq {α : Type} {n : Nat} (table : Vector α n) (i : Fin n) :
    table.get i = getElem table i.val i.isLt := rfl

/-- The entries in use are those of the sublayers below the highest. -/
theorem lt_usedEntries_iff {sublayers : Nat} (i : Fin sublayerEntries) :
    i.val < usedEntries sublayers ↔ i.val + 1 < sublayers := by
  have := i.isLt
  rw [usedEntries]
  omega

/-- No more entries are in use than there are. -/
theorem usedEntries_le (sublayers : Nat) : usedEntries sublayers ≤ sublayerEntries :=
  Nat.min_le_right _ _

/-- More sublayers use more entries. -/
theorem usedEntries_mono {m n : Nat} (h : m ≤ n) : usedEntries m ≤ usedEntries n := by
  rw [usedEntries, usedEntries]
  omega

/-- An entry in use is that of a sublayer below the highest. -/
theorem exists_entry_of_lt {sublayers i : Nat} (h : i < usedEntries sublayers) :
    ∃ entry : Fin sublayerEntries, entry.val = i ∧ entry.val + 1 < sublayers :=
  ⟨⟨i, Nat.lt_of_lt_of_le h (usedEntries_le sublayers)⟩, rfl, (lt_usedEntries_iff _).1 h⟩

namespace ProfileRecord

/-! ### Normal forms -/

/-- Constraints information without its last two bits. -/
def clearLastBits : Bytes → Bytes
  | [] => []
  | [last] => [last &&& 0xFC]
  | byte :: next :: bytes => byte :: clearLastBits (next :: bytes)

/-- Whether the level of a sublayer is written for a stream with the given number of
sublayers. -/
def isWritten (record : ProfileRecord) (sublayers : Nat) (i : Fin sublayerEntries) : Bool :=
  record.sublayerLevelPresent[i] && decide (i.val + 1 < sublayers)

/-- What is left of a record once it is written and read back. -/
def normal (record : ProfileRecord) (sublayers : Nat) : ProfileRecord :=
  { record with
    constraintInfo := clearLastBits record.constraintInfo
    sublayerLevelPresent := .ofFn fun i => record.isWritten sublayers i
    sublayerLevels :=
      .ofFn fun i => if record.isWritten sublayers i then record.sublayerLevels[i] else 0 }

/-- Clearing bits changes no length. -/
theorem length_clearLastBits (bytes : Bytes) : (clearLastBits bytes).length = bytes.length := by
  induction bytes with
  | nil => rfl
  | cons byte bytes ih =>
    cases bytes with
    | nil => rfl
    | cons next bytes => rw [clearLastBits, List.length_cons, ih, ← List.length_cons]

/-- What reading leaves of a valid structure is valid. -/
theorem Valid.normal {record : ProfileRecord} (h : record.Valid) (sublayers : Nat) :
    (record.normal sublayers).Valid := by
  have hlength := length_clearLastBits record.constraintInfo
  exact ⟨hlength ▸ h.one_le_constraintInfo, hlength ▸ h.constraintInfo_le, h.profile_le,
    h.subProfiles_le⟩

/-! ### Constraints information -/

/-- Two clear bits take the place of the last two bits of a byte. -/
theorem toByte_take_six (byte : UInt8) :
    Bits.toByte ((Bits.ofByte byte).take 6 ++ [false, false]) = byte &&& 0xFC := by
  have hall : ∀ n < 256, Bits.toByte ((Bits.ofNat 8 n).take 6 ++ [false, false]) =
      UInt8.ofNat n &&& 0xFC := by
    decide +kernel
  have := hall byte.toNat byte.toNat_lt
  rwa [UInt8.ofNat_toNat] at this

/-- Bytes of which all but the last two bits are kept. -/
theorem toBytes_take (bytes : Bytes) :
    Bits.toBytes bytes.length ((Bits.ofBytes bytes).take (8 * bytes.length - 2)) =
      clearLastBits bytes := by
  induction bytes with
  | nil => rfl
  | cons byte bytes ih =>
    have hlen : (Bits.ofByte byte).length = 8 := Bits.length_ofByte byte
    cases bytes with
    | nil =>
      rw [clearLastBits, ← toByte_take_six]
      rfl
    | cons next bytes =>
      have htake : (Bits.ofBytes (byte :: next :: bytes)).take
          (8 * (byte :: next :: bytes).length - 2) = Bits.ofByte byte ++
            (Bits.ofBytes (next :: bytes)).take (8 * (next :: bytes).length - 2) := by
        have hle : (Bits.ofByte byte).length ≤ 8 * (byte :: next :: bytes).length - 2 := by
          simp only [List.length_cons]
          omega
        have hrest : 8 * (byte :: next :: bytes).length - 2 - (Bits.ofByte byte).length =
            8 * (next :: bytes).length - 2 := by
          simp only [List.length_cons]
          omega
        rw [Bits.ofBytes_cons, List.take_append, List.take_of_length_le hle, hrest]
      rw [htake, clearLastBits, ← ih, List.length_cons, Bits.toBytes,
        List.take_append_of_le_length (by omega), List.take_of_length_le (by omega),
        List.drop_append_of_le_length (by omega), List.drop_of_length_le (by omega)]
      have hfull (rest : Bits) : 8 - (Bits.ofByte byte ++ rest).length = 0 := by
        rw [List.length_append]
        omega
      rw [hfull, List.replicate_zero, List.append_nil, Bits.toByte_ofByte, List.nil_append]

/-- All bits of a byte string but the last two are read as flags. -/
theorem decodes_readLeading (bytes : Bytes) :
    Decodes (readTimes (8 * bytes.length - 2) readBit)
      [.leading bytes (8 * bytes.length - 2)]
      ((Bits.ofBytes bytes).take (8 * bytes.length - 2)) := by
  intro _
  have hlength : ((Bits.ofBytes bytes).take (8 * bytes.length - 2)).length =
      8 * bytes.length - 2 := by
    rw [List.length_take, Bits.length_ofBytes]
    omega
  have hreads := reads_readTimes_readBit ((Bits.ofBytes bytes).take (8 * bytes.length - 2))
  rw [hlength] at hreads
  refine hreads.congr fun n => ?_
  have hzeros : 8 * bytes.length - 2 - 8 * bytes.length = 0 := by omega
  rw [Layout.bitsAt_singleton, Item.bitsAt, hzeros, List.replicate_zero, List.append_nil]

/-! ### Levels of sublayers -/

/-- The entries of the table that count, the lowest sublayer first. -/
theorem getElem?_reverse_usedLevels (record : ProfileRecord) (sublayers : Nat)
    (i : Fin sublayerEntries) :
    (record.usedLevels sublayers).reverse[i.val]? =
      if i.val + 1 < sublayers then
        some (record.sublayerLevelPresent[i], record.sublayerLevels[i])
      else none := by
  rw [usedLevels, List.reverse_reverse, List.getElem?_take]
  simp only [lt_usedEntries_iff]
  split
  · simp
  · rfl

/-- There are as many levels as entries in use. -/
theorem length_usedLevels (record : ProfileRecord) (sublayers : Nat) :
    (record.usedLevels sublayers).length = usedEntries sublayers := by
  simp [usedLevels, usedEntries]

/-- Which sublayers state a level, highest first, if there are several. -/
theorem decodes_readPresent (record : ProfileRecord) (sublayers : Nat) :
    Decodes (readPresent sublayers)
      (if 1 < sublayers then
        (record.usedLevels sublayers).map (fun entry => .flag entry.1) ++ [.align] else [])
      ((record.usedLevels sublayers).map (·.1)) := by
  refine decodes_readIf (fun hmany => ?_) fun hsingle => ?_
  · rw [if_pos (of_decide_eq_true hmany)]
    have hflags := decodes_readTimes (record.usedLevels sublayers)
      fun entry _ => decodes_readBit entry.1
    rw [length_usedLevels, ← List.map_eq_flatMap] at hflags
    exact hflags.bind (decodes_align.bind_nil (decodes_pure _))
  · have hlow := of_decide_eq_false hsingle
    have hempty : record.usedLevels sublayers = [] := by
      rw [← List.length_eq_zero_iff, length_usedLevels, usedEntries]
      omega
    rw [if_neg hlow, hempty]
    exact ⟨rfl, rfl⟩

/-- Only the levels that are present are written. -/
theorem map_filter_present (entries : List (Bool × UInt8)) :
    (entries.filter (·.1)).map (fun entry => Item.bytes [entry.2]) =
      entries.flatMap fun entry => if entry.1 then [.bytes [entry.2]] else [] := by
  induction entries with
  | nil => rfl
  | cons entry entries ih =>
    rw [List.filter_cons, List.flatMap_cons, ← ih]
    cases entry.1 <;> rfl

/-- The levels that are stated; the others are read as zero. -/
theorem decodes_readLevels (entries : List (Bool × UInt8)) :
    Decodes (readLevels (entries.map (·.1)))
      ((entries.filter (·.1)).map fun entry => .bytes [entry.2])
      (entries.map fun entry => if entry.1 then entry.2 else 0) := by
  rw [map_filter_present]
  refine decodes_mapM entries fun entry _ => decodes_readIf (fun hpresent => ?_) fun habsent => ?_
  · rw [if_pos hpresent, if_pos hpresent]
    exact decodes_readUInt8 entry.2
  · rw [habsent]
    exact ⟨rfl, rfl⟩

/-! ### The record -/

/-- The written form of a valid record is decoded to the normal form of the record. -/
theorem decodes_read {record : ProfileRecord} (h : record.Valid) (sublayers : Nat) :
    Decodes (read sublayers) (record.layout sublayers) (record.normal sublayers) := by
  simp only [layout, levelLayout, List.append_assoc, List.cons_append, List.nil_append]
  refine (decodes_skipNumber 0 2).cons ((decodes_readBits _ 6).cons ?_)
  rw [if_neg (by have := h.one_le_constraintInfo; omega)]
  refine (decodes_readBits _ 7).cons ((decodes_readBit _).cons ((decodes_readUInt8 _).cons
    ((decodes_readBit _).cons ((decodes_readBit _).cons ((decodes_readLeading _).cons
    ((decodes_readPresent record sublayers).bind ((decodes_readLevels _).bind
    ((decodes_readSubProfiles (Nat.lt_succ_of_le h.subProfiles_le)).bind_nil ?_))))))))
  have hentry := getElem?_reverse_usedLevels record sublayers
  have hpresent (i : Fin sublayerEntries) :
      ((record.usedLevels sublayers).map (·.1)).reverse.getD i false =
        record.isWritten sublayers i := by
    rw [← List.map_reverse, List.getD_eq_getElem?_getD, List.getElem?_map, hentry, isWritten]
    by_cases hi : i.val + 1 < sublayers <;> simp [hi]
  have hlevel (i : Fin sublayerEntries) :
      ((record.usedLevels sublayers).map fun entry => if entry.1 then entry.2 else 0).reverse.getD
        i 0 = if record.isWritten sublayers i then record.sublayerLevels[i] else 0 := by
    rw [← List.map_reverse, List.getD_eq_getElem?_getD, List.getElem?_map, hentry, isWritten]
    by_cases hi : i.val + 1 < sublayers <;> simp [hi]
  simp only [hpresent, hlevel, toBytes_take]
  exact decodes_pure _

/-! ### Sizes -/

/-- The numbers of a valid structure fit their widths. -/
theorem fits_layout {record : ProfileRecord} (h : record.Valid) (sublayers : Nat) :
    (record.layout sublayers).Fits := by
  have hconstraints := h.constraintInfo_le
  have hprofile := h.profile_le
  have hlevels : (record.levelLayout sublayers).Fits := by
    rw [levelLayout]
    split <;> simp
  simp [layout, hlevels]
  omega

/-- The levels that are present are as many as the flags that say so. -/
theorem length_filter_usedLevels (record : ProfileRecord) (sublayers : Nat) :
    ((record.usedLevels sublayers).filter (·.1)).length =
      (record.sublayerLevelPresent.toList.take (usedEntries sublayers)).count true := by
  have hflags : record.sublayerLevelPresent.toList =
      (record.sublayerLevelPresent.toList.zip record.sublayerLevels.toList).map (·.1) :=
    (List.map_fst_zip (by simp)).symm
  rw [usedLevels, List.filter_reverse, List.length_reverse, hflags, ← List.map_take,
    List.count_eq_countP, List.countP_map, List.countP_eq_length_filter, ← hflags]
  congr 2
  funext entry
  exact (beq_true entry.1).symm

/-- The presence bits. -/
theorem bitsAt_usedLevels (record : ProfileRecord) (sublayers n : Nat) :
    Layout.bitsAt n ((record.usedLevels sublayers).map fun entry => .flag entry.1) =
      (record.usedLevels sublayers).map (·.1) := by
  rw [← Layout.bitsAt_map_flag n ((record.usedLevels sublayers).map (·.1)), List.map_map]
  rfl

/-- From a byte boundary, the presence bits and the levels fill whole bytes. -/
theorem fills_levelLayout (record : ProfileRecord) (sublayers : Nat) :
    (record.levelLayout sublayers).Fills ((if 1 < sublayers then 1 else 0) +
      (record.sublayerLevelPresent.toList.take (usedEntries sublayers)).count true) := by
  refine Layout.Fills.append (fun position hposition => ?_) ?_
  · have hused : usedEntries sublayers = min (sublayers - 1) 6 := rfl
    by_cases hmany : 1 < sublayers
    · rw [if_pos hmany, if_pos hmany, Layout.bitsAt_append, bitsAt_usedLevels,
        Layout.bitsAt_singleton, Item.bitsAt, List.length_append, List.length_replicate,
        List.length_map, length_usedLevels, hused]
      omega
    · rw [if_neg hmany, if_neg hmany]
      rfl
  · rw [← length_filter_usedLevels, ← Nat.one_mul (List.length _)]
    exact Layout.fills_map_bytes _ fun entry _ => rfl

/-- The written form up to the levels of sublayers, with two reserved bits before it. -/
def headLayout (record : ProfileRecord) (reserved : Nat) : Layout :=
  [.number reserved 2,
   .number record.constraintInfo.length 6,
   .number record.profile 7,
   .flag record.tier,
   .bytes [record.level],
   .flag record.frameOnly,
   .flag record.multilayer,
   .leading record.constraintInfo (8 * record.constraintInfo.length - 2)]

/-- What comes before the sublayers fills whole bytes. -/
theorem fills_headLayout {record : ProfileRecord} (h : record.Valid) (reserved : Nat) :
    (record.headLayout reserved).Fills (3 + record.constraintInfo.length) := by
  intro position _
  have := h.one_le_constraintInfo
  simp [headLayout, Layout.bitsAt_cons, Item.bitsAt]
  omega

/-- From a byte boundary, the written form fills as many bytes as the size of the record. -/
theorem fills_layout {record : ProfileRecord} (h : record.Valid) (sublayers : Nat) :
    (record.layout sublayers).Fills (record.size sublayers) := by
  have hsubs : Layout.Fills
      (record.subProfiles.map fun value => .bytes (Bytes.ofNat 4 value.toNat))
      (4 * record.subProfiles.length) :=
    Layout.fills_map_bytes _ fun value _ => Bytes.length_ofNat 4 value.toNat
  have hall := (((fills_headLayout h 0).append (fills_levelLayout record sublayers)).append
    (Layout.fills_bytes (Bytes.ofNat 1 record.subProfiles.length))).append hsubs
  rwa [← Nat.add_assoc (3 + _), Bytes.length_ofNat] at hall

end ProfileRecord

end H266
