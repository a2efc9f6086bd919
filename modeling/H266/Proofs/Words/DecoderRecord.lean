import H266.Record.Reader
import H266.Proofs.Layout
import H266.Proofs.Words.NalUnitHeader
import H266.Proofs.Words.ProfileTierLevel
import Mathlib.Data.List.GetD

/-!
# Decoder Configuration Records in Words

A record as it is read into words. The bits of the constraints information are set one by one in a
buffer of bytes, and the levels of sublayers in a table of six entries, from the highest sublayer
that has an entry down. A record has fewer than `2 ^ 44` bits: all of its counts are words of 16
bits or fewer.

## Main results

* `ProfileRecord.computes_setBit`: a bit of the constraints information.
* `ProfileRecord.simulates_readWords`: the profile, tier and level record.
* `DecoderRecord.parseWords_eq`: the whole record.
-/

namespace H266

open WordM

/-! ### Bits of a byte -/

namespace Bits

/-- Zero bits denote zero. -/
theorem toNat_replicate_false (count : Nat) : toNat (List.replicate count false) = 0 := by
  induction count with
  | zero => rfl
  | succ count ih => rw [List.replicate_succ, toNat_cons, ih, Bool.toNat_false, Nat.zero_mul]

/-- Eight bits denote the byte they make. -/
theorem toNat_toByte {bits : Bits} (h : bits.length = 8) : (toByte bits).toNat = toNat bits := by
  have hlt := toNat_lt bits
  rw [h] at hlt
  exact UInt8.toNat_ofNat_of_lt' hlt

/-- No bits make zero bytes. -/
theorem toBytes_nil (count : Nat) : toBytes count [] = List.replicate count 0 := by
  induction count with
  | zero => rfl
  | succ count ih =>
    rw [toBytes, List.replicate_succ, List.drop_nil, ih]
    rfl

/-- A bit of a byte is set by a mask. -/
theorem toByte_or_mask {first : Bits} {zeros : Nat} {mask : UInt8}
    (hlength : first.length + zeros = 7) (hmask : mask.toNat = 2 ^ zeros) :
    toByte (first ++ false :: List.replicate zeros false) ||| mask =
      toByte (first ++ true :: List.replicate zeros false) := by
  have hlen : ∀ bit, (first ++ bit :: List.replicate zeros false).length = 8 := fun bit => by
    rw [List.length_append, List.length_cons, List.length_replicate]
    omega
  have hvalue : ∀ bit, toNat (first ++ bit :: List.replicate zeros false) =
      2 ^ (zeros + 1) * toNat first + bit.toNat * 2 ^ zeros := fun bit => by
    rw [toNat_append, toNat_cons, toNat_replicate_false, List.length_cons, List.length_replicate,
      Nat.mul_comm]
    rfl
  have hlow : 2 ^ zeros < 2 ^ (zeros + 1) := Nat.pow_lt_pow_right (by decide) (Nat.lt_succ_self _)
  rw [← UInt8.toNat_inj, UInt8.toNat_or, toNat_toByte (hlen false), toNat_toByte (hlen true), hmask,
    hvalue, hvalue, Bool.toNat_false, Bool.toNat_true, Nat.zero_mul, Nat.add_zero, Nat.one_mul,
    Nat.two_pow_add_eq_or_of_lt hlow]

/-- The bit behind a bit string is set by a mask in the byte that it belongs to. -/
theorem set_toBytes {count : Nat} {bits : Bits} {own mask : UInt8}
    (hown : (toBytes count bits)[bits.length / 8]? = some own)
    (hmask : mask.toNat = 2 ^ (7 - bits.length % 8)) :
    (toBytes count bits).set (bits.length / 8) (own ||| mask) = toBytes count (bits ++ [true]) := by
  induction count generalizing bits with
  | zero => simp [toBytes] at hown
  | succ count ih =>
    rw [toBytes, toBytes]
    rw [toBytes] at hown
    by_cases hfirst : bits.length < 8
    · -- The bit belongs to the first byte, and nothing is behind that.
      have hzero : bits.length / 8 = 0 := by omega
      have hconcat : (bits ++ [true]).length = bits.length + 1 := List.length_append
      have hzeros : 8 - bits.length = 7 - bits.length + 1 := by omega
      rw [hzero] at hown ⊢
      obtain rfl := Option.some.inj hown
      rw [Nat.mod_eq_of_lt hfirst] at hmask
      rw [List.set_cons_zero, List.take_of_length_le (by omega), hzeros, List.replicate_succ,
        toByte_or_mask (by omega) hmask, List.drop_of_length_le (by omega),
        List.take_of_length_le (by omega), List.drop_of_length_le (by omega), List.append_assoc,
        hconcat, Nat.add_sub_add_right 7 1]
      rfl
    · have hrest : bits.length / 8 = (bits.drop 8).length / 8 + 1 := by
        rw [List.length_drop]
        omega
      have hmod : (bits.drop 8).length % 8 = bits.length % 8 := by
        rw [List.length_drop]
        omega
      have hfull : 8 - bits.length = 0 ∧ 8 - (bits ++ [true]).length = 0 := by
        rw [List.length_append]
        omega
      rw [hrest, List.getElem?_cons_succ] at hown
      rw [hrest, List.set_cons_succ, ih hown (by rwa [hmod]),
        List.take_append_of_le_length (by omega), List.drop_append_of_le_length (by omega), hfull.1,
        hfull.2]

end Bits

/-! ### Profile, tier and level records -/

namespace ProfileRecord

/-- Sets a bit of the constraints information, if it is one. -/
def setBit (info : Bytes) (index : USize) (bit : Bool) : WordM Bytes := do
  if bit then
    let own ← entry info (index / 8)
    let mask ← Word.shiftRight (0x80 : UInt8) (index % 8)
    setEntry info (index / 8) (own ||| mask)
  else
    return info

/-- Reads the constraints information into a buffer of bytes. -/
def readInfoWords (count : USize) : WordM Bytes := do
  let whole ← Word.mul count 8
  let bits ← Word.sub whole 2
  (indices bits.toNat).foldlM
    (fun info index => do
      let bit ← readBit
      setBit info index bit)
    (List.replicate count.toNat 0)

/-- One less than a count, or zero. -/
def lowerWords (count : USize) : WordM USize :=
  if count.toNat = 0 then pure 0 else Word.sub count 1

/-- How many entries of the table of sublayers count. -/
def usedEntriesWords (sublayers : UInt8) : WordM USize := do
  let count : USize ← Word.convert sublayers
  let lower ← lowerWords count
  return if 6 < lower.toNat then 6 else lower

/-- Reads which levels are present into a table. -/
def readPresentWords (sublayers : UInt8) (entries : USize) : WordM (List Bool) :=
  WordM.readIf (decide (1 < sublayers.toNat))
    (do
      let present ← fillDown (List.replicate 6 false) entries.toNat fun _ _ => readBit
      align
      return present)
    (List.replicate 6 false)

/-- Reads the level of a sublayer into a table, if it is present. -/
def readLevelAt (present : List Bool) (levels : List UInt8) (index : USize) :
    WordM (List UInt8) := do
  if ← entry present index then
    let level ← readUInt8
    setEntry levels index level
  else
    return levels

/-- Reads the levels that are present into a table. -/
def readLevelWords (present : List Bool) (entries : USize) : WordM (List UInt8) :=
  (indices entries.toNat).reverse.foldlM (readLevelAt present) (List.replicate 6 0)

/-- Reads the record of a stream with the given number of sublayers. -/
def readWords (sublayers : UInt8) : WordM ProfileRecord := do
  skipNumber 2
  let constraintBytes : USize ← readNumber 6
  if constraintBytes = 0 then
    refuse (.invalidData .noConstraintInfo)
  let profile : UInt8 ← readNumber 7
  let tier ← readBit
  let level ← readUInt8
  let frameOnly ← readBit
  let multilayer ← readBit
  let constraintInfo ← readInfoWords constraintBytes
  let entries ← usedEntriesWords sublayers
  let present ← readPresentWords sublayers entries
  let levels ← readLevelWords present entries
  let subProfiles ← ProfileTierLevel.readSubProfileWords
  return {
    tier, level, frameOnly, multilayer, constraintInfo, subProfiles
    profile := profile.toNat
    sublayerLevelPresent := .ofFn fun i => present.getD i false
    sublayerLevels := .ofFn fun i => levels.getD i 0 }

/-- One more bit is put behind those that are set. -/
theorem computes_setBit {count : Nat} {bits : Bits} {index : USize} (bit : Bool)
    (hindex : index.toNat = bits.length) (hlt : bits.length < 8 * count) :
    Computes (setBit (Bits.toBytes count bits) index bit)
      (· = Bits.toBytes count (bits ++ [bit])) := by
  cases bit with
  | false => exact computes_pure (Bits.toBytes_append_replicate count 1 bits).symm
  | true =>
    have height : (8 : USize).toNat = 8 := Word.toNat_index 8 (by decide)
    have hplace : (index / 8).toNat = bits.length / 8 := by
      rw [USize.toNat_div, height, hindex]
    have hshift : Word.toNat (index % 8) = bits.length % 8 := by
      show (index % 8).toNat = _
      rw [USize.toNat_mod, height, hindex]
    have hin : (index / 8).toNat < (Bits.toBytes count bits).length := by
      rw [hplace, Bits.length_toBytes]
      omega
    have hamount : 2 ^ Word.toNat (index % 8) < Word.size UInt8 := by
      rw [hshift]
      exact Nat.pow_lt_pow_right (by decide) (Nat.mod_lt _ (by decide))
    refine (computes_entry (List.getElem?_eq_getElem hin)).bind fun own hown => ?_
    refine (Word.computes_shiftRight hamount).bind fun mask hmask => ?_
    refine (computes_setEntry hin).mono fun info hinfo => ?_
    have hmaskNat : mask.toNat = 2 ^ (7 - bits.length % 8) := by
      refine hmask.trans ?_
      rw [hshift, Nat.shiftRight_eq_div_pow, ← Nat.pow_div (by omega) (by decide)]
      rfl
    rw [hinfo, hplace, Bits.set_toBytes _ hmaskNat]
    rw [← hplace, List.getElem?_eq_getElem hin, hown]

/-- Constraints information is put together bit by bit. -/
theorem simulates_readInfoWords {count : USize} (hpositive : 0 < count.toNat)
    (hfew : count.toNat ≤ 63) :
    Simulates 502 (fun info bits => info = Bits.toBytes count.toNat bits) (readInfoWords count)
      (BitReader.readTimes (8 * count.toNat - 2) BitReader.readBit) := by
  have height : Word.toNat (8 : USize) = 8 := Word.toNat_index 8 (by decide)
  have htwo : Word.toNat (2 : USize) = 2 := Word.toNat_index 2 (by decide)
  have hproduct : Word.toNat count * Word.toNat (8 : USize) = 8 * count.toNat := by
    rw [height, Nat.mul_comm]
    rfl
  refine .after (Word.computes_mul (hproduct ▸ Word.lt_size_index (by omega)))
    fun whole hwhole => ?_
  have hwholeNat : Word.toNat whole = 8 * count.toNat := hwhole.trans hproduct
  refine .after (Word.computes_sub (show Word.toNat (2 : USize) ≤ Word.toNat whole by omega))
    fun bits hbits => ?_
  have hbitsNat : bits.toNat = 8 * count.toNat - 2 := by
    rw [← hwholeNat, ← htwo]
    exact hbits
  rw [← hbitsNat]
  refine (Simulates.foldlM_readTimes
    (motive := fun info bits => info = Bits.toBytes count.toNat bits) (by omega)
    (fun index info done hlt hlength hinfo => ?_)
    (Bits.toBytes_nil count.toNat).symm).mono (show bits.toNat * 1 ≤ 502 by omega)
    fun _ _ => And.left
  subst hinfo
  refine simulates_readBit.andThen fun bit _ heq => ?_
  subst heq
  exact computes_setBit bit hlength.symm (by omega)

/-- A difference that stops at zero. -/
theorem computes_lowerWords (count : USize) :
    Computes (lowerWords count) fun lower => lower.toNat = count.toNat - 1 := by
  have hone : Word.toNat (1 : USize) = 1 := Word.toNat_index 1 (by decide)
  have hzero : (0 : USize).toNat = 0 := Word.toNat_index 0 (by decide)
  rw [lowerWords]
  by_cases hnone : count.toNat = 0
  · rw [if_pos hnone]
    exact computes_pure (by omega)
  · rw [if_neg hnone]
    have hle : Word.toNat (1 : USize) ≤ Word.toNat count := by
      rw [hone]
      exact Nat.one_le_iff_ne_zero.2 hnone
    refine (Word.computes_sub hle).mono fun lower hlower => ?_
    rw [← hone]
    exact hlower

/-- The number of entries in use. -/
theorem computes_usedEntriesWords (sublayers : UInt8) :
    Computes (usedEntriesWords sublayers) fun entries =>
      entries.toNat = usedEntries sublayers.toNat := by
  have hlt := sublayers.toNat_lt
  have hsix : (6 : USize).toNat = 6 := Word.toNat_index 6 (by decide)
  refine (Word.computes_convert (Word.lt_size_index (Nat.lt_trans hlt (by decide)))).bind
    fun count hcount => ?_
  have hcountNat : count.toNat = sublayers.toNat := hcount
  refine (computes_lowerWords count).bind fun lower hlower => computes_pure ?_
  rw [usedEntries]
  by_cases hmany : 6 < lower.toNat
  · rw [if_pos hmany, hsix]
    show 6 = min _ 6
    omega
  · rw [if_neg hmany]
    show _ = min _ 6
    omega

/-- The table in which the first entries are filled, the last of them first. -/
theorem simulates_readPresentWords {sublayers : UInt8} {entries : USize}
    (hentries : entries.toNat = usedEntries sublayers.toNat) :
    Simulates 13
      (fun table present => table = present.reverse ++ List.replicate (6 - entries.toNat) false ∧
        present.length = entries.toNat)
      (readPresentWords sublayers entries) (readPresent sublayers.toNat) := by
  have hle : entries.toNat ≤ 6 := hentries ▸ Nat.min_le_right _ _
  have htable : List.replicate 6 false =
      List.replicate entries.toNat false ++ List.replicate (6 - entries.toNat) false := by
    rw [List.replicate_append_replicate, Nat.add_sub_cancel' hle]
  rw [readPresentWords, readPresent, htable, ← hentries]
  refine Simulates.readIf (fun _ => ?_) fun hsingle => ?_
  · refine ((Simulates.fillDown (fun _ _ => simulates_readBit) false _ (by omega)).widen
      (show entries.toNat * 1 ≤ 6 by omega)).bind fun table present htable => ?_
    exact simulates_align.seq (simulates_pure htable)
  · have hnone : entries.toNat = 0 := by
      have hle : ¬1 < sublayers.toNat := of_decide_eq_false hsingle
      rw [hentries, usedEntries]
      omega
    rw [hnone]
    exact ⟨rfl, rfl⟩

/-- The levels of the lower sublayers are filled in below those in `done`. -/
theorem simulates_readLevelsDown {present above : List Bool} {done : List UInt8}
    (hfew : present.length < 4294967296) :
    Simulates (present.length * 8) (fun table levels => table = levels.reverse ++ done)
      ((indices present.length).reverse.foldlM (readLevelAt (present.reverse ++ above))
        (List.replicate present.length 0 ++ done))
      (readLevels present) := by
  induction present generalizing above done with
  | nil => exact simulates_pure rfl
  | cons stated present ih =>
    rw [List.length_cons] at hfew ⊢
    have hindex := Word.toNat_index present.length (by omega)
    have hunset : List.replicate (present.length + 1) 0 ++ done =
        List.replicate present.length 0 ++ (0 : UInt8) :: done := by
      rw [List.replicate_succ', List.append_assoc]
      rfl
    have hown : Simulates 8
        (fun table level => table = List.replicate present.length 0 ++ level :: done)
        (readLevelAt (present.reverse ++ stated :: above)
          (List.replicate present.length 0 ++ 0 :: done) (USize.ofNat present.length))
        (BitReader.readIf stated BitReader.readUInt8 0) := by
      refine .after (computes_entry_append (by rw [hindex, List.length_reverse])) fun own heq => ?_
      subst heq
      cases own with
      | false => exact simulates_pure rfl
      | true =>
        refine simulates_readUInt8.andThen fun level _ heq => ?_
        subst heq
        exact computes_setEntry_append (by rw [hindex, List.length_replicate])
    rw [reverse_indices_succ, List.foldlM_cons, readLevels, List.mapM_cons, List.reverse_cons,
      List.append_assoc, hunset, Nat.succ_mul]
    refine hown.bind fun table level htable => ?_
    subst htable
    exact (ih (by omega)).mapSpec fun table levels htable => by
      rw [htable, List.reverse_cons, List.append_assoc]
      rfl

/-- Levels are filled in from the highest sublayer down. -/
theorem simulates_readLevelWords {entries : USize} {present : List Bool}
    (hlength : present.length = entries.toNat) (hle : entries.toNat ≤ 6) :
    Simulates 48
      (fun table levels => table = levels.reverse ++ List.replicate (6 - entries.toNat) 0)
      (readLevelWords (present.reverse ++ List.replicate (6 - entries.toNat) false) entries)
      (readLevels present) := by
  have htable : List.replicate 6 (0 : UInt8) =
      List.replicate present.length 0 ++ List.replicate (6 - entries.toNat) 0 := by
    rw [List.replicate_append_replicate, hlength, Nat.add_sub_cancel' hle]
  rw [readLevelWords, htable, ← hlength]
  exact (simulates_readLevelsDown (by omega)).widen (by omega)

/-- Entries that were never filled are what a look past the end finds. -/
theorem getD_append_replicate {α : Type} (values : List α) (count i : Nat) (default : α) :
    (values ++ List.replicate count default).getD i default = values.getD i default := by
  by_cases hlt : i < values.length
  · rw [List.getD_append _ _ _ _ hlt]
  · have hle : values.length ≤ i := Nat.not_lt.1 hlt
    rw [List.getD_append_right _ _ _ _ hle, List.getD_eq_default _ _ hle]
    rw [List.getD_eq_getElem?_getD, List.getElem?_replicate]
    split <;> rfl

/-- Profile, tier and level of a record. -/
theorem simulates_readWords (sublayers : UInt8) :
    Simulates 10000 (· = ·) (readWords sublayers) (read sublayers.toNat) := by
  refine (skips_number 2 (by decide)).seq ?_
  refine (simulates_number USize 6 (by decide)
    (Nat.le_of_lt (Word.lt_size_index (by decide)))).bind fun constraintBytes _ hbytes => ?_
  obtain ⟨rfl, hbytesLt⟩ := hbytes
  have hzero : constraintBytes = 0 ↔ Word.toNat constraintBytes = 0 := by
    have hnat : (0 : USize).toNat = 0 := Word.toNat_index 0 (by decide)
    rw [← USize.toNat_inj, hnat]
    exact Iff.rfl
  by_cases hnone : constraintBytes = 0
  · rw [if_pos hnone, if_pos (hzero.1 hnone)]
    exact simulates_refuse fun _ => rfl
  rw [if_neg hnone, if_neg (mt hzero.2 hnone)]
  have hpositive : 0 < constraintBytes.toNat := Nat.pos_of_ne_zero (mt hzero.2 hnone)
  refine (simulates_number UInt8 7 (by decide) (by decide)).bind fun profile _ hprofile => ?_
  obtain ⟨rfl, -⟩ := hprofile
  refine simulates_readBit.bindSame fun tier => ?_
  refine simulates_readUInt8.bindSame fun level => ?_
  refine simulates_readBit.bindSame fun frameOnly => ?_
  refine simulates_readBit.bindSame fun multilayer => ?_
  refine (simulates_readInfoWords hpositive (Nat.le_of_lt_succ hbytesLt)).bind
    fun info bits hinfo => ?_
  subst hinfo
  refine .after (computes_usedEntriesWords sublayers) fun entries hentries => ?_
  have hle : entries.toNat ≤ 6 := hentries ▸ Nat.min_le_right _ _
  refine (simulates_readPresentWords hentries).bind fun table present htable => ?_
  obtain ⟨rfl, hpresent⟩ := htable
  refine (simulates_readLevelWords hpresent hle).bind fun table levels htable => ?_
  subst htable
  refine ProfileTierLevel.simulates_readSubProfileWords.bindSame fun subProfiles => ?_
  simp only [getD_append_replicate]
  exact simulates_pure rfl

end ProfileRecord

/-! ### Records -/

namespace DecoderRecord

/-- Reads a NAL unit with its 16-bit length. -/
def readNalUnitWords : WordM Bytes := do
  let length ← readUInt16
  let count : USize ← Word.convert length
  readBytes count

/-- Reads an array. -/
def readArrayWords : WordM NalUnitArray := do
  let complete ← readBit
  skipNumber 2
  let code : UInt8 ← readNumber 5
  let type := NalUnitType.ofCode code.toNat
  if !type.isStorable then
    refuse (.invalidData (.typeNotStorable type))
  let count ← WordM.readIf (!type.isSingle) readUInt16 1
  let nalUnits ← collect count.toNat readNalUnitWords
  return { complete, type, nalUnits }

/-- Reads what is said about the stream. -/
def readStreamWords : WordM StreamInfo := do
  let olsIndex : UInt16 ← readNumber 9
  let sublayers : UInt8 ← readNumber 3
  let frameRate : UInt8 ← readNumber 2
  let chromaFormat : UInt8 ← readNumber 2
  let bitDepthMinus8 : UInt8 ← readNumber 3
  skipNumber 5
  let profile ← ProfileRecord.readWords sublayers
  let maxWidth ← readUInt16
  let maxHeight ← readUInt16
  let averageFrameRate ← readUInt16
  return {
    profile, maxWidth, maxHeight, averageFrameRate
    olsIndex := olsIndex.toNat
    sublayers := sublayers.toNat
    chromaFormat := chromaFormat.toNat
    bitDepthMinus8 := bitDepthMinus8.toNat
    frameRate := .ofCode frameRate.toNat }

/-- Reads a record. -/
def readWords : WordM DecoderRecord := do
  let reserved ← readBits 5
  if reserved ≠ 0b11111 then
    refuse (.invalidData .reservedBitsClear)
  let lengthSizeMinus1 : UInt8 ← readNumber 2
  if lengthSizeMinus1 = 2 then
    refuse (.invalidData .reservedLengthSize)
  let streamPresent ← readBit
  let stream ← WordM.readIf streamPresent (some <$> readStreamWords) none
  let arrayCount ← readUInt8
  let arrays ← collect arrayCount.toNat readArrayWords
  return { lengthSizeMinus1 := lengthSizeMinus1.toNat, stream, arrays }

/-- Reads a record from the start of a byte string and returns it with the bytes after it. -/
def parseWords (data : Bytes) : Except Stop (DecoderRecord × Bytes) := do
  let (record, reader) ← readWords (.ofSource (.ofBytes data))
  return (record, reader.source.remaining)

/-- A NAL unit, of 65535 bytes at the most. -/
theorem simulates_readNalUnitWords : Simulates 524296 (· = ·) readNalUnitWords readNalUnit := by
  refine simulates_readUInt16.bindSame fun length => ?_
  have hlt := length.toNat_lt
  refine .after (Word.computes_convert (Word.lt_size_index (Nat.lt_trans hlt (by decide))))
    fun count hcount => ?_
  have hcountNat : count.toNat = length.toNat := hcount
  exact (simulates_readBytes hcountNat).widen (by omega)

/-- An array, of 65535 NAL units at the most. -/
theorem simulates_readArrayWords : Simulates 34359738400 (· = ·) readArrayWords readArray := by
  refine simulates_readBit.bindSame fun complete => ?_
  refine (skips_number 2 (by decide)).seq ?_
  refine (simulates_number UInt8 5 (by decide) (by decide)).bind fun code _ hcode => ?_
  obtain ⟨hcode, -⟩ := hcode
  obtain rfl : code.toNat = _ := hcode
  by_cases hbarred : (!(NalUnitType.ofCode code.toNat).isStorable) = true
  · rw [if_pos hbarred, if_pos hbarred]
    exact simulates_refuse fun _ => rfl
  rw [if_neg hbarred, if_neg hbarred]
  refine (Simulates.readIf (fun _ => simulates_readUInt16) fun _ => rfl).bindSame fun count => ?_
  have hcount := count.toNat_lt
  have hnalUnits := (simulates_readNalUnitWords.collect count.toNat).widen
    (show _ ≤ 65535 * 524296 from Nat.mul_le_mul_right _ (by omega))
  exact hnalUnits.bindSame fun nalUnits => simulates_pure rfl

/-- What a record says about the stream. -/
theorem simulates_readStreamWords : Simulates 10072 (· = ·) readStreamWords readStream := by
  refine (simulates_number UInt16 9 (by decide) (by decide)).bind fun olsIndex _ hols => ?_
  obtain ⟨rfl, -⟩ := hols
  refine (simulates_number UInt8 3 (by decide) (by decide)).bind fun sublayers _ hsublayers => ?_
  obtain ⟨rfl, -⟩ := hsublayers
  refine (simulates_number UInt8 2 (by decide) (by decide)).bind fun frameRate _ hrate => ?_
  obtain ⟨rfl, -⟩ := hrate
  refine (simulates_number UInt8 2 (by decide) (by decide)).bind fun chromaFormat _ hchroma => ?_
  obtain ⟨rfl, -⟩ := hchroma
  refine (simulates_number UInt8 3 (by decide) (by decide)).bind fun bitDepthMinus8 _ hdepth => ?_
  obtain ⟨rfl, -⟩ := hdepth
  refine (skips_number 5 (by decide)).seq ?_
  refine (ProfileRecord.simulates_readWords sublayers).bindSame fun profile => ?_
  refine simulates_readUInt16.bindSame fun maxWidth => ?_
  refine simulates_readUInt16.bindSame fun maxHeight => ?_
  refine simulates_readUInt16.bindSame fun averageFrameRate => ?_
  exact simulates_pure rfl

/-- A record, of 2^44 bits at the most. -/
theorem simulates_readWords : Simulates 17592186044416 (· = ·) readWords read := by
  refine (simulates_readBits (show (5 : UInt8).toNat = 5 from rfl) (by decide)).bind
    fun reserved _ hreserved => ?_
  obtain ⟨rfl, -⟩ := hreserved
  have hset : reserved = 0b11111 ↔ Word.toNat reserved = 0b11111 := UInt64.toNat_inj.symm
  by_cases hclear : reserved ≠ 0b11111
  · rw [if_pos hclear, if_pos (mt hset.2 hclear)]
    exact simulates_refuse fun _ => rfl
  rw [if_neg hclear, if_neg (not_not_intro (hset.1 (not_not.1 hclear)))]
  refine (simulates_number UInt8 2 (by decide) (by decide)).bind fun lengthSize _ hsize => ?_
  obtain ⟨rfl, -⟩ := hsize
  have htwo : lengthSize = 2 ↔ Word.toNat lengthSize = 2 := UInt8.toNat_inj.symm
  by_cases hbarred : lengthSize = 2
  · rw [if_pos hbarred, if_pos (htwo.1 hbarred)]
    exact simulates_refuse fun _ => rfl
  rw [if_neg hbarred, if_neg (mt htwo.2 hbarred)]
  refine simulates_readBit.bindSame fun streamPresent => ?_
  have hstream : Simulates 10072 (· = ·) (some <$> readStreamWords) (some <$> readStream) :=
    simulates_readStreamWords.map fun _ _ => congrArg some
  refine (Simulates.readIf (fun _ => hstream) fun _ => rfl).bindSame fun stream => ?_
  refine simulates_readUInt8.bindSame fun arrayCount => ?_
  have hcount := arrayCount.toNat_lt
  have harrays := (simulates_readArrayWords.collect arrayCount.toNat).widen
    (show _ ≤ 255 * 34359738400 from Nat.mul_le_mul_right _ (by omega))
  exact harrays.bindSame fun arrays => simulates_pure rfl

/-- Nothing goes past its words in a record. -/
theorem parseWords_eq (data : Bytes) :
    parseWords data = (parse data).mapError Stop.refused :=
  simulates_readWords.run_ofSource (by decide) _

end DecoderRecord

end H266
