import H266.ParameterSet.Sequence
import H266.Proofs.Subpictures
import H266.Proofs.Words.ExpGolomb
import H266.Proofs.Words.NalUnitHeader
import H266.Proofs.Words.ProfileTierLevel

/-!
# Sequence Parameter Sets in Words

A sequence parameter set as it is read into words. The size of a picture is any code, so that the
number of blocks along it may need 64 bits, but no more; there are no more than 600 subpictures,
and their identifiers take no more than 9600 bits together.

## Main results

* `SequenceParameterSet.computes_ceilLog2Words`: the width of numbers of blocks.
* `SequenceParameterSet.IsGrid.skips_subpictures`,
  `SequenceParameterSet.simulates_readSubpictureInfoWords`: subpictures.
* `SequenceParameterSet.parseWords_eq`: the whole parameter set.
-/

namespace H266

open WordM

namespace SequenceParameterSet

/-! ### Numbers of blocks -/

/-- How many zero bits there are above the highest bit that is set. -/
def leadingZeros (a : UInt64) : UInt32 :=
  UInt32.ofNat a.toBitVec.clz.toNat

/-- The base-2 logarithm, rounded up, and zero for zero. -/
def ceilLog2Words (n : UInt64) : WordM UInt8 := do
  if n ≤ 1 then
    return 0
  else
    let below ← Word.sub n 1
    let width ← Word.sub 64 (leadingZeros below)
    Word.convert width

/-- The bits of a number and the zero bits above them fill its word. -/
theorem toNat_leadingZeros {a : UInt64} (h : a ≠ 0) :
    (leadingZeros a).toNat + (a.toNat.log2 + 1) = 64 := by
  have hne : a.toBitVec ≠ 0#64 := fun hzero => h (UInt64.toBitVec_inj.1 hzero)
  have hnat : a.toNat ≠ 0 := fun hzero => h (UInt64.toNat_inj.1 hzero)
  have hclz : a.toBitVec.clz.toNat < 64 := BitVec.clz_lt_iff_ne_zero.2 hne
  have hlow : 2 ^ (63 - a.toBitVec.clz.toNat) ≤ a.toNat :=
    BitVec.two_pow_sub_clz_le_toNat_of_ne_zero (by decide) hne
  have hhigh : a.toNat < 2 ^ (64 - a.toBitVec.clz.toNat) := BitVec.toNat_lt_two_pow_sub_clz
  have hlog : a.toNat.log2 = 63 - a.toBitVec.clz.toNat := by
    rw [Nat.log2_eq_iff hnat]
    exact ⟨hlow, by rwa [show 63 - a.toBitVec.clz.toNat + 1 = 64 - a.toBitVec.clz.toNat by omega]⟩
  have hfits : (leadingZeros a).toNat = a.toBitVec.clz.toNat :=
    UInt32.toNat_ofNat_of_lt' (Nat.lt_trans hclz (by decide))
  omega

/-- The number of bits for as many values, by the zero bits above the highest. -/
theorem computes_ceilLog2Words (n : UInt64) :
    Computes (ceilLog2Words n) fun width => width.toNat = ceilLog2 n.toNat := by
  have hone : n ≤ 1 ↔ n.toNat ≤ 1 := UInt64.le_iff_toNat_le
  rw [ceilLog2Words, ceilLog2]
  by_cases hfew : n.toNat ≤ 1
  · rw [if_pos (hone.2 hfew), if_pos hfew]
    exact computes_pure rfl
  · rw [if_neg (mt hone.1 hfew), if_neg hfew]
    refine (Word.computes_sub (show Word.toNat (1 : UInt64) ≤ Word.toNat n from
      Nat.le_of_lt (Nat.lt_of_not_le hfew))).bind fun below hbelow => ?_
    have hbelowNat : below.toNat = n.toNat - 1 := hbelow
    have hne : below ≠ 0 := fun hzero => by
      have : below.toNat = 0 := congrArg UInt64.toNat hzero
      omega
    have hzeros := toNat_leadingZeros hne
    rw [hbelowNat] at hzeros
    refine (Word.computes_sub (show Word.toNat (leadingZeros below) ≤ Word.toNat (64 : UInt32) from
      Nat.le.intro hzeros)).bind fun width hwidth => ?_
    have hwidthNat : width.toNat = (n.toNat - 1).log2 + 1 :=
      hwidth.trans (Nat.sub_eq_of_eq_add' hzeros.symm)
    have hle : width.toNat ≤ 64 := by omega
    exact (Word.computes_convert (Nat.lt_of_le_of_lt hle (by decide))).mono fun last hlast =>
      hlast.trans hwidthNat

/-- A number of blocks is skipped where it is there. -/
theorem skips_skipSized {grid : SubpictureGrid} {samples : UInt64} {width : UInt8}
    (hblock : 1 ≤ grid.blockSize)
    (hwidth : width.toNat =
      ceilLog2 ((samples.toNat + grid.blockSize - 1) / grid.blockSize)) :
    Skips 64 (WordM.skipIf (decide (grid.blockSize < samples.toNat)) (skipNumber width))
      (skipSized (grid.placeBits samples.toNat)) := by
  by_cases hlong : grid.blockSize < samples.toNat
  · rw [SubpictureGrid.placeBits, if_pos hlong, decide_eq_true hlong]
    have hle : ceilLog2 ((samples.toNat + grid.blockSize - 1) / grid.blockSize) ≤ 64 := by
      rw [ceilLog2_eq_clog]
      exact blockBits_le hblock (Nat.le_of_lt samples.toNat_lt)
    exact (skips_skipNumber hwidth hle).widen hle
  · rw [SubpictureGrid.placeBits, if_neg hlong, decide_eq_false hlong]
    exact simulates_pure trivial

/-! ### Subpictures -/

/-- What it takes to skip places and sizes of subpictures: whether horizontal ones are coded and
in how many bits, and the same for vertical ones. -/
structure GridWords where
  wide : Bool
  columnBits : UInt8
  tall : Bool
  rowBits : UInt8

/-- How places and sizes of subpictures are coded for a picture in blocks of a size. -/
def gridWords (blockSize maxWidth maxHeight : UInt64) : WordM GridWords := do
  let columns ← Word.divCeil maxWidth blockSize
  let columnBits ← ceilLog2Words columns
  let rows ← Word.divCeil maxHeight blockSize
  let rowBits ← ceilLog2Words rows
  return {
    wide := decide (blockSize < maxWidth), columnBits
    tall := decide (blockSize < maxHeight), rowBits }

/-- Skips a place or a size on a condition. -/
def GridWords.skipPair (grid : GridWords) (present : Bool) : WordM Unit := do
  WordM.skipIf (present && grid.wide) (skipNumber grid.columnBits)
  WordM.skipIf (present && grid.tall) (skipNumber grid.rowBits)

/-- Skips the place, size and flags of a subpicture. -/
def skipSubpictureWords (grid : GridWords) (independent sameSize : Bool) (last index : USize) :
    WordM Unit := do
  WordM.skipIf (!sameSize || index.toNat == 0) do
    grid.skipPair (index.toNat != 0)
    grid.skipPair (decide (index.toNat < last.toNat))
  WordM.skipIf (!independent) do
    skipFlag
    skipFlag

/-- Skips the identifiers of subpictures. -/
def skipIdentifierWords (last : USize) (idLengthMinus1 : UInt64) : WordM Unit := do
  let lastIndex : UInt64 ← Word.convert last
  let count ← Word.add lastIndex 1
  let idLength ← Word.add idLengthMinus1 1
  let bits ← Word.mul count idLength
  skipBits bits

/-- Skips subpicture information and returns one less than the number of subpictures. -/
def readSubpictureInfoWords (blockSizeLog2 : UInt8) (maxWidth maxHeight : UInt64) :
    WordM UInt16 := do
  let blockSize ← Word.shiftLeft (1 : UInt64) blockSizeLog2
  let countMinus1 ← WordM.readInRange "sps_num_subpics_minus1" 0 599 WordM.readExpGolomb
  let last : USize ← Word.convert countMinus1
  let several := last.toNat != 0
  let independent ← WordM.readIf several readBit true
  let sameSize ← WordM.readIf several readBit false
  let grid ← gridWords blockSize maxWidth maxHeight
  WordM.skipIf several
    (forM (indices (last.toNat + 1)) (skipSubpictureWords grid independent sameSize last))
  let idLengthMinus1 ← WordM.readInRange "sps_subpic_id_len_minus1" 0 15 WordM.readExpGolomb
  let explicitIds ← readBit
  let idsHere ← WordM.readIf explicitIds readBit false
  WordM.skipIf idsHere (skipIdentifierWords last idLengthMinus1)
  Word.convert countMinus1

/-- The words that belong to a grid. -/
structure IsGrid (words : GridWords) (grid : SubpictureGrid) : Prop where
  skips_column : Skips 64 (WordM.skipIf words.wide (skipNumber words.columnBits))
    (skipSized grid.columnBits)
  skips_row : Skips 64 (WordM.skipIf words.tall (skipNumber words.rowBits))
    (skipSized grid.rowBits)

/-- The widths of places in the grid, from its columns and rows. -/
theorem computes_gridWords {blockSize maxWidth maxHeight : UInt64} (hblock : 1 ≤ blockSize.toNat) :
    Computes (gridWords blockSize maxWidth maxHeight)
      (IsGrid · ⟨blockSize.toNat, maxWidth.toNat, maxHeight.toNat⟩) := by
  refine (Word.computes_divCeil hblock).bind fun columns hcolumns => ?_
  refine (computes_ceilLog2Words columns).bind fun columnBits hcolumnBits => ?_
  refine (Word.computes_divCeil hblock).bind fun rows hrows => ?_
  refine (computes_ceilLog2Words rows).bind fun rowBits hrowBits => ?_
  exact computes_pure
    { skips_column := skips_skipSized hblock (hcolumnBits.trans (congrArg ceilLog2 hcolumns))
      skips_row := skips_skipSized hblock (hrowBits.trans (congrArg ceilLog2 hrows)) }

section

variable {words : GridWords} {grid : SubpictureGrid}

/-- A column and a row. -/
theorem IsGrid.skips_pair (h : IsGrid words grid) (present : Bool) :
    Skips 128 (words.skipPair present)
      (BitReader.skipIf present do
        skipSized grid.columnBits
        skipSized grid.rowBits) := by
  cases present with
  | false => exact simulates_pure trivial
  | true =>
    rw [GridWords.skipPair, Bool.true_and, Bool.true_and]
    exact h.skips_column.seq h.skips_row

/-- A subpicture, of which the last is told by its index. -/
theorem IsGrid.skips_subpicture (h : IsGrid words grid) (independent sameSize : Bool)
    (last index : USize) :
    Skips 258 (skipSubpictureWords words independent sameSize last index)
      (skipSubpictures.skipSubpicture grid independent sameSize index.toNat
        !decide (index.toNat < last.toNat)) := by
  have hplaces := (h.skips_pair (index.toNat != 0)).seq
    (h.skips_pair (decide (index.toNat < last.toNat)))
  have hflags : Skips 2 (do skipFlag; skipFlag) (do BitReader.skipFlag; BitReader.skipFlag) :=
    skips_skipFlag.seq skips_skipFlag
  rw [skipSubpictures.skipSubpicture, Bool.not_not]
  exact (Skips.skipIf fun _ => hplaces).seq (Skips.skipIf fun _ => hflags)

/-- The loop over the subpictures from `first` on; the last of them is known by its index. -/
theorem IsGrid.skips_subpictures (h : IsGrid words grid) (independent sameSize : Bool)
    {last : USize} {first left : Nat} (hlast : first + left = last.toNat)
    (hfew : last.toNat ≤ 599) :
    Skips ((left + 1) * 258)
      (forM ((List.range' first (left + 1)).map USize.ofNat)
        (skipSubpictureWords words independent sameSize last))
      (skipSubpictures grid independent sameSize first left) := by
  have hown := fun index : Nat =>
    h.skips_subpicture independent sameSize last (USize.ofNat index)
  induction left generalizing first with
  | zero =>
    have hstep := hown first
    rw [Word.toNat_index first (by omega), decide_eq_false (by omega)] at hstep
    rw [List.range'_succ, List.map_cons, List.forM_cons, List.range'_zero, List.map_nil,
      List.forM_nil, bind_pure_unit]
    exact hstep.widen (by decide)
  | succ left ih =>
    have hstep := hown first
    rw [Word.toNat_index first (by omega), decide_eq_true (by omega)] at hstep
    rw [List.range'_succ, List.map_cons, List.forM_cons, Nat.succ_mul]
    exact hstep.seq (ih (by omega))

end

/-- The identifiers of subpictures take as many bits as a word can tell. -/
theorem skips_skipIdentifierWords {last : USize} {idLengthMinus1 : UInt64}
    (hlast : last.toNat ≤ 599) (hlength : idLengthMinus1.toNat ≤ 15) :
    Skips 9600 (skipIdentifierWords last idLengthMinus1)
      (BitReader.skipBits ((last.toNat + 1) * (idLengthMinus1.toNat + 1))) := by
  have hone : Word.toNat (1 : UInt64) = 1 := rfl
  refine .after (Word.computes_convert (Nat.lt_of_le_of_lt hlast (by decide)))
    fun lastIndex hlastIndex => ?_
  have hlastNat : Word.toNat lastIndex = last.toNat := hlastIndex
  refine .after (Word.computes_add (Nat.lt_of_le_of_lt
    (show Word.toNat lastIndex + Word.toNat 1 ≤ 600 by omega) (by decide))) fun count hcount => ?_
  refine .after (Word.computes_add (Nat.lt_of_le_of_lt
    (show idLengthMinus1.toNat + 1 ≤ 16 by omega) (by decide))) fun idLength hidLength => ?_
  have hproduct : Word.toNat count * Word.toNat idLength =
      (last.toNat + 1) * (idLengthMinus1.toNat + 1) := by
    rw [hcount, hidLength, hlastNat]
    rfl
  have hle : (last.toNat + 1) * (idLengthMinus1.toNat + 1) ≤ 600 * 16 :=
    Nat.mul_le_mul (by omega) (by omega)
  refine .after (Word.computes_mul (by rw [hproduct]; exact Nat.lt_of_le_of_lt hle (by decide)))
    fun bits hbits => ?_
  exact (skips_skipBits (hbits.trans hproduct)).widen hle

/-- All that is said about subpictures. -/
theorem simulates_readSubpictureInfoWords {blockSizeLog2 : UInt8} {maxWidth maxHeight : UInt64}
    (hblock : blockSizeLog2.toNat ≤ 7) :
    Simulates 180000 (fun word value => word.toNat = value)
      (readSubpictureInfoWords blockSizeLog2 maxWidth maxHeight)
      (readSubpictureInfo ⟨1 <<< blockSizeLog2.toNat, maxWidth.toNat, maxHeight.toNat⟩) := by
  have hone : Word.toNat (1 : UInt64) * 2 ^ blockSizeLog2.toNat = 2 ^ blockSizeLog2.toNat :=
    Nat.one_mul _
  have hpower : 2 ^ blockSizeLog2.toNat ≤ 2 ^ 7 := Nat.pow_le_pow_right (by decide) hblock
  have hsize : 2 ^ blockSizeLog2.toNat < Word.size UInt64 := Nat.lt_of_le_of_lt hpower (by decide)
  refine .after (Word.computes_shiftLeft hsize (by rwa [← hone] at hsize))
    fun blockSize hvalue => ?_
  have hblockNat : blockSize.toNat = 1 <<< blockSizeLog2.toNat :=
    hvalue.trans (Nat.shiftLeft_eq 1 _).symm
  have hpositive : 1 ≤ blockSize.toNat := by
    rw [hblockNat, Nat.one_shiftLeft]
    exact Nat.one_le_two_pow
  rw [← hblockNat]
  refine (simulates_readExpGolomb.readInRange rfl rfl fun _ _ => And.left).bind
    fun countMinus1 _ hcount => ?_
  obtain ⟨rfl, hcountLe⟩ := hcount
  refine .after (Word.computes_convert (Word.lt_size_index
    (Nat.lt_of_le_of_lt hcountLe (by decide)))) fun last hlast => ?_
  have hlastNat : last.toNat = Word.toNat countMinus1 := hlast
  have hfew : last.toNat ≤ 599 := hlastNat.trans_le hcountLe
  rw [← hlastNat]
  refine (Simulates.readIf (fun _ => simulates_readBit) fun _ => rfl).bindSame fun independent => ?_
  refine (Simulates.readIf (fun _ => simulates_readBit) fun _ => rfl).bindSame fun sameSize => ?_
  refine .after (computes_gridWords hpositive) fun words hgrid => ?_
  -- At most 600 subpictures, and 258 bits for each of them.
  have hsubpictures : Skips 154800
      (forM (indices (last.toNat + 1)) (skipSubpictureWords words independent sameSize last))
      (skipSubpictures ⟨blockSize.toNat, maxWidth.toNat, maxHeight.toNat⟩ independent sameSize 0
        last.toNat) := by
    rw [indices, List.range_eq_range']
    exact (hgrid.skips_subpictures independent sameSize (Nat.zero_add _) hfew).widen (by omega)
  refine (Skips.skipIf fun _ => hsubpictures).seq ?_
  refine (simulates_readExpGolomb.readInRange rfl rfl fun _ _ => And.left).bind
    fun idLengthMinus1 _ hlength => ?_
  obtain ⟨rfl, hshort⟩ := hlength
  refine simulates_readBit.bindSame fun explicitIds => ?_
  refine (Simulates.readIf (fun _ => simulates_readBit) fun _ => rfl).bindSame fun idsHere => ?_
  refine (Skips.skipIf fun _ => skips_skipIdentifierWords hfew hshort).seq ?_
  rw [hlastNat]
  exact (Word.computes_convert (Nat.lt_of_le_of_lt hcountLe (by decide))).simulates fun _ h => h

/-! ### Reading -/

/-- Skips the offsets of a conformance window. -/
def skipConformanceWindowWords : WordM Unit :=
  times 4 WordM.skipExpGolomb

/-- Reads what follows the header. -/
def readPayloadWords (header : NalUnitHeader) : WordM SequenceParameterSet := do
  let id : UInt8 ← readNumber 4
  let videoParameterSetId : UInt8 ← readNumber 4
  let maxSublayersMinus1 : UInt8 ←
    WordM.readInRange "sps_max_sublayers_minus1" 0 6 (readNumber 3)
  let chromaFormat : UInt8 ← readNumber 2
  let log2CtuSizeMinus5 : UInt8 ←
    WordM.readInRange "sps_log2_ctu_size_minus5" 0 2 (readNumber 2)
  let profilePresent ← readBit
  let profileTierLevel ←
    WordM.readIf profilePresent (some <$> ProfileTierLevel.readWords true maxSublayersMinus1) none
  skipFlag
  let resampling ← readBit
  WordM.skipIf resampling skipFlag
  let maxWidth ← WordM.readExpGolomb
  let maxHeight ← WordM.readExpGolomb
  let windowPresent ← readBit
  WordM.skipIf windowPresent skipConformanceWindowWords
  let subpicturesPresent ← readBit
  let subpicturesMinus1 ← WordM.readIf subpicturesPresent (do
    let blockSizeLog2 ← Word.add log2CtuSizeMinus5 5
    readSubpictureInfoWords blockSizeLog2 maxWidth maxHeight) 0
  let bitDepthMinus8 ← WordM.readInRange "sps_bitdepth_minus8" 0 8 WordM.readExpGolomb
  let bitDepth : UInt8 ← Word.convert bitDepthMinus8
  return {
    header, profileTierLevel
    id := id.toNat
    videoParameterSetId := videoParameterSetId.toNat
    maxSublayersMinus1 := maxSublayersMinus1.toNat
    chromaFormat := chromaFormat.toNat
    log2CtuSizeMinus5 := log2CtuSizeMinus5.toNat
    maxWidth := maxWidth.toNat
    maxHeight := maxHeight.toNat
    subpicturesMinus1 := subpicturesMinus1.toNat
    bitDepthMinus8 := bitDepth.toNat }

/-- Reads a sequence parameter set and returns it with the bytes that were not read. -/
def parseWords (nalUnit : Bytes) : Except Stop (SequenceParameterSet × Bytes) := do
  let (header, payload) ← NalUnitHeader.splitParameterSetWords .sequence nalUnit
  let (sps, reader) ← readPayloadWords header (.ofSource (.ofEscaped payload))
  return (sps, reader.source.remaining)

/-- A sequence parameter set behind its header. -/
theorem simulates_readPayloadWords (header : NalUnitHeader) :
    Simulates 200000 (· = ·) (readPayloadWords header) (readPayload header) := by
  refine (simulates_number UInt8 4 (by decide) (by decide)).bind fun id _ hid => ?_
  obtain ⟨rfl, -⟩ := hid
  refine (simulates_number UInt8 4 (by decide) (by decide)).bind fun videoId _ hvideoId => ?_
  obtain ⟨rfl, -⟩ := hvideoId
  refine ((simulates_number UInt8 3 (by decide) (by decide)).readInRange rfl rfl
    fun _ _ => And.left).bind fun maxSublayersMinus1 _ hsublayers => ?_
  obtain ⟨rfl, -⟩ := hsublayers
  refine (simulates_number UInt8 2 (by decide) (by decide)).bind fun chromaFormat _ hchroma => ?_
  obtain ⟨rfl, -⟩ := hchroma
  refine ((simulates_number UInt8 2 (by decide) (by decide)).readInRange rfl rfl
    fun _ _ => And.left).bind fun log2CtuSizeMinus5 _ hctu => ?_
  obtain ⟨rfl, hctuLe⟩ := hctu
  refine simulates_readBit.bindSame fun profilePresent => ?_
  have hptl : Simulates 16384 (· = ·)
      (some <$> ProfileTierLevel.readWords true maxSublayersMinus1)
      (some <$> ProfileTierLevel.read true (Word.toNat maxSublayersMinus1)) :=
    (ProfileTierLevel.simulates_readWords true maxSublayersMinus1).map fun _ _ => congrArg some
  refine (Simulates.readIf (fun _ => hptl) fun _ => rfl).bindSame fun profileTierLevel => ?_
  refine skips_skipFlag.seq ?_
  refine simulates_readBit.bindSame fun resampling => ?_
  refine (Skips.skipIf fun _ => skips_skipFlag).seq ?_
  refine simulates_readExpGolomb.bind fun maxWidth _ hwidth => ?_
  obtain ⟨rfl, -⟩ := hwidth
  refine simulates_readExpGolomb.bind fun maxHeight _ hheight => ?_
  obtain ⟨rfl, -⟩ := hheight
  refine simulates_readBit.bindSame fun windowPresent => ?_
  refine (Skips.skipIf fun _ => skips_skipExpGolomb.times 4).seq ?_
  refine simulates_readBit.bindSame fun subpicturesPresent => ?_
  have hsubpictures : Simulates 180000 (fun (word : UInt16) value => word.toNat = value)
      (do
        let blockSizeLog2 ← Word.add log2CtuSizeMinus5 5
        readSubpictureInfoWords blockSizeLog2 maxWidth maxHeight)
      (readSubpictureInfo
        ⟨1 <<< (Word.toNat log2CtuSizeMinus5 + 5), maxWidth.toNat, maxHeight.toNat⟩) := by
    have hsum : Word.toNat log2CtuSizeMinus5 + Word.toNat (5 : UInt8) ≤ 7 :=
      Nat.add_le_add_right hctuLe 5
    refine .after (Word.computes_add (Nat.lt_of_le_of_lt hsum (by decide)))
      fun blockSizeLog2 hlog => ?_
    have hlogNat : blockSizeLog2.toNat = Word.toNat log2CtuSizeMinus5 + 5 := hlog
    rw [← hlogNat]
    exact simulates_readSubpictureInfoWords (hlogNat.trans_le hsum)
  refine (Simulates.readIf (fun _ => hsubpictures) fun _ => rfl).bind fun subpictures _ heq => ?_
  obtain rfl := heq
  refine (simulates_readExpGolomb.readInRange rfl rfl fun _ _ => And.left).bind
    fun bitDepthMinus8 _ hdepth => ?_
  obtain ⟨rfl, hdepthLe⟩ := hdepth
  refine .after (Word.computes_convert (Nat.lt_of_le_of_lt hdepthLe (by decide)))
    fun bitDepth hbitDepth => ?_
  have hbitDepthNat : bitDepth.toNat = Word.toNat bitDepthMinus8 := hbitDepth
  rw [hbitDepthNat]
  exact simulates_pure rfl

/-- Nothing goes past its words in a sequence parameter set. -/
theorem parseWords_eq (nalUnit : Bytes) :
    parseWords nalUnit = (parse nalUnit).mapError Stop.refused := by
  refine bind_mapError_refused (NalUnitHeader.splitParameterSetWords_eq .sequence nalUnit)
    fun split => ?_
  exact (simulates_readPayloadWords split.1).run_ofSource (by decide) _

end SequenceParameterSet

end H266
