import H266.Proofs.ParameterSet
import H266.Proofs.ProfileTierLevel
import H266.Proofs.Subpictures

/-!
# Syntax of Sequence Parameter Sets

The syntax tree of a sequence parameter set up to the bit depth, which is as far as it is read.
The written form of a valid tree, put into a NAL unit with any bits after it, is read exactly to
its end.

## Main results

* `SpsSyntax.decodes_readPayload`: the written form is decoded to the value of the tree.
* `SpsSyntax.exists_parse_sequence`: from the tree to a NAL unit and back.
-/

namespace H266

open BitReader SequenceParameterSet

/-- The offsets of a conformance window. -/
structure WindowSyntax where
  /-- `sps_conf_win_left_offset`. -/
  left : ExpGolomb.Value
  /-- `sps_conf_win_right_offset`. -/
  right : ExpGolomb.Value
  /-- `sps_conf_win_top_offset`. -/
  top : ExpGolomb.Value
  /-- `sps_conf_win_bottom_offset`. -/
  bottom : ExpGolomb.Value

/-- The written form. -/
def WindowSyntax.layout (window : WindowSyntax) : Layout :=
  [.expGolomb window.left, .expGolomb window.right, .expGolomb window.top,
    .expGolomb window.bottom]

/-- The four offsets of the conformance window are read past. -/
theorem WindowSyntax.decodes_skipConformanceWindow (window : WindowSyntax) :
    Decodes skipConformanceWindow window.layout () :=
  decodes_skipTimes [window.left, window.right, window.top, window.bottom] fun offset _ =>
    decodes_skipExpGolomb offset.val

/-- A sequence parameter set, as far as it is read. -/
structure SpsSyntax where
  /-- `sps_seq_parameter_set_id`. -/
  id : Fin 16
  /-- `sps_video_parameter_set_id`. -/
  videoParameterSetId : Fin 16
  /-- `sps_max_sublayers_minus1`. -/
  maxSublayersMinus1 : Fin 7
  /-- `sps_chroma_format_idc`. -/
  chromaFormat : Fin 4
  /-- `sps_log2_ctu_size_minus5`. -/
  log2CtuSizeMinus5 : Fin 3
  ptl : Option PtlSyntax
  /-- `sps_gdr_enabled_flag`. -/
  gdr : Bool
  /-- `sps_ref_pic_resampling_enabled_flag`. -/
  resampling : Bool
  /-- `sps_res_change_in_clvs_allowed_flag`. -/
  resolutionChange : Option Bool
  /-- `sps_pic_width_max_in_luma_samples`. -/
  maxWidth : ExpGolomb.Value
  /-- `sps_pic_height_max_in_luma_samples`. -/
  maxHeight : ExpGolomb.Value
  window : Option WindowSyntax
  subpictures : Option SubpictureInfoSyntax
  /-- `sps_bitdepth_minus8`. -/
  bitDepthMinus8 : Fin 9

namespace SpsSyntax

/-- How the places and sizes of subpictures are coded. -/
def grid (tree : SpsSyntax) : SubpictureGrid where
  blockSize := 1 <<< (tree.log2CtuSizeMinus5.val + 5)
  maxWidth := tree.maxWidth
  maxHeight := tree.maxHeight

/-- The written form. -/
def layout (tree : SpsSyntax) : Layout :=
  [.number tree.id 4, .number tree.videoParameterSetId 4, .number tree.maxSublayersMinus1 3,
    .number tree.chromaFormat 2, .number tree.log2CtuSizeMinus5 2, .flag tree.ptl.isSome]
    ++ tree.ptl.toList.flatMap PtlSyntax.layout
    ++ [.flag tree.gdr, .flag tree.resampling]
    ++ tree.resolutionChange.toList.flatMap (fun own => [.flag own])
    ++ [.expGolomb tree.maxWidth, .expGolomb tree.maxHeight, .flag tree.window.isSome]
    ++ tree.window.toList.flatMap WindowSyntax.layout
    ++ [.flag tree.subpictures.isSome]
    ++ tree.subpictures.toList.flatMap (SubpictureInfoSyntax.layout tree.grid)
    ++ [.expGolomb tree.bitDepthMinus8]

/-- Whether just those elements are there that the elements before them call for. -/
structure Valid (tree : SpsSyntax) : Prop where
  isSome_profileTier : ∀ own, tree.ptl = some own → own.profileTier.isSome = true
  length_sublayerLevels : ∀ own, tree.ptl = some own →
    own.sublayerLevels.length = tree.maxSublayersMinus1
  resolutionChange : tree.resolutionChange.isSome = tree.resampling
  subpictures : ∀ own, tree.subpictures = some own → own.Valid tree.grid

/-- What is left of the parameter set after reading. -/
def value (tree : SpsSyntax) (header : NalUnitHeader) : SequenceParameterSet where
  header := header
  id := tree.id
  videoParameterSetId := tree.videoParameterSetId
  maxSublayersMinus1 := tree.maxSublayersMinus1
  chromaFormat := tree.chromaFormat
  log2CtuSizeMinus5 := tree.log2CtuSizeMinus5
  profileTierLevel := tree.ptl.map PtlSyntax.value
  maxWidth := tree.maxWidth
  maxHeight := tree.maxHeight
  subpicturesMinus1 := (tree.subpictures.map fun own => own.countMinus1.val).getD 0
  bitDepthMinus8 := tree.bitDepthMinus8

/-- Profile, tier and level cover all sublayers, and state profile and tier. -/
theorem decodes_readPtl {tree : SpsSyntax} (h : tree.Valid) :
    Decodes
      (readIf tree.ptl.isSome (some <$> ProfileTierLevel.read true tree.maxSublayersMinus1) none)
      (tree.ptl.toList.flatMap PtlSyntax.layout) (tree.ptl.map PtlSyntax.value) := by
  have hvalue : tree.ptl.map PtlSyntax.value =
      (tree.ptl.map fun own => some own.value).getD none := by
    cases tree.ptl <;> rfl
  rw [hvalue]
  refine decodes_readIf_option rfl fun own hown => ?_
  rw [← h.isSome_profileTier own hown, ← h.length_sublayerLevels own hown]
  exact own.decodes_read.map some

/-- The written form of a valid tree is decoded to its value. -/
theorem decodes_readPayload {tree : SpsSyntax} (h : tree.Valid) (header : NalUnitHeader) :
    Decodes (readPayload header) tree.layout (tree.value header) := by
  have hmaxSublayers : Decodes (readInRange "sps_max_sublayers_minus1" 0 6 (readBits 3))
      [.number tree.maxSublayersMinus1 3] tree.maxSublayersMinus1.val :=
    decodes_readInRange_fin (decodes_readBits _ 3)
  have hctuSize : Decodes (readInRange "sps_log2_ctu_size_minus5" 0 2 (readBits 2))
      [.number tree.log2CtuSizeMinus5 2] tree.log2CtuSizeMinus5.val :=
    decodes_readInRange_fin (decodes_readBits _ 2)
  have hresolutionChange : Decodes (skipIf tree.resampling skipFlag)
      (tree.resolutionChange.toList.flatMap fun own => [.flag own]) () :=
    decodes_skipIf_option h.resolutionChange fun own _ => decodes_skipFlag own
  have hwindow : Decodes (skipIf tree.window.isSome skipConformanceWindow)
      (tree.window.toList.flatMap WindowSyntax.layout) () :=
    decodes_skipIf_option rfl fun own _ => own.decodes_skipConformanceWindow
  have hsubpictures : Decodes (readIf tree.subpictures.isSome (readSubpictureInfo tree.grid) 0)
      (tree.subpictures.toList.flatMap (SubpictureInfoSyntax.layout tree.grid))
      ((tree.subpictures.map fun own => own.countMinus1.val).getD 0) :=
    decodes_readIf_option rfl fun own hown =>
      SubpictureInfoSyntax.decodes_readSubpictureInfo (h.subpictures own hown)
  have hbitDepth : Decodes (readInRange "sps_bitdepth_minus8" 0 8 readExpGolomb)
      [.expGolomb tree.bitDepthMinus8] tree.bitDepthMinus8.val :=
    decodes_readInRange_fin (decodes_readExpGolomb _)
  simp only [layout, List.append_assoc, List.cons_append, List.nil_append]
  refine (decodes_readBits _ 4).cons ((decodes_readBits _ 4).cons (hmaxSublayers.cons
    ((decodes_readBits _ 2).cons (hctuSize.cons ((decodes_readBit _).cons
    ((decodes_readPtl h).bind ?_))))))
  refine (decodes_skipFlag _).cons ((decodes_readBit _).cons (hresolutionChange.bind
    ((decodes_readExpGolomb _).cons ((decodes_readExpGolomb _).cons ((decodes_readBit _).cons
    (hwindow.bind ?_))))))
  exact (decodes_readBit _).cons (hsubpictures.bind (hbitDepth.bind_nil (decodes_pure _)))

/-! ### From the tree to a NAL unit and back -/

/-- The fields of a valid tree fit their widths. -/
theorem fits_layout {tree : SpsSyntax} (h : tree.Valid) : tree.layout.Fits := by
  have hblock : 1 ≤ tree.grid.blockSize := by
    rw [grid, Nat.one_shiftLeft]
    exact Nat.one_le_two_pow
  have hcolumn : SubpictureSyntax.columnWidth tree.grid ≤ 64 :=
    blockBits_le hblock (Nat.le_trans tree.maxWidth.isLt.le (Nat.sub_le _ _))
  have hrow : SubpictureSyntax.rowWidth tree.grid ≤ 64 :=
    blockBits_le hblock (Nat.le_trans tree.maxHeight.isLt.le (Nat.sub_le _ _))
  have hmaxSublayers : (Item.number tree.maxSublayersMinus1 3).Fits :=
    Nat.lt_trans tree.maxSublayersMinus1.isLt (by decide)
  have hctuSize : (Item.number tree.log2CtuSizeMinus5 2).Fits :=
    Nat.lt_trans tree.log2CtuSizeMinus5.isLt (by decide)
  have hsubpictures (own : SubpictureInfoSyntax) (hown : tree.subpictures = some own) :
      (own.layout tree.grid).Fits :=
    SubpictureInfoSyntax.fits_layout (h.subpictures own hown) hcolumn hrow
  have hbitDepth : (Item.expGolomb tree.bitDepthMinus8).Fits := by
    rw [Item.fits_expGolomb]
    omega
  simp [layout, hmaxSublayers, hctuSize, hbitDepth, PtlSyntax.fits_layout, WindowSyntax.layout]
  exact hsubpictures

/-- **Reading against the syntax**: put the written form of a valid tree and any bits after it
into a NAL unit, with a valid header for a sequence parameter set and emulation prevention
bytes. The NAL unit is read to the value of the tree. Of the payload just the bits of the tree
are read, the last of them those of the bit depth. -/
theorem exists_parse_sequence {tree : SpsSyntax} (htree : tree.Valid) {header : NalUnitHeader}
    (hheader : header.Valid) (htype : header.type = .sequenceParameterSet) (reserved : Bool)
    (following : Bits) :
    ∃ payload reader,
      BitWriter.encodeEscaped (tree.layout ++ following.map .flag) = .ok payload ∧
        readPayload header (.ofEscaped payload) = .ok (tree.value header, reader) ∧
        reader.position = tree.layout.bits.length ∧
        reader.source =
          ((ByteSource.ofEscaped payload).take ((tree.layout.bits.length + 7) / 8)).2 ∧
        parse (header.bytes reserved ++ payload) = .ok (tree.value header, reader.unread) :=
  (decodes_readPayload htree header).run_parameterSet .sequence (fits_layout htree) hheader htype
    reserved following

/-- A picture of fifteen by nine blocks, cut into three subpictures side by side; more bits
follow the bit depth. -/
theorem exists_parse_sequence_three_subpictures :
    let tree : SpsSyntax :=
      { id := 0
        videoParameterSetId := 1
        maxSublayersMinus1 := 1
        chromaFormat := 1
        log2CtuSizeMinus5 := 2
        ptl := some ⟨some ⟨1, false, none, [], by decide⟩, 60, true, false, [some 32], by decide⟩
        gdr := false
        resampling := true
        resolutionChange := some false
        maxWidth := 1920
        maxHeight := 1080
        window := some ⟨0, 0, 0, 4⟩
        subpictures := some
          { countMinus1 := 2
            independent := some false
            sameSize := some false
            subpictures := some [⟨none, none, some 4, some 8, some (true, false)⟩,
              ⟨some 5, some 0, some 4, some 8, some (true, true)⟩,
              ⟨some 10, some 0, none, none, some (false, false)⟩]
            idLengthMinus1 := 3
            explicitIds := true
            idsHere := some true
            ids := some [1, 2, 9] }
        bitDepthMinus8 := 2 }
    let header : NalUnitHeader := ⟨0, .sequenceParameterSet, 1⟩
    tree.Valid ∧ header.Valid ∧ ∃ payload reader,
      BitWriter.encodeEscaped (tree.layout ++ [.flag true, .flag false]) = .ok payload ∧
        readPayload header (.ofEscaped payload) = .ok (tree.value header, reader) ∧
        reader.position = tree.layout.bits.length ∧
        reader.source =
          ((ByteSource.ofEscaped payload).take ((tree.layout.bits.length + 7) / 8)).2 ∧
        parse (header.bytes false ++ payload) = .ok (tree.value header, reader.unread) := by
  intro tree header
  have hgrid : tree.grid = ⟨128, 1920, 1080⟩ := rfl
  have hcolumn : SubpictureSyntax.columnWidth tree.grid = 4 := by
    rw [hgrid]
    exact (ceilLog2_eq_clog 15).symm
  have hrow : SubpictureSyntax.rowWidth tree.grid = 4 := by
    rw [hgrid]
    exact (ceilLog2_eq_clog 9).symm
  have hptl : ∀ own, tree.ptl = some own →
      own.profileTier.isSome = true ∧ own.sublayerLevels.length = 1 := by
    rintro own ⟨⟩
    exact ⟨rfl, rfl⟩
  have hsubpictures : ∀ own, tree.subpictures = some own → own.Valid tree.grid := by
    rintro info ⟨⟩
    refine ⟨rfl, rfl, rfl, by decide, ?_, rfl, rfl, by decide, by decide⟩
    rintro own ⟨⟩ i subpicture hsubpicture
    rcases i with _ | _ | _ | i
    · cases hsubpicture
      exact ⟨rfl, rfl, rfl, rfl, rfl, by simp, by simp, by simp [hcolumn], by simp [hrow]⟩
    · cases hsubpicture
      exact ⟨rfl, rfl, rfl, rfl, rfl, by simp [hcolumn], by simp [hrow], by simp [hcolumn],
        by simp [hrow]⟩
    · cases hsubpicture
      exact ⟨rfl, rfl, rfl, rfl, rfl, by simp [hcolumn], by simp [hrow], by simp, by simp⟩
    · cases hsubpicture
  have htree : tree.Valid :=
    { isSome_profileTier := fun own hown => (hptl own hown).1
      length_sublayerLevels := fun own hown => (hptl own hown).2
      resolutionChange := rfl
      subpictures := hsubpictures }
  have hheader : header.Valid := ⟨by decide, by decide, by decide⟩
  exact ⟨htree, hheader, exists_parse_sequence htree hheader rfl false [true, false]⟩

end SpsSyntax

end H266
