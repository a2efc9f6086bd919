import H266.ParameterSet.Sequence
import H266.Proofs.Decoding
import Mathlib.Data.Nat.Log

/-!
# Syntax of Subpicture Information

The syntax trees of the subpicture information in a sequence parameter set. Where places and
sizes of subpictures are stated they are counted in coding tree blocks, in as many bits as it
takes to tell apart the columns or the rows of blocks of the picture.

## Main results

* `ceilLog2_eq_clog`: the width of these numbers.
* `SubpictureSyntax.decodes_skipSubpictures`: skipping the layout of the subpictures.
* `SubpictureInfoSyntax.decodes_readSubpictureInfo`: reading subpicture information.
-/

namespace H266

open BitReader SequenceParameterSet

/-! ### Numbers of blocks -/

/-- The base-2 logarithm, rounded up. -/
theorem ceilLog2_eq_clog (n : Nat) : ceilLog2 n = Nat.clog 2 n := by
  rw [ceilLog2]
  split
  · rw [Nat.clog_of_right_le_one (by assumption)]
  · refine eq_of_forall_ge_iff fun width => ?_
    have hlog : (n - 1).log2 < width ↔ n - 1 < 2 ^ width := Nat.log2_lt (by omega)
    rw [Nat.clog_le_iff_le_pow (by decide)]
    omega

/-- How many bits it takes to number the blocks along a row or a column of samples. -/
def blockBits (blockSize samples : Nat) : Nat :=
  Nat.clog 2 ((samples + blockSize - 1) / blockSize)

/-- A number of blocks in the given width, where it is there. -/
def placeLayout (width : Nat) (place : Option Nat) : Layout :=
  place.toList.flatMap fun own => [.number own width]

/-- A number that is not there takes no bits. -/
theorem placeLayout_eq_nil {width : Nat} {place : Option Nat} (h : place.isSome = false) :
    placeLayout width place = [] := by
  rw [Option.isNone_iff_eq_none.1 (Option.isSome_eq_false_iff.1 h)]
  rfl

/-- A place is skipped if the picture is larger than a block. -/
theorem decodes_skipSized {grid : SubpictureGrid} {samples : Nat} {place : Option Nat}
    (h : place.isSome = decide (grid.blockSize < samples)) :
    Decodes (skipSized (grid.placeBits samples))
      (placeLayout (blockBits grid.blockSize samples) place) () := by
  by_cases hlong : grid.blockSize < samples
  · obtain ⟨own, rfl⟩ := Option.isSome_iff_exists.1 (h.trans (decide_eq_true hlong))
    rw [SubpictureGrid.placeBits, if_pos hlong, ceilLog2_eq_clog]
    exact decodes_skipNumber own _
  · rw [SubpictureGrid.placeBits, if_neg hlong,
      placeLayout_eq_nil (h.trans (decide_eq_false hlong))]
    exact decodes_pure ()

/-- Numbers of blocks have at most 64 bits if the number of samples has. -/
theorem blockBits_le {blockSize samples : Nat} (hblock : 1 ≤ blockSize) (h : samples ≤ 2 ^ 64) :
    blockBits blockSize samples ≤ 64 := by
  refine (Nat.clog_le_iff_le_pow (by decide)).2 ?_
  have hsum : samples + blockSize - 1 < (2 ^ 64 + 1) * blockSize := by
    rw [Nat.add_mul, Nat.one_mul]
    have := Nat.le_mul_of_pos_right samples hblock
    have := Nat.mul_le_mul_right blockSize h
    omega
  exact Nat.lt_succ_iff.1 (Nat.div_lt_of_lt_mul (by rwa [Nat.mul_comm]))

/-- A place that is in the picture fits its width. -/
theorem fits_placeLayout {width : Nat} {place : Option Nat} (hwidth : width ≤ 64)
    (h : ∀ own, place = some own → own < 2 ^ width) : (placeLayout width place).Fits := by
  cases place with
  | none => exact Layout.fits_nil
  | some own =>
    have hown := h own rfl
    rw [← Nat.min_eq_left hwidth] at hown
    exact Layout.fits_cons.2 ⟨hown, Layout.fits_nil⟩

/-! ### Subpictures -/

/-- The place, size and flags of a subpicture. -/
structure SubpictureSyntax where
  /-- `sps_subpic_ctu_top_left_x`. -/
  left : Option Nat
  /-- `sps_subpic_ctu_top_left_y`. -/
  top : Option Nat
  /-- `sps_subpic_width_minus1`. -/
  width : Option Nat
  /-- `sps_subpic_height_minus1`. -/
  height : Option Nat
  /-- `sps_subpic_treated_as_pic_flag` and `sps_loop_filter_across_subpic_enabled_flag`. -/
  flags : Option (Bool × Bool)

namespace SubpictureSyntax

variable (grid : SubpictureGrid)

/-- The width of horizontal places and sizes. -/
abbrev columnWidth : Nat :=
  blockBits grid.blockSize grid.maxWidth

/-- The width of vertical places and sizes. -/
abbrev rowWidth : Nat :=
  blockBits grid.blockSize grid.maxHeight

/-- The written form. -/
def layout (subpicture : SubpictureSyntax) : Layout :=
  (placeLayout (columnWidth grid) subpicture.left ++ placeLayout (rowWidth grid) subpicture.top)
    ++ (placeLayout (columnWidth grid) subpicture.width
      ++ placeLayout (rowWidth grid) subpicture.height)
    ++ subpicture.flags.toList.flatMap fun own => [.flag own.1, .flag own.2]

/-- Whether just those elements are there that subpicture `index` has, and their values fit.
Subpictures of one size are placed by the first alone; the first is placed at the origin, and
the last takes what is left of the picture. Columns are numbered if there are several, and so
are rows. -/
structure ValidAt (independent sameSize : Bool) (index : Nat) (isLast : Bool)
    (subpicture : SubpictureSyntax) : Prop where
  left : subpicture.left.isSome = ((!sameSize || index == 0) && (index != 0 &&
    decide (grid.blockSize < grid.maxWidth)))
  top : subpicture.top.isSome = ((!sameSize || index == 0) && (index != 0 &&
    decide (grid.blockSize < grid.maxHeight)))
  width : subpicture.width.isSome = ((!sameSize || index == 0) && (!isLast &&
    decide (grid.blockSize < grid.maxWidth)))
  height : subpicture.height.isSome = ((!sameSize || index == 0) && (!isLast &&
    decide (grid.blockSize < grid.maxHeight)))
  flags : subpicture.flags.isSome = !independent
  left_lt : ∀ own, subpicture.left = some own → own < 2 ^ columnWidth grid
  top_lt : ∀ own, subpicture.top = some own → own < 2 ^ rowWidth grid
  width_lt : ∀ own, subpicture.width = some own → own < 2 ^ columnWidth grid
  height_lt : ∀ own, subpicture.height = some own → own < 2 ^ rowWidth grid

variable {grid}

/-- A column and a row, where both are called for. -/
theorem decodes_skipPair {present : Bool} {column row : Option Nat}
    (hcolumn : column.isSome = (present && decide (grid.blockSize < grid.maxWidth)))
    (hrow : row.isSome = (present && decide (grid.blockSize < grid.maxHeight))) :
    Decodes
      (skipIf present do
        skipSized grid.columnBits
        skipSized grid.rowBits)
      (placeLayout (columnWidth grid) column ++ placeLayout (rowWidth grid) row) () := by
  refine decodes_skipIf (fun hpresent => ?_) fun habsent => ?_
  · rw [hpresent, Bool.true_and] at hcolumn hrow
    exact (decodes_skipSized hcolumn).bind (decodes_skipSized hrow)
  · rw [habsent, Bool.false_and] at hcolumn hrow
    rw [placeLayout_eq_nil hcolumn, placeLayout_eq_nil hrow]
    rfl

/-- A subpicture is skipped, whatever it has to state. -/
theorem decodes_skipSubpicture {independent sameSize isLast : Bool} {index : Nat}
    {subpicture : SubpictureSyntax}
    (h : subpicture.ValidAt grid independent sameSize index isLast) :
    Decodes (skipSubpictures.skipSubpicture grid independent sameSize index isLast)
      (subpicture.layout grid) () := by
  obtain ⟨hleft, htop, hwidth, hheight, hflags⟩ := h
  refine Decodes.bind (decodes_skipIf (fun hplaced => ?_) fun hsame => ?_)
    (decodes_skipIf_option hflags fun own _ =>
      (decodes_skipFlag own.1).cons (decodes_skipFlag own.2))
  · rw [hplaced, Bool.true_and] at hleft htop hwidth hheight
    exact (decodes_skipPair hleft htop).bind (decodes_skipPair hwidth hheight)
  · rw [hsame, Bool.false_and] at hleft htop hwidth hheight
    rw [placeLayout_eq_nil hleft, placeLayout_eq_nil htop, placeLayout_eq_nil hwidth,
      placeLayout_eq_nil hheight]
    rfl

/-- The numbers of a subpicture fit their widths. -/
theorem fits_layout {independent sameSize isLast : Bool} {index : Nat}
    {subpicture : SubpictureSyntax}
    (h : subpicture.ValidAt grid independent sameSize index isLast)
    (hcolumn : columnWidth grid ≤ 64) (hrow : rowWidth grid ≤ 64) :
    (subpicture.layout grid).Fits := by
  have hflags : Layout.Fits
      (subpicture.flags.toList.flatMap fun own => [.flag own.1, .flag own.2]) := by simp
  exact Layout.fits_append.2 ⟨Layout.fits_append.2
    ⟨Layout.fits_append.2 ⟨fits_placeLayout hcolumn h.left_lt, fits_placeLayout hrow h.top_lt⟩,
      Layout.fits_append.2
        ⟨fits_placeLayout hcolumn h.width_lt, fits_placeLayout hrow h.height_lt⟩⟩, hflags⟩

/-- The subpictures from `first` on are skipped, the one that ends the list as the last. -/
theorem decodes_skipSubpictures {independent sameSize : Bool} (first : Nat)
    {subpictures : List SubpictureSyntax} (hsome : subpictures ≠ [])
    (h : ∀ i (subpicture : SubpictureSyntax), subpictures[i]? = some subpicture →
      subpicture.ValidAt grid independent sameSize (first + i) (i + 1 == subpictures.length)) :
    Decodes (skipSubpictures grid independent sameSize first (subpictures.length - 1))
      (subpictures.flatMap (layout grid)) () := by
  induction subpictures generalizing first with
  | nil => exact absurd rfl hsome
  | cons subpicture subpictures ih =>
    have hskip := decodes_skipSubpicture (h 0 subpicture rfl)
    cases subpictures with
    | nil =>
      rw [List.flatMap_singleton]
      exact hskip
    | cons next subpictures =>
      have hrest := ih (first + 1) (List.cons_ne_nil _ _) fun i own hown => by
        have hlast : (i + 1 + 1 == (subpicture :: next :: subpictures).length) =
            (i + 1 == (next :: subpictures).length) := by simp
        have hvalid := h (i + 1) own hown
        rwa [hlast, ← Nat.add_assoc, Nat.add_right_comm] at hvalid
      exact hskip.bind hrest

end SubpictureSyntax

/-! ### Subpicture information -/

/-- Subpicture information. -/
structure SubpictureInfoSyntax where
  /-- `sps_num_subpics_minus1`. -/
  countMinus1 : Fin 600
  /-- `sps_independent_subpics_flag`, set if it is not there. -/
  independent : Option Bool
  /-- `sps_subpic_same_size_flag`. -/
  sameSize : Option Bool
  /-- The subpictures, where there are several. -/
  subpictures : Option (List SubpictureSyntax)
  /-- `sps_subpic_id_len_minus1`. -/
  idLengthMinus1 : Fin 16
  /-- `sps_subpic_id_mapping_explicitly_signalled_flag`. -/
  explicitIds : Bool
  /-- `sps_subpic_id_mapping_present_flag`. -/
  idsHere : Option Bool
  /-- `sps_subpic_id` of each subpicture. -/
  ids : Option (List Nat)

namespace SubpictureInfoSyntax

variable (grid : SubpictureGrid)

/-- The written form. -/
def layout (info : SubpictureInfoSyntax) : Layout :=
  [.expGolomb info.countMinus1]
    ++ info.independent.toList.flatMap (fun own => [.flag own])
    ++ info.sameSize.toList.flatMap (fun own => [.flag own])
    ++ info.subpictures.toList.flatMap (fun own => own.flatMap (SubpictureSyntax.layout grid))
    ++ [.expGolomb info.idLengthMinus1, .flag info.explicitIds]
    ++ info.idsHere.toList.flatMap (fun own => [.flag own])
    ++ info.ids.toList.flatMap (fun own =>
      own.map fun subpictureId => .number subpictureId (info.idLengthMinus1 + 1))

/-- Whether there are several subpictures. -/
def several (info : SubpictureInfoSyntax) : Bool :=
  info.countMinus1.val != 0

/-- Whether just those elements are there that the elements before them call for, and the
values fit. -/
structure Valid (info : SubpictureInfoSyntax) : Prop where
  independent : info.independent.isSome = info.several
  sameSize : info.sameSize.isSome = info.several
  subpictures : info.subpictures.isSome = info.several
  length_subpictures : ∀ own, info.subpictures = some own → own.length = info.countMinus1 + 1
  valid_subpictures : ∀ own, info.subpictures = some own →
    ∀ i (subpicture : SubpictureSyntax), own[i]? = some subpicture →
      subpicture.ValidAt grid (info.independent.getD true) (info.sameSize.getD false) i
        (i == info.countMinus1)
  idsHere : info.idsHere.isSome = info.explicitIds
  ids : info.ids.isSome = info.idsHere.getD false
  length_ids : ∀ own, info.ids = some own → own.length = info.countMinus1 + 1
  ids_lt : ∀ own, info.ids = some own → ∀ subpictureId ∈ own,
    subpictureId < 2 ^ (info.idLengthMinus1.val + 1)

variable {grid}

/-- Subpicture information is read to the number of subpictures. -/
theorem decodes_readSubpictureInfo {info : SubpictureInfoSyntax} (h : info.Valid grid) :
    Decodes (readSubpictureInfo grid) (info.layout grid) info.countMinus1 := by
  have hsubpictures : Decodes
      (skipIf info.several
        (skipSubpictures grid (info.independent.getD true) (info.sameSize.getD false) 0
          info.countMinus1))
      (info.subpictures.toList.flatMap fun own => own.flatMap (SubpictureSyntax.layout grid))
      () := by
    refine decodes_skipIf_option h.subpictures fun own hown => ?_
    have hlength := h.length_subpictures own hown
    have hskip := SubpictureSyntax.decodes_skipSubpictures 0
      (List.ne_nil_of_length_eq_add_one hlength) fun i subpicture hsubpicture => by
        rw [Nat.zero_add, hlength]
        have hlast : (i + 1 == info.countMinus1.val + 1) = (i == info.countMinus1.val) := by simp
        rw [hlast]
        exact h.valid_subpictures own hown i subpicture hsubpicture
    rwa [hlength] at hskip
  have hids : Decodes
      (skipIf (info.idsHere.getD false)
        (skipBits ((info.countMinus1 + 1) * (info.idLengthMinus1 + 1))))
      (info.ids.toList.flatMap fun own =>
        own.map fun subpictureId => .number subpictureId (info.idLengthMinus1 + 1)) () := by
    refine decodes_skipIf_option h.ids fun own hown => ?_
    rw [← h.length_ids own hown]
    exact decodes_skipNumbers (by omega) own
  have hcount : Decodes (readInRange "sps_num_subpics_minus1" 0 599 readExpGolomb)
      [.expGolomb info.countMinus1] info.countMinus1.val :=
    decodes_readInRange_fin (decodes_readExpGolomb _)
  have hidLength : Decodes (readInRange "sps_subpic_id_len_minus1" 0 15 readExpGolomb)
      [.expGolomb info.idLengthMinus1] info.idLengthMinus1.val :=
    decodes_readInRange_fin (decodes_readExpGolomb _)
  simp only [layout, List.append_assoc]
  refine hcount.bind ((decodes_readFlag h.independent).bind
    ((decodes_readFlag h.sameSize).bind (hsubpictures.bind ?_)))
  exact hidLength.cons ((decodes_readBit _).bind
    ((decodes_readFlag h.idsHere).bind (hids.bind_nil (decodes_pure _))))

/-- The numbers of subpicture information fit their widths. -/
theorem fits_layout {info : SubpictureInfoSyntax} (h : info.Valid grid)
    (hcolumn : SubpictureSyntax.columnWidth grid ≤ 64)
    (hrow : SubpictureSyntax.rowWidth grid ≤ 64) : (info.layout grid).Fits := by
  have hsubpictures : Layout.Fits
      (info.subpictures.toList.flatMap fun own => own.flatMap (SubpictureSyntax.layout grid)) := by
    simp only [Layout.fits_flatMap, Option.mem_toList]
    intro own hown subpicture hmem
    obtain ⟨i, hi⟩ := List.mem_iff_getElem?.1 hmem
    exact SubpictureSyntax.fits_layout (h.valid_subpictures own hown i subpicture hi) hcolumn hrow
  have hids : Layout.Fits (info.ids.toList.flatMap fun own =>
      own.map fun subpictureId => .number subpictureId (info.idLengthMinus1 + 1)) := by
    simp only [Layout.fits_flatMap, Layout.fits_map, Option.mem_toList]
    intro own hown subpictureId hmem
    have hwidth : min (info.idLengthMinus1.val + 1) 64 = info.idLengthMinus1 + 1 := by omega
    rw [Item.fits_number, hwidth]
    exact h.ids_lt own hown subpictureId hmem
  have hcount : (Item.expGolomb info.countMinus1).Fits := by
    rw [Item.fits_expGolomb]
    omega
  have hidLength : (Item.expGolomb info.idLengthMinus1).Fits := by
    rw [Item.fits_expGolomb]
    omega
  simp [layout, hsubpictures, hids, hcount, hidLength]

end SubpictureInfoSyntax

end H266
