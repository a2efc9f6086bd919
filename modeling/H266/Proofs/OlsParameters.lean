import H266.ParameterSet.Video
import H266.Proofs.TimingHrd

/-!
# Syntax of Output Layer Set Parameters

The syntax trees of what a video parameter set says about decoded picture buffers and timing,
unless each layer is an output layer set of its own. How many elements there are follows from
what comes before: the number of temporal sublayers, and the numbers of output layer sets and
of those with several layers.

## Main results

* `BuffersSyntax.decodes_skipBuffers`: the parameters of the decoded picture buffers.
* `TimingSyntax.decodes_skipTiming`: timing and HRD parameters.
* `OlsParametersSyntax.decodes_readOlsParameters`: both.
-/

namespace H266

open BitReader VideoParameterSet

/-! ### Numbers of sublayers -/

/-- How many temporal sublayers a set of parameters covers that ends with sublayer `last`: all
from the lowest, or the last alone. -/
def coveredSublayers (allSublayers : Bool) (last : Nat) : Nat :=
  if allSublayers then last + 1 else 1

/-- A loop over the sublayers that are covered has as many rounds. -/
theorem coveredSublayers_eq (allSublayers : Bool) (last : Nat) :
    last + 1 - (if allSublayers then 0 else last) = coveredSublayers allSublayers last := by
  cases allSublayers
  · exact Nat.add_sub_cancel_left last 1
  · rfl

/-- The highest sublayer that a set of parameters covers is stated unless all cover the same. -/
theorem decodes_readMaxTid {defaultMaxTid : Bool} {maxSublayersMinus1 : Nat}
    {maxTid : Option (Fin 8)} (h : maxTid.isSome = !defaultMaxTid) :
    Decodes (readMaxTid defaultMaxTid maxSublayersMinus1)
      (maxTid.toList.flatMap fun own => [.number own.val 3])
      ((maxTid.map (·.val)).getD maxSublayersMinus1) :=
  decodes_readIf_option h fun own _ => decodes_readBits own.val 3

/-! ### Decoded picture buffers -/

/-- The parameters of a decoded picture buffer for one sublayer. -/
structure DpbSublayerSyntax where
  /-- `dpb_max_dec_pic_buffering_minus1`. -/
  maxBuffering : ExpGolomb.Value
  /-- `dpb_max_num_reorder_pics`. -/
  maxReorder : ExpGolomb.Value
  /-- `dpb_max_latency_increase_plus1`. -/
  maxLatencyIncrease : ExpGolomb.Value

/-- The written form. -/
def DpbSublayerSyntax.layout (sublayer : DpbSublayerSyntax) : Layout :=
  [.expGolomb sublayer.maxBuffering, .expGolomb sublayer.maxReorder,
    .expGolomb sublayer.maxLatencyIncrease]

/-- The parameters of a decoded picture buffer. -/
structure DpbSyntax where
  /-- `vps_dpb_max_tid`. -/
  maxTid : Option (Fin 8)
  sublayers : List DpbSublayerSyntax

namespace DpbSyntax

/-- The written form. -/
def layout (dpb : DpbSyntax) : Layout :=
  dpb.maxTid.toList.flatMap (fun own => [.number own.val 3])
    ++ dpb.sublayers.flatMap DpbSublayerSyntax.layout

/-- The highest sublayer that the parameters cover. -/
def lastSublayer (maxSublayersMinus1 : Nat) (dpb : DpbSyntax) : Nat :=
  (dpb.maxTid.map (·.val)).getD maxSublayersMinus1

/-- Whether there are parameters for the sublayers that are covered. -/
structure Valid (defaultMaxTid allSublayers : Bool) (maxSublayersMinus1 : Nat)
    (dpb : DpbSyntax) : Prop where
  maxTid : dpb.maxTid.isSome = !defaultMaxTid
  length_sublayers :
    dpb.sublayers.length = coveredSublayers allSublayers (dpb.lastSublayer maxSublayersMinus1)

/-- Three values are skipped for each sublayer. -/
theorem decodes_skipDpbParameters {first last : Nat} {sublayers : List DpbSublayerSyntax}
    (h : sublayers.length = last + 1 - first) :
    Decodes (skipDpbParameters first last) (sublayers.flatMap DpbSublayerSyntax.layout) () := by
  rw [skipDpbParameters, ← h]
  exact decodes_skipTimes sublayers fun sublayer _ =>
    decodes_skipTimes [sublayer.maxBuffering, sublayer.maxReorder, sublayer.maxLatencyIncrease]
      fun value _ => decodes_skipExpGolomb value.val

/-- The parameters of a decoded picture buffer are skipped, for as many sublayers as they cover. -/
theorem decodes_skip {defaultMaxTid allSublayers : Bool} {maxSublayersMinus1 : Nat}
    {dpb : DpbSyntax} (h : dpb.Valid defaultMaxTid allSublayers maxSublayersMinus1) :
    Decodes
      (do
        let maxTid ← readMaxTid defaultMaxTid maxSublayersMinus1
        skipDpbParameters (if allSublayers then 0 else maxTid) maxTid)
      dpb.layout () :=
  (decodes_readMaxTid h.maxTid).bind
    (decodes_skipDpbParameters (h.length_sublayers.trans (coveredSublayers_eq _ _).symm))

/-- The numbers of a decoded picture buffer fit their widths. -/
theorem fits_layout (dpb : DpbSyntax) : dpb.layout.Fits := by
  simp [layout, DpbSublayerSyntax.layout]

end DpbSyntax

/-- The picture format of an output layer set with several layers. -/
structure OlsFormatSyntax where
  /-- `vps_ols_dpb_pic_width`. -/
  width : ExpGolomb.Value
  /-- `vps_ols_dpb_pic_height`. -/
  height : ExpGolomb.Value
  /-- `vps_ols_dpb_chroma_format`. -/
  chromaFormat : Fin 4
  /-- `vps_ols_dpb_bitdepth_minus8`. -/
  bitDepthMinus8 : ExpGolomb.Value
  /-- `vps_ols_dpb_params_idx`. -/
  dpbIndex : Option ExpGolomb.Value

namespace OlsFormatSyntax

/-- The written form. -/
def layout (format : OlsFormatSyntax) : Layout :=
  [.expGolomb format.width, .expGolomb format.height, .number format.chromaFormat 2,
      .expGolomb format.bitDepthMinus8]
    ++ format.dpbIndex.toList.flatMap fun own => [.expGolomb own.val]

/-- A picture format is skipped, with an index if there is one. -/
theorem decodes_skipOlsFormat {indexPresent : Bool} {format : OlsFormatSyntax}
    (h : format.dpbIndex.isSome = indexPresent) :
    Decodes (skipOlsFormat indexPresent) format.layout () :=
  (decodes_skipExpGolomb _).cons ((decodes_skipExpGolomb _).cons ((decodes_skipNumber _ 2).cons
    ((decodes_skipExpGolomb _).cons
      (decodes_skipIf_option h fun own _ => decodes_skipExpGolomb own.val))))

/-- The numbers of a picture format fit their widths. -/
theorem fits_layout (format : OlsFormatSyntax) : format.layout.Fits := by
  simp [layout]

end OlsFormatSyntax

/-- The parameters of all decoded picture buffers. -/
structure BuffersSyntax where
  /-- `vps_sublayer_dpb_params_present_flag`. -/
  allSublayers : Option Bool
  dpbs : List DpbSyntax
  formats : List OlsFormatSyntax

namespace BuffersSyntax

/-- The written form. -/
def layout (buffers : BuffersSyntax) : Layout :=
  [.expGolomb (buffers.dpbs.length - 1)]
    ++ buffers.allSublayers.toList.flatMap (fun own => [.flag own])
    ++ buffers.dpbs.flatMap DpbSyntax.layout
    ++ buffers.formats.flatMap OlsFormatSyntax.layout

/-- Whether the elements are those that the parameter set asks for. -/
structure Valid (defaultMaxTid : Bool) (maxSublayersMinus1 olsCount multiLayerOlsCount : Nat)
    (buffers : BuffersSyntax) : Prop where
  allSublayers : buffers.allSublayers.isSome = (maxSublayersMinus1 != 0)
  one_le_length_dpbs : 1 ≤ buffers.dpbs.length
  length_dpbs_le : buffers.dpbs.length ≤ olsCount + 1
  dpbs : ∀ dpb ∈ buffers.dpbs,
    dpb.Valid defaultMaxTid (buffers.allSublayers.getD false) maxSublayersMinus1
  length_formats : buffers.formats.length = multiLayerOlsCount
  formats : ∀ format ∈ buffers.formats, format.dpbIndex.isSome =
    (buffers.dpbs.length != 1 && buffers.dpbs.length != multiLayerOlsCount)

/-- The parameters of the decoded picture buffers are skipped. -/
theorem decodes_skipBuffers {defaultMaxTid : Bool}
    {maxSublayersMinus1 olsCount multiLayerOlsCount : Nat} {buffers : BuffersSyntax}
    (h : buffers.Valid defaultMaxTid maxSublayersMinus1 olsCount multiLayerOlsCount) :
    Decodes (skipBuffers defaultMaxTid maxSublayersMinus1 olsCount multiLayerOlsCount)
      buffers.layout () := by
  have hpos := h.one_le_length_dpbs
  have hle := h.length_dpbs_le
  have hcount : buffers.dpbs.length - 1 + 1 = buffers.dpbs.length := by omega
  have hdpbs := decodes_skipTimes buffers.dpbs fun dpb hmem =>
    DpbSyntax.decodes_skip (h.dpbs dpb hmem)
  have hformats := decodes_skipTimes buffers.formats fun format hmem =>
    OlsFormatSyntax.decodes_skipOlsFormat (h.formats format hmem)
  rw [h.length_formats] at hformats
  rw [← hcount] at hdpbs hformats
  simp only [layout, List.append_assoc]
  exact (decodes_readInRange (decodes_readExpGolomb _) (Nat.zero_le _) (by omega)).bind
    ((decodes_readFlag h.allSublayers).bind (hdpbs.bind hformats))

/-- The number of decoded picture buffers has a code. -/
theorem fits_layout {buffers : BuffersSyntax} (h : buffers.dpbs.length < 2 ^ 32) :
    buffers.layout.Fits := by
  have hcount : (Item.expGolomb (buffers.dpbs.length - 1)).Fits := by
    rw [Item.fits_expGolomb]
    omega
  simp [layout, hcount, DpbSyntax.fits_layout, OlsFormatSyntax.fits_layout]

end BuffersSyntax

/-! ### Timing -/

/-- The timing and HRD parameters of an output layer set. -/
structure OlsTimingSyntax where
  /-- `vps_hrd_max_tid`. -/
  maxTid : Option (Fin 8)
  sublayers : List SublayerTimingSyntax

namespace OlsTimingSyntax

/-- The written form. -/
def layout (timing : OlsTimingSyntax) : Layout :=
  timing.maxTid.toList.flatMap (fun own => [.number own.val 3])
    ++ timing.sublayers.flatMap SublayerTimingSyntax.layout

/-- The highest sublayer that the parameters cover. -/
def lastSublayer (maxSublayersMinus1 : Nat) (timing : OlsTimingSyntax) : Nat :=
  (timing.maxTid.map (·.val)).getD maxSublayersMinus1

/-- Whether there are parameters for the sublayers that are covered, as the general ones ask
for. -/
structure Valid (general : TimingHrd) (defaultMaxTid allSublayers : Bool)
    (maxSublayersMinus1 : Nat) (timing : OlsTimingSyntax) : Prop where
  maxTid : timing.maxTid.isSome = !defaultMaxTid
  length_sublayers : timing.sublayers.length =
    coveredSublayers allSublayers (timing.lastSublayer maxSublayersMinus1)
  sublayers : ∀ sublayer ∈ timing.sublayers, sublayer.Valid general

/-- The parameters of an output layer set are skipped, for as many sublayers as they cover. -/
theorem decodes_skip {general : TimingHrd} {defaultMaxTid allSublayers : Bool}
    {maxSublayersMinus1 : Nat} {timing : OlsTimingSyntax}
    (h : timing.Valid general defaultMaxTid allSublayers maxSublayersMinus1) :
    Decodes
      (do
        let maxTid ← readMaxTid defaultMaxTid maxSublayersMinus1
        general.skipOutputLayerSet (if allSublayers then 0 else maxTid) maxTid)
      timing.layout () :=
  (decodes_readMaxTid h.maxTid).bind (SublayerTimingSyntax.decodes_skipOutputLayerSet
    (h.length_sublayers.trans (coveredSublayers_eq _ _).symm) h.sublayers)

/-- The numbers of an output layer set fit their widths. -/
theorem fits_layout (timing : OlsTimingSyntax) : timing.layout.Fits := by
  simp [layout, SublayerTimingSyntax.fits_layout]

end OlsTimingSyntax

/-- Timing and HRD parameters. -/
structure TimingSyntax where
  general : GeneralTimingSyntax
  /-- `vps_sublayer_cpb_params_present_flag`. -/
  allSublayers : Option Bool
  timings : List OlsTimingSyntax
  /-- `vps_ols_timing_hrd_idx` of each output layer set with several layers. -/
  indices : Option (List ExpGolomb.Value)

namespace TimingSyntax

/-- The written form. -/
def layout (timing : TimingSyntax) : Layout :=
  timing.general.layout
    ++ timing.allSublayers.toList.flatMap (fun own => [.flag own])
    ++ [.expGolomb (timing.timings.length - 1)]
    ++ timing.timings.flatMap OlsTimingSyntax.layout
    ++ timing.indices.toList.flatMap fun own => own.flatMap fun index => [.expGolomb index.val]

/-- Whether the elements are those that the parameter set asks for. -/
structure Valid (defaultMaxTid : Bool) (maxSublayersMinus1 multiLayerOlsCount : Nat)
    (timing : TimingSyntax) : Prop where
  allSublayers : timing.allSublayers.isSome = (maxSublayersMinus1 != 0)
  one_le_length_timings : 1 ≤ timing.timings.length
  length_timings_le : timing.timings.length ≤ multiLayerOlsCount + 1
  timings : ∀ own ∈ timing.timings, own.Valid timing.general.value defaultMaxTid
    (timing.allSublayers.getD false) maxSublayersMinus1
  indices : timing.indices.isSome =
    (timing.timings.length != 1 && timing.timings.length != multiLayerOlsCount)
  length_indices : ∀ own, timing.indices = some own → own.length = multiLayerOlsCount

/-- Timing and HRD parameters are skipped. -/
theorem decodes_skipTiming {defaultMaxTid : Bool} {maxSublayersMinus1 multiLayerOlsCount : Nat}
    {timing : TimingSyntax}
    (h : timing.Valid defaultMaxTid maxSublayersMinus1 multiLayerOlsCount) :
    Decodes (skipTiming defaultMaxTid maxSublayersMinus1 multiLayerOlsCount) timing.layout () := by
  have hpos := h.one_le_length_timings
  have hle := h.length_timings_le
  have hcount : timing.timings.length - 1 + 1 = timing.timings.length := by omega
  have htimings := decodes_skipTimes timing.timings fun own hmem =>
    OlsTimingSyntax.decodes_skip (h.timings own hmem)
  have hindices : Decodes
      (skipIf (timing.timings.length != 1 && timing.timings.length != multiLayerOlsCount)
        (skipTimes multiLayerOlsCount skipExpGolomb))
      (timing.indices.toList.flatMap fun own => own.flatMap fun index => [.expGolomb index.val])
      () :=
    decodes_skipIf_option h.indices fun own hown => by
      rw [← h.length_indices own hown]
      exact decodes_skipTimes own fun index _ => decodes_skipExpGolomb index.val
  rw [← hcount] at htimings hindices
  simp only [layout, List.append_assoc, List.singleton_append]
  exact timing.general.decodes_read.bind ((decodes_readFlag h.allSublayers).bind
    ((decodes_readInRange (decodes_readExpGolomb _) (Nat.zero_le _) (by omega)).cons
    (htimings.bind hindices)))

/-- The number of parameters for output layer sets has a code. -/
theorem fits_layout {timing : TimingSyntax} (h : timing.timings.length < 2 ^ 32) :
    timing.layout.Fits := by
  have hcount : (Item.expGolomb (timing.timings.length - 1)).Fits := by
    rw [Item.fits_expGolomb]
    omega
  simp [layout, hcount, GeneralTimingSyntax.fits_layout, OlsTimingSyntax.fits_layout]

end TimingSyntax

/-! ### Both -/

/-- What is said about output layer sets unless each layer is a set of its own. -/
structure OlsParametersSyntax where
  buffers : BuffersSyntax
  timing : Option TimingSyntax

namespace OlsParametersSyntax

/-- The written form. -/
def layout (parameters : OlsParametersSyntax) : Layout :=
  parameters.buffers.layout
    ++ .flag parameters.timing.isSome :: parameters.timing.toList.flatMap TimingSyntax.layout

/-- Whether the elements are those that the parameter set asks for. -/
structure Valid (defaultMaxTid : Bool) (maxSublayersMinus1 olsCount multiLayerOlsCount : Nat)
    (parameters : OlsParametersSyntax) : Prop where
  buffers : parameters.buffers.Valid defaultMaxTid maxSublayersMinus1 olsCount multiLayerOlsCount
  timing : ∀ own, parameters.timing = some own →
    own.Valid defaultMaxTid maxSublayersMinus1 multiLayerOlsCount

/-- All of it is skipped, but for whether there are timing and HRD parameters. -/
theorem decodes_readOlsParameters {defaultMaxTid : Bool}
    {maxSublayersMinus1 olsCount multiLayerOlsCount : Nat} {parameters : OlsParametersSyntax}
    (h : parameters.Valid defaultMaxTid maxSublayersMinus1 olsCount multiLayerOlsCount) :
    Decodes (readOlsParameters defaultMaxTid maxSublayersMinus1 olsCount multiLayerOlsCount)
      parameters.layout parameters.timing.isSome := by
  have htiming : Decodes
      (skipIf parameters.timing.isSome
        (skipTiming defaultMaxTid maxSublayersMinus1 multiLayerOlsCount))
      (parameters.timing.toList.flatMap TimingSyntax.layout) () :=
    decodes_skipIf_option rfl fun own hown => TimingSyntax.decodes_skipTiming (h.timing own hown)
  exact (BuffersSyntax.decodes_skipBuffers h.buffers).bind
    ((decodes_readBit _).cons (htiming.bind_nil (decodes_pure _)))

/-- The numbers of both fit, as there are not too many output layer sets. -/
theorem fits_layout {defaultMaxTid : Bool} {maxSublayersMinus1 olsCount multiLayerOlsCount : Nat}
    {parameters : OlsParametersSyntax}
    (h : parameters.Valid defaultMaxTid maxSublayersMinus1 olsCount multiLayerOlsCount)
    (hols : olsCount < 2 ^ 31) (hmulti : multiLayerOlsCount ≤ olsCount) :
    parameters.layout.Fits := by
  have hdpbs := h.buffers.length_dpbs_le
  have hbuffers : parameters.buffers.layout.Fits := BuffersSyntax.fits_layout (by omega)
  have htiming : ∀ own, parameters.timing = some own → own.layout.Fits := by
    intro own hown
    have htimings := (h.timing own hown).length_timings_le
    exact TimingSyntax.fits_layout (by omega)
  simpa [layout, hbuffers] using htiming

end OlsParametersSyntax

end H266
