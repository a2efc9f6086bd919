import H266.Proofs.Decoding
import H266.TimingHrd

/-!
# Syntax of Timing and HRD Parameters

The syntax trees of the timing and HRD parameters in a video parameter set. Which elements of
the parameters of an output layer set are there depends on the general parameters, so the
trees are valid under given general parameters.

## Main results

* `GeneralTimingSyntax.decodes_read`: reading the general parameters.
* `SublayerTimingSyntax.decodes_skipOutputLayerSet`: skipping those of an output layer set.
-/

namespace H266

open BitReader

/-! ### General parameters -/

/-- What the general parameters say about schedules. -/
structure SchedulesSyntax where
  /-- `general_same_pic_timing_in_all_ols_flag`. -/
  samePictureTiming : Bool
  /-- `tick_divisor_minus2` and `cpb_size_du_scale`, which are there if there are parameters
  for decoding units. -/
  decodingUnits : Option (Fin 256 × Fin 16)
  /-- `bit_rate_scale`. -/
  bitRateScale : Fin 16
  /-- `cpb_size_scale`. -/
  cpbSizeScale : Fin 16
  /-- `hrd_cpb_cnt_minus1`. -/
  countMinus1 : Fin 32

namespace SchedulesSyntax

/-- The written form. -/
def layout (schedules : SchedulesSyntax) : Layout :=
  [.flag schedules.samePictureTiming, .flag schedules.decodingUnits.isSome]
    ++ schedules.decodingUnits.toList.flatMap (fun own => [.number own.1 8])
    ++ [.number schedules.bitRateScale 4, .number schedules.cpbSizeScale 4]
    ++ schedules.decodingUnits.toList.flatMap (fun own => [.number own.2 4])
    ++ [.expGolomb schedules.countMinus1]

/-- The first element for decoding units is skipped if there are any. -/
theorem decodes_skipTickDivisor (schedules : SchedulesSyntax) :
    Decodes (skipIf schedules.decodingUnits.isSome (skipNumber 8))
      (schedules.decodingUnits.toList.flatMap fun own => [.number own.1 8]) () :=
  decodes_skipIf_option rfl fun own _ => decodes_skipNumber own.1 8

/-- The second element for decoding units is skipped if there are any. -/
theorem decodes_skipUnitSizeScale (schedules : SchedulesSyntax) :
    Decodes (skipIf schedules.decodingUnits.isSome (skipNumber 4))
      (schedules.decodingUnits.toList.flatMap fun own => [.number own.2 4]) () :=
  decodes_skipIf_option rfl fun own _ => decodes_skipNumber own.2 4

/-- What is said about schedules is read to what the parameters of output layer sets depend on. -/
theorem decodes_readSchedules (schedules : SchedulesSyntax) :
    Decodes TimingHrd.readSchedules schedules.layout
      (schedules.decodingUnits.isSome, schedules.countMinus1.val) := by
  have hcount : ¬TimingHrd.maxScheduleCountMinus1 < schedules.countMinus1.val :=
    Nat.not_lt.2 (Nat.le_of_lt_succ schedules.countMinus1.isLt)
  simp only [layout, List.append_assoc, List.cons_append, List.nil_append]
  refine (decodes_skipFlag _).cons ((decodes_readBit _).cons (schedules.decodes_skipTickDivisor.bind
    ((decodes_skipNumber _ 4).cons ((decodes_skipNumber _ 4).cons
    (schedules.decodes_skipUnitSizeScale.bind ((decodes_readExpGolomb _).bind_nil ?_))))))
  rw [if_neg hcount]
  exact decodes_pure _

/-- The numbers of schedules fit their widths. -/
theorem fits_layout (schedules : SchedulesSyntax) : schedules.layout.Fits := by
  have hcount : (Item.expGolomb schedules.countMinus1).Fits := by
    have := schedules.countMinus1.isLt
    rw [Item.fits_expGolomb]
    omega
  simp [layout, hcount]

end SchedulesSyntax

/-- The general timing and HRD parameters. -/
structure GeneralTimingSyntax where
  /-- `num_units_in_tick`. -/
  unitsInTick : UInt32
  /-- `time_scale`. -/
  timeScale : UInt32
  /-- `general_nal_hrd_params_present_flag`. -/
  nal : Bool
  /-- `general_vcl_hrd_params_present_flag`. -/
  vcl : Bool
  /-- What is there if one of the two flags is set. -/
  schedules : Option SchedulesSyntax
  isSome_schedules : schedules.isSome = (nal || vcl)

namespace GeneralTimingSyntax

/-- The written form. -/
def layout (general : GeneralTimingSyntax) : Layout :=
  [.bytes (Bytes.ofNat 4 general.unitsInTick.toNat),
    .bytes (Bytes.ofNat 4 general.timeScale.toNat), .flag general.nal, .flag general.vcl]
    ++ general.schedules.toList.flatMap SchedulesSyntax.layout

/-- What is kept of the general parameters. -/
def value (general : GeneralTimingSyntax) : TimingHrd where
  unitsInTick := general.unitsInTick
  timeScale := general.timeScale
  nal := general.nal
  vcl := general.vcl
  decodingUnits := (general.schedules.map (·.decodingUnits.isSome)).getD false
  scheduleCountMinus1 := (general.schedules.map (·.countMinus1.val)).getD 0

/-- The general parameters are read back. -/
theorem decodes_read (general : GeneralTimingSyntax) :
    Decodes TimingHrd.read general.layout general.value := by
  have hschedules : Decodes
      (readIf (general.nal || general.vcl) TimingHrd.readSchedules (false, 0))
      (general.schedules.toList.flatMap SchedulesSyntax.layout)
      ((general.schedules.map fun own => (own.decodingUnits.isSome, own.countMinus1.val)).getD
        (false, 0)) :=
    decodes_readIf_option general.isSome_schedules fun own _ => own.decodes_readSchedules
  have hvalue : (general.schedules.map fun own =>
        (own.decodingUnits.isSome, own.countMinus1.val)).getD (false, 0) =
      (general.value.decodingUnits, general.value.scheduleCountMinus1) := by
    rw [value]
    cases general.schedules <;> rfl
  rw [hvalue] at hschedules
  exact (decodes_readUInt32 _).cons ((decodes_readUInt32 _).cons ((decodes_readBit _).cons
    ((decodes_readBit _).cons (hschedules.bind_nil (decodes_pure _)))))

/-- The numbers of the general parameters fit their widths. -/
theorem fits_layout (general : GeneralTimingSyntax) : general.layout.Fits := by
  cases hschedules : general.schedules with
  | none => simp [layout, hschedules]
  | some schedules => simp [layout, hschedules, schedules.fits_layout]

end GeneralTimingSyntax

/-! ### Parameters of output layer sets -/

/-- A delivery schedule. -/
structure ScheduleSyntax where
  /-- `bit_rate_value_minus1`. -/
  bitRate : ExpGolomb.Value
  /-- `cpb_size_value_minus1`. -/
  cpbSize : ExpGolomb.Value
  /-- `cpb_size_du_value_minus1` and `bit_rate_du_value_minus1`. -/
  decodingUnits : Option (ExpGolomb.Value × ExpGolomb.Value)
  /-- `cbr_flag`. -/
  constantBitRate : Bool

namespace ScheduleSyntax

/-- The written form. -/
def layout (schedule : ScheduleSyntax) : Layout :=
  [.expGolomb schedule.bitRate, .expGolomb schedule.cpbSize]
    ++ schedule.decodingUnits.toList.flatMap
      (fun own => [.expGolomb own.1, .expGolomb own.2])
    ++ [.flag schedule.constantBitRate]

/-- A schedule is skipped, with values for decoding units if there are any. -/
theorem decodes_skipSchedule {general : TimingHrd} {schedule : ScheduleSyntax}
    (h : schedule.decodingUnits.isSome = general.decodingUnits) :
    Decodes general.skipSchedule schedule.layout () := by
  have hunits : Decodes
      (skipIf general.decodingUnits do
        skipExpGolomb
        skipExpGolomb)
      (schedule.decodingUnits.toList.flatMap fun own => [.expGolomb own.1, .expGolomb own.2]) () :=
    decodes_skipIf_option h fun own _ =>
      (decodes_skipExpGolomb own.1).cons (decodes_skipExpGolomb own.2)
  simp only [layout, List.cons_append, List.nil_append]
  exact (decodes_skipExpGolomb _).cons ((decodes_skipExpGolomb _).cons (hunits.bind
    (decodes_skipFlag _)))

/-- The numbers of a schedule fit their widths. -/
theorem fits_layout (schedule : ScheduleSyntax) : schedule.layout.Fits := by
  cases hunits : schedule.decodingUnits with
  | none => simp [layout, hunits]
  | some units => simp [layout, hunits]

end ScheduleSyntax

/-- The parameters of a sublayer in an output layer set. -/
structure SublayerTimingSyntax where
  /-- `fixed_pic_rate_general_flag`. -/
  fixedInGeneral : Bool
  /-- `fixed_pic_rate_within_cvs_flag`, set if it is not there. -/
  fixedWithinSequence : Option Bool
  /-- `elemental_duration_in_tc_minus1`. -/
  duration : Option ExpGolomb.Value
  /-- `low_delay_hrd_flag`. -/
  lowDelay : Option Bool
  nal : Option (List ScheduleSyntax)
  vcl : Option (List ScheduleSyntax)

namespace SublayerTimingSyntax

/-- The written form. -/
def layout (sublayer : SublayerTimingSyntax) : Layout :=
  [.flag sublayer.fixedInGeneral]
    ++ sublayer.fixedWithinSequence.toList.flatMap (fun own => [.flag own])
    ++ sublayer.duration.toList.flatMap (fun own => [.expGolomb own])
    ++ sublayer.lowDelay.toList.flatMap (fun own => [.flag own])
    ++ sublayer.nal.toList.flatMap (fun own => own.flatMap ScheduleSyntax.layout)
    ++ sublayer.vcl.toList.flatMap (fun own => own.flatMap ScheduleSyntax.layout)

/-- Whether the schedules are those that the general parameters ask for. -/
def ValidSchedules (general : TimingHrd) (present : Bool)
    (schedules : Option (List ScheduleSyntax)) : Prop :=
  schedules.isSome = present ∧ ∀ own, schedules = some own →
    own.length = general.scheduleCountMinus1 + 1 ∧
      ∀ schedule ∈ own, schedule.decodingUnits.isSome = general.decodingUnits

/-- Whether the elements that are there are those that the general parameters and the elements
before them ask for. -/
structure Valid (general : TimingHrd) (sublayer : SublayerTimingSyntax) : Prop where
  fixedWithinSequence : sublayer.fixedWithinSequence.isSome = !sublayer.fixedInGeneral
  duration : sublayer.duration.isSome = sublayer.fixedWithinSequence.getD true
  lowDelay : sublayer.lowDelay.isSome =
    (!sublayer.fixedWithinSequence.getD true &&
      ((general.nal || general.vcl) && general.scheduleCountMinus1 == 0))
  nal : ValidSchedules general general.nal sublayer.nal
  vcl : ValidSchedules general general.vcl sublayer.vcl

/-- The schedules of one kind are skipped if they are there. -/
theorem decodes_skipSchedules {general : TimingHrd} {present : Bool}
    {schedules : Option (List ScheduleSyntax)} (h : ValidSchedules general present schedules) :
    Decodes (skipIf present general.skipSchedules)
      (schedules.toList.flatMap fun own => own.flatMap ScheduleSyntax.layout) () := by
  refine decodes_skipIf_option h.1 fun own hown => ?_
  obtain ⟨hcount, hunits⟩ := h.2 own hown
  rw [TimingHrd.skipSchedules, ← hcount]
  exact decodes_skipTimes own fun schedule hmem =>
    ScheduleSyntax.decodes_skipSchedule (hunits schedule hmem)

/-- A sublayer is skipped, whatever its elements call for. -/
theorem decodes_skipSublayer {general : TimingHrd} {sublayer : SublayerTimingSyntax}
    (h : sublayer.Valid general) : Decodes general.skipSublayer sublayer.layout () := by
  have hwithin : Decodes (readIf (!sublayer.fixedInGeneral) readBit true)
      (sublayer.fixedWithinSequence.toList.flatMap fun own => [.flag own])
      (sublayer.fixedWithinSequence.getD true) :=
    decodes_readFlag h.fixedWithinSequence
  have hschedules := (decodes_skipSchedules h.nal).bind (decodes_skipSchedules h.vcl)
  have hduration := h.duration
  have hlowDelay := h.lowDelay
  simp only [layout, List.append_assoc, List.cons_append, List.nil_append]
  refine (decodes_readBit _).cons (hwithin.bind ?_)
  cases hfixed : sublayer.fixedWithinSequence.getD true with
  | true =>
    rw [hfixed] at hduration hlowDelay
    obtain ⟨duration, hduration⟩ := Option.isSome_iff_exists.1 hduration
    have hnone : sublayer.lowDelay = none := by simpa using hlowDelay
    rw [if_pos rfl, hduration, hnone]
    exact (decodes_skipExpGolomb duration).bind hschedules
  | false =>
    rw [hfixed] at hduration hlowDelay
    have hnone : sublayer.duration = none := by simpa using hduration
    have hskip : Decodes
        (skipIf (general.present && general.scheduleCountMinus1 == 0) skipFlag)
        (sublayer.lowDelay.toList.flatMap fun own => [.flag own]) () :=
      decodes_skipIf_option (by simpa [TimingHrd.present] using hlowDelay)
        fun own _ => decodes_skipFlag own
    rw [if_neg Bool.false_ne_true, hnone]
    exact hskip.bind hschedules

/-- The parameters of an output layer set are skipped. -/
theorem decodes_skipOutputLayerSet {general : TimingHrd} {first last : Nat}
    {sublayers : List SublayerTimingSyntax} (hlength : sublayers.length = last + 1 - first)
    (h : ∀ sublayer ∈ sublayers, sublayer.Valid general) :
    Decodes (general.skipOutputLayerSet first last) (sublayers.flatMap layout) () := by
  rw [TimingHrd.skipOutputLayerSet, ← hlength]
  exact decodes_skipTimes sublayers fun sublayer hmem => decodes_skipSublayer (h sublayer hmem)

/-- The numbers of a sublayer fit their widths. -/
theorem fits_layout (sublayer : SublayerTimingSyntax) : sublayer.layout.Fits := by
  simp [layout, ScheduleSyntax.fits_layout]

end SublayerTimingSyntax

end H266
