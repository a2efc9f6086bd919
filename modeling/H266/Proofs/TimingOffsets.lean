import H266.Proofs.BitOffsets
import H266.Proofs.TimingHrd

/-!
# Timing and HRD Parameters at Any Bit Offset

Behind any other bits the general parameters are read back, and the parameters of an output layer
set are skipped to their end: which of their elements are there is found out again from the flags,
the number of schedules and the inferred values that it depends on. A number of schedules that is
too large is refused, and the error says which number was read.

## Main results

* `SchedulesSyntax.refuses_readSchedules`, `GeneralTimingSyntax.refuses_read`: a number of
  schedules that is too large.
* `isReadBack_timing`: what is read back, what is refused and what is skipped.
-/

namespace H266

open BitReader BitWriter

namespace SchedulesSyntax

/-- The written form with another `hrd_cpb_cnt_minus1`, which is its last item, be it allowed or
not. -/
def layoutWithCount (schedules : SchedulesSyntax) (countMinus1 : ExpGolomb.Value) : Layout :=
  schedules.layout.dropLast ++ [.expGolomb countMinus1]

/-- Everything up to the number of schedules is read before the number is refused. -/
theorem refuses_readSchedules (schedules : SchedulesSyntax) {countMinus1 : ExpGolomb.Value}
    (h : TimingHrd.maxScheduleCountMinus1 < countMinus1.val) :
    Refuses TimingHrd.readSchedules (schedules.layoutWithCount countMinus1)
      (.unsupportedCpbCount countMinus1) := by
  rw [layoutWithCount, layout, List.dropLast_concat]
  simp only [List.append_assoc, List.cons_append, List.nil_append]
  refine (decodes_skipFlag _).cons_refuses ((decodes_readBit _).cons_refuses
    (schedules.decodes_skipTickDivisor.bind_refuses ((decodes_skipNumber _ 4).cons_refuses
    ((decodes_skipNumber _ 4).cons_refuses (schedules.decodes_skipUnitSizeScale.bind_refuses
    ((decodes_readExpGolomb _).cons_refuses ?_))))))
  rw [if_pos h]
  exact (refuses_throw _).bind _

/-- The layout fits whatever is written for the number of schedules. -/
theorem fits_layoutWithCount (schedules : SchedulesSyntax) (countMinus1 : ExpGolomb.Value) :
    (schedules.layoutWithCount countMinus1).Fits := by
  rw [layoutWithCount, layout, List.dropLast_concat]
  simp

end SchedulesSyntax

namespace GeneralTimingSyntax

/-- The written form with another `hrd_cpb_cnt_minus1`, be it allowed or not. -/
def layoutWithCount (general : GeneralTimingSyntax) (countMinus1 : ExpGolomb.Value) : Layout :=
  [.bytes (Bytes.ofNat 4 general.unitsInTick.toNat),
    .bytes (Bytes.ofNat 4 general.timeScale.toNat), .flag general.nal, .flag general.vcl]
    ++ general.schedules.toList.flatMap fun own => own.layoutWithCount countMinus1

/-- A number of schedules that is too large is refused, if the flags call for one. -/
theorem refuses_read {general : GeneralTimingSyntax} (hpresent : general.schedules.isSome)
    {countMinus1 : ExpGolomb.Value} (h : TimingHrd.maxScheduleCountMinus1 < countMinus1.val) :
    Refuses TimingHrd.read (general.layoutWithCount countMinus1)
      (.unsupportedCpbCount countMinus1) := by
  have hflags : (general.nal || general.vcl) = true := general.isSome_schedules.symm.trans hpresent
  obtain ⟨schedules, hschedules⟩ := Option.isSome_iff_exists.1 hpresent
  have hrefused := (schedules.refuses_readSchedules h).readIf hflags (false, 0)
  rw [layoutWithCount, hschedules, Option.toList_some, List.flatMap_singleton]
  exact (decodes_readUInt32 _).cons_refuses ((decodes_readUInt32 _).cons_refuses
    ((decodes_readBit _).cons_refuses ((decodes_readBit _).cons_refuses (hrefused.bind _))))

/-- Fields of general parameters fit their widths also if the number of schedules is refused. -/
theorem fits_layoutWithCount (general : GeneralTimingSyntax) (countMinus1 : ExpGolomb.Value) :
    (general.layoutWithCount countMinus1).Fits := by
  cases hschedules : general.schedules with
  | none => simp [layoutWithCount, hschedules]
  | some schedules => simp [layoutWithCount, hschedules, schedules.fits_layoutWithCount]

end GeneralTimingSyntax

/-- Written behind any bits, the general parameters are read back, or are refused if there are
too many schedules; those of an output layer set, which may have any elements that the general
parameters and the elements before them call for, are skipped to their end. -/
theorem isReadBack_timing :
    (∀ general : GeneralTimingSyntax,
      IsReadBack (writeLayout general.layout) TimingHrd.read general.value) ∧
    (∀ (general : GeneralTimingSyntax) (countMinus1 : ExpGolomb.Value),
      general.schedules.isSome → 31 < countMinus1.val →
      IsRefused (writeLayout (general.layoutWithCount countMinus1)) TimingHrd.read
        (.unsupportedCpbCount countMinus1)) ∧
    ∀ (general : TimingHrd) (first last : Nat) (sublayers : List SublayerTimingSyntax),
      sublayers.length = last + 1 - first →
      (∀ sublayer ∈ sublayers, sublayer.Valid general) →
      IsReadBack (writeLayout (sublayers.flatMap SublayerTimingSyntax.layout))
        (general.skipOutputLayerSet first last) () := by
  refine ⟨fun general => ?_, fun general countMinus1 hpresent hcount => ?_,
    fun general first last sublayers hlength hvalid => ?_⟩
  · exact general.decodes_read.isReadBack general.fits_layout
  · exact (GeneralTimingSyntax.refuses_read hpresent hcount).isRefused
      (general.fits_layoutWithCount countMinus1)
  · exact (SublayerTimingSyntax.decodes_skipOutputLayerSet hlength hvalid).isReadBack
      (Layout.fits_flatMap.2 fun sublayer _ => sublayer.fits_layout)

/-- Parameters for two sublayers, the second of which has a low delay flag as there is a single
schedule, and a coded number of 33 schedules. -/
theorem isReadBack_timing_two_sublayers :
    let general : GeneralTimingSyntax :=
      ⟨1001, 60000, true, true, some ⟨true, some (98, 5), 4, 6, 0⟩, rfl⟩
    let schedule : ScheduleSyntax := ⟨1499, 2999, some (7, 5000), true⟩
    let sublayers : List SublayerTimingSyntax :=
      [⟨true, none, some 3, none, some [schedule], some [schedule]⟩,
        ⟨false, some false, none, some true, some [schedule], some [schedule]⟩]
    IsReadBack (writeLayout general.layout) TimingHrd.read ⟨1001, 60000, true, true, true, 0⟩ ∧
    (general.schedules.isSome ∧ 31 < (32 : ExpGolomb.Value).val ∧
      IsRefused (writeLayout (general.layoutWithCount 32)) TimingHrd.read
        (.unsupportedCpbCount 32)) ∧
    (sublayers.length = 1 + 1 - 0 ∧ ∀ sublayer ∈ sublayers, sublayer.Valid general.value) ∧
      IsReadBack (writeLayout (sublayers.flatMap SublayerTimingSyntax.layout))
        (general.value.skipOutputLayerSet 0 1) () := by
  intro general schedule sublayers
  have hschedules : SublayerTimingSyntax.ValidSchedules general.value true (some [schedule]) := by
    refine ⟨rfl, ?_⟩
    rintro own ⟨⟩
    exact ⟨rfl, by simp [schedule, general, GeneralTimingSyntax.value]⟩
  have hvalid : ∀ sublayer ∈ sublayers, sublayer.Valid general.value := by
    simp only [sublayers, List.forall_mem_cons]
    exact ⟨⟨rfl, rfl, rfl, hschedules, hschedules⟩, ⟨rfl, rfl, rfl, hschedules, hschedules⟩,
      List.forall_mem_nil _⟩
  obtain ⟨hread, hrefuse, hskip⟩ := isReadBack_timing
  exact ⟨hread general, ⟨rfl, by decide, hrefuse general 32 rfl (by decide)⟩, ⟨rfl, hvalid⟩,
    hskip general.value 0 1 sublayers rfl hvalid⟩

end H266
