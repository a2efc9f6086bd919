import H266.ParameterSet.Picture
import H266.ParameterSet.Sequence
import H266.ParameterSet.Video
import H266.Proofs.Bits
import H266.Record.Reader

/-!
# Composed Steps

Parameter sets and records are read by steps that are put together from a few operations of the
reader: reading a bit or some bytes, skipping bits, moving on to a byte boundary, and refusing what
was read. What a step reads decides which operations follow, and how often, but whichever they are,
they are of these kinds. So what all of the operations do and sequences inherit, every reader of a
syntax structure does.

A step refuses its input for being malformed, and for no other reason.

## Main results

* `Error.BlamesInput`: the errors that a malformed input explains.
* `BitReader.Composed`: steps put together from operations of the reader.
* `ProfileTierLevel.composed_read`, `VideoParameterSet.composed_readPayload`,
  `SequenceParameterSet.composed_readPayload`, `DecoderRecord.composed_read`: the structures.
-/

namespace H266

/-- The errors that a malformed input explains. More coded picture buffers than are supported are
the fault of an input too, but only if they are more than 32. -/
def Error.BlamesInput : Error → Prop
  | outOfData | invalidData _ => True
  | unsupportedCpbCount countMinus1 => 31 < countMinus1
  | io _ => False

/-! ### Composing -/

namespace BitReader

/-- Steps that are put together from operations of the reader, and that refuse no input but a
malformed one. -/
inductive Composed : {α : Type} → ReadM α → Prop
  | protected pure {α : Type} (value : α) : Composed (pure value)
  | protected throw {α : Type} {error : Error} (h : error.BlamesInput) :
    Composed (throw error : ReadM α)
  | protected bind {α β : Type} {step : ReadM α} {next : α → ReadM β} (hstep : Composed step)
    (hnext : ∀ value, Composed (next value)) : Composed (step >>= next)
  | protected readBit : Composed readBit
  | protected align : Composed align
  | protected readBytes (count : Nat) : Composed (readBytes count)
  | protected skipBits (count : Nat) : Composed (skipBits count)

variable {α β ι : Type}

/-- Another value is made of what a step gives, without another operation. -/
theorem Composed.map {step : ReadM α} (h : Composed step) (f : α → β) : Composed (f <$> step) := by
  rw [map_eq_pure_bind]
  exact h.bind fun _ => .pure _

/-- What follows a check. -/
theorem Composed.check {p : Prop} [Decidable p] {error : Error} {next : PUnit → ReadM α}
    (herror : p → error.BlamesInput) (h : Composed (next ⟨⟩)) :
    Composed (if p then throw error >>= next else next ⟨⟩) := by
  split
  · exact (Composed.throw (herror ‹_›)).bind fun _ => h
  · exact h

/-- What is there only under a condition, with a value to be inferred if it is not. -/
theorem Composed.readIf {step : ReadM α} (h : Composed step) (present : Bool) (inferred : α) :
    Composed (readIf present step inferred) := by
  cases present with
  | true => exact h
  | false => exact .pure inferred

/-- What is skipped only under a condition. -/
theorem Composed.skipIf {step : ReadM Unit} (h : Composed step) (present : Bool) :
    Composed (skipIf present step) :=
  h.readIf present ()

/-- A step that is repeated, behind those that were done before. -/
theorem Composed.repeatAfter {step : ReadM α} (h : Composed step) (done : List α) (count : Nat) :
    Composed (repeatAfter step done count) := by
  induction count generalizing done with
  | zero => exact .pure _
  | succ count ih => exact h.bind fun value => ih (value :: done)

/-- A step that is repeated for each of its values. -/
theorem Composed.readTimes {step : ReadM α} (h : Composed step) (count : Nat) :
    Composed (readTimes count step) :=
  h.repeatAfter [] count

/-- A step that is repeated for nothing but what it skips. -/
theorem Composed.skipTimes {step : ReadM Unit} (h : Composed step) (count : Nat) :
    Composed (skipTimes count step) := by
  induction count with
  | zero => exact .pure ()
  | succ count ih => exact h.bind fun _ => ih

/-- Steps that are made for the entries of a list, in their order. -/
theorem Composed.mapM {step : ι → ReadM α} (h : ∀ index, Composed (step index))
    (indices : List ι) : Composed (indices.mapM step) := by
  induction indices with
  | nil => exact .pure []
  | cons index indices ih =>
    rw [List.mapM_cons]
    exact (h index).bind fun _ => ih.bind fun _ => .pure _

/-- A value that is out of range is refused, however the step goes on. -/
theorem Composed.readInRange {step : ReadM Nat} (h : Composed step) (element : String)
    (low high : Nat) : Composed (readInRange element low high step) :=
  h.bind fun value => .check (fun _ => trivial) (.pure value)

/-! ### Numbers -/

/-- A number is read bit by bit, whatever bits come before these. -/
theorem composed_readBitsAfter (high count : Nat) : Composed (readBitsAfter high count) := by
  induction count generalizing high with
  | zero => exact .pure high
  | succ count ih => exact Composed.readBit.bind fun bit => ih (2 * high + bit.toNat)

/-- A number is read, of 64 bits at the most. -/
theorem composed_readBits (count : Nat) : Composed (readBits count) :=
  composed_readBitsAfter 0 (min count 64)

/-- A flag is skipped. -/
theorem composed_skipFlag : Composed skipFlag :=
  Composed.readBit.bind fun _ => .pure ()

/-- A number is skipped as if it was read. -/
theorem composed_skipNumber (count : Nat) : Composed (skipNumber count) :=
  (composed_readBits count).bind fun _ => .pure ()

/-- A big-endian integer is made of the bytes that are read. -/
theorem composed_readBigEndian (count : Nat) : Composed (readBigEndian count) :=
  (Composed.readBytes count).map Bytes.toNat

/-- An integer of one byte. -/
theorem composed_readUInt8 : Composed readUInt8 :=
  (composed_readBigEndian 1).map UInt8.ofNat

/-- An integer of two bytes. -/
theorem composed_readUInt16 : Composed readUInt16 :=
  (composed_readBigEndian 2).map UInt16.ofNat

/-- An integer of four bytes. -/
theorem composed_readUInt32 : Composed readUInt32 :=
  (composed_readBigEndian 4).map UInt32.ofNat

/-- The zero bits that an exp-Golomb code begins with; more than are allowed are a fault. -/
theorem composed_readZeros (allowed : Nat) : Composed (readZeros allowed) := by
  induction allowed with
  | zero =>
    refine Composed.readBit.bind fun bit => ?_
    cases bit with
    | true => exact .pure 0
    | false => exact .throw trivial
  | succ allowed ih =>
    refine Composed.readBit.bind fun bit => ?_
    cases bit with
    | true => exact .pure 0
    | false => exact ih.bind fun more => .pure _

/-- The zero bits of an exp-Golomb code say how many bits follow. -/
theorem composed_readExpGolomb : Composed readExpGolomb :=
  (composed_readZeros 63).bind fun zeros => (composed_readBits zeros).bind fun _ => .pure _

/-- An exp-Golomb code is skipped as if it was read. -/
theorem composed_skipExpGolomb : Composed skipExpGolomb :=
  composed_readExpGolomb.bind fun _ => .pure ()

end BitReader

open BitReader

/-! ### NAL unit headers -/

/-- A NAL unit header, of which the first bit and the temporal identifier are checked. -/
theorem NalUnitHeader.composed_read : Composed read := by
  refine Composed.readBit.bind fun forbidden => ?_
  refine Composed.check (fun _ => trivial) ?_
  refine composed_skipFlag.bind fun _ => ?_
  refine (composed_readBits 6).bind fun layerId => ?_
  refine (composed_readBits 5).bind fun type => ?_
  refine (composed_readBits 3).bind fun temporalIdPlus1 => ?_
  exact Composed.check (fun _ => trivial) (.pure _)

/-! ### Profile, tier and level structures -/

/-- General constraints, up to the byte boundary behind them. -/
theorem GeneralConstraints.composed_read : Composed read := by
  have hpresent : Composed read.readPresent :=
    (composed_readBits 7).bind fun _ => (composed_readBits 64).bind fun _ =>
      composed_readUInt8.bind fun reservedBits =>
        (Composed.skipBits reservedBits.toNat).bind fun _ => .pure _
  refine Composed.readBit.bind fun present => ?_
  refine ((hpresent.map some).readIf present none).bind fun _ => ?_
  exact Composed.align.bind fun _ => .pure _

namespace ProfileTierLevel

/-- The levels of the sublayers, each stated or that of the sublayer above. -/
theorem composed_readLevels (above : UInt8) (present : List Bool) :
    Composed (readLevels above present) := by
  induction present generalizing above with
  | nil => exact .pure []
  | cons stated present ih =>
    exact (composed_readUInt8.readIf stated above).bind fun level =>
      (ih level).bind fun _ => .pure _

/-- Sub-profiles behind their number. -/
theorem composed_readSubProfiles : Composed readSubProfiles :=
  composed_readUInt8.bind fun count => composed_readUInt32.readTimes count.toNat

/-- A profile, tier and level structure. -/
theorem composed_read (profilePresent : Bool) (lowerSublayers : Nat) :
    Composed (read profilePresent lowerSublayers) := by
  refine ((Composed.pure lowerSublayers).readInRange _ 0 _).bind fun count => ?_
  refine ((composed_readBits 7).readIf profilePresent 0).bind fun _ => ?_
  refine (Composed.readBit.readIf profilePresent false).bind fun _ => ?_
  refine composed_readUInt8.bind fun level => ?_
  refine Composed.readBit.bind fun _ => ?_
  refine Composed.readBit.bind fun _ => ?_
  refine (GeneralConstraints.composed_read.readIf profilePresent none).bind fun _ => ?_
  refine (Composed.readBit.readTimes count).bind fun present => ?_
  refine Composed.align.bind fun _ => ?_
  refine (composed_readLevels level present).bind fun _ => ?_
  refine (composed_readSubProfiles.readIf profilePresent []).bind fun _ => ?_
  exact .pure _

end ProfileTierLevel

/-! ### Timing and HRD parameters -/

namespace TimingHrd

/-- What is said about schedules, which are refused only if they are more than 32. -/
theorem composed_readSchedules : Composed readSchedules := by
  refine composed_skipFlag.bind fun _ => ?_
  refine Composed.readBit.bind fun decodingUnits => ?_
  refine ((composed_skipNumber 8).skipIf decodingUnits).bind fun _ => ?_
  refine (composed_skipNumber 4).bind fun _ => ?_
  refine (composed_skipNumber 4).bind fun _ => ?_
  refine ((composed_skipNumber 4).skipIf decodingUnits).bind fun _ => ?_
  refine composed_readExpGolomb.bind fun countMinus1 => ?_
  exact Composed.check (fun hlarge => hlarge) (.pure _)

/-- The general timing and HRD parameters. -/
theorem composed_read : Composed read := by
  refine composed_readUInt32.bind fun _ => ?_
  refine composed_readUInt32.bind fun _ => ?_
  refine Composed.readBit.bind fun nal => ?_
  refine Composed.readBit.bind fun vcl => ?_
  refine (composed_readSchedules.readIf (nal || vcl) (false, 0)).bind fun _ => ?_
  exact .pure _

/-- A schedule, with or without decoding units. -/
theorem composed_skipSchedule (general : TimingHrd) :
    Composed general.skipSchedule := by
  have htwo : Composed (do skipExpGolomb; skipExpGolomb) :=
    composed_skipExpGolomb.bind fun _ => composed_skipExpGolomb
  refine composed_skipExpGolomb.bind fun _ => ?_
  refine composed_skipExpGolomb.bind fun _ => ?_
  exact (htwo.skipIf general.decodingUnits).bind fun _ => composed_skipFlag

/-- The parameters of a sublayer: a duration if its picture rate is fixed, else perhaps a flag, and
the schedules. -/
theorem composed_skipSublayer (general : TimingHrd) :
    Composed general.skipSublayer := by
  have hschedules : Composed general.skipSchedules :=
    (composed_skipSchedule general).skipTimes _
  have hrest : Composed (do
      skipIf general.nal general.skipSchedules
      skipIf general.vcl general.skipSchedules) :=
    (hschedules.skipIf general.nal).bind fun _ => hschedules.skipIf general.vcl
  refine Composed.readBit.bind fun fixedInGeneral => ?_
  refine (Composed.readBit.readIf (!fixedInGeneral) true).bind fun fixed => ?_
  cases fixed with
  | true => exact composed_skipExpGolomb.bind fun _ => hrest
  | false => exact (composed_skipFlag.skipIf _).bind fun _ => hrest

/-- The parameters of an output layer set. -/
theorem composed_skipOutputLayerSet (general : TimingHrd) (first last : Nat) :
    Composed (general.skipOutputLayerSet first last) :=
  (composed_skipSublayer general).skipTimes _

end TimingHrd

/-! ### Video parameter sets -/

namespace VideoParameterSet

/-- The description of a layer, of which its references are kept. -/
theorem composed_readLayer (allIndependent : Bool) (lowerLayers : Nat) :
    Composed (readLayer allIndependent lowerLayers) := by
  have hreference (maxTidPresent : Bool) : Composed (do
      let refers ← readBit
      skipIf (maxTidPresent && refers) (skipNumber 3)
      return refers) :=
    Composed.readBit.bind fun refers =>
      ((composed_skipNumber 3).skipIf (maxTidPresent && refers)).bind fun _ =>
        Composed.pure refers
  have hreferences : Composed (readReferences lowerLayers) :=
    Composed.readBit.bind fun maxTidPresent =>
      (hreference maxTidPresent).readTimes lowerLayers
  refine (composed_skipNumber 6).bind fun _ => ?_
  refine (Composed.readBit.readIf _ true).bind fun independent => ?_
  exact hreferences.readIf (!independent) _

/-- How output layer sets are formed, whichever way is stated. -/
theorem composed_readOlsMode (allIndependent : Bool) (layers : Nat) :
    Composed (readOlsMode allIndependent layers) := by
  have hsets : Composed (readListedSets layers) :=
    (composed_readBits 8).bind fun countMinus2 =>
      (Composed.readBit.readTimes layers).readTimes (countMinus2 + 1)
  refine (Composed.readBit.readIf allIndependent false).bind fun eachLayer => ?_
  cases eachLayer with
  | true => exact .pure _
  | false =>
    refine (((composed_readBits 2).readInRange _ 0 2).readIf _ 2).bind fun code => ?_
    rcases code with _ | _ | code
    · exact .pure _
    · exact .pure _
    · exact hsets.bind fun _ => .pure _

/-- How a profile, tier and level structure is coded. -/
theorem composed_readPtlCoding (defaultMaxTid : Bool) (maxSublayersMinus1 index : Nat) :
    Composed (readPtlCoding defaultMaxTid maxSublayersMinus1 index) := by
  refine (Composed.readBit.readIf _ true).bind fun _ => ?_
  refine (((composed_readBits 3).readInRange _ 0 _).readIf _ _).bind fun _ => ?_
  exact .pure _

/-- Profile, tier and level structures, of which each hands on what the next one leaves out. -/
theorem composed_readPtls (previous : Option ProfileTierLevel)
    (codings : List PtlCoding) : Composed (readPtls previous codings) := by
  induction codings generalizing previous with
  | nil => exact .pure []
  | cons coding codings ih =>
    exact (ProfileTierLevel.composed_read _ _).bind fun own =>
      (ih _).bind fun _ => .pure _

/-- The structures that the output layer sets use. -/
theorem composed_skipOlsPtls (ptlCount olsCount : Nat) :
    Composed (skipOlsPtls ptlCount olsCount) :=
  ((composed_skipNumber 8).skipTimes olsCount).skipIf _

/-- The highest sublayer that a set of parameters covers. -/
theorem composed_readMaxTid (defaultMaxTid : Bool) (maxSublayersMinus1 : Nat) :
    Composed (readMaxTid defaultMaxTid maxSublayersMinus1) :=
  (composed_readBits 3).readIf _ _

/-- The parameters of the decoded picture buffers. -/
theorem composed_skipBuffers (defaultMaxTid : Bool)
    (maxSublayersMinus1 olsCount multiLayerOlsCount : Nat) :
    Composed (skipBuffers defaultMaxTid maxSublayersMinus1 olsCount multiLayerOlsCount) := by
  have hdpb (first last : Nat) : Composed (skipDpbParameters first last) :=
    (composed_skipExpGolomb.skipTimes 3).skipTimes _
  have hformat (indexPresent : Bool) : Composed (skipOlsFormat indexPresent) := by
    refine composed_skipExpGolomb.bind fun _ => ?_
    refine composed_skipExpGolomb.bind fun _ => ?_
    refine (composed_skipNumber 2).bind fun _ => ?_
    exact composed_skipExpGolomb.bind fun _ =>
      composed_skipExpGolomb.skipIf indexPresent
  refine (composed_readExpGolomb.readInRange _ 0 olsCount).bind fun countMinus1 => ?_
  refine (Composed.readBit.readIf _ false).bind fun allSublayers => ?_
  refine (Composed.skipTimes ?_ _).bind fun _ => (hformat _).skipTimes multiLayerOlsCount
  exact (composed_readMaxTid _ _).bind fun maxTid => hdpb _ maxTid

/-- Timing and HRD parameters, the general ones and those of the output layer sets. -/
theorem composed_skipTiming (defaultMaxTid : Bool)
    (maxSublayersMinus1 multiLayerOlsCount : Nat) :
    Composed (skipTiming defaultMaxTid maxSublayersMinus1 multiLayerOlsCount) := by
  refine TimingHrd.composed_read.bind fun general => ?_
  refine (Composed.readBit.readIf _ false).bind fun allSublayers => ?_
  refine (composed_readExpGolomb.readInRange _ 0 _).bind fun countMinus1 => ?_
  refine (Composed.skipTimes ?_ _).bind fun _ =>
    (composed_skipExpGolomb.skipTimes multiLayerOlsCount).skipIf _
  exact (composed_readMaxTid _ _).bind fun maxTid =>
    TimingHrd.composed_skipOutputLayerSet general _ maxTid

/-- All parameters of output layer sets. -/
theorem composed_readOlsParameters (defaultMaxTid : Bool)
    (maxSublayersMinus1 olsCount multiLayerOlsCount : Nat) :
    Composed
      (readOlsParameters defaultMaxTid maxSublayersMinus1 olsCount multiLayerOlsCount) := by
  refine (composed_skipBuffers _ _ _ _).bind fun _ => ?_
  refine Composed.readBit.bind fun timingPresent => ?_
  exact ((composed_skipTiming _ _ _).skipIf timingPresent).bind fun _ =>
    Composed.pure timingPresent

/-- A video parameter set behind its header. -/
theorem composed_readPayload (header : NalUnitHeader) :
    Composed (readPayload header) := by
  refine (composed_readBits 4).bind fun id => ?_
  refine (composed_readBits 6).bind fun maxLayersMinus1 => ?_
  refine ((composed_readBits 3).readInRange _ 0 6).bind fun maxSublayersMinus1 => ?_
  refine (Composed.readBit.readIf _ true).bind fun defaultMaxTid => ?_
  refine (Composed.readBit.readIf _ true).bind fun independentLayers => ?_
  refine (Composed.mapM (composed_readLayer _) _).bind fun references => ?_
  refine ((composed_readOlsMode _ _).readIf _ _).bind fun olsMode => ?_
  refine ((composed_readBits 8).readIf _ 0).bind fun ptlCountMinus1 => ?_
  refine (Composed.mapM (composed_readPtlCoding _ _) _).bind fun codings => ?_
  refine Composed.align.bind fun _ => ?_
  refine (composed_readPtls none codings).bind fun _ => ?_
  refine (composed_skipOlsPtls _ _).bind fun _ => ?_
  refine ((composed_readOlsParameters _ _ _ _).readIf _ false).bind fun _ => ?_
  exact .pure _

end VideoParameterSet

/-! ### Sequence parameter sets -/

namespace SequenceParameterSet

/-- A number that is there if it has a width. -/
theorem composed_skipSized (width : Option Nat) : Composed (skipSized width) := by
  cases width with
  | none => exact .pure ()
  | some width => exact composed_skipNumber width

/-- The place, the size and the flags of a subpicture. -/
theorem composed_skipSubpicture (grid : SubpictureGrid) (independent sameSize : Bool)
    (i : Nat) (isLast : Bool) :
    Composed (skipSubpictures.skipSubpicture grid independent sameSize i isLast) := by
  have hpair : Composed (do skipSized grid.columnBits; skipSized grid.rowBits) :=
    (composed_skipSized _).bind fun _ => composed_skipSized _
  have hplace : Composed (do
      skipIf (i != 0) do
        skipSized grid.columnBits
        skipSized grid.rowBits
      skipIf (!isLast) do
        skipSized grid.columnBits
        skipSized grid.rowBits) :=
    (hpair.skipIf _).bind fun _ => hpair.skipIf _
  have hflags : Composed (do skipFlag; skipFlag) :=
    composed_skipFlag.bind fun _ => composed_skipFlag
  exact (hplace.skipIf _).bind fun _ => hflags.skipIf _

/-- Subpictures one after the other, of which the last takes what is left of the picture. -/
theorem composed_skipSubpictures (grid : SubpictureGrid) (independent sameSize : Bool)
    (i left : Nat) : Composed (skipSubpictures grid independent sameSize i left) := by
  induction left generalizing i with
  | zero => exact composed_skipSubpicture grid independent sameSize i true
  | succ left ih =>
    exact (composed_skipSubpicture grid independent sameSize i false).bind fun _ =>
      ih (i + 1)

/-- All that is said about subpictures. -/
theorem composed_readSubpictureInfo (grid : SubpictureGrid) :
    Composed (readSubpictureInfo grid) := by
  refine (composed_readExpGolomb.readInRange _ 0 599).bind fun countMinus1 => ?_
  refine (Composed.readBit.readIf _ true).bind fun independent => ?_
  refine (Composed.readBit.readIf _ false).bind fun sameSize => ?_
  refine ((composed_skipSubpictures grid _ _ 0 countMinus1).skipIf _).bind fun _ => ?_
  refine (composed_readExpGolomb.readInRange _ 0 15).bind fun idLengthMinus1 => ?_
  refine Composed.readBit.bind fun explicitIds => ?_
  refine (Composed.readBit.readIf explicitIds false).bind fun idsHere => ?_
  exact ((Composed.skipBits _).skipIf idsHere).bind fun _ => .pure _

/-- A sequence parameter set behind its header. -/
theorem composed_readPayload (header : NalUnitHeader) :
    Composed (readPayload header) := by
  refine (composed_readBits 4).bind fun id => ?_
  refine (composed_readBits 4).bind fun videoParameterSetId => ?_
  refine ((composed_readBits 3).readInRange _ 0 6).bind fun maxSublayersMinus1 => ?_
  refine (composed_readBits 2).bind fun chromaFormat => ?_
  refine ((composed_readBits 2).readInRange _ 0 2).bind fun log2CtuSizeMinus5 => ?_
  refine Composed.readBit.bind fun profilePresent => ?_
  refine (((ProfileTierLevel.composed_read _ _).map some).readIf _ none).bind fun _ => ?_
  refine composed_skipFlag.bind fun _ => ?_
  refine Composed.readBit.bind fun resampling => ?_
  refine (composed_skipFlag.skipIf resampling).bind fun _ => ?_
  refine composed_readExpGolomb.bind fun maxWidth => ?_
  refine composed_readExpGolomb.bind fun maxHeight => ?_
  refine Composed.readBit.bind fun windowPresent => ?_
  refine ((composed_skipExpGolomb.skipTimes 4).skipIf windowPresent).bind fun _ => ?_
  refine Composed.readBit.bind fun subpicturesPresent => ?_
  refine ((composed_readSubpictureInfo _).readIf subpicturesPresent 0).bind fun _ => ?_
  refine (composed_readExpGolomb.readInRange _ 0 8).bind fun _ => ?_
  exact .pure _

end SequenceParameterSet

/-! ### Decoder configuration records -/

/-- Profile, tier and level in a record. -/
theorem ProfileRecord.composed_read (sublayers : Nat) :
    Composed (read sublayers) := by
  have hpresent : Composed (readPresent sublayers) :=
    Composed.readIf ((Composed.readBit.readTimes _).bind fun _ =>
      Composed.align.bind fun _ => .pure _) _ []
  have hlevels (present : List Bool) : Composed (readLevels present) :=
    Composed.mapM (fun stated => composed_readUInt8.readIf stated 0) present
  refine (composed_skipNumber 2).bind fun _ => ?_
  refine (composed_readBits 6).bind fun constraintBytes => ?_
  refine Composed.check (fun _ => trivial) ?_
  refine (composed_readBits 7).bind fun _ => ?_
  refine Composed.readBit.bind fun _ => ?_
  refine composed_readUInt8.bind fun _ => ?_
  refine Composed.readBit.bind fun _ => ?_
  refine Composed.readBit.bind fun _ => ?_
  refine (Composed.readBit.readTimes _).bind fun _ => ?_
  refine hpresent.bind fun present => ?_
  refine (hlevels present).bind fun _ => ?_
  refine ProfileTierLevel.composed_readSubProfiles.bind fun _ => ?_
  exact .pure _

namespace DecoderRecord

/-- An array of NAL units. -/
theorem composed_readArray : Composed readArray := by
  have hnalUnit : Composed readNalUnit :=
    composed_readUInt16.bind fun length => Composed.readBytes length.toNat
  refine Composed.readBit.bind fun _ => ?_
  refine (composed_skipNumber 2).bind fun _ => ?_
  refine (composed_readBits 5).bind fun code => ?_
  refine Composed.check (fun _ => trivial) ?_
  refine (composed_readUInt16.readIf _ 1).bind fun count => ?_
  exact (hnalUnit.readTimes count.toNat).bind fun _ => .pure _

/-- What a record says about the stream. -/
theorem composed_readStream : Composed readStream := by
  refine (composed_readBits 9).bind fun _ => ?_
  refine (composed_readBits 3).bind fun sublayers => ?_
  refine (composed_readBits 2).bind fun _ => ?_
  refine (composed_readBits 2).bind fun _ => ?_
  refine (composed_readBits 3).bind fun _ => ?_
  refine (composed_skipNumber 5).bind fun _ => ?_
  refine (ProfileRecord.composed_read sublayers).bind fun _ => ?_
  refine composed_readUInt16.bind fun _ => ?_
  refine composed_readUInt16.bind fun _ => ?_
  exact composed_readUInt16.bind fun _ => .pure _

/-- A decoder configuration record. -/
theorem composed_read : Composed read := by
  refine (composed_readBits 5).bind fun reserved => ?_
  refine Composed.check (fun _ => trivial) ?_
  refine (composed_readBits 2).bind fun lengthSizeMinus1 => ?_
  refine Composed.check (fun _ => trivial) ?_
  refine Composed.readBit.bind fun streamPresent => ?_
  refine ((composed_readStream.map some).readIf streamPresent none).bind fun _ => ?_
  refine composed_readUInt8.bind fun arrayCount => ?_
  exact (composed_readArray.readTimes arrayCount.toNat).bind fun _ => .pure _

end DecoderRecord

end H266
