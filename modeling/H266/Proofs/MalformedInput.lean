import H266.Proofs.Composed
import H266.Proofs.LengthPrefixes
import H266.Proofs.RecordBytes
import H266.Proofs.StartCodes

/-!
# Malformed Input

Whatever bytes are read or converted, what goes wrong is their fault. They end too early, or they
break a rule, or they ask for more coded picture buffers than are supported; no failure of a stream
comes of it, although what is made of them is written to one. Reading is composed of steps of which
this is known. What is written was checked before, or always fits.

Data that ends too early is told from other faults up to the end: if the conversion of a byte stream
to a record is out of data, this is because the first NAL unit that could not be added is a
parameter set that is cut short. Neither the checks of the record nor the writing of it end like
this.

## Main results

* `BitReader.Composed.failsWith`: steps that are composed of operations of the reader.
* `RecordBuilder.forM_add_eq_error_iff`: where a run over NAL units fails.
* `DecoderRecord.failsWith_encode`: only a check keeps a record from being written.
* `failsWith_blamesInput`: the parsers and the conversions.
-/

namespace H266

/-! ### Errors of a kind -/

/-- Errors that state in what way data breaks a rule. -/
def Error.StatesFault : Error → Prop
  | invalidData _ => True
  | outOfData | unsupportedCpbCount _ | io _ => False

/-- An error that states a fault puts the blame on the input. -/
theorem Error.StatesFault.blamesInput {error : Error} (h : error.StatesFault) :
    error.BlamesInput := by
  cases error with
  | invalidData _ => trivial
  | outOfData => trivial
  | unsupportedCpbCount _ => exact h.elim
  | io _ => exact h

namespace Check

variable {α β ι : Type} {kind : Error → Prop}

/-- If there is an error, it is of the given kind. -/
def FailsWith (kind : Error → Prop) (result : Except Error α) : Prop :=
  ∀ error, result = .error error → kind error

/-- A success is no failure of any kind. -/
theorem failsWith_ok (value : α) : FailsWith kind (.ok value) :=
  fun _ h => (by cases h)

/-- A failure of the given kind. -/
theorem failsWith_error {error : Error} (h : kind error) :
    FailsWith kind (.error error : Except Error α) :=
  fun _ hsame => Except.error.inj hsame ▸ h

/-- Errors of one kind are errors of a wider kind. -/
theorem FailsWith.mono {kind' : Error → Prop} {result : Except Error α} (h : FailsWith kind result)
    (hkind : ∀ {error}, kind error → kind' error) : FailsWith kind' result :=
  fun error herror => hkind (h error herror)

/-- A sequence fails with errors of a kind if its first step does and whatever follows. -/
theorem FailsWith.bind {step : Except Error α} {next : α → Except Error β}
    (hstep : FailsWith kind step) (hnext : ∀ value, FailsWith kind (next value)) :
    FailsWith kind (step >>= next) := by
  cases step with
  | error error => exact failsWith_error (hstep error rfl)
  | ok value => exact hnext value

/-- Another value made of a result makes no other error. -/
theorem FailsWith.map {step : Except Error α} (h : FailsWith kind step) (f : α → β) :
    FailsWith kind (step.map f) := by
  cases step with
  | error error => exact failsWith_error (h error rfl)
  | ok value => exact failsWith_ok _

/-- What follows a check. -/
theorem FailsWith.check {p : Prop} [Decidable p] {error : Error} {next : PUnit → Except Error α}
    (herror : kind error) (h : FailsWith kind (next ⟨⟩)) :
    FailsWith kind (if p then throw error >>= next else next ⟨⟩) := by
  split
  · exact failsWith_error herror
  · exact h

/-- A check on its own. -/
theorem failsWith_throw_if {p : Prop} [Decidable p] {error : Error} (herror : kind error) :
    FailsWith kind (if p then throw error else pure () : Except Error Unit) := by
  split
  · exact failsWith_error herror
  · exact failsWith_ok ()

/-- A check of every entry of a list. -/
theorem FailsWith.forM {check : ι → Except Error Unit} (h : ∀ entry, FailsWith kind (check entry))
    (entries : List ι) : FailsWith kind (entries.forM check) := by
  induction entries with
  | nil => exact failsWith_ok ()
  | cons entry entries ih => exact (h entry).bind fun _ => ih

/-- A check of an entry that may be missing. -/
theorem FailsWith.option_forM {check : ι → Except Error Unit}
    (h : ∀ entry, FailsWith kind (check entry)) (entry : Option ι) :
    FailsWith kind (entry.forM check) := by
  cases entry with
  | none => exact failsWith_ok ()
  | some value => exact h value

/-- Another value made of a result neither makes an error nor takes one away. -/
theorem map_eq_error_iff {step : Except Error α} {f : α → β} {error : Error} :
    step.map f = .error error ↔ step = .error error := by
  cases step <;> simp [Except.map]

/-- If what follows fails with faults only, a sequence is out of data exactly if its first step
is. -/
theorem bind_eq_outOfData_iff {step : Except Error α} {next : α → Except Error β}
    (hnext : ∀ value, FailsWith Error.StatesFault (next value)) :
    step >>= next = .error .outOfData ↔ step = .error .outOfData := by
  constructor
  · intro h
    cases step with
    | error error =>
      cases h
      rfl
    | ok value => exact (hnext value _ h).elim
  · rintro rfl
    rfl

end Check

open Check (FailsWith failsWith_ok failsWith_error)

/-! ### Reading -/

namespace BitReader

/-- Reading a bit fails only for want of data. -/
theorem failsWith_readBit (reader : BitReader) : FailsWith Error.BlamesInput (readBit reader) := by
  rw [readBit]
  split
  · exact failsWith_ok _
  · split
    · exact failsWith_error trivial
    · exact failsWith_ok _

/-- So does reading a number bit by bit, whatever bits come before these. -/
theorem failsWith_readBitsAfter (high count : Nat) (reader : BitReader) :
    FailsWith Error.BlamesInput (readBitsAfter high count reader) := by
  induction count generalizing high reader with
  | zero => exact failsWith_ok _
  | succ count ih => exact (failsWith_readBit reader).bind fun result => ih _ result.2

/-- And reading a number at once. -/
theorem failsWith_readBits (count : Nat) (reader : BitReader) :
    FailsWith Error.BlamesInput (readBits count reader) :=
  failsWith_readBitsAfter 0 _ reader

/-- Inside a byte, bytes are read as numbers of eight bits. -/
theorem failsWith_readUnalignedAfter (taken : Bytes) (count : Nat) (reader : BitReader) :
    FailsWith Error.BlamesInput (readUnalignedAfter taken count reader) := by
  induction count generalizing taken reader with
  | zero => exact failsWith_ok _
  | succ count ih => exact (failsWith_readBits 8 reader).bind fun result => ih _ result.2

/-- At a byte boundary there may be fewer bytes, but this is no error yet. -/
theorem failsWith_readSome (count : Nat) (reader : BitReader) :
    FailsWith Error.BlamesInput (readSome count reader) := by
  by_cases haligned : reader.isAligned = true
  · rw [readSome_of_isAligned haligned]
    exact failsWith_ok _
  · rw [readSome_of_not_isAligned haligned]
    exact failsWith_readUnalignedAfter [] count reader

/-- Bytes are refused for want of data if they are fewer than asked for. -/
theorem failsWith_readBytes (count : Nat) (reader : BitReader) :
    FailsWith Error.BlamesInput (readBytes count reader) := by
  refine (failsWith_readSome count reader).bind fun result => ?_
  show FailsWith _ ((if result.1.length < count then _ else _ : ReadM Bytes) result.2)
  split
  · exact failsWith_error trivial
  · exact failsWith_ok _

/-- Skipping bits is reading numbers and whole bytes. -/
theorem failsWith_skipBits (count : Nat) (reader : BitReader) :
    FailsWith Error.BlamesInput (skipBits count reader) := by
  rw [skipBits, PureStep.get_bind]
  refine (failsWith_readBits _ reader).bind fun result => ?_
  have hrest (left : Nat) (reader : BitReader) : FailsWith Error.BlamesInput
      ((do let _ ← readBits left : ReadM Unit) reader) :=
    (failsWith_readBits left reader).bind fun _ => failsWith_ok _
  show FailsWith _ ((if 8 ≤ _ then _ else _ : ReadM Unit) result.2)
  split
  · exact (failsWith_readBytes _ result.2).bind fun skipped => hrest _ skipped.2
  · exact hrest _ result.2

/-- Operations of the reader fail for want of data, and what is refused is malformed. -/
theorem Composed.failsWith {α : Type} {step : ReadM α} (h : Composed step) (reader : BitReader) :
    FailsWith Error.BlamesInput (step reader) := by
  induction h generalizing reader with
  | pure value => exact failsWith_ok _
  | throw herror => exact failsWith_error herror
  | bind _ _ hstep hnext => exact (hstep reader).bind fun result => hnext result.1 result.2
  | readBit => exact failsWith_readBit reader
  | align => exact failsWith_ok _
  | readBytes count => exact failsWith_readBytes count reader
  | skipBits count => exact failsWith_skipBits count reader

end BitReader

/-! ### Parsing -/

namespace NalUnitHeader

/-- A NAL unit without a valid header is to blame for it. -/
theorem failsWith_split (nalUnit : Bytes) : FailsWith Error.BlamesInput (split nalUnit) :=
  (composed_read.failsWith _).bind fun _ => failsWith_ok _

/-- So is one of another type than that of the parameter set it is taken for. -/
theorem failsWith_splitParameterSet (kind : ParameterSetKind) (nalUnit : Bytes) :
    FailsWith Error.BlamesInput (splitParameterSet kind nalUnit) :=
  (failsWith_split nalUnit).bind fun _ => .check trivial (failsWith_ok _)

end NalUnitHeader

/-- A video parameter set that cannot be parsed is malformed. -/
theorem VideoParameterSet.failsWith_parse (nalUnit : Bytes) :
    FailsWith Error.BlamesInput (parse nalUnit) :=
  (NalUnitHeader.failsWith_splitParameterSet .video nalUnit).bind fun result =>
    ((composed_readPayload result.1).failsWith _).bind fun _ => failsWith_ok _

/-- A sequence parameter set that cannot be parsed is malformed. -/
theorem SequenceParameterSet.failsWith_parse (nalUnit : Bytes) :
    FailsWith Error.BlamesInput (parse nalUnit) :=
  (NalUnitHeader.failsWith_splitParameterSet .sequence nalUnit).bind fun result =>
    ((composed_readPayload result.1).failsWith _).bind fun _ => failsWith_ok _

/-- Of a picture parameter set only the header can be malformed. -/
theorem PictureParameterSet.failsWith_parse (nalUnit : Bytes) :
    FailsWith Error.BlamesInput (parse nalUnit) :=
  (NalUnitHeader.failsWith_splitParameterSet .picture nalUnit).bind fun _ => failsWith_ok _

/-- A record that cannot be parsed is malformed. -/
theorem DecoderRecord.failsWith_parse (data : Bytes) :
    FailsWith Error.BlamesInput (parse data) :=
  (composed_read.failsWith _).bind fun _ => failsWith_ok _

/-! ### Adding NAL units -/

namespace RecordBuilder

/-- The content of a NAL unit is refused by its own parser, if it has one. -/
theorem failsWith_readContent (type : NalUnitType) (nalUnit : Bytes) :
    FailsWith Error.BlamesInput (readContent type nalUnit) := by
  unfold readContent
  split
  · exact (VideoParameterSet.failsWith_parse nalUnit).map _
  · exact (SequenceParameterSet.failsWith_parse nalUnit).map _
  · exact (PictureParameterSet.failsWith_parse nalUnit).map _
  · exact failsWith_ok _

/-- A NAL unit that is not accepted is to blame for it. -/
theorem failsWith_accept (nalUnit : Bytes) : FailsWith Error.BlamesInput (accept nalUnit) := by
  rw [accept]
  cases hsplit : NalUnitHeader.split nalUnit with
  | error error => exact failsWith_error (NalUnitHeader.failsWith_split nalUnit error hsplit)
  | ok result =>
    simp only
    split
    · exact (failsWith_readContent _ nalUnit).map _
    · exact failsWith_error trivial

/-- A run fails at the first NAL unit that is not accepted, and with the error of that one. -/
theorem forM_add_eq_error_iff {nalUnits : List Bytes} {builder final : RecordBuilder}
    {error : Error} :
    nalUnits.forM add builder = (.error error, final) ↔
      ∃ before nalUnit after, nalUnits = before ++ nalUnit :: after ∧
        before.forM add builder = (.ok (), final) ∧ accept nalUnit = .error error := by
  induction nalUnits generalizing builder with
  | nil =>
    refine ⟨fun h => (by cases h), ?_⟩
    rintro ⟨before, nalUnit, after, h, -⟩
    exact absurd h.symm (List.append_ne_nil_of_right_ne_nil before (List.cons_ne_nil _ _))
  | cons first nalUnits ih =>
    have hrun (rest : List Bytes) :
        (first :: rest).forM add builder = (add first >>= fun _ => rest.forM add) builder := rfl
    simp only [List.cons_eq_append_iff]
    cases haccept : accept first with
    | error own =>
      have hadd : add first builder = (.error own, builder) := by rw [add_eq, haccept]
      rw [hrun, StateStep.error_bind hadd]
      constructor
      · intro h
        cases h
        exact ⟨[], first, nalUnits, .inl ⟨rfl, rfl⟩, rfl, haccept⟩
      · rintro ⟨before, nalUnit, after, ⟨rfl, h⟩ | ⟨tail, rfl, -⟩, hbefore, hnalUnit⟩
        · cases h
          cases hbefore
          rw [haccept] at hnalUnit
          cases hnalUnit
          rfl
        · rw [hrun, StateStep.error_bind hadd] at hbefore
          cases hbefore
    | ok accepted =>
      have hadd : add first builder = (.ok (), builder.withNalUnit accepted) := by
        rw [add_eq, haccept]
      rw [hrun, StateStep.ok_bind hadd, ih]
      constructor
      · rintro ⟨before, nalUnit, after, rfl, hbefore, hnalUnit⟩
        refine ⟨first :: before, nalUnit, after, .inr ⟨before, rfl, rfl⟩, ?_, hnalUnit⟩
        rwa [hrun, StateStep.ok_bind hadd]
      · rintro ⟨before, nalUnit, after, ⟨rfl, h⟩ | ⟨tail, rfl, rfl⟩, hbefore, hnalUnit⟩
        · cases h
          rw [haccept] at hnalUnit
          cases hnalUnit
        · rw [hrun, StateStep.ok_bind hadd] at hbefore
          exact ⟨tail, nalUnit, after, rfl, hbefore, hnalUnit⟩

/-- A builder is made of a byte stream unless adding its NAL units ends with an error. -/
theorem ofAnnexB_eq_error_iff {options : ConversionOptions} {data : Bytes} {error : Error} :
    ofAnnexB options data = .error error ↔
      ∃ final, addAnnexB data (empty options) = (.error error, final) := by
  have hrun : (addAnnexB data).run (empty options) = addAnnexB data (empty options) := rfl
  rw [ofAnnexB, hrun]
  rcases addAnnexB data (empty options) with ⟨own | _, final⟩
  · constructor
    · intro h
      cases h
      exact ⟨final, rfl⟩
    · rintro ⟨_, ⟨⟩⟩
      rfl
  · constructor
    · intro h
      cases h
    · rintro ⟨_, ⟨⟩⟩

/-- If no builder is made of a byte stream, one of its NAL units is to blame. -/
theorem failsWith_ofAnnexB (options : ConversionOptions) (data : Bytes) :
    FailsWith Error.BlamesInput (ofAnnexB options data) := by
  intro error herror
  obtain ⟨final, hrun⟩ := ofAnnexB_eq_error_iff.1 herror
  obtain ⟨_, nalUnit, _, -, -, haccept⟩ := forM_add_eq_error_iff.1 hrun
  exact failsWith_accept nalUnit error haccept

/-- Only picture sizes keep a builder from being finished. -/
theorem failsWith_finish (builder : RecordBuilder) :
    FailsWith Error.StatesFault builder.finish := by
  have hsize (field : String) (value : Nat) :
      FailsWith Error.StatesFault (pictureSize field value) := by
    rw [pictureSize]
    split
    · exact failsWith_ok _
    · exact failsWith_error trivial
  exact (hsize _ _).bind fun _ => (hsize _ _).bind fun _ => failsWith_ok _

end RecordBuilder

/-! ### Parameter sets that are cut short -/

/-- In a NAL unit with two header bytes the header is complete, if it is not malformed. -/
theorem NalUnitHeader.split_of_ofHeaderBytes? {nalUnit : Bytes} {type : NalUnitType}
    (h : NalUnitType.ofHeaderBytes? nalUnit = some type) :
    (∃ fault, split nalUnit = .error (.invalidData fault)) ∨
      ∃ header payload, split nalUnit = .ok (header, payload) ∧ header.type = type := by
  match nalUnit, h with
  | first :: second :: rest, h =>
    rw [split_cons_cons]
    split
    · exact .inl ⟨_, rfl⟩
    · split
      · exact .inl ⟨_, rfl⟩
      · exact .inr ⟨_, rest, rfl, Option.some.inj h⟩

/-- A NAL unit with a header for a kind of parameter set is split as one. -/
theorem NalUnitHeader.splitParameterSet_eq_ok {kind : ParameterSetKind} {nalUnit payload : Bytes}
    {header : NalUnitHeader} (h : split nalUnit = .ok (header, payload))
    (htype : header.type = kind.nalUnitType) :
    splitParameterSet kind nalUnit = .ok (header, payload) := by
  rw [splitParameterSet, h]
  exact if_neg (not_not_intro htype)

namespace RecordBuilder

/-- A NAL unit whose header says that it is a video or a sequence parameter set, and that is out
of data when it is parsed as one. -/
def IsCutShort (nalUnit : Bytes) : Prop :=
  (NalUnitType.ofHeaderBytes? nalUnit = some .videoParameterSet ∧
    VideoParameterSet.parse nalUnit = .error .outOfData) ∨
  NalUnitType.ofHeaderBytes? nalUnit = some .sequenceParameterSet ∧
    SequenceParameterSet.parse nalUnit = .error .outOfData

/-- With a complete header, only what comes after it can be cut short, and of picture parameter
sets nothing after it is read. -/
theorem readContent_eq_outOfData_iff {nalUnit payload : Bytes} {header : NalUnitHeader}
    (h : NalUnitHeader.split nalUnit = .ok (header, payload)) :
    readContent header.type nalUnit = .error .outOfData ↔ IsCutShort nalUnit := by
  rw [IsCutShort, NalUnitHeader.ofHeaderBytes?_of_split h]
  unfold readContent
  split
  case h_1 htype => simp [Check.map_eq_error_iff, htype]
  case h_2 htype => simp [Check.map_eq_error_iff, htype]
  case h_3 htype =>
    have hparse : PictureParameterSet.parse nalUnit = .ok (⟨header⟩, payload) := by
      rw [PictureParameterSet.parse,
        @NalUnitHeader.splitParameterSet_eq_ok .picture _ _ _ h htype]
      rfl
    simp [hparse, htype, Except.map]
  case h_4 hvideo hsequence _ =>
    simp only [Option.some.injEq, reduceCtorEq, false_iff]
    rintro (⟨htype, -⟩ | ⟨htype, -⟩)
    · exact hvideo htype
    · exact hsequence htype

/-- Which of the NAL units to be collected are not accepted for want of data. -/
theorem accept_eq_outOfData_iff {nalUnit : Bytes} (hcollected : isCollected nalUnit = true) :
    accept nalUnit = .error .outOfData ↔ IsCutShort nalUnit := by
  cases htype : NalUnitType.ofHeaderBytes? nalUnit with
  | none =>
    rw [isCollected, htype] at hcollected
    cases hcollected
  | some type =>
    rw [isCollected, htype] at hcollected
    have hcollected : type.isCollected = true := hcollected
    obtain ⟨fault, hsplit⟩ | ⟨header, payload, hsplit, rfl⟩ :=
      NalUnitHeader.split_of_ofHeaderBytes? htype
    · have hvideo : VideoParameterSet.parse nalUnit = .error (.invalidData fault) := by
        rw [VideoParameterSet.parse, NalUnitHeader.splitParameterSet, hsplit]
        rfl
      have hsequence : SequenceParameterSet.parse nalUnit = .error (.invalidData fault) := by
        rw [SequenceParameterSet.parse, NalUnitHeader.splitParameterSet, hsplit]
        rfl
      simp [accept, IsCutShort, hsplit, hvideo, hsequence]
    · rw [← readContent_eq_outOfData_iff hsplit, accept, hsplit]
      simp only [if_pos hcollected]
      exact Check.map_eq_error_iff

end RecordBuilder

/-! ### Finishing -/

namespace DecoderRecord

/-- A number of parameter sets out of range is stated as the fault. -/
theorem failsWith_validateCount (record : DecoderRecord) (kind : ParameterSetKind) :
    FailsWith Error.StatesFault (record.validateCount kind) :=
  Check.failsWith_throw_if trivial

/-- What is wrong with an array is stated as the fault. -/
theorem failsWith_validateArray (array : NalUnitArray) :
    FailsWith Error.StatesFault (validateArray array) := by
  unfold validateArray
  refine FailsWith.check trivial ?_
  refine FailsWith.check trivial ?_
  refine FailsWith.check trivial ?_
  split
  · exact failsWith_error trivial
  · exact failsWith_ok ()

/-- What is wrong with the description of the stream is stated as the fault. -/
theorem failsWith_validateStream (stream : StreamInfo) :
    FailsWith Error.StatesFault (validateStream stream) := by
  unfold validateStream
  refine FailsWith.check trivial ?_
  refine FailsWith.check trivial ?_
  refine FailsWith.check trivial ?_
  refine FailsWith.check trivial ?_
  unfold ProfileRecord.validate
  refine FailsWith.check trivial ?_
  refine FailsWith.check trivial ?_
  exact Check.failsWith_throw_if trivial

/-- Whatever check a record does not pass, the fault is stated. -/
theorem failsWith_validate (record : DecoderRecord) :
    FailsWith Error.StatesFault record.validate := by
  unfold validate
  refine FailsWith.check trivial ?_
  refine (record.failsWith_validateCount .video).bind fun _ => ?_
  refine (record.failsWith_validateCount .sequence).bind fun _ => ?_
  refine (record.failsWith_validateCount .picture).bind fun _ => ?_
  refine FailsWith.check trivial ?_
  refine (FailsWith.forM failsWith_validateArray _).bind fun _ => ?_
  exact FailsWith.option_forM failsWith_validateStream _

/-- Only a check keeps a record from being written: what was checked fits. -/
theorem failsWith_encode (record : DecoderRecord) : FailsWith Error.StatesFault record.encode := by
  cases hvalidate : record.validate with
  | error error =>
    rw [encode, writeTo_of_validate_eq_error hvalidate]
    exact failsWith_error (record.failsWith_validate error hvalidate)
  | ok _ =>
    rw [encode_eq_pack (validate_eq_ok_iff.1 hvalidate)]
    exact failsWith_ok _

/-! ### Converting -/

/-- If no record is made of it, either that or the size of the pictures is to blame. -/
theorem failsWith_ofAnnexB (options : ConversionOptions) (data : Bytes) :
    FailsWith Error.BlamesInput (ofAnnexB options data) :=
  (RecordBuilder.failsWith_ofAnnexB options data).bind fun builder =>
    builder.failsWith_finish.mono Error.StatesFault.blamesInput

/-- If no bytes of a record are made of an input, it is to blame. -/
theorem failsWith_bytesOf (options : ConversionOptions) (data : Bytes) :
    FailsWith Error.BlamesInput (bytesOf options data) := by
  unfold bytesOf
  refine FailsWith.check trivial ?_
  split
  · exact failsWith_ok data
  · refine FailsWith.check trivial ?_
    refine (failsWith_ofAnnexB options data).bind fun record => ?_
    exact record.failsWith_encode.mono Error.StatesFault.blamesInput

/-- A record is out of data if the first NAL unit that is not accepted is cut short. -/
theorem ofAnnexB_eq_outOfData_iff {options : ConversionOptions} {data : Bytes} :
    ofAnnexB options data = .error .outOfData ↔
      ∃ before nalUnit after final,
        (AnnexB.nalUnits data).filter RecordBuilder.isCollected = before ++ nalUnit :: after ∧
        before.forM RecordBuilder.add (.empty options) = (.ok (), final) ∧
        RecordBuilder.IsCutShort nalUnit := by
  have hcollected {before after : List Bytes} {nalUnit : Bytes}
      (h : (AnnexB.nalUnits data).filter RecordBuilder.isCollected = before ++ nalUnit :: after) :
      RecordBuilder.isCollected nalUnit = true := by
    have hmem : nalUnit ∈ (AnnexB.nalUnits data).filter RecordBuilder.isCollected :=
      h ▸ List.mem_append_right before (List.mem_cons_self)
    exact (List.mem_filter.1 hmem).2
  rw [ofAnnexB, Check.bind_eq_outOfData_iff RecordBuilder.failsWith_finish,
    RecordBuilder.ofAnnexB_eq_error_iff]
  constructor
  · rintro ⟨final, hrun⟩
    obtain ⟨before, nalUnit, after, hsplit, hbefore, haccept⟩ :=
      RecordBuilder.forM_add_eq_error_iff.1 hrun
    exact ⟨before, nalUnit, after, final, hsplit, hbefore,
      (RecordBuilder.accept_eq_outOfData_iff (hcollected hsplit)).1 haccept⟩
  · rintro ⟨before, nalUnit, after, final, hsplit, hbefore, hshort⟩
    exact ⟨final, RecordBuilder.forM_add_eq_error_iff.2 ⟨before, nalUnit, after, hsplit, hbefore,
      (RecordBuilder.accept_eq_outOfData_iff (hcollected hsplit)).2 hshort⟩⟩

/-- A start code is no beginning of a record. -/
theorem isRecordFormat_eq_false_of_hasStartCode {data : Bytes}
    (h : AnnexB.hasStartCode data = true) : isRecordFormat data = false := by
  unfold AnnexB.hasStartCode at h
  split at h
  · rfl
  · rfl
  · cases h

/-- Only a byte stream is out of data, and only while the record is built. -/
theorem bytesOf_eq_outOfData_iff {options : ConversionOptions} {data : Bytes} :
    bytesOf options data = .error .outOfData ↔
      (6 ≤ data.length ∧ AnnexB.hasStartCode data = true) ∧
        ofAnnexB options data = .error .outOfData := by
  rw [bytesOf, minInput]
  by_cases hshort : data.length < 6
  · rw [if_pos hshort]
    constructor
    · intro h
      cases h
    · exact fun h => absurd h.1.1 (Nat.not_le.2 hshort)
  · rw [if_neg hshort]
    cases hstart : AnnexB.hasStartCode data with
    | false =>
      constructor
      · intro h
        split at h <;> cases h
      · exact fun h => absurd h.1.2 Bool.false_ne_true
    | true =>
      rw [isRecordFormat_eq_false_of_hasStartCode hstart]
      exact (Check.bind_eq_outOfData_iff failsWith_encode).trans
        ⟨fun h => ⟨⟨Nat.not_lt.1 hshort, rfl⟩, h⟩, And.right⟩

end DecoderRecord

/-! ### Parsers and conversions -/

/-- **Malformed input**: a byte string that cannot be parsed or converted is out of data, or breaks
a rule, or has more coded picture buffers than are supported; no parser and no conversion fails in
another way. To make the bytes of a record is out of data exactly for byte streams that begin with a
start code of three or four bytes, are not too short, and of which the first NAL unit that cannot be
added is a parameter set that its own parser finds to be cut short. -/
theorem failsWith_blamesInput :
    (∀ nalUnit,
      FailsWith Error.BlamesInput (VideoParameterSet.parse nalUnit) ∧
      FailsWith Error.BlamesInput (SequenceParameterSet.parse nalUnit) ∧
      FailsWith Error.BlamesInput (PictureParameterSet.parse nalUnit)) ∧
    (∀ data, FailsWith Error.BlamesInput (DecoderRecord.parse data)) ∧
    (∀ options data,
      FailsWith Error.BlamesInput (LengthPrefixedStream.ofAnnexB options data) ∧
      FailsWith Error.BlamesInput (DecoderRecord.ofAnnexB options data) ∧
      FailsWith Error.BlamesInput (DecoderRecord.bytesOf options data)) ∧
    ∀ options data, DecoderRecord.bytesOf options data = .error .outOfData ↔
      (6 ≤ data.length ∧ (AnnexB.startCode <+: data ∨ 0 :: AnnexB.startCode <+: data)) ∧
      ∃ before nalUnit after final,
        (AnnexB.nalUnits data).filter RecordBuilder.isCollected = before ++ nalUnit :: after ∧
        before.forM RecordBuilder.add (.empty options) = (.ok (), final) ∧
        RecordBuilder.IsCutShort nalUnit := by
  refine ⟨fun nalUnit => ⟨VideoParameterSet.failsWith_parse nalUnit,
      SequenceParameterSet.failsWith_parse nalUnit, PictureParameterSet.failsWith_parse nalUnit⟩,
    DecoderRecord.failsWith_parse, fun options data => ⟨fun error herror => ?_,
      DecoderRecord.failsWith_ofAnnexB options data, DecoderRecord.failsWith_bytesOf options data⟩,
    fun options data => ?_⟩
  · obtain ⟨_, -, -, rfl⟩ := LengthPrefixedStream.of_ofAnnexB_eq_error herror
    trivial
  · rw [DecoderRecord.bytesOf_eq_outOfData_iff, DecoderRecord.ofAnnexB_eq_outOfData_iff,
      AnnexB.hasStartCode_iff]

/-- A byte stream whose sequence parameter set is cut short behind its header and two more bytes,
and a video parameter set with 34 coded picture buffers. -/
theorem failsWith_blamesInput_cut_short :
    let vps : Bytes := [0x00, 0x71, 0x00, 0x00, 0x1F, 0x02, 0x3C, 0x80, 0x00, 0x40]
    let cut : Bytes := [0x00, 0x79, 0x00, 0x0D]
    let pps : Bytes := [0x00, 0x81]
    let data : Bytes := [0, 0, 1] ++ vps ++ [0, 0, 1] ++ cut ++ [0, 0, 1] ++ pps
    let manyBuffers : Bytes := [0x00, 0x71, 0x10, 0x48, 0x00, 0x2E, 0xC0, 0x08, 0x09, 0x10, 0x02,
      0x3C, 0x80, 0x80, 0x20, 0x00, 0x53, 0x80, 0xC8, 0xC6, 0x00, 0x00, 0x03, 0x00, 0x02, 0x54,
      0x13, 0xCA, 0xDC, 0xE5, 0x50, 0x20, 0xE7, 0xFF, 0xFF, 0xFF, 0xFF, 0x80, 0x00, 0x00, 0x03,
      0x00, 0x4D, 0x13, 0xB0, 0x82, 0x20, 0x00]
    (DecoderRecord.bytesOf .standard data = .error .outOfData ∧
      ∃ nalUnit ∈ [vps, cut, pps], RecordBuilder.IsCutShort nalUnit) ∧
    VideoParameterSet.parse manyBuffers = .error (.unsupportedCpbCount 33) ∧
      (Error.unsupportedCpbCount 33).BlamesInput := by
  intro vps cut pps data manyBuffers
  obtain ⟨hparameterSets, -, -, hshort⟩ := failsWith_blamesInput
  have hnalUnits :
      (AnnexB.nalUnits data).filter RecordBuilder.isCollected = [vps, cut, pps] := by
    decide +kernel
  have hdata : DecoderRecord.bytesOf .standard data = .error .outOfData := by decide +kernel
  have hvideo : VideoParameterSet.parse manyBuffers = .error (.unsupportedCpbCount 33) := by
    decide +kernel
  obtain ⟨-, before, nalUnit, after, -, hsplit, -, hcut⟩ := (hshort .standard data).1 hdata
  refine ⟨⟨hdata, nalUnit, ?_, hcut⟩, hvideo, (hparameterSets manyBuffers).1 _ hvideo⟩
  rw [← hnalUnits, hsplit]
  exact List.mem_append_right before List.mem_cons_self

end H266
