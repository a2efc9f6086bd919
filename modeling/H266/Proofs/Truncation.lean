import H266.Proofs.Composed
import H266.Proofs.SelfDelimiting

/-!
# Truncated Data

Parameter sets and decoder configuration records are read off the start of a byte string, and
where they end is known from their own bytes. So what comes after them does not matter, and data
that ends before they do is told from data that is malformed: it is out of data, wherever the
cut is.

All of them are put together from operations of the reader that are self-delimiting, and so they
are self-delimiting too.

## Main results

* `BitReader.Composed.selfDelimiting`: composed steps.
* `isSelfDelimiting_parameterSet`: a header and a payload that is self-delimiting.
* `isSelfDelimiting_parsers`: the parsers of byte strings.
-/

namespace H266

open BitReader

/-! ### Structures -/

/-- Operations of the reader are self-delimiting, and so is every sequence of them. -/
theorem BitReader.Composed.selfDelimiting {α : Type} {step : ReadM α} (h : Composed step) :
    SelfDelimiting step := by
  induction h with
  | pure value => exact selfDelimiting_pure value
  | @throw _ error _ => exact selfDelimiting_throw error
  | bind _ _ hstep hnext => exact hstep.bind hnext
  | readBit => exact selfDelimiting_readBit
  | align => exact selfDelimiting_align
  | readBytes count => exact selfDelimiting_readBytes count
  | skipBits count => exact selfDelimiting_skipBits count

/-- A video parameter set ends where it says. -/
theorem VideoParameterSet.selfDelimiting_readPayload (header : NalUnitHeader) :
    SelfDelimiting (readPayload header) :=
  (composed_readPayload header).selfDelimiting

/-- A sequence parameter set ends where it says. -/
theorem SequenceParameterSet.selfDelimiting_readPayload (header : NalUnitHeader) :
    SelfDelimiting (readPayload header) :=
  (composed_readPayload header).selfDelimiting

/-- A record ends where it says. -/
theorem DecoderRecord.selfDelimiting_read : SelfDelimiting read :=
  composed_read.selfDelimiting

/-! ### Byte strings -/

section Parsers

variable {α β : Type}

/-- A parser that needs just the bytes that it has read of a byte string: it gives the same value
and leaves what comes after them, whatever that is, and is out of data if some of them are
missing. -/
def IsSelfDelimiting (parse : Bytes → Except Error (α × Bytes)) : Prop :=
  ∀ data value rest, parse data = .ok (value, rest) →
    ∃ consumed, data = consumed ++ rest ∧
      (∀ tail, parse (consumed ++ tail) = .ok (value, tail)) ∧
      ∀ part missing, part ++ missing = consumed → missing ≠ [] → parse part = .error .outOfData

/-- Parsing that has come to its end. -/
theorem isSelfDelimiting_done (value : α) : IsSelfDelimiting fun rest => .ok (value, rest) := by
  intro data own rest h
  cases h
  exact ⟨[], rfl, fun _ => rfl, fun _ _ hparts hmissing =>
    absurd (List.append_eq_nil_iff.1 hparts).2 hmissing⟩

/-- Parsing goes on after what has been read. -/
theorem IsSelfDelimiting.bind {first : Bytes → Except Error (α × Bytes)}
    {next : α → Bytes → Except Error (β × Bytes)} {parse : Bytes → Except Error (β × Bytes)}
    (hfirst : IsSelfDelimiting first) (hnext : ∀ value, IsSelfDelimiting (next value))
    (hparse : ∀ data, parse data = first data >>= fun result => next result.1 result.2) :
    IsSelfDelimiting parse := by
  intro data value rest h
  rw [hparse] at h
  obtain ⟨⟨own, middle⟩, hown, hrest⟩ := Check.of_bind_eq_ok h
  obtain ⟨a, rfl, ha, hacut⟩ := hfirst data own middle hown
  obtain ⟨b, rfl, hb, hbcut⟩ := hnext own middle value rest hrest
  refine ⟨a ++ b, (List.append_assoc a b rest).symm, fun tail => ?_,
    fun part missing hparts hmissing => ?_⟩
  · rw [hparse, List.append_assoc, ha]
    exact hb tail
  · obtain ⟨more, hpart, hmore⟩ | ⟨more, rfl, hmore⟩ := Bytes.cut_append hparts
    · rw [hparse, hacut part more hpart hmore]
      rfl
    · rw [hparse, ha]
      exact hbcut more missing hmore hmissing

/-- A self-delimiting step is run on byte strings. -/
theorem BitReader.SelfDelimiting.isSelfDelimiting {step : ReadM α} (h : SelfDelimiting step)
    {start : Bytes → BitReader} (hunread : ∀ data, (start data).unread = data)
    (hstart : ∀ data bytes, (start data).continuedBy bytes = start bytes)
    {parse : Bytes → Except Error (α × Bytes)} (hparse : ∀ data, parse data =
      step (start data) >>= fun result => pure (result.1, result.2.unread)) :
    IsSelfDelimiting parse := by
  intro data value rest hrun
  rw [hparse] at hrun
  obtain ⟨⟨own, reader'⟩, hstep, hrun⟩ := Check.of_bind_eq_ok hrun
  cases hrun
  obtain ⟨consumed, hconsumed⟩ := h _ _ _ hstep
  have hdata := hconsumed.unread_eq
  rw [hunread] at hdata
  refine ⟨consumed, hdata, fun tail => ?_, fun part missing hparts hmissing => ?_⟩
  · rw [hparse, ← hstart data, hconsumed.run tail]
    rfl
  · rw [hparse, ← hstart data, hconsumed.cut part missing hparts hmissing]
    rfl

end Parsers

/-- A header always has two bytes. -/
theorem NalUnitHeader.selfDelimiting_read : SelfDelimiting read :=
  composed_read.selfDelimiting

/-- The header is read off the bytes as they are. -/
theorem NalUnitHeader.isSelfDelimiting_splitParameterSet (kind : ParameterSetKind) :
    IsSelfDelimiting (splitParameterSet kind) := by
  have hsplit : IsSelfDelimiting split :=
    selfDelimiting_read.isSelfDelimiting (fun _ => rfl) (fun _ _ => rfl) fun _ => rfl
  have hcheck (header : NalUnitHeader) : IsSelfDelimiting fun payload =>
      if header.type ≠ kind.nalUnitType then .error (.invalidData (.otherNalUnitType kind))
      else .ok (header, payload) := by
    by_cases htype : header.type ≠ kind.nalUnitType
    · simp only [if_pos htype]
      intro data value rest h
      cases h
    · simp only [if_neg htype]
      exact isSelfDelimiting_done header
  exact hsplit.bind hcheck fun _ => rfl

/-- What follows the header is read off the bytes without emulation prevention bytes. -/
theorem isSelfDelimiting_parameterSet {α : Type} (kind : ParameterSetKind)
    {readPayload : NalUnitHeader → ReadM α} (h : ∀ header, SelfDelimiting (readPayload header))
    {parse : Bytes → Except Error (α × Bytes)} (hparse : ∀ nalUnit, parse nalUnit = do
      let (header, payload) ← NalUnitHeader.splitParameterSet kind nalUnit
      let (parameterSet, reader) ← readPayload header (.ofEscaped payload)
      return (parameterSet, reader.unread)) : IsSelfDelimiting parse :=
  (NalUnitHeader.isSelfDelimiting_splitParameterSet kind).bind (fun header =>
    (h header).isSelfDelimiting (fun _ => rfl) (fun _ _ => rfl) fun _ => rfl) hparse

/-- **Truncation**: what a parser of parameter sets or of records has read of a byte string is
enough for it, whatever comes after that, and no byte of it can be missing: a string that ends
before the last of these bytes is out of data, and is never read as another value or refused for
another reason. -/
theorem isSelfDelimiting_parsers :
    IsSelfDelimiting VideoParameterSet.parse ∧ IsSelfDelimiting SequenceParameterSet.parse ∧
      IsSelfDelimiting PictureParameterSet.parse ∧ IsSelfDelimiting DecoderRecord.parse := by
  refine ⟨?_, ?_, ?_, ?_⟩
  · exact isSelfDelimiting_parameterSet .video VideoParameterSet.selfDelimiting_readPayload
      fun _ => rfl
  · exact isSelfDelimiting_parameterSet .sequence SequenceParameterSet.selfDelimiting_readPayload
      fun _ => rfl
  · exact (NalUnitHeader.isSelfDelimiting_splitParameterSet .picture).bind
      (fun header => isSelfDelimiting_done ⟨header⟩) fun _ => rfl
  · exact DecoderRecord.selfDelimiting_read.isSelfDelimiting (fun _ => rfl) (fun _ _ => rfl)
      fun _ => rfl

/-- A sequence parameter set with two emulation prevention bytes and one byte after the bit depth,
cut off next to the first of them. -/
theorem isSelfDelimiting_parsers_emulation_prevention :
    let consumed : Bytes := [0x00, 0x79, 0x00, 0x0D, 0x02, 0x3C, 0x80, 0x00, 0x40, 0x00, 0x00,
      0x03, 0x00, 0x10, 0x00, 0x00, 0x03, 0x00, 0x04, 0x3A]
    let ptl : ProfileTierLevel := ⟨1, false, 60, true, false, none, [], [], []⟩
    let sps : SequenceParameterSet :=
      ⟨⟨0, .sequenceParameterSet, 1⟩, 0, 0, 0, 1, 2, some ptl, 4294967295, 1, 0, 2⟩
    SequenceParameterSet.parse (consumed ++ [0xA8]) = .ok (sps, [0xA8]) ∧
      (∀ tail, SequenceParameterSet.parse (consumed ++ tail) = .ok (sps, tail)) ∧
      SequenceParameterSet.parse (consumed.take 11) = .error .outOfData ∧
      SequenceParameterSet.parse (consumed.take 12) = .error .outOfData := by
  intro consumed ptl sps
  have hparse : SequenceParameterSet.parse (consumed ++ [0xA8]) = .ok (sps, [0xA8]) := by
    decide +kernel
  obtain ⟨own, hown, hsame, hcut⟩ := isSelfDelimiting_parsers.2.1 _ sps _ hparse
  obtain rfl : consumed = own := List.append_cancel_right hown
  have hpart (length : Nat) := hcut (consumed.take length) (consumed.drop length)
    (List.take_append_drop length consumed)
  exact ⟨hparse, hsame, hpart 11 (List.cons_ne_nil _ _), hpart 12 (List.cons_ne_nil _ _)⟩

end H266
