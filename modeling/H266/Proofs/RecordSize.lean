import H266.CommandLine.FileTree
import H266.Proofs.RecordRewriting

/-!
# Sizes of Decoder Configuration Records

The size that a record states of itself is a third account of its form, beside writing and
reading. It agrees with both: a valid record is written in as many bytes, and a record that was
read took as many from the start of the data. So comparing it with the size of the data tells
whether bytes follow the record, which is what inspecting does.

## Main results

* `DecoderRecord.exists_tree_of_parse`: data that is read begins with the written form of a
  syntax tree.
* `CommandLine.runTask_inspect`: what inspecting data tells.
* `DecoderRecord.length_eq_size`: the size of a record, for writing, reading and inspecting.
-/

namespace H266

/-! ### Reading -/

namespace DecoderRecord

/-- Data that is read as a record begins with the written form of a syntax tree of the
record. -/
theorem exists_tree_of_parse {data rest : Bytes} {record : DecoderRecord}
    (h : parse data = .ok (record, rest)) :
    ∃ tree : RecordSyntax, tree.value = record ∧
      data = Bits.pack tree.layout.bits ++ rest := by
  obtain ⟨⟨own, reader⟩, hread, h⟩ := Check.of_bind_eq_ok h
  cases h
  obtain ⟨_, ⟨tree, rfl, rfl⟩, hdata⟩ := consumes_read.run_ofBytes hread
  have hlength := tree.length_bits
  exact ⟨tree, rfl, hdata (by omega)⟩

/-- A record that was read took as many bytes as it says. -/
theorem exists_consumed_of_parse {data rest : Bytes} {record : DecoderRecord}
    (h : parse data = .ok (record, rest)) :
    ∃ consumed, data = consumed ++ rest ∧ consumed.length = record.size := by
  obtain ⟨tree, rfl, hdata⟩ := exists_tree_of_parse h
  refine ⟨_, hdata, ?_⟩
  rw [Bits.length_pack, tree.length_bits]
  omega

/-- Data that is read as a record is recognised as one. -/
theorem isRecordFormat_of_parse {data rest : Bytes} {record : DecoderRecord}
    (h : parse data = .ok (record, rest)) : isRecordFormat data = true := by
  obtain ⟨tree, -, rfl⟩ := exists_tree_of_parse h
  rw [RecordSyntax.layout, List.append_assoc, List.append_assoc]
  exact isRecordFormat_pack_append _ _ _ rest

end DecoderRecord

/-! ### Inspecting -/

namespace CommandLine

/-- Exactly the data that is read as a record can be inspected. -/
theorem inspect_eq_ok_iff {data : Bytes} {record : DecoderRecord} :
    inspect data = .ok record ↔ ∃ rest, DecoderRecord.parse data = .ok (record, rest) := by
  rw [inspect]
  cases hparse : DecoderRecord.parse data with
  | error error =>
    constructor
    · intro h
      split at h <;> cases h
    · rintro ⟨rest, h⟩
      cases h
  | ok result =>
    obtain ⟨own, rest⟩ := result
    rw [DecoderRecord.isRecordFormat_of_parse hparse]
    constructor
    · intro h
      cases h
      exact ⟨rest, rfl⟩
    · rintro ⟨_, h⟩
      cases h
      rfl

/-- The notices about a record say that there is more after it exactly if the input is not of the
size of the record. -/
theorem exists_trailingData_mem_iff (record : DecoderRecord) (size : Nat) :
    (∃ recordSize inputSize, .trailingData recordSize inputSize ∈ inspectNotices record size) ↔
      record.size ≠ size := by
  rw [inspectNotices]
  constructor
  · rintro ⟨recordSize, inputSize, hmem⟩ heq
    rw [if_neg (not_not_intro heq)] at hmem
    cases hstream : record.stream <;> cases hvalidate : record.validate <;>
      simp [hstream, hvalidate] at hmem
  · intro hne
    refine ⟨record.size, size, ?_⟩
    rw [if_pos hne]
    exact List.mem_append_left _ (List.mem_append_left _ (List.mem_append_left _ (.head _)))

/-- Inspecting tells the notices about the record that the data begins with. -/
theorem runTask_inspect {m : Type → Type} [Monad m] [LawfulMonad m] (storage : Storage m)
    (options : ConversionOptions) (data : Bytes) (notices : List Notice) :
    runTask storage options .inspect data notices = pure (match inspect data with
      | .ok record => (.ok (), notices ++ inspectNotices record data.length)
      | .error error => (.error error, notices)) := by
  rw [runTask]
  cases inspect data with
  | error error => rfl
  | ok record =>
    simp [tell, modify, modifyGet, MonadStateOf.modifyGet, monadLift, MonadLift.monadLift,
      ExceptT.lift, ExceptT.mk, StateT.modifyGet, Functor.map, StateT.map]

end CommandLine

/-! ### Sizes -/

namespace DecoderRecord

open CommandLine

/-- **Size**: a record that passes its checks is written in as many bytes as it says, and one
that was read took as many from the start of the data. So inspecting data tells that there is
more after the record exactly if bytes follow it. -/
theorem length_eq_size {m : Type → Type} [Monad m] [LawfulMonad m] (storage : Storage m)
    (options : ConversionOptions) :
    (∀ record : DecoderRecord, record.validate = .ok () →
      ∃ bytes, record.encode = .ok bytes ∧ bytes.length = record.size) ∧
    (∀ (data rest : Bytes) (record : DecoderRecord), parse data = .ok (record, rest) →
      ∃ consumed, data = consumed ++ rest ∧ consumed.length = record.size) ∧
    ∀ data : Bytes, ∃ result told, runTask storage options .inspect data [] = pure (result, told) ∧
      ((∃ recordSize inputSize, .trailingData recordSize inputSize ∈ told) ↔
        ∃ record rest, parse data = .ok (record, rest) ∧ rest ≠ []) := by
  refine ⟨fun record h => ?_, fun data rest record h => exists_consumed_of_parse h,
    fun data => ?_⟩
  · have hvalid := validate_eq_ok_iff.1 h
    exact ⟨_, encode_eq_pack hvalid, length_pack_layout hvalid⟩
  · have htask := runTask_inspect storage options data []
    cases hinspect : inspect data with
    | error error =>
      rw [hinspect] at htask
      refine ⟨_, _, htask, ?_⟩
      constructor
      · rintro ⟨_, _, hmem⟩
        cases hmem
      · rintro ⟨record, rest, hparse, -⟩
        rw [inspect_eq_ok_iff.2 ⟨rest, hparse⟩] at hinspect
        cases hinspect
    | ok record =>
      rw [hinspect] at htask
      obtain ⟨rest, hparse⟩ := inspect_eq_ok_iff.1 hinspect
      obtain ⟨consumed, rfl, hlength⟩ := exists_consumed_of_parse hparse
      refine ⟨_, _, htask, ?_⟩
      rw [List.nil_append, exists_trailingData_mem_iff, List.length_append, hlength]
      constructor
      · intro hne
        exact ⟨record, rest, hparse, fun hnil => hne (by rw [hnil, List.length_nil, Nat.add_zero])⟩
      · rintro ⟨own, more, hown, hmore⟩
        rw [hparse] at hown
        cases hown
        have := List.length_pos_iff.2 hmore
        omega

/-- A record with every optional part, and one byte after it. -/
theorem length_eq_size_trailing_byte :
    let data : Bytes := [0xFF, 0x00, 0x35, 0x5F, 0x01, 0x02, 0x43, 0x3F, 0x40, 0x33, 0x01, 0x00,
      0x00, 0x00, 0x07, 0x07, 0x80, 0x04, 0x38, 0x00, 0x00, 0x03, 0x0C, 0x00, 0x02, 0x00, 0x61,
      0x8E, 0x00, 0x01, 0x00, 0x02, 0x00, 0x71, 0x8F, 0x00, 0x02, 0x00, 0x02, 0x00, 0x79, 0x00,
      0x03, 0x00, 0x79, 0x01, 0xAB]
    let record : DecoderRecord :=
      { lengthSizeMinus1 := 3
        stream := some ⟨0, 3, .constant, 1, 2,
          { ProfileRecord.empty with
            profile := 1, level := 67, constraintInfo := [0xFC]
            sublayerLevelPresent := #v[true, false, false, false, false, false]
            sublayerLevels := #v[51, 0, 0, 0, 0, 0]
            subProfiles := [7] }, 1920, 1080, 0⟩
        arrays := [⟨false, .operatingPoint, [[0x00, 0x61]]⟩,
          ⟨true, .videoParameterSet, [[0x00, 0x71]]⟩,
          ⟨true, .sequenceParameterSet, [[0x00, 0x79], [0x00, 0x79, 0x01]]⟩] }
    record.validate = .ok () ∧ parse data = .ok (record, [0xAB]) ∧
      (∃ bytes, record.encode = .ok bytes ∧ bytes.length = record.size) ∧
      (∃ consumed, data = consumed ++ [0xAB] ∧ consumed.length = record.size) ∧
      ∃ result told, runTask FileTree.storage .standard .inspect data [] = pure (result, told) ∧
        ∃ recordSize inputSize, .trailingData recordSize inputSize ∈ told := by
  intro data record
  have hvalidate : record.validate = .ok () := by decide
  have hparse : parse data = .ok (record, [0xAB]) := by decide +kernel
  obtain ⟨hwritten, hread, hinspect⟩ := length_eq_size FileTree.storage .standard
  obtain ⟨result, told, htask, htold⟩ := hinspect data
  exact ⟨hvalidate, hparse, hwritten record hvalidate, hread data [0xAB] record hparse, result,
    told, htask, htold.2 ⟨record, [0xAB], hparse, List.cons_ne_nil _ _⟩⟩

end DecoderRecord

end H266
