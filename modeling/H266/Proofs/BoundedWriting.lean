import H266.Proofs.RecordBytes

/-!
# Writing Records to Bounded Sinks

The checks of a record are the only thing that stands between it and its written form. A record
that fails them leaves the sink empty. For one that passes them every number fits its field, so
nothing but the sink can stop it: a sink with room for the size of the record holds its written
form, and any other holds as much of that as fits, wherever the limit falls.

## Main results

* `DecoderRecord.writeTo_cases`: how writing a valid record to a bounded sink ends.
* `DecoderRecord.writeTo_bounded`: the same for every record, by its checks and its size.
-/

namespace H266.DecoderRecord

/-- A valid record is written up to its end, or up to the limit of the sink. -/
theorem writeTo_cases {record : DecoderRecord} (h : record.Valid) (limit : Option Nat) :
    ∃ sink,
      (record.writeTo (.empty false limit) = (.ok (), sink) ∧
        sink.Stores limit (Bits.pack record.layout.bits)) ∨
      (record.writeTo (.empty false limit) = (.error Error.sinkFull, sink) ∧
        sink.Full limit (Bits.pack record.layout.bits)) := by
  have hwrite : record.write = BitWriter.writeLayout record.layout := by
    rw [write, validate_eq_ok_iff.2 h]
    rfl
  rw [writeTo, hwrite]
  exact BitWriter.runOn_cases (BitWriter.emits_writeLayout (fits_layout h)) limit false

/-- **Writing to a bounded sink**: a record that fails its checks is refused with the error of
the checks, and nothing is stored of it. For a record that passes them every field has room for
its number, and what is written of it reads back. Such a record is written completely to a sink
that has room for its size; any other sink is filled with the first bytes of what an unlimited
one would store. -/
theorem writeTo_bounded (record : DecoderRecord) (limit : Option Nat) :
    (∀ error, record.validate = .error error →
      record.writeTo (.empty false limit) = (.error error, .empty false limit)) ∧
    (record.validate = .ok () → record.layout.Fits ∧ ∃ bytes sink,
      record.encode = .ok bytes ∧ bytes.length = record.size ∧
      (∀ tail, parse (bytes ++ tail) = .ok (record.normal, tail)) ∧
      ((∀ most, limit = some most → record.size ≤ most) →
        record.writeTo (.empty false limit) = (.ok (), sink) ∧ sink.stored.toList = bytes) ∧
      ∀ most, limit = some most → most < record.size →
        record.writeTo (.empty false limit) = (.error Error.sinkFull, sink) ∧
          sink.stored.toList = bytes.take most) := by
  refine ⟨fun error h => writeTo_of_validate_eq_error h _, fun h => ?_⟩
  have hvalid := validate_eq_ok_iff.1 h
  have hlength := length_pack_layout hvalid
  obtain ⟨sink, hends⟩ := writeTo_cases hvalid limit
  refine ⟨fits_layout hvalid, _, sink, encode_eq_pack hvalid, hlength, parse_pack hvalid, ?_, ?_⟩
  · intro hroom
    rcases hends with ⟨hrun, hstores⟩ | ⟨-, most, hmost, hlt, -⟩
    · exact ⟨hrun, hstores.stored_eq⟩
    · have := hroom most hmost
      omega
  · intro most hmost hlt
    rcases hends with ⟨-, hstores⟩ | ⟨hrun, own, hown, -, hstored⟩
    · have := hstores.length_le most hmost
      omega
    · obtain rfl : most = own := Option.some.inj (hmost.symm.trans hown)
      exact ⟨hrun, hstored⟩

/-- A record that takes 33 bytes, on a sink that is full in the middle of the last NAL unit and
on one that just has room; with a bit depth that is too great it is refused. -/
theorem writeTo_bounded_inside_nalUnit :
    let record (bitDepthMinus8 : Nat) : DecoderRecord :=
      { lengthSizeMinus1 := 3
        stream := some ⟨0, 1, .constant, 1, bitDepthMinus8,
          { ProfileRecord.empty with profile := 1, level := 67 }, 1920, 1080, 0⟩
        arrays := [⟨true, .videoParameterSet, [[0x00, 0x71]]⟩,
          ⟨true, .sequenceParameterSet, [[0x00, 0x79, 0xAB, 0xCD, 0xEF]]⟩] }
    let error : Error := .invalidData (.exceedsWidth "bit_depth_minus8" 3 8)
    (record 8).validate = .error error ∧
      (record 8).writeTo (.empty false (some 31)) = (.error error, .empty false (some 31)) ∧
      (record 2).validate = .ok () ∧ (record 2).size = 33 ∧
      ∃ bytes, (record 2).encode = .ok bytes ∧
        (∃ sink, (record 2).writeTo (.empty false (some 31)) = (.error Error.sinkFull, sink) ∧
          sink.stored.toList = bytes.take 31) ∧
        ∃ sink, (record 2).writeTo (.empty false (some 33)) = (.ok (), sink) ∧
          sink.stored.toList = bytes := by
  intro record error
  have hrefused : (record 8).validate = .error error := by decide
  have hvalidate : (record 2).validate = .ok () := by decide
  have hsize : (record 2).size = 33 := by decide
  obtain ⟨-, bytes, sink, hbytes, -, -, -, hcut⟩ :=
    (writeTo_bounded (record 2) (some 31)).2 hvalidate
  obtain ⟨-, own, whole, hown, -, -, hroom, -⟩ :=
    (writeTo_bounded (record 2) (some 33)).2 hvalidate
  obtain rfl : bytes = own := Except.ok.inj (hbytes.symm.trans hown)
  refine ⟨hrefused, (writeTo_bounded (record 8) (some 31)).1 error hrefused, hvalidate, hsize,
    bytes, hbytes, ⟨sink, hcut 31 rfl (by rw [hsize]; decide)⟩, whole, hroom ?_⟩
  rintro most ⟨⟩
  exact Nat.le_of_eq hsize

end H266.DecoderRecord
