import H266.Proofs.BitWriter
import H266.Proofs.Decoding
import H266.Proofs.Header

/-!
# Parameter Sets in Bytes

A parameter set in a NAL unit is a header and a payload with emulation prevention bytes in it.
A step that decodes the written form of a payload reads it off the escaped bytes, whatever bits
follow the form.

## Main results

* `BitReader.Decodes.run_payload`: reading a payload, and how far it is read.
* `NalUnitHeader.splitParameterSet_bytes`: taking off the header.
* `BitReader.Decodes.run_parameterSet`: reading a whole parameter set.
-/

namespace H266

namespace BitReader

variable {α : Type}

/-- The escaped bytes of a layout and of any bits that follow it are read as far as the layout
goes: exactly its bits are read, and no byte is fetched that holds none of them. -/
theorem Decodes.run_payload {step : ReadM α} {layout : Layout} {value : α}
    (h : Decodes step layout value) (hfits : layout.Fits) (following : Bits) :
    ∃ payload reader,
      BitWriter.encodeEscaped (layout ++ following.map .flag) = .ok payload ∧
        step (ofEscaped payload) = .ok (value, reader) ∧
        reader.position = layout.bits.length ∧
        reader.source = ((ByteSource.ofEscaped payload).take ((layout.bits.length + 7) / 8)).2 := by
  have hall : Layout.Fits (layout ++ following.map .flag) :=
    Layout.fits_append.2 ⟨hfits, Layout.fits_map_flag following⟩
  have hbits : Layout.bits (layout ++ following.map .flag) = layout.bits ++ following := by
    rw [Layout.bits, Layout.bitsAt_append, Layout.bitsAt_map_flag]
  have hencode := BitWriter.encodeEscaped_eq_escape hall
  rw [hbits] at hencode
  obtain ⟨reader, hstep, hposition, hsource⟩ := h.run_ofEscaped hfits following rfl
  exact ⟨_, reader, hencode, hstep, hposition, hsource⟩

end BitReader

/-- The header of a parameter set of the right kind is taken off. -/
theorem NalUnitHeader.splitParameterSet_bytes (kind : ParameterSetKind) {header : NalUnitHeader}
    (h : header.Valid) (htype : header.type = kind.nalUnitType) (reserved : Bool)
    (payload : Bytes) :
    splitParameterSet kind (header.bytes reserved ++ payload) = .ok (header, payload) := by
  have hcheck : ¬header.type ≠ kind.nalUnitType := fun hne => hne htype
  rw [splitParameterSet, split_bytes h]
  show (if header.type ≠ kind.nalUnitType then _ else _) = _
  rw [if_neg hcheck]
  rfl

/-- A parameter set in a NAL unit, with a header of its kind and emulation prevention bytes, is
read by taking off the header and decoding the payload. -/
theorem BitReader.Decodes.run_parameterSet {α : Type} (kind : ParameterSetKind)
    {step : NalUnitHeader → ReadM α} {header : NalUnitHeader} {layout : Layout} {value : α}
    (h : Decodes (step header) layout value) (hfits : layout.Fits) (hheader : header.Valid)
    (htype : header.type = kind.nalUnitType) (reserved : Bool) (following : Bits) :
    ∃ payload reader,
      BitWriter.encodeEscaped (layout ++ following.map .flag) = .ok payload ∧
        step header (.ofEscaped payload) = .ok (value, reader) ∧
        reader.position = layout.bits.length ∧
        reader.source = ((ByteSource.ofEscaped payload).take ((layout.bits.length + 7) / 8)).2 ∧
        (do
          let (header, payload) ←
            NalUnitHeader.splitParameterSet kind (header.bytes reserved ++ payload)
          let (parameterSet, reader) ← step header (.ofEscaped payload)
          return (parameterSet, reader.unread)) = .ok (value, reader.unread) := by
  obtain ⟨payload, reader, hencode, hstep, hposition, hsource⟩ := h.run_payload hfits following
  refine ⟨payload, reader, hencode, hstep, hposition, hsource, ?_⟩
  rw [NalUnitHeader.splitParameterSet_bytes kind hheader htype reserved payload]
  show (step header (.ofEscaped payload) >>= _) = _
  rw [hstep]
  rfl

end H266
