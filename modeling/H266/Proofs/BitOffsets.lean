import H266.Proofs.BitWriter
import H266.Proofs.Decoding

/-!
# Reading Back at Any Bit Offset

What is written behind other bits, in the middle of a byte or not, is read back behind as many
bits. A writer gathers bits across bytes there and a reader takes them apart again, also where
whole bytes are written and read; emulation prevention bytes that the sink puts in are left out by
the source. Nothing of what comes after is read, be it written by the same writer or put behind
what it stored.

`IsReadBack` says this of a step that writes and a step that reads, `IsRefused` that the step that
reads fails on what is written.

## Main results

* `BitWriter.Denotes.position_eq`: a writer counts the bits that were written.
* `BitWriter.Emits.isReadBack`: a step that reads what another one writes reads it at any offset.
* `BitReader.Decodes.isReadBack`: layouts.
* `BitReader.Decodes.bind_refuses`, `BitReader.Refuses.bind`: where a sequence of steps fails.
-/

namespace H266

variable {α β : Type}

/-! ### Stored bytes -/

namespace ByteSource

/-- A source of what a sink stores, with emulation prevention bytes left out if the sink puts them
in. -/
def ofStored (escaping : Bool) (stored : Bytes) : ByteSource :=
  ⟨stored, escaping, 0⟩

/-- The bytes that were written come first in what is stored. -/
theorem exists_contents_ofStored (escaping : Bool) (bytes more : Bytes) :
    ∃ rest, (ofStored escaping (ByteSink.storedForm escaping bytes ++ more)).contents =
      bytes ++ rest := by
  cases escaping with
  | false => exact ⟨more, rfl⟩
  | true => exact ⟨_, unescapeAfter_escapeAfter_append 0 bytes more⟩

/-- A source of either kind gives back what the sink of its kind was given. -/
theorem contents_ofStored (escaping : Bool) (bytes : Bytes) :
    (ofStored escaping (ByteSink.storedForm escaping bytes)).contents = bytes := by
  cases escaping with
  | false => rfl
  | true => exact unescapeAfter_escapeAfter 0 bytes

end ByteSource

/-! ### Positions of a writer -/

namespace BitWriter

/-- How many bits were written: those of the bytes that were stored, emulation prevention bytes
left out, and those that wait for their byte to be full. -/
def position (writer : BitWriter) : Nat :=
  8 * (ByteSource.ofStored writer.sink.escaping writer.sink.stored.toList).contents.length
    + writer.pending.length

/-- A writer counts the bits that were written. -/
theorem Denotes.position_eq {limit : Option Nat} {escaping : Bool} {bits : Bits}
    {writer : BitWriter} (h : writer.Denotes limit escaping bits) :
    writer.position = bits.length := by
  obtain ⟨bytes, hholds, rfl, -⟩ := h
  rw [position, hholds.escaping_eq, hholds.stores.stored_eq, ByteSource.contents_ofStored,
    List.length_append, Bits.length_ofBytes]

end BitWriter

/-! ### Written and read -/

/-- The reader stands behind the leading bits of what is stored when these, then what a step
writes and then the following bits are written, with more bytes put behind it. -/
def BitReader.StandsBehind (leading : Bits) (write : WriteM Unit) (following : Bits)
    (escaping : Bool) (more : Bytes) (reader : BitReader) : Prop :=
  ∃ sink,
    BitWriter.runOn (.empty escaping none) (do
      BitWriter.writeString leading
      write
      BitWriter.writeString following) = (.ok (), sink) ∧
    BitReader.skipBits leading.length
      (.ofSource (.ofStored escaping (sink.stored.toList ++ more))) = .ok ((), reader) ∧
    reader.position = leading.length

/-- Whatever bits come before and after it, what one step writes is what the other reads, with the
given value: it ends where the writer was when the first step was done, in front of the bits that
follow. -/
def IsReadBack (write : WriteM Unit) (read : ReadM α) (value : α) : Prop :=
  ∀ (escaping : Bool) (leading following : Bits) (more : Bytes), ∃ writer reader reader',
    (do
      BitWriter.writeString leading
      write : WriteM Unit) (.ofSink (.empty escaping none)) = (.ok (), writer) ∧
    reader.StandsBehind leading write following escaping more ∧
    read reader = .ok (value, reader') ∧
    reader'.position = writer.position ∧
    following <+: reader'.bits

/-- Whatever bits come before and after it, the second step fails on what the first one writes. -/
def IsRefused (write : WriteM Unit) (read : ReadM α) (error : Error) : Prop :=
  ∀ (escaping : Bool) (leading following : Bits) (more : Bytes), ∃ reader,
    reader.StandsBehind leading write following escaping more ∧ read reader = .error error

namespace BitWriter

variable {write : WriteM Unit} {bitsAt : Nat → Bits}

/-- Behind the leading bits come those of the step, and then those that follow. -/
theorem Emits.exists_standsBehind (h : Emits write bitsAt) (leading following : Bits)
    (escaping : Bool) (more : Bytes) :
    ∃ reader : BitReader, reader.StandsBehind leading write following escaping more ∧
      reader.Valid ∧ reader.position = leading.length ∧
      ∃ rest, reader.bits = bitsAt reader.position ++ (following ++ rest) := by
  have hall := (emits_writeString leading).bind (h.bind (emits_writeString following))
  obtain ⟨sink, hrun, hstored⟩ := runOn_of_emits hall escaping
  rw [Nat.zero_add] at hstored
  obtain ⟨unread, hcontents⟩ := ByteSource.exists_contents_ofStored escaping
    (Bits.pack (leading ++ (bitsAt leading.length ++ following))) more
  rw [← hstored] at hcontents
  obtain ⟨rest, hbits⟩ : ∃ rest,
      (BitReader.ofSource (.ofStored escaping (sink.stored.toList ++ more))).bits =
        leading ++ (bitsAt leading.length ++ (following ++ rest)) := by
    show ∃ rest, Bits.ofBytes (ByteSource.ofStored _ _).contents = _ ++ (_ ++ (_ ++ rest))
    rw [hcontents, Bits.ofBytes_append, Bits.ofBytes_pack]
    simp only [List.append_assoc]
    exact ⟨_, rfl⟩
  obtain ⟨reader, hskip, hadvance⟩ :=
    BitReader.reads_skipBits leading _ _ (BitReader.valid_ofSource _) hbits
  have hposition : reader.position = leading.length :=
    hadvance.position_eq.trans (Nat.zero_add _)
  refine ⟨reader, ⟨sink, hrun, hskip, hposition⟩, hadvance.valid (BitReader.valid_ofSource _),
    hposition, rest, ?_⟩
  rw [hposition]
  exact hadvance.rest_eq hbits

/-- A step that reads what another one writes reads it at any offset. -/
theorem Emits.isReadBack {read : ReadM α} {value : α} (h : Emits write bitsAt)
    (hread : BitReader.Reads read bitsAt value) : IsReadBack write read value := by
  intro escaping leading following more
  obtain ⟨writer, hwrite, hdenotes⟩ :=
    ((emits_writeString leading).bind h).exists_run escaping
  obtain ⟨reader, hbehind, hvalid, hposition, rest, hbits⟩ :=
    h.exists_standsBehind leading following escaping more
  obtain ⟨reader', hstep, hadvance⟩ := hread reader _ hvalid hbits
  refine ⟨writer, reader, reader', hwrite, hbehind, hstep, ?_, rest, ?_⟩
  · rw [hadvance.position_eq, hdenotes.position_eq, hposition, List.length_append, Nat.zero_add]
  · exact (hadvance.rest_eq hbits).symm

end BitWriter

/-! ### Layouts -/

namespace BitReader

variable {step : ReadM α} {next : α → ReadM β} {value : α} {error : Error}

/-- A step that decodes a layout reads it at any offset. -/
theorem Decodes.isReadBack {layout : Layout} (h : Decodes step layout value)
    (hfits : layout.Fits) : IsReadBack (BitWriter.writeLayout layout) step value :=
  (BitWriter.emits_writeLayout hfits).isReadBack (h hfits)

/-- A step that fails on the bits of a layout, wherever they begin and whatever follows them, if
the items of the layout fit. -/
def Refuses (step : ReadM α) (layout : Layout) (error : Error) : Prop :=
  layout.Fits → ∀ reader rest, reader.Valid →
    reader.bits = layout.bitsAt reader.position ++ rest → step reader = .error error

theorem refuses_throw (error : Error) : Refuses (throw error : ReadM α) [] error :=
  fun _ _ _ _ _ => rfl

/-- A sequence of steps fails if its first step does. -/
theorem Refuses.bind {layout : Layout} (h : Refuses step layout error) (next : α → ReadM β) :
    Refuses (step >>= next) layout error :=
  fun hfits reader rest hvalid hbits => PureStep.error_bind (h hfits reader rest hvalid hbits)

/-- A sequence of steps fails if what follows its first step does. -/
theorem Decodes.bind_refuses {a b : Layout} (hstep : Decodes step a value)
    (hnext : Refuses (next value) b error) : Refuses (step >>= next) (a ++ b) error := by
  intro hfits reader rest hvalid hbits
  obtain ⟨ha, hb⟩ := Layout.fits_append.1 hfits
  rw [Layout.bitsAt_append, List.append_assoc] at hbits
  obtain ⟨middle, hmiddle, hadvance⟩ := hstep ha reader _ hvalid hbits
  have hrest : middle.bits = b.bitsAt middle.position ++ rest := by
    rw [hadvance.position_eq]
    exact hadvance.rest_eq hbits
  rw [PureStep.ok_bind hmiddle, hnext hb middle rest (hadvance.valid hvalid) hrest]

/-- A step that decodes its item leaves the refusal to the steps behind it. -/
theorem Decodes.cons_refuses {item : Item} {items : Layout} (hstep : Decodes step [item] value)
    (hnext : Refuses (next value) items error) : Refuses (step >>= next) (item :: items) error :=
  hstep.bind_refuses hnext

/-- A part that is called for fails as the step for it does. -/
theorem Refuses.readIf {present : Bool} {layout : Layout} (h : Refuses step layout error)
    (hpresent : present = true) (inferred : α) :
    Refuses (readIf present step inferred) layout error := by
  rw [hpresent]
  exact h

/-- What is written by the layout and is refused by the reader, at any place of a bit string. -/
theorem Refuses.isRefused {layout : Layout} (h : Refuses step layout error)
    (hfits : layout.Fits) : IsRefused (BitWriter.writeLayout layout) step error := by
  intro escaping leading following more
  obtain ⟨reader, hbehind, hvalid, -, rest, hbits⟩ :=
    (BitWriter.emits_writeLayout hfits).exists_standsBehind leading following escaping more
  exact ⟨reader, hbehind, h hfits reader _ hvalid hbits⟩

end BitReader

end H266
