import H266.Proofs.BitWriter
import H266.Proofs.Decoding
import H266.Proofs.EmulationPrevention

/-!
# Items Read Back

Whatever is written item by item is read back item by item, by a reader that is told of each item
only its form: what kind of item comes next, and how wide it is. This holds for every sequence of
items and so at every bit offset, with the bits of whole bytes gathered across bytes where an item
does not begin at a byte boundary, and with emulation prevention bytes put in by the sink and left
out by the source. Writer and reader count the same bits: emulation prevention bytes are not among
them.

## Main results

* `Item.fits_signedExpGolomb_iff`: which signed values can be written.
* `BitReader.decodes_readItem`: an item is read back from its form.
* `BitWriter.Denotes.written_eq`: how many bits a writer has written.
* `BitWriter.exists_readItems_of_writeLayout`: sequences of items.
-/

namespace H266

/-! ### Items -/

/-- What is known of an item before it is read. -/
inductive ItemForm
  | flag
  | number (width : Nat)
  | leading (count : Nat)
  | bytes (count : Nat)
  | expGolomb
  | signedExpGolomb
  | align

/-- What reading an item gives. -/
inductive ItemValue
  | flag (bit : Bool)
  | number (value : Nat)
  | bits (bits : Bits)
  | bytes (bytes : Bytes)
  | signed (value : Int)
  /-- An alignment has no value. -/
  | none

namespace Item

/-- The form of an item. -/
def form : Item → ItemForm
  | .flag _ => .flag
  | .number _ width => .number width
  | .leading _ count => .leading count
  | .bytes data => .bytes data.length
  | .expGolomb _ => .expGolomb
  | .signedExpGolomb _ => .signedExpGolomb
  | .align => .align

/-- The value of an item. A byte string that is shorter than the number of bits asked for goes on
with zero bits. -/
def value : Item → ItemValue
  | .flag bit => .flag bit
  | .number value _ => .number value
  | .leading data count =>
    .bits ((Bits.ofBytes data).take count ++ List.replicate (count - 8 * data.length) false)
  | .bytes data => .bytes data
  | .expGolomb value => .number value
  | .signedExpGolomb value => .signed value
  | .align => .none

/-- The signed values that can be written are those of 64 bits, except the least. -/
theorem fits_signedExpGolomb_iff {value : Int} :
    (signedExpGolomb value).Fits ↔ -2 ^ 63 < value ∧ value < 2 ^ 63 := by
  show ExpGolomb.signedPlace value + 1 < 2 ^ 64 ↔ _
  unfold ExpGolomb.signedPlace
  split <;> omega

end Item

/-! ### Reading items -/

namespace BitReader

/-- Reads an item of the given form. -/
def readItem : ItemForm → ReadM ItemValue
  | .flag => .flag <$> readBit
  | .number width => .number <$> readBits width
  | .leading count => .bits <$> readTimes count readBit
  | .bytes count => .bytes <$> readBytes count
  | .expGolomb => .number <$> readExpGolomb
  | .signedExpGolomb => .signed <$> readSignedExpGolomb
  | .align => do
    align
    return .none

/-- Reads items of the given forms, in order. -/
def readItems (forms : List ItemForm) : ReadM (List ItemValue) :=
  forms.mapM readItem

/-- A signed exp-Golomb code is read back as its number. -/
theorem decodes_readSignedExpGolomb (value : Int) :
    Decodes readSignedExpGolomb [.signedExpGolomb value] value := by
  intro hfits
  have hplace : (Item.expGolomb (ExpGolomb.signedPlace value)).Fits :=
    (Layout.fits_cons.1 hfits).1
  have hreads := (reads_readExpGolomb hplace).map ExpGolomb.signedValue
  rw [ExpGolomb.signedValue_signedPlace] at hreads
  exact hreads.congr fun n => by rw [Layout.bitsAt_singleton, Item.bitsAt]

/-- As many bits of a byte string as are asked for, with zero bits past its end. -/
theorem decodes_readLeadingBits (data : Bytes) (count : Nat) :
    Decodes (readTimes count readBit) [.leading data count]
      ((Bits.ofBytes data).take count ++ List.replicate (count - 8 * data.length) false) := by
  have hlength : ((Bits.ofBytes data).take count ++
      List.replicate (count - 8 * data.length) false).length = count := by
    rw [List.length_append, List.length_take, Bits.length_ofBytes, List.length_replicate]
    omega
  have hreads := reads_readTimes_readBit
    ((Bits.ofBytes data).take count ++ List.replicate (count - 8 * data.length) false)
  rw [hlength] at hreads
  exact fun _ => hreads.congr fun n => by rw [Layout.bitsAt_singleton, Item.bitsAt]

/-- An item is read back from its form. -/
theorem decodes_readItem (item : Item) : Decodes (readItem item.form) [item] item.value := by
  cases item with
  | flag bit => exact (decodes_readBit bit).map ItemValue.flag
  | number value width => exact (decodes_readBits value width).map ItemValue.number
  | leading data count => exact (decodes_readLeadingBits data count).map ItemValue.bits
  | bytes data => exact (decodes_readBytes data).map ItemValue.bytes
  | expGolomb value => exact (decodes_readExpGolomb value).map ItemValue.number
  | signedExpGolomb value => exact (decodes_readSignedExpGolomb value).map ItemValue.signed
  | align => exact decodes_align.bind_nil (decodes_pure ItemValue.none)

/-- Items are read back from their forms. -/
theorem decodes_readItems (layout : Layout) :
    Decodes (readItems (layout.map (·.form))) layout (layout.map (·.value)) := by
  have hall := decodes_mapM layout fun item _ => decodes_readItem item
  rwa [List.flatMap_singleton'] at hall

end BitReader

/-! ### Counting bits -/

namespace BitWriter

/-- How many bits were written, if the sink puts in emulation prevention bytes: those of the bytes
that it stores, these bytes left out, and those that wait for their byte to be full. -/
def written (writer : BitWriter) : Nat :=
  8 * (ByteSource.unescapeAfter 0 writer.sink.stored.toList).length + writer.pending.length

/-- A writer has written as many bits as it denotes. -/
theorem Denotes.written_eq {limit : Option Nat} {bits : Bits} {writer : BitWriter}
    (h : writer.Denotes limit true bits) : writer.written = bits.length := by
  obtain ⟨bytes, hholds, rfl, -⟩ := h
  rw [written, hholds.stores.stored_eq, ByteSink.storedForm_true,
    ByteSource.unescapeAfter_escapeAfter, List.length_append, Bits.length_ofBytes]

/-! ### Round trip -/

/-- **Round trip**: items that fit are written and escaped so that no start code appears, nor
anything else that two zero bytes and a byte below `03` make. A reader of what is stored that is
told the forms of the items reads their values, and after each of them it has read as many bits
as the writer had written after that item, which are those of the items so far. -/
theorem exists_readItems_of_writeLayout {layout : Layout} (h : layout.Fits) :
    ∃ stored, encodeEscaped layout = .ok stored ∧
      (∀ third ≤ 2, ¬[0, 0, third] <:+: stored) ∧
      ∀ done : Layout, done <+: layout → ∃ writer reader,
        writeLayout done (ofSink (.empty true none)) = (.ok (), writer) ∧
          BitReader.readItems (done.map (·.form)) (.ofEscaped stored) =
            .ok (done.map (·.value), reader) ∧
          reader.position = writer.written ∧ writer.written = done.bits.length := by
  refine ⟨_, encodeEscaped_eq_escape h, fun third hthird =>
    (ByteSource.isEscaped_escapeAfter _).no_triple hthird, ?_⟩
  rintro done ⟨rest, rfl⟩
  obtain ⟨hdone, -⟩ := Layout.fits_append.1 h
  obtain ⟨writer, hwrite, hdenotes⟩ := (emits_writeLayout hdone).exists_run true
  have hstored : ByteSource.escapeAfter 0 (Bits.pack (Layout.bits (done ++ rest))) =
      ByteSource.escapeAfter 0
        (Bits.pack (done.bits ++ Layout.bitsAt (0 + done.bits.length) rest)) :=
    congrArg (ByteSource.escapeAfter 0 <| Bits.pack ·) (Layout.bitsAt_append 0 done rest)
  obtain ⟨reader, hread, hposition, -⟩ :=
    (BitReader.decodes_readItems done).run_ofEscaped hdone _ hstored
  exact ⟨writer, reader, hwrite, hread, hposition.trans hdenotes.written_eq.symm,
    hdenotes.written_eq⟩

/-- Items of every kind, of which some begin inside a byte, with payload bytes that need emulation
prevention bytes between them. -/
theorem exists_readItems_of_writeLayout_all_kinds :
    let layout : Layout :=
      [.number 0 64, .number (2 ^ 64 - 1) 64, .flag true, .bytes [0, 0, 1], .leading [0xA0] 12,
        .expGolomb (2 ^ 64 - 2), .signedExpGolomb (-3), .align, .bytes [0, 0, 0, 3]]
    layout.Fits ∧ ∃ stored, encodeEscaped layout = .ok stored ∧
      (∀ third ≤ 2, ¬[0, 0, third] <:+: stored) ∧
      ∀ done : Layout, done <+: layout → ∃ writer reader,
        writeLayout done (ofSink (.empty true none)) = (.ok (), writer) ∧
          BitReader.readItems (done.map (·.form)) (.ofEscaped stored) =
            .ok (done.map (·.value), reader) ∧
          reader.position = writer.written ∧ writer.written = done.bits.length := by
  intro layout
  have hfits : layout.Fits := by
    simp only [layout, Layout.fits_cons, Item.fits_flag, Item.fits_bytes, Item.fits_leading,
      Item.fits_align, Layout.fits_nil, Item.fits_signedExpGolomb_iff, Item.fits_expGolomb,
      Item.fits_number]
    decide
  exact ⟨hfits, exists_readItems_of_writeLayout hfits⟩

end BitWriter

end H266
