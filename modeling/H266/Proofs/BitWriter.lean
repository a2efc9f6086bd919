import H266.Proofs.ByteSink
import H266.Proofs.Layout

/-!
# What a Bit Writer Writes

A writer denotes the bits that went into it: those of the bytes that its sink was given, and
the ones that still wait for their byte to be full. Every step appends its bits to these, as
long as the sink takes them.

## Main results

* `BitWriter.emits_writeLayout`: writing a layout appends the bits of the layout.
* `BitWriter.runOn_cases`: a run on a bounded sink stores its bits in packed form, or the
  beginning of that.
* `BitWriter.encode_eq_pack`, `BitWriter.encodeEscaped_eq_escape`: a layout that is written to
  an unlimited sink is stored as its packed bits, with emulation prevention bytes if the sink
  puts them in.
-/

namespace H266.BitWriter

open ByteSink

/-! ### Denotation -/

/-- A writer that the given bits were written to. -/
def Denotes (limit : Option Nat) (escaping : Bool) (bits : Bits) (writer : BitWriter) : Prop :=
  ∃ bytes, writer.sink.Holds limit escaping bytes ∧
    bits = Bits.ofBytes bytes ++ writer.pending ∧ writer.pending.length < 8

/-- How writing ends that writes `bits` in all: the writer denotes them, or its sink is full
with the beginning of what they would store. -/
def Ends (limit : Option Nat) (escaping : Bool) (bits : Bits) :
    Except Error Unit × BitWriter → Prop
  | (.ok _, writer) => writer.Denotes limit escaping bits
  | (.error error, writer) =>
    ∃ bytes rest, bits = Bits.ofBytes bytes ++ rest ∧
      ByteSink.Ends limit escaping bytes (.error error, writer.sink)

/-- A step that writes `bitsAt n` after `n` bits. -/
def Emits (step : WriteM Unit) (bitsAt : Nat → Bits) : Prop :=
  ∀ limit escaping bits writer, writer.Denotes limit escaping bits →
    Ends limit escaping (bits ++ bitsAt bits.length) (step writer)

/-- A new writer has written nothing. -/
theorem denotes_ofSink (limit : Option Nat) (escaping : Bool) :
    (ofSink (.empty escaping limit)).Denotes limit escaping [] :=
  ⟨[], holds_empty limit escaping, rfl, Nat.zero_lt_succ 7⟩

/-! ### Composition -/

/-- Once the sink is full, further bits change nothing. -/
theorem Ends.append_of_error {limit : Option Nat} {escaping : Bool} {bits : Bits}
    {writer : BitWriter} {error : Error} (h : Ends limit escaping bits (.error error, writer))
    (more : Bits) : Ends limit escaping (bits ++ more) (.error error, writer) := by
  obtain ⟨bytes, rest, hbits, hfull⟩ := h
  exact ⟨bytes, rest ++ more, by rw [hbits, List.append_assoc], hfull⟩

/-- A step that writes nothing. -/
theorem emits_pure : Emits (pure ()) (fun _ => []) := by
  intro limit escaping bits writer h
  rw [List.append_nil]
  exact h

/-- Two steps write their bits one after the other. -/
theorem Emits.bind {first second : WriteM Unit} {a b : Nat → Bits} (hfirst : Emits first a)
    (hsecond : Emits second b) :
    Emits (first >>= fun _ => second) (fun n => a n ++ b (n + (a n).length)) := by
  intro limit escaping bits writer h
  have hends := hfirst _ _ _ _ h
  simp only [← List.append_assoc]
  rcases hw : first writer with ⟨_ | _, writer'⟩
  · rw [hw] at hends
    rw [StateStep.error_bind hw]
    exact hends.append_of_error _
  · rw [hw] at hends
    rw [StateStep.ok_bind hw, ← List.length_append]
    exact hsecond _ _ _ _ hends

/-- What is emitted may be stated in another way. -/
theorem Emits.congr {step : WriteM Unit} {a b : Nat → Bits} (h : Emits step a)
    (hab : ∀ n, a n = b n) : Emits step b := by
  rwa [← funext hab]

/-! ### Bits -/

/-- A byte that goes to the sink once its last bit is there. -/
theorem ends_completeByte {limit : Option Nat} {escaping : Bool} {bytes : Bytes}
    {writer : BitWriter} {full : Bits} (hfull : full.length = 8)
    (h : writer.sink.Holds limit escaping bytes) :
    Ends limit escaping (Bits.ofBytes bytes ++ full)
      ((do
        onSink (ByteSink.writeByte (Bits.toByte full))
        modify fun writer => { writer with pending := [] } : WriteM Unit) writer) := by
  have hbyte := ends_writeByte (Bits.toByte full) h
  have hbits : Bits.ofBytes bytes ++ full = Bits.ofBytes (bytes ++ [Bits.toByte full]) := by
    rw [Bits.ofBytes_append, Bits.ofBytes_singleton, Bits.ofByte_toByte hfull]
  rcases hw : ByteSink.writeByte (Bits.toByte full) writer.sink with ⟨error | _, sink⟩
  · have hs : onSink (ByteSink.writeByte (Bits.toByte full)) writer =
        (.error error, { writer with sink := sink }) := by
      rw [onSink, hw]
    rw [hw] at hbyte
    rw [StateStep.error_bind hs]
    exact ⟨_, [], by rw [hbits, List.append_nil], hbyte⟩
  · have hs : onSink (ByteSink.writeByte (Bits.toByte full)) writer =
        (.ok (), { writer with sink := sink }) := by
      rw [onSink, hw]
    rw [hw] at hbyte
    rw [StateStep.ok_bind hs]
    exact ⟨_, hbyte, by rw [hbits]; exact (List.append_nil _).symm, Nat.zero_lt_succ 7⟩

/-- A bit is written. -/
theorem emits_writeBit (bit : Bool) : Emits (writeBit bit) (fun _ => [bit]) := by
  rintro limit escaping bits writer ⟨bytes, hholds, rfl, hpending⟩
  rw [writeBit, StateStep.get_bind, List.append_assoc]
  by_cases hfull : (writer.pending ++ [bit]).length = 8
  · rw [if_pos hfull]
    exact ends_completeByte hfull hholds
  · rw [if_neg hfull]
    refine ⟨bytes, hholds, rfl, ?_⟩
    show (writer.pending ++ [bit]).length < 8
    rw [List.length_append, List.length_singleton] at hfull ⊢
    omega

/-- Bits are written one after the other. -/
theorem emits_writeString (bits : Bits) : Emits (writeString bits) (fun _ => bits) := by
  induction bits with
  | nil => exact emits_pure
  | cons bit bits ih => exact (emits_writeBit bit).bind ih

/-- A number that fits is written in the given width. -/
theorem emits_writeBits {value count : Nat} (h : value < 2 ^ min count 64) :
    Emits (writeBits value count) (fun _ => Bits.ofNat (min count 64) value) := by
  have hfits : ¬1 <<< min count 64 ≤ value := by
    rw [Nat.one_shiftLeft]
    omega
  have hstep : writeBits value count = writeString (Bits.ofNat (min count 64) value) := by
    simp only [writeBits, if_neg hfits]
  rw [hstep]
  exact emits_writeString _

/-- The first bits of a byte string are written, and zero bits past its end. -/
theorem emits_writeLeading (bytes : Bytes) (count : Nat) :
    Emits (writeLeading bytes count) (fun n => (Item.leading bytes count).bitsAt n) :=
  (emits_writeString _).bind (emits_writeString _)

/-- Zero bits are written up to the next byte boundary. -/
theorem emits_align : Emits align (fun n => Item.align.bitsAt n) := by
  intro limit escaping bits writer h
  obtain ⟨bytes, hholds, hbits, hpending⟩ := h
  have hlen : bits.length = 8 * bytes.length + writer.pending.length := by
    rw [hbits, List.length_append, Bits.length_ofBytes]
  rw [align, StateStep.get_bind]
  by_cases haligned : writer.isAligned
  · have hzero : writer.pending.length = 0 := by
      rw [isAligned, List.isEmpty_iff] at haligned
      rw [haligned, List.length_nil]
    have hpad : (8 - bits.length % 8) % 8 = 0 := by omega
    simp only [if_pos haligned, Item.bitsAt, hpad, List.replicate_zero, List.append_nil]
    exact ⟨bytes, hholds, hbits, hpending⟩
  · have hpos : writer.pending.length ≠ 0 := by
      intro hzero
      exact haligned (List.isEmpty_iff.2 (List.length_eq_zero_iff.1 hzero))
    have hpad : (8 - bits.length % 8) % 8 = 8 - writer.bitOffset := by
      rw [bitOffset]
      omega
    have hwidth : min (8 - writer.bitOffset) 64 = 8 - writer.bitOffset := by omega
    simp only [if_neg haligned, Item.bitsAt, hpad]
    have := emits_writeBits (Nat.two_pow_pos (min (8 - writer.bitOffset) 64))
      limit escaping bits writer ⟨bytes, hholds, hbits, hpending⟩
    rwa [hwidth, Bits.ofNat_zero_right] at this

/-! ### Bytes -/

/-- A byte is written as eight bits. -/
theorem emits_writeByteBits (byte : UInt8) :
    Emits (writeBits byte.toNat 8) (fun _ => Bits.ofByte byte) :=
  emits_writeBits byte.toNat_lt

/-- Bytes are written, in one go or bit by bit. -/
theorem emits_writeBytes (bytes : Bytes) :
    Emits (writeBytes bytes) (fun _ => Bits.ofBytes bytes) := by
  rintro limit escaping bits writer ⟨held, hholds, rfl, hpending⟩
  rw [writeBytes, StateStep.get_bind]
  by_cases haligned : writer.isAligned
  · have hnil : writer.pending = [] := List.isEmpty_iff.1 haligned
    have hall := ends_writeAll bytes hholds
    rw [if_pos haligned, hnil, List.append_nil, ← Bits.ofBytes_append, onSink]
    rcases hw : ByteSink.writeAll bytes writer.sink with ⟨_ | _, sink⟩
    · rw [hw] at hall
      exact ⟨_, [], (List.append_nil _).symm, hall⟩
    · rw [hw] at hall
      exact ⟨_, hall, by rw [hnil, List.append_nil], hpending⟩
  · rw [if_neg haligned]
    have hbits : ∀ more : Bytes,
        Emits (more.forM fun byte => writeBits byte.toNat 8) (fun _ => Bits.ofBytes more) := by
      intro more
      induction more with
      | nil => exact emits_pure
      | cons byte more ih => exact (emits_writeByteBits byte).bind ih
    exact hbits bytes _ _ _ _ ⟨held, hholds, rfl, hpending⟩

/-! ### Layouts -/

/-- An exp-Golomb code is written. -/
theorem emits_writeExpGolomb {value : Nat} (h : value + 1 < 2 ^ 64) :
    Emits (writeExpGolomb value) (fun _ => ExpGolomb.code value) := by
  have hlog : (value + 1).log2 < 64 := (Nat.log2_lt (by omega)).2 h
  have hlt : value + 1 < 2 ^ ((value + 1).log2 + 1) := Nat.lt_log2_self
  have hzeros : min (value + 1).log2 64 = (value + 1).log2 := by omega
  have hwidth : min ((value + 1).log2 + 1) 64 = (value + 1).log2 + 1 := by omega
  have hfits : ¬UInt64.size ≤ value + 1 := Nat.not_le.2 h
  have hstep : writeExpGolomb value = (writeBits 0 (value + 1).log2 >>= fun _ =>
      writeBits (value + 1) ((value + 1).log2 + 1)) := by
    simp only [writeExpGolomb, if_neg hfits]
  rw [hstep]
  refine ((emits_writeBits (Nat.two_pow_pos _)).bind
    (emits_writeBits (by rwa [hwidth]))).congr fun _ => ?_
  rw [hzeros, hwidth, Bits.ofNat_zero_right, ExpGolomb.code]

/-- An item that fits is written in its form. -/
theorem emits_writeItem {item : Item} (h : item.Fits) :
    Emits (writeItem item) (fun n => item.bitsAt n) := by
  cases item with
  | flag bit => exact emits_writeBit bit
  | number value width => exact emits_writeBits h
  | leading bytes count => exact emits_writeLeading bytes count
  | bytes bytes => exact emits_writeBytes bytes
  | expGolomb value => exact emits_writeExpGolomb h
  | signedExpGolomb value => exact emits_writeExpGolomb h
  | align => exact emits_align

/-- Writing a layout appends the bits of the layout. -/
theorem emits_writeLayout {layout : Layout} (h : layout.Fits) :
    Emits (writeLayout layout) (fun n => layout.bitsAt n) := by
  induction layout with
  | nil => exact emits_pure
  | cons item items ih =>
    obtain ⟨hitem, hitems⟩ := Layout.fits_cons.1 h
    exact (emits_writeItem hitem).bind (ih hitems)

/-! ### Whole runs -/

/-- Bytes whose bits begin with those of other bytes begin with these bytes. -/
theorem exists_eq_append_of_ofBytes_eq {whole bytes : Bytes} {rest : Bits}
    (h : Bits.ofBytes whole = Bits.ofBytes bytes ++ rest) : ∃ more, whole = bytes ++ more := by
  have hlength := congrArg List.length h
  rw [List.length_append, Bits.length_ofBytes, Bits.length_ofBytes] at hlength
  have hrest : rest.length = 8 * (whole.length - bytes.length) := by omega
  obtain ⟨more, rfl⟩ := Bits.exists_ofBytes_eq hrest
  exact ⟨more, Bits.ofBytes_injective (by rw [h, Bits.ofBytes_append])⟩

/-- How a run ends that writes the given bits: the sink stores their packed form, or it is full
with the beginning of that. -/
theorem runOn_cases {step : WriteM Unit} {bitsAt : Nat → Bits} (h : Emits step bitsAt)
    (limit : Option Nat) (escaping : Bool) :
    ∃ sink,
      (runOn (.empty escaping limit) step = (.ok (), sink) ∧
        sink.Stores limit (storedForm escaping (Bits.pack (bitsAt 0)))) ∨
      (runOn (.empty escaping limit) step = (.error Error.sinkFull, sink) ∧
        sink.Full limit (storedForm escaping (Bits.pack (bitsAt 0)))) := by
  have hends := h.bind emits_align _ _ _ _ (denotes_ofSink limit escaping)
  have hpacked : Bits.ofBytes (Bits.pack (bitsAt 0)) =
      bitsAt 0 ++ Item.bitsAt (bitsAt 0).length .align :=
    Bits.ofBytes_pack (bitsAt 0)
  simp only [List.nil_append, List.length_nil, Nat.zero_add, ← hpacked] at hends
  rcases hw : (step >>= fun _ => align) (ofSink (.empty escaping limit)) with
    ⟨error | _, writer⟩
  · rw [hw] at hends
    obtain ⟨bytes, rest, hbits, hcut⟩ := hends
    obtain ⟨more, hmore⟩ := exists_eq_append_of_ofBytes_eq hbits
    obtain ⟨rfl, hfull⟩ := hcut.append_of_error more
    refine ⟨writer.sink, .inr ⟨?_, hmore ▸ hfull⟩⟩
    rw [runOn]
    simp only [hw]
  · rw [hw] at hends
    obtain ⟨bytes, hholds, hbits, hpending⟩ := hends
    -- Whole bytes were written, so no bit waits for its byte to be full.
    have hlength := congrArg List.length hbits
    rw [List.length_append, Bits.length_ofBytes, Bits.length_ofBytes] at hlength
    have hnil : writer.pending = [] := List.length_eq_zero_iff.1 (by omega)
    rw [hnil, List.append_nil] at hbits
    refine ⟨writer.sink, .inl ⟨?_, Bits.ofBytes_injective hbits ▸ hholds.stores⟩⟩
    rw [runOn]
    simp only [hw]

/-- What an unlimited sink stores of a run that writes the given bits. -/
theorem runOn_of_emits {step : WriteM Unit} {bitsAt : Nat → Bits} (h : Emits step bitsAt)
    (escaping : Bool) :
    ∃ sink, runOn (.empty escaping none) step = (.ok (), sink) ∧
      sink.stored.toList = storedForm escaping (Bits.pack (bitsAt 0)) := by
  obtain ⟨sink, ⟨hrun, hstores⟩ | ⟨-, most, hmost, -⟩⟩ := runOn_cases h none escaping
  · exact ⟨sink, hrun, hstores.stored_eq⟩
  · cases hmost

/-- On an unlimited sink all bits are written, and those that do not fill a byte wait in the
writer. -/
theorem Emits.exists_run {step : WriteM Unit} {bitsAt : Nat → Bits} (h : Emits step bitsAt)
    (escaping : Bool) :
    ∃ writer, step (ofSink (.empty escaping none)) = (.ok (), writer) ∧
      writer.Denotes none escaping (bitsAt 0) := by
  have hends := h none escaping [] _ (denotes_ofSink none escaping)
  rcases hrun : step (ofSink (.empty escaping none)) with ⟨error | _, writer⟩
  · rw [hrun] at hends
    obtain ⟨_, _, -, -, most, hmost, -⟩ := hends
    cases hmost
  · rw [hrun] at hends
    exact ⟨writer, rfl, hends⟩

/-- The bytes that a layout fills, with emulation prevention bytes put in. -/
def encodeEscaped (layout : Layout) : Except Error Bytes :=
  let (result, sink) := runOn (.empty true none) (writeLayout layout)
  result.map fun _ => sink.stored.toList

/-- A layout that fits is written as its packed bits. -/
theorem encode_eq_pack {layout : Layout} (h : layout.Fits) :
    encode layout = .ok (Bits.pack layout.bits) := by
  obtain ⟨sink, hrun, hstored⟩ := runOn_of_emits (emits_writeLayout h) false
  rw [encode, hrun, ← storedForm_false (Bits.pack layout.bits), ← hstored]
  rfl

/-- A layout that fits is written to an escaping sink as its packed bits, escaped. -/
theorem encodeEscaped_eq_escape {layout : Layout} (h : layout.Fits) :
    encodeEscaped layout = .ok (ByteSource.escapeAfter 0 (Bits.pack layout.bits)) := by
  obtain ⟨sink, hrun, hstored⟩ := runOn_of_emits (emits_writeLayout h) true
  rw [encodeEscaped, hrun, ← storedForm_true (Bits.pack layout.bits), ← hstored]
  rfl

end H266.BitWriter
