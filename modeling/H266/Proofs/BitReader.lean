import H266.Proofs.ByteSource
import H266.Proofs.Layout
import H266.Proofs.Steps

/-!
# What a Bit Reader Reads

A reader denotes the bits that can still be read: the rest of the current byte and the bits of
what its source gives. A step that succeeds *advances* the reader over some of these bits, and
fetches no byte of which it needs no bit.

`Reads` says what a step does when certain bits come next. Like the bits of a layout these may
depend on the position, since an alignment takes as many bits as are left of a byte.

## Main results

* `BitReader.Advances.bits_eq`: the bits that a reader advances over come first in its bits.
* `BitReader.Advances.take_eq`: a reader that advances over `n` bits from the start of its
  source takes the bytes of these bits and no more.
* `BitReader.Reads.bind`: steps read their bits one after the other.
* `BitReader.reads_readBits`, `BitReader.reads_readBytes`, `BitReader.reads_skipBits`,
  `BitReader.reads_align`: what the basic steps read.
-/

namespace H266.BitReader

variable {α β : Type}

/-! ### Denotation -/

/-- The bits that can still be read. -/
def bits (reader : BitReader) : Bits :=
  reader.pending ++ Bits.ofBytes reader.source.contents

/-- The bits that are kept of the current byte are those up to the next byte boundary. -/
structure Valid (reader : BitReader) : Prop where
  pending_lt : reader.pending.length < 8
  boundary : (reader.position + reader.pending.length) % 8 = 0

/-- `reader.Advances bits reader'` says that `reader'` is `reader` after the bits `bits` were
read from it. -/
structure Advances (reader : BitReader) (bits : Bits) (reader' : BitReader) : Prop where
  position_eq : reader'.position = reader.position + bits.length
  pending_lt : reader'.pending.length < 8
  fetched : ∃ bytes, reader.source.Gives bytes reader'.source ∧
    reader.pending ++ Bits.ofBytes bytes = bits ++ reader'.pending

/-- A new reader is at a byte boundary. -/
theorem valid_ofSource (source : ByteSource) : (ofSource source).Valid :=
  ⟨Nat.zero_lt_succ 7, rfl⟩

/-- A reader is at a byte boundary exactly if nothing is left of the current byte. -/
theorem Valid.pending_length {reader : BitReader} (h : reader.Valid) :
    reader.pending.length = (8 - reader.position % 8) % 8 := by
  have := h.pending_lt
  have := h.boundary
  omega

/-- A valid reader stays valid. -/
theorem Advances.valid {reader reader' : BitReader} {bits : Bits}
    (h : reader.Advances bits reader') (hv : reader.Valid) : reader'.Valid := by
  obtain ⟨bytes, -, hbits⟩ := h.fetched
  have hlen := congrArg List.length hbits
  rw [List.length_append, List.length_append, Bits.length_ofBytes] at hlen
  have := hv.boundary
  have := h.position_eq
  exact ⟨h.pending_lt, by omega⟩

/-- A reader that reads nothing stays where it is. -/
theorem Valid.advances_nil {reader : BitReader} (h : reader.Valid) :
    reader.Advances [] reader :=
  ⟨rfl, h.pending_lt, [], .nil _, List.append_nil _⟩

/-- Bits that are read one after the other. -/
theorem Advances.trans {reader middle reader' : BitReader} {a b : Bits}
    (ha : reader.Advances a middle) (hb : middle.Advances b reader') :
    reader.Advances (a ++ b) reader' := by
  obtain ⟨first, hfirst, hafter⟩ := ha.fetched
  obtain ⟨second, hsecond, hbafter⟩ := hb.fetched
  refine ⟨?_, hb.pending_lt, first ++ second, hfirst.append hsecond, ?_⟩
  · rw [hb.position_eq, ha.position_eq, List.length_append, Nat.add_assoc]
  · rw [Bits.ofBytes_append, ← List.append_assoc, hafter, List.append_assoc, hbafter,
      List.append_assoc]

/-- The bits that a reader advances over come first in its bits. -/
theorem Advances.bits_eq {reader reader' : BitReader} {bits : Bits}
    (h : reader.Advances bits reader') : reader.bits = bits ++ reader'.bits := by
  obtain ⟨bytes, hgives, hbits⟩ := h.fetched
  rw [BitReader.bits, hgives.contents_eq, Bits.ofBytes_append, ← List.append_assoc, hbits,
    List.append_assoc]
  rfl

/-- What a reader has left is what comes behind the bits that it advances over. -/
theorem Advances.rest_eq {reader reader' : BitReader} {bits rest : Bits}
    (h : reader.Advances bits reader') (hbits : reader.bits = bits ++ rest) :
    reader'.bits = rest :=
  List.append_cancel_left (h.bits_eq.symm.trans hbits)

/-- A reader that advances over `n` bits from the start of its source takes the bytes of
these bits and no more. -/
theorem Advances.take_eq {source : ByteSource} {bits : Bits} {reader : BitReader}
    (h : (ofSource source).Advances bits reader) :
    (source.take ((bits.length + 7) / 8)).2 = reader.source := by
  obtain ⟨bytes, hgives, hbits⟩ := h.fetched
  have hlen := congrArg List.length hbits
  have hpending : (ofSource source).pending.length = 0 := rfl
  have := h.pending_lt
  rw [List.length_append, List.length_append, Bits.length_ofBytes, hpending] at hlen
  have hcount : (bits.length + 7) / 8 = bytes.length := by omega
  have htake : source.take bytes.length = (bytes, reader.source) := hgives.take_eq
  rw [hcount, htake]

/-- A reader that advances over whole bytes from the start of a byte string has still to read
the bits of the bytes that are left. -/
theorem Advances.bits_eq_unread {data : Bytes} {bits : Bits} {reader : BitReader}
    (h : (ofBytes data).Advances bits reader) (hwhole : bits.length % 8 = 0) :
    reader.bits = Bits.ofBytes reader.unread := by
  obtain ⟨bytes, hgives, -⟩ := h.fetched
  have hpending : reader.pending = [] := by
    have hlen := (h.valid (valid_ofSource _)).pending_length
    have hposition : reader.position = 0 + bits.length := h.position_eq
    exact List.length_eq_zero_iff.1 (by omega)
  rw [BitReader.bits, hpending, List.nil_append, unread,
    ByteSource.contents_of_plain hgives.escaped_eq]

/-! ### Steps -/

/-- A step that reads `bitsAt n` after `n` bits and ends with `value`. -/
def Reads (step : ReadM α) (bitsAt : Nat → Bits) (value : α) : Prop :=
  ∀ reader rest, reader.Valid → reader.bits = bitsAt reader.position ++ rest →
    ∃ reader', step reader = .ok (value, reader') ∧
      reader.Advances (bitsAt reader.position) reader'

/-- A value is given without reading. -/
theorem reads_pure (value : α) : Reads (pure value) (fun _ => []) value :=
  fun reader _ hv _ => ⟨reader, rfl, hv.advances_nil⟩

/-- Steps read their bits one after the other. -/
theorem Reads.bind {step : ReadM α} {next : α → ReadM β} {a b c : Nat → Bits} {value : α}
    {value' : β} (hstep : Reads step a value) (hnext : Reads (next value) b value')
    (hc : ∀ n, c n = a n ++ b (n + (a n).length)) : Reads (step >>= next) c value' := by
  intro reader rest hv hbits
  rw [hc, List.append_assoc] at hbits
  obtain ⟨middle, hmiddle, hadvance⟩ := hstep reader _ hv hbits
  have hrest : middle.bits = b middle.position ++ rest := by
    rw [hadvance.position_eq]
    exact hadvance.rest_eq hbits
  obtain ⟨reader', hreader', hadvance'⟩ := hnext middle rest (hadvance.valid hv) hrest
  refine ⟨reader', ?_, ?_⟩
  · rw [PureStep.ok_bind hmiddle, hreader']
  · rw [hadvance.position_eq] at hadvance'
    rw [hc]
    exact hadvance.trans hadvance'

/-- A check, or whatever else reads nothing, may follow a step. -/
theorem Reads.bind_nil {step : ReadM α} {next : α → ReadM β} {bitsAt : Nat → Bits}
    {value : α} {value' : β} (hstep : Reads step bitsAt value)
    (hnext : Reads (next value) (fun _ => []) value') : Reads (step >>= next) bitsAt value' :=
  hstep.bind hnext fun _ => (List.append_nil _).symm

/-- What is read may be stated in another way. -/
theorem Reads.congr {step : ReadM α} {a b : Nat → Bits} {value : α} (h : Reads step a value)
    (hab : ∀ n, a n = b n) : Reads step b value := by
  rwa [← funext hab]

/-- Another value is made of what is read. -/
theorem Reads.map {step : ReadM α} {bitsAt : Nat → Bits} {value : α} (f : α → β)
    (h : Reads step bitsAt value) : Reads (f <$> step) bitsAt (f value) := by
  intro reader rest hv hbits
  obtain ⟨reader', hstep, hadvance⟩ := h reader rest hv hbits
  refine ⟨reader', ?_, hadvance⟩
  show (step reader >>= fun result => pure (f result.1, result.2)) = _
  rw [hstep]
  rfl

/-! ### Bits -/

/-- A bit is read. -/
theorem reads_readBit (bit : Bool) : Reads readBit (fun _ => [bit]) bit := by
  rintro ⟨source, pending, position⟩ rest hv hbits
  cases pending with
  | cons first pending =>
    obtain ⟨rfl, -⟩ := List.cons.inj hbits
    refine ⟨_, rfl, rfl, ?_, [], .nil _, List.append_nil _⟩
    have := hv.pending_lt
    rw [List.length_cons] at this
    exact Nat.lt_of_succ_lt this
  | nil =>
    have hcontents : Bits.ofBytes source.contents = bit :: rest := hbits
    cases hc : source.contents with
    | nil => simp [hc] at hcontents
    | cons byte more =>
      obtain ⟨source', hnext, -⟩ := ByteSource.next?_of_contents_cons hc
      rw [hc, Bits.ofBytes_cons] at hcontents
      obtain ⟨hbit, -⟩ := List.cons.inj hcontents
      refine ⟨⟨source', Bits.ofNat 7 byte.toNat, position + 1⟩, ?_, rfl, ?_, [byte],
        .cons hnext (.nil _), ?_⟩
      · simp only [readBit, hnext]
        simp [← hbit]
      · simp
      · rw [Bits.ofBytes_singleton, ← hbit]
        rfl

/-- Out of bits, no bit can be read. -/
theorem readBit_of_bits_nil {reader : BitReader} (h : reader.bits = []) :
    readBit reader = .error .outOfData := by
  obtain ⟨hpending, hcontents⟩ := List.append_eq_nil_iff.1 h
  have hempty : reader.source.contents = [] := Bits.ofBytes_injective hcontents
  rw [readBit, hpending]
  simp only [ByteSource.next?_eq_none_iff.2 hempty]

/-- A number is read bit by bit, behind the bits that were read before. -/
theorem reads_readBitsAfter (high : Nat) (bits : Bits) :
    Reads (readBitsAfter high bits.length) (fun _ => bits)
      (high * 2 ^ bits.length + Bits.toNat bits) := by
  induction bits generalizing high with
  | nil =>
    rw [List.length_nil, Nat.pow_zero, Nat.mul_one, Bits.toNat_nil, Nat.add_zero]
    exact reads_pure high
  | cons bit bits ih =>
    have hvalue : high * 2 ^ (bit :: bits).length + Bits.toNat (bit :: bits) =
        (2 * high + bit.toNat) * 2 ^ bits.length + Bits.toNat bits := by
      rw [Bits.toNat_cons, List.length_cons, Nat.pow_succ, Nat.add_mul, Nat.add_assoc,
        Nat.mul_comm 2 high, Nat.mul_assoc, Nat.mul_comm 2]
    rw [hvalue]
    exact (reads_readBit bit).bind (ih _) fun _ => rfl

/-- A number is read from as many bits as it is coded in. -/
theorem reads_readBits {bits : Bits} (h : bits.length ≤ 64) :
    Reads (readBits bits.length) (fun _ => bits) (Bits.toNat bits) := by
  have := reads_readBitsAfter 0 bits
  rwa [Nat.zero_mul, Nat.zero_add, ← Nat.min_eq_left h] at this

/-- A number that fits is read from its fixed-width form. -/
theorem reads_readBits_ofNat {value width : Nat} (h : value < 2 ^ min width 64) :
    Reads (readBits width) (fun _ => Bits.ofNat (min width 64) value) value := by
  have := reads_readBitsAfter 0 (Bits.ofNat (min width 64) value)
  rwa [Bits.length_ofNat, Bits.toNat_ofNat h, Nat.zero_mul, Nat.zero_add] at this

/-- An alignment reads whatever is left of the current byte. -/
theorem reads_align {bitsAt : Nat → Bits} (h : ∀ n, (bitsAt n).length = (8 - n % 8) % 8) :
    Reads align bitsAt () := by
  intro reader rest hv hbits
  have hlen : reader.pending.length = (bitsAt reader.position).length := by
    rw [hv.pending_length, h]
  obtain ⟨hpending, -⟩ := List.append_inj hbits hlen
  refine ⟨_, rfl, ?_, Nat.zero_lt_succ 7, [], .nil _, ?_⟩
  · rw [← hlen]
  · rw [← hpending]
    rfl

/-! ### Bytes -/

/-- A byte is read as a number of eight bits. -/
theorem reads_readByteBits (byte : UInt8) :
    Reads (readBits 8) (fun _ => Bits.ofByte byte) byte.toNat :=
  reads_readBits_ofNat byte.toNat_lt

/-- Inside a byte, bytes are read behind those that were read before. -/
theorem reads_readUnalignedAfter (taken bytes : Bytes) :
    Reads (readUnalignedAfter taken bytes.length) (fun _ => Bits.ofBytes bytes)
      (taken.reverse ++ bytes) := by
  induction bytes generalizing taken with
  | nil =>
    rw [List.append_nil]
    exact reads_pure _
  | cons byte bytes ih =>
    have hnext := ih (UInt8.ofNat byte.toNat :: taken)
    have hvalue : (UInt8.ofNat byte.toNat :: taken).reverse ++ bytes =
        taken.reverse ++ byte :: bytes := by simp
    rw [hvalue] at hnext
    exact (reads_readByteBits byte).bind hnext fun _ => rfl

/-- A reader behind bytes that were taken off its source. -/
def behind (reader : BitReader) (taken : Bytes × ByteSource) : BitReader :=
  { reader with source := taken.2, position := reader.position + 8 * taken.1.length }

/-- At a byte boundary a read takes bytes off the source. -/
theorem readSome_of_isAligned {reader : BitReader} (h : reader.isAligned = true) (count : Nat) :
    readSome count reader =
      .ok ((reader.source.take count).1, reader.behind (reader.source.take count)) := by
  rw [readSome, PureStep.get_bind, if_pos h]
  rfl

/-- Elsewhere it puts bytes together from bits. -/
theorem readSome_of_not_isAligned {reader : BitReader} (h : ¬reader.isAligned = true)
    (count : Nat) : readSome count reader = readUnalignedAfter [] count reader := by
  rw [readSome, PureStep.get_bind, if_neg h]

/-- A read of as many bytes as the source gives reads these. -/
theorem readSome_of_gives {reader : BitReader} {source' : ByteSource} {bytes : Bytes}
    (hpending : reader.pending = []) (hgives : reader.source.Gives bytes source') :
    readSome bytes.length reader =
      .ok (bytes, { reader with
        source := source', position := reader.position + 8 * bytes.length }) := by
  have haligned : reader.isAligned = true := by rw [isAligned, hpending, List.isEmpty_nil]
  rw [readSome_of_isAligned haligned, hgives.take_eq]
  rfl

/-- As many bytes are given as are asked for, if they are there. -/
theorem reads_readSome (bytes : Bytes) :
    Reads (readSome bytes.length) (fun _ => Bits.ofBytes bytes) bytes := by
  intro reader rest hv hbits
  by_cases haligned : reader.isAligned
  · have hpending : reader.pending = [] := List.isEmpty_iff.1 haligned
    rw [BitReader.bits, hpending, List.nil_append] at hbits
    have hsplit : reader.source.contents =
        bytes ++ reader.source.contents.drop bytes.length := by
      have hlen := congrArg List.length hbits
      rw [List.length_append, Bits.length_ofBytes, Bits.length_ofBytes] at hlen
      rw [← List.take_append_drop bytes.length reader.source.contents,
        Bits.ofBytes_append] at hbits
      obtain ⟨htake, -⟩ := List.append_inj hbits (by
        rw [Bits.length_ofBytes, Bits.length_ofBytes, List.length_take]
        omega)
      conv => lhs; rw [← List.take_append_drop bytes.length reader.source.contents]
      rw [Bits.ofBytes_injective htake]
    obtain ⟨source', hgives, -⟩ := ByteSource.exists_gives hsplit
    refine ⟨_, readSome_of_gives hpending hgives, ?_, hv.pending_lt, bytes, hgives, ?_⟩
    · rw [Bits.length_ofBytes]
    · rw [hpending, List.nil_append, List.append_nil]
  · rw [readSome_of_not_isAligned haligned]
    exact reads_readUnalignedAfter [] bytes reader rest hv hbits

/-- Bytes are read, in one go or bit by bit. -/
theorem reads_readBytes (bytes : Bytes) :
    Reads (readBytes bytes.length) (fun _ => Bits.ofBytes bytes) bytes := by
  refine (reads_readSome bytes).bind_nil ?_
  rw [if_neg (Nat.lt_irrefl _)]
  exact reads_pure bytes

/-- Bytes are skipped whatever their bits are. -/
theorem reads_readBytes_of_bits {bits : Bits} {count : Nat} (h : bits.length = 8 * count) :
    ∃ bytes, Reads (readBytes count) (fun _ => bits) bytes := by
  obtain ⟨bytes, rfl⟩ := Bits.exists_ofBytes_eq h
  rw [Bits.length_ofBytes] at h
  obtain rfl : bytes.length = count := by omega
  exact ⟨bytes, reads_readBytes bytes⟩

/-- Fewer than eight bits are skipped one by one. -/
theorem reads_skipRest {bits : Bits} (h : bits.length < 8) :
    Reads (do let _ ← readBits bits.length : ReadM Unit) (fun _ => bits) () :=
  (reads_readBits (by omega)).bind_nil (reads_pure ())

/-- Bits are skipped in whole bytes as far as they fill any. -/
theorem reads_skipAhead (bits : Bits) :
    Reads (do
      if 8 ≤ bits.length then
        let _ ← readBytes (bits.length / 8)
      let _ ← readBits (bits.length % 8) : ReadM Unit) (fun _ => bits) () := by
  by_cases hwhole : 8 ≤ bits.length
  · have htake : (bits.take (8 * (bits.length / 8))).length = 8 * (bits.length / 8) := by
      rw [List.length_take]
      omega
    have hdrop : (bits.drop (8 * (bits.length / 8))).length = bits.length % 8 := by
      rw [List.length_drop]
      omega
    obtain ⟨bytes, hbytes⟩ := reads_readBytes_of_bits htake
    have hrest := reads_skipRest (by omega : (bits.drop (8 * (bits.length / 8))).length < 8)
    rw [hdrop] at hrest
    simp only [if_pos hwhole]
    refine hbytes.bind hrest fun _ => ?_
    rw [List.take_append_drop]
  · have hshort : bits.length < 8 := by omega
    have hrest := reads_skipRest hshort
    rw [← Nat.mod_eq_of_lt hshort] at hrest
    simp only [if_neg hwhole]
    exact hrest

/-- Skipping reads any bits, as many as it is told to. -/
theorem reads_skipBits (bits : Bits) : Reads (skipBits bits.length) (fun _ => bits) () := by
  intro reader rest hv hbits
  rw [skipBits, PureStep.get_bind]
  generalize hbuffered : min bits.length reader.pending.length = buffered
  have := hv.pending_lt
  have htake : (bits.take buffered).length = buffered := by
    rw [List.length_take]
    omega
  have hdrop : (bits.drop buffered).length = bits.length - buffered := List.length_drop
  have hfirst : Reads (readBits (bits.take buffered).length) (fun _ => bits.take buffered) _ :=
    reads_readBits (by omega)
  have hahead := reads_skipAhead (bits.drop buffered)
  rw [htake] at hfirst
  rw [hdrop] at hahead
  exact hfirst.bind (c := fun _ => bits) hahead (fun _ => by rw [List.take_append_drop])
    reader rest hv hbits

end H266.BitReader
