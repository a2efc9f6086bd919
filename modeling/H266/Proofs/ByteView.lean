import H266.Proofs.BitCursor
import H266.Proofs.Composed

/-!
# The Byte View of a Reader

Bytes can be read from a reader wherever it stands: those that its next bits make, eight by eight.
A read of several bytes asks for as many as fit into a buffer. It may give fewer, but gives none
only if there are none left, so that all of them are read by reading until nothing comes any more.

At a byte boundary this is so. Elsewhere a read gives just as many bytes as it asks for, the same
that a reader at a byte boundary would give of these bits, or it is out of data: fewer whole bytes
may be left, but they are not given. Since the last bits of the data never fill a byte there, no
read gives nothing, and reading to the end always fails.

## Main results

* `ByteSource.take_add`: bytes are taken in parts as if at once.
* `BitReader.Reached.standsIn`: earlier reads leave a reader in the bits of its source.
* `BitReader.givesBytes_readSome_iff`, `BitReader.givesBytes_readToEnd_iff`: when a read gives what
  is left.
* `BitReader.readUntilEmpty_eq`: reading until nothing comes is reading to the end, however many
  bytes each read asks for.
* `BitReader.byteView_iff`: where a reader gives the bytes that are left.
-/

namespace H266

/-! ### Taking bytes in parts -/

namespace ByteSource

/-- Bytes that were taken before are not touched. -/
theorem takeAfter_eq_take (taken : Bytes) (count : Nat) (source : ByteSource) :
    takeAfter taken count source =
      (taken.reverse ++ (source.take count).1, (source.take count).2) := by
  induction count generalizing taken source with
  | zero => rw [take, takeAfter, takeAfter, List.reverse_nil, List.append_nil]
  | succ count ih =>
    rw [take, takeAfter, takeAfter]
    cases hnext : source.next? with
    | none => simp
    | some next =>
      obtain ⟨byte, rest⟩ := next
      simp only [ih (byte :: taken), ih [byte]]
      simp

/-- Nothing can be taken of a source that has nothing left, which is emptied by the attempt. -/
theorem take_of_next?_eq_none {source : ByteSource} (h : source.next? = none) (count : Nat) :
    source.take (count + 1) = ([], { source with remaining := [] }) := by
  rw [take, takeAfter, h, List.reverse_nil]

/-- The next byte is taken first. -/
theorem take_of_next?_eq_some {source rest : ByteSource} {byte : UInt8}
    (h : source.next? = some (byte, rest)) (count : Nat) :
    source.take (count + 1) = (byte :: (rest.take count).1, (rest.take count).2) := by
  rw [take, takeAfter, h]
  exact takeAfter_eq_take [byte] count rest

/-- Nothing can be taken of nothing. -/
theorem take_emptied (source : ByteSource) (count : Nat) :
    { source with remaining := [] }.take count = ([], { source with remaining := [] }) := by
  have hnext : { source with remaining := [] }.next? = none := by
    rcases source with ⟨remaining, _ | _, zeros⟩ <;> rfl
  cases count with
  | zero => rfl
  | succ count => exact take_of_next?_eq_none hnext count

/-- Bytes are taken in two parts as if at once. -/
theorem take_add (first more : Nat) (source : ByteSource) :
    source.take (first + more) = ((source.take first).1 ++ ((source.take first).2.take more).1,
      ((source.take first).2.take more).2) := by
  induction first generalizing source with
  | zero =>
    rw [Nat.zero_add]
    rfl
  | succ first ih =>
    rw [Nat.succ_add]
    cases hnext : source.next? with
    | none =>
      rw [take_of_next?_eq_none hnext, take_of_next?_eq_none hnext, take_emptied]
      rfl
    | some next =>
      obtain ⟨byte, rest⟩ := next
      rw [take_of_next?_eq_some hnext, take_of_next?_eq_some hnext, ih]
      rfl

/-- It makes no difference how many bytes are asked for, if there are fewer. -/
theorem take_congr {source : ByteSource} {a b : Nat} (ha : source.contents.length < a)
    (hb : source.contents.length < b) : source.take a = source.take b := by
  induction a generalizing source b with
  | zero => exact absurd ha (Nat.not_lt_zero _)
  | succ a ih =>
    obtain ⟨b, rfl⟩ := Nat.exists_eq_succ_of_ne_zero (Nat.ne_zero_of_lt hb)
    cases hnext : source.next? with
    | none => rw [take_of_next?_eq_none hnext, take_of_next?_eq_none hnext]
    | some next =>
      obtain ⟨byte, rest⟩ := next
      have hlength : source.contents.length = rest.contents.length + 1 := by
        rw [contents_eq_next?, hnext]
        rfl
      rw [take_of_next?_eq_some hnext, take_of_next?_eq_some hnext,
        @ih rest b (by omega) (by omega)]

/-- No more bytes can be read than are stored. -/
theorem length_contents_le (source : ByteSource) :
    source.contents.length ≤ source.remaining.length := by
  rcases source with ⟨remaining, _ | _, zeros⟩
  · exact Nat.le_refl _
  · exact length_unescapeAfter_le zeros remaining

/-- Asking for more bytes than there are takes all of them. -/
theorem take_eq_takeAll {source : ByteSource} {count : Nat}
    (h : source.contents.length < count) : source.take count = source.takeAll :=
  take_congr h (Nat.lt_succ_of_le source.length_contents_le)

/-- All bytes are taken. -/
theorem fst_takeAll (source : ByteSource) : source.takeAll.1 = source.contents := by
  rw [takeAll, fst_take]
  exact List.take_of_length_le (Nat.le_succ_of_le source.length_contents_le)

/-- All bytes are taken if some are, and then all that are left. -/
theorem takeAll_eq_append (count : Nat) (source : ByteSource) :
    source.takeAll = ((source.take count).1 ++ (source.take count).2.takeAll.1,
      (source.take count).2.takeAll.2) := by
  have hrest := (source.take count).2.length_contents_le
  rw [contents_take, List.length_drop] at hrest
  calc source.takeAll
      = source.take (count + ((source.take count).2.remaining.length + 1)) :=
        (take_eq_takeAll (by omega)).symm
    _ = _ := take_add _ _ _

end ByteSource

/-! ### What a read gives -/

namespace BitReader

/-- `reader.Passes bytes reader'` says that `reader'` stands behind the bits of `bytes`, which come
first in what `reader` has left. -/
structure Passes (reader : BitReader) (bytes : Bytes) (reader' : BitReader) : Prop where
  valid : reader'.Valid
  position_eq : reader'.position = reader.position + 8 * bytes.length
  bits_eq : reader.bits = Bits.ofBytes bytes ++ reader'.bits

/-- A step that gives certain bytes, which come next, and passes them. -/
def GivesBytes (step : ReadM Bytes) (bytes : Bytes) (reader : BitReader) : Prop :=
  ∃ reader', step reader = .ok (bytes, reader') ∧ reader.Passes bytes reader'

section

variable {reader reader' : BitReader} {bytes : Bytes} {count : Nat}

/-- A step that is out of data gives no bytes. -/
theorem GivesBytes.ne_outOfData {step : ReadM Bytes} (h : GivesBytes step bytes reader) :
    step reader ≠ .error .outOfData := by
  obtain ⟨reader', hstep, -⟩ := h
  rw [hstep]
  exact fun heq => (by cases heq)

/-- Bytes that are read are passed. -/
theorem Advances.passes (h : reader.Advances (Bits.ofBytes bytes) reader')
    (hv : reader.Valid) : reader.Passes bytes reader' :=
  ⟨h.valid hv, by rw [h.position_eq, Bits.length_ofBytes], h.bits_eq⟩

/-- At a byte boundary the bits that are left are those of the source. -/
theorem bits_of_isAligned (h : reader.isAligned = true) :
    reader.bits = Bits.ofBytes reader.source.contents := by
  rw [bits, List.isEmpty_iff.1 h, List.nil_append]

/-- At a byte boundary the whole bytes are those of the source. -/
theorem wholeBytes_of_isAligned (h : reader.isAligned = true) :
    reader.bits.wholeBytes = reader.source.contents := by
  rw [bits_of_isAligned h, Bits.wholeBytes_ofBytes]

/-- Bytes that were taken off the source at a byte boundary are passed. -/
theorem passes_behind (hv : reader.Valid) (haligned : reader.isAligned = true) (count : Nat) :
    reader.Passes (reader.source.take count).1 (reader.behind (reader.source.take count)) := by
  have hpending : reader.pending = [] := List.isEmpty_iff.1 haligned
  have hboundary := hv.boundary
  refine ⟨⟨hv.pending_lt, ?_⟩, rfl, ?_⟩
  · show (reader.position + 8 * _ + reader.pending.length) % 8 = 0
    omega
  · rw [behind, bits, bits, hpending, List.nil_append, List.nil_append, ByteSource.fst_take,
      ByteSource.contents_take, ← Bits.ofBytes_append, List.take_append_drop]

/-- At a byte boundary a read gives what is there. -/
theorem givesBytes_readSome_of_isAligned (hv : reader.Valid) (haligned : reader.isAligned = true)
    (count : Nat) : GivesBytes (readSome count) (reader.bits.wholeBytes.take count) reader := by
  rw [wholeBytes_of_isAligned haligned, ← ByteSource.fst_take]
  exact ⟨_, readSome_of_isAligned haligned count, passes_behind hv haligned count⟩

/-- Elsewhere it does if as many bytes are there as it asks for. -/
theorem givesBytes_readSome_of_le (hv : reader.Valid) (h : 8 * count ≤ reader.bits.length) :
    GivesBytes (readSome count) (reader.bits.wholeBytes.take count) reader := by
  obtain ⟨rest, hbits, -⟩ := reader.bits.exists_eq_wholeBytes_append
  have hcount : (reader.bits.wholeBytes.take count).length = count := by
    rw [List.length_take, Bits.length_wholeBytes]
    omega
  generalize reader.bits.wholeBytes = whole at hbits hcount ⊢
  rw [← List.take_append_drop count whole, Bits.ofBytes_append, List.append_assoc] at hbits
  obtain ⟨reader', hstep, hadvance⟩ := reads_readSome (whole.take count) reader _ hv hbits
  rw [hcount] at hstep
  exact ⟨reader', hstep, hadvance.passes hv⟩

/-- A read gives the whole bytes that are left, as many as it asks for or all of them, at a byte
boundary, and elsewhere if there are so many. -/
theorem givesBytes_readSome (hv : reader.Valid)
    (h : reader.position % 8 = 0 ∨ 8 * count ≤ reader.bits.length) :
    GivesBytes (readSome count) (reader.bits.wholeBytes.take count) reader := by
  rcases h with hboundary | hmany
  · exact givesBytes_readSome_of_isAligned hv (hv.isAligned_iff.2 hboundary) count
  · exact givesBytes_readSome_of_le hv hmany

/-- Off a byte boundary a read that asks for more than there is gives nothing of it. -/
theorem readSome_eq_outOfData (hv : reader.Valid)
    (h : ¬(reader.position % 8 = 0 ∨ 8 * count ≤ reader.bits.length)) :
    readSome count reader = .error .outOfData := by
  obtain ⟨hboundary, hfew⟩ := not_or.1 h
  rw [readSome_of_not_isAligned (mt hv.isAligned_iff.1 hboundary)]
  exact needsBits_readUnalignedAfter [] count reader hv (Nat.lt_of_not_le hfew)

/-- And only then. -/
theorem givesBytes_readSome_iff (hv : reader.Valid) :
    GivesBytes (readSome count) (reader.bits.wholeBytes.take count) reader ↔
      reader.position % 8 = 0 ∨ 8 * count ≤ reader.bits.length := by
  refine ⟨fun hgives => ?_, givesBytes_readSome hv⟩
  by_contra hfew
  exact hgives.ne_outOfData (readSome_eq_outOfData hv hfew)

/-- A read that succeeds has passed what it gives. -/
theorem passes_of_readSome_eq_ok (hv : reader.Valid)
    (h : readSome count reader = .ok (bytes, reader')) : reader.Passes bytes reader' := by
  by_cases hgiven : reader.position % 8 = 0 ∨ 8 * count ≤ reader.bits.length
  · obtain ⟨own, hown, hpasses⟩ := givesBytes_readSome hv hgiven
    rw [h] at hown
    cases hown
    exact hpasses
  · rw [readSome_eq_outOfData hv hgiven] at h
    cases h

/-- At a byte boundary reading to the end takes all bytes of the source. -/
theorem readToEnd_of_isAligned (h : reader.isAligned = true) :
    readToEnd reader = .ok (reader.source.takeAll.1, reader.behind reader.source.takeAll) := by
  rw [readToEnd, PureStep.get_bind, if_pos h]
  rfl

/-- Off a byte boundary reading to the end fails, whatever is left. -/
theorem readToEnd_eq_outOfData (hv : reader.Valid) (h : reader.position % 8 ≠ 0) :
    readToEnd reader = .error .outOfData := by
  rw [readToEnd, PureStep.get_bind, if_neg (mt hv.isAligned_iff.1 h)]
  rfl

/-- All bytes that are left are read to the end exactly at a byte boundary. -/
theorem givesBytes_readToEnd_iff (hv : reader.Valid) :
    GivesBytes readToEnd reader.bits.wholeBytes reader ↔ reader.position % 8 = 0 := by
  constructor
  · intro hgives
    by_contra hunaligned
    exact hgives.ne_outOfData (readToEnd_eq_outOfData hv hunaligned)
  · intro hboundary
    have haligned := hv.isAligned_iff.2 hboundary
    rw [wholeBytes_of_isAligned haligned, ← ByteSource.fst_takeAll]
    exact ⟨_, readToEnd_of_isAligned haligned, passes_behind hv haligned _⟩

end

/-! ### Reading until nothing comes -/

/-- Reads again and again, as many bytes at a time as `sizes` says, until a read gives nothing.
There is no result if the last of them still gives something. -/
def readUntilEmpty : (sizes : List Nat) → ReadM (Option Bytes)
  | [] => pure none
  | size :: sizes => do
    let bytes ← readSome size
    if bytes.isEmpty then
      return some []
    Option.map (bytes ++ ·) <$> readUntilEmpty sizes

section

variable {reader reader' : BitReader} {bytes : Bytes} {size : Nat} {sizes : List Nat}

/-- A read that gives nothing is the last one. -/
theorem readUntilEmpty_cons_of_nil (h : readSome size reader = .ok ([], reader')) :
    readUntilEmpty (size :: sizes) reader = .ok (some [], reader') :=
  PureStep.ok_bind h

/-- A read that gives something is followed by others. -/
theorem readUntilEmpty_cons_of_ne_nil (h : readSome size reader = .ok (bytes, reader'))
    (hbytes : bytes ≠ []) :
    readUntilEmpty (size :: sizes) reader =
      (Option.map (bytes ++ ·) <$> readUntilEmpty sizes) reader' := by
  have hsome : ¬bytes.isEmpty = true := mt List.isEmpty_iff.1 hbytes
  rw [readUntilEmpty, PureStep.ok_bind h, if_neg hsome]

/-- Moving on in two parts is moving on at once. -/
theorem behind_behind (first more : Bytes × ByteSource) :
    (reader.behind first).behind more = reader.behind (first.1 ++ more.1, more.2) := by
  rw [behind, behind, behind, List.length_append, Nat.mul_add, ← Nat.add_assoc]

/-- At a byte boundary each read takes what it can off the source, until nothing is left. -/
theorem readUntilEmpty_of_isAligned (haligned : reader.isAligned = true)
    (hpositive : ∀ size ∈ sizes, 0 < size)
    (hrounds : reader.source.contents.length < sizes.length) :
    readUntilEmpty sizes reader =
      .ok (some reader.source.takeAll.1, reader.behind reader.source.takeAll) := by
  induction sizes generalizing reader with
  | nil => exact absurd hrounds (Nat.not_lt_zero _)
  | cons size sizes ih =>
    obtain ⟨hsize, hpositive⟩ := List.forall_mem_cons.1 hpositive
    have hsome := readSome_of_isAligned haligned size
    have hlength := congrArg List.length (ByteSource.fst_take size reader.source)
    rw [List.length_take] at hlength
    by_cases hnone : (reader.source.take size).1 = []
    · -- Nothing came, so nothing was left.
      rw [hnone, List.length_nil] at hlength
      rw [hnone] at hsome
      rw [← ByteSource.take_eq_takeAll (by omega : _ < size), hnone]
      exact readUntilEmpty_cons_of_nil hsome
    · have hleft : (reader.source.take size).2.contents.length < sizes.length := by
        have hpassed := List.length_pos_iff.2 hnone
        rw [ByteSource.contents_take, List.length_drop]
        rw [List.length_cons] at hrounds
        omega
      have hrest := @ih (reader.behind (reader.source.take size)) haligned hpositive hleft
      rw [readUntilEmpty_cons_of_ne_nil hsome hnone, map_eq_pure_bind, PureStep.ok_bind hrest,
        behind_behind, ByteSource.takeAll_eq_append size reader.source]
      rfl

/-- Off a byte boundary no read gives nothing, so it goes on until one is out of data. -/
theorem readUntilEmpty_eq_outOfData (hv : reader.Valid) (hunaligned : reader.position % 8 ≠ 0)
    (hpositive : ∀ size ∈ sizes, 0 < size) (hrounds : reader.bits.length / 8 < sizes.length) :
    readUntilEmpty sizes reader = .error .outOfData := by
  induction sizes generalizing reader with
  | nil => exact absurd hrounds (Nat.not_lt_zero _)
  | cons size sizes ih =>
    obtain ⟨hsize, hpositive⟩ := List.forall_mem_cons.1 hpositive
    by_cases hmany : 8 * size ≤ reader.bits.length
    · -- The read passes whole bytes, so the reader is as far into a byte as before.
      obtain ⟨reader', hsome, hpasses⟩ := givesBytes_readSome_of_le hv hmany
      have hlength : (reader.bits.wholeBytes.take size).length = size := by
        rw [List.length_take, Bits.length_wholeBytes]
        omega
      have hleft := congrArg List.length hpasses.bits_eq
      have hposition := hpasses.position_eq
      rw [List.length_append, Bits.length_ofBytes, hlength] at hleft
      rw [List.length_cons] at hrounds
      have hrest := ih hpasses.valid (by omega) hpositive (by omega)
      have hgiven := List.ne_nil_of_length_pos (hlength.symm ▸ hsize)
      rw [readUntilEmpty_cons_of_ne_nil hsome hgiven, map_eq_pure_bind, PureStep.error_bind hrest]
    · exact PureStep.error_bind (readSome_eq_outOfData hv (not_or.2 ⟨hunaligned, hmany⟩))

/-- **Reading until nothing comes** is reading to the end: it fails off a byte boundary, and at one
it gives all that is left, however many bytes each read asks for. It is done after as many reads
as there are bytes and one more. -/
theorem readUntilEmpty_eq (hv : reader.Valid) (hpositive : ∀ size ∈ sizes, 0 < size)
    (hrounds : reader.bits.length / 8 < sizes.length) :
    readUntilEmpty sizes reader = (some <$> readToEnd) reader := by
  rw [map_eq_pure_bind]
  by_cases hboundary : reader.position % 8 = 0
  · have haligned := hv.isAligned_iff.2 hboundary
    rw [PureStep.ok_bind (readToEnd_of_isAligned haligned)]
    refine readUntilEmpty_of_isAligned haligned hpositive ?_
    rwa [← wholeBytes_of_isAligned haligned, Bits.length_wholeBytes]
  · rw [PureStep.error_bind (readToEnd_eq_outOfData hv hboundary)]
    exact readUntilEmpty_eq_outOfData hv hboundary hpositive hrounds

end

/-! ### Earlier reads -/

/-- A step that needs some number of bits advances over them if it succeeds. -/
theorem exists_advances_of_needsBits {α : Type} {step : ReadM α} {count : Nat}
    (hneeds : NeedsBits step count)
    (hreads : ∀ bits : Bits, bits.length = count → ∃ value, Reads step (fun _ => bits) value)
    {reader reader' : BitReader} {value : α} (hv : reader.Valid)
    (h : step reader = .ok (value, reader')) : ∃ taken, reader.Advances taken reader' := by
  by_cases hfew : reader.bits.length < count
  · rw [hneeds reader hv hfew] at h
    cases h
  · have hsplit := (List.take_append_drop count reader.bits).symm
    obtain ⟨_, hstep⟩ :=
      hreads (reader.bits.take count) (List.length_take_of_le (Nat.le_of_not_lt hfew))
    obtain ⟨own, hown, hadvance⟩ := hstep reader _ hv hsplit
    rw [h] at hown
    cases hown
    exact ⟨_, hadvance⟩

/-- Whatever is put together from operations of the reader advances it. -/
theorem Composed.exists_advances {α : Type} {step : ReadM α} (hstep : Composed step)
    {reader reader' : BitReader} {value : α} (hv : reader.Valid)
    (h : step reader = .ok (value, reader')) : ∃ taken, reader.Advances taken reader' := by
  induction hstep generalizing reader reader' with
  | pure value =>
    cases h
    exact ⟨[], hv.advances_nil⟩
  | throw herror => cases h
  | bind _ _ ihstep ihnext =>
    obtain ⟨first, middle, hfirst, hrest⟩ := PureStep.of_bind_eq_ok h
    obtain ⟨taken, hadvance⟩ := ihstep hv hfirst
    obtain ⟨more, hadvance'⟩ := ihnext first (hadvance.valid hv) hrest
    exact ⟨taken ++ more, hadvance.trans hadvance'⟩
  | readBit =>
    refine exists_advances_of_needsBits needsBits_readBit (fun bits hbits => ?_) hv h
    obtain ⟨bit, rfl⟩ := List.length_eq_one_iff.1 hbits
    exact ⟨bit, reads_readBit bit⟩
  | align =>
    obtain ⟨own, hown, hadvance⟩ := align_eq reader
    rw [h] at hown
    cases hown
    exact ⟨_, hadvance⟩
  | readBytes count =>
    exact exists_advances_of_needsBits (needsBits_readBytes count)
      (fun _ hbits => reads_readBytes_of_bits hbits) hv h
  | skipBits count =>
    refine exists_advances_of_needsBits (needsBits_skipBits count) (fun bits hbits => ?_) hv h
    exact ⟨(), hbits ▸ reads_skipBits bits⟩

/-- The readers that reading a source leads to: by anything that is put together from operations of
the reader, such as numbers, codes and whole syntax structures, and by reads of several bytes. -/
inductive Reached (source : ByteSource) : BitReader → Prop
  | start : Reached source (ofSource source)
  | step {α : Type} {step : ReadM α} {value : α} {reader reader' : BitReader}
    (h : Reached source reader) (hstep : Composed step)
    (hrun : step reader = .ok (value, reader')) : Reached source reader'
  | bytes {count : Nat} {bytes : Bytes} {reader reader' : BitReader}
    (h : Reached source reader) (hrun : readSome count reader = .ok (bytes, reader')) :
    Reached source reader'

section

variable {reader reader' : BitReader} {bytes : Bytes}

/-- A reader that passes bytes moves on in the list. -/
theorem StandsIn.passes {all : Bits} (h : reader.StandsIn all)
    (hpasses : reader.Passes bytes reader') : reader'.StandsIn all := by
  have hlength := h.length_bits
  have hbits := hpasses.bits_eq
  have hdrop : reader'.bits = all.drop reader'.position := by
    rw [hpasses.position_eq, ← List.drop_drop, ← h.bits_eq, hbits, ← Bits.length_ofBytes,
      List.drop_left]
  rw [hbits, List.length_append, Bits.length_ofBytes] at hlength
  refine ⟨hpasses.valid, ?_, hdrop⟩
  rw [hpasses.position_eq]
  omega

/-- Whatever was read before, a reader stands in the bits of its source. -/
theorem Reached.standsIn {source : ByteSource} (h : Reached source reader) :
    reader.StandsIn (Bits.ofBytes source.contents) := by
  induction h with
  | start => exact standsIn_ofSource source
  | step _ hstep hrun ih =>
    obtain ⟨taken, hadvance⟩ := hstep.exists_advances ih.valid hrun
    exact ih.advances hadvance
  | bytes _ hrun ih => exact ih.passes (passes_of_readSome_eq_ok ih.valid hrun)

end

/-- **The byte view of a reader**: wherever earlier reads have left a reader of plain or of escaped
data, a read of several bytes gives the whole bytes that the next bits make, so many or all there
are, exactly if the reader is at a byte boundary or there are so many, and reading to the end gives
all of them exactly if it is at a byte boundary. Otherwise they are out of data, however many whole
bytes are left. Reading until a read gives nothing does what reading to the end does, however many
bytes each read asks for. -/
theorem byteView_iff {escaped : Bool} {data : Bytes} {reader : BitReader}
    (h : Reached (.ofStored escaped data) reader) :
    let payload := if escaped then ByteSource.unescapeAfter 0 data else data
    let left : Bits := (Bits.ofBytes payload).drop reader.position
    reader.bits = left ∧
    (∀ count,
      (GivesBytes (readSome count) (left.wholeBytes.take count) reader ↔
        reader.position % 8 = 0 ∨ 8 * count ≤ left.length) ∧
      (¬(reader.position % 8 = 0 ∨ 8 * count ≤ left.length) →
        readSome count reader = .error .outOfData)) ∧
    (GivesBytes readToEnd left.wholeBytes reader ↔ reader.position % 8 = 0) ∧
    (reader.position % 8 ≠ 0 → readToEnd reader = .error .outOfData) ∧
    ∀ sizes : List Nat, (∀ size ∈ sizes, 0 < size) → left.length / 8 < sizes.length →
      readUntilEmpty sizes reader = (some <$> readToEnd) reader := by
  intro payload left
  have hstands := h.standsIn
  rw [show ByteSource.contents _ = payload from ByteSource.contents_ofStored_eq escaped data]
    at hstands
  have hv := hstands.valid
  have hbits : reader.bits = left := hstands.bits_eq
  clear_value left
  subst hbits
  exact ⟨rfl, fun count => ⟨givesBytes_readSome_iff hv, readSome_eq_outOfData hv⟩,
    givesBytes_readToEnd_iff hv, readToEnd_eq_outOfData hv,
    fun sizes hpositive hrounds => readUntilEmpty_eq hv hpositive hrounds⟩

/-- Inside a byte of escaped data, with four whole bytes left. -/
theorem byteView_iff_escaped_bytes :
    let data : Bytes := [0xAC, 0, 0, 3, 1, 0x0F]
    ∃ reader, Reached (.ofStored true data) reader ∧ reader.position = 4 ∧
      GivesBytes (readSome 4) [0xC0, 0, 0, 0x10] reader ∧
      readSome 5 reader = .error .outOfData ∧
      readToEnd reader = .error .outOfData ∧
      readUntilEmpty [1, 2, 1, 1, 1] reader = .error .outOfData := by
  intro data
  let reader : BitReader := ⟨⟨[0, 0, 3, 1, 0x0F], true, 0⟩, [true, true, false, false], 4⟩
  have hreached : Reached (.ofStored true data) reader :=
    Reached.start.step (composed_readBits 4) rfl
  have hwhole : Bits.wholeBytes ((Bits.ofBytes (ByteSource.unescapeAfter 0 data)).drop 4) =
      [0xC0, 0, 0, 0x10] := by decide
  obtain ⟨-, hsome, -, hend, hrepeated⟩ := byteView_iff hreached
  have hgives : GivesBytes (readSome 4)
      ((Bits.wholeBytes ((Bits.ofBytes (ByteSource.unescapeAfter 0 data)).drop 4)).take 4) reader :=
    (hsome 4).1.2 (.inr (by decide))
  rw [hwhole] at hgives
  have hfail := hend (by decide)
  have hnever := hrepeated [1, 2, 1, 1, 1] (by decide) (by decide)
  rw [map_eq_pure_bind, PureStep.error_bind hfail] at hnever
  exact ⟨reader, hreached, rfl, hgives, (hsome 5).2 (by decide), hfail, hnever⟩

/-- Inside a byte, with one whole byte left: a read of two bytes does not give the one, and neither
does reading to the end. -/
theorem not_givesBytes_inside_byte :
    let data : Bytes := [0xAC, 0x0F]
    let left : Bits := (Bits.ofBytes data).drop 4
    ∃ reader, Reached (.ofBytes data) reader ∧ reader.position = 4 ∧ reader.bits = left ∧
      left.wholeBytes = [0xC0] ∧
      ¬GivesBytes (readSome 2) (left.wholeBytes.take 2) reader ∧
      ¬GivesBytes readToEnd left.wholeBytes reader := by
  intro data left
  let reader : BitReader := ⟨.ofBytes [0x0F], [true, true, false, false], 4⟩
  have hreached : Reached (.ofBytes data) reader := Reached.start.step (composed_readBits 4) rfl
  have hsome : readSome 2 reader = .error .outOfData := rfl
  have hend : readToEnd reader = .error .outOfData := rfl
  exact ⟨reader, hreached, rfl, rfl, by decide, fun h => h.ne_outOfData hsome,
    fun h => h.ne_outOfData hend⟩

end BitReader

end H266
