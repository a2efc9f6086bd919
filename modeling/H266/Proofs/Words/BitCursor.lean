import H266.Proofs.BitCursor
import H266.Proofs.Words.Bytes
import H266.Proofs.Words.NalUnitHeader

/-!
# A Reader in Words as a Cursor

A machine keeps more than a place in a list of bits: the byte that was fetched last, of which all
bits may have been read, how many of them were, and in another word how many bits were read in all.
These agree whatever is asked for in whatever order, and what is read is what a cursor reads that
moves along the bits of the data.

An operation may ask for more than there is, up to the largest word. It is then out of data like
any other that asks for too much, and the words that count do not overflow before that is found.

## Main results

* `BitReader.ReadOp.simulatesAt_runWords`: an operation in words.
* `BitReader.refines_cursor`: sequences of operations on plain and on escaped data.
-/

namespace H266

open PureStep WordM

/-! ### Operations -/

namespace BitReader.ReadOp

/-- Does on a reader in words what is asked for. -/
def runWords : ReadOp → WordM ItemValue
  | .bit => .flag <$> WordM.readBit
  | .number count => do
    let bits ← WordM.readBits (if count ≤ 64 then count else 64)
    return .number bits.toNat
  | .skip count => do
    WordM.skipBits count
    return .none
  | .align => do
    WordM.align
    return .none
  | .bytes count => .bytes <$> WordM.readBytes count
  | .integer count => .number <$> WordM.readBigEndian count

/-- The width of a field has its limit in words as in numbers: a minimum. -/
theorem toNat_clamped (count : UInt8) :
    (if count ≤ 64 then count else 64).toNat = min count.toNat 64 := by
  have hle : count ≤ 64 ↔ count.toNat ≤ 64 := Iff.rfl
  by_cases hsmall : count ≤ 64
  · rw [if_pos hsmall, Nat.min_eq_left (hle.1 hsmall)]
  · rw [if_neg hsmall, Nat.min_eq_right (Nat.le_of_not_le (mt hle.2 hsmall))]
    rfl

/-- An operation in words does what it does on unbounded numbers, as long as the bits that it takes
can be counted. An alignment takes most just behind a byte boundary. -/
theorem simulates_runWords (op : ReadOp) : Simulates (op.width 1) (· = ·) op.runWords op.run := by
  cases op with
  | bit => exact simulates_readBit.map fun _ _ => congrArg ItemValue.flag
  | number count =>
    have hclamped : BitReader.readBits (min count.toNat 64) = BitReader.readBits count.toNat := by
      rw [BitReader.readBits, BitReader.readBits, Nat.min_assoc, Nat.min_self]
    rw [run, ← hclamped, map_eq_pure_bind, ← Nat.zero_add (width 1 _)]
    refine (simulates_readBits (toNat_clamped count) (Nat.min_le_right _ _)).bind
      fun word value hword => ?_
    exact simulates_pure (congrArg ItemValue.number hword.1)
  | skip count =>
    rw [← Nat.zero_add (width 1 _)]
    exact (skips_skipBits rfl).seq (simulates_pure rfl)
  | align =>
    rw [← Nat.zero_add (width 1 _)]
    exact simulates_align.seq (simulates_pure rfl)
  | bytes count => exact (simulates_readBytes rfl).map fun _ _ => congrArg ItemValue.bytes
  | integer count => exact (simulates_readBigEndian rfl).map fun _ _ => congrArg ItemValue.number

end BitReader.ReadOp

/-! ### More than there is -/

/-- Whether a reader can count all bits that are left, with those of a number to spare. -/
def WordReader.CountsAll (reader : WordReader) : Prop :=
  reader.HasRoom (reader.view.bits.length + 64)

/-- What a reader has read of its bits it has counted. -/
theorem WordReader.CountsAll.advances {reader reader' : WordReader} {taken : Bits}
    (h : reader.CountsAll) (hadvance : reader.view.Advances taken reader'.view) :
    reader'.CountsAll := by
  have hposition : reader'.consumed.toNat = reader.consumed.toNat + taken.length :=
    hadvance.position_eq
  have hlength := congrArg List.length hadvance.bits_eq
  rw [List.length_append] at hlength
  rw [CountsAll, HasRoom] at h ⊢
  omega

/-- Bytes that are put together bit by bit are out of data if there are not so many. -/
theorem collectAfter_of_short {reader : WordReader} {done : Bytes} {count : Nat}
    (hv : reader.view.Valid) (hroom : reader.CountsAll)
    (hfew : reader.view.bits.length < 8 * count) :
    collectAfter done count (readBitsAfter 0 8) reader = .error (.refused .outOfData) := by
  induction count generalizing reader done with
  | zero => exact absurd hfew (Nat.not_lt_zero _)
  | succ count ih =>
    obtain ⟨herror, hok⟩ := simulates_readByteBits reader (hroom.mono (by omega))
    by_cases hfirst : reader.view.bits.length < 8
    · exact error_bind (herror _ (BitReader.needsBits_readBits 8 _ hv hfirst))
    · have hsplit := (List.take_append_drop 8 reader.view.bits).symm
      have hlength := List.length_take_of_le (Nat.le_of_not_lt hfirst)
      have hreads := @BitReader.reads_readBits (reader.view.bits.take 8) (by omega)
      rw [hlength] at hreads
      obtain ⟨last, hspec, hadvance⟩ := hreads reader.view _ hv hsplit
      obtain ⟨byte, reader', hstep, -, rfl, -⟩ := hok _ last hspec
      rw [collectAfter, ok_bind hstep]
      refine ih (hadvance.valid hv) (hroom.advances hadvance) ?_
      rw [hadvance.rest_eq hsplit, List.length_drop]
      omega

/-- Bytes are out of data to be read if there are not so many. -/
theorem readBytes_of_short {reader : WordReader} {count : USize} (hv : reader.view.Valid)
    (hroom : reader.CountsAll) (hfew : reader.view.bits.length < 8 * count.toNat) :
    readBytes count reader = .error (.refused .outOfData) := by
  rw [readBytes, get_bind]
  by_cases hboundary : reader.bitPos = 0
  · have hbytes : 8 * min count.toNat reader.source.contents.length ≤ reader.view.bits.length := by
      rw [BitReader.bits, List.length_append, Bits.length_ofBytes]
      exact Nat.le_add_left_of_le (Nat.mul_le_mul_left 8 (Nat.min_le_right _ _))
    rw [if_pos hboundary]
    exact (simulatesAt_takeBytes hboundary (hroom.mono (Nat.le_add_right_of_le hbytes))).1 _
      (BitReader.needsBits_readBytes _ _ hv hfew)
  · rw [if_neg hboundary]
    exact collectAfter_of_short hv hroom hfew

/-- Whole bytes are skipped up to the block that is not there. -/
theorem skipWholeBytes_of_short {reader : WordReader} {rounds : Nat} {remaining : UInt64}
    (hrounds : remaining.toNat < rounds) (hboundary : reader.bitPos = 0)
    (hroom : reader.HasRoom (8 * reader.source.contents.length))
    (hfew : reader.source.contents.length < remaining.toNat / 8) :
    skipWholeBytes rounds remaining reader = .error (.refused .outOfData) := by
  induction rounds generalizing reader remaining with
  | zero => exact absurd hrounds (Nat.not_lt_zero _)
  | succ rounds ih =>
    have haligned := isAligned_view.2 hboundary
    have hmore : 8 ≤ remaining := show 8 ≤ remaining.toNat by omega
    have hblock := toNat_blockSize remaining
    rw [skipWholeBytes, if_pos hmore]
    generalize blockSize remaining = count at hblock ⊢
    rw [takeBlock_eq (by omega)]
    obtain ⟨herror, hok⟩ := simulatesAt_takeBytes hboundary
      (hroom.mono (Nat.mul_le_mul_left 8 (Nat.min_le_right count.toNat _)))
    by_cases hfirst : reader.source.contents.length < count.toNat
    · exact error_bind (error_bind (herror _ (BitReader.readBytes_of_length_lt haligned hfirst)))
    · obtain ⟨source, -, hrest, hspec⟩ := readBytes_of_le haligned (Nat.le_of_not_lt hfirst)
      obtain ⟨_, reader', hstep, -, hview, hconsumed⟩ := hok _ _ hspec
      have hboundary' : reader'.bitPos = 0 := isAligned_view.1 (hview ▸ haligned)
      have hlength : reader'.source.contents.length =
          reader.source.contents.length - count.toNat := by
        rw [show reader'.source = source from congrArg BitReader.source hview, hrest]
        exact List.length_drop
      obtain ⟨left, hvalue, hnext⟩ :=
        exists_remaining (show 8 * count.toNat ≤ remaining.toNat by omega)
      rw [hnext, bind_assoc, ok_bind hstep, pure_bind]
      refine ih (by omega) hboundary' ?_ (by omega)
      rw [WordReader.HasRoom] at hroom ⊢
      omega

/-- Bits are out of data to be skipped if there are not so many. -/
theorem skipBits_of_short {reader : WordReader} {count : UInt64} (hv : reader.view.Valid)
    (hroom : reader.CountsAll) (hfew : reader.view.bits.length < count.toNat) :
    skipBits count reader = .error (.refused .outOfData) := by
  have hpending := hv.pending_lt
  have hbits : reader.view.bits.length =
      reader.view.pending.length + 8 * reader.source.contents.length := by
    rw [BitReader.bits, List.length_append, Bits.length_ofBytes]
    rfl
  have hall : min count.toNat reader.view.pending.length = reader.view.pending.length := by omega
  have hskip : SimulatesAt reader _ _ (skipToBoundary 8 count) (BitReader.readBitsAfter 0 _) :=
    simulatesAt_skipToBoundary hpending (hroom.mono (by omega))
  rw [hall] at hskip
  -- What is left of the current byte comes first, and the cursor is at a byte boundary then.
  obtain ⟨high, hread⟩ :
      ∃ high, BitReader.readBitsAfter 0 reader.view.pending.length reader.view = .ok (high, _) :=
    readBitsAfter_of_le_pending (Nat.le_refl _)
  obtain ⟨left, reader', hstep, hleft, hview, -⟩ := hskip.2 _ _ hread
  have haligned : reader'.view.isAligned = true := by
    rw [hview, BitReader.isAligned, List.isEmpty_iff]
    exact List.drop_length
  have hboundary := isAligned_view.1 haligned
  have hlength : reader'.source.contents.length = reader.source.contents.length :=
    congrArg (fun place => place.source.contents.length) hview
  have hposition : reader'.consumed.toNat =
      reader.consumed.toNat + reader.view.pending.length := congrArg BitReader.position hview
  have hroom' : reader'.HasRoom (8 * reader'.source.contents.length + 64) := by
    rw [WordReader.CountsAll, WordReader.HasRoom] at hroom
    rw [WordReader.HasRoom]
    omega
  rw [skipBits, ok_bind hstep]
  by_cases hwhole : reader'.source.contents.length < left.toNat / 8
  · exact error_bind (skipWholeBytes_of_short (Nat.lt_succ_self _) hboundary
      (hroom'.mono (Nat.le_add_right _ _)) hwhole)
  · -- All whole bytes are there, but no bit behind them.
    obtain ⟨source, -, hrest, hspec⟩ := readBytes_of_le haligned (Nat.le_of_not_lt hwhole)
    obtain ⟨last, reader'', hstep', hlast, hview', -⟩ :=
      (simulatesAt_skipWholeBytes (Nat.lt_succ_self _) hboundary
        (hroom'.mono (by omega))).2 _ _ hspec
    have hempty : reader''.view.bits = [] := by
      rw [hview', BitReader.bits, List.isEmpty_iff.1 haligned, hrest, List.drop_eq_nil_of_le]
      · rfl
      · show reader'.source.contents.length ≤ left.toNat / 8
        omega
    have hcounted : reader''.consumed.toNat = reader'.consumed.toNat + 8 * (left.toNat / 8) :=
      congrArg BitReader.position hview'
    have hroom'' : reader''.HasRoom 1 := by
      rw [WordReader.HasRoom] at hroom' ⊢
      omega
    obtain ⟨more, hmore⟩ : ∃ more, last.toNat = more + 1 :=
      Nat.exists_eq_succ_of_ne_zero (by omega)
    rw [ok_bind hstep', hmore]
    exact error_bind (error_bind
      ((simulates_readBit reader'' hroom'').1 _ (BitReader.readBit_of_bits_nil hempty)))

/-! ### Any number of bits -/

namespace BitReader.ReadOp

/-- An operation in words is out of data if it asks for more than can be counted. -/
theorem runWords_of_not_hasRoom {op : ReadOp} {reader : WordReader} (hv : reader.view.Valid)
    (hroom : reader.CountsAll) (h : ¬reader.HasRoom (op.width 1)) :
    op.runWords reader = .error (.refused .outOfData) ∧
      op.run reader.view = .error .outOfData := by
  have hfew : reader.view.bits.length + 64 < op.width 1 := by
    rw [WordReader.CountsAll, WordReader.HasRoom] at hroom
    rw [WordReader.HasRoom] at h
    omega
  have hmore : reader.view.bits.length < op.width 1 :=
    Nat.lt_of_le_of_lt (Nat.le_add_right _ _) hfew
  cases op with
  | skip count =>
    exact ⟨error_bind (skipBits_of_short hv hroom hmore), run_eq_error hv hmore⟩
  | bytes count =>
    refine ⟨?_, run_eq_error hv hmore⟩
    rw [runWords, map_eq_pure_bind]
    exact error_bind (readBytes_of_short hv hroom hmore)
  | integer count =>
    refine ⟨?_, run_eq_error hv hmore⟩
    rw [runWords, WordM.readBigEndian, map_eq_pure_bind, map_eq_pure_bind]
    exact error_bind (error_bind (readBytes_of_short hv hroom hmore))
  | bit | number count | align =>
    rw [width] at hfew
    omega

/-- An operation in words does what it does on unbounded numbers, also if it asks for more than
there is. -/
theorem simulatesAt_runWords (op : ReadOp) {reader : WordReader} (hv : reader.view.Valid)
    (hroom : reader.CountsAll) :
    SimulatesAt reader (op.width 1) (· = ·) op.runWords op.run := by
  by_cases hfits : reader.HasRoom (op.width 1)
  · exact simulates_runWords op reader hfits
  · obtain ⟨hwords, hrun⟩ := runWords_of_not_hasRoom hv hroom hfits
    rw [SimulatesAt, hrun]
    refine ⟨fun _ heq => ?_, fun _ _ heq => (by cases heq)⟩
    cases heq
    exact hwords

end BitReader.ReadOp

/-! ### Sequences -/

namespace BitReader

variable {bits : Bits} {reader : WordReader}

/-- A reader in words that stands in a list of bits can count all of them if they are few enough. -/
theorem StandsIn.countsAll (h : reader.view.StandsIn bits) (hcount : bits.length + 64 < 2 ^ 64) :
    reader.CountsAll := by
  have hlength : reader.consumed.toNat + reader.view.bits.length = bits.length := h.length_bits
  show reader.consumed.toNat + (reader.view.bits.length + 64) < 2 ^ 64
  omega

/-- One operation on machine words is the operation on the bits, where no counter can overflow. -/
theorem StandsIn.runWords_eq (h : reader.view.StandsIn bits) (hcount : bits.length + 64 < 2 ^ 64)
    (op : ReadOp) :
    (op.runWords reader).map (Prod.map id WordReader.view) =
      (op.run reader.view).mapError Stop.refused :=
  (ReadOp.simulatesAt_runWords op h.valid (h.countsAll hcount)).run_eq

/-- A reader in words stays in the list. -/
theorem StandsIn.of_runWords_eq_ok (h : reader.view.StandsIn bits)
    (hcount : bits.length + 64 < 2 ^ 64) {op : ReadOp} {value : ItemValue} {reader' : WordReader}
    (hrun : op.runWords reader = .ok (value, reader')) : reader'.view.StandsIn bits := by
  have heq := h.runWords_eq hcount op
  rw [hrun] at heq
  cases hspec : op.run reader.view with
  | error error =>
    rw [hspec] at heq
    cases heq
  | ok result =>
    rw [hspec] at heq
    cases heq
    exact h.of_run_eq_ok hspec

/-- The bits of a byte that were read and those that were read in all agree. -/
theorem Valid.bitPos_eq (hv : reader.view.Valid) :
    reader.bitPos.toNat = reader.consumed.toNat % 8 := by
  have hlt := reader.bitPos_lt
  have hpending : reader.view.pending.length = (8 - reader.bitPos.toNat) % 8 :=
    Bits.length_ofNat _ _
  have hboundary : (reader.consumed.toNat + reader.view.pending.length) % 8 = 0 := hv.boundary
  omega

/-- Sequences of operations in words give what they give on the list of bits. -/
theorem StandsIn.mapM_runWords_eq (h : reader.view.StandsIn bits)
    (hcount : bits.length + 64 < 2 ^ 64) (ops : List ReadOp) :
    (ops.mapM ReadOp.runWords reader).map (Prod.map id fun reader => reader.consumed.toNat) =
      (ops.mapM (ReadOp.onBits bits) reader.consumed.toNat).mapError Stop.refused := by
  have hview := mapM_map_eq (fun op _ hop => StandsIn.runWords_eq hop hcount op)
    (fun _ _ _ _ hop hrun => StandsIn.of_runWords_eq_ok hop hcount hrun) ops h
  calc (ops.mapM ReadOp.runWords reader).map (Prod.map id fun reader => reader.consumed.toNat)
      = ((ops.mapM ReadOp.runWords reader).map (Prod.map id WordReader.view)).map
          (Prod.map id position) := by cases ops.mapM ReadOp.runWords reader <;> rfl
    _ = ((ops.mapM ReadOp.run reader.view).map (Prod.map id position)).mapError
          Stop.refused := by rw [hview]; cases ops.mapM ReadOp.run reader.view <;> rfl
    _ = (ops.mapM (ReadOp.onBits bits) reader.consumed.toNat).mapError Stop.refused := by
      rw [h.mapM_run_eq ops]
      rfl

/-- **A reader is a cursor**: in any sequence of operations, on a byte string as it is or without
its emulation prevention bytes, it gives the values that one list of bits has at the places that
the operations take in turn, it has read as many bits, and the first operation that finds too few
of them fails for want of data. So escaped data is read as the data that it stands for. Wherever
a sequence ends, the next byte boundary is reached without failing, and skipping bits is reading
as many one by one. The same holds of the reader that a machine keeps in words, as long as it can
count the bits of the data. -/
theorem refines_cursor (escaped : Bool) (data : Bytes) (ops : List ReadOp) :
    let source := ByteSource.ofStored escaped data
    let payload := if escaped then ByteSource.unescapeAfter 0 data else data
    let result := ops.mapM (ReadOp.onBits (Bits.ofBytes payload)) 0
    (ops.mapM ReadOp.run (.ofSource source)).map (Prod.map id position) = result ∧
    (ops.mapM ReadOp.run (.ofBytes payload)).map (Prod.map id position) = result ∧
    (∀ values reader, ops.mapM ReadOp.run (.ofSource source) = .ok (values, reader) →
      reader.bitOffset = reader.position % 8 ∧
      (reader.isAligned = true ↔ reader.bitOffset = 0) ∧
      (∃ reader', align reader = .ok ((), reader') ∧
        reader'.position = (reader.position + 7) / 8 * 8) ∧
      ∀ count, skipBits count reader = skipTimes count skipFlag reader) ∧
    (8 * payload.length + 64 < 2 ^ 64 →
      (ops.mapM ReadOp.runWords (.ofSource source)).map
          (Prod.map id fun reader => reader.consumed.toNat) = result.mapError Stop.refused ∧
      ∀ values reader, ops.mapM ReadOp.runWords (.ofSource source) = .ok (values, reader) →
        reader.bitPos.toNat = reader.consumed.toNat % 8) := by
  intro source payload result
  have hstands := standsIn_ofSource source
  rw [show source.contents = payload from ByteSource.contents_ofStored_eq escaped data] at hstands
  refine ⟨hstands.mapM_run_eq ops, (standsIn_ofSource (.ofBytes payload)).mapM_run_eq ops,
    fun values reader hrun => ?_, fun hcount => ?_⟩
  · have hreader := hstands.of_mapM_run_eq_ok hrun
    exact ⟨rfl, hreader.valid.isAligned_iff, hreader.valid.exists_align,
      skipBits_eq_skipTimes hreader.valid⟩
  · have hwords : (WordReader.ofSource source).view.StandsIn (Bits.ofBytes payload) :=
      WordReader.view_ofSource source ▸ hstands
    rw [← Bits.length_ofBytes] at hcount
    exact ⟨hwords.mapM_runWords_eq hcount ops, fun values reader hrun => Valid.bitPos_eq
      (inv_of_mapM_eq_ok (fun _ _ _ _ hop hstep => StandsIn.of_runWords_eq_ok hop hcount hstep)
        hwords hrun).valid⟩

/-- Two bytes that begin inside a byte, and an integer behind an alignment, with an emulation
prevention byte in front of what is skipped. -/
theorem refines_cursor_escaped_bytes :
    let data : Bytes := [0x47, 0, 0, 3, 1, 0xA5, 0x3C, 0, 0, 3, 2]
    let ops : List ReadOp := [.number 3, .bytes 2, .skip 9, .align, .integer 2, .number 8]
    8 * (ByteSource.unescapeAfter 0 data).length + 64 < 2 ^ 64 ∧
    (ops.mapM ReadOp.runWords (.ofSource (.ofStored true data))).map
        (Prod.map id fun reader => reader.consumed.toNat) =
      .ok ([.number 2, .bytes [0x38, 0], .none, .none, .number 0xA53C, .number 0], 56) := by
  intro data ops
  have hcount : 8 * (ByteSource.unescapeAfter 0 data).length + 64 < 2 ^ 64 := by decide
  refine ⟨hcount, ((refines_cursor true data ops).2.2.2 hcount).1.trans ?_⟩
  rw [show (if true = true then ByteSource.unescapeAfter 0 data else data) =
    [0x47, 0, 0, 1, 0xA5, 0x3C, 0, 0, 2] from rfl]
  -- How wide the words for sizes are is left open, but this number fits any of them.
  have hwidth : 8 * (2 : USize).toNat = 16 := congrArg (8 * ·) (Word.toNat_index 2 (by decide))
  simp only [ops, List.mapM_cons, List.mapM_nil]
  unfold ReadOp.onBits
  simp only [ReadOp.width, hwidth]
  rfl

end BitReader

end H266
