import H266.Proofs.SelfDelimiting
import H266.Proofs.Words.Reading

/-!
# Reading Bytes with Words

At a byte boundary bytes are taken off the source in one go; elsewhere they are put together bit by
bit. Bits are skipped up to a byte boundary first, then in blocks of up to 64 bytes, and the last
of them one by one.

## Main results

* `simulates_align`: moving on to a byte boundary.
* `simulates_readBytes`, `simulates_readUInt8`, `simulates_readUInt16`, `simulates_readUInt32`:
  bytes and integers of bytes.
* `skips_skipBits`: bits that are skipped.
-/

namespace H266

open PureStep

namespace WordM

/-! ### Steps -/

/-- Moves on to the next byte boundary, if the cursor is not at one. -/
def align : WordM Unit := do
  let reader ← get
  if reader.bitPos ≠ 0 then
    let left ← Word.sub 8 reader.bitPos
    let passed ← Word.convert left
    let consumed ← Word.add reader.consumed passed
    set (reader.moveTo 0 consumed)

/-- Counts bytes that were taken off the source in one go. -/
def takeBytes (count : Nat) : WordM Bytes := do
  let reader ← get
  let (bytes, source) := reader.source.take count
  let length ← Word.exactly .truncation bytes.length
  let bits ← Word.mul length 8
  let consumed ← Word.add reader.consumed bits
  set { reader with source := source, consumed := consumed }
  if bytes.length < count then
    refuse .outOfData
  return bytes

/-- Reads `count` bytes, off a byte boundary bit by bit. -/
def readBytes (count : USize) : WordM Bytes := do
  if (← get).bitPos = 0 then
    takeBytes count.toNat
  else
    collect count.toNat (readBitsAfter 0 8)

/-- Reads a big-endian integer of `count` bytes. -/
def readBigEndian (count : USize) : WordM Nat :=
  Bytes.toNat <$> readBytes count

/-- Reads an integer of one byte. -/
def readUInt8 : WordM UInt8 :=
  UInt8.ofNat <$> readBigEndian 1

/-- Reads an integer of two bytes. -/
def readUInt16 : WordM UInt16 :=
  UInt16.ofNat <$> readBigEndian 2

/-- Reads an integer of four bytes. -/
def readUInt32 : WordM UInt32 :=
  UInt32.ofNat <$> readBigEndian 4

/-- Skips bits up to a byte boundary, but no more than `remaining`, and returns how many remain
to be skipped. -/
def skipToBoundary : (rounds : Nat) → (remaining : UInt64) → WordM UInt64
  | 0, _ => throw .overrun
  | rounds + 1, remaining => do
    if 0 < remaining ∧ (← get).bitPos ≠ 0 then
      skipFlag
      let left ← Word.sub remaining 1
      skipToBoundary rounds left
    else
      return remaining

/-- How many bytes are skipped at once: whole ones, and no more than 64. -/
def blockSize (remaining : UInt64) : UInt64 :=
  if remaining / 8 ≤ 64 then remaining / 8 else 64

/-- Reads bytes into the first part of a block of 64. -/
def takeBlock (count : UInt64) : WordM Unit := do
  let bytes : USize ← Word.convert count
  if 64 < bytes.toNat then
    throw .outOfBounds
  let _ ← takeBytes bytes.toNat

/-- Skips whole bytes, block by block, and returns how many bits remain to be skipped. -/
def skipWholeBytes : (rounds : Nat) → (remaining : UInt64) → WordM UInt64
  | 0, _ => throw .overrun
  | rounds + 1, remaining => do
    if 8 ≤ remaining then
      takeBlock (blockSize remaining)
      let bits ← Word.mul (blockSize remaining) 8
      let left ← Word.sub remaining bits
      skipWholeBytes rounds left
    else
      return remaining

/-- Skips `count` bits. -/
def skipBits (count : UInt64) : WordM Unit := do
  let remaining ← skipToBoundary 8 count
  let remaining ← skipWholeBytes (remaining.toNat + 1) remaining
  times remaining.toNat skipFlag

end WordM

open WordM

/-! ### Byte boundaries -/

section

variable {reader : WordReader}

/-- At a byte boundary no bit of a byte was read. -/
theorem isAligned_view : reader.view.isAligned = true ↔ reader.bitPos = 0 := by
  have hlt := reader.bitPos_lt
  have hzero : reader.bitPos.toNat = 0 ↔ reader.bitPos = 0 :=
    ⟨fun h => UInt8.toNat_inj.1 h, fun h => congrArg UInt8.toNat h⟩
  rw [BitReader.isAligned, List.isEmpty_iff, ← List.length_eq_zero_iff, WordReader.view,
    Bits.length_ofNat, ← hzero]
  omega

end

/-- Up to seven bits are skipped to reach the next byte boundary. -/
theorem simulates_align : Skips 7 align BitReader.align := by
  intro reader hroom
  have hlt := reader.bitPos_lt
  have hspec : BitReader.align reader.view = .ok ((), ⟨reader.source, [],
      reader.consumed.toNat + (8 - reader.bitPos.toNat) % 8⟩) := by
    rw [← Bits.length_ofNat ((8 - reader.bitPos.toNat) % 8) reader.current.toNat]
    rfl
  rw [align, SimulatesAt, get_bind, hspec]
  refine ⟨fun _ heq => (by cases heq), fun value last heq => ?_⟩
  cases heq
  by_cases hboundary : reader.bitPos = 0
  · have hzero : reader.bitPos.toNat = 0 := congrArg UInt8.toNat hboundary
    rw [if_neg (not_not_intro hboundary), hzero]
    exact ⟨(), reader, rfl, trivial, WordReader.view_of_bitPos_eq_zero hboundary,
      Nat.le_add_right _ _⟩
  · have hpositive : reader.bitPos.toNat ≠ 0 := fun h => hboundary (UInt8.toNat_inj.1 h)
    rw [if_pos hboundary]
    obtain ⟨left, hleft, hleftNat⟩ :=
      Word.computes_sub (show Word.toNat reader.bitPos ≤ Word.toNat (8 : UInt8) from
        Nat.le_of_lt hlt)
    obtain ⟨passed, hpassed, hpassedNat⟩ : Computes (Word.convert left : WordM UInt64) _ :=
      Word.computes_convert (Nat.lt_trans (Word.toNat_lt left) (by decide))
    have hvalue : passed.toNat = 8 - reader.bitPos.toNat := hpassedNat.trans hleftNat
    have hsum : Word.toNat reader.consumed + Word.toNat passed < Word.size UInt64 := by
      refine Nat.lt_of_le_of_lt (Nat.add_le_add_left ?_ _) hroom
      show passed.toNat ≤ 7
      omega
    obtain ⟨consumed, hconsumed, hconsumedNat⟩ := Word.computes_add hsum
    have htotal : consumed.toNat = reader.consumed.toNat + (8 - reader.bitPos.toNat) :=
      hconsumedNat.trans (congrArg _ hvalue)
    refine ⟨(), reader.moveTo 0 consumed, ?_, trivial, ?_, ?_⟩
    · simp only [hleft, hpassed, hconsumed, pure_bind]
      rfl
    · have hmoved : (0 % 8 : UInt8) = 0 := by decide
      have hboundary' : (reader.moveTo 0 consumed).bitPos = 0 := hmoved
      rw [WordReader.view_of_bitPos_eq_zero hboundary',
        Nat.mod_eq_of_lt (by omega : 8 - reader.bitPos.toNat < 8), ← htotal]
      rfl
    · show consumed.toNat ≤ _
      omega

/-! ### Bytes -/

/-- At a byte boundary the bytes come off the source, if it has so many. -/
theorem readBytes_of_le {reader : BitReader} {count : Nat} (haligned : reader.isAligned = true)
    (h : count ≤ reader.source.contents.length) :
    ∃ source, reader.source.Gives (reader.source.contents.take count) source ∧
      source.contents = reader.source.contents.drop count ∧
      BitReader.readBytes count reader = .ok (reader.source.contents.take count,
        { reader with source := source, position := reader.position + 8 * count }) := by
  obtain ⟨source, hgives, hrest⟩ :=
    ByteSource.exists_gives (List.take_append_drop count reader.source.contents).symm
  have hbytes := BitReader.readBytes_of_gives haligned hgives
  rw [List.length_take_of_le h] at hbytes
  exact ⟨source, hgives, hrest, hbytes⟩

section

variable {reader : WordReader} {count : Nat}

/-- The bytes that were taken off the source are counted, and are refused if they are too few. -/
theorem takeBytes_eq (hroom : reader.HasRoom (8 * (reader.source.take count).1.length)) :
    ∃ consumed : UInt64,
      consumed.toNat = reader.consumed.toNat + 8 * (reader.source.take count).1.length ∧
      takeBytes count reader =
        (if (reader.source.take count).1.length < count then throw (.refused .outOfData)
          else pure (reader.source.take count).1 : WordM Bytes)
        { reader with source := (reader.source.take count).2, consumed := consumed } := by
  rw [WordReader.HasRoom] at hroom
  have hlt : (reader.source.take count).1.length < Word.size UInt64 :=
    Nat.lt_of_le_of_lt (by omega) hroom
  have hcounted : Computes
      (Word.exactly .truncation (reader.source.take count).1.length : WordM UInt64)
      fun length => Word.toNat length = (reader.source.take count).1.length :=
    Word.computes_exactly hlt
  obtain ⟨length, hlength, hlengthNat⟩ := hcounted
  have hproduct : Word.toNat length * Word.toNat (8 : UInt64) =
      8 * (reader.source.take count).1.length := by
    rw [hlengthNat, Nat.mul_comm]
    rfl
  obtain ⟨bits, hbits, hbitsNat⟩ := Word.computes_mul (a := length) (b := (8 : UInt64))
    (hproduct ▸ Nat.lt_of_le_of_lt (by omega) hroom)
  rw [hproduct] at hbitsNat
  have hsum : Word.toNat reader.consumed + Word.toNat bits < Word.size UInt64 := by
    rw [hbitsNat]
    exact hroom
  obtain ⟨consumed, hconsumed, hconsumedNat⟩ := Word.computes_add hsum
  refine ⟨consumed, hconsumedNat.trans (congrArg _ hbitsNat), ?_⟩
  rw [takeBytes, get_bind]
  simp only [hlength, hbits, hconsumed, pure_bind]
  by_cases hfew : (reader.source.take count).1.length < count
  · rw [if_pos hfew, if_pos hfew]
    rfl
  · rw [if_neg hfew, if_neg hfew]
    rfl

/-- Bytes that are counted in words were taken off the source, if it has had so many. It does not
matter how many were asked for. -/
theorem simulatesAt_takeBytes (hboundary : reader.bitPos = 0)
    (hroom : reader.HasRoom (8 * min count reader.source.contents.length)) :
    SimulatesAt reader (8 * count) (· = ·) (takeBytes count) (BitReader.readBytes count) := by
  have haligned := isAligned_view.2 hboundary
  have htaken : (reader.source.take count).1.length = min count reader.source.contents.length := by
    rw [ByteSource.fst_take, List.length_take]
  obtain ⟨consumed, hconsumed, htake⟩ := @takeBytes_eq reader count (htaken ▸ hroom)
  by_cases hlength : reader.source.contents.length < count
  · have hfew : (reader.source.take count).1.length < count := by omega
    rw [if_pos hfew] at htake
    rw [SimulatesAt, BitReader.readBytes_of_length_lt haligned hlength]
    refine ⟨fun _ heq => ?_, fun _ _ heq => (by cases heq)⟩
    cases heq
    exact htake
  · obtain ⟨source, hgives, -, hspec⟩ := readBytes_of_le haligned (Nat.le_of_not_lt hlength)
    have hcount : (reader.source.contents.take count).length = count :=
      List.length_take_of_le (Nat.le_of_not_lt hlength)
    have hsource : reader.source.take count = (reader.source.contents.take count, source) := by
      have htake := hgives.take_eq
      rwa [show reader.view.source = reader.source from rfl, hcount] at htake
    rw [hsource, hcount] at hconsumed
    rw [hsource, if_neg (by rw [hcount]; exact Nat.lt_irrefl _)] at htake
    rw [SimulatesAt, hspec]
    refine ⟨fun _ heq => (by cases heq), fun value last heq => ?_⟩
    cases heq
    refine ⟨_, _, htake, rfl, ?_, Nat.le_of_eq hconsumed⟩
    rw [WordReader.view_of_bitPos_eq_zero hboundary, ← hconsumed]
    exact WordReader.view_of_bitPos_eq_zero hboundary

end

/-- Eight bits are collected in a byte. -/
theorem simulates_readByteBits :
    Simulates 8 (IsNumber 8) (readBitsAfter (0 : UInt8) 8) (BitReader.readBits 8) :=
  simulates_readBitsAfter (by decide) (show Word.toNat (0 : UInt8) < 2 ^ 0 by decide) (by decide)

/-- Inside a byte, bytes are read bit by bit behind those that were read before. -/
theorem simulates_readUnalignedAfter (taken : Bytes) (count : Nat) :
    Simulates (count * 8) (fun word value => word = value ∧ value.length = taken.length + count)
      (collectAfter taken.reverse count (readBitsAfter 0 8))
      (BitReader.readUnalignedAfter taken count) := by
  induction count generalizing taken with
  | zero => exact simulates_pure ⟨rfl, List.length_reverse⟩
  | succ count ih =>
    rw [Nat.succ_mul]
    refine simulates_readByteBits.bind fun byte value hvalue => ?_
    obtain ⟨rfl, -⟩ := hvalue
    have hsame : UInt8.ofNat (Word.toNat byte) = byte := UInt8.ofNat_toNat
    have hnext := ih (byte :: taken)
    rw [List.reverse_cons, List.length_cons, Nat.succ_add_eq_add_succ] at hnext
    rwa [hsame]

/-- Bytes are read, in one go or bit by bit. -/
theorem simulates_readBytes {count : USize} {countNat : Nat} (hcount : count.toNat = countNat) :
    Simulates (8 * countNat) (· = ·) (readBytes count) (BitReader.readBytes countNat) := by
  subst hcount
  intro reader hroom
  rw [readBytes, SimulatesAt, get_bind]
  by_cases hboundary : reader.bitPos = 0
  · rw [if_pos hboundary]
    exact simulatesAt_takeBytes hboundary (hroom.mono (Nat.mul_le_mul_left 8 (Nat.min_le_left _ _)))
  · rw [if_neg hboundary, BitReader.readBytes_of_not_isAligned (mt isAligned_view.1 hboundary)]
    have hspec : Simulates (count.toNat * 8) (· = ·) (collect count.toNat (readBitsAfter 0 8))
        (do
          let bytes ← BitReader.readUnalignedAfter [] count.toNat
          if bytes.length < count.toNat then throw .outOfData
          return bytes : ReadM Bytes) := by
      rw [← bind_pure (collect _ _), ← Nat.zero_add (count.toNat * 8)]
      refine (simulates_readUnalignedAfter [] count.toNat).bind fun bytes _ hbytes => ?_
      obtain ⟨rfl, hlength⟩ := hbytes
      rw [List.length_nil, Nat.zero_add] at hlength
      rw [if_neg (Nat.not_lt.2 (Nat.le_of_eq hlength.symm))]
      exact simulates_pure rfl
    rw [Nat.mul_comm] at hroom ⊢
    exact hspec reader hroom

/-- A big-endian integer is made of bytes. -/
theorem simulates_readBigEndian {count : USize} {countNat : Nat}
    (hcount : count.toNat = countNat) :
    Simulates (8 * countNat) (· = ·) (readBigEndian count) (BitReader.readBigEndian countNat) :=
  (simulates_readBytes hcount).map fun _ _ => congrArg _

/-- An integer of one byte. -/
theorem simulates_readUInt8 : Simulates 8 (· = ·) readUInt8 BitReader.readUInt8 :=
  (simulates_readBigEndian (Word.toNat_index 1 (by decide))).map fun _ _ => congrArg _

/-- An integer of two bytes. -/
theorem simulates_readUInt16 : Simulates 16 (· = ·) readUInt16 BitReader.readUInt16 :=
  (simulates_readBigEndian (Word.toNat_index 2 (by decide))).map fun _ _ => congrArg _

/-- An integer of four bytes. -/
theorem simulates_readUInt32 : Simulates 32 (· = ·) readUInt32 BitReader.readUInt32 :=
  (simulates_readBigEndian (Word.toNat_index 4 (by decide))).map fun _ _ => congrArg _

/-! ### Skipping -/

/-- The bits that are left of a byte can be read. -/
theorem readBitsAfter_of_le_pending {reader : BitReader} {high count : Nat}
    (h : count ≤ reader.pending.length) :
    ∃ value, BitReader.readBitsAfter high count reader = .ok (value,
      ⟨reader.source, reader.pending.drop count, reader.position + count⟩) := by
  induction count generalizing high reader with
  | zero => exact ⟨high, rfl⟩
  | succ count ih =>
    obtain ⟨source, _ | ⟨bit, pending⟩, position⟩ := reader
    · exact absurd h (Nat.not_succ_le_zero count)
    · obtain ⟨value, hvalue⟩ : ∃ value, BitReader.readBitsAfter (2 * high + bit.toNat) count
          ⟨source, pending, position + 1⟩ = .ok (value, _) := ih (Nat.le_of_succ_le_succ h)
      refine ⟨value, ?_⟩
      rw [Nat.add_comm count 1, ← Nat.add_assoc, Nat.add_comm 1 count]
      exact hvalue

/-- Bytes at a byte boundary can be read in two parts. -/
theorem readBytes_add {reader : BitReader} (haligned : reader.isAligned = true) (a b : Nat) :
    BitReader.readBytes (a + b) reader =
      (do
        let first ← BitReader.readBytes a
        let second ← BitReader.readBytes b
        return first ++ second : ReadM Bytes) reader := by
  by_cases hfirst : reader.source.contents.length < a
  · have hboth : reader.source.contents.length < a + b :=
      Nat.lt_of_lt_of_le hfirst (Nat.le_add_right a b)
    rw [BitReader.readBytes_of_length_lt haligned hboth,
      error_bind (BitReader.readBytes_of_length_lt haligned hfirst)]
  · obtain ⟨middle, hgives, hmiddle, hstep⟩ := readBytes_of_le haligned (Nat.le_of_not_lt hfirst)
    have haligned' : BitReader.isAligned ⟨middle, reader.pending, reader.position + 8 * a⟩ = true :=
      haligned
    rw [ok_bind hstep]
    by_cases hsecond : middle.contents.length < b
    · have hshort : reader.source.contents.length < a + b := by
        rw [hmiddle, List.length_drop] at hsecond
        omega
      rw [BitReader.readBytes_of_length_lt haligned hshort,
        error_bind (BitReader.readBytes_of_length_lt haligned' hsecond)]
    · obtain ⟨last, hlast, -, hstep'⟩ := readBytes_of_le haligned' (Nat.le_of_not_lt hsecond)
      have hboth := BitReader.readBytes_of_gives haligned (hgives.append hlast)
      rw [List.length_append, List.length_take_of_le (Nat.le_of_not_lt hfirst),
        List.length_take_of_le (Nat.le_of_not_lt hsecond), Nat.mul_add, ← Nat.add_assoc] at hboth
      rw [hboth, ok_bind hstep']
      rfl

section

variable {reader : WordReader}

/-- The bits that are left of the current byte are skipped one by one. -/
theorem simulatesAt_skipToBoundary {rounds high : Nat} {remaining : UInt64}
    (hrounds : reader.view.pending.length < rounds)
    (hroom : reader.HasRoom (min remaining.toNat reader.view.pending.length)) :
    SimulatesAt reader (min remaining.toNat reader.view.pending.length)
      (fun left _ =>
        left.toNat = remaining.toNat - min remaining.toNat reader.view.pending.length)
      (skipToBoundary rounds remaining)
      (BitReader.readBitsAfter high (min remaining.toNat reader.view.pending.length)) := by
  induction rounds generalizing reader remaining high with
  | zero => exact absurd hrounds (Nat.not_lt_zero _)
  | succ rounds ih =>
    have hboundary : reader.bitPos = 0 ↔ reader.view.pending = [] := by
      rw [← isAligned_view, BitReader.isAligned, List.isEmpty_iff]
    have hpositive : 0 < remaining ↔ 0 < remaining.toNat := Iff.rfl
    rw [skipToBoundary, SimulatesAt, get_bind]
    by_cases hskip : 0 < remaining ∧ reader.bitPos ≠ 0
    · obtain ⟨bit, pending, hpending⟩ :=
        List.exists_cons_of_ne_nil (mt hboundary.2 hskip.2)
      have hsome := hpositive.1 hskip.1
      rw [hpending, List.length_cons] at hrounds hroom ⊢
      have hmin : min remaining.toNat (pending.length + 1) =
          min (remaining.toNat - 1) pending.length + 1 := by omega
      rw [hmin] at hroom ⊢
      rw [if_pos hskip]
      have hflag : Simulates 1 (fun _ _ => True) skipFlag BitReader.readBit :=
        simulates_readBit.andThen fun _ _ _ => computes_pure trivial
      refine SimulatesAt.bind hroom (Nat.le_refl _)
        (hflag reader (hroom.mono (Nat.le_add_left 1 _)))
        fun _ value reader' _ hspec hroom' => ?_
      simp only [BitReader.readBit, hpending] at hspec
      have hview := (Prod.mk.inj (Except.ok.inj hspec)).2
      have hpending' : reader'.view.pending = pending := (congrArg BitReader.pending hview).symm
      obtain ⟨left, hleft, hleftNat⟩ :=
        Word.computes_sub (show Word.toNat (1 : UInt64) ≤ Word.toNat remaining from hsome)
      have hvalue : left.toNat = remaining.toNat - 1 := hleftNat
      have hnext := @ih reader' (2 * high + value.toNat) left
      rw [hpending', hvalue] at hnext
      rw [hleft, pure_bind]
      refine (hnext (Nat.lt_of_succ_lt_succ hrounds) hroom').mono (Nat.le_refl _)
        fun last _ hlast => ?_
      omega
    · rw [if_neg hskip]
      have hnone : min remaining.toNat reader.view.pending.length = 0 := by
        by_cases hsome : 0 < remaining.toNat
        · have hempty : reader.view.pending = [] :=
            hboundary.1 (Classical.byContradiction fun h => hskip ⟨hsome, h⟩)
          rw [hempty]
          exact Nat.min_zero _
        · omega
      rw [hnone]
      exact simulatesAt_pure (Nat.sub_zero remaining.toNat).symm

/-- At a byte boundary no bytes can always be read. -/
theorem readBytes_zero {reader : BitReader} (haligned : reader.isAligned = true) :
    BitReader.readBytes 0 reader = .ok ([], reader) :=
  BitReader.readBytes_of_gives haligned (.nil reader.source)

/-- A block has the whole bytes that are left to skip, of which 64 at the most. -/
theorem toNat_blockSize (remaining : UInt64) :
    (blockSize remaining).toNat = min (remaining.toNat / 8) 64 := by
  have hdiv : (remaining / 8).toNat = remaining.toNat / 8 := UInt64.toNat_div remaining 8
  have hle : remaining / 8 ≤ 64 ↔ remaining.toNat / 8 ≤ 64 := by
    rw [← hdiv]
    exact UInt64.le_iff_toNat_le
  by_cases hsmall : remaining.toNat / 8 ≤ 64
  · rw [blockSize, if_pos (hle.2 hsmall), hdiv, Nat.min_eq_left hsmall]
  · rw [blockSize, if_neg (mt hle.1 hsmall), Nat.min_eq_right (Nat.le_of_not_le hsmall)]
    rfl

/-- A block has room for what is taken at once. -/
theorem takeBlock_eq {count : UInt64} (hcount : count.toNat ≤ 64) :
    takeBlock count = (do let _ ← takeBytes count.toNat) := by
  obtain ⟨bytes, hbytes, hbytesNat⟩ : Computes (Word.convert count : WordM USize) _ :=
    Word.computes_convert (Word.lt_size_index (Nat.lt_of_le_of_lt hcount (by decide)))
  have hvalue : bytes.toNat = count.toNat := hbytesNat
  rw [takeBlock, hbytes, pure_bind, hvalue, if_neg (Nat.not_lt.2 hcount)]

/-- A block of bytes is dropped. -/
theorem simulatesAt_takeBlock {count : UInt64} (hcount : count.toNat ≤ 64)
    (hboundary : reader.bitPos = 0) (hroom : reader.HasRoom (8 * count.toNat)) :
    SimulatesAt reader (8 * count.toNat) (fun _ _ => True) (takeBlock count)
      (BitReader.readBytes count.toNat) := by
  rw [takeBlock_eq hcount, ← bind_pure (BitReader.readBytes count.toNat)]
  exact .bind hroom (Nat.le_of_eq (Nat.zero_add _))
    (simulatesAt_takeBytes hboundary (hroom.mono (Nat.mul_le_mul_left 8 (Nat.min_le_left _ _))))
    fun _ _ _ _ _ _ => simulatesAt_pure trivial

/-- Whole bytes that were read at a byte boundary end at one. -/
theorem isAligned_of_readBytes {reader reader' : BitReader} {count : Nat} {bytes : Bytes}
    (haligned : reader.isAligned = true)
    (h : BitReader.readBytes count reader = .ok (bytes, reader')) : reader'.isAligned = true := by
  by_cases hlength : reader.source.contents.length < count
  · rw [BitReader.readBytes_of_length_lt haligned hlength] at h
    cases h
  · obtain ⟨source, -, -, hbytes⟩ := readBytes_of_le haligned (Nat.le_of_not_lt hlength)
    rw [h] at hbytes
    cases hbytes
    exact haligned

/-- How many bits remain to be skipped behind a block. -/
theorem exists_remaining {count remaining : UInt64} (h : 8 * count.toNat ≤ remaining.toNat) :
    ∃ left : UInt64, left.toNat = remaining.toNat - 8 * count.toNat ∧
      ∀ next : UInt64 → WordM UInt64, (do
        let bits ← Word.mul count 8
        let left ← Word.sub remaining bits
        next left) = next left := by
  have hproduct : Word.toNat count * Word.toNat (8 : UInt64) = 8 * count.toNat :=
    Nat.mul_comm _ _
  obtain ⟨bits, hbits, hbitsNat⟩ := Word.computes_mul (a := count) (b := (8 : UInt64))
    (hproduct ▸ Nat.lt_of_le_of_lt h (Word.toNat_lt remaining))
  rw [hproduct] at hbitsNat
  obtain ⟨left, hleft, hleftNat⟩ :=
    Word.computes_sub (show Word.toNat bits ≤ Word.toNat remaining from hbitsNat ▸ h)
  refine ⟨left, hleftNat.trans (congrArg _ hbitsNat), fun next => ?_⟩
  rw [hbits, pure_bind, hleft, pure_bind]

/-- Whole bytes are skipped block by block, and as many bits are left as do not fill a byte. -/
theorem simulatesAt_skipWholeBytes {rounds : Nat} {remaining : UInt64}
    (hrounds : remaining.toNat < rounds) (hboundary : reader.bitPos = 0)
    (hroom : reader.HasRoom (8 * (remaining.toNat / 8))) :
    SimulatesAt reader (8 * (remaining.toNat / 8))
      (fun left _ => left.toNat = remaining.toNat % 8) (skipWholeBytes rounds remaining)
      (BitReader.readBytes (remaining.toNat / 8)) := by
  induction rounds generalizing reader remaining with
  | zero => exact absurd hrounds (Nat.not_lt_zero _)
  | succ rounds ih =>
    have haligned := isAligned_view.2 hboundary
    have hwhole : 8 ≤ remaining ↔ 8 ≤ remaining.toNat := Iff.rfl
    rw [skipWholeBytes]
    by_cases hmore : 8 ≤ remaining
    · rw [if_pos hmore]
      rw [hwhole] at hmore
      have hblock := toNat_blockSize remaining
      generalize blockSize remaining = count at hblock ⊢
      -- The bytes of this block come first, then those of the others.
      have hsplit := readBytes_add haligned count.toNat ((remaining.toNat - 8 * count.toNat) / 8)
      have hbytes : count.toNat + (remaining.toNat - 8 * count.toNat) / 8 =
          remaining.toNat / 8 := by
        omega
      rw [hbytes] at hsplit
      have htotal : 8 * ((remaining.toNat - 8 * count.toNat) / 8) + 8 * count.toNat ≤
          8 * (remaining.toNat / 8) := by
        omega
      refine .congr (.bind hroom htotal
        (simulatesAt_takeBlock (by omega) hboundary (hroom.mono (by omega)))
        fun _ value reader' _ hspec hroom' => ?_) hsplit
      have hboundary' := isAligned_view.1 (isAligned_of_readBytes haligned hspec)
      obtain ⟨left, hvalue, hnext⟩ :=
        exists_remaining (show 8 * count.toNat ≤ remaining.toNat by omega)
      rw [hnext, ← bind_pure (skipWholeBytes rounds left)]
      rw [← hvalue] at hroom' ⊢
      refine .bind hroom' (Nat.le_of_eq (Nat.zero_add _)) (ih (by omega) hboundary' hroom')
        fun last _ _ hlast _ _ => simulatesAt_pure ?_
      omega
    · rw [if_neg hmore]
      rw [hwhole] at hmore
      rw [Nat.div_eq_of_lt (Nat.lt_of_not_le hmore)]
      exact .congr (simulatesAt_pure (Nat.mod_eq_of_lt (Nat.lt_of_not_le hmore)).symm)
        (readBytes_zero haligned)

end

/-- Bits are skipped one by one, whatever number they make. -/
theorem simulates_times_skipFlag (high count : Nat) :
    Simulates count (fun _ _ => True) (times count skipFlag)
      (BitReader.readBitsAfter high count) := by
  induction count generalizing high with
  | zero => exact simulates_pure trivial
  | succ count ih =>
    have hflag : Simulates 1 (fun _ _ => True) skipFlag BitReader.readBit :=
      simulates_readBit.andThen fun _ _ _ => computes_pure trivial
    exact hflag.bind fun _ _ _ => ih _

/-- Skipping bits one by one is reading as many at once, which is possible up to 64. -/
theorem skips_times_skipFlag {count : Nat} (hcount : count ≤ 64) :
    Skips count (times count skipFlag) (do let _ ← BitReader.readBits count) := by
  have hbind : Skips (0 + count) (times count skipFlag >>= pure)
      (do let _ ← BitReader.readBitsAfter 0 count) :=
    (simulates_times_skipFlag 0 count).bind fun _ _ _ => simulates_pure trivial
  rw [BitReader.readBits, Nat.min_eq_left hcount]
  rwa [bind_pure, Nat.zero_add] at hbind

/-- Bits are skipped to the next byte boundary, in blocks of bytes, and one by one in the end. -/
theorem skips_skipBits {count : UInt64} {countNat : Nat} (hcount : count.toNat = countNat) :
    Skips countNat (skipBits count) (BitReader.skipBits countNat) := by
  subst hcount
  intro reader hroom
  have hpending : reader.view.pending.length < 8 := by
    rw [WordReader.view, Bits.length_ofNat]
    exact Nat.mod_lt _ (by decide)
  have hskip : SimulatesAt reader _ _ (skipToBoundary 8 count) (BitReader.readBitsAfter 0 _) :=
    simulatesAt_skipToBoundary hpending (hroom.mono (Nat.min_le_left _ _))
  -- On both sides the bits that are left of the current byte come first.
  generalize hbuffered : min count.toNat reader.view.pending.length = buffered at hskip
  have hspec : BitReader.skipBits count.toNat reader.view = (do
      let _ ← BitReader.readBitsAfter 0 buffered
      if 8 ≤ count.toNat - buffered then
        let _ ← BitReader.readBytes ((count.toNat - buffered) / 8)
      let _ ← BitReader.readBits ((count.toNat - buffered) % 8) : ReadM Unit) reader.view := by
    rw [BitReader.skipBits, get_bind, hbuffered, BitReader.readBits,
      Nat.min_eq_left (by omega : buffered ≤ 64)]
  have htotal : count.toNat - buffered + buffered ≤ count.toNat := by omega
  refine .congr (.bind hroom htotal hskip fun left value reader' hleft hplace hroom' => ?_) hspec
  rw [← hleft] at hroom' ⊢
  by_cases hdone : left.toNat = 0
  · -- Nothing is left to be skipped.
    rw [hdone]
    have hwhole : ¬8 ≤ left := fun h => by
      have : 8 ≤ left.toNat := h
      omega
    rw [skipWholeBytes, if_neg hwhole, pure_bind, hdone]
    exact simulatesAt_pure trivial
  · -- The cursor is at a byte boundary.
    have haligned : reader'.view.isAligned = true := by
      obtain ⟨high, hread⟩ :
          ∃ high, BitReader.readBitsAfter 0 buffered reader.view = .ok (high, _) :=
        readBitsAfter_of_le_pending (by omega)
      rw [hread] at hplace
      have hview := (Prod.mk.inj (Except.ok.inj hplace)).2
      rw [← hview, BitReader.isAligned, List.isEmpty_iff]
      exact List.drop_eq_nil_of_le (by omega)
    have htail : (do
        if 8 ≤ left.toNat then
          let _ ← BitReader.readBytes (left.toNat / 8)
        let _ ← BitReader.readBits (left.toNat % 8) : ReadM Unit) reader'.view =
        (do
          let _ ← BitReader.readBytes (left.toNat / 8)
          let _ ← BitReader.readBits (left.toNat % 8) : ReadM Unit) reader'.view := by
      by_cases hwhole : 8 ≤ left.toNat
      · rw [if_pos hwhole]
      · rw [if_neg hwhole, Nat.div_eq_of_lt (Nat.lt_of_not_le hwhole),
          ok_bind (readBytes_zero haligned)]
    have hwhole := simulatesAt_skipWholeBytes (Nat.lt_succ_self left.toNat)
      (isAligned_view.1 haligned) (hroom'.mono (by omega))
    have htotal' : left.toNat % 8 + 8 * (left.toNat / 8) ≤ left.toNat := by omega
    refine .congr (.bind hroom' htotal' hwhole fun rest _ reader'' hrest _ hroom'' => ?_) htail
    rw [← hrest] at hroom'' ⊢
    exact skips_times_skipFlag (by omega) reader'' hroom''

end H266
