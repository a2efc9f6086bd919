import H266.Proofs.Words.Simulation

/-!
# Reading Bits with Words

A machine keeps the byte that it fetched last, how many bits of it were read, and how many were
read in all. It puts numbers together bit by bit in a word, and asks for no more than 64 bits at
once.

## Main results

* `simulates_readBit`: a single bit.
* `simulates_readBits`, `simulates_readNumber`: numbers of up to 64 bits, and of as many as a
  smaller word has.
* `Simulates.readInRange`: numbers that are checked.
-/

namespace H266

open PureStep

/-- A place within a byte. -/
theorem toNat_mod_eight_lt (n : UInt8) : (n % 8).toNat < 8 := by
  rw [UInt8.toNat_mod]
  exact Nat.mod_lt _ (by decide)

/-- The cursor at another bit of its byte, or at the end of it. -/
def WordReader.moveTo (reader : WordReader) (bitPos : UInt8) (consumed : UInt64) : WordReader :=
  ⟨reader.source, reader.current, bitPos % 8, consumed, toNat_mod_eight_lt bitPos⟩

namespace WordM

/-! ### Steps -/

/-- Fetches the next byte. -/
def fetchByte : WordM Unit := do
  let reader ← get
  match reader.source.next? with
  | none => refuse .outOfData
  | some (byte, source) => set { reader with source := source, current := byte }

/-- Reads the next bit of the byte that was fetched. -/
def takeBit : WordM Bool := do
  let reader ← get
  let shift ← Word.sub 7 reader.bitPos
  let shifted ← Word.shiftRight reader.current shift
  let bitPos ← Word.add reader.bitPos 1
  let consumed ← Word.add reader.consumed 1
  set (reader.moveTo bitPos consumed)
  return decide (shifted &&& 1 = 1)

/-- Reads one bit. -/
def readBit : WordM Bool := do
  if (← get).bitPos = 0 then
    fetchByte
  takeBit

/-- Reads `count` further bits of a number whose bits so far make `high`. -/
def readBitsAfter {α : Type} [Word α] (high : α) : (count : Nat) → WordM α
  | 0 => pure high
  | count + 1 => do
    let bit ← readBit
    let shifted ← Word.shiftLeft high (1 : UInt8)
    let joined ← Word.union shifted (Word.ofNat bit.toNat)
    readBitsAfter joined count

/-- Reads a number of `count` bits, of which there must not be more than 64. -/
def readBits (count : UInt8) : WordM UInt64 := do
  if 64 < count then
    throw .tooWide
  readBitsAfter 0 count.toNat

/-- Reads a number of `count` bits that is kept in a smaller word. -/
def readNumber {α : Type} [Word α] (count : UInt8) : WordM α := do
  let bits ← readBits count
  Word.convert bits

/-- Skips a flag. -/
def skipFlag : WordM Unit := do
  let _ ← readBit

/-- Skips a number of `count` bits. -/
def skipNumber (count : UInt8) : WordM Unit := do
  let _ ← readBits count

/-- Reads the value of a syntax element that must lie between `low` and `high`. -/
def readInRange {α : Type} [Word α] (element : String) (low high : α) (step : WordM α) :
    WordM α := do
  let value ← step
  if Word.toNat value < Word.toNat low ∨ Word.toNat high < Word.toNat value then
    refuse (.invalidData
      (.elementOutOfRange element (Word.toNat low) (Word.toNat high) (Word.toNat value)))
  return value

end WordM

open WordM

/-! ### Bits -/

section

variable {reader : WordReader}

/-- The bit of a word at a place, shifted down. -/
theorem decide_shifted_eq {a shifted : UInt8} {place : Nat}
    (h : shifted.toNat = a.toNat >>> place) :
    decide (shifted &&& 1 = 1) = a.toNat.testBit place := by
  have hbit : (shifted &&& 1 = 1) ↔ shifted.toNat % 2 = 1 := by
    rw [← UInt8.toNat_inj, UInt8.toNat_and]
    exact Eq.congr_left (Nat.and_one_is_mod _)
  rw [Nat.testBit_eq_decide_div_mod_eq, ← Nat.shiftRight_eq_div_pow, ← h]
  exact decide_eq_decide.2 hbit

/-- The place of a cursor that has moved on by a bit. -/
theorem view_moveTo {bitPos : UInt8} {consumed : UInt64}
    (hbitPos : bitPos.toNat = reader.bitPos.toNat + 1)
    (hconsumed : consumed.toNat = reader.consumed.toNat + 1) :
    (reader.moveTo bitPos consumed).view =
      ⟨reader.source, Bits.ofNat (7 - reader.bitPos.toNat) reader.current.toNat,
        reader.consumed.toNat + 1⟩ := by
  have hlt := reader.bitPos_lt
  have hpos : (bitPos % 8).toNat = (reader.bitPos.toNat + 1) % 8 := by
    rw [UInt8.toNat_mod, hbitPos]
    rfl
  have hwidth : (8 - (reader.bitPos.toNat + 1) % 8) % 8 = 7 - reader.bitPos.toNat := by omega
  rw [WordReader.view, WordReader.moveTo, hpos, hwidth, hconsumed]

/-- The next bit of the byte that was fetched is taken, and the cursor moves on by it. -/
theorem takeBit_eq (hroom : reader.HasRoom 1) :
    ∃ reader', takeBit reader =
        .ok (reader.current.toNat.testBit (7 - reader.bitPos.toNat), reader') ∧
      reader'.view =
        ⟨reader.source, Bits.ofNat (7 - reader.bitPos.toNat) reader.current.toNat,
          reader.consumed.toNat + 1⟩ := by
  have hlt := reader.bitPos_lt
  obtain ⟨shift, hshift, hshiftNat⟩ :=
    Word.computes_sub (show Word.toNat reader.bitPos ≤ Word.toNat (7 : UInt8) from
      Nat.le_of_lt_succ hlt)
  have hamount : 2 ^ Word.toNat shift < Word.size UInt8 := by
    rw [hshiftNat]
    exact Nat.pow_lt_pow_right (by decide) (Nat.lt_succ_of_le (Nat.sub_le _ _))
  obtain ⟨shifted, hshifted, hshiftedNat⟩ :=
    Word.computes_shiftRight (a := reader.current) hamount
  obtain ⟨bitPos, hbitPos, hbitPosNat⟩ :=
    Word.computes_add (show Word.toNat reader.bitPos + Word.toNat (1 : UInt8) < Word.size UInt8 from
      Nat.lt_trans (Nat.succ_lt_succ hlt) (by decide))
  obtain ⟨consumed, hconsumed, hconsumedNat⟩ :=
    Word.computes_add
      (show Word.toNat reader.consumed + Word.toNat (1 : UInt64) < Word.size UInt64 from hroom)
  refine ⟨reader.moveTo bitPos consumed, ?_, view_moveTo hbitPosNat hconsumedNat⟩
  rw [hshiftNat] at hshiftedNat
  have hbit : decide (shifted &&& 1 = 1) =
      reader.current.toNat.testBit (7 - reader.bitPos.toNat) := decide_shifted_eq hshiftedNat
  rw [← hbit]
  rw [takeBit, get_bind]
  simp only [hshift, hshifted, hbitPos, hconsumed, pure_bind]
  rfl

/-- Without a further byte a machine is out of data. -/
theorem fetchByte_of_none (h : reader.source.next? = none) :
    fetchByte reader = .error (.refused .outOfData) := by
  rw [fetchByte, get_bind, h]
  rfl

/-- A further byte is kept whole. -/
theorem fetchByte_of_some {byte : UInt8} {source : ByteSource}
    (h : reader.source.next? = some (byte, source)) :
    fetchByte reader = .ok ((), { reader with source := source, current := byte }) := by
  rw [fetchByte, get_bind, h]
  rfl

end

/-- Reading a bit. -/
theorem simulates_readBit : Simulates 1 (· = ·) readBit BitReader.readBit := by
  intro reader hroom
  have hlt := reader.bitPos_lt
  rw [readBit, SimulatesAt, get_bind]
  by_cases hboundary : reader.bitPos = 0
  · -- A byte is fetched first; its first bit is the highest.
    rw [if_pos hboundary]
    rw [WordReader.view_of_bitPos_eq_zero hboundary]
    cases hnext : reader.source.next? with
    | none =>
      rw [error_bind (fetchByte_of_none hnext)]
      simp only [BitReader.readBit, hnext]
      refine ⟨fun error heq => ?_, fun _ _ heq => (by cases heq)⟩
      cases heq
      rfl
    | some next =>
      obtain ⟨byte, source⟩ := next
      rw [ok_bind (fetchByte_of_some hnext)]
      simp only [BitReader.readBit, hnext]
      refine ⟨fun _ heq => (by cases heq), fun value last heq => ?_⟩
      cases heq
      have hroom' : ({ reader with source := source, current := byte } : WordReader).HasRoom 1 :=
        hroom
      obtain ⟨reader', htake, hview'⟩ := takeBit_eq hroom'
      have hzero : reader.bitPos.toNat = 0 := by
        rw [hboundary]
        rfl
      simp only [hzero, Nat.sub_zero] at htake hview'
      refine ⟨_, reader', htake, rfl, hview', ?_⟩
      exact Nat.le_of_eq (congrArg BitReader.position hview')
  · -- The next bit is one of those that are left of the byte.
    rw [if_neg hboundary]
    have hpositive : reader.bitPos.toNat ≠ 0 := fun h => hboundary (UInt8.toNat_inj.1 h)
    have hwidth : (8 - reader.bitPos.toNat) % 8 = 7 - reader.bitPos.toNat + 1 := by omega
    have hview : reader.view = ⟨reader.source,
        reader.current.toNat.testBit (7 - reader.bitPos.toNat) ::
          Bits.ofNat (7 - reader.bitPos.toNat) reader.current.toNat, reader.consumed.toNat⟩ := by
      rw [WordReader.view, hwidth, Bits.ofNat_succ]
    rw [hview]
    obtain ⟨reader', htake, hview'⟩ := takeBit_eq hroom
    refine ⟨fun _ heq => (by cases heq), fun value last heq => ?_⟩
    cases heq
    exact ⟨_, reader', htake, rfl, hview', Nat.le_of_eq (congrArg BitReader.position hview')⟩

/-! ### Numbers -/

/-- A number is collected bit by bit in a word that is wide enough for it. -/
theorem simulates_readBitsAfter {α : Type} [Word α] (hsize : 2 < Word.size α) {high : α}
    {width count : Nat} (hhigh : Word.toNat high < 2 ^ width)
    (hwidth : 2 ^ (width + count) ≤ Word.size α) :
    Simulates count (fun word value => Word.toNat word = value ∧ value < 2 ^ (width + count))
      (readBitsAfter high count) (BitReader.readBitsAfter (Word.toNat high) count) := by
  induction count generalizing high width with
  | zero => exact simulates_pure ⟨rfl, hhigh⟩
  | succ count ih =>
    refine simulates_readBit.bindSame fun bit => ?_
    have hshift : width + (count + 1) = width + 1 + count := by omega
    rw [hshift] at hwidth ⊢
    have hone : Word.toNat (1 : UInt8) = 1 := rfl
    have hbitNat : Word.toNat (Word.ofNat bit.toNat : α) = bit.toNat :=
      Word.toNat_ofNat (Nat.lt_trans (Nat.lt_succ_of_le bit.toNat_le) hsize)
    have hnext : Word.toNat high * 2 ^ 1 + bit.toNat < 2 ^ (width + 1) := by
      have := bit.toNat_le
      rw [Nat.pow_succ]
      omega
    have hfits : Word.toNat high * 2 ^ 1 + bit.toNat < Word.size α :=
      Nat.lt_of_lt_of_le hnext (Nat.le_trans
        (Nat.pow_le_pow_right (by decide) (Nat.le_add_right _ _)) hwidth)
    refine .after (Word.computes_shiftLeft hsize (Nat.lt_of_le_of_lt (Nat.le_add_right _ _) hfits))
      fun shifted hshifted => ?_
    have hlow : Word.toNat (Word.ofNat bit.toNat : α) < 2 ^ 1 := by
      rw [hbitNat]
      exact Nat.lt_succ_of_le bit.toNat_le
    refine .after (Word.computes_union hshifted hlow (by rwa [hbitNat])) fun joined hjoined => ?_
    have hvalue : Word.toNat joined = 2 * Word.toNat high + bit.toNat := by
      rw [hjoined, hbitNat, hone]
      omega
    rw [← hvalue]
    exact ih (by omega) hwidth

/-- What is read as a number of some width. -/
abbrev IsNumber {α : Type} [Word α] (width : Nat) (word : α) (value : Nat) : Prop :=
  Word.toNat word = value ∧ value < 2 ^ width

/-- A number of up to 64 bits is read. -/
theorem simulates_readBits {count : UInt8} {width : Nat} (hcount : count.toNat = width)
    (hwidth : width ≤ 64) :
    Simulates width (IsNumber width) (readBits count) (BitReader.readBits width) := by
  subst hcount
  have hsome : ¬64 < count := Nat.not_lt.2 hwidth
  rw [readBits, if_neg hsome, BitReader.readBits, Nat.min_eq_left hwidth]
  have hnone : Word.toNat (0 : UInt64) < 2 ^ 0 := by decide
  refine (simulates_readBitsAfter (by decide) hnone ?_).mono (Nat.le_refl _) fun word value h => ?_
  · rw [Nat.zero_add]
    exact Nat.pow_le_pow_right (by decide) hwidth
  · rwa [Nat.zero_add] at h

/-- A number is read into any word that is wide enough for it. -/
theorem simulates_readNumber {α : Type} [Word α] {count : UInt8} {width : Nat}
    (hcount : count.toNat = width) (hwidth : width ≤ 64) (hsize : 2 ^ width ≤ Word.size α) :
    Simulates width (IsNumber width) (readNumber count : WordM α) (BitReader.readBits width) := by
  refine (simulates_readBits hcount hwidth).andThen fun bits value hvalue => ?_
  obtain ⟨rfl, hlt⟩ := hvalue
  exact (Word.computes_convert (Nat.lt_of_lt_of_le hlt hsize)).mono fun word h => ⟨h, hlt⟩

/-- A flag is skipped. -/
theorem skips_skipFlag : Skips 1 skipFlag BitReader.skipFlag :=
  simulates_readBit.drop

/-- A number of up to 64 bits is skipped. -/
theorem skips_skipNumber {count : UInt8} {width : Nat} (hcount : count.toNat = width)
    (hwidth : width ≤ 64) : Skips width (skipNumber count) (BitReader.skipNumber width) :=
  (simulates_readBits hcount hwidth).drop

/-- A number of a width that is stated as such. -/
theorem simulates_number (α : Type) [Word α] (width : Nat) (hwidth : width ≤ 64)
    (hsize : 2 ^ width ≤ Word.size α) :
    Simulates width (IsNumber width) (readNumber (OfNat.ofNat width) : WordM α)
      (BitReader.readBits width) :=
  simulates_readNumber (UInt8.toNat_ofNat_of_lt' (Nat.lt_of_le_of_lt hwidth (by decide)))
    hwidth hsize

/-- The same, of a width that is stated as a numeral. -/
theorem skips_number (width : Nat) (hwidth : width ≤ 64) :
    Skips width (skipNumber (OfNat.ofNat width)) (BitReader.skipNumber width) :=
  skips_skipNumber (UInt8.toNat_ofNat_of_lt' (Nat.lt_of_le_of_lt hwidth (by decide))) hwidth

section

variable {α : Type} [Word α] {budget : Nat} {rel : α → Nat → Prop} {element : String}
  {low high : α} {lowNat highNat : Nat} {step : WordM α} {spec : ReadM Nat}

/-- A number is compared with its bounds; whatever else is known of it stays so. -/
theorem Simulates.readInRange_of (hlow : Word.toNat low = lowNat)
    (hhigh : Word.toNat high = highNat) (h : Simulates budget rel step spec)
    (hrel : ∀ word value, rel word value → Word.toNat word = value) :
    Simulates budget (fun word value => rel word value ∧ value ≤ highNat)
      (WordM.readInRange element low high step)
      (BitReader.readInRange element lowNat highNat spec) := by
  subst hlow hhigh
  rw [← Nat.zero_add budget]
  refine h.bind fun word value hword => ?_
  obtain rfl := hrel word value hword
  by_cases hout : Word.toNat word < Word.toNat low ∨ Word.toNat high < Word.toNat word
  · rw [if_pos hout, if_pos hout]
    exact simulates_refuse fun _ => rfl
  · rw [if_neg hout, if_neg hout]
    exact simulates_pure ⟨hword, Nat.le_of_not_lt fun h => hout (.inr h)⟩

/-- A number is checked to be in range as a word. -/
theorem Simulates.readInRange (hlow : Word.toNat low = lowNat) (hhigh : Word.toNat high = highNat)
    (h : Simulates budget rel step spec)
    (hrel : ∀ word value, rel word value → Word.toNat word = value) :
    Simulates budget (fun word value => Word.toNat word = value ∧ value ≤ highNat)
      (WordM.readInRange element low high step)
      (BitReader.readInRange element lowNat highNat spec) :=
  (h.readInRange_of hlow hhigh hrel).mono (Nat.le_refl _) fun word value hvalue =>
    ⟨hrel word value hvalue.1, hvalue.2⟩

end

end H266
