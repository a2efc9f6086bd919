import H266.Proofs.BitCursor
import H266.Proofs.Words.Parsers

/-!
# Exp-Golomb Codes Both Ways

Every bit string begins with the code of one value, or it ends inside of a code, or it begins with
more zero bits than any code does. A reader tells these cases apart: it succeeds on just the bits
that are written for a value, and where it fails no code stands.

A signed value has the code of its place in `0, 1, -1, 2, -2, …`, so whatever holds of unsigned
codes holds of signed ones.

## Main results

* `ExpGolomb.cases`: how a bit string begins.
* `BitReader.expGolombOutcome_readExpGolomb`: how reading a code ends.
* `IsCoding`: what is written is read, and nothing else is.
* `isCoding_expGolomb`: unsigned and signed codes.
-/

namespace H266

/-! ### Codes -/

namespace Bits

/-- A bit string begins with zero bits, and a one bit follows unless it is at its end. -/
theorem exists_zeros (bits : Bits) :
    ∃ zeros, bits = List.replicate zeros false ∨
      ∃ rest, bits = List.replicate zeros false ++ true :: rest := by
  induction bits with
  | nil => exact ⟨0, .inl rfl⟩
  | cons bit bits ih =>
    cases bit with
    | true => exact ⟨0, .inr ⟨bits, rfl⟩⟩
    | false =>
      obtain ⟨zeros, rfl | ⟨rest, rfl⟩⟩ := ih
      · exact ⟨zeros + 1, .inl rfl⟩
      · exact ⟨zeros + 1, .inr ⟨rest, rfl⟩⟩

end Bits

namespace ExpGolomb

/-- A code has as many bits behind its zero bits as these are, and one. -/
theorem length_code (value : Nat) : (code value).length = 2 * (value + 1).log2 + 1 := by
  rw [code, List.length_append, List.length_replicate, Bits.length_ofNat]
  omega

/-- As many bits as there were zero bits, whatever they are, complete a code. -/
theorem code_of_suffix (suffix : Bits) :
    code (2 ^ suffix.length - 1 + Bits.toNat suffix) =
      List.replicate suffix.length false ++ true :: suffix := by
  have hlt := Bits.toNat_lt suffix
  have hnext : 2 ^ suffix.length - 1 + Bits.toNat suffix + 1 =
      2 ^ suffix.length + Bits.toNat suffix := by
    have := Nat.two_pow_pos suffix.length
    omega
  have hlog : (2 ^ suffix.length + Bits.toNat suffix).log2 = suffix.length := by
    rw [Nat.log2_eq_iff (by omega), Nat.pow_succ]
    omega
  have hbits : Bits.ofNat suffix.length (2 ^ suffix.length + Bits.toNat suffix) = suffix := by
    refine Bits.eq_of_toNat_eq (Bits.length_ofNat _ _) ?_
    rw [Bits.toNat_ofNat_mod, Nat.add_mod_left, Nat.mod_eq_of_lt hlt]
  rw [code_eq, hnext, hlog, hbits]

/-- With less than 64 bits that follow the one bit, the value and the one after it are words. -/
theorem value_of_suffix_lt {suffix : Bits} (h : suffix.length < 64) :
    2 ^ suffix.length - 1 + Bits.toNat suffix + 1 < 2 ^ 64 := by
  have hlt := Bits.toNat_lt suffix
  have hpower : 2 ^ suffix.length ≤ 2 ^ 63 := Nat.pow_le_pow_right (by decide) (by omega)
  omega

/-- **How a bit string begins**: with more zero bits than a code, with a code, or with the first
bits of a code of which the rest is missing. -/
theorem cases (bits : Bits) :
    List.replicate 64 false <+: bits ∨
    (∃ value rest, value + 1 < 2 ^ 64 ∧ bits = code value ++ rest) ∨
    ∃ value missing, value + 1 < 2 ^ 64 ∧ missing ≠ [] ∧ bits ++ missing = code value := by
  obtain ⟨zeros, hzeros⟩ := bits.exists_zeros
  by_cases hmany : 64 ≤ zeros
  · left
    obtain ⟨more, rfl⟩ := Nat.exists_eq_add_of_le hmany
    rw [← List.replicate_append_replicate] at hzeros
    obtain rfl | ⟨rest, rfl⟩ := hzeros
    · exact List.prefix_append _ _
    · exact (List.prefix_append _ _).trans (List.prefix_append _ _)
  · right
    obtain rfl | ⟨rest, rfl⟩ := hzeros
    · -- The one bit is missing, and all bits behind it.
      right
      have hcode := code_of_suffix (List.replicate zeros false)
      have hlt := @value_of_suffix_lt (List.replicate zeros false)
      rw [List.length_replicate] at hcode hlt
      exact ⟨_, _, hlt (by omega), List.cons_ne_nil _ _, hcode.symm⟩
    · by_cases hrest : zeros ≤ rest.length
      · left
        have hlength : (rest.take zeros).length = zeros := List.length_take_of_le hrest
        have hcode := code_of_suffix (rest.take zeros)
        have hlt := @value_of_suffix_lt (rest.take zeros) (by omega)
        rw [hlength] at hcode hlt
        refine ⟨_, rest.drop zeros, hlt, ?_⟩
        rw [hcode, List.append_assoc, List.cons_append, List.take_append_drop]
      · -- Zero bits may be what is missing.
        right
        have hlength : (rest ++ List.replicate (zeros - rest.length) false).length = zeros := by
          rw [List.length_append, List.length_replicate]
          omega
        have hcode := code_of_suffix (rest ++ List.replicate (zeros - rest.length) false)
        have hlt := @value_of_suffix_lt (rest ++ List.replicate (zeros - rest.length) false)
          (by omega)
        rw [hlength] at hcode hlt
        refine ⟨_, List.replicate (zeros - rest.length) false, hlt, ?_, ?_⟩
        · rw [Ne, List.replicate_eq_nil_iff]
          omega
        · rw [hcode, List.append_assoc, List.cons_append]

end ExpGolomb

/-! ### Reading -/

namespace BitReader

variable {reader : BitReader}

/-- More zero bits than are allowed are refused. -/
theorem readZeros_of_zeros {allowed : Nat} (hv : reader.Valid)
    (h : List.replicate (allowed + 1) false <+: reader.bits) :
    readZeros allowed reader = .error (.invalidData .codeTooLong) := by
  obtain ⟨rest, hbits⟩ := h
  induction allowed generalizing reader with
  | zero =>
    obtain ⟨next, hread, -⟩ := reads_readBit false reader rest hv hbits.symm
    exact PureStep.ok_bind hread
  | succ allowed ih =>
    rw [List.replicate_succ, List.cons_append] at hbits
    obtain ⟨next, hread, hadvance⟩ := reads_readBit false reader _ hv hbits.symm
    rw [readZeros, PureStep.ok_bind hread]
    exact PureStep.error_bind
      (ih (hadvance.valid hv) (hadvance.rest_eq hbits.symm).symm)

/-- Zero bits that no bit follows are out of data. -/
theorem readZeros_of_replicate {zeros allowed : Nat} (hv : reader.Valid)
    (hbits : reader.bits = List.replicate zeros false) (h : zeros ≤ allowed) :
    readZeros allowed reader = .error .outOfData := by
  induction zeros generalizing reader allowed with
  | zero =>
    have hread := readBit_of_bits_nil hbits
    cases allowed <;> exact PureStep.error_bind hread
  | succ zeros ih =>
    obtain ⟨allowed, rfl⟩ := Nat.exists_eq_succ_of_ne_zero (Nat.ne_zero_of_lt h)
    obtain ⟨next, hread, hadvance⟩ := reads_readBit false reader _ hv hbits
    rw [readZeros, PureStep.ok_bind hread]
    exact PureStep.error_bind
      (ih (hadvance.valid hv) (hadvance.rest_eq hbits) (Nat.le_of_succ_le_succ h))

/-- After 64 zero bits a code is refused, whatever follows. -/
theorem readExpGolomb_of_zeros (hv : reader.Valid)
    (h : List.replicate 64 false <+: reader.bits) :
    readExpGolomb reader = .error (.invalidData .codeTooLong) :=
  PureStep.error_bind (readZeros_of_zeros hv h)

/-- A code of which bits are missing is out of data. -/
theorem readExpGolomb_of_missing {value : Nat} {missing : Bits} (hv : reader.Valid)
    (hvalue : value + 1 < 2 ^ 64) (hmissing : missing ≠ [])
    (h : reader.bits ++ missing = ExpGolomb.code value) :
    readExpGolomb reader = .error .outOfData := by
  have hlog : (value + 1).log2 < 64 := (Nat.log2_lt (Nat.succ_ne_zero value)).2 hvalue
  rw [ExpGolomb.code_eq] at h
  obtain ⟨more, hzeros, -⟩ | ⟨part, hbits, hsuffix⟩ := List.append_eq_append_iff.1 h
  · -- The cut is in the zero bits or right behind them.
    have hreplicate : reader.bits = List.replicate reader.bits.length false :=
      List.eq_replicate_iff.2 ⟨rfl, fun bit hmem =>
        List.eq_of_mem_replicate (hzeros ▸ List.mem_append_left more hmem)⟩
    have hlength := congrArg List.length hzeros
    rw [List.length_replicate, List.length_append] at hlength
    exact PureStep.error_bind (readZeros_of_replicate hv hreplicate (by omega))
  · cases part with
    | nil =>
      rw [List.append_nil] at hbits
      exact PureStep.error_bind (readZeros_of_replicate hv hbits (by omega))
    | cons bit part =>
      obtain ⟨rfl, hrest⟩ := List.cons.inj hsuffix
      have hlength : _ = (part ++ missing).length := congrArg List.length hrest
      have hpositive := List.length_pos_iff.2 hmissing
      rw [Bits.length_ofNat, List.length_append] at hlength
      have hsplit : reader.bits =
          (List.replicate (value + 1).log2 false ++ [true]) ++ part := by
        rw [hbits, List.append_assoc, List.singleton_append]
      obtain ⟨middle, hread, hadvance⟩ :=
        reads_readZeros (by omega : (value + 1).log2 ≤ 63) reader part hv hsplit
      rw [readExpGolomb, PureStep.ok_bind hread]
      refine PureStep.error_bind (needsBits_readBits _ middle (hadvance.valid hv) ?_)
      rw [hadvance.rest_eq hsplit]
      omega

/-- How reading a code ends: with too many zero bits, with a value, or for want of the last bits of
a code. -/
inductive ExpGolombOutcome (reader : BitReader) : Except Error (Nat × BitReader) → Prop
  | tooLong (hzeros : List.replicate 64 false <+: reader.bits) :
    ExpGolombOutcome reader (.error (.invalidData .codeTooLong))
  | code {value : Nat} {reader' : BitReader} (hvalue : value + 1 < 2 ^ 64)
    (hadvance : reader.Advances (ExpGolomb.code value) reader') :
    ExpGolombOutcome reader (.ok (value, reader'))
  | cutShort {value : Nat} {missing : Bits} (hvalue : value + 1 < 2 ^ 64) (hmissing : missing ≠ [])
    (hcode : reader.bits ++ missing = ExpGolomb.code value) :
    ExpGolombOutcome reader (.error .outOfData)

/-- Whatever comes next, a code is read, or it is too long, or it is cut short. -/
theorem expGolombOutcome_readExpGolomb (hv : reader.Valid) :
    ExpGolombOutcome reader (readExpGolomb reader) := by
  obtain hzeros | ⟨value, rest, hvalue, hbits⟩ | ⟨value, missing, hvalue, hmissing, hcode⟩ :=
    ExpGolomb.cases reader.bits
  · rw [readExpGolomb_of_zeros hv hzeros]
    exact .tooLong hzeros
  · obtain ⟨reader', hread, hadvance⟩ := reads_readExpGolomb hvalue reader rest hv hbits
    rw [hread]
    exact .code hvalue hadvance
  · rw [readExpGolomb_of_missing hv hvalue hmissing hcode]
    exact .cutShort hvalue hmissing hcode

end BitReader

/-! ### What is written -/

/-- The bits that a step writes from the start. -/
def BitWriter.output (write : WriteM Unit) : Bits :=
  let writer := (write (.ofSink (.empty false none))).2
  Bits.ofBytes writer.sink.stored.toList ++ writer.pending

/-- What a writer puts out is what it emits from the start. -/
theorem BitWriter.Emits.output_eq {write : WriteM Unit} {bitsAt : Nat → Bits}
    (h : Emits write bitsAt) : output write = bitsAt 0 := by
  obtain ⟨writer, hrun, bytes, hholds, hbits, -⟩ := h.exists_run false
  have hstored : writer.sink.stored.toList = bytes := hholds.stores.stored_eq
  rw [output, hrun, hbits, ← hstored]

/-- What one step writes for a value the other one reads, and nothing else: it succeeds on the bits
that are written for some value, and fails where there are too many zero bits or where the bits of
a value are cut short. -/
structure IsCoding {α : Type} (write : α → WriteM Unit) (read : ReadM α) (codable : α → Prop) :
    Prop where
  isReadBack : ∀ value, codable value → IsReadBack (write value) read value
  of_eq_ok : ∀ (reader : BitReader) value reader', reader.Valid →
    read reader = .ok (value, reader') →
      codable value ∧ reader.bits = BitWriter.output (write value) ++ reader'.bits ∧
        reader'.position = reader.position + (BitWriter.output (write value)).length
  eq_codeTooLong_iff : ∀ reader : BitReader, reader.Valid →
    (read reader = .error (.invalidData .codeTooLong) ↔
      List.replicate 64 false <+: reader.bits)
  eq_outOfData_iff : ∀ reader : BitReader, reader.Valid →
    (read reader = .error .outOfData ↔
      ∃ value missing, codable value ∧ missing ≠ [] ∧
        reader.bits ++ missing = BitWriter.output (write value))
  of_eq_error : ∀ (reader : BitReader) error, reader.Valid → read reader = .error error →
    error = .invalidData .codeTooLong ∨ error = .outOfData

/-- A value is written as its code. -/
theorem output_writeExpGolomb {value : Nat} (h : value + 1 < 2 ^ 64) :
    BitWriter.output (BitWriter.writeExpGolomb value) = ExpGolomb.code value :=
  (BitWriter.emits_writeExpGolomb h).output_eq

/-- Unsigned codes. -/
theorem isCoding_readExpGolomb :
    IsCoding BitWriter.writeExpGolomb BitReader.readExpGolomb fun value => value + 1 < 2 ^ 64 where
  isReadBack value h :=
    (BitWriter.emits_writeExpGolomb h).isReadBack (BitReader.reads_readExpGolomb h)
  of_eq_ok reader value reader' hv hread := by
    have houtcome := BitReader.expGolombOutcome_readExpGolomb hv
    rw [hread] at houtcome
    cases houtcome with
    | code hvalue hadvance =>
      rw [output_writeExpGolomb hvalue]
      exact ⟨hvalue, hadvance.bits_eq, hadvance.position_eq⟩
  eq_codeTooLong_iff reader hv := by
    refine ⟨fun hread => ?_, BitReader.readExpGolomb_of_zeros hv⟩
    have houtcome := BitReader.expGolombOutcome_readExpGolomb hv
    rw [hread] at houtcome
    cases houtcome with
    | tooLong hzeros => exact hzeros
  eq_outOfData_iff reader hv := by
    refine ⟨fun hread => ?_, fun ⟨value, missing, hvalue, hmissing, hcode⟩ => ?_⟩
    · have houtcome := BitReader.expGolombOutcome_readExpGolomb hv
      rw [hread] at houtcome
      cases houtcome with
      | cutShort hvalue hmissing hcode =>
        exact ⟨_, _, hvalue, hmissing, (output_writeExpGolomb hvalue).symm ▸ hcode⟩
    · rw [output_writeExpGolomb hvalue] at hcode
      exact BitReader.readExpGolomb_of_missing hv hvalue hmissing hcode
  of_eq_error reader error hv hread := by
    have houtcome := BitReader.expGolombOutcome_readExpGolomb hv
    rw [hread] at houtcome
    cases houtcome with
    | tooLong _ => exact .inl rfl
    | cutShort _ _ _ => exact .inr rfl

/-! ### Signed codes -/

section

variable {α β : Type} {write : α → WriteM Unit} {read : ReadM α} {codable : α → Prop}
  {f : α → β} {g : β → α}

/-- A value that was read and passed on in another form. -/
theorem map_eq_ok_iff {reader reader' : BitReader} {value : β} :
    (f <$> read) reader = .ok (value, reader') ↔
      ∃ own, read reader = .ok (own, reader') ∧ f own = value := by
  rw [map_eq_pure_bind]
  constructor
  · intro h
    obtain ⟨own, middle, hread, hpure⟩ := PureStep.of_bind_eq_ok h
    cases hpure
    exact ⟨own, hread, rfl⟩
  · rintro ⟨own, hread, rfl⟩
    exact PureStep.ok_bind hread

/-- Another value made of what is read makes no other error. -/
theorem map_eq_error_iff {reader : BitReader} {error : Error} :
    (f <$> read) reader = .error error ↔ read reader = .error error := by
  rw [map_eq_pure_bind]
  cases hread : read reader with
  | error own =>
    rw [PureStep.error_bind hread]
    exact ⟨fun h => congrArg _ (Except.error.inj h), fun h => congrArg _ (Except.error.inj h)⟩
  | ok result =>
    rw [PureStep.ok_bind hread]
    exact ⟨fun h => (by cases h), fun h => (by cases h)⟩

/-- Values that stand for others are coded as these are. -/
theorem IsCoding.translate (h : IsCoding write read codable) {codable' : β → Prop}
    (hfg : ∀ value, f (g value) = value) (hgf : ∀ value, g (f value) = value)
    (hcodable : ∀ value, codable (g value) ↔ codable' value) :
    IsCoding (fun value => write (g value)) (f <$> read) codable' where
  isReadBack value hvalue := by
    intro escaping leading following more
    obtain ⟨writer, reader, reader', hwrite, hbehind, hread, hposition, hfollowing⟩ :=
      h.isReadBack (g value) ((hcodable value).2 hvalue) escaping leading following more
    exact ⟨writer, reader, reader', hwrite, hbehind, map_eq_ok_iff.2 ⟨g value, hread, hfg value⟩,
      hposition, hfollowing⟩
  of_eq_ok reader value reader' hv hread := by
    obtain ⟨own, hown, rfl⟩ := map_eq_ok_iff.1 hread
    rw [← hcodable, hgf]
    exact h.of_eq_ok reader own reader' hv hown
  eq_codeTooLong_iff reader hv := map_eq_error_iff.trans (h.eq_codeTooLong_iff reader hv)
  eq_outOfData_iff reader hv := by
    rw [map_eq_error_iff, h.eq_outOfData_iff reader hv]
    constructor
    · rintro ⟨own, missing, hown, hmissing, hcode⟩
      exact ⟨f own, missing, (hcodable _).1 (by rwa [hgf]), hmissing, by rwa [hgf]⟩
    · rintro ⟨value, missing, hvalue, hmissing, hcode⟩
      exact ⟨g value, missing, (hcodable value).2 hvalue, hmissing, hcode⟩
  of_eq_error reader error hv hread := h.of_eq_error reader error hv (map_eq_error_iff.1 hread)

end

/-- Signed codes. -/
theorem isCoding_readSignedExpGolomb :
    IsCoding BitWriter.writeSignedExpGolomb BitReader.readSignedExpGolomb
      fun value => -2 ^ 63 < value ∧ value < 2 ^ 63 :=
  isCoding_readExpGolomb.translate ExpGolomb.signedValue_signedPlace
    ExpGolomb.signedPlace_signedValue fun _ => Item.fits_signedExpGolomb_iff

/-- **Exp-Golomb codes**: the code of a value is as long as twice the logarithm of the number after
it, and one bit more. What is written for a value is read at any bit offset, whatever follows, and
whatever is read is what is written for the value. Reading fails with an invalid code if 64 zero
bits come next, and for want of data if the bits that come next are the beginning of a code. The
same holds of signed values. No word that a machine computes with overflows on the way, as long as
it can count the bits that it reads, be it that a code is read or that a signed word is to be
written. -/
theorem isCoding_expGolomb :
    (∀ value, value + 1 < 2 ^ 64 →
      (BitWriter.output (BitWriter.writeExpGolomb value)).length = 2 * (value + 1).log2 + 1) ∧
    IsCoding BitWriter.writeExpGolomb BitReader.readExpGolomb (fun value => value + 1 < 2 ^ 64) ∧
    IsCoding BitWriter.writeSignedExpGolomb BitReader.readSignedExpGolomb
      (fun value => -2 ^ 63 < value ∧ value < 2 ^ 63) ∧
    (∀ reader : WordReader, reader.consumed.toNat + 127 < 2 ^ 64 →
      RunsAs reader UInt64.toNat WordM.readExpGolomb BitReader.readExpGolomb ∧
      RunsAs reader Int64.toInt WordM.readSignedExpGolomb BitReader.readSignedExpGolomb) ∧
    ∀ number : Int64, number ≠ Int64.minValue →
      Computes (WordM.signedPlace number) fun place =>
        place.toNat = ExpGolomb.signedPlace number.toInt := by
  refine ⟨fun value hvalue => ?_, isCoding_readExpGolomb, isCoding_readSignedExpGolomb,
    fun reader hcounted => ?_, fun _ => computes_signedPlace⟩
  · rw [output_writeExpGolomb hvalue, ExpGolomb.length_code]
  · have hroom : reader.HasRoom 127 := hcounted
    exact ⟨(simulates_readExpGolomb.mono (Nat.le_refl _) fun _ _ => And.left).run_eq hroom,
      simulates_readSignedExpGolomb.run_eq hroom⟩

/-- The longest code, the least signed value that has one, 64 zero bits and a few less, and a code
behind the third bit of a byte. -/
theorem isCoding_expGolomb_extremes :
    let largest := 2 ^ 64 - 2
    let least : Int := -(2 ^ 63 - 1)
    (largest + 1 < 2 ^ 64 ∧
      (BitWriter.output (BitWriter.writeExpGolomb largest)).length = 127) ∧
    ((-2 ^ 63 < least ∧ least < 2 ^ 63) ∧
      IsReadBack (BitWriter.writeSignedExpGolomb least) BitReader.readSignedExpGolomb least) ∧
    BitReader.readExpGolomb (.ofBytes [0, 0, 0, 0, 0, 0, 0, 0, 0x80]) =
      .error (.invalidData .codeTooLong) ∧
    BitReader.readExpGolomb (.ofBytes [0, 0, 0, 0, 0, 0, 0, 1]) = .error .outOfData ∧
    (behindThirdBit.consumed.toNat + 127 < 2 ^ 64 ∧
      RunsAs behindThirdBit UInt64.toNat WordM.readExpGolomb BitReader.readExpGolomb) ∧
    (Int64.minValue + 1 ≠ Int64.minValue ∧
      Computes (WordM.signedPlace (Int64.minValue + 1)) fun place => place.toNat = largest) := by
  intro largest least
  obtain ⟨hlength, hunsigned, hsigned, hwords, hplaces⟩ := isCoding_expGolomb
  have hlargest : largest + 1 < 2 ^ 64 := by decide
  have hlog : 2 * (largest + 1).log2 + 1 = 127 := by decide
  have hleast : -2 ^ 63 < least ∧ least < 2 ^ 63 := by decide
  have hcounted : behindThirdBit.consumed.toNat + 127 < 2 ^ 64 := by decide
  have hnumber : Int64.minValue + 1 ≠ Int64.minValue := by decide
  refine ⟨⟨hlargest, (hlength largest hlargest).trans hlog⟩,
    ⟨hleast, hsigned.isReadBack least hleast⟩, ?_, ?_,
    ⟨hcounted, (hwords behindThirdBit hcounted).1⟩, hnumber, hplaces _ hnumber⟩
  · exact (hunsigned.eq_codeTooLong_iff _ (BitReader.valid_ofSource _)).2 (by decide)
  · refine (hunsigned.eq_outOfData_iff _ (BitReader.valid_ofSource _)).2
      ⟨2 ^ 63 - 1, List.replicate 63 false, by decide, by decide, ?_⟩
    rw [output_writeExpGolomb (by decide)]
    rfl

end H266
