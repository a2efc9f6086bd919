import H266.Proofs.BitOffsets
import H266.Proofs.ItemRoundTrip
import H266.Proofs.SelfDelimiting

/-!
# A Reader as a Cursor

Where a reader takes its bits from makes no difference to what it reads. It keeps what is left of
the byte that was fetched last, it takes bytes off its source in one go at a byte boundary and puts
them together bit by bit elsewhere, and it leaves out emulation prevention bytes or has none to
leave out. In any sequence of operations it does what a cursor does that moves along one list of
bits: each operation takes the next bits, as many as its form says, and fails if they are fewer.

## Main results

* `BitReader.NeedsBits.bind`: steps that are out of data when bits are missing.
* `BitReader.Advances.unique`: where a reader ends that has read certain bits.
* `BitReader.skipBits_eq_skipTimes`: bits are skipped as if one by one.
* `BitReader.ReadOp.run_eq`: what an operation does, by the bits that are left.
* `BitReader.ReadOp.mapM_run_eq`: sequences of operations.
-/

namespace H266

/-! ### Whole bytes -/

namespace Bits

/-- Whole bytes are packed as they are. -/
theorem pack_ofBytes (bytes : Bytes) : pack (ofBytes bytes) = bytes := by
  refine ofBytes_injective (ofBytes_pack_of_whole ?_)
  rw [length_ofBytes, Nat.mul_mod_right]

/-- The bits of a big-endian integer make the number that its bytes make. -/
theorem toNat_ofBytes (bytes : Bytes) : toNat (ofBytes bytes) = Bytes.toNat bytes := by
  induction bytes with
  | nil => rfl
  | cons byte bytes ih =>
    have hpower : (2 : Nat) ^ (8 * bytes.length) = 256 ^ bytes.length := Nat.pow_mul 2 8 _
    rw [ofBytes_cons, toNat_append, ih, length_ofBytes, hpower, ofByte, toNat_ofNat byte.toNat_lt,
      Bytes.toNat_cons]

end Bits

/-- The contents of a byte string that is read as it is or unescaped. -/
theorem ByteSource.contents_ofStored_eq (escaped : Bool) (data : Bytes) :
    (ofStored escaped data).contents = if escaped then unescapeAfter 0 data else data :=
  rfl

/-! ### Sequences on an abstraction -/

namespace PureStep

variable {ε ε' σ τ α ι : Type} {f : σ → τ} {g : ε' → ε} {inv : σ → Prop}
  {step : ι → StateT σ (Except ε) α} {spec : ι → StateT τ (Except ε') α}

theorem mapError_id (result : Except ε α) : result.mapError id = result := by
  cases result <;> rfl

/-- What each step preserves is preserved by sequences of steps. -/
theorem inv_of_mapM_eq_ok
    (hinv : ∀ index state value state', inv state → step index state = .ok (value, state') →
      inv state')
    {indices : List ι} {state state' : σ} {values : List α} (hstate : inv state)
    (h : indices.mapM step state = .ok (values, state')) : inv state' := by
  induction indices generalizing state values with
  | nil =>
    cases h
    exact hstate
  | cons index indices ih =>
    rw [List.mapM_cons] at h
    obtain ⟨value, middle, hfirst, hrest⟩ := of_bind_eq_ok h
    obtain ⟨more, last, hmore, hlast⟩ := of_bind_eq_ok hrest
    cases hlast
    exact ih (hinv index state value middle hstate hfirst) hmore

/-- A sequence does on a state what another one does on an abstraction of it, if its first step
does and what follows does. -/
theorem bind_map_eq {β : Type} {step : StateT σ (Except ε) α} {spec : StateT τ (Except ε') α}
    {next : α → StateT σ (Except ε) β} {nextSpec : α → StateT τ (Except ε') β} {state : σ}
    (hstep : (step state).map (Prod.map id f) = (spec (f state)).mapError g)
    (hnext : ∀ value middle, step state = .ok (value, middle) →
      (next value middle).map (Prod.map id f) = (nextSpec value (f middle)).mapError g) :
    ((step >>= next) state).map (Prod.map id f) =
      ((spec >>= nextSpec) (f state)).mapError g := by
  cases hrun : step state with
  | error error =>
    cases hspec : spec (f state) with
    | error error' =>
      rw [hrun, hspec] at hstep
      rw [error_bind hrun, error_bind hspec]
      exact congrArg _ (Except.error.inj hstep)
    | ok result =>
      rw [hrun, hspec] at hstep
      cases hstep
  | ok result =>
    obtain ⟨value, middle⟩ := result
    cases hspec : spec (f state) with
    | error error' =>
      rw [hrun, hspec] at hstep
      cases hstep
    | ok result' =>
      obtain ⟨value', place⟩ := result'
      rw [hrun, hspec] at hstep
      cases hstep
      rw [ok_bind hrun, ok_bind hspec]
      exact hnext value middle hrun

/-- Steps that each do what others do on an abstraction of the state do so in a sequence. -/
theorem mapM_map_eq
    (hstep : ∀ index state, inv state →
      (step index state).map (Prod.map id f) = (spec index (f state)).mapError g)
    (hinv : ∀ index state value state', inv state → step index state = .ok (value, state') →
      inv state')
    (indices : List ι) {state : σ} (hstate : inv state) :
    (indices.mapM step state).map (Prod.map id f) =
      (indices.mapM spec (f state)).mapError g := by
  induction indices generalizing state with
  | nil => rfl
  | cons index indices ih =>
    rw [List.mapM_cons, List.mapM_cons]
    refine bind_map_eq (hstep index state hstate) fun value middle hfirst => ?_
    exact bind_map_eq (ih (hinv index state value middle hstate hfirst)) fun _ _ _ => rfl

end PureStep

/-! ### Missing bits -/

namespace BitReader

variable {α β : Type}

/-- A step that is out of data if fewer bits are left than it takes. -/
def NeedsBits (step : ReadM α) (count : Nat) : Prop :=
  ∀ reader : BitReader, reader.Valid → reader.bits.length < count →
    step reader = .error .outOfData

/-- A sequence is out of data if its first step is, or what follows. -/
theorem NeedsBits.bind {step : ReadM α} {next : α → ReadM β} {count more : Nat}
    (h : NeedsBits step count)
    (hnext : ∀ bits : Bits, bits.length = count →
      ∃ value, Reads step (fun _ => bits) value ∧ NeedsBits (next value) more) :
    NeedsBits (step >>= next) (more + count) := by
  intro reader hv hfew
  by_cases hfirst : reader.bits.length < count
  · exact PureStep.error_bind (h reader hv hfirst)
  · have hsplit := (List.take_append_drop count reader.bits).symm
    obtain ⟨value, hreads, hneeds⟩ :=
      hnext (reader.bits.take count) (List.length_take_of_le (Nat.le_of_not_lt hfirst))
    obtain ⟨middle, hmiddle, hadvance⟩ := hreads reader _ hv hsplit
    rw [PureStep.ok_bind hmiddle]
    refine hneeds middle (hadvance.valid hv) ?_
    rw [hadvance.rest_eq hsplit, List.length_drop]
    omega

/-- Another value made of what is read needs no more bits. -/
theorem NeedsBits.map {step : ReadM α} {count : Nat} (h : NeedsBits step count) (f : α → β) :
    NeedsBits (f <$> step) count := by
  intro reader hv hfew
  rw [map_eq_pure_bind]
  exact PureStep.error_bind (h reader hv hfew)

/-- No step can be short of no bits. -/
theorem needsBits_zero (step : ReadM α) : NeedsBits step 0 :=
  fun _ _ hfew => absurd hfew (Nat.not_lt_zero _)

/-- A bit is read if there is one. -/
theorem needsBits_readBit : NeedsBits readBit 1 :=
  fun _ _ hfew => readBit_of_bits_nil (List.length_eq_zero_iff.1 (Nat.lt_one_iff.1 hfew))

/-- A number is read bit by bit if there are so many. -/
theorem needsBits_readBitsAfter (high count : Nat) :
    NeedsBits (readBitsAfter high count) count := by
  induction count generalizing high with
  | zero => exact needsBits_zero _
  | succ count ih =>
    refine needsBits_readBit.bind fun bits hbits => ?_
    obtain ⟨bit, rfl⟩ := List.length_eq_one_iff.1 hbits
    exact ⟨bit, reads_readBit bit, ih _⟩

/-- A number is read if its bits are there, of which 64 count. -/
theorem needsBits_readBits (count : Nat) : NeedsBits (readBits count) (min count 64) :=
  needsBits_readBitsAfter 0 _

/-- Inside a byte, bytes are read if there are eight bits for each. -/
theorem needsBits_readUnalignedAfter (taken : Bytes) (count : Nat) :
    NeedsBits (readUnalignedAfter taken count) (8 * count) := by
  induction count generalizing taken with
  | zero => exact needsBits_zero _
  | succ count ih =>
    refine (needsBits_readBits 8).bind fun bits hbits => ?_
    have hreads := @reads_readBits bits (by omega)
    rw [hbits] at hreads
    exact ⟨_, hreads, ih _⟩

/-- Bytes are read if they are there, at a byte boundary or not. -/
theorem needsBits_readBytes (count : Nat) : NeedsBits (readBytes count) (8 * count) := by
  intro reader hv hfew
  by_cases haligned : reader.isAligned = true
  · refine readBytes_of_length_lt haligned ?_
    rw [bits, List.length_append, Bits.length_ofBytes] at hfew
    omega
  · rw [readBytes_of_not_isAligned haligned]
    exact PureStep.error_bind (needsBits_readUnalignedAfter [] count reader hv hfew)

/-- Bits that are skipped in whole bytes as far as they fill any. -/
theorem needsBits_skipAhead (count : Nat) :
    NeedsBits (do
      if 8 ≤ count then
        let _ ← readBytes (count / 8)
      let _ ← readBits (count % 8) : ReadM Unit) count := by
  have hrest : NeedsBits (do let _ ← readBits (count % 8) : ReadM Unit) (count % 8) := by
    have hlast := (needsBits_readBits (count % 8)).map fun _ => ()
    rwa [map_eq_pure_bind, Nat.min_eq_left (by omega)] at hlast
  by_cases hwhole : 8 ≤ count
  · simp only [if_pos hwhole]
    intro reader hv hfew
    refine ((needsBits_readBytes (count / 8)).bind fun bits hbits => ?_) reader hv
      (Nat.lt_of_lt_of_eq hfew (Nat.mod_add_div count 8).symm)
    obtain ⟨bytes, hreads⟩ := reads_readBytes_of_bits hbits
    exact ⟨bytes, hreads, hrest⟩
  · simp only [if_neg hwhole]
    have hcount : count % 8 = count := Nat.mod_eq_of_lt (Nat.lt_of_not_le hwhole)
    rwa [hcount] at hrest ⊢

/-- Bits are skipped if they are there. -/
theorem needsBits_skipBits (count : Nat) : NeedsBits (skipBits count) count := by
  intro reader hv hfew
  rw [skipBits, PureStep.get_bind]
  generalize hbuffered : min count reader.pending.length = buffered
  have hpending := hv.pending_lt
  have hsmall : min buffered 64 = buffered := by omega
  have hfirst := needsBits_readBits buffered
  rw [hsmall] at hfirst
  refine (hfirst.bind fun bits hbits => ?_) reader hv
    (Nat.lt_of_lt_of_eq hfew (by omega : count = count - buffered + buffered))
  have hreads := @reads_readBits bits (by omega)
  rw [hbits] at hreads
  exact ⟨_, hreads, needsBits_skipAhead _⟩

/-- The same of bits that are skipped one by one. -/
theorem needsBits_skipTimes_skipFlag (count : Nat) :
    NeedsBits (skipTimes count skipFlag) count := by
  induction count with
  | zero => exact needsBits_zero _
  | succ count ih =>
    refine (needsBits_readBit.map fun _ => ()).bind fun bits hbits => ?_
    obtain ⟨bit, rfl⟩ := List.length_eq_one_iff.1 hbits
    exact ⟨(), (reads_readBit bit).map fun _ => (), ih⟩

/-! ### Where a reader ends -/

/-- A reader that has read certain bits ends in one place, however it has read them. -/
theorem Advances.unique {reader a b : BitReader} {bits : Bits} (ha : reader.Advances bits a)
    (hb : reader.Advances bits b) : a = b := by
  obtain ⟨bytes, hgives, hbits⟩ := ha.fetched
  obtain ⟨bytes', hgives', hbits'⟩ := hb.fetched
  have hlength : bytes.length = bytes'.length := by
    have hlen := congrArg List.length hbits
    have hlen' := congrArg List.length hbits'
    rw [List.length_append, List.length_append, Bits.length_ofBytes] at hlen hlen'
    have := ha.pending_lt
    have := hb.pending_lt
    omega
  have htake := hgives.take_eq
  rw [hlength, hgives'.take_eq] at htake
  obtain ⟨rfl, hsource⟩ := Prod.mk.inj htake
  have hpending : a.pending = b.pending := List.append_cancel_left (hbits.symm.trans hbits')
  have hposition : a.position = b.position := ha.position_eq.trans hb.position_eq.symm
  cases a
  cases b
  cases hsource
  cases hpending
  cases hposition
  rfl

/-- Bits that are skipped one by one are passed. -/
theorem reads_skipTimes_skipFlag (bits : Bits) :
    Reads (skipTimes bits.length skipFlag) (fun _ => bits) () := by
  induction bits with
  | nil => exact reads_pure ()
  | cons bit bits ih =>
    exact ((reads_readBit bit).bind_nil (reads_pure ())).bind ih fun _ => rfl

/-- Bits are skipped as if one by one, from any place and also if there are not so many. -/
theorem skipBits_eq_skipTimes {reader : BitReader} (hv : reader.Valid) (count : Nat) :
    skipBits count reader = skipTimes count skipFlag reader := by
  by_cases hfew : reader.bits.length < count
  · rw [needsBits_skipBits count reader hv hfew, needsBits_skipTimes_skipFlag count reader hv hfew]
  · have hsplit := (List.take_append_drop count reader.bits).symm
    have hlength := List.length_take_of_le (Nat.le_of_not_lt hfew)
    obtain ⟨a, hskip, ha⟩ := reads_skipBits (reader.bits.take count) reader _ hv hsplit
    obtain ⟨b, htimes, hb⟩ := reads_skipTimes_skipFlag (reader.bits.take count) reader _ hv hsplit
    rw [hlength] at hskip htimes
    rw [hskip, htimes, ha.unique hb]

/-! ### Operations -/

/-- What may be asked of a reader. -/
inductive ReadOp
  | bit
  /-- A number of so many bits, of 64 if there are more. -/
  | number (count : UInt8)
  | skip (count : UInt64)
  /-- Moving on to the next byte boundary. -/
  | align
  | bytes (count : USize)
  /-- A big-endian integer of so many bytes. -/
  | integer (count : USize)

namespace ReadOp

/-- Does on a reader what is asked for. -/
def run : ReadOp → ReadM ItemValue
  | .bit => .flag <$> readBit
  | .number count => .number <$> readBits count.toNat
  | .skip count => do
    skipBits count.toNat
    return .none
  | .align => do
    BitReader.align
    return .none
  | .bytes count => .bytes <$> readBytes count.toNat
  | .integer count => .number <$> readBigEndian count.toNat

/-- How many bits an operation takes at a place. -/
def width (cursor : Nat) : ReadOp → Nat
  | .bit => 1
  | .number count => min count.toNat 64
  | .skip count => count.toNat
  | .align => (8 - cursor % 8) % 8
  | .bytes count | .integer count => 8 * count.toNat

/-- What an operation makes of the bits that it takes. -/
def value (taken : Bits) : ReadOp → ItemValue
  | .bit => .flag (taken.headD false)
  | .number _ | .integer _ => .number (Bits.toNat taken)
  | .bytes _ => .bytes (Bits.pack taken)
  | .skip _ | .align => .none

/-- Does with a list of bits and a place in it what is asked for: the operation takes the next bits
and moves on by so many, if there are so many. -/
def onBits (bits : Bits) (op : ReadOp) : StateT Nat (Except Error) ItemValue := fun cursor =>
  let count := op.width cursor
  if cursor + count ≤ bits.length then
    .ok (op.value ((bits.drop cursor).take count), cursor + count)
  else
    .error .outOfData

end ReadOp

/-- What is left of the current byte is dropped. -/
theorem align_eq (reader : BitReader) :
    ∃ reader', align reader = .ok ((), reader') ∧ reader.Advances reader.pending reader' :=
  ⟨_, rfl, rfl, Nat.zero_lt_succ 7, [], .nil _, rfl⟩

namespace ReadOp

variable {op : ReadOp} {reader : BitReader}

/-- An operation takes the bits that come next. -/
theorem run_eq_ok (hv : reader.Valid) {taken rest : Bits} (hbits : reader.bits = taken ++ rest)
    (htaken : taken.length = op.width reader.position) :
    ∃ reader', op.run reader = .ok (op.value taken, reader') ∧ reader.Advances taken reader' := by
  cases op with
  | bit =>
    obtain ⟨bit, rfl⟩ := List.length_eq_one_iff.1 htaken
    exact (reads_readBit bit).map ItemValue.flag reader rest hv hbits
  | number count =>
    have hreads := reads_readBitsAfter 0 taken
    rw [Nat.zero_mul, Nat.zero_add, htaken] at hreads
    exact hreads.map ItemValue.number reader rest hv hbits
  | skip count =>
    have hreads := reads_skipBits taken
    rw [htaken] at hreads
    exact hreads.bind_nil (reads_pure ItemValue.none) reader rest hv hbits
  | align =>
    obtain ⟨rfl, -⟩ := List.append_inj hbits (hv.pending_length.trans htaken.symm)
    obtain ⟨reader', halign, hadvance⟩ := align_eq reader
    exact ⟨reader', PureStep.ok_bind halign, hadvance⟩
  | bytes count =>
    obtain ⟨bytes, rfl⟩ := Bits.exists_ofBytes_eq htaken
    have hcount : bytes.length = count.toNat := by
      rw [Bits.length_ofBytes, width] at htaken
      omega
    have hreads := (reads_readBytes bytes).map ItemValue.bytes reader rest hv hbits
    rw [hcount] at hreads
    rwa [value, Bits.pack_ofBytes]
  | integer count =>
    obtain ⟨bytes, rfl⟩ := Bits.exists_ofBytes_eq htaken
    have hcount : bytes.length = count.toNat := by
      rw [Bits.length_ofBytes, width] at htaken
      omega
    have hreads :=
      ((reads_readBytes bytes).map Bytes.toNat).map ItemValue.number reader rest hv hbits
    rw [hcount] at hreads
    rwa [value, Bits.toNat_ofBytes]

/-- An operation is out of data if fewer bits are left than it takes. -/
theorem run_eq_error (hv : reader.Valid) (hfew : reader.bits.length < op.width reader.position) :
    op.run reader = .error .outOfData := by
  cases op with
  | bit => exact needsBits_readBit.map ItemValue.flag reader hv hfew
  | number count => exact (needsBits_readBits count.toNat).map ItemValue.number reader hv hfew
  | skip count => exact PureStep.error_bind (needsBits_skipBits count.toNat reader hv hfew)
  | align =>
    -- What is left of the current byte is there.
    rw [bits, List.length_append, hv.pending_length] at hfew
    exact absurd (Nat.lt_of_le_of_lt (Nat.le_add_right _ _) hfew) (Nat.lt_irrefl _)
  | bytes count => exact (needsBits_readBytes count.toNat).map ItemValue.bytes reader hv hfew
  | integer count =>
    exact ((needsBits_readBytes count.toNat).map Bytes.toNat).map ItemValue.number reader hv hfew

end ReadOp

/-! ### One list of bits -/

/-- A reader that stands in a list of bits, as far in as it counts. -/
structure StandsIn (bits : Bits) (reader : BitReader) : Prop where
  valid : reader.Valid
  position_le : reader.position ≤ bits.length
  bits_eq : reader.bits = bits.drop reader.position

/-- A new reader stands at the start of the bits of its source. -/
theorem standsIn_ofSource (source : ByteSource) :
    (ofSource source).StandsIn (Bits.ofBytes source.contents) :=
  ⟨valid_ofSource source, Nat.zero_le _, rfl⟩

section

variable {bits : Bits} {reader : BitReader}

/-- The bits that were read and those that are left are all there are. -/
theorem StandsIn.length_bits (h : reader.StandsIn bits) :
    reader.position + reader.bits.length = bits.length := by
  have := h.position_le
  rw [h.bits_eq, List.length_drop]
  omega

/-- A reader moves on in the list. -/
theorem StandsIn.advances (h : reader.StandsIn bits) {reader' : BitReader} {taken : Bits}
    (hadvance : reader.Advances taken reader') : reader'.StandsIn bits := by
  have hlength := h.length_bits
  have hdrop : reader'.bits = bits.drop reader'.position := by
    rw [hadvance.position_eq, ← List.drop_drop, ← h.bits_eq, hadvance.bits_eq, List.drop_left]
  refine ⟨hadvance.valid h.valid, ?_, hdrop⟩
  rw [hadvance.bits_eq, List.length_append] at hlength
  rw [hadvance.position_eq]
  omega

/-- The place in the list is all there is to know of a reader. -/
theorem StandsIn.run_eq (h : reader.StandsIn bits) (op : ReadOp) :
    (op.run reader).map (Prod.map id position) = op.onBits bits reader.position := by
  have hlength := h.length_bits
  rw [ReadOp.onBits]
  by_cases hfits : reader.position + op.width reader.position ≤ bits.length
  · have hsplit := (List.take_append_drop (op.width reader.position) reader.bits).symm
    obtain ⟨reader', hrun, hadvance⟩ :=
      ReadOp.run_eq_ok h.valid hsplit (List.length_take_of_le (by omega))
    rw [if_pos hfits, hrun, ← h.bits_eq]
    have hposition := hadvance.position_eq
    rw [List.length_take_of_le (by omega)] at hposition
    rw [← hposition]
    rfl
  · rw [if_neg hfits, ReadOp.run_eq_error h.valid (by omega)]
    rfl

/-- An operation that succeeds leaves the reader in the list. -/
theorem StandsIn.of_run_eq_ok (h : reader.StandsIn bits) {op : ReadOp} {value : ItemValue}
    {reader' : BitReader} (hrun : op.run reader = .ok (value, reader')) :
    reader'.StandsIn bits := by
  by_cases hfew : reader.bits.length < op.width reader.position
  · rw [ReadOp.run_eq_error h.valid hfew] at hrun
    cases hrun
  · have hsplit := (List.take_append_drop (op.width reader.position) reader.bits).symm
    obtain ⟨own, hown, hadvance⟩ :=
      ReadOp.run_eq_ok h.valid hsplit (List.length_take_of_le (Nat.le_of_not_lt hfew))
    rw [hown] at hrun
    cases hrun
    exact h.advances hadvance

/-- **Sequences of operations** on a reader give what they give on the list of bits, as far as they
succeed, and move on by as many bits. -/
theorem StandsIn.mapM_run_eq (h : reader.StandsIn bits) (ops : List ReadOp) :
    (ops.mapM ReadOp.run reader).map (Prod.map id position) =
      ops.mapM (ReadOp.onBits bits) reader.position := by
  have hall := PureStep.mapM_map_eq (g := id)
    (fun op _ hop => (hop.run_eq op).trans (PureStep.mapError_id _).symm)
    (fun _ _ _ _ hop hrun => hop.of_run_eq_ok hrun) ops h
  rwa [PureStep.mapError_id] at hall

/-- And so does a sequence of operations. -/
theorem StandsIn.of_mapM_run_eq_ok (h : reader.StandsIn bits) {ops : List ReadOp}
    {values : List ItemValue} {reader' : BitReader}
    (hrun : ops.mapM ReadOp.run reader = .ok (values, reader')) : reader'.StandsIn bits :=
  PureStep.inv_of_mapM_eq_ok (fun _ _ _ _ hop hstep => hop.of_run_eq_ok hstep) h hrun

/-- A reader is at a byte boundary if it has read whole bytes. -/
theorem Valid.isAligned_iff (hv : reader.Valid) :
    reader.isAligned = true ↔ reader.position % 8 = 0 := by
  have := hv.pending_length
  rw [isAligned, List.isEmpty_iff, ← List.length_eq_zero_iff]
  omega

/-- Moving on to the next byte boundary never fails. -/
theorem Valid.exists_align (hv : reader.Valid) :
    ∃ reader', align reader = .ok ((), reader') ∧
      reader'.position = (reader.position + 7) / 8 * 8 := by
  obtain ⟨reader', halign, hadvance⟩ := align_eq reader
  refine ⟨reader', halign, ?_⟩
  rw [hadvance.position_eq, hv.pending_length]
  omega

end

end BitReader

end H266
