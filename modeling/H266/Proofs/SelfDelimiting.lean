import H266.Proofs.Consuming
import H266.Proofs.EmulationPrevention

/-!
# Self-Delimiting Steps

A step that succeeds has read some bytes off its source and has looked at no others. So the same
bytes are enough for it whatever comes after them, and none of them can be missing: if the source
ends before the last of them, the step is out of data. Such a step is *self-delimiting*.

Emulation prevention bytes count among the bytes that were read if they come before a byte that
is needed. One that comes after the last such byte is not fetched.

Not every step is self-delimiting: reading up to a number of bytes, or all that are left, succeeds
on fewer of them. Reading exactly a number of bytes is, and so are sequences of self-delimiting
steps, whatever decides on how they go on.

## Main results

* `ByteSource.Gives.exists_fetches`: the bytes that a source fetches to give some of its contents.
* `BitReader.SelfDelimiting.bind`: sequences of self-delimiting steps.
* `BitReader.selfDelimiting_readBit`, `BitReader.selfDelimiting_readBytes`,
  `BitReader.selfDelimiting_skipBits`: the operations of the reader.
-/

namespace H266

/-- A string in two parts is cut off in its first part, or after it. -/
theorem Bytes.cut_append {a b part missing : Bytes} (h : part ++ missing = a ++ b) :
    (∃ more, part ++ more = a ∧ more ≠ []) ∨ ∃ more, part = a ++ more ∧ more ++ missing = b := by
  obtain ⟨more, hfirst, hrest⟩ | ⟨more, hfirst, hrest⟩ := List.append_eq_append_iff.1 h
  · by_cases hnil : more = []
    · subst hnil
      exact .inr ⟨[], by simpa using hfirst.symm, hrest⟩
    · exact .inl ⟨more, hfirst.symm, hnil⟩
  · exact .inr ⟨more, hfirst, hrest.symm⟩

/-! ### Fetching bytes -/

namespace ByteSource

/-- The source, had it the given bytes still to come. -/
def continuedBy (source : ByteSource) (bytes : Bytes) : ByteSource :=
  { source with remaining := bytes }

/-- `source.Fetches fetched bytes source'` says that the source gives `bytes` when it has fetched
`fetched`, whatever comes after that, and that it has fewer bytes to give if less comes. -/
structure Fetches (source : ByteSource) (fetched bytes : Bytes) (source' : ByteSource) :
    Prop where
  remaining_eq : source.remaining = fetched ++ source'.remaining
  gives : ∀ tail, (source.continuedBy (fetched ++ tail)).Gives bytes (source'.continuedBy tail)
  short : ∀ part missing, part ++ missing = fetched → missing ≠ [] →
    (source.continuedBy part).contents.length < bytes.length

/-- The next byte of an escaped string is known from it and the emulation prevention bytes before
it. -/
theorem exists_fetched_of_nextUnescaped? {zeros : Nat} {bytes : Bytes} {byte : UInt8}
    {next : ByteSource} (h : nextUnescaped? zeros bytes = some (byte, next)) :
    ∃ fetched, bytes = fetched ++ next.remaining ∧
      (∀ tail, nextUnescaped? zeros (fetched ++ tail) = some (byte, next.continuedBy tail)) ∧
      ∀ part missing, part ++ missing = fetched → missing ≠ [] →
        nextUnescaped? zeros part = none := by
  fun_induction nextUnescaped? zeros bytes with
  | case1 => cases h
  | case2 zeros first rest hprevention ih =>
    obtain ⟨fetched, rfl, hnext, hcut⟩ := ih h
    refine ⟨first :: fetched, rfl, fun tail => ?_, fun part missing hparts hmissing => ?_⟩
    · rw [List.cons_append, nextUnescaped?, if_pos hprevention]
      exact hnext tail
    · cases part with
      | nil => rfl
      | cons own part =>
        obtain ⟨rfl, hrest⟩ := List.cons.inj hparts
        rw [nextUnescaped?, if_pos hprevention]
        exact hcut part missing hrest hmissing
  | case3 zeros first rest hprevention =>
    cases h
    refine ⟨[byte], rfl, fun tail => ?_, fun part missing hparts hmissing => ?_⟩
    · rw [List.singleton_append, nextUnescaped?, if_neg hprevention]
      rfl
    · obtain ⟨rfl, -⟩ | ⟨-, rfl⟩ := List.append_eq_singleton_iff.1 hparts
      · rfl
      · exact absurd rfl hmissing

/-- The next byte is known from what was fetched for it. -/
theorem exists_fetched_of_next? {source next : ByteSource} {byte : UInt8}
    (h : source.next? = some (byte, next)) :
    ∃ fetched, source.remaining = fetched ++ next.remaining ∧
      (∀ tail, (source.continuedBy (fetched ++ tail)).next? =
        some (byte, next.continuedBy tail)) ∧
      ∀ part missing, part ++ missing = fetched → missing ≠ [] →
        (source.continuedBy part).next? = none := by
  rcases source with ⟨remaining, _ | _, zeros⟩
  · cases remaining with
    | nil => cases h
    | cons first rest =>
      cases h
      refine ⟨[byte], rfl, fun _ => rfl, fun part missing hparts hmissing => ?_⟩
      obtain ⟨rfl, -⟩ | ⟨-, rfl⟩ := List.append_eq_singleton_iff.1 hparts
      · rfl
      · exact absurd rfl hmissing
  · exact exists_fetched_of_nextUnescaped? h

/-- What a source gives is known from what was fetched for it. -/
theorem Gives.exists_fetches {source source' : ByteSource} {bytes : Bytes}
    (h : source.Gives bytes source') : ∃ fetched, source.Fetches fetched bytes source' := by
  induction h with
  | nil source =>
    refine ⟨[], rfl, fun tail => .nil _, fun part missing hparts hmissing => ?_⟩
    exact absurd (List.append_eq_nil_iff.1 hparts).2 hmissing
  | @cons source next source' byte bytes hnext _ ih =>
    obtain ⟨first, hfirst, hsame, hcut⟩ := exists_fetched_of_next? hnext
    obtain ⟨rest, hrest⟩ := ih
    refine ⟨first ++ rest, ?_, fun tail => ?_, fun part missing hparts hmissing => ?_⟩
    · rw [hfirst, hrest.remaining_eq, List.append_assoc]
    · rw [List.append_assoc]
      exact .cons (hsame (rest ++ tail)) (hrest.gives tail)
    · -- The cut is in what was fetched for the first byte, or after it.
      obtain ⟨more, hpart, hmore⟩ | ⟨more, rfl, hmore⟩ := Bytes.cut_append hparts
      · rw [next?_eq_none_iff.1 (hcut part more hpart hmore)]
        exact Nat.zero_lt_succ _
      · have hlength := hrest.short more missing hmore hmissing
        rw [contents_eq_next?, hsame more]
        exact Nat.succ_lt_succ hlength

end ByteSource

/-! ### Steps -/

namespace BitReader

variable {α β : Type}

/-- The reader, had it the given bytes still to fetch. -/
def continuedBy (reader : BitReader) (bytes : Bytes) : BitReader :=
  { reader with source := reader.source.continuedBy bytes }

/-- `Delimits step reader consumed value reader'` says that the step needs the bytes `consumed`
of the reader and no others: it gives `value` and ends at `reader'` whatever comes after them, and
is out of data if some of them are missing. -/
structure Delimits (step : ReadM α) (reader : BitReader) (consumed : Bytes) (value : α)
    (reader' : BitReader) : Prop where
  unread_eq : reader.unread = consumed ++ reader'.unread
  run : ∀ tail, step (reader.continuedBy (consumed ++ tail)) =
    .ok (value, reader'.continuedBy tail)
  cut : ∀ part missing, part ++ missing = consumed → missing ≠ [] →
    step (reader.continuedBy part) = .error .outOfData

/-- A step that needs just the bytes that it has read, whenever it succeeds. -/
def SelfDelimiting (step : ReadM α) : Prop :=
  ∀ reader value reader', step reader = .ok (value, reader') →
    ∃ consumed, Delimits step reader consumed value reader'

/-- A step that has fetched nothing needs nothing. -/
theorem Delimits.of_nil {step : ReadM α} {reader reader' : BitReader} {value : α}
    (hunread : reader.unread = reader'.unread)
    (hrun : ∀ tail, step (reader.continuedBy tail) = .ok (value, reader'.continuedBy tail)) :
    Delimits step reader [] value reader' :=
  ⟨hunread, hrun, fun _ _ hparts hmissing =>
    absurd (List.append_eq_nil_iff.1 hparts).2 hmissing⟩

/-- It only matters what the step does on the reader with any bytes to come. -/
theorem Delimits.congr {step step' : ReadM α} {reader reader' : BitReader} {consumed : Bytes}
    {value : α} (h : Delimits step' reader consumed value reader')
    (hsame : ∀ bytes, step (reader.continuedBy bytes) = step' (reader.continuedBy bytes)) :
    Delimits step reader consumed value reader' :=
  ⟨h.unread_eq, fun tail => (hsame _).trans (h.run tail),
    fun part missing hparts hmissing => (hsame _).trans (h.cut part missing hparts hmissing)⟩

/-- A value is given without reading. -/
theorem selfDelimiting_pure (value : α) : SelfDelimiting (pure value) := by
  intro reader own reader' h
  cases h
  exact ⟨[], .of_nil rfl fun _ => rfl⟩

/-- What is refused is refused at any length. -/
theorem selfDelimiting_throw (error : Error) : SelfDelimiting (throw error : ReadM α) := by
  intro reader value reader' h
  cases h

/-- The bytes of a sequence are those of its steps, and it is cut off in the first step or in what
follows. -/
theorem SelfDelimiting.bind {step : ReadM α} {next : α → ReadM β} (hstep : SelfDelimiting step)
    (hnext : ∀ value, SelfDelimiting (next value)) : SelfDelimiting (step >>= next) := by
  intro reader value reader' h
  obtain ⟨own, middle, hfirst, hrest⟩ := PureStep.of_bind_eq_ok h
  obtain ⟨a, ha⟩ := hstep reader own middle hfirst
  obtain ⟨b, hb⟩ := hnext own middle value reader' hrest
  refine ⟨a ++ b, ?_, fun tail => ?_, fun part missing hparts hmissing => ?_⟩
  · rw [ha.unread_eq, hb.unread_eq, List.append_assoc]
  · rw [List.append_assoc, PureStep.ok_bind (ha.run (b ++ tail))]
    exact hb.run tail
  · obtain ⟨more, hpart, hmore⟩ | ⟨more, rfl, hmore⟩ := Bytes.cut_append hparts
    · exact PureStep.error_bind (ha.cut part more hpart hmore)
    · rw [PureStep.ok_bind (ha.run more)]
      exact hb.cut more missing hmore hmissing

/-- What follows a check. -/
theorem SelfDelimiting.check {p : Prop} [Decidable p] {error : Error} {next : PUnit → ReadM α}
    (h : SelfDelimiting (next ⟨⟩)) :
    SelfDelimiting (if p then throw error >>= next else next ⟨⟩) := by
  split
  · exact (selfDelimiting_throw error).bind fun _ => h
  · exact h

/-! ### Bits -/

/-- A bit is read whatever follows it. -/
theorem selfDelimiting_readBit : SelfDelimiting readBit := by
  intro reader bit reader' h
  obtain ⟨source, _ | ⟨first, pending⟩, position⟩ := reader
  · cases hnext : source.next? with
    | none =>
      simp only [readBit, hnext] at h
      cases h
    | some fetched =>
      obtain ⟨byte, next⟩ := fetched
      simp only [readBit, hnext] at h
      cases h
      obtain ⟨consumed, hremaining, hsame, hcut⟩ := ByteSource.exists_fetched_of_next? hnext
      refine ⟨consumed, hremaining, fun tail => ?_, fun part missing hparts hmissing => ?_⟩
      · simp only [readBit, continuedBy, hsame tail]
      · simp only [readBit, continuedBy, hcut part missing hparts hmissing]
  · cases h
    exact ⟨[], .of_nil rfl fun _ => rfl⟩

/-- A number is read bit by bit. -/
theorem selfDelimiting_readBitsAfter (high count : Nat) :
    SelfDelimiting (readBitsAfter high count) := by
  induction count generalizing high with
  | zero => exact selfDelimiting_pure high
  | succ count ih => exact selfDelimiting_readBit.bind fun bit => ih (2 * high + bit.toNat)

/-- A number is read whatever follows it. -/
theorem selfDelimiting_readBits (count : Nat) : SelfDelimiting (readBits count) :=
  selfDelimiting_readBitsAfter 0 (min count 64)

/-- The rest of the current byte was fetched with its first bit. -/
theorem selfDelimiting_align : SelfDelimiting align := by
  intro reader value reader' h
  cases h
  exact ⟨[], .of_nil rfl fun _ => rfl⟩

/-! ### Bytes -/

/-- Inside a byte, bytes are read as numbers of eight bits. -/
theorem selfDelimiting_readUnalignedAfter (taken : Bytes) (count : Nat) :
    SelfDelimiting (readUnalignedAfter taken count) := by
  induction count generalizing taken with
  | zero => exact selfDelimiting_pure _
  | succ count ih => exact (selfDelimiting_readBits 8).bind fun byte => ih _

/-- Bytes that the source gives are read at a byte boundary. -/
theorem readBytes_of_gives {reader : BitReader} {source' : ByteSource} {bytes : Bytes}
    (haligned : reader.isAligned = true) (hgives : reader.source.Gives bytes source') :
    readBytes bytes.length reader =
      .ok (bytes, { reader with
        source := source', position := reader.position + 8 * bytes.length }) := by
  rw [readBytes, PureStep.ok_bind (readSome_of_gives (List.isEmpty_iff.1 haligned) hgives),
    if_neg (Nat.lt_irrefl _)]
  rfl

/-- At a byte boundary the source must have all bytes that are asked for. -/
theorem readBytes_of_length_lt {reader : BitReader} {count : Nat}
    (haligned : reader.isAligned = true) (h : reader.source.contents.length < count) :
    readBytes count reader = .error .outOfData := by
  have hshort : (reader.source.take count).1.length < count := by
    rw [ByteSource.fst_take, List.length_take]
    omega
  rw [readBytes, PureStep.ok_bind (readSome_of_isAligned haligned count), if_pos hshort]
  rfl

/-- Elsewhere bytes are put together from bits. -/
theorem readBytes_of_not_isAligned {reader : BitReader} (h : ¬reader.isAligned = true)
    (count : Nat) :
    readBytes count reader = (do
      let bytes ← readUnalignedAfter [] count
      if bytes.length < count then throw .outOfData
      return bytes : ReadM Bytes) reader := by
  show (readSome count reader >>= _) = (readUnalignedAfter [] count reader >>= _)
  rw [readSome_of_not_isAligned h]

/-- Reading exactly a number of bytes needs just these, at a byte boundary those that the source
fetches for them. -/
theorem selfDelimiting_readBytes (count : Nat) : SelfDelimiting (readBytes count) := by
  intro reader bytes reader' h
  by_cases haligned : reader.isAligned = true
  · have hlength : count ≤ reader.source.contents.length := by
      refine Nat.le_of_not_lt fun hlt => ?_
      rw [readBytes_of_length_lt haligned hlt] at h
      cases h
    obtain ⟨source', hgives, -⟩ :=
      ByteSource.exists_gives (List.take_append_drop count reader.source.contents).symm
    obtain ⟨consumed, hfetches⟩ := hgives.exists_fetches
    have htake : (reader.source.contents.take count).length = count := by
      rw [List.length_take]
      omega
    generalize reader.source.contents.take count = given at hgives hfetches htake
    subst htake
    rw [readBytes_of_gives haligned hgives] at h
    cases h
    exact ⟨consumed, hfetches.remaining_eq,
      fun tail => readBytes_of_gives haligned (hfetches.gives tail),
      fun part missing hparts hmissing =>
        readBytes_of_length_lt haligned (hfetches.short part missing hparts hmissing)⟩
  · rw [readBytes_of_not_isAligned haligned] at h
    obtain ⟨consumed, hconsumed⟩ := ((selfDelimiting_readUnalignedAfter [] count).bind
      fun bytes => SelfDelimiting.check (selfDelimiting_pure bytes)) reader bytes reader' h
    exact ⟨consumed, hconsumed.congr fun tail =>
      @readBytes_of_not_isAligned (reader.continuedBy tail) haligned count⟩

/-- How bits are skipped depends on how many are left of the current byte, and on nothing that is
still to be fetched. -/
theorem selfDelimiting_skipBits (count : Nat) : SelfDelimiting (skipBits count) := by
  have hsplit (buffered : Nat) : SelfDelimiting (do
      let _ ← readBits buffered
      let ahead := count - buffered
      if 8 ≤ ahead then
        let _ ← readBytes (ahead / 8)
      let _ ← readBits (ahead % 8) : ReadM Unit) := by
    refine (selfDelimiting_readBits buffered).bind fun _ => ?_
    have hrest : SelfDelimiting (do let _ ← readBits ((count - buffered) % 8) : ReadM Unit) :=
      (selfDelimiting_readBits _).bind fun _ => selfDelimiting_pure ()
    by_cases hwhole : 8 ≤ count - buffered
    · simp only [if_pos hwhole]
      exact (selfDelimiting_readBytes _).bind fun _ => hrest
    · simp only [if_neg hwhole]
      exact hrest
  intro reader value reader' h
  rw [skipBits, PureStep.get_bind] at h
  obtain ⟨consumed, hconsumed⟩ := hsplit _ reader value reader' h
  exact ⟨consumed, hconsumed.congr fun _ => rfl⟩

end BitReader

end H266
