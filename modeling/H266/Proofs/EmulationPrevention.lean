import H266.Proofs.ByteSink
import Mathlib.Data.List.Basic

/-!
# Emulation Prevention

A payload is escaped by writing it to a sink that puts in emulation prevention bytes, and an
escaped string is unescaped by reading it from a source that leaves them out. Neither depends on
how the bytes are divided among calls: the number of zero bytes that came last is carried over from
one call to the next.

Unescaping undoes escaping, but it takes more strings than escaping gives, for instance one in
which `03` follows two zero bytes at the very end. The strings that escaping gives are those in
which every two zero bytes are followed as a decoder expects it (`IsEscaped`): by the end, by a
byte above `03`, or by `03` before a byte that must not follow zero bytes.

## Main results

* `ByteSink.exists_mapM_write`: payloads are escaped part by part.
* `ByteSource.takeEach_eq`: what each of several reads gives.
* `ByteSource.unescapeSaturating_eq`, `ByteSource.escapeSaturating_eq`: zero bytes may be counted in
  a byte that stays at its largest value.
* `ByteSource.escapeAfter_unescapeAfter_iff`: which strings come back from unescaping and escaping.
* `ByteSource.IsEscaped.no_triple`: there is no start code in an escaped string.
* `ByteSource.escape_unescape_exact`: all of this for whole strings.
-/

namespace H266

/-! ### Writing in parts -/

namespace ByteSink

/-- What a sink that puts in emulation prevention bytes stores of a payload. -/
def escape (payload : Bytes) : Bytes :=
  (writeAll payload (empty true none)).2.stored.toList

/-- An unlimited sink has room for everything. -/
theorem exists_writeAll {bytes : Bytes} {sink : ByteSink} (h : sink.Holds none true bytes)
    (more : Bytes) :
    ∃ sink', writeAll more sink = (.ok (), sink') ∧ sink'.Holds none true (bytes ++ more) := by
  have hends := ends_writeAll more h
  rcases hall : writeAll more sink with ⟨error | _, sink'⟩
  · rw [hall] at hends
    obtain ⟨-, most, hmost, -⟩ := hends
    cases hmost
  · rw [hall] at hends
    exact ⟨sink', rfl, hends⟩

/-- It takes all it is offered. -/
theorem exists_write {bytes : Bytes} {sink : ByteSink} (h : sink.Holds none true bytes)
    (more : Bytes) :
    ∃ sink', write more sink = (.ok more.length, sink') ∧
      sink'.Holds none true (bytes ++ more) := by
  obtain ⟨sink', hall, hheld⟩ := exists_writeAll h more
  refine ⟨sink', ?_, hheld⟩
  rw [write, StateStep.get_bind, if_pos h.escaping_eq]
  exact StateStep.ok_bind hall

/-- The parts of a payload are taken one after the other. -/
theorem exists_mapM_write_of_holds {bytes : Bytes} {sink : ByteSink}
    (h : sink.Holds none true bytes) (parts : List Bytes) :
    ∃ sink', parts.mapM write sink = (.ok (parts.map (·.length)), sink') ∧
      sink'.Holds none true (bytes ++ parts.flatten) := by
  induction parts generalizing bytes sink with
  | nil =>
    rw [List.flatten_nil, List.append_nil]
    exact ⟨sink, rfl, h⟩
  | cons part parts ih =>
    obtain ⟨middle, hpart, hheld⟩ := exists_write h part
    obtain ⟨sink', hparts, hall⟩ := ih hheld
    rw [List.append_assoc] at hall
    refine ⟨sink', ?_, hall⟩
    rw [List.mapM_cons, StateStep.ok_bind hpart, StateStep.ok_bind hparts]
    rfl

/-- What a sink stores of a payload is the payload with emulation prevention bytes put in. -/
theorem escape_eq (payload : Bytes) : escape payload = ByteSource.escapeAfter 0 payload := by
  obtain ⟨sink, hall, hheld⟩ := exists_writeAll (holds_empty none true) payload
  rw [escape, hall]
  exact hheld.stores.stored_eq

/-- Payloads are escaped part by part. -/
theorem exists_mapM_write (parts : List Bytes) :
    ∃ sink, parts.mapM write (empty true none) = (.ok (parts.map (·.length)), sink) ∧
      sink.stored.toList = escape parts.flatten := by
  obtain ⟨sink, hparts, hheld⟩ := exists_mapM_write_of_holds (holds_empty none true) parts
  rw [escape_eq]
  exact ⟨sink, hparts, hheld.stores.stored_eq⟩

end ByteSink

/-! ### Reading in parts -/

namespace ByteSource

/-- Taking bytes gives the first of the contents and leaves the rest of them. -/
theorem takeAfter_eq (taken : Bytes) (count : Nat) (source : ByteSource) :
    (takeAfter taken count source).1 = taken.reverse ++ source.contents.take count ∧
      (takeAfter taken count source).2.contents = source.contents.drop count := by
  induction count generalizing taken source with
  | zero => exact ⟨(List.append_nil _).symm, rfl⟩
  | succ count ih =>
    rw [takeAfter]
    cases hnext : source.next? with
    | none =>
      have hempty : ({ source with remaining := [] } : ByteSource).contents = [] := by
        rcases source with ⟨remaining, _ | _, zeros⟩ <;> rfl
      simp [next?_eq_none_iff.1 hnext, hempty]
    | some next =>
      obtain ⟨byte, rest⟩ := next
      have hcontents : source.contents = byte :: rest.contents := by
        rw [contents_eq_next?, hnext]
        rfl
      obtain ⟨hbytes, hleft⟩ := ih (byte :: taken) rest
      rw [hcontents]
      exact ⟨by simp [hbytes], hleft⟩

/-- A read gives as many bytes as it asks for, or all there are. -/
theorem fst_take (count : Nat) (source : ByteSource) :
    (source.take count).1 = source.contents.take count :=
  (takeAfter_eq [] count source).1

/-- What a read does not give stays. -/
theorem contents_take (count : Nat) (source : ByteSource) :
    (source.take count).2.contents = source.contents.drop count :=
  (takeAfter_eq [] count source).2

/-- Reads of the given sizes, one after the other: what each of them gives, and the source after
them. -/
def takeEach : (sizes : List Nat) → ByteSource → List Bytes × ByteSource
  | [], source => ([], source)
  | size :: sizes, source =>
    let (bytes, rest) := source.take size
    let (pieces, last) := takeEach sizes rest
    (bytes :: pieces, last)

/-- What reads have given comes first in the contents, and the others can still be read. -/
theorem takeEach_eq (sizes : List Nat) (source : ByteSource) :
    source.contents = (takeEach sizes source).1.flatten ++ (takeEach sizes source).2.contents := by
  induction sizes generalizing source with
  | nil => rfl
  | cons size sizes ih =>
    have hrest := ih (source.take size).2
    rw [contents_take] at hrest
    rw [takeEach, List.flatten_cons, List.append_assoc, ← hrest, fst_take, List.take_append_drop]

/-- What is left of a string that is read without its emulation prevention bytes. -/
def unescape (escaped : Bytes) : Bytes :=
  (ofEscaped escaped).takeAll.1

/-- Unescaping adds no bytes. -/
theorem length_unescapeAfter_le (zeros : Nat) (bytes : Bytes) :
    (unescapeAfter zeros bytes).length ≤ bytes.length := by
  fun_induction unescapeAfter zeros bytes with
  | case1 => exact Nat.le_refl 0
  | case2 zeros byte rest h ih => exact Nat.le_succ_of_le ih
  | case3 zeros byte rest h ih => exact Nat.succ_le_succ ih

/-- Reading a string to its end leaves out its emulation prevention bytes and nothing else. -/
theorem unescape_eq (escaped : Bytes) : unescape escaped = unescapeAfter 0 escaped := by
  have hlength := length_unescapeAfter_le 0 escaped
  rw [unescape, takeAll, fst_take, contents_ofEscaped]
  exact List.take_of_length_le (Nat.le_succ_of_le hlength)

/-! ### Zero bytes -/

/-- Two zero bytes or more before a string that begins with a byte below `04` are parted from it
by an emulation prevention byte, which starts the count again. -/
theorem escapeAfter_of_two_le {zeros : Nat} (h : 2 ≤ zeros) {byte : UInt8} (hbyte : byte ≤ 3)
    (rest : Bytes) : escapeAfter zeros (byte :: rest) = 3 :: escapeAfter 0 (byte :: rest) := by
  simp [escapeAfter_cons, escapeByte, countEscapedZeros, h, hbyte]

/-- A byte that need not be parted from what comes before it stands for itself. -/
theorem escapeAfter_of_not {zeros : Nat} {byte : UInt8} (h : ¬(2 ≤ zeros ∧ byte ≤ 3))
    (rest : Bytes) :
    escapeAfter zeros (byte :: rest) = byte :: escapeAfter (countZeros zeros byte) rest := by
  simp [escapeAfter_cons, escapeByte, countEscapedZeros, h]

/-- From two zero bytes on it makes no difference to a reader how many there were, so its counter
may stop anywhere above. -/
theorem unescapeAfter_congr {m n : Nat} (hm : 2 ≤ m) (hn : 2 ≤ n) (bytes : Bytes) :
    unescapeAfter m bytes = unescapeAfter n bytes := by
  induction bytes generalizing m n with
  | nil => rfl
  | cons byte rest ih =>
    simp only [unescapeAfter, hm, hn, and_true, countZeros]
    by_cases hzero : byte = 0
    · simp [hzero, ih (by omega : 2 ≤ m + 1) (by omega : 2 ≤ n + 1)]
    · simp [hzero]

/-- Nor does it make a difference to a writer. -/
theorem escapeAfter_congr {m n : Nat} (hm : 2 ≤ m) (hn : 2 ≤ n) (bytes : Bytes) :
    escapeAfter m bytes = escapeAfter n bytes := by
  cases bytes with
  | nil => rfl
  | cons byte rest =>
    by_cases hbyte : byte ≤ 3
    · rw [escapeAfter_of_two_le hm hbyte, escapeAfter_of_two_le hn hbyte]
    · have hzero : byte ≠ 0 := by
        rintro rfl
        exact hbyte (by decide)
      simp [escapeAfter_of_not, hbyte, countZeros, hzero]

/-- How many zero bytes a string ends with after one more byte, in a counter of one byte that stays
at its largest value. -/
def countSaturating (zeros byte : UInt8) : UInt8 :=
  if byte = 0 then (if zeros = 255 then 255 else zeros + 1) else 0

/-- The bytes of an escaped string without its emulation prevention bytes, by such a counter. -/
def unescapeSaturating (zeros : UInt8) : Bytes → Bytes
  | [] => []
  | byte :: rest =>
    if byte = 3 ∧ 2 ≤ zeros then
      unescapeSaturating 0 rest
    else
      byte :: unescapeSaturating (countSaturating zeros byte) rest

/-- A byte string with emulation prevention bytes put in, by such a counter. -/
def escapeSaturating (zeros : UInt8) : Bytes → Bytes
  | [] => []
  | byte :: rest =>
    if 2 ≤ zeros ∧ byte ≤ 3 then
      3 :: byte :: escapeSaturating (countSaturating 0 byte) rest
    else
      byte :: escapeSaturating (countSaturating zeros byte) rest

/-- The counter is right until it stops, and both counts are two or more from then on. -/
theorem toNat_countSaturating (zeros byte : UInt8) :
    (countSaturating zeros byte).toNat = countZeros zeros.toNat byte ∨
      2 ≤ (countSaturating zeros byte).toNat ∧ 2 ≤ countZeros zeros.toNat byte := by
  rw [countSaturating, countZeros]
  by_cases hzero : byte = 0
  · rw [if_pos hzero, if_pos hzero]
    by_cases hfull : zeros = 255
    · subst hfull
      exact .inr (by decide)
    · have hlt := zeros.toNat_lt
      have hne : zeros.toNat ≠ 255 := fun heq => hfull (UInt8.toNat_inj.1 heq)
      rw [if_neg hfull, UInt8.toNat_add]
      exact .inl (Nat.mod_eq_of_lt (by change zeros.toNat + 1 < 256; omega))
  · rw [if_neg hzero, if_neg hzero]
    exact .inl rfl

/-- A reader may count in a byte. -/
theorem unescapeSaturating_eq (zeros : UInt8) (bytes : Bytes) :
    unescapeSaturating zeros bytes = unescapeAfter zeros.toNat bytes := by
  induction bytes generalizing zeros with
  | nil => rfl
  | cons byte rest ih =>
    have hcount : unescapeAfter (countSaturating zeros byte).toNat rest =
        unescapeAfter (countZeros zeros.toNat byte) rest := by
      rcases toNat_countSaturating zeros byte with hcount | ⟨hstopped, hcount⟩
      · rw [hcount]
      · exact unescapeAfter_congr hstopped hcount rest
    simp only [unescapeSaturating, unescapeAfter, ih, hcount, UInt8.le_iff_toNat_le]
    rfl

/-- And so may a writer. -/
theorem escapeSaturating_eq (zeros : UInt8) (bytes : Bytes) :
    escapeSaturating zeros bytes = escapeAfter zeros.toNat bytes := by
  induction bytes generalizing zeros with
  | nil => rfl
  | cons byte rest ih =>
    have hcount (zeros : UInt8) : escapeAfter (countSaturating zeros byte).toNat rest =
        escapeAfter (countZeros zeros.toNat byte) rest := by
      rcases toNat_countSaturating zeros byte with hcount | ⟨hstopped, hcount⟩
      · rw [hcount]
      · exact escapeAfter_congr hstopped hcount rest
    have hzeros : 2 ≤ zeros ↔ 2 ≤ zeros.toNat := UInt8.le_iff_toNat_le
    rw [escapeSaturating, ih, ih, hcount, hcount]
    by_cases hparted : 2 ≤ zeros.toNat ∧ byte ≤ 3
    · rw [if_pos ⟨hzeros.2 hparted.1, hparted.2⟩, escapeAfter_of_two_le hparted.1 hparted.2,
        escapeAfter_of_not (by simp)]
      rfl
    · rw [if_neg fun hboth => hparted ⟨hzeros.1 hboth.1, hboth.2⟩, escapeAfter_of_not hparted]

/-- How many zero bytes a string ends with, counted from `zeros` before it. -/
def trailingZeros (zeros : Nat) (bytes : Bytes) : Nat :=
  bytes.foldl countZeros zeros

/-- Two zero bytes or more are counted at the end of a string just if its last two bytes are
zero. -/
theorem two_le_trailingZeros_iff (bytes : Bytes) :
    2 ≤ trailingZeros 0 bytes ↔ ∃ initial, bytes = initial ++ [0, 0] := by
  constructor
  · intro h
    rcases bytes.eq_nil_or_concat with rfl | ⟨most, last, rfl⟩
    · simp [trailingZeros] at h
    · rcases most.eq_nil_or_concat with rfl | ⟨initial, middle, rfl⟩
      · by_cases hlast : last = 0 <;> simp [trailingZeros, countZeros, hlast] at h
      · by_cases hlast : last = 0 <;> by_cases hmiddle : middle = 0 <;>
          simp [trailingZeros, countZeros, hlast, hmiddle] at h
        exact ⟨initial, by simp [hlast, hmiddle]⟩
  · rintro ⟨initial, rfl⟩
    simp [trailingZeros, countZeros]

/-! ### Escaped strings -/

/-- What an escaped string goes on with after two zero bytes: nothing, a byte above `03`, or `03`
and a further byte of at most `03`. -/
def FollowsZeros (rest : Bytes) : Prop :=
  rest = [] ∨ (∃ byte more, rest = byte :: more ∧ 3 < byte) ∨
    ∃ byte more, rest = 3 :: byte :: more ∧ byte ≤ 3

/-- A string in which every two zero bytes are followed as in an escaped string. -/
def IsEscaped (bytes : Bytes) : Prop :=
  ∀ before rest, bytes = before ++ 0 :: 0 :: rest → FollowsZeros rest

/-- A string that is escaped if it comes after `zeros` zero bytes. -/
def IsEscapedAfter (zeros : Nat) (bytes : Bytes) : Prop :=
  ∀ before rest, bytes = before ++ rest → 2 ≤ trailingZeros zeros before → FollowsZeros rest

theorem followsZeros_nil : FollowsZeros [] :=
  .inl rfl

/-- What follows two zero bytes, by its first byte. -/
theorem followsZeros_cons {byte : UInt8} {rest : Bytes} :
    FollowsZeros (byte :: rest) ↔
      3 < byte ∨ byte = 3 ∧ ∃ next more, rest = next :: more ∧ next ≤ 3 := by
  constructor
  · rintro (h | ⟨first, more, h, hlt⟩ | ⟨next, more, h, hle⟩)
    · cases h
    · cases h
      exact .inl hlt
    · cases h
      exact .inr ⟨rfl, next, more, rfl, hle⟩
  · rintro (hlt | ⟨rfl, next, more, rfl, hle⟩)
    · exact .inr (.inl ⟨byte, rest, rfl, hlt⟩)
    · exact .inr (.inr ⟨next, more, rfl, hle⟩)

theorem isEscapedAfter_nil (zeros : Nat) : IsEscapedAfter zeros [] := by
  intro before rest h _
  rw [(List.append_eq_nil_iff.1 h.symm).2]
  exact followsZeros_nil

/-- A string is escaped byte by byte, with the zero bytes counted. -/
theorem isEscapedAfter_cons {zeros : Nat} {byte : UInt8} {rest : Bytes} :
    IsEscapedAfter zeros (byte :: rest) ↔
      (2 ≤ zeros → FollowsZeros (byte :: rest)) ∧ IsEscapedAfter (countZeros zeros byte) rest := by
  constructor
  · intro h
    exact ⟨h [] _ rfl, fun before more hrest => h (byte :: before) more (by rw [hrest]; rfl)⟩
  · rintro ⟨hfirst, hrest⟩ before more h hzeros
    cases before with
    | nil =>
      obtain rfl : byte :: rest = more := h
      exact hfirst hzeros
    | cons first before =>
      obtain ⟨rfl, rfl⟩ := List.cons.inj h
      exact hrest before more rfl hzeros

/-- At the start no zero bytes were counted. -/
theorem isEscapedAfter_zero_iff {bytes : Bytes} : IsEscapedAfter 0 bytes ↔ IsEscaped bytes := by
  constructor
  · intro h before rest hbytes
    exact h (before ++ [0, 0]) rest (by simp [hbytes])
      ((two_le_trailingZeros_iff _).2 ⟨before, rfl⟩)
  · intro h before rest hbytes hzeros
    obtain ⟨initial, rfl⟩ := (two_le_trailingZeros_iff before).1 hzeros
    exact h initial rest (by simp [hbytes])

/-- Exactly the escaped strings come back when they are unescaped and escaped again. -/
theorem escapeAfter_unescapeAfter_iff (zeros : Nat) (bytes : Bytes) :
    escapeAfter zeros (unescapeAfter zeros bytes) = bytes ↔ IsEscapedAfter zeros bytes := by
  fun_induction unescapeAfter zeros bytes with
  | case1 zeros => exact iff_of_true rfl (isEscapedAfter_nil zeros)
  | case2 zeros byte rest h ih =>
    obtain ⟨rfl, hzeros⟩ := h
    rw [isEscapedAfter_cons, followsZeros_cons, show countZeros zeros 3 = 0 from rfl, ← ih]
    -- An emulation prevention byte was left out; it comes back if the byte after it needs one.
    cases rest with
    | nil => simp [unescapeAfter, hzeros]
    | cons next more =>
      have hkept : unescapeAfter 0 (next :: more) =
          next :: unescapeAfter (countZeros 0 next) more := by
        simp [unescapeAfter]
      rw [hkept]
      by_cases hnext : next ≤ 3
      · rw [escapeAfter_of_two_le hzeros hnext]
        simp [hnext]
      · have hne : next ≠ 3 := by
          rintro rfl
          exact hnext (by decide)
        rw [escapeAfter_of_not (fun hboth => hnext hboth.2)]
        simp [hzeros, hnext, hne]
  | case3 zeros byte rest h ih =>
    rw [isEscapedAfter_cons, followsZeros_cons, ← ih]
    by_cases hstuffed : 2 ≤ zeros ∧ byte ≤ 3
    · have hne : byte ≠ 3 := fun heq => h ⟨heq, hstuffed.1⟩
      have hnot : ¬3 < byte := UInt8.not_lt.2 hstuffed.2
      rw [escapeAfter_of_two_le hstuffed.1 hstuffed.2]
      simp [hstuffed.1, hne, hne.symm, hnot]
    · rw [escapeAfter_of_not hstuffed]
      have habove : 2 ≤ zeros → 3 < byte := fun hzeros =>
        UInt8.not_le.1 fun hle => hstuffed ⟨hzeros, hle⟩
      simp only [List.cons.injEq, true_and]
      exact ⟨fun heq => ⟨fun hzeros => .inl (habove hzeros), heq⟩, fun hboth => hboth.2⟩

/-- What is escaped is an escaped string. -/
theorem isEscaped_escapeAfter (payload : Bytes) : IsEscaped (escapeAfter 0 payload) := by
  rw [← isEscapedAfter_zero_iff, ← escapeAfter_unescapeAfter_iff, unescapeAfter_escapeAfter]

/-- In an escaped string there is no start code, nor anything else that two zero bytes and a byte
below `03` make. -/
theorem IsEscaped.no_triple {bytes : Bytes} (h : IsEscaped bytes) {third : UInt8}
    (hthird : third ≤ 2) : ¬[0, 0, third] <:+: bytes := by
  rintro ⟨before, rest, rfl⟩
  have hfollows := h before (third :: rest) (by simp)
  rw [followsZeros_cons] at hfollows
  rcases hfollows with hlt | ⟨rfl, -⟩
  · exact absurd (UInt8.lt_of_lt_of_le hlt hthird) (by decide)
  · exact absurd hthird (by decide)

/-- **Emulation prevention**: however a payload is divided among writes, the sink stores its
escaped form, and takes each part in full. However many bytes each of several reads of a string
asks for, they come from the unescaped form in order, and a further read gives as many as it asks
for of those that are left, or all of them. Unescaping undoes escaping, and escaping undoes
unescaping for exactly the escaped strings. -/
theorem escape_unescape_exact :
    (∀ parts : List Bytes, ∃ sink,
      parts.mapM ByteSink.write (.empty true none) = (.ok (parts.map (·.length)), sink) ∧
        sink.stored.toList = ByteSink.escape parts.flatten) ∧
    (∀ (bytes : Bytes) (sizes : List Nat) (size : Nat), ∃ left,
      unescape bytes = (takeEach sizes (ofEscaped bytes)).1.flatten ++ left ∧
        ((takeEach sizes (ofEscaped bytes)).2.take size).1 = left.take size ∧
        ((takeEach sizes (ofEscaped bytes)).2.take size).1.length = min size left.length) ∧
    (∀ payload, unescape (ByteSink.escape payload) = payload) ∧
    ∀ bytes, ByteSink.escape (unescape bytes) = bytes ↔ IsEscaped bytes := by
  refine ⟨ByteSink.exists_mapM_write, fun bytes sizes size => ?_, fun payload => ?_,
    fun bytes => ?_⟩
  · refine ⟨(takeEach sizes (ofEscaped bytes)).2.contents, ?_, fst_take size _, ?_⟩
    · rw [unescape_eq, ← contents_ofEscaped]
      exact takeEach_eq sizes (ofEscaped bytes)
    · rw [fst_take, List.length_take]
  · rw [unescape_eq, ByteSink.escape_eq, unescapeAfter_escapeAfter]
  · rw [unescape_eq, ByteSink.escape_eq, escapeAfter_unescapeAfter_iff, isEscapedAfter_zero_iff]

end ByteSource

end H266
