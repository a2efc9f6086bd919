import H266.ByteSource

/-!
# What a Byte Source Gives

A source denotes the bytes that can still be read from it, its *contents*: what remains, or
what remains without its emulation prevention bytes. `Gives` follows a source while bytes are
read off it one by one; it never looks ahead, so what is left over after the last byte is
exactly what had not been needed until then.

## Main results

* `ByteSource.exists_gives`: a source gives every beginning of its contents.
* `ByteSource.Gives.take_eq`: taking as many bytes as a source gives yields those bytes.
* `ByteSource.unescapeAfter_escapeAfter`: removing emulation prevention bytes undoes putting
  them in.
-/

namespace H266.ByteSource

/-! ### Emulation prevention -/

/-- How many zero bytes a string ends with after one more byte. -/
def countZeros (zeros : Nat) (byte : UInt8) : Nat :=
  if byte = 0 then zeros + 1 else 0

/-- The bytes of an escaped string, after `zeros` zero bytes, without its emulation
prevention bytes. -/
def unescapeAfter (zeros : Nat) : Bytes → Bytes
  | [] => []
  | byte :: rest =>
    if byte = 3 ∧ 2 ≤ zeros then
      unescapeAfter 0 rest
    else
      byte :: unescapeAfter (countZeros zeros byte) rest

/-- The bytes that stand for one byte after `zeros` zero bytes. -/
def escapeByte (zeros : Nat) (byte : UInt8) : Bytes :=
  if 2 ≤ zeros ∧ byte ≤ 3 then [3, byte] else [byte]

/-- How many zero bytes an escaped string ends with after one more byte was put into it. -/
def countEscapedZeros (zeros : Nat) (byte : UInt8) : Nat :=
  countZeros (if 2 ≤ zeros ∧ byte ≤ 3 then 0 else zeros) byte

/-- A byte string, to follow `zeros` zero bytes, with emulation prevention bytes put in. -/
def escapeAfter (zeros : Nat) : Bytes → Bytes
  | [] => []
  | byte :: rest => escapeByte zeros byte ++ escapeAfter (countEscapedZeros zeros byte) rest

/-- How many zero bytes an escaped string ends with, having ended with `zeros` of them before
`bytes` were put into it. -/
def zerosAfter (zeros : Nat) (bytes : Bytes) : Nat :=
  bytes.foldl countEscapedZeros zeros

@[simp] theorem escapeAfter_nil (zeros : Nat) : escapeAfter zeros [] = [] := rfl

theorem escapeAfter_cons (zeros : Nat) (byte : UInt8) (rest : Bytes) :
    escapeAfter zeros (byte :: rest) =
      escapeByte zeros byte ++ escapeAfter (countEscapedZeros zeros byte) rest := rfl

/-- A string is escaped part by part, if the zero bytes are counted across the parts. -/
theorem escapeAfter_append (zeros : Nat) (a b : Bytes) :
    escapeAfter zeros (a ++ b) = escapeAfter zeros a ++ escapeAfter (zerosAfter zeros a) b := by
  induction a generalizing zeros with
  | nil => rfl
  | cons byte a ih =>
    rw [List.cons_append, escapeAfter_cons, escapeAfter_cons, ih, List.append_assoc]
    rfl

/-- Reading what stands for a byte gives that byte, and counts zero bytes as writing did. -/
theorem unescapeAfter_escapeByte_append (zeros : Nat) (byte : UInt8) (tail : Bytes) :
    unescapeAfter zeros (escapeByte zeros byte ++ tail) =
      byte :: unescapeAfter (countEscapedZeros zeros byte) tail := by
  by_cases h : 2 ≤ zeros ∧ byte ≤ 3
  · rw [escapeByte, if_pos h, countEscapedZeros, if_pos h]
    simp [unescapeAfter, h.1]
  · have h3 : ¬(byte = 3 ∧ 2 ≤ zeros) := by
      rintro ⟨rfl, hz⟩
      exact h ⟨hz, by decide⟩
    rw [escapeByte, if_neg h, countEscapedZeros, if_neg h]
    simp [unescapeAfter, h3]

/-- Removing emulation prevention bytes undoes putting them in, whatever bytes follow. -/
theorem unescapeAfter_escapeAfter_append (zeros : Nat) (bytes more : Bytes) :
    unescapeAfter zeros (escapeAfter zeros bytes ++ more) =
      bytes ++ unescapeAfter (zerosAfter zeros bytes) more := by
  induction bytes generalizing zeros with
  | nil => rfl
  | cons byte bytes ih =>
    rw [escapeAfter_cons, List.append_assoc, unescapeAfter_escapeByte_append, ih]
    rfl

/-- Removing emulation prevention bytes undoes putting them in. -/
theorem unescapeAfter_escapeAfter (zeros : Nat) (bytes : Bytes) :
    unescapeAfter zeros (escapeAfter zeros bytes) = bytes := by
  have h := unescapeAfter_escapeAfter_append zeros bytes []
  rwa [List.append_nil, unescapeAfter, List.append_nil] at h

/-! ### Contents -/

/-- The bytes that can still be read. -/
def contents (source : ByteSource) : Bytes :=
  if source.escaped then unescapeAfter source.zeros source.remaining else source.remaining

@[simp] theorem contents_ofBytes (bytes : Bytes) : (ofBytes bytes).contents = bytes := rfl

@[simp] theorem contents_ofEscaped (bytes : Bytes) :
    (ofEscaped bytes).contents = unescapeAfter 0 bytes := rfl

/-- The next byte of an escaped string is the first that is left when it is unescaped. -/
theorem unescapeAfter_eq_nextUnescaped? (zeros : Nat) (bytes : Bytes) :
    unescapeAfter zeros bytes =
      ((nextUnescaped? zeros bytes).map fun next => next.1 :: next.2.contents).getD [] := by
  fun_induction nextUnescaped? zeros bytes with
  | case1 => rfl
  | case2 zeros byte rest h ih => rw [unescapeAfter, if_pos h, ih]
  | case3 zeros byte rest h => rw [unescapeAfter, if_neg h]; rfl

/-- The contents of a source are its next byte and the contents of the source after it. -/
theorem contents_eq_next? (source : ByteSource) :
    source.contents =
      (source.next?.map fun next => next.1 :: next.2.contents).getD [] := by
  rcases source with ⟨remaining, _ | _, zeros⟩
  · cases remaining <;> rfl
  · exact unescapeAfter_eq_nextUnescaped? zeros remaining

/-- There is no next byte exactly if the contents are empty. -/
theorem next?_eq_none_iff {source : ByteSource} :
    source.next? = none ↔ source.contents = [] := by
  rw [contents_eq_next?]
  cases source.next? <;> simp

/-- The first byte of the contents is the next byte. -/
theorem next?_of_contents_cons {source : ByteSource} {byte : UInt8} {rest : Bytes}
    (h : source.contents = byte :: rest) :
    ∃ source', source.next? = some (byte, source') ∧ source'.contents = rest := by
  rw [contents_eq_next?] at h
  cases hn : source.next? with
  | none => simp [hn] at h
  | some next =>
    obtain ⟨first, source'⟩ := next
    simp only [hn, Option.map_some, Option.getD_some, List.cons.injEq] at h
    exact ⟨source', by rw [h.1], h.2⟩

/-! ### Reading bytes off a source -/

/-- `source.Gives bytes source'` says that the next bytes of `source` are `bytes`, and that
`source'` is what it is after they were read. -/
inductive Gives : ByteSource → Bytes → ByteSource → Prop
  | nil (source : ByteSource) : Gives source [] source
  | cons {source next source' : ByteSource} {byte : UInt8} {bytes : Bytes} :
      source.next? = some (byte, next) → Gives next bytes source' →
      Gives source (byte :: bytes) source'

/-- Bytes can be read in two parts. -/
theorem Gives.append {source middle source' : ByteSource} {a b : Bytes}
    (ha : source.Gives a middle) (hb : middle.Gives b source') :
    source.Gives (a ++ b) source' := by
  induction ha with
  | nil => exact hb
  | cons hnext _ ih => exact .cons hnext (ih hb)

/-- What a source has given comes first in its contents. -/
theorem Gives.contents_eq {source source' : ByteSource} {bytes : Bytes}
    (h : source.Gives bytes source') : source.contents = bytes ++ source'.contents := by
  induction h with
  | nil => rfl
  | cons hnext _ ih =>
    rw [contents_eq_next?, hnext]
    simp [ih]

/-- A source gives every beginning of its contents. -/
theorem exists_gives {source : ByteSource} {bytes rest : Bytes}
    (h : source.contents = bytes ++ rest) :
    ∃ source', source.Gives bytes source' ∧ source'.contents = rest := by
  induction bytes generalizing source with
  | nil => exact ⟨source, .nil source, h⟩
  | cons byte bytes ih =>
    obtain ⟨next, hnext, hrest⟩ := next?_of_contents_cons h
    obtain ⟨source', hgives, hcontents⟩ := ih hrest
    exact ⟨source', .cons hnext hgives, hcontents⟩

/-- Taking bytes one by one follows what the source gives. -/
theorem Gives.takeAfter_eq {source source' : ByteSource} {bytes : Bytes}
    (h : source.Gives bytes source') (taken : Bytes) :
    takeAfter taken bytes.length source = (taken.reverse ++ bytes, source') := by
  induction h generalizing taken with
  | nil => simp [takeAfter]
  | cons hnext _ ih => simp [takeAfter, hnext, ih]

/-- Taking as many bytes as a source gives yields those bytes. -/
theorem Gives.take_eq {source source' : ByteSource} {bytes : Bytes}
    (h : source.Gives bytes source') : source.take bytes.length = (bytes, source') := by
  simpa [take] using h.takeAfter_eq []

/-- The source after the next byte of an escaped string is marked as escaped. -/
theorem escaped_of_nextUnescaped? {zeros : Nat} {bytes : Bytes} {next : UInt8 × ByteSource}
    (h : nextUnescaped? zeros bytes = some next) : next.2.escaped = true := by
  fun_induction nextUnescaped? zeros bytes with
  | case1 => simp at h
  | case2 _ _ _ _ ih => exact ih h
  | case3 => rw [← Option.some.inj h]

/-- Reading a byte does not change whether emulation prevention bytes are left out. -/
theorem escaped_of_next? {source source' : ByteSource} {byte : UInt8}
    (h : source.next? = some (byte, source')) : source'.escaped = source.escaped := by
  rcases source with ⟨remaining, _ | _, zeros⟩
  · cases remaining with
    | nil => simp [next?] at h
    | cons first rest =>
      simp only [next?] at h
      rw [← (Prod.mk.inj (Option.some.inj h)).2]
  · have := escaped_of_nextUnescaped? h
    exact this

/-- Reading does not change whether emulation prevention bytes are left out. -/
theorem Gives.escaped_eq {source source' : ByteSource} {bytes : Bytes}
    (h : source.Gives bytes source') : source'.escaped = source.escaped := by
  induction h with
  | nil => rfl
  | cons hnext _ ih => rw [ih, escaped_of_next? hnext]

/-- The contents of a plain source are what remains of it. -/
theorem contents_of_plain {source : ByteSource} (h : source.escaped = false) :
    source.contents = source.remaining := by
  rw [contents, h, if_neg Bool.false_ne_true]

end H266.ByteSource
