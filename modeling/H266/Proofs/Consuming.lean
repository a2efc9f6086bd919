import H266.Proofs.Decoding

/-!
# What a Successful Step Has Consumed

The converse of decoding. `Decodes` says what a step does when the bits of a layout come next;
here a step is known to have succeeded, and the question is which layout came next. A step
*consumes* what a relation between values and layouts says if, whenever it succeeds at a
position, it has advanced over the bits of a layout that is so related to its value.

The relation takes the place of a postcondition: it is handed from step to step, so a reader is
followed from its first bit to its value, and what is known of the parts is at hand at the end.

## Main results

* `Consumes.bind`: steps consume one after the other.
* `consumes_readBits`, `consumes_readBytes`, `consumes_align`: the basic steps.
* `consumes_readIf`, `consumes_readTimes`, `consumes_mapM`: optional and repeated parts.
* `Consumes.run_ofBytes`: what a step has consumed comes first in the byte string that it was
  run on.
-/

namespace H266

namespace Bytes

/-- A byte string denotes a number that fits its length. -/
theorem toNat_lt (bytes : Bytes) : toNat bytes < 256 ^ bytes.length := by
  induction bytes with
  | nil => exact Nat.one_pos
  | cons byte bytes ih =>
    have hbyte := byte.toNat_lt
    have hle : (byte.toNat + 1) * 256 ^ bytes.length ≤ 256 * 256 ^ bytes.length :=
      Nat.mul_le_mul_right _ (by omega)
    rw [toNat_cons, List.length_cons, Nat.pow_succ]
    rw [Nat.add_mul] at hle
    omega

/-- A byte string is determined by its length and the number it denotes. -/
theorem eq_of_toNat_eq {a b : Bytes} (hl : a.length = b.length) (hn : toNat a = toNat b) :
    a = b := by
  induction a generalizing b with
  | nil => exact (List.length_eq_zero_iff.1 hl.symm).symm
  | cons x a ih =>
    cases b with
    | nil => cases hl
    | cons y b =>
      have hl' : a.length = b.length := Nat.succ.inj hl
      have ha := toNat_lt a
      have hb := toNat_lt b
      rw [toNat_cons, toNat_cons, hl'] at hn
      rw [hl'] at ha
      have hx : x.toNat = y.toNat := by
        have hquotient := congrArg (· / 256 ^ b.length) hn
        simpa [Nat.mul_comm, Nat.mul_add_div (Nat.pow_pos (show 0 < 256 by decide)),
          Nat.div_eq_of_lt, ha, hb] using hquotient
      rw [UInt8.toNat_inj.1 hx, ih hl' (by rw [hx] at hn; omega)]

/-- A byte string is the fixed-width form of the number it denotes. -/
theorem ofNat_toNat (bytes : Bytes) : ofNat bytes.length (toNat bytes) = bytes :=
  eq_of_toNat_eq (length_ofNat _ _) (toNat_ofNat (toNat_lt bytes))

end Bytes

namespace BitReader

variable {α β ι ξ : Type} {n : Nat}

/-- A step that, if it succeeds after `n` bits, has consumed a layout that `post` relates to
its value. -/
def Consumes (n : Nat) (step : ReadM α) (post : α → Layout → Prop) : Prop :=
  ∀ reader value reader', reader.Valid → reader.position = n →
    step reader = .ok (value, reader') →
      ∃ layout, post value layout ∧ reader.Advances (layout.bitsAt n) reader'

/-! ### Composition -/

/-- What gives a value without reading has read nothing. -/
theorem consumes_pure {value : α} {post : α → Layout → Prop} (h : post value []) :
    Consumes n (pure value) post := by
  intro reader result reader' hv _ hstep
  cases hstep
  exact ⟨[], h, hv.advances_nil⟩

/-- Steps consume one after the other. -/
theorem Consumes.bind {step : ReadM α} {next : α → ReadM β} {post : α → Layout → Prop}
    {post' : β → Layout → Prop} (hstep : Consumes n step post)
    (hnext : ∀ value layout, post value layout →
      Consumes (n + (layout.bitsAt n).length) (next value) fun value' layout' =>
        post' value' (layout ++ layout')) :
    Consumes n (step >>= next) post' := by
  rintro reader result reader' hv rfl hrun
  obtain ⟨value, middle, hfirst, hrest⟩ := PureStep.of_bind_eq_ok hrun
  obtain ⟨layout, hpost, hadvance⟩ := hstep reader value middle hv rfl hfirst
  obtain ⟨layout', hpost', hadvance'⟩ := hnext value layout hpost middle result reader'
    (hadvance.valid hv) hadvance.position_eq hrest
  refine ⟨layout ++ layout', hpost', ?_⟩
  rw [Layout.bitsAt_append]
  exact hadvance.trans hadvance'

/-- A layout may be exchanged for another with the same bits. -/
theorem Consumes.exchange {step : ReadM α} {post post' : α → Layout → Prop}
    (h : Consumes n step post)
    (hpost : ∀ value layout, post value layout →
      ∃ layout', post' value layout' ∧ layout'.bitsAt n = layout.bitsAt n) :
    Consumes n step post' := by
  intro reader value reader' hv hn hstep
  obtain ⟨layout, hlayout, hadvance⟩ := h reader value reader' hv hn hstep
  obtain ⟨layout', hlayout', hbits⟩ := hpost value layout hlayout
  exact ⟨layout', hlayout', hbits ▸ hadvance⟩

/-- Less may be said of what was read. -/
theorem Consumes.mono {step : ReadM α} {post post' : α → Layout → Prop}
    (h : Consumes n step post) (hpost : ∀ value layout, post value layout → post' value layout) :
    Consumes n step post' :=
  h.exchange fun value layout hlayout => ⟨layout, hpost value layout hlayout, rfl⟩

/-- Another value made of what was read reads nothing more. -/
theorem Consumes.map {step : ReadM α} {f : α → β} {post : β → Layout → Prop}
    (h : Consumes n step fun value layout => post (f value) layout) :
    Consumes n (f <$> step) post := by
  intro reader result reader' hv hn hrun
  rw [map_eq_pure_bind] at hrun
  obtain ⟨value, middle, hfirst, hrest⟩ := PureStep.of_bind_eq_ok hrun
  cases hrest
  exact h reader value _ hv hn hfirst

/-- What follows a check is reached only if the check passes. -/
theorem consumes_check {p : Prop} [Decidable p] {error : Error} {next : PUnit → ReadM α}
    {post : α → Layout → Prop} (h : ¬p → Consumes n (next ⟨⟩) post) :
    Consumes n (if p then throw error >>= next else next ⟨⟩) post := by
  by_cases hp : p
  · rw [if_pos hp]
    intro reader value reader' _ _ hrun
    cases hrun
  · rw [if_neg hp]
    exact h hp

/-! ### Bits -/

/-- A bit that was read was a flag. -/
theorem consumes_readBit : Consumes n readBit fun bit layout => layout = [.flag bit] := by
  rintro reader bit reader' hv rfl hstep
  cases hbits : reader.bits with
  | nil =>
    rw [readBit_of_bits_nil hbits] at hstep
    cases hstep
  | cons first rest =>
    obtain ⟨reader'', hread, hadvance⟩ := reads_readBit first reader rest hv hbits
    rw [hread] at hstep
    cases hstep
    exact ⟨_, rfl, hadvance⟩

/-- A number that was read bit by bit was as many flags. -/
theorem consumes_readBitsAfter (high count : Nat) :
    Consumes n (readBitsAfter high count) fun value layout =>
      ∃ bits : Bits, bits.length = count ∧ value = high * 2 ^ count + Bits.toNat bits ∧
        layout = bits.map .flag := by
  induction count generalizing high n with
  | zero => exact consumes_pure ⟨[], rfl, by rw [Nat.pow_zero, Nat.mul_one]; rfl, rfl⟩
  | succ count ih =>
    refine consumes_readBit.bind ?_
    rintro bit _ rfl
    refine (ih (2 * high + bit.toNat)).mono ?_
    rintro value _ ⟨bits, hlength, rfl, rfl⟩
    refine ⟨bit :: bits, by rw [List.length_cons, hlength], ?_, rfl⟩
    rw [Bits.toNat_cons, hlength, Nat.pow_succ]
    ring

/-- Bits that were read one by one are those of the number they denote. -/
theorem bitsAt_number_toNat (n : Nat) (bits : Bits) {width : Nat}
    (h : bits.length = min width 64) :
    Bits.toNat bits < 2 ^ min width 64 ∧
      Layout.bitsAt n [.number (Bits.toNat bits) width] = Layout.bitsAt n (bits.map .flag) := by
  refine ⟨h ▸ Bits.toNat_lt bits, ?_⟩
  rw [Layout.bitsAt_map_flag, Layout.bitsAt_singleton, Item.bitsAt, ← h, Bits.ofNat_toNat]

/-- A number that was read fits its width and was written as such. -/
theorem consumes_readBits (width : Nat) :
    Consumes n (readBits width) fun value layout =>
      value < 2 ^ min width 64 ∧ layout = [.number value width] := by
  refine (consumes_readBitsAfter 0 (min width 64)).exchange ?_
  rintro value _ ⟨bits, hlength, rfl, rfl⟩
  obtain ⟨hlt, hbits⟩ := bitsAt_number_toNat n bits hlength
  rw [Nat.zero_mul, Nat.zero_add]
  exact ⟨_, ⟨hlt, rfl⟩, hbits⟩

/-- What was skipped as a number was one. -/
theorem consumes_skipNumber (width : Nat) :
    Consumes n (skipNumber width) fun _ layout =>
      ∃ value < 2 ^ min width 64, layout = [.number value width] := by
  refine (consumes_readBits width).bind ?_
  rintro value _ ⟨hlt, rfl⟩
  exact consumes_pure ⟨value, hlt, rfl⟩

/-- An alignment consumes whatever bits are left of the current byte. -/
theorem consumes_align :
    Consumes n align fun _ layout =>
      ∃ value < 2 ^ ((8 - n % 8) % 8), layout = [.number value ((8 - n % 8) % 8)] := by
  rintro reader ⟨⟩ reader' hv rfl hstep
  have hlength := hv.pending_length
  have hmin : min ((8 - reader.position % 8) % 8) 64 = (8 - reader.position % 8) % 8 := by omega
  have hbits := (bitsAt_number_toNat reader.position reader.pending
    (hlength.trans hmin.symm)).2
  cases hstep
  refine ⟨_, ⟨_, hlength ▸ Bits.toNat_lt _, rfl⟩, ?_⟩
  rw [hbits, Layout.bitsAt_map_flag]
  exact ⟨rfl, Nat.zero_lt_succ 7, [], .nil _, rfl⟩

/-! ### Bytes -/

/-- A byte is denoted by eight bits. -/
theorem ofByte_ofNat {value : Nat} (h : value < 256) :
    Bits.ofByte (UInt8.ofNat value) = Bits.ofNat 8 value := by
  rw [Bits.ofByte, UInt8.toNat_ofNat_of_lt' h]

/-- Bytes that were read inside a byte were written one by one. -/
theorem consumes_readUnalignedAfter (taken : Bytes) (count : Nat) :
    Consumes n (readUnalignedAfter taken count) fun bytes layout =>
      ∃ new : Bytes, new.length = count ∧ bytes = taken.reverse ++ new ∧
        layout = new.map fun byte => .bytes [byte] := by
  induction count generalizing taken n with
  | zero => exact consumes_pure ⟨[], rfl, (List.append_nil _).symm, rfl⟩
  | succ count ih =>
    have hbyte : Consumes n (readBits 8) fun value layout =>
        layout = [.bytes [UInt8.ofNat value]] := by
      refine (consumes_readBits 8).exchange ?_
      rintro value _ ⟨hlt, rfl⟩
      refine ⟨_, rfl, ?_⟩
      rw [Layout.bitsAt_singleton, Layout.bitsAt_singleton, Item.bitsAt, Item.bitsAt,
        Bits.ofBytes_singleton, ofByte_ofNat hlt]
      rfl
    refine hbyte.bind ?_
    rintro value _ rfl
    refine (ih (UInt8.ofNat value :: taken)).mono ?_
    rintro bytes _ ⟨new, rfl, rfl, rfl⟩
    exact ⟨UInt8.ofNat value :: new, rfl, by simp, rfl⟩

/-- Bytes that were taken one by one were given by the source, if they are as many as were
asked for. -/
theorem exists_gives_of_takeAfter {source source' : ByteSource} {taken bytes : Bytes}
    {count : Nat} (h : source.takeAfter taken count = (bytes, source'))
    (hlength : taken.length + count ≤ bytes.length) :
    ∃ new : Bytes, new.length = count ∧ bytes = taken.reverse ++ new ∧
      source.Gives new source' := by
  induction count generalizing source taken with
  | zero =>
    cases h
    exact ⟨[], rfl, (List.append_nil _).symm, .nil _⟩
  | succ count ih =>
    rw [ByteSource.takeAfter] at h
    cases hnext : source.next? with
    | none =>
      rw [hnext] at h
      cases h
      rw [List.length_reverse] at hlength
      omega
    | some next =>
      obtain ⟨byte, rest⟩ := next
      rw [hnext] at h
      have hlength' : (byte :: taken).length + count ≤ bytes.length := by
        rw [List.length_cons]
        omega
      obtain ⟨new, rfl, rfl, hgives⟩ := ih h hlength'
      exact ⟨byte :: new, rfl, by simp, .cons hnext hgives⟩

/-- Bytes that are written one by one are written as a byte string. -/
theorem bitsAt_map_bytes (n : Nat) (bytes : Bytes) :
    Layout.bitsAt n (bytes.map fun byte => .bytes [byte]) = Bits.ofBytes bytes := by
  induction bytes generalizing n with
  | nil => rfl
  | cons byte bytes ih =>
    rw [List.map_cons, Layout.bitsAt_cons, ih, Item.bitsAt, Bits.ofBytes_singleton,
      Bits.ofBytes_cons]

/-- Bytes are taken from the source at a byte boundary, and put together from bits elsewhere. -/
theorem consumes_readBytes (count : Nat) :
    Consumes n (readBytes count) fun bytes layout =>
      bytes.length = count ∧ layout = [.bytes bytes] := by
  rintro reader bytes reader' hv rfl hrun
  obtain ⟨taken, middle, hsome, hcheck⟩ := PureStep.of_bind_eq_ok hrun
  have hall : count ≤ taken.length ∧ taken = bytes ∧ middle = reader' := by
    by_cases hshort : taken.length < count
    · rw [if_pos hshort] at hcheck
      cases hcheck
    · rw [if_neg hshort] at hcheck
      cases hcheck
      exact ⟨Nat.le_of_not_lt hshort, rfl, rfl⟩
  obtain ⟨hcount, rfl, rfl⟩ := hall
  by_cases haligned : reader.isAligned = true
  · rw [readSome_of_isAligned haligned] at hsome
    rcases htake : reader.source.take count with ⟨given, source'⟩
    rw [htake] at hsome
    cases hsome
    obtain ⟨new, hlength, rfl, hgives⟩ :=
      exists_gives_of_takeAfter htake (by rwa [List.length_nil, Nat.zero_add])
    refine ⟨_, ⟨hlength, rfl⟩, ?_, hv.pending_lt, _, hgives, ?_⟩
    · rw [Layout.bitsAt_singleton, Item.bitsAt, Bits.length_ofBytes, behind]
    · rw [behind, List.isEmpty_iff.1 haligned, Layout.bitsAt_singleton, Item.bitsAt,
        List.append_nil]
      rfl
  · rw [readSome_of_not_isAligned haligned] at hsome
    obtain ⟨_, ⟨new, hlength, rfl, rfl⟩, hadvance⟩ :=
      consumes_readUnalignedAfter [] count reader _ _ hv rfl hsome
    rw [bitsAt_map_bytes] at hadvance
    refine ⟨_, ⟨hlength, rfl⟩, ?_⟩
    rwa [Layout.bitsAt_singleton, Item.bitsAt]

/-- A big-endian integer that was read fits its bytes and was written in them. -/
theorem consumes_readBigEndian (count : Nat) :
    Consumes n (readBigEndian count) fun value layout =>
      value < 256 ^ count ∧ layout = [.bytes (Bytes.ofNat count value)] := by
  refine Consumes.map ((consumes_readBytes count).mono ?_)
  rintro bytes _ ⟨rfl, rfl⟩
  exact ⟨Bytes.toNat_lt bytes, by rw [Bytes.ofNat_toNat]⟩

/-- An integer of one byte. -/
theorem consumes_readUInt8 :
    Consumes n readUInt8 fun value layout => layout = [.bytes (Bytes.ofNat 1 value.toNat)] := by
  refine Consumes.map ((consumes_readBigEndian 1).mono ?_)
  rintro value _ ⟨hlt, rfl⟩
  rw [UInt8.toNat_ofNat_of_lt' hlt]

/-- An integer of two bytes. -/
theorem consumes_readUInt16 :
    Consumes n readUInt16 fun value layout =>
      layout = [.bytes (Bytes.ofNat 2 value.toNat)] := by
  refine Consumes.map ((consumes_readBigEndian 2).mono ?_)
  rintro value _ ⟨hlt, rfl⟩
  rw [UInt16.toNat_ofNat_of_lt' hlt]

/-- An integer of four bytes. -/
theorem consumes_readUInt32 :
    Consumes n readUInt32 fun value layout =>
      layout = [.bytes (Bytes.ofNat 4 value.toNat)] := by
  refine Consumes.map ((consumes_readBigEndian 4).mono ?_)
  rintro value _ ⟨hlt, rfl⟩
  rw [UInt32.toNat_ofNat_of_lt' hlt]

/-! ### Optional and repeated parts -/

/-- A part that is there only if it is called for. -/
theorem consumes_readIf {present : Bool} {step : ReadM α} {inferred : α}
    {post : α → Layout → Prop} (hpresent : present = true → Consumes n step post)
    (habsent : present = false → post inferred []) :
    Consumes n (readIf present step inferred) post := by
  cases present with
  | true => exact hpresent rfl
  | false => exact consumes_pure (habsent rfl)

/-- Values that were read by one step come from as many parts, behind those that were read
before. -/
theorem consumes_repeatAfter {step : ReadM α} {value : ξ → α} {layout : ξ → Layout}
    (h : ∀ n, Consumes n step fun result consumed =>
      ∃ part, result = value part ∧ consumed = layout part) (done : List α) (count : Nat) :
    Consumes n (repeatAfter step done count) fun results consumed =>
      ∃ parts : List ξ, parts.length = count ∧ results = done.reverse ++ parts.map value ∧
        consumed = parts.flatMap layout := by
  induction count generalizing done n with
  | zero => exact consumes_pure ⟨[], rfl, (List.append_nil _).symm, rfl⟩
  | succ count ih =>
    refine (h n).bind ?_
    rintro _ _ ⟨part, rfl, rfl⟩
    refine (ih (value part :: done)).mono ?_
    rintro _ _ ⟨parts, rfl, rfl, rfl⟩
    exact ⟨part :: parts, rfl, by simp, rfl⟩

/-- A step that was run a number of times has consumed as many parts. -/
theorem consumes_readTimes {step : ReadM α} {value : ξ → α} {layout : ξ → Layout}
    (h : ∀ n, Consumes n step fun result consumed =>
      ∃ part, result = value part ∧ consumed = layout part) (count : Nat) :
    Consumes n (readTimes count step) fun results consumed =>
      ∃ parts : List ξ, parts.length = count ∧ results = parts.map value ∧
        consumed = parts.flatMap layout :=
  consumes_repeatAfter h [] count

/-- Steps that were run one for each index have consumed a part each. -/
theorem consumes_mapM {step : ι → ReadM α} {index : ξ → ι} {value : ξ → α}
    {layout : ξ → Layout} (h : ∀ i n, Consumes n (step i) fun result consumed =>
      ∃ part, index part = i ∧ result = value part ∧ consumed = layout part) (indices : List ι) :
    Consumes n (indices.mapM step) fun results consumed =>
      ∃ parts : List ξ, parts.map index = indices ∧ results = parts.map value ∧
        consumed = parts.flatMap layout := by
  induction indices generalizing n with
  | nil => exact consumes_pure ⟨[], rfl, rfl, rfl⟩
  | cons i indices ih =>
    rw [List.mapM_cons]
    refine (h i n).bind ?_
    rintro _ _ ⟨part, rfl, rfl, rfl⟩
    refine ih.bind ?_
    rintro _ _ ⟨parts, rfl, rfl, rfl⟩
    exact consumes_pure ⟨part :: parts, rfl, rfl, by rw [List.append_nil, List.flatMap_cons]⟩

/-- Bits that were read one by one. -/
theorem consumes_readTimes_readBit (count : Nat) :
    Consumes n (readTimes count readBit) fun bits layout =>
      bits.length = count ∧ layout = bits.map .flag := by
  have hbit (n : Nat) : Consumes n readBit fun bit layout =>
      ∃ part : Bool, bit = part ∧ layout = [.flag part] :=
    consumes_readBit.mono fun bit _ hlayout => ⟨bit, rfl, hlayout⟩
  refine (consumes_readTimes hbit count).mono ?_
  rintro _ _ ⟨bits, rfl, rfl, rfl⟩
  exact ⟨List.length_map _, by rw [← List.map_eq_flatMap, List.map_id']⟩

/-! ### Whole byte strings -/

/-- What a step has consumed comes first in the byte string that it was run on, if it fills
whole bytes, and what was left unread comes after it. -/
theorem Consumes.run_ofBytes {step : ReadM α} {post : α → Layout → Prop}
    (h : Consumes 0 step post) {data : Bytes} {value : α} {reader : BitReader}
    (hrun : step (ofBytes data) = .ok (value, reader)) :
    ∃ layout, post value layout ∧
      (layout.bits.length % 8 = 0 → data = Bits.pack layout.bits ++ reader.unread) := by
  obtain ⟨layout, hpost, hadvance⟩ := h _ _ _ (valid_ofSource _) rfl hrun
  refine ⟨layout, hpost, fun hwhole => Bits.ofBytes_injective ?_⟩
  have hbits : Bits.ofBytes data = layout.bits ++ reader.bits := hadvance.bits_eq
  rw [hbits, hadvance.bits_eq_unread hwhole, Bits.ofBytes_append,
    Bits.ofBytes_pack_of_whole hwhole]

end BitReader

end H266
