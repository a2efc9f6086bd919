import H266.Proofs.ExpGolomb
import Mathlib.Tactic.Ring

/-!
# Decoding Layouts

A step *decodes* a layout if it reads the bits of the layout, wherever they begin, and ends
with a given value, provided that the items of the layout fit. This is the reading side of
`BitWriter.writeLayout`: structures are decoded part by part, as their layouts are put together
from layouts of the parts, and alignments take care of themselves.

## Main results

* `Decodes.bind`, `Decodes.cons`: parts are decoded one after the other.
* `decodes_readIf`, `decodes_readTimes`, `decodes_skipTimes`, `decodes_mapM`: optional and
  repeated parts.
* `decodes_readUInt8`, `decodes_readExpGolomb`, …: the items.
-/

namespace H266

namespace Bytes

/-- The number that big-endian bytes denote under bytes already read. -/
theorem foldl_eq (bytes : Bytes) (n : Nat) :
    bytes.foldl (fun n byte => 256 * n + byte.toNat) n =
      n * 256 ^ bytes.length + toNat bytes := by
  induction bytes generalizing n with
  | nil => simp [toNat]
  | cons byte bytes ih =>
    rw [toNat, List.foldl_cons, List.foldl_cons, ih, ih (256 * 0 + byte.toNat), List.length_cons,
      Nat.pow_succ]
    ring

/-- The first byte weighs in above the others. -/
theorem toNat_cons (byte : UInt8) (bytes : Bytes) :
    toNat (byte :: bytes) = byte.toNat * 256 ^ bytes.length + toNat bytes := by
  rw [toNat, List.foldl_cons, foldl_eq, Nat.mul_zero, Nat.zero_add]

/-- Only the lowest bytes of a number are written. -/
theorem toNat_ofNat_mod (count n : Nat) : toNat (ofNat count n) = n % 256 ^ count := by
  induction count with
  | zero => simp [ofNat, toNat, Nat.mod_one]
  | succ count ih =>
    have hshift : n >>> (8 * count) = n / 256 ^ count := by
      rw [Nat.shiftRight_eq_div_pow, Nat.pow_mul]
    have hpow : 256 ^ (count + 1) = 256 ^ count * 256 := pow_succ 256 count
    rw [ofNat, toNat_cons, length_ofNat, ih, UInt8.toNat_ofNat', hshift, hpow, Nat.mod_mul]
    ring

/-- A number that fits its bytes is read back. -/
theorem toNat_ofNat {count n : Nat} (h : n < 256 ^ count) : toNat (ofNat count n) = n := by
  rw [toNat_ofNat_mod, Nat.mod_eq_of_lt h]

end Bytes

namespace BitReader

variable {α β ι ξ : Type}

/-- A step that reads the bits of a layout, if its items fit, and ends with `value`. -/
def Decodes (step : ReadM α) (layout : Layout) (value : α) : Prop :=
  layout.Fits → Reads step (fun n => layout.bitsAt n) value

/-! ### Composition -/

/-- What is not read leaves a value as it is. -/
theorem decodes_pure (value : α) : Decodes (pure value) [] value :=
  fun _ => reads_pure value

/-- Parts are decoded one after the other. -/
theorem Decodes.bind {step : ReadM α} {next : α → ReadM β} {a b : Layout} {value : α}
    {value' : β} (hstep : Decodes step a value) (hnext : Decodes (next value) b value') :
    Decodes (step >>= next) (a ++ b) value' := by
  intro hfits
  obtain ⟨ha, hb⟩ := Layout.fits_append.1 hfits
  exact (hstep ha).bind (hnext hb) fun n => Layout.bitsAt_append n a b

/-- An item is decoded before the others. -/
theorem Decodes.cons {step : ReadM α} {next : α → ReadM β} {item : Item} {items : Layout}
    {value : α} {value' : β} (hstep : Decodes step [item] value)
    (hnext : Decodes (next value) items value') :
    Decodes (step >>= next) (item :: items) value' :=
  hstep.bind hnext

/-- A check, or whatever else reads nothing, may follow a step. -/
theorem Decodes.bind_nil {step : ReadM α} {next : α → ReadM β} {layout : Layout} {value : α}
    {value' : β} (hstep : Decodes step layout value) (hnext : Decodes (next value) [] value') :
    Decodes (step >>= next) layout value' := by
  rw [← List.append_nil layout]
  exact hstep.bind hnext

/-- Another value is made of what is read. -/
theorem Decodes.map {step : ReadM α} {layout : Layout} {value : α} (f : α → β)
    (h : Decodes step layout value) : Decodes (f <$> step) layout (f value) :=
  fun hfits => (h hfits).map f

/-! ### Items -/

/-- A flag is read. -/
theorem decodes_readBit (bit : Bool) : Decodes readBit [.flag bit] bit :=
  fun _ => reads_readBit bit

/-- A flag is skipped. -/
theorem decodes_skipFlag (bit : Bool) : Decodes skipFlag [.flag bit] () :=
  (decodes_readBit bit).bind_nil (decodes_pure ())

/-- A number is read in its width. -/
theorem decodes_readBits (value width : Nat) :
    Decodes (readBits width) [.number value width] value :=
  fun hfits => (reads_readBits_ofNat (Layout.fits_cons.1 hfits).1).congr fun n => by
    rw [Layout.bitsAt_singleton, Item.bitsAt]

/-- A number is skipped. -/
theorem decodes_skipNumber (value width : Nat) :
    Decodes (skipNumber width) [.number value width] () :=
  (decodes_readBits value width).bind_nil (decodes_pure ())

/-- An exp-Golomb code is read. -/
theorem decodes_readExpGolomb (value : Nat) :
    Decodes readExpGolomb [.expGolomb value] value :=
  fun hfits => (reads_readExpGolomb (Layout.fits_cons.1 hfits).1).congr fun n => by
    rw [Layout.bitsAt_singleton, Item.bitsAt]

/-- An exp-Golomb code is skipped. -/
theorem decodes_skipExpGolomb (value : Nat) : Decodes skipExpGolomb [.expGolomb value] () :=
  (decodes_readExpGolomb value).bind_nil (decodes_pure ())

/-- The zero bits up to a byte boundary are dropped. -/
theorem decodes_align : Decodes align [.align] () :=
  fun _ => reads_align fun n => by
    rw [Layout.bitsAt_singleton, Item.bitsAt, List.length_replicate]

/-- A value in its range passes the check for it. -/
theorem decodes_readInRange {element : String} {low high value : Nat} {step : ReadM Nat}
    {layout : Layout} (h : Decodes step layout value) (hlow : low ≤ value)
    (hhigh : value ≤ high) : Decodes (readInRange element low high step) layout value := by
  refine h.bind_nil ?_
  rw [if_neg (by omega)]
  exact decodes_pure value

/-- A value that is bounded by its type passes the check for this bound. -/
theorem decodes_readInRange_fin {element : String} {high : Nat} {value : Fin (high + 1)}
    {step : ReadM Nat} {layout : Layout} (h : Decodes step layout value.val) :
    Decodes (readInRange element 0 high step) layout value.val :=
  decodes_readInRange h (Nat.zero_le _) (Nat.le_of_lt_succ value.isLt)

/-! ### Bytes -/

/-- Bytes are read. -/
theorem decodes_readBytes (bytes : Bytes) :
    Decodes (readBytes bytes.length) [.bytes bytes] bytes :=
  fun _ => (reads_readBytes bytes).congr fun n => by
    rw [Layout.bitsAt_singleton, Item.bitsAt]

/-- A big-endian integer is read if it fits its bytes. -/
theorem decodes_readBigEndian {count value : Nat} (h : value < 256 ^ count) :
    Decodes (readBigEndian count) [.bytes (Bytes.ofNat count value)] value := by
  have := (decodes_readBytes (Bytes.ofNat count value)).map Bytes.toNat
  rwa [Bytes.length_ofNat, Bytes.toNat_ofNat h] at this

/-- An integer of one byte. -/
theorem decodes_readUInt8 (byte : UInt8) : Decodes readUInt8 [.bytes [byte]] byte := by
  have := ((decodes_readBytes [byte]).map Bytes.toNat).map UInt8.ofNat
  rwa [Bytes.toNat_cons, List.length_nil, Nat.pow_zero, Nat.mul_one, Bytes.toNat,
    List.foldl_nil, Nat.add_zero, UInt8.ofNat_toNat] at this

/-- A number below 256 in one byte. -/
theorem decodes_readUInt8_ofNat {value : Nat} (h : value < 256) :
    Decodes readUInt8 [.bytes (Bytes.ofNat 1 value)] (UInt8.ofNat value) :=
  (decodes_readBigEndian (by omega)).map UInt8.ofNat

/-- An integer of two bytes. -/
theorem decodes_readUInt16 (value : UInt16) :
    Decodes readUInt16 [.bytes (Bytes.ofNat 2 value.toNat)] value := by
  have := (@decodes_readBigEndian 2 _ value.toNat_lt).map UInt16.ofNat
  rwa [UInt16.ofNat_toNat] at this

/-- A number below 65536 in two bytes. -/
theorem decodes_readUInt16_ofNat {value : Nat} (h : value < 65536) :
    Decodes readUInt16 [.bytes (Bytes.ofNat 2 value)] (UInt16.ofNat value) :=
  (decodes_readBigEndian (by omega)).map UInt16.ofNat

/-- An integer of four bytes. -/
theorem decodes_readUInt32 (value : UInt32) :
    Decodes readUInt32 [.bytes (Bytes.ofNat 4 value.toNat)] value := by
  have := (@decodes_readBigEndian 4 _ value.toNat_lt).map UInt32.ofNat
  rwa [UInt32.ofNat_toNat] at this

/-! ### Optional parts -/

/-- A part that is there only if it is called for. -/
theorem decodes_readIf {present : Bool} {step : ReadM α} {inferred value : α} {layout : Layout}
    (hpresent : present = true → Decodes step layout value)
    (habsent : present = false → layout = [] ∧ value = inferred) :
    Decodes (readIf present step inferred) layout value := by
  cases present with
  | true => exact hpresent rfl
  | false =>
    obtain ⟨rfl, rfl⟩ := habsent rfl
    exact decodes_pure value

/-- What is skipped if it is there, and nothing is written if it is not. -/
theorem decodes_skipIf {present : Bool} {step : ReadM Unit} {layout : Layout}
    (hpresent : present = true → Decodes step layout ())
    (habsent : present = false → layout = []) : Decodes (skipIf present step) layout () :=
  decodes_readIf hpresent fun h => ⟨habsent h, rfl⟩

/-- A part that is there just when it is called for. -/
theorem decodes_readIf_option {present : Bool} {step : ReadM α} {inferred : α} {part : Option ξ}
    {layout : ξ → Layout} {value : ξ → α} (hpresent : part.isSome = present)
    (h : ∀ own, part = some own → Decodes step (layout own) (value own)) :
    Decodes (readIf present step inferred) (part.toList.flatMap layout)
      ((part.map value).getD inferred) := by
  subst hpresent
  cases part with
  | none => exact decodes_pure inferred
  | some own =>
    rw [Option.toList_some, List.flatMap_singleton]
    exact h own rfl

/-- The same, of a part of a syntax tree that may be missing. -/
theorem decodes_skipIf_option {present : Bool} {step : ReadM Unit} {part : Option ξ}
    {layout : ξ → Layout} (hpresent : part.isSome = present)
    (h : ∀ own, part = some own → Decodes step (layout own) ()) :
    Decodes (skipIf present step) (part.toList.flatMap layout) () :=
  decodes_readIf_option hpresent h

/-- A part that is its own value. -/
theorem decodes_readIf_getD {present : Bool} {step : ReadM α} {inferred : α} {part : Option α}
    {layout : α → Layout} (hpresent : part.isSome = present)
    (h : ∀ own, part = some own → Decodes step (layout own) own) :
    Decodes (readIf present step inferred) (part.toList.flatMap layout) (part.getD inferred) := by
  have hread : Decodes (readIf present step inferred) (part.toList.flatMap layout)
      ((part.map id).getD inferred) :=
    decodes_readIf_option hpresent h
  rwa [Option.map_id_fun] at hread

/-- A flag that is there just when it is called for. -/
theorem decodes_readFlag {present inferred : Bool} {flag : Option Bool}
    (h : flag.isSome = present) :
    Decodes (readIf present readBit inferred) (flag.toList.flatMap fun own => [.flag own])
      (flag.getD inferred) :=
  decodes_readIf_getD h fun own _ => decodes_readBit own

/-! ### Repeated parts -/

/-- Parts that are read by one step, behind those that were read before. -/
theorem decodes_repeatAfter {step : ReadM α} {layout : ξ → Layout} {value : ξ → α}
    (done : List α) (parts : List ξ) (h : ∀ part ∈ parts, Decodes step (layout part) (value part)) :
    Decodes (repeatAfter step done parts.length) (parts.flatMap layout)
      (done.reverse ++ parts.map value) := by
  induction parts generalizing done with
  | nil =>
    rw [List.map_nil, List.append_nil]
    exact decodes_pure done.reverse
  | cons part parts ih =>
    obtain ⟨hpart, hparts⟩ := List.forall_mem_cons.1 h
    have hrest := ih (value part :: done) hparts
    have hvalue : (value part :: done).reverse ++ parts.map value =
        done.reverse ++ (part :: parts).map value := by simp
    rw [hvalue] at hrest
    exact hpart.bind hrest

/-- A step that is run once for each part lists the values of the parts. -/
theorem decodes_readTimes {step : ReadM α} {layout : ξ → Layout} {value : ξ → α}
    (parts : List ξ) (h : ∀ part ∈ parts, Decodes step (layout part) (value part)) :
    Decodes (readTimes parts.length step) (parts.flatMap layout) (parts.map value) :=
  decodes_repeatAfter [] parts h

/-- A step that is run once for each part skips all of them. -/
theorem decodes_skipTimes {step : ReadM Unit} {layout : ξ → Layout} (parts : List ξ)
    (h : ∀ part ∈ parts, Decodes step (layout part) ()) :
    Decodes (skipTimes parts.length step) (parts.flatMap layout) () := by
  induction parts with
  | nil => exact decodes_pure ()
  | cons part parts ih =>
    obtain ⟨hpart, hparts⟩ := List.forall_mem_cons.1 h
    exact hpart.bind (ih hparts)

/-- Steps that are run one for each part list the values of the parts. -/
theorem decodes_mapM {step : ι → ReadM α} {index : ξ → ι} {layout : ξ → Layout}
    {value : ξ → α} (parts : List ξ)
    (h : ∀ part ∈ parts, Decodes (step (index part)) (layout part) (value part)) :
    Decodes ((parts.map index).mapM step) (parts.flatMap layout) (parts.map value) := by
  induction parts with
  | nil => exact decodes_pure []
  | cons part parts ih =>
    obtain ⟨hpart, hparts⟩ := List.forall_mem_cons.1 h
    rw [List.map_cons, List.mapM_cons, List.flatMap_cons, List.map_cons]
    exact hpart.bind ((ih hparts).bind_nil (decodes_pure _))

/-- Steps that are run one for each index list the values of the parts. -/
theorem decodes_mapM_range' {step : Nat → ReadM α} {layout : Nat → ξ → Layout}
    {value : Nat → ξ → α} (first : Nat) (parts : List ξ)
    (h : ∀ i part, parts[i]? = some part →
      Decodes (step (first + i)) (layout (first + i) part) (value (first + i) part)) :
    Decodes ((List.range' first parts.length).mapM step)
      (parts.mapIdx fun i part => layout (first + i) part).flatten
      (parts.mapIdx fun i part => value (first + i) part) := by
  induction parts generalizing first with
  | nil => exact decodes_pure []
  | cons part parts ih =>
    have hpart := h 0 part rfl
    have hparts := ih (first + 1) fun i own hown => by
      have := h (i + 1) own hown
      rwa [← Nat.add_assoc, Nat.add_right_comm] at this
    have hindex : (fun i => first + (i + 1)) = fun i => first + 1 + i := by
      funext i
      omega
    have hlayout : (fun i part => layout (first + (i + 1)) part) =
        fun i part => layout (first + 1 + i) part :=
      congrArg (fun index i part => layout (index i) part) hindex
    have hvalue : (fun i part => value (first + (i + 1)) part) =
        fun i part => value (first + 1 + i) part :=
      congrArg (fun index i part => value (index i) part) hindex
    rw [List.length_cons, List.range'_succ, List.mapM_cons, List.mapIdx_cons, List.mapIdx_cons,
      List.flatten_cons, hlayout, hvalue]
    exact hpart.bind (hparts.bind_nil (decodes_pure _))

/-- Parts that are read by steps which know the place of the part. -/
theorem decodes_mapM_range {step : Nat → ReadM α} {layout : Nat → ξ → Layout}
    {value : Nat → ξ → α} (parts : List ξ)
    (h : ∀ i part, parts[i]? = some part → Decodes (step i) (layout i part) (value i part)) :
    Decodes ((List.range parts.length).mapM step) (parts.mapIdx layout).flatten
      (parts.mapIdx value) := by
  have hall := decodes_mapM_range' 0 parts fun i part hpart => by
    rw [Nat.zero_add]
    exact h i part hpart
  simpa only [Nat.zero_add, ← List.range_eq_range'] using hall

theorem mapIdx_const {ζ : Type} (f : ξ → ζ) (parts : List ξ) :
    (parts.mapIdx fun _ part => f part) = parts.map f := by
  apply List.ext_getElem?
  simp

/-- Bits that are read one by one. -/
theorem reads_readTimes_readBit (bits : Bits) :
    Reads (readTimes bits.length readBit) (fun _ => bits) bits := by
  have h := decodes_readTimes bits fun bit _ => decodes_readBit bit
  rw [← List.map_eq_flatMap, List.map_id'] at h
  exact (h (Layout.fits_map_flag bits)).congr fun n => Layout.bitsAt_map_flag n bits

/-- Bits that are skipped at once. -/
theorem decodes_skipBits (bits : Bits) : Decodes (skipBits bits.length) (bits.map .flag) () :=
  fun _ => (reads_skipBits bits).congr fun n => (Layout.bitsAt_map_flag n bits).symm

/-- Numbers of the same width that are skipped at once. -/
theorem decodes_skipNumbers {width : Nat} (hwidth : width ≤ 64) (numbers : List Nat) :
    Decodes (skipBits (numbers.length * width)) (numbers.map fun number => .number number width)
      () := by
  have hbits (n : Nat) : Layout.bitsAt n (numbers.map fun number => .number number width) =
      numbers.flatMap fun number => Bits.ofNat width number := by
    induction numbers generalizing n with
    | nil => rfl
    | cons number numbers ih =>
      rw [List.map_cons, Layout.bitsAt_cons, ih, Item.bitsAt, Nat.min_eq_left hwidth,
        List.flatMap_cons]
  have hlength : (numbers.flatMap fun number => Bits.ofNat width number).length =
      numbers.length * width := by
    rw [List.length_flatMap]
    simp only [Bits.length_ofNat, List.map_const', List.sum_replicate_nat]
  have hreads := reads_skipBits (numbers.flatMap fun number => Bits.ofNat width number)
  rw [hlength] at hreads
  exact fun _ => hreads.congr fun n => (hbits n).symm

/-! ### Whole byte strings -/

/-- A step that decodes a layout reads it off the start of what a source gives. -/
theorem Decodes.run_ofSource {step : ReadM α} {layout : Layout} {value : α}
    (h : Decodes step layout value) (hfits : layout.Fits) {source : ByteSource} {rest : Bits}
    (hbits : Bits.ofBytes source.contents = layout.bits ++ rest) :
    ∃ reader, step (ofSource source) = .ok (value, reader) ∧
      (ofSource source).Advances layout.bits reader ∧ reader.bits = rest := by
  obtain ⟨reader, hstep, hadvance⟩ := h hfits (ofSource source) rest (valid_ofSource _) hbits
  exact ⟨reader, hstep, hadvance, hadvance.rest_eq hbits⟩

/-- A step that decodes a layout which fills whole bytes reads it off the start of a byte
string, and leaves what comes after it. -/
theorem Decodes.run_ofBytes {step : ReadM α} {layout : Layout} {value : α}
    (h : Decodes step layout value) (hfits : layout.Fits) (hwhole : layout.bits.length % 8 = 0)
    (tail : Bytes) :
    ∃ reader, step (ofBytes (Bits.pack layout.bits ++ tail)) = .ok (value, reader) ∧
      reader.unread = tail := by
  have hbits : Bits.ofBytes (ByteSource.ofBytes (Bits.pack layout.bits ++ tail)).contents =
      layout.bits ++ Bits.ofBytes tail := by
    rw [ByteSource.contents_ofBytes, Bits.ofBytes_append, Bits.ofBytes_pack_of_whole hwhole]
  obtain ⟨reader, hstep, hadvance, hafter⟩ := h.run_ofSource hfits hbits
  rw [hadvance.bits_eq_unread hwhole] at hafter
  exact ⟨reader, hstep, Bits.ofBytes_injective hafter⟩

/-- A step that decodes a layout reads it off the start of an escaped byte string, whatever
bits follow, and fetches no more bytes than it has bits for. -/
theorem Decodes.run_ofEscaped {step : ReadM α} {layout : Layout} {value : α}
    (h : Decodes step layout value) (hfits : layout.Fits) {payload : Bytes} (following : Bits)
    (hpayload : payload = ByteSource.escapeAfter 0 (Bits.pack (layout.bits ++ following))) :
    ∃ reader, step (ofEscaped payload) = .ok (value, reader) ∧
      reader.position = layout.bits.length ∧
      reader.source = ((ByteSource.ofEscaped payload).take ((layout.bits.length + 7) / 8)).2 := by
  have hbits : Bits.ofBytes (ByteSource.ofEscaped payload).contents =
      layout.bits ++ (following ++
        List.replicate ((8 - (layout.bits ++ following).length % 8) % 8) false) := by
    rw [ByteSource.contents_ofEscaped, hpayload, ByteSource.unescapeAfter_escapeAfter,
      Bits.ofBytes_pack, List.append_assoc]
  obtain ⟨reader, hstep, hadvance, -⟩ := h.run_ofSource hfits hbits
  refine ⟨reader, hstep, ?_, hadvance.take_eq.symm⟩
  rw [hadvance.position_eq]
  exact Nat.zero_add _

end BitReader

end H266
