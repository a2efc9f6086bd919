import H266.Layout
import H266.Proofs.Bits

/-!
# The Bits of a Layout

What a layout looks like once it is written. How many zero bits an alignment adds depends on
how many bits come before it, so the bits of an item are given for a position. An item *fits*
if its value can be coded in the form that it asks for.

## Main results

* `Layout.bitsAt_append`: layouts are written one after the other.
* `Bits.ofBytes_pack`: packing completes the last byte with zero bits.
* `Bits.exists_eq_wholeBytes_append`: a bit string is its whole bytes and fewer than eight bits.
-/

namespace H266

/-! ### Zero bits -/

namespace Bits

/-- The number zero is made of zero bits. -/
@[simp] theorem ofNat_zero_right (width : Nat) : ofNat width 0 = List.replicate width false := by
  induction width with
  | zero => rfl
  | succ width ih => rw [ofNat_succ, ih, Nat.zero_testBit, List.replicate_succ]

theorem ofBytes_singleton (byte : UInt8) : ofBytes [byte] = ofByte byte :=
  List.append_nil _

/-- A byte string is determined by its bits. -/
theorem ofBytes_injective {a b : Bytes} (h : ofBytes a = ofBytes b) : a = b := by
  induction a generalizing b with
  | nil =>
    have := congrArg List.length h
    rw [length_ofBytes, length_ofBytes, List.length_nil] at this
    exact (List.length_eq_zero_iff.1 (by omega)).symm
  | cons x a ih =>
    cases b with
    | nil =>
      have := congrArg List.length h
      simp at this
    | cons y b =>
      rw [ofBytes_cons, ofBytes_cons] at h
      obtain ⟨hxy, hab⟩ := List.append_inj h (by simp)
      rw [← toByte_ofByte x, hxy, toByte_ofByte, ih hab]

/-- The bytes of a string that fills them. -/
theorem toBytes_ofBytes_append (bytes : Bytes) (bits : Bits) :
    toBytes bytes.length (ofBytes bytes ++ bits) = bytes := by
  induction bytes with
  | nil => rfl
  | cons byte bytes ih =>
    have hlen : (ofByte byte).length = 8 := length_ofByte byte
    rw [List.length_cons, ofBytes_cons, toBytes, List.append_assoc,
      List.take_append_of_le_length (by omega), List.take_of_length_le (by omega),
      List.drop_append_of_le_length (by omega), List.drop_of_length_le (by omega)]
    have hfull : 8 - (ofByte byte ++ (ofBytes bytes ++ bits)).length = 0 := by
      simp only [List.length_append]
      omega
    rw [hfull, List.replicate_zero, List.append_nil, toByte_ofByte, List.nil_append, ih]

/-- Bits that fill whole bytes are the bits of these bytes. -/
theorem exists_ofBytes_eq {bits : Bits} {count : Nat} (h : bits.length = 8 * count) :
    ∃ bytes, ofBytes bytes = bits := by
  induction count generalizing bits with
  | zero => exact ⟨[], (List.length_eq_zero_iff.1 (by omega)).symm⟩
  | succ count ih =>
    have hrest : (bits.drop 8).length = 8 * count := by
      rw [List.length_drop]
      omega
    obtain ⟨bytes, hbytes⟩ := ih hrest
    have hfirst : (bits.take 8).length = 8 := by
      rw [List.length_take]
      omega
    exact ⟨toByte (bits.take 8) :: bytes, by
      rw [ofBytes_cons, ofByte_toByte hfirst, hbytes, List.take_append_drop]⟩

/-- Bits past the end count as zero bits, so zero bits at the end make no difference. -/
theorem toBytes_append_replicate (count zeros : Nat) (bits : Bits) :
    toBytes count (bits ++ List.replicate zeros false) = toBytes count bits := by
  induction count generalizing bits zeros with
  | zero => rfl
  | succ count ih =>
    rw [toBytes, toBytes]
    congr 1
    · congr 1
      rw [List.take_append, List.append_assoc, List.take_replicate,
        List.replicate_append_replicate]
      congr 2
      simp only [List.length_append, List.length_replicate]
      omega
    · rw [List.drop_append, List.drop_replicate, ih]

/-- As many bytes are made of a bit string as are asked for. -/
@[simp] theorem length_toBytes (count : Nat) (bits : Bits) :
    (toBytes count bits).length = count := by
  induction count generalizing bits with
  | zero => rfl
  | succ count ih => rw [toBytes, List.length_cons, ih]

/-- The bits of as many bytes as have room for a bit string. -/
theorem ofBytes_toBytes {count : Nat} {bits : Bits} (h : bits.length ≤ 8 * count) :
    ofBytes (toBytes count bits) =
      bits ++ List.replicate (8 * count - bits.length) false := by
  have hlen : (bits ++ List.replicate (8 * count - bits.length) false).length = 8 * count := by
    rw [List.length_append, List.length_replicate]
    omega
  obtain ⟨bytes, hbytes⟩ := exists_ofBytes_eq hlen
  have hcount : bytes.length = count := by
    rw [← hbytes, length_ofBytes] at hlen
    omega
  have hwhole := toBytes_ofBytes_append bytes []
  rw [List.append_nil, hcount, hbytes, toBytes_append_replicate] at hwhole
  rw [hwhole, hbytes]

/-- The first eight bits make the first byte. -/
theorem pack_append {first : Bits} (h : first.length = 8) (rest : Bits) :
    pack (first ++ rest) = toByte first :: pack rest := by
  have hcount : ((first ++ rest).length + 7) / 8 = (rest.length + 7) / 8 + 1 := by
    rw [List.length_append]
    omega
  have hfull : 8 - (first ++ rest).length = 0 := by
    rw [List.length_append]
    omega
  rw [pack, hcount, toBytes, List.take_append_of_le_length (by omega),
    List.take_of_length_le (by omega), hfull, List.replicate_zero, List.append_nil,
    List.drop_append_of_le_length (by omega), List.drop_of_length_le (by omega),
    List.nil_append, pack]

/-- The bits of the packed form of a bit string. -/
theorem ofBytes_pack (bits : Bits) :
    ofBytes (pack bits) = bits ++ List.replicate ((8 - bits.length % 8) % 8) false := by
  have hzeros : 8 * ((bits.length + 7) / 8) - bits.length = (8 - bits.length % 8) % 8 := by
    omega
  rw [pack, ofBytes_toBytes (by omega), hzeros]

/-- A bit string is packed into as many bytes as it needs. -/
theorem length_pack (bits : Bits) : (pack bits).length = (bits.length + 7) / 8 :=
  length_toBytes _ bits

/-- Bits that fill whole bytes are packed as they are. -/
theorem ofBytes_pack_of_whole {bits : Bits} (h : bits.length % 8 = 0) :
    ofBytes (pack bits) = bits := by
  rw [ofBytes_pack, h]
  exact List.append_nil _

/-! ### Whole bytes -/

/-- The bytes that a bit string fills, without the bits behind the last of them. -/
def wholeBytes (bits : Bits) : Bytes :=
  toBytes (bits.length / 8) bits

/-- Fewer than eight bits behind whole bytes do not fill another one. -/
theorem wholeBytes_append {rest : Bits} (bytes : Bytes) (h : rest.length < 8) :
    wholeBytes (ofBytes bytes ++ rest) = bytes := by
  have hcount : (ofBytes bytes ++ rest).length / 8 = bytes.length := by
    rw [List.length_append, length_ofBytes]
    omega
  rw [wholeBytes, hcount, toBytes_ofBytes_append]

/-- The whole bytes of the bits of a byte string are the string. -/
theorem wholeBytes_ofBytes (bytes : Bytes) : wholeBytes (ofBytes bytes) = bytes := by
  have hwhole := @wholeBytes_append [] bytes (Nat.zero_lt_succ 7)
  rwa [List.append_nil] at hwhole

/-- Fewer than eight bits are behind the last whole byte. -/
theorem exists_eq_ofBytes_append (bits : Bits) :
    ∃ bytes rest, bits = ofBytes bytes ++ rest ∧ rest.length < 8 := by
  have hwhole : (bits.take (8 * (bits.length / 8))).length = 8 * (bits.length / 8) := by
    rw [List.length_take]
    omega
  obtain ⟨bytes, hbytes⟩ := exists_ofBytes_eq hwhole
  refine ⟨bytes, bits.drop (8 * (bits.length / 8)), ?_, ?_⟩
  · rw [hbytes, List.take_append_drop]
  · rw [List.length_drop]
    omega

/-- Bytes that come first are whole bytes of the string. -/
theorem exists_wholeBytes_eq_append (bytes : Bytes) (rest : Bits) :
    ∃ more, wholeBytes (ofBytes bytes ++ rest) = bytes ++ more := by
  obtain ⟨more, last, rfl, hlast⟩ := exists_eq_ofBytes_append rest
  refine ⟨more, ?_⟩
  rw [← List.append_assoc, ← ofBytes_append, wholeBytes_append _ hlast]

/-- The whole bytes of a longer string begin with those of a shorter one. -/
theorem wholeBytes_append_right (a b : Bits) :
    ∃ more, wholeBytes (a ++ b) = wholeBytes a ++ more := by
  obtain ⟨bytes, rest, rfl, hrest⟩ := exists_eq_ofBytes_append a
  rw [wholeBytes_append bytes hrest, List.append_assoc]
  exact exists_wholeBytes_eq_append bytes (rest ++ b)

/-- Eight bits fill a byte. -/
@[simp] theorem length_wholeBytes (bits : Bits) : (wholeBytes bits).length = bits.length / 8 :=
  length_toBytes _ bits

/-- A bit string is its whole bytes and fewer than eight bits. -/
theorem exists_eq_wholeBytes_append (bits : Bits) :
    ∃ rest, bits = ofBytes (wholeBytes bits) ++ rest ∧ rest.length < 8 := by
  obtain ⟨bytes, rest, rfl, hrest⟩ := exists_eq_ofBytes_append bits
  exact ⟨rest, by rw [wholeBytes_append bytes hrest], hrest⟩

end Bits

/-! ### Items -/

namespace ExpGolomb

/-- A value that has an exp-Golomb code. -/
abbrev Value := Fin (2 ^ 64 - 1)

/-- There are values, so numerals stand for them. -/
instance instNeZeroValue : NeZero (2 ^ 64 - 1) :=
  ⟨Nat.sub_ne_zero_of_lt (Nat.one_lt_two_pow (by decide))⟩

/-- The unsigned exp-Golomb code of a value. -/
def code (value : Nat) : Bits :=
  List.replicate (value + 1).log2 false ++ Bits.ofNat ((value + 1).log2 + 1) (value + 1)

end ExpGolomb

namespace Item

/-- The bits of an item that is written after `position` bits. -/
def bitsAt (position : Nat) : Item → Bits
  | .flag bit => [bit]
  | .number value width => Bits.ofNat (min width 64) value
  | .leading data count =>
    (Bits.ofBytes data).take count ++ List.replicate (count - 8 * data.length) false
  | .bytes data => Bits.ofBytes data
  | .expGolomb value => ExpGolomb.code value
  | .signedExpGolomb value => ExpGolomb.code (ExpGolomb.signedPlace value)
  | .align => List.replicate ((8 - position % 8) % 8) false

/-- Whether the value of an item can be coded as the item asks for. -/
def Fits : Item → Prop
  | .number value width => value < 2 ^ min width 64
  | .expGolomb value => value + 1 < 2 ^ 64
  | .signedExpGolomb value => ExpGolomb.signedPlace value + 1 < 2 ^ 64
  | .flag _ | .leading _ _ | .bytes _ | .align => True

/-- Whether an item fits is a comparison of numbers. -/
instance : DecidablePred Fits := fun item => by
  cases item <;> unfold Fits <;> infer_instance

/-- A flag always fits. -/
@[simp] theorem fits_flag (bit : Bool) : (flag bit).Fits := trivial

/-- A number fits if it can be written in as many bits as are asked for, of which 64 count. -/
@[simp] theorem fits_number {value width : Nat} :
    (number value width).Fits ↔ value < 2 ^ min width 64 := Iff.rfl

/-- The first bits of a byte string always fit. -/
@[simp] theorem fits_leading (data : Bytes) (count : Nat) : (leading data count).Fits := trivial

/-- Bytes always fit. -/
@[simp] theorem fits_bytes (data : Bytes) : (bytes data).Fits := trivial

/-- A value has an exp-Golomb code if its successor is a word of 64 bits. -/
theorem fits_expGolomb {value : Nat} :
    (expGolomb value).Fits ↔ value + 1 < 2 ^ 64 := Iff.rfl

/-- A value that has an exp-Golomb code fits. -/
@[simp] theorem fits_expGolomb_value (value : ExpGolomb.Value) : (expGolomb value).Fits := by
  have := value.isLt
  rw [fits_expGolomb]
  omega

/-- An alignment always fits. -/
@[simp] theorem fits_align : align.Fits := trivial

end Item

/-! ### Layouts -/

namespace Layout

/-- The bits of a layout that is written after `position` bits. -/
def bitsAt (position : Nat) : Layout → Bits
  | [] => []
  | item :: items =>
    item.bitsAt position ++ bitsAt (position + (item.bitsAt position).length) items

/-- The bits of a layout that is written from the start. -/
abbrev bits (layout : Layout) : Bits :=
  layout.bitsAt 0

/-- Whether every item of a layout fits. -/
def Fits (layout : Layout) : Prop :=
  ∀ item ∈ layout, item.Fits

/-- Whether a layout fits is decided item by item. -/
instance : DecidablePred Fits := fun layout => List.decidableBAll Item.Fits layout

@[simp] theorem bitsAt_nil (position : Nat) : bitsAt position [] = [] := rfl

/-- The bits of the first item come first and move on the position of the others. -/
theorem bitsAt_cons (position : Nat) (item : Item) (items : Layout) :
    bitsAt position (item :: items) =
      item.bitsAt position ++ bitsAt (position + (item.bitsAt position).length) items := rfl

@[simp] theorem bitsAt_singleton (position : Nat) (item : Item) :
    bitsAt position [item] = item.bitsAt position :=
  List.append_nil _

/-- Layouts are written one after the other. -/
theorem bitsAt_append (position : Nat) (a b : Layout) :
    bitsAt position (a ++ b) =
      bitsAt position a ++ bitsAt (position + (bitsAt position a).length) b := by
  induction a generalizing position with
  | nil => rfl
  | cons item a ih =>
    rw [List.cons_append, bitsAt_cons, bitsAt_cons, ih, List.append_assoc, List.length_append,
      Nat.add_assoc]

/-- Flags are written as they are, wherever they stand. -/
@[simp] theorem bitsAt_map_flag (position : Nat) (bits : Bits) :
    bitsAt position (bits.map .flag) = bits := by
  induction bits generalizing position with
  | nil => rfl
  | cons bit bits ih => rw [List.map_cons, bitsAt_cons, ih, Item.bitsAt, List.singleton_append]

@[simp] theorem fits_nil : Fits [] := by simp [Fits]

/-- A layout fits if its first item does and the others do. -/
@[simp] theorem fits_cons {item : Item} {items : Layout} :
    Fits (item :: items) ↔ item.Fits ∧ Fits items := by
  simp [Fits]

/-- Two layouts fit together if both do. -/
@[simp] theorem fits_append {a b : Layout} : Fits (a ++ b) ↔ Fits a ∧ Fits b := by
  simp [Fits, or_imp, forall_and]

/-- A layout with an item for each part fits if all these items do. -/
@[simp] theorem fits_map {ξ : Type} {item : ξ → Item} {parts : List ξ} :
    Fits (parts.map item) ↔ ∀ part ∈ parts, (item part).Fits :=
  List.forall_mem_map

/-- A layout that is put together of layouts for its parts fits if all of them do. -/
@[simp] theorem fits_flatMap {ξ : Type} {layout : ξ → Layout} {parts : List ξ} :
    Fits (parts.flatMap layout) ↔ ∀ part ∈ parts, Fits (layout part) :=
  List.forall_mem_flatMap

/-- Layouts fit together if all of them do. -/
theorem fits_flatten {layouts : List Layout} :
    Fits layouts.flatten ↔ ∀ layout ∈ layouts, Fits layout := by
  simp only [Fits, List.mem_flatten]
  exact ⟨fun h layout hlayout item hitem => h item ⟨layout, hlayout, hitem⟩,
    fun h item ⟨layout, hlayout, hitem⟩ => h layout hlayout item hitem⟩

/-- The order of the items makes no difference to whether they fit. -/
@[simp] theorem fits_reverse {layout : Layout} : Fits layout.reverse ↔ Fits layout := by
  simp [Fits]

/-- Flags always fit. -/
theorem fits_map_flag (bits : Bits) : Fits (bits.map .flag) :=
  fits_map.2 fun bit _ => Item.fits_flag bit

/-! ### Whole bytes -/

/-- From a byte boundary, the layout fills the given number of bytes. -/
def Fills (layout : Layout) (size : Nat) : Prop :=
  ∀ position, position % 8 = 0 → (layout.bitsAt position).length = 8 * size

/-- An empty layout fills no bytes. -/
theorem fills_nil : Fills [] 0 :=
  fun _ _ => rfl

/-- Bytes fill as many bytes. -/
theorem fills_bytes (data : Bytes) : Fills [.bytes data] data.length := by
  intro position _
  rw [bitsAt_singleton, Item.bitsAt, Bits.length_ofBytes]

/-- Layouts that fill bytes fill them one after the other. -/
theorem Fills.append {a b : Layout} {m n : Nat} (ha : a.Fills m) (hb : b.Fills n) :
    (a ++ b).Fills (m + n) := by
  intro position hposition
  have hlength := ha position hposition
  rw [bitsAt_append, List.length_append, hb _ (by omega), hlength, Nat.mul_add]

/-- A layout fills the bytes that the layouts for its parts fill. -/
theorem fills_flatMap {ξ : Type} {layout : ξ → Layout} {size : ξ → Nat} (parts : List ξ)
    (h : ∀ part ∈ parts, (layout part).Fills (size part)) :
    Fills (parts.flatMap layout) (parts.map size).sum := by
  induction parts with
  | nil => exact fills_nil
  | cons part parts ih =>
    obtain ⟨hpart, hparts⟩ := List.forall_mem_cons.1 h
    exact hpart.append (ih hparts)

/-- Only the place within a byte matters to the bits of a layout. -/
theorem bitsAt_congr {m n : Nat} (h : m % 8 = n % 8) (layout : Layout) :
    layout.bitsAt m = layout.bitsAt n := by
  induction layout generalizing m n with
  | nil => rfl
  | cons item items ih =>
    have hitem : item.bitsAt m = item.bitsAt n := by
      cases item with
      | align => rw [Item.bitsAt, Item.bitsAt, h]
      | _ => rfl
    have hafter : (m + (item.bitsAt n).length) % 8 = (n + (item.bitsAt n).length) % 8 := by omega
    rw [bitsAt_cons, bitsAt_cons, hitem, ih hafter]

/-- A layout that ends with an alignment fills whole bytes. -/
theorem exists_fills_append_align (layout : Layout) : ∃ size, Fills (layout ++ [.align]) size := by
  refine ⟨(bits (layout ++ [.align])).length / 8, fun position hposition => ?_⟩
  rw [bitsAt_congr (hposition.trans (Nat.zero_mod 8).symm), bits, bitsAt_append, List.length_append,
    bitsAt_singleton, Item.bitsAt, List.length_replicate]
  omega

/-- Byte strings of the same length. -/
theorem fills_map_bytes {ξ : Type} {data : ξ → Bytes} {size : Nat} (parts : List ξ)
    (h : ∀ part ∈ parts, (data part).length = size) :
    Fills (parts.map fun part => .bytes (data part)) (size * parts.length) := by
  induction parts with
  | nil => exact fills_nil
  | cons part parts ih =>
    obtain ⟨hpart, hparts⟩ := List.forall_mem_cons.1 h
    have hall := (fills_bytes (data part)).append (ih hparts)
    rwa [hpart, Nat.add_comm, ← Nat.mul_succ] at hall

end Layout

end H266
