import H266.Proofs.RecordRoundTrip

/-!
# Syntax of Decoder Configuration Records

The syntax trees of a decoder configuration record: what a byte string states, reserved bits
included. A tree has a written form and a value, which is what is left of it after reading. Its
canonical form differs from it in the reserved bits only: set after the bit depth, clear
elsewhere. That is the form in which the value of the tree is written.

## Main results

* `RecordSyntax.bits_canonical`: the canonical form is what is written of the value.
* `RecordSyntax.length_bits`: every form fills as many bytes as the size of the value.
* `RecordSyntax.valid_value_iff`: the value can be written if it has as many parameter sets as a
  record must and may have.
-/

namespace H266

/-! ### Layouts that differ in reserved bits -/

/-- An item with a zero in the place of a number. -/
def Item.blank : Item → Item
  | .number _ width => .number 0 width
  | item => item

namespace Layout

/-- The numbers in a layout have no influence on its length. -/
theorem length_bitsAt_of_blank {a b : Layout} (h : a.map Item.blank = b.map Item.blank) (n : Nat) :
    (a.bitsAt n).length = (b.bitsAt n).length := by
  have hitem (item : Item) (n : Nat) : (item.blank.bitsAt n).length = (item.bitsAt n).length := by
    cases item <;> simp [Item.blank, Item.bitsAt]
  have hblank (layout : Layout) (n : Nat) :
      (bitsAt n (layout.map Item.blank)).length = (layout.bitsAt n).length := by
    induction layout generalizing n with
    | nil => rfl
    | cons item items ih =>
      rw [List.map_cons, bitsAt_cons, bitsAt_cons, List.length_append, List.length_append, ih,
        hitem]
  rw [← hblank a, h, hblank b]

/-- Layouts with the same bits from a byte boundary on. -/
def Agrees (a b : Layout) : Prop :=
  ∀ n, n % 8 = 0 → a.bitsAt n = b.bitsAt n

/-- A layout agrees with itself. -/
theorem Agrees.refl (a : Layout) : Agrees a a :=
  fun _ _ => rfl

/-- The same may follow. -/
theorem Agrees.append_right {a b : Layout} (h : a.Agrees b) (c : Layout) :
    (a ++ c).Agrees (b ++ c) := by
  intro n hn
  rw [bitsAt_append, bitsAt_append, h n hn]

/-- The same may come first, if it fills whole bytes. -/
theorem Agrees.append_left {a b c : Layout} {size : Nat} (h : a.Agrees b) (hc : c.Fills size) :
    (c ++ a).Agrees (c ++ b) := by
  intro n hn
  have hlength := hc n hn
  rw [bitsAt_append, bitsAt_append, h _ (by omega)]

end Layout

/-! ### Profile, tier and level -/

namespace ProfileRecord

/-- The presence bits for the levels of sublayers, with the given bits up to the byte boundary,
and the levels that are present. -/
def levelLayoutWith (record : ProfileRecord) (sublayers padding : Nat) : Layout :=
  (if 1 < sublayers then
      (record.usedLevels sublayers).map (fun entry => .flag entry.1)
        ++ [.number padding (8 - usedEntries sublayers)]
    else [])
    ++ ((record.usedLevels sublayers).filter (·.1)).map (fun entry => .bytes [entry.2])

/-- The written form with the given bits before the number of constraint bytes and after the
presence bits. -/
def layoutWith (record : ProfileRecord) (sublayers reserved padding : Nat) : Layout :=
  record.headLayout reserved
    ++ record.levelLayoutWith sublayers padding
    ++ [.bytes (Bytes.ofNat 1 record.subProfiles.length)]
    ++ record.subProfiles.map (fun value => .bytes (Bytes.ofNat 4 value.toNat))

/-- Zero bits take the place of an alignment. -/
theorem agrees_levelLayoutWith (record : ProfileRecord) (sublayers : Nat) :
    (record.levelLayoutWith sublayers 0).Agrees (record.levelLayout sublayers) := by
  refine Layout.Agrees.append_right ?_ _
  by_cases hmany : 1 < sublayers
  · intro n hn
    have hused : usedEntries sublayers = min (sublayers - 1) 6 := rfl
    have hwidth : min (8 - usedEntries sublayers) 64 =
        (8 - (n + usedEntries sublayers) % 8) % 8 := by omega
    rw [if_pos hmany, if_pos hmany, Layout.bitsAt_append, Layout.bitsAt_append,
      bitsAt_usedLevels, List.length_map, length_usedLevels, Layout.bitsAt_singleton,
      Layout.bitsAt_singleton, Item.bitsAt, Item.bitsAt, Bits.ofNat_zero_right, hwidth]
  · rw [if_neg hmany, if_neg hmany]
    exact .refl _

/-- With reserved bits in canonical form a structure is written as the writer does. -/
theorem agrees_layoutWith {record : ProfileRecord} (h : record.Valid) (sublayers : Nat) :
    (record.layoutWith sublayers 0 0).Agrees (record.layout sublayers) :=
  (((record.agrees_levelLayoutWith sublayers).append_left (fills_headLayout h 0)).append_right
    _).append_right _

/-- Reserved bits make no difference to the form of the items. -/
theorem map_blank_layoutWith (record : ProfileRecord) (sublayers reserved padding : Nat) :
    (record.layoutWith sublayers reserved padding).map Item.blank =
      (record.layoutWith sublayers 0 0).map Item.blank := by
  simp only [layoutWith, headLayout, levelLayoutWith, List.map_append, List.map_cons, apply_ite,
    Item.blank]

end ProfileRecord

/-! ### Streams -/

/-- A description of a stream. -/
structure StreamSyntax where
  info : StreamInfo
  valid : info.Valid
  normal : info.normal = info
  /-- The five bits after `bit_depth_minus8`. -/
  afterBitDepth : Fin 32
  /-- The two bits before `num_bytes_constraint_info`. -/
  beforeConstraints : Fin 4
  /-- The bits from the presence flags of the sublayers up to the byte boundary, which are seven
  at most. -/
  afterPresence : Fin 128

namespace StreamSyntax

/-- The written form. -/
def layout (stream : StreamSyntax) : Layout :=
  [.number stream.info.olsIndex 9,
   .number stream.info.sublayers 3,
   .number stream.info.frameRate.code 2,
   .number stream.info.chromaFormat 2,
   .number stream.info.bitDepthMinus8 3,
   .number stream.afterBitDepth 5]
    ++ stream.info.profile.layoutWith stream.info.sublayers stream.beforeConstraints
      stream.afterPresence
    ++ [.bytes (Bytes.ofNat 2 stream.info.maxWidth.toNat),
        .bytes (Bytes.ofNat 2 stream.info.maxHeight.toNat),
        .bytes (Bytes.ofNat 2 stream.info.averageFrameRate.toNat)]

/-- The description with its reserved bits as they are written. -/
def canonical (stream : StreamSyntax) : StreamSyntax :=
  { stream with afterBitDepth := 0b11111, beforeConstraints := 0, afterPresence := 0 }

/-- The canonical form of a description of the stream is what is written of it. -/
theorem agrees_canonical (stream : StreamSyntax) :
    stream.canonical.layout.Agrees (DecoderRecord.streamLayout stream.info) := by
  have hhead : (DecoderRecord.streamHeadLayout stream.info).Fills 3 :=
    DecoderRecord.fills_streamHeadLayout stream.info
  exact ((ProfileRecord.agrees_layoutWith stream.valid.profile _).append_left hhead).append_right _

/-- A description of the stream has the form of its canonical one. -/
theorem map_blank_layout (stream : StreamSyntax) :
    stream.layout.map Item.blank = stream.canonical.layout.map Item.blank := by
  simp only [layout, canonical, List.map_append, List.map_cons, Item.blank,
    ProfileRecord.map_blank_layoutWith]

end StreamSyntax

/-! ### Arrays -/

/-- An array of NAL units. -/
structure ArraySyntax where
  array : NalUnitArray
  valid : array.Valid
  /-- The two bits between `array_completeness` and `NAL_unit_type`. -/
  reserved : Fin 4

namespace ArraySyntax

/-- The written form. -/
def layout (part : ArraySyntax) : Layout :=
  [.flag part.array.complete, .number part.reserved 2, .number part.array.type.code 5]
    ++ (if part.array.type.isSingle then []
      else [.bytes (Bytes.ofNat 2 part.array.nalUnits.length)])
    ++ part.array.nalUnits.flatMap DecoderRecord.nalUnitLayout

/-- The array with its reserved bits as they are written. -/
def canonical (part : ArraySyntax) : ArraySyntax :=
  { part with reserved := 0 }

theorem layout_canonical (part : ArraySyntax) :
    part.canonical.layout = DecoderRecord.arrayLayout part.array := rfl

/-- An array has the form of its canonical one. -/
theorem map_blank_layout (part : ArraySyntax) :
    part.layout.map Item.blank = (DecoderRecord.arrayLayout part.array).map Item.blank := by
  simp only [layout, DecoderRecord.arrayLayout, List.map_append, List.map_cons, Item.blank]

end ArraySyntax

/-! ### Records -/

/-- A decoder configuration record. -/
structure RecordSyntax where
  lengthSizeMinus1 : Nat
  lengthSize : lengthSizeMinus1 ∈ [0, 1, 3]
  stream : Option StreamSyntax
  arrays : List ArraySyntax
  arrays_length_lt : arrays.length < 256

namespace RecordSyntax

/-- The written form. -/
def layout (tree : RecordSyntax) : Layout :=
  [.number 0b11111 5, .number tree.lengthSizeMinus1 2, .flag tree.stream.isSome]
    ++ (tree.stream.map StreamSyntax.layout).getD []
    ++ [.bytes (Bytes.ofNat 1 tree.arrays.length)]
    ++ tree.arrays.flatMap ArraySyntax.layout

/-- What is left of the record after reading. -/
def value (tree : RecordSyntax) : DecoderRecord where
  lengthSizeMinus1 := tree.lengthSizeMinus1
  stream := tree.stream.map (·.info)
  arrays := tree.arrays.map (·.array)

/-- The record with its reserved bits as they are written. -/
def canonical (tree : RecordSyntax) : RecordSyntax :=
  { tree with
    stream := tree.stream.map StreamSyntax.canonical
    arrays := tree.arrays.map ArraySyntax.canonical
    arrays_length_lt := by rw [List.length_map]; exact tree.arrays_length_lt }

/-- The canonical form is read as the same record. -/
theorem value_canonical (tree : RecordSyntax) : tree.canonical.value = tree.value := by
  simp [value, canonical, Function.comp_def, StreamSyntax.canonical, ArraySyntax.canonical]

/-- Reading what is written of the value changes nothing. -/
theorem normal_value (tree : RecordSyntax) : tree.value.normal = tree.value := by
  cases hstream : tree.stream with
  | none => simp [DecoderRecord.normal, value, hstream]
  | some stream => simp [DecoderRecord.normal, value, hstream, stream.normal]

/-- Every description of the stream in a syntax tree is valid. -/
theorem valid_stream_value (tree : RecordSyntax) (info : StreamInfo)
    (h : tree.value.stream = some info) : info.Valid := by
  obtain ⟨stream, -, rfl⟩ := Option.map_eq_some_iff.1 h
  exact stream.valid

/-- **Validity**: the value can be written exactly if it has as many parameter sets of each kind
as a record must and may have. -/
theorem valid_value_iff (tree : RecordSyntax) :
    tree.value.Valid ↔ ∀ kind, DecoderRecord.minCount kind ≤ tree.value.count kind.nalUnitType ∧
      tree.value.count kind.nalUnitType ≤ DecoderRecord.maxCount kind := by
  constructor
  · intro h kind
    exact ⟨h.minCount_le kind, h.count_le kind⟩
  · intro h
    refine ⟨tree.lengthSize, fun kind => (h kind).1, fun kind => (h kind).2, ?_, ?_,
      tree.valid_stream_value⟩
    · have := tree.arrays_length_lt
      rw [value, List.length_map]
      omega
    · intro array harray
      obtain ⟨part, -, rfl⟩ := List.mem_map.1 harray
      exact part.valid

/-- The canonical form is what is written of the value. -/
theorem bits_canonical (tree : RecordSyntax) :
    tree.canonical.layout.bits = tree.value.layout.bits := by
  have hhead : Layout.Fills
      [.number 0b11111 5, .number tree.lengthSizeMinus1 2, .flag tree.stream.isSome] 1 :=
    DecoderRecord.fills_headLayout _ _
  have hstream : Layout.Agrees ((tree.canonical.stream.map StreamSyntax.layout).getD [])
      ((tree.value.stream.map DecoderRecord.streamLayout).getD []) := by
    cases hs : tree.stream with
    | none => simp [canonical, value, hs, Layout.Agrees.refl]
    | some stream => simpa [canonical, value, hs] using stream.agrees_canonical
  have harrays : tree.canonical.arrays.flatMap ArraySyntax.layout =
      tree.value.arrays.flatMap DecoderRecord.arrayLayout := by
    simp [canonical, value, List.flatMap_map, ArraySyntax.layout_canonical]
  have hagrees := ((hstream.append_left hhead).append_right
    [.bytes (Bytes.ofNat 1 tree.arrays.length)]).append_right
      (tree.canonical.arrays.flatMap ArraySyntax.layout) 0 rfl
  rw [DecoderRecord.layout, ← harrays]
  simpa only [Layout.bits, layout, canonical, value, List.length_map, Option.isSome_map]
    using hagrees

/-- Every form fills as many bytes as the size of the value. -/
theorem length_bits (tree : RecordSyntax) :
    tree.layout.bits.length = 8 * tree.value.size := by
  have hstream : ((tree.stream.map StreamSyntax.layout).getD []).map Item.blank =
      ((tree.canonical.stream.map StreamSyntax.layout).getD []).map Item.blank := by
    cases hs : tree.stream with
    | none => simp [canonical, hs]
    | some stream => simpa [canonical, hs] using stream.map_blank_layout
  have harrays : (tree.arrays.flatMap ArraySyntax.layout).map Item.blank =
      (tree.canonical.arrays.flatMap ArraySyntax.layout).map Item.blank := by
    simp only [canonical, List.map_flatMap, List.flatMap_map, ArraySyntax.map_blank_layout]
    rfl
  have hblank : tree.layout.map Item.blank = tree.canonical.layout.map Item.blank := by
    simp only [layout, List.map_append, hstream, harrays]
    simp [canonical]
  calc tree.layout.bits.length
      = tree.canonical.layout.bits.length := Layout.length_bitsAt_of_blank hblank 0
    _ = tree.value.layout.bits.length := by rw [tree.bits_canonical]
    _ = 8 * tree.value.size := DecoderRecord.fills_layout tree.valid_stream_value 0 rfl

end RecordSyntax

end H266
