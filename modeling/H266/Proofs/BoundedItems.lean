import H266.Proofs.ItemRoundTrip

/-!
# Writing Items to Bounded Sinks

A number that its width has no room for, or one that has no code, is refused before any bit of it
is written, and the writer can go on as if nothing had been asked of it. All other items leave the
bits of their form, one behind the other, whether they go through the byte that is not full yet or
around it.

A bounded sink makes no other difference than that writing stops. It stops in the first item for
which an unlimited sink would have to store more bytes than fit, be it in front of an emulation
prevention byte or behind it, inside of whole bytes or where the last byte is filled up, and it
leaves as much of what the unlimited sink would hold as fits.

## Main results

* `BitWriter.writeItem_of_refusal?`: refused items change nothing.
* `BitWriter.writeEach_cases`: items are written up to the end, or up to the item that the sink
  stops.
* `BitWriter.writeEach_bounded`: what sinks of any size hold.
-/

namespace H266

open ByteSink

/-! ### Refused items -/

namespace Item

/-- Why an item is refused before any bit of it is written, if it is. -/
def refusal? : Item → Option Error
  | .number value width =>
    if value < 2 ^ min width 64 then none else some (.invalidData .bitsTooLarge)
  | .expGolomb value => if value + 1 < UInt64.size then none else some Error.codeTooLarge
  | .flag _ | .leading _ _ | .bytes _ | .signedExpGolomb _ | .align => none

/-- How writing an item ends if there is room for it. -/
def outcome (item : Item) : Except Error Unit :=
  item.refusal?.elim (.ok ()) .error

end Item

namespace Layout

/-- The items that are not refused. -/
def kept (layout : Layout) : Layout :=
  layout.filter fun item => item.refusal?.isNone

/-- A refused item is left out of what is kept. -/
theorem kept_cons_of_refusal? {item : Item} {error : Error} (h : item.refusal? = some error)
    (items : Layout) : kept (item :: items) = items.kept := by
  rw [kept, List.filter_cons_of_neg (by rw [h]; exact Bool.false_ne_true)]
  rfl

/-- An item that is not refused is kept. -/
theorem kept_cons_of_none {item : Item} (h : item.refusal? = none) (items : Layout) :
    kept (item :: items) = item :: items.kept := by
  rw [kept, List.filter_cons_of_pos (by rw [h]; rfl)]
  rfl

theorem kept_append (a b : Layout) : kept (a ++ b) = a.kept ++ b.kept :=
  List.filter_append a b

end Layout

namespace BitWriter

/-- A refused item leaves the writer as it is. -/
theorem writeItem_of_refusal? {item : Item} {error : Error} (h : item.refusal? = some error)
    (writer : BitWriter) : writeItem item writer = (.error error, writer) := by
  cases item with
  | number value width =>
    by_cases hfits : value < 2 ^ min width 64
    · simp [Item.refusal?, hfits] at h
    · have hlarge : 1 <<< min width 64 ≤ value := by
        rw [Nat.one_shiftLeft]
        exact Nat.le_of_not_lt hfits
      rw [Item.refusal?, if_neg hfits] at h
      cases h
      simp only [writeItem, writeBits, if_pos hlarge]
      rfl
  | expGolomb value =>
    by_cases hfits : value + 1 < UInt64.size
    · simp [Item.refusal?, hfits] at h
    · rw [Item.refusal?, if_neg hfits] at h
      cases h
      simp only [writeItem, writeExpGolomb, if_pos (Nat.le_of_not_lt hfits)]
      rfl
  | flag | leading | bytes | signedExpGolomb | align => cases h

/-! ### Items one after the other -/

/-- Writes items one after the other, also behind one that has failed, and lists how each of them
has ended. -/
def writeEach (items : Layout) : StateM BitWriter (List (Except Error Unit)) :=
  items.mapM fun item => (writeItem item).run

/-- The first item, and then the others from the writer it leaves. -/
theorem writeEach_cons {item : Item} {items : Layout} {writer writer' last : BitWriter}
    {outcome : Except Error Unit} {outcomes : List (Except Error Unit)}
    (hitem : writeItem item writer = (outcome, writer'))
    (hitems : writeEach items writer' = (outcomes, last)) :
    writeEach (item :: items) writer = (outcome :: outcomes, last) := by
  have hrun : writeEach (item :: items) writer =
      ((writeItem item writer).1 :: (writeEach items (writeItem item writer).2).1,
        (writeEach items (writeItem item writer).2).2) := by
    rw [writeEach, List.mapM_cons]
    rfl
  rw [hrun, hitem, hitems]

/-- Items that are written up to the first for which the sink has no room: those before it end as
they do if there is room for them. -/
structure StopsIn (items : Layout) (writer : BitWriter) (done : Layout) (item : Item)
    (before last : BitWriter) : Prop where
  splits : ∃ rest, items = done ++ item :: rest
  writeEach_eq : writeEach done writer = (done.map Item.outcome, before)
  writeItem_eq : writeItem item before = (.error Error.sinkFull, last)

/-- What a writer has stored of its bits is the form of the bytes that they fill. -/
theorem Denotes.stores {limit : Option Nat} {escaping : Bool} {bits : Bits} {writer : BitWriter}
    (h : writer.Denotes limit escaping bits) :
    writer.sink.Stores limit (storedForm escaping bits.wholeBytes) := by
  obtain ⟨bytes, hholds, rfl, hpending⟩ := h
  rw [Bits.wholeBytes_append bytes hpending]
  exact hholds.stores

/-- A writer that fails has a sink that is too small for the bytes of its bits. -/
theorem Ends.full {limit : Option Nat} {escaping : Bool} {bits : Bits} {writer : BitWriter}
    {error : Error} (h : Ends limit escaping bits (.error error, writer)) :
    error = Error.sinkFull ∧
      writer.sink.Full limit (storedForm escaping bits.wholeBytes) := by
  obtain ⟨bytes, rest, rfl, hends⟩ := h
  obtain ⟨more, hmore⟩ := Bits.exists_wholeBytes_eq_append bytes rest
  rw [hmore]
  exact hends.append_of_error more

/-! ### Up to the end or the first item without room -/

/-- The items fit, apart from those that are refused. -/
def Checked (items : Layout) : Prop :=
  ∀ item ∈ items, item.refusal? = none → item.Fits

/-- An item ends as it does if there is room for it, and leaves its bits unless it is refused, or
the sink is full. -/
theorem writeItem_cases {item : Item} (hitem : item.refusal? = none → item.Fits)
    {limit : Option Nat} {escaping : Bool} {bits : Bits} {writer : BitWriter}
    (h : writer.Denotes limit escaping bits) :
    ∃ writer',
      (writeItem item writer = (item.outcome, writer') ∧
        writer'.Denotes limit escaping (bits ++ Layout.bitsAt bits.length (Layout.kept [item]))) ∨
      (writeItem item writer = (.error Error.sinkFull, writer') ∧
        writer'.sink.Full limit (storedForm escaping
          (bits ++ Layout.bitsAt bits.length (Layout.kept [item])).wholeBytes)) := by
  cases hrefusal : item.refusal? with
  | some error =>
    refine ⟨writer, .inl ⟨?_, ?_⟩⟩
    · rw [writeItem_of_refusal? hrefusal, Item.outcome, hrefusal]
      rfl
    · rw [Layout.kept_cons_of_refusal? hrefusal]
      show writer.Denotes limit escaping (bits ++ [])
      rwa [List.append_nil]
  | none =>
    have hends := emits_writeItem (hitem hrefusal) limit escaping bits writer h
    have hkept : Layout.kept [item] = [item] := Layout.kept_cons_of_none hrefusal []
    rw [hkept, Layout.bitsAt_singleton, Item.outcome, hrefusal]
    rcases hwrite : writeItem item writer with ⟨error | _, writer'⟩
    · rw [hwrite] at hends
      obtain ⟨rfl, hfull⟩ := hends.full
      exact ⟨writer', .inr ⟨rfl, hfull⟩⟩
    · rw [hwrite] at hends
      exact ⟨writer', .inl ⟨rfl, hends⟩⟩

/-- The bits of items that come one behind the other, without those that are refused. -/
theorem append_bitsAt_kept (bits : Bits) (a b : Layout) :
    bits ++ Layout.bitsAt bits.length (Layout.kept (a ++ b)) =
      (bits ++ Layout.bitsAt bits.length a.kept) ++
        Layout.bitsAt (bits ++ Layout.bitsAt bits.length a.kept).length b.kept := by
  rw [Layout.kept_append, Layout.bitsAt_append, List.length_append, List.append_assoc]

/-- Items are written up to the end, or up to the item that the sink has no room for. -/
theorem writeEach_cases {items : Layout} (hitems : Checked items) {limit : Option Nat}
    {escaping : Bool} {bits : Bits} {writer : BitWriter}
    (h : writer.Denotes limit escaping bits) :
    (∃ last, writeEach items writer = (items.map Item.outcome, last) ∧
      last.Denotes limit escaping (bits ++ Layout.bitsAt bits.length items.kept)) ∨
    ∃ done item before last, StopsIn items writer done item before last ∧
      before.Denotes limit escaping (bits ++ Layout.bitsAt bits.length done.kept) ∧
      last.sink.Full limit (storedForm escaping
        (bits ++ Layout.bitsAt bits.length (Layout.kept (done ++ [item]))).wholeBytes) := by
  induction items generalizing bits writer with
  | nil =>
    refine .inl ⟨writer, rfl, ?_⟩
    rwa [Layout.kept, List.filter_nil, Layout.bitsAt_nil, List.append_nil]
  | cons item items ih =>
    obtain ⟨hitem, hrest⟩ := List.forall_mem_cons.1 hitems
    obtain ⟨middle, ⟨hwrite, hdenotes⟩ | ⟨hwrite, hfull⟩⟩ := writeItem_cases hitem h
    · rcases ih hrest hdenotes with ⟨last, hlast, hall⟩ |
        ⟨done, stopped, before, last, ⟨⟨rest, rfl⟩, hdone, hstop⟩, hbefore, hfull⟩
      · refine .inl ⟨last, writeEach_cons hwrite hlast, ?_⟩
        rw [← append_bitsAt_kept] at hall
        exact hall
      · refine .inr ⟨item :: done, stopped, before, last,
          ⟨⟨rest, rfl⟩, writeEach_cons hwrite hdone, hstop⟩, ?_, ?_⟩
        · rw [← append_bitsAt_kept] at hbefore
          exact hbefore
        · rw [← append_bitsAt_kept] at hfull
          exact hfull
    · refine .inr ⟨[], item, writer, middle, ⟨⟨items, rfl⟩, rfl, hwrite⟩, ?_, hfull⟩
      rwa [Layout.kept, List.filter_nil, Layout.bitsAt_nil, List.append_nil]

/-! ### From an empty sink -/

/-- How many bytes an unlimited sink holds when the items were written to it. -/
def storedCount (escaping : Bool) (items : Layout) : Nat :=
  (writeEach items (ofSink (.empty escaping none))).2.sink.stored.size

/-- Items are written to an unlimited sink up to the end. -/
theorem exists_writeEach {items : Layout} (hitems : Checked items) (escaping : Bool) :
    ∃ last, writeEach items (ofSink (.empty escaping none)) = (items.map Item.outcome, last) ∧
      last.Denotes none escaping items.kept.bits := by
  obtain h | ⟨_, _, _, _, -, -, most, hmost, -⟩ :=
    writeEach_cases hitems (denotes_ofSink none escaping)
  · exact h
  · cases hmost

/-- What the whole bytes of the kept items take in the sink. -/
theorem storedCount_eq {items : Layout} (hitems : Checked items) (escaping : Bool) :
    storedCount escaping items = (storedForm escaping items.kept.bits.wholeBytes).length := by
  obtain ⟨last, hrun, hdenotes⟩ := exists_writeEach hitems escaping
  rw [storedCount, hrun, ← hdenotes.stores.stored_eq, Array.length_toList]

/-- Items whose last byte is filled up fill whole bytes. -/
theorem bits_kept_append_align (items : Layout) :
    (Layout.kept (items ++ [.align])).bits = Bits.ofBytes (Bits.pack items.kept.bits) := by
  have halign : Layout.kept [.align] = [.align] := Layout.kept_cons_of_none rfl []
  rw [Layout.kept_append, halign, Layout.bits, Layout.bitsAt_append, Layout.bitsAt_singleton,
    Item.bitsAt, Nat.zero_add, ← Bits.ofBytes_pack]

/-- What is stored of more items begins with what is stored of the first of them. -/
theorem storedForm_kept_append (escaping : Bool) (a b : Layout) :
    ∃ more, storedForm escaping (Layout.kept (a ++ b)).bits.wholeBytes =
      storedForm escaping a.kept.bits.wholeBytes ++ more := by
  rw [Layout.kept_append, Layout.bits, Layout.bitsAt_append]
  obtain ⟨more, hmore⟩ := Bits.wholeBytes_append_right (a.kept.bitsAt 0) _
  rw [hmore]
  exact storedForm_append escaping _ more

/-- A writer of whole bytes has no bits that wait for their byte to be full. -/
theorem Denotes.pending_eq_nil {limit : Option Nat} {escaping : Bool} {bytes : Bytes}
    {writer : BitWriter} (h : writer.Denotes limit escaping (Bits.ofBytes bytes)) :
    writer.pending = [] := by
  obtain ⟨held, -, hbits, hpending⟩ := h
  have hlength := congrArg List.length hbits
  rw [List.length_append, Bits.length_ofBytes, Bits.length_ofBytes] at hlength
  exact List.length_eq_zero_iff.1 (by omega)

/-- Numbers and codes fit unless they are refused, signed codes if their values are in range. -/
theorem checked_of_signed {items : Layout}
    (hsigned : ∀ value, .signedExpGolomb value ∈ items → -2 ^ 63 < value ∧ value < 2 ^ 63) :
    Checked items := by
  intro item hmem hrefusal
  cases item with
  | number value width =>
    by_cases hfits : value < 2 ^ min width 64
    · exact hfits
    · simp [Item.refusal?, hfits] at hrefusal
  | expGolomb value =>
    by_cases hfits : value + 1 < UInt64.size
    · exact hfits
    · simp [Item.refusal?, hfits] at hrefusal
  | signedExpGolomb value => exact Item.fits_signedExpGolomb_iff.2 (hsigned value hmem)
  | flag | leading | bytes | align => trivial

/-- **Items on sinks of any size**: a number that its width has no room for, or one that has no
code, is refused and leaves the writer as it is. An unlimited sink ends up with the packed bits of
all other items, with emulation prevention bytes if it puts them in. A bounded sink that has room
for them ends up with the same. Any other one stops the writer in the first item, be it the
alignment that completes the last byte, for which an unlimited sink would have to hold more bytes
than fit, and is then filled with the first of them. -/
theorem writeEach_bounded (escaping : Bool) (layout : Layout)
    (hsigned : ∀ value, .signedExpGolomb value ∈ layout → -2 ^ 63 < value ∧ value < 2 ^ 63) :
    let whole := layout ++ [.align]
    let packed := storedForm escaping (Bits.pack layout.kept.bits)
    (∀ item ∈ layout, ∀ error, item.refusal? = some error →
      ∀ writer, writeItem item writer = (.error error, writer)) ∧
    (∃ last, writeEach whole (ofSink (.empty escaping none)) = (whole.map Item.outcome, last) ∧
      last.sink.stored.toList = packed ∧ last.pending = []) ∧
    ∀ most,
      (packed.length ≤ most → ∃ last,
        writeEach whole (ofSink (.empty escaping (some most))) = (whole.map Item.outcome, last) ∧
          last.sink.stored.toList = packed ∧ last.pending = []) ∧
      (most < packed.length → ∃ done item before last,
        StopsIn whole (ofSink (.empty escaping (some most))) done item before last ∧
          storedCount escaping done ≤ most ∧ most < storedCount escaping (done ++ [item]) ∧
          last.sink.stored.toList = packed.take most) := by
  intro whole packed
  have hwhole : Checked whole := checked_of_signed fun value hmem => by
    rcases List.mem_append.1 hmem with hmem | hmem
    · exact hsigned value hmem
    · cases List.mem_singleton.1 hmem
  have hpacked : storedForm escaping whole.kept.bits.wholeBytes = packed := by
    rw [bits_kept_append_align, Bits.wholeBytes_ofBytes]
  -- What a writer leaves that denotes all items.
  have hstored {limit : Option Nat} {last : BitWriter}
      (h : last.Denotes limit escaping whole.kept.bits) :
      last.sink.Stores limit packed ∧ last.pending = [] := by
    refine ⟨hpacked ▸ h.stores, ?_⟩
    rw [bits_kept_append_align] at h
    exact h.pending_eq_nil
  refine ⟨fun item _ error hrefusal => writeItem_of_refusal? hrefusal, ?_, fun most => ?_⟩
  · obtain ⟨last, hrun, hdenotes⟩ := exists_writeEach hwhole escaping
    obtain ⟨hstores, hpending⟩ := hstored hdenotes
    exact ⟨last, hrun, hstores.stored_eq, hpending⟩
  · rcases writeEach_cases hwhole (denotes_ofSink (some most) escaping) with
      ⟨last, hrun, hdenotes⟩ | ⟨done, item, before, last, hstops, hbefore, hfull⟩
    · obtain ⟨hstores, hpending⟩ := hstored hdenotes
      have hroom := hstores.length_le most rfl
      exact ⟨fun _ => ⟨last, hrun, hstores.stored_eq, hpending⟩,
        fun hlt => absurd hroom (Nat.not_le_of_lt hlt)⟩
    · obtain ⟨rest, hsplit⟩ := hstops.splits
      rw [List.append_cons] at hsplit
      have hfirst : Checked (done ++ [item]) := fun own hmem =>
        hwhole own (hsplit ▸ List.mem_append_left rest hmem)
      have hall : last.sink.Full (some most) packed := by
        obtain ⟨more, hmore⟩ := storedForm_kept_append escaping (done ++ [item]) rest
        rw [← hpacked, hsplit, hmore]
        exact hfull.append more
      obtain ⟨own, hown, hlt, htaken⟩ := hall
      obtain ⟨limit, hlimit, hcut, -⟩ := hfull
      cases hown
      cases hlimit
      refine ⟨fun hroom => absurd hlt (Nat.not_lt_of_le hroom),
        fun _ => ⟨done, item, before, last, hstops, ?_, ?_, htaken⟩⟩
      · rw [storedCount_eq fun own hmem => hfirst own (List.mem_append_left _ hmem)]
        exact hbefore.stores.length_le most rfl
      · rw [storedCount_eq hfirst]
        exact hcut

/-- A number and a code that are refused, and a sink that is full between an emulation prevention
byte and the byte that it stands in front of. -/
theorem writeEach_bounded_behind_prevention :
    let layout : Layout :=
      [.number 5 3, .number 8 3, .align, .expGolomb (2 ^ 64 - 1), .bytes [0, 0, 1, 7],
        .leading [0xFF] 12, .signedExpGolomb (-3)]
    let packed : Bytes := [0xA0, 0, 0, 3, 1, 7, 0xFF, 3, 0x80]
    (∀ value, .signedExpGolomb value ∈ layout → -2 ^ 63 < value ∧ value < 2 ^ 63) ∧
    (∃ done item before last,
      StopsIn (layout ++ [.align]) (ofSink (.empty true (some 4))) done item before last ∧
        last.sink.stored.toList = packed.take 4) ∧
    ∃ last, writeEach (layout ++ [.align]) (ofSink (.empty true (some 9))) =
        ([.ok (), .error (.invalidData .bitsTooLarge), .ok (), .error Error.codeTooLarge, .ok (),
          .ok (), .ok (), .ok ()], last) ∧
      last.sink.stored.toList = packed := by
  intro layout packed
  have hsigned : ∀ value, .signedExpGolomb value ∈ layout → -2 ^ 63 < value ∧ value < 2 ^ 63 := by
    intro value hmem
    obtain rfl : value = -3 := by simpa [layout] using hmem
    decide
  have hpacked : storedForm true (Bits.pack layout.kept.bits) = packed := by decide
  obtain ⟨-, -, hbounded⟩ := writeEach_bounded true layout hsigned
  simp only [hpacked] at hbounded
  obtain ⟨done, item, before, last, hstops, -, -, hcut⟩ := (hbounded 4).2 (by decide)
  obtain ⟨whole, hrun, hstored, -⟩ := (hbounded 9).1 (by decide)
  exact ⟨hsigned, ⟨done, item, before, last, hstops, hcut⟩, whole, hrun, hstored⟩

end BitWriter

end H266
