import H266.AnnexB
import Mathlib.Data.List.Basic

/-!
# Splitting Byte Streams

NAL units are put into a byte stream with a start code before each of them, of three or of four
bytes. Splitting the stream gives them back, whatever stands before the first start code, as long
as the bytes themselves hold no start code and the code after a NAL unit that ends in a zero byte
is the longer one: of the zero bytes before a start code the last is not part of the NAL unit.

Any other byte string splits into NAL units of that kind too, so that its NAL units can be put
into a stream again.

## Main results

* `splitAfter?_eq_some_iff`, `splitAfter?_eq_none_iff`: a string is split at its first start code.
* `nalUnitsFrom_join`: NAL units that follow one another are told apart.
* `four_mul_length_nalUnitsFrom_le`, `isNalUnit_of_mem_nalUnitsFrom`: what any string splits into.
* `nalUnits_inverts_join`: all of this for whole streams.
-/

namespace H266.AnnexB

/-- The bytes a NAL unit is looked for after. -/
def startCode : Bytes := [0, 0, 1]

/-- Bytes that can be told apart in a byte stream. -/
def IsNalUnit (bytes : Bytes) : Prop :=
  bytes ≠ [] ∧ ¬startCode <:+: bytes

instance decidableIsNalUnit (bytes : Bytes) : Decidable (IsNalUnit bytes) :=
  inferInstanceAs (Decidable (_ ∧ _))

/-- A NAL unit with the start code before it, which a zero byte may precede. -/
structure StartedNalUnit where
  hasZeroByte : Bool
  nalUnit : Bytes

namespace StartedNalUnit

/-- The zero byte of a start code of four bytes. -/
def zeroByte (unit : StartedNalUnit) : Bytes :=
  if unit.hasZeroByte then [0] else []

/-- The NAL unit with its start code. -/
def bytes (unit : StartedNalUnit) : Bytes :=
  unit.zeroByte ++ startCode ++ unit.nalUnit

end StartedNalUnit

/-- A byte stream of NAL units. -/
def join (units : List StartedNalUnit) : Bytes :=
  units.flatMap (·.bytes)

/-- After a NAL unit that ends in a zero byte, the next start code has four bytes. -/
def EndsBefore (nalUnit : Bytes) (next : StartedNalUnit) : Prop :=
  nalUnit.getLast? = some 0 → next.hasZeroByte = true

instance decidableEndsBefore (nalUnit : Bytes) (next : StartedNalUnit) :
    Decidable (EndsBefore nalUnit next) :=
  inferInstanceAs (Decidable (_ → _))

/-- Each NAL unit of a stream ends where the next start code begins. -/
def AreSeparated (units : List StartedNalUnit) : Prop :=
  units.IsChain fun unit next => EndsBefore unit.nalUnit next

instance decidableAreSeparated (units : List StartedNalUnit) : Decidable (AreSeparated units) :=
  inferInstanceAs (Decidable (List.IsChain _ units))

/-! ### Finding a start code -/

/-- A byte stream begins with a start code, which a zero byte may precede. -/
theorem hasStartCode_iff {data : Bytes} :
    hasStartCode data = true ↔ startCode <+: data ∨ 0 :: startCode <+: data := by
  constructor
  · intro h
    unfold hasStartCode at h
    split at h
    · exact .inl (List.prefix_append startCode _)
    · exact .inr (List.prefix_append (0 :: startCode) _)
    · cases h
  · rintro (⟨rest, rfl⟩ | ⟨rest, rfl⟩) <;> rfl

/-- A zero byte at the end does not complete a start code. -/
theorem startCode_infix_concat_zero_iff {bytes : Bytes} :
    startCode <:+: bytes ++ [0] ↔ startCode <:+: bytes := by
  refine ⟨fun h => ?_, fun h => h.trans (List.prefix_append bytes [0]).isInfix⟩
  rcases List.infix_concat_iff.1 h with hlast | h
  · have hcode : startCode = [0, 0] ++ [1] := rfl
    obtain hnil | ⟨front, hfront, -⟩ := List.suffix_concat_iff.1 hlast
    · cases hnil
    · cases (List.append_inj' (hcode.symm.trans hfront) rfl).2
  · exact h

/-- A step over a byte that no start code begins with. -/
theorem splitAfter?_cons {byte : UInt8} {data : Bytes} (h : ¬startCode <+: byte :: data)
    (before : Bytes) : splitAfter? before (byte :: data) = splitAfter? (byte :: before) data := by
  rw [splitAfter?]
  rintro rest rfl rfl
  exact h (List.prefix_append startCode rest)

/-- A start code that begins in bytes before another one would be in these bytes, since it has to
end on `01` where the other one has zero bytes. -/
theorem no_startCode_at_cons {byte : UInt8} {initial : Bytes}
    (h : ¬startCode <:+: byte :: initial) (rest : Bytes) :
    ¬startCode <+: byte :: (initial ++ (startCode ++ rest)) := by
  rintro ⟨tail, htail⟩
  rcases initial with _ | ⟨second, _ | ⟨third, initial⟩⟩
  · simp [startCode] at htail
  · simp [startCode] at htail
  · refine h (List.IsPrefix.isInfix ⟨initial, ?_⟩)
    simp only [startCode, List.cons_append, List.nil_append, List.cons.injEq] at htail ⊢
    obtain ⟨hbyte, hsecond, hthird, -⟩ := htail
    exact ⟨hbyte, hsecond, hthird, trivial⟩

/-- The first start code is the one after bytes without any. -/
theorem splitAfter?_append {initial : Bytes} (h : ¬startCode <:+: initial) (before rest : Bytes) :
    splitAfter? before (initial ++ (startCode ++ rest)) =
      some (initial.reverse ++ before, rest) := by
  induction initial generalizing before with
  | nil => rfl
  | cons byte initial ih =>
    have htail : ¬startCode <:+: initial := fun hcode =>
      h (hcode.trans (List.suffix_cons byte initial).isInfix)
    rw [List.cons_append, splitAfter?_cons (no_startCode_at_cons h rest), ih htail,
      List.reverse_cons, List.append_assoc, List.singleton_append]

/-- A string is split at its first start code. -/
theorem splitAfter?_eq_some_iff {before data reversed rest : Bytes} :
    splitAfter? before data = some (reversed, rest) ↔
      ∃ initial, reversed = initial.reverse ++ before ∧ data = initial ++ (startCode ++ rest) ∧
        ¬startCode <:+: initial := by
  constructor
  · intro h
    induction data generalizing before with
    | nil => cases h
    | cons byte data ih =>
      by_cases hcode : startCode <+: byte :: data
      · obtain ⟨tail, htail⟩ := hcode
        rw [← htail] at h
        cases h
        exact ⟨[], rfl, htail.symm, by simp [startCode]⟩
      · rw [splitAfter?_cons hcode] at h
        obtain ⟨initial, hreversed, hdata, hnone⟩ := ih h
        refine ⟨byte :: initial, by simp [hreversed], by rw [hdata, List.cons_append], ?_⟩
        intro hfound
        rcases List.infix_cons_iff.1 hfound with hfirst | hfound
        · exact hcode (hfirst.trans ⟨startCode ++ rest, by rw [hdata, List.cons_append]⟩)
        · exact hnone hfound
  · rintro ⟨initial, rfl, rfl, h⟩
    exact splitAfter?_append h before rest

/-- A string that is not split holds no start code. -/
theorem splitAfter?_eq_none_iff {before data : Bytes} :
    splitAfter? before data = none ↔ ¬startCode <:+: data := by
  constructor
  · intro h
    induction data generalizing before with
    | nil => simp [startCode]
    | cons byte data ih =>
      have hcode : ¬startCode <+: byte :: data := by
        rintro ⟨tail, htail⟩
        rw [← htail] at h
        cases h
      rw [splitAfter?_cons hcode] at h
      intro hfound
      rcases List.infix_cons_iff.1 hfound with hfirst | hfound
      · exact hcode hfirst
      · exact ih h hfound
  · intro h
    cases hsplit : splitAfter? before data with
    | none => rfl
    | some parts =>
      obtain ⟨initial, -, rfl, -⟩ := splitAfter?_eq_some_iff.1 hsplit
      exact absurd ⟨initial, parts.2, by rw [List.append_assoc]⟩ h

/-! ### The end of a NAL unit -/

/-- Of the zero bytes before a start code, the last is not part of the NAL unit. -/
theorem closedNalUnit_reverse_concat_zero (nalUnit : Bytes) :
    closedNalUnit (nalUnit ++ [0]).reverse = nalUnit := by
  rw [List.reverse_concat, closedNalUnit, List.reverse_reverse]

/-- A NAL unit without zero bytes at its end is closed as it is. -/
theorem closedNalUnit_reverse {nalUnit : Bytes} (h : nalUnit.getLast? ≠ some 0) :
    closedNalUnit nalUnit.reverse = nalUnit := by
  unfold closedNalUnit
  split
  next hreversed =>
    rw [← List.head?_reverse, hreversed] at h
    exact absurd rfl h
  · exact List.reverse_reverse nalUnit

/-- Closing a NAL unit only takes bytes off its end. -/
theorem closedNalUnit_reverse_isPrefix (bytes : Bytes) : closedNalUnit bytes.reverse <+: bytes := by
  by_cases h : bytes.getLast? = some 0
  · obtain ⟨front, rfl⟩ := List.getLast?_eq_some_iff.1 h
    rw [closedNalUnit_reverse_concat_zero]
    exact List.prefix_append front [0]
  · exact ⟨[], by rw [closedNalUnit_reverse h, List.append_nil]⟩

/-! ### Splitting after a start code -/

/-- Without another start code, all that is left is one NAL unit. -/
theorem nalUnitsFrom_of_no_startCode {data : Bytes} (h : ¬startCode <:+: data) :
    nalUnitsFrom data = if data.isEmpty then [] else [data] := by
  rw [nalUnitsFrom]
  split
  · rfl
  next hsplit =>
    rw [splitAfter?_eq_none_iff.2 h] at hsplit
    cases hsplit

/-- The next start code ends a NAL unit, or there is none before it. -/
theorem nalUnitsFrom_append {bytes : Bytes} (h : ¬startCode <:+: bytes) (rest : Bytes) :
    nalUnitsFrom (bytes ++ (startCode ++ rest)) =
      if closedNalUnit bytes.reverse = [] then nalUnitsFrom rest
      else closedNalUnit bytes.reverse :: nalUnitsFrom rest := by
  rw [nalUnitsFrom]
  split
  next hsplit =>
    rw [splitAfter?_append h] at hsplit
    cases hsplit
  next hsplit =>
    rw [splitAfter?_append h, List.append_nil] at hsplit
    cases hsplit
    simp only [List.isEmpty_iff]

/-- The strings that can follow a start code: bytes without another one, then maybe another one
and the rest. -/
theorem exists_eq_append_startCode (data : Bytes) :
    ¬startCode <:+: data ∨
      ∃ bytes rest, ¬startCode <:+: bytes ∧ data = bytes ++ (startCode ++ rest) := by
  cases h : splitAfter? [] data with
  | none => exact .inl (splitAfter?_eq_none_iff.1 h)
  | some parts =>
    obtain ⟨bytes, -, hdata, hcode⟩ := splitAfter?_eq_some_iff.1 h
    exact .inr ⟨bytes, parts.2, hcode, hdata⟩

/-! ### Splitting what was joined -/

/-- The first NAL unit comes first, behind its start code. -/
theorem join_cons (unit : StartedNalUnit) (units : List StartedNalUnit) :
    join (unit :: units) = unit.zeroByte ++ (startCode ++ (unit.nalUnit ++ join units)) := by
  simp [join, StartedNalUnit.bytes]

/-- The start code of a NAL unit does not end sooner because of the bytes before it. -/
theorem no_startCode_append_zeroByte {bytes : Bytes} (h : ¬startCode <:+: bytes)
    (next : StartedNalUnit) : ¬startCode <:+: bytes ++ next.zeroByte := by
  rw [StartedNalUnit.zeroByte]
  split
  · rwa [startCode_infix_concat_zero_iff]
  · rwa [List.append_nil]

/-- A zero byte before the next start code is not part of the NAL unit. -/
theorem closedNalUnit_append_zeroByte {nalUnit : Bytes} {next : StartedNalUnit}
    (h : EndsBefore nalUnit next) : closedNalUnit (nalUnit ++ next.zeroByte).reverse = nalUnit := by
  rw [StartedNalUnit.zeroByte]
  split
  · exact closedNalUnit_reverse_concat_zero nalUnit
  next hshort =>
    rw [List.append_nil]
    exact closedNalUnit_reverse fun hzero => hshort (h hzero)

/-- One step: a NAL unit is told apart from what its successor's start code begins. -/
theorem nalUnitsFrom_append_join_cons {nalUnit : Bytes} {next : StartedNalUnit}
    (hunit : IsNalUnit nalUnit) (hends : EndsBefore nalUnit next) (units : List StartedNalUnit) :
    nalUnitsFrom (nalUnit ++ join (next :: units)) =
      nalUnit :: nalUnitsFrom (next.nalUnit ++ join units) := by
  rw [join_cons, ← List.append_assoc,
    nalUnitsFrom_append (no_startCode_append_zeroByte hunit.2 next),
    closedNalUnit_append_zeroByte hends, if_neg hunit.1]

/-- NAL units that follow one another are told apart. -/
theorem nalUnitsFrom_join {unit : StartedNalUnit} {units : List StartedNalUnit}
    (hunits : ∀ each ∈ unit :: units, IsNalUnit each.nalUnit)
    (hseparated : AreSeparated (unit :: units)) :
    nalUnitsFrom (unit.nalUnit ++ join units) = (unit :: units).map (·.nalUnit) := by
  induction units generalizing unit with
  | nil =>
    obtain ⟨hne, hcode⟩ := hunits unit List.mem_cons_self
    rw [join, List.flatMap_nil, List.append_nil, nalUnitsFrom_of_no_startCode hcode]
    simp [hne]
  | cons next units ih =>
    obtain ⟨hunit, hrest⟩ := List.forall_mem_cons.1 hunits
    obtain ⟨hends, hseparated⟩ := List.isChain_cons_cons.1 hseparated
    rw [nalUnitsFrom_append_join_cons hunit hends, ih hrest hseparated]
    rfl

/-- A stream is found after any bytes without a start code. -/
theorem nalUnits_append_join {initial : Bytes} {units : List StartedNalUnit}
    (hinitial : ¬startCode <:+: initial) (hunits : ∀ unit ∈ units, IsNalUnit unit.nalUnit)
    (hseparated : AreSeparated units) :
    nalUnits (initial ++ join units) = units.map (·.nalUnit) := by
  rw [nalUnits]
  cases units with
  | nil => rw [join, List.flatMap_nil, List.append_nil, splitAfter?_eq_none_iff.2 hinitial,
      List.map_nil]
  | cons unit units =>
    rw [join_cons, ← List.append_assoc,
      splitAfter?_append (no_startCode_append_zeroByte hinitial unit)]
    exact nalUnitsFrom_join hunits hseparated

/-! ### What any string splits into -/

/-- Each NAL unit but the first takes a start code and a byte. -/
theorem four_mul_length_nalUnitsFrom_le (data : Bytes) :
    4 * (nalUnitsFrom data).length ≤ data.length + 3 := by
  obtain hcode | ⟨bytes, rest, hcode, hdata⟩ := exists_eq_append_startCode data
  · rw [nalUnitsFrom_of_no_startCode hcode]
    cases data <;> simp
  · have hlength : data.length = bytes.length + (3 + rest.length) := by
      simp [hdata, startCode]
      omega
    have ih := four_mul_length_nalUnitsFrom_le rest
    rw [hdata, nalUnitsFrom_append hcode, ← hdata]
    split
    · omega
    next hne =>
      have := List.length_pos_of_ne_nil hne
      have := (closedNalUnit_reverse_isPrefix bytes).length_le
      rw [List.length_cons]
      omega
termination_by data.length

/-- No NAL unit is empty or holds a start code. -/
theorem isNalUnit_of_mem_nalUnitsFrom {data nalUnit : Bytes} (h : nalUnit ∈ nalUnitsFrom data) :
    IsNalUnit nalUnit := by
  obtain hcode | ⟨bytes, rest, hcode, hdata⟩ := exists_eq_append_startCode data
  · rw [nalUnitsFrom_of_no_startCode hcode] at h
    split at h
    · cases h
    next hne =>
      obtain rfl := List.mem_singleton.1 h
      exact ⟨fun hempty => hne (List.isEmpty_iff.2 hempty), hcode⟩
  · have hlength : rest.length < data.length := by
      simp [hdata, startCode]
      omega
    have ih : nalUnit ∈ nalUnitsFrom rest → IsNalUnit nalUnit := isNalUnit_of_mem_nalUnitsFrom
    rw [hdata, nalUnitsFrom_append hcode] at h
    split at h
    · exact ih h
    next hne =>
      rcases List.mem_cons.1 h with rfl | h
      · have hpart := (closedNalUnit_reverse_isPrefix bytes).isInfix
        exact ⟨hne, fun hfound => hcode (hfound.trans hpart)⟩
      · exact ih h
termination_by data.length

/-- A stream has a start code and a byte for each of its NAL units. -/
theorem length_nalUnits_le (data : Bytes) : (nalUnits data).length ≤ data.length / 4 := by
  rw [nalUnits]
  cases hsplit : splitAfter? [] data with
  | none => exact Nat.zero_le _
  | some parts =>
    obtain ⟨reversed, rest⟩ := parts
    obtain ⟨initial, -, rfl, -⟩ := splitAfter?_eq_some_iff.1 hsplit
    have := four_mul_length_nalUnitsFrom_le rest
    simp only [List.length_append, startCode, List.length_cons, List.length_nil]
    omega

/-- Whatever is split off a stream is a NAL unit. -/
theorem isNalUnit_of_mem_nalUnits {data nalUnit : Bytes} (h : nalUnit ∈ nalUnits data) :
    IsNalUnit nalUnit := by
  rw [nalUnits] at h
  split at h
  · cases h
  · exact isNalUnit_of_mem_nalUnitsFrom h

/-- Start codes of four bytes separate any NAL units. -/
theorem areSeparated_map_long (nalUnits : List Bytes) :
    AreSeparated (nalUnits.map (⟨true, ·⟩)) := by
  refine List.Pairwise.isChain (List.pairwise_map.2 ?_)
  exact List.pairwise_of_forall fun _ _ _ => rfl

/-- Splitting a byte stream gives the NAL units that were joined, whatever stands before the first
start code and however long the start codes are. Of any byte string it gives at most one NAL unit
for every four bytes, none of them empty or with a start code in it, and the same NAL units again
once they are joined with start codes of four bytes. -/
theorem nalUnits_inverts_join :
    (∀ (initial : Bytes) (units : List StartedNalUnit), ¬startCode <:+: initial →
      (∀ unit ∈ units, IsNalUnit unit.nalUnit) → AreSeparated units →
      nalUnits (initial ++ join units) = units.map (·.nalUnit)) ∧
    ∀ data : Bytes,
      (nalUnits data).length ≤ data.length / 4 ∧
      (∀ nalUnit ∈ nalUnits data, IsNalUnit nalUnit) ∧
      nalUnits (join ((nalUnits data).map (⟨true, ·⟩))) = nalUnits data := by
  refine ⟨fun initial units => nalUnits_append_join, fun data =>
    ⟨length_nalUnits_le data, fun nalUnit => isNalUnit_of_mem_nalUnits, ?_⟩⟩
  have hunits : ∀ unit ∈ (nalUnits data).map (StartedNalUnit.mk true), IsNalUnit unit.nalUnit := by
    intro unit hunit
    obtain ⟨nalUnit, hmem, rfl⟩ := List.mem_map.1 hunit
    exact isNalUnit_of_mem_nalUnits hmem
  have hnone : ¬startCode <:+: [] := by simp [startCode]
  have hjoined := nalUnits_append_join hnone hunits (areSeparated_map_long (nalUnits data))
  rw [List.nil_append, List.map_map] at hjoined
  exact hjoined.trans (List.map_id _)

/-- The zero byte at the end of the second NAL unit is kept, the ones before the first start code
are not taken for a NAL unit. -/
theorem nalUnits_inverts_join_mixed :
    let initial : Bytes := [0xFF, 0, 0]
    let units : List StartedNalUnit := [⟨false, [1, 2]⟩, ⟨false, [3, 0]⟩, ⟨true, [0, 4]⟩]
    (¬startCode <:+: initial ∧ (∀ unit ∈ units, IsNalUnit unit.nalUnit) ∧ AreSeparated units) ∧
      nalUnits (initial ++ join units) = [[1, 2], [3, 0], [0, 4]] := by
  intro initial units
  have hinitial : ¬startCode <:+: initial := by decide
  have hunits : ∀ unit ∈ units, IsNalUnit unit.nalUnit := by decide
  have hseparated : AreSeparated units := by decide
  exact ⟨⟨hinitial, hunits, hseparated⟩,
    nalUnits_inverts_join.1 initial units hinitial hunits hseparated⟩

end H266.AnnexB
