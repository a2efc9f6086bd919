import H266.ByteSink
import H266.Proofs.ByteSource
import H266.Proofs.Steps

/-!
# What a Byte Sink Stores

A sink that is given a byte string stores it as it is or with emulation prevention bytes. One
that is bounded stores as much of this as fits: a write that goes past the limit fails, and
leaves in the sink the beginning of what an unlimited one would store.

## Main results

* `ByteSink.ends_writeAll`: after bytes were written, the sink either holds them in its form
  or is full.
-/

namespace H266.ByteSink

/-! ### Room for a byte -/

/-- A sink in which `raw` is stored. -/
structure Stores (limit : Option Nat) (raw : Bytes) (sink : ByteSink) : Prop where
  limit_eq : sink.limit = limit
  stored_eq : sink.stored.toList = raw
  length_le : ∀ most, limit = some most → raw.length ≤ most

/-- A sink that was to store `raw` and holds only what fits of it. -/
def Full (limit : Option Nat) (raw : Bytes) (sink : ByteSink) : Prop :=
  ∃ most, limit = some most ∧ most < raw.length ∧ sink.stored.toList = raw.take most

/-- A sink that is too small for a string is too small for a longer one. -/
theorem Full.append {limit : Option Nat} {raw : Bytes} {sink : ByteSink}
    (h : sink.Full limit raw) (more : Bytes) : sink.Full limit (raw ++ more) := by
  obtain ⟨most, hlimit, hlt, hstored⟩ := h
  refine ⟨most, hlimit, ?_, ?_⟩
  · rw [List.length_append]
    omega
  · rw [hstored, List.take_append_of_le_length (by omega)]

/-- There is no room for a byte exactly if the limit is reached. -/
theorem fitting_one_eq_zero_iff {sink : ByteSink} :
    sink.fitting 1 = 0 ↔ ∃ most, sink.limit = some most ∧ most ≤ sink.stored.size := by
  cases h : sink.limit with
  | none => simp [fitting, h]
  | some most =>
    simp only [fitting, h, Option.some.injEq, exists_eq_left']
    omega

/-- A byte is stored, unless the sink is full. -/
theorem store_cases {limit : Option Nat} {raw : Bytes} {sink : ByteSink} (byte : UInt8)
    (h : sink.Stores limit raw) :
    (store byte sink = (.ok (), { sink with stored := sink.stored.push byte }) ∧
      Stores limit (raw ++ [byte]) { sink with stored := sink.stored.push byte }) ∨
    (store byte sink = (.error Error.sinkFull, sink) ∧ sink.Full limit (raw ++ [byte])) := by
  have hsize : sink.stored.size = raw.length := by rw [← h.stored_eq, Array.length_toList]
  rw [store, StateStep.get_bind]
  by_cases hroom : sink.fitting 1 = 0
  · right
    obtain ⟨most, hlimit, hle⟩ := fitting_one_eq_zero_iff.1 hroom
    rw [h.limit_eq] at hlimit
    have hge := h.length_le most hlimit
    rw [if_pos hroom]
    refine ⟨rfl, most, hlimit, ?_, ?_⟩
    · rw [List.length_append, List.length_singleton]
      omega
    · rw [h.stored_eq, List.take_append_of_le_length (by omega),
        List.take_of_length_le (by omega)]
  · left
    rw [if_neg hroom]
    refine ⟨rfl, h.limit_eq, ?_, ?_⟩
    · rw [Array.toList_push, h.stored_eq]
    · intro most hmost
      rw [fitting_one_eq_zero_iff, h.limit_eq] at hroom
      have : ¬most ≤ sink.stored.size := fun hle => hroom ⟨most, hmost, hle⟩
      rw [List.length_append, List.length_singleton]
      omega

/-! ### The stored form -/

/-- What a sink stores of the bytes that are written to it. -/
def storedForm (escaping : Bool) (bytes : Bytes) : Bytes :=
  if escaping then ByteSource.escapeAfter 0 bytes else bytes

@[simp] theorem storedForm_false (bytes : Bytes) : storedForm false bytes = bytes := rfl

@[simp] theorem storedForm_true (bytes : Bytes) :
    storedForm true bytes = ByteSource.escapeAfter 0 bytes := rfl

/-- The stored form of a longer string begins with that of a shorter one. -/
theorem storedForm_append (escaping : Bool) (a b : Bytes) :
    ∃ more, storedForm escaping (a ++ b) = storedForm escaping a ++ more := by
  cases escaping with
  | false => exact ⟨b, rfl⟩
  | true => exact ⟨_, ByteSource.escapeAfter_append 0 a b⟩

/-- A sink that took the given bytes. -/
structure Holds (limit : Option Nat) (escaping : Bool) (bytes : Bytes) (sink : ByteSink) :
    Prop where
  stores : sink.Stores limit (storedForm escaping bytes)
  escaping_eq : sink.escaping = escaping
  zeros_eq : escaping = true → sink.zeros = ByteSource.zerosAfter 0 bytes

/-- How writing to a sink ends that takes `bytes` in all: it holds them, or is full. -/
def Ends (limit : Option Nat) (escaping : Bool) (bytes : Bytes) :
    Except Error Unit × ByteSink → Prop
  | (.ok _, sink) => sink.Holds limit escaping bytes
  | (.error error, sink) =>
    error = Error.sinkFull ∧ sink.Full limit (storedForm escaping bytes)

/-- A new sink has taken nothing, with room for all of its limit. -/
theorem holds_empty (limit : Option Nat) (escaping : Bool) :
    (empty escaping limit).Holds limit escaping [] where
  stores := by cases escaping <;> exact ⟨rfl, rfl, fun _ _ => Nat.zero_le _⟩
  escaping_eq := rfl
  zeros_eq := fun _ => rfl

/-- A sink that is full takes no further bytes either. -/
theorem Ends.append_of_error {limit : Option Nat} {escaping : Bool} {bytes : Bytes}
    {sink : ByteSink} {error : Error} (h : Ends limit escaping bytes (.error error, sink))
    (more : Bytes) : Ends limit escaping (bytes ++ more) (.error error, sink) := by
  obtain ⟨rest, hrest⟩ := storedForm_append escaping bytes more
  refine ⟨h.1, ?_⟩
  rw [hrest]
  exact h.2.append rest

/-! ### Writing -/

/-- Storing a byte and counting zero bytes. -/
theorem ends_storeCounted {limit : Option Nat} {bytes : Bytes} {sink : ByteSink} {byte : UInt8}
    (hstores : sink.Stores limit (ByteSource.escapeAfter 0 bytes ++
      (ByteSource.escapeByte (ByteSource.zerosAfter 0 bytes) byte).dropLast))
    (hescaping : sink.escaping = true)
    (hzeros : ByteSource.countZeros sink.zeros byte =
      ByteSource.countEscapedZeros (ByteSource.zerosAfter 0 bytes) byte) :
    Ends limit true (bytes ++ [byte])
      ((do
        store byte
        modify fun sink =>
          { sink with zeros := if byte = 0 then sink.zeros + 1 else 0 } : SinkM Unit) sink) := by
  have hform : storedForm true (bytes ++ [byte]) =
      ByteSource.escapeAfter 0 bytes ++
        (ByteSource.escapeByte (ByteSource.zerosAfter 0 bytes) byte).dropLast ++ [byte] := by
    rw [storedForm_true, ByteSource.escapeAfter_append, ByteSource.escapeAfter_cons,
      ByteSource.escapeAfter_nil, ByteSource.escapeByte]
    split <;> simp
  rcases store_cases byte hstores with ⟨hstore, hstores'⟩ | ⟨hstore, hfull⟩
  · rw [StateStep.ok_bind hstore]
    refine ⟨?_, hescaping, fun _ => ?_⟩
    · rw [hform]
      exact ⟨hstores'.limit_eq, hstores'.stored_eq, hstores'.length_le⟩
    · rw [ByteSource.zerosAfter, List.foldl_append]
      exact hzeros
  · rw [StateStep.error_bind hstore]
    exact ⟨rfl, hform ▸ hfull⟩

/-- A byte behind emulation prevention is stored as the escaping of all bytes so far says, with the
byte of 3 in front of it where one is due. -/
theorem ends_storeEscaped {limit : Option Nat} {bytes : Bytes} {sink : ByteSink} (byte : UInt8)
    (h : sink.Holds limit true bytes) :
    Ends limit true (bytes ++ [byte]) (storeEscaped byte sink) := by
  have hzeros := h.zeros_eq rfl
  rw [storeEscaped, StateStep.get_bind]
  by_cases hstuff : 2 ≤ sink.zeros ∧ byte ≤ 3
  · rw [if_pos hstuff]
    rw [hzeros] at hstuff
    rcases store_cases 3 h.stores with ⟨hstore, hstores⟩ | ⟨hstore, hfull⟩
    · rw [StateStep.ok_bind hstore, StateStep.modify_bind]
      refine ends_storeCounted ?_ h.escaping_eq ?_
      · rw [ByteSource.escapeByte, if_pos hstuff]
        exact ⟨hstores.limit_eq, hstores.stored_eq, hstores.length_le⟩
      · rw [ByteSource.countEscapedZeros, if_pos hstuff]
    · rw [StateStep.error_bind hstore]
      refine ⟨rfl, ?_⟩
      rw [storedForm_true, ByteSource.escapeAfter_append, ByteSource.escapeAfter_cons,
        ByteSource.escapeByte, if_pos hstuff]
      have := hfull.append [byte]
      rwa [List.append_assoc] at this
  · rw [if_neg hstuff]
    refine ends_storeCounted ?_ h.escaping_eq ?_
    · rw [hzeros] at hstuff
      rw [ByteSource.escapeByte, if_neg hstuff, List.dropLast_singleton, List.append_nil]
      exact h.stores
    · rw [hzeros] at hstuff
      rw [ByteSource.countEscapedZeros, if_neg hstuff, hzeros]

/-- After a byte was written, the sink either holds it too or is full. -/
theorem ends_writeByte {limit : Option Nat} {escaping : Bool} {bytes : Bytes} {sink : ByteSink}
    (byte : UInt8) (h : sink.Holds limit escaping bytes) :
    Ends limit escaping (bytes ++ [byte]) (writeByte byte sink) := by
  rw [writeByte, StateStep.get_bind, h.escaping_eq]
  cases escaping with
  | true => exact ends_storeEscaped byte h
  | false =>
    rw [if_neg Bool.false_ne_true]
    rcases store_cases byte h.stores with ⟨hstore, hstores⟩ | ⟨hstore, hfull⟩
    · rw [hstore]
      exact ⟨hstores, h.escaping_eq, fun h => by simp at h⟩
    · rw [hstore]
      exact ⟨rfl, hfull⟩

/-- After bytes were written, the sink either holds them too or is full. -/
theorem ends_writeAll {limit : Option Nat} {escaping : Bool} {bytes : Bytes} {sink : ByteSink}
    (more : Bytes) (h : sink.Holds limit escaping bytes) :
    Ends limit escaping (bytes ++ more) (writeAll more sink) := by
  induction more generalizing bytes sink with
  | nil =>
    rw [List.append_nil]
    exact h
  | cons byte more ih =>
    have hbyte := ends_writeByte byte h
    have hsplit : bytes ++ byte :: more = bytes ++ [byte] ++ more := by simp
    rw [hsplit]
    show Ends limit escaping _ ((writeByte byte >>= fun _ => writeAll more) sink)
    rcases hw : writeByte byte sink with ⟨_ | _, sink'⟩
    · rw [hw] at hbyte
      rw [StateStep.error_bind hw]
      exact hbyte.append_of_error more
    · rw [hw] at hbyte
      rw [StateStep.ok_bind hw]
      exact ih hbyte

end H266.ByteSink
