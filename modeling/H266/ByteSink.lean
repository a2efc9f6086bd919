import H266.Bits
import H266.Error

/-!
# Byte Sinks

Where bytes are written to: a store that may be bounded, and that may put emulation
prevention bytes between the bytes written to it. A write that fails still leaves in the
store what fitted, so the operations are steps on a sink that end with a result or an error
and with the sink as it then is.
-/

namespace H266

/-- A store that bytes are written to. -/
structure ByteSink where
  /-- The bytes stored so far, emulation prevention bytes included. -/
  stored : Array UInt8
  /-- How many bytes the sink can store in all; without a limit it can store any number. -/
  limit : Option Nat
  /-- Whether emulation prevention bytes are put in. -/
  escaping : Bool
  /-- How many zero bytes the bytes stored so far end with, if they are counted. -/
  zeros : Nat

/-- A step that writes to a sink. -/
abbrev SinkM := ExceptT Error (StateM ByteSink)

namespace ByteSink

/-- An empty sink. -/
def empty (escaping : Bool) (limit : Option Nat) : ByteSink :=
  ⟨#[], limit, escaping, 0⟩

/-- How many of `count` bytes still fit. -/
def fitting (sink : ByteSink) (count : Nat) : Nat :=
  match sink.limit with
  | none => count
  | some limit => min count (limit - sink.stored.size)

/-- Stores one byte as it is, or fails because the sink is full. -/
def store (byte : UInt8) : SinkM Unit := do
  let sink ← get
  if sink.fitting 1 = 0 then
    throw Error.sinkFull
  set { sink with stored := sink.stored.push byte }

/-- Stores one byte, after an emulation prevention byte if it would otherwise follow two
zero bytes and is below `04`. -/
def storeEscaped (byte : UInt8) : SinkM Unit := do
  if 2 ≤ (← get).zeros ∧ byte ≤ 3 then
    store 3
    modify fun sink => { sink with zeros := 0 }
  store byte
  modify fun sink => { sink with zeros := if byte = 0 then sink.zeros + 1 else 0 }

/-- Writes one byte. -/
def writeByte (byte : UInt8) : SinkM Unit := do
  if (← get).escaping then
    storeEscaped byte
  else
    store byte

/-- Writes all the bytes, or fails at the first that the sink cannot store. -/
def writeAll (bytes : Bytes) : SinkM Unit :=
  bytes.forM writeByte

/-- Offers the bytes and returns how many were taken. A plain sink takes as many as fit; an
escaping one takes all or fails. -/
def write (bytes : Bytes) : SinkM Nat := do
  let sink ← get
  if sink.escaping then
    writeAll bytes
    return bytes.length
  let count := sink.fitting bytes.length
  writeAll (bytes.take count)
  return count

end ByteSink

end H266
