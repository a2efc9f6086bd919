import H266.Bits

/-!
# Byte Sources

Where bytes are read from: a byte string, taken as it is or with its emulation prevention
bytes removed. Inside a NAL unit no two zero bytes may be followed by a byte below `04`, so
that no start code can appear by accident; an encoder writes `03` between them, and a source
that is marked as escaped leaves that byte out again.
-/

namespace H266

/-- Bytes to be read. -/
structure ByteSource where
  /-- The bytes not yet read, emulation prevention bytes included. -/
  remaining : Bytes
  /-- Whether emulation prevention bytes are left out. -/
  escaped : Bool
  /-- How many zero bytes the bytes read so far end with. -/
  zeros : Nat

namespace ByteSource

/-- A source that gives the bytes as they are. -/
def ofBytes (bytes : Bytes) : ByteSource :=
  ⟨bytes, false, 0⟩

/-- A source that leaves out emulation prevention bytes. -/
def ofEscaped (bytes : Bytes) : ByteSource :=
  ⟨bytes, true, 0⟩

/-- The next byte of an escaped string, after `zeros` zero bytes: a byte `03` after two or
more of them is left out. -/
def nextUnescaped? (zeros : Nat) : Bytes → Option (UInt8 × ByteSource)
  | [] => none
  | byte :: rest =>
    if byte = 3 ∧ 2 ≤ zeros then
      nextUnescaped? 0 rest
    else
      some (byte, ⟨rest, true, if byte = 0 then zeros + 1 else 0⟩)

/-- The next byte and the source after it, if there is another byte. -/
def next? (source : ByteSource) : Option (UInt8 × ByteSource) :=
  if source.escaped then
    nextUnescaped? source.zeros source.remaining
  else
    match source.remaining with
    | [] => none
    | byte :: rest => some (byte, { source with remaining := rest })

/-- Takes `count` more bytes, to follow the ones in `taken`, which are in reverse order. -/
def takeAfter (taken : Bytes) : (count : Nat) → ByteSource → Bytes × ByteSource
  | 0, source => (taken.reverse, source)
  | count + 1, source =>
    match source.next? with
    | none => (taken.reverse, { source with remaining := [] })
    | some (byte, rest) => takeAfter (byte :: taken) count rest

/-- Takes `count` bytes, or all there are if they are fewer. A source that was asked for
more than it had is left empty: nothing remains, not even an emulation prevention byte at
its end. -/
def take (count : Nat) (source : ByteSource) : Bytes × ByteSource :=
  takeAfter [] count source

/-- Takes all bytes there are. -/
def takeAll (source : ByteSource) : Bytes × ByteSource :=
  source.take (source.remaining.length + 1)

end ByteSource

end H266
