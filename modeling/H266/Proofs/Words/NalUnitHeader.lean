import H266.NalUnit.Header
import H266.Proofs.Words.Reading

/-!
# NAL Unit Headers in Words

The header of a NAL unit as it is read into words, and parameter sets as they are split into a
header and what follows it. A parser starts with nothing counted, so there is room for all that it
reads.

## Main results

* `NalUnitHeader.simulates_readWords`: the header.
* `Simulates.run_eq`: a run, with its result and the place where it ends.
* `NalUnitHeader.splitParameterSetWords_eq`: parameter sets of one kind.
-/

namespace H266

open WordM

/-! ### Runs -/

/-- A cursor at the first bit of a source. -/
def WordReader.ofSource (source : ByteSource) : WordReader :=
  ⟨source, 0, 0, 0, by decide⟩

/-- A new cursor is seen as a new reader. -/
theorem WordReader.view_ofSource (source : ByteSource) :
    (ofSource source).view = BitReader.ofSource source :=
  view_of_bitPos_eq_zero rfl

/-- Nothing was counted yet. -/
theorem WordReader.hasRoom_ofSource {source : ByteSource} {budget : Nat}
    (h : budget < UInt64.size) : (ofSource source).HasRoom budget := by
  show 0 + budget < UInt64.size
  rwa [Nat.zero_add]

section

variable {α β : Type} {budget : Nat}

/-- A run on words has the result that a run on unbounded numbers has, and ends at the same
place. -/
theorem SimulatesAt.run_eq {step : WordM α} {spec : ReadM β} {reader : WordReader} {f : α → β}
    (h : SimulatesAt reader budget (fun word value => f word = value) step spec) :
    (step reader).map (Prod.map f WordReader.view) =
      (spec reader.view).mapError Stop.refused := by
  obtain ⟨herror, hok⟩ := h
  cases hspec : spec reader.view with
  | error error =>
    rw [herror error hspec]
    rfl
  | ok result =>
    obtain ⟨value, last⟩ := result
    obtain ⟨_, reader', hstep, rfl, rfl, -⟩ := hok value last hspec
    rw [hstep]
    rfl

/-- With room enough a machine does just what the reader does. -/
theorem Simulates.run_eq {step : WordM α} {spec : ReadM β} {reader : WordReader} {f : α → β}
    (h : Simulates budget (fun word value => f word = value) step spec)
    (hroom : reader.HasRoom budget) :
    (step reader).map (Prod.map f WordReader.view) =
      (spec reader.view).mapError Stop.refused :=
  (h reader hroom).run_eq

/-- A run from the first bit of a source, with its result and the bytes that were not fetched. -/
theorem Simulates.run_ofSource {step : WordM α} {spec : ReadM α}
    (h : Simulates budget (· = ·) step spec)
    (hbudget : budget < UInt64.size) (source : ByteSource) :
    (do
      let (value, reader) ← step (.ofSource source)
      return (value, reader.source.remaining)) =
      (do
        let (value, reader) ← spec (.ofSource source)
        return (value, reader.unread)).mapError Stop.refused := by
  have hroom : (WordReader.ofSource source).HasRoom budget := WordReader.hasRoom_ofSource hbudget
  obtain ⟨herror, hok⟩ := h _ hroom
  rw [WordReader.view_ofSource] at herror hok
  cases hspec : spec (.ofSource source) with
  | error error =>
    rw [herror error hspec]
    rfl
  | ok result =>
    obtain ⟨value, last⟩ := result
    obtain ⟨_, reader', hstep, rfl, rfl, -⟩ := hok value last hspec
    rw [hstep]
    rfl

end

/-- A sequence of parsers that each stop only if data is refused. -/
theorem bind_mapError_refused {α β : Type} {first : Except Stop α} {firstSpec : Except Error α}
    {next : α → Except Stop β} {nextSpec : α → Except Error β}
    (h : first = firstSpec.mapError Stop.refused)
    (hnext : ∀ value, next value = (nextSpec value).mapError Stop.refused) :
    first >>= next = (firstSpec >>= nextSpec).mapError Stop.refused := by
  subst h
  cases firstSpec with
  | error error => rfl
  | ok value => exact hnext value

/-! ### Headers -/

namespace NalUnitHeader

/-- Reads a NAL unit header. -/
def readWords : WordM NalUnitHeader := do
  if ← readBit then
    refuse (.invalidData .forbiddenBit)
  skipFlag
  let layerId : UInt8 ← WordM.readInRange "nuh_layer_id" 0 63 (readNumber 6)
  let type : UInt8 ← readNumber 5
  let temporalIdPlus1 : UInt8 ← readNumber 3
  if temporalIdPlus1 = 0 then
    refuse (.invalidData .missingTemporalId)
  return {
    layerId := layerId.toNat
    type := .ofCode type.toNat
    temporalIdPlus1 := temporalIdPlus1.toNat }

/-- Six bits are in the range that they are compared with. -/
theorem simulates_readLayerId :
    Simulates 6 (IsNumber 6) (WordM.readInRange "nuh_layer_id" 0 63 (readNumber 6) : WordM UInt8)
      (BitReader.readBits 6) := by
  refine (simulates_number UInt8 6 (by decide) (by decide)).andThen fun word value hword => ?_
  obtain ⟨rfl, hlt⟩ := hword
  have hin :
      ¬(Word.toNat word < Word.toNat (0 : UInt8) ∨ Word.toNat (63 : UInt8) < Word.toNat word) := by
    rintro (hlow | hhigh)
    · exact Nat.not_lt_zero _ hlow
    · exact absurd hlt (Nat.not_lt.2 hhigh)
  rw [if_neg hin]
  exact computes_pure ⟨rfl, hlt⟩

/-- A NAL unit header. -/
theorem simulates_readWords : Simulates 16 (· = ·) readWords read := by
  refine simulates_readBit.bindSame fun forbidden => ?_
  cases forbidden with
  | true => exact simulates_refuse fun _ => rfl
  | false =>
    refine skips_skipFlag.seq ?_
    refine simulates_readLayerId.bind fun layerId _ hlayerId => ?_
    obtain ⟨rfl, -⟩ := hlayerId
    refine (simulates_number UInt8 5 (by decide) (by decide)).bind fun type _ htype => ?_
    obtain ⟨rfl, -⟩ := htype
    refine (simulates_number UInt8 3 (by decide) (by decide)).bind fun tid _ htid => ?_
    obtain ⟨rfl, -⟩ := htid
    have hzero : tid = 0 ↔ Word.toNat tid = 0 := UInt8.toNat_inj.symm
    by_cases hmissing : tid = 0
    · rw [if_pos hmissing, if_pos (hzero.1 hmissing)]
      exact simulates_refuse fun _ => rfl
    · rw [if_neg hmissing, if_neg (mt hzero.2 hmissing)]
      exact simulates_pure rfl

/-- The header of a NAL unit and the bytes after it, which are still escaped. -/
def splitWords (nalUnit : Bytes) : Except Stop (NalUnitHeader × Bytes) := do
  let (header, reader) ← readWords (.ofSource (.ofBytes nalUnit))
  return (header, reader.source.remaining)

/-- The header of a NAL unit that must hold a parameter set of the given kind, and the bytes
after it. -/
def splitParameterSetWords (kind : ParameterSetKind) (nalUnit : Bytes) :
    Except Stop (NalUnitHeader × Bytes) := do
  let (header, payload) ← splitWords nalUnit
  if header.type ≠ kind.nalUnitType then
    throw (.refused (.invalidData (.otherNalUnitType kind)))
  return (header, payload)

/-- The header of a parameter set is split off as it is without words. -/
theorem splitParameterSetWords_eq (kind : ParameterSetKind) (nalUnit : Bytes) :
    splitParameterSetWords kind nalUnit =
      (splitParameterSet kind nalUnit).mapError Stop.refused := by
  refine bind_mapError_refused (simulates_readWords.run_ofSource (by decide) _) fun split => ?_
  obtain ⟨header, payload⟩ := split
  by_cases hkind : header.type = kind.nalUnitType
  · simp only [ne_eq, hkind, not_true, if_false]
    rfl
  · simp only [ne_eq, hkind, not_false_iff, if_true]
    rfl

end NalUnitHeader

end H266
