import H266.Proofs.Words.DecoderRecord
import H266.Proofs.Words.SequenceParameterSet
import H266.Proofs.Words.VideoParameterSet

/-!
# Words Suffice

No parser of this library needs numbers without a bound. Whatever bytes it is given, a machine that
computes in words, and that would stop at the first sum, difference, product or shift that is not a
word of its type, at the first conversion that loses something, at the first index past an end and
at the first attempt to read more than 64 bits at once, ends with the result that unbounded numbers
give, and refuses what they refuse for the same reason.

The parsers of whole parameter sets and records start with nothing read. The readers of the parts
can be called anywhere in a stream, as long as the bits that they read can still be counted in 64
bits.

## Main results

* `words_suffice`: the parsers, and the readers of the parts.
-/

namespace H266

/-- Whether a step on words does at one place what `spec` does there: it has the same value, of
which `f` is the unbounded form, and ends at the same place, or it refuses the data for the same
reason. -/
def RunsAs {α β : Type} (reader : WordReader) (f : α → β) (step : WordM α) (spec : ReadM β) :
    Prop :=
  (step reader).map (Prod.map f WordReader.view) = (spec reader.view).mapError Stop.refused

/-- No bytes make a parser on words overflow, cut a number off, look past an end or read more than
64 bits at once. -/
theorem words_suffice :
    (∀ data : Bytes,
      VideoParameterSet.parseWords data =
        (VideoParameterSet.parse data).mapError Stop.refused ∧
      SequenceParameterSet.parseWords data =
        (SequenceParameterSet.parse data).mapError Stop.refused ∧
      DecoderRecord.parseWords data = (DecoderRecord.parse data).mapError Stop.refused) ∧
    ∀ reader : WordReader, reader.consumed.toNat + 2 ^ 14 < 2 ^ 64 →
      (∀ (profilePresent : Bool) (lowerSublayers : UInt8),
        RunsAs reader id (ProfileTierLevel.readWords profilePresent lowerSublayers)
          (ProfileTierLevel.read profilePresent lowerSublayers.toNat)) ∧
      RunsAs reader id TimingHrd.readWords TimingHrd.read ∧
      RunsAs reader UInt64.toNat WordM.readExpGolomb BitReader.readExpGolomb ∧
      RunsAs reader Int64.toInt WordM.readSignedExpGolomb BitReader.readSignedExpGolomb ∧
      RunsAs reader id WordM.skipExpGolomb BitReader.skipExpGolomb := by
  refine ⟨fun data => ⟨VideoParameterSet.parseWords_eq data,
    SequenceParameterSet.parseWords_eq data, DecoderRecord.parseWords_eq data⟩,
    fun reader hcounted => ?_⟩
  have hroom : reader.HasRoom 16384 := hcounted
  have hcode : reader.HasRoom 127 := hroom.mono (by decide)
  refine ⟨fun profilePresent lowerSublayers => ?_, ?_, ?_, ?_, ?_⟩
  · exact (ProfileTierLevel.simulates_readWords profilePresent lowerSublayers).run_eq hroom
  · exact (TimingHrd.simulates_readWords.mono (by decide : 215 ≤ 16384)
      fun _ _ => And.left).run_eq hroom
  · exact (simulates_readExpGolomb.mono (Nat.le_refl _) fun _ _ => And.left).run_eq hcode
  · exact simulates_readSignedExpGolomb.run_eq hcode
  · exact (skips_skipExpGolomb.mono (Nat.le_refl _) fun _ _ _ => rfl).run_eq hcode

/-- The cursor behind the third bit of a byte whose other bits are the code for 5. -/
def behindThirdBit : WordReader :=
  ⟨.ofBytes [0xA0], 0x46, 3, 3, by decide⟩

theorem words_suffice_behind_third_bit :
    behindThirdBit.consumed.toNat + 2 ^ 14 < 2 ^ 64 ∧
    RunsAs behindThirdBit UInt64.toNat WordM.readExpGolomb BitReader.readExpGolomb ∧
    (WordM.readExpGolomb behindThirdBit).map (fun result => result.1.toNat) = .ok 5 := by
  have hcounted : behindThirdBit.consumed.toNat + 2 ^ 14 < 2 ^ 64 := by decide
  exact ⟨hcounted, (words_suffice.2 behindThirdBit hcounted).2.2.1, rfl⟩

end H266
