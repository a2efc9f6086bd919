import H266.Proofs.Building

/-!
# Runs of Merges

Merging structures into a record one after the other never fails, so a run of merges is a fold,
and what every merge preserves the run preserves.

## Main results

* `ProfileAggregate.mergeEach_eq`: a run of merges as a fold.
* `ProfileAggregate.withMerges_induction`: what every merge of a run preserves, the run
  preserves.
-/

namespace H266

/-- The greater of two levels is one of them, and bounds both. -/
instance instLawfulOrderMaxLevel : Std.LawfulOrderMax UInt8 where
  max_le_iff a b c := by
    show (if a ≤ b then b else a) ≤ c ↔ a ≤ c ∧ b ≤ c
    grind
  max_eq_or a b := by
    show (if a ≤ b then b else a) = a ∨ (if a ≤ b then b else a) = b
    grind

/-- A merge: the structure that is merged, and how many temporal sublayers the stream has by
then. -/
structure ProfileMerge where
  ptl : ProfileTierLevel
  sublayers : Nat
  deriving DecidableEq, Repr

namespace ProfileAggregate

/-- Merges structures one after the other. -/
def mergeEach (aggregate : ProfileAggregate) (merges : List ProfileMerge) :
    Except Error ProfileAggregate :=
  merges.foldlM (fun aggregate own => aggregate.merge own.ptl own.sublayers) aggregate

/-- The aggregate with one more structure merged in. -/
def withMerge (aggregate : ProfileAggregate) (own : ProfileMerge) : ProfileAggregate :=
  aggregate.combine own.ptl own.sublayers (constraintBytes own.ptl)

/-- The aggregate with several structures merged in. -/
def withMerges (aggregate : ProfileAggregate) (merges : List ProfileMerge) : ProfileAggregate :=
  merges.foldl withMerge aggregate

/-- A run of merges never fails. -/
theorem mergeEach_eq (aggregate : ProfileAggregate) (merges : List ProfileMerge) :
    aggregate.mergeEach merges = .ok (aggregate.withMerges merges) := by
  induction merges generalizing aggregate with
  | nil => rfl
  | cons own merges ih =>
    rw [mergeEach, List.foldlM_cons, merge_eq]
    exact ih (aggregate.withMerge own)

/-- Merges one after the other are one run of merges. -/
theorem withMerges_append (aggregate : ProfileAggregate) (a b : List ProfileMerge) :
    aggregate.withMerges (a ++ b) = (aggregate.withMerges a).withMerges b :=
  List.foldl_append

/-- A parameter set merges all of its PTLs under one number of sublayers. -/
theorem combineAll_eq_withMerges (aggregate : ProfileAggregate) (sublayers : Nat)
    (ptls : List ProfileTierLevel) :
    aggregate.combineAll sublayers ptls = aggregate.withMerges (ptls.map (⟨·, sublayers⟩)) := by
  rw [withMerges, List.foldl_map]
  rfl

/-- What holds before a run of merges and is preserved by each of them holds after the run. The
statement may speak of the merges that were done. -/
theorem withMerges_induction {motive : List ProfileMerge → ProfileAggregate → Prop}
    {aggregate : ProfileAggregate} (merges : List ProfileMerge) (start : motive [] aggregate)
    (step : ∀ done own, own ∈ merges → ∀ aggregate : ProfileAggregate,
      motive done aggregate → motive (done ++ [own]) (aggregate.withMerge own)) :
    motive merges (aggregate.withMerges merges) := by
  have hrun : ∀ rest done (aggregate : ProfileAggregate), (∀ own ∈ rest, own ∈ merges) →
      motive done aggregate → motive (done ++ rest) (aggregate.withMerges rest) := by
    intro rest
    induction rest with
    | nil =>
      intro done aggregate _ h
      rwa [List.append_nil]
    | cons own rest ih =>
      intro done aggregate hmem h
      obtain ⟨hown, hrest⟩ := List.forall_mem_cons.1 hmem
      have := ih _ _ hrest (step done own hown aggregate h)
      rwa [List.append_assoc] at this
  exact hrun merges [] aggregate (fun _ h => h) start

end ProfileAggregate

end H266
