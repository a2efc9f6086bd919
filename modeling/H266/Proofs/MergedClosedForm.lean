import H266.Proofs.MergedSummary
import Mathlib.Data.List.Induction
import Mathlib.Order.Bounds.Basic

/-!
# Merged Structures in Closed Form

Each field of a merged record is folded by a rule of its own, and the result of any run of merges
can be said without the run. Profile and tier are the greatest; the level is the greatest of those
from the first structure of the higher tier on; flags are set if all structures set them; the
constraints information is that of the last structure. A sublayer has a stated level if a
structure states one in a merge that is told of the sublayer. The list of sub-profiles is as long
as the longest, each entry from the last structure that has one. Nothing is assumed of the tables
of the structures, or of the numbers of sublayers that the merges are told of.

## Main results

* `ProfileRecord.HasCompleteLevels.levelOf_eq`: levels are inherited over any number of sublayers
  without a stated level.
* `ProfileAggregate.FoldsOver.withMerge`, `ProfileAggregate.foldsOver_withMerges`: what one merge
  does to the fields, and what a run does.
* `ProfileAggregate.exists_mergeEach_isClosedForm`: the record after a run.
-/

namespace H266

/-! ### Values of a list as a whole -/

/-- No value is above the greatest one. -/
theorem le_greatest {α : Type} (value : α → Nat) {entries : List α} {entry : α}
    (h : entry ∈ entries) : value entry ≤ greatest value entries := by
  induction entries using List.reverseRecOn with
  | nil => cases h
  | append_singleton entries last ih =>
    rw [greatest_concat]
    rcases List.mem_append.1 h with hold | hlast
    · exact Nat.le_trans (ih hold) (Nat.le_max_left _ _)
    · rw [List.mem_singleton.1 hlast]
      exact Nat.le_max_right _ _

/-- The greatest value of entries, if there are any, is that of one of them. -/
theorem exists_eq_greatest {α : Type} (value : α → Nat) {entries : List α} (h : entries ≠ []) :
    ∃ entry ∈ entries, value entry = greatest value entries := by
  induction entries using List.reverseRecOn with
  | nil => exact absurd rfl h
  | append_singleton entries last ih =>
    have hlast : last ∈ entries ++ [last] := List.mem_append_right _ (.head [])
    rw [greatest_concat]
    rcases Nat.le_total (greatest value entries) (value last) with hle | hle
    · exact ⟨last, hlast, (Nat.max_eq_right hle).symm⟩
    · rw [Nat.max_eq_left hle]
      by_cases hnil : entries = []
      · subst hnil
        exact ⟨last, hlast, Nat.le_antisymm hle (Nat.zero_le _)⟩
      · obtain ⟨entry, hmem, hvalue⟩ := ih hnil
        exact ⟨entry, List.mem_append_left _ hmem, hvalue⟩

/-- The greatest value is that of an entry, if there are entries. -/
theorem isGreatest_greatest {α : Type} (value : α → Nat) {entries : List α} (h : entries ≠ []) :
    IsGreatest {n | ∃ entry ∈ entries, value entry = n} (greatest value entries) := by
  refine ⟨exists_eq_greatest value h, ?_⟩
  rintro n ⟨entry, hmem, rfl⟩
  exact le_greatest value hmem

/-- A flag of all entries is set if each of them has it set. -/
theorem allSet_eq_true_iff {α : Type} (flag : α → Bool) {entries : List α} (h : entries ≠ []) :
    allSet flag entries = true ↔ ∀ entry ∈ entries, flag entry = true := by
  rw [allSet, List.isEmpty_eq_false_iff.2 h, Bool.not_false, Bool.true_and, List.all_eq_true]

/-! ### Inherited levels -/

/-- In a complete table a level goes down from an entry, or from the general level, over all
entries whose level is not stated. -/
theorem ProfileRecord.HasCompleteLevels.levelOf_eq {record : ProfileRecord} {sublayers : Nat}
    (h : record.HasCompleteLevels sublayers) (low count : Nat)
    (habsent : ∀ k : Fin sublayerEntries, low ≤ k.val → k.val < low + count →
      k.val < usedEntries sublayers → record.sublayerLevelPresent.get k = false) :
    record.levelOf sublayers low = record.levelOf sublayers (low + count) := by
  induction count generalizing low with
  | zero => rfl
  | succ count ih =>
    have habove : record.levelOf sublayers (low + 1) =
        record.levelOf sublayers (low + (count + 1)) := by
      have := ih (low + 1) fun k hk hlt => habsent k (by omega) (by omega)
      rwa [Nat.add_assoc, Nat.add_comm 1] at this
    rw [← habove]
    by_cases hused : low < usedEntries sublayers
    · obtain ⟨entry, rfl, hmany⟩ := exists_entry_of_lt hused
      rw [levelOf_of_lt _ entry hmany,
        h entry hmany (habsent entry (Nat.le_refl _) (by omega) hused)]
    · rw [levelOf_of_le _ (by omega), levelOf_of_le _ (by omega)]

/-! ### Runs -/

/-- The record of a run of merges, of which `last` is the last one. -/
structure ProfileRecord.IsClosedForm (record : ProfileRecord) (merges : List ProfileMerge)
    (last : ProfileMerge) : Prop where
  profile : IsGreatest {profile | ∃ own ∈ merges, own.ptl.profile = profile} record.profile
  tier : record.tier = true ↔ ∃ own ∈ merges, own.ptl.tier = true
  /-- Of structures that are all of the lower tier the greatest level counts. -/
  level_of_lower_tier : (∀ own ∈ merges, own.ptl.tier = false) →
    IsGreatestLevel (merges.map (·.ptl)) record.level
  /-- What comes before the first structure of the higher tier does not count. -/
  level_of_higher_tier : ∀ before first after, merges = before ++ first :: after →
    (∀ own ∈ before, own.ptl.tier = false) → first.ptl.tier = true →
      IsGreatestLevel ((first :: after).map (·.ptl)) record.level
  frameOnly : record.frameOnly = true ↔ ∀ own ∈ merges, own.ptl.frameOnly = true
  multilayer : record.multilayer = true ↔ ∀ own ∈ merges, own.ptl.multilayer = true
  no_constraints : last.ptl.constraints = none → record.constraintInfo = [0]
  constraints : ∀ constraints, last.ptl.constraints = some constraints →
    constraints.encode = .ok record.constraintInfo
  present : ∀ i : Fin sublayerEntries, record.sublayerLevelPresent.get i = true ↔
    ∃ own ∈ merges, i.val < usedEntries own.sublayers ∧
      own.ptl.sublayerLevelPresent[i.val]? = some true
  subProfiles_length :
    IsGreatest {length | ∃ own ∈ merges, own.ptl.subProfiles.length = length}
      record.subProfiles.length
  /-- An entry is that of the last structure that has it. -/
  subProfiles : ∀ j < record.subProfiles.length, ∃ before own after,
    merges = before ++ own :: after ∧ j < own.ptl.subProfiles.length ∧
      (∀ later ∈ after, later.ptl.subProfiles.length ≤ j) ∧
      record.subProfiles[j]? = own.ptl.subProfiles[j]?
  /-- A sublayer without a stated level has that of the nearest one above with a stated level. -/
  levels_of_nearest : ∀ i j : Fin sublayerEntries, i < j → j.val < usedEntries last.sublayers →
    record.sublayerLevelPresent.get i = false → record.sublayerLevelPresent.get j = true →
    (∀ k : Fin sublayerEntries, i < k → k < j → record.sublayerLevelPresent.get k = false) →
      record.sublayerLevels.get i = record.sublayerLevels.get j
  /-- If there is none it has the general level. -/
  levels_of_general : ∀ i : Fin sublayerEntries, i.val < usedEntries last.sublayers →
    (∀ k : Fin sublayerEntries, i ≤ k → k.val < usedEntries last.sublayers →
      record.sublayerLevelPresent.get k = false) →
      record.sublayerLevels.get i = record.level

namespace ProfileAggregate

open ProfileTierLevel

/-- What an aggregate of the given merges holds in the fields that are folded each by itself. -/
structure FoldsOver (aggregate : ProfileAggregate) (merges : List ProfileMerge) : Prop where
  merged_eq : aggregate.merged = merges.length
  profile_eq : aggregate.record.profile = greatest (·.ptl.profile) merges
  frameOnly_eq : aggregate.record.frameOnly = allSet (·.ptl.frameOnly) merges
  multilayer_eq : aggregate.record.multilayer = allSet (·.ptl.multilayer) merges
  present_iff : ∀ i : Fin sublayerEntries, aggregate.record.sublayerLevelPresent.get i = true ↔
    ∃ own ∈ merges, i.val < usedEntries own.sublayers ∧
      own.ptl.sublayerLevelPresent[i.val]? = some true
  subProfiles_length : aggregate.record.subProfiles.length =
    greatest (·.ptl.subProfiles.length) merges
  subProfiles : ∀ j < aggregate.record.subProfiles.length, ∃ before own after,
    merges = before ++ own :: after ∧ j < own.ptl.subProfiles.length ∧
      (∀ later ∈ after, later.ptl.subProfiles.length ≤ j) ∧
      aggregate.record.subProfiles[j]? = own.ptl.subProfiles[j]?

/-- Before the first merge. -/
theorem foldsOver_empty : empty.FoldsOver [] := by
  refine ⟨rfl, rfl, rfl, rfl, fun i => ?_, rfl, fun j hj => absurd hj (Nat.not_lt_zero j)⟩
  simp [empty, ProfileRecord.empty, vector_get_eq]

/-- What a merge does to the fields that are folded each by itself. -/
theorem FoldsOver.withMerge {aggregate : ProfileAggregate} {merges : List ProfileMerge}
    (h : aggregate.FoldsOver merges) (own : ProfileMerge) :
    (aggregate.withMerge own).FoldsOver (merges ++ [own]) where
  merged_eq := by
    rw [List.length_append, ← h.merged_eq]
    rfl
  profile_eq := by
    rw [greatest_concat, ← h.profile_eq]
    rfl
  frameOnly_eq := by
    rw [allSet_concat, ← h.frameOnly_eq, ← h.merged_eq]
    rfl
  multilayer_eq := by
    rw [allSet_concat, ← h.multilayer_eq, ← h.merged_eq]
    rfl
  present_iff i := by
    have hstates : own.ptl.sublayerLevelPresent.getD i false = true ↔
        own.ptl.sublayerLevelPresent[i.val]? = some true := by
      rw [List.getD_eq_getElem?_getD]
      cases own.ptl.sublayerLevelPresent[i.val]? <;> simp
    rw [present_withMerge, Bool.or_eq_true, Bool.and_eq_true, decide_eq_true_eq, hstates,
      h.present_iff, ← lt_usedEntries_iff]
    simp [or_and_right, exists_or]
  subProfiles_length := by
    rw [greatest_concat, ← h.subProfiles_length]
    exact length_mergedSubProfiles _ _
  subProfiles j hj := by
    have hmerged : (aggregate.withMerge own).record.subProfiles =
        mergedSubProfiles aggregate.record.subProfiles own.ptl.subProfiles := rfl
    rw [hmerged, mergedSubProfiles] at hj ⊢
    by_cases hown : j < own.ptl.subProfiles.length
    · exact ⟨merges, own, [], rfl, hown, fun _ hmem => absurd hmem List.not_mem_nil,
        List.getElem?_append_left hown⟩
    · have hle : own.ptl.subProfiles.length ≤ j := Nat.le_of_not_lt hown
      have hold : j < aggregate.record.subProfiles.length := by
        rw [List.length_append, List.length_drop] at hj
        omega
      obtain ⟨before, other, after, hsplit, hlt, hafter, hentry⟩ := h.subProfiles j hold
      refine ⟨before, other, after ++ [own], by rw [hsplit]; simp, hlt, fun later hlater => ?_, ?_⟩
      · rcases List.mem_append.1 hlater with hbefore | hlast
        · exact hafter later hbefore
        · rwa [List.mem_singleton.1 hlast]
      · rw [List.getElem?_append_right hle, List.getElem?_drop, ← hentry]
        congr 1
        omega

/-- What a run of merges does to them. -/
theorem foldsOver_withMerges (merges : List ProfileMerge) :
    (empty.withMerges merges).FoldsOver merges :=
  withMerges_induction (motive := fun done aggregate => aggregate.FoldsOver done) merges
    foldsOver_empty fun _ own _ _ h => h.withMerge own

/-- The structures from the first of the higher tier on. -/
theorem fromHighestTier_append_cons {before after : List ProfileTierLevel}
    {first : ProfileTierLevel} (hbefore : ∀ ptl ∈ before, ptl.tier = false)
    (hfirst : first.tier = true) : fromHighestTier (before ++ first :: after) = first :: after := by
  have hhighest : highestTier (before ++ first :: after) = true :=
    List.any_eq_true.2 ⟨first, List.mem_append_right _ (.head _), hfirst⟩
  have hdropped : before.dropWhile (·.tier != true) = [] :=
    List.dropWhile_eq_nil_iff.2 fun ptl hmem => by simp [hbefore ptl hmem]
  rw [fromHighestTier, hhighest, List.dropWhile_append, hdropped]
  simp [hfirst]

/-- The levels after a run are complete for the number of sublayers that the last merge was told
of. -/
theorem hasCompleteLevels_of_getLast {merges : List ProfileMerge} (h : merges ≠ []) :
    (empty.withMerges merges).record.HasCompleteLevels (merges.getLast h).sublayers := by
  conv in empty.withMerges merges => rw [← List.dropLast_concat_getLast h]
  rw [withMerges_append]
  exact hasCompleteLevels_withMerge _ _

/-- Constraints information is that of the last structure. -/
theorem constraintInfo_of_getLast {merges : List ProfileMerge} (h : merges ≠ []) :
    (empty.withMerges merges).record.constraintInfo = constraintBytes (merges.getLast h).ptl := by
  conv in empty.withMerges merges => rw [← List.dropLast_concat_getLast h]
  rw [withMerges_append]
  rfl

/-- **Merging in closed form**: a run of merges never fails, and each field of the record that it
leaves is what its rule makes of all the structures that were merged. -/
theorem exists_mergeEach_isClosedForm {merges : List ProfileMerge} (h : merges ≠ []) :
    ∃ aggregate, empty.mergeEach merges = .ok aggregate ∧
      aggregate.record.IsClosedForm merges (merges.getLast h) := by
  have hfolds := foldsOver_withMerges merges
  have htier := hasTierLevelOf_withMerges merges
  have hlevel := htier.greatest (mt List.map_eq_nil_iff.1 h)
  have hcomplete := hasCompleteLevels_of_getLast h
  have hinfo := constraintInfo_of_getLast h
  refine ⟨_, mergeEach_eq empty merges, ?_⟩
  generalize (empty.withMerges merges) = aggregate at *
  constructor
  case profile =>
    rw [hfolds.profile_eq]
    exact isGreatest_greatest _ h
  case tier =>
    rw [htier.tier_eq, highestTier, List.any_map, List.any_eq_true]
    rfl
  case level_of_lower_tier =>
    intro hlower
    have hhighest : highestTier (merges.map (·.ptl)) = false :=
      List.any_eq_false.2 fun ptl hmem => by
        obtain ⟨own, hown, rfl⟩ := List.mem_map.1 hmem
        simp [hlower own hown]
    rwa [fromHighestTier_of_eq_false hhighest] at hlevel
  case level_of_higher_tier =>
    intro before first after hsplit hbefore hfirst
    rw [hsplit, List.map_append, List.map_cons, fromHighestTier_append_cons _ hfirst] at hlevel
    · rwa [List.map_cons]
    · intro ptl hmem
      obtain ⟨own, hown, rfl⟩ := List.mem_map.1 hmem
      exact hbefore own hown
  case frameOnly =>
    rw [hfolds.frameOnly_eq]
    exact allSet_eq_true_iff _ h
  case multilayer =>
    rw [hfolds.multilayer_eq]
    exact allSet_eq_true_iff _ h
  case no_constraints =>
    intro hnone
    rw [hinfo, constraintBytes, hnone]
  case constraints =>
    intro constraints hsome
    rw [hinfo, constraintBytes, hsome]
    exact constraints.encode_eq_pack
  case present => exact hfolds.present_iff
  case subProfiles_length =>
    rw [hfolds.subProfiles_length]
    exact isGreatest_greatest _ h
  case subProfiles => exact hfolds.subProfiles
  case levels_of_nearest =>
    intro i j hij hj habsent _ hbetween
    have hmany : j.val + 1 < (merges.getLast h).sublayers := (lt_usedEntries_iff j).1 hj
    have hdistance : i.val + (j.val - i.val) = j.val := Nat.add_sub_of_le (Nat.le_of_lt hij)
    have heq := hcomplete.levelOf_eq i.val (j.val - i.val) fun k hle hlt _ => by
      rcases Nat.eq_or_lt_of_le hle with heq | hlt'
      · rwa [← Fin.ext heq]
      · exact hbetween k hlt' (Fin.lt_def.2 (by omega))
    rwa [hdistance, ProfileRecord.levelOf_of_lt _ i (by have := Fin.lt_def.1 hij; omega),
      ProfileRecord.levelOf_of_lt _ j hmany] at heq
  case levels_of_general =>
    intro i hi habsent
    have heq := hcomplete.levelOf_eq i.val (usedEntries (merges.getLast h).sublayers)
      fun k hle _ hused => habsent k (Fin.le_def.2 hle) hused
    rwa [ProfileRecord.levelOf_of_lt _ i ((lt_usedEntries_iff i).1 hi),
      ProfileRecord.levelOf_of_le _ (Nat.le_add_left _ _)] at heq

/-- A structure of the higher tier with the longer list of sub-profiles between two of the lower
one; the last merge is told of fewer sublayers than the one before. -/
theorem exists_mergeEach_isClosedForm_low_high_low :
    let ptl (tier : Bool) (level : UInt8) (subProfiles : List UInt32) : ProfileTierLevel :=
      { profile := 1, tier, level, frameOnly := true, multilayer := tier, constraints := none
        sublayerLevelPresent := [false, tier], sublayerLevels := [level, level], subProfiles }
    let last : ProfileMerge := ⟨ptl false 40 [3], 3⟩
    let merges : List ProfileMerge := [⟨ptl false 90 [], 2⟩, ⟨ptl true 30 [1, 2], 5⟩, last]
    ∃ h : merges ≠ [], merges.getLast h = last ∧
      ∃ aggregate, empty.mergeEach merges = .ok aggregate ∧
        aggregate.record.IsClosedForm merges (merges.getLast h) ∧
        aggregate.record.level = 40 ∧ aggregate.record.subProfiles = [3, 2] ∧
        aggregate.record.sublayerLevels.toList = [40, 40, 30, 30, 0, 0] := by
  intro ptl last merges
  have hne : merges ≠ [] := List.cons_ne_nil _ _
  obtain ⟨aggregate, hmerged, hclosed⟩ := exists_mergeEach_isClosedForm hne
  have hvalue : aggregate = empty.withMerges merges :=
    Except.ok.inj (hmerged.symm.trans (mergeEach_eq empty merges))
  refine ⟨hne, rfl, aggregate, hmerged, hclosed, ?_⟩
  rw [hvalue]
  decide

end ProfileAggregate

end H266
