import H266.Proofs.SublayerLevels
import H266.Proofs.TierAndLevel

/-!
# Summaries of Merged Structures

Most of what a record says about the structures that were merged into it is said of all of them
at once: the greatest profile and tier, the flags that all of them set, the sublayers for which
one of them states a level, and the length of the longest list of sub-profiles. None of this
depends on the order in which they were merged, if each merge is told of at least the sublayers
that its structure states levels for: otherwise the flags of the sublayers above would be
dropped, or not, according to what was merged before.

## Main results

* `ProfileAggregate.Summarizes.withMerge`, `ProfileAggregate.Summarizes.withMerges`: what a merge
  adds to the summary, and what a run of merges adds.
* `ProfileAggregate.Summarizes.agreesWith`: records of the same structures in another order.
-/

namespace H266

/-! ### Values of a list as a whole -/

section List

variable {α : Type}

/-- The greatest value of some entries, zero if there are none. -/
def greatest (value : α → Nat) (entries : List α) : Nat :=
  entries.foldl (fun most entry => max most (value entry)) 0

/-- One more entry at the end. -/
theorem greatest_concat (value : α → Nat) (entries : List α) (last : α) :
    greatest value (entries ++ [last]) = max (greatest value entries) (value last) :=
  List.foldl_append

/-- The greatest value does not depend on the order. -/
theorem greatest_perm (value : α → Nat) {entries permuted : List α}
    (h : permuted.Perm entries) : greatest value permuted = greatest value entries :=
  h.foldl_eq' (fun _ _ _ _ _ => Nat.max_right_comm _ _ _) 0

/-- Whether there are entries and all of them set a flag. -/
def allSet (flag : α → Bool) (entries : List α) : Bool :=
  !entries.isEmpty && entries.all flag

/-- A flag of one more entry is merged as that of a structure is. -/
theorem allSet_concat (flag : α → Bool) (entries : List α) (last : α) :
    allSet flag (entries ++ [last]) =
      ProfileAggregate.mergedFlag entries.length (allSet flag entries) (flag last) := by
  rw [allSet, List.all_append, List.all_cons, List.all_nil, Bool.and_true]
  cases entries with
  | nil => rfl
  | cons entry entries => rfl

/-- A flag of all entries does not depend on the order. -/
theorem allSet_perm (flag : α → Bool) {entries permuted : List α}
    (h : permuted.Perm entries) : allSet flag permuted = allSet flag entries := by
  rw [allSet, allSet, h.all_eq, h.isEmpty_eq]

end List

/-! ### Records -/

/-- Records that agree in all that does not depend on the order in which structures were merged:
in all but the levels, the constraints information, and which the sub-profiles are. -/
structure ProfileRecord.AgreesWith (record other : ProfileRecord) : Prop where
  profile_eq : record.profile = other.profile
  tier_eq : record.tier = other.tier
  frameOnly_eq : record.frameOnly = other.frameOnly
  multilayer_eq : record.multilayer = other.multilayer
  present_eq : record.sublayerLevelPresent = other.sublayerLevelPresent
  subProfiles_length : record.subProfiles.length = other.subProfiles.length

/-! ### Merges -/

/-- A merge that is told of all the sublayers that its structure states levels for. -/
def ProfileMerge.IsCovered (own : ProfileMerge) : Prop :=
  own.ptl.sublayerLevelPresent.length < own.sublayers

/-- A flag that the structure of such a merge sets is that of an entry in use. -/
theorem ProfileMerge.IsCovered.lt_sublayers {own : ProfileMerge} (h : own.IsCovered) {i : Nat}
    (hpresent : own.ptl.sublayerLevelPresent.getD i false = true) : i + 1 < own.sublayers := by
  refine Nat.lt_of_le_of_lt (Nat.lt_of_not_le fun hle => ?_) h
  rw [List.getD_eq_getElem?_getD, List.getElem?_eq_none hle] at hpresent
  cases hpresent

namespace ProfileAggregate

open ProfileTierLevel

/-- What an aggregate says of all the given structures at once. -/
structure Summarizes (aggregate : ProfileAggregate) (ptls : List ProfileTierLevel) : Prop where
  merged_eq : aggregate.merged = ptls.length
  profile_eq : aggregate.record.profile = greatest (·.profile) ptls
  tier_eq : aggregate.record.tier = highestTier ptls
  frameOnly_eq : aggregate.record.frameOnly = allSet (·.frameOnly) ptls
  multilayer_eq : aggregate.record.multilayer = allSet (·.multilayer) ptls
  present_eq : ∀ i : Fin sublayerEntries, aggregate.record.sublayerLevelPresent.get i =
    ptls.any (·.sublayerLevelPresent.getD i false)
  subProfiles_length : aggregate.record.subProfiles.length = greatest (·.subProfiles.length) ptls

/-- Nothing was merged at first. -/
theorem summarizes_empty : empty.Summarizes [] := by
  refine ⟨rfl, rfl, rfl, rfl, rfl, fun i => ?_, rfl⟩
  simp [empty, ProfileRecord.empty, vector_get_eq]

/-- The longer list says how many sub-profiles there are. -/
theorem length_mergedSubProfiles (old new : List UInt32) :
    (mergedSubProfiles old new).length = max old.length new.length := by
  rw [mergedSubProfiles, List.length_append, List.length_drop]
  omega

/-- What a merge adds to the summary. -/
theorem Summarizes.withMerge {aggregate : ProfileAggregate} {ptls : List ProfileTierLevel}
    (h : aggregate.Summarizes ptls) {own : ProfileMerge} (hcovered : own.IsCovered) :
    (aggregate.withMerge own).Summarizes (ptls ++ [own.ptl]) where
  merged_eq := by
    rw [List.length_append, ← h.merged_eq]
    rfl
  profile_eq := by
    rw [greatest_concat, ← h.profile_eq]
    rfl
  tier_eq := by
    rw [highestTier_concat, ← h.tier_eq]
    rfl
  frameOnly_eq := by
    rw [allSet_concat, ← h.merged_eq, ← h.frameOnly_eq]
    rfl
  multilayer_eq := by
    rw [allSet_concat, ← h.merged_eq, ← h.multilayer_eq]
    rfl
  present_eq i := by
    have hused : (decide (i.val + 1 < own.sublayers) && own.ptl.sublayerLevelPresent.getD i false) =
        own.ptl.sublayerLevelPresent.getD i false := by
      cases hpresent : own.ptl.sublayerLevelPresent.getD i false with
      | false => exact Bool.and_false _
      | true => rw [decide_eq_true (hcovered.lt_sublayers hpresent), Bool.and_true]
    rw [present_withMerge, hused, h.present_eq, List.any_append, List.any_cons, List.any_nil,
      Bool.or_false]
  subProfiles_length := by
    rw [greatest_concat, ← h.subProfiles_length]
    exact length_mergedSubProfiles _ _

/-- What a run of merges adds to the summary. -/
theorem Summarizes.withMerges {aggregate : ProfileAggregate} {ptls : List ProfileTierLevel}
    (h : aggregate.Summarizes ptls) {merges : List ProfileMerge}
    (hcovered : ∀ own ∈ merges, own.IsCovered) :
    (aggregate.withMerges merges).Summarizes (ptls ++ merges.map (·.ptl)) := by
  have hstart : aggregate.Summarizes (ptls ++ [].map ProfileMerge.ptl) := by
    rwa [List.map_nil, List.append_nil]
  refine withMerges_induction (motive := fun done aggregate =>
    aggregate.Summarizes (ptls ++ done.map (·.ptl))) merges hstart fun done own hown _ hdone => ?_
  rw [List.map_append, ← List.append_assoc]
  exact hdone.withMerge (hcovered own hown)

/-- What the structures of one parameter set add to the summary: they are merged for the same
number of sublayers. -/
theorem Summarizes.withMerges_map {aggregate : ProfileAggregate}
    {done ptls : List ProfileTierLevel} (h : aggregate.Summarizes done) {sublayers : Nat}
    (hcovered : ∀ ptl ∈ ptls, ptl.sublayerLevelPresent.length < sublayers) :
    (aggregate.withMerges (ptls.map (⟨·, sublayers⟩))).Summarizes (done ++ ptls) := by
  have hmerges : ∀ own ∈ ptls.map (ProfileMerge.mk · sublayers), own.IsCovered := by
    intro own hown
    obtain ⟨ptl, hptl, rfl⟩ := List.mem_map.1 hown
    exact hcovered ptl hptl
  have hptls : (ptls.map (ProfileMerge.mk · sublayers)).map (·.ptl) = ptls := by
    rw [List.map_map]
    exact List.map_id ptls
  have hrun := h.withMerges hmerges
  rwa [hptls] at hrun

/-- Aggregates of the same structures in different orders agree. -/
theorem Summarizes.agreesWith {aggregate other : ProfileAggregate}
    {ptls permuted : List ProfileTierLevel} (h : aggregate.Summarizes permuted)
    (hother : other.Summarizes ptls) (hperm : permuted.Perm ptls) :
    aggregate.record.AgreesWith other.record where
  profile_eq := by rw [h.profile_eq, hother.profile_eq, greatest_perm _ hperm]
  tier_eq := by rw [h.tier_eq, hother.tier_eq, highestTier_perm hperm]
  frameOnly_eq := by rw [h.frameOnly_eq, hother.frameOnly_eq, allSet_perm _ hperm]
  multilayer_eq := by rw [h.multilayer_eq, hother.multilayer_eq, allSet_perm _ hperm]
  present_eq := by
    refine Vector.ext fun i hi => ?_
    have hentry := (h.present_eq ⟨i, hi⟩).trans
      (hperm.any_eq.trans (hother.present_eq ⟨i, hi⟩).symm)
    rwa [vector_get_eq, vector_get_eq] at hentry
  subProfiles_length := by
    rw [h.subProfiles_length, hother.subProfiles_length, greatest_perm _ hperm]

end ProfileAggregate

end H266
