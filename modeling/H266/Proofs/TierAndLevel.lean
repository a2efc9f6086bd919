import H266.Proofs.Merging
import Mathlib.Data.List.TakeWhile

/-!
# Tier and Level of Merged Structures

A run of merges never fails, and what it does to tier and level can be read off the structures.
The tier is the greatest one, in whichever order the structures come. The level is the greatest
of those from the first structure of that tier on: a structure of a lower tier that comes before
it no longer counts, one that comes after it still does. So tier and level are the
lexicographically greatest pair unless such a later structure has the highest level of all.

## Main results

* `ProfileAggregate.HasTierLevelOf.withMerge`: what a merge does to tier and level.
* `ProfileAggregate.exists_mergeEach_tier_level`: tier and level after a run.
-/

namespace H266

/-! ### Greatest tiers and levels -/

/-- The greatest level of some structures. -/
structure IsGreatestLevel (ptls : List ProfileTierLevel) (level : UInt8) : Prop where
  attained : ∃ ptl ∈ ptls, ptl.level = level
  le : ∀ ptl ∈ ptls, ptl.level ≤ level

/-- The tier and level of some structures that are lexicographically greatest: the structures of
the other tier are of the lower one, and those of the same tier have no higher level. -/
structure IsGreatestTierLevel (ptls : List ProfileTierLevel) (tier : Bool) (level : UInt8) :
    Prop where
  attained : ∃ ptl ∈ ptls, ptl.tier = tier ∧ ptl.level = level
  le : ∀ ptl ∈ ptls, ptl.tier = false ∧ tier = true ∨ ptl.tier = tier ∧ ptl.level ≤ level

instance (ptls : List ProfileTierLevel) (level : UInt8) :
    Decidable (IsGreatestLevel ptls level) :=
  decidable_of_iff
    ((∃ ptl ∈ ptls, ptl.level = level) ∧ ∀ ptl ∈ ptls, ptl.level ≤ level)
    ⟨fun h => ⟨h.1, h.2⟩, fun h => ⟨h.1, h.2⟩⟩

instance (ptls : List ProfileTierLevel) (tier : Bool) (level : UInt8) :
    Decidable (IsGreatestTierLevel ptls tier level) :=
  decidable_of_iff
    ((∃ ptl ∈ ptls, ptl.tier = tier ∧ ptl.level = level) ∧
      ∀ ptl ∈ ptls, ptl.tier = false ∧ tier = true ∨ ptl.tier = tier ∧ ptl.level ≤ level)
    ⟨fun h => ⟨h.1, h.2⟩, fun h => ⟨h.1, h.2⟩⟩

namespace ProfileTierLevel

/-- The greatest tier of some structures. -/
def highestTier (ptls : List ProfileTierLevel) : Bool :=
  ptls.any (·.tier)

/-- The structures from the first of the greatest tier on. -/
def fromHighestTier (ptls : List ProfileTierLevel) : List ProfileTierLevel :=
  ptls.dropWhile (·.tier != highestTier ptls)

/-- One more structure at the end. -/
theorem highestTier_concat (ptls : List ProfileTierLevel) (last : ProfileTierLevel) :
    highestTier (ptls ++ [last]) = (highestTier ptls || last.tier) := by
  rw [highestTier, List.any_append, List.any_cons, List.any_nil, Bool.or_false]
  rfl

/-- Without a high tier no structure has one. -/
theorem tier_of_highestTier_eq_false {ptls : List ProfileTierLevel}
    (h : highestTier ptls = false) {ptl : ProfileTierLevel} (hmem : ptl ∈ ptls) :
    ptl.tier = false :=
  Bool.eq_false_iff.2 fun htier => Bool.false_ne_true (h ▸ List.any_eq_true.2 ⟨ptl, hmem, htier⟩)

/-- Without a high tier all structures count. -/
theorem fromHighestTier_of_eq_false {ptls : List ProfileTierLevel}
    (h : highestTier ptls = false) : fromHighestTier ptls = ptls := by
  rw [fromHighestTier, h]
  cases ptls with
  | nil => rfl
  | cons ptl ptls =>
    have htier := tier_of_highestTier_eq_false h (.head ptls)
    rw [List.dropWhile_cons_of_neg (by simp [htier])]

/-- The first structure of a higher tier supersedes those before it; any other comes last. -/
theorem fromHighestTier_concat (ptls : List ProfileTierLevel) (last : ProfileTierLevel) :
    fromHighestTier (ptls ++ [last]) =
      if !highestTier ptls && last.tier then [last] else fromHighestTier ptls ++ [last] := by
  cases hhighest : highestTier ptls with
  | false =>
    cases hlast : last.tier with
    | false =>
      have hall : highestTier (ptls ++ [last]) = false := by
        rw [highestTier_concat, hhighest, hlast]
        rfl
      rw [fromHighestTier_of_eq_false hall, fromHighestTier_of_eq_false hhighest]
      rfl
    | true =>
      have hdropped : ptls.dropWhile (·.tier != true) = [] :=
        List.dropWhile_eq_nil_iff.2 fun ptl hmem => by
          simp [tier_of_highestTier_eq_false hhighest hmem]
      rw [fromHighestTier, highestTier_concat, hhighest, hlast, Bool.false_or,
        List.dropWhile_append, hdropped]
      simp [hlast]
  | true =>
    obtain ⟨ptl, hmem, htier⟩ := List.any_eq_true.1 hhighest
    have hkept : ptls.dropWhile (·.tier != true) ≠ [] := fun hnil => by
      have := List.dropWhile_eq_nil_iff.1 hnil ptl hmem
      simp [htier] at this
    rw [fromHighestTier, fromHighestTier, highestTier_concat, hhighest, Bool.true_or,
      List.dropWhile_append, if_neg (by simpa only [List.isEmpty_iff] using hkept)]
    rfl

/-- A structure of the greatest tier counts, wherever it stands. -/
theorem mem_fromHighestTier {ptls : List ProfileTierLevel} {ptl : ProfileTierLevel}
    (hmem : ptl ∈ ptls) (htier : ptl.tier = highestTier ptls) : ptl ∈ fromHighestTier ptls := by
  rw [← List.takeWhile_append_dropWhile (p := (·.tier != highestTier ptls)) (l := ptls)] at hmem
  rcases List.mem_append.1 hmem with hbefore | hfrom
  · have := List.mem_takeWhile_imp hbefore
    simp [htier] at this
  · exact hfrom

/-- A structure is of the greatest tier, or of the lower of two. -/
theorem tier_eq_highestTier_or {ptls : List ProfileTierLevel} {ptl : ProfileTierLevel}
    (hmem : ptl ∈ ptls) :
    ptl.tier = highestTier ptls ∨ ptl.tier = false ∧ highestTier ptls = true := by
  cases htier : ptl.tier with
  | false =>
    cases highestTier ptls with
    | false => exact .inl rfl
    | true => exact .inr ⟨rfl, rfl⟩
  | true => exact .inl (List.any_eq_true.2 ⟨ptl, hmem, htier⟩).symm

/-- The highest tier does not depend on the order. -/
theorem highestTier_perm {ptls permuted : List ProfileTierLevel} (h : permuted.Perm ptls) :
    highestTier permuted = highestTier ptls :=
  h.any_eq

/-- When the greatest level of the structures that count makes a lexicographically greatest
pair: no structure of the lower tier among them may exceed all those of the higher tier. -/
theorem isGreatestTierLevel_iff {ptls : List ProfileTierLevel} {level : UInt8}
    (h : IsGreatestLevel (fromHighestTier ptls) level) :
    IsGreatestTierLevel ptls (highestTier ptls) level ↔
      ∀ ptl ∈ fromHighestTier ptls, ptl.tier = false → highestTier ptls = true →
        ∃ other ∈ ptls, other.tier = true ∧ ptl.level ≤ other.level := by
  constructor
  · intro hpair ptl hmem _ hhighest
    obtain ⟨other, hother, htier, hlevel⟩ := hpair.attained
    exact ⟨other, hother, htier.trans hhighest, hlevel ▸ h.le ptl hmem⟩
  · intro hexceeded
    constructor
    · obtain ⟨ptl, hmem, hlevel⟩ := h.attained
      have hptl := (List.dropWhile_sublist _).subset hmem
      rcases tier_eq_highestTier_or hptl with htier | ⟨hlow, hhigh⟩
      · exact ⟨ptl, hptl, htier, hlevel⟩
      · obtain ⟨other, hother, htrue, hle⟩ := hexceeded ptl hmem hlow hhigh
        have htier := htrue.trans hhigh.symm
        exact ⟨other, hother, htier,
          UInt8.le_antisymm (h.le other (mem_fromHighestTier hother htier)) (hlevel ▸ hle)⟩
    · intro ptl hmem
      rcases tier_eq_highestTier_or hmem with htier | hlower
      · exact .inr ⟨htier, h.le ptl (mem_fromHighestTier hmem htier)⟩
      · exact .inl hlower

end ProfileTierLevel

/-! ### Tier and level of a run -/

namespace ProfileAggregate

open ProfileTierLevel

/-- Tier and level of an aggregate of the given structures. -/
structure HasTierLevelOf (aggregate : ProfileAggregate) (ptls : List ProfileTierLevel) :
    Prop where
  tier_eq : aggregate.record.tier = highestTier ptls
  level_eq : ptls = [] → aggregate.record.level = 0
  greatest : ptls ≠ [] → IsGreatestLevel (fromHighestTier ptls) aggregate.record.level

/-- One more structure after those that count raises the level to its own if that is higher. -/
theorem isGreatestLevel_concat {ptls : List ProfileTierLevel} {level : UInt8}
    (h : IsGreatestLevel ptls level) (last : ProfileTierLevel) :
    IsGreatestLevel (ptls ++ [last]) (max level last.level) := by
  obtain ⟨ptl, hmem, hlevel⟩ := h.attained
  constructor
  · rcases Std.max_eq_or (a := level) (b := last.level) with hmax | hmax
    · exact ⟨ptl, List.mem_append_left _ hmem, hlevel.trans hmax.symm⟩
    · exact ⟨last, List.mem_append_right _ (.head []), hmax.symm⟩
  · intro other hother
    rcases List.mem_append.1 hother with hold | hnew
    · exact Std.le_trans (h.le other hold) Std.left_le_max
    · rw [List.mem_singleton.1 hnew]
      exact Std.right_le_max

/-- What a merge does to tier and level. -/
theorem HasTierLevelOf.withMerge {aggregate : ProfileAggregate} {ptls : List ProfileTierLevel}
    (h : aggregate.HasTierLevelOf ptls) (own : ProfileMerge) :
    (aggregate.withMerge own).HasTierLevelOf (ptls ++ [own.ptl]) := by
  have htier : (aggregate.withMerge own).record.tier = (aggregate.record.tier || own.ptl.tier) :=
    rfl
  have hlevel : (aggregate.withMerge own).record.level = mergedLevel aggregate.record own.ptl :=
    rfl
  refine ⟨?_, fun hnil => ?_, fun _ => ?_⟩
  · rw [htier, h.tier_eq, highestTier_concat]
  · simp at hnil
  · rw [hlevel, mergedLevel, h.tier_eq, fromHighestTier_concat]
    split
    · exact ⟨⟨own.ptl, .head [], rfl⟩, fun ptl hmem => by
        rw [List.mem_singleton.1 hmem]
        exact UInt8.le_refl _⟩
    · by_cases hnil : ptls = []
      · subst hnil
        have hmax : max aggregate.record.level own.ptl.level = own.ptl.level := by
          rw [h.level_eq rfl]
          exact if_pos UInt8.zero_le
        rw [hmax]
        exact ⟨⟨own.ptl, .head [], rfl⟩, fun ptl hmem => by
          rw [List.mem_singleton.1 hmem]
          exact UInt8.le_refl _⟩
      · exact isGreatestLevel_concat (h.greatest hnil) own.ptl

/-- Tier and level after any merges. -/
theorem hasTierLevelOf_withMerges (merges : List ProfileMerge) :
    (empty.withMerges merges).HasTierLevelOf (merges.map (·.ptl)) := by
  have hstart : empty.HasTierLevelOf [] := ⟨rfl, fun _ => rfl, fun h => absurd rfl h⟩
  refine withMerges_induction (motive := fun done aggregate =>
    aggregate.HasTierLevelOf (done.map (·.ptl))) merges hstart fun done own _ aggregate h => ?_
  rw [List.map_append]
  exact h.withMerge own

/-- **Tier and level of merged structures**: merging never fails, and gives the greatest tier,
whatever the order, and the greatest level of the structures from the first of that tier on.
Tier and level are the lexicographically greatest pair exactly if none of these structures is of
the lower tier and has a level above all those of the higher one. -/
theorem exists_mergeEach_tier_level {merges : List ProfileMerge} (h : merges ≠ []) :
    ∃ aggregate, empty.mergeEach merges = .ok aggregate ∧
      aggregate.record.tier = highestTier (merges.map (·.ptl)) ∧
      IsGreatestLevel (fromHighestTier (merges.map (·.ptl))) aggregate.record.level ∧
      (IsGreatestTierLevel (merges.map (·.ptl)) aggregate.record.tier aggregate.record.level ↔
        ∀ ptl ∈ fromHighestTier (merges.map (·.ptl)), ptl.tier = false →
          highestTier (merges.map (·.ptl)) = true →
            ∃ other ∈ merges.map (·.ptl), other.tier = true ∧ ptl.level ≤ other.level) ∧
      ∀ permuted : List ProfileMerge, permuted.Perm merges →
        ∃ other, empty.mergeEach permuted = .ok other ∧
          other.record.tier = aggregate.record.tier := by
  have hresult := hasTierLevelOf_withMerges merges
  have hgreatest := hresult.greatest (mt List.map_eq_nil_iff.1 h)
  refine ⟨_, mergeEach_eq empty merges, hresult.tier_eq, hgreatest, ?_, fun permuted hperm => ?_⟩
  · rw [hresult.tier_eq]
    exact isGreatestTierLevel_iff hgreatest
  · refine ⟨_, mergeEach_eq empty permuted, ?_⟩
    rw [(hasTierLevelOf_withMerges permuted).tier_eq, hresult.tier_eq]
    exact highestTier_perm (hperm.map _)

/-- A structure of the higher tier between two of the lower one. -/
theorem exists_mergeEach_tier_level_low_high_low :
    let ptl (tier : Bool) (level : UInt8) : ProfileTierLevel :=
      { profile := 1, tier, level, frameOnly := true, multilayer := false, constraints := none
        sublayerLevelPresent := [], sublayerLevels := [], subProfiles := [] }
    let merges : List ProfileMerge := [⟨ptl false 60, 1⟩, ⟨ptl true 30, 1⟩, ⟨ptl false 90, 1⟩]
    merges ≠ [] ∧ ∃ aggregate, empty.mergeEach merges = .ok aggregate ∧
      aggregate.record.tier = true ∧
      IsGreatestLevel [ptl true 30, ptl false 90] aggregate.record.level := by
  intro ptl merges
  have hne : merges ≠ [] := List.cons_ne_nil _ _
  obtain ⟨aggregate, hmerged, htier, hlevel, _⟩ := exists_mergeEach_tier_level hne
  exact ⟨hne, aggregate, hmerged, htier, hlevel⟩

/-- A structure of the lower tier that comes last still raises the level: the pair is then none
that was merged. -/
theorem not_isGreatestTierLevel_high_low :
    let ptl (tier : Bool) (level : UInt8) : ProfileTierLevel :=
      { profile := 1, tier, level, frameOnly := true, multilayer := false, constraints := none
        sublayerLevelPresent := [], sublayerLevels := [], subProfiles := [] }
    let merges : List ProfileMerge := [⟨ptl true 30, 1⟩, ⟨ptl false 90, 1⟩]
    IsGreatestTierLevel (merges.map (·.ptl)) true 30 ∧
      ∃ aggregate, empty.mergeEach merges = .ok aggregate ∧
        aggregate.record.tier = true ∧ aggregate.record.level = 90 ∧
        ¬IsGreatestTierLevel (merges.map (·.ptl)) aggregate.record.tier
          aggregate.record.level := by
  intro ptl merges
  exact ⟨by decide, _, mergeEach_eq empty merges, rfl, rfl, by decide⟩

end ProfileAggregate

end H266
