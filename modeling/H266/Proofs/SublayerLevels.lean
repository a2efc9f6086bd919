import H266.Proofs.Merging
import H266.Proofs.ProfileRecord

/-!
# Levels of Sublayers

What merging a profile, tier and level structure does to the table of sublayer levels, entry by
entry. An entry in use whose level is stated keeps the greatest level stated for it; any other
entry in use has the level of the next higher sublayer, and the highest sublayer has the general
level. Entries that are not in use are left alone.

## Main results

* `ProfileAggregate.present_withMerge`, `ProfileAggregate.levels_withMerge`: the entries of the
  table after a merge.
* `ProfileAggregate.hasCompleteLevels_withMerge`: a merge completes the table for the number of
  sublayers that it is told of.
* `ProfileRecord.HasCompleteLevels.le_levelOf`: lower bounds on the entries of a complete table,
  from the highest sublayer down.
-/

namespace H266

/-! ### Tables -/

namespace ProfileRecord

/-- The level of a sublayer of a stream with the given number of sublayers: that of its entry
if there is one in use, and the general level otherwise. -/
def levelOf (record : ProfileRecord) (sublayers i : Nat) : UInt8 :=
  (record.sublayerLevels.toList.take (usedEntries sublayers)).getD i record.level

/-- A table that is complete for the given number of sublayers: where no level is stated it
has the level of the next higher sublayer. -/
def HasCompleteLevels (record : ProfileRecord) (sublayers : Nat) : Prop :=
  ∀ i : Fin sublayerEntries, i.val + 1 < sublayers → record.sublayerLevelPresent.get i = false →
    record.sublayerLevels.get i = record.levelOf sublayers (i + 1)

instance (record : ProfileRecord) (sublayers : Nat) :
    Decidable (record.HasCompleteLevels sublayers) :=
  inferInstanceAs (Decidable (∀ _ : Fin sublayerEntries, _))

/-- Below the highest sublayer the level is that of the entry. -/
theorem levelOf_of_lt (record : ProfileRecord) {sublayers : Nat} (i : Fin sublayerEntries)
    (h : i.val + 1 < sublayers) : record.levelOf sublayers i = record.sublayerLevels.get i := by
  have hused := (lt_usedEntries_iff i).2 h
  rw [levelOf, List.getD_eq_getElem?_getD, List.getElem?_take, if_pos hused]
  simp [vector_get_eq]

/-- From the highest sublayer on it is the level of the structure. -/
theorem levelOf_of_le (record : ProfileRecord) {sublayers i : Nat}
    (h : usedEntries sublayers ≤ i) : record.levelOf sublayers i = record.level := by
  rw [levelOf, List.getD_eq_getElem?_getD, List.getElem?_take, if_neg (Nat.not_lt.2 h),
    Option.getD_none]

/-- In a complete table a lower bound goes down from an entry, or from the general level, if it
is one for the levels that are stated on the way. -/
theorem HasCompleteLevels.le_levelOf {record : ProfileRecord} {sublayers : Nat}
    (h : record.HasCompleteLevels sublayers) {level : UInt8} {low count : Nat}
    (htop : level ≤ record.levelOf sublayers (low + count))
    (hstated : ∀ k : Fin sublayerEntries, low ≤ k.val → k.val < low + count →
      record.sublayerLevelPresent.get k = true → level ≤ record.sublayerLevels.get k) :
    level ≤ record.levelOf sublayers low := by
  induction count generalizing low with
  | zero => exact htop
  | succ count ih =>
    have habove := @ih (low + 1) (by rwa [Nat.add_assoc, Nat.add_comm 1])
      fun k hk hlt => hstated k (by omega) (by omega)
    by_cases hused : low < usedEntries sublayers
    · obtain ⟨entry, rfl, hmany⟩ := exists_entry_of_lt hused
      rw [levelOf_of_lt _ entry hmany]
      cases hpresent : record.sublayerLevelPresent.get entry with
      | true => exact hstated entry (Nat.le_refl _) (by omega) hpresent
      | false =>
        rw [h entry hmany hpresent]
        exact habove
    · rw [levelOf_of_le _ (by omega)] at habove ⊢
      exact habove

end ProfileRecord

namespace ProfileAggregate

/-! ### Inheriting -/

/-- Inheriting goes on with one more entry, below the others. -/
theorem inheritLevels_concat (above : UInt8) (entries : List (Bool × UInt8))
    (last : Bool × UInt8) :
    inheritLevels above (entries ++ [last]) = inheritLevels above entries ++
      [if last.1 then last.2 else (inheritLevels above entries).reverse.headD above] := by
  induction entries generalizing above with
  | nil => rfl
  | cons entry entries ih =>
    obtain ⟨present, own⟩ := entry
    rw [List.cons_append, inheritLevels, ih, inheritLevels, List.cons_append, List.reverse_cons]
    cases (inheritLevels (if present then own else above) entries).reverse <;> rfl

/-- Every entry inherits or states a level. -/
theorem length_inheritLevels (above : UInt8) (entries : List (Bool × UInt8)) :
    (inheritLevels above entries).length = entries.length := by
  induction entries generalizing above with
  | nil => rfl
  | cons entry entries ih => rw [inheritLevels, List.length_cons, ih, List.length_cons]

/-- The levels of entries, the lowest sublayer first. -/
def inheritedLevels (above : UInt8) (entries : List (Bool × UInt8)) : List UInt8 :=
  (inheritLevels above entries.reverse).reverse

/-- Seen from below, an entry takes the level of the entry after it, unless it states one. -/
theorem inheritedLevels_cons (above : UInt8) (entry : Bool × UInt8)
    (entries : List (Bool × UInt8)) :
    inheritedLevels above (entry :: entries) =
      (if entry.1 then entry.2 else (inheritedLevels above entries).headD above) ::
        inheritedLevels above entries := by
  rw [inheritedLevels, List.reverse_cons, inheritLevels_concat, List.reverse_concat,
    inheritedLevels]

/-- Every entry has a level. -/
theorem length_inheritedLevels (above : UInt8) (entries : List (Bool × UInt8)) :
    (inheritedLevels above entries).length = entries.length := by
  rw [inheritedLevels, List.length_reverse, length_inheritLevels, List.length_reverse]

/-- An entry that is not present has the level of the next one, and the last has the level
above all. -/
theorem getElem?_inheritedLevels (above : UInt8) (entries : List (Bool × UInt8)) (i : Nat) :
    (inheritedLevels above entries)[i]? = entries[i]?.map fun entry =>
      if entry.1 then entry.2 else (inheritedLevels above entries).getD (i + 1) above := by
  induction entries generalizing i with
  | nil => rfl
  | cons entry entries ih =>
    rw [inheritedLevels_cons]
    cases i with
    | zero =>
      cases inheritedLevels above entries <;> rfl
    | succ i => exact ih i

/-! ### Overwriting -/

/-- Entries that are not overwritten stay. -/
theorem get_overwrite {α : Type} {n : Nat} (table : Vector α n) (entries : List α)
    (i : Fin n) : (overwrite table entries).get i = entries[i.val]?.getD (table.get i) :=
  Vector.getElem_ofFn i.isLt

/-- The first entries of an overwritten table are the ones that were written. -/
theorem take_toList_overwrite {α : Type} {n : Nat} (table : Vector α n) {entries : List α}
    (h : entries.length ≤ n) :
    (overwrite table entries).toList.take entries.length = entries := by
  have hlength :
      ((overwrite table entries).toList.take entries.length).length = entries.length := by
    rw [List.length_take, Vector.length_toList, Nat.min_eq_left h]
  refine List.ext_getElem hlength fun i _ hentries => ?_
  have := get_overwrite table entries ⟨i, Nat.lt_of_lt_of_le hentries h⟩
  rw [List.getElem?_eq_getElem hentries] at this
  simpa [vector_get_eq] using this

/-! ### Merging -/

section Merging

variable (aggregate : ProfileAggregate) (own : ProfileMerge)

/-- An entry in use is stated if it was before or is now, and takes the higher level. -/
theorem getElem?_usedEntryLevels (record : ProfileRecord) (i : Fin sublayerEntries) :
    (usedEntryLevels record own.ptl (usedEntries own.sublayers))[i.val]? =
      if i.val + 1 < own.sublayers then
        some (record.sublayerLevelPresent.get i || own.ptl.sublayerLevelPresent.getD i false,
          max (record.sublayerLevels.get i) (own.ptl.sublayerLevels.getD i 0))
      else none := by
  rw [usedEntryLevels, List.getElem?_mapIdx, List.getElem?_take]
  simp only [lt_usedEntries_iff]
  split <;> simp [vector_get_eq]

/-- There are as many as the structure has entries in use. -/
theorem length_usedEntryLevels (record : ProfileRecord) :
    (usedEntryLevels record own.ptl (usedEntries own.sublayers)).length =
      usedEntries own.sublayers := by
  simp [usedEntryLevels, usedEntries]

/-- A sublayer has a stated level after a merge if it had one or the structure states one. -/
theorem present_withMerge (i : Fin sublayerEntries) :
    (aggregate.withMerge own).record.sublayerLevelPresent.get i =
      (aggregate.record.sublayerLevelPresent.get i ||
        decide (i.val + 1 < own.sublayers) && own.ptl.sublayerLevelPresent.getD i false) := by
  show (overwrite _ _).get i = _
  rw [get_overwrite, List.getElem?_map, getElem?_usedEntryLevels]
  by_cases hused : i.val + 1 < own.sublayers <;> simp [hused]

/-- The level of a sublayer after a merge. -/
theorem levels_withMerge (i : Fin sublayerEntries) :
    (aggregate.withMerge own).record.sublayerLevels.get i =
      if i.val + 1 < own.sublayers then
        if (aggregate.withMerge own).record.sublayerLevelPresent.get i then
          max (aggregate.record.sublayerLevels.get i) (own.ptl.sublayerLevels.getD i 0)
        else (aggregate.withMerge own).record.levelOf own.sublayers (i + 1)
      else aggregate.record.sublayerLevels.get i := by
  have hpresent := present_withMerge aggregate own i
  have hlength : (inheritedLevels (mergedLevel aggregate.record own.ptl)
      (usedEntryLevels aggregate.record own.ptl (usedEntries own.sublayers))).length =
        usedEntries own.sublayers := by
    rw [length_inheritedLevels, length_usedEntryLevels]
  have htable := take_toList_overwrite aggregate.record.sublayerLevels
    (Nat.le_trans (Nat.le_of_eq hlength) (usedEntries_le _))
  rw [hlength] at htable
  have habove : (aggregate.withMerge own).record.levelOf own.sublayers (i + 1) =
      (inheritedLevels (mergedLevel aggregate.record own.ptl)
        (usedEntryLevels aggregate.record own.ptl (usedEntries own.sublayers))).getD (i + 1)
          (mergedLevel aggregate.record own.ptl) :=
    congrArg (fun levels => levels.getD (i.val + 1) (mergedLevel aggregate.record own.ptl)) htable
  rw [habove, hpresent]
  show (overwrite _ (inheritedLevels _ _)).get i = _
  rw [get_overwrite, getElem?_inheritedLevels, getElem?_usedEntryLevels]
  by_cases hused : i.val + 1 < own.sublayers <;> simp [hused]

/-- A level that is stated after a merge is the greatest stated so far. -/
theorem levels_withMerge_of_present {i : Fin sublayerEntries} (hused : i.val + 1 < own.sublayers)
    (hpresent : (aggregate.withMerge own).record.sublayerLevelPresent.get i = true) :
    (aggregate.withMerge own).record.sublayerLevels.get i =
      max (aggregate.record.sublayerLevels.get i) (own.ptl.sublayerLevels.getD i 0) := by
  rw [levels_withMerge, if_pos hused, if_pos hpresent]

/-- A merge completes the table for the number of sublayers that it is told of. -/
theorem hasCompleteLevels_withMerge :
    (aggregate.withMerge own).record.HasCompleteLevels own.sublayers := by
  intro i hused habsent
  rw [levels_withMerge, if_pos hused, if_neg (by simp [habsent])]

end Merging

end ProfileAggregate

end H266
