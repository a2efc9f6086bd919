import H266.Proofs.Building

/-!
# Collected NAL Units

The arrays of a record under construction hold the NAL units that were added and nothing else:
there is one array for each type, the types in the order in which they first appeared, and the
NAL units of a type are in the order in which they were added.

## Main results

* `RecordBuilder.arrays_withNalUnit`: what one more NAL unit does to the arrays.
* `RecordBuilder.arrays_withNalUnits`: the arrays after any number of NAL units.
-/

namespace H266

namespace RecordBuilder

/-! ### Types without repetition -/

/-- No entry is left twice. -/
theorem nodup_eraseDups {α : Type} [BEq α] [LawfulBEq α] : ∀ list : List α, list.eraseDups.Nodup
  | [] => List.nodup_nil
  | first :: list => by
    rw [List.eraseDups_cons, List.nodup_cons]
    exact ⟨by simp [List.mem_eraseDups], nodup_eraseDups _⟩
termination_by list => list.length
decreasing_by exact Nat.lt_succ_of_le (List.length_filter_le _ _)

/-- One more entry is left at the end if it is new. -/
theorem eraseDups_concat {α : Type} [BEq α] [LawfulBEq α] (list : List α) (last : α) :
    (list ++ [last]).eraseDups =
      if last ∈ list then list.eraseDups else list.eraseDups ++ [last] := by
  rw [List.eraseDups_append, List.removeAll, List.filter_cons]
  by_cases hmem : last ∈ list
  · simp [hmem]
  · simp [hmem, List.eraseDups_cons]

/-! ### One more NAL unit -/

/-- An array with one more NAL unit at the front, if it is of the given type. -/
def pushed (type : NalUnitType) (nalUnit : Bytes) (array : NalUnitArray) : NalUnitArray :=
  if array.type = type then { array with nalUnits := nalUnit :: array.nalUnits } else array

/-- An array with one more NAL unit at the end, if it is of the given type. -/
def appended (type : NalUnitType) (nalUnit : Bytes) (array : NalUnitArray) : NalUnitArray :=
  if array.type = type then { array with nalUnits := array.nalUnits ++ [nalUnit] } else array

/-- Arrays of other types are left as they are. -/
theorem map_pushed_of_not_mem {type : NalUnitType} {nalUnit : Bytes}
    {arrays : List NalUnitArray} (h : type ∉ arrays.map (·.type)) :
    arrays.map (pushed type nalUnit) = arrays := by
  have hother : ∀ array ∈ arrays, pushed type nalUnit array = id array := fun array hmem =>
    if_neg fun htype => h (List.mem_map.2 ⟨array, hmem, htype⟩)
  rw [List.map_congr_left hother, List.map_id]

/-- If no two arrays have the same type, a NAL unit goes to the one array of its type, or to a
new one at the end. -/
theorem insertNalUnit_eq (complete : Bool) (type : NalUnitType) (nalUnit : Bytes)
    {arrays : List NalUnitArray} (h : (arrays.map (·.type)).Nodup) :
    insertNalUnit complete type nalUnit arrays =
      if type ∈ arrays.map (·.type) then arrays.map (pushed type nalUnit)
      else arrays ++ [⟨complete, type, [nalUnit]⟩] := by
  induction arrays with
  | nil => rfl
  | cons array arrays ih =>
    rw [List.map_cons, List.nodup_cons] at h
    obtain ⟨hfirst, hrest⟩ := h
    by_cases htype : array.type = type
    · rw [insertNalUnit, if_pos htype, List.map_cons, if_pos (by rw [htype]; exact .head _),
        List.map_cons, map_pushed_of_not_mem (htype ▸ hfirst), pushed, if_pos htype]
    · have hmem : type ∈ (array :: arrays).map (·.type) ↔ type ∈ arrays.map (·.type) := by
        rw [List.map_cons, List.mem_cons, or_iff_right (Ne.symm htype)]
      rw [insertNalUnit, if_neg htype, ih hrest]
      simp only [hmem]
      split
      · rw [List.map_cons, pushed, if_neg htype]
      · rfl

/-- The arrays have the types of those under construction. -/
theorem types_arrays (builder : RecordBuilder) :
    builder.arrays.map (·.type) = builder.latestFirst.map (·.type) := by
  rw [arrays, List.map_map]
  rfl

/-- Whether arrays are complete does not depend on the NAL units. -/
theorem completeArrays_withNalUnit (builder : RecordBuilder) (accepted : AcceptedNalUnit) :
    (builder.withNalUnit accepted).completeArrays = builder.completeArrays := by
  rw [withNalUnit]
  cases accepted.content <;> rfl

/-- One more NAL unit comes last in the one array of its type, or in a new one at the end. -/
theorem arrays_withNalUnit {builder : RecordBuilder} (accepted : AcceptedNalUnit)
    (h : (builder.arrays.map (·.type)).Nodup) :
    (builder.withNalUnit accepted).arrays =
      if accepted.type ∈ builder.arrays.map (·.type) then
        builder.arrays.map (appended accepted.type accepted.data)
      else
        builder.arrays ++ [⟨accepted.type.isParameterSet && builder.completeArrays, accepted.type,
          [accepted.data]⟩] := by
  rw [types_arrays] at h ⊢
  have hreverse (array : NalUnitArray) :
      { pushed accepted.type accepted.data array with
        nalUnits := (pushed accepted.type accepted.data array).nalUnits.reverse } =
      appended accepted.type accepted.data { array with nalUnits := array.nalUnits.reverse } := by
    by_cases htype : array.type = accepted.type <;> simp [pushed, appended, htype]
  rw [arrays, withNalUnit, insertNalUnit_eq _ _ _ h]
  split
  · rw [List.map_map, arrays, List.map_map]
    exact List.map_congr_left fun array _ => hreverse array
  · rw [List.map_append]
    rfl

/-! ### All NAL units -/

/-- The NAL units grouped by type. -/
def grouped (completeArrays : Bool) (accepted : List AcceptedNalUnit) : List NalUnitArray :=
  (accepted.map (·.type)).eraseDups.map fun type =>
    ⟨type.isParameterSet && completeArrays, type,
      (accepted.filter (·.type = type)).map (·.data)⟩

/-- The types of the arrays are those that occur. -/
theorem types_grouped (completeArrays : Bool) (accepted : List AcceptedNalUnit) :
    (grouped completeArrays accepted).map (·.type) = (accepted.map (·.type)).eraseDups := by
  rw [grouped, List.map_map]
  exact List.map_id _

/-- Grouping one more NAL unit. -/
theorem grouped_concat (completeArrays : Bool) (accepted : List AcceptedNalUnit)
    (last : AcceptedNalUnit) :
    grouped completeArrays (accepted ++ [last]) =
      if last.type ∈ (grouped completeArrays accepted).map (·.type) then
        (grouped completeArrays accepted).map (appended last.type last.data)
      else
        grouped completeArrays accepted ++
          [⟨last.type.isParameterSet && completeArrays, last.type, [last.data]⟩] := by
  simp only [types_grouped, List.mem_eraseDups]
  rw [grouped, List.map_append, List.map_singleton, eraseDups_concat]
  by_cases hmem : last.type ∈ accepted.map (·.type)
  · rw [if_pos hmem, if_pos hmem, grouped, List.map_map]
    refine List.map_congr_left fun type _ => ?_
    by_cases htype : type = last.type
    · simp [appended, htype]
    · simp [appended, htype, Ne.symm htype]
  · rw [if_neg hmem, if_neg hmem, List.map_append, grouped]
    congr 1
    · refine List.map_congr_left fun type htype => ?_
      have hne : last.type ≠ type := by
        rintro rfl
        exact hmem (List.mem_eraseDups.1 htype)
      simp [hne]
    · have hnone : accepted.filter (·.type = last.type) = [] := by
        rw [List.filter_eq_nil_iff]
        intro entry hentry htype
        exact hmem (List.mem_map.2 ⟨entry, hentry, of_decide_eq_true htype⟩)
      simp [hnone]

/-- After any number of NAL units the arrays are these NAL units grouped by type. -/
theorem arrays_withNalUnits (builder : RecordBuilder) (done accepted : List AcceptedNalUnit)
    (h : builder.arrays = grouped builder.completeArrays done) :
    (builder.withNalUnits accepted).arrays =
      grouped builder.completeArrays (done ++ accepted) := by
  induction accepted generalizing builder done with
  | nil => rw [List.append_nil, ← h, withNalUnits, List.foldl_nil]
  | cons first accepted ih =>
    have hnodup : (builder.arrays.map (·.type)).Nodup := by
      rw [h, types_grouped]
      exact nodup_eraseDups _
    have hstep : (builder.withNalUnit first).arrays =
        grouped (builder.withNalUnit first).completeArrays (done ++ [first]) := by
      rw [completeArrays_withNalUnit, grouped_concat, arrays_withNalUnit first hnodup, h]
    have hrun := ih (builder.withNalUnit first) (done ++ [first]) hstep
    rwa [completeArrays_withNalUnit, List.append_assoc, List.singleton_append] at hrun

/-- The arrays of a builder to which only the given NAL units were added. -/
theorem arrays_withNalUnits_empty (options : ConversionOptions)
    (accepted : List AcceptedNalUnit) :
    ((empty options).withNalUnits accepted).arrays = grouped options.completeArrays accepted :=
  arrays_withNalUnits (empty options) [] accepted rfl

end RecordBuilder

end H266
