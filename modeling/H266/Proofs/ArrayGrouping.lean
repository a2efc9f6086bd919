import H266.Proofs.ParameterSetSeparation

/-!
# Arrays After Any Calls

What the arrays of a record under construction are after any number of NAL units were offered to
it, some of them in vain. The arrays can be told from the NAL units of the successful calls alone:
there is an array for each of their types, the array of a type stands before that of another if
the first NAL unit of the type came earlier, and an array lists all NAL units of its type in the
order in which they came.

## Main results

* `RecordBuilder.pairwise_idxOf_eraseDups`: without repetitions, entries are in the order in which
  they first occur.
* `RecordBuilder.exists_add_eq_error`: a NAL unit of a type that is not collected is refused.
* `RecordBuilder.arrays_grouped`: the arrays after any calls.
-/

namespace H266.RecordBuilder

/-! ### Order of first occurrence -/

/-- Of two entries of a list without repetitions the first occurs earlier. -/
theorem pairwise_idxOf_eraseDups {α : Type} [BEq α] [LawfulBEq α] (list : List α) :
    list.eraseDups.Pairwise fun a b => list.idxOf a < list.idxOf b := by
  induction list using List.reverseRecOn with
  | nil => exact .nil
  | append_singleton list last ih =>
    have hsame : ∀ a ∈ list.eraseDups, (list ++ [last]).idxOf a = list.idxOf a := fun a ha =>
      List.idxOf_append_of_mem (List.mem_eraseDups.1 ha)
    have hlist : list.eraseDups.Pairwise fun a b =>
        (list ++ [last]).idxOf a < (list ++ [last]).idxOf b :=
      ih.imp_of_mem fun ha hb hlt => by rwa [hsame _ ha, hsame _ hb]
    rw [eraseDups_concat]
    split
    · exact hlist
    · next hnew =>
      have hlast : (list ++ [last]).idxOf last = list.length := by
        rw [List.idxOf_append_of_notMem hnew, List.idxOf_cons_self, Nat.add_zero]
      refine List.pairwise_append.2 ⟨hlist, List.pairwise_singleton _ _, fun a ha b hb => ?_⟩
      rw [List.mem_singleton.1 hb, hlast, hsame a ha]
      exact List.idxOf_lt_length_of_mem (List.mem_eraseDups.1 ha)

/-- Where NAL units that are collected first state a type. -/
theorem idxOf_types_eq_findIdx {nalUnits : List Bytes}
    (h : ∀ nalUnit ∈ nalUnits, isCollected nalUnit = true) (type : NalUnitType) :
    ((nalUnits.filterMap NalUnitType.ofHeaderBytes?).filter (·.isCollected)).idxOf type =
      nalUnits.findIdx (statesType type) := by
  induction nalUnits with
  | nil => rfl
  | cons nalUnit nalUnits ih =>
    obtain ⟨hfirst, hrest⟩ := List.forall_mem_cons.1 h
    rw [isCollected] at hfirst
    cases hown : NalUnitType.ofHeaderBytes? nalUnit with
    | none =>
      rw [hown] at hfirst
      cases hfirst
    | some own =>
      have hcollected : own.isCollected = true := by rwa [hown] at hfirst
      have hstates : statesType type nalUnit = (own == type) := by
        rw [statesType, hown]
        by_cases heq : own = type <;> simp [heq]
      rw [List.filterMap_cons_some hown, List.filter_cons_of_pos hcollected, List.idxOf_cons,
        ih hrest, List.findIdx_cons, hstates]

/-- The NAL units that are added are of types that are collected. -/
theorem isCollected_of_mem_added {builder : RecordBuilder} {nalUnits : List Bytes}
    {nalUnit : Bytes} (h : nalUnit ∈ builder.added nalUnits) : isCollected nalUnit = true := by
  obtain ⟨-, accepted, haccept⟩ := (mem_added_iff builder).1 h
  obtain ⟨-, hcollected, htype, -⟩ := of_accept_eq_ok haccept
  rw [isCollected, htype]
  exact hcollected

/-! ### Calls that fail -/

/-- A NAL unit of a type that is not collected is refused by every builder. -/
theorem exists_add_eq_error (builder : RecordBuilder) {nalUnit : Bytes} {type : NalUnitType}
    (htype : statesType type nalUnit = true) (hother : type.isCollected = false) :
    ∃ error, add nalUnit builder = (.error error, builder) := by
  rcases haccept : accept nalUnit with error | accepted
  · rw [add_eq, haccept]
    exact ⟨error, rfl⟩
  · obtain ⟨-, hcollected, hown, -⟩ := of_accept_eq_ok haccept
    rw [statesType, decide_eq_true_eq, hown, Option.some.injEq] at htype
    rw [htype, hother] at hcollected
    cases hcollected

/-! ### Runs -/

/-- **Array grouping**: whatever NAL units were offered, the arrays hold those of the successful
calls. There is one array for each type that occurs among them, in the order in which the types
first occur; it lists all NAL units of its type, in the order of the calls, and is marked as
complete just if the type is that of a parameter set and the options ask for it. A call with a NAL
unit of any other type than the six that are collected fails. -/
theorem arrays_grouped (options : ConversionOptions) (calls : List Bytes) :
    let arrays := ((empty options).offer calls).arrays
    let added := (empty options).added calls
    (∀ type, type ∈ arrays.map (·.type) ↔ ∃ nalUnit ∈ added, statesType type nalUnit = true) ∧
    (arrays.Pairwise fun a b =>
      added.findIdx (statesType a.type) < added.findIdx (statesType b.type)) ∧
    (∀ array ∈ arrays, array.nalUnits = added.filter (statesType array.type) ∧
      (array.complete = true ↔
        array.type ∈ [.videoParameterSet, .sequenceParameterSet, .pictureParameterSet] ∧
          options.completeArrays = true)) ∧
    ∀ (builder : RecordBuilder) (nalUnit : Bytes) (type : NalUnitType),
      statesType type nalUnit = true → type ∉ NalUnitType.collectedTypes →
        ∃ error, add nalUnit builder = (.error error, builder) := by
  intro arrays added
  have harrays : arrays = collected options.completeArrays added := arrays_offer options calls
  refine ⟨fun type => ?_, ?_, fun array hmem => ?_, fun builder nalUnit type htype hother => ?_⟩
  · rw [harrays, mem_types_collected]
    constructor
    · rintro ⟨-, nalUnit, hmem, htype⟩
      exact ⟨nalUnit, hmem, decide_eq_true htype⟩
    · rintro ⟨nalUnit, hmem, hstates⟩
      have htype : NalUnitType.ofHeaderBytes? nalUnit = some type := of_decide_eq_true hstates
      have hcollected := isCollected_of_mem_added hmem
      rw [isCollected, htype] at hcollected
      exact ⟨hcollected, nalUnit, hmem, htype⟩
  · have hall : ∀ nalUnit ∈ added, isCollected nalUnit = true := fun _ => isCollected_of_mem_added
    have hpairwise := pairwise_idxOf_eraseDups
      ((added.filterMap NalUnitType.ofHeaderBytes?).filter (·.isCollected))
    simp only [idxOf_types_eq_findIdx hall] at hpairwise
    rw [← @types_collected options.completeArrays, ← harrays] at hpairwise
    rwa [List.pairwise_map] at hpairwise
  · rw [harrays] at hmem
    exact ⟨nalUnits_eq_of_mem_collected hmem, (of_mem_collected hmem).2.1⟩
  · exact exists_add_eq_error builder htype
      (Bool.eq_false_iff.2 (mt NalUnitType.mem_collectedTypes.2 hother))

/-- Two SEI messages around a parameter set, a parameter set that is cut short and comes first of
all, and an access unit delimiter: there are two arrays, that of the SEI messages first. -/
theorem arrays_grouped_interleaved :
    let cut : Bytes := [0x00, 0x79, 0x00, 0x4C, 0x00]
    let first : Bytes := [0x00, 0xB9, 0x01]
    let pps : Bytes := [0x00, 0x81]
    let delimiter : Bytes := [0x00, 0xA1, 0x28]
    let second : Bytes := [0x00, 0xB9, 0x02]
    let calls := [cut, first, pps, delimiter, second]
    let arrays := ((empty .standard).offer calls).arrays
    let added := (empty .standard).added calls
    added = [first, pps, second] ∧
      (∀ array ∈ arrays, array.type = .prefixSei → array.nalUnits = [first, second]) ∧
      (arrays.Pairwise fun a b =>
        added.findIdx (statesType a.type) < added.findIdx (statesType b.type)) ∧
      (statesType .accessUnitDelimiter delimiter = true ∧
        NalUnitType.accessUnitDelimiter ∉ NalUnitType.collectedTypes ∧
        ∃ error, add delimiter (empty .standard) = (.error error, empty .standard)) := by
  intro cut first pps delimiter second calls arrays added
  have hadded : added = [first, pps, second] := by decide +kernel
  have hsei : [first, pps, second].filter (statesType .prefixSei) = [first, second] := by decide
  have hdelimiter : statesType .accessUnitDelimiter delimiter = true := by decide
  have hother : NalUnitType.accessUnitDelimiter ∉ NalUnitType.collectedTypes := by decide
  obtain ⟨-, hordered, harrays, hrefused⟩ := arrays_grouped .standard calls
  refine ⟨hadded, fun array hmem htype => ?_, hordered, hdelimiter, hother,
    hrefused _ delimiter _ hdelimiter hother⟩
  calc array.nalUnits
      = added.filter (statesType array.type) := (harrays array hmem).1
    _ = [first, pps, second].filter (statesType .prefixSei) := by rw [hadded, htype]
    _ = [first, second] := hsei

end H266.RecordBuilder
