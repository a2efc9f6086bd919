import H266.OutputLayerSets
import Mathlib.Data.List.GetD
import Mathlib.Data.List.Induction
import Mathlib.Data.Set.Card
import Mathlib.Logic.Relation
import Mathlib.Order.Interval.Set.Nat

/-!
# Layers of Output Layer Sets

The table of what each layer reaches is made in a single pass over the layers, the lowest first,
each row of it from the rows before. Since layers refer to lower layers only, this pass finds all
that is reached through any number of references: the table is the transitive closure of the
references. So the number that is counted for a set that is listed is the number of its layers,
those that are output and those that are reached from one of them.

References are strictly lower triangular, whether their rows end before the layer itself or go on
with clear entries.

## Main results

* `OutputLayerSets.reaches_iff_transGen`: the table is the transitive closure of the references.
* `OutputLayerSets.layerCount_eq_ncard`: how many layers are counted for a set.
* `OutputLayerSets.layerCounts_eq_map_ncard`: the numbers of layers of all sets, in every mode.
* `OutputLayerSets.layerCounts_listed`: the numbers of layers of the sets that are listed.
-/

namespace H266.OutputLayerSets

open Relation

/-! ### References -/

/-- Whether layer `i` refers to layer `j`. -/
def refersTo (references : List (List Bool)) (i j : Nat) : Bool :=
  (references.getD i []).getD j false

/-- Layer `i` refers to layer `j`. -/
def Refers (references : List (List Bool)) (i j : Nat) : Prop :=
  refersTo references i j = true

/-- Layers refer to lower layers only. -/
def IsStrictlyLower (references : List (List Bool)) : Prop :=
  ∀ i j, Refers references i j → j < i

/-- The layers of a set of which the given layers are output: these, and all that one of them
reaches through one or more references. -/
def layersOf (references : List (List Bool)) (outputs : List Bool) : Set Nat :=
  {j | outputs.getD j false = true ∨
    ∃ k, outputs.getD k false = true ∧ TransGen (Refers references) k j}

/-- What is marked lies within the row. -/
theorem lt_length_of_getD {row : List Bool} {j : Nat} (h : row.getD j false = true) :
    j < row.length := by
  by_contra hlong
  rw [List.getD_eq_default _ _ (Nat.not_lt.1 hlong)] at h
  cases h

variable {references : List (List Bool)} {own outputs : List Bool} {i j k : Nat}

/-- Only layers that have a row refer to others. -/
theorem Refers.lt_length (h : Refers references i j) : i < references.length := by
  by_contra hlong
  rw [Refers, refersTo, List.getD_eq_default _ _ (Nat.not_lt.1 hlong)] at h
  cases h

/-- Only the entries that there are need to be looked at. -/
theorem isStrictlyLower_iff :
    IsStrictlyLower references ↔
      ∀ i < references.length, ∀ j < (references.getD i []).length,
        refersTo references i j = true → j < i :=
  ⟨fun h i _ j _ hij => h i j hij,
    fun h i j hij => h i (Refers.lt_length hij) j (lt_length_of_getD hij) hij⟩

instance decidableIsStrictlyLower : DecidablePred IsStrictlyLower :=
  fun _ => decidable_of_iff _ isStrictlyLower_iff.symm

/-- The rows before keep their references when one is added. -/
theorem refersTo_concat_of_lt (hi : i < references.length) :
    refersTo (references ++ [own]) i j = refersTo references i j := by
  rw [refersTo, List.getD_append _ _ _ _ hi]
  rfl

/-- References of a table with one more row. -/
theorem refers_concat_iff :
    Refers (references ++ [own]) i j ↔
      i < references.length ∧ Refers references i j ∨
        i = references.length ∧ own.getD j false = true := by
  rcases Nat.lt_trichotomy i references.length with hlt | rfl | hgt
  · rw [Refers, refersTo_concat_of_lt hlt]
    simp [Refers, hlt, Nat.ne_of_lt hlt]
  · simp [Refers, refersTo]
  · have hrow : (references ++ [own]).getD i [] = [] :=
      List.getD_eq_default _ _ (by simp; omega)
    rw [Refers, refersTo, hrow]
    simp [Nat.ne_of_gt hgt, Nat.lt_asymm hgt]

/-- References stay when a row is added. -/
theorem Refers.concat (own : List Bool) (h : Refers references i j) :
    Refers (references ++ [own]) i j :=
  refers_concat_iff.2 (.inl ⟨h.lt_length, h⟩)

/-- The rows before are strictly lower by themselves. -/
theorem IsStrictlyLower.of_concat (h : IsStrictlyLower (references ++ [own])) :
    IsStrictlyLower references :=
  fun i j hij => h i j (hij.concat own)

/-- Through any number of references only lower layers are reached. -/
theorem IsStrictlyLower.lt_of_transGen (h : IsStrictlyLower references)
    (hij : TransGen (Refers references) i j) : j < i := by
  induction hij with
  | single hrefers => exact h _ _ hrefers
  | tail _ hrefers ih => exact Nat.lt_trans (h _ _ hrefers) ih

/-! ### What is reached -/

/-- Whether layer `i` reaches layer `j` through references. -/
def reaches (references : List (List Bool)) (i j : Nat) : Bool :=
  ((reachTable references).getD i []).getD j false

/-- One more row is made from the rows before. -/
theorem reachTable_concat (references : List (List Bool)) (own : List Bool) :
    reachTable (references ++ [own]) =
      reachTable references ++ [reachRow (reachTable references) own] := by
  rw [reachTable, List.foldl_append]
  rfl

/-- Rows stay as long as they are. -/
theorem map_length_reachTable (references : List (List Bool)) :
    (reachTable references).map List.length = references.map List.length := by
  induction references using List.reverseRecOn with
  | nil => rfl
  | append_singleton references own ih => simp [reachTable_concat, reachRow, ih]

/-- Every layer has a row. -/
theorem length_reachTable (references : List (List Bool)) :
    (reachTable references).length = references.length := by
  have hlength := congrArg List.length (map_length_reachTable references)
  rwa [List.length_map, List.length_map] at hlength

/-- The rows before are not changed by one more row. -/
theorem reaches_concat_of_lt (hi : i < references.length) :
    reaches (references ++ [own]) i j = reaches references i j := by
  rw [reaches, reachTable_concat, List.getD_append _ _ _ _ (by rwa [length_reachTable])]
  rfl

/-- A column is marked in the row of a marked layer. -/
theorem marksThrough_iff {marked : List Bool} {rows : List (List Bool)} :
    marksThrough marked rows j = true ↔
      ∃ k, marked.getD k false = true ∧ (rows.getD k []).getD j false = true := by
  induction rows generalizing marked with
  | nil => simp [marksThrough]
  | cons row rows ih =>
    cases marked with
    | nil => simp [marksThrough]
    | cons mark marked =>
      have hrest := @ih marked
      rw [marksThrough] at hrest ⊢
      rw [List.zip_cons_cons, List.any_cons, Bool.or_eq_true, Bool.and_eq_true, hrest]
      constructor
      · rintro (hfirst | ⟨k, hk⟩)
        · exact ⟨0, hfirst⟩
        · exact ⟨k + 1, hk⟩
      · rintro ⟨_ | k, hk⟩
        · exact .inl hk
        · exact .inr ⟨k, hk⟩

/-- What is reached in a table with one more row. -/
theorem reaches_concat_iff :
    reaches (references ++ [own]) i j = true ↔
      i < references.length ∧ reaches references i j = true ∨
        i = references.length ∧ j < own.length ∧
          (own.getD j false = true ∨
            ∃ k, own.getD k false = true ∧ reaches references k j = true) := by
  rcases Nat.lt_trichotomy i references.length with hlt | rfl | hgt
  · rw [reaches_concat_of_lt hlt]
    simp [hlt, Nat.ne_of_lt hlt]
  · have hrow : reaches (references ++ [own]) references.length j =
        (reachRow (reachTable references) own).getD j false := by
      rw [reaches, reachTable_concat]
      simp [length_reachTable]
    rw [hrow]
    by_cases hj : j < own.length
    · simp [reachRow, hj, marksThrough_iff, reaches]
    · simp [reachRow, hj]
  · have hrow : (reachTable (references ++ [own])).getD i [] = [] :=
      List.getD_eq_default _ _ (by rw [length_reachTable]; simp; omega)
    rw [reaches, hrow]
    simp [Nat.ne_of_gt hgt, Nat.lt_asymm hgt]

/-- What the table marks can be reached. -/
theorem transGen_of_reaches (h : reaches references i j = true) :
    TransGen (Refers references) i j := by
  induction references using List.reverseRecOn generalizing i with
  | nil => simp [reaches, reachTable] at h
  | append_singleton references own ih =>
    have hlower {k : Nat} (hk : reaches references k j = true) :
        TransGen (Refers (references ++ [own])) k j :=
      TransGen.mono (fun _ _ hrefers => Refers.concat own hrefers) k j (ih hk)
    rcases reaches_concat_iff.1 h with ⟨-, hreaches⟩ | ⟨rfl, -, hown | ⟨k, hk, hreaches⟩⟩
    · exact hlower hreaches
    · exact .single (refers_concat_iff.2 (.inr ⟨rfl, hown⟩))
    · exact .head (refers_concat_iff.2 (.inr ⟨rfl, hk⟩)) (hlower hreaches)

/-- References are marked. -/
theorem reaches_of_refers (h : Refers references i j) : reaches references i j = true := by
  induction references using List.reverseRecOn with
  | nil => exact absurd h.lt_length (Nat.not_lt_zero i)
  | append_singleton references own ih =>
    rcases refers_concat_iff.1 h with ⟨hi, hrefers⟩ | ⟨hi, hown⟩
    · exact reaches_concat_iff.2 (.inl ⟨hi, ih hrefers⟩)
    · exact reaches_concat_iff.2 (.inr ⟨hi, lt_length_of_getD hown, .inl hown⟩)

/-- What a layer reaches through a layer that it refers to is marked: the row of that layer is
complete by then, since it is a lower layer, and the own row is long enough, since what is reached
is a lower layer still. -/
theorem reaches_of_refers_of_reaches (h : IsStrictlyLower references)
    (hik : Refers references i k) (hkj : reaches references k j = true) :
    reaches references i j = true := by
  have hki : k < i := h i k hik
  have hjk : j < k := h.lt_of_transGen (transGen_of_reaches hkj)
  induction references using List.reverseRecOn with
  | nil => exact absurd hik.lt_length (Nat.not_lt_zero i)
  | append_singleton references own ih =>
    have hbefore (hi : i ≤ references.length) : reaches references k j = true := by
      rwa [reaches_concat_of_lt (Nat.lt_of_lt_of_le hki hi)] at hkj
    rcases refers_concat_iff.1 hik with ⟨hi, hrefers⟩ | ⟨hi, hown⟩
    · exact reaches_concat_iff.2
        (.inl ⟨hi, ih h.of_concat hrefers (hbefore (Nat.le_of_lt hi))⟩)
    · have hj : j < own.length := Nat.lt_trans hjk (lt_length_of_getD hown)
      exact reaches_concat_iff.2
        (.inr ⟨hi, hj, .inr ⟨k, hown, hbefore (Nat.le_of_eq hi)⟩⟩)

/-- The table is the transitive closure of the references. -/
theorem reaches_iff_transGen (h : IsStrictlyLower references) :
    reaches references i j = true ↔ TransGen (Refers references) i j := by
  refine ⟨transGen_of_reaches, fun hij => ?_⟩
  induction hij using TransGen.head_induction_on with
  | single hrefers => exact reaches_of_refers hrefers
  | head hrefers _ ih => exact reaches_of_refers_of_reaches h hrefers ih

/-! ### The layers of a set -/

/-- No more layers are counted than can be output. -/
theorem layerCount_le (reach : List (List Bool)) (outputs : List Bool) :
    layerCount reach outputs ≤ outputs.length := by
  rw [layerCount]
  exact Nat.le_trans List.countP_le_length (Nat.le_of_eq List.length_range)

/-- The layers of a set are among those that can be output. -/
theorem lt_length_of_mem_layersOf (h : IsStrictlyLower references)
    (hj : j ∈ layersOf references outputs) : j < outputs.length := by
  rcases hj with hout | ⟨k, hout, hreach⟩
  · exact lt_length_of_getD hout
  · exact Nat.lt_trans (h.lt_of_transGen hreach) (lt_length_of_getD hout)

/-- What is counted are the layers of the set. -/
theorem mem_layersOf_iff (h : IsStrictlyLower references) :
    j ∈ layersOf references outputs ↔
      (outputs.getD j false || marksThrough outputs (reachTable references) j) = true := by
  rw [Bool.or_eq_true, marksThrough_iff]
  exact or_congr Iff.rfl (exists_congr fun k => and_congr Iff.rfl (reaches_iff_transGen h).symm)

/-- As many layers are counted as the set has. -/
theorem layerCount_eq_ncard (h : IsStrictlyLower references) (outputs : List Bool) :
    layerCount (reachTable references) outputs = (layersOf references outputs).ncard := by
  let counted := (List.range outputs.length).filter fun j =>
    outputs.getD j false || marksThrough outputs (reachTable references) j
  have hlayers : layersOf references outputs = counted.toFinset := by
    ext j
    rw [Finset.mem_coe, List.mem_toFinset, List.mem_filter, List.mem_range,
      ← mem_layersOf_iff h]
    exact ⟨fun hj => ⟨lt_length_of_mem_layersOf h hj, hj⟩, And.right⟩
  have hnodup : counted.Nodup := List.nodup_range.filter _
  rw [hlayers, Set.ncard_coe_finset, List.toFinset_card_of_nodup hnodup, layerCount,
    List.countP_eq_length_filter]

/-! ### All sets -/

/-- The layers of each output layer set. If each layer is a set of its own, these are the single
layers. In the modes that name no layers, set `i` has all layers up to layer `i`. Of listed sets
the first has the lowest layer alone, without being in the list; the others have the layers that
are output and all that these reach. -/
def layerSets (layers : Nat) (references : List (List Bool)) : OlsMode → List (Set Nat)
  | .eachLayer => (List.range layers).map fun i => {i}
  | .highestLayer | .allLayers => (List.range layers).map Set.Iic
  | .listed outputs => {0} :: outputs.map (layersOf references)

/-- In every mode as many layers are counted for each set as it has. -/
theorem layerCounts_eq_map_ncard (h : IsStrictlyLower references) (layers : Nat) (mode : OlsMode) :
    layerCounts layers references mode = (layerSets layers references mode).map Set.ncard := by
  have hupTo : (List.range layers).map (fun i => (Set.Iic i).ncard) = List.range' 1 layers := by
    simp only [Set.ncard_Iic_nat]
    rw [List.range'_eq_map_range]
    exact List.map_congr_left fun i _ => Nat.add_comm i 1
  cases mode with
  | eachLayer => simp [layerSets, layerCounts, Function.comp_def]
  | highestLayer | allLayers =>
    rw [layerSets, layerCounts, List.map_map, ← hupTo]
    rfl
  | listed outputs =>
    have hlisted : outputs.map (layerCount (reachTable references)) =
        outputs.map fun own => (layersOf references own).ncard :=
      List.map_congr_left fun own _ => layerCount_eq_ncard h own
    rw [layerSets, layerCounts, List.map_cons, Set.ncard_singleton, List.map_map, hlisted]
    rfl

/-! ### Listed sets -/

/-- **Layers of listed sets**: where each output layer set has a row that marks which of the layers
are output, and layers refer to lower layers only, there is a number for each set. The first set
has one layer, whatever its row. Every other set has as many layers as are output or reached from
one that is output through one or more references; they are among the layers that there are, so
there are no more of them. -/
theorem layerCounts_listed {layers setsMinus2 : Nat} {references sets : List (List Bool)}
    (hlower : IsStrictlyLower references) (hsets : sets.length = setsMinus2 + 2)
    (hwidth : ∀ outputs ∈ sets, outputs.length = layers) :
    (layerCounts layers references (.listed sets.tail)).length = setsMinus2 + 2 ∧
    (layerCounts layers references (.listed sets.tail))[0]? = some 1 ∧
    ∀ i outputs, 1 ≤ i → sets[i]? = some outputs →
      (layerCounts layers references (.listed sets.tail))[i]? =
        some (layersOf references outputs).ncard ∧
      (∀ j ∈ layersOf references outputs, j < layers) ∧
      (layersOf references outputs).ncard ≤ layers := by
  refine ⟨?_, rfl, fun i outputs hi houtputs => ?_⟩
  · simp [layerCounts, hsets]
  · have hlength := hwidth outputs (List.mem_of_getElem? houtputs)
    have hcount := layerCount_eq_ncard hlower outputs
    obtain ⟨i, rfl⟩ := Nat.exists_eq_add_of_le' hi
    refine ⟨?_, fun j hj => ?_, ?_⟩
    · rw [layerCounts, List.getElem?_cons_succ, List.getElem?_map, List.getElem?_tail, houtputs,
        Option.map_some, hcount]
    · rw [← hlength]
      exact lt_length_of_mem_layersOf hlower hj
    · rw [← hcount, ← hlength]
      exact layerCount_le _ _

/-- Five layers, of which layer 4 refers to layers 3 and 1, layer 3 to layer 2 and layer 2 to
layer 0, in rows as long as there are layers. A set with layer 4 as its only output has all of
them, although only two are referred to by that layer itself. -/
theorem layerCounts_listed_five_layers :
    let references : List (List Bool) :=
      [[false, false, false, false, false],
       [false, false, false, false, false],
       [true, false, false, false, false],
       [false, false, true, false, false],
       [false, true, false, true, false]]
    let sets : List (List Bool) :=
      [[false, false, false, false, false],
       [false, false, false, false, true],
       [false, true, false, true, false]]
    IsStrictlyLower references ∧ sets.length = 1 + 2 ∧
      (∀ outputs ∈ sets, outputs.length = 5) ∧
      layerCounts 5 references (.listed sets.tail) = [1, 5, 4] ∧
      (layersOf references [false, false, false, false, true]).ncard = 5 ∧
      (layersOf references [false, true, false, true, false]).ncard = 4 := by
  intro references sets
  have hlower : IsStrictlyLower references := by decide
  have hwidth : ∀ outputs ∈ sets, outputs.length = 5 := by decide
  have hcounts : layerCounts 5 references (.listed sets.tail) = [1, 5, 4] := by decide
  obtain ⟨-, -, hlayers⟩ := @layerCounts_listed 5 1 references sets hlower rfl hwidth
  have hfirst := (hlayers 1 _ (Nat.le_refl 1) rfl).1
  have hsecond := (hlayers 2 _ (by decide) rfl).1
  rw [hcounts] at hfirst hsecond
  exact ⟨hlower, rfl, hwidth, hcounts, (Option.some.inj hfirst).symm,
    (Option.some.inj hsecond).symm⟩

end H266.OutputLayerSets
