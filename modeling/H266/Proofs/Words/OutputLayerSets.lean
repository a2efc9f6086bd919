import H266.Proofs.LayerReachability
import H266.Proofs.Words.Loops

/-!
# Output Layer Sets in Words

The numbers of layers in output layer sets as a machine derives them. It keeps a square table of
references and a square table of what each layer depends on, of which it computes one entry after
the other from the rows above; and for each set a list of the layers that are included, to which it
adds layer by layer. All entries are looked up by their indices.

## Main results

* `OutputLayerSets.reaches_eq`: what a layer reaches, by what the lower layers reach.
* `OutputLayerSets.computes_dependencyWords`: the table of dependencies.
* `OutputLayerSets.computes_includedWords`: the layers that are included in a set.
* `OutputLayerSets.computes_layerCountsWords`: the number of layers of each set.
-/

namespace H266

open WordM

namespace OutputLayerSets

/-! ### Tables -/

/-- The list of the first `n` values of a function. -/
abbrev row {α : Type} (n : Nat) (f : Nat → α) : List α :=
  (List.range n).map f

/-- The square table of the first values of a function. -/
abbrev table (n : Nat) (f : Nat → Nat → Bool) : List (List Bool) :=
  row n fun i => row n (f i)

section

variable {α : Type} {n : Nat} {index : USize}

/-- A row is determined by its values up to its end. -/
theorem row_congr {f g : Nat → α} (h : ∀ i < n, f i = g i) : row n f = row n g :=
  List.map_congr_left fun i hi => h i (List.mem_range.1 hi)

theorem any_range_congr {p q : Nat → Bool} (h : ∀ i < n, p i = q i) :
    (List.range n).any p = (List.range n).any q := by
  rw [Bool.eq_iff_iff, List.any_eq_true, List.any_eq_true]
  exact exists_congr fun i => and_congr_right fun hi => by rw [h i (List.mem_range.1 hi)]

/-- A row of one value. -/
theorem row_const (n : Nat) (value : α) : row n (fun _ => value) = List.replicate n value := by
  rw [row, List.map_const', List.length_range]

/-- An entry of a row is looked up by its index. -/
theorem computes_entry_row {f : Nat → α} (h : index.toNat < n) :
    Computes (entry (row n f) index) (· = f index.toNat) :=
  computes_entry (by simp [h])

/-- A row with another entry is the row of a function that differs there only. -/
theorem computes_setEntry_row {f g : Nat → α} {value : α} (h : index.toNat < n)
    (hown : g index.toNat = value) (hother : ∀ i < n, i ≠ index.toNat → g i = f i) :
    Computes (setEntry (row n f) index value) (· = row n g) := by
  refine (computes_setEntry (by simp [h])).mono fun entries hentries => ?_
  rw [hentries]
  refine List.ext_getElem (by simp) fun i hi _ => ?_
  have hlt : i < n := by simpa using hi
  rw [List.getElem_set]
  by_cases heq : index.toNat = i
  · subst heq
    simp [hown]
  · simp [heq, hother i hlt (Ne.symm heq)]

end

/-! ### Steps -/

/-- Whether layer `i` refers to layer `j`, or to a lower layer that depends on it. -/
def dependsWords (references dependency : List (List Bool)) (i j : USize) : WordM Bool := do
  let direct ← entry references i
  if ← entry direct j then
    return true
  else
    (indices i.toNat).anyM fun k => do
      if ← entry direct k then
        let lower ← entry dependency k
        entry lower j
      else
        return false

/-- The table of dependencies. -/
def dependencyWords (layers : USize) (references : List (List Bool)) :
    WordM (List (List Bool)) :=
  (indices layers.toNat).foldlM
    (fun dependency i =>
      (indices layers.toNat).foldlM
        (fun dependency j => do
          let depends ← dependsWords references dependency i j
          let own ← entry dependency i
          let own ← setEntry own j depends
          setEntry dependency i own)
        dependency)
    (List.replicate layers.toNat (List.replicate layers.toNat false))

/-- The layers that are included in a set of which the given layers are output. -/
def includedWords (layers : USize) (dependency : List (List Bool)) (outputs : List Bool) :
    WordM (List Bool) :=
  (indices layers.toNat).foldlM
    (fun included k => do
      if ← entry outputs k then
        let included ← setEntry included k true
        let lower ← entry dependency k
        (indices layers.toNat).foldlM
          (fun included j => do
            let depends ← entry lower j
            let own ← entry included j
            setEntry included j (own || depends))
          included
      else
        return included)
    (List.replicate layers.toNat false)

/-! ### What a layer reaches -/

/-- Rows end before the layer itself. -/
def IsTriangular (references : List (List Bool)) : Prop :=
  references.map List.length = List.range references.length

/-- The row of a layer ends before the layer itself. -/
theorem IsTriangular.length_getD {references : List (List Bool)} (h : IsTriangular references)
    {i : Nat} (hi : i < references.length) : (references.getD i []).length = i := by
  have hget := congrArg (·[i]?) h
  simpa [hi] using hget

/-- A triangular table has a last row that ends before its layer, and the rows before it are
triangular. -/
theorem IsTriangular.of_concat {references : List (List Bool)} {own : List Bool}
    (h : IsTriangular (references ++ [own])) :
    IsTriangular references ∧ own.length = references.length := by
  rw [IsTriangular, List.map_append, List.length_append, List.length_singleton,
    List.range_succ] at h
  obtain ⟨hrest, hown⟩ := List.append_inj' h rfl
  exact ⟨hrest, List.head_eq_of_cons_eq hown⟩

/-- Marks through the rows of marked layers, by index. -/
theorem marksThrough_eq {marked : List Bool} {rows : List (List Bool)}
    (hlength : marked.length = rows.length) (j : Nat) :
    marksThrough marked rows j =
      (List.range rows.length).any fun k =>
        marked.getD k false && (rows.getD k []).getD j false := by
  induction rows generalizing marked with
  | nil => simp [marksThrough]
  | cons lower rows ih =>
    cases marked with
    | nil => simp at hlength
    | cons mark marked =>
      have hrest := ih (List.length_cons.symm.trans hlength |> Nat.succ.inj)
      rw [marksThrough] at hrest ⊢
      rw [List.zip_cons_cons, List.any_cons, hrest, List.length_cons, List.range_succ_eq_map,
        List.any_cons, List.any_map]
      rfl

section

variable {references : List (List Bool)} {own : List Bool} {i j : Nat}

/-- What is reached is triangular as the references are. -/
theorem IsTriangular.reachTable (h : IsTriangular references) :
    IsTriangular (reachTable references) := by
  rw [IsTriangular, map_length_reachTable, length_reachTable]
  exact h

/-- No layer reaches itself or a higher layer. -/
theorem reaches_eq_false (h : IsTriangular references) (hi : i < references.length)
    (hij : i ≤ j) : reaches references i j = false := by
  have hlength := h.reachTable.length_getD (i := i) (by rwa [length_reachTable])
  exact List.getD_eq_default _ _ (by omega)

/-- A layer reaches what it refers to, and what is reached from there. -/
theorem reaches_eq (h : IsTriangular references) (hi : i < references.length) (j : Nat) :
    reaches references i j =
      (refersTo references i j ||
        (List.range i).any fun k => refersTo references i k && reaches references k j) := by
  induction references using List.reverseRecOn with
  | nil => exact absurd hi (Nat.not_lt_zero i)
  | append_singleton references own ih =>
    obtain ⟨hrest, hlength⟩ := h.of_concat
    rw [List.length_append, List.length_singleton] at hi
    by_cases hlast : i = references.length
    · -- The last row is made of the rows before it.
      subst hlast
      have hown : (references ++ [own]).getD references.length [] = own := by simp
      have hthrough : ((List.range references.length).any fun k =>
          refersTo (references ++ [own]) references.length k &&
            reaches (references ++ [own]) k j) = marksThrough own (reachTable references) j := by
        rw [marksThrough_eq (hlength.trans (length_reachTable references).symm), length_reachTable]
        refine any_range_congr fun k hk => ?_
        rw [reaches_concat_of_lt hk, refersTo, hown]
        rfl
      have hreach : reaches (references ++ [own]) references.length j =
          (reachRow (reachTable references) own).getD j false := by
        rw [reaches, reachTable_concat]
        simp [length_reachTable]
      rw [hthrough, hreach, refersTo, hown]
      by_cases hlow : j < own.length
      · simp [reachRow, hlow]
      · rw [List.getD_eq_default _ _ (by simp [reachRow]; omega),
          List.getD_eq_default _ _ (Nat.not_lt.1 hlow), Bool.false_or]
        rw [← hthrough]
        symm
        rw [List.any_eq_false]
        intro k hk
        have hk : k < references.length := List.mem_range.1 hk
        rw [reaches_concat_of_lt hk, reaches_eq_false hrest hk (by omega), Bool.and_false]
        exact Bool.false_ne_true
    · have hlt : i < references.length := by omega
      rw [reaches_concat_of_lt hlt, refersTo_concat_of_lt hlt, ih hrest hlt]
      congr 1
      refine any_range_congr fun k hk => ?_
      rw [refersTo_concat_of_lt hlt, reaches_concat_of_lt (Nat.lt_trans hk hlt)]

end

/-! ### Dependencies -/

section

variable {references : List (List Bool)} {layers : USize}

/-- What is known of the dependencies when the rows before row `i` are complete, and row `i` up to
column `j`. -/
def knownBefore (references : List (List Bool)) (i j r c : Nat) : Bool :=
  decide (r < i ∨ r = i ∧ c < j) && reaches references r c

/-- The rows before are known as a whole. -/
theorem knownBefore_of_lt {i j r c : Nat} (h : r < i) :
    knownBefore references i j r c = reaches references r c := by
  rw [knownBefore, decide_eq_true (.inl h), Bool.true_and]

/-- An entry is found from the rows before, which are complete by then. -/
theorem computes_dependsWords (h : IsTriangular references) {n : Nat} {i j : USize}
    (hreferences : references.length = n) (hi : i.toNat < n) (hj : j.toNat < n)
    (hfew : n < 4294967296) :
    Computes
      (dependsWords (table n (refersTo references))
        (table n (knownBefore references i.toNat j.toNat)) i j)
      (· = reaches references i.toNat j.toNat) := by
  refine (computes_entry_row hi).bind fun direct hdirect => ?_
  subst hdirect
  refine (computes_entry_row hj).bind fun refers hrefers => ?_
  rw [reaches_eq h (hreferences ▸ hi), ← hrefers]
  cases refers with
  | true => exact computes_pure rfl
  | false =>
    rw [if_neg (by decide), Bool.false_or]
    refine computes_anyM_indices (by omega) fun k hk => ?_
    refine (computes_entry_row (Nat.lt_trans hk hi)).bind fun refersLower hlower => ?_
    rw [← hlower]
    cases refersLower with
    | false => exact computes_pure rfl
    | true =>
      refine (computes_entry_row (Nat.lt_trans hk hi)).bind fun lower hrow => ?_
      subst hrow
      refine (computes_entry_row hj).mono fun value hvalue => ?_
      rw [hvalue, knownBefore_of_lt hk, Bool.true_and]

/-- The entry that is computed becomes known. -/
theorem computes_dependencyEntry (h : IsTriangular references) {n : Nat} {i j : USize}
    (hreferences : references.length = n) (hi : i.toNat < n) (hj : j.toNat < n)
    (hfew : n < 4294967296) :
    Computes
      (do
        let depends ← dependsWords (table n (refersTo references))
          (table n (knownBefore references i.toNat j.toNat)) i j
        let own ← entry (table n (knownBefore references i.toNat j.toNat)) i
        let own ← setEntry own j depends
        setEntry (table n (knownBefore references i.toNat j.toNat)) i own)
      (· = table n (knownBefore references i.toNat (j.toNat + 1))) := by
  refine (computes_dependsWords h hreferences hi hj hfew).bind fun depends hdepends => ?_
  refine (computes_entry_row hi).bind fun own hown => ?_
  subst hown
  have hrow : Computes
      (setEntry (row n (knownBefore references i.toNat j.toNat i.toNat)) j depends)
      (· = row n (knownBefore references i.toNat (j.toNat + 1) i.toNat)) := by
    refine computes_setEntry_row hj ?_ fun c _ hne => ?_
    · simp [knownBefore, hdepends]
    · have hsame : (c < j.toNat + 1 ↔ c < j.toNat) := by omega
      simp [knownBefore, hsame]
  refine hrow.bind fun own hown => ?_
  refine computes_setEntry_row hi hown.symm fun r _ hne => row_congr fun c _ => ?_
  simp [knownBefore, hne]

/-- Entry by entry and row by row the table is what the layers reach. -/
theorem computes_dependencyWords (h : IsTriangular references)
    (hreferences : references.length = layers.toNat) (hfew : layers.toNat < 4294967296) :
    Computes (dependencyWords layers (table layers.toNat (refersTo references)))
      (· = table layers.toNat (reaches references)) := by
  have hloop : Computes (dependencyWords layers (table layers.toNat (refersTo references)))
      (· = table layers.toNat (knownBefore references layers.toNat 0)) := by
    -- The outer loop completes rows; the inner one goes through the columns of a row.
    refine Computes.foldlM_indices
      (motive := fun i state => state = table layers.toNat (knownBefore references i 0))
      hfew (fun i state hi hstate => ?_) ?_
    · refine (Computes.foldlM_indices
        (motive := fun j state => state = table layers.toNat (knownBefore references i.toNat j))
        hfew (fun j state hj hstate => ?_) hstate).mono
        fun dependency hdependency => hdependency.trans ?_
      · subst hstate
        exact computes_dependencyEntry h hreferences hi hj hfew
      · refine row_congr fun r _ => row_congr fun c hc => ?_
        have hsame : (r < i.toNat ∨ r = i.toNat ∧ c < layers.toNat) ↔
            r < i.toNat + 1 ∨ r = i.toNat + 1 ∧ c < 0 := by omega
        rw [knownBefore, knownBefore, decide_eq_decide.2 hsame]
    · rw [← row_const, ← row_const]
      refine row_congr fun r _ => row_congr fun c _ => ?_
      simp [knownBefore]
  refine hloop.mono fun dependency hdependency => hdependency.trans ?_
  exact row_congr fun r hr => row_congr fun c _ => knownBefore_of_lt hr

end

/-! ### Included layers -/

section

variable {references : List (List Bool)} {outputs : List Bool} {layers : USize}

/-- Whether layer `j` is included once the first `k` layers were looked at. -/
def includedBefore (references : List (List Bool)) (outputs : List Bool) (k j : Nat) : Bool :=
  (List.range k).any fun l => outputs.getD l false && (l == j || reaches references l j)

/-- One more layer that is output adds itself and what it reaches. -/
theorem includedBefore_succ (references : List (List Bool)) (outputs : List Bool) (k j : Nat) :
    includedBefore references outputs (k + 1) j =
      (includedBefore references outputs k j ||
        (outputs.getD k false && (k == j || reaches references k j))) := by
  rw [includedBefore, List.range_succ, List.any_append, List.any_cons, List.any_nil, Bool.or_false]
  rfl

/-- A layer that is output is included with all that it reaches. -/
theorem computes_includeLayer {n : Nat} {k : USize} {base : Nat → Bool} (hk : k.toNat < n)
    (hn : n = layers.toNat) (hfew : n < 4294967296) :
    Computes
      (do
        let included ← setEntry (row n base) k true
        let lower ← entry (table n (reaches references)) k
        (indices layers.toNat).foldlM
          (fun included j => do
            let depends ← entry lower j
            let own ← entry included j
            setEntry included j (own || depends))
          included)
      (· = row n fun j => base j || (k.toNat == j || reaches references k.toNat j)) := by
  subst hn
  have hset : Computes (setEntry (row layers.toNat base) k true)
      (· = row layers.toNat fun j => base j || k.toNat == j) :=
    computes_setEntry_row hk (by simp) fun j _ hne => by simp [Ne.symm hne]
  refine hset.bind fun included hincluded => ?_
  refine (computes_entry_row hk).bind fun lower hlower => ?_
  subst hlower
  refine (Computes.foldlM_indices
    (motive := fun place state => state = row layers.toNat fun j =>
      (base j || k.toNat == j) || (decide (j < place) && reaches references k.toNat j))
    hfew (fun j state hj hstate => ?_) ?_).mono fun last hlast => hlast.trans ?_
  · subst hstate
    refine (computes_entry_row hj).bind fun depends hdepends => ?_
    refine (computes_entry_row hj).bind fun own hown => ?_
    refine computes_setEntry_row hj (by simp [hown, hdepends]) fun c _ hne => ?_
    have hsame : (c < j.toNat + 1 ↔ c < j.toNat) := by omega
    simp [hsame]
  · simp [hincluded]
  · exact row_congr fun j hj => by simp [hj, Bool.or_assoc]

/-- Layer by layer the list is what the set includes. -/
theorem computes_includedWords (houtputs : outputs.length = layers.toNat)
    (hfew : layers.toNat < 4294967296) :
    Computes (includedWords layers (table layers.toNat (reaches references)) outputs)
      (· = row layers.toNat (includedBefore references outputs layers.toNat)) := by
  refine Computes.foldlM_indices
    (motive := fun k state => state = row layers.toNat (includedBefore references outputs k))
    hfew (fun k state hk hstate => ?_) ?_
  · subst hstate
    have hlt : k.toNat < outputs.length := houtputs ▸ hk
    refine (computes_entry (List.getElem?_eq_getElem hlt)).bind fun output houtput => ?_
    have hget : outputs.getD k.toNat false = output := by
      rw [List.getD_eq_getElem _ _ hlt, houtput]
    have hsucc := includedBefore_succ references outputs k.toNat
    rw [hget] at hsucc
    cases output with
    | false =>
      refine computes_pure (row_congr fun j _ => ?_)
      rw [hsucc, Bool.false_and, Bool.or_false]
    | true =>
      refine (computes_includeLayer hk rfl hfew).mono fun included hincluded => ?_
      rw [hincluded]
      exact row_congr fun j _ => by rw [hsucc, Bool.true_and]
  · rw [← row_const]
    rfl

/-- When all layers are done, those are included that are output or reached from one that is. -/
theorem includedBefore_eq (houtputs : outputs.length = references.length) {j : Nat}
    (hj : j < outputs.length) :
    includedBefore references outputs outputs.length j =
      (outputs.getD j false || marksThrough outputs (reachTable references) j) := by
  rw [marksThrough_eq (houtputs.trans (length_reachTable references).symm), length_reachTable,
    ← houtputs, Bool.eq_iff_iff, includedBefore]
  simp only [List.any_eq_true, List.mem_range, Bool.and_eq_true, Bool.or_eq_true, beq_iff_eq]
  constructor
  · rintro ⟨l, hl, hout, rfl | hreach⟩
    · exact .inl hout
    · exact .inr ⟨l, hl, hout, hreach⟩
  · rintro (hout | ⟨l, hl, hout, hreach⟩)
    · exact ⟨j, hj, hout, .inl rfl⟩
    · exact ⟨l, hl, hout, .inr hreach⟩

/-- How many layers are included in a set. -/
theorem countP_included (hreferences : references.length = layers.toNat)
    (houtputs : outputs.length = layers.toNat) :
    (row layers.toNat (includedBefore references outputs layers.toNat)).countP id =
      layerCount (reachTable references) outputs := by
  rw [List.countP_map, layerCount, ← houtputs]
  refine List.countP_congr fun j hj => ?_
  rw [Function.comp_apply, includedBefore_eq (houtputs.trans hreferences.symm)
    (List.mem_range.1 hj)]
  rfl

end

/-! ### The number of layers of each set -/

/-- How output layer sets are formed, as it is read. -/
structure ModeWords where
  eachLayer : Bool
  /-- `vps_ols_mode_idc`, which is 2 if it is not read. -/
  code : UInt8
  /-- `vps_num_output_layer_sets_minus2`, which is zero if it is not read. -/
  setsMinus2 : USize
  /-- The layers that are output in each set, and none for the first. -/
  outputs : List (List Bool)

/-- How output layer sets are formed. -/
def ModeWords.mode (words : ModeWords) : OlsMode :=
  if words.eachLayer then .eachLayer
  else if words.code = 0 then .highestLayer
  else if words.code = 1 then .allLayers
  else .listed words.outputs.tail

/-- What is so of the words that are read: sets are listed in mode 2 only, 257 of them at most, and
each has a mark for each layer. -/
structure ModeWords.Valid (words : ModeWords) (layers : USize) : Prop where
  code_le : words.code.toNat ≤ 2
  length_outputs : words.eachLayer = false → words.code = 2 →
    words.outputs.length = words.setsMinus2.toNat + 2
  sets_le : words.setsMinus2.toNat ≤ 255
  length_of_mem : ∀ outputs ∈ words.outputs, outputs.length = layers.toNat

/-- The number of layers of a set that is listed. -/
def layerCountWords (layers : USize) (dependency : List (List Bool)) (outputs : List Bool) :
    WordM USize := do
  let included ← includedWords layers dependency outputs
  countAfter id 0 included

/-- The number of layers of each output layer set. -/
def layerCountsWords (layers : USize) (references : List (List Bool)) (words : ModeWords) :
    WordM (List USize) := do
  if words.eachLayer then
    return List.replicate layers.toNat 1
  else if words.code ≠ 2 then
    return (List.range' 1 layers.toNat).map USize.ofNat
  else
    let dependency ← dependencyWords layers references
    let sets ← Word.add words.setsMinus2 2
    (indices sets.toNat).tail.foldlM
      (fun counts i =>
        (words.outputs[i.toNat]?).elim (pure counts) fun outputs => do
          let count ← layerCountWords layers dependency outputs
          setEntry counts i count)
      (List.replicate sets.toNat 1)

section

variable {references : List (List Bool)} {outputs : List Bool} {layers : USize} {words : ModeWords}

/-- The layers that are included are counted. -/
theorem computes_layerCountWords (hreferences : references.length = layers.toNat)
    (houtputs : outputs.length = layers.toNat) (hfew : layers.toNat < 4294967296) :
    Computes (layerCountWords layers (table layers.toNat (reaches references)) outputs)
      fun count => count.toNat = layerCount (reachTable references) outputs := by
  have hzero : (0 : USize).toNat = 0 := Word.toNat_index 0 (by decide)
  refine (computes_includedWords houtputs hfew).bind fun included hincluded => ?_
  subst hincluded
  refine (computes_countAfter (by simp [hzero]; exact hfew)).mono fun count hcount => ?_
  rw [hcount, hzero, Nat.zero_add, countP_included hreferences houtputs]

/-- The number of layers of set `i`, of which the first is the lowest layer. -/
def setCount (references : List (List Bool)) (outputs : List (List Bool)) (i : Nat) : USize :=
  if i = 0 then 1 else USize.ofNat (layerCount (reachTable references) (outputs.getD i []))

/-- The loop over the sets that are listed. -/
theorem computes_listedCounts (hreferences : references.length = layers.toNat)
    (hfew : layers.toNat < 4294967296) {sets : List (List Bool)}
    (hsets : ∀ outputs ∈ sets, outputs.length = layers.toNat) (hcount : sets.length < 4294967296)
    (hpositive : 0 < sets.length) :
    Computes
      ((indices sets.length).tail.foldlM
        (fun counts i =>
          (sets[i.toNat]?).elim (pure counts) fun outputs => do
            let count ← layerCountWords layers (table layers.toNat (reaches references)) outputs
            setEntry counts i count)
        (List.replicate sets.length 1))
      (· = row sets.length (setCount references sets)) := by
  have htail : (indices sets.length).tail = (List.range' 1 (sets.length - 1)).map USize.ofNat := by
    rw [indices, List.range_eq_range', ← List.map_tail, List.tail_range']
  rw [htail]
  refine (Computes.foldlM_range'
    (motive := fun i state => state = row sets.length fun e =>
      if e < i then setCount references sets e else 1)
    (by omega) (fun i state hlow hlt hstate => ?_) ?_).mono fun last hlast => hlast.trans ?_
  · subst hstate
    have hi : i.toNat < sets.length := by omega
    rw [List.getElem?_eq_getElem hi]
    refine (computes_layerCountWords hreferences (hsets _ (List.getElem_mem hi)) hfew).bind
      fun count hvalue => ?_
    refine computes_setEntry_row hi ?_ fun e _ hne => ?_
    · rw [if_pos (Nat.lt_succ_self _), setCount, if_neg (by omega), List.getD_eq_getElem _ _ hi,
        ← hvalue, USize.ofNat_toNat]
    · have hsame : (e < i.toNat + 1 ↔ e < i.toNat) := by omega
      simp only [hsame]
  · rw [← row_const]
    refine row_congr fun e _ => ?_
    by_cases hfirst : e < 1
    · rw [if_pos hfirst, setCount, if_pos (by omega)]
    · rw [if_neg hfirst]
  · exact row_congr fun e he => if_pos (by omega)

/-- The numbers for listed sets, as numbers. -/
theorem map_toNat_setCount {own : List Bool} {rest : List (List Bool)}
    (hfew : layers.toNat < 4294967296)
    (hsets : ∀ outputs ∈ own :: rest, outputs.length = layers.toNat) :
    (row (own :: rest).length (setCount references (own :: rest))).map USize.toNat =
      1 :: rest.map (layerCount (reachTable references)) := by
  rw [row, List.length_cons, List.range_succ_eq_map, List.map_cons, List.map_cons, List.map_map,
    List.map_map]
  congr 1
  · exact Word.toNat_index 1 (by decide)
  · refine List.ext_getElem (by simp) fun i hi _ => ?_
    have hlt : i < rest.length := by simpa using hi
    have hle := layerCount_le (reachTable references) rest[i]
    rw [hsets _ (List.mem_cons_of_mem _ (List.getElem_mem hlt))] at hle
    have hnat := Word.toNat_index (layerCount (reachTable references) rest[i]) (by omega)
    simpa [setCount, hlt] using hnat

/-- A mode below 2 is 0 or 1. -/
theorem ModeWords.code_cases {code : UInt8} (hle : code.toNat ≤ 2) (hcode : code ≠ 2) :
    code = 0 ∨ code = 1 := by
  have hne : code.toNat ≠ 2 := fun heq => hcode (UInt8.toNat_inj.1 heq)
  rw [← UInt8.toNat_inj, ← UInt8.toNat_inj]
  show code.toNat = 0 ∨ code.toNat = 1
  omega

/-- In modes 0 and 1 each set has one more layer than the one before it. -/
theorem layerCounts_mode_of_ne (h : words.Valid layers) (heach : words.eachLayer = false)
    (hcode : words.code ≠ 2) (n : Nat) :
    layerCounts n references words.mode = List.range' 1 n := by
  rw [ModeWords.mode, heach, if_neg Bool.false_ne_true]
  rcases ModeWords.code_cases h.code_le hcode with hzero | hone
  · rw [hzero]
    rfl
  · rw [hone]
    rfl

/-- In mode 2 the sets are those that are listed. -/
theorem layerCounts_mode_of_eq {own : List Bool} {rest : List (List Bool)}
    (houtputs : words.outputs = own :: rest) (heach : words.eachLayer = false)
    (hcode : words.code = 2) (n : Nat) :
    layerCounts n references words.mode = 1 :: rest.map (layerCount (reachTable references)) := by
  rw [ModeWords.mode, heach, hcode, houtputs]
  rfl

/-- Small numbers are not changed by being kept as words. -/
theorem map_toNat_range' {n : Nat} (hfew : n < 4294967295) :
    ((List.range' 1 n).map USize.ofNat).map USize.toNat = List.range' 1 n := by
  rw [List.map_map]
  refine (List.map_congr_left fun i hi => ?_).trans (List.map_id _)
  have hlt := (List.mem_range'_1.1 hi).2
  exact Word.toNat_index i (by omega)

/-- **Numbers of layers**: those that a machine derives are those of the sets, of which there are
257 at the most. -/
theorem computes_layerCountsWords (hreferences : references.length = layers.toNat)
    (htriangular : IsTriangular references) (hfew : layers.toNat ≤ 64) (h : words.Valid layers) :
    Computes (layerCountsWords layers (table layers.toNat (refersTo references)) words)
      fun counts => counts.map USize.toNat = layerCounts layers.toNat references words.mode ∧
        counts.length ≤ 257 := by
  rw [layerCountsWords]
  cases heach : words.eachLayer with
  | true =>
    refine computes_pure ⟨?_, ?_⟩
    · rw [ModeWords.mode, heach, List.map_replicate]
      exact congrArg _ (Word.toNat_index 1 (by decide))
    · rw [List.length_replicate]
      omega
  | false =>
    rw [if_neg Bool.false_ne_true]
    by_cases hcode : words.code = 2
    · rw [if_neg (not_not_intro hcode)]
      refine (computes_dependencyWords htriangular hreferences (by omega)).bind
        fun dependency hdependency => ?_
      subst hdependency
      have hlength := h.length_outputs heach hcode
      have hle := h.sets_le
      refine (Word.computes_addIndex (show words.setsMinus2.toNat + 2 < _ by omega)).bind
        fun sets hsets => ?_
      have hsetsNat : sets.toNat = words.outputs.length := hsets.trans hlength.symm
      rw [hsetsNat]
      refine (computes_listedCounts hreferences (by omega) h.length_of_mem (by omega)
        (by omega)).mono fun counts hcounts => ?_
      subst hcounts
      obtain ⟨own, rest, houtputs⟩ := List.exists_cons_of_length_pos
        (show 0 < words.outputs.length by omega)
      refine ⟨?_, ?_⟩
      · rw [layerCounts_mode_of_eq houtputs heach hcode, houtputs]
        exact map_toNat_setCount (by omega) fun outputs hmem =>
          h.length_of_mem outputs (houtputs ▸ hmem)
      · rw [List.length_map, List.length_range]
        omega
    · rw [if_pos hcode, layerCounts_mode_of_ne h heach hcode]
      refine computes_pure ⟨map_toNat_range' (by omega), ?_⟩
      rw [List.length_map, List.length_range']
      omega

end

end OutputLayerSets

end H266
