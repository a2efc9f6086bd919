import H266.ParameterSet.Video
import H266.Proofs.Words.NalUnitHeader
import H266.Proofs.Words.OutputLayerSets
import H266.Proofs.Words.ProfileTierLevel
import H266.Proofs.Words.TimingHrd

/-!
# Video Parameter Sets in Words

A video parameter set as it is read into words. There are no more than 64 layers and 257 output
layer sets, so that the counts that are read as codes are small once they were checked; without
these checks they would not fit the words that they are converted to.

## Main results

* `VideoParameterSet.simulates_readReferenceTable`: the table of references.
* `VideoParameterSet.simulates_readModeWords`: how output layer sets are formed.
* `VideoParameterSet.simulates_readPtlWords`: the profile, tier and level structures.
* `VideoParameterSet.skips_skipBuffersWords`, `VideoParameterSet.skips_skipTimingWords`: what is
  skipped for output layer sets.
* `VideoParameterSet.parseWords_eq`: the whole parameter set.
-/

namespace H266

open WordM OutputLayerSets

namespace VideoParameterSet

/-! ### Layers -/

/-- Reads the references of a layer, which has a row for all layers, to the lower layers. -/
def readReferenceWords (layers index : USize) : WordM (List Bool) := do
  let maxTidPresent ← readBit
  let lower ← collect index.toNat do
    let refers ← readBit
    WordM.skipIf (maxTidPresent && refers) (skipNumber 3)
    return refers
  return filled layers.toNat false lower

/-- Reads the description of a layer and returns which layers it refers to. -/
def readLayerWords (allIndependent : Bool) (layers index : USize) : WordM (List Bool) := do
  skipNumber 6
  let independent ← WordM.readIf (index.toNat != 0 && !allIndependent) readBit true
  WordM.readIf (!independent) (readReferenceWords layers index)
    (List.replicate layers.toNat false)

/-- Reads the descriptions of all layers. -/
def readReferenceTable (allIndependent : Bool) (layers : USize) : WordM (List (List Bool)) :=
  (indices layers.toNat).mapM (readLayerWords allIndependent layers)

/-- A row of `i` entries, and the same row with an entry for each layer. -/
abbrev IsRow (layers i : Nat) (word value : List Bool) : Prop :=
  value.length = i ∧ word = filled layers false value

/-- The references of a layer are put into a row that is as long as there are layers. -/
theorem simulates_readReferenceWords (layers index : USize) :
    Simulates (index.toNat * 4 + 1) (IsRow layers.toNat index.toNat)
      (readReferenceWords layers index) (readReferences index.toNat) := by
  refine simulates_readBit.bindSame fun maxTidPresent => ?_
  have hstep : Simulates 4 (· = ·)
      (do
        let refers ← readBit
        WordM.skipIf (maxTidPresent && refers) (skipNumber 3)
        return refers)
      (do
        let refers ← BitReader.readBit
        BitReader.skipIf (maxTidPresent && refers) (BitReader.skipNumber 3)
        return refers) := by
    refine simulates_readBit.bindSame fun refers => ?_
    exact (Skips.skipIf fun _ => skips_number 3 (by decide)).seq (simulates_pure rfl)
  refine (hstep.collect_length index.toNat).andThen fun lower values hlower => ?_
  obtain ⟨rfl, hlength⟩ := hlower
  exact computes_pure ⟨hlength, rfl⟩

/-- The description of a layer. -/
theorem simulates_readLayerWords (allIndependent : Bool) (layers : USize) {index : USize}
    (hindex : index.toNat < layers.toNat) (hfew : layers.toNat ≤ 64) :
    Simulates 264 (IsRow layers.toNat index.toNat) (readLayerWords allIndependent layers index)
      (readLayer allIndependent index.toNat) := by
  refine (skips_number 6 (by decide)).seq ?_
  refine (Simulates.readIf (fun _ => simulates_readBit) fun _ => rfl).bindSame
    fun independent => ?_
  refine (Simulates.readIf (fun _ => simulates_readReferenceWords layers index) fun _ => ?_).widen
    (show index.toNat * 4 + 1 ≤ 257 by omega)
  refine ⟨List.length_replicate, ?_⟩
  rw [filled, List.replicate_append_replicate, List.length_replicate,
    Nat.add_sub_cancel' (by omega)]

/-- A row goes on with entries that are not set. -/
theorem IsRow.eq_row {layers i : Nat} {word value : List Bool} (h : IsRow layers i word value)
    (hi : i ≤ layers) : word = row layers fun j => value.getD j false := by
  obtain ⟨hlength, rfl⟩ := h
  rw [filled]
  refine List.ext_getElem (by simp; omega) fun j hj _ => ?_
  rw [List.getElem_map, List.getElem_range]
  by_cases hlow : j < value.length
  · rw [List.getElem_append_left hlow, List.getD_eq_getElem _ _ hlow]
  · rw [List.getElem_append_right (Nat.not_lt.1 hlow), List.getElem_replicate,
      List.getD_eq_default _ _ (Nat.not_lt.1 hlow)]

/-- The rows that are read end before the layer itself, and a machine has a square table of
them. -/
theorem simulates_readReferenceTable (allIndependent : Bool) {layers : USize}
    (hfew : layers.toNat ≤ 64) :
    Simulates 16896
      (fun words references => words = table layers.toNat (refersTo references) ∧
        references.length = layers.toNat ∧ IsTriangular references)
      (readReferenceTable allIndependent layers) (readLayers allIndependent layers.toNat) := by
  have hread := Simulates.mapM_indices (show layers.toNat < 4294967296 by omega)
    fun index hindex => simulates_readLayerWords allIndependent layers hindex hfew
  refine hread.mono (by omega) fun words references hrows => ?_
  obtain ⟨hwords, hreferences, hrows⟩ := hrows
  refine ⟨List.ext_getElem (by simp [hwords]) fun i hi _ => ?_, hreferences,
    List.ext_getElem (by simp) fun i hi _ => ?_⟩
  · have hlt : i < references.length := by omega
    have hrow := hrows i _ _ (List.getElem?_eq_getElem hi) (List.getElem?_eq_getElem hlt)
    rw [List.getElem_map, List.getElem_range, hrow.eq_row (by omega)]
    refine row_congr fun j _ => ?_
    rw [refersTo, List.getD_eq_getElem _ _ hlt]
  · have hlt : i < references.length := by simpa using hi
    have hrow := hrows i _ _ (List.getElem?_eq_getElem (by omega : i < words.length))
      (List.getElem?_eq_getElem hlt)
    rw [List.getElem_map, List.getElem_range, hrow.1]

/-! ### Output layer sets -/

/-- Reads the output layer sets that are listed. -/
def readListedWords (layers : USize) : WordM ModeWords := do
  let setsMinus2 : USize ← readNumber 8
  let last ← Word.add setsMinus2 1
  let outputs ← collect (countFrom 1 last) (collect layers.toNat readBit)
  return {
    eachLayer := false, code := 2, setsMinus2
    outputs := List.replicate layers.toNat false :: outputs }

/-- Reads how the output layer sets of more than one layer are formed. -/
def readModeWords (allIndependent : Bool) (layers : USize) : WordM ModeWords := do
  let eachLayer ← WordM.readIf allIndependent readBit false
  if eachLayer then
    return { eachLayer, code := 2, setsMinus2 := 0, outputs := [] }
  let code : UInt8 ←
    WordM.readIf (!allIndependent) (WordM.readInRange "vps_ols_mode_idc" 0 2 (readNumber 2)) 2
  if code = 2 then
    readListedWords layers
  else
    return { eachLayer, code, setsMinus2 := 0, outputs := [] }

/-- A mode for which no sets are listed. -/
theorem valid_of_not_listed {eachLayer : Bool} {code : UInt8} {layers : USize}
    (hcode : code.toNat ≤ 2) (h : eachLayer = true ∨ code ≠ 2) :
    ModeWords.Valid { eachLayer, code, setsMinus2 := 0, outputs := [] } layers where
  code_le := hcode
  length_outputs heach hlisted := by
    rcases h with h | h
    · exact absurd (h.symm.trans heach) (by decide)
    · exact absurd hlisted h
  sets_le := (Word.toNat_index 0 (by decide)).trans_le (Nat.zero_le 255)
  length_of_mem outputs hmem := absurd hmem List.not_mem_nil

/-- Sets that are listed, at most 256 of 64 layers. -/
theorem simulates_readListedWords {layers : USize} (hfew : layers.toNat ≤ 64) :
    Simulates 16392 (fun words outputs => words.mode = .listed outputs ∧ words.Valid layers)
      (readListedWords layers) (readListedSets layers.toNat) := by
  have hone : Word.toNat (1 : USize) = 1 := Word.toNat_index 1 (by decide)
  refine (simulates_number USize 8 (by decide) ?_).bind fun setsMinus2 _ hsets => ?_
  · exact Nat.le_of_lt (Word.lt_size_index (by decide))
  obtain ⟨rfl, hsetsLt⟩ := hsets
  refine .after (Word.computes_addIndex (show Word.toNat setsMinus2 + 1 < _ by omega))
    fun last hlast => ?_
  have hlastNat : Word.toNat last = Word.toNat setsMinus2 + 1 := hlast
  have hcount : countFrom 1 last = Word.toNat setsMinus2 + 1 := by
    rw [countFrom, hlastNat, hone, Nat.add_sub_cancel]
  rw [hcount]
  have hread := ((simulates_readBit.collect_length layers.toNat).collect_all
    (Word.toNat setsMinus2 + 1)).widen
    (Nat.mul_le_mul (by omega : _ ≤ 256) (by omega : layers.toNat * 1 ≤ 64))
  refine hread.andThen fun outputs values houtputs => ?_
  obtain ⟨rfl, hlength, hall⟩ := houtputs
  refine computes_pure ⟨rfl, ?_⟩
  exact
    { code_le := Nat.le_refl 2
      length_outputs := fun _ _ => by
        rw [List.length_cons, hlength]
        rfl
      sets_le := Nat.le_of_lt_succ hsetsLt
      length_of_mem := List.forall_mem_cons.2 ⟨List.length_replicate, hall⟩ }

/-- How output layer sets are formed. -/
theorem simulates_readModeWords (allIndependent : Bool) {layers : USize}
    (hfew : layers.toNat ≤ 64) :
    Simulates 16395 (fun words mode => words.mode = mode ∧ words.Valid layers)
      (readModeWords allIndependent layers) (readOlsMode allIndependent layers.toNat) := by
  refine (Simulates.readIf (fun _ => simulates_readBit) fun _ => rfl).bindSame fun eachLayer => ?_
  cases eachLayer with
  | true => exact simulates_pure ⟨rfl, valid_of_not_listed (by decide) (.inl rfl)⟩
  | false =>
    have hcode : Simulates 2 (fun (word : UInt8) value => Word.toNat word = value ∧ value ≤ 2)
        (WordM.readInRange "vps_ols_mode_idc" 0 2 (readNumber 2))
        (BitReader.readInRange "vps_ols_mode_idc" 0 2 (BitReader.readBits 2)) :=
      (simulates_number UInt8 2 (by decide) (by decide)).readInRange rfl rfl fun _ _ => And.left
    refine (Simulates.readIf (fun _ => hcode) fun _ => ⟨rfl, Nat.le_refl 2⟩).bind
      fun code _ hvalue => ?_
    obtain ⟨rfl, hle⟩ := hvalue
    by_cases hlisted : code = 2
    · subst hlisted
      exact (simulates_readListedWords hfew).mapSpec fun words outputs hwords => hwords
    · rw [if_neg hlisted]
      have hvalid := @valid_of_not_listed false code layers hle (.inr hlisted)
      rcases ModeWords.code_cases hle hlisted with rfl | rfl
      · exact simulates_pure ⟨rfl, hvalid⟩
      · exact simulates_pure ⟨rfl, hvalid⟩

/-! ### Profile, tier and level structures -/

/-- Reads whether a structure states profile and tier. -/
def readPresentAt (presents : List Bool) (i : USize) : WordM (List Bool) :=
  WordM.readIf (i.toNat != 0)
    (do
      let present ← readBit
      setEntry presents i present)
    presents

/-- Reads the highest sublayer that a structure covers, and checks it. -/
def readMaxTidAt (defaultMaxTid : Bool) (maxSublayersMinus1 : UInt8) (maxTids : List UInt8)
    (i : USize) : WordM (List UInt8) :=
  WordM.readIf (!defaultMaxTid)
    (do
      let maxTid ← readNumber 3
      let maxTids ← setEntry maxTids i maxTid
      let _ ← WordM.readInRange "vps_ptl_max_tids[i]" 0 maxSublayersMinus1 (entry maxTids i)
      return maxTids)
    maxTids

/-- Reads how a structure is coded. -/
def readCodingAt (defaultMaxTid : Bool) (maxSublayersMinus1 : UInt8)
    (coded : List Bool × List UInt8) (i : USize) : WordM (List Bool × List UInt8) := do
  let presents ← readPresentAt coded.1 i
  let maxTids ← readMaxTidAt defaultMaxTid maxSublayersMinus1 coded.2 i
  return (presents, maxTids)

/-- Reads how structures are coded: whether each states profile and tier, and the highest
sublayer that it covers. -/
def readCodingWords (defaultMaxTid : Bool) (maxSublayersMinus1 : UInt8) (count : USize) :
    WordM (List Bool × List UInt8) :=
  (indices count.toNat).foldlM (readCodingAt defaultMaxTid maxSublayersMinus1)
    (List.replicate count.toNat true, List.replicate count.toNat maxSublayersMinus1)

/-- Reads a structure that is coded as given, to follow those that were read. -/
def readPtlAt (presents : List Bool) (maxTids : List UInt8) (ptls : List ProfileTierLevel)
    (i : USize) : WordM (List ProfileTierLevel) := do
  let present ← entry presents i
  let maxTid ← entry maxTids i
  let own ← ProfileTierLevel.readWords present maxTid
  let stated ← entry presents i
  return ptls ++ [(ptls.getLast?.filter fun _ => !stated).elim own own.inherit]

/-- Reads structures that are coded as given. -/
def readPtlWords (presents : List Bool) (maxTids : List UInt8) (count : USize) :
    WordM (List ProfileTierLevel) :=
  (indices count.toNat).foldlM (readPtlAt presents maxTids) []

/-- The lists that are filled while it is read how structures are coded. -/
def IsCoded (count : Nat) (maxSublayersMinus1 : UInt8) (coded : List Bool × List UInt8)
    (codings : List PtlCoding) : Prop :=
  coded.1 = filled count true (codings.map (·.profilePresent)) ∧
  ∃ maxTids : List UInt8, maxTids.map UInt8.toNat = codings.map (·.maxTid) ∧
    coded.2 = filled count maxSublayersMinus1 maxTids

section

variable {count : Nat} {index : USize}

/-- Whether a structure states profile and tier is put into the list of flags. -/
theorem simulates_readPresentAt {values : List Bool} (hindex : index.toNat = values.length)
    (hlt : values.length < count) :
    Simulates 1 (fun presents value => presents = filled count true (values ++ [value]))
      (readPresentAt (filled count true values) index)
      (BitReader.readIf (index.toNat != 0) BitReader.readBit true) := by
  refine Simulates.readIf (fun _ => ?_) fun _ => (filled_concat_initial hlt).symm
  refine simulates_readBit.andThen fun present _ heq => ?_
  subst heq
  exact computes_setEntry_filled hindex hlt

/-- The highest sublayer that a structure covers is put into the list of numbers. -/
theorem simulates_readMaxTidAt (defaultMaxTid : Bool) {maxSublayersMinus1 : UInt8}
    {values : List UInt8} (hindex : index.toNat = values.length) (hlt : values.length < count) :
    Simulates 3
      (fun maxTids value => ∃ maxTid : UInt8, maxTid.toNat = value ∧
        maxTids = filled count maxSublayersMinus1 (values ++ [maxTid]))
      (readMaxTidAt defaultMaxTid maxSublayersMinus1 (filled count maxSublayersMinus1 values) index)
      (BitReader.readIf (!defaultMaxTid)
        (BitReader.readInRange "vps_ptl_max_tids[i]" 0 maxSublayersMinus1.toNat
          (BitReader.readBits 3)) maxSublayersMinus1.toNat) := by
  refine Simulates.readIf (fun _ => ?_) fun _ =>
    ⟨maxSublayersMinus1, rfl, (filled_concat_initial hlt).symm⟩
  have hchecked : (BitReader.readInRange "vps_ptl_max_tids[i]" 0 maxSublayersMinus1.toNat
      (BitReader.readBits 3)) = (do
        let maxTid ← BitReader.readBits 3
        BitReader.readInRange "vps_ptl_max_tids[i]" 0 maxSublayersMinus1.toNat (pure maxTid)) :=
    rfl
  rw [hchecked]
  refine (simulates_number UInt8 3 (by decide) (by decide)).bind fun maxTid _ hmaxTid => ?_
  obtain ⟨rfl, -⟩ := hmaxTid
  refine .after (computes_setEntry_filled hindex hlt) fun maxTids hmaxTids => ?_
  obtain ⟨own, hentry, rfl⟩ : Computes (entry maxTids index) (· = maxTid) := by
    rw [hmaxTids, filled_concat]
    exact computes_entry_append hindex
  rw [hentry]
  have hown : Simulates 0 (fun word value => word = own ∧ Word.toNat word = value) (pure own)
      (pure (Word.toNat own)) :=
    simulates_pure ⟨rfl, rfl⟩
  refine (hown.readInRange_of rfl rfl fun _ _ => And.right).andThen fun _ _ hvalue => ?_
  obtain ⟨⟨rfl, hvalue⟩, -⟩ := hvalue
  exact computes_pure ⟨_, hvalue, hmaxTids⟩

/-- Both, for the structure that comes next. -/
theorem simulates_readCodingAt (defaultMaxTid : Bool) {maxSublayersMinus1 : UInt8}
    {coded : List Bool × List UInt8} {codings : List PtlCoding}
    (hlength : codings.length = index.toNat) (hlt : index.toNat < count)
    (h : IsCoded count maxSublayersMinus1 coded codings) :
    Simulates 4 (fun next coding => IsCoded count maxSublayersMinus1 next (codings ++ [coding]))
      (readCodingAt defaultMaxTid maxSublayersMinus1 coded index)
      (readPtlCoding defaultMaxTid maxSublayersMinus1.toNat index.toNat) := by
  obtain ⟨presents, tids⟩ := coded
  obtain ⟨hpresents, maxTids, hmaxTids, htids⟩ := h
  dsimp only at hpresents htids
  subst hpresents htids
  have hcount : maxTids.length = codings.length := by
    simpa using congrArg List.length hmaxTids
  refine (simulates_readPresentAt (by rw [List.length_map, hlength])
    (by rw [List.length_map]; omega)).bind fun presents present hpresent => ?_
  refine (simulates_readMaxTidAt defaultMaxTid (hlength.symm.trans hcount.symm)
    (by omega)).bind fun tids _ htids => ?_
  obtain ⟨maxTid, rfl, rfl⟩ := htids
  refine simulates_pure ⟨?_, maxTids ++ [maxTid], ?_, rfl⟩
  · rw [List.map_append]
    exact hpresent
  · rw [List.map_append, List.map_append, hmaxTids]
    rfl

/-- Structure by structure the lists are filled. -/
theorem simulates_readCodingWords (defaultMaxTid : Bool) (maxSublayersMinus1 : UInt8)
    {count : USize} (hfew : count.toNat ≤ 256) :
    Simulates 1024
      (fun coded codings => coded.1 = codings.map (·.profilePresent) ∧
        coded.2.map UInt8.toNat = codings.map (·.maxTid) ∧ codings.length = count.toNat)
      (readCodingWords defaultMaxTid maxSublayersMinus1 count)
      ((List.range count.toNat).mapM (readPtlCoding defaultMaxTid maxSublayersMinus1.toNat)) := by
  have hstart : IsCoded count.toNat maxSublayersMinus1
      (List.replicate count.toNat true, List.replicate count.toNat maxSublayersMinus1) [] :=
    ⟨rfl, [], rfl, rfl⟩
  refine (Simulates.foldlM_indices (by omega) (fun index coded codings hlt hlength hcoded =>
    simulates_readCodingAt defaultMaxTid hlength hlt hcoded) hstart).mono
    (show count.toNat * 4 ≤ 1024 by omega) fun coded codings hcoded => ?_
  obtain ⟨⟨hpresents, maxTids, hmaxTids, htids⟩, hlength⟩ := hcoded
  have hcount : maxTids.length = codings.length := by
    simpa using congrArg List.length hmaxTids
  refine ⟨?_, ?_, hlength⟩
  · rw [hpresents, filled_of_length_eq (by rw [List.length_map, hlength])]
  · rw [htids, filled_of_length_eq (hcount.trans hlength), hmaxTids]

/-- A structure takes what it does not state from the one that was read before it. -/
theorem simulates_readPtlAt {done rest : List PtlCoding} {coding : PtlCoding} {presents : List Bool}
    {maxTids : List UInt8} (hpresents : presents = (done ++ coding :: rest).map (·.profilePresent))
    (hmaxTids : maxTids.map UInt8.toNat = (done ++ coding :: rest).map (·.maxTid))
    (hindex : index.toNat = done.length) (ptls : List ProfileTierLevel) :
    Simulates 16384 (fun next own => next = ptls ++
        [(ptls.getLast?.filter fun _ => !coding.profilePresent).elim own own.inherit])
      (readPtlAt presents maxTids ptls index)
      (ProfileTierLevel.read coding.profilePresent coding.maxTid) := by
  have hcoding : (done ++ coding :: rest)[index.toNat]? = some coding := by
    rw [hindex, List.getElem?_append_right (Nat.le_refl _), Nat.sub_self]
    rfl
  have hpresent : presents[index.toNat]? = some coding.profilePresent := by
    rw [hpresents, List.getElem?_map, hcoding]
    rfl
  have htid : (maxTids.map UInt8.toNat)[index.toNat]? = some coding.maxTid := by
    rw [hmaxTids, List.getElem?_map, hcoding]
    rfl
  rw [List.getElem?_map] at htid
  obtain ⟨maxTid, hmaxTid, htidNat⟩ := Option.map_eq_some_iff.1 htid
  refine .after (computes_entry hpresent) fun present heq => ?_
  subst heq
  refine .after (computes_entry hmaxTid) fun own heq => ?_
  subst heq
  rw [← htidNat]
  refine (ProfileTierLevel.simulates_readWords _ own).andThen fun ptl _ heq => ?_
  subst heq
  refine (computes_entry hpresent).bind fun stated heq => ?_
  subst heq
  exact computes_pure rfl

/-- The structures that are coded from some place on. -/
theorem simulates_readPtlsFrom {done rest : List PtlCoding} {presents : List Bool}
    {maxTids : List UInt8} (hpresents : presents = (done ++ rest).map (·.profilePresent))
    (hmaxTids : maxTids.map UInt8.toNat = (done ++ rest).map (·.maxTid))
    (hfew : (done ++ rest).length < 4294967296) (ptls : List ProfileTierLevel) :
    Simulates (rest.length * 16384) (fun words values => words = ptls ++ values)
      (((List.range' done.length rest.length).map USize.ofNat).foldlM
        (readPtlAt presents maxTids) ptls)
      (readPtls ptls.getLast? rest) := by
  induction rest generalizing done ptls with
  | nil => exact simulates_pure (List.append_nil ptls).symm
  | cons coding rest ih =>
    have hindex : (USize.ofNat done.length).toNat = done.length :=
      Word.toNat_index _ (by rw [List.length_append] at hfew; omega)
    rw [List.length_cons, List.range'_succ, List.map_cons, List.foldlM_cons, Nat.succ_mul, readPtls]
    refine (simulates_readPtlAt hpresents hmaxTids hindex ptls).bind fun next own hnext => ?_
    subst hnext
    have hmove : done ++ coding :: rest = (done ++ [coding]) ++ rest := by
      rw [List.append_assoc]
      rfl
    rw [hmove] at hpresents hmaxTids hfew
    have hrest := ih hpresents hmaxTids hfew
      (ptls ++ [(ptls.getLast?.filter fun _ => !coding.profilePresent).elim own own.inherit])
    rw [List.length_append, List.length_singleton, List.getLast?_concat] at hrest
    have hlast : ∀ ptl words values,
        words = ptls ++ [ptl] ++ values → words = ptls ++ ptl :: values :=
      fun ptl words values heq => heq.trans (List.append_assoc ptls [ptl] values)
    -- What is inherited depends on whether there is a structure before, and on the own flag.
    generalize ptls.getLast? = previous at hrest ⊢
    cases previous with
    | none => exact hrest.mapSpec (hlast own)
    | some previous =>
      cases hstated : coding.profilePresent with
      | true =>
        rw [hstated] at hrest
        exact hrest.mapSpec (hlast own)
      | false =>
        rw [hstated] at hrest
        exact hrest.mapSpec (hlast (own.inherit previous))

/-- The structures are read by what the two lists say of each. -/
theorem simulates_readPtlWords {codings : List PtlCoding} {presents : List Bool}
    {maxTids : List UInt8} {count : USize} (hpresents : presents = codings.map (·.profilePresent))
    (hmaxTids : maxTids.map UInt8.toNat = codings.map (·.maxTid))
    (hcount : codings.length = count.toNat) (hfew : count.toNat ≤ 256) :
    Simulates 4194304 (· = ·) (readPtlWords presents maxTids count) (readPtls none codings) := by
  have hread := @simulates_readPtlsFrom [] codings presents maxTids hpresents hmaxTids
    (by rw [List.nil_append]; omega) []
  rw [hcount, List.length_nil, ← List.range_eq_range'] at hread
  exact hread.widen (Nat.mul_le_mul_right 16384 hfew)

end

/-- Skips which structure each output layer set has. -/
def skipOlsPtlWords (ptlCountMinus1 ptlCount olsCount : USize) : WordM Unit :=
  times olsCount.toNat
    (WordM.skipIf (decide (0 < ptlCountMinus1.toNat) && ptlCount.toNat != olsCount.toNat)
      (skipNumber 8))

/-- A loop over steps that are not called for does nothing. -/
theorem skips_times_skipIf {budget : Nat} {step : WordM Unit} {spec : ReadM Unit}
    (h : Skips budget step spec) (present : Bool) (count : Nat) :
    Skips (count * budget) (times count (WordM.skipIf present step))
      (BitReader.skipIf present (BitReader.skipTimes count spec)) := by
  cases present with
  | true => exact h.times count
  | false =>
    have hnothing : times count (WordM.skipIf false step) = pure () := by
      induction count with
      | zero => rfl
      | succ count ih => exact ih
    rw [hnothing]
    exact simulates_pure trivial

/-- A structure is coded for each set if there are several, and not one for each set. -/
theorem skips_skipOlsPtlWords {ptlCountMinus1 ptlCount olsCount : USize}
    (hcount : ptlCount.toNat = ptlCountMinus1.toNat + 1) (hfew : olsCount.toNat ≤ 257) :
    Skips 2056 (skipOlsPtlWords ptlCountMinus1 ptlCount olsCount)
      (skipOlsPtls (ptlCountMinus1.toNat + 1) olsCount.toNat) := by
  have hseveral : decide (0 < ptlCountMinus1.toNat) = (ptlCountMinus1.toNat + 1 != 1) := by
    rw [Bool.eq_iff_iff, decide_eq_true_iff, bne_iff_ne]
    omega
  rw [skipOlsPtlWords, skipOlsPtls, hcount, hseveral]
  exact (skips_times_skipIf (skips_number 8 (by decide)) _ _).widen (by omega)

/-! ### Decoded picture buffers and timing -/

/-- Skips the parameters of a decoded picture buffer for the sublayers from `first` to `last`. -/
def skipDpbWords (first last : UInt8) : WordM Unit :=
  times (countFrom first last) (times 3 WordM.skipExpGolomb)

/-- Reads the highest sublayer that a set of parameters covers. -/
def readMaxTidWords (defaultMaxTid : Bool) (maxSublayersMinus1 : UInt8) : WordM UInt8 :=
  WordM.readIf (!defaultMaxTid) (readNumber 3) maxSublayersMinus1

/-- Skips the picture format of an output layer set with several layers. -/
def skipFormatWords (indexPresent : Bool) : WordM Unit := do
  WordM.skipExpGolomb
  WordM.skipExpGolomb
  skipNumber 2
  WordM.skipExpGolomb
  WordM.skipIf indexPresent WordM.skipExpGolomb

/-- One more than a number that was read, as an index. -/
def indexAfter (countMinus1 : UInt64) : WordM USize := do
  let last ← Word.convert countMinus1
  Word.add last 1

/-- Skips the parameters of the decoded picture buffers. -/
def skipBuffersWords (defaultMaxTid : Bool) (maxSublayersMinus1 : UInt8)
    (olsCount multiLayerOlsCount : USize) : WordM Unit := do
  let most : UInt64 ← Word.convert olsCount
  let countMinus1 ← WordM.readInRange "vps_num_dpb_params_minus1" 0 most WordM.readExpGolomb
  let count ← indexAfter countMinus1
  let allSublayers ← WordM.readIf (maxSublayersMinus1.toNat != 0) readBit false
  times count.toNat do
    let maxTid ← readMaxTidWords defaultMaxTid maxSublayersMinus1
    skipDpbWords (if allSublayers then 0 else maxTid) maxTid
  times multiLayerOlsCount.toNat
    (skipFormatWords (decide (1 < count.toNat) && count.toNat != multiLayerOlsCount.toNat))

/-- Skips timing and HRD parameters. -/
def skipTimingWords (defaultMaxTid : Bool) (maxSublayersMinus1 : UInt8)
    (multiLayerOlsCount : USize) : WordM Unit := do
  let general ← TimingHrd.readWords
  let allSublayers ← WordM.readIf (maxSublayersMinus1.toNat != 0) readBit false
  let most : UInt64 ← Word.convert multiLayerOlsCount
  let countMinus1 ←
    WordM.readInRange "vps_num_ols_timing_hrd_params_minus1" 0 most WordM.readExpGolomb
  times (countFrom 0 countMinus1) do
    let maxTid ← readMaxTidWords defaultMaxTid maxSublayersMinus1
    general.skipOutputLayerSetWords (if allSublayers then 0 else maxTid) maxTid
  let count ← indexAfter countMinus1
  WordM.skipIf (decide (0 < countMinus1.toNat) && count.toNat != multiLayerOlsCount.toNat)
    (times multiLayerOlsCount.toNat WordM.skipExpGolomb)

/-- Skips what is coded about output layer sets unless each layer is a set of its own, and
returns whether there are timing and HRD parameters. -/
def readOlsParameterWords (defaultMaxTid : Bool) (maxSublayersMinus1 : UInt8)
    (olsCount multiLayerOlsCount : USize) : WordM Bool := do
  skipBuffersWords defaultMaxTid maxSublayersMinus1 olsCount multiLayerOlsCount
  let timingPresent ← readBit
  WordM.skipIf timingPresent
    (skipTimingWords defaultMaxTid maxSublayersMinus1 multiLayerOlsCount)
  return timingPresent

section

variable {maxSublayersMinus1 : UInt8} {olsCount multiLayerOlsCount : USize}

/-- Three exp-Golomb codes for each of eight sublayers at the most. -/
theorem skips_skipDpbWords {first last : UInt8} (hlast : last.toNat ≤ 7) :
    Skips 3048 (skipDpbWords first last) (skipDpbParameters first.toNat last.toNat) := by
  have hcount : countFrom first last ≤ 8 := Nat.le_trans (Nat.sub_le _ _) (Nat.succ_le_succ hlast)
  exact ((skips_skipExpGolomb.times 3).times _).widen (Nat.mul_le_mul_right 381 hcount)

/-- The highest sublayer that a set of parameters covers. -/
theorem simulates_readMaxTidWords (defaultMaxTid : Bool) (hmost : maxSublayersMinus1.toNat ≤ 7) :
    Simulates 3 (fun word value => word.toNat = value ∧ value ≤ 7)
      (readMaxTidWords defaultMaxTid maxSublayersMinus1)
      (readMaxTid defaultMaxTid maxSublayersMinus1.toNat) := by
  have hread : Simulates 3 (fun (word : UInt8) value => word.toNat = value ∧ value ≤ 7)
      (readNumber 3) (BitReader.readBits 3) :=
    (simulates_number UInt8 3 (by decide) (by decide)).mono (Nat.le_refl _)
      fun _ _ hvalue => ⟨hvalue.1, Nat.le_of_lt_succ hvalue.2⟩
  exact Simulates.readIf (fun _ => hread) fun _ => ⟨rfl, hmost⟩

/-- The picture format of an output layer set. -/
theorem skips_skipFormatWords (indexPresent : Bool) :
    Skips 510 (skipFormatWords indexPresent) (skipOlsFormat indexPresent) := by
  refine skips_skipExpGolomb.seq ?_
  refine skips_skipExpGolomb.seq ?_
  refine (skips_number 2 (by decide)).seq ?_
  refine skips_skipExpGolomb.seq ?_
  exact Skips.skipIf fun _ => skips_skipExpGolomb

/-- The first of the sublayers that parameters are coded for. -/
theorem toNat_firstSublayer (allSublayers : Bool) (maxTid : UInt8) :
    (if allSublayers then 0 else maxTid).toNat = if allSublayers then 0 else maxTid.toNat := by
  cases allSublayers <;> rfl

/-- A number that was checked is followed by an index. -/
theorem computes_indexAfter {countMinus1 : UInt64} (hfew : countMinus1.toNat ≤ 257) :
    Computes (indexAfter countMinus1) fun count => count.toNat = countMinus1.toNat + 1 := by
  refine (Word.computes_convert (Word.lt_size_index (Nat.lt_of_le_of_lt hfew (by decide)))).bind
    fun last hlast => ?_
  have hlastNat : last.toNat = countMinus1.toNat := hlast
  rw [← hlastNat]
  exact Word.computes_addIndex (show last.toNat + 1 < _ by omega)

/-- The parameters of the decoded picture buffers. -/
theorem skips_skipBuffersWords (defaultMaxTid : Bool) (hmost : maxSublayersMinus1.toNat ≤ 6)
    (hols : olsCount.toNat ≤ 257) (hmulti : multiLayerOlsCount.toNat ≤ 257) :
    Skips 1000000 (skipBuffersWords defaultMaxTid maxSublayersMinus1 olsCount multiLayerOlsCount)
      (skipBuffers defaultMaxTid maxSublayersMinus1.toNat olsCount.toNat
        multiLayerOlsCount.toNat) := by
  refine .after (Word.computes_convert (Nat.lt_of_le_of_lt hols (by decide)))
    fun most hmostNat => ?_
  refine (simulates_readExpGolomb.readInRange rfl hmostNat fun _ _ => And.left).bind
    fun countMinus1 _ hcount => ?_
  obtain ⟨rfl, hle⟩ := hcount
  have hfew : countMinus1.toNat ≤ 257 := Nat.le_trans hle hols
  refine .after (computes_indexAfter hfew) fun count hcount => ?_
  have hcountNat : Word.toNat countMinus1 + 1 = count.toNat := hcount.symm
  rw [hcountNat]
  refine (Simulates.readIf (fun _ => simulates_readBit) fun _ => rfl).bindSame
    fun allSublayers => ?_
  have hbuffer : Skips 3051
      (do
        let maxTid ← readMaxTidWords defaultMaxTid maxSublayersMinus1
        skipDpbWords (if allSublayers then 0 else maxTid) maxTid)
      (do
        let maxTid ← readMaxTid defaultMaxTid maxSublayersMinus1.toNat
        skipDpbParameters (if allSublayers then 0 else maxTid) maxTid) := by
    refine (simulates_readMaxTidWords defaultMaxTid (by omega)).bind fun maxTid _ hmaxTid => ?_
    obtain ⟨rfl, hmaxTidLe⟩ := hmaxTid
    rw [← toNat_firstSublayer]
    exact skips_skipDpbWords hmaxTidLe
  have hbuffers := (hbuffer.times count.toNat).widen (show _ ≤ 258 * 3051 from
    Nat.mul_le_mul_right 3051 (by omega))
  refine hbuffers.seq ?_
  have hseveral : decide (1 < count.toNat) = (count.toNat != 1) := by
    rw [Bool.eq_iff_iff, decide_eq_true_iff, bne_iff_ne]
    omega
  rw [hseveral]
  exact ((skips_skipFormatWords _).times _).widen (by omega)

/-- Timing and HRD parameters. -/
theorem skips_skipTimingWords (defaultMaxTid : Bool) (hmost : maxSublayersMinus1.toNat ≤ 6)
    (hmulti : multiLayerOlsCount.toNat ≤ 257) :
    Skips 100000000 (skipTimingWords defaultMaxTid maxSublayersMinus1 multiLayerOlsCount)
      (skipTiming defaultMaxTid maxSublayersMinus1.toNat multiLayerOlsCount.toNat) := by
  refine TimingHrd.simulates_readWords.bind fun general _ hgeneral => ?_
  obtain ⟨rfl, hschedules⟩ := hgeneral
  refine (Simulates.readIf (fun _ => simulates_readBit) fun _ => rfl).bindSame
    fun allSublayers => ?_
  refine .after (Word.computes_convert (Nat.lt_of_le_of_lt hmulti (by decide)))
    fun most hmostNat => ?_
  refine (simulates_readExpGolomb.readInRange rfl hmostNat fun _ _ => And.left).bind
    fun countMinus1 _ hcount => ?_
  obtain ⟨rfl, hle⟩ := hcount
  have hfew : countMinus1.toNat ≤ 257 := Nat.le_trans hle hmulti
  have hset : Skips 261643
      (do
        let maxTid ← readMaxTidWords defaultMaxTid maxSublayersMinus1
        general.skipOutputLayerSetWords (if allSublayers then 0 else maxTid) maxTid)
      (do
        let maxTid ← readMaxTid defaultMaxTid maxSublayersMinus1.toNat
        general.skipOutputLayerSet (if allSublayers then 0 else maxTid) maxTid) := by
    refine (simulates_readMaxTidWords defaultMaxTid (by omega)).bind fun maxTid _ hmaxTid => ?_
    obtain ⟨rfl, hmaxTidLe⟩ := hmaxTid
    rw [← toNat_firstSublayer]
    exact TimingHrd.skips_skipOutputLayerSetWords hschedules hmaxTidLe
  have hsets := (hset.times (Word.toNat countMinus1 + 1)).widen (show _ ≤ 258 * 261643 from
    Nat.mul_le_mul_right 261643 (Nat.succ_le_succ hfew))
  refine hsets.seq ?_
  refine .after (computes_indexAfter hfew) fun count hcount => ?_
  have hcountNat : Word.toNat countMinus1 + 1 = count.toNat := hcount.symm
  have hseveral : decide (0 < countMinus1.toNat) = (count.toNat != 1) := by
    rw [Bool.eq_iff_iff, decide_eq_true_iff, bne_iff_ne]
    omega
  rw [hcountNat, hseveral]
  exact (Skips.skipIf fun _ => skips_skipExpGolomb.times _).widen (by omega)

/-- All parameters of output layer sets. -/
theorem simulates_readOlsParameterWords (defaultMaxTid : Bool)
    (hmost : maxSublayersMinus1.toNat ≤ 6) (hols : olsCount.toNat ≤ 257)
    (hmulti : multiLayerOlsCount.toNat ≤ 257) :
    Simulates 101000001 (· = ·)
      (readOlsParameterWords defaultMaxTid maxSublayersMinus1 olsCount multiLayerOlsCount)
      (readOlsParameters defaultMaxTid maxSublayersMinus1.toNat olsCount.toNat
        multiLayerOlsCount.toNat) := by
  refine (skips_skipBuffersWords defaultMaxTid hmost hols hmulti).seq ?_
  refine simulates_readBit.bindSame fun timingPresent => ?_
  exact (Skips.skipIf fun _ => skips_skipTimingWords defaultMaxTid hmost hmulti).seq
    (simulates_pure rfl)

end

/-! ### Reading -/

/-- The number of output layer sets, and the number of those with more than one layer. -/
def olsCountWords (layers : USize) (references : List (List Bool)) (mode : ModeWords) :
    WordM (USize × USize) := do
  let layerCounts ← layerCountsWords layers references mode
  let olsCount ← Word.exactly .truncation layerCounts.length
  let multiLayerOlsCount ← countAfter (fun count => decide (1 < count.toNat)) 0 layerCounts
  return (olsCount, multiLayerOlsCount)

/-- Reads what follows the header. -/
def readPayloadWords (header : NalUnitHeader) : WordM VideoParameterSet := do
  let id : UInt8 ← readNumber 4
  let maxLayersMinus1 : UInt8 ← readNumber 6
  let maxSublayersMinus1 : UInt8 ←
    WordM.readInRange "vps_max_sublayers_minus1" 0 6 (readNumber 3)
  let highestLayer : USize ← Word.convert maxLayersMinus1
  let layers ← Word.add highestLayer 1
  let severalLayers := maxLayersMinus1.toNat != 0
  let defaultMaxTid ←
    WordM.readIf (severalLayers && maxSublayersMinus1.toNat != 0) readBit true
  let independentLayers ← WordM.readIf severalLayers readBit true
  let references ← readReferenceTable independentLayers layers
  let mode ← WordM.readIf severalLayers (readModeWords independentLayers layers)
    { eachLayer := true, code := 2, setsMinus2 := 0, outputs := [] }
  let ptlCountMinus1 : USize ← WordM.readIf severalLayers (readNumber 8) 0
  let (olsCount, multiLayerOlsCount) ← olsCountWords layers references mode
  let ptlCount ← Word.add ptlCountMinus1 1
  let coded ← readCodingWords defaultMaxTid maxSublayersMinus1 ptlCount
  align
  let profileTierLevels ← readPtlWords coded.1 coded.2 ptlCount
  skipOlsPtlWords ptlCountMinus1 ptlCount olsCount
  let timingPresent ← WordM.readIf (!mode.eachLayer)
    (readOlsParameterWords defaultMaxTid maxSublayersMinus1 olsCount multiLayerOlsCount) false
  return {
    header, defaultMaxTid, independentLayers, profileTierLevels, timingPresent
    id := id.toNat
    maxLayersMinus1 := maxLayersMinus1.toNat
    maxSublayersMinus1 := maxSublayersMinus1.toNat
    olsMode := mode.mode
    olsCount := olsCount.toNat
    multiLayerOlsCount := multiLayerOlsCount.toNat
    maxTids := coded.2.map UInt8.toNat }

/-- Reads a video parameter set and returns it with the bytes that were not read. -/
def parseWords (nalUnit : Bytes) : Except Stop (VideoParameterSet × Bytes) := do
  let (header, payload) ← NalUnitHeader.splitParameterSetWords .video nalUnit
  let (vps, reader) ← readPayloadWords header (.ofSource (.ofEscaped payload))
  return (vps, reader.source.remaining)

theorem mode_bne_eachLayer (words : ModeWords) :
    (words.mode != .eachLayer) = !words.eachLayer := by
  rw [ModeWords.mode]
  cases words.eachLayer with
  | true => rfl
  | false =>
    rw [if_neg Bool.false_ne_true]
    split
    · rfl
    · split <;> rfl

/-- The two numbers of output layer sets are counted from the numbers of layers. -/
theorem computes_olsCountWords {layers : USize} {references : List (List Bool)} {mode : ModeWords}
    (hreferences : references.length = layers.toNat) (htriangular : IsTriangular references)
    (hfew : layers.toNat ≤ 64) (hvalid : mode.Valid layers) :
    Computes (olsCountWords layers (table layers.toNat (refersTo references)) mode) fun counts =>
      counts.1.toNat = (layerCounts layers.toNat references mode.mode).length ∧
      counts.2.toNat = (layerCounts layers.toNat references mode.mode).countP (1 < ·) ∧
      counts.1.toNat ≤ 257 ∧ counts.2.toNat ≤ 257 := by
  refine (computes_layerCountsWords hreferences htriangular hfew hvalid).bind
    fun words hwords => ?_
  obtain ⟨hcounts, hle⟩ := hwords
  have hzero : (0 : USize).toNat = 0 := Word.toNat_index 0 (by decide)
  refine (Word.computes_exactly (Word.lt_size_index (by omega))).bind fun olsCount hols => ?_
  have holsNat : olsCount.toNat = words.length := hols
  refine (computes_countAfter (by omega)).bind fun multiLayerOlsCount hmulti => ?_
  rw [hzero, Nat.zero_add] at hmulti
  have hmultiLe : words.countP (fun count => decide (1 < count.toNat)) ≤ words.length :=
    List.countP_le_length
  rw [← hcounts, List.length_map, List.countP_map]
  exact computes_pure ⟨hols, hmulti, holsNat.trans_le hle, hmulti.trans_le (hmultiLe.trans hle)⟩

/-- A video parameter set behind its header. -/
theorem simulates_readPayloadWords (header : NalUnitHeader) :
    Simulates 200000000 (· = ·) (readPayloadWords header) (readPayload header) := by
  refine (simulates_number UInt8 4 (by decide) (by decide)).bind fun id _ hid => ?_
  obtain ⟨rfl, -⟩ := hid
  refine (simulates_number UInt8 6 (by decide) (by decide)).bind fun maxLayers _ hmaxLayers => ?_
  obtain ⟨rfl, hlayersLt⟩ := hmaxLayers
  refine ((simulates_number UInt8 3 (by decide) (by decide)).readInRange rfl rfl
    fun _ _ => And.left).bind fun maxSublayersMinus1 _ hsublayers => ?_
  obtain ⟨rfl, hsublayersLe⟩ := hsublayers
  refine .after (Word.computes_convert (Word.lt_size_index (Nat.lt_trans hlayersLt (by decide))))
    fun highestLayer hhighest => ?_
  -- From here on the number of layers is an index, which is 64 at most.
  have hhighestNat : highestLayer.toNat = Word.toNat maxLayers := hhighest
  refine .after (Word.computes_addIndex (show highestLayer.toNat + 1 < _ by omega))
    fun layers hlayers => ?_
  have hlayersNat : layers.toNat = Word.toNat maxLayers + 1 := by rw [hlayers, hhighestNat]
  have hlayersLe : layers.toNat ≤ 64 := by omega
  rw [← hlayersNat]
  refine (Simulates.readIf (fun _ => simulates_readBit) fun _ => rfl).bindSame
    fun defaultMaxTid => ?_
  refine (Simulates.readIf (fun _ => simulates_readBit) fun _ => rfl).bindSame
    fun independentLayers => ?_
  refine (simulates_readReferenceTable independentLayers hlayersLe).bind
    fun table references hreferences => ?_
  obtain ⟨rfl, hlength, htriangular⟩ := hreferences
  refine (Simulates.readIf (fun _ => simulates_readModeWords independentLayers hlayersLe)
    fun _ => ⟨rfl, valid_of_not_listed (by decide) (.inl rfl)⟩).bind fun mode _ hmode => ?_
  obtain ⟨rfl, hvalid⟩ := hmode
  have hptlCount : Simulates 8 (fun (word : USize) value => Word.toNat word = value ∧ value ≤ 255)
      (readNumber 8) (BitReader.readBits 8) :=
    (simulates_number USize 8 (by decide) (Nat.le_of_lt (Word.lt_size_index (by decide)))).mono
      (Nat.le_refl _) fun _ _ hvalue => ⟨hvalue.1, Nat.le_of_lt_succ hvalue.2⟩
  refine (Simulates.readIf (fun _ => hptlCount)
    fun _ => ⟨Word.toNat_index 0 (by decide), Nat.zero_le 255⟩).bind
    fun ptlCountMinus1 _ hvalue => ?_
  obtain ⟨rfl, hptlsLe⟩ := hvalue
  -- The unbounded side counts output layer sets where it uses them, the machine counts them once.
  refine .after (computes_olsCountWords hlength htriangular hlayersLe hvalid)
    fun counts hcounts => ?_
  obtain ⟨olsCount, multiLayerOlsCount⟩ := counts
  obtain ⟨hols, hmulti, holsLe, hmultiLe⟩ := hcounts
  refine .after (Word.computes_addIndex (show Word.toNat ptlCountMinus1 + 1 < _ by omega))
    fun ptlCount hptls => ?_
  have hptlsNat : ptlCount.toNat = Word.toNat ptlCountMinus1 + 1 := hptls
  dsimp only at hols hmulti holsLe hmultiLe ⊢
  rw [← hols, ← hmulti, ← hptlsNat]
  refine (simulates_readCodingWords defaultMaxTid maxSublayersMinus1 (by omega)).bind
    fun coded codings hcoded => ?_
  obtain ⟨hpresents, hmaxTids, hcodings⟩ := hcoded
  refine simulates_align.seq ?_
  refine (simulates_readPtlWords hpresents hmaxTids hcodings (by omega)).bindSame
    fun profileTierLevels => ?_
  rw [hptlsNat]
  refine (skips_skipOlsPtlWords hptlsNat holsLe).seq ?_
  rw [mode_bne_eachLayer]
  refine (Simulates.readIf (fun _ => simulates_readOlsParameterWords defaultMaxTid hsublayersLe
    holsLe hmultiLe) fun _ => rfl).bindSame fun timingPresent => ?_
  rw [← hmaxTids]
  exact simulates_pure rfl

/-- Nothing goes past its words in a video parameter set. -/
theorem parseWords_eq (nalUnit : Bytes) :
    parseWords nalUnit = (parse nalUnit).mapError Stop.refused := by
  refine bind_mapError_refused (NalUnitHeader.splitParameterSetWords_eq .video nalUnit)
    fun split => ?_
  exact (simulates_readPayloadWords split.1).run_ofSource (by decide) _

end VideoParameterSet

end H266
