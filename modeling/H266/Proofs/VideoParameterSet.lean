import H266.Proofs.LayerReachability
import H266.Proofs.OlsParameters
import H266.Proofs.ParameterSet
import H266.Proofs.ProfileTierLevel

/-!
# Syntax of Video Parameter Sets

The syntax tree of a video parameter set up to the extension flag. Elements that are there
only under conditions are optional in the tree, and a tree is *valid* if just those are there
that the elements before them call for, and the values have the ranges that are checked. The
written form of a valid tree, put into a NAL unit with any bits after it, is read exactly to its
end, and what is kept of it comes out with all that it leaves to be inferred.

## Main results

* `VpsSyntax.decodes_readPayload`: the written form is decoded to the value of the tree.
* `VpsSyntax.exists_parse_video`: from the tree to a NAL unit and back.
-/

namespace H266

open BitReader VideoParameterSet

/-! ### Layers -/

/-- Whether a layer refers to a lower layer. -/
structure ReferenceSyntax where
  /-- `vps_direct_ref_layer_flag`. -/
  refers : Bool
  /-- `vps_max_tid_il_ref_pics_plus1`. -/
  maxTid : Option (Fin 8)

/-- The written form. -/
def ReferenceSyntax.layout (reference : ReferenceSyntax) : Layout :=
  .flag reference.refers :: reference.maxTid.toList.flatMap fun own => [.number own.val 3]

/-- The references of a layer to all lower layers, the lowest first. -/
structure ReferencesSyntax where
  /-- `vps_max_tid_ref_present_flag`. -/
  maxTidPresent : Bool
  entries : List ReferenceSyntax

namespace ReferencesSyntax

/-- The written form. -/
def layout (references : ReferencesSyntax) : Layout :=
  .flag references.maxTidPresent :: references.entries.flatMap ReferenceSyntax.layout

/-- Whether there is an entry for each lower layer, with the elements that its flag calls
for. -/
structure Valid (lowerLayers : Nat) (references : ReferencesSyntax) : Prop where
  length_entries : references.entries.length = lowerLayers
  maxTid : ∀ entry ∈ references.entries,
    entry.maxTid.isSome = (references.maxTidPresent && entry.refers)

/-- The references of a layer are read to the layers that it refers to. -/
theorem decodes_readReferences {lowerLayers : Nat} {references : ReferencesSyntax}
    (h : references.Valid lowerLayers) :
    Decodes (readReferences lowerLayers) references.layout
      (references.entries.map (·.refers)) := by
  rw [readReferences, ← h.length_entries]
  refine (decodes_readBit _).cons (decodes_readTimes references.entries fun entry hmem => ?_)
  have hmaxTid : Decodes (skipIf (references.maxTidPresent && entry.refers) (skipNumber 3))
      (entry.maxTid.toList.flatMap fun own => [.number own.val 3]) () :=
    decodes_skipIf_option (h.maxTid entry hmem) fun own _ => decodes_skipNumber own.val 3
  exact (decodes_readBit _).cons (hmaxTid.bind_nil (decodes_pure _))

/-- The numbers of references fit their widths. -/
theorem fits_layout (references : ReferencesSyntax) : references.layout.Fits := by
  simp [layout, ReferenceSyntax.layout]

end ReferencesSyntax

/-- The description of a layer. -/
structure LayerSyntax where
  /-- `vps_layer_id`. -/
  id : Fin 64
  /-- `vps_independent_layer_flag`, set if it is not there. -/
  independent : Option Bool
  references : Option ReferencesSyntax

namespace LayerSyntax

/-- The written form. -/
def layout (layer : LayerSyntax) : Layout :=
  [.number layer.id 6]
    ++ layer.independent.toList.flatMap (fun own => [.flag own])
    ++ layer.references.toList.flatMap ReferencesSyntax.layout

/-- Whether the elements are those that a layer above the given number of lower layers has. -/
structure Valid (allIndependent : Bool) (lowerLayers : Nat) (layer : LayerSyntax) : Prop where
  independent : layer.independent.isSome = (lowerLayers != 0 && !allIndependent)
  references : layer.references.isSome = !layer.independent.getD true
  valid_references : ∀ own, layer.references = some own → own.Valid lowerLayers

/-- Which of the lower layers the layer refers to. -/
def refers (lowerLayers : Nat) (layer : LayerSyntax) : List Bool :=
  (layer.references.map fun own => own.entries.map (·.refers)).getD
    (List.replicate lowerLayers false)

/-- There is an entry for each lower layer, also where no references are stated. -/
theorem length_refers {allIndependent : Bool} {lowerLayers : Nat} {layer : LayerSyntax}
    (h : layer.Valid allIndependent lowerLayers) :
    (layer.refers lowerLayers).length = lowerLayers := by
  rw [refers]
  cases hreferences : layer.references with
  | none => simp
  | some own => simp [(h.valid_references own hreferences).length_entries]

/-- The description of a layer is read to the layers that it refers to. -/
theorem decodes_readLayer {allIndependent : Bool} {lowerLayers : Nat} {layer : LayerSyntax}
    (h : layer.Valid allIndependent lowerLayers) :
    Decodes (readLayer allIndependent lowerLayers) layer.layout (layer.refers lowerLayers) := by
  have hreferences : Decodes
      (readIf (!layer.independent.getD true) (readReferences lowerLayers)
        (List.replicate lowerLayers false))
      (layer.references.toList.flatMap ReferencesSyntax.layout) (layer.refers lowerLayers) :=
    decodes_readIf_option h.references fun own hown =>
      ReferencesSyntax.decodes_readReferences (h.valid_references own hown)
  simp only [layout, List.append_assoc]
  exact (decodes_skipNumber _ 6).bind ((decodes_readFlag h.independent).bind hreferences)

/-- The numbers of a layer fit their widths. -/
theorem fits_layout (layer : LayerSyntax) : layer.layout.Fits := by
  simp [layout, ReferencesSyntax.fits_layout]

end LayerSyntax

/-! ### Output layer sets -/

namespace OlsMode

/-- The written form of how output layer sets are formed, where there are several layers. -/
def layout (allIndependent : Bool) : OlsMode → Layout
  | .eachLayer => [.flag true]
  | .highestLayer => [.number 0 2]
  | .allLayers => [.number 1 2]
  | .listed sets =>
    (if allIndependent then [.flag false] else [.number 2 2])
      ++ .number (sets.length - 1) 8 :: sets.flatMap fun set => set.map .flag

/-- Whether output layer sets of this many layers can be formed in this way: each layer may be
a set of its own only if all are independent, and layers that all are have no other choice but
to list their sets. -/
def Valid (allIndependent : Bool) (layers : Nat) : OlsMode → Prop
  | .eachLayer => allIndependent = true
  | .highestLayer | .allLayers => allIndependent = false
  | .listed sets => 1 ≤ sets.length ∧ sets.length ≤ 256 ∧ ∀ set ∈ sets, set.length = layers

/-- Sets that are listed are read, a flag for each layer. -/
theorem decodes_readListedSets {layers : Nat} {sets : List (List Bool)} (h : 1 ≤ sets.length)
    (hlayers : ∀ set ∈ sets, set.length = layers) :
    Decodes (readListedSets layers)
      (.number (sets.length - 1) 8 :: sets.flatMap fun set => set.map .flag) sets := by
  have hsets := decodes_readTimes sets fun set hmem => by
    have hset := decodes_readTimes set fun output _ => decodes_readBit output
    rwa [hlayers set hmem, List.map_id', ← List.map_eq_flatMap] at hset
  have hcount : sets.length - 1 + 1 = sets.length := by omega
  rw [List.map_id', ← hcount] at hsets
  exact (decodes_readBits _ 8).cons hsets

/-- How output layer sets are formed is read in each mode. -/
theorem decodes_readOlsMode {allIndependent : Bool} {layers : Nat} {mode : OlsMode}
    (h : mode.Valid allIndependent layers) :
    Decodes (readOlsMode allIndependent layers) (mode.layout allIndependent) mode := by
  have hcode (code : Nat) (hle : code ≤ 2) :
      Decodes (readInRange "vps_ols_mode_idc" 0 2 (readBits 2)) [.number code 2] code :=
    decodes_readInRange (decodes_readBits code 2) (Nat.zero_le _) hle
  cases allIndependent with
  | true =>
    cases mode with
    | eachLayer => exact (decodes_readBit true).bind (decodes_pure _)
    | highestLayer => cases h
    | allLayers => cases h
    | listed sets =>
      obtain ⟨hpos, -, hlayers⟩ := h
      exact (decodes_readBit false).bind
        ((decodes_pure 2).bind ((decodes_readListedSets hpos hlayers).bind_nil (decodes_pure _)))
  | false =>
    refine (decodes_pure false).bind ?_
    cases mode with
    | eachLayer => cases h
    | highestLayer => exact (hcode 0 (by decide)).bind (decodes_pure _)
    | allLayers => exact (hcode 1 (by decide)).bind (decodes_pure _)
    | listed sets =>
      obtain ⟨hpos, -, hlayers⟩ := h
      exact (hcode 2 (by decide)).bind
        ((decodes_readListedSets hpos hlayers).bind_nil (decodes_pure _))

/-- The numbers of a valid mode fit their widths. -/
theorem fits_layout {allIndependent : Bool} {layers : Nat} {mode : OlsMode}
    (h : mode.Valid allIndependent layers) : (mode.layout allIndependent).Fits := by
  cases mode with
  | eachLayer => simp [layout]
  | highestLayer => simp [layout]
  | allLayers => simp [layout]
  | listed sets =>
    obtain ⟨-, hle, -⟩ := h
    have hcount : (Item.number (sets.length - 1) 8).Fits := by
      show sets.length - 1 < 256
      omega
    cases allIndependent <;> simp [layout, hcount]

end OlsMode

/-! ### Profile, tier and level structures -/

namespace PtlSyntax

/-- The written form of how a structure is coded: whether it states profile and tier, unless it
is the first, and the highest sublayer that it covers, unless all structures cover the same. -/
def codingLayout (defaultMaxTid : Bool) (index : Nat) (ptl : PtlSyntax) : Layout :=
  (if index = 0 then [] else [.flag ptl.profileTier.isSome])
    ++ (if defaultMaxTid then [] else [.number ptl.sublayerLevels.length 3])

/-- Whether a structure can have the given place in the list. -/
structure ValidAt (defaultMaxTid : Bool) (maxSublayersMinus1 index : Nat) (ptl : PtlSyntax) :
    Prop where
  isSome_profileTier : index = 0 → ptl.profileTier.isSome = true
  length_sublayerLevels_le : ptl.sublayerLevels.length ≤ maxSublayersMinus1
  length_sublayerLevels : defaultMaxTid = true → ptl.sublayerLevels.length = maxSublayersMinus1

/-- The number of sublayers that a structure covers fits its width. -/
theorem fits_codingLayout (defaultMaxTid : Bool) (index : Nat) (ptl : PtlSyntax) :
    (ptl.codingLayout defaultMaxTid index).Fits := by
  have hcovered : (Item.number ptl.sublayerLevels.length 3).Fits :=
    Nat.lt_trans ptl.sublayerLevels_length_lt (by decide)
  rw [codingLayout]
  split <;> split <;> simp [hcovered]

/-- How a structure is coded. -/
def coding (ptl : PtlSyntax) : PtlCoding :=
  ⟨ptl.profileTier.isSome, ptl.sublayerLevels.length⟩

/-- How a structure is coded is read, with what is not stated inferred. -/
theorem decodes_readPtlCoding {defaultMaxTid : Bool} {maxSublayersMinus1 index : Nat}
    {ptl : PtlSyntax} (h : ptl.ValidAt defaultMaxTid maxSublayersMinus1 index) :
    Decodes (readPtlCoding defaultMaxTid maxSublayersMinus1 index)
      (ptl.codingLayout defaultMaxTid index) ptl.coding := by
  have hpresent : Decodes (readIf (index != 0) readBit true)
      (if index = 0 then [] else [.flag ptl.profileTier.isSome]) ptl.profileTier.isSome := by
    refine decodes_readIf (fun hlater => ?_) fun hfirst => ?_
    · rw [if_neg (by simpa using hlater)]
      exact decodes_readBit _
    · have hzero : index = 0 := by simpa using hfirst
      exact ⟨if_pos hzero, h.isSome_profileTier hzero⟩
  have hmaxTid : Decodes
      (readIf (!defaultMaxTid)
        (readInRange "vps_ptl_max_tids[i]" 0 maxSublayersMinus1 (readBits 3)) maxSublayersMinus1)
      (if defaultMaxTid then [] else [.number ptl.sublayerLevels.length 3])
      ptl.sublayerLevels.length := by
    refine decodes_readIf (fun hstated => ?_) fun hdefault => ?_
    · rw [if_neg (by simpa using hstated)]
      exact decodes_readInRange (decodes_readBits _ 3) (Nat.zero_le _) h.length_sublayerLevels_le
    · have hall : defaultMaxTid = true := by simpa using hdefault
      exact ⟨if_pos hall, h.length_sublayerLevels hall⟩
  exact hpresent.bind (hmaxTid.bind_nil (decodes_pure _))

/-- What is left of several structures after reading: one that does not state profile and tier
has those of the one before it, the first those given. -/
def values (profileTier : Option ProfileTierSyntax) : List PtlSyntax → List ProfileTierLevel
  | [] => []
  | ptl :: ptls =>
    ptl.valueWith (ptl.profileTier.or profileTier) :: values (ptl.profileTier.or profileTier) ptls

/-- Profile and tier are handed on from one structure to the next. -/
theorem decodes_readPtls {previous : Option ProfileTierLevel}
    {profileTier : Option ProfileTierSyntax}
    (h : previous = none ∧ profileTier = none ∨
      ∃ last : PtlSyntax, previous = some (last.valueWith profileTier)) (ptls : List PtlSyntax) :
    Decodes (readPtls previous (ptls.map coding)) (ptls.flatMap layout)
      (values profileTier ptls) := by
  induction ptls generalizing previous profileTier with
  | nil => exact decodes_pure []
  | cons ptl ptls ih =>
    obtain ⟨rfl, rfl⟩ | ⟨last, rfl⟩ := h
    · rw [values, Option.or_none]
      exact ptl.decodes_read.bind ((ih (.inr ⟨ptl, rfl⟩)).bind_nil (decodes_pure _))
    · have hinherit :
          (if ptl.coding.profilePresent then ptl.value
            else ptl.value.inherit (last.valueWith profileTier)) =
          ptl.valueWith (ptl.profileTier.or profileTier) := by
        rw [value, coding]
        cases ptl.profileTier <;> rfl
      refine ptl.decodes_read.bind ?_
      simp only [hinherit]
      exact (ih (.inr ⟨ptl, rfl⟩)).bind_nil (decodes_pure _)

end PtlSyntax

/-! ### Video parameter sets -/

/-- A video parameter set. -/
structure VpsSyntax where
  /-- `vps_video_parameter_set_id`. -/
  id : Fin 16
  /-- `vps_max_sublayers_minus1`. -/
  maxSublayersMinus1 : Fin 7
  /-- `vps_default_ptl_dpb_hrd_max_tid_flag`, set if it is not there. -/
  defaultMaxTid : Option Bool
  /-- `vps_all_independent_layers_flag`, set if it is not there. -/
  independentLayers : Option Bool
  /-- The layers, the lowest first. -/
  layers : List LayerSyntax
  /-- How output layer sets are formed; a single layer is a set of its own. -/
  olsMode : Option OlsMode
  ptls : List PtlSyntax
  /-- `vps_ols_ptl_idx` of each output layer set. -/
  olsPtls : Option (List (Fin 256))
  olsParameters : Option OlsParametersSyntax

namespace VpsSyntax

/-- Whether there are several layers. -/
def severalLayers (tree : VpsSyntax) : Bool :=
  tree.layers.length - 1 != 0

/-- Whether all structures cover all temporal sublayers. -/
def coversAll (tree : VpsSyntax) : Bool :=
  tree.defaultMaxTid.getD true

/-- Whether no layer refers to another. -/
def allIndependent (tree : VpsSyntax) : Bool :=
  tree.independentLayers.getD true

/-- How output layer sets are formed, also where that is not stated. -/
def mode (tree : VpsSyntax) : OlsMode :=
  tree.olsMode.getD .eachLayer

/-- Which of the lower layers each layer refers to. -/
def references (tree : VpsSyntax) : List (List Bool) :=
  tree.layers.mapIdx LayerSyntax.refers

/-- The number of layers of each output layer set. -/
noncomputable def layerCounts (tree : VpsSyntax) : List Nat :=
  (OutputLayerSets.layerSets tree.layers.length tree.references tree.mode).map Set.ncard

/-- The number of output layer sets. -/
noncomputable def olsCount (tree : VpsSyntax) : Nat :=
  tree.layerCounts.length

/-- The number of output layer sets with several layers. -/
noncomputable def multiLayerOlsCount (tree : VpsSyntax) : Nat :=
  tree.layerCounts.countP (1 < ·)

/-- The written form. -/
def layout (tree : VpsSyntax) : Layout :=
  [.number tree.id 4, .number (tree.layers.length - 1) 6, .number tree.maxSublayersMinus1 3]
    ++ tree.defaultMaxTid.toList.flatMap (fun own => [.flag own])
    ++ tree.independentLayers.toList.flatMap (fun own => [.flag own])
    ++ tree.layers.flatMap LayerSyntax.layout
    ++ tree.olsMode.toList.flatMap (OlsMode.layout tree.allIndependent)
    ++ (if tree.severalLayers then [.number (tree.ptls.length - 1) 8] else [])
    ++ (tree.ptls.mapIdx fun i ptl => ptl.codingLayout tree.coversAll i).flatten
    ++ [.align]
    ++ tree.ptls.flatMap PtlSyntax.layout
    ++ tree.olsPtls.toList.flatMap (fun own => own.flatMap fun index => [.number index.val 8])
    ++ tree.olsParameters.toList.flatMap OlsParametersSyntax.layout

/-- Whether just those elements are there that the elements before them call for. -/
structure Valid (tree : VpsSyntax) : Prop where
  defaultMaxTid :
    tree.defaultMaxTid.isSome = (tree.severalLayers && tree.maxSublayersMinus1.val != 0)
  independentLayers : tree.independentLayers.isSome = tree.severalLayers
  one_le_length_layers : 1 ≤ tree.layers.length
  length_layers_le : tree.layers.length ≤ 64
  layers : ∀ i (layer : LayerSyntax), tree.layers[i]? = some layer →
    layer.Valid tree.allIndependent i
  olsMode : tree.olsMode.isSome = tree.severalLayers
  valid_olsMode : ∀ own, tree.olsMode = some own →
    own.Valid tree.allIndependent tree.layers.length
  one_le_length_ptls : 1 ≤ tree.ptls.length
  length_ptls_le : tree.ptls.length ≤ 256
  length_ptls : tree.severalLayers = false → tree.ptls.length = 1
  ptls : ∀ i (ptl : PtlSyntax), tree.ptls[i]? = some ptl →
    ptl.ValidAt tree.coversAll tree.maxSublayersMinus1 i
  olsPtls : tree.olsPtls.isSome = (tree.ptls.length != 1 && tree.ptls.length != tree.olsCount)
  length_olsPtls : ∀ own, tree.olsPtls = some own → own.length = tree.olsCount
  olsParameters : tree.olsParameters.isSome = (tree.mode != .eachLayer)
  valid_olsParameters : ∀ own, tree.olsParameters = some own →
    own.Valid tree.coversAll tree.maxSublayersMinus1 tree.olsCount tree.multiLayerOlsCount

/-- What is left of the parameter set after reading. -/
noncomputable def value (tree : VpsSyntax) (header : NalUnitHeader) : VideoParameterSet where
  header := header
  id := tree.id
  maxLayersMinus1 := tree.layers.length - 1
  maxSublayersMinus1 := tree.maxSublayersMinus1
  defaultMaxTid := tree.coversAll
  independentLayers := tree.allIndependent
  olsMode := tree.mode
  olsCount := tree.olsCount
  multiLayerOlsCount := tree.multiLayerOlsCount
  profileTierLevels := PtlSyntax.values none tree.ptls
  maxTids := tree.ptls.map (·.sublayerLevels.length)
  timingPresent := (tree.olsParameters.map (·.timing.isSome)).getD false

/-- Layers of a valid tree refer to lower layers only, as there are no other entries. -/
theorem isStrictlyLower_references {tree : VpsSyntax} (h : tree.Valid) :
    OutputLayerSets.IsStrictlyLower tree.references := by
  intro i j hrefers
  have hentry : j < (tree.references.getD i []).length :=
    OutputLayerSets.lt_length_of_getD hrefers
  rw [references, List.getD_eq_getElem?_getD, List.getElem?_mapIdx] at hentry
  cases hlayer : tree.layers[i]? with
  | none => simp [hlayer] at hentry
  | some layer => simpa [hlayer, LayerSyntax.length_refers (h.layers i layer hlayer)] using hentry

/-- The reader counts for each output layer set the layers that it has. -/
theorem layerCounts_eq {tree : VpsSyntax} (h : tree.Valid) :
    OutputLayerSets.layerCounts tree.layers.length tree.references tree.mode = tree.layerCounts :=
  OutputLayerSets.layerCounts_eq_map_ncard (isStrictlyLower_references h) _ _

/-- The layers are read to their references. -/
theorem decodes_readLayers {tree : VpsSyntax} (h : tree.Valid) :
    Decodes (readLayers tree.allIndependent tree.layers.length)
      (tree.layers.flatMap LayerSyntax.layout) tree.references := by
  have hlayers := decodes_mapM_range tree.layers fun i layer hlayer =>
    LayerSyntax.decodes_readLayer (h.layers i layer hlayer)
  rwa [mapIdx_const, ← List.flatMap_def] at hlayers

/-- How output layer sets are formed. -/
theorem decodes_readMode {tree : VpsSyntax} (h : tree.Valid) :
    Decodes
      (readIf tree.severalLayers (readOlsMode tree.allIndependent tree.layers.length) .eachLayer)
      (tree.olsMode.toList.flatMap (OlsMode.layout tree.allIndependent)) tree.mode :=
  decodes_readIf_getD h.olsMode fun own hown =>
    OlsMode.decodes_readOlsMode (h.valid_olsMode own hown)

/-- One less than the number of profile, tier and level structures. -/
theorem decodes_readPtlCount {tree : VpsSyntax} (h : tree.Valid) :
    Decodes (readIf tree.severalLayers (readBits 8) 0)
      (if tree.severalLayers then [.number (tree.ptls.length - 1) 8] else [])
      (tree.ptls.length - 1) := by
  refine decodes_readIf (fun hseveral => ?_) fun hsingle => ?_
  · rw [if_pos hseveral]
    exact decodes_readBits _ 8
  · rw [hsingle, h.length_ptls hsingle]
    exact ⟨rfl, rfl⟩

/-- The structures that the output layer sets use. -/
theorem decodes_skipOlsPtls {tree : VpsSyntax} (h : tree.Valid) :
    Decodes (skipOlsPtls tree.ptls.length tree.olsCount)
      (tree.olsPtls.toList.flatMap fun own => own.flatMap fun index => [.number index.val 8])
      () :=
  decodes_skipIf_option h.olsPtls fun own hown => by
    rw [← h.length_olsPtls own hown]
    exact decodes_skipTimes own fun index _ => decodes_skipNumber index.val 8

/-- The parameters of output layer sets, which are there unless each layer is a set of its
own. -/
theorem decodes_readParameters {tree : VpsSyntax} (h : tree.Valid) :
    Decodes
      (readIf (tree.mode != .eachLayer)
        (readOlsParameters tree.coversAll tree.maxSublayersMinus1 tree.olsCount
          tree.multiLayerOlsCount) false)
      (tree.olsParameters.toList.flatMap OlsParametersSyntax.layout)
      ((tree.olsParameters.map (·.timing.isSome)).getD false) :=
  decodes_readIf_option h.olsParameters fun own hown =>
    OlsParametersSyntax.decodes_readOlsParameters (h.valid_olsParameters own hown)

/-- The written form of a valid tree is decoded to its value. -/
theorem decodes_readPayload {tree : VpsSyntax} (h : tree.Valid) (header : NalUnitHeader) :
    Decodes (readPayload header) tree.layout (tree.value header) := by
  have hlayersCount : tree.layers.length - 1 + 1 = tree.layers.length := by
    have := h.one_le_length_layers
    omega
  have hptlsCount : tree.ptls.length - 1 + 1 = tree.ptls.length := by
    have := h.one_le_length_ptls
    omega
  have hmaxSublayers : Decodes (readInRange "vps_max_sublayers_minus1" 0 6 (readBits 3))
      [.number tree.maxSublayersMinus1 3] tree.maxSublayersMinus1.val :=
    decodes_readInRange_fin (decodes_readBits _ 3)
  have hcodings := decodes_mapM_range tree.ptls fun i ptl hptl =>
    PtlSyntax.decodes_readPtlCoding (h.ptls i ptl hptl)
  have hptls := PtlSyntax.decodes_readPtls (.inl ⟨rfl, rfl⟩) tree.ptls
  have hlayers := decodes_readLayers h
  have hmode := decodes_readMode h
  rw [← hlayersCount] at hlayers hmode
  simp only [layout, List.append_assoc, List.cons_append, List.nil_append]
  refine (decodes_readBits _ 4).cons ((decodes_readBits _ 6).cons (hmaxSublayers.cons
    ((decodes_readFlag h.defaultMaxTid).bind ((decodes_readFlag h.independentLayers).bind
    (hlayers.bind (hmode.bind ((decodes_readPtlCount h).bind ?_)))))))
  simp only [hlayersCount, hptlsCount, layerCounts_eq h]
  refine hcodings.bind (decodes_align.cons ?_)
  rw [mapIdx_const]
  refine hptls.bind ((decodes_skipOlsPtls h).bind ((decodes_readParameters h).bind_nil ?_))
  rw [List.map_map]
  exact decodes_pure _

/-! ### From the tree to a NAL unit and back -/

/-- There are no more output layer sets than a list can have, and one. -/
theorem length_layerCounts_le {tree : VpsSyntax} (h : tree.Valid) : tree.olsCount ≤ 257 := by
  have hlayers := h.length_layers_le
  rw [olsCount, layerCounts]
  cases hmode : tree.mode with
  | eachLayer | highestLayer | allLayers =>
    simp [OutputLayerSets.layerSets]
    omega
  | listed sets =>
    cases hown : tree.olsMode with
    | none =>
      rw [mode, hown] at hmode
      cases hmode
    | some own =>
      rw [mode, hown] at hmode
      cases hmode
      obtain ⟨-, hle, -⟩ := h.valid_olsMode _ hown
      simp [OutputLayerSets.layerSets]
      omega

/-- The numbers of a valid tree fit their widths, as there are not too many output layer sets. -/
theorem fits_layout {tree : VpsSyntax} (h : tree.Valid) : tree.layout.Fits := by
  have holsCount := length_layerCounts_le h
  have hmulti : tree.multiLayerOlsCount ≤ tree.olsCount := List.countP_le_length
  have hlayers : (Item.number (tree.layers.length - 1) 6).Fits := by
    have hle := h.length_layers_le
    show tree.layers.length - 1 < 64
    omega
  have hmaxSublayers : (Item.number tree.maxSublayersMinus1 3).Fits :=
    Nat.lt_trans tree.maxSublayersMinus1.isLt (by decide)
  have hptlCount : Layout.Fits
      (if tree.severalLayers then [.number (tree.ptls.length - 1) 8] else []) := by
    have hcount : (Item.number (tree.ptls.length - 1) 8).Fits := by
      have hle := h.length_ptls_le
      show tree.ptls.length - 1 < 256
      omega
    split <;> simp [hcount]
  have hmode (own : OlsMode) (hown : tree.olsMode = some own) :
      (own.layout tree.allIndependent).Fits :=
    OlsMode.fits_layout (h.valid_olsMode own hown)
  have hcodings : Layout.Fits
      (tree.ptls.mapIdx fun i ptl => ptl.codingLayout tree.coversAll i).flatten := by
    rw [Layout.fits_flatten]
    intro layout hlayout
    obtain ⟨i, hi, rfl⟩ := List.mem_mapIdx.1 hlayout
    exact PtlSyntax.fits_codingLayout _ _ _
  have hparameters (own : OlsParametersSyntax) (hown : tree.olsParameters = some own) :
      own.layout.Fits :=
    OlsParametersSyntax.fits_layout (h.valid_olsParameters own hown) (by omega) hmulti
  simp [layout, hlayers, hmaxSublayers, hptlCount, hcodings, LayerSyntax.fits_layout,
    PtlSyntax.fits_layout]
  exact ⟨hmode, hparameters⟩

/-- **Reading against the syntax**: put the written form of a valid tree and any bits after it
into a NAL unit, with a valid header for a video parameter set and emulation prevention bytes.
The NAL unit is read to the value of the tree. Of the payload just the bits of the tree are
read, and the bytes left over are those that hold none of them. -/
theorem exists_parse_video {tree : VpsSyntax} (htree : tree.Valid) {header : NalUnitHeader}
    (hheader : header.Valid) (htype : header.type = .videoParameterSet) (reserved : Bool)
    (following : Bits) :
    ∃ payload reader,
      BitWriter.encodeEscaped (tree.layout ++ following.map .flag) = .ok payload ∧
        readPayload header (.ofEscaped payload) = .ok (tree.value header, reader) ∧
        reader.position = tree.layout.bits.length ∧
        reader.source =
          ((ByteSource.ofEscaped payload).take ((tree.layout.bits.length + 7) / 8)).2 ∧
        parse (header.bytes reserved ++ payload) = .ok (tree.value header, reader.unread) :=
  (decodes_readPayload htree header).run_parameterSet .video (fits_layout htree) hheader htype
    reserved following

/-- Three layers, each referring to the one below, with the buffers and the timing of the output
layer set of the highest, which has all three although the highest refers to one of the others
only; the extension flag and the stop bit follow. -/
theorem exists_parse_video_dependent_layer :
    let tree : VpsSyntax :=
      { id := 1
        maxSublayersMinus1 := 1
        defaultMaxTid := some false
        independentLayers := some false
        layers := [⟨0, none, none⟩, ⟨1, some false, some ⟨true, [⟨true, some 2⟩]⟩⟩,
          ⟨2, some false, some ⟨false, [⟨false, none⟩, ⟨true, none⟩]⟩⟩]
        olsMode := some (.listed [[false, false, true]])
        ptls := [⟨some ⟨1, false, none, [], by decide⟩, 60, true, false, [some 32], by decide⟩,
          ⟨none, 83, true, true, [], by decide⟩]
        olsPtls := none
        olsParameters := some
          { buffers := ⟨some true, [⟨some 1, [⟨4, 2, 0⟩, ⟨5, 3, 0⟩]⟩], [⟨1920, 1080, 1, 2, none⟩]⟩
            timing := some
              { general := ⟨1, 60, true, false, some ⟨true, none, 4, 6, 0⟩, rfl⟩
                allSublayers := some false
                timings := [⟨some 1, [⟨false, some false, none, some true,
                  some [⟨1499, 2999, none, false⟩], none⟩]⟩]
                indices := none } } }
    let header : NalUnitHeader := ⟨0, .videoParameterSet, 1⟩
    tree.layerCounts = [1, 3] ∧ tree.Valid ∧ header.Valid ∧ ∃ payload reader,
      BitWriter.encodeEscaped (tree.layout ++ [.flag false, .flag true]) = .ok payload ∧
        readPayload header (.ofEscaped payload) = .ok (tree.value header, reader) ∧
        reader.position = tree.layout.bits.length ∧
        reader.source =
          ((ByteSource.ofEscaped payload).take ((tree.layout.bits.length + 7) / 8)).2 ∧
        parse (header.bytes false ++ payload) = .ok (tree.value header, reader.unread) := by
  intro tree header
  have hcounts : tree.layerCounts = [1, 3] := by
    have hlower : OutputLayerSets.IsStrictlyLower tree.references := by decide
    rw [layerCounts, ← OutputLayerSets.layerCounts_eq_map_ncard hlower]
    decide
  have holsCount : tree.olsCount = 2 := congrArg List.length hcounts
  have hmulti : tree.multiLayerOlsCount = 1 := by
    rw [multiLayerOlsCount, hcounts]
    rfl
  have hlayers : ∀ i (layer : LayerSyntax), tree.layers[i]? = some layer →
      layer.Valid false i := by
    intro i layer hlayer
    rcases i with _ | _ | _ | i
    · cases hlayer
      exact ⟨rfl, rfl, by simp⟩
    · cases hlayer
      refine ⟨rfl, rfl, fun own hown => ?_⟩
      cases hown
      exact ⟨rfl, by decide⟩
    · cases hlayer
      refine ⟨rfl, rfl, fun own hown => ?_⟩
      cases hown
      exact ⟨rfl, by decide⟩
    · cases hlayer
  have holsMode : ∀ own, tree.olsMode = some own → own.Valid false 3 := by
    rintro own ⟨⟩
    exact ⟨by decide, by decide, by decide⟩
  have hptls : ∀ i (ptl : PtlSyntax), tree.ptls[i]? = some ptl → ptl.ValidAt false 1 i := by
    intro i ptl hptl
    rcases i with _ | _ | i
    · cases hptl
      exact ⟨fun _ => rfl, by decide, by decide⟩
    · cases hptl
      exact ⟨by decide, by decide, by decide⟩
    · cases hptl
  have hbuffers : ∀ own, tree.olsParameters = some own →
      own.buffers.Valid false 1 tree.olsCount tree.multiLayerOlsCount := by
    rw [holsCount, hmulti]
    rintro own ⟨⟩
    refine ⟨rfl, by decide, by decide, fun dpb hdpb => ?_, rfl, by decide⟩
    cases List.mem_singleton.1 hdpb
    exact ⟨rfl, rfl⟩
  have htiming : ∀ own, tree.olsParameters = some own →
      ∀ timing, own.timing = some timing → timing.Valid false 1 tree.multiLayerOlsCount := by
    rw [hmulti]
    rintro own ⟨⟩ timing ⟨⟩
    refine ⟨rfl, by decide, by decide, fun own hown => ?_, rfl, by simp⟩
    cases List.mem_singleton.1 hown
    refine ⟨rfl, rfl, fun sublayer hsublayer => ?_⟩
    cases List.mem_singleton.1 hsublayer
    exact ⟨rfl, rfl, rfl, ⟨rfl, by decide⟩, ⟨rfl, by decide⟩⟩
  have htree : tree.Valid :=
    { defaultMaxTid := rfl
      independentLayers := rfl
      one_le_length_layers := by decide
      length_layers_le := by decide
      layers := hlayers
      olsMode := rfl
      valid_olsMode := holsMode
      one_le_length_ptls := by decide
      length_ptls_le := by decide
      length_ptls := by decide
      ptls := hptls
      olsPtls := by decide
      length_olsPtls := by simp [tree]
      olsParameters := by decide
      valid_olsParameters := fun own hown => ⟨hbuffers own hown, htiming own hown⟩ }
  have hheader : header.Valid := ⟨by decide, by decide, by decide⟩
  exact ⟨hcounts, htree, hheader, exists_parse_video htree hheader rfl false [false, true]⟩

end VpsSyntax

end H266
