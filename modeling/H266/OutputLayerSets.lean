import H266.Bits

/-!
# Output Layer Sets

An output layer set (OLS) is a set of layers that is decoded together: the layers that are
output, and all layers that they refer to, directly or through others. A video parameter set
says how its output layer sets are formed; here the number of layers in each is derived.

Layers are numbered from the lowest, and a layer refers to lower layers only. References are
given by a table with a row for each layer, in which entry `j` says whether the layer refers
to layer `j`; rows end before the layer itself.
-/

namespace H266

/-- How the output layer sets of a video parameter set are formed. -/
inductive OlsMode
  /-- Each layer is an output layer set of its own. -/
  | eachLayer
  /-- Mode 0: set `i` has the layers up to layer `i`, of which the highest is output. -/
  | highestLayer
  /-- Mode 1: set `i` has the layers up to layer `i`, and all of them are output. -/
  | allLayers
  /-- Mode 2: the lowest layer is a set, and each row is the set of the layers that are
  marked in it. -/
  | listed (outputs : List (List Bool))
  deriving DecidableEq, Repr

namespace OlsMode

/-- `vps_ols_mode_idc`, which is taken to be 2 where each layer is a set of its own. -/
def code : OlsMode → Nat
  | highestLayer => 0
  | allLayers => 1
  | listed _ | eachLayer => 2

end OlsMode

namespace OutputLayerSets

/-- Whether column `j` is marked in the row of a marked layer. -/
def marksThrough (marked : List Bool) (rows : List (List Bool)) (j : Nat) : Bool :=
  (marked.zip rows).any fun (mark, row) => mark && row.getD j false

/-- The layers that a layer reaches through references, given its own references and the
layers that the lower layers reach. -/
def reachRow (lower : List (List Bool)) (references : List Bool) : List Bool :=
  (List.range references.length).map fun j =>
    references.getD j false || marksThrough references lower j

/-- For each layer the layers that it reaches through references, the lower layers first. -/
def reachTable (references : List (List Bool)) : List (List Bool) :=
  references.foldl (fun lower row => lower ++ [reachRow lower row]) []

/-- How many layers are output or reached from a layer that is output. -/
def layerCount (reach : List (List Bool)) (outputs : List Bool) : Nat :=
  (List.range outputs.length).countP fun j =>
    outputs.getD j false || marksThrough outputs reach j

/-- The number of layers of each output layer set. -/
def layerCounts (layers : Nat) (references : List (List Bool)) : OlsMode → List Nat
  | .eachLayer => List.replicate layers 1
  | .highestLayer | .allLayers => List.range' 1 layers
  | .listed outputs => 1 :: outputs.map (layerCount (reachTable references))

end OutputLayerSets

end H266
