import KVServe.Runtime.Memory
import Mathlib.Data.List.Sort
import Mathlib.Data.Rat.Floor
import KVServe.Lib.Quantization

/-!
# KVServe.Runtime.Scores

`build_head_selection`: the heads of all layers with the smallest scores are stored with
low precision, and every layer of a tensor-parallel rank lists its low-precision heads
first. The function exists twice; the copy of the Mooncake connector (`Mooncake`) keeps the
mask of the layer before when the width of the scores fits no case.
-/

namespace KVServe.Runtime

/-! ### Scores -/

/-- A finite score matrix; `at` numbers its entries by rows. -/
structure Scores (F : Type) where
  rows : Nat
  cols : Nat
  entry : Nat → F

/-- `hybrid_ratio`, by the double that `n * hybrid_ratio` is; `from_extra_config` admits
ratios between zero and one. -/
structure HybridRatio where
  times : Nat → ℚ
  nonneg : ∀ n, 0 ≤ times n
  le : ∀ n, times n ≤ n

/-- A ratio whose products are exact. -/
def HybridRatio.exact (ratio : ℚ) (h0 : 0 ≤ ratio) (h1 : ratio ≤ 1) : HybridRatio where
  times n := n * ratio
  nonneg n := mul_nonneg n.cast_nonneg h0
  le n := mul_le_of_le_one_right n.cast_nonneg h1

/-- `round(x)`. -/
def pyRound (x : ℚ) : Int := roundHalfEven x

/-- `np.argsort(key, kind="stable")` of `n` keys. -/
def argsortStable {F : Type} [LinearOrder F] (key : Nat → F) (n : Nat) : List Nat :=
  (List.range n).insertionSort fun i j => key i < key j ∨ (key i = key j ∧ i ≤ j)

/-! ### The selection -/

/-- What the two functions raise: the two `ValueError`s, an index out of bounds, and a local
variable read before it is set. -/
inductive SelectionError
  | noRow (layerIndex : Nat)
  | width (scoreHeads localHeads tpSize : Nat)
  | indexError
  | unboundLocal
  deriving DecidableEq, Repr

namespace SelectionError

def isValueError : SelectionError → Bool
  | .noRow _ | .width _ _ _ => true
  | .indexError | .unboundLocal => false

end SelectionError

section Selection

variable {F : Type} [LinearOrder F] (scores : Scores F) (ratio : HybridRatio)
  (layers : List (Nat × Nat)) (tpRank tpSize : Nat)

/-- `candidate_array`: the entries of the rows of the layers. -/
def candidateOffsets : List Nat :=
  layers.flatMap fun layer => (List.range scores.cols).map (layer.1 * scores.cols + ·)

/-- `low_count`. -/
def lowCount : Nat := (pyRound (ratio.times (candidateOffsets scores layers).length)).toNat

/-- `candidate_array[selected]`. -/
def lowOffsets : List Nat :=
  let candidates := candidateOffsets scores layers
  ((argsortStable (fun i => scores.entry (candidates.getD i 0)) candidates.length).take
    (lowCount scores ratio layers)).map (candidates.getD · 0)

/-- `mask[layer_index, start : start + local_heads]`. -/
def localMask (layerIndex start localHeads : Nat) : List Bool :=
  (((List.range scores.cols).drop start).take localHeads).map fun head =>
    decide (layerIndex * scores.cols + head ∈ lowOffsets scores ratio layers)

/-- `np.flatnonzero(local_mask)`. -/
def lowHeads (mask : List Bool) : List Nat := (List.range mask.length).filter (mask.getD · false)

/-- `np.flatnonzero(~local_mask)`. -/
def highHeads (mask : List Bool) : List Nat :=
  (List.range mask.length).filter fun head => !mask.getD head false

/-- `local_orders[layer_index]`. -/
def localOrder (mask : List Bool) : List Nat := lowHeads mask ++ highHeads mask

/-- The selection with a mask for each layer. -/
def selectionOf (masks : List (Nat × List Bool)) : HeadSelection where
  lowCounts := masks.map fun e => (e.1, (lowHeads e.2).length)
  localOrders := masks.map fun e => (e.1, localOrder e.2)

/-- The selection of `split_type` layer. -/
def layerSelection : HeadSelection where
  lowCounts := layers.map fun layer => (layer.1, 0)
  localOrders := layers.map fun layer => (layer.1, List.range layer.2)

/-- The first score column of the heads of a rank. -/
def headStart (scoreHeads localHeads tpRank tpSize : Nat) : Option Nat :=
  if scoreHeads = localHeads then some 0
  else if scoreHeads = localHeads * tpSize then some (tpRank * localHeads)
  else if localHeads = 1 ∧ 0 < scoreHeads ∧ scoreHeads < tpSize ∧ tpSize % scoreHeads = 0 then
    some (tpRank / (tpSize / scoreHeads))
  else none

/-- The check in the loop over the layers that collects the candidates. -/
def checkRows : List (Nat × Nat) → Except SelectionError Unit
  | [] => .ok ()
  | layer :: rest =>
      if layer.1 < scores.rows then checkRows rest else .error (.noRow layer.1)

/-- The mask of a layer. -/
def layerMask (layer : Nat × Nat) : Except SelectionError (Nat × List Bool) :=
  match headStart scores.cols layer.2 tpRank tpSize with
  | some start => .ok (layer.1, localMask scores ratio layers layer.1 start layer.2)
  | none => .error (.width scores.cols layer.2 tpSize)

/-- `build_head_selection` of `kvserve_v1`, for the layer index and the number of local heads
of each spec. -/
def buildHeadSelection (splitType : SplitType) : Except SelectionError HeadSelection :=
  match splitType with
  | .layer => .ok (layerSelection layers)
  | .head => do
      checkRows scores layers
      let masks ← layers.mapM (layerMask scores ratio layers tpRank tpSize)
      return selectionOf masks

end Selection

/-! ### The copy of the Mooncake connector -/

namespace Mooncake

section Selection

variable {F : Type} [LinearOrder F] (scores : Scores F) (ratio : HybridRatio)
  (layers : List (Nat × Nat)) (tpRank tpSize : Nat)

/-- The mask of a layer; `previous` is what the variable `local_mask` holds before. -/
def layerMask (previous : Option (List Bool)) (layer : Nat × Nat) :
    Except SelectionError (List Bool) :=
  if scores.cols = layer.2 then
    if layer.1 < scores.rows then .ok (localMask scores ratio layers layer.1 0 layer.2)
    else .error .indexError
  else if scores.cols = layer.2 * tpSize then
    if layer.1 < scores.rows then
      .ok (localMask scores ratio layers layer.1 (tpRank * layer.2) layer.2)
    else .error .indexError
  else
    match previous with
    | some mask => .ok mask
    | none => .error .unboundLocal

/-- The loop over the layers. -/
def layerMasks : Option (List Bool) → List (Nat × Nat) →
    Except SelectionError (List (Nat × List Bool))
  | _, [] => .ok []
  | previous, layer :: rest => do
      let mask ← layerMask scores ratio layers tpRank tpSize previous layer
      let masks ← layerMasks (some mask) rest
      return (layer.1, mask) :: masks

/-- `build_head_selection` of the Mooncake connector, for its `fa_specs`. -/
def buildHeadSelection (splitType : SplitType) : Except SelectionError HeadSelection :=
  match splitType with
  | .layer => .ok (layerSelection layers)
  | .head =>
      -- `flat_scores[candidate_array]` is only read where heads are to be selected
      if lowCount scores ratio layers ≠ 0 ∧
          (candidateOffsets scores layers).any (scores.rows * scores.cols ≤ ·) then
        .error .indexError
      else do
        let masks ← layerMasks scores ratio layers tpRank tpSize none layers
        return selectionOf masks

end Selection

end Mooncake

end KVServe.Runtime
