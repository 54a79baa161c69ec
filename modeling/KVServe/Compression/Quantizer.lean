import KVServe.Lib.Strided
import KVServe.Runtime.Scores

/-!
# KVServe.Compression.Quantizer

`KVServeQuantizer` in exact arithmetic: the heads of the keys and of the values are split
into those of low and those of high precision, each section is quantized on its own, and
the sections are stored one after the other along the heads.
-/

namespace KVServe.Compression

open KVServe.Runtime (QuantAxis SplitType lowHeads highHeads)

/-! ### Tensors -/

/-- A tensor `[num_blocks, block_size, num_heads, head_size]`. -/
structure Grid (α : Type) where
  shape : Index
  entry : Index → α

/-- `torch.zeros(0)`, or a tensor of four dimensions. -/
inductive Piece (α : Type)
  | empty
  | grid (t : Grid α)

/-- A tensor of five dimensions, by its entries along the first. -/
structure Stacked (α : Type) where
  count : Nat
  shape : Index
  entry : Nat → Index → α

namespace Grid

variable {α β : Type}

def map (f : α → β) (t : Grid α) : Grid β := ⟨t.shape, fun x => f (t.entry x)⟩

/-- The entry that is broadcast to a position. -/
def bcast (t : Grid α) (x : Index) : α :=
  let at0 := fun size i => if size = 1 then 0 else i
  t.entry (at0 t.shape.1 x.1, at0 t.shape.2.1 x.2.1, at0 t.shape.2.2.1 x.2.2.1,
    at0 t.shape.2.2.2 x.2.2.2)

/-- `t[:, :, idx, :]`. -/
def selectHeads (t : Grid α) (idx : List Nat) : Grid α where
  shape := (t.shape.1, t.shape.2.1, idx.length, t.shape.2.2.2)
  entry x := t.entry (x.1, x.2.1, idx.getD x.2.2.1 0, x.2.2.2)

/-- `t[:, :, idx, :] = source`. -/
def assignHeads (t : Grid α) (idx : List Nat) (source : Grid α) : Option (Grid α) :=
  if source.shape = (t.shape.1, t.shape.2.1, idx.length, t.shape.2.2.2) then
    some { t with entry := fun x => if x.2.2.1 ∈ idx then
      source.entry (x.1, x.2.1, idx.idxOf x.2.2.1, x.2.2.2) else t.entry x }
  else none

end Grid

namespace Piece

variable {α β : Type}

def map (f : α → β) : Piece α → Piece β
  | .empty => .empty
  | .grid t => .grid (t.map f)

def numel : Piece α → Nat
  | .empty => 0
  | .grid t => Index.numel t.shape

/-- `torch.cat([low, high], dim=2)`, which passes over one-dimensional empty tensors. -/
def cat : Piece α → Piece α → Option (Piece α)
  | .empty, high => some high
  | low, .empty => some low
  | .grid low, .grid high =>
      if low.shape.1 = high.shape.1 ∧ low.shape.2.1 = high.shape.2.1 ∧
          low.shape.2.2.2 = high.shape.2.2.2 then
        some (.grid ⟨(low.shape.1, low.shape.2.1, low.shape.2.2.1 + high.shape.2.2.1,
          low.shape.2.2.2), fun x => if x.2.2.1 < low.shape.2.2.1 then low.entry x
            else high.entry (x.1, x.2.1, x.2.2.1 - low.shape.2.2.1, x.2.2.2)⟩)
      else none

end Piece

namespace Stacked

variable {α : Type}

/-- `t[i]`. -/
def part (t : Stacked α) (i : Nat) : Option (Grid α) :=
  if i < t.count then some ⟨t.shape, t.entry i⟩ else none

/-- `torch.stack([keys, values], dim=0)`. -/
def stack : Piece α → Piece α → Option (Stacked α)
  | .grid keys, .grid values =>
      if keys.shape = values.shape then
        some ⟨2, keys.shape, fun i => if i = 0 then keys.entry else values.entry⟩
      else none
  | _, _ => none

end Stacked

/-! ### Quantization of a section -/

/-- The dimensions that are reduced have only position 0. -/
def groupKey (axis : QuantAxis) (x : Index) : Index :=
  match axis with
  | .channel => (0, 0, x.2.2.1, x.2.2.2)
  | .token => (x.1, x.2.1, 0, 0)
  | .tensor => (0, 0, 0, 0)

/-- The shape of a reduction with `keepdim=True`. -/
def groupShape (axis : QuantAxis) (shape : Index) : Index :=
  match axis with
  | .channel => (1, 1, shape.2.2.1, shape.2.2.2)
  | .token => (shape.1, shape.2.1, 1, 1)
  | .tensor => (1, 1, 1, 1)

/-- The values that are reduced to one. -/
def groupValues (t : Grid ℚ) (axis : QuantAxis) (key : Index) : List ℚ :=
  ((Index.all t.shape).filter (groupKey axis · = key)).map t.entry

/-- `torch.amax(tensor, dim=axis, keepdim=True)`; the tensor is not empty. -/
def amax (t : Grid ℚ) (axis : QuantAxis) : Grid ℚ :=
  ⟨groupShape axis t.shape, fun key => (groupValues t axis key).max?.getD 0⟩

/-- `torch.amin(tensor, dim=axis, keepdim=True)`. -/
def amin (t : Grid ℚ) (axis : QuantAxis) : Grid ℚ :=
  ⟨groupShape axis t.shape, fun key => (groupValues t axis key).min?.getD 0⟩

/-- `1e-5`. -/
def eps : ℚ := 1 / 100000

/-- `min_val` and `quant_scale`. -/
structure SectionMeta where
  minVal : Grid ℚ
  quantScale : Grid ℚ

/-- `quantize`. Exact arithmetic has no value for the scale of `max_value` 1, a division by
zero (in floating point it is infinite, and what is read back is not a number). -/
def quantize (maxValue : Nat) (tensor : Piece ℚ) (axis : QuantAxis) :
    Option (Piece Nat × Option SectionMeta) :=
  match tensor with
  | .empty => some (.empty, none)
  | .grid t =>
      if Index.numel t.shape = 0 then some (.grid (t.map fun _ => 0), none)
      else if maxValue - 1 = 0 then none
      else
        let max_ := amax t axis
        let min_ := amin t axis
        let scale : Grid ℚ := ⟨max_.shape, fun key =>
          scaleOf eps (min_.entry key) (max_.entry key) (maxValue - 1)⟩
        some (.grid ⟨t.shape, fun x =>
          symbolOf (scale.bcast x) (min_.bcast x) maxValue (t.entry x)⟩, some ⟨min_, scale⟩)

/-- `dequantize`. -/
def dequantize (quantizedTensor : Piece Nat) (metaData : Option SectionMeta) : Piece ℚ :=
  match quantizedTensor, metaData with
  | .grid q, some m =>
      .grid ⟨q.shape, fun x => q.entry x * m.quantScale.bcast x + m.minVal.bcast x⟩
  | q, _ => q.map fun n : Nat => (n : ℚ)

/-! ### Sections -/

section Split

variable {α : Type}

def layerSplit (low : Bool) (tensor : Grid α) : Piece α × Piece α :=
  if low then (.grid tensor, .empty) else (.empty, .grid tensor)

/-- A boolean index has the length of the dimension. -/
def headSplit (mask : List Bool) (tensor : Grid α) : Option (Piece α × Piece α) :=
  if mask.length = tensor.shape.2.2.1 then
    some (.grid (tensor.selectHeads (lowHeads mask)), .grid (tensor.selectHeads (highHeads mask)))
  else none

def layerRestore (low : Bool) (tensor : Grid α) : Piece α × Piece α :=
  if low then (.grid tensor, .empty) else (.empty, .grid tensor)

/-- `tensor[:, :, :n, :]` and `tensor[:, :, n:, :]`, for the number of low-precision heads. -/
def headRestore (mask : List Bool) (tensor : Grid α) : Piece α × Piece α :=
  let n := (lowHeads mask).length
  let heads := List.range tensor.shape.2.2.1
  (.grid (tensor.selectHeads (heads.take n)), .grid (tensor.selectHeads (heads.drop n)))

def layerReconstruct (low high : Piece α) : Piece α := if low.numel ≠ 0 then low else high

/-- The concatenation is overwritten. -/
def headReconstruct (mask : List Bool) (low high : Piece α) : Option (Piece α) :=
  match low, high with
  | .grid lowGrid, .grid highGrid => do
      let restored ← low.cat high
      match restored with
      | .grid restored =>
          if mask.length = restored.shape.2.2.1 then do
            let restored ← restored.assignHeads (lowHeads mask) lowGrid
            let restored ← restored.assignHeads (highHeads mask) highGrid
            return .grid restored
          else none
      | .empty => none
  | _, _ => none

end Split

/-! ### The quantizer -/

/-- `KVServeQuantizer`; the masks have a row, or an entry, for each layer of the score table. -/
structure KVServeQuantizer where
  hybridRatio : ℚ
  highKeyMaxValue : Nat
  highValueMaxValue : Nat
  lowKeyMaxValue : Nat
  lowValueMaxValue : Nat
  axisKey : QuantAxis
  axisValue : QuantAxis
  splitType : SplitType
  /-- 0 also stands for `None`. -/
  tensorParallelSize : Nat
  tpRank : Int
  tableHeads : Nat
  headScoresMask : List (List Bool)
  layerScoresMask : List Bool
  rows : ∀ row ∈ headScoresMask, row.length = tableHeads
  layers : layerScoresMask.length = headScoresMask.length

/-- The metadata of the four sections. -/
structure QuantMeta where
  highKeyMeta : Option SectionMeta
  highValueMeta : Option SectionMeta
  lowKeyMeta : Option SectionMeta
  lowValueMeta : Option SectionMeta

namespace KVServeQuantizer

variable (q : KVServeQuantizer)

/-- The assertions of `validate`; the types of the other parameters are checked by Lean. -/
def validate : Bool :=
  0 ≤ q.hybridRatio && q.hybridRatio ≤ 1 &&
  0 < q.lowKeyMaxValue && q.lowKeyMaxValue < 255 &&
  0 < q.lowValueMaxValue && q.lowValueMaxValue < 255 &&
  0 < q.highKeyMaxValue && q.highKeyMaxValue < 255 &&
  0 < q.highValueMaxValue && q.highValueMaxValue < 255 &&
  q.lowKeyMaxValue ≤ q.highKeyMaxValue && q.lowValueMaxValue ≤ q.highValueMaxValue

/-- `_get_tp_head_scores_mask`; `numHeads` is not zero. -/
def getTpHeadScoresMask (numHeads : Nat) : Option (List (List Bool)) :=
  let totalHeads := q.tableHeads
  if totalHeads = numHeads then some q.headScoresMask
  else if totalHeads % numHeads ≠ 0 then none
  else
    let inferredTpSize := totalHeads / numHeads
    let tpSize := if q.tensorParallelSize = 0 then inferredTpSize else q.tensorParallelSize
    if tpSize * numHeads ≠ totalHeads then none
    else if q.tpRank < 0 ∨ tpSize ≤ q.tpRank then none
    else
      let start := q.tpRank.toNat * numHeads
      some (q.headScoresMask.map fun row => (row.drop start).take numHeads)

/-- The sections of the keys or of the values. -/
def split (layerId : Nat) (tensor : Grid ℚ) : Option (Piece ℚ × Piece ℚ) :=
  match q.splitType with
  | .head => do
      let headMask ← q.getTpHeadScoresMask tensor.shape.2.2.1
      let mask ← headMask[layerId]?
      headSplit mask tensor
  | .layer => do
      let low ← q.layerScoresMask[layerId]?
      return layerSplit low tensor

def restore (layerId : Nat) (tensor : Grid Nat) : Option (Piece Nat × Piece Nat) :=
  match q.splitType with
  | .head => do
      let headMask ← q.getTpHeadScoresMask tensor.shape.2.2.1
      let mask ← headMask[layerId]?
      return headRestore mask tensor
  | .layer => do
      let low ← q.layerScoresMask[layerId]?
      return layerRestore low tensor

/-- `numHeads` are those of the quantized tensor. -/
def reconstruct (layerId numHeads : Nat) (low high : Piece ℚ) : Option (Piece ℚ) :=
  match q.splitType with
  | .head => do
      let headMask ← q.getTpHeadScoresMask numHeads
      let mask ← headMask[layerId]?
      headReconstruct mask low high
  | .layer => some (layerReconstruct low high)

def quantize (layerId : Nat) (tensor : Stacked ℚ) : Option (Stacked Nat × QuantMeta) := do
  let keys ← tensor.part 0
  let values ← tensor.part 1
  let (lowKeys, highKeys) ← q.split layerId keys
  let (lowValues, highValues) ← q.split layerId values
  let (highKeys, highKeyMeta) ← Compression.quantize q.highKeyMaxValue highKeys q.axisKey
  let (highValues, highValueMeta) ← Compression.quantize q.highValueMaxValue highValues q.axisValue
  let (lowKeys, lowKeyMeta) ← Compression.quantize q.lowKeyMaxValue lowKeys q.axisKey
  let (lowValues, lowValueMeta) ← Compression.quantize q.lowValueMaxValue lowValues q.axisValue
  let keys ← lowKeys.cat highKeys
  let values ← lowValues.cat highValues
  let outTensor ← Stacked.stack keys values
  return (outTensor, ⟨highKeyMeta, highValueMeta, lowKeyMeta, lowValueMeta⟩)

def dequantize (layerId : Nat) (tensor : Stacked Nat) (metaData : QuantMeta) :
    Option (Stacked ℚ) := do
  let keys ← tensor.part 0
  let values ← tensor.part 1
  let (lowKeys, highKeys) ← q.restore layerId keys
  let (lowValues, highValues) ← q.restore layerId values
  let highKeys := Compression.dequantize highKeys metaData.highKeyMeta
  let highValues := Compression.dequantize highValues metaData.highValueMeta
  let lowKeys := Compression.dequantize lowKeys metaData.lowKeyMeta
  let lowValues := Compression.dequantize lowValues metaData.lowValueMeta
  let keys ← q.reconstruct layerId keys.shape.2.2.1 lowKeys highKeys
  let values ← q.reconstruct layerId values.shape.2.2.1 lowValues highValues
  Stacked.stack keys values

end KVServeQuantizer

end KVServe.Compression
