import KVServe.Lib.Span
import Mathlib.Data.List.Sort

/-!
# KVServe.Runtime.Layout

`CompressionConfig`, `CacheSpec` and `build_compression_layout`: where each layer's key
and value part stands in the packed stream, in the two raw scratch buffers and in the
auxiliary buffer of a slot.

The loop over the layers keeps one cursor for each K/V part; within a layer part the
low-precision heads come before the high-precision ones.
-/

namespace KVServe.Runtime

/-! ### Geometry and configuration -/

/-- `torch.dtype`, as far as a KV cache uses it. -/
inductive DType
  | bfloat16 | float16 | float32 | float8
  deriving DecidableEq, Repr

/-- `KVPart`: `0` for the keys and `1` for the values. -/
inductive KVPart
  | key | value
  deriving DecidableEq, Repr

inductive QuantAxis
  | channel | token | tensor
  deriving DecidableEq, Repr

inductive SplitType
  | head | layer
  deriving DecidableEq, Repr

/-- The stages `from_extra_config` admits. -/
inductive Stage
  | aggregate | transformer | quantizer | codec
  deriving DecidableEq, Repr

/-- `CacheSpec`: a block of a cache holds at least one token. -/
structure CacheSpec where
  layerIndex : Nat
  blockSize : Nat
  numKvHeads : Nat
  headSize : Nat
  dtype : DType
  headSizeV? : Option Nat := none
  blockSizePos : 0 < blockSize := by decide

/-- `__post_init__`: without a size of their own the values have that of the keys. -/
def CacheSpec.headSizeV (s : CacheSpec) : Nat := s.headSizeV?.getD s.headSize

/-- `specs: dict[str, CacheSpec]`. -/
structure Specs where
  items : List (String × CacheSpec)
  nodup : (items.map Prod.fst).Nodup

/-- `CompressionConfig`, without the fields that only select scores or kernels.
`from_extra_config` refuses a configuration without slots or with levels out of range. -/
structure CompressionConfig where
  enabled : Bool := false
  splitType : SplitType := .layer
  axisKey : QuantAxis := .channel
  axisValue : QuantAxis := .token
  highKeyNumLevels : Nat := 12
  highValueNumLevels : Nat := 8
  lowKeyNumLevels : Nat := 6
  lowValueNumLevels : Nat := 4
  slotCount : Nat := 2
  logicalBlocksPerChunk : Nat := 1
  pipeline : List Stage := [.transformer, .quantizer, .codec]
  slotCountPos : 0 < slotCount := by decide
  levels : ∀ n ∈ [highKeyNumLevels, highValueNumLevels, lowKeyNumLevels, lowValueNumLevels],
    2 ≤ n ∧ n ≤ 256 := by decide

namespace CompressionConfig

/-- The default levels pass their check. -/
theorem default_levels : ∀ n ∈ [12, 8, 6, 4], 2 ≤ n ∧ n ≤ 256 := by decide

variable (cfg : CompressionConfig)

def usesAggregate : Bool := cfg.pipeline.contains .aggregate

def usesTransformer : Bool := !cfg.usesAggregate && cfg.pipeline.contains .transformer

def usesQuantizer : Bool := !cfg.usesAggregate && cfg.pipeline.contains .quantizer

def usesCodec : Bool := !cfg.usesAggregate && cfg.pipeline.contains .codec

/-- `axis_key` or `axis_value`. -/
def axis : KVPart → QuantAxis
  | .key => cfg.axisKey
  | .value => cfg.axisValue

def lowLevels : KVPart → Nat
  | .key => cfg.lowKeyNumLevels
  | .value => cfg.lowValueNumLevels

def highLevels : KVPart → Nat
  | .key => cfg.highKeyNumLevels
  | .value => cfg.highValueNumLevels

end CompressionConfig

/-- `(spec.head_size, spec.head_size_v)`. -/
def CacheSpec.size (s : CacheSpec) : KVPart → Nat
  | .key => s.headSize
  | .value => s.headSizeV

/-! ### The layout -/

/-- `ALIGNMENT`. -/
def alignment : Nat := 256

theorem alignment_pos : 0 < alignment := by decide

structure QuantSection where
  headStart : Nat
  headCount : Nat
  numLevels : Nat
  axis : QuantAxis
  auxMinOffset : Nat
  auxScaleOffset : Nat
  deriving DecidableEq, Repr

structure LayerPartLayout where
  layerName : String
  layerIndex : Nat
  kvPart : KVPart
  groupIndex : Nat
  blockSize : Nat
  numHeads : Nat
  headSize : Nat
  dtype : DType
  rawOffset : Nat
  rawBytes : Nat
  u8Offset : Nat
  sections : List QuantSection
  deriving DecidableEq, Repr

structure CompressionLayout where
  layerParts : List LayerPartLayout
  rawBytesByPart : KVPart → Nat
  u8BytesByPart : KVPart → Nat
  packedBytesByPart : KVPart → Nat
  auxBytesByPart : KVPart → Nat
  arenaBytes : Nat
  scratchStride : Nat
  u8Base : Nat
  auxArenaBytes : Nat
  faGroupIndices : List Nat
  indexRowsByGroup : List (Nat × Nat)
  aggregate : Bool

namespace CompressionLayout

variable (layout : CompressionLayout)

def parts (kvPart : KVPart) : List LayerPartLayout :=
  layout.layerParts.filter (·.kvPart = kvPart)

/-- One token of a layer part, in bytes. -/
def tokenBytes (part : LayerPartLayout) : Nat := part.numHeads * part.headSize * 2

def rawTailCapacity : Nat :=
  if layout.aggregate then 0
  else
    let total := fun kv => ((layout.parts kv).map fun p => (p.blockSize - 1) * tokenBytes p).sum
    roundUp (max (total .key) (total .value)) alignment

def rawTailBytes (kvPart : KVPart) (tokens : Nat → Nat) : Nat :=
  ((layout.parts kvPart).map fun p => tokens p.groupIndex % p.blockSize * tokenBytes p).sum

def hasBody (tokens : Nat → Nat) : Bool :=
  (layout.parts .key).any fun p => p.blockSize ≤ tokens p.groupIndex

end CompressionLayout

/-! ### Building it -/

/-- What `build_compression_layout` raises; the last is the `KeyError` of
`low_head_counts[layer_index]`. -/
inductive LayoutError
  | noCaches
  | blockSizes
  | headSizes
  | unsupportedDtype (layerName : String) (dtype : DType)
  | lowHeadCount (layerIndex : Nat)
  deriving DecidableEq, Repr

/-- `_reduction_shape`, for the shape `(blocks, tokens, heads, head_size)`. -/
def reductionShape (axis : QuantAxis) (blocks tokens heads headSize : Nat) : List Nat :=
  match axis with
  | .channel => [1, 1, heads, headSize]
  | .token => [blocks, tokens, 1, 1]
  | .tensor => [1, 1, 1, 1]

/-- `round(num_model_layers * 0.33)`. The double next to `0.33` is off by less than half
of the last place of any product, so halves are met exactly and go to the even side. -/
def lowLayerCount (numModelLayers : Nat) : Nat :=
  let twice := 2 * (33 * numModelLayers % 100)
  let whole := 33 * numModelLayers / 100
  if twice < 100 ∨ (twice = 100 ∧ whole % 2 = 0) then whole else whole + 1

/-- `_split_counts`. -/
def splitCounts (cfg : CompressionConfig) (layerIndex numHeads : Nat)
    (lowHeadCounts : Nat → Option Nat) (numModelLayers : Nat) : Except LayoutError (Nat × Nat) :=
  match cfg.splitType with
  | .head =>
      match lowHeadCounts layerIndex with
      | some low => .ok (low, numHeads - low)
      | none => .error (.lowHeadCount layerIndex)
  | .layer =>
      let low := lowLayerCount numModelLayers
      if 0 < low ∧ numModelLayers - low ≤ layerIndex then .ok (numHeads, 0) else .ok (0, numHeads)

/-- `raw_offsets[kv_part]`, `u8_offsets[kv_part]` and `aux_offsets[kv_part]`. -/
structure Offsets where
  raw : Nat := 0
  u8 : Nat := 0
  aux : Nat := 0
  deriving DecidableEq, Repr

/-- The bytes of one auxiliary row of a section of some heads. -/
def auxNbytes (axis : QuantAxis) (blocks tokens heads headSize : Nat) : Nat :=
  (reductionShape axis blocks tokens heads headSize).prod * 2

/-- The loop over `((low_heads, low_levels), (high_heads, high_levels))`: the sections
and the cursor after them. -/
def buildSections (axis : QuantAxis) (blocks tokens headSize : Nat) :
    List (Nat × Nat) → (headStart aux : Nat) → List QuantSection × Nat
  | [], _, aux => ([], aux)
  | (headCount, levels) :: rest, headStart, aux =>
      if headCount = 0 then buildSections axis blocks tokens headSize rest headStart aux
      else
        let nbytes := auxNbytes axis blocks tokens headCount headSize
        let minOffset := roundUp aux alignment
        let scaleOffset := roundUp (minOffset + nbytes) alignment
        let tail := buildSections axis blocks tokens headSize rest (headStart + headCount)
          (scaleOffset + nbytes)
        ({ headStart, headCount, numLevels := levels, axis, auxMinOffset := minOffset,
           auxScaleOffset := scaleOffset } :: tail.1, tail.2)

/-- One pass of the loop over the K/V parts of a layer. -/
def buildPart (cfg : CompressionConfig) (layerName : String) (spec : CacheSpec)
    (groupIndex : Nat) (counts : Nat × Nat) (kvPart : KVPart) (offsets : Offsets) :
    LayerPartLayout × Offsets :=
  let chunkBlocks := cfg.logicalBlocksPerChunk
  let headSize := spec.size kvPart
  let numel := chunkBlocks * spec.blockSize * spec.numKvHeads * headSize
  let built := buildSections (cfg.axis kvPart) chunkBlocks spec.blockSize headSize
    [(counts.1, cfg.lowLevels kvPart), (counts.2, cfg.highLevels kvPart)] 0 offsets.aux
  ({ layerName, layerIndex := spec.layerIndex, kvPart, groupIndex, blockSize := spec.blockSize,
     numHeads := spec.numKvHeads, headSize, dtype := spec.dtype, rawOffset := 0,
     rawBytes := numel * 2, u8Offset := offsets.u8, sections := built.1 },
   { raw := offsets.raw + numel * 2, u8 := offsets.u8 + numel, aux := built.2 })

/-- The loop over the layers, with the cursors of the keys and of the values. -/
def buildParts (cfg : CompressionConfig) (lowHeadCounts : Nat → Option Nat)
    (numModelLayers : Nat) (groupIndices : String → Option Nat) :
    List (String × CacheSpec) → (keys values : Offsets) →
      Except LayoutError (List LayerPartLayout × Offsets × Offsets)
  | [], keys, values => .ok ([], keys, values)
  | (layerName, spec) :: rest, keys, values => do
      let counts ←
        splitCounts cfg spec.layerIndex spec.numKvHeads lowHeadCounts numModelLayers
      let group := (groupIndices layerName).getD 0
      let k := buildPart cfg layerName spec group counts .key keys
      let v := buildPart cfg layerName spec group counts .value values
      let (parts, ends) ←
        buildParts cfg lowHeadCounts numModelLayers groupIndices rest k.2 v.2
      return (k.1 :: v.1 :: parts, ends)

/-- `fa_specs.sort(key=layer_index)`: stable, so equal indices keep the order of the dict. -/
def Specs.sorted (specs : Specs) : List (String × CacheSpec) :=
  specs.items.insertionSort fun a b => a.2.layerIndex ≤ b.2.layerIndex

/-- The refusals before the loop. -/
def checkSpecs (cfg : CompressionConfig) : List (String × CacheSpec) → Except LayoutError Unit
  | [] => .ok ()
  | (layerName, spec) :: rest =>
      if cfg.usesTransformer ∧
          [spec.headSize, spec.headSizeV].any fun n => n < 1 ∨ n &&& (n - 1) ≠ 0 then
        .error .headSizes
      else if spec.dtype ≠ .bfloat16 then .error (.unsupportedDtype layerName spec.dtype)
      else checkSpecs cfg rest

/-- The size of the two raw scratch buffers, which every layer uses in turn. -/
def scratchStride (cfg : CompressionConfig) (faSpecs : List (String × CacheSpec)) : Nat :=
  let bytes := fun (s : CacheSpec) (headSize : Nat) =>
    cfg.logicalBlocksPerChunk * s.blockSize * s.numKvHeads * headSize * 2
  roundUp (faSpecs.foldr (fun e m => max (max (bytes e.2 e.2.headSize) (bytes e.2 e.2.headSizeV)) m)
    0) alignment

/-- `{group_index: row for row, group_index in enumerate(sorted(groups))}`. -/
def indexRows (groups : List Nat) : List (Nat × Nat) :=
  (groups.dedup.insertionSort (· ≤ ·)).zipIdx

/-- What is put together after the loop. -/
def assembleLayout (cfg : CompressionConfig) (stride : Nat) (parts : List LayerPartLayout)
    (keys values : Offsets) : CompressionLayout :=
  let byPart := fun (f : Offsets → Nat) (kv : KVPart) =>
    match kv with
    | .key => f keys
    | .value => f values
  let u8Base := roundUp (2 * stride) alignment
  let aux := byPart fun o => roundUp o.aux alignment
  let quantizes := cfg.pipeline.contains .quantizer && !cfg.usesAggregate
  let packed := if quantizes then byPart (·.u8) else byPart (·.raw)
  { layerParts := parts
    rawBytesByPart := byPart (·.raw)
    u8BytesByPart := byPart (·.u8)
    packedBytesByPart := packed
    auxBytesByPart := aux
    arenaBytes :=
      if cfg.usesAggregate then roundUp (max keys.raw values.raw) alignment
      else roundUp (max (2 * stride) (u8Base + max (packed .key) (packed .value))) alignment
    scratchStride := stride
    u8Base
    auxArenaBytes :=
      if cfg.usesAggregate || !quantizes then 0 else 2 * max (aux .key) (aux .value)
    faGroupIndices := (parts.map (·.groupIndex)).dedup
    indexRowsByGroup := indexRows (parts.map (·.groupIndex))
    aggregate := cfg.usesAggregate }

/-- `build_compression_layout`. -/
def buildCompressionLayout (specs : Specs) (cfg : CompressionConfig)
    (lowHeadCounts : Nat → Option Nat) (numModelLayers : Nat)
    (groupIndices : String → Option Nat := fun _ => none) :
    Except LayoutError CompressionLayout :=
  match specs.sorted with
  | [] => .error .noCaches
  | first :: rest =>
      if rest.any fun e => e.2.blockSize ≠ first.2.blockSize then .error .blockSizes
      else do
        checkSpecs cfg (first :: rest)
        let (parts, keys, values) ←
          buildParts cfg lowHeadCounts numModelLayers groupIndices (first :: rest) {} {}
        return assembleLayout cfg (scratchStride cfg (first :: rest)) parts keys values

end KVServe.Runtime
