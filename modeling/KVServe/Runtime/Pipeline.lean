import KVServe.Runtime.Layout
import KVServe.Runtime.Numerics

/-!
# KVServe.Runtime.Pipeline

`CompressionPipeline`: encoding the blocks of one K/V part of a chunk from the caches into
a slot, and decoding them from a slot into the caches, one layer after the other.

The buffers of a slot are byte storage of some size, and every view the source slices out
of them is refused here when it is not inside (in torch the slice would be shorter and the
`view` that follows would raise). `none` stands for any such exception.
-/

namespace KVServe.Runtime

/-! ### Buffers and caches -/

/-- A `uint8` tensor. -/
structure Buffer where
  size : Nat
  mem : Mem

/-- `CompressionSlotBuffers`; `block_indices` has `indexRows` rows of `indexCols` ids. -/
structure Slot where
  arenaA : Buffer
  arenaB : Buffer
  aux : Buffer
  rawTail : Buffer
  indexRows : Nat
  indexCols : Nat
  blockIndices : Nat → Nat → Nat

namespace Slot

def setA (s : Slot) (m : Mem) : Slot := { s with arenaA := { s.arenaA with mem := m } }

def setB (s : Slot) (m : Mem) : Slot := { s with arenaB := { s.arenaB with mem := m } }

def setAux (s : Slot) (m : Mem) : Slot := { s with aux := { s.aux with mem := m } }

def setTail (s : Slot) (m : Mem) : Slot := { s with rawTail := { s.rawTail with mem := m } }

end Slot

/-- The geometry of a KV cache tensor `[blocks, heads, tokens, key dims + value dims]`. -/
structure CacheTensor where
  view : View
  separated : view.Separated 2

/-- The contents of the KV caches. -/
abbrev KV := String → Mem

/-- `ANSCodec`: the bytes `encode` puts out, and what `decode` makes of them when told the
number of bytes to expect. -/
structure Codec where
  encode : List UInt8 → List UInt8
  decode : List UInt8 → Nat → List UInt8

/-- `CompressionPipeline`, with the caches it is bound to. -/
structure Pipeline where
  ar : Arith
  layout : CompressionLayout
  blocksPerLogical : Nat
  stages : List Stage
  codec : Codec
  signs : String → KVPart → Nat → Nat → Cell
  headOrders : String → List Nat
  caches : String → CacheTensor

/-- `EncodedChunk`. -/
structure EncodedChunk where
  u8Bytes : Nat
  codecBytes : Nat
  rawTailBytes : Nat
  deriving DecidableEq, Repr

namespace Pipeline

variable (pl : Pipeline)

/-- `part.layer_name in self.identity_orders`. -/
def identityOrder (layerName : String) : Bool :=
  pl.headOrders layerName = List.range (pl.headOrders layerName).length

/-- `key_sizes[layer_name]`. -/
def keySize (layerName : String) : Nat :=
  (((pl.layout.parts .key).find? (·.layerName = layerName)).map (·.headSize)).getD 0

/-- `value_sizes[layer_name]`. -/
def valueSize (layerName : String) : Nat :=
  (((pl.layout.parts .value).find? (·.layerName = layerName)).map (·.headSize)).getD 0

/-- What `bind_kv_caches` requires of the caches. -/
def Bound : Prop :=
  ∀ part ∈ pl.layout.parts .key,
    (pl.caches part.layerName).view.shape.2 =
      (part.numHeads, part.blockSize / pl.blocksPerLogical,
        part.headSize + pl.valueSize part.layerName) ∧
    (pl.caches part.layerName).view.stride.2.2.2 = 2

/-- `_cache_part`: the columns of the keys or of the values. -/
def cachePart (part : LayerPartLayout) : View :=
  (pl.caches part.layerName).view.narrow3
    (match part.kvPart with
      | .key => 0
      | .value => pl.keySize part.layerName) part.headSize

/-- `part.block_size // self.blocks_per_logical`. -/
def kernelTokens (part : LayerPartLayout) : Nat := part.blockSize / pl.blocksPerLogical

/-! ### Block indices -/

/-- The kernel blocks of some logical blocks. -/
def physicalIds (logicalIds : List Nat) : List Nat :=
  logicalIds.flatMap fun b => (List.range pl.blocksPerLogical).map (b * pl.blocksPerLogical + ·)

/-- `_index_tensor`: the ids are written to the first columns of a row. -/
def indexTensor (slot : Slot) (logicalIds : List Nat) (row : Nat) : Option Slot :=
  let physical := pl.physicalIds logicalIds
  if row < slot.indexRows ∧ physical.length ≤ slot.indexCols then
    some { slot with blockIndices := fun r j =>
      if r = row ∧ j < physical.length then physical.getD j 0 else slot.blockIndices r j }
  else none

/-- One pass of the comprehension in `_group_indices`, with the entries made so far: the
row of `block_indices` and the number of ids of each group. -/
def groupIndex (state : Slot × List (Nat × Nat × Nat)) (entry : List Nat × Nat) :
    Option (Slot × List (Nat × Nat × Nat)) :=
  match pl.layout.indexRowsByGroup.lookup entry.2 with
  | some row =>
      if entry.1 = [] then some state
      else do
        let slot ← pl.indexTensor state.1 entry.1 row
        return (slot, state.2 ++ [(entry.2, row, (pl.physicalIds entry.1).length)])
  | none => some state

/-- `_group_indices`. -/
def groupIndices (slot : Slot) (logicalIdsByGroup : List (List Nat)) :
    Option (Slot × List (Nat × Nat × Nat)) :=
  logicalIdsByGroup.zipIdx.foldlM pl.groupIndex (slot, [])

/-- `index_cache[group_index]`, read when a kernel uses it. -/
def indices (slot : Slot) (cache : List (Nat × Nat × Nat)) (group : Nat) : Option (List Nat) :=
  (cache.lookup group).map fun (row, count) => (List.range count).map (slot.blockIndices row)

/-! ### Views of a layer -/

/-- The buffers `_layer_views` returns; `scratch` and `canonicalA` are the same bytes. -/
structure LayerViews where
  scratch : View
  canonicalA : View
  canonicalB : View

/-- The bytes of the first scratch buffer of a layer part. -/
def spanA (part : LayerPartLayout) (physicalBlocks : Nat) : Span :=
  ⟨part.rawOffset, physicalBlocks * pl.kernelTokens part * part.numHeads * part.headSize * 2⟩

/-- The bytes of the second one. -/
def spanB (part : LayerPartLayout) (physicalBlocks : Nat) : Span :=
  ⟨pl.layout.scratchStride + part.rawOffset,
    physicalBlocks * pl.kernelTokens part * part.numHeads * part.headSize * 2⟩

/-- The views of some kernel blocks of a layer part. -/
def viewsOf (part : LayerPartLayout) (physicalBlocks : Nat) : LayerViews :=
  let a := (pl.spanA part physicalBlocks).start
  let b := (pl.spanB part physicalBlocks).start
  let tokens := pl.kernelTokens part
  { scratch := .contiguous a 2 (physicalBlocks, part.numHeads, tokens, part.headSize)
    canonicalA := .contiguous a 2 (physicalBlocks, tokens, part.numHeads, part.headSize)
    canonicalB := .contiguous b 2 (physicalBlocks, tokens, part.numHeads, part.headSize) }

/-- `_layer_views`. -/
def layerViews (slot : Slot) (part : LayerPartLayout) (physicalBlocks : Nat) :
    Option LayerViews :=
  if (pl.spanA part physicalBlocks).Within slot.arenaA.size ∧
      (pl.spanB part physicalBlocks).Within slot.arenaA.size then
    some (pl.viewsOf part physicalBlocks)
  else none

/-- `torch.index_select(cache, 0, indices)`. -/
def selectBlocks (kv : KV) (part : LayerPartLayout) (indices : List Nat) :
    Option (Index → Cell) :=
  if indices.all (· < (pl.cachePart part).shape.1) then
    some fun x => (pl.cachePart part).cell (kv part.layerName) (indices.getD x.1 0, x.2)
  else none

/-- `cache.index_copy_(0, indices, source)`: one block after the other. -/
def copyBlocks (kv : KV) (part : LayerPartLayout) (indices : List Nat) (source : Index → Cell) :
    Option KV :=
  let view := pl.cachePart part
  if indices.all (· < view.shape.1) then
    some (Function.update kv part.layerName
      (indices.zipIdx.foldl (fun m (block, i) =>
        (view.narrow0 block 1).storeCells (fun x => source (i, x.2)) m) (kv part.layerName)))
  else none

/-! ### Raw tail -/

/-- One pass of the loop over the kernel blocks of a partial logical block. -/
structure TailRun where
  physical : Nat
  count : Nat
  offset : Nat
  deriving DecidableEq, Repr

/-- The loop shared by `_pack_raw_tail` and `_apply_raw_tail`: which tokens of which
kernel block stand where, and how many bytes they take in all. -/
def tailRuns (kernelTokens tokenBytes : Nat) :
    (physicals : List Nat) → (remaining offset : Nat) → List TailRun × Nat
  | [], _, offset => ([], offset)
  | physical :: rest, remaining, offset =>
      let count := min remaining kernelTokens
      if count = 0 then ([], offset)
      else
        let tail := tailRuns kernelTokens tokenBytes rest (remaining - count)
          (offset + count * tokenBytes)
        (⟨physical, count, offset⟩ :: tail.1, tail.2)

/-- `valid_tokens % part.block_size` tokens in the kernel blocks of a logical block. -/
def tailSchedule (part : LayerPartLayout) (tailTokens : Nat) : List TailRun × Nat :=
  tailRuns (pl.kernelTokens part) (CompressionLayout.tokenBytes part)
    (List.range pl.blocksPerLogical) tailTokens 0

/-- `scratch[physical, :, :count, :]`. -/
def tailSource (scratch : View) (run : TailRun) : View :=
  (scratch.narrow0 run.physical 1).narrow2 0 run.count

/-- The bytes of `raw_tail` that a run fills. -/
def tailTarget (part : LayerPartLayout) (offset : Nat) (run : TailRun) : View :=
  .contiguous (offset + run.offset) 2 (1, part.numHeads, run.count, part.headSize)

/-- The loop of `_pack_raw_tail` over the gathered blocks. -/
def packRuns (part : LayerPartLayout) (scratch : View) (offset : Nat) (arenaA rawTail : Mem)
    (runs : List TailRun) : Mem :=
  runs.foldl (fun m run => (tailTarget part offset run).storeCells
    ((tailSource scratch run).cell arenaA) m) rawTail

/-- The loop of `_apply_raw_tail` over the cleared blocks. -/
def unpackRuns (part : LayerPartLayout) (scratch : View) (offset : Nat) (rawTail arenaA : Mem)
    (runs : List TailRun) : Mem :=
  runs.foldl (fun m run => (tailSource scratch run).storeCells
    ((tailTarget part offset run).cell rawTail) m) arenaA

/-- `_pack_raw_tail`. -/
def packRawTail (kv : KV) (slot : Slot) (part : LayerPartLayout) (indices : List Nat)
    (validTokens offset : Nat) : Option (Slot × Nat) :=
  let tailTokens := validTokens % part.blockSize
  if tailTokens = 0 then some (slot, offset)
  else do
    let tailIndices := indices.drop (indices.length - pl.blocksPerLogical)
    let views ← pl.layerViews slot part pl.blocksPerLogical
    let select ← pl.selectBlocks kv part tailIndices
    let arenaA := views.scratch.storeCells select slot.arenaA.mem
    let schedule := pl.tailSchedule part tailTokens
    guard (offset + schedule.2 ≤ slot.rawTail.size)
    let rawTail := packRuns part views.scratch offset arenaA slot.rawTail.mem schedule.1
    return ((slot.setA arenaA).setTail rawTail, offset + schedule.2)

/-- `_apply_raw_tail`. -/
def applyRawTail (kv : KV) (slot : Slot) (part : LayerPartLayout) (indices : List Nat)
    (validTokens offset : Nat) : Option (Slot × KV × Nat) :=
  let tailTokens := validTokens % part.blockSize
  if tailTokens = 0 then some (slot, kv, offset)
  else do
    let tailIndices := indices.drop (indices.length - pl.blocksPerLogical)
    let views ← pl.layerViews slot part pl.blocksPerLogical
    -- Positions after the last valid token are zero, whatever both sides held there.
    let arenaA := views.scratch.storeCells (fun _ => (0, 0)) slot.arenaA.mem
    let schedule := pl.tailSchedule part tailTokens
    guard (offset + schedule.2 ≤ slot.rawTail.size)
    let arenaA := unpackRuns part views.scratch offset slot.rawTail.mem arenaA schedule.1
    let kv ← pl.copyBlocks kv part tailIndices (views.scratch.cell arenaA)
    return (slot.setA arenaA, kv, offset + schedule.2)

/-! ### Stages -/

/-- `_gather_rearrange`; the flag says that the data landed in the second buffer. -/
def gatherRearrange (kv : KV) (slot : Slot) (part : LayerPartLayout) (indices : List Nat) :
    Option (Slot × Bool) := do
  let views ← pl.layerViews slot part indices.length
  let select ← pl.selectBlocks kv part indices
  if pl.identityOrder part.layerName then
    if pl.stages.contains .transformer then
      return (slot.setA (views.canonicalB.swap.storeCells select slot.arenaA.mem), true)
    else return (slot.setA (views.canonicalA.swap.storeCells select slot.arenaA.mem), false)
  else
    let arenaA := views.scratch.storeCells select slot.arenaA.mem
    let order := pl.headOrders part.layerName
    let arenaA := views.canonicalB.storeCells
      (fun x => views.scratch.swap.cell arenaA (x.1, x.2.1, order.getD x.2.2.1 0, x.2.2.2)) arenaA
    return (slot.setA arenaA, true)

/-- The number of rows of a layer part. -/
def numRows (part : LayerPartLayout) (physicalBlocks : Nat) : Nat :=
  physicalBlocks * pl.kernelTokens part * part.numHeads

/-- `canonical_b.mul_(signs)`. -/
def applySigns (views : LayerViews) (part : LayerPartLayout) (m : Mem) : Mem :=
  views.canonicalB.storeCells (fun x => pl.ar.rn
    (pl.ar.mul (pl.ar.toF32 (views.canonicalB.cell m x))
      (pl.ar.toF32 (pl.signs part.layerName part.kvPart x.2.2.1 x.2.2.2)))) m

/-- `_hadamard_forward`. -/
def hadamardForward (slot : Slot) (part : LayerPartLayout) (physicalBlocks : Nat) :
    Option Slot := do
  let views ← pl.layerViews slot part physicalBlocks
  let arenaA := pl.applySigns views part slot.arenaA.mem
  return slot.setA (pl.ar.launchFwht views.canonicalB.base views.canonicalA.base
    (pl.numRows part physicalBlocks) part.headSize arenaA)

/-- The `elif gathered_in_b` branch. -/
def copyBack (slot : Slot) (part : LayerPartLayout) (physicalBlocks : Nat) : Option Slot := do
  let views ← pl.layerViews slot part physicalBlocks
  return slot.setA
    (views.canonicalA.storeCells (views.canonicalB.cell slot.arenaA.mem) slot.arenaA.mem)

/-- `_aux_view`. -/
def auxView (slot : Slot) (offset : Nat) (shape : Index) (temporary : Bool := false) :
    Option View :=
  let start := if temporary then offset + pl.layout.auxArenaBytes / 2 else offset
  if start + shape.numel * 2 ≤ slot.aux.size then some (.contiguous start 2 shape) else none

/-- The shape of the reductions of a section over some rows. -/
def auxShape (axis : QuantAxis) (rows : Nat × Nat) (headCount headSize : Nat) : Index :=
  match axis with
  | .channel => (1, 1, headCount, headSize)
  | .token => (rows.1, rows.2, 1, 1)
  | .tensor => (1, 1, 1, 1)

/-- `_axes`. -/
def axes : QuantAxis → List Nat
  | .channel => [0, 1]
  | .token => [2, 3]
  | .tensor => [0, 1, 2, 3]

/-- The entry of a reduction over `dims` with `keepdim=True` that an element goes into. -/
def keptIndex (dims : List Nat) (x : Index) : Index :=
  (if 0 ∈ dims then 0 else x.1, if 1 ∈ dims then 0 else x.2.1, if 2 ∈ dims then 0 else x.2.2.1,
    if 3 ∈ dims then 0 else x.2.2.2)

/-- The entry of an operand of this shape that an elementwise operation reads: dimensions of one
entry are broadcast. -/
def broadcastIndex (shape x : Index) : Index :=
  (if shape.1 = 1 then 0 else x.1, if shape.2.1 = 1 then 0 else x.2.1,
    if shape.2.2.1 = 1 then 0 else x.2.2.1, if shape.2.2.2 = 1 then 0 else x.2.2.2)

/-- The entry of the reductions an element belongs to. -/
def auxKey (axis : QuantAxis) (x : Index) : Index := keptIndex (axes axis) x

theorem auxKey_eq (axis : QuantAxis) (x : Index) : auxKey axis x =
    match axis with
    | .channel => (0, 0, x.2.2)
    | .token => (x.1, x.2.1, 0, 0)
    | .tensor => (0, 0, 0, 0) := by
  cases axis <;> rfl

/-- **An element reads the reductions of its own group.** -/
theorem broadcastIndex_auxShape {x shape : Index} (hx : x.Inside shape) (axis : QuantAxis) :
    broadcastIndex (auxShape axis (shape.1, shape.2.1) shape.2.2.1 shape.2.2.2) x =
      auxKey axis x := by
  have hone : ∀ {i n : Nat}, i < n → (if n = 1 then 0 else i) = i := by
    intro i n hi
    split <;> omega
  obtain ⟨h0, h1, h2, h3⟩ := hx
  rw [auxKey_eq]
  cases axis with
  | channel => exact Prod.ext rfl (Prod.ext rfl (Prod.ext (hone h2) (hone h3)))
  | token => exact Prod.ext (hone h0) (Prod.ext (hone h1) rfl)
  | tensor => rfl

/-- `_valid_rows`. -/
def validRows (v : View) (validTokens : Nat) : View :=
  if validTokens = v.shape.1 * v.shape.2.1 then v
  else
    { v with shape := (validTokens, 1, v.shape.2.2), stride := (v.stride.2.1, v.stride.2) }

/-- The bytes of the packed stream of a layer part, symbols or raw elements. -/
def u8Span (part : LayerPartLayout) (physicalBlocks : Nat) : Span :=
  ⟨pl.layout.u8Base + part.u8Offset,
    physicalBlocks * pl.kernelTokens part * part.numHeads * part.headSize⟩

def packedSpan (part : LayerPartLayout) (physicalBlocks : Nat) : Span :=
  ⟨pl.layout.u8Base + part.u8Offset * 2,
    physicalBlocks * pl.kernelTokens part * part.numHeads * part.headSize * 2⟩

/-- `u8_layer`. -/
def u8View (slot : Slot) (part : LayerPartLayout) (physicalBlocks : Nat) : Option View :=
  let s := pl.u8Span part physicalBlocks
  if s.Within slot.arenaB.size then
    some (.contiguous s.start 1
      (physicalBlocks, pl.kernelTokens part, part.numHeads, part.headSize))
  else none

/-- `_aux_view(…)[valid_tokens:].zero_()` for the rows of a token section. -/
def zeroAuxRows (offset capacity validTokens : Nat) (m : Mem) : Mem :=
  m.fill ⟨offset + validTokens * 2, (capacity - validTokens) * 2⟩ fun _ => 0

/-- One pass of the loop over the sections in `_quantize`. -/
def quantizeSection (part : LayerPartLayout) (capacity validTokens : Nat) (validA validU8 : View)
    (slot : Slot) (s : QuantSection) : Option Slot := do
  let source := validA.narrow2 s.headStart s.headCount
  let output := validU8.narrow2 s.headStart s.headCount
  let shape := auxShape s.axis (validA.shape.1, validA.shape.2.1) s.headCount part.headSize
  let aux := if s.axis = .token then
      zeroAuxRows s.auxScaleOffset capacity validTokens
        (zeroAuxRows s.auxMinOffset capacity validTokens slot.aux.mem)
    else slot.aux.mem
  let minimum ← pl.auxView slot s.auxMinOffset shape
  let scale ← pl.auxView slot s.auxScaleOffset shape
  let maximum ← pl.auxView slot s.auxMinOffset shape true
  let inverse ← pl.auxView slot s.auxScaleOffset shape true
  let cells := fun key => ((Index.all source.shape).filter (auxKey s.axis · = key)).map
    (source.cell slot.arenaA.mem)
  let aux := minimum.storeCells (fun key => pl.ar.amin (cells key)) aux
  let aux := maximum.storeCells (fun key => pl.ar.amax (cells key)) aux
  let aux := inverse.storeCells
    (fun key => pl.ar.scaleOf s.numLevels (maximum.cell aux key) (minimum.cell aux key)) aux
  let aux := scale.storeCells (inverse.cell aux) aux
  let aux := inverse.storeCells (fun key => pl.ar.reciprocal (inverse.cell aux key)) aux
  let arenaA := source.storeCells
    (fun x => pl.ar.quantized s.numLevels (source.cell slot.arenaA.mem x)
      (minimum.cell aux (broadcastIndex shape x)) (inverse.cell aux (broadcastIndex shape x)))
    slot.arenaA.mem
  let arenaB := output.store 1
    (fun x _ => pl.ar.toU8 (pl.ar.toF32 (source.cell arenaA x))) slot.arenaB.mem
  return ((slot.setAux aux).setA arenaA).setB arenaB

/-- `_quantize`. -/
def quantize (slot : Slot) (part : LayerPartLayout) (physicalBlocks validTokens : Nat) :
    Option Slot := do
  let views ← pl.layerViews slot part physicalBlocks
  let u8Layer ← pl.u8View slot part physicalBlocks
  part.sections.foldlM (pl.quantizeSection part (physicalBlocks * pl.kernelTokens part)
    validTokens (validRows views.canonicalA validTokens) (validRows u8Layer validTokens)) slot

/-- The raw elements are copied to the packed stream as they are. -/
def pack (slot : Slot) (part : LayerPartLayout) (physicalBlocks : Nat) : Option Slot := do
  let views ← pl.layerViews slot part physicalBlocks
  let packed := pl.packedSpan part physicalBlocks
  guard (packed.Within slot.arenaB.size)
  return slot.setB (slot.arenaB.mem.fill packed fun k =>
    slot.arenaA.mem (views.canonicalA.base + k))

/-! ### Encoding -/

/-- `transformer`, or the copy that takes its place. -/
def transform (slot : Slot) (part : LayerPartLayout) (physicalBlocks : Nat) (gatheredInB : Bool) :
    Option Slot :=
  if pl.stages.contains .transformer then pl.hadamardForward slot part physicalBlocks
  else if gatheredInB then pl.copyBack slot part physicalBlocks
  else some slot

/-- `quantizer`, or the copy that takes its place. -/
def emit (slot : Slot) (part : LayerPartLayout) (physicalBlocks bodyTokens : Nat) : Option Slot :=
  if pl.stages.contains .quantizer then pl.quantize slot part physicalBlocks bodyTokens
  else pl.pack slot part physicalBlocks

/-- The tokens of complete logical blocks. -/
def bodyTokens (part : LayerPartLayout) (validTokens : Nat) : Nat :=
  validTokens - validTokens % part.blockSize

def bodyBlocks (part : LayerPartLayout) (validTokens : Nat) : Nat :=
  bodyTokens part validTokens / part.blockSize * pl.blocksPerLogical

/-- The complete blocks of a layer part go through the stages. -/
def encodeBody (kv : KV) (part : LayerPartLayout) (indices : List Nat) (validTokens : Nat)
    (slot : Slot) : Option Slot :=
  if bodyTokens part validTokens = 0 then some slot
  else do
    let body := indices.take (pl.bodyBlocks part validTokens)
    let (slot, gatheredInB) ← pl.gatherRearrange kv slot part body
    let slot ← pl.transform slot part body.length gatheredInB
    pl.emit slot part body.length (bodyTokens part validTokens)

/-- One pass of the loop over the layer parts. -/
def encodePart (kv : KV) (cache : List (Nat × Nat × Nat)) (tokens : Nat → Nat)
    (state : Slot × Nat) (part : LayerPartLayout) : Option (Slot × Nat) := do
  let indices ← indices state.1 cache part.groupIndex
  let validTokens := tokens part.groupIndex
  let (slot, offset) ← pl.packRawTail kv state.1 part indices validTokens state.2
  let slot ← pl.encodeBody kv part indices validTokens slot
  return (slot, offset)

/-- `u8_bytes` before the loop: the packed stream of a full chunk, or nothing. -/
def streamBytes (kvPart : KVPart) (tokens : Nat → Nat) : Nat :=
  if pl.layout.hasBody tokens then
    if pl.stages.contains .quantizer then pl.layout.u8BytesByPart kvPart
    else pl.layout.rawBytesByPart kvPart
  else 0

/-- `aux_bytes` before the loop. -/
def auxBytes (kvPart : KVPart) (tokens : Nat → Nat) : Nat :=
  if pl.layout.hasBody tokens ∧ pl.stages.contains .quantizer then
    pl.layout.auxBytesByPart kvPart
  else 0

/-- Regions a short chunk does not reach are cleared. -/
def clearStream (slot : Slot) (kvPart : KVPart) (tokens : Nat → Nat) : Slot :=
  let slot := slot.setB (slot.arenaB.mem.fill
    ⟨pl.layout.u8Base, pl.streamBytes kvPart tokens⟩ fun _ => 0)
  slot.setAux (slot.aux.mem.fill ⟨0, pl.auxBytes kvPart tokens⟩ fun _ => 0)

/-- The packed stream goes to arena A, through the codec where there is one. -/
def sealPayload (slot : Slot) (u8Bytes rawTailBytes rawTailOffset : Nat) :
    Option (Slot × EncodedChunk) :=
  let stream := fun k => slot.arenaB.mem (pl.layout.u8Base + k)
  if u8Bytes = 0 ∨ ¬ pl.stages.contains .codec then do
    guard (u8Bytes ≤ slot.arenaA.size ∧ pl.layout.u8Base + u8Bytes ≤ slot.arenaB.size)
    return (slot.setA (slot.arenaA.mem.fill ⟨0, u8Bytes⟩ stream),
      ⟨u8Bytes, u8Bytes, rawTailBytes⟩)
  else do
    guard (pl.layout.u8Base + u8Bytes ≤ slot.arenaB.size)
    let encoded := pl.codec.encode ((List.range u8Bytes).map stream)
    guard (encoded.length ≤ slot.arenaA.size)
    return (slot.setA (slot.arenaA.mem.fill ⟨0, encoded.length⟩ (encoded.getD · 0)),
      ⟨u8Bytes, encoded.length, rawTailOffset⟩)

/-! ### Aggregate -/

/-- `_aggregate_segments`: the payload range of each layer part, in the cache's own block
format. -/
def aggregateSegments (logicalIdsByGroup : List (List Nat)) :
    List LayerPartLayout → (offset : Nat) → List (LayerPartLayout × Span)
  | [], _ => []
  | part :: rest, offset =>
      let logicalIds := logicalIdsByGroup.getD part.groupIndex []
      let shape := (pl.cachePart part).shape
      let perBlock := shape.numel / shape.1 * 2
      let nbytes := logicalIds.length * pl.blocksPerLogical * perBlock
      (part, ⟨offset, nbytes⟩) :: aggregateSegments logicalIdsByGroup rest (offset + nbytes)

/-- `_aggregate_buffer`. -/
def aggregateBuffer (part : LayerPartLayout) (s : Span) (blocks : Nat) : View :=
  .contiguous s.start 2 (blocks, (pl.cachePart part).shape.2)

/-- One segment of `_encode_aggregate`. -/
def encodeSegment (kv : KV) (cache : List (Nat × Nat × Nat)) (slot : Slot)
    (segment : LayerPartLayout × Span) : Option Slot := do
  let indices ← indices slot cache segment.1.groupIndex
  let select ← pl.selectBlocks kv segment.1 indices
  guard (segment.2.Within slot.arenaA.size)
  return slot.setA ((pl.aggregateBuffer segment.1 segment.2 indices.length).storeCells select
    slot.arenaA.mem)

/-- One segment of `_decode_aggregate`. -/
def decodeSegment (cache : List (Nat × Nat × Nat)) (slot : Slot) (kv : KV)
    (segment : LayerPartLayout × Span) : Option KV := do
  let indices ← indices slot cache segment.1.groupIndex
  guard (segment.2.Within slot.arenaA.size)
  pl.copyBlocks kv segment.1 indices
    ((pl.aggregateBuffer segment.1 segment.2 indices.length).cell slot.arenaA.mem)

def payloadBytes (segments : List (LayerPartLayout × Span)) : Nat :=
  (segments.map (·.2.size)).sum

def encodeAggregate (kv : KV) (slot : Slot) (logicalIdsByGroup : List (List Nat))
    (kvPart : KVPart) : Option (Slot × EncodedChunk) := do
  let segments := pl.aggregateSegments logicalIdsByGroup (pl.layout.parts kvPart) 0
  let (slot, cache) ← pl.groupIndices slot logicalIdsByGroup
  let slot ← segments.foldlM (pl.encodeSegment kv cache) slot
  return (slot, ⟨payloadBytes segments, payloadBytes segments, 0⟩)

def decodeAggregate (kv : KV) (slot : Slot) (logicalIdsByGroup : List (List Nat))
    (kvPart : KVPart) : Option (Slot × KV) := do
  let segments := pl.aggregateSegments logicalIdsByGroup (pl.layout.parts kvPart) 0
  let (slot, cache) ← pl.groupIndices slot logicalIdsByGroup
  let kv ← segments.foldlM (pl.decodeSegment cache slot) kv
  return (slot, kv)

/-- `encode`. -/
def encode (kv : KV) (slot : Slot) (logicalIdsByGroup : List (List Nat)) (kvPart : KVPart)
    (tokens : Nat → Nat) : Option (Slot × EncodedChunk) :=
  if pl.stages.contains .aggregate then pl.encodeAggregate kv slot logicalIdsByGroup kvPart
  else do
    let slot := pl.clearStream slot kvPart tokens
    let (slot, cache) ← pl.groupIndices slot logicalIdsByGroup
    let (slot, rawTailOffset) ←
      (pl.layout.parts kvPart).foldlM (pl.encodePart kv cache tokens) (slot, 0)
    pl.sealPayload slot (pl.streamBytes kvPart tokens) (pl.layout.rawTailBytes kvPart tokens)
      rawTailOffset

/-! ### Decoding -/

/-- The payload goes to the packed stream of arena B, through the codec where there is one. -/
def openPayload (slot : Slot) (codecBytes u8Bytes : Nat) : Option Slot := do
  guard (pl.layout.u8Base + u8Bytes ≤ slot.arenaB.size)
  if u8Bytes ≠ 0 ∧ pl.stages.contains .codec then
    guard (codecBytes ≤ slot.arenaA.size)
    let decoded := pl.codec.decode ((List.range codecBytes).map slot.arenaA.mem) u8Bytes
    return slot.setB (slot.arenaB.mem.fill ⟨pl.layout.u8Base, u8Bytes⟩ (decoded.getD · 0))
  else
    guard (u8Bytes ≤ slot.arenaA.size)
    return slot.setB (slot.arenaB.mem.fill ⟨pl.layout.u8Base, u8Bytes⟩ slot.arenaA.mem)

/-- One pass of the loop over the sections in `_dequantize`. -/
def dequantizeSection (part : LayerPartLayout) (validA validU8 : View) (slot : Slot)
    (s : QuantSection) : Option Slot := do
  let source := validU8.narrow2 s.headStart s.headCount
  let output := validA.narrow2 s.headStart s.headCount
  let shape := auxShape s.axis (validA.shape.1, validA.shape.2.1) s.headCount part.headSize
  let minimum ← pl.auxView slot s.auxMinOffset shape
  let scale ← pl.auxView slot s.auxScaleOffset shape
  return slot.setA (output.storeCells (fun x =>
    pl.ar.dequantized (slot.arenaB.mem (source.addr x))
      (minimum.cell slot.aux.mem (broadcastIndex shape x))
      (scale.cell slot.aux.mem (broadcastIndex shape x))) slot.arenaA.mem)

/-- `_dequantize`. -/
def dequantize (slot : Slot) (part : LayerPartLayout) (physicalBlocks validTokens : Nat) :
    Option Slot := do
  let views ← pl.layerViews slot part physicalBlocks
  let u8Layer ← pl.u8View slot part physicalBlocks
  part.sections.foldlM (pl.dequantizeSection part (validRows views.canonicalA validTokens)
    (validRows u8Layer validTokens)) slot

/-- The raw elements are copied from the packed stream as they are. -/
def unpack (slot : Slot) (part : LayerPartLayout) (physicalBlocks : Nat) : Option Slot := do
  let views ← pl.layerViews slot part physicalBlocks
  let packed := pl.packedSpan part physicalBlocks
  guard (packed.Within slot.arenaB.size)
  return slot.setA (slot.arenaA.mem.fill ⟨views.canonicalA.base, packed.size⟩ fun k =>
    slot.arenaB.mem (packed.start + k))

/-- `dequantize`, or the copy that takes its place. -/
def absorb (slot : Slot) (part : LayerPartLayout) (physicalBlocks bodyTokens : Nat) : Option Slot :=
  if pl.stages.contains .quantizer then pl.dequantize slot part physicalBlocks bodyTokens
  else pl.unpack slot part physicalBlocks

/-- `unordered.index_copy_(2, head_order, canonical_b)`: one head after the other. -/
def reorderHeads (views : LayerViews) (order : List Nat) (arenaA : Mem) : Mem :=
  order.zipIdx.foldl (fun m (head, h) => (views.scratch.swap.narrow2 head 1).storeCells
    (fun x => views.canonicalB.cell arenaA (x.1, x.2.1, h, x.2.2.2)) m) arenaA

/-- `_inverse_hadamard_scatter`. -/
def inverseHadamardScatter (kv : KV) (slot : Slot) (part : LayerPartLayout)
    (indices : List Nat) : Option (Slot × KV) := do
  let views ← pl.layerViews slot part indices.length
  let arenaA :=
    if pl.stages.contains .transformer then
      pl.applySigns views part (pl.ar.launchFwht views.canonicalA.base views.canonicalB.base
        (pl.numRows part indices.length) part.headSize slot.arenaA.mem)
    else views.canonicalB.storeCells (views.canonicalA.cell slot.arenaA.mem) slot.arenaA.mem
  let arenaA := reorderHeads views (pl.headOrders part.layerName) arenaA
  let kv ← pl.copyBlocks kv part indices (views.scratch.cell arenaA)
  return (slot.setA arenaA, kv)

/-- The complete blocks of a layer part come back through the stages. -/
def decodeBody (kv : KV) (part : LayerPartLayout) (indices : List Nat) (validTokens : Nat)
    (slot : Slot) : Option (Slot × KV) :=
  if bodyTokens part validTokens = 0 then some (slot, kv)
  else do
    let blocks := pl.bodyBlocks part validTokens
    let slot ← pl.absorb slot part blocks (bodyTokens part validTokens)
    pl.inverseHadamardScatter kv slot part (indices.take blocks)

/-- One pass of the loop over the layer parts. -/
def decodePart (cache : List (Nat × Nat × Nat)) (tokens : Nat → Nat) (state : Slot × KV × Nat)
    (part : LayerPartLayout) : Option (Slot × KV × Nat) := do
  let indices ← indices state.1 cache part.groupIndex
  let validTokens := tokens part.groupIndex
  let (slot, kv) ← pl.decodeBody state.2.1 part indices validTokens state.1
  pl.applyRawTail kv slot part indices validTokens state.2.2

/-- `decode`. -/
def decode (kv : KV) (slot : Slot) (logicalIdsByGroup : List (List Nat)) (kvPart : KVPart)
    (codecBytes u8Bytes : Nat) (tokens : Nat → Nat) : Option (Slot × KV) :=
  if pl.stages.contains .aggregate then pl.decodeAggregate kv slot logicalIdsByGroup kvPart
  else do
    let slot ← pl.openPayload slot codecBytes u8Bytes
    let (slot, cache) ← pl.groupIndices slot logicalIdsByGroup
    let (slot, kv, _) ←
      (pl.layout.parts kvPart).foldlM (pl.decodePart cache tokens) (slot, kv, 0)
    return (slot, kv)

end Pipeline

end KVServe.Runtime
