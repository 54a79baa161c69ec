import KVServe.Lib.Launch
import KVServe.Runtime.Fwht
import KVServe.Runtime.PlanBlob

/-!
# KVServe.Runtime.PlanKernels

The **execution plan on the device**: `encode_part`, `decode_part`, `kvs_encode_flat` and
`kvs_decode_flat` of `kvs_compress.cu`, kernel by kernel.

A kernel is the list of its stores, each computed from the memory at the launch: no thread reads
what another one stores. Only inside a block do threads exchange values, through shuffles and
shared memory. The index arithmetic is that of the source; its products are not wrapped.
-/

namespace KVServe.Runtime

/-! ### Memory -/

/-- The memory of the tensors. -/
abbrev Device := Tensor → Mem

namespace Device

/-- Stores of elements to a tensor. -/
def store (d : Device) (t : Tensor) (ws : List (Nat × Cell)) : Device :=
  Function.update d t (Mem.storeElements (d t) ws)

/-- Stores of bytes to a tensor. -/
def storeBytes (d : Device) (t : Tensor) (ws : List (Nat × UInt8)) : Device :=
  Function.update d t (stored (d t) ws)

/-- The `i`-th element at a pointer. -/
def cell (d : Device) (p : Ptr) (i : Nat) : Cell := (d p.tensor).cell (p.offset + i * 2)

/-- `cudaMemcpyAsync` -/
def memcpy (dst src : Ptr) (n : Nat) (d : Device) : Device :=
  Function.update d dst.tensor
    ((d dst.tensor).fill ⟨dst.offset, n⟩ fun k => d src.tensor (src.offset + k))

/-- `cudaMemsetAsync` of zeros. -/
def memset (dst : Ptr) (n : Nat) (d : Device) : Device :=
  Function.update d dst.tensor ((d dst.tensor).fill ⟨dst.offset, n⟩ fun _ => 0)

end Device

/-- A kernel with one thread for each number below `total`. -/
def perElement {α : Type} (total : Nat) (f : Nat → List α) : List α :=
  (threads (ceilDiv total kThreads)).flatMap fun (block, thread) =>
    let idx := block * kThreads + thread
    if idx ≥ total then [] else f idx

/-- `for (i = first; i < stop; i += stride)` -/
def strided (first stop stride : Nat) : List Nat :=
  List.range' first ((stop - first + stride - 1) / stride) stride

/-- `static_cast<int>` of a number. -/
def castInt (n : Nat) : Nat := (Word.int n).toInt32

/-! ### Reductions -/

/-- `v = op(v, __shfl_xor_sync(0xffffffff, v, offset))`, offset after offset; `v` is given for
the threads of a block. -/
def shuffles {F : Type} (op : F → F → F) (offsets : List Nat) (v : Nat → F) : Nat → F :=
  offsets.foldl (fun v offset thread => op (v thread) (v (thread ^^^ offset))) v

/-- `kChannelTile` -/
def kChannelTile : Nat := 8

/-- `kTokensPerBlock` -/
def kTokensPerBlock : Nat := kThreads / kWarpSize

/-- The loop of a thread of `quantize_channel_kernel`, over every 32nd token of its channel. -/
def channelLane {F : Type} (op : F → F → F) (init : F) (tokens : Nat) (value : Nat → Nat → F)
    (thread : Nat) : F :=
  (strided (thread / kChannelTile) tokens (kThreads / kChannelTile)).foldl
    (fun acc t => op acc (value (thread % kChannelTile) t)) init

/-- The reduction of channel `c` of a tile: loops, shuffles and shared memory. -/
def channelReduce {F : Type} (op : F → F → F) (init : F) (tokens : Nat) (value : Nat → Nat → F)
    (c : Nat) : F :=
  let v := shuffles op [kChannelTile, 2 * kChannelTile] (channelLane op init tokens value)
  -- `minima[warp][c]` is that of lane `c` of the warp
  (List.range' 1 (kThreads / kWarpSize - 1)).foldl
    (fun acc warp => op acc (v (warp * kWarpSize + c))) (v c)

/-- The reduction of the token of a warp, as lane `thread % 32` has it in the end. -/
def tokenReduce {F : Type} (op : F → F → F) (init : F) (columns : Nat) (value : Nat → Nat → F)
    (thread : Nat) : F :=
  shuffles op [16, 8, 4, 2, 1] (fun thread =>
    (strided (thread % kWarpSize) columns kWarpSize).foldl
      (fun acc c => op acc (value (thread / kWarpSize) c)) init) thread

/-! ### Scalar steps -/

/-- `QuantParams` -/
structure QuantParams where
  minimum : Cell
  maximum : Cell
  scale : Cell
  inverse : Cell

namespace Arith

variable (ar : Arith)

/-- `quant_params` -/
def quantParams (mn mx : ar.F) (levels : Nat) : QuantParams :=
  let minimum := ar.rn mn
  let maximum := ar.rn mx
  let raw := ar.toF32 (ar.rn (ar.sub (ar.toF32 maximum) (ar.toF32 minimum)))
  let raw := if raw < ar.tiny then ar.toF32 (ar.rn ar.tiny) else raw
  let scale := ar.rn (ar.div raw (ar.ofNat (levels - 1)))
  ⟨minimum, maximum, scale, ar.rn (ar.div (ar.ofNat 1) (ar.toF32 scale))⟩

/-- `quant_value` -/
def quantValue (value minimum inverse : Cell) (levels : Nat) : UInt8 :=
  let v := ar.sub (ar.toF32 value) (ar.toF32 minimum)
  let v := ar.mul (ar.toF32 (ar.rn v)) (ar.toF32 inverse)
  let q := ar.rint (ar.toF32 (ar.rn v))
  let q := if q < ar.ofNat 0 then ar.ofNat 0 else q
  let q := if ar.ofNat (levels - 1) < q then ar.ofNat (levels - 1) else q
  ar.toU8 q

/-- The element that the dequantizing kernels make of a symbol. -/
def dequantValue (symbol : UInt8) (minimum scale : Cell) : Cell :=
  let v := ar.ofNat symbol.toNat
  let v := ar.toF32 (ar.rn (ar.mul v (ar.toF32 scale)))
  ar.rn (ar.add v (ar.toF32 minimum))

end Arith

/-! ### Kernels -/

/-- `tail_count_for_block`, `tail_count_host`; a difference below zero is zero here. -/
def tailCount (tailTokens kernelTokens block : Nat) : Nat :=
  let remaining := tailTokens - block * kernelTokens
  if remaining = 0 then 0 else if remaining < kernelTokens then remaining else kernelTokens

/-- `tail_block_offset` -/
def tailBlockOffset (tailTokens kernelTokens numHeads headSize block : Nat) : Nat :=
  (List.range block).foldl
    (fun offset b => offset + tailCount tailTokens kernelTokens b * numHeads * headSize * 2) 0

/-- The arrays of a section that the quantizing kernels fill. -/
structure AuxArrays where
  auxMin : Ptr
  auxScale : Ptr
  tmpMax : Ptr
  tmpInv : Ptr

/-- The stores of one entry of the arrays. -/
def AuxArrays.stores (a : AuxArrays) (i : Nat) (p : QuantParams) : List (Nat × Cell) :=
  [(a.auxMin.offset + i * 2, p.minimum), (a.tmpMax.offset + i * 2, p.maximum),
    (a.auxScale.offset + i * 2, p.scale), (a.tmpInv.offset + i * 2, p.inverse)]

namespace Pipeline

variable (pl : Pipeline)

/-- The size of a row of signs. -/
def signSize (layerName : String) : KVPart → Nat
  | .key => pl.keySize layerName
  | .value => pl.valueSize layerName

/-- The `i`-th element of a tensor of signs, which is `[heads, head size]`. -/
def signAt (p : Ptr) (i : Nat) : Cell :=
  match p.tensor with
  | .signs layerName kvPart =>
      let size := pl.signSize layerName kvPart
      pl.signs layerName kvPart ((p.offset / 2 + i) / size) ((p.offset / 2 + i) % size)
  | _ => (0, 0)

/-- The `i`-th entry of a head order. -/
def orderAt (p : Ptr) (i : Nat) : Nat :=
  match p.tensor with
  | .headOrder layerName => (pl.headOrders layerName).getD (p.offset / 8 + i) 0
  | _ => 0

/-- `head_order ? head_order[h] : h` -/
def orderedHead (p : PartDesc) (h : Nat) : Nat :=
  match p.headOrder with
  | some order => pl.orderAt order h
  | none => h

/-- `if (signs) value *= signs[h, d]` -/
def signed (p : PartDesc) (value : pl.ar.F) (h dim : Nat) : pl.ar.F :=
  match p.signs with
  | some signs => pl.ar.mul value (pl.ar.toF32 (pl.signAt signs (h * p.headSize + dim)))
  | none => value

/-- An element of the cache. -/
def cacheOffset (p : PartDesc) (block head t dim : Nat) : Nat :=
  p.cacheBase.offset + block * p.blockStride + head * p.headStride + t * p.tokenStride + dim * 2

/-- `gather_sign_kernel` -/
def gatherSignKernel (p : PartDesc) (indices : List Nat) (total : Nat) (out : Ptr)
    (d : Device) : Device :=
  d.store out.tensor (perElement total fun idx =>
    let dim := idx % p.headSize
    let rest := idx / p.headSize
    let h := rest % p.numHeads
    let rest := rest / p.numHeads
    let t := rest % p.kernelTokens
    let block := rest / p.kernelTokens
    let src := cacheOffset p (indices.getD block 0) (pl.orderedHead p h) t dim
    let value := pl.signed p (pl.ar.toF32 ((d p.cacheBase.tensor).cell src)) h dim
    [(out.offset + idx * 2, pl.ar.rn value)])

/-- `scatter_cache_kernel` -/
def scatterCacheKernel (src : Ptr) (p : PartDesc) (indices : List Nat) (total : Nat)
    (d : Device) : Device :=
  d.store p.cacheBase.tensor (perElement total fun idx =>
    let dim := idx % p.headSize
    let rest := idx / p.headSize
    let h := rest % p.numHeads
    let rest := rest / p.numHeads
    let t := rest % p.kernelTokens
    let block := rest / p.kernelTokens
    let value := pl.signed p (pl.ar.toF32 (d.cell src idx)) h dim
    [(cacheOffset p (indices.getD block 0) (pl.orderedHead p h) t dim, pl.ar.rn value)])

/-- `quantize_channel_kernel` -/
def quantizeChannelKernel (src u8 : Ptr) (a : AuxArrays) (tokens heads headStart headCount headSize
    levels : Nat) (d : Device) : Device :=
  let columns := headCount * headSize
  let blocks := ceilDiv columns kChannelTile
  let position := fun column t => (t * heads + (headStart + column / headSize)) * headSize +
    column % headSize
  let value := fun block c t => pl.ar.toF32 (d.cell src (position (block * kChannelTile + c) t))
  let params := fun block c => pl.ar.quantParams
    (channelReduce min pl.ar.posInf tokens (value block) c)
    (channelReduce max pl.ar.negInf tokens (value block) c) levels
  let aux := (List.range blocks).flatMap fun block => (List.range kChannelTile).flatMap fun c =>
    if block * kChannelTile + c < columns then
      a.stores (block * kChannelTile + c) (params block c)
    else []
  let symbols := (threads blocks).flatMap fun (block, thread) =>
    let c := thread % kChannelTile
    let column := block * kChannelTile + c
    if column < columns then
      (strided (thread / kChannelTile) tokens (kThreads / kChannelTile)).map fun t =>
        (u8.offset + position column t, pl.ar.quantValue (d.cell src (position column t))
          (params block c).minimum (params block c).inverse levels)
    else []
  (d.store a.auxMin.tensor aux).storeBytes u8.tensor symbols

/-- `quantize_token_kernel` -/
def quantizeTokenKernel (src u8 : Ptr) (a : AuxArrays) (tokens heads headStart headCount headSize
    levels : Nat) (d : Device) : Device :=
  let columns := headCount * headSize
  let position := fun t c => t * heads * headSize + headStart * headSize + c
  let value := fun block warp c =>
    pl.ar.toF32 (d.cell src (position (block * kTokensPerBlock + warp) c))
  let params := fun block thread => pl.ar.quantParams
    (tokenReduce min pl.ar.posInf columns (value block) thread)
    (tokenReduce max pl.ar.negInf columns (value block) thread) levels
  let grid := threads (ceilDiv tokens kTokensPerBlock)
  let aux := grid.flatMap fun (block, thread) =>
    let t := block * kTokensPerBlock + thread / kWarpSize
    if t < tokens ∧ thread % kWarpSize = 0 then a.stores t (params block thread) else []
  let symbols := grid.flatMap fun (block, thread) =>
    let t := block * kTokensPerBlock + thread / kWarpSize
    if t < tokens then
      (strided (thread % kWarpSize) columns kWarpSize).map fun c =>
        (u8.offset + position t c, pl.ar.quantValue (d.cell src (position t c))
          (params block thread).minimum (params block thread).inverse levels)
    else []
  (d.store a.auxMin.tensor aux).storeBytes u8.tensor symbols

/-- `dequantize_channel_kernel` -/
def dequantizeChannelKernel (u8 out auxMin auxScale : Ptr) (tokens heads headStart headCount
    headSize : Nat) (d : Device) : Device :=
  d.store out.tensor (perElement (headCount * headSize) fun column =>
    (List.range tokens).map fun t =>
      let idx := (t * heads + (headStart + column / headSize)) * headSize + column % headSize
      (out.offset + idx * 2, pl.ar.dequantValue (d u8.tensor (u8.offset + idx))
        (d.cell auxMin column) (d.cell auxScale column)))

/-- `dequantize_token_kernel` -/
def dequantizeTokenKernel (u8 out auxMin auxScale : Ptr) (tokens heads headStart headCount
    headSize : Nat) (d : Device) : Device :=
  d.store out.tensor (perElement tokens fun t =>
    (List.range' headStart headCount).flatMap fun h => (List.range headSize).map fun dim =>
      let idx := t * heads * headSize + h * headSize + dim
      (out.offset + idx * 2, pl.ar.dequantValue (d u8.tensor (u8.offset + idx))
        (d.cell auxMin t) (d.cell auxScale t)))

/-- `tail_pack_kernel` -/
def tailPackKernel (p : PartDesc) (tailIndices : List Nat) (tailTokens : Nat) (tailOut : Ptr)
    (d : Device) : Device :=
  d.store tailOut.tensor (perElement (tailTokens * p.numHeads * p.headSize) fun idx =>
    let dim := idx % p.headSize
    let rest := idx / p.headSize
    let h := rest % p.numHeads
    let t := rest / p.numHeads
    let block := t / p.kernelTokens
    let inBlock := t % p.kernelTokens
    let count := tailCount tailTokens p.kernelTokens block
    if inBlock ≥ count then []
    else
      let src := cacheOffset p (tailIndices.getD block 0) h inBlock dim
      let offset := tailBlockOffset tailTokens p.kernelTokens p.numHeads p.headSize block
      let outIndex := offset / 2 + (h * count + inBlock) * p.headSize + dim
      [(tailOut.offset + outIndex * 2, (d p.cacheBase.tensor).cell src)])

/-- `tail_apply_kernel` -/
def tailApplyKernel (tailIn : Ptr) (p : PartDesc) (tailIndices : List Nat) (tailTokens : Nat)
    (d : Device) : Device :=
  d.store p.cacheBase.tensor ((List.range p.blocksPerLogical).flatMap fun block =>
    perElement (p.kernelTokens * p.numHeads * p.headSize) fun idx =>
      let count := tailCount tailTokens p.kernelTokens block
      let dim := idx % p.headSize
      let rest := idx / p.headSize
      let h := rest % p.numHeads
      let inBlock := rest / p.numHeads
      let dst := cacheOffset p (tailIndices.getD block 0) h inBlock dim
      if inBlock < count then
        let offset := tailBlockOffset tailTokens p.kernelTokens p.numHeads p.headSize block
        let inIndex := offset / 2 + (h * count + inBlock) * p.headSize + dim
        [(dst, d.cell tailIn inIndex)]
      else [(dst, (0, 0))])

/-- `launch_fwht`, between two buffers of a tensor. -/
def launchFwht (input output : Ptr) (headSize rows : Nat) (d : Device) : Device :=
  Function.update d output.tensor
    (pl.ar.launchFwht input.offset output.offset rows headSize (d output.tensor))

/-! ### Layer parts -/

/-- `tail_bytes_for_part` -/
def tailBytesForPart (p : PartDesc) (tailTokens : Nat) : Nat :=
  (List.range p.blocksPerLogical).foldl (fun bytes b =>
    bytes + tailCount tailTokens p.kernelTokens b * p.numHeads * p.headSize * 2) 0

/-- `gather_and_transform` -/
def gatherAndTransform (p : PartDesc) (indices : List Nat) (bodyBlocks : Nat)
    (canonicalA canonicalB : Ptr) (d : Device) : Device :=
  let total := bodyBlocks * p.kernelTokens * p.numHeads * p.headSize
  let d := pl.gatherSignKernel p indices total canonicalB d
  if p.usesTransformer = 0 then d.memcpy canonicalA canonicalB (total * 2)
  else
    let rows := bodyBlocks * p.kernelTokens * p.numHeads
    pl.launchFwht canonicalB canonicalA p.headSize rows d

/-- The pointers of the header. -/
structure PlanPtrs where
  arenaA : Ptr
  arenaB : Ptr
  aux : Ptr
  rawTail : Option Ptr
  u8Base : Nat
  auxHalf : Nat

/-- One section in `encode_part`. -/
def cudaEncodeSection (words : Nat → Word) (q : PlanPtrs) (p : PartDesc) (canonicalA : Ptr)
    (bodyTokens i : Nat) (d : Device) : Device :=
  let u8 := q.arenaB.add (q.u8Base + p.u8Offset)
  let s := loadSection words (p.sections + i * kvsSectionFields)
  let a : AuxArrays :=
    { auxMin := q.aux.add s.auxMinOffset
      auxScale := q.aux.add s.auxScaleOffset
      tmpMax := q.aux.add (q.auxHalf + s.auxMinOffset)
      tmpInv := q.aux.add (q.auxHalf + s.auxScaleOffset) }
  if s.axis = axisCode .channel then
    pl.quantizeChannelKernel canonicalA u8 a (castInt bodyTokens) p.numHeads s.headStart
      s.headCount p.headSize s.numLevels d
  else
    pl.quantizeTokenKernel canonicalA u8 a (castInt bodyTokens) p.numHeads s.headStart
      s.headCount p.headSize s.numLevels d

/-- `encode_part`, on memory and the cursor of the raw tail. -/
def cudaEncodePart (words : Nat → Word) (q : PlanPtrs) (p : PartDesc) (indices : List Nat)
    (totalBlocks bodyBlocks validTokens : Nat) (state : Device × Nat) : Device × Nat :=
  let canonicalA := q.arenaA.add p.rawOffset
  let canonicalB := q.arenaA.add p.scratchOffset
  let total := bodyBlocks * p.kernelTokens * p.numHeads * p.headSize
  let bodyTokens := bodyBlocks * p.kernelTokens
  let d := if bodyBlocks = 0 then state.1
    else
      let d := pl.gatherAndTransform p indices bodyBlocks canonicalA canonicalB state.1
      if p.quantized = 0 then
        d.memcpy (q.arenaB.add (q.u8Base + p.u8Offset * 2)) canonicalA (total * 2)
      else (List.range p.numSections).foldl
        (fun d i => pl.cudaEncodeSection words q p canonicalA bodyTokens i d) d
  let tailTokens := validTokens % p.blockSize
  let d := match q.rawTail with
    | some rawTail =>
        if tailTokens = 0 then d
        else tailPackKernel p (indices.drop (totalBlocks - p.blocksPerLogical)) tailTokens
          (rawTail.add state.2) d
    | none => d
  (d, state.2 + tailBytesForPart p tailTokens)

/-- One section in `decode_part`. -/
def cudaDecodeSection (words : Nat → Word) (q : PlanPtrs) (p : PartDesc) (canonicalA : Ptr)
    (bodyTokens i : Nat) (d : Device) : Device :=
  let u8 := q.arenaB.add (q.u8Base + p.u8Offset)
  let s := loadSection words (p.sections + i * kvsSectionFields)
  let auxMin := q.aux.add s.auxMinOffset
  let auxScale := q.aux.add s.auxScaleOffset
  if s.axis = axisCode .channel then
    pl.dequantizeChannelKernel u8 canonicalA auxMin auxScale (castInt bodyTokens) p.numHeads
      s.headStart s.headCount p.headSize d
  else
    pl.dequantizeTokenKernel u8 canonicalA auxMin auxScale (castInt bodyTokens) p.numHeads
      s.headStart s.headCount p.headSize d

/-- `decode_part`, on memory and the cursor of the raw tail. -/
def cudaDecodePart (words : Nat → Word) (q : PlanPtrs) (p : PartDesc) (indices : List Nat)
    (totalBlocks bodyBlocks validTokens : Nat) (state : Device × Nat) : Device × Nat :=
  let canonicalA := q.arenaA.add p.rawOffset
  let canonicalB := q.arenaA.add p.scratchOffset
  let total := bodyBlocks * p.kernelTokens * p.numHeads * p.headSize
  let bodyTokens := bodyBlocks * p.kernelTokens
  let d := if bodyBlocks = 0 then state.1
    else
      let d := state.1.memset canonicalA (total * 2)
      let d := if p.quantized = 0 then
          d.memcpy canonicalA (q.arenaB.add (q.u8Base + p.u8Offset * 2)) (total * 2)
        else (List.range p.numSections).foldl
          (fun d i => pl.cudaDecodeSection words q p canonicalA bodyTokens i d) d
      let d := if p.usesTransformer = 0 then d.memcpy canonicalB canonicalA (total * 2)
        else pl.launchFwht canonicalA canonicalB p.headSize
          (bodyBlocks * p.kernelTokens * p.numHeads) d
      pl.scatterCacheKernel canonicalB p indices total d
  let tailTokens := validTokens % p.blockSize
  let d := match q.rawTail with
    | some rawTail =>
        if tailTokens = 0 then d
        else tailApplyKernel (rawTail.add state.2) p
          (indices.drop (totalBlocks - p.blocksPerLogical)) tailTokens d
    | none => d
  (d, state.2 + tailBytesForPart p tailTokens)

/-- The header as `kvs_encode_flat` and `kvs_decode_flat` load it. -/
def loadHeader (words : Nat → Word) : PlanPtrs where
  arenaA := (words 1).pointer
  arenaB := (words 2).pointer
  aux := (words 3).pointer
  rawTail := (words 4).toPtr
  u8Base := (words 5).toInt64
  auxHalf := (words 6).toInt64 / 2

/-- The loop of the two entry points over the layer parts. -/
def flatLoop (words : Nat → Word) (validTokens : Nat)
    (step : PartDesc → Nat → Device × Nat → Device × Nat) (d : Device) : Device :=
  let numParts := (words 0).toInt64
  if numParts = 0 then d
  else
    let sectionRows := sectionRow numParts 0
    let first := loadPart words (partRow 0) sectionRows
    let bodyBlocks := validTokens / first.blockSize * first.blocksPerLogical
    ((List.range numParts).foldl
      (fun state i => step (loadPart words (partRow i) sectionRows) bodyBlocks state) (d, 0)).1

/-- `kvs_encode_flat` -/
def kvsEncodeFlat (words : Nat → Word) (indices : List Nat) (numBlocks validTokens : Nat) :
    Device → Device :=
  flatLoop words validTokens fun p bodyBlocks =>
    pl.cudaEncodePart words (loadHeader words) p indices numBlocks bodyBlocks (castInt validTokens)

/-- `kvs_decode_flat` -/
def kvsDecodeFlat (words : Nat → Word) (indices : List Nat) (numBlocks validTokens : Nat) :
    Device → Device :=
  flatLoop words validTokens fun p bodyBlocks =>
    pl.cudaDecodePart words (loadHeader words) p indices numBlocks bodyBlocks (castInt validTokens)

end Pipeline

end KVServe.Runtime
