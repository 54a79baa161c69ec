import KVServe.Compression.Wire
import KVServe.Lib.Blocks

/-!
# KVServe.Compression.Manager

`CompressionManager`: the layers of a stacked KV tensor go through a transformer and
a quantizer one by one, are packed into one buffer in the codec layout and encoded,
all at once or in chunks of layers.

The components are parameters (`Manager`); `none` is an exception, which
`compress_all_layers` and `decompress_all_layers` turn into `None`. The loops over the
layers of the single-batch and of the chunked path are the same code with another
first layer id: `processLayers` and `restoreLayers` are these loops. The codec layout
moves the heads in front of the blocks and tokens, which is a transposition of the
rows of `head_size` elements within each of K and V.
-/

namespace KVServe.Compression

variable {D S : Type} {dt : DTypes D}

/-! ### Tensors by layers -/

namespace Tensor

/-- The bytes of one element. -/
def itemsize (t : Tensor dt) : Nat := dt.elementSize t.dtype

/-- `t[i]`. -/
def layer (t : Tensor dt) (i : Nat) : Option (Tensor dt) :=
  match t.shape with
  | n :: shape =>
      if i < n then ofBytes shape t.dtype (block (shape.prod * t.itemsize) t.bytes i) else none
  | [] => none

/-- `t[start:stop]`. -/
def layers (t : Tensor dt) (start stop : Nat) : Option (Tensor dt) :=
  match t.shape with
  | n :: shape =>
      let count := min stop n - start
      let width := shape.prod * t.itemsize
      ofBytes (count :: shape) t.dtype ((t.bytes.drop (start * width)).take (count * width))
  | [] => none

/-- A buffer whose entries along the first dimension are filled with `parts`. -/
def stack (shape : List Nat) (dtype : D) (parts : List (Tensor dt)) : Option (Tensor dt) :=
  ofBytes (parts.length :: shape) dtype (parts.flatMap (·.bytes))

/-- `_native_to_permuted`: `[L,2,B,S,H,D] -> [L,2,H,B,S,D]`. -/
def nativeToPermuted (t : Tensor dt) : Option (Tensor dt) :=
  match t.shape with
  | [l, two, b, s, h, d] =>
      ofBytes [l, two, h, b, s, d] t.dtype
        (transposeEach (l * two) (b * s) h (d * t.itemsize) t.bytes)
  | _ => none

/-- `_permuted_to_native`: `[L,2,H,B,S,D] -> [L,2,B,S,H,D]`. -/
def permutedToNative (t : Tensor dt) : Option (Tensor dt) :=
  match t.shape with
  | [l, two, h, b, s, d] =>
      ofBytes [l, two, b, s, h, d] t.dtype
        (transposeEach (l * two) h (b * s) (d * t.itemsize) t.bytes)
  | _ => none

/-- `permute(0, 3, 1, 2, 4)` of one layer: `[2,B,S,H,D] -> [2,H,B,S,D]`. -/
def layerToPermuted (t : Tensor dt) : Option (Tensor dt) :=
  match t.shape with
  | [two, b, s, h, d] =>
      ofBytes [two, h, b, s, d] t.dtype (transposeEach two (b * s) h (d * t.itemsize) t.bytes)
  | _ => none

end Tensor

/-! ### Components -/

/-- An entry of `pipeline`; other names select no component. -/
inductive Stage
  | transformer
  | quantizer
  | codec
  | other (name : String)
  deriving DecidableEq, Repr

/-- `KVSERVE_CODEC_LAYOUT`. -/
inductive CodecLayout
  | native
  | permuted
  deriving DecidableEq, Repr

def CodecLayout.name : CodecLayout → String
  | .native => "native"
  | .permuted => "permuted"

/-- A `CompressionManager` with its configuration and components. -/
structure Manager (dt : DTypes D) (S : Type) where
  enabled : Bool := true
  pipeline : List Stage
  minCompressSize : Nat := 0
  /-- `chunk_threshold_bytes`. -/
  chunkThresholdBytes : Nat := 500 * 1024 * 1024
  /-- The `chunk_size` of `_compress_all_layers_chunked`. -/
  chunkSize : Nat := 8
  /-- `str(all_layers_data.device)`. -/
  device : String
  bfloat16 : D
  /-- `.to(dtype)`, also inside `copy_`. -/
  cast : D → Tensor dt → Tensor dt
  transform : Nat → Tensor dt → Option (Tensor dt)
  inverse : Nat → Tensor dt → Option (Tensor dt)
  quantize : Nat → Tensor dt → Option (Tensor dt × Meta dt S)
  /-- `supports_out_buffer`. -/
  supportsOutBuffer : Bool
  /-- `quantize` with `out=`: what is written to the buffer, and the parameters. -/
  quantizeOut : Nat → Tensor dt → Option (Tensor dt × Meta dt S)
  dequantize : Nat → Tensor dt → Meta dt S → Option (Tensor dt)
  /-- The encoded bytes, or the text of the exception. -/
  encode : Nat → Tensor dt → Except String (List UInt8)
  decode : Nat → Tensor dt → String → List Nat → String → Option (Tensor dt)

namespace Manager

variable (m : Manager dt S)

def has (stage : Stage) : Bool := stage ∈ m.pipeline

/-- `use_direct_quant`. -/
def useDirectQuant : Bool := m.has .quantizer && !m.has .transformer && m.supportsOutBuffer

/-- `dest.copy_(src)` for a buffer of this shape and dtype. Components keep the shape of
a layer, so nothing is broadcast. -/
def copyInto (shape : List Nat) (dtype : D) (src : Tensor dt) : Option (Tensor dt) :=
  if src.shape = shape then some (m.cast dtype src) else none

/-! ### Layers in -/

def transformLayer (layerId : Nat) (x : Tensor dt) : Option (Tensor dt) :=
  if m.has .transformer then m.transform layerId x else some x

/-- The quantized layer and what is appended to `quantization_params_list`. -/
def quantizeLayer (layerId : Nat) (x : Tensor dt) : Option (Tensor dt × List (Meta dt S)) :=
  if m.has .quantizer then (m.quantize layerId x).map fun r => (r.1, [r.2]) else some (x, [])

/-- One layer through the transformer and the quantizer. -/
def processLayer (layerId : Nat) (x : Tensor dt) : Option (Tensor dt × List (Meta dt S)) :=
  (m.transformLayer layerId x).bind (m.quantizeLayer layerId)

/-- `_pack_layer_into_codec_buffer`: the buffer has the shape and dtype of the first
processed layer. -/
def packLayer (layout : CodecLayout) (first x : Tensor dt) : Option (Tensor dt) :=
  match layout with
  | .permuted => do
      let buffer ← first.layerToPermuted
      let x ← x.layerToPermuted
      m.copyInto buffer.shape first.dtype x
  | .native => m.copyInto first.shape first.dtype x

/-- `_quantize_layers_direct`: a `uint8` buffer of the shape of the layers. -/
def quantizeLayersDirect (start count : Nat) (x : Tensor dt) :
    Option (Tensor dt × List (Meta dt S)) := do
  let outs ← (List.range count).mapM fun i => do
    let layer ← x.layer i
    m.quantizeOut (start + i) layer
  let buffer ← Tensor.stack x.shape.tail dt.uint8 (outs.map (·.1))
  return (buffer, outs.map (·.2))

/-- The loop over the layers: the buffer in the codec layout and the quantization
parameters. -/
def processLayers (layout : CodecLayout) (start count : Nat) (x : Tensor dt) :
    Option (Tensor dt × List (Meta dt S)) := do
  if m.useDirectQuant then
    let (buffer, params) ← m.quantizeLayersDirect start count x
    match layout with
    | .native => return (buffer, params)
    | .permuted =>
        let buffer ← buffer.nativeToPermuted
        return (buffer, params)
  else
    let outs ← (List.range count).mapM fun i => do
      let layer ← x.layer i
      m.processLayer (start + i) layer
    let first ← outs.head?
    let parts ← outs.mapM fun out => m.packLayer layout first.1 out.1
    let firstPart ← parts.head?
    let buffer ← Tensor.stack firstPart.shape first.1.dtype parts
    return (buffer, outs.flatMap (·.2))

/-! ### Metadata -/

/-- `str(dtype).replace("torch.", "")` of a tensor. -/
def dtypeName (t : Tensor dt) : Meta dt S := .str (dt.name t.dtype)

/-- `list(t.shape)`. -/
def shapeList (t : Tensor dt) : Meta dt S := .list (t.shape.map fun n : Nat => .int n)

/-- A size or an index read back from the metadata. -/
def natOf : Meta dt S → Option Nat
  | .int n => if 0 ≤ n then some n.toNat else none
  | _ => none

/-- A shape read back from the metadata. `-1`, which `reshape` would infer, is not written. -/
def shapeOf : Meta dt S → Option (List Nat)
  | .list items => items.mapM natOf
  | _ => none

def textOf : Meta dt S → Option String
  | .str s => some s
  | _ => none

/-- A flag that is set to `True` or absent. -/
def flag (name : String) (metadata : List (Key × Meta dt S)) : Bool :=
  match Dict.get (.str name) metadata with
  | some (.bool b) => b
  | _ => false

/-- `metadata.get("original_dtype", "bfloat16")`, looked up in `torch`. -/
def targetDtype (metadata : List (Key × Meta dt S)) : Option D := do
  let name ← (Dict.get (.str "original_dtype") metadata).elim (some "bfloat16") textOf
  return (dt.byName name).getD m.bfloat16

/-! ### Codec -/

/-- `_handle_codec_compression`: a codec that raises leaves the bytes as they are. -/
def handleCodecCompression (buffer : Tensor dt) (metadata : List (Key × Meta dt S))
    (layerId : Nat) : Tensor dt × List (Key × Meta dt S) :=
  if m.has .codec then
    match m.encode layerId buffer with
    | .ok bytes => (.ofU8 bytes, Dict.set (.str "codec_applied") (.bool true) metadata)
    | .error message =>
        (.ofU8 buffer.bytes, Dict.set (.str "codec_error") (.str message)
          (Dict.set (.str "codec_skipped") (.bool true) metadata))
  else (.ofU8 buffer.bytes, metadata)

/-- `_handle_codec_decompression`. -/
def handleCodecDecompression (t : Tensor dt) (metadata : List (Key × Meta dt S))
    (layerId : Nat) : Option (Tensor dt) := do
  let dtypeName ← (Dict.get (.str "codec_dtype") metadata).bind textOf
  let shape ← (Dict.get (.str "codec_shape") metadata).bind shapeOf
  if m.has .codec && flag "codec_applied" metadata then
    let device ← (Dict.get (.str "device") metadata).bind textOf
    m.decode layerId t dtypeName shape device
  else
    let dtype ← dt.byName dtypeName
    let bytes ← t.byteView
    Tensor.ofBytes shape dtype bytes

/-! ### Compression -/

/-- What the two paths write about the stages. -/
def stageMetadata (layout : CodecLayout) (buffer : Tensor dt) (params : List (Meta dt S))
    (metadata : List (Key × Meta dt S)) : List (Key × Meta dt S) :=
  let metadata := Dict.set (.str "codec_layout") (.str layout.name) metadata
  let metadata := if m.has .transformer then
    Dict.set (.str "transformer_applied") (.bool true) metadata else metadata
  let metadata := if m.has .quantizer then
    Dict.set (.str "quantization_params") (.list params)
      (Dict.set (.str "quantization_applied") (.bool true) metadata) else metadata
  Dict.set (.str "codec_dtype") (dtypeName buffer)
    (Dict.set (.str "codec_shape") (shapeList buffer) metadata)

/-- The two paths from the first layer to the sealed metadata: the layers of `x` are
numbered from `start` on. -/
def compressLayers (layout : CodecLayout) (start : Nat) (x : Tensor dt)
    (metadata : List (Key × Meta dt S)) : Option (Tensor dt × List (Key × Meta dt S)) := do
  let count ← x.shape.head?
  let (buffer, params) ← m.processLayers layout start count x
  let (tensor, metadata) := m.handleCodecCompression buffer
    (m.stageMetadata layout buffer params metadata) (start + count - 1)
  return (tensor, Dict.set (.str "compressed_size") (.int tensor.nbytes) metadata)

/-- `{**base, **metadata}`. -/
def update (base metadata : List (Key × Meta dt S)) : List (Key × Meta dt S) :=
  metadata.foldl (fun entries entry => Dict.set entry.1 entry.2 entries) base

/-- `compression_metadata` of the single-batch path. -/
def payloadMetadata (x : Tensor dt) (requestId : String) (numLayers : Nat) :
    List (Key × Meta dt S) :=
  [(.str "request_id", .str requestId), (.str "original_dtype", dtypeName x),
    (.str "original_size", .int x.nbytes), (.str "device", .str m.device),
    (.str "start_layer_id", .int 0), (.str "num_layers", .int numLayers)]

/-- `chunk_meta`. -/
def chunkMeta (chunk : Tensor dt) (requestId : String) (start numLayers index numChunks : Nat) :
    List (Key × Meta dt S) :=
  [(.str "request_id", .str requestId), (.str "original_dtype", dtypeName chunk),
    (.str "device", .str m.device), (.str "start_layer_id", .int start),
    (.str "num_layers", .int numLayers), (.str "chunk_index", .int index),
    (.str "total_chunks", .int numChunks)]

/-- The metadata of a chunked payload. -/
def chunkedMetadata (x : Tensor dt) (requestId : String) (numLayers numChunks : Nat) :
    List (Key × Meta dt S) :=
  [(.str "request_id", .str requestId), (.str "original_size", .int x.nbytes),
    (.str "num_layers", .int numLayers), (.str "is_chunked", .bool true),
    (.str "num_chunks", .int numChunks)]

/-- `end_layer` of the chunk that starts at a layer. -/
def endLayer (numLayers start : Nat) : Nat := min (start + m.chunkSize) numLayers

/-- One chunk of `_compress_all_layers_chunked`. -/
def compressChunk (layout : CodecLayout) (x : Tensor dt) (requestId : String)
    (metadata : List (Key × Meta dt S)) (numLayers numChunks index : Nat) :
    Option (Tensor dt × List (Key × Meta dt S)) := do
  let start := index * m.chunkSize
  let chunk ← x.layers start (m.endLayer numLayers start)
  m.compressLayers layout start chunk (update
    (m.chunkMeta chunk requestId start (m.endLayer numLayers start - start) index numChunks)
    metadata)

/-- `_compress_all_layers_chunked`. -/
def compressAllLayersChunked (layout : CodecLayout) (x : Tensor dt) (requestId : String)
    (metadata : List (Key × Meta dt S)) : Option (CompressedKVData dt S) := do
  let numLayers ← x.shape.head?
  -- `// chunk_size`
  if m.chunkSize = 0 then none
  else
    let numChunks := (numLayers + m.chunkSize - 1) / m.chunkSize
    let chunks ← (List.range numChunks).mapM
      (m.compressChunk layout x requestId metadata numLayers numChunks)
    return {
      requestId
      layerId := (numLayers : Int) - 1
      metadata := .dict (update (chunkedMetadata x requestId numLayers numChunks) metadata)
      originalSize := x.nbytes
      compressedSize := ((chunks.map (·.1.nbytes)).sum : Nat)
      isChunked := true
      chunks := some (chunks.map (·.1))
      chunkMetadata := some (chunks.map (.dict ·.2)) }

/-- The single-batch path of `compress_all_layers`. -/
def compressWhole (layout : CodecLayout) (x : Tensor dt) (requestId : String)
    (metadata : List (Key × Meta dt S)) : Option (CompressedKVData dt S) := do
  let numLayers ← x.shape.head?
  let (tensor, metadata) ← m.compressLayers layout 0 x
    (update (m.payloadMetadata x requestId numLayers) metadata)
  return {
    requestId
    layerId := (numLayers : Int) - 1
    compressedTensor := some tensor
    metadata := .dict metadata
    originalSize := x.nbytes
    compressedSize := tensor.nbytes }

/-- `compress_all_layers`. -/
def compressAllLayers (layout : CodecLayout) (x : Tensor dt) (requestId : String)
    (metadata : List (Key × Meta dt S)) : Option (CompressedKVData dt S) :=
  if !m.enabled || m.pipeline.isEmpty then none
  else if x.shape.length ≠ 6 then none
  else if x.nbytes < m.minCompressSize then none
  else if m.chunkThresholdBytes < x.nbytes then
    m.compressAllLayersChunked layout x requestId metadata
  else m.compressWhole layout x requestId metadata

/-! ### Decompression -/

def dequantizeLayer (layerId : Nat) (q : Tensor dt) (params : Option (Meta dt S)) :
    Option (Tensor dt) :=
  if m.has .quantizer then
    match params with
    | none | some .null => none
    | some params => m.dequantize layerId q params
  else some q

def inverseLayer (layerId : Nat) (y : Tensor dt) : Option (Tensor dt) :=
  if m.has .transformer then m.inverse layerId y else some y

/-- One layer back through the quantizer and the transformer. -/
def restoreLayer (layerId : Nat) (q : Tensor dt) (params : Option (Meta dt S)) :
    Option (Tensor dt) :=
  (m.dequantizeLayer layerId q params).bind (m.inverseLayer layerId)

/-- `metadata.get("quantization_params")[i]`. -/
def paramsAt (metadata : List (Key × Meta dt S)) (i : Nat) : Option (Meta dt S) :=
  match Dict.get (.str "quantization_params") metadata with
  | some (.list params) => params[i]?
  | _ => none

/-- One bulk transposition, so that the loop over the layers sees the native layout. -/
def toNative (layout : String) (data : Tensor dt) : Option (Tensor dt) :=
  if layout = "permuted" then data.permutedToNative else some data

/-- The two paths from the compressed tensor to the buffer of restored layers. The
single-batch path converts a layer to the target dtype before `copy_` would. -/
def decompressLayers (start count : Nat) (t : Tensor dt) (metadata : List (Key × Meta dt S)) :
    Option (Tensor dt) := do
  let decoded ← m.handleCodecDecompression t metadata start
  let layout ← (Dict.get (.str "codec_layout") metadata).elim (some "permuted") textOf
  let data ← toNative layout decoded
  let dtype ← m.targetDtype metadata
  let outs ← (List.range count).mapM fun i => do
    let q ← data.layer i
    let y ← m.restoreLayer (start + i) q (paramsAt metadata i)
    m.copyInto data.shape.tail dtype y
  Tensor.stack data.shape.tail dtype outs

/-- One chunk of `_decompress_all_layers_chunked`. -/
def decompressChunk (t : Tensor dt) : Meta dt S → Option (Tensor dt)
  | .dict metadata => do
      let start ← (Dict.get (.str "start_layer_id") metadata).elim (some 0) natOf
      let count ← (Dict.get (.str "num_layers") metadata).elim (some 8) natOf
      m.decompressLayers start count t metadata
  | _ => none

/-- What `decompress_all_layers` returns: one tensor, or one for each chunk. -/
inductive Restored (dt : DTypes D)
  | whole (t : Tensor dt)
  | chunks (ts : List (Tensor dt))

/-- `decompress_all_layers`. -/
def decompressAllLayers (c : CompressedKVData dt S) : Option (Restored dt) :=
  if !m.enabled || m.pipeline.isEmpty then none
  else if c.isChunked then
    match c.chunks, c.chunkMetadata with
    | some (chunk :: chunks), some (chunkMeta :: chunkMetadata) =>
        -- `chunk_metadata[chunk_idx]` for every index of `chunks`
        if chunks.length ≤ chunkMetadata.length then do
          let restored ← ((chunk :: chunks).zip (chunkMeta :: chunkMetadata)).mapM fun pair =>
            m.decompressChunk pair.1 pair.2
          return .chunks restored
        else none
    | _, _ => none
  else
    match c.compressedTensor, c.metadata with
    | some t, .dict metadata => do
        let count ← (Dict.get (.str "num_layers") metadata).bind natOf
        let restored ← m.decompressLayers 0 count t metadata
        return .whole restored
    | _, _ => none

end Manager

end KVServe.Compression
