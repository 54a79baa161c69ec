import KVServe.Runtime.IndexRows

/-!
# KVServe.Runtime.CompressionRuntime

`CompressionRuntime`: a plan and the pipelines that work in its slots. The sizes of a chunk are
derived from its tokens, in one way to check what comes in and in another way while it is
encoded.
-/

namespace KVServe.Runtime

/-- The plan, and the pipeline of a slot. -/
structure CompressionRuntime where
  plan : CompressionMemoryPlan
  pipeline : Pipeline

/-- What `decode` raises; the last is any exception of the pipeline. -/
inductive DecodeError
  | decodedSize
  | capacity
  | payloadSize
  | pipeline
  deriving DecidableEq, Repr

/-- The buffers `__init__` carves for a slot. -/
structure Slot.Allocated (slot : Slot) (plan : CompressionMemoryPlan) : Prop where
  arenaA : slot.arenaA.size = plan.layout.arenaBytes
  arenaB : slot.arenaB.size = arenaBBytes plan.config plan.layout
  aux : slot.aux.size = plan.layout.auxArenaBytes
  rawTail : slot.rawTail.size = plan.layout.rawTailCapacity
  indexRows : slot.indexRows = numIndexRows plan.layout
  indexCols : slot.indexCols = plan.config.logicalBlocksPerChunk * plan.blocksPerLogical

namespace CompressionRuntime

variable (rt : CompressionRuntime)

def config : CompressionConfig := rt.plan.config

/-- The layout since the caches were bound. -/
def layout : CompressionLayout := rt.pipeline.layout

/-- `data_bytes`. -/
def dataBytes (kvPart : KVPart) (tokens : Option (Nat → Nat)) : Nat :=
  if rt.config.usesAggregate then
    match tokens with
    | none => rt.layout.rawBytesByPart kvPart
    | some tokens => ((rt.layout.parts kvPart).map fun part =>
        (tokens part.groupIndex + part.blockSize - 1) / part.blockSize * part.numHeads *
          part.blockSize * part.headSize * 2).sum
  else if tokens.any fun tokens => !rt.layout.hasBody tokens then 0
  else if rt.config.pipeline.contains .quantizer then rt.layout.u8BytesByPart kvPart
  else rt.layout.rawBytesByPart kvPart

/-- `aux_bytes`. -/
def auxBytes (kvPart : KVPart) (tokens : Option (Nat → Nat)) : Nat :=
  if tokens.any fun tokens => !rt.layout.hasBody tokens then 0
  else if rt.config.pipeline.contains .quantizer then rt.layout.auxBytesByPart kvPart
  else 0

/-- `encode`. -/
def encode (kv : KV) (slot : Slot) (logicalIdsByGroup : List (List Nat)) (kvPart : KVPart)
    (tokens : Nat → Nat) : Option (Slot × EncodedChunk) :=
  rt.pipeline.encode kv slot logicalIdsByGroup kvPart tokens

/-- `decode`. The sizes come from the other side. -/
def decode (kv : KV) (slot : Slot) (logicalIdsByGroup : List (List Nat)) (kvPart : KVPart)
    (codecBytes u8Bytes : Int) (tokens : Nat → Nat) : Except DecodeError (Slot × KV) :=
  if u8Bytes ≠ rt.dataBytes kvPart (some tokens) then .error .decodedSize
  else if ¬ (0 ≤ codecBytes ∧ codecBytes ≤ slot.arenaA.size) then .error .capacity
  else if ¬ rt.config.pipeline.contains .codec ∧ codecBytes ≠ u8Bytes then .error .payloadSize
  else
    match rt.pipeline.decode kv slot logicalIdsByGroup kvPart codecBytes.toNat u8Bytes.toNat
        tokens with
    | some result => .ok result
    | none => .error .pipeline

/-- What `build_memory_plan`, `__init__` and `bind_kv_caches` have done. The codec puts out no
more than the sizing run was told. -/
structure Initialized (specs : Specs)
    (select : CompressionConfig → Except PlanError HeadSelection) (probe : Probe) (numLayers : Nat)
    (groupIndices : String → Nat) : Prop where
  planned : buildMemoryPlan rt.config specs select probe rt.pipeline.blocksPerLogical numLayers =
    .ok (some rt.plan)
  bindGroups : rt.layout = rt.plan.layout.bindGroups groupIndices
  stages : rt.pipeline.stages = rt.config.pipeline
  bound : rt.pipeline.Bound
  codec : ∀ bytes, (rt.pipeline.codec.encode bytes).length ≤ probe.maxCompBufferSize bytes.length

end CompressionRuntime

end KVServe.Runtime
