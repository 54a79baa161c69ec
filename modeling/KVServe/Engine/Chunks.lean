import KVServe.Session.Protocol

/-!
# KVServe.Engine.Chunks

How a transferred suffix of logical blocks is cut into chunks: the window of a
chunk and its token counts, as `mooncake_connector.py` and
`compression/tokens.py` compute them. Chunk `2 k` is the K half and chunk
`2 k + 1` the V half of the `k`-th window of `logical_blocks_per_chunk` blocks.

Token counts are Python integers, so they are `Int`: a window past the end has a
negative remainder.
-/

namespace KVServe.Engine

open KVServe.Session

/-- A `dict[group, tokens]` in insertion order. -/
abbrev TokenCounts := List (Nat × Int)

/-- `_compression_total_chunks`. -/
def compressionTotalChunks (logicalBlockCount logicalBlocksPerChunk : Nat) : Nat :=
  (logicalBlockCount + logicalBlocksPerChunk - 1) / logicalBlocksPerChunk * 2

/-- The block window of a chunk. `count` is negative for a chunk past the end. -/
structure ChunkWindow where
  logicalStart : Nat
  count : Int
  kvPart : Nat
  deriving DecidableEq, Repr

/-- `_compression_chunk_window`. -/
def compressionChunkWindow (chunkId logicalBlockCount logicalBlocksPerChunk : Nat) : ChunkWindow :=
  let logicalStart := chunkId / 2 * logicalBlocksPerChunk
  { logicalStart
    count := min (logicalBlocksPerChunk : Int) ((logicalBlockCount : Int) - logicalStart)
    kvPart := chunkId % 2 }

namespace ChunkWindow

/-- `group[logical_start : logical_start + logical_block_count]`. -/
def slice (window : ChunkWindow) (group : List Nat) : List Nat :=
  (group.drop window.logicalStart).take window.count.toNat

/-- The window of every FullAttention group; the other groups are empty. -/
def blockIds (window : ChunkWindow) (faGroupIndices : List Nat) (blockIds : BlockIds) : BlockIds :=
  blockIds.mapIdx fun index group => if index ∈ faGroupIndices then window.slice group else []

end ChunkWindow

/-- A missing key of a `dict`. -/
def keyError (key : Nat) : String := toString key

/-- `suffix_token_counts`: the valid tokens of the blocks after a block-aligned
prefix hit. -/
def suffixTokenCounts (numTokens : Nat) (blockIds : BlockIds) (blockSizes : List (Nat × Nat)) :
    Except String TokenCounts :=
  blockSizes.mapM fun (group, blockSize) => do
    let fullBlocks := (numTokens + blockSize - 1) / blockSize
    let count ←
      if blockIds = [] then .ok 0
      else
        match blockIds[group]? with
        | some ids => .ok ids.length
        | none => .error "list index out of range"
    return (group,
      if count = 0 then 0
      else (numTokens : Int) - ((fullBlocks : Int) - (count : Int)) * (blockSize : Int))

/-- `chunk_token_counts`: the part of the suffix that falls into a window. -/
def chunkTokenCounts (validTokensByGroup : TokenCounts) (blockSizes : List (Nat × Nat))
    (window : ChunkWindow) : Except String TokenCounts :=
  blockSizes.mapM fun (group, blockSize) =>
    match validTokensByGroup.lookup group with
    | none => .error (keyError group)
    | some valid =>
        .ok (group, min (valid - (window.logicalStart : Int) * blockSize) (window.count * blockSize))

end KVServe.Engine
