import KVServe.Runtime.CacheColumns
import KVServe.Runtime.Totality
import Mathlib.Algebra.BigOperators.Ring.List

/-!
# KVServe.Runtime.ChunkSizes

**Decoding accepts what encoding produces.** The receiver derives the sizes of a chunk from its
tokens, the sender from the blocks it encodes; they agree, and whatever a slot holds, the chunk
is decoded. An aggregate chunk has no auxiliary rows and no raw tail, **but `aux_bytes` and
`raw_tail_bytes` count them**.
-/

namespace KVServe.Runtime

/-! ### Aggregate chunks -/

namespace Pipeline

variable {pl : Pipeline} {kv : KV} {slot : Slot} {idsByGroup : List (List Nat)}
  {cache : List (Nat × Nat × Nat)} {tokens : Nat → Nat} {maxBlocks : Nat} {kvPart : KVPart}

/-- The bytes of a segment. -/
def segmentBytes (pl : Pipeline) (idsByGroup : List (List Nat)) (part : LayerPartLayout) : Nat :=
  let shape := (pl.cachePart part).shape
  (idsByGroup.getD part.groupIndex []).length * pl.blocksPerLogical * (shape.numel / shape.1 * 2)

theorem payloadBytes_aggregateSegments (parts : List LayerPartLayout) (offset : Nat) :
    payloadBytes (pl.aggregateSegments idsByGroup parts offset) =
      (parts.map (pl.segmentBytes idsByGroup)).sum := by
  induction parts generalizing offset with
  | nil => rfl
  | cons part parts ih =>
      rw [aggregateSegments, payloadBytes, List.map_cons, List.sum_cons, List.map_cons,
        List.sum_cons, ← payloadBytes, ih]
      rfl

/-- The segments are those of the layer parts, inside the payload. -/
theorem mem_aggregateSegments {parts : List LayerPartLayout} {offset : Nat}
    {segment : LayerPartLayout × Span}
    (h : segment ∈ pl.aggregateSegments idsByGroup parts offset) : segment.1 ∈ parts := by
  induction parts generalizing offset with
  | nil => exact absurd h List.not_mem_nil
  | cons part parts ih =>
      rw [aggregateSegments] at h
      rcases List.mem_cons.mp h with rfl | h
      · exact List.mem_cons_self
      · exact List.mem_cons_of_mem _ (ih h)

theorem segment_within {parts : List LayerPartLayout} {segment : LayerPartLayout × Span}
    (h : segment ∈ pl.aggregateSegments idsByGroup parts 0) {capacity : Nat}
    (hcapacity : payloadBytes (pl.aggregateSegments idsByGroup parts 0) ≤ capacity) :
    segment.2.Within capacity := by
  have hplaced := pl.aggregateSegments_placed idsByGroup parts 0
  rw [Nat.zero_add] at hplaced
  exact Nat.le_trans (hplaced.bounds Nat.one_pos (List.mem_map_of_mem h)).2 hcapacity

section Segments

variable (hpos : ∀ part ∈ pl.layout.layerParts, 0 < part.blockSize)
  (hindex : pl.IndexRoom maxBlocks slot) (hw : pl.Windows maxBlocks idsByGroup tokens)
  (hcapacity : payloadBytes (pl.aggregateSegments idsByGroup (pl.layout.parts kvPart) 0) ≤
    slot.arenaA.size)

include hpos hindex hw hcapacity

/-- **Aggregate chunks are encoded**, without auxiliary rows and without a raw tail. -/
theorem exists_encodeAggregate :
    ∃ slot', pl.encodeAggregate kv slot idsByGroup kvPart =
        some (slot', ⟨payloadBytes (pl.aggregateSegments idsByGroup (pl.layout.parts kvPart) 0),
          payloadBytes (pl.aggregateSegments idsByGroup (pl.layout.parts kvPart) 0), 0⟩) ∧
      slot'.aux.mem = slot.aux.mem ∧ slot'.rawTail.mem = slot.rawTail.mem := by
  obtain ⟨rows, cache, hgroup, hreads⟩ := exists_groupIndices hindex hpos hw
  let all : Nat → Prop := fun _ => True
  obtain ⟨slot', hfold, -, hkeeps⟩ := @exists_foldlM _ _ (pl.encodeSegment kv cache)
    (fun rest s => (∀ x ∈ rest, x ∈ pl.aggregateSegments idsByGroup (pl.layout.parts kvPart) 0) ∧
      ({ slot with blockIndices := rows } : Slot).Keeps all all s)
    (fun x rest s hI => by
      obtain ⟨hmem, hkeeps⟩ := hI
      have hx := hmem x List.mem_cons_self
      obtain ⟨hp, -⟩ := Construction.of_mem_parts (mem_aggregateSegments hx)
      have hwithin : x.2.Within s.arenaA.size := hkeeps.arenaA ▸ segment_within hx hcapacity
      simp only [encodeSegment, hreads x.1 hp s hkeeps.blockIndices,
        selectBlocks_eq (hw x.1 hp).inside, guard, hwithin, if_true, bind, Option.bind, pure]
      exact ⟨_, rfl, fun y hy => hmem y (List.mem_cons_of_mem _ hy), hkeeps.trans .setA⟩)
    _ _ ⟨fun _ hx => hx, .refl all all _⟩
  refine ⟨slot', ?_, funext fun a => hkeeps.auxMem a trivial,
    funext fun a => hkeeps.tailMem a trivial⟩
  simp only [encodeAggregate, hgroup, hfold, bind, Option.bind, pure]

/-- **Aggregate chunks are decoded.** -/
theorem exists_decodeAggregate :
    ∃ result, pl.decodeAggregate kv slot idsByGroup kvPart = some result := by
  obtain ⟨rows, cache, hgroup, hreads⟩ := exists_groupIndices hindex hpos hw
  obtain ⟨kv', hfold, -⟩ := @exists_foldlM _ _
    (pl.decodeSegment cache { slot with blockIndices := rows })
    (fun rest _ => ∀ x ∈ rest, x ∈ pl.aggregateSegments idsByGroup (pl.layout.parts kvPart) 0)
    (fun x rest kv hmem => by
      have hx := hmem x List.mem_cons_self
      obtain ⟨hp, -⟩ := Construction.of_mem_parts (mem_aggregateSegments hx)
      have hwithin : x.2.Within slot.arenaA.size := segment_within hx hcapacity
      obtain ⟨kv', hcopy⟩ := @exists_copyBlocks pl kv x.1 _ (hw x.1 hp).inside
        ((pl.aggregateBuffer x.1 x.2 (pl.physicalIds
          (idsByGroup.getD x.1.groupIndex [])).length).cell slot.arenaA.mem)
      simp only [decodeSegment, hreads x.1 hp _ rfl, guard, hwithin, if_true, bind, Option.bind,
        pure]
      exact ⟨kv', hcopy, fun y hy => hmem y (List.mem_cons_of_mem _ hy)⟩)
    (pl.aggregateSegments idsByGroup (pl.layout.parts kvPart) 0) kv fun _ hx => hx
  refine ⟨({ slot with blockIndices := rows }, kv'), ?_⟩
  simp only [decodeAggregate, hgroup, hfold, bind, Option.bind, pure]

end Segments

/-- A segment has the bytes of the blocks its tokens need. -/
theorem segmentBytes_eq {part : LayerPartLayout} (hwhole : pl.WholeBlocks part)
    (hshape : (pl.cachePart part).shape.2 = (part.numHeads, pl.kernelTokens part, part.headSize))
    (hw : pl.Window maxBlocks part (idsByGroup.getD part.groupIndex []) (tokens part.groupIndex)) :
    pl.segmentBytes idsByGroup part =
      (tokens part.groupIndex + part.blockSize - 1) / part.blockSize * part.numHeads *
        part.blockSize * part.headSize * 2 := by
  have hids := hw.length_pos hwhole.pos
  -- the cache has the first block of the window
  have hblocks : 0 < (pl.cachePart part).shape.1 := by
    have hlength : 0 < (pl.physicalIds (idsByGroup.getD part.groupIndex [])).length := by
      rw [length_physicalIds]
      exact Nat.mul_pos hids hwhole.factor_pos
    exact Nat.lt_of_le_of_lt (Nat.zero_le _) (hw.inside _ (List.getElem_mem hlength))
  have hnumel : (pl.cachePart part).shape.numel / (pl.cachePart part).shape.1 =
      part.numHeads * pl.kernelTokens part * part.headSize := by
    rw [Index.numel, hshape]
    rw [Nat.mul_assoc, Nat.mul_assoc, Nat.mul_div_cancel_left _ hblocks, Nat.mul_assoc]
  rw [segmentBytes]
  simp only [hnumel]
  rw [← hw.count, ← hwhole.mul_kernelTokens]
  ring

/-- **The aggregate payload fits the arena.** -/
theorem payload_le {specs : Specs} {cfg : CompressionConfig} {low : Nat → Option Nat}
    {layers : Nat} {groups : String → Option Nat} {layout : CompressionLayout} {B : Nat}
    {keys values : Offsets} (h : Construction specs cfg low layers groups layout B keys values)
    (hparts : pl.layout.layerParts = layout.layerParts)
    (hwhole : ∀ part ∈ pl.layout.layerParts, pl.WholeBlocks part) (hbound : pl.Bound)
    (ha : cfg.usesAggregate = true) (hw : pl.Windows cfg.logicalBlocksPerChunk idsByGroup tokens) :
    payloadBytes (pl.aggregateSegments idsByGroup (pl.layout.parts kvPart) 0) ≤
      layout.arenaBytes := by
  have hsegment : ∀ part ∈ pl.layout.parts kvPart,
      pl.segmentBytes idsByGroup part ≤ part.numel cfg.logicalBlocksPerChunk * 2 := by
    intro part hp
    obtain ⟨hp, -⟩ := Construction.of_mem_parts hp
    rw [segmentBytes_eq (hwhole part hp) (cachePart_columns h hparts hbound hp).1 (hw part hp),
      LayerPartLayout.numel, ← (hw part hp).count]
    refine Nat.mul_le_mul_right 2 (Nat.mul_le_mul_right _ ?_)
    rw [Nat.mul_right_comm]
    exact Nat.mul_le_mul_right _ (Nat.mul_le_mul_right _ (hw part hp).le)
  have hsum := (h.built kvPart).u8.sum_le Nat.one_pos
  have hraw := h.raw_le_arena ha kvPart
  rw [h.raw_eq, h.u8Bytes_eq] at hraw
  rw [payloadBytes_aggregateSegments]
  refine Nat.le_trans (List.sum_le_sum hsegment) (Nat.le_trans ?_ hraw)
  rw [parts_eq hparts, List.sum_map_mul_right]
  refine Nat.mul_le_mul_right 2 ?_
  rw [List.map_map] at hsum
  have hzero : ({} : Offsets).u8 = 0 := rfl
  rw [hzero, Nat.zero_add] at hsum
  exact hsum

end Pipeline

/-! ### Runtimes -/

namespace CompressionRuntime

variable {rt : CompressionRuntime} {specs : Specs} {probe : Probe} {numLayers : Nat}
  {select : CompressionConfig → Except PlanError HeadSelection} {groupIndices : String → Nat}
  {slot : Slot} {base : CompressionLayout} {idsByGroup : List (List Nat)} {tokens : Nat → Nat}
  {kvPart : KVPart} {part : LayerPartLayout} {kv : KV}

/-- The windows of a chunk: the blocks each group needs for its tokens, at most a chunk. -/
def Windows (rt : CompressionRuntime) (idsByGroup : List (List Nat)) (tokens : Nat → Nat) : Prop :=
  rt.pipeline.Windows rt.config.logicalBlocksPerChunk idsByGroup tokens

theorem indexRoom (h : rt.Initialized specs select probe numLayers groupIndices)
    (hbehind : rt.Behind specs probe base) (hslot : slot.Allocated rt.plan) :
    rt.pipeline.IndexRoom rt.config.logicalBlocksPerChunk slot := by
  have hrows : rt.pipeline.layout.indexRowsByGroup =
      indexRows (rt.pipeline.layout.layerParts.map (·.groupIndex)) := by
    have hbind : rt.pipeline.layout = rt.plan.layout.bindGroups groupIndices := h.bindGroups
    rw [hbind]
    rfl
  refine ⟨rowsFit_bindGroups h.bindGroups hslot.indexRows, ?_, fun part hp => ?_,
    fun group row hrow => ?_⟩
  · rw [hslot.indexCols, hbehind.blocks]
    exact Nat.le_refl _
  · rw [hrows]
    exact exists_lookup_indexRows (List.mem_map_of_mem hp)
  · rw [hrows] at hrow
    have hmem := List.mem_of_getElem? (getElem?_of_lookup_indexRows hrow)
    rw [(List.perm_insertionSort _ _).mem_iff, List.mem_dedup] at hmem
    exact List.mem_map.mp hmem

section Behind

variable (h : rt.Behind specs probe base)

include h

theorem Behind.layerParts : rt.pipeline.layout.layerParts = base.layerParts := by
  rw [h.inLayout.layout_eq]

theorem Behind.wholeBlocks (hp : part ∈ rt.pipeline.layout.layerParts) :
    rt.pipeline.WholeBlocks part := by
  obtain ⟨_, _, _, _, _, _, hcon⟩ := h.construction
  rw [h.layerParts] at hp
  exact ⟨hcon.blockSize_eq hp ▸ hcon.blockSize_pos, h.inLayout.dvd part hp⟩

/-- The keys of the layer of a layer part. -/
theorem Behind.exists_key (hp : part ∈ rt.pipeline.layout.layerParts) :
    ∃ k ∈ rt.pipeline.layout.parts .key,
      k.blockSize = part.blockSize ∧ k.groupIndex = part.groupIndex := by
  obtain ⟨_, _, _, _, _, _, hcon⟩ := h.construction
  obtain ⟨k, hk, -, -, hsize, hgroup⟩ := Pipeline.exists_keys hcon h.layerParts hp
  exact ⟨k, hk, hsize, hgroup⟩

/-- The shape of a bound cache. -/
theorem Behind.cachePart_shape (hbound : rt.pipeline.Bound)
    (hp : part ∈ rt.pipeline.layout.layerParts) :
    (rt.pipeline.cachePart part).shape.2 =
      (part.numHeads, rt.pipeline.kernelTokens part, part.headSize) := by
  obtain ⟨_, _, _, _, _, _, hcon⟩ := h.construction
  exact (Pipeline.cachePart_columns hcon h.layerParts hbound hp).1

/-- The aggregate payload fits arena A. -/
theorem Behind.payload_le (hbound : rt.pipeline.Bound) (ha : rt.config.usesAggregate = true)
    (hslot : slot.Allocated rt.plan) (hw : rt.Windows idsByGroup tokens) :
    Pipeline.payloadBytes (rt.pipeline.aggregateSegments idsByGroup
      (rt.pipeline.layout.parts kvPart) 0) ≤ slot.arenaA.size := by
  obtain ⟨_, _, _, _, keys, values, hcon⟩ := h.construction
  have hle := @Pipeline.payload_le rt.pipeline idsByGroup tokens kvPart _ _ _ _ _ _ _ keys values
    hcon h.layerParts (fun part hp => h.wholeBlocks hp) hbound
    (by rw [planningConfig_usesAggregate, ha])
    (by rw [planningConfig_logicalBlocksPerChunk]; exact hw)
  rw [hslot.arenaA]
  exact Nat.le_trans hle h.arena

end Behind

/-! ### Agreement -/

/-- What both sides have to agree on about a chunk that was encoded from `slot` into `slot₁` and
comes into `slot'` of `rt`. -/
structure Agrees (rt : CompressionRuntime) (slot slot₁ slot' : Slot) (kv : KV)
    (idsByGroup : List (List Nat)) (kvPart : KVPart) (tokens : Nat → Nat) (chunk : EncodedChunk) :
    Prop where
  u8Bytes : chunk.u8Bytes = rt.dataBytes kvPart (some tokens)
  capacity : chunk.codecBytes ≤ slot'.arenaA.size
  plain : rt.config.pipeline.contains .codec = false → chunk.codecBytes = chunk.u8Bytes
  /-- The first `aux_bytes` are there to be sent, and what was encoded besides them is only
  temporary. -/
  aux : rt.auxBytes kvPart (some tokens) ≤ slot.aux.size ∧
    ∀ a, rt.auxBytes kvPart (some tokens) ≤ a → a < rt.layout.auxArenaBytes / 2 →
      slot₁.aux.mem a = slot.aux.mem a
  /-- The rows that are read back are among the first `aux_bytes`. -/
  auxRows : rt.config.usesQuantizer = true → ∀ part ∈ rt.layout.parts kvPart,
    Pipeline.bodyTokens part (tokens part.groupIndex) ≠ 0 →
      ∀ row ∈ part.auxSpans rt.config.logicalBlocksPerChunk,
        row.Within (rt.auxBytes kvPart (some tokens))
  /-- `raw_tail_bytes` is what was encoded, and nothing after it was written. -/
  rawTail : chunk.rawTailBytes = rt.layout.rawTailBytes kvPart tokens ∧
    rt.layout.rawTailBytes kvPart tokens ≤ slot.rawTail.size ∧
    ∀ a, rt.layout.rawTailBytes kvPart tokens ≤ a → slot₁.rawTail.mem a = slot.rawTail.mem a
  accepted : ∃ result, rt.decode kv slot' idsByGroup kvPart chunk.codecBytes chunk.u8Bytes tokens =
    .ok result
  refused : ∀ codecBytes u8Bytes : Int, u8Bytes ≠ rt.dataBytes kvPart (some tokens) →
    rt.decode kv slot' idsByGroup kvPart codecBytes u8Bytes tokens = .error .decodedSize

/-- `decode` gets past its checks. -/
theorem decode_ok {codecBytes u8Bytes : Nat} {result : Slot × KV}
    (hu8 : u8Bytes = rt.dataBytes kvPart (some tokens)) (hcapacity : codecBytes ≤ slot.arenaA.size)
    (hplain : rt.config.pipeline.contains .codec = false → codecBytes = u8Bytes)
    (hdecode : rt.pipeline.decode kv slot idsByGroup kvPart codecBytes u8Bytes tokens =
      some result) :
    rt.decode kv slot idsByGroup kvPart codecBytes u8Bytes tokens = .ok result := by
  have hsize : (0 : Int) ≤ codecBytes ∧ (codecBytes : Int) ≤ slot.arenaA.size :=
    ⟨Int.natCast_nonneg _, Int.ofNat_le.mpr hcapacity⟩
  have hpayload : ¬ (¬ rt.config.pipeline.contains .codec = true ∧ (codecBytes : Int) ≠ u8Bytes) := by
    rintro ⟨hstage, hne⟩
    exact hne (congrArg Nat.cast (hplain (Bool.eq_false_iff.mpr hstage)))
  rw [decode, if_neg (Classical.not_not.mpr (congrArg Nat.cast hu8)),
    if_neg (Classical.not_not.mpr hsize), if_neg hpayload, Int.toNat_natCast, Int.toNat_natCast,
    hdecode]

theorem decode_refused {codecBytes u8Bytes : Int}
    (h : u8Bytes ≠ rt.dataBytes kvPart (some tokens)) :
    rt.decode kv slot idsByGroup kvPart codecBytes u8Bytes tokens = .error .decodedSize := if_pos h

/-! ### Both sides -/

theorem dataBytes_eq (hstages : rt.pipeline.stages = rt.config.pipeline)
    (ha : rt.config.usesAggregate = false) :
    rt.dataBytes kvPart (some tokens) = rt.pipeline.streamBytes kvPart tokens := by
  rw [dataBytes, ha, if_neg Bool.false_ne_true, Option.any_some, Pipeline.streamBytes,
    hstages, ← layout]
  cases rt.layout.hasBody tokens with
  | false => rfl
  | true => rfl

theorem auxBytes_eq (hstages : rt.pipeline.stages = rt.config.pipeline) :
    rt.auxBytes kvPart (some tokens) = rt.pipeline.auxBytes kvPart tokens := by
  rw [auxBytes, Option.any_some, Pipeline.auxBytes, hstages, ← layout]
  cases rt.layout.hasBody tokens with
  | false => rfl
  | true => cases rt.config.pipeline.contains .quantizer <;> rfl

/-- The stream of a chunk with a body is that of a full chunk. -/
theorem Behind.streamBytes_eq (h : rt.Behind specs probe base)
    (hstages : rt.pipeline.stages = rt.config.pipeline) (ha : rt.config.usesAggregate = false)
    (hne : rt.pipeline.streamBytes kvPart tokens ≠ 0) :
    rt.pipeline.streamBytes kvPart tokens = base.packedBytesByPart kvPart := by
  obtain ⟨_, _, _, _, _, _, hcon⟩ := h.construction
  have hu8 : rt.pipeline.layout.u8BytesByPart = base.u8BytesByPart := by rw [h.inLayout.layout_eq]
  have hraw : rt.pipeline.layout.rawBytesByPart = base.rawBytesByPart := by
    rw [h.inLayout.layout_eq]
  have hq : rt.pipeline.stages.contains .quantizer = rt.config.usesQuantizer := by
    rw [hstages, contains_quantizer ha]
  rw [Pipeline.streamBytes, hq, hu8, hraw] at hne ⊢
  rw [hcon.packed_eq, planningConfig_usesQuantizer]
  split
  · split
    · exact (Nat.mul_one _).symm
    · exact hcon.raw_eq kvPart
  · next hbody => exact absurd (if_neg hbody) hne

/-- A worker that sends a chunk and one that receives it, with one layout, and the blocks of the
chunk on both. -/
structure Sides (sender receiver : CompressionRuntime) (slot slot' : Slot)
    (ids ids' : List (List Nat)) (tokens : Nat → Nat) : Prop where
  sends : ∃ specs select probe numLayers groupIndices,
    sender.Initialized specs select probe numLayers groupIndices
  receives : ∃ specs select probe numLayers groupIndices,
    receiver.Initialized specs select probe numLayers groupIndices
  layout_eq : receiver.layout = sender.layout
  pipeline_eq : receiver.config.pipeline = sender.config.pipeline
  allocated : slot.Allocated sender.plan
  allocated' : slot'.Allocated receiver.plan
  windows : sender.Windows ids tokens
  windows' : receiver.Windows ids' tokens

section Sides

variable {sender receiver : CompressionRuntime} {slot' : Slot} {ids ids' : List (List Nat)}
  {kv' : KV}

theorem Initialized.arenaBytes (h : rt.Initialized specs select probe numLayers groupIndices)
    (hslot : slot.Allocated rt.plan) : slot.arenaA.size = rt.layout.arenaBytes := by
  rw [hslot.arenaA, h.bindGroups]
  rfl

/-- The arenas of both sides have one size. -/
theorem Sides.arenaA (h : Sides sender receiver slot slot' ids ids' tokens) :
    slot'.arenaA.size = slot.arenaA.size := by
  obtain ⟨_, _, _, _, _, hsender⟩ := h.sends
  obtain ⟨_, _, _, _, _, hreceiver⟩ := h.receives
  rw [hsender.arenaBytes h.allocated, hreceiver.arenaBytes h.allocated', h.layout_eq]

theorem Sides.stages (h : Sides sender receiver slot slot' ids ids' tokens) :
    receiver.pipeline.stages = sender.pipeline.stages := by
  obtain ⟨_, _, _, _, _, hsender⟩ := h.sends
  obtain ⟨_, _, _, _, _, hreceiver⟩ := h.receives
  rw [hsender.stages, hreceiver.stages, h.pipeline_eq]

theorem Sides.usesAggregate (h : Sides sender receiver slot slot' ids ids' tokens) :
    receiver.config.usesAggregate = sender.config.usesAggregate := by
  rw [CompressionConfig.usesAggregate, h.pipeline_eq]
  rfl

/-- **Chunks of the stages** are accepted, for every combination of them. -/
theorem Sides.exists_agrees (h : Sides sender receiver slot slot' ids ids' tokens)
    (ha : sender.config.usesAggregate = false) (kv kv' : KV) (kvPart : KVPart) :
    ∃ slot₁ chunk, sender.encode kv slot ids kvPart tokens = some (slot₁, chunk) ∧
      receiver.Agrees slot slot₁ slot' kv' ids' kvPart tokens chunk := by
  obtain ⟨_, _, _, _, _, hsender⟩ := h.sends
  obtain ⟨_, _, _, _, _, hreceiver⟩ := h.receives
  obtain ⟨base, hbehind⟩ := hsender.exists_behind
  obtain ⟨base', hbehind'⟩ := hreceiver.exists_behind
  have ha' : receiver.config.usesAggregate = false := h.usesAggregate.trans ha
  have hroom := hbehind.slotRoom hsender.stages ha h.allocated
  have hroom' := hbehind'.slotRoom hreceiver.stages ha' h.allocated'
  have hlayout : receiver.pipeline.layout = sender.pipeline.layout := h.layout_eq
  have hstages := h.stages
  -- an output of the codec fits arena A
  have hcodec : sender.pipeline.stages.contains .codec = true →
      sender.pipeline.streamBytes kvPart tokens ≠ 0 → ∀ bytes : List UInt8,
        bytes.length = sender.pipeline.streamBytes kvPart tokens →
        (sender.pipeline.codec.encode bytes).length ≤ slot.arenaA.size := by
    intro hstage hne bytes hlength
    have huses : sender.config.usesCodec = true := by
      rw [hsender.stages] at hstage
      rw [CompressionConfig.usesCodec, ha, hstage]
      rfl
    have hprobe := hbehind.codec huses kvPart
    rw [← hbehind.streamBytes_eq hsender.stages ha hne, ← hlength, ← h.allocated.arenaA] at hprobe
    exact Nat.le_trans (hsender.codec bytes) hprobe
  obtain ⟨slot₁, chunk, hencode, hencoded⟩ := @Pipeline.exists_encode sender.pipeline kv slot
    sender.config.logicalBlocksPerChunk ids tokens kvPart (by rw [hsender.stages]; exact ha) hroom
    (indexRoom hsender hbehind h.allocated) h.windows hcodec
  have hstream : receiver.pipeline.streamBytes kvPart tokens =
      sender.pipeline.streamBytes kvPart tokens := by
    rw [Pipeline.streamBytes, Pipeline.streamBytes, hlayout, hstages]
  have haux : receiver.auxBytes kvPart (some tokens) = sender.pipeline.auxBytes kvPart tokens := by
    rw [auxBytes_eq hreceiver.stages, Pipeline.auxBytes, Pipeline.auxBytes, hlayout, hstages]
  have hu8 : chunk.u8Bytes = receiver.dataBytes kvPart (some tokens) := by
    rw [dataBytes_eq hreceiver.stages ha', hstream]
    exact hencoded.payload.u8Bytes
  have hcapacity : chunk.codecBytes ≤ slot'.arenaA.size := by
    rw [h.arenaA]
    exact hencoded.payload.capacity
  have hplain : receiver.config.pipeline.contains .codec = false →
      chunk.codecBytes = chunk.u8Bytes := by
    rw [h.pipeline_eq, ← hsender.stages]
    exact hencoded.payload.plain
  obtain ⟨result, hdecode⟩ := @Pipeline.exists_decode receiver.pipeline kv' slot'
    receiver.config.logicalBlocksPerChunk ids' tokens kvPart (by rw [hreceiver.stages]; exact ha')
    hroom' (indexRoom hreceiver hbehind' h.allocated') h.windows' chunk.codecBytes hcapacity
  rw [hstream, ← hencoded.payload.u8Bytes] at hdecode
  refine ⟨slot₁, chunk, hencode, hu8, hcapacity, hplain, ⟨?_, fun a hle hlt => ?_⟩,
    fun hq part hp hbody row hrow => ?_, ⟨?_, ?_, fun a hle => ?_⟩,
    ⟨result, decode_ok hu8 hcapacity hplain hdecode⟩, fun _ _ hne => decode_refused hne⟩
  · rw [haux, Pipeline.auxBytes]
    split
    · next hbody =>
        have hhalf := hroom.halves hbody.2 kvPart
        have hsize := hroom.aux
        omega
    · exact Nat.zero_le _
  · rw [haux] at hle
    rw [h.layout_eq] at hlt
    exact hencoded.aux a ⟨hle, hlt⟩
  · obtain ⟨hmem, rfl⟩ := @Construction.of_mem_parts receiver.pipeline.layout _ _ hp
    obtain ⟨_, _, _, _, _, _, hcon⟩ := hbehind'.construction
    have hstage : receiver.pipeline.stages.contains .quantizer = true := by
      rw [hreceiver.stages, contains_quantizer ha', hq]
    have hbytes : receiver.auxBytes part.kvPart (some tokens) = base'.auxBytesByPart part.kvPart := by
      rw [auxBytes_eq hreceiver.stages, Pipeline.auxBytes,
        if_pos ⟨Pipeline.hasBody_of_bodyTokens (hroom'.keys part hmem) hbody, hstage⟩,
        hbehind'.inLayout.layout_eq]
    have hpbase : part ∈ base'.layerParts := hbehind'.layerParts ▸ hmem
    rw [hbytes]
    refine hcon.aux_within (List.mem_flatMap.mpr ⟨part, Construction.mem_parts hpbase, ?_⟩)
    rw [planningConfig_logicalBlocksPerChunk]
    exact hrow
  · rw [h.layout_eq]
    exact hencoded.payload.rawTail
  · rw [h.layout_eq]
    exact hroom.tail kvPart tokens
  · rw [h.layout_eq] at hle
    exact hencoded.tail a hle

/-! ### Aggregate chunks -/

theorem auxBytes_of_body {rt : CompressionRuntime} {kvPart : KVPart} {tokens : Nat → Nat}
    (hq : rt.config.pipeline.contains .quantizer = true) (hbody : rt.layout.hasBody tokens = true) :
    rt.auxBytes kvPart (some tokens) = rt.layout.auxBytesByPart kvPart := by
  rw [auxBytes, Option.any_some, hbody, if_pos hq]
  rfl

/-- `data_bytes` counts the blocks that are encoded. -/
theorem dataBytes_aggregate (hbehind : rt.Behind specs probe base) (hbound : rt.pipeline.Bound)
    (ha : rt.config.usesAggregate = true) (hw : rt.Windows idsByGroup tokens) :
    rt.dataBytes kvPart (some tokens) =
      Pipeline.payloadBytes (rt.pipeline.aggregateSegments idsByGroup
        (rt.pipeline.layout.parts kvPart) 0) := by
  rw [dataBytes, if_pos ha, Pipeline.payloadBytes_aggregateSegments]
  refine congrArg List.sum (List.map_congr_left fun part hp => ?_)
  obtain ⟨hp, -⟩ := @Construction.of_mem_parts rt.pipeline.layout _ _ hp
  exact (Pipeline.segmentBytes_eq (hbehind.wholeBlocks hp) (hbehind.cachePart_shape hbound hp)
    (hw part hp)).symm

/-- Nothing of a chunk would be beside its blocks: no tokens of a last, partial block, and no
auxiliary rows. -/
def WithoutRest (rt : CompressionRuntime) (kvPart : KVPart) (tokens : Nat → Nat) : Prop :=
  (∀ part ∈ rt.layout.parts kvPart,
    tokens part.groupIndex % part.blockSize = 0 ∨ CompressionLayout.tokenBytes part = 0) ∧
  (rt.config.pipeline.contains .quantizer = true → rt.layout.hasBody tokens = true →
    rt.layout.auxBytesByPart kvPart = 0)

theorem rawTailBytes_eq_zero {layout : CompressionLayout} :
    layout.rawTailBytes kvPart tokens = 0 ↔ ∀ part ∈ layout.parts kvPart,
      tokens part.groupIndex % part.blockSize = 0 ∨ CompressionLayout.tokenBytes part = 0 := by
  rw [CompressionLayout.rawTailBytes, List.sum_eq_zero_iff, List.forall_mem_map]
  simp only [Nat.mul_eq_zero]

theorem Sides.encodeAggregate (h : Sides sender receiver slot slot' ids ids' tokens)
    (ha : sender.config.usesAggregate = true) (kv : KV) (kvPart : KVPart) :
    ∃ slot₁, sender.encode kv slot ids kvPart tokens =
        some (slot₁, ⟨receiver.dataBytes kvPart (some tokens),
          receiver.dataBytes kvPart (some tokens), 0⟩) ∧
      slot₁.aux.mem = slot.aux.mem ∧ slot₁.rawTail.mem = slot.rawTail.mem := by
  obtain ⟨_, _, _, _, _, hsender⟩ := h.sends
  obtain ⟨base, hbehind⟩ := hsender.exists_behind
  have hbytes : receiver.dataBytes kvPart (some tokens) =
      sender.dataBytes kvPart (some tokens) := by
    rw [dataBytes, dataBytes, h.usesAggregate, h.layout_eq, h.pipeline_eq]
  rw [hbytes, dataBytes_aggregate hbehind hsender.bound ha h.windows, encode, Pipeline.encode,
    if_pos (by rw [hsender.stages]; exact ha)]
  exact Pipeline.exists_encodeAggregate (fun part hp => (hbehind.wholeBlocks hp).pos)
    (indexRoom hsender hbehind h.allocated) h.windows
    (hbehind.payload_le hsender.bound ha h.allocated h.windows)

/-- **Aggregate chunks** without a rest are accepted. -/
theorem Sides.exists_agrees_aggregate (h : Sides sender receiver slot slot' ids ids' tokens)
    (ha : sender.config.usesAggregate = true) (kv kv' : KV)
    (hrest : sender.WithoutRest kvPart tokens) :
    ∃ slot₁ chunk, sender.encode kv slot ids kvPart tokens = some (slot₁, chunk) ∧
      receiver.Agrees slot slot₁ slot' kv' ids' kvPart tokens chunk := by
  obtain ⟨_, _, _, _, _, hreceiver⟩ := h.receives
  obtain ⟨base', hbehind'⟩ := hreceiver.exists_behind
  have ha' : receiver.config.usesAggregate = true := h.usesAggregate.trans ha
  obtain ⟨slot₁, hencode, haux, htail⟩ := h.encodeAggregate ha kv kvPart
  have hbytes : receiver.dataBytes kvPart (some tokens) =
      Pipeline.payloadBytes (receiver.pipeline.aggregateSegments ids'
        (receiver.pipeline.layout.parts kvPart) 0) :=
    dataBytes_aggregate hbehind' hreceiver.bound ha' h.windows'
  have hcapacity : receiver.dataBytes kvPart (some tokens) ≤ slot'.arenaA.size := by
    rw [hbytes]
    exact hbehind'.payload_le hreceiver.bound ha' h.allocated' h.windows'
  have hauxBytes : receiver.auxBytes kvPart (some tokens) = 0 := by
    by_cases hq : receiver.config.pipeline.contains .quantizer = true
    · by_cases hbody : receiver.layout.hasBody tokens = true
      · rw [auxBytes_of_body hq hbody, h.layout_eq]
        exact hrest.2 (h.pipeline_eq ▸ hq) (h.layout_eq ▸ hbody)
      · rw [auxBytes, Option.any_some, Bool.eq_false_iff.mpr hbody]
        rfl
    · rw [auxBytes, if_neg hq, ite_self]
  have hrawTail : receiver.layout.rawTailBytes kvPart tokens = 0 := by
    rw [h.layout_eq]
    exact rawTailBytes_eq_zero.mpr hrest.1
  obtain ⟨result, hdecode⟩ := @Pipeline.exists_decodeAggregate receiver.pipeline kv' slot' ids'
    tokens receiver.config.logicalBlocksPerChunk kvPart
    (fun part hp => (hbehind'.wholeBlocks hp).pos) (indexRoom hreceiver hbehind' h.allocated')
    h.windows' (hbytes ▸ hcapacity)
  have hdecode' : receiver.pipeline.decode kv' slot' ids' kvPart
      (receiver.dataBytes kvPart (some tokens)) (receiver.dataBytes kvPart (some tokens)) tokens =
      some result := by
    rw [Pipeline.decode, if_pos (by rw [hreceiver.stages]; exact ha')]
    exact hdecode
  refine ⟨slot₁, ⟨_, _, 0⟩, hencode, rfl, hcapacity, fun _ => rfl, ⟨?_, fun a _ _ => by rw [haux]⟩,
    fun hq => ?_, ⟨hrawTail.symm, ?_, fun a _ => by rw [htail]⟩,
    ⟨result, decode_ok rfl hcapacity (fun _ => rfl) hdecode'⟩, fun _ _ hne => decode_refused hne⟩
  · rw [hauxBytes]
    exact Nat.zero_le _
  · rw [CompressionConfig.usesQuantizer, ha'] at hq
    cases hq
  · rw [hrawTail]
    exact Nat.zero_le _

/-- The sizes of an aggregate chunk agree only without a rest. -/
theorem Sides.withoutRest (h : Sides sender receiver slot slot' ids ids' tokens)
    (ha : sender.config.usesAggregate = true) {slot₁ : Slot} {chunk : EncodedChunk}
    (hencode : sender.encode kv slot ids kvPart tokens = some (slot₁, chunk))
    (hagrees : receiver.Agrees slot slot₁ slot' kv' ids' kvPart tokens chunk) :
    sender.WithoutRest kvPart tokens := by
  obtain ⟨_, _, _, _, _, hsender⟩ := h.sends
  obtain ⟨base, hbehind⟩ := hsender.exists_behind
  obtain ⟨_, _, _, _, _, _, hcon⟩ := hbehind.construction
  refine ⟨?_, fun hq hbody => ?_⟩
  · obtain ⟨_, hencode', -⟩ := h.encodeAggregate ha kv kvPart
    obtain ⟨-, rfl⟩ := Prod.mk.inj (Option.some.inj (hencode.symm.trans hencode'))
    rw [← rawTailBytes_eq_zero, ← h.layout_eq]
    exact hagrees.rawTail.1.symm
  · -- no auxiliary arena is allocated
    have hsize : slot.aux.size = 0 := by
      rw [h.allocated.aux, hbehind.auxArena, hcon.assembled, assembleLayout,
        planningConfig_usesAggregate, ha]
      rfl
    have hle := hagrees.aux.1
    rw [hsize, auxBytes_of_body (h.pipeline_eq ▸ hq) (h.layout_eq ▸ hbody), h.layout_eq] at hle
    exact Nat.le_zero.mp hle

/-- The layers of a K/V part. -/
theorem Behind.exists_part (h : rt.Behind specs probe base) (kvPart : KVPart) :
    ∃ part, part ∈ rt.layout.parts kvPart := by
  obtain ⟨_, _, _, _, _, _, hcon⟩ := h.construction
  obtain ⟨item, hitem⟩ := List.exists_mem_of_ne_nil _ hcon.nonempty
  obtain ⟨part, hp, -⟩ := (hcon.built kvPart).exists_part (Specs.mem_sorted.mpr hitem)
  refine ⟨part, ?_⟩
  show part ∈ rt.pipeline.layout.parts kvPart
  rw [CompressionLayout.parts, h.layerParts]
  exact hp

/-- Layers that have heads leave no rest **when there is no quantizer and the tokens fill their
blocks**. -/
theorem Initialized.withoutRest_iff (h : rt.Initialized specs select probe numLayers groupIndices)
    (hchunk : 0 < rt.config.logicalBlocksPerChunk)
    (hheads : ∀ part ∈ rt.layout.layerParts, 0 < part.numHeads ∧ 0 < part.headSize)
    (hw : rt.Windows idsByGroup tokens) :
    rt.WithoutRest kvPart tokens ↔ rt.config.pipeline.contains .quantizer = false ∧
      ∀ part ∈ rt.layout.parts kvPart, tokens part.groupIndex % part.blockSize = 0 := by
  obtain ⟨base, hbehind⟩ := h.exists_behind
  obtain ⟨_, _, _, _, _, _, hcon⟩ := hbehind.construction
  have hbytes : ∀ part ∈ rt.layout.parts kvPart, CompressionLayout.tokenBytes part ≠ 0 := by
    intro part hp
    obtain ⟨hheads, hsize⟩ := hheads part (Construction.of_mem_parts hp).1
    exact Nat.ne_of_gt (Nat.mul_pos (Nat.mul_pos hheads hsize) Nat.two_pos)
  constructor
  · rintro ⟨htail, haux⟩
    have htail : ∀ part ∈ rt.layout.parts kvPart,
        tokens part.groupIndex % part.blockSize = 0 := fun part hp =>
      (htail part hp).resolve_right (hbytes part hp)
    refine ⟨Bool.eq_false_iff.mpr fun hq => ?_, htail⟩
    obtain ⟨part, hp⟩ := hbehind.exists_part kvPart
    obtain ⟨hmem, hkv⟩ := Construction.of_mem_parts hp
    have hbody : rt.layout.hasBody tokens = true := by
      refine Pipeline.hasBody_of_bodyTokens (hbehind.exists_key hmem) ?_
      rw [Pipeline.bodyTokens, htail part hp, Nat.sub_zero]
      exact Nat.ne_of_gt (hw part hmem).pos
    obtain ⟨hheads, hsize⟩ := hheads part hmem
    have hpos := hcon.auxBytes_pos (by rw [planningConfig_logicalBlocksPerChunk]; exact hchunk)
      (hbehind.layerParts ▸ hmem) hheads hsize
    have hzero := haux hq hbody
    rw [layout, hbehind.inLayout.layout_eq] at hzero
    rw [hkv] at hpos
    exact Nat.ne_of_gt hpos hzero
  · rintro ⟨hq, htail⟩
    refine ⟨fun part hp => Or.inl (htail part hp), fun hq' => ?_⟩
    rw [hq] at hq'
    cases hq'

/-- A layer with two heads, and chunks of two blocks. -/
def sampleConfig (stages : List Stage) : CompressionConfig :=
  { enabled := true, slotCount := 1, logicalBlocksPerChunk := 2, pipeline := stages }

def samplePlan (stages : List Stage) : Except PlanError (Option CompressionMemoryPlan) :=
  buildMemoryPlan (sampleConfig stages)
    ⟨[("a", { layerIndex := 0, blockSize := 4, numKvHeads := 2, headSize := 8,
              dtype := .bfloat16 })], by decide⟩
    (fun _ => .ok ⟨[(0, 0)], [(0, [0, 1])]⟩) ⟨700, (· + 2000), 10⟩ 2 1

/-- The runtime of a plan, whose codec puts out what it is given. -/
def ofPlan (plan : CompressionMemoryPlan) : CompressionRuntime where
  plan
  pipeline :=
    { ar := .words, layout := plan.layout.bindGroups fun _ => 0, blocksPerLogical := 2,
      stages := plan.config.pipeline, codec := ⟨id, fun bytes _ => bytes⟩,
      signs := fun _ _ _ _ => 0, headOrders := fun _ => [0, 1],
      caches := fun _ => ⟨.contiguous 0 2 (6, 2, 2, 16), View.contiguous_separated⟩ }

def slotOf (plan : CompressionMemoryPlan) : Slot where
  arenaA := ⟨plan.layout.arenaBytes, fun _ => 0⟩
  arenaB := ⟨arenaBBytes plan.config plan.layout, fun _ => 0⟩
  aux := ⟨plan.layout.auxArenaBytes, fun _ => 0⟩
  rawTail := ⟨plan.layout.rawTailCapacity, fun _ => 0⟩
  indexRows := numIndexRows plan.layout
  indexCols := plan.config.logicalBlocksPerChunk * plan.blocksPerLogical
  blockIndices _ _ := 0

/-- A plan of the sample, its caches bound. -/
structure Sampled (stages : List Stage) (plan : CompressionMemoryPlan) : Prop where
  planned : samplePlan stages = .ok (some plan)
  config : plan.config = sampleConfig stages
  bound : (ofPlan plan).pipeline.Bound
  parts : ∀ part ∈ (ofPlan plan).pipeline.layout.layerParts,
    part.blockSize = 4 ∧ part.groupIndex = 0

/-- The sample on both sides, with two blocks of the cache for its tokens. -/
theorem Sampled.sides {stages : List Stage} {plan : CompressionMemoryPlan}
    (h : Sampled stages plan) {n : Nat} (hlt : 4 < n) (hle : n ≤ 8) :
    Sides (ofPlan plan) (ofPlan plan) (slotOf plan) (slotOf plan) [[1, 2]] [[1, 2]]
      (fun _ => n) := by
  have hinit : ∃ specs select probe numLayers groupIndices,
      (ofPlan plan).Initialized specs select probe numLayers groupIndices :=
    ⟨_, _, _, _, fun _ => 0, by rw [CompressionRuntime.config, ofPlan, h.config]; exact h.planned,
      rfl, rfl, h.bound, fun bytes => Nat.le_add_right _ _⟩
  have hwindows : (ofPlan plan).Windows [[1, 2]] (fun _ => n) := by
    intro part hp
    obtain ⟨hsize, hgroup⟩ := h.parts part hp
    rw [hgroup]
    refine ⟨Nat.lt_of_le_of_lt (Nat.zero_le 4) hlt, ?_, ?_, ?_⟩
    · show 2 = (n + part.blockSize - 1) / part.blockSize
      rw [hsize]
      omega
    · rw [CompressionRuntime.config, ofPlan, h.config]
      exact Nat.le_refl 2
    · show ∀ b ∈ [2, 3, 4, 5], b < 6
      decide
  exact ⟨hinit, hinit, rfl, rfl, ⟨rfl, rfl, rfl, rfl, rfl, rfl⟩, ⟨rfl, rfl, rfl, rfl, rfl, rfl⟩,
    hwindows, hwindows⟩

/-- **Decoding accepts what encoding produces** if there is no aggregate stage or the chunk leaves
no rest, and only then. -/
theorem decode_accepts_iff (h : Sides sender receiver slot slot' ids ids' tokens) (kv kv' : KV)
    (kvPart : KVPart) :
    (∃ slot₁ chunk, sender.encode kv slot ids kvPart tokens = some (slot₁, chunk) ∧
      receiver.Agrees slot slot₁ slot' kv' ids' kvPart tokens chunk) ↔
        sender.config.usesAggregate = false ∨ sender.WithoutRest kvPart tokens := by
  constructor
  · rintro ⟨slot₁, chunk, hencode, hagrees⟩
    cases ha : sender.config.usesAggregate with
    | false => exact Or.inl rfl
    | true => exact Or.inr (h.withoutRest ha hencode hagrees)
  · rintro (ha | hrest)
    · exact h.exists_agrees ha kv kv' kvPart
    · cases ha : sender.config.usesAggregate with
      | false => exact h.exists_agrees ha kv kv' kvPart
      | true => exact h.exists_agrees_aggregate ha kv kv' hrest

/-- One block and one token of the next, through all stages. -/
theorem decode_accepts_sample :
    ∃ plan, samplePlan [.transformer, .quantizer, .codec] = .ok (some plan) ∧
      (ofPlan plan).layout.rawTailBytes .key (fun _ => 5) = 32 ∧
      ∃ slot₁ chunk, (ofPlan plan).encode (fun _ _ => 1) (slotOf plan) [[1, 2]] .key (fun _ => 5) =
          some (slot₁, chunk) ∧
        (ofPlan plan).Agrees (slotOf plan) slot₁ (slotOf plan) (fun _ _ => 0) [[1, 2]] .key
          (fun _ => 5) chunk := by
  have hsampled : ∃ plan, Sampled [.transformer, .quantizer, .codec] plan ∧
      (ofPlan plan).layout.rawTailBytes .key (fun _ => 5) = 32 :=
    ⟨_, ⟨rfl, rfl, by unfold Pipeline.Bound; decide +kernel, by decide +kernel⟩, by decide +kernel⟩
  obtain ⟨plan, hplan, htail⟩ := hsampled
  exact ⟨plan, hplan.planned, htail,
    (decode_accepts_iff (@Sampled.sides _ _ hplan 5 (by decide) (by decide)) _ _ .key).mpr
      (Or.inl (by rw [config, ofPlan, hplan.config]; rfl))⟩

/-- **One block and one token of the next as an aggregate**, and two blocks with an aggregate and
a quantizer. -/
theorem aggregate_disagrees :
    (∃ plan, samplePlan [.aggregate] = .ok (some plan) ∧
      Sides (ofPlan plan) (ofPlan plan) (slotOf plan) (slotOf plan) [[1, 2]] [[1, 2]]
        (fun _ => 5) ∧
      ∃ slot₁ chunk, (ofPlan plan).encode (fun _ _ => 1) (slotOf plan) [[1, 2]] .key (fun _ => 5) =
          some (slot₁, chunk) ∧
        chunk.rawTailBytes = 0 ∧ (ofPlan plan).layout.rawTailBytes .key (fun _ => 5) = 32 ∧
        ¬ (ofPlan plan).Agrees (slotOf plan) slot₁ (slotOf plan) (fun _ _ => 0) [[1, 2]] .key
          (fun _ => 5) chunk) ∧
    ∃ plan, samplePlan [.aggregate, .quantizer] = .ok (some plan) ∧
      Sides (ofPlan plan) (ofPlan plan) (slotOf plan) (slotOf plan) [[1, 2]] [[1, 2]]
        (fun _ => 8) ∧
      ∃ slot₁ chunk, (ofPlan plan).encode (fun _ _ => 1) (slotOf plan) [[1, 2]] .key (fun _ => 8) =
          some (slot₁, chunk) ∧
        (slotOf plan).aux.size = 0 ∧ (ofPlan plan).auxBytes .key (some fun _ => 8) = 512 ∧
        ¬ (ofPlan plan).Agrees (slotOf plan) slot₁ (slotOf plan) (fun _ _ => 0) [[1, 2]] .key
          (fun _ => 8) chunk := by
  have htail : ∃ plan, Sampled [.aggregate] plan ∧
      (ofPlan plan).layout.rawTailBytes .key (fun _ => 5) = 32 :=
    ⟨_, ⟨rfl, rfl, by unfold Pipeline.Bound; decide +kernel, by decide +kernel⟩, by decide +kernel⟩
  have haux : ∃ plan, Sampled [.aggregate, .quantizer] plan ∧ (slotOf plan).aux.size = 0 ∧
      (ofPlan plan).auxBytes .key (some fun _ => 8) = 512 :=
    ⟨_, ⟨rfl, rfl, by unfold Pipeline.Bound; decide +kernel, by decide +kernel⟩,
      by decide +kernel, by decide +kernel⟩
  constructor
  · obtain ⟨plan, hplan, htail⟩ := htail
    have hsides := @Sampled.sides _ _ hplan 5 (by decide) (by decide)
    obtain ⟨slot₁, hencode, -⟩ := hsides.encodeAggregate
      (by rw [config, ofPlan, hplan.config]; rfl) (fun _ _ => 1) .key
    refine ⟨plan, hplan.planned, hsides, slot₁, _, hencode, rfl, htail, fun hagrees => ?_⟩
    have hzero := hagrees.rawTail.1
    rw [htail] at hzero
    cases hzero
  · obtain ⟨plan, hplan, hsize, haux⟩ := haux
    have hsides := @Sampled.sides _ _ hplan 8 (by decide) (by decide)
    obtain ⟨slot₁, hencode, -⟩ := hsides.encodeAggregate
      (by rw [config, ofPlan, hplan.config]; rfl) (fun _ _ => 1) .key
    refine ⟨plan, hplan.planned, hsides, slot₁, _, hencode, hsize, haux, fun hagrees => ?_⟩
    have hle := hagrees.aux.1
    rw [hsize, haux] at hle
    exact absurd hle (by decide)

end Sides

end CompressionRuntime

end KVServe.Runtime
