import KVServe.Runtime.AggregateRoundTrip
import KVServe.Runtime.LosslessChunks

/-!
# KVServe.Runtime.ChunkRoundTrip

**The round trip of a chunk** through a pipeline that changes no element, token by token: from the
blocks of one engine into those of another that has its own caches, blocks and slots.
-/

namespace KVServe.Runtime

namespace Pipeline

variable {pl : Pipeline} {part : LayerPartLayout} {kv : KV} {ids : List Nat}

/-- The pipeline of another engine, which is bound to its own caches. -/
def withCaches (pl : Pipeline) (caches : String → CacheTensor) : Pipeline := { pl with caches }

/-- What is held does not depend on the caches. -/
theorem HoldsAll.withCaches {tokens : Nat → Nat} {contents : LayerPartLayout → Index → Cell}
    {arenaB rawTail : Mem} {parts : List LayerPartLayout} {offset : Nat}
    (h : pl.HoldsAll tokens contents arenaB rawTail parts offset)
    (caches : String → CacheTensor) :
    (pl.withCaches caches).HoldsAll tokens contents arenaB rawTail parts offset := by
  induction parts generalizing offset with
  | nil => trivial
  | cons part parts ih => exact ⟨⟨h.1.body, h.1.tail⟩, ih h.2⟩

/-- An element of token `t` of some logical blocks. -/
def tokenAt (pl : Pipeline) (kv : KV) (part : LayerPartLayout) (ids : List Nat)
    (t head d : Nat) : Cell :=
  (pl.cachePart part).cell (kv part.layerName)
    (ids.getD (t / part.blockSize) 0 * pl.blocksPerLogical +
        t % part.blockSize / pl.kernelTokens part,
      head, t % part.blockSize % pl.kernelTokens part, d)

/-- A token stands in the kernel block that its number is in. -/
theorem tokenAt_eq (h : pl.WholeBlocks part) {t : Nat} (ht : t / part.blockSize < ids.length)
    (head d : Nat) : pl.tokenAt kv part ids t head d =
      pl.blocksAt kv part ids (t / pl.kernelTokens part, head, t % pl.kernelTokens part, d) := by
  have hpos := h.kernelTokens_pos
  have hmul := h.mul_kernelTokens
  have hk : t % part.blockSize / pl.kernelTokens part < pl.blocksPerLogical := by
    rw [Nat.div_lt_iff_lt_mul hpos, hmul]
    exact Nat.mod_lt t h.pos
  have hdiv : t / pl.kernelTokens part = t / part.blockSize * pl.blocksPerLogical +
      t % part.blockSize / pl.kernelTokens part := by
    have hsum : t = pl.kernelTokens part * (t / part.blockSize * pl.blocksPerLogical) +
        t % part.blockSize := by
      rw [Nat.mul_comm, Nat.mul_assoc, hmul, Nat.div_add_mod']
    conv_lhs => rw [hsum]
    rw [Nat.mul_add_div hpos]
  have hmod : t % part.blockSize % pl.kernelTokens part = t % pl.kernelTokens part :=
    Nat.mod_mod_of_dvd t ⟨pl.blocksPerLogical, by rw [Nat.mul_comm, hmul]⟩
  rw [tokenAt, blocksAt, hdiv, physicalIds_getD ht hk, hmod]

/-! ### Sending -/

/-- The slot of the other engine after the payload, the auxiliary rows and the raw tail were
copied into it. The rest of it holds anything. -/
structure Received (pl : Pipeline) (kvPart : KVPart) (tokens : Nat → Nat) (sent : Slot)
    (chunk : EncodedChunk) (slot : Slot) : Prop where
  payload : ∀ a < chunk.codecBytes, slot.arenaA.mem a = sent.arenaA.mem a
  aux : ∀ a < pl.auxBytes kvPart tokens, slot.aux.mem a = sent.aux.mem a
  rawTail : ∀ a < chunk.rawTailBytes, slot.rawTail.mem a = sent.rawTail.mem a

/-- What decoding has done to the caches of the other engine: the valid tokens of the part are
those of the sender, in a pipeline that is not aggregate the rest of a partial block is zero, and
all other blocks and the other part are as they were. -/
structure Delivered (pl pl' : Pipeline) (kvPart : KVPart) (tokens : Nat → Nat)
    (idsByGroup idsByGroup' : List (List Nat)) (kv before kv' : KV) : Prop where
  valid : ∀ part ∈ pl.layout.parts kvPart, ∀ t < tokens part.groupIndex,
    ∀ head < part.numHeads, ∀ d < part.headSize,
      pl'.tokenAt kv' part (idsByGroup'.getD part.groupIndex []) t head d =
        pl.tokenAt kv part (idsByGroup.getD part.groupIndex []) t head d
  unused : pl.stages.contains .aggregate = false → ∀ part ∈ pl.layout.parts kvPart,
    ∀ t, tokens part.groupIndex ≤ t →
      t < (idsByGroup'.getD part.groupIndex []).length * part.blockSize →
        ∀ head < part.numHeads, ∀ d < part.headSize,
          pl'.tokenAt kv' part (idsByGroup'.getD part.groupIndex []) t head d = (0, 0)
  blocks : ∀ part ∈ pl.layout.parts kvPart, ∀ x : Index, x.Inside (pl'.cachePart part).shape →
    x.1 ∉ pl'.physicalIds (idsByGroup'.getD part.groupIndex []) →
      (pl'.cachePart part).cell (kv' part.layerName) x =
        (pl'.cachePart part).cell (before part.layerName) x
  others : ∀ part ∈ pl.layout.layerParts, part.kvPart ≠ kvPart →
    ∀ x : Index, x.Inside (pl'.cachePart part).shape →
      (pl'.cachePart part).cell (kv' part.layerName) x =
        (pl'.cachePart part).cell (before part.layerName) x
  /-- No byte outside the blocks of the part is written, of any tensor. -/
  bytes : ∀ name a, (∀ part ∈ pl.layout.parts kvPart, ¬ (name = part.layerName ∧
    pl'.InBlocks part (pl'.physicalIds (idsByGroup'.getD part.groupIndex [])) a)) →
      kv' name a = before name a

section Chunk

variable {cfg : CompressionConfig} {low : Nat → Option Nat} {layers : Nat}
  {groups : String → Option Nat} {specs : Specs} {layout : CompressionLayout} {B : Nat}
  {keys values : Offsets} {kvPart : KVPart} {caches : String → CacheTensor}
  {idsByGroup idsByGroup' : List (List Nat)} {tokens : Nat → Nat} {slot : Slot}
  {before kv' : KV}

/-- The tokens of a window are in its blocks. -/
theorem Window.div_lt {maxBlocks validTokens t : Nat}
    (h : pl.Window maxBlocks part ids validTokens) (hpos : 0 < part.blockSize)
    (ht : t < validTokens) : t / part.blockSize < ids.length := by
  rw [h.count, Nat.div_lt_iff_lt_mul hpos]
  have hlt := Nat.lt_div_mul_add (a := validTokens + part.blockSize - 1) hpos
  omega

theorem wholeBlocks (h : Construction specs cfg low layers groups layout B keys values)
    (hin : pl.InLayout layout) (hp : part ∈ pl.layout.layerParts) : pl.WholeBlocks part := by
  rw [layerParts_eq hin] at hp
  exact ⟨h.blockSize_eq hp ▸ h.blockSize_pos, hin.dvd part hp⟩

/-- **Restored blocks are delivered tokens.** -/
theorem delivered_of_blocks (h : Construction specs cfg low layers groups layout B keys values)
    (hin : pl.InLayout layout) (hbound : (pl.withCaches caches).Bound)
    (hw : pl.Windows cfg.logicalBlocksPerChunk idsByGroup tokens)
    (hw' : (pl.withCaches caches).Windows cfg.logicalBlocksPerChunk idsByGroup' tokens)
    (hblocks : ∀ part ∈ pl.layout.parts kvPart,
      ∀ j < (pl.physicalIds (idsByGroup'.getD part.groupIndex [])).length, ∀ x : Index,
        Index.Inside (0, x.2) (1, part.numHeads, pl.kernelTokens part, part.headSize) →
        (j * pl.kernelTokens part + x.2.2.1 < tokens part.groupIndex →
          (pl.withCaches caches).blocksAt kv' part (idsByGroup'.getD part.groupIndex []) (j, x.2) =
            pl.blocksAt kv part (idsByGroup.getD part.groupIndex []) (j, x.2)) ∧
        (pl.stages.contains .aggregate = false →
          tokens part.groupIndex ≤ j * pl.kernelTokens part + x.2.2.1 →
            (pl.withCaches caches).blocksAt kv' part (idsByGroup'.getD part.groupIndex [])
              (j, x.2) = (0, 0)))
    (hframe : ∀ name a, (∀ part ∈ pl.layout.parts kvPart, ¬ (name = part.layerName ∧
      (pl.withCaches caches).InBlocks part
        (pl.physicalIds (idsByGroup'.getD part.groupIndex [])) a)) → kv' name a = before name a) :
    Delivered pl (pl.withCaches caches) kvPart tokens idsByGroup idsByGroup' kv before kv' := by
  have hlayers : (pl.withCaches caches).layout.layerParts = layout.layerParts :=
    @layerParts_eq pl layout hin
  have hmem : ∀ part ∈ pl.layout.parts kvPart, part ∈ pl.layout.layerParts ∧ part.kvPart = kvPart :=
    fun part hp => Construction.of_mem_parts hp
  -- the kernel block and the row of a token of a window
  have hrow : ∀ part ∈ pl.layout.parts kvPart, ∀ t,
      t / part.blockSize < (idsByGroup'.getD part.groupIndex []).length →
      t / pl.kernelTokens part < (pl.physicalIds (idsByGroup'.getD part.groupIndex [])).length ∧
        t / pl.kernelTokens part * pl.kernelTokens part + t % pl.kernelTokens part = t := by
    intro part hp t ht
    have hwhole := wholeBlocks h hin (hmem part hp).1
    refine ⟨?_, Nat.div_add_mod' _ _⟩
    rw [Nat.div_lt_iff_lt_mul hwhole.pos, ← hwhole.mul_kernelTokens, ← Nat.mul_assoc] at ht
    rw [length_physicalIds, Nat.div_lt_iff_lt_mul hwhole.kernelTokens_pos]
    exact ht
  refine ⟨?_, ?_, ?_, ?_, hframe⟩
  · intro part hp t ht head hhead d hd
    have hwhole := wholeBlocks h hin (hmem part hp).1
    have hwhole' : (pl.withCaches caches).WholeBlocks part := ⟨hwhole.pos, hwhole.dvd⟩
    have hdiv := (hw part (hmem part hp).1).div_lt hwhole.pos ht
    have hdiv' := (hw' part (hmem part hp).1).div_lt hwhole.pos ht
    obtain ⟨hj, ht'⟩ := hrow part hp t hdiv'
    rw [tokenAt_eq hwhole hdiv, tokenAt_eq hwhole' hdiv']
    refine (hblocks part hp _ hj (0, head, t % pl.kernelTokens part, d)
      ⟨Nat.one_pos, hhead, Nat.mod_lt _ hwhole.kernelTokens_pos, hd⟩).1 ?_
    rwa [ht']
  · intro ha part hp t hle hlt head hhead d hd
    have hwhole := wholeBlocks h hin (hmem part hp).1
    have hwhole' : (pl.withCaches caches).WholeBlocks part := ⟨hwhole.pos, hwhole.dvd⟩
    have hdiv' := (Nat.div_lt_iff_lt_mul hwhole.pos).mpr hlt
    obtain ⟨hj, ht'⟩ := hrow part hp t hdiv'
    rw [tokenAt_eq hwhole' hdiv']
    refine (hblocks part hp _ hj (0, head, t % pl.kernelTokens part, d)
      ⟨Nat.one_pos, hhead, Nat.mod_lt _ hwhole.kernelTokens_pos, hd⟩).2 ha ?_
    rwa [ht']
  · intro part hp x hx hnot
    have hsep := cachePart_separated h hlayers hbound (hmem part hp).1
    have hbyte : ∀ k < 2, kv' part.layerName
        (((pl.withCaches caches).cachePart part).addr x + k) =
        before part.layerName (((pl.withCaches caches).cachePart part).addr x + k) := by
      refine fun k hk => hframe _ _ fun other ho hno => ?_
      have hother : other = part := by
        refine List.inj_on_of_nodup_map (h.nodup_layerNames kvPart) ?_ ?_ hno.1.symm
        · rwa [← parts_eq hlayers]
        · rwa [← parts_eq hlayers]
      subst hother
      exact not_inBlocks (hw' other (hmem other hp).1).inside hsep hx hnot hk hno.2
    exact Mem.cell_congr (hbyte 0 (by decide)) (hbyte 1 (by decide))
  · intro part hp hkv x hx
    have hbyte : ∀ k < 2, kv' part.layerName
        (((pl.withCaches caches).cachePart part).addr x + k) =
        before part.layerName (((pl.withCaches caches).cachePart part).addr x + k) := by
      refine fun k hk => hframe _ _ fun other ho hno => ?_
      obtain ⟨b, hb, hcov⟩ := hno.2
      have hb := (hw' other (hmem other ho).1).inside b hb
      refine cachePart_apart h hlayers hbound hp (hmem other ho).1 hno.1
        ((hmem other ho).2 ▸ hkv) _ ⟨⟨x, hx, Nat.le_add_right _ k, Nat.add_lt_add_left hk _⟩, ?_⟩
      exact (View.narrow0Part hb).covers hcov
    exact Mem.cell_congr (hbyte 0 (by decide)) (hbyte 1 (by decide))

/-! ### The round trip -/

section RoundTrip

variable (h : Construction specs cfg low layers groups layout B keys values)
  (hin : pl.InLayout layout) (hstages : pl.stages = cfg.pipeline)
  (hbound : pl.Bound) (hbound' : (pl.withCaches caches).Bound)
  (hslot : slot.Fits cfg pl.layout pl.blocksPerLogical)
  (hw : pl.Windows cfg.logicalBlocksPerChunk idsByGroup tokens)
  (hw' : (pl.withCaches caches).Windows cfg.logicalBlocksPerChunk idsByGroup' tokens)
  (hnd : ∀ part ∈ pl.layout.layerParts, (idsByGroup'.getD part.groupIndex []).Nodup)

include h hin hstages hbound hbound' hslot hw hw' hnd

/-- An aggregate chunk. -/
theorem round_trip_aggregate (ha : pl.stages.contains .aggregate = true) :
    ∃ sent chunk, pl.encode kv slot idsByGroup kvPart tokens = some (sent, chunk) ∧
      ∀ slot' : Slot, slot'.Fits cfg pl.layout pl.blocksPerLogical →
        Received pl kvPart tokens sent chunk slot' →
        ∃ out kv', (pl.withCaches caches).decode before slot' idsByGroup' kvPart chunk.codecBytes
            chunk.u8Bytes tokens = some (out, kv') ∧
          Delivered pl (pl.withCaches caches) kvPart tokens idsByGroup idsByGroup' kv before
            kv' := by
  have huses : cfg.usesAggregate = true := by rw [CompressionConfig.usesAggregate, ← hstages, ha]
  have hwhole : ∀ part ∈ pl.layout.layerParts, pl.WholeBlocks part :=
    fun part hp => wholeBlocks h hin hp
  have hwhole' : ∀ part ∈ pl.layout.layerParts, (pl.withCaches caches).WholeBlocks part :=
    fun part hp => ⟨(hwhole part hp).pos, (hwhole part hp).dvd⟩
  have hpos : ∀ part ∈ pl.layout.layerParts, 0 < part.blockSize :=
    fun part hp => (hwhole part hp).pos
  have hlayers := layerParts_eq hin
  have hlayers' : (pl.withCaches caches).layout.layerParts = layout.layerParts := hlayers
  have hparts : ∀ part ∈ pl.layout.parts kvPart, part ∈ pl.layout.layerParts :=
    fun part hp => (Construction.of_mem_parts hp).1
  have hshape : ∀ part ∈ pl.layout.layerParts, ((pl.withCaches caches).cachePart part).shape.2 =
      (pl.cachePart part).shape.2 := fun part hp =>
    (cachePart_columns h hlayers' hbound' hp).1.trans (cachePart_columns h hlayers hbound hp).1.symm
  have hlength : ∀ part ∈ pl.layout.layerParts,
      (pl.physicalIds (idsByGroup'.getD part.groupIndex [])).length =
        (pl.physicalIds (idsByGroup.getD part.groupIndex [])).length := by
    intro part hp
    rw [length_physicalIds, length_physicalIds, (hw part hp).count, (hw' part hp).count]
  have hsegments : ∀ segment ∈ pl.aggregateSegments idsByGroup (pl.layout.parts kvPart) 0,
      pl.Segment idsByGroup segment := by
    intro segment hs
    have hp := hparts _ (mem_aggregateSegments hs)
    exact segment_of_mem (hwhole _ hp) (cachePart_columns h hlayers hbound hp).1 hw hs
  have hcapacity : payloadBytes (pl.aggregateSegments idsByGroup (pl.layout.parts kvPart) 0) ≤
      pl.layout.arenaBytes :=
    Nat.le_trans (payload_le h hlayers hwhole hbound huses hw) hin.arena_le
  -- the receiver has the same segments
  have hsame : (pl.withCaches caches).aggregateSegments idsByGroup' (pl.layout.parts kvPart) 0 =
      pl.aggregateSegments idsByGroup (pl.layout.parts kvPart) 0 := by
    refine aggregateSegments_congr 0 fun part hp => ?_
    have hp := hparts part hp
    have hcolumns := (cachePart_columns h hlayers' hbound' hp).1
    rw [segmentBytes_eq (hwhole part hp) (cachePart_columns h hlayers hbound hp).1 (hw part hp),
      segmentBytes_eq (hwhole' part hp) hcolumns (hw' part hp)]
  obtain ⟨sent, hencode, hsent⟩ := @encodeAggregate_spec pl kv slot _ idsByGroup tokens kvPart hpos
    (Fits.indexRoom h hin hslot) hw hsegments (hslot.arenaA ▸ hcapacity)
  refine ⟨sent, _, by rw [encode, if_pos ha]; exact hencode, fun slot' hslot' hreceived => ?_⟩
  have hall : ∀ segment ∈
      (pl.withCaches caches).aggregateSegments idsByGroup' (pl.layout.parts kvPart) 0,
      (pl.withCaches caches).SegmentAt idsByGroup' segment
        (pl.blocksAt kv segment.1 (idsByGroup.getD segment.1.groupIndex []))
        slot'.arenaA.mem := by
    intro segment hs
    rw [hsame] at hs
    have hp := (hsegments segment hs).mem
    have hat := (hsent segment hs).congr (hsegments segment hs) fun a _ hlt =>
      hreceived.payload a (Nat.lt_of_lt_of_le hlt (segment_within hs (Nat.le_refl _)))
    intro x hx
    have hids : ((pl.withCaches caches).segmentIds idsByGroup' segment).length =
        (pl.segmentIds idsByGroup segment).length := hlength segment.1 hp
    rw [hids, hshape segment.1 hp] at hx
    rw [hids, aggregateBuffer, hshape segment.1 hp]
    exact hat x hx
  have hsegments' : ∀ segment ∈ (pl.withCaches caches).aggregateSegments idsByGroup'
      (pl.layout.parts kvPart) 0, (pl.withCaches caches).Segment idsByGroup' segment := by
    intro segment hs
    have hp := hparts _ (mem_aggregateSegments hs)
    exact @segment_of_mem (pl.withCaches caches) _ idsByGroup' tokens segment kvPart
      (hwhole' _ hp) (cachePart_columns h hlayers' hbound' hp).1 hw' hs
  have hin' : (pl.withCaches caches).InLayout layout := ⟨hin.layout_eq, hin.arena_le, hin.dvd⟩
  obtain ⟨out, kv', hdecode, hrestored, hframe⟩ := @decodeAggregate_spec (pl.withCaches caches)
    before slot' _ idsByGroup' tokens kvPart hpos (Fits.indexRoom h hin' hslot') hw' hsegments'
    (hslot'.arenaA ▸ hsame ▸ hcapacity)
    (fun part => pl.blocksAt kv part (idsByGroup.getD part.groupIndex []))
    (fun part hp => cachePart_separated h hlayers' hbound' hp) hnd
    (by rw [parts_eq hlayers']; exact h.nodup_layerNames kvPart) hall
  have ha' : (pl.withCaches caches).stages.contains .aggregate = true := ha
  refine ⟨out, kv', by rw [decode, if_pos ha']; exact hdecode, ?_⟩
  refine delivered_of_blocks h hin hbound' hw hw' (fun part hp j hj x hx => ⟨fun _ => ?_, ?_⟩)
    hframe
  · refine hrestored part hp (j, x.2) ⟨hj, ?_⟩
    rw [(cachePart_columns h hlayers' hbound' (hparts part hp)).1]
    exact hx.2
  · intro hno
    rw [hno] at ha
    exact absurd ha Bool.false_ne_true

omit hbound in
/-- A chunk whose complete blocks go to the packed stream. -/
theorem round_trip_stream (hlossless : pl.Lossless)
    (ha : pl.stages.contains .aggregate = false) :
    ∃ sent chunk, pl.encode kv slot idsByGroup kvPart tokens = some (sent, chunk) ∧
      ∀ slot' : Slot, slot'.Fits cfg pl.layout pl.blocksPerLogical →
        Received pl kvPart tokens sent chunk slot' →
        ∃ out kv', (pl.withCaches caches).decode before slot' idsByGroup' kvPart chunk.codecBytes
            chunk.u8Bytes tokens = some (out, kv') ∧
          Delivered pl (pl.withCaches caches) kvPart tokens idsByGroup idsByGroup' kv before
            kv' := by
  obtain ⟨sent, chunk, hencode, -, -, -, hsent⟩ := @encode_holds pl kv slot idsByGroup tokens cfg
    low layers groups specs layout B keys values kvPart h hin hstages ha hslot hlossless hw
  refine ⟨sent, chunk, hencode, fun slot' hslot' hreceived => ?_⟩
  obtain ⟨mB, hopen, hall⟩ := hsent slot' hslot' hreceived.payload hreceived.rawTail
  obtain ⟨out, kv', hdecode, hrestored, hframe⟩ := @decode_holds (pl.withCaches caches) before
    slot' idsByGroup' tokens cfg low layers groups specs layout B keys values kvPart h
    ⟨hin.layout_eq, hin.arena_le, hin.dvd⟩ hstages ha hslot'
    ⟨hlossless.noTransformer, hlossless.noQuantizer, hlossless.orders, hlossless.codec,
      hlossless.output⟩ hw'
    (fun part => pl.blocksAt kv part (idsByGroup.getD part.groupIndex [])) hbound' hnd
    chunk.codecBytes chunk.u8Bytes mB hopen (hall.withCaches caches)
  refine ⟨out, kv', hdecode, delivered_of_blocks h hin hbound' hw hw' ?_ hframe⟩
  intro part hp j hj x hx
  have hcell := hrestored part hp j hj x hx
  refine ⟨fun hlt => hcell.trans (if_pos hlt), fun _ hle => hcell.trans (if_neg ?_)⟩
  exact Nat.not_lt.mpr hle

end RoundTrip

/-- **The round trip of a chunk.** Whatever the slots and the caches hold, a part of a chunk that is
encoded on one side and sent is decoded on the other: its valid tokens arrive in every layer, and
nothing else is written. -/
theorem round_trip (hbuild : buildCompressionLayout specs cfg low layers groups = .ok layout)
    (hin : pl.InLayout layout) (hstages : pl.stages = cfg.pipeline) (hlossless : pl.Lossless)
    (hbound : pl.Bound) (hbound' : (pl.withCaches caches).Bound)
    (hslot : slot.Fits cfg pl.layout pl.blocksPerLogical)
    (hw : pl.Windows cfg.logicalBlocksPerChunk idsByGroup tokens)
    (hw' : (pl.withCaches caches).Windows cfg.logicalBlocksPerChunk idsByGroup' tokens)
    (hnd : ∀ part ∈ pl.layout.layerParts, (idsByGroup'.getD part.groupIndex []).Nodup)
    (kv before : KV) (kvPart : KVPart) :
    ∃ sent chunk, pl.encode kv slot idsByGroup kvPart tokens = some (sent, chunk) ∧
      ∀ slot' : Slot, slot'.Fits cfg pl.layout pl.blocksPerLogical →
        Received pl kvPart tokens sent chunk slot' →
        ∃ out kv', (pl.withCaches caches).decode before slot' idsByGroup' kvPart chunk.codecBytes
            chunk.u8Bytes tokens = some (out, kv') ∧
          Delivered pl (pl.withCaches caches) kvPart tokens idsByGroup idsByGroup' kv before
            kv' := by
  obtain ⟨B, keys, values, h⟩ := buildCompressionLayout_cases hbuild
  cases ha : pl.stages.contains .aggregate with
  | true => exact round_trip_aggregate h hin hstages hbound hbound' hslot hw hw' hnd ha
  | false => exact round_trip_stream h hin hstages hbound' hslot hw hw' hnd hlossless ha

end Chunk

/-! ### Two heads -/

/-- Chunks of two blocks, through the codec. -/
def twoHeads : CompressionConfig :=
  { pipeline := [.codec], logicalBlocksPerChunk := 2, slotCountPos := Nat.two_pos,
    levels := CompressionConfig.default_levels }

theorem twoHeads_block_pos : 0 < 4 := by decide

def twoHeadSpecs : Specs :=
  ⟨[("a", { layerIndex := 0, blockSize := 4, numKvHeads := 2, headSize := 8, dtype := .bfloat16,
            blockSizePos := twoHeads_block_pos })], List.nodup_singleton "a"⟩

theorem sixBlocks_separated : (View.contiguous 0 2 (6, 2, 2, 16)).Separated 2 :=
  View.contiguous_separated

/-- A layer with two heads that are exchanged, and a codec that turns the stream around. -/
def exchanged (layout : CompressionLayout) : Pipeline where
  ar := .words
  layout
  blocksPerLogical := 2
  stages := [.codec]
  codec := ⟨List.reverse, fun bytes _ => bytes.reverse⟩
  signs _ _ _ _ := 0
  headOrders _ := [1, 0]
  caches _ := ⟨.contiguous 0 2 (6, 2, 2, 16), sixBlocks_separated⟩

/-- The caches of the receiver have fewer blocks. -/
def fourBlocks : String → CacheTensor :=
  fun _ => ⟨.contiguous 64 2 (4, 2, 2, 16), View.contiguous_separated⟩

/-- A block and a token of the next one. -/
theorem round_trip_exchanged :
    ∃ layout, buildCompressionLayout twoHeadSpecs twoHeads (fun _ => none) 1 = .ok layout ∧
      ∀ slot kv before, slot.Fits twoHeads layout 2 →
        ∃ sent chunk, (exchanged layout).encode kv slot [[1, 2]] .key (fun _ => 5) =
            some (sent, chunk) ∧
          ∀ slot' : Slot, slot'.Fits twoHeads layout 2 →
            Received (exchanged layout) .key (fun _ => 5) sent chunk slot' →
            ∃ out kv', ((exchanged layout).withCaches fourBlocks).decode before slot' [[1, 0]] .key
                chunk.codecBytes chunk.u8Bytes (fun _ => 5) = some (out, kv') ∧
              Delivered (exchanged layout) ((exchanged layout).withCaches fourBlocks) .key
                (fun _ => 5) [[1, 2]] [[1, 0]] kv before kv' := by
  obtain ⟨layout, hbuild, hparts, harena, hbound, hbound'⟩ : ∃ layout,
      buildCompressionLayout twoHeadSpecs twoHeads (fun _ => none) 1 = .ok layout ∧
        (∀ part ∈ layout.layerParts,
          part.blockSize = 4 ∧ part.numHeads = 2 ∧ part.groupIndex = 0) ∧
        (layout.rawBytesByPart .key ≤ layout.arenaBytes ∧
          layout.rawBytesByPart .value ≤ layout.arenaBytes) ∧
        (exchanged layout).Bound ∧ ((exchanged layout).withCaches fourBlocks).Bound :=
    ⟨_, rfl, by decide +kernel, by decide +kernel, by unfold Pipeline.Bound; decide +kernel,
      by unfold Pipeline.Bound; decide +kernel⟩
  have hlossless : (exchanged layout).Lossless := by
    refine ⟨rfl, rfl, fun part hp => ?_, fun _ => List.reverse_reverse,
      fun _ kvPart tokens bytes hbytes => ?_⟩
    · show [1, 0].Perm (List.range part.numHeads)
      rw [(hparts part hp).2.1]
      decide
    · show bytes.reverse.length ≤ layout.arenaBytes
      rw [List.length_reverse, hbytes, streamBytes]
      split
      · cases kvPart with
        | key => exact harena.1
        | value => exact harena.2
      · exact Nat.zero_le _
  refine ⟨layout, hbuild, fun slot kv before hslot => ?_⟩
  refine @round_trip (exchanged layout) twoHeads (fun _ => none) 1 (fun _ => none) twoHeadSpecs
    layout fourBlocks [[1, 2]] [[1, 0]] (fun _ => 5) slot hbuild ⟨rfl, Nat.le_refl _, ?_⟩ rfl
    hlossless hbound hbound' hslot ?_ ?_ ?_ kv before .key
  · intro part hp
    rw [(hparts part hp).1]
    exact Nat.dvd_mul_left 2 2
  · intro part hp
    obtain ⟨hsize, -, hgroup⟩ := hparts part hp
    rw [hgroup]
    refine ⟨by decide, by rw [hsize]; rfl, Nat.le_refl 2, ?_⟩
    show ∀ b ∈ [2, 3, 4, 5], b < 6
    decide
  · intro part hp
    obtain ⟨hsize, -, hgroup⟩ := hparts part hp
    rw [hgroup]
    refine ⟨by decide, by rw [hsize]; rfl, Nat.le_refl 2, ?_⟩
    show ∀ b ∈ [2, 3, 0, 1], b < 4
    decide
  · intro part hp
    rw [(hparts part hp).2.2]
    decide

end Pipeline

end KVServe.Runtime
