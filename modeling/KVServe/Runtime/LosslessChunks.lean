import KVServe.Runtime.CacheColumns
import KVServe.Runtime.ChunkSizes
import KVServe.Runtime.LayerRoundTrip

/-!
# KVServe.Runtime.LosslessChunks

**A chunk without transformer and quantizer is restored**: what one pipeline encodes from its
caches, another decodes from the bytes that were sent into the blocks of its own caches, whatever
else their slots hold.
-/

namespace KVServe.Runtime

/-- A slot with the buffers that are planned for a layout. -/
structure Slot.Fits (slot : Slot) (cfg : CompressionConfig) (layout : CompressionLayout)
    (blocksPerLogical : Nat) : Prop where
  arenaA : slot.arenaA.size = layout.arenaBytes
  arenaB : slot.arenaB.size = arenaBBytes cfg layout
  aux : slot.aux.size = layout.auxArenaBytes
  rawTail : slot.rawTail.size = layout.rawTailCapacity
  indexRows : layout.indexRowsByGroup.length ≤ slot.indexRows
  indexCols : slot.indexCols = cfg.logicalBlocksPerChunk * blocksPerLogical

namespace Pipeline

variable {pl : Pipeline} {kv : KV} {slot : Slot} {idsByGroup : List (List Nat)}
  {tokens : Nat → Nat} {maxBlocks offset : Nat} {parts : List LayerPartLayout}
  {cache : List (Nat × Nat × Nat)} {contents : LayerPartLayout → Index → Cell}

/-! ### The loops over the layer parts -/

/-- The kernel blocks of the body of a layer part in the packed stream. -/
def bodySpan (pl : Pipeline) (tokens : Nat → Nat) (part : LayerPartLayout) : Span :=
  pl.packedSpan part (pl.bodyBlocks part (tokens part.groupIndex))

/-- The raw tails of some layer parts. -/
def tailsBytes (tokens : Nat → Nat) (parts : List LayerPartLayout) : Nat :=
  (parts.map fun part => tailBytes part (tokens part.groupIndex)).sum

/-- Arena B and the raw tail hold some layer parts, their raw tails one after the other. -/
def HoldsAll (pl : Pipeline) (tokens : Nat → Nat) (contents : LayerPartLayout → Index → Cell)
    (arenaB rawTail : Mem) : List LayerPartLayout → (offset : Nat) → Prop
  | [], _ => True
  | part :: rest, offset =>
      pl.Holds part (tokens part.groupIndex) offset (contents part) arenaB rawTail ∧
        HoldsAll pl tokens contents arenaB rawTail rest
          (offset + tailBytes part (tokens part.groupIndex))

theorem HoldsAll.congr {arenaB rawTail arenaB' rawTail' : Mem}
    (hpos : ∀ part ∈ parts, 0 < pl.kernelTokens part)
    (h : pl.HoldsAll tokens contents arenaB rawTail parts offset)
    (hbody : ∀ part ∈ parts, ∀ a, (pl.bodySpan tokens part).start ≤ a →
      a < (pl.bodySpan tokens part).stop → arenaB' a = arenaB a)
    (htail : ∀ a, offset ≤ a → a < offset + tailsBytes tokens parts → rawTail' a = rawTail a) :
    pl.HoldsAll tokens contents arenaB' rawTail' parts offset := by
  induction parts generalizing offset with
  | nil => trivial
  | cons part parts ih =>
      obtain ⟨hat, hrest⟩ := h
      rw [tailsBytes, List.map_cons, List.sum_cons, ← tailsBytes] at htail
      refine ⟨hat.congr (hpos part List.mem_cons_self) (hbody part List.mem_cons_self)
        fun a hle hlt => htail a hle (by omega), ?_⟩
      exact ih (fun q hq => hpos q (List.mem_cons_of_mem _ hq)) hrest
        (fun q hq => hbody q (List.mem_cons_of_mem _ hq))
        fun a hle hlt => htail a (by omega) (by omega)

/-- A layer part that is restored stays so while other layers are written. -/
theorem Restored.congr {part : LayerPartLayout} {ids : List Nat} {validTokens : Nat}
    {content : Index → Cell} {kv' : KV} (h : pl.Restored part ids validTokens content kv)
    (heq : kv' part.layerName = kv part.layerName) :
    pl.Restored part ids validTokens content kv' := by
  intro j hj x hx
  rw [← h j hj x hx, blocksAt, blocksAt, heq]

section Loops

variable (hnt : pl.stages.contains .transformer = false)
  (hnq : pl.stages.contains .quantizer = false)
  (hparts : ∀ part ∈ parts, part ∈ pl.layout.layerParts)
  (horder : ∀ part ∈ parts, pl.OrderPerm part)

include hnt hnq hparts horder

/-- **The loop of `encode`**: every layer part is held, and nothing else is written to arena B or
to the raw tail before the offset. -/
theorem foldlM_encodePart_spec (h : SlotRoom pl maxBlocks slot)
    (hw : pl.Windows maxBlocks idsByGroup tokens) (hreads : pl.Reads idsByGroup cache slot)
    (hfit : offset + tailsBytes tokens parts ≤ slot.rawTail.size)
    (hapart : parts.Pairwise fun p q => (pl.bodySpan tokens p).Disjoint (pl.bodySpan tokens q)) :
    ∃ mA mB mT, parts.foldlM (pl.encodePart kv cache tokens) (slot, offset) =
        some (((slot.setA mA).setB mB).setTail mT, offset + tailsBytes tokens parts) ∧
      pl.HoldsAll tokens (fun part => pl.blocksAt kv part (idsByGroup.getD part.groupIndex []))
        mB mT parts offset ∧
      (∀ a, (∀ part ∈ parts, a < (pl.bodySpan tokens part).start ∨
        (pl.bodySpan tokens part).stop ≤ a) → mB a = slot.arenaB.mem a) ∧
      ∀ a < offset, mT a = slot.rawTail.mem a := by
  induction parts generalizing slot offset with
  | nil => exact ⟨slot.arenaA.mem, slot.arenaB.mem, slot.rawTail.mem, rfl, trivial,
      fun _ _ => rfl, fun _ _ => rfl⟩
  | cons part parts ih =>
      have hp := hparts part List.mem_cons_self
      rw [tailsBytes, List.map_cons, List.sum_cons, ← tailsBytes] at hfit
      obtain ⟨hhead, hrest⟩ := List.pairwise_cons.mp hapart
      obtain ⟨mA, mB, mT, hstep, hat, hframeB, hframeT⟩ := @encodePart_spec pl part kv slot _
        maxBlocks offset tokens cache h hnt hnq hp (horder part List.mem_cons_self)
        (hreads part hp slot rfl) (hw part hp) (by omega)
      let none : Nat → Prop := fun _ => False
      have hkeeps : slot.Keeps none none (((slot.setA mA).setB mB).setTail mT) :=
        (Slot.Keeps.setA.trans .setB).trans (.setTail fun _ ha => ha.elim)
      obtain ⟨mA', mB', mT', hfold, hall, hframeB', hframeT'⟩ := @ih
        (((slot.setA mA).setB mB).setTail mT) (offset + tailBytes part (tokens part.groupIndex))
        (fun q hq => hparts q (List.mem_cons_of_mem _ hq))
        (fun q hq => horder q (List.mem_cons_of_mem _ hq)) (h.keeps hkeeps)
        (fun q hq s hs => hreads q hq s hs)
        (by show _ ≤ slot.rawTail.size; omega) hrest
      refine ⟨mA', mB', mT', ?_, ⟨?_, hall⟩, ?_, ?_⟩
      · rw [List.foldlM_cons, hstep, tailsBytes, List.map_cons, List.sum_cons, ← tailsBytes,
          ← Nat.add_assoc]
        exact hfold
      · -- the later layer parts write elsewhere
        refine hat.congr (h.whole part hp).kernelTokens_pos (fun a hle hlt => ?_)
          fun a _ hlt => hframeT' a hlt
        refine hframeB' a fun q hq => ?_
        have hlt : a < (pl.bodySpan tokens part).stop := hlt
        have hle : (pl.bodySpan tokens part).start ≤ a := hle
        rcases hhead q hq with hdis | hdis <;> omega
      · intro a ha
        exact (hframeB' a fun q hq => ha q (List.mem_cons_of_mem _ hq)).trans
          (hframeB a (ha part List.mem_cons_self))
      · intro a ha
        exact (hframeT' a (by omega)).trans (hframeT a (.inl ha))

/-- **The loop of `decode`**: every layer part that is held is restored. -/
theorem foldlM_decodePart_spec (h : SlotRoom pl maxBlocks slot)
    (hw : pl.Windows maxBlocks idsByGroup tokens) (hreads : pl.Reads idsByGroup cache slot)
    (hshape : ∀ part ∈ parts,
      (pl.cachePart part).shape.2 = (part.numHeads, pl.kernelTokens part, part.headSize))
    (hsep : ∀ part ∈ parts, (pl.cachePart part).Separated 2)
    (hnd : ∀ part ∈ parts, (idsByGroup.getD part.groupIndex []).Nodup)
    (hfit : offset + tailsBytes tokens parts ≤ slot.rawTail.size)
    (hnames : parts.Pairwise fun p q => p.layerName ≠ q.layerName)
    (hall : pl.HoldsAll tokens contents slot.arenaB.mem slot.rawTail.mem parts offset) :
    ∃ mA kv', parts.foldlM (pl.decodePart cache tokens) (slot, kv, offset) =
        some (slot.setA mA, kv', offset + tailsBytes tokens parts) ∧
      (∀ part ∈ parts, pl.Restored part (idsByGroup.getD part.groupIndex [])
        (tokens part.groupIndex) (contents part) kv') ∧
      ∀ name a, (∀ part ∈ parts, ¬ (name = part.layerName ∧
        pl.InBlocks part (pl.physicalIds (idsByGroup.getD part.groupIndex [])) a)) →
          kv' name a = kv name a := by
  induction parts generalizing slot kv offset with
  | nil => exact ⟨slot.arenaA.mem, kv, rfl, fun _ hp => absurd hp List.not_mem_nil,
      fun _ _ _ => rfl⟩
  | cons part parts ih =>
      have hself := List.mem_cons_self (a := part) (l := parts)
      have hp := hparts part hself
      rw [tailsBytes, List.map_cons, List.sum_cons, ← tailsBytes] at hfit
      obtain ⟨hhead, hrest⟩ := List.pairwise_cons.mp hnames
      obtain ⟨hat, hall⟩ := hall
      obtain ⟨mA, kv₁, hstep, hrestored, hframe⟩ := @decodePart_spec pl part kv slot _ maxBlocks
        offset (contents part) tokens cache h hnt hnq hp (horder part hself) (hshape part hself)
        (hsep part hself) (hreads part hp slot rfl) (hw part hp) (hnd part hself) (by omega) hat
      let none : Nat → Prop := fun _ => False
      have hkeeps : slot.Keeps none none (slot.setA mA) := .setA
      obtain ⟨mA', kv', hfold, hrestored', hframe'⟩ := @ih kv₁ (slot.setA mA) _
        (fun q hq => hparts q (List.mem_cons_of_mem _ hq))
        (fun q hq => horder q (List.mem_cons_of_mem _ hq)) (h.keeps hkeeps)
        (fun q hq s hs => hreads q hq s hs)
        (fun q hq => hshape q (List.mem_cons_of_mem _ hq))
        (fun q hq => hsep q (List.mem_cons_of_mem _ hq))
        (fun q hq => hnd q (List.mem_cons_of_mem _ hq))
        (by show _ ≤ slot.rawTail.size; omega) hrest hall
      refine ⟨mA', kv', ?_, ?_, ?_⟩
      · rw [List.foldlM_cons, hstep, tailsBytes, List.map_cons, List.sum_cons, ← tailsBytes,
          ← Nat.add_assoc]
        exact hfold
      · intro q hq
        rcases List.mem_cons.mp hq with rfl | hq
        · exact hrestored.congr (funext fun a => hframe' _ a fun r hr hno => hhead r hr hno.1)
        · exact hrestored' q hq
      · intro name a ha
        exact (hframe' name a fun q hq => ha q (List.mem_cons_of_mem _ hq)).trans
          (hframe name a (ha part hself))

end Loops

/-! ### The payload -/

/-- No stage changes an element: there is neither transformer nor quantizer, the head orders are
permutations, and the codec gives back what it was given. What it puts out of a stream fits the
arenas, which are planned for its largest output. -/
structure Lossless (pl : Pipeline) : Prop where
  noTransformer : pl.stages.contains .transformer = false
  noQuantizer : pl.stages.contains .quantizer = false
  orders : ∀ part ∈ pl.layout.layerParts, pl.OrderPerm part
  codec : pl.stages.contains .codec = true → ∀ bytes : List UInt8,
    pl.codec.decode (pl.codec.encode bytes) bytes.length = bytes
  output : pl.stages.contains .codec = true → ∀ (kvPart : KVPart) (tokens : Nat → Nat)
    (bytes : List UInt8), bytes.length = pl.streamBytes kvPart tokens →
      (pl.codec.encode bytes).length ≤ pl.layout.arenaBytes

/-- **The packed stream arrives**, through the codec or as it is. -/
theorem openPayload_sealPayload {sent slot' : Slot} {chunk : EncodedChunk}
    {u8Bytes rawTailBytes : Nat} (hlossless : pl.Lossless)
    (hseal : pl.sealPayload slot u8Bytes rawTailBytes rawTailBytes = some (sent, chunk))
    (hB : pl.layout.u8Base + u8Bytes ≤ slot'.arenaB.size) (hA : u8Bytes ≤ slot'.arenaA.size)
    (hcodec : chunk.codecBytes ≤ slot'.arenaA.size)
    (hsent : ∀ a < chunk.codecBytes, slot'.arenaA.mem a = sent.arenaA.mem a) :
    ∃ mB, pl.openPayload slot' chunk.codecBytes u8Bytes = some (slot'.setB mB) ∧
      ∀ k < u8Bytes, mB (pl.layout.u8Base + k) = slot.arenaB.mem (pl.layout.u8Base + k) := by
  rw [sealPayload] at hseal
  split at hseal
  · next hplain =>
      simp only [bind, Option.bind, pure, guard] at hseal
      split at hseal
      · cases hseal
      · obtain ⟨rfl, rfl⟩ := Prod.mk.inj (Option.some.inj hseal)
        have hno : ¬ (u8Bytes ≠ 0 ∧ pl.stages.contains .codec = true) := by tauto
        refine ⟨slot'.arenaB.mem.fill ⟨pl.layout.u8Base, u8Bytes⟩ slot'.arenaA.mem, ?_,
          fun k hk => ?_⟩
        · simp only [openPayload, guard, hB, hA, if_neg hno, if_true, bind, Option.bind, pure]
        · rw [Mem.fill_at hk, hsent k hk]
          have hfill := @Mem.fill_at slot.arenaA.mem ⟨0, u8Bytes⟩
            (fun k => slot.arenaB.mem (pl.layout.u8Base + k)) k hk
          rw [Nat.zero_add] at hfill
          exact hfill
  · next hcoded =>
      obtain ⟨hne, hstage⟩ := not_or.mp hcoded
      have hstage := not_not.mp hstage
      simp only [bind, Option.bind, pure, guard] at hseal
      split at hseal
      · cases hseal
      · split at hseal
        · cases hseal
        · obtain ⟨rfl, rfl⟩ := Prod.mk.inj (Option.some.inj hseal)
          generalize hstream : ((List.range u8Bytes).map fun k =>
            slot.arenaB.mem (pl.layout.u8Base + k)) = stream at *
          have hlength : stream.length = u8Bytes := by
            rw [← hstream, List.length_map, List.length_range]
          have hread : (List.range (pl.codec.encode stream).length).map slot'.arenaA.mem =
              pl.codec.encode stream := by
            refine List.ext_getElem (by simp) fun k hk hk' => ?_
            rw [List.getElem_map, List.getElem_range, hsent k hk']
            have hfill := @Mem.fill_at slot.arenaA.mem ⟨0, (pl.codec.encode stream).length⟩
              ((pl.codec.encode stream).getD · 0) k hk'
            rw [Nat.zero_add] at hfill
            exact hfill.trans (List.getD_eq_getElem _ _ hk')
          have hdecode := hlossless.codec hstage stream
          rw [hlength] at hdecode
          refine ⟨slot'.arenaB.mem.fill ⟨pl.layout.u8Base, u8Bytes⟩ (stream.getD · 0), ?_,
            fun k hk => ?_⟩
          · simp only [openPayload, guard, hB, hcodec, if_pos (And.intro hne hstage), if_true,
              hread, hdecode, bind, Option.bind, pure]
          · rw [Mem.fill_at hk, ← hstream, List.getD_eq_getElem _ _ (by simpa using hk),
              List.getElem_map, List.getElem_range]

/-! ### Chunks -/

section Chunks

variable {cfg : CompressionConfig} {low : Nat → Option Nat} {layers : Nat}
  {groups : String → Option Nat} {specs : Specs} {layout : CompressionLayout} {B : Nat}
  {keys values : Offsets} {kvPart : KVPart} {part : LayerPartLayout}

section Built

variable (h : Construction specs cfg low layers groups layout B keys values)
  (hin : pl.InLayout layout)

include h hin

omit h in
theorem layerParts_eq : pl.layout.layerParts = layout.layerParts := by
  rw [hin.layout_eq]

theorem indexRowsByGroup_eq : pl.layout.indexRowsByGroup =
    indexRows (pl.layout.layerParts.map (·.groupIndex)) := by
  rw [layerParts_eq hin]
  have hrows : pl.layout.indexRowsByGroup = layout.indexRowsByGroup := by rw [hin.layout_eq]
  rw [hrows, h.assembled]
  rfl

/-- The rows of a slot are those of the groups of the layers. -/
theorem Fits.indexRoom (hslot : slot.Fits cfg pl.layout pl.blocksPerLogical) :
    pl.IndexRoom cfg.logicalBlocksPerChunk slot := by
  have hrows := indexRowsByGroup_eq h hin
  refine ⟨⟨fun group row hrow => ?_, fun group group' row hrow hrow' => ?_⟩,
    Nat.le_of_eq hslot.indexCols.symm, fun part hp => ?_, fun group row hrow => ?_⟩
  · have hle := hslot.indexRows
    rw [hrows] at hrow hle
    rw [indexRows, List.length_zipIdx, List.length_insertionSort] at hle
    exact Nat.lt_of_lt_of_le (lookup_indexRows_lt hrow) hle
  · rw [hrows] at hrow hrow'
    exact lookup_indexRows_inj hrow hrow'
  · rw [hrows]
    exact exists_lookup_indexRows (List.mem_map_of_mem hp)
  · rw [hrows] at hrow
    have hmem := List.mem_of_getElem? (getElem?_of_lookup_indexRows hrow)
    rw [(List.perm_insertionSort _ _).mem_iff, List.mem_dedup] at hmem
    exact List.mem_map.mp hmem

variable (hq : cfg.usesQuantizer = false)
  (hw : pl.Windows cfg.logicalBlocksPerChunk idsByGroup tokens)

include hq hw

/-- The body of a layer part is in the part of the stream that is planned for it. -/
theorem bodySpan_sub (hp : part ∈ pl.layout.layerParts) :
    (pl.bodySpan tokens part).Sub ((part.streamRange cfg).shift pl.layout.u8Base) := by
  have hpos : 0 < part.blockSize := by
    rw [h.blockSize_eq (layerParts_eq hin ▸ hp)]
    exact h.blockSize_pos
  have hsub := @Construction.packed_sub cfg part pl _ ((hw part hp).bodyBlocks_le hpos).2
  rwa [hq, if_neg Bool.false_ne_true] at hsub

theorem pairwise_bodySpan : (pl.layout.parts kvPart).Pairwise fun p q =>
    (pl.bodySpan tokens p).Disjoint (pl.bodySpan tokens q) := by
  have hpairs := List.pairwise_map.mp ((h.stream kvPart).pairwise Nat.one_pos)
  rw [← parts_eq (layerParts_eq hin)] at hpairs
  refine hpairs.imp_of_mem fun {p q} hp hq' hdis => ?_
  exact (hdis.shift pl.layout.u8Base).mono
    (bodySpan_sub h hin hq hw (Construction.of_mem_parts hp).1)
    (bodySpan_sub h hin hq hw (Construction.of_mem_parts hq').1)

/-- The bytes of a body are bytes of the stream that is sent. -/
theorem bodySpan_stream (hnq : pl.stages.contains .quantizer = false)
    (hp : part ∈ pl.layout.parts kvPart) {a : Nat} (hle : (pl.bodySpan tokens part).start ≤ a)
    (hlt : a < (pl.bodySpan tokens part).stop) :
    pl.layout.u8Base ≤ a ∧ a < pl.layout.u8Base + pl.streamBytes kvPart tokens := by
  obtain ⟨hmem, hkv⟩ := Construction.of_mem_parts hp
  have hsub := bodySpan_sub h hin hq hw hmem
  rw [parts_eq (layerParts_eq hin)] at hp
  have hbounds := (h.stream kvPart).bounds Nat.one_pos (List.mem_map_of_mem hp)
  have hbody : pl.layout.hasBody tokens = true := by
    obtain ⟨k, hk, -, -, hsize, hgroup⟩ := exists_keys h (layerParts_eq hin) hmem
    refine hasBody_of_bodyTokens ⟨k, hk, hsize, hgroup⟩ fun hzero => ?_
    have hblocks : pl.bodyBlocks part (tokens part.groupIndex) = 0 := by
      rw [bodyBlocks, hzero, Nat.zero_div, Nat.zero_mul]
    simp only [bodySpan, packedSpan, Span.stop, hblocks, Nat.zero_mul, Nat.add_zero] at hle hlt
    omega
  have hstream : pl.streamBytes kvPart tokens = layout.packedBytesByPart kvPart := by
    have hraw : pl.layout.rawBytesByPart = layout.rawBytesByPart := by rw [hin.layout_eq]
    rw [streamBytes, if_pos hbody, hnq, if_neg Bool.false_ne_true, hraw, h.raw_eq, h.packed_eq, hq,
      if_neg Bool.false_ne_true]
  rw [hstream]
  simp only [Span.Sub, Span.shift, Span.stop] at hsub hbounds hlt ⊢
  omega

end Built

section Slots

variable (h : Construction specs cfg low layers groups layout B keys values)
  (hin : pl.InLayout layout) (hstages : pl.stages = cfg.pipeline)
  (ha : pl.stages.contains .aggregate = false)
  (hslot : slot.Fits cfg pl.layout pl.blocksPerLogical)

include h hin hstages ha hslot

omit h hin in
theorem Fits.arenaB_eq : slot.arenaB.size = pl.layout.arenaBytes := by
  have hno : cfg.usesAggregate = false := by rw [CompressionConfig.usesAggregate, ← hstages, ha]
  rw [hslot.arenaB, arenaBBytes, hno]
  rfl

theorem Fits.slotRoom : SlotRoom pl cfg.logicalBlocksPerChunk slot := by
  have hno : cfg.usesAggregate = false := by rw [CompressionConfig.usesAggregate, ← hstages, ha]
  have haux : pl.layout.auxArenaBytes = layout.auxArenaBytes := by rw [hin.layout_eq]
  have htail : pl.layout.rawTailCapacity = layout.rawTailCapacity := by
    rw [hin.layout_eq]
    rfl
  exact h.slotRoom hin hstages hno (hslot.arenaA ▸ hin.arena_le)
    (Fits.arenaB_eq hstages ha hslot ▸ hin.arena_le)
    (Nat.le_of_eq (haux.symm.trans hslot.aux.symm))
    (Nat.le_of_eq (htail.symm.trans hslot.rawTail.symm))

variable (hlossless : pl.Lossless) (hw : pl.Windows cfg.logicalBlocksPerChunk idsByGroup tokens)

include hlossless hw

/-- **What is sent of an encoded chunk** opens to a packed stream and a raw tail that hold every
layer part. -/
theorem encode_holds : ∃ sent chunk, pl.encode kv slot idsByGroup kvPart tokens =
      some (sent, chunk) ∧
    chunk.u8Bytes = pl.streamBytes kvPart tokens ∧ chunk.codecBytes ≤ pl.layout.arenaBytes ∧
    chunk.rawTailBytes = pl.layout.rawTailBytes kvPart tokens ∧
    ∀ slot' : Slot, slot'.Fits cfg pl.layout pl.blocksPerLogical →
      (∀ a < chunk.codecBytes, slot'.arenaA.mem a = sent.arenaA.mem a) →
      (∀ a < chunk.rawTailBytes, slot'.rawTail.mem a = sent.rawTail.mem a) →
      ∃ mB, pl.openPayload slot' chunk.codecBytes chunk.u8Bytes = some (slot'.setB mB) ∧
        pl.HoldsAll tokens
          (fun part => pl.blocksAt kv part (idsByGroup.getD part.groupIndex [])) mB
          slot'.rawTail.mem (pl.layout.parts kvPart) 0 := by
  have hroom := Fits.slotRoom h hin hstages ha hslot
  have hindex := Fits.indexRoom h hin hslot
  have hq : cfg.usesQuantizer = false := by
    rw [CompressionConfig.usesQuantizer, ← hstages, hlossless.noQuantizer, Bool.and_false]
  generalize hcleared : pl.clearStream slot kvPart tokens = cleared
  let none : Nat → Prop := fun _ => False
  let all : Nat → Prop := fun _ => True
  have hkeepsC : slot.Keeps none all cleared := by
    rw [← hcleared]
    exact Slot.Keeps.setB.trans (.setAux fun _ ha => ha.elim)
  have hindexC : pl.IndexRoom cfg.logicalBlocksPerChunk cleared := by
    rw [← hcleared]
    exact hindex.congr rfl rfl
  obtain ⟨rows, cache, hgroup, hreads⟩ :=
    exists_groupIndices hindexC (fun part hp => (hroom.whole part hp).pos) hw
  have hroomR := (hroom.keeps hkeepsC).withRows rows
  have hparts : ∀ part ∈ pl.layout.parts kvPart, part ∈ pl.layout.layerParts :=
    fun part hp => (Construction.of_mem_parts hp).1
  obtain ⟨mA, mB₁, mT, hfold, hall, -, -⟩ := @foldlM_encodePart_spec pl kv
    { cleared with blockIndices := rows } idsByGroup tokens cfg.logicalBlocksPerChunk 0
    (pl.layout.parts kvPart) cache hlossless.noTransformer hlossless.noQuantizer hparts
    (fun part hp => hlossless.orders part (hparts part hp)) hroomR hw hreads
    (by rw [Nat.zero_add]; exact hroomR.tail kvPart tokens) (pairwise_bodySpan h hin hq hw)
  rw [Nat.zero_add] at hfold
  let slot₁ := ((({ cleared with blockIndices := rows } : Slot).setA mA).setB mB₁).setTail mT
  have hkeeps₁ : ({ cleared with blockIndices := rows } : Slot).Keeps none none slot₁ :=
    (Slot.Keeps.setA.trans .setB).trans (.setTail fun _ ha => ha.elim)
  obtain ⟨hB, hA⟩ := (hroomR.keeps hkeeps₁).payload kvPart tokens
  have hsize : slot₁.arenaA.size = pl.layout.arenaBytes :=
    (hkeeps₁.arenaA.trans hkeepsC.arenaA).trans hslot.arenaA
  obtain ⟨sent, chunk, hseal, hkeeps', hpayload⟩ := @exists_sealPayload pl slot₁ none all
    (pl.streamBytes kvPart tokens) (pl.layout.rawTailBytes kvPart tokens) hB hA
    fun hstage _ bytes hbytes => hsize ▸ hlossless.output hstage kvPart tokens bytes hbytes
  refine ⟨sent, chunk, ?_, hpayload.u8Bytes, hsize ▸ hpayload.capacity, hpayload.rawTail,
    fun slot' hslot' hsentA hsentT => ?_⟩
  · rw [encode, ha, if_neg Bool.false_ne_true]
    simp only [hcleared, hgroup, hfold, bind, Option.bind]
    exact hseal
  · obtain ⟨hB', hA'⟩ := (Fits.slotRoom h hin hstages ha hslot').payload kvPart tokens
    obtain ⟨mB, hopen, hstream⟩ := openPayload_sealPayload hlossless hseal hB' hA'
      (hslot'.arenaA ▸ hsize ▸ hpayload.capacity) hsentA
    refine ⟨mB, hpayload.u8Bytes ▸ hopen, hall.congr
      (fun part hp => (hroom.whole part (hparts part hp)).kernelTokens_pos)
      (fun part hp a hle hlt => ?_) fun a _ hlt => ?_⟩
    · obtain ⟨hbase, hend⟩ := bodySpan_stream h hin hq hw hlossless.noQuantizer hp hle hlt
      have hbyte := hstream (a - pl.layout.u8Base) (by omega)
      rwa [Nat.add_sub_cancel' hbase] at hbyte
    · rw [Nat.zero_add] at hlt
      exact (hsentT a (hpayload.rawTail ▸ hlt)).trans (hkeeps'.tailMem a trivial)

/-- **A chunk that is held is restored.** -/
theorem decode_holds {contents : LayerPartLayout → Index → Cell} (hbound : pl.Bound)
    (hnd : ∀ part ∈ pl.layout.layerParts, (idsByGroup.getD part.groupIndex []).Nodup)
    {codecBytes u8Bytes : Nat} {mB : Mem}
    (hopen : pl.openPayload slot codecBytes u8Bytes = some (slot.setB mB))
    (hall : pl.HoldsAll tokens contents mB slot.rawTail.mem (pl.layout.parts kvPart) 0) :
    ∃ out kv', pl.decode kv slot idsByGroup kvPart codecBytes u8Bytes tokens = some (out, kv') ∧
      (∀ part ∈ pl.layout.parts kvPart, pl.Restored part (idsByGroup.getD part.groupIndex [])
        (tokens part.groupIndex) (contents part) kv') ∧
      ∀ name a, (∀ part ∈ pl.layout.parts kvPart, ¬ (name = part.layerName ∧
        pl.InBlocks part (pl.physicalIds (idsByGroup.getD part.groupIndex [])) a)) →
          kv' name a = kv name a := by
  have hroom := Fits.slotRoom h hin hstages ha hslot
  have hindex : pl.IndexRoom cfg.logicalBlocksPerChunk (slot.setB mB) :=
    (Fits.indexRoom h hin hslot).congr rfl rfl
  obtain ⟨rows, cache, hgroup, hreads⟩ :=
    exists_groupIndices hindex (fun part hp => (hroom.whole part hp).pos) hw
  let none : Nat → Prop := fun _ => False
  have hkeeps : slot.Keeps none none (slot.setB mB) := .setB
  have hroomR := (hroom.keeps hkeeps).withRows rows
  have hlayers := layerParts_eq hin
  have hparts : ∀ part ∈ pl.layout.parts kvPart, part ∈ pl.layout.layerParts :=
    fun part hp => (Construction.of_mem_parts hp).1
  have hnames : (pl.layout.parts kvPart).Pairwise fun p q => p.layerName ≠ q.layerName := by
    rw [parts_eq hlayers]
    exact List.pairwise_map.mp (h.nodup_layerNames kvPart)
  obtain ⟨mA, kv', hfold, hrestored, hframe⟩ := @foldlM_decodePart_spec pl kv
    { slot.setB mB with blockIndices := rows } idsByGroup tokens cfg.logicalBlocksPerChunk 0
    (pl.layout.parts kvPart) cache contents hlossless.noTransformer hlossless.noQuantizer hparts
    (fun part hp => hlossless.orders part (hparts part hp)) hroomR hw hreads
    (fun part hp => (cachePart_columns h hlayers hbound (hparts part hp)).1)
    (fun part hp => cachePart_separated h hlayers hbound (hparts part hp))
    (fun part hp => hnd part (hparts part hp))
    (by rw [Nat.zero_add]; exact hroomR.tail kvPart tokens) hnames hall
  refine ⟨({ slot.setB mB with blockIndices := rows } : Slot).setA mA, kv', ?_, hrestored, hframe⟩
  rw [decode, ha, if_neg Bool.false_ne_true]
  simp only [hopen, hgroup, hfold, bind, Option.bind, pure]

end Slots

end Chunks

end Pipeline

end KVServe.Runtime
