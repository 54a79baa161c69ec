import KVServe.Runtime.CacheColumns
import KVServe.Runtime.ChunkSizes
import KVServe.Runtime.LayerRoundTrip

/-!
# KVServe.Runtime.AggregateRoundTrip

An aggregate payload is the blocks of one layer part after the other, whole and as the cache has
them. **What is copied out of a payload is what was gathered into it**, positions after the last
valid token included.
-/

namespace KVServe.Runtime

namespace Pipeline

variable {pl : Pipeline} {part : LayerPartLayout} {kv : KV} {slot : Slot} {maxBlocks : Nat}
  {idsByGroup : List (List Nat)} {tokens : Nat → Nat} {cache : List (Nat × Nat × Nat)}
  {segments : List (LayerPartLayout × Span)} {segment : LayerPartLayout × Span}

/-! ### Segments -/

/-- The ids of a segment. -/
def segmentIds (pl : Pipeline) (idsByGroup : List (List Nat)) (segment : LayerPartLayout × Span) :
    List Nat :=
  pl.physicalIds (idsByGroup.getD segment.1.groupIndex [])

/-- The buffer of a segment is as long as its blocks are. -/
structure Segment (pl : Pipeline) (idsByGroup : List (List Nat))
    (segment : LayerPartLayout × Span) : Prop where
  mem : segment.1 ∈ pl.layout.layerParts
  size : segment.2.size =
    Index.numel ((pl.segmentIds idsByGroup segment).length, (pl.cachePart segment.1).shape.2) * 2

/-- The elements of a segment. -/
def SegmentAt (pl : Pipeline) (idsByGroup : List (List Nat)) (segment : LayerPartLayout × Span)
    (content : Index → Cell) (arenaA : Mem) : Prop :=
  ∀ x : Index, x.Inside ((pl.segmentIds idsByGroup segment).length,
    (pl.cachePart segment.1).shape.2) →
      (pl.aggregateBuffer segment.1 segment.2 (pl.segmentIds idsByGroup segment).length).cell arenaA
        x = content x

theorem Segment.covers (h : pl.Segment idsByGroup segment) {a : Nat}
    (hcov : (pl.aggregateBuffer segment.1 segment.2
      (pl.segmentIds idsByGroup segment).length).Covers 2 a) :
    segment.2.start ≤ a ∧ a < segment.2.stop := by
  have hspan := View.contiguous_covers hcov
  rw [Span.stop, h.size]
  exact hspan

theorem SegmentAt.congr {content : Index → Cell} {arenaA arenaA' : Mem}
    (h : pl.Segment idsByGroup segment) (hat : pl.SegmentAt idsByGroup segment content arenaA)
    (heq : ∀ a, segment.2.start ≤ a → a < segment.2.stop → arenaA' a = arenaA a) :
    pl.SegmentAt idsByGroup segment content arenaA' := by
  intro x hx
  rw [← hat x hx]
  have hbyte : ∀ b < 2, arenaA' ((pl.aggregateBuffer segment.1 segment.2
      (pl.segmentIds idsByGroup segment).length).addr x + b) =
      arenaA ((pl.aggregateBuffer segment.1 segment.2
        (pl.segmentIds idsByGroup segment).length).addr x + b) := by
    intro b hb
    obtain ⟨hle, hlt⟩ := h.covers ⟨x, hx, Nat.le_add_right _ b, Nat.add_lt_add_left hb _⟩
    exact heq _ hle hlt
  exact Mem.cell_congr (hbyte 0 (by decide)) (hbyte 1 (by decide))

/-! ### The loops over the segments -/

section Loops

variable (hsegments : ∀ segment ∈ segments, pl.Segment idsByGroup segment)
  (hw : pl.Windows maxBlocks idsByGroup tokens) (hreads : pl.Reads idsByGroup cache slot)
  (hwithin : ∀ segment ∈ segments, segment.2.Within slot.arenaA.size)

include hsegments hw hreads hwithin

/-- **The loop of `_encode_aggregate`.** -/
theorem foldlM_encodeSegment_spec
    (hapart : segments.Pairwise fun s t => s.2.Disjoint t.2) :
    ∃ mA, segments.foldlM (pl.encodeSegment kv cache) slot = some (slot.setA mA) ∧
      (∀ segment ∈ segments, pl.SegmentAt idsByGroup segment
        (pl.blocksAt kv segment.1 (idsByGroup.getD segment.1.groupIndex [])) mA) ∧
      ∀ a, (∀ segment ∈ segments, a < segment.2.start ∨ segment.2.stop ≤ a) →
        mA a = slot.arenaA.mem a := by
  induction segments generalizing slot with
  | nil => exact ⟨slot.arenaA.mem, rfl, fun _ hs => absurd hs List.not_mem_nil, fun _ _ => rfl⟩
  | cons segment segments ih =>
      have hself := hsegments segment List.mem_cons_self
      obtain ⟨hhead, hrest⟩ := List.pairwise_cons.mp hapart
      let buffer := pl.aggregateBuffer segment.1 segment.2
        (pl.segmentIds idsByGroup segment).length
      let content := pl.blocksAt kv segment.1 (idsByGroup.getD segment.1.groupIndex [])
      let mA := buffer.storeCells content slot.arenaA.mem
      have hstep : pl.encodeSegment kv cache slot segment = some (slot.setA mA) := by
        simp only [encodeSegment, hreads segment.1 hself.mem slot rfl,
          selectBlocks_eq (hw segment.1 hself.mem).inside, guard,
          hwithin segment List.mem_cons_self, if_true, bind, Option.bind, pure]
        rfl
      obtain ⟨mA', hfold, hall, hframe⟩ := @ih (slot.setA mA)
        (fun s hs => hsegments s (List.mem_cons_of_mem _ hs))
        (fun p hp s hs => hreads p hp s hs)
        (fun s hs => hwithin s (List.mem_cons_of_mem _ hs)) hrest
      refine ⟨mA', ?_, ?_, ?_⟩
      · rw [List.foldlM_cons, hstep]
        exact hfold
      · intro s hs
        rcases List.mem_cons.mp hs with rfl | hs
        · -- the later segments are written elsewhere
          have hat : pl.SegmentAt idsByGroup s content mA := fun x hx =>
            View.cell_storeCells View.contiguous_separated hx
          refine hat.congr hself fun a hle hlt => hframe a fun t ht => ?_
          rcases hhead t ht with hdis | hdis <;> omega
        · exact hall s hs
      · intro a ha
        refine (hframe a fun s hs => ha s (List.mem_cons_of_mem _ hs)).trans
          (View.storeCells_frame fun hcov => ?_)
        obtain ⟨hle, hlt⟩ := hself.covers hcov
        rcases ha segment List.mem_cons_self with hout | hout <;> omega

/-- **The loop of `_decode_aggregate`.** -/
theorem foldlM_decodeSegment_spec {contents : LayerPartLayout → Index → Cell}
    (hsep : ∀ segment ∈ segments, (pl.cachePart segment.1).Separated 2)
    (hnd : ∀ segment ∈ segments, (idsByGroup.getD segment.1.groupIndex []).Nodup)
    (hnames : segments.Pairwise fun s t => s.1.layerName ≠ t.1.layerName)
    (hall : ∀ segment ∈ segments,
      pl.SegmentAt idsByGroup segment (contents segment.1) slot.arenaA.mem) :
    ∃ kv', segments.foldlM (pl.decodeSegment cache slot) kv = some kv' ∧
      (∀ segment ∈ segments, ∀ x : Index, x.Inside ((pl.segmentIds idsByGroup segment).length,
        (pl.cachePart segment.1).shape.2) →
          pl.blocksAt kv' segment.1 (idsByGroup.getD segment.1.groupIndex []) x =
            contents segment.1 x) ∧
      ∀ name a, (∀ segment ∈ segments, ¬ (name = segment.1.layerName ∧
        pl.InBlocks segment.1 (pl.segmentIds idsByGroup segment) a)) → kv' name a = kv name a := by
  induction segments generalizing kv with
  | nil => exact ⟨kv, rfl, fun _ hs => absurd hs List.not_mem_nil, fun _ _ _ => rfl⟩
  | cons segment segments ih =>
      have hmem := List.mem_cons_self (a := segment) (l := segments)
      have hself := hsegments segment hmem
      obtain ⟨hhead, hrest⟩ := List.pairwise_cons.mp hnames
      obtain ⟨kv₁, hcopy, hcells, hframe⟩ := @copyBlocks_spec pl segment.1 kv
        (pl.segmentIds idsByGroup segment) (hw segment.1 hself.mem).inside
        (nodup_physicalIds (hnd segment hmem)) (hsep segment hmem)
        ((pl.aggregateBuffer segment.1 segment.2
          (pl.segmentIds idsByGroup segment).length).cell slot.arenaA.mem)
      have hstep : pl.decodeSegment cache slot kv segment = some kv₁ := by
        simp only [decodeSegment, hreads segment.1 hself.mem slot rfl, guard, hwithin segment hmem,
          if_true, bind, Option.bind]
        exact hcopy
      obtain ⟨kv', hfold, hrestored, hframe'⟩ := @ih kv₁
        (fun s hs => hsegments s (List.mem_cons_of_mem _ hs))
        (fun s hs => hwithin s (List.mem_cons_of_mem _ hs))
        (fun s hs => hsep s (List.mem_cons_of_mem _ hs))
        (fun s hs => hnd s (List.mem_cons_of_mem _ hs)) hrest
        (fun s hs => hall s (List.mem_cons_of_mem _ hs))
      refine ⟨kv', ?_, ?_, ?_⟩
      · rw [List.foldlM_cons, hstep]
        exact hfold
      · intro s hs x hx
        rcases List.mem_cons.mp hs with rfl | hs
        · have hlayer : kv' s.1.layerName = kv₁ s.1.layerName :=
            funext fun a => hframe' _ a fun t ht hno => hhead t ht hno.1
          rw [blocksAt, hlayer]
          exact (hcells x.1 hx.1 x ⟨Nat.one_pos, hx.2⟩).trans (hall s hmem x hx)
        · exact hrestored s hs x hx
      · intro name a ha
        exact (hframe' name a fun s hs => ha s (List.mem_cons_of_mem _ hs)).trans
          (hframe name a (ha segment hmem))

end Loops

/-! ### The segments of a chunk -/

/-- Two pipelines with segments of the same sizes have the same segments. -/
theorem aggregateSegments_congr {pl' : Pipeline} {idsByGroup' : List (List Nat)}
    {parts : List LayerPartLayout} (offset : Nat)
    (h : ∀ part ∈ parts, pl'.segmentBytes idsByGroup' part = pl.segmentBytes idsByGroup part) :
    pl'.aggregateSegments idsByGroup' parts offset =
      pl.aggregateSegments idsByGroup parts offset := by
  induction parts generalizing offset with
  | nil => rfl
  | cons part parts ih =>
      have hpart : pl'.segmentBytes idsByGroup' part = pl.segmentBytes idsByGroup part :=
        h part List.mem_cons_self
      have hrest := ih (offset + pl.segmentBytes idsByGroup part)
        fun q hq => h q (List.mem_cons_of_mem _ hq)
      show (part, ⟨offset, pl'.segmentBytes idsByGroup' part⟩) :: pl'.aggregateSegments idsByGroup'
          parts (offset + pl'.segmentBytes idsByGroup' part) =
        (part, ⟨offset, pl.segmentBytes idsByGroup part⟩) :: pl.aggregateSegments idsByGroup parts
          (offset + pl.segmentBytes idsByGroup part)
      rw [hpart, hrest]

/-- There is a segment for every layer part, in their order. -/
theorem map_fst_aggregateSegments (parts : List LayerPartLayout) (offset : Nat) :
    (pl.aggregateSegments idsByGroup parts offset).map Prod.fst = parts := by
  induction parts generalizing offset with
  | nil => rfl
  | cons part parts ih => rw [aggregateSegments, List.map_cons, ih]

theorem size_of_mem_aggregateSegments {parts : List LayerPartLayout} {offset : Nat}
    (h : segment ∈ pl.aggregateSegments idsByGroup parts offset) :
    segment.2.size = pl.segmentBytes idsByGroup segment.1 := by
  induction parts generalizing offset with
  | nil => exact absurd h List.not_mem_nil
  | cons part parts ih =>
      rw [aggregateSegments] at h
      rcases List.mem_cons.mp h with rfl | h
      · rfl
      · exact ih h

/-- The segment of a layer part has the bytes of its blocks. -/
theorem segment_of_mem {kvPart : KVPart} (hwhole : pl.WholeBlocks segment.1)
    (hshape : (pl.cachePart segment.1).shape.2 =
      (segment.1.numHeads, pl.kernelTokens segment.1, segment.1.headSize))
    (hw : pl.Windows maxBlocks idsByGroup tokens)
    (h : segment ∈ pl.aggregateSegments idsByGroup (pl.layout.parts kvPart) 0) :
    pl.Segment idsByGroup segment := by
  have hmem := (Construction.of_mem_parts (mem_aggregateSegments h)).1
  refine ⟨hmem, ?_⟩
  rw [size_of_mem_aggregateSegments h, segmentBytes_eq hwhole hshape (hw segment.1 hmem),
    segmentIds, length_physicalIds, (hw segment.1 hmem).count, hshape, Index.numel,
    ← hwhole.mul_kernelTokens]
  ring

section Chunk

variable {kvPart : KVPart} (hpos : ∀ part ∈ pl.layout.layerParts, 0 < part.blockSize)
  (hindex : pl.IndexRoom maxBlocks slot) (hw : pl.Windows maxBlocks idsByGroup tokens)
  (hsegments : ∀ segment ∈ pl.aggregateSegments idsByGroup (pl.layout.parts kvPart) 0,
    pl.Segment idsByGroup segment)
  (hcapacity : payloadBytes (pl.aggregateSegments idsByGroup (pl.layout.parts kvPart) 0) ≤
    slot.arenaA.size)

include hpos hindex hw hsegments hcapacity

/-- **An aggregate payload holds the blocks of every layer part.** -/
theorem encodeAggregate_spec :
    ∃ sent, pl.encodeAggregate kv slot idsByGroup kvPart =
        some (sent, ⟨payloadBytes (pl.aggregateSegments idsByGroup (pl.layout.parts kvPart) 0),
          payloadBytes (pl.aggregateSegments idsByGroup (pl.layout.parts kvPart) 0), 0⟩) ∧
      ∀ segment ∈ pl.aggregateSegments idsByGroup (pl.layout.parts kvPart) 0,
        pl.SegmentAt idsByGroup segment
          (pl.blocksAt kv segment.1 (idsByGroup.getD segment.1.groupIndex [])) sent.arenaA.mem := by
  obtain ⟨rows, cache, hgroup, hreads⟩ := exists_groupIndices hindex hpos hw
  have hplaced := pl.aggregateSegments_placed idsByGroup (pl.layout.parts kvPart) 0
  obtain ⟨mA, hfold, hall, -⟩ := @foldlM_encodeSegment_spec pl kv
    { slot with blockIndices := rows } maxBlocks idsByGroup tokens cache _ hsegments hw hreads
    (fun _ hs => segment_within hs hcapacity)
    (List.pairwise_map.mp (hplaced.pairwise Nat.one_pos))
  refine ⟨({ slot with blockIndices := rows } : Slot).setA mA, ?_, hall⟩
  simp only [encodeAggregate, hgroup, hfold, bind, Option.bind, pure]

/-- **The blocks of a payload are copied into the cache**, and nothing else of it changes. -/
theorem decodeAggregate_spec {contents : LayerPartLayout → Index → Cell}
    (hsep : ∀ part ∈ pl.layout.layerParts, (pl.cachePart part).Separated 2)
    (hnd : ∀ part ∈ pl.layout.layerParts, (idsByGroup.getD part.groupIndex []).Nodup)
    (hnames : ((pl.layout.parts kvPart).map (·.layerName)).Nodup)
    (hall : ∀ segment ∈ pl.aggregateSegments idsByGroup (pl.layout.parts kvPart) 0,
      pl.SegmentAt idsByGroup segment (contents segment.1) slot.arenaA.mem) :
    ∃ out kv', pl.decodeAggregate kv slot idsByGroup kvPart = some (out, kv') ∧
      (∀ part ∈ pl.layout.parts kvPart, ∀ x : Index,
        x.Inside ((pl.physicalIds (idsByGroup.getD part.groupIndex [])).length,
          (pl.cachePart part).shape.2) →
          pl.blocksAt kv' part (idsByGroup.getD part.groupIndex []) x = contents part x) ∧
      ∀ name a, (∀ part ∈ pl.layout.parts kvPart, ¬ (name = part.layerName ∧
        pl.InBlocks part (pl.physicalIds (idsByGroup.getD part.groupIndex [])) a)) →
          kv' name a = kv name a := by
  obtain ⟨rows, cache, hgroup, hreads⟩ := exists_groupIndices hindex hpos hw
  have hfst := @map_fst_aggregateSegments pl idsByGroup (pl.layout.parts kvPart) 0
  have hnames' : (pl.aggregateSegments idsByGroup (pl.layout.parts kvPart) 0).Pairwise
      fun s t => s.1.layerName ≠ t.1.layerName := by
    rw [← hfst, List.map_map] at hnames
    exact List.pairwise_map.mp hnames
  obtain ⟨kv', hfold, hrestored, hframe⟩ := @foldlM_decodeSegment_spec pl kv
    { slot with blockIndices := rows } maxBlocks idsByGroup tokens cache _ hsegments hw hreads
    (fun _ hs => segment_within hs hcapacity) contents
    (fun s hs => hsep s.1 (hsegments s hs).mem) (fun s hs => hnd s.1 (hsegments s hs).mem)
    hnames' hall
  refine ⟨{ slot with blockIndices := rows }, kv', ?_, ?_, ?_⟩
  · simp only [decodeAggregate, hgroup, hfold, bind, Option.bind, pure]
  · intro part hp
    rw [← hfst] at hp
    obtain ⟨s, hs, rfl⟩ := List.mem_map.mp hp
    exact hrestored s hs
  · exact fun name a ha => hframe name a fun s hs => ha s.1 (mem_aggregateSegments hs)

end Chunk

end Pipeline

end KVServe.Runtime
