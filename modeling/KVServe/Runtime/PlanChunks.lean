import KVServe.Runtime.LosslessChunks
import KVServe.Runtime.PlanDecode

/-!
# KVServe.Runtime.PlanChunks

**The CUDA backend encodes and decodes chunks as the Python pipeline does.** Where `_use_cpp`
holds, `encode` and `decode` run an execution plan in place of their loop over the layer parts.
What a chunk sends, and what its decoding leaves in the caches, is the same on both backends.
-/

namespace KVServe.Runtime

/-! ### Device memory -/

/-- The memory that a plan points into. Signs and head orders never change. -/
def deviceOf (slot : Slot) (kv : KV) : Device
  | .arenaA => slot.arenaA.mem
  | .arenaB => slot.arenaB.mem
  | .aux => slot.aux.mem
  | .rawTail => slot.rawTail.mem
  | .cache layerName => kv layerName
  | .signs _ _ => fun _ => 0
  | .headOrder _ => fun _ => 0

/-- The slot whose buffers are on the device. -/
def Slot.onDevice (slot : Slot) (d : Device) : Slot :=
  (((slot.setA (d .arenaA)).setB (d .arenaB)).setAux (d .aux)).setTail (d .rawTail)

namespace Pipeline

/-! ### Backend -/

section Backend

variable (pl : Pipeline)

/-- `_use_cpp`, once the backend is enabled. -/
def useCpp : Bool := !pl.stages.contains .aggregate && pl.layout.faGroupIndices.length == 1

/-- `encode` where `_use_cpp` holds. -/
def encodeCpp (kv : KV) (slot : Slot) (logicalIdsByGroup : List (List Nat)) (kvPart : KVPart)
    (tokens : Nat → Nat) : Option (Slot × EncodedChunk) := do
  let slot := pl.clearStream slot kvPart tokens
  let (slot, cache) ← pl.groupIndices slot logicalIdsByGroup
  let groupIndex ← pl.layout.faGroupIndices.head?
  let indices ← indices slot cache groupIndex
  let d := pl.kvsEncodeFlat (pl.buildMeta kvPart) indices indices.length (tokens groupIndex)
    (deviceOf slot kv)
  let rawTailBytes := pl.layout.rawTailBytes kvPart tokens
  pl.sealPayload (slot.onDevice d) (pl.streamBytes kvPart tokens) rawTailBytes rawTailBytes

/-- `decode` where `_use_cpp` holds. -/
def decodeCpp (kv : KV) (slot : Slot) (logicalIdsByGroup : List (List Nat)) (kvPart : KVPart)
    (codecBytes u8Bytes : Nat) (tokens : Nat → Nat) : Option (Slot × KV) := do
  let slot ← pl.openPayload slot codecBytes u8Bytes
  let (slot, cache) ← pl.groupIndices slot logicalIdsByGroup
  let groupIndex ← pl.layout.faGroupIndices.head?
  let indices ← indices slot cache groupIndex
  let d := pl.kvsDecodeFlat (pl.buildMeta kvPart) indices indices.length (tokens groupIndex)
    (deviceOf slot kv)
  return (slot.onDevice d, fun layerName => d (.cache layerName))

/-- What leaves a slot: the chunk, its payload, the auxiliary rows and the raw tail. -/
def sent (r : Slot × EncodedChunk) : EncodedChunk × List UInt8 × Mem × Mem :=
  (r.2, (List.range r.2.codecBytes).map r.1.arenaA.mem, r.1.aux.mem, r.1.rawTail.mem)

/-- What the backend asks for besides `_use_cpp`. The constructor refuses reductions over a
tensor; the kernels count columns, tokens and blocks of threads in `int`, a loop over these up
to a block of threads past the last one. -/
structure CppReady : Prop where
  axes : ∀ part ∈ pl.layout.layerParts, ∀ s ∈ part.sections, s.axis ≠ .tensor
  orders : ∀ part ∈ pl.layout.layerParts, pl.OrderPerm part
  ints : ∀ part ∈ pl.layout.layerParts, FitsInt pl part
  /-- `head_count * head_size` -/
  columns : ∀ part ∈ pl.layout.layerParts, part.numHeads * part.headSize + kThreads ≤ 2 ^ 31
  /-- `blocks_for(total)` -/
  blocks : ∀ part ∈ pl.layout.layerParts, ceilDiv part.rawBytes kThreads < 2 ^ 31

end Backend

variable {pl : Pipeline} {kv : KV} {slot : Slot} {part : LayerPartLayout} {s : QuantSection}
  {idsByGroup : List (List Nat)} {tokens : Nat → Nat} {kvPart : KVPart} {d : Device}
  {maxBlocks group validTokens n : Nat} {cache : List (Nat × Nat × Nat)}

/-- A slot with the same buffers that leave it sends the same. -/
theorem sealPayload_sent {slot' : Slot} {u8Bytes rawTailBytes : Nat}
    (hB : slot'.arenaB = slot.arenaB) (hA : slot'.arenaA.size = slot.arenaA.size)
    (haux : slot'.aux.mem = slot.aux.mem) (htail : slot'.rawTail.mem = slot.rawTail.mem) :
    (pl.sealPayload slot' u8Bytes rawTailBytes rawTailBytes).map sent =
      (pl.sealPayload slot u8Bytes rawTailBytes rawTailBytes).map sent := by
  have hfill : ∀ (n : Nat) (stream : Nat → UInt8),
      (List.range n).map (slot'.arenaA.mem.fill ⟨0, n⟩ stream) =
        (List.range n).map (slot.arenaA.mem.fill ⟨0, n⟩ stream) := by
    refine fun n stream => List.map_congr_left fun a ha => ?_
    have ha := List.mem_range.mp ha
    have hself := @Mem.fill_at slot.arenaA.mem ⟨0, n⟩ stream a ha
    have hother := @Mem.fill_at slot'.arenaA.mem ⟨0, n⟩ stream a ha
    rw [Nat.zero_add] at hself hother
    rw [hself, hother]
  have hguard : ∀ (c : Prop) [Decidable c] (k k' : Unit → Option (Slot × EncodedChunk)),
      (k ()).map sent = (k' ()).map sent →
        ((guard c : Option Unit) >>= k).map sent = ((guard c : Option Unit) >>= k').map sent := by
    intro c _ k k' hk
    by_cases hc : c
    · simpa only [guard, if_pos hc, pure_bind] using hk
    · simp only [guard, if_neg hc]
      rfl
  simp only [sealPayload, hB, hA]
  split
  · refine hguard _ _ _ ?_
    simp only [pure, Option.map_some, sent, Slot.setA, hfill, haux, htail]
  · refine hguard _ _ _ (hguard _ _ _ ?_)
    simp only [pure, Option.map_some, sent, Slot.setA, hfill, haux, htail]

theorem openPayload_setB {slot' : Slot} {codecBytes u8Bytes : Nat}
    (h : pl.openPayload slot codecBytes u8Bytes = some slot') : ∃ mB, slot' = slot.setB mB := by
  simp only [openPayload, guard, bind, Option.bind, pure] at h
  split at h
  · cases h
  · split at h
    · split at h
      · cases h
      · exact ⟨_, (Option.some.inj h).symm⟩
    · split at h
      · cases h
      · exact ⟨_, (Option.some.inj h).symm⟩

/-! ### The loop over the layer parts -/

/-- **The loop of the plan and the loop over the layer parts** keep step; `R` relates the two
states and the layer parts to come. -/
theorem exists_flatLoop {γ : Type} {f : γ → LayerPartLayout → Option γ}
    {step : PartDesc → Nat → Device × Nat → Device × Nat} {B : Nat}
    (hfits : ∀ part ∈ pl.layout.parts kvPart, FitsInt pl part)
    (hsizes : ∀ part ∈ pl.layout.parts kvPart, part.blockSize = B)
    (R : List LayerPartLayout → γ → Device × Nat → Prop)
    (hstep : ∀ sectionIndex part rest s t, part ∈ pl.layout.parts kvPart →
      pl.Loads (pl.buildMeta kvPart) (pl.layout.parts kvPart).length sectionIndex part →
      R (part :: rest) s t → ∃ s', f s part = some s' ∧
        R rest s' (step (pl.partDesc (pl.layout.parts kvPart).length sectionIndex part)
          (validTokens / B * pl.blocksPerLogical) t))
    (start : γ) (h : R (pl.layout.parts kvPart) start (d, 0)) :
    ∃ r cursor, (pl.layout.parts kvPart).foldlM f start = some r ∧
      R [] r (flatLoop (pl.buildMeta kvPart) validTokens step d, cursor) := by
  have hnum : (pl.buildMeta kvPart 0).toInt64 = (pl.layout.parts kvPart).length := by
    rw [loadHeader_buildMeta.1, Word.toInt64_int]
  rw [flatLoop, hnum]
  cases hparts : (pl.layout.parts kvPart).length with
  | zero =>
      rw [List.length_eq_zero_iff.mp hparts] at h ⊢
      exact ⟨start, 0, rfl, h⟩
  | succ last =>
      rw [if_neg (Nat.succ_ne_zero last)]
      have hlt : 0 < (pl.layout.parts kvPart).length := hparts ▸ Nat.succ_pos last
      have hfirst := List.getElem?_eq_getElem hlt
      have hmem : (pl.layout.parts kvPart)[0] ∈ pl.layout.parts kvPart := List.getElem_mem hlt
      have hdesc := (load_buildMeta hfirst (hfits _ hmem)).1
      rw [hparts] at hdesc
      simp only [hdesc, partDesc, hsizes _ hmem]
      rw [← hparts]
      obtain ⟨r, hr, hR⟩ := exists_foldlM_range (g := fun state i =>
        step (loadPart (pl.buildMeta kvPart) (partRow i)
          (sectionRow (pl.layout.parts kvPart).length 0))
          (validTokens / B * pl.blocksPerLogical) state) R
        (fun i part rest s t hi hrel => by
          have hp := List.mem_of_getElem? hi
          obtain ⟨hload, hsections⟩ := load_buildMeta hi (hfits part hp)
          rw [hload]
          refine hstep _ part rest s t hp (fun j s hj => ?_) hrel
          rw [← hload]
          exact hsections j s hj) h
      exact ⟨r, _, hr, hR⟩

/-- The loops are at the same layer part: the raw tails to come fill the rest of the raw tail. -/
structure InStep (pl : Pipeline) (slot : Slot) (kvPart : KVPart) (tokens : Nat → Nat)
    (rest : List LayerPartLayout) (s : Slot) (offset : Nat) (kv : KV) (t : Device × Nat) :
    Prop where
  sub : rest.Sublist (pl.layout.parts kvPart)
  keeps : slot.Keeps (fun _ => False) (fun _ => False) s
  tail : offset + (rest.map fun p => tokens p.groupIndex % p.blockSize *
    CompressionLayout.tokenBytes p).sum = pl.layout.rawTailBytes kvPart tokens
  cursor : t.2 = offset
  agrees : Agrees t.1 s kv

section Flat

variable {B : Nat} {t : Device × Nat} {rest : List LayerPartLayout} {s : Slot}
  {sectionIndex offset : Nat}
  (hplanned : ∀ part ∈ pl.layout.parts kvPart, Planned pl maxBlocks part)
  (hsizes : ∀ part ∈ pl.layout.parts kvPart, part.blockSize = B)
  (hgroup : ∀ part ∈ pl.layout.parts kvPart, part.groupIndex = group)
  (hroom : SlotRoom pl maxBlocks slot) (hreads : pl.Reads idsByGroup cache slot)
  (hw : pl.Windows maxBlocks idsByGroup tokens) (htokens : tokens group < 2 ^ 31)

include hplanned hsizes hgroup hroom hreads hw htokens

/-- One layer part in both loops of `encode`. -/
theorem InStep.encode (hp : part ∈ pl.layout.parts kvPart)
    (hload : pl.Loads (pl.buildMeta kvPart) (pl.layout.parts kvPart).length sectionIndex part)
    (h : pl.InStep slot kvPart tokens (part :: rest) s offset kv t) :
    ∃ s' offset', pl.encodePart kv cache tokens (s, offset) part = some (s', offset') ∧
      pl.InStep slot kvPart tokens rest s' offset' kv (pl.cudaEncodePart (pl.buildMeta kvPart)
        (loadHeader (pl.buildMeta kvPart))
        (pl.partDesc (pl.layout.parts kvPart).length sectionIndex part)
        (pl.physicalIds (idsByGroup.getD group []))
        (pl.physicalIds (idsByGroup.getD group [])).length
        (tokens group / B * pl.blocksPerLogical) (castInt (tokens group)) t) := by
  obtain ⟨d, cursor⟩ := t
  obtain ⟨hsub, hkeeps, hsum, rfl, hagrees⟩ := h
  have hpart := (Construction.of_mem_parts hp).1
  have hroom := hroom.keeps hkeeps
  have hindices := hreads part hpart s hkeeps.blockIndices
  rw [List.map_cons, List.sum_cons, ← Nat.add_assoc] at hsum
  have hfit : cursor + tokens part.groupIndex % part.blockSize *
      CompressionLayout.tokenBytes part ≤ s.rawTail.size :=
    Nat.le_trans (Nat.le_add_right _ _) (hsum ▸ hroom.tail kvPart tokens)
  obtain ⟨s', hstep, hcursor, hagrees'⟩ := @encodePart_agrees pl kv s part _ maxBlocks _
    sectionIndex d _ cursor tokens cache hroom hpart (hplanned part hp) hload hindices
    (hw part hpart) (hgroup part hp ▸ htokens) hfit hagrees
  obtain ⟨s'', hstep', hkeeps'⟩ := @exists_encodePart pl kv s part maxBlocks (fun _ => False)
    (fun _ => False) _ cursor hroom hpart cache tokens hindices (hw part hpart) hfit
    (fun _ ha => ha.elim) (fun _ _ _ ha => ha.elim)
  obtain rfl : s' = s'' := congrArg Prod.fst (Option.some.inj (hstep.symm.trans hstep'))
  have hbody : pl.bodyBlocks part (tokens part.groupIndex) =
      tokens group / B * pl.blocksPerLogical := by
    rw [bodyBlocks_eq pl (hplanned part hp).kernels.whole.pos, hsizes part hp, hgroup part hp]
  rw [hbody, hgroup part hp] at hcursor hagrees'
  rw [loadHeader_buildMeta.2, castInt_eq htokens]
  refine ⟨s', _, hstep, (List.sublist_cons_self _ _).trans hsub, hkeeps.trans hkeeps', hsum, ?_,
    hagrees'⟩
  rw [hcursor, hgroup part hp]

/-- **`kvs_encode_flat`** leaves in the buffers what the loop of `encode` leaves there. -/
theorem encodeFlat_agrees (hagrees : Agrees d slot kv) :
    ∃ slot', (pl.layout.parts kvPart).foldlM (pl.encodePart kv cache tokens) (slot, 0) =
        some (slot', pl.layout.rawTailBytes kvPart tokens) ∧
      slot.Keeps (fun _ => False) (fun _ => False) slot' ∧
      Agrees (pl.kvsEncodeFlat (pl.buildMeta kvPart) (pl.physicalIds (idsByGroup.getD group []))
        (pl.physicalIds (idsByGroup.getD group [])).length (tokens group) d) slot' kv := by
  obtain ⟨⟨slot', offset⟩, cursor, hfold, h⟩ := @exists_flatLoop pl kvPart d (tokens group) _
    (pl.encodePart kv cache tokens) (fun p bodyBlocks => pl.cudaEncodePart (pl.buildMeta kvPart)
      (loadHeader (pl.buildMeta kvPart)) p (pl.physicalIds (idsByGroup.getD group []))
      (pl.physicalIds (idsByGroup.getD group [])).length bodyBlocks (castInt (tokens group)))
    B (fun part hp => (hplanned part hp).fits) hsizes
    (fun rest s t => pl.InStep slot kvPart tokens rest s.1 s.2 kv t)
    (fun sectionIndex part rest s t hp hload h => by
      obtain ⟨s', offset', hstep, h'⟩ := InStep.encode hplanned hsizes hgroup hroom hreads hw
        htokens hp hload h
      exact ⟨(s', offset'), hstep, h'⟩)
    (slot, 0) ⟨.refl _, .refl _ _ _, Nat.zero_add _, rfl, hagrees⟩
  obtain rfl : offset = pl.layout.rawTailBytes kvPart tokens := h.tail
  exact ⟨slot', hfold, h.keeps, h.agrees⟩

variable (hnd : ∀ part ∈ pl.layout.parts kvPart, (idsByGroup.getD part.groupIndex []).Nodup)

include hnd

/-- One layer part in both loops of `decode`. -/
theorem InStep.decode (hp : part ∈ pl.layout.parts kvPart)
    (hload : pl.Loads (pl.buildMeta kvPart) (pl.layout.parts kvPart).length sectionIndex part)
    (h : pl.InStep slot kvPart tokens (part :: rest) s offset kv t) :
    ∃ s' kv' offset', pl.decodePart cache tokens (s, kv, offset) part = some (s', kv', offset') ∧
      pl.InStep slot kvPart tokens rest s' offset' kv' (pl.cudaDecodePart (pl.buildMeta kvPart)
        (loadHeader (pl.buildMeta kvPart))
        (pl.partDesc (pl.layout.parts kvPart).length sectionIndex part)
        (pl.physicalIds (idsByGroup.getD group []))
        (pl.physicalIds (idsByGroup.getD group [])).length
        (tokens group / B * pl.blocksPerLogical) (castInt (tokens group)) t) := by
  obtain ⟨d, cursor⟩ := t
  obtain ⟨hsub, hkeeps, hsum, rfl, hagrees⟩ := h
  have hpart := (Construction.of_mem_parts hp).1
  have hroom := hroom.keeps hkeeps
  have hindices := hreads part hpart s hkeeps.blockIndices
  rw [List.map_cons, List.sum_cons, ← Nat.add_assoc] at hsum
  have hfit : cursor + tokens part.groupIndex % part.blockSize *
      CompressionLayout.tokenBytes part ≤ s.rawTail.size :=
    Nat.le_trans (Nat.le_add_right _ _) (hsum ▸ hroom.tail kvPart tokens)
  obtain ⟨mA, kv', hstep, hcursor, hagrees'⟩ := @decodePart_agrees pl kv s part _ maxBlocks _
    sectionIndex d _ cursor tokens cache hroom hpart (hplanned part hp) hload hindices
    (hw part hpart) (hnd part hp) (hgroup part hp ▸ htokens) hfit hagrees
  have hbody : pl.bodyBlocks part (tokens part.groupIndex) =
      tokens group / B * pl.blocksPerLogical := by
    rw [bodyBlocks_eq pl (hplanned part hp).kernels.whole.pos, hsizes part hp, hgroup part hp]
  rw [hbody, hgroup part hp] at hcursor hagrees'
  rw [loadHeader_buildMeta.2, castInt_eq htokens]
  refine ⟨s.setA mA, kv', _, hstep, (List.sublist_cons_self _ _).trans hsub, hkeeps.trans .setA,
    hsum, ?_, hagrees'⟩
  rw [hcursor, hgroup part hp]

/-- **`kvs_decode_flat`** leaves in the caches what the loop of `decode` leaves there. -/
theorem decodeFlat_agrees (hagrees : Agrees d slot kv) :
    ∃ slot' kv', (pl.layout.parts kvPart).foldlM (pl.decodePart cache tokens) (slot, kv, 0) =
        some (slot', kv', pl.layout.rawTailBytes kvPart tokens) ∧
      Agrees (pl.kvsDecodeFlat (pl.buildMeta kvPart) (pl.physicalIds (idsByGroup.getD group []))
        (pl.physicalIds (idsByGroup.getD group [])).length (tokens group) d) slot' kv' := by
  obtain ⟨⟨slot', kv', offset⟩, cursor, hfold, h⟩ := @exists_flatLoop pl kvPart d (tokens group) _
    (pl.decodePart cache tokens) (fun p bodyBlocks => pl.cudaDecodePart (pl.buildMeta kvPart)
      (loadHeader (pl.buildMeta kvPart)) p (pl.physicalIds (idsByGroup.getD group []))
      (pl.physicalIds (idsByGroup.getD group [])).length bodyBlocks (castInt (tokens group)))
    B (fun part hp => (hplanned part hp).fits) hsizes
    (fun rest s t => pl.InStep slot kvPart tokens rest s.1 s.2.2 s.2.1 t)
    (fun sectionIndex part rest s t hp hload h => by
      obtain ⟨s', kv', offset', hstep, h'⟩ := InStep.decode hplanned hsizes hgroup hroom hreads hw
        htokens hnd hp hload h
      exact ⟨(s', kv', offset'), hstep, h'⟩)
    (slot, kv, 0) ⟨.refl _, .refl _ _ _, Nat.zero_add _, rfl, hagrees⟩
  obtain rfl : offset = pl.layout.rawTailBytes kvPart tokens := h.tail
  exact ⟨slot', kv', hfold, h.agrees⟩

end Flat

/-! ### Planned layer parts -/

section Built

variable {cfg : CompressionConfig} {low : Nat → Option Nat} {layers : Nat}
  {groups : String → Option Nat} {specs : Specs} {layout : CompressionLayout}

/-- A transformer is refused for head sizes that are no powers of two. -/
theorem checkSpecs_power {items : List (String × CacheSpec)} (h : checkSpecs cfg items = .ok ())
    (ht : cfg.usesTransformer = true) {item : String × CacheSpec} (hitem : item ∈ items)
    (kvPart : KVPart) : ∃ k, item.2.size kvPart = 2 ^ k := by
  induction items with
  | nil => exact absurd hitem List.not_mem_nil
  | cons first rest ih =>
      rw [checkSpecs] at h
      split at h
      · cases h
      · next hsizes =>
          split at h
          · cases h
          · rcases List.mem_cons.mp hitem with rfl | hitem
            · have hsize : ∀ n ∈ [item.2.headSize, item.2.headSizeV], ∃ k, n = 2 ^ k := by
                intro n hn
                by_contra hno
                refine hsizes ⟨ht, List.any_eq_true.mpr ⟨n, hn, decide_eq_true ?_⟩⟩
                by_cases hzero : n = 0
                · exact Or.inl (hzero ▸ Nat.one_pos)
                · exact Or.inr fun hand =>
                    hno ((Nat.and_sub_one_eq_zero_iff_isPowerOfTwo hzero).mp hand)
              cases kvPart with
              | key => exact hsize _ List.mem_cons_self
              | value => exact hsize _ (List.mem_cons_of_mem _ List.mem_cons_self)
            · exact ih h hitem

theorem headSize_power (hbuild : buildCompressionLayout specs cfg low layers groups = .ok layout)
    (ht : cfg.usesTransformer = true) (hp : part ∈ layout.layerParts) :
    ∃ k, part.headSize = 2 ^ k := by
  obtain ⟨B, keys, values, h⟩ := buildCompressionLayout_cases hbuild
  obtain ⟨item, hitem, hof⟩ := (h.built part.kvPart).ofSpec (Construction.mem_parts hp)
  have hcheck : checkSpecs cfg specs.sorted = .ok () := by
    rw [buildCompressionLayout] at hbuild
    split at hbuild
    · cases hbuild
    · next first rest hsorted =>
        split at hbuild
        · cases hbuild
        · simp only [bind, Except.bind] at hbuild
          split at hbuild
          · cases hbuild
          · next hok => exact hsorted ▸ hok
  rw [hof.headSize]
  exact checkSpecs_power hcheck ht hitem part.kvPart

variable (hbuild : buildCompressionLayout specs cfg low layers groups = .ok layout)
  (hlow : ∀ item ∈ specs.items, ∀ n, low item.2.layerIndex = some n → n ≤ item.2.numKvHeads)
  (hin : pl.InLayout layout) (hstages : pl.stages = cfg.pipeline) (hbound : pl.Bound)
  (hready : pl.CppReady) (ha : pl.stages.contains .aggregate = false)

include hbuild hin

/-- The sections of a layer part, as they were planned. -/
theorem planSections (hlow : ∀ item ∈ specs.items, ∀ n, low item.2.layerIndex = some n →
      n ≤ item.2.numKvHeads) (hready : pl.CppReady) (hq : cfg.usesQuantizer = true)
    (hp : part ∈ pl.layout.layerParts) (hn : n ≤ cfg.logicalBlocksPerChunk * pl.blocksPerLogical) :
    PlanSections pl part n := by
  obtain ⟨B, keys, values, h⟩ := buildCompressionLayout_cases hbuild
  have hp' : part ∈ layout.layerParts := layerParts_eq hin ▸ hp
  have hheads := (h.built part.kvPart).heads
    (fun item hitem => hlow item (Specs.mem_sorted.mp hitem)) (Construction.mem_parts hp')
  have haux : pl.layout.auxArenaBytes = layout.auxArenaBytes := by rw [hin.layout_eq]
  refine ⟨fun s hs => ?_, hheads⟩
  have hsize : (pl.sectionShape part n s).numel * 2 ≤
      auxNbytes s.axis cfg.logicalBlocksPerChunk part.blockSize s.headCount part.headSize := by
    refine auxShape_le s.axis ?_
    show n * pl.kernelTokens part ≤ _
    rw [← mul_kernelTokens_body hin hp' cfg.logicalBlocksPerChunk]
    exact Nat.mul_le_mul_right _ hn
  have hwithin : ∀ u ∈ s.auxSpans cfg.logicalBlocksPerChunk part.blockSize part.headSize,
      u.stop ≤ layout.auxArenaBytes / 2 := fun u hu =>
    Nat.le_trans (h.aux_within (mem_planned hp' hs hu)) (h.auxBytes_le_half hq part.kvPart)
  constructor
  · exact hready.axes part hp s hs
  · exact ((h.built part.kvPart).levels (Construction.mem_parts hp') hs).2
  · exact (hheads.bounds Nat.one_pos (List.mem_map_of_mem hs)).2
  · intro offset hoffset
    rw [haux]
    refine Nat.le_trans (Nat.add_le_add_left hsize _) ?_
    rcases List.mem_cons.mp hoffset with rfl | hoffset
    · exact hwithin _ List.mem_cons_self
    · cases List.mem_singleton.mp hoffset
      exact hwithin _ (List.mem_cons_of_mem _ List.mem_cons_self)
  · have hpairs := (List.pairwise_cons.mp ((auxSpans_pairwise h hp').1 s hs)).1 _
      List.mem_cons_self
    refine hpairs.mono ⟨Nat.le_refl _, ?_⟩ ⟨Nat.le_refl _, ?_⟩
    · exact Nat.add_le_add_left hsize _
    · exact Nat.add_le_add_left hsize _

include hlow hstages hbound hready ha

/-- **Every layer part is planned.** -/
theorem planned (hp : part ∈ pl.layout.layerParts) :
    Planned pl cfg.logicalBlocksPerChunk part := by
  obtain ⟨B, keys, values, h⟩ := buildCompressionLayout_cases hbuild
  have hlayers := layerParts_eq hin
  have hno : cfg.usesAggregate = false := by rw [CompressionConfig.usesAggregate, ← hstages, ha]
  refine ⟨⟨⟨?_, hin.dvd part (hlayers ▸ hp)⟩, hready.orders part hp,
    (cachePart_columns h hlayers hbound hp).1, ?_, cachePart_separated h hlayers hbound hp, ?_,
    fun ht => ?_⟩, fun hq n hn => ?_, hready.ints part hp⟩
  · rw [h.blockSize_eq (hlayers ▸ hp)]
    exact h.blockSize_pos
  · obtain ⟨k, hk, hname, -⟩ := exists_keys h hlayers hp
    show (pl.caches part.layerName).view.stride.2.2.2 = 2
    rw [← hname]
    exact (hbound k hk).2
  · have hmem := Construction.mem_parts hp
    cases hkv : part.kvPart with
    | key => exact keySize_eq h hlayers (hkv ▸ hmem)
    | value => exact valueSize_eq h hlayers (hkv ▸ hmem)
  · refine headSize_power hbuild ?_ (hlayers ▸ hp)
    rw [CompressionConfig.usesTransformer, hno, ← hstages, ht]
    rfl
  · refine planSections hbuild hin hlow hready ?_ hp hn
    rw [CompressionConfig.usesQuantizer, hno, ← hstages, hq]
    rfl

/-! ### Chunks -/

omit hbuild hlow hstages hbound hready ha in
/-- With one group of FullAttention layers, every layer part is in it. -/
theorem exists_group (hbuild : buildCompressionLayout specs cfg low layers groups = .ok layout)
    (huse : pl.useCpp = true) :
    ∃ group, pl.layout.faGroupIndices.head? = some group ∧ group ∈ pl.layout.faGroupIndices ∧
      (∃ part ∈ pl.layout.layerParts, part.groupIndex = group) ∧
      ∀ part ∈ pl.layout.layerParts, part.groupIndex = group := by
  obtain ⟨B, keys, values, h⟩ := buildCompressionLayout_cases hbuild
  rw [useCpp, Bool.and_eq_true, beq_iff_eq] at huse
  obtain ⟨group, hgroup⟩ := List.length_eq_one_iff.mp huse.2
  have hall : pl.layout.faGroupIndices = (pl.layout.layerParts.map (·.groupIndex)).dedup := by
    have hgroups : pl.layout.faGroupIndices = layout.faGroupIndices := by rw [hin.layout_eq]
    rw [hgroups, layerParts_eq hin, h.assembled]
    rfl
  have hmem : ∀ g, g ∈ pl.layout.faGroupIndices ↔
      ∃ part ∈ pl.layout.layerParts, part.groupIndex = g := fun g => by
    rw [hall, List.mem_dedup, List.mem_map]
  have hself : group ∈ pl.layout.faGroupIndices := hgroup ▸ List.mem_singleton_self group
  refine ⟨group, by rw [hgroup]; rfl, hself, (hmem group).mp hself, fun part hp => ?_⟩
  have hpart := (hmem _).mpr ⟨part, hp, rfl⟩
  rw [hgroup] at hpart
  exact List.mem_singleton.mp hpart

variable (huse : pl.useCpp = true) (hslot : slot.Fits cfg pl.layout pl.blocksPerLogical)
  (hw : pl.Windows cfg.logicalBlocksPerChunk idsByGroup tokens)
  (htokens : ∀ group ∈ pl.layout.faGroupIndices, tokens group + kThreads ≤ 2 ^ 31)

omit ha in
include huse hslot hw htokens in
/-- **Encoding on the device.** A chunk that the CUDA backend encodes is the chunk that the Python
pipeline encodes: the same sizes, payload, auxiliary rows and raw tail. -/
theorem encodeCpp_sent (kv : KV) (kvPart : KVPart) :
    (pl.encodeCpp kv slot idsByGroup kvPart tokens).map sent =
      (pl.encode kv slot idsByGroup kvPart tokens).map sent := by
  have ha : pl.stages.contains .aggregate = false := by
    rw [useCpp, Bool.and_eq_true, Bool.not_eq_true'] at huse
    exact huse.1
  obtain ⟨B, keys, values, h⟩ := buildCompressionLayout_cases hbuild
  obtain ⟨group, hhead, hmem, ⟨layer, hlayer, hgroup⟩, hgroups⟩ := exists_group hin hbuild huse
  have hroom := Fits.slotRoom h hin hstages ha hslot
  generalize hcleared : pl.clearStream slot kvPart tokens = cleared
  have hkeeps : slot.Keeps (fun _ => False) (fun _ => False) cleared := by
    rw [← hcleared]
    exact Slot.Keeps.setB.trans (.setAux fun _ ha => ha.elim)
  have hindex : pl.IndexRoom cfg.logicalBlocksPerChunk cleared := by
    rw [← hcleared]
    exact (Fits.indexRoom h hin hslot).congr rfl rfl
  obtain ⟨rows, cache, hrows, hreads⟩ :=
    exists_groupIndices hindex (fun part hp => (hroom.whole part hp).pos) hw
  have hparts : ∀ part ∈ pl.layout.parts kvPart, part ∈ pl.layout.layerParts :=
    fun part hp => (Construction.of_mem_parts hp).1
  obtain ⟨slot', hfold, hkeeps', hagrees⟩ := @encodeFlat_agrees pl kv
    { cleared with blockIndices := rows } idsByGroup tokens kvPart
    (deviceOf { cleared with blockIndices := rows } kv) cfg.logicalBlocksPerChunk group cache B
    (fun part hp => planned hbuild hlow hin hstages hbound hready ha (hparts part hp))
    (fun part hp => h.blockSize_eq (layerParts_eq hin ▸ hparts part hp))
    (fun part hp => hgroups part (hparts part hp)) ((hroom.keeps hkeeps).withRows rows) hreads hw
    (Nat.lt_of_lt_of_le (Nat.lt_add_of_pos_right (by decide)) (htokens group hmem))
    ⟨⟨rfl, rfl⟩, rfl, fun _ => rfl⟩
  have hindices := hreads layer hlayer _ rfl
  rw [hgroup] at hindices
  rw [encode, ha, if_neg Bool.false_ne_true]
  simp only [encodeCpp, hcleared, hrows, hhead, hindices, hfold, bind, Option.bind]
  refine sealPayload_sent ?_ hkeeps'.arenaA.symm hagrees.stream.aux hagrees.rawTail
  exact congrArg₂ Buffer.mk hkeeps'.arenaB.symm hagrees.stream.arenaB

omit ha in
include huse hslot hw htokens in
/-- **Decoding on the device.** The caches that the CUDA backend leaves are those that the Python
pipeline leaves, from any payload. -/
theorem decodeCpp_caches
    (hnd : ∀ part ∈ pl.layout.layerParts, (idsByGroup.getD part.groupIndex []).Nodup)
    (kv : KV) (kvPart : KVPart) (codecBytes u8Bytes : Nat) :
    (pl.decodeCpp kv slot idsByGroup kvPart codecBytes u8Bytes tokens).map Prod.snd =
      (pl.decode kv slot idsByGroup kvPart codecBytes u8Bytes tokens).map Prod.snd := by
  have ha : pl.stages.contains .aggregate = false := by
    rw [useCpp, Bool.and_eq_true, Bool.not_eq_true'] at huse
    exact huse.1
  rw [decode, ha, if_neg Bool.false_ne_true, decodeCpp]
  cases hopen : pl.openPayload slot codecBytes u8Bytes with
  | none => rfl
  | some opened =>
      obtain ⟨B, keys, values, h⟩ := buildCompressionLayout_cases hbuild
      obtain ⟨group, hhead, hmem, ⟨layer, hlayer, hgroup⟩, hgroups⟩ := exists_group hin hbuild huse
      have hroom := Fits.slotRoom h hin hstages ha hslot
      obtain ⟨mB, rfl⟩ : ∃ mB, opened = slot.setB mB := openPayload_setB hopen
      have hindex : pl.IndexRoom cfg.logicalBlocksPerChunk (slot.setB mB) :=
        (Fits.indexRoom h hin hslot).congr rfl rfl
      obtain ⟨rows, cache, hrows, hreads⟩ :=
        exists_groupIndices hindex (fun part hp => (hroom.whole part hp).pos) hw
      have hparts : ∀ part ∈ pl.layout.parts kvPart, part ∈ pl.layout.layerParts :=
        fun part hp => (Construction.of_mem_parts hp).1
      have hkeeps : slot.Keeps (fun _ => False) (fun _ => False) (slot.setB mB) := .setB
      obtain ⟨slot', kv', hfold, hagrees⟩ := @decodeFlat_agrees pl kv
        { slot.setB mB with blockIndices := rows } idsByGroup tokens kvPart
        (deviceOf { slot.setB mB with blockIndices := rows } kv) cfg.logicalBlocksPerChunk group
        cache B
        (fun part hp => planned hbuild hlow hin hstages hbound hready ha (hparts part hp))
        (fun part hp => h.blockSize_eq (layerParts_eq hin ▸ hparts part hp))
        (fun part hp => hgroups part (hparts part hp)) ((hroom.keeps hkeeps).withRows rows) hreads
        hw (Nat.lt_of_lt_of_le (Nat.lt_add_of_pos_right (by decide)) (htokens group hmem))
        (fun part hp => hnd part (hparts part hp))
        ⟨⟨rfl, rfl⟩, rfl, fun _ => rfl⟩
      have hindices := hreads layer hlayer _ rfl
      rw [hgroup] at hindices
      simp only [hrows, hhead, hindices, hfold, bind, Option.bind, pure, Option.map_some]
      exact congrArg some (funext hagrees.caches)

end Built

/-! ### Metadata -/

/-- **The metadata of a plan.** No word is stored twice, and the other side loads the header, every
layer part and every section as they were given. -/
theorem buildMeta_loads (hfits : ∀ part ∈ pl.layout.parts kvPart, FitsInt pl part) :
    let parts := pl.layout.parts kvPart
    ((pl.headerStores parts.length ++ pl.partLoop parts.length 0 0 parts).map Prod.fst).Nodup ∧
      (pl.buildMeta kvPart 0).toInt64 = parts.length ∧
      loadHeader (pl.buildMeta kvPart) = pl.planPtrs ∧
      ∀ k part, parts[k]? = some part →
        let desc := loadPart (pl.buildMeta kvPart) (partRow k) (sectionRow parts.length 0)
        desc = pl.partDesc parts.length (sectionCount (parts.take k)) part ∧
          ∀ i s, part.sections[i]? = some s →
            loadSection (pl.buildMeta kvPart) (desc.sections + i * kvsSectionFields) =
              sectionDesc s := by
  intro parts
  obtain ⟨hnum, hheader⟩ := @loadHeader_buildMeta pl kvPart
  exact ⟨nodup_buildMeta, by rw [hnum, Word.toInt64_int], hheader,
    fun k part hk => load_buildMeta hk (hfits part (List.mem_of_getElem? hk))⟩

/-! ### Two layers -/

/-- A head of low precision and one of high precision in each layer, through all stages. -/
def mixedConfig : CompressionConfig :=
  { splitType := .head, logicalBlocksPerChunk := 3, slotCountPos := Nat.two_pos,
    levels := CompressionConfig.default_levels }

theorem mixedBlock_pos : 0 < 4 := by decide

def mixedSpecs : Specs :=
  ⟨[("b", { layerIndex := 1, blockSize := 4, numKvHeads := 2, headSize := 8, dtype := .bfloat16,
            headSizeV? := some 4, blockSizePos := mixedBlock_pos }),
    ("a", { layerIndex := 0, blockSize := 4, numKvHeads := 2, headSize := 8, dtype := .bfloat16,
            blockSizePos := mixedBlock_pos })], by decide⟩

/-- The layers exchange their heads, and the codec turns the stream around. -/
def mixedPipeline (layout : CompressionLayout) : Pipeline where
  ar := .words
  layout
  blocksPerLogical := 2
  stages := mixedConfig.pipeline
  codec := ⟨List.reverse, fun bytes _ => bytes.reverse⟩
  signs _ _ _ _ := 0
  headOrders _ := [1, 0]
  caches name :=
    ⟨.contiguous 0 2 (8, 2, 2, if name = "a" then 16 else 12), View.contiguous_separated⟩

/-- What is asked for of the layers. -/
structure Mixed (layout : CompressionLayout) : Prop where
  build : buildCompressionLayout mixedSpecs mixedConfig (fun i => some (1 - i)) 2 = .ok layout
  bound : (mixedPipeline layout).Bound
  useCpp : (mixedPipeline layout).useCpp = true
  ready : (mixedPipeline layout).CppReady
  parts : ∀ part ∈ layout.layerParts, part.blockSize = 4 ∧ part.groupIndex = 0

theorem exists_mixed : ∃ layout, Mixed layout := by
  obtain ⟨layout, hbuild, hbound, huse, hparts, hsections⟩ : ∃ layout,
      buildCompressionLayout mixedSpecs mixedConfig (fun i => some (1 - i)) 2 = .ok layout ∧
        (mixedPipeline layout).Bound ∧ (mixedPipeline layout).useCpp = true ∧
        (∀ part ∈ layout.layerParts, part.blockSize = 4 ∧ part.groupIndex = 0 ∧
          part.numHeads = 2 ∧ part.headSize ≤ 8 ∧ part.sections.length ≤ 2 ∧
          part.rawBytes ≤ 1024) ∧
        ∀ part ∈ layout.layerParts, ∀ s ∈ part.sections, s.axis ≠ .tensor ∧
          s.headStart ≤ 2 ∧ s.headCount ≤ 2 ∧ s.numLevels ≤ 256 :=
    ⟨_, rfl, by unfold Pipeline.Bound; decide +kernel, by decide +kernel, by decide +kernel,
      by decide +kernel⟩
  refine ⟨layout, hbuild, hbound, huse, ⟨fun part hp s hs => (hsections part hp s hs).1,
    fun part hp => ?_, fun part hp => ?_, fun part hp => ?_, fun part hp => ?_⟩,
    fun part hp => ⟨(hparts part hp).1, (hparts part hp).2.1⟩⟩
  · show [1, 0].Perm (List.range part.numHeads)
    rw [(hparts part hp).2.2.1]
    decide
  · obtain ⟨hblock, -, hheads, hsize, hcount, -⟩ := hparts part hp
    refine ⟨by omega, by omega, by omega, show 2 < 2 ^ 31 by decide, by omega, fun s hs => ?_⟩
    obtain ⟨-, hstart, hheads, hlevels⟩ := hsections part hp s hs
    omega
  · obtain ⟨-, -, hheads, hsize, -⟩ := hparts part hp
    rw [hheads, kThreads]
    omega
  · obtain ⟨-, -, -, -, -, hbytes⟩ := hparts part hp
    rw [ceilDiv, kThreads]
    omega

theorem mixed_low : ∀ item ∈ mixedSpecs.items, ∀ n, some (1 - item.2.layerIndex) = some n →
    n ≤ item.2.numKvHeads := by
  intro item hitem n hn
  cases hn
  have hheads : ∀ item ∈ mixedSpecs.items, item.2.numKvHeads = 2 := by decide
  have hitem := hheads item hitem
  omega

/-- Two blocks and a token of the next one. -/
theorem Mixed.windows {layout : CompressionLayout} (h : Mixed layout) :
    (mixedPipeline layout).Windows 3 [[3, 0, 1]] (fun _ => 9) := by
  intro part hp
  obtain ⟨hsize, hgroup⟩ := h.parts part hp
  rw [hgroup]
  refine ⟨by decide, by rw [hsize]; rfl, Nat.le_refl 3, ?_⟩
  show ∀ b ∈ [6, 7, 0, 1, 2, 3], b < 8
  decide

theorem Mixed.inLayout {layout : CompressionLayout} (h : Mixed layout) :
    (mixedPipeline layout).InLayout layout := by
  refine ⟨rfl, Nat.le_refl _, fun part hp => ?_⟩
  rw [(h.parts part hp).1]
  exact Nat.dvd_mul_left 2 2

/-- The keys: two sections in the first layer, one in the second. -/
def mixedKeys : List LayerPartLayout :=
  [{ layerName := "a", layerIndex := 0, kvPart := .key, groupIndex := 0, blockSize := 4,
     numHeads := 2, headSize := 8, dtype := .bfloat16, rawOffset := 0, rawBytes := 384,
     u8Offset := 0, sections := [⟨0, 1, 6, .channel, 0, 256⟩, ⟨1, 1, 12, .channel, 512, 768⟩] },
   { layerName := "b", layerIndex := 1, kvPart := .key, groupIndex := 0, blockSize := 4,
     numHeads := 2, headSize := 8, dtype := .bfloat16, rawOffset := 0, rawBytes := 384,
     u8Offset := 192, sections := [⟨0, 2, 12, .channel, 1024, 1280⟩] }]

theorem Mixed.keys {layout : CompressionLayout} (h : Mixed layout) :
    layout.parts .key = mixedKeys := by
  have hkeys : (buildCompressionLayout mixedSpecs mixedConfig (fun i => some (1 - i)) 2).toOption.map
      (fun layout => layout.parts .key) = some mixedKeys := by decide +kernel
  rw [h.build] at hkeys
  exact Option.some.inj hkeys

theorem buildMeta_loads_mixed : ∃ layout, Mixed layout ∧
    let words := (mixedPipeline layout).buildMeta .key
    let first := loadPart words (partRow 0) (sectionRow 2 0)
    let second := loadPart words (partRow 1) (sectionRow 2 0)
    loadHeader words = (mixedPipeline layout).planPtrs ∧
      [first, second].map (fun p => (p.numHeads, p.headSize, p.u8Offset, p.numSections)) =
        [(2, 8, 0, 2), (2, 8, 192, 1)] ∧
      loadSection words first.sections = ⟨0, 1, 6, axisCode .channel, 0, 256⟩ ∧
      loadSection words (first.sections + kvsSectionFields) =
        ⟨1, 1, 12, axisCode .channel, 512, 768⟩ ∧
      loadSection words second.sections = ⟨0, 2, 12, axisCode .channel, 1024, 1280⟩ := by
  obtain ⟨layout, h⟩ := exists_mixed
  obtain ⟨-, -, hheader, hload⟩ := @buildMeta_loads (mixedPipeline layout) .key fun part hp =>
    h.ready.ints part (Construction.of_mem_parts hp).1
  have hparts : (mixedPipeline layout).layout.parts .key = mixedKeys := h.keys
  simp only [hparts] at hload
  obtain ⟨hfirst, hsections⟩ := hload 0 _ rfl
  obtain ⟨hsecond, hsections'⟩ := hload 1 _ rfl
  refine ⟨layout, h, hheader, ?_, hsections 0 _ rfl, hsections 1 _ rfl, hsections' 0 _ rfl⟩
  exact congrArg₂ (fun p q => [p, q].map fun p : PartDesc =>
    (p.numHeads, p.headSize, p.u8Offset, p.numSections)) hfirst hsecond

/-- A slot with the planned buffers. -/
def mixedSlot (layout : CompressionLayout) : Slot where
  arenaA := ⟨layout.arenaBytes, fun _ => 0⟩
  arenaB := ⟨arenaBBytes mixedConfig layout, fun _ => 0⟩
  aux := ⟨layout.auxArenaBytes, fun _ => 0⟩
  rawTail := ⟨layout.rawTailCapacity, fun _ => 0⟩
  indexRows := layout.indexRowsByGroup.length
  indexCols := 6
  blockIndices _ _ := 0

theorem mixedSlot_fits (layout : CompressionLayout) :
    (mixedSlot layout).Fits mixedConfig layout 2 :=
  ⟨rfl, rfl, rfl, rfl, Nat.le_refl _, rfl⟩

theorem encodeCpp_sent_mixed : ∃ layout, Mixed layout ∧ ∀ kv,
    ((mixedPipeline layout).encodeCpp kv (mixedSlot layout) [[3, 0, 1]] .key
        (fun _ => 9)).map sent =
      ((mixedPipeline layout).encode kv (mixedSlot layout) [[3, 0, 1]] .key
        (fun _ => 9)).map sent := by
  obtain ⟨layout, h⟩ := exists_mixed
  exact ⟨layout, h, fun kv => encodeCpp_sent h.build mixed_low h.inLayout rfl h.bound h.ready
    h.useCpp (mixedSlot_fits layout) h.windows (fun _ _ => by decide) kv .key⟩

theorem decodeCpp_caches_mixed : ∃ layout, Mixed layout ∧ ∀ kv codecBytes u8Bytes,
    ((mixedPipeline layout).decodeCpp kv (mixedSlot layout) [[3, 0, 1]] .value codecBytes u8Bytes
        (fun _ => 9)).map Prod.snd =
      ((mixedPipeline layout).decode kv (mixedSlot layout) [[3, 0, 1]] .value codecBytes u8Bytes
        (fun _ => 9)).map Prod.snd := by
  obtain ⟨layout, h⟩ := exists_mixed
  refine ⟨layout, h, fun kv codecBytes u8Bytes => decodeCpp_caches h.build mixed_low h.inLayout
    rfl h.bound h.ready h.useCpp (mixedSlot_fits layout) h.windows (fun _ _ => by decide) ?_ kv
    .value codecBytes u8Bytes⟩
  intro part hp
  rw [(h.parts part hp).2]
  decide

end Pipeline

end KVServe.Runtime
