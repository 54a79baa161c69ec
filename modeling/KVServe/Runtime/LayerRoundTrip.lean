import KVServe.Runtime.Totality

/-!
# KVServe.Runtime.LayerRoundTrip

A layer part through a pipeline that changes no element: its complete blocks stand in the packed
stream and its partial block in the raw tail. **A layer part that is decoded from there has its
valid tokens**, then zeros, and nothing outside its blocks has changed.
-/

namespace KVServe.Runtime

namespace Pipeline

variable {pl : Pipeline} {part : LayerPartLayout} {kv : KV} {slot : Slot} {ids : List Nat}
  {maxBlocks validTokens offset : Nat} {content : Index → Cell} {tokens : Nat → Nat}
  {cache : List (Nat × Nat × Nat)}

/-- Some blocks of a layer part in a cache, as `(block, head, token, dim)`. -/
def blocksAt (pl : Pipeline) (kv : KV) (part : LayerPartLayout) (ids : List Nat) (x : Index) :
    Cell :=
  (pl.cachePart part).cell (kv part.layerName) ((pl.physicalIds ids).getD x.1 0, x.2)

/-- The bytes of the partial block of a layer part. -/
def tailBytes (part : LayerPartLayout) (validTokens : Nat) : Nat :=
  validTokens % part.blockSize * CompressionLayout.tokenBytes part

/-- Arena B and the raw tail of a slot hold the valid tokens of a layer part; its raw tail stands
at an offset. -/
structure Holds (pl : Pipeline) (part : LayerPartLayout) (validTokens offset : Nat)
    (content : Index → Cell) (arenaB rawTail : Mem) : Prop where
  body : pl.BodyAt part (pl.bodyBlocks part validTokens) content arenaB
  tail : pl.TailAt part (validTokens % part.blockSize) offset
    (fun x => content (pl.bodyBlocks part validTokens + x.1, x.2)) rawTail

/-! ### Kernel blocks of a window -/

/-- A position in a list without its first elements. -/
theorem getD_drop {l : List Nat} {n k : Nat} : (l.drop n).getD k 0 = l.getD (n + k) 0 := by
  rw [List.getD_eq_getElem?_getD, List.getD_eq_getElem?_getD, List.getElem?_drop]

theorem getD_take {l : List Nat} {n k : Nat} (h : k < n) : (l.take n).getD k 0 = l.getD k 0 := by
  rw [List.getD_eq_getElem?_getD, List.getD_eq_getElem?_getD, List.getElem?_take_of_lt h]

namespace Window

/-- The ids are those of the complete blocks, and one more for a partial block. -/
theorem length_eq (h : pl.Window maxBlocks part ids validTokens) (hpos : 0 < part.blockSize) :
    ids.length = validTokens / part.blockSize +
      if validTokens % part.blockSize = 0 then 0 else 1 := by
  have hdiv := Nat.div_add_mod validTokens part.blockSize
  have hmod := Nat.mod_lt validTokens hpos
  rw [h.count]
  split
  · next hzero =>
      rw [hzero, Nat.add_zero] at hdiv
      refine Nat.div_eq_of_lt_le ?_ ?_
      · rw [Nat.add_zero, Nat.mul_comm]
        omega
      · rw [Nat.add_zero, Nat.succ_mul, Nat.mul_comm]
        omega
  · refine Nat.div_eq_of_lt_le ?_ ?_
    · rw [Nat.succ_mul, Nat.mul_comm]
      omega
    · rw [Nat.succ_mul, Nat.succ_mul, Nat.mul_comm]
      omega

/-- The kernel blocks of a partial block follow those of the body. -/
theorem length_sub (h : pl.Window maxBlocks part ids validTokens) (hpos : 0 < part.blockSize)
    (htail : validTokens % part.blockSize ≠ 0) :
    (pl.physicalIds ids).length = pl.bodyBlocks part validTokens + pl.blocksPerLogical := by
  rw [length_physicalIds, h.length_eq hpos, if_neg htail, Nat.succ_mul, bodyBlocks_eq pl hpos]

end Window

/-! ### Moving -/

/-- A raw tail may be read from any storage that agrees on its bytes. -/
theorem TailAt.congr {tailTokens : Nat} {m m' : Mem} (hpos : 0 < pl.kernelTokens part)
    (h : pl.TailAt part tailTokens offset content m)
    (heq : ∀ a, offset ≤ a → a < offset + tailTokens * CompressionLayout.tokenBytes part →
      m' a = m a) : pl.TailAt part tailTokens offset content m' := by
  intro k hk x hx
  rw [← h k hk x hx]
  have hstop := tailRun_stop hk hpos (CompressionLayout.tokenBytes part)
  generalize htarget : tailRun (pl.kernelTokens part) (CompressionLayout.tokenBytes part)
    tailTokens k = run at *
  -- both bytes of the element are bytes of the run
  have hbyte : ∀ b < 2, m' ((tailTarget part offset run).addr (0, x.2) + b) =
      m ((tailTarget part offset run).addr (0, x.2) + b) := by
    intro b hb
    have hcov := @tailTarget_covers part offset ((tailTarget part offset run).addr (0, x.2) + b) run
      ⟨(0, x.2), htarget ▸ hx, Nat.le_add_right _ b, Nat.add_lt_add_left hb _⟩
    exact heq _ (by omega) (by omega)
  exact Mem.cell_congr (hbyte 0 (by decide)) (hbyte 1 (by decide))

/-- Storage with the same packed stream and the same raw tail of a layer part holds it too. -/
theorem Holds.congr {arenaB rawTail arenaB' rawTail' : Mem} (hpos : 0 < pl.kernelTokens part)
    (h : pl.Holds part validTokens offset content arenaB rawTail)
    (hbody : ∀ a, (pl.packedSpan part (pl.bodyBlocks part validTokens)).start ≤ a →
      a < (pl.packedSpan part (pl.bodyBlocks part validTokens)).stop → arenaB' a = arenaB a)
    (htail : ∀ a, offset ≤ a → a < offset + tailBytes part validTokens →
      rawTail' a = rawTail a) :
    pl.Holds part validTokens offset content arenaB' rawTail' := by
  refine ⟨h.body.congr fun k hk => hbody _ (Nat.le_add_right _ k) ?_, h.tail.congr hpos htail⟩
  exact Nat.add_lt_add_left hk _

/-! ### Encoding -/

theorem packed_within (h : SlotRoom pl maxBlocks slot)
    (hnq : pl.stages.contains .quantizer = false) (hp : part ∈ pl.layout.layerParts)
    {n : Nat} (hn : n ≤ maxBlocks * pl.blocksPerLogical) :
    (pl.packedSpan part n).Within slot.arenaB.size := by
  have hstream := h.stream part hp n hn
  rwa [streamSpan, if_neg (by rw [hnq]; exact Bool.false_ne_true)] at hstream

/-- **A layer part is encoded**: the slot holds it, and only its own bytes are written. -/
theorem encodePart_spec (h : SlotRoom pl maxBlocks slot)
    (hnt : pl.stages.contains .transformer = false)
    (hnq : pl.stages.contains .quantizer = false) (hp : part ∈ pl.layout.layerParts)
    (horder : pl.OrderPerm part)
    (hindices : Pipeline.indices slot cache part.groupIndex = some (pl.physicalIds ids))
    (hw : pl.Window maxBlocks part ids (tokens part.groupIndex))
    (hfit : offset + tailBytes part (tokens part.groupIndex) ≤ slot.rawTail.size) :
    ∃ mA mB mT, pl.encodePart kv cache tokens (slot, offset) part =
        some (((slot.setA mA).setB mB).setTail mT,
          offset + tailBytes part (tokens part.groupIndex)) ∧
      pl.Holds part (tokens part.groupIndex) offset (pl.blocksAt kv part ids) mB mT ∧
      (∀ a, a < (pl.packedSpan part (pl.bodyBlocks part (tokens part.groupIndex))).start ∨
        (pl.packedSpan part (pl.bodyBlocks part (tokens part.groupIndex))).stop ≤ a →
          mB a = slot.arenaB.mem a) ∧
      ∀ a, a < offset ∨ offset + tailBytes part (tokens part.groupIndex) ≤ a →
        mT a = slot.rawTail.mem a := by
  have hwhole := h.whole part hp
  obtain ⟨hle, hn⟩ := hw.bodyBlocks_le hwhole.pos
  generalize htokens : tokens part.groupIndex = validTokens at *
  obtain ⟨mA, mT, hpack, htail, hframeT⟩ := @packRawTail_spec pl part kv slot
    (pl.physicalIds ids) ((pl.physicalIds ids).drop (pl.bodyBlocks part validTokens)) hwhole
    (h.scratch part hp _ (hw.factor_le hwhole.pos)) validTokens offset
    (fun hne => by rw [hw.length_sub hwhole.pos hne, Nat.add_sub_cancel])
    (fun b hb => hw.inside b (List.mem_of_mem_drop hb)) hfit
  have hroom : SlotRoom pl maxBlocks ((slot.setA mA).setTail mT) :=
    h.keeps (Slot.Keeps.setA.trans
      (@Slot.Keeps.setTail (fun _ => False) (fun _ => False) _ mT fun _ ha => ha.elim))
  obtain ⟨mA', mB, hbody, hat, hframeB⟩ := @encodeBody_spec pl part kv
    ((slot.setA mA).setTail mT) (pl.physicalIds ids) (pl.bodyBlocks part validTokens) hwhole.pos
    validTokens _ (bodyBlocks_eq pl hwhole.pos validTokens) rfl (List.length_take_of_le hle)
    (hroom.scratch part hp _ hn) hnt hnq horder
    (fun b hb => hw.inside b (List.mem_of_mem_take hb)) (packed_within hroom hnq hp hn)
  refine ⟨mA', mB, mT, ?_, ⟨?_, ?_⟩, hframeB, hframeT⟩
  · simp only [encodePart, hindices, htokens, hpack, hbody, bind, Option.bind, pure]
    rfl
  · intro x hx
    have hx0 : x.1 < pl.bodyBlocks part validTokens := hx.1
    refine (hat x hx).trans ?_
    simp only [reordered, blocksAt, getD_take hx0]
  · intro k hk x hx
    refine (htail k hk x hx).trans ?_
    simp only [blocksAt, getD_drop]

/-! ### Decoding -/

/-- The bytes of a block are not those of other blocks. -/
theorem not_inBlocks {blocks : List Nat} (hin : ∀ b ∈ blocks, b < (pl.cachePart part).shape.1)
    (hsep : (pl.cachePart part).Separated 2) {x : Index} (hx : x.Inside (pl.cachePart part).shape)
    (hnot : x.1 ∉ blocks) {k : Nat} (hk : k < 2) :
    ¬ pl.InBlocks part blocks ((pl.cachePart part).addr x + k) := by
  rintro ⟨b, hb, y, hy, hle, hlt⟩
  rw [View.narrow0_addr] at hle hlt
  have hy0 : y.1 < 1 := hy.1
  have hb' := hin b hb
  have hinside : Index.Inside (b + y.1, y.2) (pl.cachePart part).shape :=
    ⟨by show b + y.1 < _; omega, hy.2⟩
  have hne : x ≠ (b + y.1, y.2) := by
    rintro rfl
    refine hnot ?_
    show b + y.1 ∈ blocks
    rwa [Nat.lt_one_iff.mp hy0, Nat.add_zero]
  rcases hsep x _ hx hinside hne with hle' | hle' <;> omega

/-- The blocks of a layer part have the valid tokens of `content`, then zeros. -/
def Restored (pl : Pipeline) (part : LayerPartLayout) (ids : List Nat) (validTokens : Nat)
    (content : Index → Cell) (kv : KV) : Prop :=
  ∀ j < (pl.physicalIds ids).length, ∀ x : Index,
    Index.Inside (0, x.2) (1, part.numHeads, pl.kernelTokens part, part.headSize) →
      pl.blocksAt kv part ids (j, x.2) =
        if j * pl.kernelTokens part + x.2.2.1 < validTokens then content (j, x.2) else (0, 0)

/-- **A layer part that a slot holds is restored**, and nothing outside its blocks changes. -/
theorem decodePart_spec (h : SlotRoom pl maxBlocks slot)
    (hnt : pl.stages.contains .transformer = false)
    (hnq : pl.stages.contains .quantizer = false) (hp : part ∈ pl.layout.layerParts)
    (horder : pl.OrderPerm part)
    (hshape : (pl.cachePart part).shape.2 = (part.numHeads, pl.kernelTokens part, part.headSize))
    (hsep : (pl.cachePart part).Separated 2)
    (hindices : Pipeline.indices slot cache part.groupIndex = some (pl.physicalIds ids))
    (hw : pl.Window maxBlocks part ids (tokens part.groupIndex)) (hnd : ids.Nodup)
    (hfit : offset + tailBytes part (tokens part.groupIndex) ≤ slot.rawTail.size)
    (hat : pl.Holds part (tokens part.groupIndex) offset content slot.arenaB.mem slot.rawTail.mem) :
    ∃ mA kv', pl.decodePart cache tokens (slot, kv, offset) part =
        some (slot.setA mA, kv', offset + tailBytes part (tokens part.groupIndex)) ∧
      pl.Restored part ids (tokens part.groupIndex) content kv' ∧
      ∀ name a, ¬ (name = part.layerName ∧ pl.InBlocks part (pl.physicalIds ids) a) →
        kv' name a = kv name a := by
  have hwhole := h.whole part hp
  obtain ⟨hle, hn⟩ := hw.bodyBlocks_le hwhole.pos
  have hndP : (pl.physicalIds ids).Nodup := nodup_physicalIds hnd
  generalize htokens : tokens part.groupIndex = validTokens at *
  let n := pl.bodyBlocks part validTokens
  obtain ⟨mA, kv₁, hbody, hcells, hframe⟩ := @decodeBody_spec pl part kv slot
    (pl.physicalIds ids) n content hwhole.pos validTokens _
    (bodyBlocks_eq pl hwhole.pos validTokens) rfl
    (List.length_take_of_le hle) (h.scratch part hp _ hn) hnt hnq horder hshape hsep
    (fun b hb => hw.inside b (List.mem_of_mem_take hb)) (hndP.sublist (List.take_sublist _ _))
    (packed_within h hnq hp hn) hat.body
  have hroom : SlotRoom pl maxBlocks (slot.setA mA) :=
    h.keeps (@Slot.Keeps.setA (fun _ => False) (fun _ => False) _ _)
  obtain ⟨mA', kv', happly, hcellsT, hframeT⟩ := @applyRawTail_spec pl part kv₁ (slot.setA mA)
    (pl.physicalIds ids) ((pl.physicalIds ids).drop n) hwhole
    (hroom.scratch part hp _ (hw.factor_le hwhole.pos)) hshape hsep validTokens offset
    (fun hne => by rw [hw.length_sub hwhole.pos hne, Nat.add_sub_cancel])
    (fun hne => by rw [List.length_drop, hw.length_sub hwhole.pos hne, Nat.add_sub_cancel_left])
    (fun b hb => hw.inside b (List.mem_of_mem_drop hb)) (hndP.sublist (List.drop_sublist _ _)) hfit
    _ hat.tail
  refine ⟨mA', kv', ?_, ?_, ?_⟩
  · simp only [decodePart, hindices, htokens, hbody, happly, bind, Option.bind]
    rfl
  · intro j hj x hx
    have htokenBody : n * pl.kernelTokens part = validTokens - validTokens % part.blockSize :=
      (bodyTokens_eq_mul hwhole validTokens).symm
    have hmod := Nat.mod_le validTokens part.blockSize
    have hx2 : x.2.2.1 < pl.kernelTokens part := hx.2.2.1
    rcases Nat.lt_or_ge j n with hlt | hge
    · -- a block of the body, which the partial block leaves alone
      have hblock : (pl.physicalIds ids).getD j 0 ∉ (pl.physicalIds ids).drop n := by
        rw [List.getD_eq_getElem _ _ hj]
        intro hmem
        obtain ⟨i, hi, heq⟩ := List.mem_iff_getElem.mp hmem
        rw [List.getElem_drop] at heq
        have := hndP.getElem_inj_iff.mp heq
        omega
      have hinside :
          Index.Inside ((pl.physicalIds ids).getD j 0, x.2) (pl.cachePart part).shape := by
        refine ⟨?_, hshape ▸ hx.2⟩
        rw [List.getD_eq_getElem _ _ hj]
        exact hw.inside _ (List.getElem_mem hj)
      have hkeep : ∀ k < 2, kv' part.layerName
          ((pl.cachePart part).addr ((pl.physicalIds ids).getD j 0, x.2) + k) =
          kv₁ part.layerName
            ((pl.cachePart part).addr ((pl.physicalIds ids).getD j 0, x.2) + k) :=
        fun k hk => hframeT _ _ fun hno => not_inBlocks
          (fun b hb => hw.inside b (List.mem_of_mem_drop hb)) hsep hinside hblock hk hno.2.2
      have hcell := hcells j hlt x hx
      rw [getD_take hlt] at hcell
      have htoken : j * pl.kernelTokens part + x.2.2.1 < validTokens := by
        have hrow := Nat.mul_le_mul_right (pl.kernelTokens part) hlt
        rw [Nat.succ_mul] at hrow
        omega
      rw [if_pos htoken, ← hcell]
      exact Mem.cell_congr (hkeep 0 (by decide)) (hkeep 1 (by decide))
    · -- a block of the partial block
      obtain ⟨k, rfl⟩ := Nat.exists_eq_add_of_le hge
      have hne : validTokens % part.blockSize ≠ 0 := by
        intro hzero
        rw [length_physicalIds, hw.length_eq hwhole.pos, if_pos hzero, Nat.add_zero,
          ← bodyBlocks_eq pl hwhole.pos] at hj
        exact Nat.not_lt.mpr hge hj
      rw [hw.length_sub hwhole.pos hne] at hj
      have hk : k < pl.blocksPerLogical := Nat.lt_of_add_lt_add_left hj
      have hcell := hcellsT hne k hk x hx
      rw [getD_drop] at hcell
      refine hcell.trans (if_congr ?_ rfl rfl)
      rw [Nat.add_mul]
      omega
  · intro name a hnot
    refine (hframeT name a fun hno => hnot ⟨hno.2.1, ?_⟩).trans
      (hframe name a fun hno => hnot ⟨hno.1, ?_⟩)
    · obtain ⟨b, hb, hcov⟩ := hno.2.2
      exact ⟨b, List.mem_of_mem_drop hb, hcov⟩
    · obtain ⟨b, hb, hcov⟩ := hno.2
      exact ⟨b, List.mem_of_mem_take hb, hcov⟩

end Pipeline

end KVServe.Runtime
