import KVServe.Runtime.Blocks

/-!
# KVServe.Runtime.Body

The complete blocks of a layer part when no stage changes their elements. Encoding gathers
them, puts the heads in the order of the layer and copies them to the packed stream;
decoding copies them out, puts the heads back and scatters the blocks.
-/

namespace KVServe.Runtime

namespace Pipeline

variable {pl : Pipeline} {part : LayerPartLayout} {kv : KV} {slot : Slot} {indices : List Nat}
  {n : Nat}

/-- The head order of a layer part is a permutation of its heads. -/
def OrderPerm (pl : Pipeline) (part : LayerPartLayout) : Prop :=
  (pl.headOrders part.layerName).Perm (List.range part.numHeads)

namespace OrderPerm

theorem length (h : OrderPerm pl part) :
    (pl.headOrders part.layerName).length = part.numHeads := by
  rw [h.length_eq, List.length_range]

theorem lt (h : OrderPerm pl part) {i : Nat} (hi : i < part.numHeads) :
    (pl.headOrders part.layerName).getD i 0 < part.numHeads := by
  have hi : i < (pl.headOrders part.layerName).length := h.length ▸ hi
  rw [List.getD_eq_getElem _ _ hi]
  exact List.mem_range.mp (h.mem_iff.mp (List.getElem_mem hi))

/-- Every head is the image of a position. -/
theorem exists_position (h : OrderPerm pl part) {head : Nat} (hhead : head < part.numHeads) :
    ∃ i < part.numHeads, (pl.headOrders part.layerName).getD i 0 = head := by
  obtain ⟨i, hi, rfl⟩ := List.mem_iff_getElem.mp (h.mem_iff.mpr (List.mem_range.mpr hhead))
  exact ⟨i, h.length ▸ hi, List.getD_eq_getElem _ _ hi⟩

/-- An order that is not moved is the identity. -/
theorem getD_of_identity (h : OrderPerm pl part)
    (hid : pl.identityOrder part.layerName = true) {i : Nat} (hi : i < part.numHeads) :
    (pl.headOrders part.layerName).getD i 0 = i := by
  have heq := of_decide_eq_true hid
  rw [heq, h.length, List.getD_eq_getElem _ _ (by rw [List.length_range]; exact hi),
    List.getElem_range]

end OrderPerm

/-! ### Packed blocks -/

/-- The elements of some kernel blocks in the packed stream. -/
def packedView (pl : Pipeline) (part : LayerPartLayout) (n : Nat) : View :=
  .contiguous (pl.packedSpan part n).start 2
    (n, pl.kernelTokens part, part.numHeads, part.headSize)

/-- Blocks `content`, given as `(block, head, token, dim)`, in the head order of the layer. -/
def reordered (pl : Pipeline) (part : LayerPartLayout) (content : Index → Cell) (x : Index) :
    Cell :=
  content (x.1, (pl.headOrders part.layerName).getD x.2.2.1 0, x.2.1, x.2.2.2)

/-- The first `n` kernel blocks of `content` stand in the packed stream. -/
def BodyAt (pl : Pipeline) (part : LayerPartLayout) (n : Nat) (content : Index → Cell)
    (m : Mem) : Prop :=
  ∀ x : Index, x.Inside (n, pl.kernelTokens part, part.numHeads, part.headSize) →
    (pl.packedView part n).cell m x = pl.reordered part content x

theorem packedView_addr {x : Index}
    (hx : x.Inside (n, pl.kernelTokens part, part.numHeads, part.headSize)) :
    ∃ k, k + 2 ≤ (pl.packedSpan part n).size ∧
      (pl.packedView part n).addr x = (pl.packedSpan part n).start + k ∧
      (pl.viewsOf part n).canonicalA.addr x = (pl.spanA part n).start + k := by
  refine ⟨Index.flat (n, pl.kernelTokens part, part.numHeads, part.headSize) x * 2, ?_,
    View.contiguous_addr, View.contiguous_addr⟩
  have hflat := Nat.mul_le_mul_right 2 (Index.flat_lt hx)
  rw [Nat.succ_mul] at hflat
  exact hflat

/-- The packed stream may be read from any storage that agrees on it. -/
theorem BodyAt.congr {content : Index → Cell} {m m' : Mem} (h : pl.BodyAt part n content m)
    (heq : ∀ k < (pl.packedSpan part n).size,
      m' ((pl.packedSpan part n).start + k) = m ((pl.packedSpan part n).start + k)) :
    pl.BodyAt part n content m' := by
  intro x hx
  rw [← h x hx]
  obtain ⟨k, hk, haddr, _⟩ := packedView_addr hx
  rw [View.cell, View.cell, haddr]
  exact Mem.cell_congr (heq k (by omega)) (by rw [Nat.add_assoc]; exact heq (k + 1) (by omega))

/-! ### Encoding -/

/-- Gathered elements, in the buffer the flag names. -/
theorem gatherRearrange_spec (hroom : Room pl slot part indices.length)
    (hnt : pl.stages.contains .transformer = false) (horder : OrderPerm pl part)
    (hin : ∀ b ∈ indices, b < (pl.cachePart part).shape.1) :
    ∃ mA inB, pl.gatherRearrange kv slot part indices = some (slot.setA mA, inB) ∧
      ∀ x : Index, x.Inside (pl.viewsOf part indices.length).canonicalA.shape →
        (if inB then (pl.viewsOf part indices.length).canonicalB.cell mA x
          else (pl.viewsOf part indices.length).canonicalA.cell mA x) =
          pl.reordered part (fun y =>
            (pl.cachePart part).cell (kv part.layerName) (indices.getD y.1 0, y.2)) x := by
  let select : Index → Cell := fun y =>
    (pl.cachePart part).cell (kv part.layerName) (indices.getD y.1 0, y.2)
  let views := pl.viewsOf part indices.length
  cases hid : pl.identityOrder part.layerName with
  | true =>
      refine ⟨views.canonicalA.swap.storeCells select slot.arenaA.mem, false, ?_, ?_⟩
      · simp only [gatherRearrange, hroom.layerViews, selectBlocks_eq hin, hid, hnt, bind,
          Option.bind, pure, if_true, Bool.false_eq_true, if_false]
        rfl
      · intro x hx
        have hcell : views.canonicalA.swap.cell
            (views.canonicalA.swap.storeCells select slot.arenaA.mem) x.swap = select x.swap :=
          View.cell_storeCells (View.swap_separated View.contiguous_separated)
            (Index.swap_inside.mpr hx)
        rw [View.cell, View.swap_addr, Index.swap_swap] at hcell
        simp only [Bool.false_eq_true, if_false]
        refine hcell.trans ?_
        rw [reordered, horder.getD_of_identity hid hx.2.2.1]
        rfl
  | false =>
      let mS := views.scratch.storeCells select slot.arenaA.mem
      refine ⟨views.canonicalB.storeCells (fun x => views.scratch.swap.cell mS
        (x.1, x.2.1, (pl.headOrders part.layerName).getD x.2.2.1 0, x.2.2.2)) mS, true, ?_, ?_⟩
      · simp only [gatherRearrange, hroom.layerViews, selectBlocks_eq hin, hid, bind,
          Option.bind, pure, Bool.false_eq_true, if_false]
        rfl
      · intro x hx
        have hcell : views.scratch.swap.cell mS
            (x.1, x.2.1, (pl.headOrders part.layerName).getD x.2.2.1 0, x.2.2.2) =
            pl.reordered part select x := by
          rw [View.cell, View.swap_addr]
          exact View.cell_storeCells (x := (x.1, (pl.headOrders part.layerName).getD x.2.2.1 0,
            x.2.1, x.2.2.2)) View.contiguous_separated
            ⟨hx.1, horder.lt hx.2.2.1, hx.2.1, hx.2.2.2⟩
        simp only [if_true]
        have hsep : views.canonicalB.Separated 2 := View.contiguous_separated
        refine (View.cell_storeCells hsep hx).trans ?_
        exact hcell

/-- Without a transformer the elements end in canonical order in the first buffer. -/
theorem transform_spec (hroom : Room pl slot part n)
    (hnt : pl.stages.contains .transformer = false) (inB : Bool) (content : Index → Cell)
    (hcells : ∀ x : Index, x.Inside (pl.viewsOf part n).canonicalA.shape →
      (if inB then (pl.viewsOf part n).canonicalB.cell slot.arenaA.mem x
        else (pl.viewsOf part n).canonicalA.cell slot.arenaA.mem x) = content x) :
    ∃ mA, pl.transform slot part n inB = some (slot.setA mA) ∧
      ∀ x : Index, x.Inside (pl.viewsOf part n).canonicalA.shape →
        (pl.viewsOf part n).canonicalA.cell mA x = content x := by
  cases inB with
  | true =>
      let views := pl.viewsOf part n
      refine ⟨views.canonicalA.storeCells (views.canonicalB.cell slot.arenaA.mem)
        slot.arenaA.mem, ?_, fun x hx => ?_⟩
      · simp only [transform, hnt, Bool.false_eq_true, if_false, if_true, copyBack,
          hroom.layerViews, bind, Option.bind, pure]
        rfl
      · exact (View.cell_storeCells View.contiguous_separated hx).trans (hcells x hx)
  | false =>
      refine ⟨slot.arenaA.mem, ?_, hcells⟩
      simp only [transform, hnt, Bool.false_eq_true, if_false]
      rfl

/-- Without a quantizer the first buffer is copied to the packed stream. -/
theorem emit_spec (hroom : Room pl slot part n) (hnq : pl.stages.contains .quantizer = false)
    (hpacked : (pl.packedSpan part n).Within slot.arenaB.size) (tokens : Nat)
    {content : Index → Cell}
    (hcells : ∀ x : Index, x.Inside (pl.viewsOf part n).canonicalA.shape →
      (pl.viewsOf part n).canonicalA.cell slot.arenaA.mem x = pl.reordered part content x) :
    ∃ mB, pl.emit slot part n tokens = some (slot.setB mB) ∧
      pl.BodyAt part n content mB ∧
      ∀ a, a < (pl.packedSpan part n).start ∨ (pl.packedSpan part n).stop ≤ a →
        mB a = slot.arenaB.mem a := by
  refine ⟨slot.arenaB.mem.fill (pl.packedSpan part n) fun k =>
    slot.arenaA.mem ((pl.viewsOf part n).canonicalA.base + k), ?_, ?_, fun a ha =>
    Mem.fill_frame ha⟩
  · simp only [emit, hnq, Bool.false_eq_true, if_false, pack, hroom.layerViews, bind, Option.bind,
      pure, guard, if_pos hpacked]
  · intro x hx
    obtain ⟨k, hk, hpack, haddr⟩ := packedView_addr hx
    rw [← hcells x hx, View.cell, View.cell, hpack, haddr]
    simp only [Mem.cell, Nat.add_assoc]
    rw [Mem.fill_at (by omega), Mem.fill_at (by omega)]
    rfl

theorem bodyTokens_eq (validTokens : Nat) :
    bodyTokens part validTokens = validTokens / part.blockSize * part.blockSize := by
  have := Nat.div_add_mod' validTokens part.blockSize
  rw [bodyTokens]
  omega

theorem bodyBlocks_eq (pl : Pipeline) (hpos : 0 < part.blockSize) (validTokens : Nat) :
    pl.bodyBlocks part validTokens = validTokens / part.blockSize * pl.blocksPerLogical := by
  rw [bodyBlocks, bodyTokens_eq, Nat.mul_div_cancel _ hpos]

/-- The complete blocks are there, or there are none. -/
theorem bodyTokens_zero (hpos : 0 < part.blockSize) {validTokens : Nat}
    (h : bodyTokens part validTokens = 0) : validTokens / part.blockSize = 0 := by
  rw [bodyTokens_eq] at h
  rcases Nat.mul_eq_zero.mp h with hzero | hzero
  · exact hzero
  · omega

/-- **Encoding puts the complete blocks into the packed stream.** -/
theorem encodeBody_spec (hpos : 0 < part.blockSize) {validTokens : Nat} {body : List Nat}
    (hn : n = validTokens / part.blockSize * pl.blocksPerLogical)
    (hbody : indices.take n = body) (hlen : body.length = n)
    (hroom : Room pl slot part n) (hnt : pl.stages.contains .transformer = false)
    (hnq : pl.stages.contains .quantizer = false) (horder : OrderPerm pl part)
    (hin : ∀ b ∈ body, b < (pl.cachePart part).shape.1)
    (hpacked : (pl.packedSpan part n).Within slot.arenaB.size) :
    ∃ mA mB, pl.encodeBody kv part indices validTokens slot = some ((slot.setA mA).setB mB) ∧
      pl.BodyAt part n (fun y =>
        (pl.cachePart part).cell (kv part.layerName) (body.getD y.1 0, y.2)) mB ∧
      ∀ a, a < (pl.packedSpan part n).start ∨ (pl.packedSpan part n).stop ≤ a →
        mB a = slot.arenaB.mem a := by
  by_cases hzero : bodyTokens part validTokens = 0
  · refine ⟨slot.arenaA.mem, slot.arenaB.mem, ?_, ?_, fun _ _ => rfl⟩
    · rw [encodeBody, if_pos hzero]
      rfl
    · intro x hx
      have hn0 : n = 0 := by rw [hn, bodyTokens_zero hpos hzero, Nat.zero_mul]
      have hx0 : x.1 < n := hx.1
      omega
  · rw [← hlen] at hroom
    obtain ⟨mA, inB, hgather, hcells⟩ := @gatherRearrange_spec pl part kv slot body hroom hnt
      horder hin
    rw [hlen] at hroom hcells
    obtain ⟨mA', htransform, hcells'⟩ := @transform_spec pl part (slot.setA mA) n
      ⟨hroom.disjoint, hroom.withinA, hroom.withinB⟩ hnt inB _ hcells
    obtain ⟨mB, hemit, hat, hframe⟩ := @emit_spec pl part ((slot.setA mA).setA mA') n
      ⟨hroom.disjoint, hroom.withinA, hroom.withinB⟩ hnq hpacked (bodyTokens part validTokens) _
      hcells'
    refine ⟨mA', mB, ?_, hat, hframe⟩
    have hblocks := bodyBlocks_eq pl hpos validTokens
    simp only [encodeBody, if_neg hzero, hblocks, ← hn, hbody, hgather, bind, Option.bind, hlen,
      htransform, hemit]
    rfl

/-! ### Decoding -/

variable {content : Index → Cell}

/-- Without a quantizer the packed stream is copied to the first buffer. -/
theorem absorb_spec (hroom : Room pl slot part n) (hnq : pl.stages.contains .quantizer = false)
    (hpacked : (pl.packedSpan part n).Within slot.arenaB.size) (tokens : Nat)
    (hat : pl.BodyAt part n content slot.arenaB.mem) :
    ∃ mA, pl.absorb slot part n tokens = some (slot.setA mA) ∧
      ∀ x : Index, x.Inside (pl.viewsOf part n).canonicalA.shape →
        (pl.viewsOf part n).canonicalA.cell mA x = pl.reordered part content x := by
  let packed := pl.packedSpan part n
  refine ⟨slot.arenaA.mem.fill ⟨(pl.viewsOf part n).canonicalA.base, packed.size⟩ fun k =>
    slot.arenaB.mem (packed.start + k), ?_, fun x hx => ?_⟩
  · simp only [absorb, hnq, Bool.false_eq_true, if_false, unpack, hroom.layerViews, bind,
      Option.bind, pure, guard, if_pos hpacked]
    rfl
  · obtain ⟨k, hk, hpack, haddr⟩ := packedView_addr hx
    have hfill : ∀ j < packed.size, slot.arenaA.mem.fill ⟨(pl.spanA part n).start, packed.size⟩
        (fun k => slot.arenaB.mem (packed.start + k)) ((pl.spanA part n).start + j) =
        slot.arenaB.mem (packed.start + j) :=
      fun j hj => Mem.fill_at (s := ⟨(pl.spanA part n).start, packed.size⟩) hj
    have hk0 : k < packed.size := Nat.lt_of_lt_of_le (by omega) hk
    have hk1 : k + 1 < packed.size := Nat.lt_of_lt_of_le (by omega) hk
    rw [← hat x hx, View.cell, View.cell, hpack, haddr]
    exact Prod.ext (hfill k hk0) (hfill (k + 1) hk1)

/-- **Putting the heads back undoes the order of the layer.** -/
theorem reorderHeads_spec (horder : OrderPerm pl part) {mA : Mem}
    (hcells : ∀ x : Index, x.Inside (pl.viewsOf part n).canonicalB.shape →
      (pl.viewsOf part n).canonicalB.cell mA x = pl.reordered part content x) {x : Index}
    (hx : x.Inside (pl.viewsOf part n).scratch.shape) :
    (pl.viewsOf part n).scratch.cell
      (reorderHeads (pl.viewsOf part n) (pl.headOrders part.layerName) mA) x = content x := by
  let views := pl.viewsOf part n
  let order := pl.headOrders part.layerName
  have hsep : views.scratch.swap.Separated 2 := View.swap_separated View.contiguous_separated
  have hmem : ∀ e ∈ order.zipIdx, e.1 < part.numHeads ∧ e.2 < part.numHeads ∧
      order.getD e.2 0 = e.1 := by
    intro e he
    have hget := List.mem_zipIdx_iff_getElem?.mp he
    obtain ⟨hlt, heq⟩ := List.getElem?_eq_some_iff.mp hget
    exact ⟨List.mem_range.mp (horder.mem_iff.mp (heq ▸ List.getElem_mem hlt)),
      horder.length ▸ hlt, (List.getD_eq_getElem _ _ hlt).trans heq⟩
  have hpart : ∀ e ∈ order.zipIdx, e.1 + 1 ≤ views.scratch.swap.shape.2.2.1 :=
    fun e he => (hmem e he).1
  have hpairs : order.zipIdx.Pairwise fun e e' => ∀ a,
      ¬ ((views.scratch.swap.narrow2 e.1 1).Covers 2 a ∧
        (views.scratch.swap.narrow2 e'.1 1).Covers 2 a) := by
    have hnodup : (order.zipIdx.map Prod.fst).Nodup := by
      rw [List.zipIdx_map_fst]
      exact horder.nodup_iff.mpr List.nodup_range
    refine (List.pairwise_map.mp hnodup).imp_of_mem fun {e e'} he he' hne a => ?_
    refine (View.narrow2Part (hpart e he)).disjoint (View.narrow2Part (hpart e' he')) hsep
      fun y z hy hz heq => hne ?_
    have hhead : e.1 + y.2.2.1 = e'.1 + z.2.2.1 := congrArg (fun i => i.2.2.1) heq
    have hy : y.2.2.1 < 1 := hy.2.2.1
    have hz : z.2.2.1 < 1 := hz.2.2.1
    omega
  obtain ⟨hat, _⟩ := View.foldl_storeCells
    (g := fun e x => views.canonicalB.cell mA (x.1, x.2.1, e.2, x.2.2.2))
    (fun e he => (View.narrow2Part (hpart e he)).separated hsep) hpairs mA
  obtain ⟨h, hh, hhead⟩ := horder.exists_position hx.2.1
  have he : (x.2.1, h) ∈ order.zipIdx := by
    have hlt : h < order.length := horder.length ▸ hh
    rw [List.mem_zipIdx_iff_getElem?, List.getElem?_eq_getElem hlt, ← hhead,
      List.getD_eq_getElem _ _ hlt]
  have hcell := hat _ he (x.1, x.2.2.1, 0, x.2.2.2) ⟨hx.1, hx.2.2.1, Nat.one_pos, hx.2.2.2⟩
  rw [View.cell, View.narrow2_addr, View.swap_addr] at hcell
  refine hcell.trans ((hcells (x.1, x.2.2.1, h, x.2.2.2) ⟨hx.1, hx.2.2.1, hh, hx.2.2.2⟩).trans ?_)
  simp only [reordered, hhead]

/-- Without a transformer the heads are put back and the blocks scattered. -/
theorem inverseHadamardScatter_spec {body : List Nat} (hroom : Room pl slot part body.length)
    (hnt : pl.stages.contains .transformer = false) (horder : OrderPerm pl part)
    (hshape : (pl.cachePart part).shape.2 = (part.numHeads, pl.kernelTokens part, part.headSize))
    (hsep : (pl.cachePart part).Separated 2)
    (hin : ∀ b ∈ body, b < (pl.cachePart part).shape.1) (hnd : body.Nodup)
    (hcells : ∀ x : Index, x.Inside (pl.viewsOf part body.length).canonicalA.shape →
      (pl.viewsOf part body.length).canonicalA.cell slot.arenaA.mem x =
        pl.reordered part content x) :
    ∃ mA kv', pl.inverseHadamardScatter kv slot part body = some (slot.setA mA, kv') ∧
      (∀ i < body.length, ∀ x : Index,
        Index.Inside (0, x.2) (1, part.numHeads, pl.kernelTokens part, part.headSize) →
        (pl.cachePart part).cell (kv' part.layerName) (body.getD i 0, x.2) = content (i, x.2)) ∧
      ∀ name a, ¬ (name = part.layerName ∧ pl.InBlocks part body a) →
        kv' name a = kv name a := by
  let views := pl.viewsOf part body.length
  let mB := views.canonicalB.storeCells (views.canonicalA.cell slot.arenaA.mem) slot.arenaA.mem
  let mA := reorderHeads views (pl.headOrders part.layerName) mB
  obtain ⟨kv', hcopy, hat, hframe⟩ := @copyBlocks_spec pl part kv body hin hnd hsep
    (views.scratch.cell mA)
  have hB : ∀ x : Index, x.Inside views.canonicalB.shape →
      views.canonicalB.cell mB x = pl.reordered part content x := by
    intro x hx
    have hsepB : views.canonicalB.Separated 2 := View.contiguous_separated
    exact (View.cell_storeCells hsepB hx).trans (hcells x hx)
  refine ⟨mA, kv', ?_, fun i hi x hx => ?_, hframe⟩
  · simp only [inverseHadamardScatter, hroom.layerViews, hnt, Bool.false_eq_true, if_false, bind,
      Option.bind, pure]
    rw [hcopy]
  · rw [hat i hi x (by rw [hshape]; exact hx)]
    exact reorderHeads_spec horder hB ⟨hi, hx.2⟩

/-- **Decoding gives the complete blocks their elements.** -/
theorem decodeBody_spec (hpos : 0 < part.blockSize) {validTokens : Nat} {body : List Nat}
    (hn : n = validTokens / part.blockSize * pl.blocksPerLogical)
    (hbody : indices.take n = body) (hlen : body.length = n)
    (hroom : Room pl slot part n) (hnt : pl.stages.contains .transformer = false)
    (hnq : pl.stages.contains .quantizer = false) (horder : OrderPerm pl part)
    (hshape : (pl.cachePart part).shape.2 = (part.numHeads, pl.kernelTokens part, part.headSize))
    (hsep : (pl.cachePart part).Separated 2)
    (hin : ∀ b ∈ body, b < (pl.cachePart part).shape.1) (hnd : body.Nodup)
    (hpacked : (pl.packedSpan part n).Within slot.arenaB.size)
    (hat : pl.BodyAt part n content slot.arenaB.mem) :
    ∃ mA kv', pl.decodeBody kv part indices validTokens slot = some (slot.setA mA, kv') ∧
      (∀ i < n, ∀ x : Index,
        Index.Inside (0, x.2) (1, part.numHeads, pl.kernelTokens part, part.headSize) →
        (pl.cachePart part).cell (kv' part.layerName) (body.getD i 0, x.2) = content (i, x.2)) ∧
      ∀ name a, ¬ (name = part.layerName ∧ pl.InBlocks part body a) →
        kv' name a = kv name a := by
  by_cases hzero : bodyTokens part validTokens = 0
  · have hn0 : n = 0 := by rw [hn, bodyTokens_zero hpos hzero, Nat.zero_mul]
    refine ⟨slot.arenaA.mem, kv, ?_, fun i hi => ?_, fun _ _ _ => rfl⟩
    · rw [decodeBody, if_pos hzero]
      rfl
    · omega
  · obtain ⟨mA, habsorb, hcells⟩ := absorb_spec hroom hnq hpacked (bodyTokens part validTokens) hat
    subst hlen
    obtain ⟨mA', kv', hscatter, hcells', hframe⟩ := @inverseHadamardScatter_spec pl part kv
      (slot.setA mA) content body ⟨hroom.disjoint, hroom.withinA, hroom.withinB⟩ hnt horder hshape
      hsep hin hnd hcells
    refine ⟨mA', kv', ?_, hcells', hframe⟩
    have hblocks := bodyBlocks_eq pl hpos validTokens
    simp only [decodeBody, if_neg hzero, hblocks, ← hn, hbody, habsorb, hscatter, bind,
      Option.bind]
    rfl

end Pipeline

end KVServe.Runtime
