import KVServe.Runtime.Blocks

/-!
# KVServe.Runtime.Tail

The partial last block of a layer part. Its kernel blocks go to the raw tail one after the
other, each with only its valid tokens; on the other side they come back into a block that
was cleared first, so the positions after the last valid token are zero.
-/

namespace KVServe.Runtime

namespace Pipeline

variable {pl : Pipeline} {part : LayerPartLayout} {kv : KV} {slot : Slot} {indices : List Nat}

/-! ### The schedule -/

/-- The run of the `k`-th kernel block of a partial block of some tokens. -/
def tailRun (kernelTokens tokenBytes tailTokens k : Nat) : TailRun :=
  ⟨k, min (tailTokens - k * kernelTokens) kernelTokens, k * kernelTokens * tokenBytes⟩

section Schedule

variable {kernelTokens tokenBytes : Nat}

theorem tailRuns_bytes (hpos : 0 < kernelTokens) (n start remaining offset : Nat)
    (hfit : remaining ≤ n * kernelTokens) :
    (tailRuns kernelTokens tokenBytes (List.range' start n) remaining offset).2 =
      offset + remaining * tokenBytes := by
  induction n generalizing start remaining offset with
  | zero =>
      have : remaining = 0 := by omega
      simp [tailRuns, this]
  | succ n ih =>
      rw [List.range'_succ, tailRuns]
      split
      · have : remaining = 0 := by omega
        simp [this]
      · rw [Nat.succ_mul] at hfit
        rw [ih _ _ _ (by omega), Nat.add_assoc, ← Nat.add_mul]
        congr 2
        omega

/-- **The runs of a partial block**, in order: the `k`-th is there exactly when its kernel
block has a valid token. -/
theorem tailRuns_eq (hpos : 0 < kernelTokens) (n start remaining offset : Nat)
    (hfit : remaining ≤ n * kernelTokens) :
    (tailRuns kernelTokens tokenBytes (List.range' start n) remaining offset).1 =
      (List.range ((remaining + kernelTokens - 1) / kernelTokens)).map fun k =>
        ⟨start + k, min (remaining - k * kernelTokens) kernelTokens,
          offset + k * kernelTokens * tokenBytes⟩ := by
  induction n generalizing start remaining offset with
  | zero =>
      have hzero : remaining = 0 := by omega
      have : (remaining + kernelTokens - 1) / kernelTokens = 0 := Nat.div_eq_of_lt (by omega)
      simp [tailRuns, this]
  | succ n ih =>
      rw [List.range'_succ, tailRuns]
      split
      · have : (remaining + kernelTokens - 1) / kernelTokens = 0 := Nat.div_eq_of_lt (by omega)
        simp [this]
      · next hcount =>
          rw [Nat.succ_mul] at hfit
          have hrest := ih (start + 1) (remaining - min remaining kernelTokens)
            (offset + min remaining kernelTokens * tokenBytes) (by omega)
          simp only [hrest]
          have hnum : (remaining + kernelTokens - 1) / kernelTokens =
              (remaining - min remaining kernelTokens + kernelTokens - 1) / kernelTokens + 1 := by
            rw [← Nat.add_div_right _ hpos]
            rcases Nat.le_total remaining kernelTokens with hle | hle
            · rw [Nat.min_eq_left hle, Nat.sub_self]
              have hr : 0 < remaining := by omega
              rw [Nat.div_eq_of_lt_le (k := 1) (by omega) (by omega),
                Nat.div_eq_of_lt_le (k := 1) (by omega) (by omega)]
            · rw [Nat.min_eq_right hle]
              congr 1
              omega
          rw [hnum, List.range_succ_eq_map, List.map_cons, List.map_map]
          refine congrArg₂ List.cons ?_ (List.map_congr_left fun k hk => ?_)
          · simp
          · have hlt := List.mem_range.mp hk
            have hlarge : kernelTokens < remaining := by
              by_contra hle
              have : (remaining - min remaining kernelTokens + kernelTokens - 1) /
                  kernelTokens = 0 := Nat.div_eq_of_lt (by omega)
              omega
            have hmin : min remaining kernelTokens = kernelTokens := by omega
            simp only [Function.comp_apply, hmin, TailRun.mk.injEq, Nat.succ_mul, Nat.add_mul]
            omega

end Schedule

/-- The kernel blocks of a partial block that have a valid token. -/
def tailBlocks (pl : Pipeline) (part : LayerPartLayout) (tailTokens : Nat) : Nat :=
  (tailTokens + pl.kernelTokens part - 1) / pl.kernelTokens part

theorem lt_tailBlocks (hpos : 0 < pl.kernelTokens part) {k tailTokens : Nat} :
    k < pl.tailBlocks part tailTokens ↔ k * pl.kernelTokens part < tailTokens := by
  rw [tailBlocks, Nat.lt_div_iff_mul_lt hpos]
  omega

/-- A geometry in which logical blocks are whole kernel blocks. -/
structure WholeBlocks (pl : Pipeline) (part : LayerPartLayout) : Prop where
  pos : 0 < part.blockSize
  dvd : pl.blocksPerLogical ∣ part.blockSize

namespace WholeBlocks

theorem factor_pos (h : WholeBlocks pl part) : 0 < pl.blocksPerLogical :=
  Nat.pos_of_dvd_of_pos h.dvd h.pos

theorem mul_kernelTokens (h : WholeBlocks pl part) :
    pl.blocksPerLogical * pl.kernelTokens part = part.blockSize :=
  Nat.mul_div_cancel' h.dvd

theorem kernelTokens_pos (h : WholeBlocks pl part) : 0 < pl.kernelTokens part :=
  Nat.div_pos (Nat.le_of_dvd h.pos h.dvd) h.factor_pos

end WholeBlocks

theorem tailSchedule_eq (h : WholeBlocks pl part) {tailTokens : Nat}
    (hlt : tailTokens < part.blockSize) :
    pl.tailSchedule part tailTokens =
      ((List.range (pl.tailBlocks part tailTokens)).map
        (tailRun (pl.kernelTokens part) (CompressionLayout.tokenBytes part) tailTokens),
        tailTokens * CompressionLayout.tokenBytes part) := by
  have hfit : tailTokens ≤ pl.blocksPerLogical * pl.kernelTokens part := by
    rw [h.mul_kernelTokens]
    exact Nat.le_of_lt hlt
  rw [tailSchedule, List.range_eq_range']
  refine Prod.ext ?_ ?_
  · rw [tailRuns_eq h.kernelTokens_pos _ _ _ _ hfit, tailBlocks]
    simp only [Nat.zero_add]
    rfl
  · rw [tailRuns_bytes h.kernelTokens_pos _ _ _ _ hfit, Nat.zero_add]

/-! ### Packing -/

/-- The raw tail of a layer part stands at an offset: the valid tokens of the `k`-th kernel
block of its partial block are those of `content`. -/
def TailAt (pl : Pipeline) (part : LayerPartLayout) (tailTokens offset : Nat)
    (content : Index → Cell) (m : Mem) : Prop :=
  ∀ k < pl.tailBlocks part tailTokens,
    ∀ x : Index, Index.Inside (0, x.2) (1, part.numHeads,
        min (tailTokens - k * pl.kernelTokens part) (pl.kernelTokens part), part.headSize) →
      (tailTarget part offset (tailRun (pl.kernelTokens part)
        (CompressionLayout.tokenBytes part) tailTokens k)).cell m (0, x.2) = content (k, x.2)

theorem tailTarget_covers {offset a : Nat} {run : TailRun}
    (h : (tailTarget part offset run).Covers 2 a) :
    offset + run.offset ≤ a ∧
      a < offset + run.offset + run.count * CompressionLayout.tokenBytes part := by
  have hspan := View.contiguous_covers h
  simp only [View.span, Span.stop, Index.numel, Nat.one_mul] at hspan
  have hbytes : part.numHeads * run.count * part.headSize * 2 =
      run.count * CompressionLayout.tokenBytes part := by
    rw [CompressionLayout.tokenBytes]
    ring
  rw [hbytes] at hspan
  exact hspan

/-- A run ends before the next one starts, and before the end of the tail. -/
theorem tailRun_stop {tailTokens k : Nat} (hk : k < pl.tailBlocks part tailTokens)
    (hpos : 0 < pl.kernelTokens part) (tb : Nat) :
    (tailRun (pl.kernelTokens part) tb tailTokens k).offset +
        (tailRun (pl.kernelTokens part) tb tailTokens k).count * tb ≤
      min ((k + 1) * pl.kernelTokens part * tb) (tailTokens * tb) := by
  have hlt := (lt_tailBlocks hpos).mp hk
  rw [tailRun, ← Nat.add_mul]
  refine Nat.le_min.mpr ⟨Nat.mul_le_mul_right _ ?_, Nat.mul_le_mul_right _ ?_⟩
  · rw [Nat.succ_mul]
    exact Nat.add_le_add_left (Nat.min_le_right _ _) _
  · dsimp only
    omega

theorem pairwise_tailTargets (hpos : 0 < pl.kernelTokens part) (tailTokens offset : Nat) :
    ((List.range (pl.tailBlocks part tailTokens)).map
      (tailRun (pl.kernelTokens part) (CompressionLayout.tokenBytes part) tailTokens)).Pairwise
      fun r r' => ∀ a, ¬ ((tailTarget part offset r).Covers 2 a ∧
        (tailTarget part offset r').Covers 2 a) := by
  refine List.pairwise_map.mpr (List.pairwise_lt_range.imp_of_mem fun {k k'} hk _ hlt a => ?_)
  rintro ⟨hcov, hcov'⟩
  have hstop := tailRun_stop (List.mem_range.mp hk) hpos (CompressionLayout.tokenBytes part)
  have hstart : (k + 1) * pl.kernelTokens part * CompressionLayout.tokenBytes part ≤
      (tailRun (pl.kernelTokens part) (CompressionLayout.tokenBytes part) tailTokens k').offset :=
    Nat.mul_le_mul_right _ (Nat.mul_le_mul_right _ hlt)
  have hcov := tailTarget_covers hcov
  have hcov' := tailTarget_covers hcov'
  omega

/-- A run's kernel block, as a part of the scratch buffer. -/
def tailSourcePart {scratch : View} {run : TailRun} (h0 : run.physical < scratch.shape.1)
    (h2 : run.count ≤ scratch.shape.2.2.1) : View.Part (tailSource scratch run) scratch :=
  View.Part.trans (@View.narrow2Part (scratch.narrow0 run.physical 1) 0 run.count
    (by rw [Nat.zero_add]; exact h2)) (View.narrow0Part h0)

theorem tailSource_addr {scratch : View} {run : TailRun} {x : Index} :
    (tailSource scratch run).addr x = scratch.addr (run.physical + x.1, x.2) := by
  rw [tailSource, View.narrow2_addr, View.narrow0_addr, Nat.zero_add]

variable {tailIds : List Nat}

/-- **Packing puts the valid tokens of the partial block into the raw tail.** -/
theorem packRawTail_spec (h : WholeBlocks pl part) (hroom : Room pl slot part pl.blocksPerLogical)
    {validTokens offset : Nat}
    (hids : validTokens % part.blockSize ≠ 0 →
      indices.drop (indices.length - pl.blocksPerLogical) = tailIds)
    (hin : ∀ b ∈ tailIds, b < (pl.cachePart part).shape.1)
    (hfit : offset + validTokens % part.blockSize * CompressionLayout.tokenBytes part ≤
      slot.rawTail.size) :
    ∃ mA mT, pl.packRawTail kv slot part indices validTokens offset =
        some ((slot.setA mA).setTail mT,
          offset + validTokens % part.blockSize * CompressionLayout.tokenBytes part) ∧
      pl.TailAt part (validTokens % part.blockSize) offset (fun x =>
        (pl.cachePart part).cell (kv part.layerName) (tailIds.getD x.1 0, x.2)) mT ∧
      ∀ a, a < offset ∨
          offset + validTokens % part.blockSize * CompressionLayout.tokenBytes part ≤ a →
        mT a = slot.rawTail.mem a := by
  by_cases htail : validTokens % part.blockSize = 0
  · refine ⟨slot.arenaA.mem, slot.rawTail.mem, ?_, ?_, fun _ _ => rfl⟩
    · rw [packRawTail, htail, Nat.zero_mul]
      rfl
    · intro k hk
      rw [lt_tailBlocks h.kernelTokens_pos, htail] at hk
      exact absurd hk (Nat.not_lt_zero _)
  · have hschedule := tailSchedule_eq h (Nat.mod_lt validTokens h.pos)
    generalize htailTokens : validTokens % part.blockSize = tailTokens at *
    have hsep : ((pl.viewsOf part pl.blocksPerLogical).scratch).Separated 2 :=
      View.contiguous_separated
    let content : Index → Cell := fun x =>
      (pl.cachePart part).cell (kv part.layerName) (tailIds.getD x.1 0, x.2)
    let mA := (pl.viewsOf part pl.blocksPerLogical).scratch.storeCells content slot.arenaA.mem
    let runs := (List.range (pl.tailBlocks part tailTokens)).map
      (tailRun (pl.kernelTokens part) (CompressionLayout.tokenBytes part) tailTokens)
    obtain ⟨hat, hframe⟩ := @View.foldl_storeCells TailRun runs (tailTarget part offset)
      (fun run => (tailSource (pl.viewsOf part pl.blocksPerLogical).scratch run).cell mA)
      (fun run _ => View.contiguous_separated)
      (pairwise_tailTargets h.kernelTokens_pos tailTokens offset) slot.rawTail.mem
    refine ⟨mA, packRuns part (pl.viewsOf part pl.blocksPerLogical).scratch offset mA
      slot.rawTail.mem runs, ?_, ?_, ?_⟩
    · simp only [packRawTail, htailTokens, if_neg htail, hroom.layerViews, hids htail,
        selectBlocks_eq hin, hschedule, hfit, bind, Option.bind, pure, guard, if_true]
      rfl
    · intro k hk x hx
      have hrun := hat _ (List.mem_map_of_mem (List.mem_range.mpr hk)) (0, x.2) hx
      refine hrun.trans ?_
      rw [View.cell, tailSource_addr]
      refine View.cell_storeCells hsep ⟨?_, hx.2.1, ?_, hx.2.2.2⟩
      · show k + 0 < pl.blocksPerLogical
        have hk := (lt_tailBlocks h.kernelTokens_pos).mp hk
        have hlt : tailTokens < pl.blocksPerLogical * pl.kernelTokens part := by
          rw [h.mul_kernelTokens, ← htailTokens]
          exact Nat.mod_lt _ h.pos
        exact Nat.lt_of_mul_lt_mul_right (Nat.lt_trans hk hlt)
      · exact Nat.lt_of_lt_of_le hx.2.2.1 (Nat.min_le_right _ _)
    · intro a ha
      refine hframe a fun run hrun hcov => ?_
      obtain ⟨k, hk, rfl⟩ := List.mem_map.mp hrun
      have hstop := tailRun_stop (List.mem_range.mp hk) h.kernelTokens_pos
        (CompressionLayout.tokenBytes part)
      have hcov := tailTarget_covers hcov
      omega

/-! ### Applying -/

theorem tailBlocks_le (h : WholeBlocks pl part) {k tailTokens : Nat}
    (hlt : tailTokens < part.blockSize) (hk : k < pl.tailBlocks part tailTokens) :
    k < pl.blocksPerLogical := by
  have hk := (lt_tailBlocks h.kernelTokens_pos).mp hk
  rw [← h.mul_kernelTokens] at hlt
  exact Nat.lt_of_mul_lt_mul_right (Nat.lt_trans hk hlt)

/-- The cleared blocks after the loop: valid tokens and zeros. -/
theorem unpackRuns_spec (h : WholeBlocks pl part) {tailTokens offset : Nat}
    (hlt : tailTokens < part.blockSize) {content : Index → Cell} {rawTail arenaA : Mem}
    (htail : pl.TailAt part tailTokens offset content rawTail) {k : Nat}
    (hk : k < pl.blocksPerLogical) {x : Index}
    (hx : Index.Inside (0, x.2) (1, part.numHeads, pl.kernelTokens part, part.headSize)) :
    let scratch := (pl.viewsOf part pl.blocksPerLogical).scratch
    scratch.cell (unpackRuns part scratch offset rawTail
        (scratch.storeCells (fun _ => (0, 0)) arenaA)
        ((List.range (pl.tailBlocks part tailTokens)).map
          (tailRun (pl.kernelTokens part) (CompressionLayout.tokenBytes part) tailTokens)))
        (k, x.2) =
      if k * pl.kernelTokens part + x.2.2.1 < tailTokens then content (k, x.2) else (0, 0) := by
  intro scratch
  have hsep : scratch.Separated 2 := View.contiguous_separated
  have hpart : ∀ run ∈ (List.range (pl.tailBlocks part tailTokens)).map
      (tailRun (pl.kernelTokens part) (CompressionLayout.tokenBytes part) tailTokens),
      run.physical < scratch.shape.1 ∧ run.count ≤ scratch.shape.2.2.1 := by
    intro run hrun
    obtain ⟨j, hj, rfl⟩ := List.mem_map.mp hrun
    exact ⟨tailBlocks_le h hlt (List.mem_range.mp hj), Nat.min_le_right _ _⟩
  have hpairs : ((List.range (pl.tailBlocks part tailTokens)).map (tailRun (pl.kernelTokens part)
      (CompressionLayout.tokenBytes part) tailTokens)).Pairwise
      fun r r' => r.physical ≠ r'.physical :=
    List.pairwise_map.mpr (List.pairwise_lt_range.imp fun hlt => Nat.ne_of_lt hlt)
  obtain ⟨hat, hframe⟩ := @View.foldl_storeCells TailRun _ (tailSource scratch)
    (fun run => (tailTarget part offset run).cell rawTail)
    (fun run hrun => (tailSourcePart (hpart run hrun).1 (hpart run hrun).2).separated hsep)
    (hpairs.imp_of_mem fun {r r'} hr hr' hne a =>
      (tailSourcePart (hpart r hr).1 (hpart r hr).2).disjoint
        (tailSourcePart (hpart r' hr').1 (hpart r' hr').2) hsep fun y z hy hz heq => hne (by
          have hfst : r.physical + y.1 = r'.physical + z.1 := congrArg Prod.fst heq
          have hy : y.1 < 1 := hy.1
          have hz : z.1 < 1 := hz.1
          omega))
    (scratch.storeCells (fun _ => (0, 0)) arenaA)
  have hinside : Index.Inside (k, x.2) scratch.shape := ⟨hk, hx.2⟩
  split
  · next hvalid =>
      have hkb : k < pl.tailBlocks part tailTokens :=
        (lt_tailBlocks h.kernelTokens_pos).mpr (by omega)
      have hxr : Index.Inside (0, x.2) (1, part.numHeads,
          min (tailTokens - k * pl.kernelTokens part) (pl.kernelTokens part), part.headSize) := by
        have htoken : x.2.2.1 < pl.kernelTokens part := hx.2.2.1
        have hleft : x.2.2.1 < tailTokens - k * pl.kernelTokens part := by omega
        exact ⟨hx.1, hx.2.1, Nat.lt_min.mpr ⟨hleft, htoken⟩, hx.2.2.2⟩
      have hrun := hat _ (List.mem_map_of_mem (List.mem_range.mpr hkb)) (0, x.2) hxr
      rw [View.cell, tailSource_addr] at hrun
      exact hrun.trans (htail k hkb x hxr)
  · next hinvalid =>
      -- no run reaches a position after the last valid token
      have hclear : scratch.cell (scratch.storeCells (fun _ => (0, 0)) arenaA) (k, x.2) =
          (0, 0) := View.cell_storeCells hsep hinside
      refine Eq.trans (Mem.cell_congr ?_ ?_) hclear
      all_goals
        refine hframe _ fun run hrun hcov => ?_
        obtain ⟨y, hy, hle, hylt⟩ := hcov
        rw [tailSource_addr] at hle hylt
        have hphysical := (hpart run hrun).1
        have hcount := (hpart run hrun).2
        have hy1 : y.1 < 1 := hy.1
        have hy2 : y.2.2.1 < run.count := hy.2.2.1
        have hin : Index.Inside (run.physical + y.1, y.2) scratch.shape :=
          ⟨by omega, hy.2.1, Nat.lt_of_lt_of_le hy2 hcount, hy.2.2.2⟩
        by_cases heq : ((run.physical + y.1, y.2) : Index) = (k, x.2)
        · obtain ⟨j, hj, rfl⟩ := List.mem_map.mp hrun
          obtain ⟨hkj, hrest⟩ := Prod.mk.inj heq
          have hkj : j + y.1 = k := hkj
          have hxy : y.2.2.1 = x.2.2.1 := congrArg (fun z => z.2.1) hrest
          have hjk : j = k := by omega
          subst hjk
          have hcount : y.2.2.1 <
            min (tailTokens - j * pl.kernelTokens part) (pl.kernelTokens part) := hy2
          omega
        · rcases hsep _ _ hin hinside heq with hle' | hle' <;> omega

/-- **Applying gives the partial block its valid tokens, then zeros.** -/
theorem applyRawTail_spec (h : WholeBlocks pl part)
    (hroom : Room pl slot part pl.blocksPerLogical)
    (hshape : (pl.cachePart part).shape.2 = (part.numHeads, pl.kernelTokens part, part.headSize))
    (hsep : (pl.cachePart part).Separated 2) {validTokens offset : Nat}
    (hids : validTokens % part.blockSize ≠ 0 →
      indices.drop (indices.length - pl.blocksPerLogical) = tailIds)
    (hlen : validTokens % part.blockSize ≠ 0 → tailIds.length = pl.blocksPerLogical)
    (hin : ∀ b ∈ tailIds, b < (pl.cachePart part).shape.1) (hnd : tailIds.Nodup)
    (hfit : offset + validTokens % part.blockSize * CompressionLayout.tokenBytes part ≤
      slot.rawTail.size) {content : Index → Cell}
    (htail : pl.TailAt part (validTokens % part.blockSize) offset content slot.rawTail.mem) :
    ∃ mA kv', pl.applyRawTail kv slot part indices validTokens offset =
        some (slot.setA mA, kv',
          offset + validTokens % part.blockSize * CompressionLayout.tokenBytes part) ∧
      (validTokens % part.blockSize ≠ 0 → ∀ k < pl.blocksPerLogical, ∀ x : Index,
        Index.Inside (0, x.2) (1, part.numHeads, pl.kernelTokens part, part.headSize) →
        (pl.cachePart part).cell (kv' part.layerName) (tailIds.getD k 0, x.2) =
          if k * pl.kernelTokens part + x.2.2.1 < validTokens % part.blockSize then
            content (k, x.2)
          else (0, 0)) ∧
      ∀ name a, ¬ (validTokens % part.blockSize ≠ 0 ∧ name = part.layerName ∧
          pl.InBlocks part tailIds a) → kv' name a = kv name a := by
  by_cases hzero : validTokens % part.blockSize = 0
  · refine ⟨slot.arenaA.mem, kv, ?_, fun hne => absurd hzero hne, fun _ _ _ => rfl⟩
    rw [applyRawTail, hzero, Nat.zero_mul]
    rfl
  · have hlt := Nat.mod_lt validTokens h.pos
    have hschedule := tailSchedule_eq h hlt
    generalize htailTokens : validTokens % part.blockSize = tailTokens at *
    let scratch := (pl.viewsOf part pl.blocksPerLogical).scratch
    let mA := unpackRuns part scratch offset slot.rawTail.mem
      (scratch.storeCells (fun _ => (0, 0)) slot.arenaA.mem)
      ((List.range (pl.tailBlocks part tailTokens)).map
        (tailRun (pl.kernelTokens part) (CompressionLayout.tokenBytes part) tailTokens))
    obtain ⟨kv', hcopy, hat, hframe⟩ := @copyBlocks_spec pl part kv tailIds hin hnd hsep
      (scratch.cell mA)
    refine ⟨mA, kv', ?_, ?_, ?_⟩
    · simp only [applyRawTail, htailTokens, if_neg hzero, hroom.layerViews, hids hzero, hschedule,
        hfit, bind, Option.bind, pure, guard, if_true]
      rw [hcopy]
    · intro _ k hk x hx
      rw [hat k (by rw [hlen hzero]; exact hk) x (by rw [hshape]; exact hx)]
      exact unpackRuns_spec h hlt htail hk hx
    · exact fun name a hnot => hframe name a fun hin => hnot ⟨hzero, hin⟩

end Pipeline

end KVServe.Runtime
