import KVServe.Lib.Reduction
import KVServe.Runtime.FwhtAgree
import KVServe.Runtime.LayerRoundTrip
import KVServe.Runtime.PlanKernels

/-!
# KVServe.Runtime.KernelCells

What the kernels of an execution plan store, as views of a layer part. A launch with one thread for
each element stores the elements of a view, and the transform of a buffer depends on its rows
only; **so the elements gathered for a layer part are those of `CompressionPipeline`**, whatever
its scratch buffers hold.
-/

namespace KVServe.Runtime

/-! ### Launches -/

section Launches

variable {α : Type} {total : Nat} {f : Nat → List α} {w : α}

/-- Every number below `total` has its thread. -/
theorem mem_perElement : w ∈ perElement total f ↔ ∃ idx < total, w ∈ f idx := by
  rw [perElement, List.mem_flatMap]
  constructor
  · rintro ⟨x, -, hw⟩
    dsimp only at hw
    split at hw
    · cases hw
    · next hlt => exact ⟨_, Nat.lt_of_not_ge hlt, hw⟩
  · rintro ⟨idx, hlt, hw⟩
    obtain ⟨x, hx, rfl⟩ := exists_thread hlt
    refine ⟨x, hx, ?_⟩
    dsimp only
    rwa [if_neg (Nat.not_le.mpr hlt)]

/-- Threads for the elements of a box. -/
theorem mem_perElement_box {shape : Index} {g : Index → α}
    (hf : ∀ idx, (Index.unflat shape idx).Inside shape → f idx = [g (Index.unflat shape idx)]) :
    w ∈ perElement shape.numel f ↔ ∃ x, x.Inside shape ∧ w = g x := by
  rw [mem_perElement]
  constructor
  · rintro ⟨idx, hlt, hw⟩
    have hx := Index.unflat_inside hlt
    rw [hf idx hx, List.mem_singleton] at hw
    exact ⟨_, hx, hw⟩
  · rintro ⟨x, hx, rfl⟩
    have hflat := Index.unflat_flat hx
    refine ⟨Index.flat shape x, Index.flat_lt hx, ?_⟩
    rw [hf _ (by rwa [hflat]), hflat]
    exact List.mem_singleton_self _

/-- Threads for the elements of some rows of heads. -/
theorem mem_perElement_rows {rows heads size : Nat} {g : Nat → Nat → Nat → List α}
    (hf : ∀ idx, f idx = g (idx / size / heads) (idx / size % heads) (idx % size)) :
    w ∈ perElement (rows * heads * size) f ↔
      ∃ t < rows, ∃ h < heads, ∃ dim < size, w ∈ g t h dim := by
  rw [mem_perElement]
  constructor
  · rintro ⟨idx, hlt, hw⟩
    rw [hf] at hw
    have hsize : 0 < size := Nat.pos_of_ne_zero fun h => by simp [h] at hlt
    have hheads : 0 < heads := Nat.pos_of_ne_zero fun h => by simp [h] at hlt
    refine ⟨_, ?_, _, Nat.mod_lt _ hheads, _, Nat.mod_lt _ hsize, hw⟩
    rwa [Nat.div_lt_iff_lt_mul hheads, Nat.div_lt_iff_lt_mul hsize]
  · rintro ⟨t, ht, h, hh, dim, hdim, hw⟩
    refine ⟨(t * heads + h) * size + dim, position_lt (position_lt ht hh) hdim, ?_⟩
    rwa [hf, position_div hdim, position_mod hdim, position_div hh, position_mod hh]

theorem mem_strided {first stop stride t : Nat} (hpos : 0 < stride) :
    t ∈ strided first stop stride ↔ t < stop ∧ ∃ k, t = first + stride * k := by
  rw [strided, List.mem_range']
  constructor
  · rintro ⟨k, hk, rfl⟩
    rw [Nat.lt_div_iff_mul_lt hpos] at hk
    refine ⟨?_, k, rfl⟩
    rw [Nat.mul_comm k] at hk
    omega
  · rintro ⟨hlt, k, rfl⟩
    refine ⟨k, ?_, rfl⟩
    rw [Nat.lt_div_iff_mul_lt hpos, Nat.mul_comm k]
    omega

end Launches

/-! ### Rows of a transform -/

namespace Arith

variable {ar : Arith} {m m' : Mem} {input output base rows size n k : Nat}
  {f : Nat → Nat → Cell}

/-- The rows of a buffer of cells. -/
def CellRows (m : Mem) (base rows size : Nat) (f : Nat → Nat → Cell) : Prop :=
  ∀ r < rows, ∀ j < size, m.cell (base + (r * size + j) * 2) = f r j

/-- A buffer has the same rows in both memories. -/
def SameRows (m m' : Mem) (base rows size : Nat) : Prop :=
  CellRows m base rows size fun r j => m'.cell (base + (r * size + j) * 2)

/-- The rows of a launch: each is read whole before any is written. -/
theorem CellRows.mapRows {g g' : (Nat → Cell) → Nat → Cell}
    (h : CellRows m input rows size f)
    (hg : ∀ ⦃src row⦄, (∀ j < size, src j = row j) → ∀ j < size, g src j = g' row j) :
    CellRows (mapRows g input output rows size m) output rows size fun r => g' (f r) := by
  intro r hr j hj
  have hx : Index.Inside (0, 0, r, j) (1, 1, rows, size) := ⟨Nat.one_pos, Nat.one_pos, hr, hj⟩
  have hcell := View.cell_storeCells (v := .contiguous output 2 (1, 1, rows, size)) (m := m)
    (f := fun x => g (fun j => m.cell (input + (x.2.2.1 * size + j) * 2)) x.2.2.2)
    View.contiguous_separated hx
  rw [View.cell, View.contiguous_addr] at hcell
  simp only [Index.flat, Nat.zero_mul, Nat.zero_add] at hcell
  exact hcell.trans (hg (h r hr) j hj)

/-- A stage on a row is a butterfly, as in the kernel. -/
theorem fwhtStage_eq (hk : k < n) ⦃src row : Nat → Cell⦄ (hsrc : ∀ j < 2 ^ n, src j = row j) :
    ∀ j < 2 ^ n, ar.fwhtStage (2 ^ k) src j =
      Hadamard.butterfly ar.fwhtOps.addCells ar.fwhtOps.subCells k row j := by
  intro j hj
  obtain ⟨hlow, hhigh⟩ := stage_positions j k
  have hgroup : j - (j &&& (2 * 2 ^ k - 1)) = j / (2 * 2 ^ k) * (2 * 2 ^ k) := by
    have hpow : 2 * 2 ^ k = 2 ^ (k + 1) := by rw [pow_succ, Nat.mul_comm]
    have := Nat.div_add_mod' j (2 ^ (k + 1))
    rw [hpow, Nat.and_two_pow_sub_one_eq_mod]
    omega
  have hbit := Nat.testBit_eq_decide_div_mod_eq (x := j) (i := k)
  rw [hgroup, Nat.and_two_pow_sub_one_eq_mod] at hlow hhigh
  rw [fwhtStage, hlow, hhigh, Hadamard.butterfly, ← hsrc j hj,
    ← hsrc _ (Hadamard.xor_lt hj hk)]
  cases hset : j.testBit k
  · rw [hset] at hbit
    have heven : j / 2 ^ k % 2 = 0 := by
      have := of_decide_eq_false hbit.symm
      omega
    rw [if_pos heven]
    rfl
  · rw [hset] at hbit
    have hodd : j / 2 ^ k % 2 = 1 := of_decide_eq_true hbit.symm
    rw [if_neg (by omega)]
    rfl

/-- **`launch_fwht`** leaves the scaled transform of every row, as the kernels do. -/
theorem launchFwht_rows (h : CellRows m input rows (2 ^ n) f) :
    CellRows (ar.launchFwht input output rows (2 ^ n) m) output rows (2 ^ n) fun r j =>
      ar.fwhtOps.scaleCell (2 ^ n) (ar.fwhtOps.transformed n f r j) := by
  by_cases hfused : 2 ^ n ≤ 1024
  · rw [launchFwht, if_pos hfused]
    refine @CellRows.mapRows m input output rows (2 ^ n) f (ar.fwhtFused (2 ^ n))
      (fun row j => ar.fwhtOps.scaleCell (2 ^ n)
        (Hadamard.transform ar.fwhtOps.addCells ar.fwhtOps.subCells n row j)) h
      fun src row hsrc j hj => ?_
    rw [fwhtFused_eq, Hadamard.transform_congr _ _ hsrc hj]
  · let stage := fun (s : Mem × Nat × Nat) order =>
      (Arith.mapRows (ar.fwhtStage order) s.2.1 s.2.2 rows (2 ^ n) s.1, s.2.2,
        if s.2.2 = output then input else output)
    have hstages := @foldl_steps _ n stage (m, input, output)
      (fun k s => CellRows s.1 s.2.1 rows (2 ^ n) (ar.fwhtOps.transformed k f)) h
      fun k hk s hs => hs.mapRows (fwhtStage_eq hk)
    rw [launchFwht, if_neg hfused]
    generalize (steps (2 ^ n)).foldl _ _ = s at hstages ⊢
    have hscaled := @CellRows.mapRows s.1 s.2.1 s.2.1 rows (2 ^ n) _ (ar.fwhtScale (2 ^ n))
      (fun row j => ar.fwhtOps.scaleCell (2 ^ n) (row j)) hstages fun src row hsrc j hj => by
        rw [fwhtScale, hsrc j hj]
        rfl
    dsimp only
    split
    · next hout =>
        rw [hout] at hscaled ⊢
        exact hscaled
    · exact hscaled.mapRows fun _ _ hsrc => hsrc

/-- **The output of a transform depends on the rows of its input.** -/
theorem SameRows.launchFwht (h : SameRows m m' input rows (2 ^ n)) :
    SameRows (ar.launchFwht input output rows (2 ^ n) m)
      (ar.launchFwht input output rows (2 ^ n) m') output rows (2 ^ n) := by
  intro r hr j hj
  exact (launchFwht_rows h r hr j hj).trans
    (launchFwht_rows (fun _ _ _ _ => rfl) r hr j hj).symm

/-- The cells of a memory from a byte on. -/
def cellsFrom (m : Mem) (base a : Nat) : Cell := m.cell (base + a * 2)

/-- **Both accounts of `launch_fwht` leave the same output**, the one of the rows of a memory and
the one of the threads of its kernels. -/
theorem launchFwht_threads (m : Mem) (base input output : Nat) (hrows : 0 < rows) :
    ∃ launched, ar.fwhtOps.launchFwht input output input (2 ^ n) rows (cellsFrom m base) =
        .ok launched ∧
      ∀ i < rows * 2 ^ n, launched (output + i) = cellsFrom
        (ar.launchFwht (base + input * 2) (base + output * 2) rows (2 ^ n) m) base (output + i) := by
  refine ⟨_, ar.fwhtOps.launchFwht_pow input output input n rows _, fun i hi => ?_⟩
  have haddr : ∀ a b, base + (a + b) * 2 = base + a * 2 + b * 2 := fun a b => by omega
  have hread : CellRows m (base + input * 2) rows (2 ^ n) fun r j =>
      cellsFrom m base (input + (r * 2 ^ n + j)) := by
    intro r _ j _
    simp only [cellsFrom, haddr]
  have hleft := @launchFwht_rows ar m _ (base + output * 2) rows n _ hread (i / 2 ^ n)
    (Nat.div_lt_of_lt_mul (by rwa [Nat.mul_comm])) (i % 2 ^ n) (Nat.mod_lt i (Nat.two_pow_pos n))
  rw [Nat.div_add_mod'] at hleft
  rw [if_neg (Nat.pos_iff_ne_zero.mp hrows), cellsFrom, haddr, hleft]
  split
  · exact (ar.fwhtOps.launchFwhtFused_rows (cellsFrom m base) input output rows n).at hi
  · exact (ar.fwhtOps.launchFwhtStaged_rows output input
      (rows_self (cellsFrom m base) input rows (2 ^ n))).at hi

end Arith

/-! ### Gathering -/

namespace Pipeline

variable {pl : Pipeline} {part : LayerPartLayout} {numParts sectionIndex n base : Nat}
  {indices : List Nat} {d : Device} {m m' : Mem}

/-- What the kernels rely on in a layer part. -/
structure PlanPart (pl : Pipeline) (part : LayerPartLayout) : Prop where
  whole : pl.WholeBlocks part
  order : pl.OrderPerm part
  shape : (pl.cachePart part).shape.2 = (part.numHeads, pl.kernelTokens part, part.headSize)
  dense : (pl.cachePart part).stride.2.2.2 = 2
  separated : (pl.cachePart part).Separated 2
  signs : pl.signSize part.layerName part.kvPart = part.headSize
  /-- `launch_fwht` raises for any other head size. -/
  power : pl.stages.contains .transformer = true → ∃ k, part.headSize = 2 ^ k

/-- The positions of the elements of some kernel blocks, token by token. -/
def canonicalShape (pl : Pipeline) (part : LayerPartLayout) (n : Nat) : Index :=
  (n, pl.kernelTokens part, part.numHeads, part.headSize)

theorem cacheOffset_eq (h : PlanPart pl part) (block head t dim : Nat) :
    cacheOffset (pl.partDesc numParts sectionIndex part) block head t dim =
      (pl.cachePart part).addr (block, head, t, dim) := by
  simp only [cacheOffset, partDesc, View.addr, h.dense]

theorem orderedHead_eq (h : PlanPart pl part) {head : Nat} (hhead : head < part.numHeads) :
    pl.orderedHead (pl.partDesc numParts sectionIndex part) head =
      (pl.headOrders part.layerName).getD head 0 := by
  cases hid : pl.identityOrder part.layerName with
  | true =>
      rw [h.order.getD_of_identity hid hhead]
      simp only [orderedHead, partDesc, hid, if_true]
  | false =>
      simp only [orderedHead, partDesc, hid, Bool.false_eq_true, if_false, orderAt, Nat.zero_div,
        Nat.zero_add]

/-- An element times its sign, where there are signs. -/
def signedCell (pl : Pipeline) (part : LayerPartLayout) (c : Cell) (x : Index) : Cell :=
  if pl.stages.contains .transformer then
    pl.ar.rn (pl.ar.mul (pl.ar.toF32 c)
      (pl.ar.toF32 (pl.signs part.layerName part.kvPart x.2.2.1 x.2.2.2)))
  else c

theorem rn_signed (h : PlanPart pl part) {c : Cell} {x : Index} (hx : x.2.2.2 < part.headSize) :
    pl.ar.rn (pl.signed (pl.partDesc numParts sectionIndex part) (pl.ar.toF32 c) x.2.2.1 x.2.2.2) =
      pl.signedCell part c x := by
  cases hst : pl.stages.contains .transformer with
  | true =>
      have hsign : pl.signAt ⟨.signs part.layerName part.kvPart, 0⟩
          (x.2.2.1 * part.headSize + x.2.2.2) =
          pl.signs part.layerName part.kvPart x.2.2.1 x.2.2.2 := by
        simp only [signAt, h.signs, Nat.zero_div, Nat.zero_add]
        rw [position_div hx, position_mod hx]
      simp only [signed, partDesc, signedCell, hst, if_true, hsign]
  | false =>
      simp only [signed, partDesc, signedCell, hst, Bool.false_eq_true, if_false, pl.ar.rn_toF32]

/-- What `gather_sign_kernel` makes of the elements of some kernel blocks. -/
def gathered (pl : Pipeline) (part : LayerPartLayout) (indices : List Nat) (m : Mem) (x : Index) :
    Cell :=
  pl.signedCell part (pl.reordered part (fun y =>
    (pl.cachePart part).cell m (indices.getD y.1 0, y.2)) x) x

/-- **`gather_sign_kernel`** fills a buffer. -/
theorem gatherSignKernel_eq (h : PlanPart pl part) :
    pl.gatherSignKernel (pl.partDesc numParts sectionIndex part) indices
        (pl.canonicalShape part n).numel ⟨.arenaA, base⟩ d =
      Function.update d .arenaA ((View.contiguous base 2 (pl.canonicalShape part n)).storeCells
        (pl.gathered part indices (d (.cache part.layerName))) (d .arenaA)) := by
  rw [gatherSignKernel, Device.store]
  congr 1
  refine View.storeElements_eq View.contiguous_separated fun w =>
    mem_perElement_box (g := fun x => ((View.contiguous base 2 (pl.canonicalShape part n)).addr x,
      pl.gathered part indices (d (.cache part.layerName)) x)) fun idx hx => ?_
  rw [View.contiguous_addr, Index.flat_unflat, gathered, ← rn_signed h hx.2.2.2, reordered,
    ← orderedHead_eq h hx.2.2.1, View.cell, ← cacheOffset_eq h]
  rfl

/-! ### Buffers -/

section Buffers

variable {shape : Index} {a b : Nat}

/-- A copied buffer has the elements of the other one. -/
theorem cell_fill {x : Index} (hx : x.Inside shape) :
    (View.contiguous a 2 shape).cell (m.fill ⟨a, shape.numel * 2⟩ fun k => m' (b + k)) x =
      (View.contiguous b 2 shape).cell m' x := by
  have hflat : Index.flat shape x * 2 + 1 < shape.numel * 2 := by
    have := Index.flat_lt hx
    omega
  have hfill : ∀ k < shape.numel * 2,
      m.fill ⟨a, shape.numel * 2⟩ (fun k => m' (b + k)) (a + k) = m' (b + k) :=
    fun k hk => Mem.fill_at (s := ⟨a, shape.numel * 2⟩) hk
  rw [View.cell, View.cell, View.contiguous_addr, View.contiguous_addr]
  refine Prod.ext (hfill _ (Nat.lt_of_succ_lt hflat)) ?_
  exact hfill (Index.flat shape x * 2 + 1) hflat

/-- Buffers with the same elements have the same bytes. -/
theorem bytes_of_cells (h : ∀ x : Index, x.Inside shape →
    (View.contiguous a 2 shape).cell m x = (View.contiguous a 2 shape).cell m' x) {k : Nat}
    (hk : k < shape.numel * 2) : m (a + k) = m' (a + k) := by
  have hlt : k / 2 < shape.numel := by omega
  have hcell := h _ (Index.unflat_inside hlt)
  rw [View.cell, View.cell, View.contiguous_addr, Index.flat_unflat] at hcell
  rcases Nat.mod_two_eq_zero_or_one k with hmod | hmod
  · have haddr : a + k / 2 * 2 = a + k := by omega
    rw [haddr] at hcell
    exact congrArg Prod.fst hcell
  · have haddr : a + k / 2 * 2 + 1 = a + k := by omega
    have hsnd := congrArg Prod.snd hcell
    simp only [Mem.cell, haddr] at hsnd
    exact hsnd

/-- The rows of a buffer are its elements. -/
theorem sameRows_iff {n₀ n₁ n₂ size : Nat} :
    Arith.SameRows m m' a (n₀ * n₁ * n₂) size ↔ ∀ x : Index, x.Inside (n₀, n₁, n₂, size) →
      (View.contiguous a 2 (n₀, n₁, n₂, size)).cell m x =
        (View.contiguous a 2 (n₀, n₁, n₂, size)).cell m' x := by
  constructor
  · intro h x hx
    rw [View.cell, View.cell, View.contiguous_addr]
    exact h _ (position_lt (position_lt hx.1 hx.2.1) hx.2.2.1) _ hx.2.2.2
  · intro h r hr j hj
    have hlt : r * size + j < Index.numel (n₀, n₁, n₂, size) := position_lt hr hj
    have hcell := h _ (Index.unflat_inside hlt)
    rwa [View.cell, View.cell, View.contiguous_addr, Index.flat_unflat] at hcell

end Buffers

/-! ### The first buffer -/

variable {kv : KV} {slot : Slot}

/-- Before a transform the gathered elements go to the second buffer. -/
theorem gatherRearrange_transformer (hroom : pl.Room slot part indices.length)
    (hst : pl.stages.contains .transformer = true) (horder : OrderPerm pl part)
    (hin : ∀ b ∈ indices, b < (pl.cachePart part).shape.1) :
    ∃ mA, pl.gatherRearrange kv slot part indices = some (slot.setA mA, true) ∧
      ∀ x : Index, x.Inside (pl.canonicalShape part indices.length) →
        (pl.viewsOf part indices.length).canonicalB.cell mA x =
          pl.reordered part (fun y =>
            (pl.cachePart part).cell (kv part.layerName) (indices.getD y.1 0, y.2)) x := by
  let select : Index → Cell := fun y =>
    (pl.cachePart part).cell (kv part.layerName) (indices.getD y.1 0, y.2)
  let views := pl.viewsOf part indices.length
  have hsep : views.canonicalB.Separated 2 := View.contiguous_separated
  cases hid : pl.identityOrder part.layerName with
  | true =>
      refine ⟨views.canonicalB.swap.storeCells select slot.arenaA.mem, ?_, fun x hx => ?_⟩
      · simp only [gatherRearrange, hroom.layerViews, selectBlocks_eq hin, hid, hst, bind,
          Option.bind, pure, if_true]
        rfl
      · have hcell : views.canonicalB.swap.cell
            (views.canonicalB.swap.storeCells select slot.arenaA.mem) x.swap = select x.swap :=
          View.cell_storeCells (View.swap_separated hsep) (Index.swap_inside.mpr hx)
        rw [View.cell, View.swap_addr, Index.swap_swap] at hcell
        refine hcell.trans ?_
        rw [reordered, horder.getD_of_identity hid hx.2.2.1]
        rfl
  | false =>
      let mS := views.scratch.storeCells select slot.arenaA.mem
      refine ⟨views.canonicalB.storeCells (fun x => views.scratch.swap.cell mS
        (x.1, x.2.1, (pl.headOrders part.layerName).getD x.2.2.1 0, x.2.2.2)) mS, ?_,
        fun x hx => ?_⟩
      · simp only [gatherRearrange, hroom.layerViews, selectBlocks_eq hin, hid, bind,
          Option.bind, pure, Bool.false_eq_true, if_false]
        rfl
      · refine (View.cell_storeCells hsep hx).trans ?_
        rw [View.cell, View.swap_addr]
        exact View.cell_storeCells (x := (x.1, (pl.headOrders part.layerName).getD x.2.2.1 0,
          x.2.1, x.2.2.2)) View.contiguous_separated
          ⟨hx.1, horder.lt hx.2.2.1, hx.2.1, hx.2.2.2⟩

/-- The elements of the first buffer before the next stage, as the Python stages leave them. -/
theorem exists_canonicalA (h : PlanPart pl part) (hroom : pl.Room slot part indices.length)
    (hin : ∀ b ∈ indices, b < (pl.cachePart part).shape.1) :
    ∃ mA inB mA', pl.gatherRearrange kv slot part indices = some (slot.setA mA, inB) ∧
      pl.transform (slot.setA mA) part indices.length inB = some (slot.setA mA') ∧
      ∀ dA, (∀ x : Index, x.Inside (pl.canonicalShape part indices.length) →
        (pl.viewsOf part indices.length).canonicalB.cell dA x =
          pl.gathered part indices (kv part.layerName) x) →
      ∀ x : Index, x.Inside (pl.canonicalShape part indices.length) →
        (pl.viewsOf part indices.length).canonicalA.cell mA' x =
          (pl.viewsOf part indices.length).canonicalA.cell
            (if pl.stages.contains .transformer then
              pl.ar.launchFwht (pl.spanB part indices.length).start
                (pl.spanA part indices.length).start (pl.numRows part indices.length)
                part.headSize dA
            else dA.fill (pl.spanA part indices.length) fun k =>
              dA ((pl.spanB part indices.length).start + k)) x := by
  let views := pl.viewsOf part indices.length
  have hsepB : views.canonicalB.Separated 2 := View.contiguous_separated
  cases hst : pl.stages.contains .transformer with
  | true =>
      obtain ⟨mA, hgather, hcells⟩ := @gatherRearrange_transformer pl part indices kv slot hroom hst
        h.order hin
      refine ⟨mA, true, pl.ar.launchFwht views.canonicalB.base views.canonicalA.base
        (pl.numRows part indices.length) part.headSize (pl.applySigns views part mA), hgather, ?_,
        fun dA hdA => ?_⟩
      · have hroom : pl.Room (slot.setA mA) part indices.length :=
          ⟨hroom.disjoint, hroom.withinA, hroom.withinB⟩
        simp only [transform, hst, if_true, hadamardForward, hroom.layerViews, bind, Option.bind,
          pure]
        rfl
      · -- the signs are applied in the second buffer, where the kernel gathered the products
        obtain ⟨k, hk⟩ := h.power hst
        have hsigned : ∀ x : Index, x.Inside (pl.canonicalShape part indices.length) →
            views.canonicalB.cell (pl.applySigns views part mA) x = views.canonicalB.cell dA x := by
          intro x hx
          refine ((View.cell_storeCells hsepB hx).trans ?_).trans (hdA x hx).symm
          rw [hcells x hx, gathered, signedCell, if_pos hst]
        have hrows := sameRows_iff.mpr hsigned
        simp only [if_true]
        rw [hk] at hrows ⊢
        have hout := @Arith.SameRows.launchFwht pl.ar _ _ _ views.canonicalA.base _ _ hrows
        rw [← hk] at hout ⊢
        exact sameRows_iff.mp hout
  | false =>
      obtain ⟨mA, inB, hgather, hcells⟩ := @gatherRearrange_spec pl part kv slot indices hroom hst
        h.order hin
      obtain ⟨mA', htransform, hcells'⟩ := @transform_spec pl part (slot.setA mA) indices.length
        ⟨hroom.disjoint, hroom.withinA, hroom.withinB⟩ hst inB _ hcells
      refine ⟨mA, inB, mA', hgather, htransform, fun dA hdA x hx => ?_⟩
      simp only [Bool.false_eq_true, if_false]
      refine ((hcells' x hx).trans ?_).trans (cell_fill (a := (pl.spanA part _).start) hx).symm
      refine Eq.trans ?_ (hdA x hx).symm
      rw [gathered, signedCell, hst, if_neg Bool.false_ne_true]

theorem gathered_take {x : Index} (hx : x.1 < n) :
    pl.gathered part (indices.take n) m x = pl.gathered part indices m x := by
  rw [gathered, gathered, reordered, reordered, getD_take hx]

/-- **`gather_and_transform`** leaves in the first buffer what the Python stages leave there. -/
theorem gatherAndTransform_agrees (h : PlanPart pl part) (hle : n ≤ indices.length)
    (hroom : pl.Room slot part n) (hin : ∀ b ∈ indices, b < (pl.cachePart part).shape.1)
    (hkv : d (.cache part.layerName) = kv part.layerName) :
    ∃ mA inB mA' dA, pl.gatherRearrange kv slot part (indices.take n) =
        some (slot.setA mA, inB) ∧
      pl.transform (slot.setA mA) part n inB = some (slot.setA mA') ∧
      pl.gatherAndTransform (pl.partDesc numParts sectionIndex part) indices n
          ⟨.arenaA, (pl.spanA part n).start⟩ ⟨.arenaA, (pl.spanB part n).start⟩ d =
        Function.update d .arenaA dA ∧
      ∀ x : Index, x.Inside (pl.canonicalShape part n) →
        (pl.viewsOf part n).canonicalA.cell mA' x = (pl.viewsOf part n).canonicalA.cell dA x := by
  have hlength : (indices.take n).length = n := List.length_take_of_le hle
  have hroom' : pl.Room slot part (indices.take n).length := by rwa [hlength]
  obtain ⟨mA, inB, mA', hgather, htransform, hcells⟩ := @exists_canonicalA pl part _ kv slot h
    hroom' fun b hb => hin b (List.mem_of_mem_take hb)
  rw [hlength] at htransform hcells
  let dB := (pl.viewsOf part n).canonicalB.storeCells
    (pl.gathered part indices (d (.cache part.layerName))) (d .arenaA)
  refine ⟨mA, inB, mA', _, hgather, htransform, ?_, hcells dB fun x hx => ?_⟩
  · let desc := pl.partDesc numParts sectionIndex part
    have hkernel : pl.gatherSignKernel desc indices
        (n * desc.kernelTokens * desc.numHeads * desc.headSize)
        ⟨.arenaA, (pl.spanB part n).start⟩ d = Function.update d .arenaA dB :=
      gatherSignKernel_eq h
    have huses : desc.usesTransformer = (pl.stages.contains .transformer).toNat := rfl
    rw [gatherAndTransform]
    dsimp only
    rw [hkernel, huses]
    cases pl.stages.contains .transformer with
    | true =>
        simp only [Bool.toNat_true, Nat.one_ne_zero, if_false, if_true, launchFwht,
          Function.update_self, Function.update_idem]
        rfl
    | false =>
        simp only [Bool.toNat_false, if_true, Bool.false_eq_true, if_false, Device.memcpy,
          Function.update_self, Function.update_idem]
        rfl
  · have hsep : (pl.viewsOf part n).canonicalB.Separated 2 := View.contiguous_separated
    rw [gathered_take (n := n) hx.1, ← hkv]
    exact View.cell_storeCells hsep hx

end Pipeline

end KVServe.Runtime
