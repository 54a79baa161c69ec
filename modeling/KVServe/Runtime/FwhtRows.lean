import KVServe.Runtime.Fwht

/-!
# KVServe.Runtime.FwhtRows

What the staged kernels and the Python loop leave in a row is the scaled
`Hadamard.transform` of the row: one lemma about a stage for each of them, and one induction
over the stages.
-/

namespace KVServe.Runtime

open Hadamard (butterfly transform xor_two_pow)

/-! ### Kernels -/

/-- What all writes to an address agree on is there in the end. -/
theorem runKernel_apply {C : Type} {writes : List (Nat × C)} {m : Nat → C} {a : Nat} {v : C}
    (hval : ∀ w ∈ writes, w.1 = a → w.2 = v) (hw : (∃ w ∈ writes, w.1 = a) ∨ m a = v) :
    runKernel writes m a = v := by
  induction writes generalizing m with
  | nil =>
      rcases hw with ⟨w, hw, -⟩ | hw
      · exact absurd hw List.not_mem_nil
      · exact hw
  | cons w ws ih =>
      show runKernel ws (Function.update m w.1 w.2) a = v
      refine ih (fun w' hw' => hval w' (List.mem_cons_of_mem _ hw')) ?_
      by_cases ha : w.1 = a
      · right
        rw [← ha, Function.update_self]
        exact hval w List.mem_cons_self ha
      · rcases hw with ⟨w', hw', hw'a⟩ | hw
        · rcases List.mem_cons.mp hw' with rfl | hw'
          · exact absurd hw'a ha
          · exact .inl ⟨w', hw', hw'a⟩
        · right
          rw [Function.update_of_ne (Ne.symm ha)]
          exact hw

theorem runKernel_frame {C : Type} {writes : List (Nat × C)} {m : Nat → C} {a : Nat}
    (h : ∀ w ∈ writes, w.1 ≠ a) : runKernel writes m a = m a :=
  runKernel_apply (fun w hw ha => absurd ha (h w hw)) (.inr rfl)

theorem mem_threads {blocks : Nat} {x : Nat × Nat} :
    x ∈ threads blocks ↔ x.1 < blocks ∧ x.2 < kThreads := by
  obtain ⟨block, thread⟩ := x
  simp [threads]

theorem div_lt_ceilDiv {a b c : Nat} (hc : 0 < c) (h : a < b) : a / c < ceilDiv b c := by
  have hle := Nat.div_mul_le_self a c
  rw [ceilDiv, Nat.lt_iff_add_one_le, Nat.le_div_iff_mul_le hc, Nat.add_one_mul]
  omega

/-- The launch covers every index. -/
theorem exists_thread {idx total : Nat} (h : idx < total) :
    ∃ x ∈ threads (ceilDiv total kThreads), x.1 * kThreads + x.2 = idx := by
  refine ⟨(idx / kThreads, idx % kThreads), mem_threads.mpr ⟨?_, ?_⟩, ?_⟩
  · exact div_lt_ceilDiv (by decide) h
  · exact Nat.mod_lt _ (by decide)
  · exact Nat.div_add_mod' idx kThreads

/-! ### Rows -/

/-- The rows of a buffer. -/
def Rows {C : Type} (m : Nat → C) (base rows size : Nat) (f : Nat → Nat → C) : Prop :=
  ∀ r < rows, ∀ j < size, m (base + (r * size + j)) = f r j

theorem position_lt {r rows j size : Nat} (hr : r < rows) (hj : j < size) :
    r * size + j < rows * size := by
  have : (r + 1) * size ≤ rows * size := Nat.mul_le_mul_right size hr
  rw [Nat.add_one_mul] at this
  omega

theorem position_div {r j size : Nat} (hj : j < size) : (r * size + j) / size = r := by
  rw [Nat.mul_comm, Nat.mul_add_div (by omega), Nat.div_eq_of_lt hj, Nat.add_zero]

theorem position_mod {r j size : Nat} (hj : j < size) : (r * size + j) % size = j := by
  rw [Nat.mul_comm, Nat.mul_add_mod, Nat.mod_eq_of_lt hj]

theorem position_inj {r r' j j' size : Nat} (hj : j < size) (hj' : j' < size)
    (h : r * size + j = r' * size + j') : r = r' ∧ j = j' := by
  constructor
  · rw [← position_div (r := r) hj, h, position_div hj']
  · rw [← position_mod (r := r) hj, h, position_mod hj']

/-- A buffer is known by its rows. -/
theorem Rows.at {C : Type} {m : Nat → C} {base rows size : Nat} {f : Nat → Nat → C}
    (h : Rows m base rows size f) {i : Nat} (hi : i < rows * size) :
    m (base + i) = f (i / size) (i % size) := by
  have hpos : 0 < size := Nat.pos_of_ne_zero fun h0 => by simp [h0] at hi
  have hr : i / size < rows := Nat.div_lt_of_lt_mul (by rwa [Nat.mul_comm])
  rw [← h _ hr _ (Nat.mod_lt i hpos), Nat.div_add_mod']

theorem rows_self {C : Type} (m : Nat → C) (base rows size : Nat) :
    Rows m base rows size fun r j => m (base + (r * size + j)) := fun _ _ _ _ => rfl

/-- A kernel of one write for each index. -/
theorem runKernel_range {C : Type} {m : Nat → C} {base count : Nat} {f : Nat → C} {i : Nat}
    (hi : i < count) :
    runKernel ((List.range count).map fun i => (base + i, f i)) m (base + i) = f i := by
  refine runKernel_apply ?_ (.inl ⟨_, List.mem_map.mpr ⟨i, List.mem_range.mpr hi, rfl⟩, rfl⟩)
  rintro w hw ha
  obtain ⟨i', -, rfl⟩ := List.mem_map.mp hw
  obtain rfl : i' = i := Nat.add_left_cancel ha
  rfl

theorem copyCells_rows {C : Type} {m : Nat → C} {src rows size : Nat} {f : Nat → Nat → C}
    (dst : Nat) (h : Rows m src rows size f) :
    Rows (FwhtOps.copyCells src dst (rows * size) m) dst rows size f := by
  intro r hr j hj
  rw [FwhtOps.copyCells, runKernel_range (position_lt hr hj)]
  exact h r hr j hj

/-! ### Stages -/

/-- What a stage preserves from one power of two to the next, all stages do. -/
theorem foldl_steps {S : Type} {n : Nat} {step : S → Nat → S} {s : S} (P : Nat → S → Prop)
    (h0 : P 0 s) (hstep : ∀ k < n, ∀ s, P k s → P (k + 1) (step s (2 ^ k))) :
    P n ((Arith.steps (2 ^ n)).foldl step s) := by
  have hrange : ∀ k ≤ n, P k (((List.range k).map (2 ^ ·)).foldl step s) := by
    intro k hk
    induction k with
    | zero => exact h0
    | succ k ih =>
        rw [List.range_succ, List.map_append, List.foldl_append]
        exact hstep k hk _ (ih (Nat.le_of_lt hk))
  rw [Arith.steps, Nat.clog_pow 2 n (by decide)]
  exact hrange n (Nat.le_refl n)

theorem and_two_pow_eq_zero {j k : Nat} : j &&& 2 ^ k = 0 ↔ j.testBit k = false := by
  rw [Nat.and_two_pow]
  cases j.testBit k <;> simp

/-- `group + offset` and `group + order + offset` are the positions of a butterfly. -/
theorem stage_positions (j k : Nat) :
    let group := j - (j &&& (2 * 2 ^ k - 1))
    let offset := j &&& (2 ^ k - 1)
    group + offset = (if j.testBit k then j ^^^ 2 ^ k else j) ∧
      group + 2 ^ k + offset = if j.testBit k then j else j ^^^ 2 ^ k := by
  have hpow : 2 * 2 ^ k = 2 ^ (k + 1) := by rw [pow_succ, Nat.mul_comm]
  have hmod : j % 2 ^ (k + 1) = j % 2 ^ k + 2 ^ k * (j / 2 ^ k % 2) := Nat.mod_pow_succ
  have hle := Nat.mod_le j (2 ^ (k + 1))
  have hxor := xor_two_pow j k
  simp only [hpow, Nat.and_two_pow_sub_one_eq_mod]
  cases h : j.testBit k
  · have hbit : j / 2 ^ k % 2 = 0 := by
      have := Nat.testBit_eq_decide_div_mod_eq (x := j) (i := k)
      rw [h] at this
      have := of_decide_eq_false this.symm
      omega
    rw [hbit, Nat.mul_zero, Nat.add_zero] at hmod
    simp only [h, Bool.false_eq_true, if_false] at hxor ⊢
    omega
  · have hbit : j / 2 ^ k % 2 = 1 := by
      have := Nat.testBit_eq_decide_div_mod_eq (x := j) (i := k)
      rw [h] at this
      exact of_decide_eq_true this.symm
    rw [hbit, Nat.mul_one] at hmod
    simp only [h, if_true] at hxor ⊢
    omega

namespace FwhtOps

variable {C F : Type} (ops : FwhtOps C F) {m : Nat → C} {src rows n k : Nat}
variable {f : Nat → Nat → C}

/-- **A stage kernel** is a butterfly of every row. -/
theorem fwhtStageKernel_rows (dst : Nat) (hk : k < n)
    (h : Rows m src rows (2 ^ n) f) :
    Rows (ops.fwhtStageKernel src dst (2 ^ n) (2 ^ k) (rows * 2 ^ n) m) dst rows (2 ^ n)
      fun r => butterfly ops.addCells ops.subCells k (f r) := by
  intro r hr j hj
  refine runKernel_apply ?_ (.inl ?_)
  · intro w hw ha
    obtain ⟨⟨block, thread⟩, -, hw⟩ := List.mem_filterMap.mp hw
    dsimp only at hw
    split at hw
    · exact nomatch hw
    obtain rfl := Option.some.inj hw
    have hidx : block * kThreads + thread = r * 2 ^ n + j := by
      have := Nat.div_add_mod' (block * kThreads + thread) (2 ^ n)
      dsimp only at ha
      omega
    obtain ⟨hlo, hhi⟩ := stage_positions j k
    dsimp only
    rw [hidx, position_div hj, position_mod hj, butterfly, ← h r hr j hj,
      ← h r hr _ (Hadamard.xor_lt hj hk)]
    generalize j - (j &&& (2 * 2 ^ k - 1)) = group at hlo hhi ⊢
    generalize j &&& (2 ^ k - 1) = offset at hlo hhi ⊢
    cases hbit : j.testBit k
    · simp only [hbit, Bool.false_eq_true, if_false] at hlo hhi ⊢
      have ha : src + r * 2 ^ n + group + offset = src + (r * 2 ^ n + j) := by omega
      have hb : src + r * 2 ^ n + group + 2 ^ k + offset = src + (r * 2 ^ n + (j ^^^ 2 ^ k)) := by
        omega
      rw [if_pos (and_two_pow_eq_zero.mpr hbit), ha, hb]
      rfl
    · simp only [hbit, if_true] at hlo hhi ⊢
      have ha : src + r * 2 ^ n + group + offset = src + (r * 2 ^ n + (j ^^^ 2 ^ k)) := by omega
      have hb : src + r * 2 ^ n + group + 2 ^ k + offset = src + (r * 2 ^ n + j) := by omega
      rw [if_neg (by simp [and_two_pow_eq_zero, hbit]), ha, hb]
      rfl
  · have hin := position_lt hr hj
    obtain ⟨⟨block, thread⟩, hx, hidx⟩ := exists_thread hin
    dsimp only at hidx
    refine ⟨_, List.mem_filterMap.mpr ⟨_, hx, if_neg (by rw [hidx]; exact Nat.not_le.mpr hin)⟩, ?_⟩
    dsimp only
    rw [hidx, position_div hj, position_mod hj, Nat.add_assoc]

theorem scaleKernel_rows (h : Rows m src rows (2 ^ n) f) :
    Rows (ops.scaleKernel src (2 ^ n) (rows * 2 ^ n) m) src rows (2 ^ n)
      fun r j => ops.scaleCell (2 ^ n) (f r j) := by
  intro r hr j hj
  refine runKernel_apply ?_ (.inl ?_)
  · intro w hw ha
    obtain ⟨⟨block, thread⟩, -, hw⟩ := List.mem_filterMap.mp hw
    dsimp only at hw
    split at hw
    · exact nomatch hw
    obtain rfl := Option.some.inj hw
    have hidx : block * kThreads + thread = r * 2 ^ n + j := Nat.add_left_cancel ha
    dsimp only
    rw [hidx, h r hr j hj]
  · have hin := position_lt hr hj
    obtain ⟨⟨block, thread⟩, hx, hidx⟩ := exists_thread hin
    dsimp only at hidx
    refine ⟨_, List.mem_filterMap.mpr ⟨_, hx, if_neg (by rw [hidx]; exact Nat.not_le.mpr hin)⟩, ?_⟩
    dsimp only
    rw [hidx]

/-- The rows after all stages. -/
def transformed (n : Nat) (f : Nat → Nat → C) (r : Nat) : Nat → C :=
  transform ops.addCells ops.subCells n (f r)

theorem fwhtStages_rows {input : Nat} (output scratch : Nat)
    (h : Rows m input rows (2 ^ n) f) :
    let s := ops.fwhtStages input output scratch (2 ^ n) rows m
    Rows s.mem s.src rows (2 ^ n) (ops.transformed n f) :=
  foldl_steps (fun k (s : FwhtState C) => Rows s.mem s.src rows (2 ^ n) (ops.transformed k f)) h
    fun _ hk s hs => fwhtStageKernel_rows ops s.dst hk hs

/-- **The staged path** leaves the scaled transform of every row. -/
theorem launchFwhtStaged_rows {input : Nat} (output scratch : Nat)
    (h : Rows m input rows (2 ^ n) f) :
    Rows (ops.launchFwhtStaged input output scratch (2 ^ n) rows m) output rows (2 ^ n)
      fun r j => ops.scaleCell (2 ^ n) (ops.transformed n f r j) := by
  have hscaled := scaleKernel_rows ops (fwhtStages_rows ops output scratch h)
  simp only [launchFwhtStaged]
  split
  · exact copyCells_rows output hscaled
  · next hout =>
      rw [not_ne_iff.mp hout] at hscaled ⊢
      exact hscaled

/-! ### The Python loop -/

/-- Buffers that do not meet. -/
def Apart (p q count : Nat) : Prop := p + count ≤ q ∨ q + count ≤ p

theorem Apart.symm {p q count : Nat} (h : Apart p q count) : Apart q p count := Or.symm h

theorem groups_eq (hk : k < n) : 2 ^ n / (2 * 2 ^ k) * 2 * 2 ^ k = 2 ^ n := by
  rw [Nat.mul_assoc]
  exact Nat.div_mul_cancel ⟨2 ^ (n - k - 1), by
    rw [Nat.mul_comm 2, ← pow_succ, ← pow_add]
    congr 1
    omega⟩

/-- The position of an element of `src.view(-1, groups, 2, step)`. -/
def pairPosition (groups step r g h x : Nat) : Nat := ((r * groups + g) * 2 + h) * step + x

theorem pairPosition_eq (hk : k < n) (r g h x : Nat) :
    pairPosition (2 ^ n / (2 * 2 ^ k)) (2 ^ k) r g h x =
      r * 2 ^ n + ((g * 2 + h) * 2 ^ k + x) := by
  conv_rhs => rw [← groups_eq hk]
  rw [pairPosition]
  ring

section Pairs

variable {groups step r g h x r' g' h' x' : Nat}

theorem pairPosition_inj (hg : g < groups) (hg' : g' < groups) (hh : h < 2) (hh' : h' < 2)
    (hx : x < step) (hx' : x' < step)
    (heq : pairPosition groups step r g h x = pairPosition groups step r' g' h' x') :
    r = r' ∧ g = g' ∧ h = h' ∧ x = x' := by
  obtain ⟨hhalf, rfl⟩ := position_inj hx hx' heq
  obtain ⟨hgroup, rfl⟩ := position_inj hh hh' hhalf
  obtain ⟨rfl, rfl⟩ := position_inj hg hg' hgroup
  exact ⟨rfl, rfl, rfl, rfl⟩

theorem pairPosition_lt (hr : r < rows) (hg : g < groups) (hh : h < 2) (hx : x < step) :
    pairPosition groups step r g h x < rows * groups * 2 * step :=
  position_lt (position_lt (position_lt hr hg) hh) hx

/-- The writes of one of the two operations of a stage. -/
theorem mem_pairWrites {dst half : Nat} {v : Nat → Nat → Nat → C} {w : Nat × C} :
    w ∈ ((List.range rows).flatMap fun r => (List.range groups).flatMap fun g =>
        (List.range step).map fun x => (dst + pairPosition groups step r g half x, v r g x)) ↔
      ∃ r < rows, ∃ g < groups, ∃ x < step,
        (dst + pairPosition groups step r g half x, v r g x) = w := by
  simp

end Pairs

section Pairs

variable {blockSize step r g h x : Nat} {op : C → C → C} {src dst half : Nat}

/-- The operation of a half is there in that half. -/
theorem pairs_at (hr : r < rows) (hg : g < blockSize / (2 * step)) (hhalf : half < 2)
    (hx : x < step) :
    let pos := pairPosition (blockSize / (2 * step)) step
    pairs op src dst half blockSize step rows m (dst + pos r g half x) =
      op (m (src + pos r g 0 x)) (m (src + pos r g 1 x)) := by
  refine runKernel_apply ?_ (.inl ⟨_, mem_pairWrites.mpr ⟨r, hr, g, hg, x, hx, rfl⟩, rfl⟩)
  intro w hw ha
  obtain ⟨r', -, g', hg', x', hx', rfl⟩ := mem_pairWrites.mp hw
  obtain ⟨rfl, rfl, -, rfl⟩ :=
    pairPosition_inj hg' hg hhalf hhalf hx' hx (Nat.add_left_cancel ha)
  rfl

/-- The other half keeps its elements. -/
theorem pairs_other (hg : g < blockSize / (2 * step)) (hhalf : half < 2) (hh : h < 2)
    (hne : h ≠ half) (hx : x < step) :
    let a := dst + pairPosition (blockSize / (2 * step)) step r g h x
    pairs op src dst half blockSize step rows m a = m a := by
  refine runKernel_frame fun w hw ha => ?_
  obtain ⟨r', -, g', hg', x', hx', rfl⟩ := mem_pairWrites.mp hw
  exact hne
    (pairPosition_inj hg' hg hhalf hh hx' hx (Nat.add_left_cancel ha)).2.2.1.symm

/-- Another buffer keeps its elements. -/
theorem pairs_apart (hk : k < n) (hhalf : half < 2) (hapart : Apart src dst (rows * 2 ^ n))
    {i : Nat} (hi : i < rows * 2 ^ n) :
    pairs op src dst half (2 ^ n) (2 ^ k) rows m (src + i) = m (src + i) := by
  refine runKernel_frame fun w hw ha => ?_
  obtain ⟨r, hr, g, hg, x, hx, rfl⟩ := mem_pairWrites.mp hw
  have hlt := pairPosition_lt hr hg hhalf hx
  rw [Nat.mul_assoc rows, Nat.mul_assoc rows, groups_eq hk] at hlt
  dsimp only at ha
  rcases hapart with h | h <;> omega

end Pairs

/-- Where the two halves of a group are. -/
theorem half_position {g x : Nat} (hx : x < 2 ^ k) :
    ((g * 2 + 0) * 2 ^ k + x).testBit k = false ∧
      ((g * 2 + 0) * 2 ^ k + x) ^^^ 2 ^ k = (g * 2 + 1) * 2 ^ k + x := by
  have hbit : ((g * 2 + 0) * 2 ^ k + x).testBit k = false := by
    rw [Nat.testBit_eq_decide_div_mod_eq, position_div hx]
    simp
  refine ⟨hbit, ?_⟩
  rw [xor_two_pow, hbit, if_neg Bool.false_ne_true]
  ring

/-- **A round of `torch.add` and `torch.sub`** is a butterfly of every row. -/
theorem pairs_rows (hk : k < n) {src dst : Nat} (hapart : Apart src dst (rows * 2 ^ n))
    (h : Rows m src rows (2 ^ n) f) :
    Rows (pairs ops.subCells src dst 1 (2 ^ n) (2 ^ k) rows
        (pairs ops.addCells src dst 0 (2 ^ n) (2 ^ k) rows m)) dst rows (2 ^ n)
      fun r => butterfly ops.addCells ops.subCells k (f r) := by
  intro r hr j hj
  show _ = butterfly ops.addCells ops.subCells k (f r) j
  have hx := Nat.mod_lt j (Nat.two_pow_pos k)
  have hg : j / 2 ^ k / 2 < 2 ^ n / (2 * 2 ^ k) := by
    have hpos : 0 < 2 * 2 ^ k := Nat.mul_pos (by decide) (Nat.two_pow_pos k)
    rw [Nat.div_div_eq_div_mul, Nat.mul_comm (2 ^ k), Nat.div_lt_iff_lt_mul hpos]
    rwa [← groups_eq hk, Nat.mul_assoc] at hj
  have hsplit : j = (j / 2 ^ k / 2 * 2 + j / 2 ^ k % 2) * 2 ^ k + j % 2 ^ k := by
    rw [Nat.div_add_mod', Nat.div_add_mod']
  generalize j / 2 ^ k / 2 = g at hg hsplit
  generalize j % 2 ^ k = x at hx hsplit
  obtain ⟨hbit, hxor⟩ := half_position (g := g) hx
  have heven : (g * 2 + 0) * 2 ^ k + x < 2 ^ n := by
    rw [← groups_eq hk]
    exact position_lt (position_lt hg (by decide)) hx
  have hodd : (g * 2 + 1) * 2 ^ k + x < 2 ^ n := by
    rw [← groups_eq hk]
    exact position_lt (position_lt hg (by decide)) hx
  rcases Nat.mod_two_eq_zero_or_one (j / 2 ^ k) with h0 | h1
  · -- the lower half: the sum, which `torch.sub` leaves alone
    rw [h0] at hsplit
    subst hsplit
    rw [← pairPosition_eq hk, pairs_other hg (by decide) (by decide) (by decide) hx,
      pairs_at hr hg (by decide) hx, pairPosition_eq hk, pairPosition_eq hk, h r hr _ heven,
      h r hr _ hodd, butterfly, hbit, hxor]
    rfl
  · rw [h1] at hsplit
    subst hsplit
    have hback : ((g * 2 + 1) * 2 ^ k + x) ^^^ 2 ^ k = (g * 2 + 0) * 2 ^ k + x := by
      rw [← hxor, Nat.xor_assoc, Nat.xor_self, Nat.xor_zero]
    have hbit' : ((g * 2 + 1) * 2 ^ k + x).testBit k = true := by
      rw [← hxor, Hadamard.testBit_xor_self, hbit]
      rfl
    rw [← pairPosition_eq hk, pairs_at hr hg (by decide) hx, pairPosition_eq hk,
      pairPosition_eq hk, pairs_apart hk (by decide) hapart (position_lt hr heven),
      pairs_apart hk (by decide) hapart (position_lt hr hodd), h r hr _ heven,
      h r hr _ hodd, butterfly, hbit', hback]
    rfl

theorem hadamardStages_rows {inputs outputs : Nat} (hapart : Apart inputs outputs (rows * 2 ^ n))
    (h : Rows m inputs rows (2 ^ n) f) :
    let s := ops.hadamardStages inputs outputs (2 ^ n) rows m
    Rows s.mem s.src rows (2 ^ n) (ops.transformed n f) :=
  (foldl_steps (fun k (s : FwhtState C) =>
    Rows s.mem s.src rows (2 ^ n) (ops.transformed k f) ∧ Apart s.src s.dst (rows * 2 ^ n))
    ⟨h, hapart⟩ fun _ hk _ hs => ⟨pairs_rows ops hk hs.2 hs.1, Apart.symm hs.2⟩).1

/-- **The Python loop** leaves the scaled transform of every row. -/
theorem hadamardTransform_rows {inputs outputs : Nat}
    (hapart : Apart inputs outputs (rows * 2 ^ n)) (h : Rows m inputs rows (2 ^ n) f) :
    Rows (ops.hadamardTransform inputs outputs (2 ^ n) rows m) outputs rows (2 ^ n)
      fun r j => ops.scaleCell (2 ^ n) (ops.transformed n f r j) := by
  intro r hr j hj
  have hstages := hadamardStages_rows ops hapart h
  dsimp only at hstages
  simp only [hadamardTransform]
  rw [runKernel_range (position_lt hr hj)]
  congr 1
  split
  · exact copyCells_rows outputs hstages r hr j hj
  · next hout =>
      rw [not_ne_iff.mp hout] at hstages
      exact hstages r hr j hj

end FwhtOps

end KVServe.Runtime
