import KVServe.Runtime.FwhtRows
import Mathlib.Algebra.Field.Rat
import Mathlib.Tactic.NormNum

/-!
# KVServe.Runtime.FwhtAgree

The register and shuffle kernel leaves the scaled `Hadamard.transform` of every row too:
the low bits of a position are those of the lane, the high bits those of the register.
Hence **the three programs agree**, and over a commutative ring the transform there and back,
with the signs around it, gives the row again.
-/

namespace KVServe.Runtime

open Hadamard (butterfly transform xor_two_pow)

/-! ### Positions of a row -/

section Positions

variable {w k i lane : Nat}

/-- A shuffle turns over a bit of the lane. -/
theorem testBit_lane (hk : k < w) (hlane : lane < 2 ^ w) :
    (i * 2 ^ w + lane).testBit k = lane.testBit k := by
  rw [Nat.mul_comm, Nat.testBit_two_pow_mul_add i hlane, if_pos hk]

theorem xor_lane (hk : k < w) (hlane : lane < 2 ^ w) :
    (i * 2 ^ w + lane) ^^^ 2 ^ k = i * 2 ^ w + (lane ^^^ 2 ^ k) := by
  have hge := Nat.ge_two_pow_of_testBit (x := lane) (i := k)
  rw [xor_two_pow, xor_two_pow lane, testBit_lane hk hlane]
  split
  · next hbit =>
      have := hge hbit
      omega
  · omega

/-- A butterfly between registers turns over a bit of the register index. -/
theorem testBit_register (hlane : lane < 2 ^ w) :
    (i * 2 ^ w + lane).testBit (w + k) = i.testBit k := by
  rw [Nat.mul_comm, Nat.testBit_two_pow_mul_add i hlane, if_neg (by omega),
    Nat.add_sub_cancel_left]

theorem xor_register (hlane : lane < 2 ^ w) :
    (i * 2 ^ w + lane) ^^^ 2 ^ (w + k) = (i ^^^ 2 ^ k) * 2 ^ w + lane := by
  have hge := Nat.ge_two_pow_of_testBit (x := i) (i := k)
  rw [xor_two_pow, xor_two_pow i, testBit_register hlane, pow_add, Nat.mul_comm (2 ^ w) (2 ^ k)]
  split
  · next hbit =>
      have hle := Nat.mul_le_mul_right (2 ^ w) (hge hbit)
      rw [Nat.sub_mul]
      omega
  · rw [Nat.add_mul]
    omega

/-- The lane `2 ^ k` away is in the same warp. -/
theorem warp_xor {t : Nat} (hk : k < 5) :
    t / kWarpSize * kWarpSize + (t % kWarpSize ^^^ 2 ^ k) = t ^^^ 2 ^ k := by
  have hlane : t % 2 ^ 5 < 2 ^ 5 := Nat.mod_lt _ (by decide)
  show t / 2 ^ 5 * 2 ^ 5 + (t % 2 ^ 5 ^^^ 2 ^ k) = t ^^^ 2 ^ k
  rw [← xor_lane hk hlane, Nat.div_add_mod']

theorem xor_div (hk : k < w) (t : Nat) : (t ^^^ 2 ^ k) / 2 ^ w = t / 2 ^ w := by
  have hpow : 2 ^ k / 2 ^ w = 0 := Nat.div_eq_of_lt (Nat.pow_lt_pow_right (by decide) hk)
  rw [Nat.xor_div_two_pow, hpow, Nat.xor_zero]

theorem xor_mod (hk : k < w) (t : Nat) : (t ^^^ 2 ^ k) % 2 ^ w = t % 2 ^ w ^^^ 2 ^ k := by
  have hpow : 2 ^ k % 2 ^ w = 2 ^ k := Nat.mod_eq_of_lt (Nat.pow_lt_pow_right (by decide) hk)
  rw [Nat.xor_mod_two_pow, hpow]

end Positions

namespace FwhtOps

variable {C F : Type} (ops : FwhtOps C F)

/-! ### Registers -/

/-- The value of a butterfly in single precision. -/
def registerValue (k : Nat) (v : Nat → F) (i : Nat) : F :=
  ops.toF32 (ops.rn
    (if i.testBit k then ops.sub (v (i ^^^ 2 ^ k)) (v i) else ops.add (v i) (v (i ^^^ 2 ^ k))))

/-- The lower of the two positions of a butterfly. -/
def lowerOf (k i : Nat) : Nat := if i.testBit k then i ^^^ 2 ^ k else i

section Lower

variable {k p i : Nat}

theorem xor_xor_two_pow (i k : Nat) : i ^^^ 2 ^ k ^^^ 2 ^ k = i := by
  rw [Nat.xor_assoc, Nat.xor_self, Nat.xor_zero]

theorem testBit_lowerOf : (lowerOf k i).testBit k = false := by
  cases hbit : i.testBit k <;> simp [lowerOf, hbit]

theorem lowerOf_of_low (hp : p.testBit k = false) : lowerOf k p = p := by simp [lowerOf, hp]

theorem lowerOf_xor : lowerOf k (i ^^^ 2 ^ k) = lowerOf k i := by
  cases hbit : i.testBit k <;> simp [lowerOf, hbit]

theorem lowerOf_cases : i = lowerOf k i ∨ i = lowerOf k i ^^^ 2 ^ k := by
  cases hbit : i.testBit k <;> simp [lowerOf, hbit]

theorem low_add (hp : p.testBit k = false) : p + 2 ^ k = p ^^^ 2 ^ k := by
  rw [xor_two_pow, hp, if_neg Bool.false_ne_true]

theorem low_ne (p k : Nat) : p ^^^ 2 ^ k ≠ p := by
  intro h
  have := Hadamard.testBit_xor_self p k
  rw [h] at this
  cases hp : p.testBit k <;> simp [hp] at this

end Lower

section Pairs

variable {k p i : Nat} {v : Nat → F}

theorem fwhtPair_self (h : lowerOf k i = p) :
    ops.fwhtPair (2 ^ k) v p i = ops.registerValue k v i := by
  have hp : p.testBit k = false := h ▸ testBit_lowerOf
  simp only [fwhtPair, low_add hp]
  rcases lowerOf_cases (k := k) (i := i) with hi | hi
  · rw [h] at hi
    subst hi
    rw [Function.update_of_ne (low_ne i k).symm, Function.update_self, registerValue, hp,
      if_neg Bool.false_ne_true]
  · rw [h] at hi
    subst hi
    rw [Function.update_self, registerValue, Hadamard.testBit_xor_self, hp, xor_xor_two_pow]
    rfl

theorem fwhtPair_other (hp : p.testBit k = false) (h : lowerOf k i ≠ p) :
    ops.fwhtPair (2 ^ k) v p i = v i := by
  have hlow : i ≠ p := fun hi => h (by rw [hi, lowerOf_of_low hp])
  have hhigh : i ≠ p ^^^ 2 ^ k := fun hi => h (by rw [hi, lowerOf_xor, lowerOf_of_low hp])
  simp only [fwhtPair, low_add hp]
  rw [Function.update_of_ne hhigh, Function.update_of_ne hlow]

theorem registerValue_congr {v v' : Nat → F} (h : v i = v' i)
    (hx : v (i ^^^ 2 ^ k) = v' (i ^^^ 2 ^ k)) :
    ops.registerValue k v i = ops.registerValue k v' i := by
  rw [registerValue, registerValue, h, hx]

/-- The pairs of the loop do not meet: each of them reads what was there before the loop. -/
theorem foldl_fwhtPair {ps : List Nat} (hlow : ∀ p ∈ ps, p.testBit k = false) (hnd : ps.Nodup) :
    ps.foldl (ops.fwhtPair (2 ^ k)) v i =
      if lowerOf k i ∈ ps then ops.registerValue k v i else v i := by
  induction ps generalizing v with
  | nil => simp
  | cons p ps ih =>
      obtain ⟨hp, hlow⟩ := List.forall_mem_cons.mp hlow
      obtain ⟨hnotin, hnd⟩ := List.nodup_cons.mp hnd
      rw [List.foldl_cons, ih hlow hnd]
      by_cases hi : lowerOf k i = p
      · rw [hi, if_neg hnotin, if_pos List.mem_cons_self, fwhtPair_self ops hi]
      · have hi' : lowerOf k (i ^^^ 2 ^ k) ≠ p := by rwa [lowerOf_xor]
        have hself := fwhtPair_other ops (v := v) hp hi
        rw [registerValue_congr ops hself (fwhtPair_other ops hp hi'), hself]
        simp only [List.mem_cons, hi, false_or]

end Pairs

section RegisterPairs

variable {k q : Nat}

theorem ceilDiv_pow (hk : k < q) : ceilDiv (2 ^ q) (2 * 2 ^ k) = 2 ^ q / (2 * 2 ^ k) := by
  have hpos : 0 < 2 * 2 ^ k := Nat.mul_pos (by decide) (Nat.two_pow_pos k)
  have hlt : 2 * 2 ^ k - 1 < 2 * 2 ^ k := Nat.sub_lt hpos Nat.one_pos
  have hdiv := groups_eq hk
  rw [Nat.mul_assoc, Nat.mul_comm] at hdiv
  conv_lhs => rw [← hdiv]
  rw [ceilDiv, Nat.add_sub_assoc hpos, Nat.mul_add_div hpos, Nat.div_eq_of_lt hlt, Nat.add_zero]

theorem mem_registerPairs (hk : k < q) {p : Nat} :
    p ∈ registerPairs (2 ^ q) (2 ^ k) ↔ p < 2 ^ q ∧ p.testBit k = false := by
  rw [registerPairs, ceilDiv_pow hk]
  simp only [List.mem_flatMap, List.mem_map, List.mem_range]
  constructor
  · rintro ⟨g, hg, x, hx, rfl⟩
    have hpos : g * (2 * 2 ^ k) + x = (g * 2 + 0) * 2 ^ k + x := by ring
    rw [hpos, ← groups_eq hk]
    exact ⟨position_lt (position_lt hg (by decide)) hx, (half_position hx).1⟩
  · rintro ⟨hp, hbit⟩
    have hhalf : p / 2 ^ k % 2 = 0 := by
      rw [Nat.testBit_eq_decide_div_mod_eq] at hbit
      have := of_decide_eq_false hbit
      omega
    have hpos : 0 < 2 * 2 ^ k := Nat.mul_pos (by decide) (Nat.two_pow_pos k)
    refine ⟨p / (2 * 2 ^ k), ?_, p % 2 ^ k, Nat.mod_lt _ (Nat.two_pow_pos k), ?_⟩
    · rw [Nat.div_lt_iff_lt_mul hpos, ← Nat.mul_assoc, groups_eq hk]
      exact hp
    · have hdiv := Nat.div_add_mod' (p / 2 ^ k) 2
      rw [hhalf, Nat.add_zero, Nat.div_div_eq_div_mul, Nat.mul_comm (2 ^ k)] at hdiv
      rw [← Nat.mul_assoc, hdiv, Nat.div_add_mod']

theorem registerPairs_nodup (values : Nat) (k : Nat) : (registerPairs values (2 ^ k)).Nodup := by
  refine List.nodup_flatMap.mpr ⟨fun g _ => ?_, ?_⟩
  · exact List.nodup_range.map fun x y h => Nat.add_left_cancel h
  · refine List.nodup_range.imp fun hne => ?_
    intro p hp hp'
    obtain ⟨x, hx, rfl⟩ := List.mem_map.mp hp
    obtain ⟨y, hy, heq⟩ := List.mem_map.mp hp'
    have hx := List.mem_range.mp hx
    have hy := List.mem_range.mp hy
    exact hne (position_inj (by omega) (by omega) heq).1.symm

/-- A stage between the registers of a thread. -/
theorem fwhtRegisters_apply (hk : k < q) (v : Nat → F) {i : Nat} (hi : i < 2 ^ q) :
    ops.fwhtRegisters (2 ^ q) v (2 ^ k) i = ops.registerValue k v i := by
  have hlow : ∀ p ∈ registerPairs (2 ^ q) (2 ^ k), p.testBit k = false := fun p hp =>
    ((mem_registerPairs hk).mp hp).2
  rw [fwhtRegisters, foldl_fwhtPair ops hlow (registerPairs_nodup _ k), if_pos]
  refine (mem_registerPairs hk).mpr ⟨?_, testBit_lowerOf⟩
  rw [lowerOf]
  split
  · exact Hadamard.xor_lt hi hk
  · exact hi

end RegisterPairs

/-! ### The register and shuffle kernel -/

section Fused

variable {w n k : Nat}

/-- A stage of shuffles is a butterfly of every active row; lanes of other rows take part
without being read by them. -/
theorem fwhtShuffle_apply (hw : w ≤ 5) (hk : k < w) {p : Nat → Prop} {x : Nat → Nat → C}
    {v : Nat → Nat → F}
    (h : ∀ t i, p (t / 2 ^ w) → v t i = ops.toF32 (x (t / 2 ^ w) (i * 2 ^ w + t % 2 ^ w)))
    (t i : Nat) (ht : p (t / 2 ^ w)) :
    ops.fwhtShuffle (2 ^ w) v (2 ^ k) t i = ops.toF32
      (butterfly ops.addCells ops.subCells k (x (t / 2 ^ w)) (i * 2 ^ w + t % 2 ^ w)) := by
  have hlane : t % 2 ^ w < 2 ^ w := Nat.mod_lt _ (Nat.two_pow_pos w)
  have hother := h (t ^^^ 2 ^ k) i (by rwa [xor_div hk])
  rw [xor_div hk, xor_mod hk] at hother
  rw [butterfly, testBit_lane hk hlane, xor_lane hk hlane]
  simp only [fwhtShuffle, shflXor, warp_xor (Nat.lt_of_lt_of_le hk hw), hother, h t i ht, ne_eq,
    and_two_pow_eq_zero, Bool.not_eq_false]
  split <;> rfl

theorem shuffles_spec (hw : w ≤ 5) {p : Nat → Prop} {x : Nat → Nat → C}
    {v : Nat → Nat → F}
    (h : ∀ t i, p (t / 2 ^ w) → v t i = ops.toF32 (x (t / 2 ^ w) (i * 2 ^ w + t % 2 ^ w))) :
    ∀ t i, p (t / 2 ^ w) →
      (Arith.steps (2 ^ w)).foldl (ops.fwhtShuffle (2 ^ w)) v t i =
        ops.toF32 (ops.transformed w x (t / 2 ^ w) (i * 2 ^ w + t % 2 ^ w)) :=
  foldl_steps (fun k (v : Nat → Nat → F) => ∀ t i, p (t / 2 ^ w) →
    v t i = ops.toF32 (ops.transformed k x (t / 2 ^ w) (i * 2 ^ w + t % 2 ^ w))) h
    fun _ hk _ hv => fwhtShuffle_apply ops hw hk hv

theorem registers_spec {q lane : Nat} (hlane : lane < 2 ^ w) {x : Nat → C} {v : Nat → F}
    (h : ∀ i < 2 ^ q, v i =
      ops.toF32 (transform ops.addCells ops.subCells w x (i * 2 ^ w + lane))) :
    ∀ i < 2 ^ q, (Arith.steps (2 ^ q)).foldl (ops.fwhtRegisters (2 ^ q)) v i =
      ops.toF32 (transform ops.addCells ops.subCells (w + q) x (i * 2 ^ w + lane)) := by
  refine foldl_steps (fun k (v : Nat → F) => ∀ i < 2 ^ q, v i =
    ops.toF32 (transform ops.addCells ops.subCells (w + k) x (i * 2 ^ w + lane))) h ?_
  intro k hk v hv i hi
  show _ = ops.toF32 (butterfly _ _ (w + k) _ _)
  rw [fwhtRegisters_apply ops hk v hi, registerValue, hv i hi, hv _ (Hadamard.xor_lt hi hk),
    butterfly, testBit_register hlane, xor_register hlane]
  split <;> rfl

theorem width_eq (n : Nat) : (if 2 ^ n < kWarpSize then 2 ^ n else kWarpSize) = 2 ^ min n 5 := by
  have hwarp : kWarpSize = 2 ^ 5 := rfl
  rw [hwarp]
  split
  · next hlt =>
      have := (Nat.pow_lt_pow_iff_right (by decide)).mp hlt
      rw [Nat.min_eq_left (by omega)]
  · next hge =>
      have := (Nat.pow_le_pow_iff_right (by decide)).mp (Nat.not_lt.mp hge)
      rw [Nat.min_eq_right this]

theorem values_eq (n : Nat) : 2 ^ n / 2 ^ min n 5 = 2 ^ (n - min n 5) :=
  Nat.pow_div (Nat.min_le_left n 5) (by decide)

/-- The registers of a thread of an active row hold the transform of the row. -/
theorem fwhtBlock_apply {m : Nat → C} {src rows block t i : Nat} (hi : i < 2 ^ (n - min n 5))
    (ht : block * (kThreads / 2 ^ min n 5) + t / 2 ^ min n 5 < rows) :
    ops.fwhtBlock (2 ^ n) src rows block m t i = ops.toF32
      (ops.transformed n (fun r j => m (src + (r * 2 ^ n + j)))
        (block * (kThreads / 2 ^ min n 5) + t / 2 ^ min n 5)
        (i * 2 ^ min n 5 + t % 2 ^ min n 5)) := by
  simp only [fwhtBlock, width_eq, values_eq]
  have hlane : t % 2 ^ min n 5 < 2 ^ min n 5 := Nat.mod_lt _ (Nat.two_pow_pos _)
  have hsum : min n 5 + (n - min n 5) = n := Nat.add_sub_cancel' (Nat.min_le_left n 5)
  have hw : min n 5 ≤ 5 := Nat.min_le_right n 5
  generalize min n 5 = w at *
  generalize n - w = q at *
  let x := fun g j => m (src + ((block * (kThreads / 2 ^ w) + g) * 2 ^ n + j))
  refine (registers_spec ops hlane (x := x (t / 2 ^ w)) ?_ i hi).trans ?_
  · intro i _
    refine shuffles_spec ops hw (p := fun g => block * (kThreads / 2 ^ w) + g < rows) (x := x)
      ?_ t i ht
    intro t i ht
    simp only [if_pos ht, x, Nat.add_assoc]
  · rw [hsum]
    rfl

/-- The writes of the kernel. -/
theorem mem_fusedWrites {dst rows blocks size width values : Nat} {v : Nat × Nat → Nat → C}
    {w : Nat × C} :
    w ∈ ((threads blocks).flatMap fun x =>
        if x.1 * (kThreads / width) + x.2 / width < rows then
          (List.range values).map fun i =>
            (dst + (x.1 * (kThreads / width) + x.2 / width) * size + i * width + x.2 % width, v x i)
        else []) ↔
      ∃ block < blocks, ∃ t < kThreads, block * (kThreads / width) + t / width < rows ∧
        ∃ i < values, w =
          (dst + ((block * (kThreads / width) + t / width) * size + (i * width + t % width)),
            v (block, t) i) := by
  rw [List.mem_flatMap]
  constructor
  · rintro ⟨⟨block, t⟩, hbt, hx⟩
    obtain ⟨hblock, ht⟩ := mem_threads.mp hbt
    dsimp only at hx
    split at hx
    · next hrow =>
        obtain ⟨i, hi, rfl⟩ := List.mem_map.mp hx
        refine ⟨block, hblock, t, ht, hrow, i, List.mem_range.mp hi, ?_⟩
        simp only [Nat.add_assoc]
    · exact absurd hx List.not_mem_nil
  · rintro ⟨block, hblock, t, ht, hrow, i, hi, rfl⟩
    refine ⟨(block, t), mem_threads.mpr ⟨hblock, ht⟩, ?_⟩
    dsimp only
    rw [if_pos hrow]
    refine List.mem_map.mpr ⟨i, List.mem_range.mpr hi, ?_⟩
    simp only [Nat.add_assoc]

theorem position_of_lane {i t : Nat} (hi : i < 2 ^ (n - min n 5)) :
    i * 2 ^ min n 5 + t % 2 ^ min n 5 < 2 ^ n := by
  have hlt := position_lt hi (Nat.mod_lt t (Nat.two_pow_pos (min n 5)))
  rwa [← pow_add, Nat.sub_add_cancel (Nat.min_le_left n 5)] at hlt

/-- **The fused kernel** leaves the scaled transform of every row. -/
theorem launchFwhtFused_rows (m : Nat → C) (input output rows n : Nat) :
    Rows (ops.launchFwhtFused input output (2 ^ n) rows m) output rows (2 ^ n) fun r j =>
      ops.scaleCell (2 ^ n)
        (ops.transformed n (fun r j => m (input + (r * 2 ^ n + j))) r j) := by
  intro r hr j hj
  have hthreads : kThreads / 2 ^ min n 5 * 2 ^ min n 5 = kThreads :=
    Nat.div_mul_cancel (pow_dvd_pow 2 (Nat.le_trans (Nat.min_le_right n 5) (by decide : 5 ≤ 8)))
  have hgroups : 0 < kThreads / 2 ^ min n 5 :=
    Nat.pos_of_ne_zero fun h => by
      rw [h, Nat.zero_mul] at hthreads
      exact absurd hthreads (by decide)
  have hblocks : (if 2 ^ n < 32 then 2 ^ n else 32) = 2 ^ min n 5 := width_eq n
  rw [launchFwhtFused, hblocks]
  simp only [fwhtFusedKernel, width_eq, values_eq]
  refine runKernel_apply ?_ (.inl ?_)
  · intro w hw ha
    obtain ⟨block, -, t, -, hrow, i, hi, rfl⟩ := mem_fusedWrites.mp hw
    obtain ⟨rfl, rfl⟩ := position_inj (position_of_lane hi) hj (Nat.add_left_cancel ha)
    dsimp only
    rw [fwhtBlock_apply ops hi hrow]
    rfl
  · have hlane : j % 2 ^ min n 5 < 2 ^ min n 5 := Nat.mod_lt _ (Nat.two_pow_pos _)
    -- the thread of the row and lane
    let block := r / (kThreads / 2 ^ min n 5)
    let t := r % (kThreads / 2 ^ min n 5) * 2 ^ min n 5 + j % 2 ^ min n 5
    have ht : t < kThreads := by
      have := position_lt (Nat.mod_lt r hgroups) hlane
      rwa [hthreads] at this
    have hrow : block * (kThreads / 2 ^ min n 5) + t / 2 ^ min n 5 = r := by
      rw [position_div hlane, Nat.div_add_mod']
    have hreg : j / 2 ^ min n 5 < 2 ^ (n - min n 5) := by
      rw [← values_eq]
      exact Nat.div_lt_div_of_lt_of_dvd (pow_dvd_pow 2 (Nat.min_le_left n 5)) hj
    refine ⟨_, mem_fusedWrites.mpr ⟨block, div_lt_ceilDiv hgroups hr, t, ht, by rwa [hrow],
      j / 2 ^ min n 5, hreg, rfl⟩, ?_⟩
    dsimp only
    rw [hrow, position_mod hlane, Nat.div_add_mod']

/-- Threads of rows beyond the last one write nothing. -/
theorem launchFwhtFused_frame (m : Nat → C) (input output rows n : Nat) {a : Nat}
    (ha : a < output ∨ output + rows * 2 ^ n ≤ a) :
    ops.launchFwhtFused input output (2 ^ n) rows m a = m a := by
  have hblocks : (if 2 ^ n < 32 then 2 ^ n else 32) = 2 ^ min n 5 := width_eq n
  rw [launchFwhtFused, hblocks]
  simp only [fwhtFusedKernel, width_eq, values_eq]
  refine runKernel_frame fun w hw hwa => ?_
  obtain ⟨block, -, t, -, hrow, i, hi, rfl⟩ := mem_fusedWrites.mp hw
  have hlt := position_lt hrow (position_of_lane (t := t) hi)
  dsimp only at hwa
  omega

end Fused

end FwhtOps

/-! ### The rows of `Arith` -/

namespace Arith

variable (ar : Arith)

/-- The operations on BF16 cells. -/
def fwhtOps : FwhtOps Cell ar.F where
  toF32 := ar.toF32
  rn := ar.rn
  add := ar.add
  sub := ar.sub
  mul := ar.mul
  zero := ar.ofNat 0
  invSqrt := ar.invSqrt

/-- A shuffle, or a stage between registers, of a row spread over lanes and registers. -/
theorem fwhtShuffle_eq {w k : Nat} (hk : k < w) {x : Nat → Cell} {v : Nat → Nat → ar.F}
    (h : ∀ i, ∀ lane < 2 ^ w, v i lane = ar.toF32 (x (i * 2 ^ w + lane))) (i : Nat) {lane : Nat}
    (hlane : lane < 2 ^ w) :
    ar.fwhtShuffle v (2 ^ k) i lane = ar.toF32
      (butterfly ar.fwhtOps.addCells ar.fwhtOps.subCells k x (i * 2 ^ w + lane)) := by
  rw [butterfly, testBit_lane hk hlane, xor_lane hk hlane]
  simp only [fwhtShuffle, h i lane hlane, h i _ (Hadamard.xor_lt hlane hk), ne_eq,
    and_two_pow_eq_zero, Bool.not_eq_false]
  split <;> rfl

theorem fwhtRegisters_eq {w k : Nat} {x : Nat → Cell} {v : Nat → Nat → ar.F}
    (h : ∀ i, ∀ lane < 2 ^ w, v i lane = ar.toF32 (x (i * 2 ^ w + lane))) (i : Nat) {lane : Nat}
    (hlane : lane < 2 ^ w) :
    ar.fwhtRegisters v (2 ^ k) i lane = ar.toF32
      (butterfly ar.fwhtOps.addCells ar.fwhtOps.subCells (w + k) x (i * 2 ^ w + lane)) := by
  have hxor := xor_two_pow i k
  rw [butterfly, testBit_register hlane, xor_register hlane]
  simp only [fwhtRegisters, h _ lane hlane]
  cases hbit : i.testBit k
  · have hlow : i / 2 ^ k % 2 = 0 := by
      rw [Nat.testBit_eq_decide_div_mod_eq] at hbit
      have := of_decide_eq_false hbit
      omega
    rw [hbit, if_neg Bool.false_ne_true] at hxor
    rw [if_pos hlow, hxor]
    rfl
  · have hhigh : i / 2 ^ k % 2 = 1 := by
      rw [Nat.testBit_eq_decide_div_mod_eq] at hbit
      exact of_decide_eq_true hbit
    rw [hbit, if_pos rfl] at hxor
    rw [if_neg (by omega), hxor]
    rfl

/-- `fwhtFused` on a row is its scaled transform, as in the kernels. -/
theorem fwhtFused_eq (n : Nat) (src : Nat → Cell) {j : Nat} :
    ar.fwhtFused (2 ^ n) src j = ar.fwhtOps.scaleCell (2 ^ n)
      (transform ar.fwhtOps.addCells ar.fwhtOps.subCells n src j) := by
  have hwidth : min (2 ^ n) 32 = 2 ^ min n 5 := by
    rw [← FwhtOps.width_eq n, Nat.min_def]
    split <;> split <;> simp only [kWarpSize] at * <;> omega
  have hsum : min n 5 + (n - min n 5) = n := Nat.add_sub_cancel' (Nat.min_le_left n 5)
  have hlane : j % 2 ^ min n 5 < 2 ^ min n 5 := Nat.mod_lt _ (Nat.two_pow_pos _)
  simp only [fwhtFused, hwidth, FwhtOps.values_eq]
  generalize min n 5 = w at *
  let t := fun k => transform ar.fwhtOps.addCells ar.fwhtOps.subCells k src
  let holds := fun k (v : Nat → Nat → ar.F) =>
    ∀ i, ∀ lane < 2 ^ w, v i lane = ar.toF32 (t k (i * 2 ^ w + lane))
  let loaded := fun i lane => ar.toF32 (src (i * 2 ^ w + lane))
  have hshuffled : holds w ((steps (2 ^ w)).foldl ar.fwhtShuffle loaded) :=
    foldl_steps holds (fun _ _ _ => rfl) fun k hk v hv i lane hl => ar.fwhtShuffle_eq hk hv i hl
  have hregisters := foldl_steps (n := n - w) (fun k => holds (w + k)) hshuffled
    fun k hk v hv i lane hl => ar.fwhtRegisters_eq hv i hl
  rw [hregisters _ _ hlane, hsum, Nat.div_add_mod']
  rfl

end Arith

/-! ### Agreement -/

/-- The buffers of a transform: the output meets neither the input nor the scratch. -/
structure FwhtBuffers (count : Nat) where
  input : Nat
  output : Nat
  scratch : Nat
  apart_input : FwhtOps.Apart input output count
  apart_scratch : FwhtOps.Apart scratch output count

namespace FwhtOps

/-- `launch_fwht` takes one of its two paths for every power of two. -/
theorem launchFwht_pow {C F : Type} (ops : FwhtOps C F) (input output scratch n rows : Nat)
    (m : Nat → C) :
    ops.launchFwht input output scratch (2 ^ n) rows m = .ok
      (if rows = 0 then m
       else if n ≤ 10 then ops.launchFwhtFused input output (2 ^ n) rows m
       else ops.launchFwhtStaged input output scratch (2 ^ n) rows m) := by
  have hpos : 0 < 2 ^ n := Nat.two_pow_pos n
  have hmask : 2 ^ n &&& (2 ^ n - 1) = 0 := by
    rw [Nat.and_two_pow_sub_one_eq_mod, Nat.mod_self]
  have hsizes : 2 ^ n ∈ fusedSizes ↔ n ≤ 10 := by
    have hmap : fusedSizes = (List.range 11).map (2 ^ ·) := by decide
    rw [hmap, List.mem_map]
    constructor
    · rintro ⟨k, hk, heq⟩
      have := Nat.pow_right_injective (Nat.le_refl 2) heq
      have := List.mem_range.mp hk
      omega
    · exact fun h => ⟨n, List.mem_range.mpr (by omega), rfl⟩
  rw [launchFwht, if_neg (by omega)]
  split
  · rfl
  · simp only [hsizes]
    split <;> rfl

/-! ### Exact arithmetic -/

section Exact

variable {R : Type} [CommRing R]

/-- The operations of a ring, without rounding, and a scale. -/
def exact (scale : R) : FwhtOps R R where
  toF32 := id
  rn := id
  add := (· + ·)
  sub := (· - ·)
  mul := (· * ·)
  zero := 0
  invSqrt _ := scale

/-- The transform there and back multiplies by its size and by the scale twice. -/
theorem hadamardTransform_back (scale : R) {n rows : Nat} (b : FwhtBuffers (rows * 2 ^ n))
    (m : Nat → R) {i : Nat} (hi : i < rows * 2 ^ n) :
    (exact scale).hadamardTransform b.output b.input (2 ^ n) rows
        ((exact scale).hadamardTransform b.input b.output (2 ^ n) rows m) (b.input + i) =
      scale * scale * 2 ^ n * m (b.input + i) := by
  have hthere := hadamardTransform_rows (exact scale) b.apart_input (rows_self m b.input rows _)
  have hback := (hadamardTransform_rows (exact scale) b.apart_input.symm hthere).at hi
  have hscale : ∀ f : Nat → R, transform (· + ·) (· - ·) n (fun j => f j * scale) =
      fun j => scale * transform (· + ·) (· - ·) n f j := by
    intro f
    have := Hadamard.exact_smul n scale f
    simpa only [Hadamard.exact, mul_comm] using this
  have htwice := Hadamard.exact_exact n (fun j => m (b.input + (i / 2 ^ n * 2 ^ n + j)))
    (i % 2 ^ n)
  rw [Nat.div_add_mod'] at htwice
  simp only [Hadamard.exact] at htwice
  rw [hback]
  show transform (· + ·) (· - ·) n (fun j => transform (· + ·) (· - ·) n
    (fun j => m (b.input + (i / 2 ^ n * 2 ^ n + j))) j * scale) (i % 2 ^ n) * scale = _
  rw [hscale]
  dsimp only
  rw [htwice]
  ring

/-- Signs, transform, transform and signs again give the elements back. -/
theorem inverseHadamard_hadamardForward {scale : R} {n rows numHeads : Nat}
    {signs : Nat → Nat → R} (hscale : scale * scale * 2 ^ n = 1)
    (hsigns : ∀ h d, signs h d * signs h d = 1) (b : FwhtBuffers (rows * 2 ^ n)) (m : Nat → R)
    {i : Nat} (hi : i < rows * 2 ^ n) :
    (exact scale).inverseHadamard b.output b.input (2 ^ n) rows numHeads signs
        ((exact scale).hadamardForward b.input b.output (2 ^ n) rows numHeads signs m)
        (b.input + i) = m (b.input + i) := by
  have hsign := hsigns (i / 2 ^ n % numHeads) (i % 2 ^ n)
  rw [inverseHadamard, mulSigns, runKernel_range hi, hadamardForward,
    hadamardTransform_back scale b _ hi, mulSigns, runKernel_range hi]
  show scale * scale * 2 ^ n * (m (b.input + i) * signs _ _) * signs _ _ = _
  rw [hscale, one_mul, mul_assoc, hsign, mul_one]

end Exact

end FwhtOps

/-- **The programs of the transform agree.** For every power of two, every number of rows and
every rounding, the staged kernels, the fused kernel and `launch_fwht` leave the output of
the Python loop, and the threads of the last block without a row write nothing. Over a
commutative ring the transform there and back multiplies by the number of positions and the
scale twice; with signs around it and that factor `1` it changes nothing. -/
theorem fwht_programs_agree :
    (∀ {C F : Type} (ops : FwhtOps C F) (n rows : Nat) (b : FwhtBuffers (rows * 2 ^ n))
        (m : Nat → C),
      let python := ops.hadamardTransform b.input b.output (2 ^ n) rows m
      let staged := ops.launchFwhtStaged b.input b.output b.scratch (2 ^ n) rows m
      let fused := ops.launchFwhtFused b.input b.output (2 ^ n) rows m
      (∀ i < rows * 2 ^ n, staged (b.output + i) = python (b.output + i) ∧
        fused (b.output + i) = python (b.output + i)) ∧
      (∀ a, a < b.output ∨ b.output + rows * 2 ^ n ≤ a → fused a = m a) ∧
      ∃ launched, ops.launchFwht b.input b.output b.scratch (2 ^ n) rows m = .ok launched ∧
        ∀ i < rows * 2 ^ n, launched (b.output + i) = python (b.output + i)) ∧
    ∀ {R : Type} [CommRing R] (scale : R) (n rows : Nat) (b : FwhtBuffers (rows * 2 ^ n))
        (m : Nat → R),
      let ops := FwhtOps.exact scale
      ∀ i < rows * 2 ^ n,
        ops.hadamardTransform b.output b.input (2 ^ n) rows
            (ops.hadamardTransform b.input b.output (2 ^ n) rows m) (b.input + i) =
          scale * scale * 2 ^ n * m (b.input + i) ∧
        (scale * scale * 2 ^ n = 1 → ∀ (numHeads : Nat) (signs : Nat → Nat → R),
          (∀ h d, signs h d * signs h d = 1) →
          ops.inverseHadamard b.output b.input (2 ^ n) rows numHeads signs
              (ops.hadamardForward b.input b.output (2 ^ n) rows numHeads signs m)
              (b.input + i) = m (b.input + i)) := by
  refine ⟨?_, ?_⟩
  · intro C F ops n rows b m python staged fused
    have hrows := rows_self m b.input rows (2 ^ n)
    have hpython := ops.hadamardTransform_rows b.apart_input hrows
    have hstaged := ops.launchFwhtStaged_rows b.output b.scratch hrows
    have hfused := ops.launchFwhtFused_rows m b.input b.output rows n
    have hagree : ∀ i < rows * 2 ^ n, staged (b.output + i) = python (b.output + i) ∧
        fused (b.output + i) = python (b.output + i) := by
      intro i hi
      exact ⟨(hstaged.at hi).trans (hpython.at hi).symm, (hfused.at hi).trans (hpython.at hi).symm⟩
    refine ⟨hagree, fun a ha => ops.launchFwhtFused_frame m b.input b.output rows n ha,
      _, ops.launchFwht_pow b.input b.output b.scratch n rows m, ?_⟩
    intro i hi
    have hne : rows ≠ 0 := by
      rintro rfl
      rw [Nat.zero_mul] at hi
      exact Nat.not_lt_zero i hi
    rw [if_neg hne]
    split
    · exact (hagree i hi).2
    · exact (hagree i hi).1
  · intro R _ scale n rows b m ops i hi
    exact ⟨FwhtOps.hadamardTransform_back scale b m hi, fun hscale numHeads signs hsigns =>
      FwhtOps.inverseHadamard_hadamardForward hscale hsigns b m hi⟩

/-- Four positions are scaled by one half. -/
theorem fwht_programs_agree_halves :
    let b : FwhtBuffers (1 * 2 ^ 2) := ⟨0, 4, 0, .inl (by decide), .inl (by decide)⟩
    let ops : FwhtOps ℚ ℚ := .exact (1 / 2)
    let m : Nat → ℚ := fun a => a
    ops.inverseHadamard b.output b.input (2 ^ 2) 1 1 (fun _ _ => -1)
      (ops.hadamardForward b.input b.output (2 ^ 2) 1 1 (fun _ _ => -1) m) (b.input + 3) = 3 := by
  intro b ops m
  refine ((fwht_programs_agree.2 (1 / 2 : ℚ) 2 1 b m 3 (by decide)).2 (by norm_num) 1
    (fun _ _ => -1) (by norm_num)).trans ?_
  show ((0 + 3 : Nat) : ℚ) = 3
  norm_num

end KVServe.Runtime
