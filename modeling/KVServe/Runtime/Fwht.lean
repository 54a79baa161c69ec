import KVServe.Lib.Hadamard
import KVServe.Runtime.Numerics

/-!
# KVServe.Runtime.Fwht

The three programs of the normalised Walsh–Hadamard transform, on buffers of rows: the
register and shuffle kernel and the staged kernels of `launch_fwht`, and the loop of
`_hadamard_transform`. **They leave the same output**, whatever the rounding between two
steps, since each of them runs the butterflies of a row in the same order.
-/

namespace KVServe.Runtime

open Hadamard (butterfly transform xor_two_pow)

/-! ### Kernels -/

/-- `kThreads` -/
def kThreads : Nat := 256

/-- `kWarpSize` -/
def kWarpSize : Nat := 32

def ceilDiv (a b : Nat) : Nat := (a + b - 1) / b

/-- The threads of a launch: block and thread index. -/
def threads (blocks : Nat) : List (Nat × Nat) :=
  (List.range blocks).flatMap fun block => (List.range kThreads).map (block, ·)

/-- The writes of a kernel. No thread reads an element that another one writes, so that all
of them are computed from the memory at the launch. -/
def runKernel {C : Type} (writes : List (Nat × C)) (m : Nat → C) : Nat → C :=
  writes.foldl (fun m w => Function.update m w.1 w.2) m

/-- The operations of the transform on BF16 elements `C` and single-precision numbers `F`. -/
structure FwhtOps (C F : Type) where
  toF32 : C → F
  rn : F → C
  add : F → F → F
  sub : F → F → F
  mul : F → F → F
  zero : F
  /-- `1.0f / sqrt(n)` -/
  invSqrt : Nat → F

/-- Memory and the two buffers between which the stages go. -/
structure FwhtState (C : Type) where
  mem : Nat → C
  src : Nat
  dst : Nat

namespace FwhtOps

variable {C F : Type} (ops : FwhtOps C F)

/-- `torch.add` of two elements. -/
def addCells (a b : C) : C := ops.rn (ops.add (ops.toF32 a) (ops.toF32 b))

/-- `torch.sub` of two elements. -/
def subCells (a b : C) : C := ops.rn (ops.sub (ops.toF32 a) (ops.toF32 b))

/-- `rn(to_f32(x) * scale)` -/
def scaleCell (headSize : Nat) (x : C) : C := ops.rn (ops.mul (ops.toF32 x) (ops.invSqrt headSize))

/-! ### The staged kernels -/

/-- `fwht_stage_kernel`. -/
def fwhtStageKernel (src dst headSize order total : Nat) (m : Nat → C) : Nat → C :=
  runKernel ((threads (ceilDiv total kThreads)).filterMap fun (block, thread) =>
    let idx := block * kThreads + thread
    if idx ≥ total then none
    else
      let row := idx / headSize
      let j := idx % headSize
      -- `j & ~(2 * order - 1)`
      let group := j - (j &&& (2 * order - 1))
      let offset := j &&& (order - 1)
      let a := ops.toF32 (m (src + row * headSize + group + offset))
      let b := ops.toF32 (m (src + row * headSize + group + order + offset))
      let value := if j &&& order = 0 then ops.add a b else ops.sub a b
      some (dst + row * headSize + j, ops.rn value)) m

/-- `scale_kernel`: each thread reads what it writes. -/
def scaleKernel (data headSize total : Nat) (m : Nat → C) : Nat → C :=
  runKernel ((threads (ceilDiv total kThreads)).filterMap fun (block, thread) =>
    let idx := block * kThreads + thread
    if idx ≥ total then none else some (data + idx, ops.scaleCell headSize (m (data + idx)))) m

/-- `cudaMemcpyAsync`, `Tensor.copy_`. -/
def copyCells (src dst count : Nat) (m : Nat → C) : Nat → C :=
  runKernel ((List.range count).map fun i => (dst + i, m (src + i))) m

/-- The loop of `launch_fwht` over the stages. -/
def fwhtStages (input output scratch headSize rows : Nat) (m : Nat → C) : FwhtState C :=
  (Arith.steps headSize).foldl (fun s order =>
    { mem := ops.fwhtStageKernel s.src s.dst headSize order (rows * headSize) s.mem
      src := s.dst
      dst := if s.dst = output then scratch else output }) ⟨m, input, output⟩

/-- `launch_fwht` after its `switch`. -/
def launchFwhtStaged (input output scratch headSize rows : Nat) (m : Nat → C) : Nat → C :=
  let count := rows * headSize
  let s := ops.fwhtStages input output scratch headSize rows m
  let m := ops.scaleKernel s.src headSize count s.mem
  if s.src ≠ output then copyCells s.src output count m else m

/-! ### The register and shuffle kernel -/

/-- `__shfl_xor_sync(0xffffffff, v[i], step, width)` for `step < width`: the register of the
lane `step` away in the thread's warp. -/
def shflXor (v : Nat → Nat → F) (step thread i : Nat) : F :=
  v (thread / kWarpSize * kWarpSize + (thread % kWarpSize ^^^ step)) i

/-- The shuffles of one stage, in every thread of a block. -/
def fwhtShuffle (width : Nat) (v : Nat → Nat → F) (step thread i : Nat) : F :=
  let lane := thread % width
  let other := shflXor v step thread i
  ops.toF32 (ops.rn
    (if lane &&& step ≠ 0 then ops.sub other (v thread i) else ops.add (v thread i) other))

/-- The butterfly of registers `p` and `p + step`. -/
def fwhtPair (step : Nat) (v : Nat → F) (p : Nat) : Nat → F :=
  let a := v p
  let b := v (p + step)
  let v := Function.update v p (ops.toF32 (ops.rn (ops.add a b)))
  Function.update v (p + step) (ops.toF32 (ops.rn (ops.sub a b)))

/-- The pairs of `for (base = 0; base < values; base += 2 * step)`,
`for (j = 0; j < step; ++j)`. -/
def registerPairs (values step : Nat) : List Nat :=
  (List.range (ceilDiv values (2 * step))).flatMap fun g =>
    (List.range step).map (g * (2 * step) + ·)

/-- One stage of butterflies between the registers of a thread. -/
def fwhtRegisters (values : Nat) (v : Nat → F) (step : Nat) : Nat → F :=
  (registerPairs values step).foldl (ops.fwhtPair step) v

/-- The registers of the threads of a block, after its last butterfly. -/
def fwhtBlock (size src rows block : Nat) (m : Nat → C) (thread : Nat) : Nat → F :=
  let width := if size < kWarpSize then size else kWarpSize
  let values := size / width
  let loaded := fun thread i =>
    let lane := thread % width
    let row := block * (kThreads / width) + thread / width
    if row < rows then ops.toF32 (m (src + row * size + i * width + lane)) else ops.zero
  let shuffled := (Arith.steps width).foldl (ops.fwhtShuffle width) loaded
  (Arith.steps values).foldl (ops.fwhtRegisters values) (shuffled thread)

/-- `fwht_fused_kernel<D>`. -/
def fwhtFusedKernel (size src dst rows blocks : Nat) (m : Nat → C) : Nat → C :=
  let width := if size < kWarpSize then size else kWarpSize
  let values := size / width
  runKernel ((threads blocks).flatMap fun (block, thread) =>
    let lane := thread % width
    let row := block * (kThreads / width) + thread / width
    let v := ops.fwhtBlock size src rows block m thread
    if row < rows then
      (List.range values).map fun i =>
        (dst + row * size + i * width + lane, ops.rn (ops.mul (v i) (ops.invSqrt size)))
    else []) m

/-- The sizes of `launch_fwht`'s `switch`. -/
def fusedSizes : List Nat := [1, 2, 4, 8, 16, 32, 64, 128, 256, 512, 1024]

/-- A case of the `switch`. -/
def launchFwhtFused (input output headSize rows : Nat) (m : Nat → C) : Nat → C :=
  ops.fwhtFusedKernel headSize input output rows
    (ceilDiv rows (kThreads / (if headSize < 32 then headSize else 32))) m

/-- `launch_fwht`. -/
def launchFwht (input output scratch headSize rows : Nat) (m : Nat → C) :
    Except String (Nat → C) :=
  if headSize < 1 ∨ headSize &&& (headSize - 1) ≠ 0 then
    .error "FWHT requires a power-of-two head size"
  else if rows = 0 then .ok m
  else if headSize ∈ fusedSizes then .ok (ops.launchFwhtFused input output headSize rows m)
  else .ok (ops.launchFwhtStaged input output scratch headSize rows m)

/-! ### The Python loop -/

/-- `torch.add(even, odd, out=dst_pairs[:, :, half, :])`, or `torch.sub`, for
`src_pairs = src.view(-1, block_size // (2 * step), 2, step)`. -/
def pairs (f : C → C → C) (src dst half blockSize step rows : Nat) (m : Nat → C) : Nat → C :=
  let groups := blockSize / (2 * step)
  let pos := fun r g h x => ((r * groups + g) * 2 + h) * step + x
  runKernel ((List.range rows).flatMap fun r => (List.range groups).flatMap fun g =>
    (List.range step).map fun x =>
      (dst + pos r g half x, f (m (src + pos r g 0 x)) (m (src + pos r g 1 x)))) m

/-- The loop of `_hadamard_transform` over the stages. -/
def hadamardStages (inputs outputs blockSize rows : Nat) (m : Nat → C) : FwhtState C :=
  (Arith.steps blockSize).foldl (fun s step =>
    let m := pairs ops.addCells s.src s.dst 0 blockSize step rows s.mem
    let m := pairs ops.subCells s.src s.dst 1 blockSize step rows m
    ⟨m, s.dst, s.src⟩) ⟨m, inputs, outputs⟩

/-- `_hadamard_transform` on buffers of `rows` rows, without the CUDA backend. -/
def hadamardTransform (inputs outputs blockSize rows : Nat) (m : Nat → C) : Nat → C :=
  let count := rows * blockSize
  let s := ops.hadamardStages inputs outputs blockSize rows m
  let m := if s.src ≠ outputs then copyCells s.src outputs count s.mem else s.mem
  runKernel ((List.range count).map fun i =>
    (outputs + i, ops.scaleCell blockSize (m (outputs + i)))) m

/-! ### Signs -/

/-- `canonical.mul_(signs)`, for rows `[.., num_heads, head_size]`. -/
def mulSigns (base headSize rows numHeads : Nat) (signs : Nat → Nat → C) (m : Nat → C) :
    Nat → C :=
  runKernel ((List.range (rows * headSize)).map fun i =>
    let sign := signs (i / headSize % numHeads) (i % headSize)
    (base + i, ops.rn (ops.mul (ops.toF32 (m (base + i))) (ops.toF32 sign)))) m

/-- `_hadamard_forward`, from `canonical_b` to `canonical_a`. -/
def hadamardForward (canonicalB canonicalA headSize rows numHeads : Nat)
    (signs : Nat → Nat → C) (m : Nat → C) : Nat → C :=
  ops.hadamardTransform canonicalB canonicalA headSize rows
    (ops.mulSigns canonicalB headSize rows numHeads signs m)

/-- The transform of `_inverse_hadamard_scatter`, from `canonical_a` to `canonical_b`. -/
def inverseHadamard (canonicalA canonicalB headSize rows numHeads : Nat)
    (signs : Nat → Nat → C) (m : Nat → C) : Nat → C :=
  ops.mulSigns canonicalB headSize rows numHeads signs
    (ops.hadamardTransform canonicalA canonicalB headSize rows m)

end FwhtOps

end KVServe.Runtime
