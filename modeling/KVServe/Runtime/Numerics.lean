import KVServe.Lib.Strided
import Mathlib.Data.Nat.Log
import Mathlib.Order.Defs.LinearOrder

/-!
# KVServe.Runtime.Numerics

The arithmetic of the compression stages: BF16 elements, single-precision operations and
the rounding between them, the normalised Walsh–Hadamard transform of `launch_fwht`, and
the scalar steps of the quantizer as both backends write them.

Nothing is assumed of the operations. Of the rounding `rn` it is assumed that it keeps
BF16 values, among which are the integers up to `256` and the integral part of any BF16
value.
-/

namespace KVServe.Runtime

/-- Single-precision arithmetic with BF16 storage, NaN left out. -/
structure Arith where
  F : Type
  order : LinearOrder F
  toF32 : Cell → F
  rn : F → Cell
  add : F → F → F
  sub : F → F → F
  mul : F → F → F
  div : F → F → F
  rint : F → F
  ofNat : Nat → F
  /-- `1e-5f` -/
  tiny : F
  /-- `1.0f / sqrt(n)` -/
  invSqrt : Nat → F
  /-- `static_cast<uint8_t>` -/
  toU8 : F → UInt8
  posInf : F
  negInf : F
  le_posInf : ∀ c, order.le (toF32 c) posInf
  negInf_le : ∀ c, order.le negInf (toF32 c)
  rn_toF32 : ∀ c, rn (toF32 c) = c
  exact_ofNat : ∀ n, n ≤ 256 → ∃ c, toF32 c = ofNat n
  exact_rint : ∀ c, ∃ c', toF32 c' = rint (toF32 c)

attribute [instance] Arith.order

/-- The laws hold of integers of sixteen bits, exact as long as they do not overflow. -/
def Arith.words : Arith where
  F := Int
  order := inferInstance
  toF32 c := (c.1.toNat * 256 + c.2.toNat : Nat) - 32768
  rn i := (UInt8.ofNat ((i + 32768).toNat / 256), UInt8.ofNat ((i + 32768).toNat % 256))
  add := (· + ·)
  sub := (· - ·)
  mul := (· * ·)
  div := (· / ·)
  rint := id
  ofNat n := n
  tiny := 1
  invSqrt _ := 1
  toU8 i := UInt8.ofNat i.toNat
  posInf := 32767
  negInf := -32768
  le_posInf c := by
    have h0 := c.1.toNat_lt
    have h1 := c.2.toNat_lt
    omega
  negInf_le c := by
    have h0 := c.1.toNat_lt
    have h1 := c.2.toNat_lt
    omega
  rn_toF32 c := by
    have h1 := c.2.toNat_lt
    refine Prod.ext ?_ ?_
    · rw [Int.sub_add_cancel, Int.toNat_natCast, Nat.mul_comm, Nat.mul_add_div (by decide),
        Nat.div_eq_of_lt h1, Nat.add_zero, UInt8.ofNat_toNat]
    · rw [Int.sub_add_cancel, Int.toNat_natCast, Nat.mul_comm, Nat.mul_add_mod,
        Nat.mod_eq_of_lt h1, UInt8.ofNat_toNat]
  exact_ofNat n hn := by
    refine ⟨(UInt8.ofNat ((n + 32768) / 256), UInt8.ofNat ((n + 32768) % 256)), ?_⟩
    have h0 : (n + 32768) / 256 < 256 := by omega
    have h1 : (n + 32768) % 256 < 256 := by omega
    rw [UInt8.toNat_ofNat_of_lt' h0, UInt8.toNat_ofNat_of_lt' h1]
    omega
  exact_rint c := ⟨c, rfl⟩

namespace Arith

variable (ar : Arith)

/-! ### Walsh–Hadamard transform -/

/-- The values of `for (step = 1; step < n; step <<= 1)`. -/
def steps (n : Nat) : List Nat := (List.range (Nat.clog 2 n)).map (2 ^ ·)

/-- `fwht_stage_kernel` on one row: `order` is a power of two. -/
def fwhtStage (order : Nat) (src : Nat → Cell) (j : Nat) : Cell :=
  let group := j / (2 * order) * (2 * order)
  let offset := j % order
  let a := ar.toF32 (src (group + offset))
  let b := ar.toF32 (src (group + order + offset))
  ar.rn (if j / order % 2 = 0 then ar.add a b else ar.sub a b)

/-- `scale_kernel`. -/
def fwhtScale (size : Nat) (src : Nat → Cell) (j : Nat) : Cell :=
  ar.rn (ar.mul (ar.toF32 (src j)) (ar.invSqrt size))

/-- The shuffles of `fwht_fused_kernel`: register `i` of each lane with that of the lane
`lane ^ step`. -/
def fwhtShuffle (v : Nat → Nat → ar.F) (step : Nat) (i lane : Nat) : ar.F :=
  let other := v i (lane ^^^ step)
  ar.toF32 (ar.rn (if lane &&& step ≠ 0 then ar.sub other (v i lane) else ar.add (v i lane) other))

/-- The butterflies between the registers of a lane. -/
def fwhtRegisters (v : Nat → Nat → ar.F) (step : Nat) (i lane : Nat) : ar.F :=
  ar.toF32 (ar.rn
    (if i / step % 2 = 0 then ar.add (v i lane) (v (i + step) lane)
     else ar.sub (v (i - step) lane) (v i lane)))

/-- `fwht_fused_kernel<D>` on one row. -/
def fwhtFused (size : Nat) (src : Nat → Cell) (j : Nat) : Cell :=
  let width := min size 32
  let values := size / width
  let loaded := fun i lane => ar.toF32 (src (i * width + lane))
  let shuffled := (steps width).foldl ar.fwhtShuffle loaded
  let v := (steps values).foldl ar.fwhtRegisters shuffled
  ar.rn (ar.mul (v (j / width) (j % width)) (ar.invSqrt size))

/-- The rows of a kernel: every row of `size` elements from `src` on is mapped by `f` and
written to the same row from `dst` on. -/
def mapRows (f : (Nat → Cell) → Nat → Cell) (src dst rows size : Nat) (m : Mem) : Mem :=
  (View.contiguous dst 2 (1, 1, rows, size)).storeCells
    (fun x => f (fun j => m.cell (src + (x.2.2.1 * size + j) * 2)) x.2.2.2) m

/-- `launch_fwht(input, output, scratch = input, size, rows)`, from byte offset `input` to
byte offset `output`. Rows of more than `1024` elements take one stage per kernel, between
the two buffers in turn. -/
def launchFwht (input output rows size : Nat) (m : Mem) : Mem :=
  if size ≤ 1024 then mapRows (ar.fwhtFused size) input output rows size m
  else
    let (m, src, _) := (steps size).foldl (fun (m, src, dst) order =>
      (mapRows (ar.fwhtStage order) src dst rows size m, dst,
        if dst = output then input else output)) (m, input, output)
    let m := mapRows (ar.fwhtScale size) src src rows size m
    if src = output then m else mapRows (fun row => row) src output rows size m

/-! ### Quantizer -/

/-- `torch.amin` of BF16 elements. -/
def amin (cells : List Cell) : Cell := ar.rn (((cells.map ar.toF32).min?).getD ar.posInf)

/-- `torch.amax` of BF16 elements. -/
def amax (cells : List Cell) : Cell := ar.rn (((cells.map ar.toF32).max?).getD ar.negInf)

/-- `inverse_scale.copy_(maximum).sub_(minimum).clamp_(min=1e-5).div_(num_levels - 1)`. -/
def scaleOf (levels : Nat) (maximum minimum : Cell) : Cell :=
  let range := ar.rn (ar.sub (ar.toF32 maximum) (ar.toF32 minimum))
  let clamped := ar.rn (max (ar.toF32 range) ar.tiny)
  ar.rn (ar.div (ar.toF32 clamped) (ar.ofNat (levels - 1)))

/-- `inverse_scale.reciprocal_()`. -/
def reciprocal (scale : Cell) : Cell := ar.rn (ar.div (ar.ofNat 1) (ar.toF32 scale))

/-- `source.sub_(minimum).mul_(inverse_scale).round_().clamp_(0, num_levels - 1)`. -/
def quantized (levels : Nat) (value minimum inverse : Cell) : Cell :=
  let shifted := ar.rn (ar.sub (ar.toF32 value) (ar.toF32 minimum))
  let scaled := ar.rn (ar.mul (ar.toF32 shifted) (ar.toF32 inverse))
  let rounded := ar.rn (ar.rint (ar.toF32 scaled))
  ar.rn (min (max (ar.toF32 rounded) (ar.ofNat 0)) (ar.ofNat (levels - 1)))

/-- `output.copy_(source).mul_(scale).add_(minimum)`. -/
def dequantized (symbol : UInt8) (minimum scale : Cell) : Cell :=
  let value := ar.rn (ar.ofNat symbol.toNat)
  let scaled := ar.rn (ar.mul (ar.toF32 value) (ar.toF32 scale))
  ar.rn (ar.add (ar.toF32 scaled) (ar.toF32 minimum))

end Arith

end KVServe.Runtime
