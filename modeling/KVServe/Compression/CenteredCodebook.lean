import KVServe.Lib.Int32
import KVServe.Lib.Stores
import Mathlib.Algebra.Order.Field.Basic
import Mathlib.Data.Nat.Log
import Mathlib.Tactic.IntervalCases

/-!
# KVServe.Compression.CenteredCodebook

`CenteredCodebookQuantizer` with its two kernels, over an ordered field. The rounding to the
dtypes of the metadata, the square root and the tables are parameters. A symbol is found by a tree
of nested selects; **it counts the thresholds below the value**. The indices of the kernels are
`int32` expressions, the sizes are constants.
-/

namespace KVServe.Compression.CenteredCodebook

/-! ### The search -/

section Search

variable {α : Type} [Preorder α] [DecidableLT α]

/-- `_bin2`. -/
def bin2 (x : α) (bounds : Nat → α) (BASE : Nat) : Nat :=
  BASE + if bounds BASE < x then 1 else 0

/-- `_bin4`. -/
def bin4 (x : α) (bounds : Nat → α) (BASE : Nat) : Nat :=
  if bounds (BASE + 1) < x then bin2 x bounds (BASE + 2) else bin2 x bounds BASE

/-- `_bin8`. -/
def bin8 (x : α) (bounds : Nat → α) (BASE : Nat) : Nat :=
  if bounds (BASE + 3) < x then bin4 x bounds (BASE + 4) else bin4 x bounds BASE

/-- `_bucketize`. -/
def bucketize (x : α) (bounds : Nat → α) (BITS : Nat) : Nat :=
  if BITS = 1 then bin2 x bounds 0
  else if BITS = 2 then bin4 x bounds 0
  else if BITS = 3 then bin8 x bounds 0
  else if bounds 7 < x then bin8 x bounds 8 else bin8 x bounds 0

variable {x : α} {bounds : Nat → α} {base k n : Nat}

/-- The thresholds `base, …, base + n - 1` that are below the value. -/
def below (x : α) (bounds : Nat → α) (base n : Nat) : Nat :=
  (List.range n).countP fun i => bounds (base + i) < x

/-- A table of `n` thresholds that ascends. -/
def Ascending (bounds : Nat → α) (n : Nat) : Prop := ∀ i j, i ≤ j → j < n → bounds i ≤ bounds j

theorem below_add (m : Nat) :
    below x bounds base (n + m) = below x bounds base n + below x bounds (base + n) m := by
  rw [below, List.range_add, List.countP_append, List.countP_map]
  congr 1
  refine List.countP_congr fun i _ => ?_
  simp [Nat.add_assoc]

/-- The middle one of `2k + 1` thresholds decides in which half the count goes on. -/
theorem below_select (h : Ascending bounds (base + (k + 1 + k))) :
    below x bounds base (k + 1 + k) =
      if bounds (base + k) < x then k + 1 + below x bounds (base + (k + 1)) k
      else below x bounds base k := by
  split
  · next hlt =>
      have hall : below x bounds base (k + 1) = k + 1 := by
        rw [below, List.countP_eq_length.mpr, List.length_range]
        intro i hi
        have hi := List.mem_range.mp hi
        exact decide_eq_true ((h (base + i) (base + k) (by omega) (by omega)).trans_lt hlt)
      rw [below_add, hall]
  · next hnot =>
      have hnone : below x bounds (base + k) (1 + k) = 0 := by
        rw [below, List.countP_eq_zero]
        intro i hi hlt
        have hi := List.mem_range.mp hi
        exact hnot ((h (base + k) (base + k + i) (by omega) (by omega)).trans_lt
          (of_decide_eq_true hlt))
      rw [Nat.add_assoc, below_add, hnone, Nat.add_zero]

theorem bin2_eq : bin2 x bounds base = base + below x bounds base 1 := by
  simp [bin2, below, List.range_succ]

theorem bin4_eq (h : Ascending bounds (base + 3)) :
    bin4 x bounds base = base + below x bounds base 3 := by
  have hselect : below x bounds base 3 = if bounds (base + 1) < x then
      2 + below x bounds (base + 2) 1 else below x bounds base 1 := @below_select _ _ _ x bounds base 1 h
  rw [bin4, bin2_eq, bin2_eq, hselect]
  split <;> omega

theorem bin8_eq (h : Ascending bounds (base + 7)) :
    bin8 x bounds base = base + below x bounds base 7 := by
  have hselect : below x bounds base 7 = if bounds (base + 3) < x then
      4 + below x bounds (base + 4) 3 else below x bounds base 3 := @below_select _ _ _ x bounds base 3 h
  have hlow : Ascending bounds (base + 3) := fun i j hij hj => h i j hij (by omega)
  rw [bin8, bin4_eq h, bin4_eq hlow, hselect]
  split <;> omega

/-- **The search** counts the thresholds below the value. -/
theorem bucketize_eq {bits : Nat} (hbits : 1 ≤ bits ∧ bits ≤ 4)
    (h : Ascending bounds (2 ^ bits - 1)) :
    bucketize x bounds bits = (List.range (2 ^ bits - 1)).countP fun i => bounds i < x := by
  have hcount : ∀ n, ((List.range n).countP fun i => bounds i < x) = below x bounds 0 n := by
    intro n
    simp [below]
  rw [hcount]
  obtain ⟨hlower, hupper⟩ := hbits
  interval_cases bits
  · simp [bucketize, bin2_eq]
  · simp [bucketize, bin4_eq h]
  · simp [bucketize, bin8_eq h]
  · have hselect := @below_select _ _ _ x bounds 0 7 h
    have hlow : Ascending bounds (0 + 7) := fun i j hij hj => h i j hij (by omega)
    have hhigh : Ascending bounds (8 + 7) := h
    show (if bounds 7 < x then bin8 x bounds 8 else bin8 x bounds 0) = below x bounds 0 (7 + 1 + 7)
    rw [bin8_eq hhigh, bin8_eq hlow, hselect]
    simp

theorem bucketize_lt {bits : Nat} (hbits : 1 ≤ bits ∧ bits ≤ 4)
    (h : Ascending bounds (2 ^ bits - 1)) : bucketize x bounds bits < 2 ^ bits := by
  have hle := List.countP_le_length (p := fun i => bounds i < x) (l := List.range (2 ^ bits - 1))
  rw [List.length_range] at hle
  rw [bucketize_eq hbits h]
  have hpos := Nat.two_pow_pos bits
  omega

end Search

/-! ### Errors -/

/-- What `_settings` raises, and what `_dequantize` asserts. -/
inductive CodebookError
  | bits
  | groupSize
  | scaleRefinements
  | scaleAlpha
  | meanDtype
  | auxiliary
  | invalidSymbol
  deriving DecidableEq, Repr

/-! ### Kernels -/

section Kernels

variable {F : Type} [Field F] [LinearOrder F]

/-- What is rounded in the kernels, and the square root. -/
structure Rounding (F : Type) where
  /-- `.to(M.dtype.element_ty).to(tl.float32)`. -/
  mean : F → F
  /-- `.to(S.dtype.element_ty).to(tl.float32)`. -/
  scale : F → F
  sqrt : F → F
  /-- `1.0e-20`. -/
  tiny : F

/-- The arguments the two kernels are launched with. -/
structure Launch (F : Type) where
  rounding : Rounding F
  C : Nat → F
  B : Nat → F
  T : Nat
  H : Nat
  D : Nat
  NG : Nat
  GROUP : Nat
  BITS : Nat
  CHANNEL : Bool
  STEPS : Nat
  ALPHA : F
  BT : Nat
  BD : Nat

namespace Launch

variable (l : Launch F)

/-- The symbol of a residual. -/
def bin (scale residual : F) : Nat := bucketize (residual / max scale l.rounding.tiny) l.B l.BITS

/-- A pass of the loop over `STEPS`. -/
def refine (residual : List (F × Bool)) (scale : F) : F :=
  let centers := residual.map fun e => if e.2 then l.C (l.bin scale e.1) else 0
  l.rounding.scale (max ((List.zipWith (· * ·) (residual.map Prod.fst) centers).sum /
    max (centers.map fun c => c * c).sum l.rounding.tiny) 0)

/-- The residual of an element. -/
def residual (mean : F) (e : F × Bool) : F := if e.2 then e.1 - mean else 0

/-- The mean and the scale of the elements that are reduced together, with the masked ones. -/
def stats (elements : List (F × Bool)) (count : Int) : F × F :=
  let mean := l.rounding.mean ((elements.map Prod.fst).sum / count)
  let residual := elements.map fun e => (residual mean e, e.2)
  let scale := l.rounding.sqrt ((residual.map fun e => e.1 * e.1).sum / count) * l.ALPHA
  (mean, Nat.iterate (l.refine residual) l.STEPS (l.rounding.scale scale))

/-- A lane of `tl.program_id(axis) * BLOCK + tl.arange(0, BLOCK)`. -/
def index (program BLOCK lane : Nat) : Int := add32 (mul32 program BLOCK) lane

/-- `(t * H + head) * D + d`. -/
def offset (t head d : Int) : Int := add32 (mul32 (add32 (mul32 t l.H) head) l.D) d

/-- A masked load of the tile. -/
def element (X : Int → F) (head t d : Int) : F × Bool :=
  if t < l.T ∧ d < l.D then (X (l.offset t head d), true) else (0, false)

/-- The reduction over the tokens of a tile. -/
def keyStats (X : Int → F) (program : Nat) (head d : Int) : F × F :=
  l.stats ((List.range l.BT).map fun lane => l.element X head (index program l.BT lane) d)
    (min l.BT (l.T - mul32 program l.BT))

/-- The reduction over the dimensions of a tile. -/
def valueStats (X : Int → F) (program : Nat) (head t : Int) : F × F :=
  l.stats ((List.range l.BD).map fun lane => l.element X head t (index program l.BD lane)) l.D

/-- What an element of the tile is reduced to. -/
def tileStats (X : Int → F) (program : Nat × Nat × Nat) (t d : Int) : F × F :=
  if l.CHANNEL then l.keyStats X program.1 program.2.1 d
  else l.valueStats X program.2.2 program.2.1 t

/-- The stores of `_quantize` to `Q`. -/
def symbolStores (X : Int → F) (program : Nat × Nat × Nat) : List (Int × Nat) :=
  (List.range l.BT).flatMap fun i => (List.range l.BD).flatMap fun j =>
    let t := index program.1 l.BT i
    let d := index program.2.2 l.BD j
    if t < l.T ∧ d < l.D then
      let stats := l.tileStats X program t d
      [(l.offset t program.2.1 d, l.bin stats.2 (residual stats.1 (l.element X program.2.1 t d)))]
    else []

/-- Its stores to `M` and `S`, which have one index. -/
def metaStores (X : Int → F) (program : Nat × Nat × Nat) : List (Int × (F × F)) :=
  if l.CHANNEL then
    (List.range l.BD).flatMap fun j =>
      let d := index program.2.2 l.BD j
      if d < l.D then
        [(add32 (mul32 (add32 (mul32 program.2.1 l.NG) program.1) l.D) d, l.tileStats X program 0 d)]
      else []
  else
    (List.range l.BT).flatMap fun i =>
      let t := index program.1 l.BT i
      if t < l.T then [(add32 (mul32 program.2.1 l.T) t, l.tileStats X program t 0)] else []

/-- `triton.cdiv`. -/
def cdiv (n d : Nat) : Nat := (n + d - 1) / d

/-- The grid of `_quantize`. -/
def programs : List (Nat × Nat × Nat) :=
  (List.range (cdiv l.T l.BT)).flatMap fun p => (List.range l.H).flatMap fun head =>
    (List.range (cdiv l.D l.BD)).map fun q => (p, head, q)

/-- `_quantize`, over what `Q`, `M` and `S` held before. -/
def quantize (X : Int → F) (Q : Int → Nat) (M : Int → F × F) : (Int → Nat) × (Int → F × F) :=
  (stored Q (l.programs.flatMap (l.symbolStores X)), stored M (l.programs.flatMap (l.metaStores X)))

/-- The metadata index of a lane of `_dequantize`. Quotients are rounded towards zero. -/
def metaIndex (i : Int) : Int :=
  let d := i.tmod l.D
  let head := (i.tdiv l.D).tmod l.H
  let token := i.tdiv (l.H * l.D : Nat)
  if l.CHANNEL then add32 (mul32 (add32 (mul32 head l.NG) (token.tdiv l.GROUP)) l.D) d
  else add32 (mul32 head l.T) token

/-- `N` of `_dequantize`. -/
def N : Nat := l.T * l.H * l.D

/-- The lanes of `_dequantize`. -/
def lanes : List Int :=
  (List.range (cdiv l.N 1024)).flatMap fun program =>
    (List.range 1024).map fun lane => index program 1024 lane

/-- The store of a lane of `_dequantize`. -/
def dequantizeLane (Q : Int → Nat) (M : Int → F × F) (i : Int) :
    Except CodebookError (List (Int × F)) :=
  if i < l.N then
    if Q i < 2 ^ l.BITS then .ok [(i, l.C (Q i) * (M (l.metaIndex i)).2 + (M (l.metaIndex i)).1)]
    else .error .invalidSymbol
  else .ok []

/-- `_dequantize`, over what the output held before. -/
def dequantize (Q : Int → Nat) (M : Int → F × F) (X : Int → F) : Except CodebookError (Int → F) :=
  (l.lanes.mapM (l.dequantizeLane Q M)).map fun stores => stored X stores.flatten

end Launch

end Kernels

/-! ### The quantizer -/

section Quantizer

variable {F : Type} [Field F] [LinearOrder F]

/-- The settings, with their defaults. -/
structure Settings (F : Type) where
  keyBits : Int := 3
  valueBits : Int := 3
  groupSize : Int := 128
  scaleRefinements : Int := 1
  scaleAlpha : F
  meanDtype : String := "float32"

/-- `_settings`. -/
def Settings.check (cfg : Settings F) : Except CodebookError Unit :=
  if ¬ (1 ≤ cfg.keyBits ∧ cfg.keyBits ≤ 4) ∨ ¬ (1 ≤ cfg.valueBits ∧ cfg.valueBits ≤ 4) then
    .error .bits
  else if cfg.groupSize ∉ [16, 32, 64, 128, 256] then .error .groupSize
  else if cfg.scaleRefinements ∉ [0, 1, 2] then .error .scaleRefinements
  else if cfg.scaleAlpha ≤ 0 then .error .scaleAlpha
  else if cfg.meanDtype ≠ "bfloat16" ∧ cfg.meanDtype ≠ "float32" then .error .meanDtype
  else .ok ()

/-- `part`. -/
inductive Part
  | keys
  | values
  deriving DecidableEq, Repr

/-- A tensor `[2, blocks, tokens, heads, dim]`. -/
structure Shape where
  blocks : Nat
  tokens : Nat
  heads : Nat
  dim : Nat

/-- `total`. -/
def Shape.total (shape : Shape) : Nat := shape.blocks * shape.tokens

/-- `triton.next_power_of_2`. -/
def nextPowerOf2 (n : Nat) : Nat := 2 ^ Nat.clog 2 n

/-- The shape of `mean` and `scale`. -/
def metaShape (cfg : Settings F) (shape : Shape) : Part → List Nat
  | .keys => [shape.heads, Launch.cdiv shape.total cfg.groupSize.toNat, shape.dim]
  | .values => [shape.heads, shape.total]

/-- The launches of a part. -/
def launch (rounding : Rounding F) (centers bounds : Nat → Nat → F) (cfg : Settings F)
    (shape : Shape) (part : Part) : Launch F :=
  let bits := match part with
    | .keys => cfg.keyBits.toNat
    | .values => cfg.valueBits.toNat
  { rounding
    C := centers bits
    B := bounds bits
    T := shape.total
    H := shape.heads
    D := shape.dim
    NG := Launch.cdiv shape.total cfg.groupSize.toNat
    GROUP := cfg.groupSize.toNat
    BITS := bits
    CHANNEL := part = .keys
    STEPS := cfg.scaleRefinements.toNat
    ALPHA := cfg.scaleAlpha
    BT := match part with
      | .keys => cfg.groupSize.toNat
      | .values => 16
    BD := match part with
      | .keys => 32
      | .values => nextPowerOf2 shape.dim }

/-- `mean` and `scale` of a part. -/
structure Auxiliary (F : Type) where
  shape : List Nat
  entries : Int → F × F

/-- A pass of the loop of `quantize`: the symbols and the metadata of a part. -/
def quantizePart (l : Launch F) (cfg : Settings F) (shape : Shape) (part : Part) (source : Int → F)
    (emptyQ : Int → Nat) (emptyM : Int → F × F) : (Int → Nat) × Auxiliary F :=
  let (symbols, entries) :=
    if shape.total * shape.heads = 0 then (emptyQ, emptyM) else l.quantize source emptyQ emptyM
  (symbols, ⟨metaShape cfg shape part, entries⟩)

/-- A pass of the loop of `dequantize`. -/
def dequantizePart (l : Launch F) (cfg : Settings F) (shape : Shape) (part : Part)
    (symbols : Int → Nat) (auxiliary : Auxiliary F) (output : Int → F) :
    Except CodebookError (Int → F) :=
  if auxiliary.shape ≠ metaShape cfg shape part then .error .auxiliary
  else if shape.total * shape.heads = 0 then .ok output
  else l.dequantize symbols auxiliary.entries output

end Quantizer

end KVServe.Compression.CenteredCodebook
