import Mathlib.Algebra.Order.Floor.Ring
import Mathlib.Algebra.Order.Field.Basic
import Mathlib.Tactic.Linarith
import Mathlib.Tactic.Ring

/-!
# KVServe.Lib.Quantization

**Min-max quantization over an ordered field.** A number is rounded to the nearest integer,
halves to the even side; numbers between `lo` and `hi` are stored as the multiples of a
scale that are nearest to their distance from `lo`. With `m` multiples of the scale between
`lo` and `hi` no multiple above `m` is used, and what is read back is off by at most half of
the scale.
-/

namespace KVServe

variable {K : Type} [Field K] [LinearOrder K] [IsStrictOrderedRing K] [FloorRing K]

/-! ### Rounding -/

/-- The nearest integer; halves go to the even side. -/
def roundHalfEven (x : K) : Int :=
  let rest := x - ⌊x⌋
  if rest < 1 / 2 ∨ (rest = 1 / 2 ∧ ⌊x⌋ % 2 = 0) then ⌊x⌋ else ⌊x⌋ + 1

theorem abs_roundHalfEven_sub_le (x : K) : |(roundHalfEven x : K) - x| ≤ 1 / 2 := by
  have hlo := Int.floor_le x
  have hhi := Int.lt_floor_add_one x
  rw [abs_le, roundHalfEven]
  split
  · next hdown =>
      have hrest : x - ⌊x⌋ ≤ 1 / 2 := hdown.elim le_of_lt fun h => le_of_eq h.1
      constructor <;> linarith
  · next hup =>
      have hrest : 1 / 2 ≤ x - ⌊x⌋ := not_lt.mp fun h => hup (.inl h)
      push_cast
      constructor <;> linarith

omit [IsStrictOrderedRing K] in
theorem roundHalfEven_nonneg {x : K} (h : 0 ≤ x) : 0 ≤ roundHalfEven x := by
  have hfloor : 0 ≤ ⌊x⌋ := Int.floor_nonneg.mpr h
  simp only [roundHalfEven]
  split <;> omega

/-- A whole number is not passed. -/
theorem roundHalfEven_le {x : K} {n : Nat} (h : x ≤ n) : roundHalfEven x ≤ n := by
  have hfloor : ⌊x⌋ ≤ n := by
    have := Int.floor_le_floor h
    rwa [Int.floor_natCast] at this
  simp only [roundHalfEven]
  split
  · exact hfloor
  · next hhalf =>
      rcases lt_or_eq_of_le hfloor with hlt | heq
      · omega
      · refine absurd (Or.inl ?_) hhalf
        have hcast : (⌊x⌋ : K) = n := by
          rw [heq]
          exact Int.cast_natCast n
        rw [hcast]
        linarith

/-! ### Scales -/

/-- The scale for `m` steps between `lo` and `hi`, for ranges of at least `tiny`. -/
def scaleOf (tiny lo hi : K) (m : Nat) : K := max (hi - lo) tiny / m

section Scale

variable {tiny lo hi x : K} {m n : Nat}

omit [FloorRing K] in
theorem scaleOf_pos (lo hi : K) (htiny : 0 < tiny) (hm : 0 < m) : 0 < scaleOf tiny lo hi m :=
  div_pos (lt_max_of_lt_right htiny) (Nat.cast_pos.mpr hm)

/-- The steps reach the largest value. -/
theorem sub_div_scaleOf_le (lo : K) (htiny : 0 < tiny) (hm : 0 < m) (hx : x ≤ hi) :
    (x - lo) / scaleOf tiny lo hi m ≤ m := by
  rw [div_le_iff₀ (scaleOf_pos lo hi htiny hm), scaleOf,
    mul_div_cancel₀ _ (Nat.cast_ne_zero.mpr (Nat.pos_iff_ne_zero.mp hm))]
  exact (sub_le_sub_right hx lo).trans (le_max_left _ _)

/-- The nearest multiple of the scale, within `0 … n`. -/
def symbolOf (scale lo : K) (n : Nat) (x : K) : Nat :=
  (max 0 (min (roundHalfEven ((x - lo) / scale)) n)).toNat

/-- Nothing is cut off, so the symbol is the rounded quotient. -/
theorem symbolOf_eq (htiny : 0 < tiny) (hm : 0 < m) (hmn : m ≤ n) (hlo : lo ≤ x) (hhi : x ≤ hi) :
    (symbolOf (scaleOf tiny lo hi m) lo n x : Int) =
      roundHalfEven ((x - lo) / scaleOf tiny lo hi m) := by
  have hnonneg := roundHalfEven_nonneg
    (div_nonneg (sub_nonneg.mpr hlo) (scaleOf_pos lo hi htiny hm).le)
  have hle := roundHalfEven_le (sub_div_scaleOf_le lo htiny hm hhi)
  rw [symbolOf]
  omega

theorem symbolOf_le (htiny : 0 < tiny) (hm : 0 < m) (hmn : m ≤ n) (hlo : lo ≤ x) (hhi : x ≤ hi) :
    symbolOf (scaleOf tiny lo hi m) lo n x ≤ m := by
  have heq := symbolOf_eq htiny hm hmn hlo hhi
  have hle := roundHalfEven_le (sub_div_scaleOf_le lo htiny hm hhi)
  omega

/-- **What is read back is off by at most half of the scale.** -/
theorem abs_symbolOf_mul_add_sub_le (htiny : 0 < tiny) (hm : 0 < m) (hmn : m ≤ n) (hlo : lo ≤ x)
    (hhi : x ≤ hi) :
    |symbolOf (scaleOf tiny lo hi m) lo n x * scaleOf tiny lo hi m + lo - x| ≤
      scaleOf tiny lo hi m / 2 := by
  have hscale := scaleOf_pos lo hi htiny hm
  generalize hs : scaleOf tiny lo hi m = s at hscale
  have heq := symbolOf_eq htiny hm hmn hlo hhi
  rw [hs] at heq
  have hcast : (symbolOf s lo n x : K) = roundHalfEven ((x - lo) / s) := by
    rw [← heq]
    exact (Int.cast_natCast _).symm
  have hround := abs_roundHalfEven_sub_le ((x - lo) / s)
  have hx : (x - lo) / s * s = x - lo := div_mul_cancel₀ _ hscale.ne'
  have herror : (roundHalfEven ((x - lo) / s) : K) * s + lo - x =
      ((roundHalfEven ((x - lo) / s) : K) - (x - lo) / s) * s := by
    rw [sub_mul, hx]
    ring
  rw [hcast, herror, abs_mul, abs_of_pos hscale]
  calc |(roundHalfEven ((x - lo) / s) : K) - (x - lo) / s| * s
      ≤ 1 / 2 * s := mul_le_mul_of_nonneg_right hround hscale.le
    _ = s / 2 := by ring

end Scale

end KVServe
