import Mathlib.Data.Int.Init
import Mathlib.Tactic.Ring

/-!
# KVServe.Lib.Int32

**Index arithmetic in 32 bits.** A value is an integer from `-2^31` to `2^31 - 1`, and a sum or a
product wraps around. Below `2^31` nothing does.
-/

namespace KVServe

/-- The value of an `int32` expression. -/
def int32 (n : Int) : Int := n.bmod (2 ^ 32)

/-- The expression does not overflow. -/
def Fits (n : Int) : Prop := int32 n = n

theorem fits_iff {n : Int} : Fits n ↔ -2 ^ 31 ≤ n ∧ n < 2 ^ 31 := by
  unfold Fits int32
  constructor
  · intro h
    have hle := @Int.le_bmod n (2 ^ 32) (by decide)
    have hlt := @Int.bmod_lt n (2 ^ 32) (by decide)
    omega
  · rintro ⟨hle, hlt⟩
    exact Int.bmod_eq_of_le_mul_two (by omega) (by omega)

theorem fits_natCast {n : Nat} : Fits n ↔ n < 2 ^ 31 := by
  rw [fits_iff]
  omega

theorem int32_lt (n : Int) : int32 n < 2 ^ 31 := by
  have hlt := @Int.bmod_lt n (2 ^ 32) (by decide)
  rw [int32]
  omega

/-- `a + b`. -/
def add32 (a b : Int) : Int := int32 (a + b)

/-- `a * b`. -/
def mul32 (a b : Int) : Int := int32 (a * b)

theorem add32_natCast {a b : Nat} (h : a + b < 2 ^ 31) : add32 a b = ((a + b : Nat) : Int) := by
  rw [add32, ← Int.natCast_add]
  exact fits_natCast.mpr h

theorem mul32_natCast {a b : Nat} (h : a * b < 2 ^ 31) : mul32 a b = ((a * b : Nat) : Int) := by
  rw [mul32, ← Int.natCast_mul]
  exact fits_natCast.mpr h

/-- A digit below others: `a * n + b`. -/
theorem add32_mul32_natCast {a b n : Nat} (h : a * n + b < 2 ^ 31) :
    add32 (mul32 a n) b = ((a * n + b : Nat) : Int) := by
  rw [mul32_natCast ((Nat.le_add_right _ _).trans_lt h), add32_natCast h]

end KVServe
