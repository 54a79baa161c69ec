import Mathlib.Data.Nat.Bitwise
import Mathlib.Algebra.Ring.Basic
import Mathlib.Tactic.Ring

/-!
# KVServe.Lib.Hadamard

**The Walsh–Hadamard transform by butterflies.** Butterfly `k` combines every two positions
that differ in bit `k` alone. Of addition and subtraction nothing is assumed, so that they
may round. Over a commutative ring the transform of `2 ^ n` numbers is its own inverse but
for the factor `2 ^ n`.
-/

namespace KVServe.Hadamard

/-! ### Positions -/

theorem xor_one (q : Nat) : q ^^^ 1 = if q % 2 = 1 then q - 1 else q + 1 := by
  have hdiv : (q ^^^ 1) / 2 = q / 2 := by
    simpa using Nat.xor_div_two (a := q) (b := 1)
  have hmod : (q ^^^ 1) % 2 = q % 2 ^^^ 1 := by
    simpa using Nat.xor_mod_two_pow (a := q) (b := 1) (n := 1)
  rcases Nat.mod_two_eq_zero_or_one q with h | h
  · rw [h] at hmod
    have hone : 0 ^^^ 1 = 1 := rfl
    rw [if_neg (by omega)]
    omega
  · rw [h] at hmod
    have hzero : 1 ^^^ 1 = 0 := rfl
    rw [if_pos h]
    omega

/-- Turning a bit over is a step of its weight down or up. -/
theorem xor_two_pow (j k : Nat) :
    j ^^^ 2 ^ k = if j.testBit k then j - 2 ^ k else j + 2 ^ k := by
  have hpos : 0 < 2 ^ k := Nat.two_pow_pos k
  have hdiv : (j ^^^ 2 ^ k) / 2 ^ k = j / 2 ^ k ^^^ 1 := by
    rw [Nat.xor_div_two_pow, Nat.div_self hpos]
  have hmod : (j ^^^ 2 ^ k) % 2 ^ k = j % 2 ^ k := by
    rw [Nat.xor_mod_two_pow, Nat.mod_self, Nat.xor_zero]
  have hsplit := Nat.div_add_mod (j ^^^ 2 ^ k) (2 ^ k)
  have hj := Nat.div_add_mod j (2 ^ k)
  rw [hdiv, hmod, xor_one] at hsplit
  rw [Nat.testBit_eq_decide_div_mod_eq, ← hsplit]
  generalize 2 ^ k = w at hj ⊢
  generalize j / w = q at hj ⊢
  by_cases h : q % 2 = 1
  · have hw : w ≤ w * q := Nat.le_mul_of_pos_right _ (by omega)
    rw [if_pos h, if_pos (by simpa using h), Nat.mul_sub_one]
    omega
  · rw [if_neg h, if_neg (by simpa using h), Nat.mul_add_one]
    omega

theorem testBit_xor_self (j k : Nat) : (j ^^^ 2 ^ k).testBit k = !j.testBit k := by
  simp [Nat.testBit_xor, Nat.testBit_two_pow_self]

theorem testBit_xor_of_ne (j : Nat) {k l : Nat} (h : l ≠ k) :
    (j ^^^ 2 ^ l).testBit k = j.testBit k := by
  simp [Nat.testBit_xor, Nat.testBit_two_pow_of_ne h]

theorem xor_lt {j k n : Nat} (hj : j < 2 ^ n) (hk : k < n) : j ^^^ 2 ^ k < 2 ^ n :=
  Nat.xor_lt_two_pow hj (Nat.pow_lt_pow_right (by decide) hk)

/-! ### Butterflies -/

section Operations

variable {α : Type} (add sub : α → α → α)

/-- The butterfly of the positions that differ in bit `k`: their sum goes to the lower one,
their difference to the upper one. -/
def butterfly (k : Nat) (v : Nat → α) (j : Nat) : α :=
  if j.testBit k then sub (v (j ^^^ 2 ^ k)) (v j) else add (v j) (v (j ^^^ 2 ^ k))

/-- Butterflies `0` to `n - 1`. -/
def transform : Nat → (Nat → α) → Nat → α
  | 0, v => v
  | n + 1, v => butterfly add sub n (transform n v)

/-- Only the values at positions below `2 ^ n` count. -/
theorem butterfly_congr {k n : Nat} (hk : k < n) {v w : Nat → α}
    (h : ∀ j, j < 2 ^ n → v j = w j) {j : Nat} (hj : j < 2 ^ n) :
    butterfly add sub k v j = butterfly add sub k w j := by
  rw [butterfly, butterfly, h j hj, h _ (xor_lt hj hk)]

theorem transform_congr {n : Nat} {v w : Nat → α} (h : ∀ j, j < 2 ^ n → v j = w j) {j : Nat}
    (hj : j < 2 ^ n) : transform add sub n v j = transform add sub n w j := by
  have hstages : ∀ k ≤ n, ∀ j, j < 2 ^ n → transform add sub k v j = transform add sub k w j := by
    intro k hk
    induction k with
    | zero => exact h
    | succ k ih => exact fun j hj => butterfly_congr add sub hk (ih (Nat.le_of_lt hk)) hj
  exact hstages n (Nat.le_refl n) j hj

end Operations

/-! ### The transform over a ring -/

section Exact

variable {R : Type} [CommRing R]

/-- The transform over a ring. -/
def exact (n : Nat) (v : Nat → R) : Nat → R := transform (· + ·) (· - ·) n v

theorem butterfly_butterfly (k : Nat) (v : Nat → R) (j : Nat) :
    butterfly (· + ·) (· - ·) k (butterfly (· + ·) (· - ·) k v) j = 2 * v j := by
  have hback : j ^^^ 2 ^ k ^^^ 2 ^ k = j := by
    rw [Nat.xor_assoc, Nat.xor_self, Nat.xor_zero]
  cases h : j.testBit k <;> simp [butterfly, h, hback] <;> ring

theorem butterfly_comm {k l : Nat} (hne : k ≠ l) (v : Nat → R) (j : Nat) :
    butterfly (· + ·) (· - ·) k (butterfly (· + ·) (· - ·) l v) j =
      butterfly (· + ·) (· - ·) l (butterfly (· + ·) (· - ·) k v) j := by
  have hswap : j ^^^ 2 ^ k ^^^ 2 ^ l = j ^^^ 2 ^ l ^^^ 2 ^ k := Nat.xor_right_comm ..
  cases hk : j.testBit k <;> cases hl : j.testBit l <;>
    simp [butterfly, testBit_xor_of_ne j hne, testBit_xor_of_ne j hne.symm, hk, hl, hswap] <;>
    ring

theorem butterfly_smul (k : Nat) (c : R) (v : Nat → R) (j : Nat) :
    butterfly (· + ·) (· - ·) k (fun i => c * v i) j =
      c * butterfly (· + ·) (· - ·) k v j := by
  rw [butterfly, butterfly]
  split <;> ring

theorem exact_smul (n : Nat) (c : R) (v : Nat → R) :
    exact n (fun i => c * v i) = fun j => c * exact n v j := by
  induction n with
  | zero => rfl
  | succ n ih =>
      funext j
      show butterfly _ _ n (exact n fun i => c * v i) j = _
      rw [ih, butterfly_smul]
      rfl

/-- A later butterfly passes through the transform. -/
theorem exact_butterfly {n k : Nat} (hk : n ≤ k) (v : Nat → R) :
    exact n (butterfly (· + ·) (· - ·) k v) = butterfly (· + ·) (· - ·) k (exact n v) := by
  induction n with
  | zero => rfl
  | succ n ih =>
      funext j
      show butterfly _ _ n (exact n (butterfly _ _ k v)) j = _
      rw [ih (by omega), butterfly_comm (by omega)]
      rfl

/-- **The transform is its own inverse** but for the number of positions. -/
theorem exact_exact (n : Nat) (v : Nat → R) (j : Nat) : exact n (exact n v) j = 2 ^ n * v j := by
  induction n generalizing j with
  | zero => simp [exact, transform]
  | succ n ih =>
      calc exact (n + 1) (exact (n + 1) v) j
          = butterfly (· + ·) (· - ·) n (exact n (butterfly (· + ·) (· - ·) n (exact n v))) j :=
            rfl
        _ = butterfly (· + ·) (· - ·) n
              (butterfly (· + ·) (· - ·) n (exact n (exact n v))) j := by
            rw [exact_butterfly (Nat.le_refl n)]
        _ = 2 * exact n (exact n v) j := butterfly_butterfly ..
        _ = 2 ^ (n + 1) * v j := by
            rw [ih, pow_succ]
            ring

end Exact

end KVServe.Hadamard
