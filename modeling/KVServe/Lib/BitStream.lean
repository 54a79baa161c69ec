import Mathlib.Data.Nat.Bitwise
import Mathlib.Data.List.Range
import Mathlib.Tactic.Ring

/-!
# KVServe.Lib.BitStream

**Streams of `w`-bit symbols**, least significant bit first. A window of the stream is gathered
from the symbols it touches, each of them shifted to its place, or cut out of two neighbours by a
shift and a mask.
-/

namespace KVServe.BitStream

variable {w b p s t : Nat} {f : Nat → Nat}

/-- Bit `p` of the stream. -/
def bit (w : Nat) (f : Nat → Nat) (p : Nat) : Bool := (f (p / w)).testBit (p % w)

theorem bit_mul_add (hs : s < w) (i : Nat) : bit w f (i * w + s) = (f i).testBit s := by
  rw [bit, Nat.mul_comm, Nat.mul_add_div (Nat.zero_lt_of_lt hs), Nat.div_eq_of_lt hs,
    Nat.add_zero, Nat.mul_add_mod, Nat.mod_eq_of_lt hs]

/-- A symbol is what its bits say. -/
theorem eq_of_bits {x y : Nat} (hx : x < 2 ^ w) (hy : y < 2 ^ w)
    (h : ∀ s < w, x.testBit s = y.testBit s) : x = y := by
  apply Nat.eq_of_testBit_eq
  intro s
  rcases Nat.lt_or_ge s w with hs | hs
  · exact h s hs
  · have hle : 2 ^ w ≤ 2 ^ s := Nat.pow_le_pow_right Nat.two_pos hs
    rw [Nat.testBit_lt_two_pow (hx.trans_le hle), Nat.testBit_lt_two_pow (hy.trans_le hle)]

theorem testBit_foldl {l : List Nat} {g : Nat → Nat} {a : Nat} :
    (l.foldl (fun acc j => acc ||| g j) a).testBit t = 
      (a.testBit t || l.any fun j => (g j).testBit t) := by
  induction l generalizing a with
  | nil => simp
  | cons j l ih => rw [List.foldl_cons, ih, Nat.testBit_or, List.any_cons, Bool.or_assoc]

/-- **A byte of the stream** that begins inside a symbol is made of that symbol and of those that
begin less than a byte behind it. -/
theorem bit_gather (hf : ∀ i, f i < 2 ^ w) (hb : b < w) (ht : t < 8) (i : Nat) :
    ((f i).testBit (b + t) || (List.range' 1 ((7 + w - 1) / w)).any fun j =>
      decide (j * w - b ≤ t) && (f (i + j)).testBit (t - (j * w - b))) =
      bit w f (i * w + b + t) := by
  have hw : 0 < w := Nat.zero_lt_of_lt hb
  -- the symbol that the bit is in
  have hsplit := Nat.div_add_mod (b + t) w
  have hlt : (b + t) % w < w := Nat.mod_lt _ hw
  have hq : (b + t) / w ≤ (7 + w - 1) / w := Nat.div_le_div_right (by omega)
  have hbit : bit w f (i * w + b + t) = (f (i + (b + t) / w)).testBit ((b + t) % w) := by
    rw [← bit_mul_add hlt]
    congr 1
    rw [Nat.add_mul, Nat.add_assoc, Nat.add_assoc, Nat.mul_comm ((b + t) / w)]
    omega
  rw [hbit]
  generalize (b + t) / w = q at *
  generalize (b + t) % w = r at *
  rw [Nat.mul_comm] at hsplit
  have hbeyond : ∀ k s, w ≤ s → (f k).testBit s = false := fun k s hs =>
    Nat.testBit_lt_two_pow ((hf k).trans_le (Nat.pow_le_pow_right Nat.two_pos hs))
  rcases Nat.eq_zero_or_pos q with rfl | hpos
  · -- it is in the first symbol, and the others begin behind it
    have hany : ((List.range' 1 ((7 + w - 1) / w)).any fun j =>
        decide (j * w - b ≤ t) && (f (i + j)).testBit (t - (j * w - b))) = false := by
      rw [List.any_eq_false]
      intro j hj
      have hj : 1 ≤ j := (List.mem_range'_1.mp hj).1
      have hmul : w ≤ j * w := Nat.le_mul_of_pos_left w hj
      have hnot : ¬ j * w - b ≤ t := by omega
      simp [hnot]
    rw [hany, Bool.or_false, Nat.add_zero]
    congr 1
    omega
  · -- it is behind the first symbol
    have hmul : w ≤ q * w := Nat.le_mul_of_pos_left w hpos
    rw [hbeyond i (b + t) (by omega), Bool.false_or, Bool.eq_iff_iff, List.any_eq_true]
    constructor
    · rintro ⟨j, hj, htest⟩
      simp only [Bool.and_eq_true, decide_eq_true_eq] at htest
      obtain ⟨hle, htest⟩ := htest
      have hlow : ¬ w ≤ t - (j * w - b) := by
        intro hs
        rw [hbeyond _ _ hs] at htest
        cases htest
      have hfirst : w ≤ j * w := Nat.le_mul_of_pos_left w (List.mem_range'_1.mp hj).1
      obtain rfl : j = q := by
        rcases Nat.lt_trichotomy j q with hlt' | rfl | hgt
        · have hstep : (j + 1) * w ≤ q * w := Nat.mul_le_mul_right w hlt'
          rw [Nat.add_one_mul] at hstep
          omega
        · rfl
        · have hstep : (q + 1) * w ≤ j * w := Nat.mul_le_mul_right w hgt
          rw [Nat.add_one_mul] at hstep
          omega
      have hr : t - (j * w - b) = r := by omega
      rwa [hr] at htest
    · intro htest
      have hr : t - (q * w - b) = r := by omega
      refine ⟨q, List.mem_range'_1.mpr ⟨hpos, by omega⟩, ?_⟩
      rw [hr, htest, Bool.and_true, decide_eq_true_eq]
      omega

/-- **A symbol** of at most eight bits lies in the byte it begins in and the next one. -/
theorem testBit_window (hf : ∀ k, f k < 2 ^ 8) (hw : w ≤ 8) (hs : s < w) {i hi : Nat}
    (hhi : 8 ≤ i * w % 8 + s → hi = f (i * w / 8 + 1)) :
    ((f (i * w / 8) ||| hi <<< 8) >>> (i * w % 8)).testBit s = bit 8 f (i * w + s) := by
  have hsplit := Nat.div_add_mod (i * w) 8
  have hoff : i * w % 8 < 8 := Nat.mod_lt _ (by omega)
  rw [Nat.testBit_shiftRight, Nat.testBit_or, Nat.testBit_shiftLeft]
  rcases Nat.lt_or_ge (i * w % 8 + s) 8 with hlt | hge
  · have hnot : ¬ 8 ≤ i * w % 8 + s := by omega
    have hposition : i * w + s = i * w / 8 * 8 + (i * w % 8 + s) := by omega
    rw [hposition, bit_mul_add hlt]
    simp [hnot]
  · have hposition : i * w + s = (i * w / 8 + 1) * 8 + (i * w % 8 + s - 8) := by omega
    have hlow : (f (i * w / 8)).testBit (i * w % 8 + s) = false :=
      Nat.testBit_lt_two_pow ((hf _).trans_le (Nat.pow_le_pow_right Nat.two_pos hge))
    rw [hposition, bit_mul_add (by omega), hlow, hhi hge]
    simp [hge]

end KVServe.BitStream
