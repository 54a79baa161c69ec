import Mathlib

/-!
# KVServe.Lib.Span

**Ranges of a buffer placed one after the other.** A `Span` is a half-open range. A
cursor that is rounded up to an alignment before each range gives a list that is
`Placed`: the ranges are aligned, none meets another, and the cursor never passes the
sum of the rounded sizes. With alignment `1` the ranges tile the buffer.
-/

namespace KVServe

/-! ### Rounding -/

/-- The least multiple of `a` that is at least `n`. -/
def roundUp (n a : Nat) : Nat := (n + a - 1) / a * a

variable {n m a c e : Nat}

theorem dvd_roundUp : a ∣ roundUp n a := Nat.dvd_mul_left _ _

theorem le_roundUp (ha : 0 < a) : n ≤ roundUp n a := by
  have hdiv := Nat.div_add_mod (n + a - 1) a
  have hmod := Nat.mod_lt (n + a - 1) ha
  rw [Nat.mul_comm] at hdiv
  rw [roundUp]
  omega

/-- Rounding up does not pass a multiple. -/
theorem roundUp_le (ha : 0 < a) (hm : a ∣ m) (hle : n ≤ m) : roundUp n a ≤ m := by
  obtain ⟨k, rfl⟩ := hm
  have hk : (n + a - 1) / a ≤ k := by
    refine Nat.le_of_lt_succ (Nat.div_lt_of_lt_mul ?_)
    rw [Nat.mul_succ]
    omega
  rw [roundUp, Nat.mul_comm a k]
  exact Nat.mul_le_mul_right a hk

theorem roundUp_of_dvd (ha : 0 < a) (h : a ∣ n) : roundUp n a = n :=
  Nat.le_antisymm (roundUp_le ha h (Nat.le_refl n)) (le_roundUp ha)

@[simp] theorem roundUp_one : roundUp n 1 = n := roundUp_of_dvd Nat.one_pos (Nat.one_dvd n)

/-- A multiple added before rounding may be added after it. -/
theorem roundUp_add (ha : 0 < a) (h : a ∣ m) : roundUp (m + n) a = m + roundUp n a := by
  refine Nat.le_antisymm ?_ ?_
  · exact roundUp_le ha (Nat.dvd_add h dvd_roundUp) (Nat.add_le_add_left (le_roundUp ha) m)
  · have hle : m ≤ roundUp (m + n) a := Nat.le_trans (Nat.le_add_right m n) (le_roundUp ha)
    have hn : n ≤ roundUp (m + n) a - m := by
      have := le_roundUp (n := m + n) ha
      omega
    have := roundUp_le ha (Nat.dvd_sub dvd_roundUp h) hn
    omega

/-! ### Spans -/

/-- The range `[start, start + size)`. -/
structure Span where
  start : Nat
  size : Nat
  deriving DecidableEq, Repr

namespace Span

/-- The end of a range. -/
def stop (s : Span) : Nat := s.start + s.size

/-- Neither range has a position of the other. -/
def Disjoint (s t : Span) : Prop := s.stop ≤ t.start ∨ t.stop ≤ s.start

/-- The range lies in a buffer of some size. -/
def Within (s : Span) (n : Nat) : Prop := s.stop ≤ n

/-- One range is part of another. -/
def Sub (s t : Span) : Prop := t.start ≤ s.start ∧ s.stop ≤ t.stop

/-- The range in units of which `w` make one. -/
def scale (s : Span) (w : Nat) : Span := ⟨s.start * w, s.size * w⟩

/-- The range `k` further on. -/
def shift (s : Span) (k : Nat) : Span := ⟨s.start + k, s.size⟩

instance (s t : Span) : Decidable (s.Disjoint t) := inferInstanceAs (Decidable (_ ∨ _))

instance (s : Span) (n : Nat) : Decidable (s.Within n) := inferInstanceAs (Decidable (_ ≤ _))

theorem Disjoint.symm {s t : Span} (h : s.Disjoint t) : t.Disjoint s := Or.symm h

theorem Disjoint.mono {s t s' t' : Span} (h : s.Disjoint t) (hs : s'.Sub s) (ht : t'.Sub t) :
    s'.Disjoint t' := by
  obtain ⟨hs₁, hs₂⟩ := hs
  obtain ⟨ht₁, ht₂⟩ := ht
  rcases h with h | h
  · exact .inl (by omega)
  · exact .inr (by omega)

theorem Disjoint.shift {s t : Span} (h : s.Disjoint t) (k : Nat) :
    (s.shift k).Disjoint (t.shift k) := by
  simp only [Disjoint, stop, Span.shift] at h ⊢
  omega

theorem Within.mono {s : Span} (h : s.Within n) (hle : n ≤ m) : s.Within m := Nat.le_trans h hle

theorem Within.of_sub {s t : Span} (h : t.Within n) (hs : s.Sub t) : s.Within n :=
  Nat.le_trans hs.2 h

end Span

/-! ### Placement -/

/-- Ranges taken by a cursor that goes from `c` to `e` and is rounded up to `a` before
each range. -/
inductive Placed (a : Nat) : Nat → List Span → Nat → Prop
  | nil (c : Nat) : Placed a c [] c
  | cons {c n : Nat} {spans : List Span} {e : Nat} :
      Placed a (roundUp c a + n) spans e → Placed a c (⟨roundUp c a, n⟩ :: spans) e

namespace Placed

variable {spans spans' : List Span} {d : Nat}

/-- A range taken without rounding. -/
theorem tile (h : Placed 1 (c + n) spans e) : Placed 1 c (⟨c, n⟩ :: spans) e := by
  have := @cons 1 c n spans e
  rw [roundUp_one] at this
  exact this h

theorem append (h : Placed a c spans d) (h' : Placed a d spans' e) :
    Placed a c (spans ++ spans') e := by
  induction h with
  | nil => exact h'
  | cons _ ih => exact .cons (ih h')

theorem scale (h : Placed 1 c spans e) (w : Nat) :
    Placed 1 (c * w) (spans.map (·.scale w)) (e * w) := by
  induction h with
  | nil => exact .nil _
  | cons _ ih =>
      rw [roundUp_one, Nat.add_mul] at ih
      rw [roundUp_one]
      exact ih.tile

theorem le (ha : 0 < a) (h : Placed a c spans e) : c ≤ e := by
  induction h with
  | nil => exact Nat.le_refl _
  | cons _ ih =>
      exact Nat.le_trans (Nat.le_trans (le_roundUp ha) (Nat.le_add_right _ _)) ih

/-- Every range lies between the two positions of the cursor. -/
theorem bounds (ha : 0 < a) (h : Placed a c spans e) {s : Span} (hs : s ∈ spans) :
    c ≤ s.start ∧ s.stop ≤ e := by
  induction h with
  | nil => exact absurd hs List.not_mem_nil
  | cons htail ih =>
      rcases List.mem_cons.mp hs with rfl | hs
      · exact ⟨le_roundUp ha, htail.le ha⟩
      · have := ih hs
        exact ⟨Nat.le_trans (Nat.le_trans (le_roundUp ha) (Nat.le_add_right _ _)) this.1, this.2⟩

theorem aligned (h : Placed a c spans e) {s : Span} (hs : s ∈ spans) : a ∣ s.start := by
  induction h with
  | nil => exact absurd hs List.not_mem_nil
  | cons _ ih =>
      rcases List.mem_cons.mp hs with rfl | hs
      · exact dvd_roundUp
      · exact ih hs

/-- **No two ranges meet.** -/
theorem pairwise (ha : 0 < a) (h : Placed a c spans e) : spans.Pairwise Span.Disjoint := by
  induction h with
  | nil => exact .nil
  | cons htail ih => exact .cons (fun s hs => .inl (htail.bounds ha hs).1) ih

/-- **The cursor stays below the sum of the rounded sizes.** -/
theorem le_sum (ha : 0 < a) (h : Placed a c spans e) (hc : a ∣ c) :
    e ≤ c + (spans.map fun s => roundUp s.size a).sum := by
  have key : ∀ {c e : Nat} {spans : List Span}, Placed a c spans e →
      roundUp e a ≤ roundUp c a + (spans.map fun s => roundUp s.size a).sum := by
    intro c e spans h
    induction h with
    | nil => simp
    | @cons c n spans e htail ih =>
        rw [roundUp_add ha dvd_roundUp] at ih
        simp only [List.map_cons, List.sum_cons]
        omega
  have := key h
  rw [roundUp_of_dvd ha hc] at this
  exact Nat.le_trans (le_roundUp ha) this

/-- The ranges fit between the cursors. -/
theorem sum_le (ha : 0 < a) (h : Placed a c spans e) : c + (spans.map (·.size)).sum ≤ e := by
  induction h with
  | nil => exact Nat.le_refl _
  | @cons c n spans e _ ih =>
      have hle : c ≤ roundUp c a := le_roundUp ha
      simp only [List.map_cons, List.sum_cons]
      omega

end Placed

/-- Ranges without gaps: exactly one of them has any given position. -/
theorem Placed.existsUnique {c e : Nat} {spans : List Span} (h : Placed 1 c spans e) {x : Nat}
    (hlo : c ≤ x) (hhi : x < e) :
    ∃! i : Fin spans.length, (spans.get i).start ≤ x ∧ x < (spans.get i).stop := by
  induction h with
  | nil => omega
  | @cons c n spans e htail ih =>
      rw [roundUp_one] at htail ih ⊢
      by_cases hx : x < c + n
      · refine ⟨0, ⟨hlo, hx⟩, fun i hi => ?_⟩
        cases i using Fin.cases with
        | zero => rfl
        | succ i =>
            have hmem : spans.get i ∈ spans := List.get_mem _ i
            have hstart := (htail.bounds Nat.one_pos hmem).1
            have hle : (spans.get i).start ≤ x := hi.1
            omega
      · obtain ⟨i, hi, huniq⟩ := ih (Nat.le_of_not_lt hx) hhi
        refine ⟨i.succ, hi, fun j hj => ?_⟩
        cases j using Fin.cases with
        | zero => exact absurd hj.2 hx
        | succ j => exact congrArg Fin.succ (huniq j hj)

end KVServe
