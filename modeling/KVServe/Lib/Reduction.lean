import Mathlib.Data.Nat.Bitwise
import Mathlib.Data.List.Basic
import Mathlib.Order.MinMax

/-!
# KVServe.Lib.Reduction

**Reductions by meets**, in whatever order and however often an operand is taken. An operation
`op` meets for a relation `le` if what is below `op a b` is what is below both; then the result of
a loop, or of butterflies between lanes, is known by what is below it.

`min` meets for `≤` and `max` for `≥`.
-/

namespace KVServe

variable {α ι : Type} {le : α → α → Prop} {op : α → α → α} {x init : α}

/-- What is below `op a b` is what is below `a` and `b`. -/
def Meets (le : α → α → Prop) (op : α → α → α) : Prop := ∀ x a b, le x (op a b) ↔ le x a ∧ le x b

theorem meets_min [LinearOrder α] : Meets (α := α) (· ≤ ·) min := fun _ _ _ => le_min_iff

theorem meets_max [LinearOrder α] : Meets (α := α) (· ≥ ·) max := fun _ _ _ => max_le_iff

namespace Meets

/-- A loop. -/
theorem foldl (h : Meets le op) {l : List ι} {f : ι → α} :
    le x (l.foldl (fun acc i => op acc (f i)) init) ↔ le x init ∧ ∀ i ∈ l, le x (f i) := by
  induction l generalizing init with
  | nil => simp
  | cons i l ih => rw [List.foldl_cons, ih, h, List.forall_mem_cons, and_assoc]

/-- Two lanes that differ in no bit but those in `ks`. -/
def SameBut (ks : List Nat) (u t : Nat) : Prop := ∀ i, i ∉ ks → u.testBit i = t.testBit i

theorem sameBut_cons {k u t : Nat} {ks : List Nat} :
    SameBut (k :: ks) u t ↔ SameBut ks u t ∨ SameBut ks (u ^^^ 2 ^ k) t := by
  have hflip : ∀ i, i ≠ k → (u ^^^ 2 ^ k).testBit i = u.testBit i := by
    intro i hi
    rw [Nat.testBit_xor, Nat.testBit_two_pow_of_ne (Ne.symm hi), Bool.xor_false]
  constructor
  · intro h
    by_cases hk : u.testBit k = t.testBit k
    · refine Or.inl fun i hi => ?_
      by_cases hik : i = k
      · rw [hik, hk]
      · exact h i fun hmem => (List.mem_cons.mp hmem).elim hik hi
    · refine Or.inr fun i hi => ?_
      by_cases hik : i = k
      · rw [hik, Nat.testBit_xor, Nat.testBit_two_pow_self, Bool.xor_true]
        cases hu : u.testBit k <;> cases ht : t.testBit k <;> simp_all
      · rw [hflip i hik]
        exact h i fun hmem => (List.mem_cons.mp hmem).elim hik hi
  · rintro (h | h) i hi
    · exact h i fun hmem => hi (List.mem_cons_of_mem _ hmem)
    · have hik : i ≠ k := fun heq => hi (heq ▸ List.mem_cons_self)
      rw [← hflip i hik]
      exact h i fun hmem => hi (List.mem_cons_of_mem _ hmem)

/-- The bits from `lo` to `hi` are those between the remainder and the quotient. -/
theorem sameBut_iff {ks : List Nat} {lo hi u t : Nat} (hks : ∀ i, i ∈ ks ↔ lo ≤ i ∧ i < hi) :
    SameBut ks u t ↔ u % 2 ^ lo = t % 2 ^ lo ∧ u / 2 ^ hi = t / 2 ^ hi := by
  constructor
  · intro h
    constructor
    · refine Nat.eq_of_testBit_eq fun i => ?_
      rw [Nat.testBit_mod_two_pow, Nat.testBit_mod_two_pow]
      by_cases hlt : i < lo
      · rw [h i fun hmem => absurd ((hks i).mp hmem).1 (Nat.not_le.mpr hlt)]
      · simp [hlt]
    · refine Nat.eq_of_testBit_eq fun i => ?_
      rw [Nat.testBit_div_two_pow, Nat.testBit_div_two_pow]
      exact h _ fun hmem => absurd ((hks _).mp hmem).2 (Nat.not_lt.mpr (Nat.le_add_left hi i))
  · rintro ⟨hmod, hdiv⟩ i hi'
    by_cases hlt : i < lo
    · have hbit := congrArg (Nat.testBit · i) hmod
      simpa [Nat.testBit_mod_two_pow, hlt] using hbit
    · have hge : hi ≤ i := Nat.le_of_not_lt fun h => hi' ((hks i).mpr ⟨Nat.le_of_not_lt hlt, h⟩)
      have hbit := congrArg (Nat.testBit · (i - hi)) hdiv
      simpa [Nat.testBit_div_two_pow, Nat.sub_add_cancel hge] using hbit

/-- **Butterflies** between lanes `t` and `t ^ 2 ^ k`, one bit after the other: the lanes that
differ in these bits are met. -/
theorem butterflies (h : Meets le op) {ks : List Nat} {v : Nat → α} {t : Nat} :
    le x ((ks.map (2 ^ ·)).foldl (fun v offset t => op (v t) (v (t ^^^ offset))) v t) ↔
      ∀ u, SameBut ks u t → le x (v u) := by
  induction ks generalizing v with
  | nil =>
      refine ⟨fun hx u hu => ?_, fun hx => hx t fun _ _ => rfl⟩
      rwa [Nat.eq_of_testBit_eq fun i => hu i List.not_mem_nil]
  | cons k ks ih =>
      rw [List.map_cons, List.foldl_cons, ih]
      constructor
      · intro hx u hu
        rcases sameBut_cons.mp hu with hu | hu
        · exact ((h x _ _).mp (hx u hu)).1
        · have hboth := ((h x _ _).mp (hx _ hu)).2
          rwa [Nat.xor_assoc, Nat.xor_self, Nat.xor_zero] at hboth
      · intro hx u hu
        refine (h x _ _).mpr ⟨hx u (sameBut_cons.mpr (Or.inl hu)), ?_⟩
        refine hx _ (sameBut_cons.mpr (Or.inr ?_))
        rwa [Nat.xor_assoc, Nat.xor_self, Nat.xor_zero]

end Meets

end KVServe
