import Mathlib.Data.List.Count
import Mathlib.Data.List.Nodup

/-!
# KVServe.Lib.ListHeap

Append-only lists as heaps: objects are named by their index, updated in place
with `List.modify` and collected with `filterMap`. The lemmas say what one
update does to a lookup and to a collection.
-/

namespace KVServe

variable {α β : Type}

theorem getElem?_modify_self {l : List α} {i : Nat} {a : α} (h : l[i]? = some a) (f : α → α) :
    (l.modify i f)[i]? = some (f a) := by
  simp [h]

theorem getElem?_modify_ne {l : List α} {i j : Nat} (h : i ≠ j) (f : α → α) :
    (l.modify i f)[j]? = l[j]? := by
  simp [h]

/-- A lookup in a modified heap, by whether it hits the modified object. -/
theorem getElem?_modify_some {l : List α} {i j : Nat} {f : α → α} {b : α}
    (h : (l.modify i f)[j]? = some b) :
    (i = j ∧ ∃ a, l[i]? = some a ∧ b = f a) ∨ (i ≠ j ∧ l[j]? = some b) := by
  by_cases hij : i = j
  · subst hij
    cases ha : l[i]? with
    | none => simp [ha] at h
    | some a =>
        rw [getElem?_modify_self ha] at h
        exact Or.inl ⟨rfl, a, rfl, (Option.some.inj h).symm⟩
  · rw [getElem?_modify_ne hij] at h
    exact Or.inr ⟨hij, h⟩

/-- A lookup in an extended heap. -/
theorem getElem?_append_some {l : List α} {j : Nat} {a b : α}
    (h : (l ++ [a])[j]? = some b) : l[j]? = some b ∨ (j = l.length ∧ b = a) := by
  rcases Nat.lt_trichotomy j l.length with hj | hj | hj
  · rw [List.getElem?_append_left hj] at h
    exact Or.inl h
  · subst hj
    rw [List.getElem?_concat_length] at h
    exact Or.inr ⟨rfl, (Option.some.inj h).symm⟩
  · rw [List.getElem?_eq_none (by simp; omega)] at h
    cases h

theorem getElem?_append_of_some {l : List α} {j : Nat} {b : α} (h : l[j]? = some b) (a : α) :
    (l ++ [a])[j]? = some b := by
  obtain ⟨hj, rfl⟩ := List.getElem?_eq_some_iff.mp h
  rw [List.getElem?_append_left hj]
  exact h

/-- Updating one object changes a collection by what the object contributes. -/
theorem count_flatMap_modify [DecidableEq β] (f : α → α) (g : α → List β) (x : β) :
    ∀ {l : List α} {i : Nat} {a : α}, l[i]? = some a →
      ((l.modify i f).flatMap g).count x + (g a).count x
        = (l.flatMap g).count x + (g (f a)).count x := by
  intro l
  induction l with
  | nil => intro i a h; simp at h
  | cons b t ih =>
      intro i a h
      cases i with
      | zero =>
          obtain rfl : b = a := by simpa using h
          rw [List.modify_zero_cons, List.flatMap_cons, List.flatMap_cons, List.count_append,
            List.count_append]
          omega
      | succ i =>
          have := ih (i := i) (a := a) (by simpa using h)
          rw [List.modify_succ_cons, List.flatMap_cons, List.flatMap_cons, List.count_append,
            List.count_append]
          omega

/-- The same for a collection of at most one value an object. -/
theorem count_filterMap_modify [DecidableEq β] (f : α → α) (g : α → Option β) (x : β)
    {l : List α} {i : Nat} {a : α} (h : l[i]? = some a) :
    ((l.modify i f).filterMap g).count x + (if g a = some x then 1 else 0)
      = (l.filterMap g).count x + (if g (f a) = some x then 1 else 0) := by
  have hcount : ∀ o : Option β, o.toList.count x = if o = some x then 1 else 0 := by
    intro o
    cases o with
    | none => simp
    | some y => simp [List.count_singleton]
  rw [List.filterMap_eq_flatMap_toList, List.filterMap_eq_flatMap_toList, ← hcount, ← hcount]
  exact count_flatMap_modify f (fun a => (g a).toList) x h

/-- An update that a collection does not see. -/
theorem filterMap_modify_of_eq {f : α → α} {g : α → Option β} (h : ∀ a, g (f a) = g a)
    (l : List α) (i : Nat) : (l.modify i f).filterMap g = l.filterMap g := by
  induction l generalizing i with
  | nil => simp
  | cons a l ih =>
      cases i with
      | zero => rw [List.modify_zero_cons, List.filterMap_cons, List.filterMap_cons, h]
      | succ i => rw [List.modify_succ_cons, List.filterMap_cons, List.filterMap_cons, ih]

/-- An update that at most takes an object out of a collection. -/
theorem count_filterMap_modify_le [DecidableEq β] {f : α → α} {g : α → Option β}
    {l : List α} {i : Nat} (h : ∀ a, l[i]? = some a → g (f a) = none ∨ g (f a) = g a) (x : β) :
    ((l.modify i f).filterMap g).count x ≤ (l.filterMap g).count x := by
  induction l generalizing i with
  | nil => simp
  | cons a l ih =>
      cases i with
      | zero =>
          rw [List.modify_zero_cons, List.filterMap_cons, List.filterMap_cons]
          rcases h a (by simp) with heq | heq
          · rw [heq]
            cases g a with
            | none => exact Nat.le_refl _
            | some b => simp only [List.count_cons]; omega
          · exact Nat.le_of_eq (by rw [heq])
      | succ i =>
          have := ih (i := i) fun a ha => h a (by simpa using ha)
          rw [List.modify_succ_cons, List.filterMap_cons, List.filterMap_cons]
          cases g a with
          | none => exact this
          | some b => simp only [List.count_cons]; omega

end KVServe
