import Mathlib.Data.List.Basic
import Mathlib.Data.List.Induction
import Mathlib.Data.List.Nodup

/-!
# KVServe.Lib.Assoc

**Insertion-ordered dictionaries** as lists of items: assigning to a key that is there keeps its
place, another key comes last.
-/

namespace KVServe.Assoc

variable {κ β : Type} [DecidableEq κ] {k k' : κ} {v : β} {d items : List (κ × β)}

/-- `d[k] = v`. -/
def set (k : κ) (v : β) : List (κ × β) → List (κ × β)
  | [] => [(k, v)]
  | e :: rest => if e.1 = k then (k, v) :: rest else e :: set k v rest

/-- `d.get(k)`. -/
def get (k : κ) : List (κ × β) → Option β
  | [] => none
  | e :: rest => if e.1 = k then some e.2 else get k rest

/-- `d.pop(k, None)`: the dictionary without the key. -/
def erase (k : κ) (d : List (κ × β)) : List (κ × β) := d.filter fun e => e.1 ≠ k

/-- The dictionary of some items; of equal keys the last one counts. -/
def ofItems (items : List (κ × β)) : List (κ × β) := items.foldl (fun d e => set e.1 e.2 d) []

theorem get_set : get k' (set k v d) = if k' = k then some v else get k' d := by
  induction d with
  | nil => simp [set, get, eq_comm]
  | cons e rest ih =>
      rw [set]
      split
      · next hkey =>
          subst hkey
          by_cases h : k' = e.1
          · simp [get, h]
          · simp [get, h, Ne.symm h]
      · next hkey =>
          rw [get, get, ih]
          by_cases h : e.1 = k'
          · have hne : k' ≠ k := fun heq => hkey (h.trans heq)
            rw [if_pos h, if_pos h, if_neg hne]
          · rw [if_neg h, if_neg h]

theorem mem_of_get (h : get k d = some v) : (k, v) ∈ d := by
  induction d with
  | nil => cases h
  | cons e rest ih =>
      rw [get] at h
      split at h
      · next hkey =>
          obtain rfl := Option.some.inj h
          exact hkey ▸ List.mem_cons_self
      · exact List.mem_cons_of_mem _ (ih h)

theorem mem_set {e : κ × β} (h : e ∈ set k v d) : e = (k, v) ∨ e ∈ d := by
  induction d with
  | nil => exact Or.inl (List.mem_singleton.mp h)
  | cons e' rest ih =>
      rw [set] at h
      split at h
      · rcases List.mem_cons.mp h with rfl | h
        · exact Or.inl rfl
        · exact Or.inr (List.mem_cons_of_mem _ h)
      · rcases List.mem_cons.mp h with rfl | h
        · exact Or.inr List.mem_cons_self
        · exact (ih h).imp_right (List.mem_cons_of_mem _)

theorem mem_keys_set : k' ∈ (set k v d).map Prod.fst ↔ k' = k ∨ k' ∈ d.map Prod.fst := by
  induction d with
  | nil => simp [set]
  | cons e rest ih =>
      rw [set]
      split
      · next hkey => simp [hkey]
      · rw [List.map_cons, List.map_cons, List.mem_cons, List.mem_cons, ih]
        exact or_left_comm

theorem set_of_not_mem (h : k ∉ d.map Prod.fst) : set k v d = d ++ [(k, v)] := by
  induction d with
  | nil => rfl
  | cons e rest ih =>
      rw [List.map_cons, List.mem_cons, not_or] at h
      rw [set, if_neg (Ne.symm h.1), ih h.2, List.cons_append]

/-- Assigning to a key keeps the keys distinct. -/
theorem nodup_keys_set (h : (d.map Prod.fst).Nodup) : ((set k v d).map Prod.fst).Nodup := by
  induction d with
  | nil => exact List.nodup_singleton k
  | cons e rest ih =>
      rw [List.map_cons, List.nodup_cons] at h
      rw [set]
      split
      · next hkey =>
          rw [List.map_cons, List.nodup_cons]
          exact ⟨hkey ▸ h.1, h.2⟩
      · next hkey =>
          rw [List.map_cons, List.nodup_cons, mem_keys_set, not_or]
          exact ⟨⟨hkey, h.1⟩, ih h.2⟩

/-! ### Taking a key out -/

theorem get_eq_none : get k d = none ↔ k ∉ d.map Prod.fst := by
  induction d with
  | nil => simp [get]
  | cons e rest ih =>
      rw [get, List.map_cons, List.mem_cons, not_or]
      split
      · next hkey => simp [hkey]
      · next hkey => simp [ih, Ne.symm hkey]

theorem get_of_mem (hnodup : (d.map Prod.fst).Nodup) (h : (k, v) ∈ d) : get k d = some v := by
  induction d with
  | nil => cases h
  | cons e rest ih =>
      rw [List.map_cons, List.nodup_cons] at hnodup
      rw [get]
      rcases List.mem_cons.mp h with rfl | h
      · rw [if_pos rfl]
      · have hne : e.1 ≠ k := fun heq => hnodup.1 (heq ▸ List.mem_map_of_mem h)
        rw [if_neg hne, ih hnodup.2 h]

theorem mem_erase {e : κ × β} : e ∈ erase k d ↔ e ∈ d ∧ e.1 ≠ k := by
  simp [erase]

theorem mem_keys_erase : k' ∈ (erase k d).map Prod.fst ↔ k' ∈ d.map Prod.fst ∧ k' ≠ k := by
  simp only [List.mem_map, mem_erase]
  constructor
  · rintro ⟨e, ⟨he, hne⟩, rfl⟩
    exact ⟨⟨e, he, rfl⟩, hne⟩
  · rintro ⟨⟨e, he, rfl⟩, hne⟩
    exact ⟨e, ⟨he, hne⟩, rfl⟩

theorem nodup_keys_erase (h : (d.map Prod.fst).Nodup) : ((erase k d).map Prod.fst).Nodup :=
  (List.Sublist.map Prod.fst List.filter_sublist).nodup h

theorem get_erase : get k' (erase k d) = if k' = k then none else get k' d := by
  split
  · next h => exact get_eq_none.mpr fun hmem => (mem_keys_erase.mp hmem).2 h
  · next h =>
      induction d with
      | nil => rfl
      | cons e rest ih =>
          by_cases hkey : e.1 = k
          · rw [erase, List.filter_cons_of_neg (by simpa using hkey), ← erase, ih, get,
              if_neg fun heq => h (heq.symm.trans hkey)]
          · rw [erase, List.filter_cons_of_pos (by simpa using hkey), ← erase, get, get, ih]

theorem erase_of_not_mem (h : k ∉ d.map Prod.fst) : erase k d = d :=
  List.filter_eq_self.mpr fun e he => by
    simpa using fun heq : e.1 = k => h (heq ▸ List.mem_map_of_mem he)

/-- A key's item and the other ones are the items. -/
theorem perm_cons_erase (hnodup : (d.map Prod.fst).Nodup) (h : get k d = some v) :
    d.Perm ((k, v) :: erase k d) := by
  induction d with
  | nil => cases h
  | cons e rest ih =>
      rw [List.map_cons, List.nodup_cons] at hnodup
      rw [get] at h
      split at h
      · next hkey =>
          obtain ⟨e₁, e₂⟩ := e
          obtain rfl : e₁ = k := hkey
          obtain rfl := Option.some.inj h
          rw [erase, List.filter_cons_of_neg (by simp)]
          exact ((erase_of_not_mem hnodup.1).symm ▸ List.Perm.refl _ :
            rest.Perm (erase e₁ rest)).cons _
      · next hkey =>
          rw [erase, List.filter_cons_of_pos (by simpa using hkey)]
          exact ((ih hnodup.2 h).cons e).trans (List.Perm.swap _ _ _)

/-- Assigning replaces the key's item. -/
theorem set_perm (hnodup : (d.map Prod.fst).Nodup) : (set k v d).Perm ((k, v) :: erase k d) := by
  have hget : get k (set k v d) = some v := by rw [get_set, if_pos rfl]
  refine (perm_cons_erase (nodup_keys_set hnodup) hget).trans (List.Perm.cons _ ?_)
  suffices herase : erase k (set k v d) = erase k d from herase ▸ List.Perm.refl _
  clear hget hnodup
  induction d with
  | nil => simp [set, erase]
  | cons e rest ih =>
      rw [set]
      split
      · next hkey => simp [erase, hkey]
      · next hkey =>
          rw [erase, List.filter_cons_of_pos (by simpa using hkey), erase,
            List.filter_cons_of_pos (by simpa using hkey)]
          exact congrArg (e :: ·) ih

/-- Items with distinct keys are the items of their dictionary. -/
theorem ofItems_eq (h : (items.map Prod.fst).Nodup) : ofItems items = items := by
  suffices hfold : ∀ d : List (κ × β), ((d ++ items).map Prod.fst).Nodup →
      items.foldl (fun d e => set e.1 e.2 d) d = d ++ items from hfold [] h
  induction items with
  | nil => exact fun d _ => (List.append_nil d).symm
  | cons e rest ih =>
      intro d hnodup
      rw [List.map_append, List.map_cons] at hnodup
      have hnot : e.1 ∉ d.map Prod.fst := fun hmem =>
        (List.disjoint_of_nodup_append hnodup) hmem List.mem_cons_self
      rw [List.foldl_cons, set_of_not_mem hnot,
        ih (by rw [List.map_cons] at h; exact (List.nodup_cons.mp h).2) _
          (by rw [List.append_assoc, List.map_append, List.singleton_append, List.map_cons]; exact hnodup),
        List.append_assoc, List.singleton_append]

/-- **Of equal keys the last one counts.** -/
theorem get_ofItems : get k (ofItems items) = some v ↔
    ∃ before after, items = before ++ (k, v) :: after ∧ ∀ e ∈ after, e.1 ≠ k := by
  induction items using List.reverseRecOn with
  | nil => simp [ofItems, get]
  | append_singleton items e ih =>
      have hset : ofItems (items ++ [e]) = set e.1 e.2 (ofItems items) := by
        rw [ofItems, List.foldl_append]
        rfl
      rw [hset, get_set]
      split
      · next hkey =>
          subst hkey
          constructor
          · intro h
            obtain rfl := Option.some.inj h
            exact ⟨items, [], rfl, fun e he => absurd he List.not_mem_nil⟩
          · rintro ⟨before, after, heq, hafter⟩
            rcases List.eq_nil_or_concat after with rfl | ⟨after, last, rfl⟩
            · obtain ⟨-, he⟩ := List.append_inj' heq rfl
              rw [List.singleton_inj.mp he]
            · rw [List.concat_eq_append, ← List.cons_append, ← List.append_assoc] at heq
              obtain ⟨-, he⟩ := List.append_inj' heq rfl
              exact absurd (congrArg Prod.fst (List.singleton_inj.mp he)).symm
                (hafter last (by simp))
      · next hkey =>
          rw [ih]
          constructor
          · rintro ⟨before, after, rfl, hafter⟩
            refine ⟨before, after ++ [e], by simp, fun e' he' => ?_⟩
            rcases List.mem_append.mp he' with he' | he'
            · exact hafter e' he'
            · rw [List.mem_singleton.mp he']
              exact Ne.symm hkey
          · rintro ⟨before, after, heq, hafter⟩
            rcases List.eq_nil_or_concat after with rfl | ⟨after, last, rfl⟩
            · obtain ⟨-, he⟩ := List.append_inj' heq rfl
              exact absurd (congrArg Prod.fst (List.singleton_inj.mp he)).symm hkey
            · rw [List.concat_eq_append, ← List.cons_append, ← List.append_assoc] at heq
              obtain ⟨hitems, -⟩ := List.append_inj' heq rfl
              exact ⟨before, after, hitems, fun e' he' => hafter e' (by simp [he'])⟩

end KVServe.Assoc
