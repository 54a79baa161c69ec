import Mathlib.Logic.Function.Basic
import Mathlib.Data.List.Nodup

/-!
# KVServe.Lib.Stores

**The stores of a launch**, in any order: a cell that is only ever stored one value holds it.
-/

namespace KVServe

variable {ι α : Type} [DecidableEq ι] {m : ι → α} {ws : List (ι × α)} {a : ι} {v : α}

/-- Memory after some stores. -/
def stored (m : ι → α) (ws : List (ι × α)) : ι → α :=
  ws.foldl (fun m w => Function.update m w.1 w.2) m

/-- A cell that holds the value already, or is stored to, holds it in the end. -/
theorem stored_eq (hall : ∀ w ∈ ws, w.1 = a → w.2 = v) (h : m a = v ∨ ∃ w ∈ ws, w.1 = a) :
    stored m ws a = v := by
  induction ws generalizing m with
  | nil =>
      rcases h with h | ⟨w, hw, -⟩
      · exact h
      · cases hw
  | cons w ws ih =>
      refine ih (fun w' hw' => hall w' (List.mem_cons_of_mem w hw')) ?_
      by_cases ha : w.1 = a
      · refine Or.inl ?_
        rw [← hall w List.mem_cons_self ha, ← ha]
        exact Function.update_self _ _ _
      · rcases h with h | ⟨w', hw', ha'⟩
        · exact Or.inl ((Function.update_of_ne (Ne.symm ha) _ _).trans h)
        · rcases List.mem_cons.mp hw' with rfl | hw'
          · exact absurd ha' ha
          · exact Or.inr ⟨w', hw', ha'⟩

/-- Of stores to different cells each stays. -/
theorem stored_of_mem (hnd : (ws.map Prod.fst).Nodup) (h : (a, v) ∈ ws) : stored m ws a = v := by
  refine stored_eq (fun w hw ha => ?_) (Or.inr ⟨(a, v), h, rfl⟩)
  have heq : w = (a, v) := List.inj_on_of_nodup_map hnd hw h ha
  rw [heq]

end KVServe
