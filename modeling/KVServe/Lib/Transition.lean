import Mathlib.Data.Option.Basic

/-!
# KVServe.Lib.Transition

**Labelled transition machines.** A machine has a set of initial states and a
partial step function: `step s a = none` when action `a` is not enabled in `s`.
Everything the session proofs say about "every run" is said through
`Machine.ReachWith`, whose index `ok` restricts the steps of the run: with
`ok := fun _ _ => True` the runs are all runs, with a proper `ok` they are the
runs whose steps all meet a condition on the state before the step.
-/

namespace KVServe

variable {σ α : Type}

/-- A labelled transition machine with a partial, executable step function. -/
structure Machine (σ α : Type) where
  init : σ → Prop
  step : σ → α → Option σ

namespace Machine

variable {M : Machine σ α} {ok : σ → α → Prop}

/-- `M.Path ok s t`: a run from `s` to `t` whose steps all satisfy `ok`. -/
inductive Path (M : Machine σ α) (ok : σ → α → Prop) (s : σ) : σ → Prop
  | refl : Path M ok s s
  | step {t u : σ} {a : α} : Path M ok s t → ok t a → M.step t a = some u → Path M ok s u

/-- The states that runs with `ok` steps reach from an initial state. -/
def ReachWith (M : Machine σ α) (ok : σ → α → Prop) (t : σ) : Prop :=
  ∃ s, M.init s ∧ M.Path ok s t

/-- The states any run reaches. -/
def Reachable (M : Machine σ α) : σ → Prop := M.ReachWith fun _ _ => True

theorem ReachWith.of_init {s : σ} (h : M.init s) : M.ReachWith ok s := ⟨s, h, .refl⟩

theorem ReachWith.step {s t : σ} {a : α} (h : M.ReachWith ok s) (hok : ok s a)
    (hstep : M.step s a = some t) : M.ReachWith ok t := by
  obtain ⟨s₀, hinit, hpath⟩ := h
  exact ⟨s₀, hinit, hpath.step hok hstep⟩

theorem Path.trans {s t u : σ} (h₁ : M.Path ok s t) (h₂ : M.Path ok t u) : M.Path ok s u := by
  induction h₂ with
  | refl => exact h₁
  | step _ hok hstep ih => exact ih.step hok hstep

theorem ReachWith.of_path {s t : σ} (hs : M.ReachWith ok s) (hpath : M.Path ok s t) :
    M.ReachWith ok t := by
  obtain ⟨s₀, hinit, hp⟩ := hs
  exact ⟨s₀, hinit, hp.trans hpath⟩

/-- Weakening the condition on steps keeps a path. -/
theorem Path.mono {ok' : σ → α → Prop} (hsub : ∀ s a, ok s a → ok' s a) {s t : σ}
    (h : M.Path ok s t) : M.Path ok' s t := by
  induction h with
  | refl => exact .refl
  | step _ hok hstep ih => exact ih.step (hsub _ _ hok) hstep

/-- **The invariant rule.** What holds initially and is kept by every `ok` step
of a reachable state holds in every state reached. -/
theorem invariant {I : σ → Prop} (hinit : ∀ s, M.init s → I s)
    (hstep : ∀ s a t, M.ReachWith ok s → I s → ok s a → M.step s a = some t → I t)
    {t : σ} (h : M.ReachWith ok t) : I t := by
  obtain ⟨s₀, hs₀, hpath⟩ := h
  induction hpath with
  | refl => exact hinit _ hs₀
  | step hp hok hst ih => exact hstep _ _ _ ⟨s₀, hs₀, hp⟩ ih hok hst

/-- The path form of the invariant rule: what a step keeps, a run keeps. -/
theorem Path.preserves {I : σ → Prop}
    (hstep : ∀ s a t, I s → ok s a → M.step s a = some t → I t)
    {s t : σ} (h : M.Path ok s t) (hs : I s) : I t := by
  induction h with
  | refl => exact hs
  | step _ hok hst ih => exact hstep _ _ _ ih hok hst

/-- Run a list of actions, each checked by `p` before it is taken. -/
def exec (M : Machine σ α) (p : σ → α → Bool) : σ → List α → Option σ
  | s, [] => some s
  | s, a :: as => if p s a then (M.step s a).bind fun t => exec M p t as else none

/-- A completed execution is a path. -/
theorem path_of_exec {p : σ → α → Bool} {s t : σ} {as : List α}
    (h : M.exec p s as = some t) : M.Path (fun s a => p s a = true) s t := by
  suffices ∀ r, M.Path (fun s a => p s a = true) r s → M.Path (fun s a => p s a = true) r t from
    this s .refl
  induction as generalizing s with
  | nil =>
      intro r hr
      obtain rfl : s = t := by simpa [exec] using h
      exact hr
  | cons a as ih =>
      intro r hr
      rw [exec] at h
      split at h
      · rename_i hp
        cases hstep : M.step s a with
        | none => rw [hstep] at h; simp at h
        | some u =>
            rw [hstep] at h
            exact ih (by simpa using h) r (hr.step hp hstep)
      · cases h

theorem reachWith_of_exec {p : σ → α → Bool} {s t : σ} {as : List α} (hs : M.init s)
    (h : M.exec p s as = some t) : M.ReachWith (fun s a => p s a = true) t :=
  ⟨s, hs, path_of_exec h⟩

/-- An execution goes on where its first part ends. -/
theorem exec_append {p : σ → α → Bool} (s : σ) (as bs : List α) :
    M.exec p s (as ++ bs) = (M.exec p s as).bind fun t => M.exec p t bs := by
  induction as generalizing s with
  | nil => rfl
  | cons a as ih =>
      rw [List.cons_append, exec, exec]
      split
      · cases hstep : M.step s a with
        | none => rfl
        | some t => exact ih t
      · rfl

/-- **The termination rule.** Where every step of a kind keeps an invariant and lowers a
measure, an execution of such steps is no longer than the measure it starts from. -/
theorem exec_length {p : σ → α → Bool} {I : σ → Prop} {kind : α → Prop} {μ : σ → Nat}
    (hstep : ∀ s a t, I s → kind a → M.step s a = some t → I t ∧ μ t < μ s)
    {s t : σ} {as : List α} (hs : I s) (has : ∀ a ∈ as, kind a) (h : M.exec p s as = some t) :
    I t ∧ as.length + μ t ≤ μ s := by
  induction as generalizing s with
  | nil =>
      obtain rfl : s = t := by simpa [exec] using h
      exact ⟨hs, by simp⟩
  | cons a as ih =>
      rw [exec] at h
      split at h
      · obtain ⟨u, hu, h⟩ := Option.bind_eq_some_iff.mp h
        obtain ⟨hI, hlt⟩ := hstep s a u hs (has a List.mem_cons_self) hu
        obtain ⟨ht, hle⟩ := ih hI (fun a' ha' => has a' (List.mem_cons_of_mem _ ha')) h
        refine ⟨ht, ?_⟩
        rw [List.length_cons]
        omega
      · cases h

/-- Weakening the condition on steps keeps reachability. -/
theorem ReachWith.mono {ok' : σ → α → Prop} (hsub : ∀ s a, ok s a → ok' s a) {t : σ}
    (h : M.ReachWith ok t) : M.ReachWith ok' t := by
  obtain ⟨s, hs, hpath⟩ := h
  exact ⟨s, hs, hpath.mono hsub⟩

end Machine

end KVServe
