import KVServe.Lib.Transition

/-!
# KVServe.Lib.History

**History variables.** What a run did is often needed to say what a state means. A history
variable stands beside the state, is updated with every step and read by none: it restricts no
run, so what is shown with it holds of the machine without.
-/

namespace KVServe.Machine

variable {σ α γ : Type}

/-- The machine with a history variable: `note` says what a step writes into it. -/
def withHistory (M : Machine σ α) (start : γ) (note : σ → α → γ → γ) : Machine (σ × γ) α where
  init s := M.init s.1 ∧ s.2 = start
  step s a := (M.step s.1 a).map fun t => (t, note s.1 a s.2)

variable {M : Machine σ α} {start : γ} {note : σ → α → γ → γ}

/-- **The invariant rule with a history.** The state before a step is one that the machine
itself reaches. -/
theorem invariant_withHistory {I : σ → γ → Prop} (hinit : ∀ s, M.init s → I s start)
    (hstep : ∀ s g a t, M.Reachable s → I s g → M.step s a = some t → I t (note s a g))
    {s : σ} {g : γ} (h : (M.withHistory start note).Reachable (s, g)) : M.Reachable s ∧ I s g := by
  refine invariant (M := M.withHistory start note) (I := fun s => M.Reachable s.1 ∧ I s.1 s.2)
    ?_ ?_ h
  · rintro ⟨s, g⟩ ⟨hs, rfl⟩
    exact ⟨.of_init hs, hinit s hs⟩
  · rintro ⟨s, g⟩ a t - ⟨hs, hI⟩ - hst
    obtain ⟨u, hu, rfl⟩ := Option.map_eq_some_iff.mp hst
    exact ⟨ReachWith.step hs trivial hu, hstep s g a u hs hI hu⟩

/-- **A history variable restricts no run.** -/
theorem exists_withHistory {s : σ} (h : M.Reachable s) :
    ∃ g, (M.withHistory start note).Reachable (s, g) := by
  refine invariant (I := fun s => ∃ g, (M.withHistory start note).Reachable (s, g)) ?_ ?_ h
  · intro s hs
    exact ⟨start, .of_init ⟨hs, rfl⟩⟩
  · intro s a t _ hs _ hstep
    obtain ⟨g, hg⟩ := hs
    refine ⟨note s a g, ReachWith.step hg (a := a) trivial ?_⟩
    show (M.step s a).map _ = _
    rw [hstep]
    rfl

end KVServe.Machine
