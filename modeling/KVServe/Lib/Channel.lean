import Mathlib.Data.List.Basic

/-!
# KVServe.Lib.Channel

**Keyed FIFO channels.** Messages in flight form one list, oldest first, each with
the key of its channel; the messages of one key keep their order, those of
different keys can overtake each other. `onChannel` reads one channel off the
list and `takeFirst` receives from it.
-/

namespace KVServe

variable {κ μ : Type} [DecidableEq κ]

/-- The messages of one channel, oldest first. -/
def onChannel (key : κ) (l : List (κ × μ)) : List μ :=
  l.filterMap fun entry => if entry.1 = key then some entry.2 else none

/-- Receive the oldest message of a channel. -/
def takeFirst (key : κ) : List (κ × μ) → Option (μ × List (κ × μ))
  | [] => none
  | entry :: l =>
      if entry.1 = key then some (entry.2, l)
      else (takeFirst key l).map fun taken => (taken.1, entry :: taken.2)

variable {key key' : κ} {l l' rest : List (κ × μ)} {m : μ}

@[simp] theorem onChannel_nil : onChannel key ([] : List (κ × μ)) = [] := rfl

@[simp] theorem onChannel_cons_self : onChannel key ((key, m) :: l) = m :: onChannel key l := by
  simp [onChannel]

theorem onChannel_cons_ne (h : key' ≠ key) :
    onChannel key ((key', m) :: l) = onChannel key l := by
  simp [onChannel, h]

@[simp] theorem onChannel_append : onChannel key (l ++ l') = onChannel key l ++ onChannel key l' :=
  List.filterMap_append

theorem mem_onChannel : m ∈ onChannel key l ↔ (key, m) ∈ l := by
  simp only [onChannel, List.mem_filterMap]
  constructor
  · rintro ⟨⟨key', m'⟩, hmem, heq⟩
    split at heq
    · rename_i hkey
      obtain rfl := Option.some.inj heq
      exact hkey ▸ hmem
    · cases heq
  · intro hmem
    exact ⟨(key, m), hmem, by simp⟩

/-- What one sender puts on its channel. -/
theorem onChannel_map_self (messages : List μ) :
    onChannel key (messages.map fun m => (key, m)) = messages := by
  induction messages with
  | nil => rfl
  | cons m messages ih => rw [List.map_cons, onChannel_cons_self, ih]

theorem onChannel_map_ne (h : key' ≠ key) (messages : List μ) :
    onChannel key (messages.map fun m => (key', m)) = [] := by
  induction messages with
  | nil => rfl
  | cons m messages ih => rw [List.map_cons, onChannel_cons_ne h, ih]

/-- **Receiving pops the channel and leaves the others alone.** -/
theorem takeFirst_spec (h : takeFirst key l = some (m, rest)) :
    onChannel key l = m :: onChannel key rest ∧
      ∀ key', key' ≠ key → onChannel key' rest = onChannel key' l := by
  induction l generalizing rest with
  | nil => cases h
  | cons entry l ih =>
      obtain ⟨key₀, m₀⟩ := entry
      rw [takeFirst] at h
      split at h
      · rename_i hkey
        obtain rfl : key₀ = key := hkey
        obtain ⟨rfl, rfl⟩ := Prod.mk.inj (Option.some.inj h)
        exact ⟨onChannel_cons_self, fun key' hne => (onChannel_cons_ne (Ne.symm hne)).symm⟩
      · rename_i hkey
        obtain ⟨⟨m', rest'⟩, htake, heq⟩ := Option.map_eq_some_iff.mp h
        obtain ⟨rfl, rfl⟩ := Prod.mk.inj heq
        obtain ⟨hself, hother⟩ := ih htake
        refine ⟨by rw [onChannel_cons_ne hkey, onChannel_cons_ne hkey]; exact hself,
          fun key' hne => ?_⟩
        by_cases hk : key₀ = key'
        · subst hk
          rw [onChannel_cons_self, onChannel_cons_self, hother _ hne]
        · rw [onChannel_cons_ne hk, onChannel_cons_ne hk, hother key' hne]

theorem takeFirst_subset (h : takeFirst key l = some (m, rest)) : (key, m) ∈ l ∧ rest ⊆ l := by
  obtain ⟨hself, hother⟩ := takeFirst_spec h
  refine ⟨mem_onChannel.mp (by rw [hself]; exact List.mem_cons_self), fun entry hmem => ?_⟩
  obtain ⟨key', m'⟩ := entry
  have hmem' := mem_onChannel.mpr hmem
  by_cases hk : key' = key
  · subst hk
    exact mem_onChannel.mp (by rw [hself]; exact List.mem_cons_of_mem _ hmem')
  · exact mem_onChannel.mp (hother key' hk ▸ hmem')

/-- Receiving takes one message off. -/
theorem takeFirst_perm (h : takeFirst key l = some (m, rest)) : l.Perm ((key, m) :: rest) := by
  induction l generalizing rest with
  | nil => cases h
  | cons entry l ih =>
      obtain ⟨key₀, m₀⟩ := entry
      rw [takeFirst] at h
      split at h
      · rename_i hkey
        obtain rfl : key₀ = key := hkey
        obtain ⟨rfl, rfl⟩ := Prod.mk.inj (Option.some.inj h)
        exact List.Perm.refl _
      · obtain ⟨⟨m', rest'⟩, htake, heq⟩ := Option.map_eq_some_iff.mp h
        obtain ⟨rfl, rfl⟩ := Prod.mk.inj heq
        exact ((ih htake).cons _).trans (List.Perm.swap _ _ _)

end KVServe
