import KVServe.Lib.Assoc
import Mathlib.Algebra.Order.BigOperators.Group.List
import Mathlib.Data.List.Perm.Basic
import Mathlib.Logic.Function.Basic
import Mathlib.Tactic.Linarith

/-!
# KVServe.Lib.Custody

**Resources held for tickets.** A desk holds counted references on resources for tickets; a
ticket is opened with the resources it holds and the number of parties that owe a report on
it, each report takes some parties off, and the last one gives the references back.

`Balanced` relates a desk to what the parties still owe: an open ticket waits for exactly
that many reports. From it follow the facts a user of such a desk wants: no report is one too
many, a resource of an open ticket has a reference, and once nobody owes anything the only
references left are the owner's.
-/

namespace KVServe.Custody

variable {β : Type} [DecidableEq β]

/-- Tickets, numbered in the order they are opened, and the references on the resources. -/
structure Desk (β : Type) where
  next : Nat
  opened : List (Nat × (List β × Nat))
  refs : β → Int

/-- The references that open tickets hold on a resource. -/
def held (opened : List (Nat × (List β × Nat))) (b : β) : Nat :=
  (opened.map fun ticket => ticket.2.1.count b).sum

namespace Desk

/-- Open a ticket for `n` parties, with a reference on each of its resources. -/
def issue (d : Desk β) (resources : List β) (n : Nat) : Desk β :=
  { next := d.next + 1
    opened := Assoc.set d.next (resources, n) d.opened
    refs := fun b => d.refs b + resources.count b }

/-- Use up a number without a ticket. -/
def skip (d : Desk β) : Desk β := { d with next := d.next + 1 }

/-- `n` parties report on a ticket; `none` when they are more than it waits for. A number
without a ticket is passed over. -/
def settle (d : Desk β) (report : Nat × Nat) : Option (Desk β) :=
  match Assoc.get report.1 d.opened with
  | none => some d
  | some (resources, remaining) =>
      if report.2 < remaining then
        some { d with opened := Assoc.set report.1 (resources, remaining - report.2) d.opened }
      else if report.2 = remaining then
        some { d with
          opened := Assoc.erase report.1 d.opened
          refs := fun b => d.refs b - resources.count b }
      else none

theorem settle_next {d d' : Desk β} {report : Nat × Nat} (h : d.settle report = some d') :
    d'.next = d.next := by
  rw [settle] at h
  split at h
  · obtain rfl := Option.some.inj h
    rfl
  · split at h
    · obtain rfl := Option.some.inj h
      rfl
    · split at h
      · obtain rfl := Option.some.inj h
        rfl
      · cases h

/-- Reports on several tickets, one after another. -/
def settleAll (d : Desk β) (reports : List (Nat × Nat)) : Option (Desk β) :=
  reports.foldlM settle d

/-- A ticket is open and holds a resource. -/
def Holds (d : Desk β) (j : Nat) (b : β) : Prop :=
  ∃ resources remaining, Assoc.get j d.opened = some (resources, remaining) ∧ b ∈ resources

end Desk

/-- How many parties some reports take off a ticket. -/
def reported (j : Nat) (reports : List (Nat × Nat)) : Nat :=
  (reports.map fun report => if j = report.1 then report.2 else 0).sum

@[simp] theorem reported_nil (j : Nat) : reported j [] = 0 := rfl

@[simp] theorem reported_cons (j : Nat) (report : Nat × Nat) (reports : List (Nat × Nat)) :
    reported j (report :: reports) =
      (if j = report.1 then report.2 else 0) + reported j reports := by
  simp [reported]

@[simp] theorem reported_append (j : Nat) (reports reports' : List (Nat × Nat)) :
    reported j (reports ++ reports') = reported j reports + reported j reports' := by
  simp [reported]

/-! ### References of tickets -/

theorem held_perm {opened opened' : List (Nat × (List β × Nat))} (h : opened.Perm opened') (b : β) :
    held opened b = held opened' b :=
  (h.map _).sum_eq

@[simp] theorem held_nil (b : β) : held ([] : List (Nat × (List β × Nat))) b = 0 := rfl

@[simp] theorem held_cons (ticket : Nat × (List β × Nat)) (opened : List (Nat × (List β × Nat)))
    (b : β) : held (ticket :: opened) b = ticket.2.1.count b + held opened b := by
  simp [held]

variable {opened : List (Nat × (List β × Nat))} {j : Nat} {resources : List β} {n : Nat}

theorem held_set_fresh (h : Assoc.get j opened = none) (b : β) :
    held (Assoc.set j (resources, n) opened) b = held opened b + resources.count b := by
  rw [Assoc.set_of_not_mem (Assoc.get_eq_none.mp h), held_perm List.perm_append_comm]
  simp [Nat.add_comm]

theorem held_erase (hnodup : (opened.map Prod.fst).Nodup)
    (h : Assoc.get j opened = some (resources, n)) (b : β) :
    held opened b = resources.count b + held (Assoc.erase j opened) b := by
  rw [held_perm (Assoc.perm_cons_erase hnodup h), held_cons]

theorem held_set (hnodup : (opened.map Prod.fst).Nodup)
    (h : Assoc.get j opened = some (resources, n)) (n' : Nat) (b : β) :
    held (Assoc.set j (resources, n') opened) b = held opened b := by
  rw [held_perm (Assoc.set_perm hnodup), held_cons, held_erase hnodup h]

theorem count_le_held (h : Assoc.get j opened = some (resources, n)) (b : β) :
    resources.count b ≤ held opened b :=
  List.single_le_sum (by simp) _
    (List.mem_map_of_mem (f := fun t : Nat × (List β × Nat) => t.2.1.count b) (Assoc.mem_of_get h))

/-- A new ticket holds its resources. -/
theorem Desk.holds_issue_self {d : Desk β} {b : β} (hb : b ∈ resources) :
    (d.issue resources n).Holds d.next b :=
  ⟨resources, n, by rw [Desk.issue, Assoc.get_set, if_pos rfl], hb⟩

/-! ### Balance -/

/-- **A desk in balance**: beside the owner's own references there are those of the open
tickets, and every open ticket waits for the reports still owed on it. -/
structure Balanced (d : Desk β) (own : β → Nat) (owed : Nat → Nat) : Prop where
  nodup : (d.opened.map Prod.fst).Nodup
  fresh : ∀ j, d.next ≤ j → Assoc.get j d.opened = none ∧ owed j = 0
  waits : ∀ j resources remaining, Assoc.get j d.opened = some (resources, remaining) →
    remaining = owed j ∧ 0 < remaining
  refs : ∀ b : β, d.refs b = own b + held d.opened b

namespace Balanced

variable {d d' : Desk β} {own own' : β → Nat} {owed owed' : Nat → Nat}

/-- What an owner does with its own references. -/
theorem setRefs (h : Balanced d own owed) {refs : β → Int}
    (hrefs : ∀ b, refs b - d.refs b = (own' b : Int) - own b) :
    Balanced { d with refs } own' owed where
  nodup := h.nodup
  fresh := h.fresh
  waits := h.waits
  refs b := by
    have hb := hrefs b
    rw [h.refs b] at hb
    show refs b = own' b + held d.opened b
    omega

/-- **Opening a ticket** adds what its parties owe. -/
theorem issue (h : Balanced d own owed) (hn : 0 < n) :
    Balanced (d.issue resources n) own (Function.update owed d.next n) where
  nodup := Assoc.nodup_keys_set h.nodup
  fresh j hj := by
    have hne : j ≠ d.next := Nat.ne_of_gt hj
    simp only [Desk.issue, Assoc.get_set, if_neg hne, Function.update_of_ne hne]
    exact h.fresh j (Nat.le_of_lt hj)
  waits j resources' remaining hget := by
    by_cases hj : j = d.next
    · subst hj
      simp only [Desk.issue, Assoc.get_set, if_true, Option.some.injEq, Prod.mk.injEq] at hget
      obtain ⟨rfl, rfl⟩ := hget
      exact ⟨by rw [Function.update_self], hn⟩
    · simp only [Desk.issue, Assoc.get_set, if_neg hj] at hget
      rw [Function.update_of_ne hj]
      exact h.waits j resources' remaining hget
  refs b := by
    show d.refs b + resources.count b = own b + held (Assoc.set d.next (resources, n) d.opened) b
    rw [held_set_fresh (h.fresh d.next (Nat.le_refl _)).1, h.refs b]
    push_cast
    omega

/-- A number without a ticket: its parties may owe reports that nobody waits for. -/
theorem skip (h : Balanced d own owed) (n : Nat) :
    Balanced d.skip own (Function.update owed d.next n) where
  nodup := h.nodup
  fresh j hj := by
    have hne : j ≠ d.next := Nat.ne_of_gt hj
    rw [Function.update_of_ne hne]
    exact h.fresh j (Nat.le_of_lt hj)
  waits j resources remaining hget := by
    have hne : j ≠ d.next := by
      rintro rfl
      rw [show d.skip.opened = d.opened from rfl, (h.fresh _ (Nat.le_refl _)).1] at hget
      cases hget
    rw [Function.update_of_ne hne]
    exact h.waits j resources remaining hget
  refs := h.refs

/-- **A report is never one too many**: it takes off what its parties owed. -/
theorem settle (h : Balanced d own owed) {report : Nat × Nat}
    (howed : ∀ j, owed j = owed' j + if j = report.1 then report.2 else 0) :
    ∃ d', d.settle report = some d' ∧ Balanced d' own owed' ∧ d'.next = d.next ∧
      ∀ j b, 0 < owed' j → d.Holds j b → d'.Holds j b := by
  have hle : ∀ j, owed' j ≤ owed j := fun j => by rw [howed j]; omega
  have hfresh : ∀ j, d.next ≤ j → Assoc.get j d.opened = none ∧ owed' j = 0 := fun j hj =>
    ⟨(h.fresh j hj).1, Nat.le_zero.mp ((h.fresh j hj).2 ▸ hle j)⟩
  have hother : ∀ j, j ≠ report.1 → owed j = owed' j := fun j hj => by
    rw [howed j, if_neg hj, Nat.add_zero]
  have hself := howed report.1
  rw [if_pos rfl] at hself
  cases hget : Assoc.get report.1 d.opened with
  | none =>
      refine ⟨d, by simp [Desk.settle, hget], ⟨h.nodup, hfresh, ?_, h.refs⟩, rfl,
        fun _ _ _ => id⟩
      intro j resources remaining hj
      have hne : j ≠ report.1 := by
        rintro rfl
        rw [hget] at hj
        cases hj
      rw [← hother j hne]
      exact h.waits j resources remaining hj
  | some ticket =>
      obtain ⟨resources, remaining⟩ := ticket
      obtain ⟨hrem, hpos⟩ := h.waits _ _ _ hget
      by_cases hlt : report.2 < remaining
      · refine ⟨{ d with opened := Assoc.set report.1 (resources, remaining - report.2) d.opened },
          by simp only [Desk.settle, hget, if_pos hlt],
          ⟨Assoc.nodup_keys_set h.nodup, ?_, ?_, ?_⟩, rfl, ?_⟩
        · intro j hj
          have hne : j ≠ report.1 := by
            rintro rfl
            rw [(h.fresh _ hj).1] at hget
            cases hget
          rw [Assoc.get_set, if_neg hne]
          exact hfresh j hj
        · intro j resources' remaining' hj
          rw [Assoc.get_set] at hj
          split at hj
          · next heq =>
              subst heq
              obtain ⟨rfl, rfl⟩ := Prod.mk.inj (Option.some.inj hj)
              omega
          · next hne =>
              rw [← hother j hne]
              exact h.waits j resources' remaining' hj
        · intro b
          rw [h.refs b, held_set h.nodup hget]
        · rintro j b - ⟨resources', remaining', hj, hb⟩
          by_cases hne : j = report.1
          · obtain ⟨rfl, rfl⟩ := Prod.mk.inj (Option.some.inj (hget.symm.trans (hne ▸ hj)))
            exact ⟨resources, _, by rw [Assoc.get_set, if_pos hne], hb⟩
          · exact ⟨resources', remaining', by rw [Assoc.get_set, if_neg hne, hj], hb⟩
      · have heq : report.2 = remaining := by omega
        refine ⟨{ d with
            opened := Assoc.erase report.1 d.opened
            refs := fun b => d.refs b - resources.count b },
          by simp only [Desk.settle, hget, if_neg hlt, if_pos heq],
          ⟨Assoc.nodup_keys_erase h.nodup, ?_, ?_, ?_⟩, rfl, ?_⟩
        · intro j hj
          rw [Assoc.get_erase]
          exact ⟨by rw [(hfresh j hj).1, ite_self], (hfresh j hj).2⟩
        · intro j resources' remaining' hj
          rw [Assoc.get_erase] at hj
          split at hj
          · cases hj
          · next hne =>
              rw [← hother j hne]
              exact h.waits j resources' remaining' hj
        · intro b
          show d.refs b - resources.count b = _
          rw [h.refs b, held_erase h.nodup hget b]
          push_cast
          omega
        · rintro j b howedj ⟨resources', remaining', hj, hb⟩
          -- the ticket that is closed has nothing owed on it
          have hne : j ≠ report.1 := by
            rintro rfl
            omega
          exact ⟨resources', remaining', by rw [Assoc.get_erase, if_neg hne, hj], hb⟩

/-- Reports on several tickets. -/
theorem settleAll (h : Balanced d own owed) {reports : List (Nat × Nat)}
    (howed : ∀ j, owed j = owed' j + reported j reports) :
    ∃ d', d.settleAll reports = some d' ∧ Balanced d' own owed' ∧ d'.next = d.next ∧
      ∀ j b, 0 < owed' j → d.Holds j b → d'.Holds j b := by
  induction reports generalizing d owed with
  | nil =>
      obtain rfl : owed = owed' := funext fun j => by simpa using howed j
      exact ⟨d, rfl, h, rfl, fun _ _ _ => id⟩
  | cons report reports ih =>
      have hreport : ∀ j, owed j =
          owed' j + reported j reports + if j = report.1 then report.2 else 0 := by
        intro j
        rw [howed j, reported_cons]
        omega
      obtain ⟨d₁, hstep, h₁, hnext₁, hkeep₁⟩ := h.settle hreport
      obtain ⟨d₂, hrest, h₂, hnext₂, hkeep₂⟩ := ih h₁ fun j => rfl
      refine ⟨d₂, ?_, h₂, hnext₂.trans hnext₁, fun j b hj hb =>
        hkeep₂ j b hj (hkeep₁ j b (Nat.lt_of_lt_of_le hj (Nat.le_add_right _ _)) hb)⟩
      rw [Desk.settleAll, List.foldlM_cons, hstep]
      exact hrest

/-- Opening a ticket keeps what the others hold. -/
theorem holds_issue (h : Balanced d own owed) {b : β} (hold : d.Holds j b) :
    (d.issue resources n).Holds j b := by
  obtain ⟨resources', remaining, hget, hb⟩ := hold
  have hne : j ≠ d.next := by
    rintro rfl
    rw [(h.fresh _ (Nat.le_refl _)).1] at hget
    cases hget
  exact ⟨resources', remaining, by rw [Desk.issue, Assoc.get_set, if_neg hne, hget], hb⟩

/-- A resource of an open ticket has a reference beside the owner's own. -/
theorem refs_pos (h : Balanced d own owed) {b : β} (hold : d.Holds j b) :
    (own b : Int) < d.refs b := by
  obtain ⟨resources, remaining, hget, hb⟩ := hold
  have hcount : 0 < resources.count b := List.count_pos_iff.mpr hb
  have hle := count_le_held hget b
  rw [h.refs b]
  omega

/-- **When nobody owes a report, no ticket is open.** -/
theorem opened_eq_nil (h : Balanced d own owed) (hnone : ∀ j, owed j = 0) : d.opened = [] := by
  cases hopened : d.opened with
  | nil => rfl
  | cons ticket rest =>
      have hget := Assoc.get_of_mem h.nodup (k := ticket.1) (v := ticket.2)
        (hopened ▸ List.mem_cons_self)
      have hwaits := h.waits _ ticket.2.1 ticket.2.2 hget
      rw [hnone] at hwaits
      omega

end Balanced

end KVServe.Custody
