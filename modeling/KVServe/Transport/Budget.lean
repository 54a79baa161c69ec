import KVServe.Lib.Transition
import Mathlib

/-!
# KVServe.Transport.Budget

The **receiver staging credits** of `NcclTransport`: `_reserve_received`,
`release_received` and `set_expected_requests` with the counters they share.

A payload that does not fit is admitted past the budget when its request id is
expected by the current decode step and `_priority_request` is free. The slot is
keyed by the request id, and any release of that id frees it. `StagingInv` shows
what this is good for: as long as no other payload of the priority id is staged,
the slot marks the one payload past the budget, which bounds the staged bytes.
-/

namespace KVServe.Transport

abbrev RequestId := String

/-- The counters behind `_recv_budget_cv`. -/
structure Budget where
  capacityBytes : Nat
  reservedBytes : Nat := 0
  /-- A set. -/
  expectedRequests : List RequestId := []
  priorityRequest : Option RequestId := none
  deriving DecidableEq, Repr

namespace Budget

/-- `_recv_capacity_bytes = max(1, int(recv_buffer_size))`. -/
def ofSize (recvBufferSize : Int) : Budget := { capacityBytes := (max 1 recvBufferSize).toNat }

/-- Is the payload over the budget? An empty buffer takes any payload. -/
def blocked (b : Budget) (payloadBytes : Nat) : Bool :=
  0 < b.reservedBytes && b.capacityBytes < b.reservedBytes + payloadBytes

/-- Can a payload of this request go past the budget? -/
def canPass (b : Budget) (requestId : RequestId) : Bool :=
  requestId ∈ b.expectedRequests && b.priorityRequest.isNone

/-- One look of `_reserve_received` at the counters; `none` is `return False`, or
another round of `wait()`. -/
def reserveReceived (b : Budget) (requestId : RequestId) (payloadBytes : Nat) : Option Budget :=
  if b.blocked payloadBytes then
    if b.canPass requestId then
      some { b with
        priorityRequest := some requestId, reservedBytes := b.reservedBytes + payloadBytes }
    else none
  else some { b with reservedBytes := b.reservedBytes + payloadBytes }

/-- `release_received`; the subtraction stops at zero. -/
def releaseReceived (b : Budget) (requestId : RequestId) (payloadBytes : Nat) : Budget :=
  if payloadBytes = 0 then b
  else
    { b with
      reservedBytes := b.reservedBytes - payloadBytes
      priorityRequest := if b.priorityRequest = some requestId then none else b.priorityRequest }

def setExpectedRequests (b : Budget) (requestIds : List RequestId) : Budget :=
  { b with expectedRequests := requestIds }

variable {b b' : Budget} {requestId : RequestId} {payloadBytes : Nat}

/-- **What a reservation does**: it counts the payload, and takes the priority slot
exactly when the payload goes past the budget. -/
theorem reserveReceived_cases (h : b.reserveReceived requestId payloadBytes = some b') :
    b'.reservedBytes = b.reservedBytes + payloadBytes ∧ b'.capacityBytes = b.capacityBytes ∧
      b'.expectedRequests = b.expectedRequests ∧
      ((b.blocked payloadBytes = false ∧ b'.priorityRequest = b.priorityRequest) ∨
        (b.blocked payloadBytes = true ∧ requestId ∈ b.expectedRequests ∧
          b.priorityRequest = none ∧ b'.priorityRequest = some requestId)) := by
  unfold reserveReceived at h
  split at h
  · rename_i hblocked
    split at h
    · rename_i hpass
      obtain rfl := Option.some.inj h
      obtain ⟨hexp, hfree⟩ := Bool.and_eq_true_iff.mp hpass
      exact ⟨rfl, rfl, rfl, Or.inr ⟨hblocked, of_decide_eq_true hexp, by simpa using hfree, rfl⟩⟩
    · cases h
  · rename_i hblocked
    obtain rfl := Option.some.inj h
    exact ⟨rfl, rfl, rfl, Or.inl ⟨by simpa using hblocked, rfl⟩⟩

@[simp] theorem releaseReceived_reserved (b : Budget) (requestId : RequestId) (payloadBytes : Nat) :
    (b.releaseReceived requestId payloadBytes).reservedBytes = b.reservedBytes - payloadBytes := by
  unfold releaseReceived
  split
  · rename_i hzero
    rw [hzero, Nat.sub_zero]
  · rfl

@[simp] theorem releaseReceived_capacity (b : Budget) (requestId : RequestId) (payloadBytes : Nat) :
    (b.releaseReceived requestId payloadBytes).capacityBytes = b.capacityBytes := by
  unfold releaseReceived
  split <;> rfl

@[simp] theorem releaseReceived_expected (b : Budget) (requestId : RequestId) (payloadBytes : Nat) :
    (b.releaseReceived requestId payloadBytes).expectedRequests = b.expectedRequests := by
  unfold releaseReceived
  split <;> rfl

/-- The slot of another request survives a release. -/
theorem releaseReceived_priority_ne {other : RequestId} (h : b.priorityRequest = some other)
    (hne : other ≠ requestId) :
    (b.releaseReceived requestId payloadBytes).priorityRequest = some other := by
  unfold releaseReceived
  split
  · exact h
  · simp [h, hne]

end Budget

/-! ### Staged payloads -/

/-- A payload that is admitted and not released. -/
structure Staged where
  requestId : RequestId
  payloadBytes : Nat
  /-- Was it admitted past the budget? -/
  past : Bool
  deriving DecidableEq, Repr

/-- The budget with the payloads it accounts for, which are history. -/
structure Staging where
  budget : Budget
  staged : List Staged := []
  deriving DecidableEq, Repr

namespace Staging

inductive Action
  | reserve (requestId : RequestId) (payloadBytes : Nat)
  /-- The payload at this place of `staged` is released. -/
  | release (index : Nat)
  | setExpected (requestIds : List RequestId)
  deriving DecidableEq, Repr

/-- The step function. A refused reservation changes nothing. -/
def step (s : Staging) : Action → Option Staging
  | .reserve requestId payloadBytes =>
      match s.budget.reserveReceived requestId payloadBytes with
      | none => some s
      | some budget =>
          some { budget
                 staged := ⟨requestId, payloadBytes, s.budget.blocked payloadBytes⟩ :: s.staged }
  | .release index =>
      (s.staged[index]?).map fun x =>
        { budget := s.budget.releaseReceived x.requestId x.payloadBytes
          staged := s.staged.eraseIdx index }
  | .setExpected requestIds => some { s with budget := s.budget.setExpectedRequests requestIds }

/-- The total size of some payloads. -/
def bytes (l : List Staged) : Nat := (l.map (·.payloadBytes)).sum

/-- The payloads admitted past the budget. -/
def pastBudget (s : Staging) : List Staged := s.staged.filter (·.past)

/-- No payload is larger than `M`. -/
def Sized (M : Nat) : Action → Prop
  | .reserve _ payloadBytes => payloadBytes ≤ M
  | _ => True

/-- A payload past the budget is the only staged payload of its request: none is
admitted for a request whose payload is past the budget, and none goes past the
budget for a request that has a payload staged. -/
def Apart (s : Staging) : Action → Prop
  | .reserve requestId payloadBytes =>
      ∀ x ∈ s.staged, x.past = true ∨ s.budget.blocked payloadBytes = true →
        x.requestId ≠ requestId
  | _ => True

instance (M : Nat) : DecidablePred (Sized M)
  | .reserve _ payloadBytes => inferInstanceAs (Decidable (payloadBytes ≤ M))
  | .release _ => isTrue trivial
  | .setExpected _ => isTrue trivial

instance (s : Staging) : DecidablePred s.Apart
  | .reserve requestId payloadBytes =>
      inferInstanceAs (Decidable (∀ x ∈ s.staged, x.past = true ∨
        s.budget.blocked payloadBytes = true → x.requestId ≠ requestId))
  | .release _ => isTrue trivial
  | .setExpected _ => isTrue trivial

/-- What the staging credits promise for payloads of at most `M` bytes. -/
structure Bounded (M : Nat) (s : Staging) : Prop where
  reserved : s.budget.reservedBytes ≤ max s.budget.capacityBytes M + M
  one : s.pastBudget.length ≤ 1
  /-- The priority slot stays with the payload past the budget. -/
  priority : ∀ x ∈ s.staged, x.past = true → s.budget.priorityRequest = some x.requestId

/-- The invariant behind `Bounded`. -/
structure StagingInv (M : Nat) (s : Staging) : Prop where
  sum : s.budget.reservedBytes = bytes s.staged
  sized : ∀ x ∈ s.staged, x.payloadBytes ≤ M
  within : bytes (s.staged.filter (!·.past)) ≤ max s.budget.capacityBytes M
  apart : s.staged.Pairwise fun x y => x.past = true ∨ y.past = true → x.requestId ≠ y.requestId
  priority : ∀ x ∈ s.staged, x.past = true → s.budget.priorityRequest = some x.requestId

variable {M : Nat} {s s' : Staging} {a : Action}

theorem bytes_cons (x : Staged) (l : List Staged) : bytes (x :: l) = x.payloadBytes + bytes l := by
  simp [bytes]

theorem bytes_filter (l : List Staged) (p : Staged → Bool) :
    bytes l = bytes (l.filter p) + bytes (l.filter (!p ·)) := by
  induction l with
  | nil => rfl
  | cons x l ih =>
      rw [bytes_cons, List.filter_cons, List.filter_cons]
      cases hp : p x <;> simp [bytes_cons] <;> omega

theorem bytes_sublist {l l' : List Staged} (h : l.Sublist l') : bytes l ≤ bytes l' := by
  induction h with
  | slnil => exact Nat.le_refl _
  | cons x _ ih => rw [bytes_cons]; omega
  | cons_cons x _ ih => rw [bytes_cons, bytes_cons]; omega

theorem bytes_eraseIdx {l : List Staged} {i : Nat} {x : Staged} (h : l[i]? = some x) :
    bytes l = x.payloadBytes + bytes (l.eraseIdx i) := by
  obtain ⟨hi, rfl⟩ := List.getElem?_eq_some_iff.mp h
  rw [← bytes_cons]
  exact ((List.getElem_cons_eraseIdx_perm hi).map _).sum_eq.symm

/-- Two payloads past the budget would share the priority slot. -/
theorem StagingInv.one (h : StagingInv M s) : s.pastBudget.length ≤ 1 := by
  have hpair : s.pastBudget.Pairwise fun x y => x.requestId ≠ y.requestId := by
    have hfilter := h.apart.sublist (List.filter_sublist (p := fun x : Staged => x.past))
    refine hfilter.imp_of_mem fun hx _ hxy => hxy (Or.inl (List.mem_filter.mp hx).2)
  match hl : s.pastBudget with
  | [] => exact Nat.zero_le _
  | [x] => exact Nat.le_refl _
  | x :: y :: rest =>
      have hmem {z : Staged} (hz : z ∈ s.pastBudget) :
          s.budget.priorityRequest = some z.requestId :=
        h.priority z (List.mem_filter.mp hz).1 (List.mem_filter.mp hz).2
      have hx := hmem (z := x) (by rw [hl]; simp)
      have hy := hmem (z := y) (by rw [hl]; simp)
      rw [hl] at hpair
      exact absurd (Option.some.inj (hx.symm.trans hy)) (List.rel_of_pairwise_cons hpair (by simp))

theorem StagingInv.bounded (h : StagingInv M s) : Bounded M s where
  reserved := by
    have hpast : bytes s.pastBudget ≤ M := by
      have hone := h.one
      match hl : s.pastBudget with
      | [] => exact Nat.zero_le _
      | [x] =>
          have hx : x ∈ s.pastBudget := by rw [hl]; simp
          rw [bytes_cons]
          exact h.sized x (List.mem_filter.mp hx).1
      | x :: y :: rest =>
          rw [hl, List.length_cons, List.length_cons] at hone
          omega
    rw [h.sum, bytes_filter s.staged (·.past), ← pastBudget]
    have := h.within
    omega
  one := h.one
  priority := h.priority

theorem StagingInv.reserve (h : StagingInv M s) {requestId : RequestId} {payloadBytes : Nat}
    {budget : Budget} (hsized : payloadBytes ≤ M)
    (hapart : s.Apart (.reserve requestId payloadBytes))
    (hb : s.budget.reserveReceived requestId payloadBytes = some budget) :
    StagingInv M
      { budget
        staged := ⟨requestId, payloadBytes, s.budget.blocked payloadBytes⟩ :: s.staged } := by
  obtain ⟨hreserved, hcapacity, -, hcases⟩ := Budget.reserveReceived_cases hb
  refine ⟨?_, ?_, ?_, ?_, ?_⟩
  · dsimp only
    rw [bytes_cons, hreserved, h.sum, Nat.add_comm]
  · intro x hx
    rcases List.mem_cons.mp hx with rfl | hx
    · exact hsized
    · exact h.sized x hx
  · dsimp only
    rw [hcapacity]
    rcases hcases with ⟨hfits, -⟩ | ⟨hpast, -⟩
    · -- The buffer was empty, or everything staged fits with the payload.
      rw [hfits, List.filter_cons_of_pos (by rfl), bytes_cons]
      dsimp only
      have hsum := h.sum
      have hle := bytes_sublist (List.filter_sublist (p := fun x : Staged => !x.past) (l := s.staged))
      simp only [Budget.blocked, Bool.and_eq_false_iff, decide_eq_false_iff_not] at hfits
      omega
    · rw [hpast, List.filter_cons_of_neg (by simp)]
      exact h.within
  · refine List.pairwise_cons.mpr ⟨fun x hx hpast => ?_, h.apart⟩
    exact (hapart x hx hpast.symm).symm
  · intro x hx hpast
    rcases List.mem_cons.mp hx with rfl | hx
    · rcases hcases with ⟨hfits, -⟩ | ⟨-, -, -, hprio⟩
      · rw [hfits] at hpast; cases hpast
      · exact hprio
    · have hold := h.priority x hx hpast
      rcases hcases with ⟨-, hprio⟩ | ⟨-, -, hfree, -⟩
      · exact hprio.trans hold
      · rw [hfree] at hold; cases hold

/-- Releasing a payload: the slot is freed only by the payload it belongs to. -/
theorem StagingInv.release (h : StagingInv M s) {index : Nat} {x : Staged}
    (hx : s.staged[index]? = some x) :
    StagingInv M
      { budget := s.budget.releaseReceived x.requestId x.payloadBytes
        staged := s.staged.eraseIdx index } := by
  have hsub : (s.staged.eraseIdx index).Sublist s.staged := List.eraseIdx_sublist _ _
  refine ⟨?_, fun y hy => h.sized y (hsub.subset hy), ?_, h.apart.sublist hsub, fun y hy hpast => ?_⟩
  · rw [Budget.releaseReceived_reserved, h.sum, bytes_eraseIdx hx, Nat.add_sub_cancel_left]
  · dsimp only
    rw [Budget.releaseReceived_capacity]
    exact Nat.le_trans (bytes_sublist (hsub.filter _)) h.within
  · refine Budget.releaseReceived_priority_ne (h.priority y (hsub.subset hy) hpast) ?_
    -- Another payload of the same request would not be apart from this one.
    obtain ⟨hi, rfl⟩ := List.getElem?_eq_some_iff.mp hx
    have hperm := (List.getElem_cons_eraseIdx_perm hi).symm
    have hpair := hperm.pairwise h.apart fun hxy hor => (hxy hor.symm).symm
    exact (List.rel_of_pairwise_cons hpair hy (Or.inr hpast)).symm

/-- **One step keeps the invariant.** -/
theorem StagingInv.step (h : StagingInv M s) (hsized : Sized M a) (hapart : s.Apart a)
    (hstep : s.step a = some s') : StagingInv M s' := by
  cases a with
  | reserve requestId payloadBytes =>
      simp only [Staging.step] at hstep
      split at hstep
      · obtain rfl := Option.some.inj hstep
        exact h
      · rename_i budget hb
        obtain rfl := Option.some.inj hstep
        exact h.reserve hsized hapart hb
  | release index =>
      obtain ⟨x, hx, rfl⟩ := Option.map_eq_some_iff.mp hstep
      exact h.release hx
  | setExpected requestIds =>
      obtain rfl := Option.some.inj hstep
      exact ⟨h.sum, h.sized, h.within, h.apart, h.priority⟩

end Staging

/-- The staging credits of a transport with the given buffer size. -/
def stagingMachine (recvBufferSize : Int) : Machine Staging Staging.Action where
  init s := s = { budget := .ofSize recvBufferSize }
  step := Staging.step

/-- **The staged bytes are bounded** in every run in which a payload past the budget
is the only staged payload of its request: at most one payload is past the
budget, it keeps the priority slot until it is released, and the reserved bytes
stay below `max(capacity, M) + M`. -/
theorem staging_bounded {recvBufferSize : Int} {M : Nat} {s : Staging}
    (h : (stagingMachine recvBufferSize).ReachWith (fun s a => Staging.Sized M a ∧ s.Apart a) s) :
    s.Bounded M := by
  suffices s.StagingInv M from this.bounded
  refine Machine.invariant ?_ ?_ h
  · rintro s rfl
    exact ⟨rfl, fun x hx => (by cases hx), Nat.zero_le _, List.Pairwise.nil,
      fun x hx => (by cases hx)⟩
  · intro s a s' _ hs hok hstep
    exact hs.step hok.1 hok.2 hstep

/-- A payload for a future step holds the budget, the scheduled one passes it. -/
theorem staging_bounded_one_past :
    ∃ s : Staging, (stagingMachine 100).exec (fun s a => decide (Staging.Sized 100 a ∧ s.Apart a))
        { budget := .ofSize 100 }
        [.reserve "future" 100, .setExpected ["now"], .reserve "now" 100] = some s ∧
      s.budget.reservedBytes = 200 ∧ s.budget.priorityRequest = some "now" ∧ s.Bounded 100 := by
  let run : List Staging.Action :=
    [.reserve "future" 100, .setExpected ["now"], .reserve "now" 100]
  refine ⟨_, rfl, rfl, rfl, ?_⟩
  refine staging_bounded (.mono (fun _ _ h => of_decide_eq_true h)
    (@Machine.reachWith_of_exec _ _ (stagingMachine 100)
      (fun s a => decide (Staging.Sized 100 a ∧ s.Apart a)) _ _ run rfl rfl))

/-- Two payloads of one request: releasing the one within the budget frees the slot of
the one past it, and a second payload goes past the budget. -/
theorem staging_unbounded_shared_id :
    ¬ ∀ (recvBufferSize : Int) (M : Nat) (s : Staging),
      (stagingMachine recvBufferSize).ReachWith (fun _ a => Staging.Sized M a) s →
        s.Bounded M := by
  intro hall
  let run : List Staging.Action :=
    [.setExpected ["r", "x"], .reserve "r" 50, .reserve "future" 50, .reserve "r" 100,
     .release 2, .reserve "x" 100]
  let s := ((stagingMachine 100).exec (fun _ a => decide (Staging.Sized 100 a))
    { budget := .ofSize 100 } run).get (by decide)
  have hreach : (stagingMachine 100).ReachWith (fun _ a => Staging.Sized 100 a) s :=
    (Machine.reachWith_of_exec (p := fun _ a => decide (Staging.Sized 100 a)) rfl
      (Option.some_get _).symm).mono fun _ _ h => of_decide_eq_true h
  have hreserved : s.budget.reservedBytes = 250 := by decide
  have hbound := (hall 100 100 s hreach).reserved
  rw [hreserved] at hbound
  exact absurd hbound (by decide)

end KVServe.Transport
