import Mathlib.Algebra.BigOperators.Group.List.Basic
import Mathlib.Data.List.Nodup
import KVServe.Transport.Delivery

/-!
# KVServe.Transport.Accounting

The **send counters under every interleaving**: `_send_pending_bytes` and
`_send_inflight` as the callers of `send`, the send thread, the completion thread
and the waiters change and read them.

The steps are those of the locks. Between taking an item and giving it up
the send thread holds it through the calls of `_send_one`, and `returned` is
what they came to; the completion thread holds one item while it waits for its
event. An exception may end any call. The answer of the consumer is any of the
three. `_record_stat` does not raise.

A waiter of `wait_for_sent` is the list of the items sent before its call, which is
history.
-/

namespace KVServe.Transport

variable {D V : Type}

/-- What `_send_one` or `_send_bundle_one` comes to for the item in hand. -/
inductive Returned
  /-- `_SEND_RETRY`. -/
  | retry
  /-- `None`: the consumer has refused the payload. -/
  | refused
  /-- The completion events. -/
  | completion
  | raised

namespace SendAt

/-- The item the send thread holds. -/
def held : SendAt D V → List (Item D V)
  | .idle => []
  | .awaiting item | .submitting item _ => [item]

@[simp] theorem held_idle : (.idle : SendAt D V).held = [] := rfl

@[simp] theorem held_awaiting (item : Item D V) : (SendAt.awaiting item).held = [item] := rfl

@[simp] theorem held_submitting (item : Item D V) (left : List (LoadedTensor D V)) :
    (SendAt.submitting item left).held = [item] := rfl

theorem held_ne_nil {thread : SendAt D V} (h : thread ≠ .idle) : ∃ item, thread.held = [item] := by
  cases thread with
  | idle => exact absurd rfl h
  | awaiting item => exact ⟨item, rfl⟩
  | submitting item left => exact ⟨item, rfl⟩

end SendAt

structure Sending (D V : Type) where
  sender : Sender D V := {}
  /-- The result the send thread has yet to deal with. -/
  returned : Option Returned := none
  /-- The item whose event the completion thread waits for. -/
  retiring : Option (Item D V) := none
  sentWaiters : List (List (Item D V)) := []
  belowWaiters : List Int := []

namespace Sending

inductive Action (D V : Type)
  /-- `send` or `send_bundle`. -/
  | send (requestId : RequestId) (layerNames : List String) (payload : Payload (LoadedTensor D V))
      (sized : ∀ t ∈ payload.tensors, t.2.length = t.1.numel)
  /-- The send thread takes an item. -/
  | pop
  | recvAck (ack : Ack)
  | ncclSend
  /-- The completion event of the item in hand is recorded. -/
  | submitted
  /-- An exception in `_send_one` or `_send_bundle_one`. -/
  | raises
  /-- `_send_loop` deals with the result. -/
  | dispatch
  /-- `_send_completion_loop` takes an item. -/
  | take
  /-- Its event is complete, or waiting for it raised. -/
  | retire
  /-- A call of `wait_for_sent`. -/
  | waitForSent
  /-- The `k`-th waiter returns. -/
  | sentReturns (k : Nat)
  /-- A call of `wait_for_below`. -/
  | waitForBelow (maxPendingBytes : Int)
  | belowReturns (k : Nat)

/-- The step that ends the iteration of `_send_loop` with `item`. -/
def dispatched (torch : Torch D) (s : Sender D V) (item : Item D V) : Returned → Sender D V
  | .retry => s.requeue item
  | .refused | .raised => { s.finishSendItem torch item with thread := .idle }
  | .completion => { s with thread := .idle, completions := s.completions ++ [item] }

def step (torch : Torch D) (s : Sending D V) : Action D V → Option (Sending D V)
  | .send requestId layerNames payload sized =>
      some { s with sender := s.sender.enqueue torch ⟨s.sender.sent.length, requestId, layerNames,
        payload, sized⟩ }
  | .pop =>
      match s.sender.thread, s.sender.queue with
      | .idle, item :: rest =>
          some { s with sender := { s.sender with
            queue := rest, thread := .awaiting item, inflight := s.sender.inflight + 1 } }
      | _, _ => none
  | .recvAck ack =>
      match s.sender.thread, s.returned with
      | .awaiting item, none =>
          match ack with
          | .ok =>
              some { s with sender := { s.sender with
                thread := .submitting item item.payload.loadedOnStream } }
          | .oom => some { s with returned := some .refused }
          | .retry => some { s with returned := some .retry }
      | _, _ => none
  | .ncclSend =>
      match s.sender.thread, s.returned with
      | .submitting item (t :: left), none =>
          match torch.call? t.1 with
          | some _ => some { s with sender := { s.sender with thread := .submitting item left } }
          -- `ncclDataTypeEnum.from_torch` raises.
          | none => some { s with returned := some .raised }
      | _, _ => none
  | .submitted =>
      match s.sender.thread, s.returned with
      | .submitting _ [], none => some { s with returned := some .completion }
      | _, _ => none
  | .raises =>
      match s.sender.thread, s.returned with
      | .awaiting _, none | .submitting _ _, none => some { s with returned := some .raised }
      | _, _ => none
  | .dispatch =>
      match s.sender.thread.held, s.returned with
      | [item], some result =>
          some { s with sender := dispatched torch s.sender item result, returned := none }
      | _, _ => none
  | .take =>
      match s.retiring, s.sender.completions with
      | none, item :: rest =>
          some { s with sender := { s.sender with completions := rest }, retiring := some item }
      | _, _ => none
  | .retire =>
      match s.retiring with
      | some item => some { s with sender := s.sender.finishSendItem torch item, retiring := none }
      | none => none
  | .waitForSent => some { s with sentWaiters := s.sentWaiters ++ [s.sender.sent] }
  | .sentReturns k =>
      -- `while self._send_queue or self._send_inflight`
      if k < s.sentWaiters.length ∧ s.sender.queue.isEmpty ∧ s.sender.inflight = 0 then
        some { s with sentWaiters := s.sentWaiters.eraseIdx k }
      else none
  | .waitForBelow maxPendingBytes =>
      some { s with belowWaiters := s.belowWaiters ++ [maxPendingBytes] }
  | .belowReturns k =>
      match s.belowWaiters[k]? with
      | some maxPendingBytes =>
          if maxPendingBytes < s.sender.pendingBytes then none
          else some { s with belowWaiters := s.belowWaiters.eraseIdx k }
      | none => none

/-- The items taken from the queue and not yet finished or requeued. -/
def taken (s : Sending D V) : List (Item D V) :=
  s.sender.thread.held ++ s.sender.completions ++ s.retiring.toList

/-- The items that are queued, being submitted or awaiting completion. -/
def outstanding (s : Sending D V) : List (Item D V) := s.sender.queue ++ s.taken

/-- A step of the send thread or of the completion thread. -/
def Action.ofThread : Action D V → Bool
  | .pop | .recvAck _ | .ncclSend | .submitted | .raises | .dispatch | .take | .retire => true
  | _ => false

/-- A step of a thread that does not put an item back into the queue. -/
def advances (s : Sending D V) (a : Action D V) : Bool :=
  a.ofThread && match a, s.returned with
    | .dispatch, some .retry => false
    | _, _ => true

/-- The steps of the send thread with its item, at most. -/
def handWork : SendAt D V → Option Returned → Nat
  | .idle, _ => 0
  | _, some _ => 3
  | .awaiting item, none => item.payload.loadedOnStream.length + 5
  | .submitting _ left, none => left.length + 4

/-- The steps that are left for the two threads, at most, unless an item is put back. -/
def work (s : Sending D V) : Nat :=
  (s.sender.queue.map fun item => item.payload.loadedOnStream.length + 6).sum
    + handWork s.sender.thread s.returned + 2 * s.sender.completions.length
    + s.retiring.toList.length

/-- What a step can do, said once. A call of `_send_one` keeps the item in hand. -/
inductive Steps (torch : Torch D) (s : Sending D V) : Action D V → Sending D V → Prop
  | sends {requestId : RequestId} {layerNames : List String} {payload : Payload (LoadedTensor D V)}
      {sized : ∀ t ∈ payload.tensors, t.2.length = t.1.numel} :
      Steps torch s (.send requestId layerNames payload sized)
        { s with sender := s.sender.enqueue torch ⟨s.sender.sent.length, requestId, layerNames,
          payload, sized⟩ }
  | pops {item : Item D V} {rest : List (Item D V)} (hthread : s.sender.thread = .idle)
      (hqueue : s.sender.queue = item :: rest) :
      Steps torch s .pop
        { s with sender := { s.sender with
          queue := rest, thread := .awaiting item, inflight := s.sender.inflight + 1 } }
  | calls {a : Action D V} {item : Item D V} {thread : SendAt D V} {returned : Option Returned}
      (hcall : a.ofThread) (hbefore : s.sender.thread.held = [item])
      (hafter : thread.held = [item])
      (hless : handWork thread returned < handWork s.sender.thread s.returned) :
      Steps torch s a { s with sender := { s.sender with thread }, returned }
  | dispatches {item : Item D V} {result : Returned} (hheld : s.sender.thread.held = [item])
      (hreturned : s.returned = some result) :
      Steps torch s .dispatch
        { s with sender := dispatched torch s.sender item result, returned := none }
  | takes {item : Item D V} {rest : List (Item D V)} (hretiring : s.retiring = none)
      (hcompletions : s.sender.completions = item :: rest) :
      Steps torch s .take
        { s with sender := { s.sender with completions := rest }, retiring := some item }
  | retires {item : Item D V} (hretiring : s.retiring = some item) :
      Steps torch s .retire
        { s with sender := s.sender.finishSendItem torch item, retiring := none }
  | waits : Steps torch s .waitForSent
      { s with sentWaiters := s.sentWaiters ++ [s.sender.sent] }
  | sentReturns {k : Nat} (hk : k < s.sentWaiters.length) (hqueue : s.sender.queue = [])
      (hinflight : s.sender.inflight = 0) :
      Steps torch s (.sentReturns k) { s with sentWaiters := s.sentWaiters.eraseIdx k }
  | waitsBelow {maxPendingBytes : Int} : Steps torch s (.waitForBelow maxPendingBytes)
      { s with belowWaiters := s.belowWaiters ++ [maxPendingBytes] }
  | belowReturns {k : Nat} {maxPendingBytes : Int} (hk : s.belowWaiters[k]? = some maxPendingBytes)
      (hbelow : s.sender.pendingBytes ≤ maxPendingBytes) :
      Steps torch s (.belowReturns k) { s with belowWaiters := s.belowWaiters.eraseIdx k }

variable {torch : Torch D} {s s' : Sending D V} {a : Action D V}

/-- **Inversion of the step function.** -/
theorem step_cases (h : s.step torch a = some s') : Steps torch s a s' := by
  unfold step at h
  split at h
  · obtain rfl := Option.some.inj h
    exact .sends
  · split at h
    · rename_i item rest hthread hqueue
      obtain rfl := Option.some.inj h
      exact .pops hthread hqueue
    · cases h
  · split at h
    · rename_i item hthread hreturned
      have hbefore : s.sender.thread.held = [item] := by rw [hthread]; rfl
      split at h
      · obtain rfl := Option.some.inj h
        exact .calls rfl hbefore rfl (by simp [handWork, hthread, hreturned])
      · obtain rfl := Option.some.inj h
        exact .calls rfl hbefore hbefore (by simp [handWork, hthread, hreturned])
      · obtain rfl := Option.some.inj h
        exact .calls rfl hbefore hbefore (by simp [handWork, hthread, hreturned])
    · cases h
  · split at h
    · rename_i item t left hthread hreturned
      have hbefore : s.sender.thread.held = [item] := by rw [hthread]; rfl
      split at h
      · obtain rfl := Option.some.inj h
        exact .calls rfl hbefore rfl (by simp [handWork, hthread, hreturned])
      · obtain rfl := Option.some.inj h
        exact .calls rfl hbefore hbefore (by simp [handWork, hthread, hreturned])
    · cases h
  · split at h
    · rename_i item hthread hreturned
      have hbefore : s.sender.thread.held = [item] := by rw [hthread]; rfl
      obtain rfl := Option.some.inj h
      exact .calls rfl hbefore hbefore (by simp [handWork, hthread, hreturned])
    · cases h
  · split at h
    · rename_i item hthread hreturned
      have hbefore : s.sender.thread.held = [item] := by rw [hthread]; rfl
      obtain rfl := Option.some.inj h
      exact .calls rfl hbefore hbefore (by simp [handWork, hthread, hreturned])
    · rename_i item left hthread hreturned
      have hbefore : s.sender.thread.held = [item] := by rw [hthread]; rfl
      obtain rfl := Option.some.inj h
      exact .calls rfl hbefore hbefore (by simp [handWork, hthread, hreturned])
    · cases h
  · split at h
    · rename_i item result hheld hreturned
      obtain rfl := Option.some.inj h
      exact .dispatches hheld hreturned
    · cases h
  · split at h
    · rename_i item rest hretiring hcompletions
      obtain rfl := Option.some.inj h
      exact .takes hretiring hcompletions
    · cases h
  · split at h
    · rename_i item hretiring
      obtain rfl := Option.some.inj h
      exact .retires hretiring
    · cases h
  · obtain rfl := Option.some.inj h
    exact .waits
  · split at h
    · rename_i hguard
      obtain ⟨hk, hqueue, hinflight⟩ := hguard
      obtain rfl := Option.some.inj h
      exact .sentReturns hk (List.isEmpty_iff.mp hqueue) hinflight
    · cases h
  · obtain rfl := Option.some.inj h
    exact .waitsBelow
  · split at h
    · rename_i maxPendingBytes hk
      split at h
      · cases h
      · rename_i hbelow
        obtain rfl := Option.some.inj h
        exact .belowReturns hk (by omega)
    · cases h

end Sending

/-- The producer side of a connection. -/
def sendingMachine (torch : Torch D) : Machine (Sending D V) (Sending.Action D V) where
  init s := s = {}
  step := Sending.step torch

/-! ### The accounts -/

/-- Requeueing adds the item and nothing else. -/
theorem Sender.insertBefore_perm (item : Item D V) (queue : List (Item D V)) :
    (Sender.insertBefore item queue).Perm (item :: queue) := by
  induction queue with
  | nil => exact .refl _
  | cons queued rest ih =>
      rw [Sender.insertBefore]
      split
      · exact .refl _
      · exact (ih.cons queued).trans (.swap item queued rest)

/-- **The accounts of the sender.** Every item sent is in one place, and the counters are
what the places hold. -/
structure SendingInv (torch : Torch D) (s : Sending D V) : Prop where
  sent : (s.outstanding ++ s.sender.finished).Perm s.sender.sent
  serials : s.sender.sent.map (·.serial) = List.range s.sender.sent.length
  pending : s.sender.pendingBytes = ((s.outstanding.map (·.payloadBytes torch)).sum : Nat)
  inflight : s.sender.inflight = s.taken.length
  returned : s.returned.isSome → s.sender.thread ≠ .idle
  waiters : ∀ items ∈ s.sentWaiters, items ⊆ s.sender.sent

namespace SendingInv

open Sending

variable {torch : Torch D} {s s' : Sending D V} {a : Sending.Action D V}

/-- A step that moves an unfinished item. -/
theorem move (h : SendingInv torch s) (houtstanding : s'.outstanding.Perm s.outstanding)
    (hsent : s'.sender.sent = s.sender.sent) (hfinished : s'.sender.finished = s.sender.finished)
    (hpending : s'.sender.pendingBytes = s.sender.pendingBytes)
    (hinflight : s'.sender.inflight = s'.taken.length)
    (hreturned : s'.returned.isSome → s'.sender.thread ≠ .idle)
    (hwaiters : s'.sentWaiters = s.sentWaiters) : SendingInv torch s' where
  sent := by
    rw [hsent, hfinished]
    exact (houtstanding.append_right _).trans h.sent
  serials := by rw [hsent]; exact h.serials
  pending := by rw [hpending, h.pending, (houtstanding.map _).sum_eq]
  inflight := hinflight
  returned := hreturned
  waiters := by rw [hwaiters, hsent]; exact h.waiters

/-- A step that finishes an item. -/
theorem finish (h : SendingInv torch s) (item : Item D V)
    (houtstanding : s.outstanding.Perm (item :: s'.outstanding))
    (hsent : s'.sender.sent = s.sender.sent)
    (hfinished : s'.sender.finished = s.sender.finished ++ [item])
    (hpending : s'.sender.pendingBytes = s.sender.pendingBytes - item.payloadBytes torch)
    (hinflight : s'.sender.inflight = s'.taken.length)
    (hreturned : s'.returned.isSome → s'.sender.thread ≠ .idle)
    (hwaiters : s'.sentWaiters = s.sentWaiters) : SendingInv torch s' where
  sent := by
    rw [hsent, hfinished]
    refine List.Perm.trans ?_ h.sent
    refine List.Perm.trans ?_ (houtstanding.append_right _).symm
    rw [← List.append_assoc]
    exact List.perm_append_singleton item _
  serials := by rw [hsent]; exact h.serials
  pending := by
    have hsum := (houtstanding.map (·.payloadBytes torch)).sum_eq
    rw [List.map_cons, List.sum_cons] at hsum
    rw [hpending, h.pending, hsum]
    push_cast
    omega
  inflight := hinflight
  returned := hreturned
  waiters := by rw [hwaiters, hsent]; exact h.waiters

/-- `send` and `send_bundle`. -/
theorem enqueue (h : SendingInv torch s) {item : Item D V}
    (hserial : item.serial = s.sender.sent.length) :
    SendingInv torch { s with sender := s.sender.enqueue torch item } where
  sent := by
    have hmove : ((s.sender.queue ++ [item]) ++ s.taken ++ s.sender.finished).Perm
        ((s.outstanding ++ s.sender.finished) ++ [item]) := by
      simp only [outstanding, List.append_assoc]
      exact (List.perm_append_comm.append_left _).trans (by simp)
    exact hmove.trans (h.sent.append_right [item])
  serials := by
    simp only [Sender.enqueue, List.map_append, h.serials, List.map_cons, List.map_nil, hserial,
      List.length_append, List.length_cons, List.length_nil, List.range_succ]
  pending := by
    simp only [Sender.enqueue, h.pending, outstanding, taken, List.map_append, List.sum_append,
      List.map_cons, List.map_nil, List.sum_cons, List.sum_nil]
    push_cast
    omega
  inflight := h.inflight
  returned := h.returned
  waiters := fun items hitems _ hitem => List.mem_append_left _ (h.waiters items hitems hitem)

/-- The send thread takes the first item of the queue. -/
theorem pop (h : SendingInv torch s) {item : Item D V} {rest : List (Item D V)}
    (hthread : s.sender.thread = .idle) (hqueue : s.sender.queue = item :: rest) :
    SendingInv torch { s with sender := { s.sender with
      queue := rest, thread := .awaiting item, inflight := s.sender.inflight + 1 } } := by
  have hinflight := h.inflight
  simp only [taken, hthread, SendAt.held_idle, List.nil_append] at hinflight
  refine h.move ?_ rfl rfl rfl ?_ (fun _ => by simp) rfl
  · show (rest ++ ([item] ++ s.sender.completions ++ s.retiring.toList)).Perm s.outstanding
    rw [outstanding, taken, hthread, hqueue, List.append_assoc, List.singleton_append]
    exact List.perm_middle
  · simp [taken, hinflight]

/-- A call of `_send_one`. -/
theorem call (h : SendingInv torch s) {item : Item D V} {thread : SendAt D V}
    {returned : Option Returned} (hbefore : s.sender.thread.held = [item])
    (hafter : thread.held = [item]) :
    SendingInv torch { s with sender := { s.sender with thread }, returned } := by
  have htaken : taken { s with sender := { s.sender with thread }, returned } = s.taken := by
    simp only [taken, hbefore, hafter]
  refine h.move ?_ rfl rfl rfl ?_ (fun _ hidle => ?_) rfl
  · rw [outstanding, htaken]
    exact .refl _
  · rw [htaken]
    exact h.inflight
  · rw [show thread = .idle from hidle] at hafter
    cases hafter

/-- The item in hand goes back into the queue. -/
theorem requeue (h : SendingInv torch s) {item : Item D V} (hheld : s.sender.thread.held = [item]) :
    SendingInv torch { s with sender := s.sender.requeue item, returned := none } := by
  have hinflight := h.inflight
  simp only [taken, hheld] at hinflight
  refine h.move ?_ rfl rfl rfl ?_ (fun hsome => by cases hsome) rfl
  · show (Sender.insertBefore item s.sender.queue ++
      (s.sender.completions ++ s.retiring.toList)).Perm s.outstanding
    rw [outstanding, taken, hheld, List.append_assoc, List.singleton_append]
    exact ((Sender.insertBefore_perm item s.sender.queue).append_right _).trans List.perm_middle.symm
  · simp [Sender.requeue, taken, hinflight]

/-- The item in hand is finished. -/
theorem giveUp (h : SendingInv torch s) {item : Item D V} (hheld : s.sender.thread.held = [item]) :
    SendingInv torch { s with
      sender := { s.sender.finishSendItem torch item with thread := .idle }, returned := none } := by
  have hinflight := h.inflight
  simp only [taken, hheld] at hinflight
  refine h.finish item ?_ rfl rfl rfl ?_ (fun hsome => by cases hsome) rfl
  · rw [outstanding, taken, hheld, List.append_assoc, List.singleton_append]
    exact List.perm_middle
  · simp [Sender.finishSendItem, taken, hinflight]

/-- The item in hand waits for its event. -/
theorem complete (h : SendingInv torch s) {item : Item D V}
    (hheld : s.sender.thread.held = [item]) :
    SendingInv torch { s with
      sender := { s.sender with thread := .idle, completions := s.sender.completions ++ [item] }
      returned := none } := by
  have hinflight := h.inflight
  simp only [taken, hheld] at hinflight
  refine h.move ?_ rfl rfl rfl ?_ (fun hsome => by cases hsome) rfl
  · show (s.sender.queue ++ ([] ++ (s.sender.completions ++ [item]) ++ s.retiring.toList)).Perm
      s.outstanding
    rw [outstanding, taken, hheld, List.nil_append]
    exact (List.perm_append_comm.append_right _).append_left _
  · simp [taken, hinflight]
    omega

/-- The completion thread takes the first item that waits. -/
theorem take (h : SendingInv torch s) {item : Item D V} {rest : List (Item D V)}
    (hretiring : s.retiring = none) (hcompletions : s.sender.completions = item :: rest) :
    SendingInv torch
      { s with sender := { s.sender with completions := rest }, retiring := some item } := by
  have hinflight := h.inflight
  simp only [taken, hretiring, hcompletions] at hinflight
  refine h.move ?_ rfl rfl rfl ?_ h.returned rfl
  · show (s.sender.queue ++ (s.sender.thread.held ++ rest ++ [item])).Perm s.outstanding
    rw [outstanding, taken, hretiring, hcompletions, Option.toList_none, List.append_nil,
      List.append_assoc]
    exact ((List.perm_append_singleton item rest).append_left _).append_left _
  · simp only [taken, hinflight, List.length_append, List.length_cons, Option.toList_some,
      Option.toList_none, List.length_nil]
    omega

/-- The completion thread finishes its item. -/
theorem retire (h : SendingInv torch s) {item : Item D V} (hretiring : s.retiring = some item) :
    SendingInv torch
      { s with sender := s.sender.finishSendItem torch item, retiring := none } := by
  have hinflight := h.inflight
  simp only [taken, hretiring] at hinflight
  refine h.finish item ?_ rfl rfl rfl ?_ h.returned rfl
  · show s.outstanding.Perm
      (item :: (s.sender.queue ++ (s.sender.thread.held ++ s.sender.completions ++ [])))
    rw [outstanding, taken, hretiring, Option.toList_some, List.append_nil, ← List.append_assoc]
    exact List.perm_append_singleton item _
  · simp only [Sender.finishSendItem, taken, hinflight, List.length_append, List.length_cons,
      Option.toList_some, Option.toList_none, List.length_nil]
    omega

/-- **Every step keeps the accounts.** -/
theorem step (h : SendingInv torch s) (hstep : s.step torch a = some s') : SendingInv torch s' := by
  cases step_cases hstep with
  | sends => exact h.enqueue rfl
  | pops hthread hqueue => exact h.pop hthread hqueue
  | calls hcall hbefore hafter hless => exact h.call hbefore hafter
  | @dispatches item result hheld hreturned =>
      cases result with
      | retry => exact h.requeue hheld
      | refused => exact h.giveUp hheld
      | completion => exact h.complete hheld
      | raised => exact h.giveUp hheld
  | takes hretiring hcompletions => exact h.take hretiring hcompletions
  | retires hretiring => exact h.retire hretiring
  -- A waiter changes no counter.
  | waits =>
      refine ⟨h.sent, h.serials, h.pending, h.inflight, h.returned, fun items hitems => ?_⟩
      rcases List.mem_append.mp hitems with hold | hnew
      · exact h.waiters items hold
      · rw [List.mem_singleton.mp hnew]
        exact fun _ hitem => hitem
  | sentReturns hk hqueue hinflight =>
      exact ⟨h.sent, h.serials, h.pending, h.inflight, h.returned,
        fun items hitems => h.waiters items (List.mem_of_mem_eraseIdx hitems)⟩
  | waitsBelow => exact ⟨h.sent, h.serials, h.pending, h.inflight, h.returned, h.waiters⟩
  | belowReturns hk hbelow =>
      exact ⟨h.sent, h.serials, h.pending, h.inflight, h.returned, h.waiters⟩

theorem init : SendingInv torch ({} : Sending D V) where
  sent := .refl _
  serials := rfl
  pending := rfl
  inflight := rfl
  returned := by rintro ⟨⟩
  waiters := by rintro items ⟨⟩

theorem of_reachable (h : (sendingMachine torch).Reachable s) : SendingInv torch s := by
  refine Machine.invariant (fun s hs => ?_) (fun s a t _ hinv _ hstep => hinv.step hstep) h
  rw [show s = {} from hs]
  exact init

/-- **As long as an item is outstanding a thread has a step.** -/
theorem progress (h : SendingInv torch s) (hsome : s.outstanding ≠ []) :
    ∃ a : Sending.Action D V, a.ofThread ∧ (s.step torch a).isSome := by
  cases hretiring : s.retiring with
  | some item => exact ⟨.retire, rfl, by simp [Sending.step, hretiring]⟩
  | none =>
      cases hcompletions : s.sender.completions with
      | cons item rest => exact ⟨.take, rfl, by simp [Sending.step, hretiring, hcompletions]⟩
      | nil =>
          cases hreturned : s.returned with
          | some result =>
              obtain ⟨item, hheld⟩ := SendAt.held_ne_nil (h.returned (by rw [hreturned]; rfl))
              exact ⟨.dispatch, rfl, by simp [Sending.step, hheld, hreturned]⟩
          | none =>
              cases hthread : s.sender.thread with
              | idle =>
                  cases hqueue : s.sender.queue with
                  | nil => simp [outstanding, taken, hretiring, hcompletions, hthread, hqueue] at hsome
                  | cons item rest => exact ⟨.pop, rfl, by simp [Sending.step, hthread, hqueue]⟩
              | awaiting item =>
                  exact ⟨.recvAck .ok, rfl, by simp [Sending.step, hthread, hreturned]⟩
              | submitting item left =>
                  cases left with
                  | nil => exact ⟨.submitted, rfl, by simp [Sending.step, hthread, hreturned]⟩
                  | cons t left =>
                      refine ⟨.ncclSend, rfl, ?_⟩
                      cases hcall : torch.call? t.1 <;>
                        simp [Sending.step, hthread, hreturned, hcall]

end SendingInv

namespace Sending

variable {torch : Torch D} {s s' : Sending D V} {a : Action D V}

end Sending

/-! ### The sender of a connection -/

/-- Runs of the connection are runs of its sender: a step of `Link` is at most two here. -/
theorem Link.sending_path {torch : Torch D} {s s' : Link D V} {a : Link.Action D V}
    (h : s.step torch a = some s') :
    (sendingMachine torch).Path (fun _ _ => True) { sender := s.sender } { sender := s'.sender } := by
  have one : ∀ {s t : Sending D V} (a : Sending.Action D V), s.step torch a = some t →
      (sendingMachine torch).Path (fun _ _ => True) s t :=
    fun _ hstep => Machine.Path.refl.step trivial hstep
  cases Link.step_cases h with
  | sends => exact one (.send _ _ _ ‹_›) rfl
  | pops hthread hqueue => exact one .pop (by simp [Sending.step, hthread, hqueue])
  | @acks item ack rest hthread hacks =>
      cases ack with
      | ok => exact one (.recvAck .ok) (by simp [Sending.step, hthread, Sender.acked])
      | oom =>
          exact (one (.recvAck .oom) (by simp [Sending.step, hthread]; rfl)).trans
            (one .dispatch (by simp [Sending.step, hthread, Sending.dispatched, Sender.acked]))
      | retry =>
          exact (one (.recvAck .retry) (by simp [Sending.step, hthread]; rfl)).trans
            (one .dispatch (by simp [Sending.step, hthread, Sending.dispatched, Sender.acked]))
  | ncclSends hthread hcall => exact one .ncclSend (by simp [Sending.step, hthread, hcall])
  | sendRefused hthread hcall =>
      exact (one .ncclSend (by simp [Sending.step, hthread, hcall]; rfl)).trans
        (one .dispatch (by simp [Sending.step, hthread, Sending.dispatched]))
  | submits hthread =>
      exact (one .submitted (by simp [Sending.step, hthread]; rfl)).trans
        (one .dispatch (by simp [Sending.step, hthread, Sending.dispatched]))
  | sendRaises hthread =>
      rcases hthread with hthread | ⟨left, hthread⟩
      · exact (one .raises (by simp [Sending.step, hthread]; rfl)).trans
          (one .dispatch (by simp [Sending.step, hthread, Sending.dispatched]))
      · exact (one .raises (by simp [Sending.step, hthread]; rfl)).trans
          (one .dispatch (by simp [Sending.step, hthread, Sending.dispatched]))
  | retires hcompletions =>
      exact (one .take (by simp [Sending.step, hcompletions]; rfl)).trans
        (one .retire (by simp [Sending.step]; rfl))
  | retries | rejects | accepts | ncclRecvs | recvRefused | posts | publishes | receiveRaises
  | drains => exact .refl

/-- **The counters of a connection's sender** are those of its items. -/
theorem Link.sendingInv {torch : Torch D} {s : Link D V} (h : (linkMachine torch).Reachable s) :
    SendingInv torch { sender := s.sender } := by
  refine SendingInv.of_reachable (Machine.invariant (M := linkMachine torch)
    (I := fun s => (sendingMachine torch).Reachable { sender := s.sender }) ?_ ?_ h)
  · rintro s rfl
    exact Machine.ReachWith.of_init rfl
  · rintro s a s' - ⟨s₀, hinit, hpath⟩ - hstep
    exact ⟨s₀, hinit, hpath.trans (Link.sending_path hstep)⟩

/-! ### Every run -/

namespace Sending

/-- **The accounts of the sender.** -/
structure Accounted (torch : Torch D) (s : Sending D V) : Prop where
  /-- `_send_pending_bytes`. -/
  pending : s.sender.pendingBytes = ((s.outstanding.map (·.payloadBytes torch)).sum : Nat)
  pending_nonneg : 0 ≤ s.sender.pendingBytes
  /-- `_send_inflight`. -/
  inflight : s.sender.inflight = s.taken.length
  inflight_nonneg : 0 ≤ s.sender.inflight
  /-- The sent items are told apart. -/
  serials : s.sender.sent.map (·.serial) = List.range s.sender.sent.length
  /-- Every sent item is queued, taken or finished: one of them, and once. -/
  places : (s.sender.queue ++ s.taken ++ s.sender.finished).Perm s.sender.sent
  /-- A sent item that is neither queued nor taken has been finished exactly once, and one
  that is has not been finished. -/
  once : ∀ item ∈ s.sender.sent, s.outstanding.countP (·.serial = item.serial) +
    s.sender.finished.countP (·.serial = item.serial) = 1
  /-- As long as an item is not finished one of the threads has a step. -/
  progress : s.outstanding ≠ [] → ∃ a : Action D V, a.ofThread ∧ (s.step torch a).isSome
  /-- Their steps come to an end unless the consumer keeps refusing. -/
  short : ∀ as t, (sendingMachine torch).exec advances s as = some t → as.length ≤ s.work
  /-- `wait_for_sent`. -/
  returns : ∀ k items, s.sentWaiters[k]? = some items → (s.step torch (.sentReturns k)).isSome →
    ∀ item ∈ items, s.sender.finished.countP (·.serial = item.serial) = 1

end Sending

namespace Sending

end Sending

end KVServe.Transport
