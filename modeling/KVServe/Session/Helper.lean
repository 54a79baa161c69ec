import KVServe.Session.ConsumerSlots
import KVServe.Session.ProducerSlots

/-!
# KVServe.Session.Helper

**One helper process** (`_SessionService.run`): the producer half if
`needs_sender`, the consumer half if `needs_receiver`, over one list of slot
buffers, and one `_shutdown` for both.

Both halves fill their slot queue with `range(len(slot_addresses))`, so a slot
id names the same buffers in both. Each half conserves its own queue; nothing
keeps the two apart.
-/

namespace KVServe.Session

structure Helper where
  producer : Producer
  consumer : Consumer

namespace Helper

def start (init : InitMessage) : Helper :=
  { producer := .start init, consumer := .start init }

inductive Action
  | producer (a : Producer.Action)
  | consumer (a : Consumer.Action)
  | shutdown
  deriving DecidableEq

/-- `_shutdown` is the one action of both halves; `stop` only sets `_stopping`. -/
def step (init : InitMessage) (s : Helper) : Action → Option Helper
  | .producer a =>
      if (init.needsSender ∨ a = .stop) ∧ a ≠ .shutdown then
        (s.producer.step a).map fun producer => { s with producer }
      else none
  | .consumer a =>
      if init.needsReceiver ∧ a ≠ .shutdown then
        (s.consumer.step a).map fun consumer => { s with consumer }
      else none
  | .shutdown => do
      let producer ← s.producer.step .shutdown
      let consumer ← s.consumer.step .shutdown
      return { producer, consumer }

/-- No `CancelledError` strikes inside a drain or a `finally` block. -/
def CleanCancel (s : Helper) : Action → Prop
  | .producer a => s.producer.CleanCancel a
  | .consumer a => s.consumer.CleanCancel a
  | .shutdown => True

end Helper

def helperMachine (init : InitMessage) : Machine Helper Helper.Action where
  init s := s = .start init
  step := Helper.step init

namespace Helper

variable {init : InitMessage} {s s' : Helper} {a : Action}

/-- **Inversion of a step**: one half moves, or both shut down. -/
theorem step_cases (h : s.step init a = some s') :
    (∃ b, a = .producer b ∧ (init.needsSender = true ∨ b = .stop) ∧
      s.producer.step b = some s'.producer ∧ s'.consumer = s.consumer) ∨
    (∃ b, a = .consumer b ∧ init.needsReceiver = true ∧ s.consumer.step b = some s'.consumer ∧
      s'.producer = s.producer) ∨
    (a = .shutdown ∧ s.producer.step .shutdown = some s'.producer ∧
      s.consumer.step .shutdown = some s'.consumer) := by
  cases a with
  | producer b =>
      simp only [step] at h
      split at h
      · rename_i hguard
        obtain ⟨producer, hstep, rfl⟩ := Option.map_eq_some_iff.mp h
        exact Or.inl ⟨b, rfl, hguard.1, hstep, rfl⟩
      · cases h
  | consumer b =>
      simp only [step] at h
      split at h
      · rename_i hguard
        obtain ⟨consumer, hstep, rfl⟩ := Option.map_eq_some_iff.mp h
        exact Or.inr (Or.inl ⟨b, rfl, hguard.1, hstep, rfl⟩)
      · cases h
  | shutdown =>
      simp only [step] at h
      cases hp : s.producer.step .shutdown with
      | none => simp [hp] at h
      | some producer =>
          cases hc : s.consumer.step .shutdown with
          | none => simp [hp, hc] at h
          | some consumer =>
              simp only [hp, hc, Option.bind_eq_bind, Option.bind_some] at h
              obtain rfl := Option.some.inj h
              exact Or.inr (Or.inr ⟨rfl, rfl, rfl⟩)

/-- Both pools are conserved. -/
structure PoolInv (s : Helper) (n : Nat) : Prop where
  sender : s.producer.pool.Perm (List.range n)
  receiver : s.consumer.PoolInv n

theorem PoolInv.step {n : Nat} (h : s.PoolInv n) (hclean : s.CleanCancel a)
    (hstep : s.step init a = some s') : s'.PoolInv n := by
  rcases step_cases hstep with ⟨b, rfl, -, hp, hc⟩ | ⟨b, rfl, -, hc, hp⟩ | ⟨rfl, hp, hc⟩
  · refine ⟨?_, by rw [hc]; exact h.receiver⟩
    exact (List.perm_iff_count.mpr fun x => Producer.step_pool hclean hp).trans h.sender
  · exact ⟨by rw [hp]; exact h.sender, h.receiver.step hclean hc⟩
  · refine ⟨(List.perm_iff_count.mpr fun x => Producer.step_pool ?_ hp).trans h.sender,
      h.receiver.step ?_ hc⟩
    · rintro tid task heq
      cases heq
    · rintro sid σ heq
      cases heq

end Helper

/-- **Slots are conserved in every run** in which no `CancelledError` strikes a
pull handler inside its drain or a consumer session inside its `finally` block:
the free sender slots with the ones held by pull handlers, and the free
receiver slots with the ones owned by sessions, are each `0..n-1` without
repetition. -/
theorem helper_slots_conserved {init : InitMessage} {s : Helper}
    (h : (helperMachine init).ReachWith Helper.CleanCancel s) :
    s.producer.pool.Perm (List.range init.slotAddresses.length) ∧
      s.consumer.pool.Perm (List.range init.slotAddresses.length) := by
  have hinv : s.PoolInv init.slotAddresses.length := by
    refine Machine.invariant (I := fun s => s.PoolInv init.slotAddresses.length) ?_ ?_ h
    · rintro s rfl
      refine ⟨?_, Consumer.start_poolInv init⟩
      simp [Helper.start, Producer.pool, Producer.heldSlots, Producer.start]
    · intro s a s' _ hs hclean hstep
      exact hs.step hclean hstep
  exact ⟨hinv.sender, hinv.receiver.perm⟩

namespace Helper

/-- `CleanCancel` as a check. -/
def cleanCancel (s : Helper) : Action → Bool
  | .producer (.run tid) =>
      match s.producer.tasks[tid]? with
      | some task => !(task.cancelRequested && task.coro.inDrain)
      | none => true
  | .consumer (.resume sid) =>
      match s.consumer.sessions[sid]? with
      | some σ => !(σ.cancelRequested && σ.pos.inFinally)
      | none => true
  | _ => true

theorem cleanCancel_of_check (s : Helper) (a : Action) (h : cleanCancel s a = true) :
    s.CleanCancel a := by
  cases a with
  | shutdown => trivial
  | producer b =>
      rintro tid task rfl htask hcancel
      simpa [cleanCancel, htask, hcancel] using h
  | consumer b =>
      rintro sid σ rfl hσ hcancel
      simpa [cleanCancel, hσ, hcancel] using h

/-- A consumer opens a transfer of one chunk and pulls the chunk: slot 0 is taken to encode. -/
def servePull : List Producer.Action :=
  [.metadataUpdate { announced := [{ pReqId := "p", transferId := "t", localBlockIds := [[1]] }] },
   .recv "c" (.sessionOpen (.ofSolo "n" [("d", "t", [[1]])])), .run 0,
   .jobDone 1 { logicalBlockCount := 1, totalChunks := 1 }, .run 0,
   .recv "c" (.chunkPull
     { transferId := "t", dReqId := "d", chunkId := 0, slotId := 0, payloadAddr := 0
       auxAddr := 0, tailAddr := 0, nonce := "n" }),
   .run 1]

def loadRequest : ConsumerRequest :=
  { dReqId := "d'", transferId := "t'", localBlockIds := [[2]], numTokens := none }

/-- This helper opens a session of one chunk itself: slot 0 is taken to receive it. -/
def takeSlot (agents : Agents) : List Consumer.Action :=
  [.consumerMetadata [loadRequest], .ensureRemoteAgent 0 (some agents),
   .start 0 "0-1" "vllm-mooncake-0-1",
   .deliver 0 (.sessionOpened { logicalBlockCount := 1, totalChunks := 1 }), .resume 0,
   .issue 0 false]

/-- A send and a receive at once. -/
def sendAndReceive : List Action :=
  servePull.map .producer ++ (takeSlot [(0, [(0, "addr")])]).map .consumer

/-- The encode job fails and the helper is shut down while the handler drains its slot. -/
def cancelInDrain : List Action :=
  [.producer (.jobDone 2 { error := some "boom" }), .producer (.run 1), .producer .stop, .shutdown,
   .producer (.run 1)]

end Helper

open Helper in
/-- A send and a receive in progress: each holds slot 0 of its own pool. -/
theorem helper_slots_conserved_busy :
    ∃ s : Helper, (helperMachine (.solo [⟨0, 0, 0⟩])).exec cleanCancel
        (start (.solo [⟨0, 0, 0⟩])) sendAndReceive = some s ∧
      s.producer.senderSlots = [] ∧ s.consumer.receiverSlots = [] ∧
      s.producer.pool.Perm [0] ∧ s.consumer.pool.Perm [0] := by
  let s := ((helperMachine (.solo [⟨0, 0, 0⟩])).exec cleanCancel
    (start (.solo [⟨0, 0, 0⟩])) sendAndReceive).get (by decide)
  have hexec : (helperMachine (.solo [⟨0, 0, 0⟩])).exec cleanCancel
      (start (.solo [⟨0, 0, 0⟩])) sendAndReceive = some s := (Option.some_get _).symm
  have h := helper_slots_conserved
    ((Machine.reachWith_of_exec rfl hexec).mono cleanCancel_of_check)
  exact ⟨s, hexec, by decide, by decide, h.1, h.2⟩

open Helper in
/-- Without the condition a slot is lost: `except Exception` around the drain
does not catch the `CancelledError` of a shutdown. -/
theorem helper_slots_lost_in_drain :
    ¬ ∀ (init : InitMessage) (s : Helper), (helperMachine init).Reachable s →
      s.producer.pool.Perm (List.range init.slotAddresses.length) ∧
        s.consumer.pool.Perm (List.range init.slotAddresses.length) := by
  intro hall
  let s := ((helperMachine (.solo [⟨0, 0, 0⟩])).exec (fun _ _ => true)
    (start (.solo [⟨0, 0, 0⟩])) (servePull.map .producer ++ cancelInDrain)).get (by decide)
  have hreach : (helperMachine (.solo [⟨0, 0, 0⟩])).Reachable s :=
    (Machine.reachWith_of_exec (p := fun _ _ => true) rfl (Option.some_get _).symm).mono
      fun _ _ _ => trivial
  have hpool : s.producer.pool = [] := by decide
  have hperm := (hall _ s hreach).1
  rw [hpool] at hperm
  exact absurd hperm.length_eq (by decide)

/-! ### The two pools share their buffers -/

namespace Helper

variable {init : InitMessage} {s : Helper}

/-- The slots consumer sessions have taken from `_receiver_slots`. -/
def receiving (s : Helper) : List Nat := s.consumer.sessions.flatMap ConsumerSession.held

/-- No slot is used to encode and to receive at the same time. -/
def Disjoint (s : Helper) : Prop := ∀ x ∈ s.producer.heldSlots, x ∉ s.receiving

theorem lift_producer {p p' : Producer} (hsender : init.needsSender = true)
    (h : (producerMachine init).Path (fun _ a => a ≠ .shutdown) p p') (c : Consumer) :
    (helperMachine init).Path (fun _ _ => True) ⟨p, c⟩ ⟨p', c⟩ := by
  induction h with
  | refl => exact .refl
  | @step q r a _ hok hstep ih =>
      refine ih.step (a := .producer a) trivial ?_
      have hstep : q.step a = some r := hstep
      simp [helperMachine, step, hsender, hok, hstep]

theorem lift_consumer {c c' : Consumer} (hreceiver : init.needsReceiver = true)
    (h : (consumerMachine init).Path (fun _ a => a ≠ .shutdown) c c') (p : Producer) :
    (helperMachine init).Path (fun _ _ => True) ⟨p, c⟩ ⟨p, c'⟩ := by
  induction h with
  | refl => exact .refl
  | @step q r a _ hok hstep ih =>
      refine ih.step (a := .consumer a) trivial ?_
      have hstep : q.step a = some r := hstep
      simp [helperMachine, step, hreceiver, hok, hstep]

/-- Serving a pull takes the first slot, whatever the configuration. -/
theorem servePull_takes (htp : init.tpSize ≠ 0) (rest : List Nat) :
    ∃ p, (producerMachine init).Path (fun _ a => a ≠ .shutdown)
        { init := init, senderSlots := 0 :: rest } p ∧ p.heldSlots = [0] := by
  obtain ⟨k, hk⟩ := Nat.exists_eq_succ_of_ne_zero htp
  obtain ⟨base, rfl⟩ : ∃ base : InitMessage, init = { base with tpSize := k + 1 } :=
    ⟨init, by cases init; simp_all⟩
  obtain ⟨p, hexec, hheld⟩ : ∃ p, (producerMachine { base with tpSize := k + 1 }).exec
      (fun _ a => a ≠ .shutdown) { init := { base with tpSize := k + 1 }, senderSlots := 0 :: rest }
      servePull = some p ∧ p.heldSlots = [0] := ⟨_, rfl, rfl⟩
  exact ⟨p, (Machine.path_of_exec hexec).mono fun _ _ h => of_decide_eq_true h, hheld⟩

/-- One remote worker, paired with this rank. -/
theorem handshake_one (htp : init.tpSize ≠ 0) :
    handshakeWorkerAddrs init [(init.tpRank / init.tpSize, [(init.ppRank, "addr")])]
      = .ok ["addr"] := by
  have hranks : handshakeTargetRanks init.tpRank init.tpSize 1
      = .ok [init.tpRank / init.tpSize] := by
    unfold handshakeTargetRanks
    rw [if_pos (by omega), if_neg (by omega), Nat.div_one]
  simp only [handshakeWorkerAddrs, List.length_singleton, hranks]
  by_cases hpp : init.ppSize = 1
  · simp [bind, Except.bind, pure, Except.pure, hpp]
  · simp [bind, Except.bind, pure, Except.pure, hpp]

theorem takeSlot_takes (htp : init.tpSize ≠ 0) (rest : List Nat) :
    ∃ c, (consumerMachine init).Path (fun _ a => a ≠ .shutdown)
        { init := init, receiverSlots := 0 :: rest } c ∧
      c.sessions.flatMap ConsumerSession.held = [0] := by
  let agents : Agents := [(init.tpRank / init.tpSize, [(init.ppRank, "addr")])]
  let requested : Consumer :=
    { init := init, receiverSlots := 0 :: rest, requests := [{ request := loadRequest }] }
  let started : Consumer :=
    { requested with
      requests := [{ request := loadRequest, pos := .gathering [0] }]
      sessions := [{ request := loadRequest, rid := 0 }] }
  have hagents : (consumerMachine init).step requested (.ensureRemoteAgent 0 (some agents))
      = some started := by
    simp [agents, requested, started, consumerMachine, Consumer.step, Consumer.ensureRemoteAgent,
      handshake_one htp]
  have h₁ : (consumerMachine init).Path (fun _ a => a ≠ .shutdown)
      { init := init, receiverSlots := 0 :: rest } requested :=
    Machine.Path.refl.step (a := .consumerMetadata [loadRequest]) (by simp) rfl
  have h₂ := h₁.step (a := .ensureRemoteAgent 0 (some agents)) (by simp) hagents
  have h₃ := h₂.step (a := .start 0 "0-1" "vllm-mooncake-0-1") (by simp) rfl
  have h₄ := h₃.step (a := .deliver 0 (.sessionOpened { logicalBlockCount := 1, totalChunks := 1 }))
    (by simp) rfl
  have h₅ := h₄.step (a := .resume 0) (by simp) rfl
  have h₆ := h₅.step (a := .issue 0 false) (by simp) rfl
  exact ⟨_, h₆, rfl⟩

/-- A helper with both halves and a slot gets its first slot used twice. -/
theorem overlap_reachable (hsender : init.needsSender = true)
    (hreceiver : init.needsReceiver = true) (hslots : init.slotAddresses ≠ [])
    (htp : init.tpSize ≠ 0) : ∃ s, (helperMachine init).Reachable s ∧ ¬ s.Disjoint := by
  obtain ⟨n, hn⟩ : ∃ n, init.slotAddresses.length = n + 1 :=
    Nat.exists_eq_succ_of_ne_zero (by simpa using hslots)
  have hstart : start init =
      { producer := { init := init, senderSlots := 0 :: (List.range n).map Nat.succ }
        consumer := { init := init, receiverSlots := 0 :: (List.range n).map Nat.succ } } := by
    simp [start, Producer.start, Consumer.start, hn, List.range_succ_eq_map]
  obtain ⟨p, hp, hheld⟩ := servePull_takes htp ((List.range n).map Nat.succ)
  obtain ⟨c, hc, hreceiving⟩ := takeSlot_takes htp ((List.range n).map Nat.succ)
  refine ⟨⟨p, c⟩, ⟨start init, rfl, ?_⟩, ?_⟩
  · rw [hstart]
    exact (lift_producer hsender hp _).trans (lift_consumer hreceiver hc p)
  · intro hdisjoint
    exact hdisjoint 0 (by rw [hheld]; simp) (by rw [receiving, hreceiving]; simp)

theorem handshakeTargetRanks_zero (tpRank remoteTpSize : Nat) :
    ∃ message, handshakeTargetRanks tpRank 0 remoteTpSize = .error message := by
  unfold handshakeTargetRanks
  split
  · exact ⟨_, if_pos (by omega)⟩
  · exact ⟨_, if_pos rfl⟩

/-- Without a TP rank no session is ever started. -/
theorem noSession_step {c c' : Consumer} {a : Consumer.Action} (htp : c.init.tpSize = 0)
    (hnone : c.sessions = []) (hstep : c.step a = some c') :
    c'.init = c.init ∧ c'.sessions = [] := by
  have hwith {sid : Nat} {f : ConsumerSession → Option Turn} :
      c.withSession sid f ≠ some c' := fun h => by
    obtain ⟨σ, turn, hσ, -⟩ := Consumer.withSession_cases h
    simp [hnone] at hσ
  have hon {sid : Nat} {f : ConsumerSession → Option ConsumerSession} :
      c.onSession sid f ≠ some c' := hwith
  cases a with
  | consumerMetadata requests => obtain rfl := Option.some.inj hstep; exact ⟨rfl, hnone⟩
  | ensureRemoteAgent rid agents =>
      simp only [Consumer.step, Consumer.ensureRemoteAgent] at hstep
      cases htask : c.requests[rid]? with
      | none => simp [htask] at hstep
      | some task =>
          simp only [htask, Option.bind_eq_bind, Option.bind_some] at hstep
          split at hstep
          · cases hstep
          · split at hstep
            · rename_i hagents
              obtain ⟨table, -, htable⟩ := Option.map_eq_some_iff.mp hagents
              obtain ⟨message, hrank⟩ := handshakeTargetRanks_zero c.init.tpRank table.length
              simp [handshakeWorkerAddrs, htp, hrank, bind, Except.bind] at htable
            · obtain rfl := Option.some.inj hstep; exact ⟨rfl, hnone⟩
  | gathered rid =>
      simp only [Consumer.step, Consumer.gathered] at hstep
      cases htask : c.requests[rid]? with
      | none => simp [htask] at hstep
      | some task =>
          simp only [htask, Option.bind_eq_bind, Option.bind_some] at hstep
          split at hstep
          · split at hstep
            · obtain rfl := Option.some.inj hstep; exact ⟨rfl, hnone⟩
            · cases hstep
          · split at hstep
            · obtain rfl := Option.some.inj hstep; exact ⟨rfl, hnone⟩
            · split at hstep
              · obtain rfl := Option.some.inj hstep; exact ⟨rfl, hnone⟩
              · cases hstep
          · cases hstep
  | start sid nonce identity =>
      simp only [Consumer.step] at hstep
      split at hstep
      · exact absurd hstep hwith
      · cases hstep
  | resume sid => exact absurd hstep hwith
  | issue sid fails =>
      obtain ⟨σ, _, _, _, hσ, -⟩ := Consumer.issue_cases hstep
      simp [hnone] at hσ
  | startRecv sid => exact absurd hstep hon
  | callbacks sid task => exact absurd hstep hon
  | startDecode sid i => exact absurd hstep hwith
  | finishDecode sid i => exact absurd hstep hwith
  | decodeTimeout sid i => exact absurd hstep hon
  | drainTimeout sid => exact absurd hstep hwith
  | deliver sid response => exact absurd hstep hon
  | expireRecv sid waiter => exact absurd hstep hon
  | jobDone job result =>
      simp only [Consumer.step] at hstep
      split at hstep
      · obtain rfl := Option.some.inj hstep; exact ⟨rfl, hnone⟩
      · cases hstep
  | shutdown =>
      simp only [Consumer.step] at hstep
      split at hstep
      · cases hstep
      · obtain rfl := Option.some.inj hstep
        exact ⟨rfl, by simp [Consumer.shutdown, hnone]⟩

theorem sender_idle (hsender : init.needsSender = false) (h : (helperMachine init).Reachable s) :
    s.producer.tasks = [] := by
  refine Machine.invariant (I := fun s => s.producer.tasks = []) ?_ ?_ h
  · rintro s rfl
    rfl
  · intro s a s' _ hs _ hstep
    rcases step_cases hstep with ⟨b, rfl, hguard, hp, -⟩ | ⟨b, rfl, -, -, hp⟩ | ⟨rfl, hp, -⟩
    · rcases hguard with hguard | rfl
      · rw [hsender] at hguard; cases hguard
      · have heq := Option.some.inj hp
        rw [← heq]
        exact hs
    · rw [hp]; exact hs
    · simp only [Producer.step] at hp
      split at hp
      · have heq := Option.some.inj hp
        rw [← heq]
        simp [Producer.shutdown, hs]
      · cases hp

theorem receiver_idle (hidle : init.needsReceiver = false ∨ init.tpSize = 0)
    (h : (helperMachine init).Reachable s) : s.receiving = [] := by
  suffices s.consumer.init = init ∧ s.consumer.sessions = [] by simp [receiving, this.2]
  refine Machine.invariant
    (I := fun s => s.consumer.init = init ∧ s.consumer.sessions = []) ?_ ?_ h
  · rintro s rfl
    exact ⟨rfl, rfl⟩
  · intro s a s' _ hs _ hstep
    rcases step_cases hstep with ⟨b, rfl, -, -, hc⟩ | ⟨b, rfl, hguard, hc, -⟩ | ⟨rfl, -, hc⟩
    · rw [hc]; exact hs
    · rcases hidle with hidle | hidle
      · rw [hidle] at hguard; cases hguard
      · obtain ⟨hinit, hnone⟩ := noSession_step (by rw [hs.1]; exact hidle) hs.2 hc
        exact ⟨hinit.trans hs.1, hnone⟩
    · simp only [Consumer.step] at hc
      split at hc
      · cases hc
      · have heq := Option.some.inj hc
        rw [← heq]
        exact ⟨hs.1, by simp [Consumer.shutdown, hs.2]⟩

theorem no_slots (hslots : init.slotAddresses = []) (h : (helperMachine init).Reachable s) :
    s.producer.heldSlots = [] := by
  suffices ∀ x, s.producer.pool.count x = 0 by
    have hnil : s.producer.pool = [] := List.eq_nil_iff_forall_not_mem.mpr fun x hx => by
      have hpos := List.count_pos_iff.mpr hx
      rw [this x] at hpos
      exact absurd hpos (Nat.lt_irrefl 0)
    exact (List.append_eq_nil_iff.mp hnil).2
  intro x
  refine Machine.invariant (I := fun s => s.producer.pool.count x = 0) ?_ ?_ h
  · rintro s rfl
    simp [start, Producer.start, Producer.pool, Producer.heldSlots, hslots]
  · intro s a s' _ hs _ hstep
    rcases step_cases hstep with ⟨b, rfl, -, hp, -⟩ | ⟨b, rfl, -, -, hp⟩ | ⟨rfl, hp, -⟩
    · have := Producer.step_pool_le (x := x) hp
      omega
    · rw [hp]; exact hs
    · have := Producer.step_pool_le (x := x) hp
      omega

end Helper

/-- **The two pools of a helper stay apart exactly when one of them is idle**:
the helper has only one half, no slots, or no TP rank to pair with. With both
halves and a slot, a send and a receive in progress share its buffers. -/
theorem helper_slots_disjoint_iff (init : InitMessage) :
    (∀ s, (helperMachine init).Reachable s → s.Disjoint) ↔
      init.needsSender = false ∨ init.needsReceiver = false ∨ init.slotAddresses = [] ∨
        init.tpSize = 0 := by
  constructor
  · intro hall
    by_contra hno
    push Not at hno
    obtain ⟨hsender, hreceiver, hslots, htp⟩ := hno
    obtain ⟨s, hreach, hoverlap⟩ := Helper.overlap_reachable (by simpa using hsender)
      (by simpa using hreceiver) hslots htp
    exact hoverlap (hall s hreach)
  · intro hidle s hreach x hx hrecv
    rcases hidle with hidle | hidle | hidle | hidle
    · simp [Producer.heldSlots, Helper.sender_idle hidle hreach] at hx
    · simp [Helper.receiver_idle (Or.inl hidle) hreach] at hrecv
    · simp [Helper.no_slots hidle hreach] at hx
    · simp [Helper.receiver_idle (Or.inr hidle) hreach] at hrecv

open Helper in
/-- One slot, one send and one receive: slot 0 is encoded from and written to at once. -/
theorem helper_slots_overlap :
    ¬ ∀ s, (helperMachine (.solo [⟨0, 0, 0⟩])).Reachable s → s.Disjoint := by
  intro hall
  let s := ((helperMachine (.solo [⟨0, 0, 0⟩])).exec (fun _ _ => true)
    (start (.solo [⟨0, 0, 0⟩])) sendAndReceive).get (by decide)
  have hreach : (helperMachine (.solo [⟨0, 0, 0⟩])).Reachable s :=
    (Machine.reachWith_of_exec (p := fun _ _ => true) rfl (Option.some_get _).symm).mono
      fun _ _ _ => trivial
  have hsending : s.producer.heldSlots = [0] := by decide
  have hreceiving : s.receiving = [0] := by decide
  exact hall s hreach 0 (by rw [hsending]; simp) (by rw [hreceiving]; simp)

end KVServe.Session
