import KVServe.Lib.Channel
import KVServe.Transport.Payload

/-!
# KVServe.Transport.Receiver

The **consumer side of the NCCL transport** with the worker side of its
connector: `_listen_loop`, `_recv_completion_loop` and `start_load_kv`, three
threads around the staging credits of `KVServe.Transport.Budget`.

A step is one critical section of one thread. Between them a thread carries what
it works on in its position (`ListenAt`, `CompletionAt`, `LoadAt`). An exception
inside `_listen_loop` goes to the handler at the end of the loop, which only
logs it: `raise` drops whatever the listener was working on.

`_received` and `_worker_received_kv` are dictionaries of queues; each is one
list of keyed entries here, of which `onChannel` reads a queue. A missing payload
is the failure marker of `_mark_failed`.

`admissions` (by serial number), `releases`, `puts` and `replies` are history: no
definition reads them to decide anything.
-/

namespace KVServe.Transport

/-- A payload whose bytes are reserved, before its buffers are allocated. -/
structure Admission where
  /-- History: the place in `admissions`. -/
  serial : Nat
  put : Put
  payloadBytes : Nat
  deriving DecidableEq, Repr

/-- A payload with its buffers. `payloadBytes` is the entry of its `row`. -/
structure Arrival (D : Type) where
  /-- History: the place in `admissions`. -/
  serial : Nat
  requestId : RequestId
  layerNames : List String
  payload : Payload (DeviceTensor D)
  payloadBytes : Nat
  deriving DecidableEq, Repr

/-- Where `_listen_loop` stands. -/
inductive ListenAt (D : Type)
  | idle
  /-- A message is decoded, its bytes are not reserved yet. -/
  | read (put : Put)
  | admitted (admission : Admission)
  /-- About to answer `_NCCL_ACK_OOM`. -/
  | rejecting (requestId : RequestId)
  /-- About to post the failure marker. -/
  | marking (requestId : RequestId)
  /-- `_NCCL_ACK_OK` is sent, the `ncclRecv` calls are to come. -/
  | acked (arrival : Arrival D)
  deriving DecidableEq, Repr

/-- Where `_recv_completion_loop` stands. -/
inductive CompletionAt (D : Type)
  | idle
  /-- The payload is published, `_record_stat` is to come. -/
  | recording (arrival : Arrival D)
  | marking (requestId : RequestId)
  deriving DecidableEq, Repr

/-- What `start_load_kv` reads of a `ReqMeta`. -/
structure ReqMeta where
  requestId : RequestId
  transferId : RequestId
  deriving DecidableEq, Repr

/-- Where `start_load_kv` stands. -/
inductive LoadAt (D : Type)
  | idle
  /-- The received payloads are drained, the expected ids are to be set. -/
  | starting (requests : List ReqMeta)
  /-- In the waiting loop. -/
  | loading (pending : List ReqMeta)
  /-- A payload is taken off its queue and not released yet. -/
  | injecting (request : ReqMeta) (payload : Option (Arrival D)) (pending : List ReqMeta)
  deriving DecidableEq, Repr

structure Receiver (D : Type) where
  budget : Budget
  /-- The NCCL communicator is up. -/
  initialized : Bool := false
  listen : ListenAt D := .idle
  completions : List (Arrival D) := []
  completing : CompletionAt D := .idle
  received : List (RequestId × Option (Arrival D)) := []
  workerReceivedKv : List (RequestId × Option (Arrival D)) := []
  load : LoadAt D := .idle
  admissions : List (RequestId × Nat) := []
  /-- Serial number and bytes. -/
  releases : List (Nat × Nat) := []
  puts : Nat := 0
  replies : List Ack := []

namespace Receiver

variable {D : Type}

/-! ### The critical sections -/

/-- `release_received` for an admitted payload. -/
def release (s : Receiver D) (serial : Nat) (requestId : RequestId) (payloadBytes : Nat) :
    Receiver D :=
  { s with
    budget := s.budget.releaseReceived requestId payloadBytes
    releases := s.releases ++ [(serial, payloadBytes)] }

/-- `_mark_failed`. -/
def markFailed (s : Receiver D) (requestId : RequestId) : Receiver D :=
  { s with received := s.received ++ [(requestId, none)] }

def reply (s : Receiver D) (ack : Ack) : Receiver D := { s with replies := s.replies ++ [ack] }

/-- `drain_received` into `_worker_received_kv`. -/
def drain (s : Receiver D) : Receiver D :=
  { s with received := [], workerReceivedKv := s.workerReceivedKv ++ s.received }

/-- The admission control of the listener: reserve, or answer `_NCCL_ACK_RETRY`. -/
def admitOrRetry (s : Receiver D) (put : Put) (payloadBytes : Nat) : Receiver D :=
  match s.budget.reserveReceived put.requestId payloadBytes with
  | none => { s.reply .retry with listen := .idle }
  | some budget =>
      { s with
        budget
        listen := .admitted { serial := s.admissions.length, put, payloadBytes }
        admissions := s.admissions ++ [(put.requestId, payloadBytes)] }

/-- The payload of an admitted message. -/
def arrival (admission : Admission) (payload : Payload (DeviceTensor D)) : Arrival D :=
  { serial := admission.serial, requestId := admission.put.requestId
    layerNames := admission.put.layerNames, payload, payloadBytes := admission.payloadBytes }

/-- One iteration of the waiting loop of `start_load_kv`, after the drain: take the
payload of the first pending request that has one. -/
def choose (s : Receiver D) (pending : List ReqMeta) : Option (Receiver D) :=
  (pending.find? fun r => (onChannel r.transferId s.workerReceivedKv).isEmpty = false).bind fun r =>
    (takeFirst r.transferId s.workerReceivedKv).map fun taken =>
      { s with
        workerReceivedKv := taken.2
        load := .injecting r taken.1 (pending.erase r) }

/-- The `finally` block of `start_load_kv`: `payload_nbytes` of the failure marker is 0. -/
def releasePayload (torch : Torch D) (s : Receiver D) (transferId : RequestId) :
    Option (Arrival D) → Receiver D
  | some a => s.release a.serial transferId (torch.payloadNbytes a.payload)
  | none => s

/-! ### Steps -/

inductive Action
  /-- `INIT` arrives. -/
  | init
  /-- A `PUT` or `PUT_BUNDLE` arrives. -/
  | message (put : Put)
  | reserve
  /-- The buffers are allocated and the message is accepted. -/
  | allocate
  | allocateOom
  | rejectOom
  | markRejected
  /-- The `ncclRecv` calls are made. -/
  | receive
  /-- An exception reaches the handler of `_listen_loop`. -/
  | raise
  | publish
  | recorded
  /-- An exception after the payload is published. -/
  | recordRaises
  /-- The receive ends with an exception. -/
  | receiveRaises
  | markReceive
  | beginLoad (requests : List ReqMeta)
  | setExpected
  | poll
  /-- The load timeout. -/
  | expire
  /-- The payload is injected, or an exception is raised while it is. -/
  | inject (ok : Bool)
  | endLoad
  deriving DecidableEq, Repr

/-- The listener. -/
def listenStep (torch : Torch D) (s : Receiver D) : Action → Option (Receiver D)
  | .init =>
      match s.listen with
      | .idle => some { s with initialized := true }
      | _ => none
  | .message put =>
      match s.listen with
      | .idle =>
          if s.initialized then some { s with listen := .read put, puts := s.puts + 1 }
          else some { s with listen := .rejecting put.requestId, puts := s.puts + 1 }
      | _ => none
  | .reserve =>
      match s.listen with
      | .read put => (torch.putNbytes put).map fun payloadBytes => s.admitOrRetry put payloadBytes
      | _ => none
  | .allocate =>
      match s.listen with
      | .admitted admission =>
          (torch.allocate admission.put).map fun payload =>
            { s.reply .ok with listen := .acked (arrival admission payload) }
      | _ => none
  | .allocateOom =>
      match s.listen with
      | .admitted admission =>
          some { s.release admission.serial admission.put.requestId admission.payloadBytes with
            listen := .rejecting admission.put.requestId }
      | _ => none
  | .rejectOom =>
      match s.listen with
      | .rejecting requestId => some { s.reply .oom with listen := .marking requestId }
      | _ => none
  | .markRejected =>
      match s.listen with
      | .marking requestId => some { s.markFailed requestId with listen := .idle }
      | _ => none
  | .receive =>
      match s.listen with
      | .acked a =>
          if (torch.calls a.payload.onStream).2 then
            some { s with listen := .idle, completions := s.completions ++ [a] }
          else none
      | _ => none
  | .raise =>
      match s.listen with
      | .idle => none
      | _ => some { s with listen := .idle }
  | _ => none

/-- The completion thread. -/
def completionStep (s : Receiver D) : Action → Option (Receiver D)
  | .publish =>
      match s.completing, s.completions with
      | .idle, a :: rest =>
          some { s with
            completions := rest
            received := s.received ++ [(a.requestId, some a)]
            completing := .recording a }
      | _, _ => none
  | .recorded =>
      match s.completing with
      | .recording _ => some { s with completing := .idle }
      | _ => none
  | .recordRaises =>
      match s.completing with
      | .recording a =>
          some { s.release a.serial a.requestId a.payloadBytes with completing := .marking a.requestId }
      | _ => none
  | .receiveRaises =>
      match s.completing, s.completions with
      | .idle, a :: rest =>
          some { s.release a.serial a.requestId a.payloadBytes with
            completions := rest
            completing := .marking a.requestId }
      | _, _ => none
  | .markReceive =>
      match s.completing with
      | .marking requestId => some { s.markFailed requestId with completing := .idle }
      | _ => none
  | _ => none

/-- `start_load_kv`. A step that raises leaves the expected ids as they are, except
on a timeout. -/
def loadStep (torch : Torch D) (s : Receiver D) : Action → Option (Receiver D)
  | .beginLoad requests =>
      match s.load with
      | .idle => some { s.drain with load := .starting requests }
      | _ => none
  | .setExpected =>
      match s.load with
      | .starting requests =>
          some { s with
            budget := s.budget.setExpectedRequests (requests.map (·.transferId))
            load := .loading requests }
      | _ => none
  | .poll =>
      match s.load with
      | .loading pending =>
          if pending = [] then none else some ((s.drain.choose pending).getD s.drain)
      | _ => none
  | .expire =>
      match s.load with
      | .loading pending =>
          if pending = [] ∨ (s.drain.choose pending).isSome then none
          else some { s.drain with budget := s.budget.setExpectedRequests [], load := .idle }
      | _ => none
  | .inject ok =>
      match s.load with
      | .injecting request payload pending =>
          some { s.releasePayload torch request.transferId payload with
            load := if ok && payload.isSome then .loading pending else .idle }
      | _ => none
  | .endLoad =>
      match s.load with
      | .loading [] => some { s with budget := s.budget.setExpectedRequests [], load := .idle }
      | _ => none
  | _ => none

/-- The step function: each action belongs to one thread. -/
def step (torch : Torch D) (s : Receiver D) (a : Action) : Option (Receiver D) :=
  match a with
  | .publish | .recorded | .recordRaises | .receiveRaises | .markReceive => s.completionStep a
  | .beginLoad _ | .setExpected | .poll | .expire | .inject _ | .endLoad => s.loadStep torch a
  | _ => s.listenStep torch a

/-- What a step can do, said once. -/
inductive Steps (torch : Torch D) (s : Receiver D) : Action → Receiver D → Prop
  | init (hlisten : s.listen = .idle) : Steps torch s .init { s with initialized := true }
  | reads {put : Put} (hlisten : s.listen = .idle) :
      Steps torch s (.message put) { s with listen := .read put, puts := s.puts + 1 }
  /-- A message before `INIT`. -/
  | early {put : Put} (hlisten : s.listen = .idle) :
      Steps torch s (.message put)
        { s with listen := .rejecting put.requestId, puts := s.puts + 1 }
  | retries {put : Put} {payloadBytes : Nat} (hlisten : s.listen = .read put)
      (hfull : s.budget.reserveReceived put.requestId payloadBytes = none) :
      Steps torch s .reserve { s.reply .retry with listen := .idle }
  | admits {put : Put} {payloadBytes : Nat} {budget : Budget} (hlisten : s.listen = .read put)
      (hbytes : torch.putNbytes put = some payloadBytes)
      (hbudget : s.budget.reserveReceived put.requestId payloadBytes = some budget) :
      Steps torch s .reserve
        { s with
          budget
          listen := .admitted { serial := s.admissions.length, put, payloadBytes }
          admissions := s.admissions ++ [(put.requestId, payloadBytes)] }
  | allocates {admission : Admission} {payload : Payload (DeviceTensor D)}
      (hlisten : s.listen = .admitted admission)
      (hpayload : torch.allocate admission.put = some payload) :
      Steps torch s .allocate { s.reply .ok with listen := .acked (arrival admission payload) }
  | outOfMemory {admission : Admission} (hlisten : s.listen = .admitted admission) :
      Steps torch s .allocateOom
        { s.release admission.serial admission.put.requestId admission.payloadBytes with
          listen := .rejecting admission.put.requestId }
  | rejects {requestId : RequestId} (hlisten : s.listen = .rejecting requestId) :
      Steps torch s .rejectOom { s.reply .oom with listen := .marking requestId }
  | marks {requestId : RequestId} (hlisten : s.listen = .marking requestId) :
      Steps torch s .markRejected { s.markFailed requestId with listen := .idle }
  | receives {a : Arrival D} (hlisten : s.listen = .acked a)
      (hcalls : (torch.calls a.payload.onStream).2 = true) :
      Steps torch s .receive { s with listen := .idle, completions := s.completions ++ [a] }
  | raises (hlisten : s.listen ≠ .idle) : Steps torch s .raise { s with listen := .idle }
  | publishes {a : Arrival D} {rest : List (Arrival D)} (hcompletions : s.completions = a :: rest) :
      Steps torch s .publish
        { s with
          completions := rest
          received := s.received ++ [(a.requestId, some a)]
          completing := .recording a }
  | records {a : Arrival D} (hcompleting : s.completing = .recording a) :
      Steps torch s .recorded { s with completing := .idle }
  | recordRaises {a : Arrival D} (hcompleting : s.completing = .recording a) :
      Steps torch s .recordRaises
        { s.release a.serial a.requestId a.payloadBytes with completing := .marking a.requestId }
  | receiveRaises {a : Arrival D} {rest : List (Arrival D)}
      (hcompletions : s.completions = a :: rest) :
      Steps torch s .receiveRaises
        { s.release a.serial a.requestId a.payloadBytes with
          completions := rest
          completing := .marking a.requestId }
  | marksReceive {requestId : RequestId} (hcompleting : s.completing = .marking requestId) :
      Steps torch s .markReceive { s.markFailed requestId with completing := .idle }
  | begins {requests : List ReqMeta} (hload : s.load = .idle) :
      Steps torch s (.beginLoad requests) { s.drain with load := .starting requests }
  | expects {requests : List ReqMeta} (hload : s.load = .starting requests) :
      Steps torch s .setExpected
        { s with
          budget := s.budget.setExpectedRequests (requests.map (·.transferId))
          load := .loading requests }
  | polls {pending : List ReqMeta} (hload : s.load = .loading pending) : Steps torch s .poll s.drain
  | takes {pending : List ReqMeta} {request : ReqMeta} {payload : Option (Arrival D)}
      {rest : List (RequestId × Option (Arrival D))} (hload : s.load = .loading pending)
      (hmem : request ∈ pending)
      (htake : takeFirst request.transferId s.drain.workerReceivedKv = some (payload, rest)) :
      Steps torch s .poll
        { s.drain with
          workerReceivedKv := rest
          load := .injecting request payload (pending.erase request) }
  | expires {pending : List ReqMeta} (hload : s.load = .loading pending) :
      Steps torch s .expire
        { s.drain with budget := s.budget.setExpectedRequests [], load := .idle }
  | injects {ok : Bool} {request : ReqMeta} {payload : Option (Arrival D)} {pending : List ReqMeta}
      (hload : s.load = .injecting request payload pending) :
      Steps torch s (.inject ok)
        { s.releasePayload torch request.transferId payload with
          load := if ok && payload.isSome then .loading pending else .idle }
  | ends (hload : s.load = .loading []) :
      Steps torch s .endLoad
        { s with budget := s.budget.setExpectedRequests [], load := .idle }

variable {torch : Torch D} {s s' : Receiver D} {a : Action}

theorem listenStep_cases (h : s.listenStep torch a = some s') : Steps torch s a s' := by
  unfold listenStep at h
  split at h
  · split at h
    · rename_i hlisten
      obtain rfl := Option.some.inj h
      exact .init hlisten
    · cases h
  · split at h
    · rename_i hlisten
      split at h <;> obtain rfl := Option.some.inj h
      · exact .reads hlisten
      · exact .early hlisten
    · cases h
  · split at h
    · rename_i put hlisten
      obtain ⟨payloadBytes, hbytes, rfl⟩ := Option.map_eq_some_iff.mp h
      unfold admitOrRetry
      split
      · rename_i hfull
        exact .retries hlisten hfull
      · rename_i budget hbudget
        exact .admits hlisten hbytes hbudget
    · cases h
  · split at h
    · rename_i admission hlisten
      obtain ⟨payload, hpayload, rfl⟩ := Option.map_eq_some_iff.mp h
      exact .allocates hlisten hpayload
    · cases h
  · split at h
    · rename_i admission hlisten
      obtain rfl := Option.some.inj h
      exact .outOfMemory hlisten
    · cases h
  · split at h
    · rename_i requestId hlisten
      obtain rfl := Option.some.inj h
      exact .rejects hlisten
    · cases h
  · split at h
    · rename_i requestId hlisten
      obtain rfl := Option.some.inj h
      exact .marks hlisten
    · cases h
  · split at h
    · rename_i a hlisten
      split at h
      · rename_i hcalls
        obtain rfl := Option.some.inj h
        exact .receives hlisten hcalls
      · cases h
    · cases h
  · split at h
    · cases h
    · rename_i hlisten
      obtain rfl := Option.some.inj h
      exact .raises hlisten
  · cases h

theorem completionStep_cases (h : s.completionStep a = some s') : Steps torch s a s' := by
  unfold completionStep at h
  split at h
  · split at h
    · rename_i hcompletions
      obtain rfl := Option.some.inj h
      exact .publishes hcompletions
    · cases h
  · split at h
    · rename_i hcompleting
      obtain rfl := Option.some.inj h
      exact .records hcompleting
    · cases h
  · split at h
    · rename_i hcompleting
      obtain rfl := Option.some.inj h
      exact .recordRaises hcompleting
    · cases h
  · split at h
    · rename_i hcompletions
      obtain rfl := Option.some.inj h
      exact .receiveRaises hcompletions
    · cases h
  · split at h
    · rename_i hcompleting
      obtain rfl := Option.some.inj h
      exact .marksReceive hcompleting
    · cases h
  · cases h

theorem choose_cases {t : Receiver D} {pending : List ReqMeta} (h : s.choose pending = some t) :
    ∃ request ∈ pending, ∃ payload rest,
      takeFirst request.transferId s.workerReceivedKv = some (payload, rest) ∧
        t = { s with
          workerReceivedKv := rest
          load := .injecting request payload (pending.erase request) } := by
  obtain ⟨request, hfind, hmap⟩ := Option.bind_eq_some_iff.mp h
  obtain ⟨⟨payload, rest⟩, htake, rfl⟩ := Option.map_eq_some_iff.mp hmap
  exact ⟨request, List.mem_of_find?_eq_some hfind, payload, rest, htake, rfl⟩

theorem loadStep_cases (h : s.loadStep torch a = some s') : Steps torch s a s' := by
  unfold loadStep at h
  split at h
  · split at h
    · rename_i hload
      obtain rfl := Option.some.inj h
      exact .begins hload
    · cases h
  · split at h
    · rename_i requests hload
      obtain rfl := Option.some.inj h
      exact .expects hload
    · cases h
  · split at h
    · rename_i pending hload
      split at h
      · cases h
      · obtain rfl := Option.some.inj h
        cases hchoose : s.drain.choose pending with
        | none => exact .polls hload
        | some t =>
            obtain ⟨request, hmem, payload, rest, htake, rfl⟩ := choose_cases hchoose
            exact .takes hload hmem htake
    · cases h
  · split at h
    · rename_i pending hload
      split at h
      · cases h
      · obtain rfl := Option.some.inj h
        exact .expires hload
    · cases h
  · split at h
    · rename_i request payload pending hload
      obtain rfl := Option.some.inj h
      exact .injects hload
    · cases h
  · split at h
    · rename_i hload
      obtain rfl := Option.some.inj h
      exact .ends hload
    · cases h
  · cases h

/-- **Inversion of the step function.** -/
theorem step_cases (h : s.step torch a = some s') : Steps torch s a s' := by
  unfold step at h
  split at h
  all_goals first
    | exact completionStep_cases h
    | exact loadStep_cases h
    | exact listenStep_cases h

end Receiver

/-- A consumer started with the given buffer size. -/
def receiverMachine {D : Type} (torch : Torch D) (recvBufferSize : Int) :
    Machine (Receiver D) Receiver.Action where
  init s := s = { budget := .ofSize recvBufferSize }
  step := Receiver.step torch

end KVServe.Transport
