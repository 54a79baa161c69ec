import KVServe.Lib.Transition
import KVServe.Transport.Sender

/-!
# KVServe.Transport.Link

**Two ends of the NCCL transport**: the send thread of a producer, the control
messages and acknowledgements between the two processes, and the listener and the
completion thread of a consumer. The answer to a message is any of
`_NCCL_ACK_OK`, `_NCCL_ACK_OOM` and `_NCCL_ACK_RETRY`: the admission control of
`KVServe.Transport.Receiver` is one way to choose it.

NCCL pairs the `ncclSend` calls of the producer's stream with the `ncclRecv` calls
of the consumer's stream in their order. An event recorded after a receive is
complete when the sends up to it are made, and the buffer of the `k`-th receive
holds the elements of the `k`-th send.

A message travels with the item it is about, which is history, as are `accepted`
and `drained`.
-/

namespace KVServe.Transport

/-- A payload the listener has accepted. -/
structure Incoming (D V : Type) where
  /-- History: the item the message was about. -/
  item : Item D V
  requestId : RequestId
  layerNames : List String
  payload : Payload (DeviceTensor D)
  /-- The place of its first `ncclRecv` on the stream. -/
  base : Nat

/-- Where `_listen_loop` stands after an acknowledgement. -/
inductive PostAt (D V : Type)
  | idle
  /-- The `ncclRecv` calls of `left` are to come. -/
  | posting (incoming : Incoming D V) (left : List (DeviceTensor D))

/-- What `_received` holds: the layer names and the payload; `none` is the failure marker. -/
abbrev Published (D V : Type) := Option (List String × Payload (LoadedTensor D V))

structure Link (D V : Type) where
  sender : Sender D V := {}
  wire : List (Put × Item D V) := []
  acks : List Ack := []
  /-- The calls on the producer's stream, with the elements sent. -/
  sends : List ((Nat × Nat) × List V) := []
  /-- The calls on the consumer's stream. -/
  recvs : List (Nat × Nat) := []
  listener : PostAt D V := .idle
  completions : List (Incoming D V) := []
  received : List (RequestId × Published D V) := []
  accepted : List (Item D V) := []
  drained : List (RequestId × Published D V) := []

namespace Link

variable {D V : Type}

inductive Action (D V : Type)
  /-- `send` or `send_bundle`. -/
  | send (requestId : RequestId) (layerNames : List String) (payload : Payload (LoadedTensor D V))
      (sized : ∀ t ∈ payload.tensors, t.2.length = t.1.numel)
  /-- The send thread takes an item and sends its message. -/
  | pop
  | recvAck
  | ncclSend
  /-- The completion event of the item in hand is recorded. -/
  | submitted
  /-- An exception in `_send_loop`. -/
  | sendRaises
  /-- `_send_completion_loop` retires an item. -/
  | retire
  /-- The listener answers a message. -/
  | answer (ack : Ack)
  | ncclRecv
  | posted
  /-- `_recv_completion_loop` publishes a payload; `_record_stat` may raise after it. -/
  | publish (recorded : Bool)
  /-- The receive ends with an exception. -/
  | receiveRaises
  | drain

/-- The payload accepted for a message. -/
def incoming (s : Link D V) (message : Put × Item D V) (payload : Payload (DeviceTensor D)) :
    Incoming D V :=
  { item := message.2, requestId := message.1.requestId, layerNames := message.1.layerNames,
    payload, base := s.recvs.length }

/-- The elements that have arrived for a payload, once its receives are complete. -/
def arrived (s : Link D V) (incoming : Incoming D V) : Option (Payload (LoadedTensor D V)) :=
  let count := incoming.payload.onStream.length
  if incoming.base + count ≤ s.sends.length then
    some (incoming.payload.fill (((s.sends.drop incoming.base).take count).map (·.2)))
  else none

/-- The producer. -/
def senderStep (torch : Torch D) (s : Link D V) : Action D V → Option (Link D V)
  | .send requestId layerNames payload sized =>
      some { s with sender := s.sender.enqueue torch ⟨s.sender.sent.length, requestId, layerNames,
        payload, sized⟩ }
  | .pop =>
      match s.sender.thread, s.sender.queue with
      | .idle, item :: rest =>
          some { s with
            sender := { s.sender with
              queue := rest, thread := .awaiting item, inflight := s.sender.inflight + 1 }
            wire := s.wire ++ [(item.put torch, item)] }
      | _, _ => none
  | .recvAck =>
      match s.sender.thread, s.acks with
      | .awaiting item, ack :: rest =>
          some { s with sender := s.sender.acked torch item ack, acks := rest }
      | _, _ => none
  | .ncclSend =>
      match s.sender.thread with
      | .submitting item (t :: left) =>
          match torch.call? t.1 with
          | some call =>
              some { s with
                sender := { s.sender with thread := .submitting item left }
                sends := s.sends ++ [(call, t.2)] }
          -- `ncclDataTypeEnum.from_torch` raises.
          | none => some { s with sender := { s.sender.finishSendItem torch item with thread := .idle } }
      | _ => none
  | .submitted =>
      match s.sender.thread with
      | .submitting item [] =>
          some { s with sender := { s.sender with
            thread := .idle, completions := s.sender.completions ++ [item] } }
      | _ => none
  | .sendRaises =>
      match s.sender.thread with
      | .awaiting item | .submitting item _ =>
          some { s with sender := { s.sender.finishSendItem torch item with thread := .idle } }
      | .idle => none
  | .retire =>
      match s.sender.completions with
      | item :: rest =>
          some { s with sender := { s.sender.finishSendItem torch item with completions := rest } }
      | [] => none
  | _ => none

/-- The consumer. -/
def receiverStep (torch : Torch D) (s : Link D V) : Action D V → Option (Link D V)
  | .answer ack =>
      match s.listener, s.wire with
      | .idle, message :: rest =>
          match ack with
          | .retry => some { s with wire := rest, acks := s.acks ++ [.retry] }
          | .oom =>
              some { s with
                wire := rest, acks := s.acks ++ [.oom]
                received := s.received ++ [(message.1.requestId, none)] }
          | .ok =>
              (torch.allocate message.1).map fun payload =>
                { s with
                  wire := rest, acks := s.acks ++ [.ok]
                  listener := .posting (s.incoming message payload) payload.onStream
                  accepted := s.accepted ++ [message.2] }
      | _, _ => none
  | .ncclRecv =>
      match s.listener with
      | .posting incoming (t :: left) =>
          match torch.call? t with
          | some call =>
              some { s with listener := .posting incoming left, recvs := s.recvs ++ [call] }
          -- `from_torch` raises into the handler of the loop.
          | none => some { s with listener := .idle }
      | _ => none
  | .posted =>
      match s.listener with
      | .posting incoming [] =>
          some { s with listener := .idle, completions := s.completions ++ [incoming] }
      | _ => none
  | .publish recorded =>
      match s.completions with
      | incoming :: rest =>
          (s.arrived incoming).map fun payload =>
            { s with
              completions := rest
              received := s.received ++
                (incoming.requestId, some (incoming.layerNames, payload)) ::
                  if recorded then [] else [(incoming.requestId, none)] }
      | [] => none
  | .receiveRaises =>
      match s.completions with
      | incoming :: rest =>
          some { s with
            completions := rest, received := s.received ++ [(incoming.requestId, none)] }
      | [] => none
  | .drain => some { s with received := [], drained := s.drained ++ s.received }
  | _ => none

/-- The step function: each action belongs to one side. -/
def step (torch : Torch D) (s : Link D V) (a : Action D V) : Option (Link D V) :=
  match a with
  | .answer _ | .ncclRecv | .posted | .publish _ | .receiveRaises | .drain => s.receiverStep torch a
  | _ => s.senderStep torch a

/-- What a step can do, said once. -/
inductive Steps (torch : Torch D) (s : Link D V) : Action D V → Link D V → Prop
  | sends {requestId : RequestId} {layerNames : List String} {payload : Payload (LoadedTensor D V)}
      {sized : ∀ t ∈ payload.tensors, t.2.length = t.1.numel} :
      Steps torch s (.send requestId layerNames payload sized)
        { s with sender := s.sender.enqueue torch ⟨s.sender.sent.length, requestId, layerNames,
          payload, sized⟩ }
  | pops {item : Item D V} {rest : List (Item D V)} (hthread : s.sender.thread = .idle)
      (hqueue : s.sender.queue = item :: rest) :
      Steps torch s .pop
        { s with
          sender := { s.sender with
            queue := rest, thread := .awaiting item, inflight := s.sender.inflight + 1 }
          wire := s.wire ++ [(item.put torch, item)] }
  | acks {item : Item D V} {ack : Ack} {rest : List Ack} (hthread : s.sender.thread = .awaiting item)
      (hacks : s.acks = ack :: rest) :
      Steps torch s .recvAck { s with sender := s.sender.acked torch item ack, acks := rest }
  | ncclSends {item : Item D V} {t : LoadedTensor D V} {left : List (LoadedTensor D V)}
      {call : Nat × Nat} (hthread : s.sender.thread = .submitting item (t :: left))
      (hcall : torch.call? t.1 = some call) :
      Steps torch s .ncclSend
        { s with
          sender := { s.sender with thread := .submitting item left }
          sends := s.sends ++ [(call, t.2)] }
  | sendRefused {item : Item D V} {t : LoadedTensor D V} {left : List (LoadedTensor D V)}
      (hthread : s.sender.thread = .submitting item (t :: left)) (hcall : torch.call? t.1 = none) :
      Steps torch s .ncclSend
        { s with sender := { s.sender.finishSendItem torch item with thread := .idle } }
  | submits {item : Item D V} (hthread : s.sender.thread = .submitting item []) :
      Steps torch s .submitted
        { s with sender := { s.sender with
          thread := .idle, completions := s.sender.completions ++ [item] } }
  | sendRaises {item : Item D V} (hthread : s.sender.thread = .awaiting item ∨
      ∃ left, s.sender.thread = .submitting item left) :
      Steps torch s .sendRaises
        { s with sender := { s.sender.finishSendItem torch item with thread := .idle } }
  | retires {item : Item D V} {rest : List (Item D V)}
      (hcompletions : s.sender.completions = item :: rest) :
      Steps torch s .retire
        { s with sender := { s.sender.finishSendItem torch item with completions := rest } }
  | retries {message : Put × Item D V} {rest : List (Put × Item D V)}
      (hlistener : s.listener = .idle) (hwire : s.wire = message :: rest) :
      Steps torch s (.answer .retry) { s with wire := rest, acks := s.acks ++ [.retry] }
  | rejects {message : Put × Item D V} {rest : List (Put × Item D V)}
      (hlistener : s.listener = .idle) (hwire : s.wire = message :: rest) :
      Steps torch s (.answer .oom)
        { s with
          wire := rest, acks := s.acks ++ [.oom]
          received := s.received ++ [(message.1.requestId, none)] }
  | accepts {message : Put × Item D V} {rest : List (Put × Item D V)}
      {payload : Payload (DeviceTensor D)} (hlistener : s.listener = .idle)
      (hwire : s.wire = message :: rest) (hpayload : torch.allocate message.1 = some payload) :
      Steps torch s (.answer .ok)
        { s with
          wire := rest, acks := s.acks ++ [.ok]
          listener := .posting (s.incoming message payload) payload.onStream
          accepted := s.accepted ++ [message.2] }
  | ncclRecvs {incoming : Incoming D V} {t : DeviceTensor D} {left : List (DeviceTensor D)}
      {call : Nat × Nat} (hlistener : s.listener = .posting incoming (t :: left))
      (hcall : torch.call? t = some call) :
      Steps torch s .ncclRecv
        { s with listener := .posting incoming left, recvs := s.recvs ++ [call] }
  | recvRefused {incoming : Incoming D V} {t : DeviceTensor D} {left : List (DeviceTensor D)}
      (hlistener : s.listener = .posting incoming (t :: left)) (hcall : torch.call? t = none) :
      Steps torch s .ncclRecv { s with listener := .idle }
  | posts {incoming : Incoming D V} (hlistener : s.listener = .posting incoming []) :
      Steps torch s .posted
        { s with listener := .idle, completions := s.completions ++ [incoming] }
  | publishes {recorded : Bool} {incoming : Incoming D V} {rest : List (Incoming D V)}
      {payload : Payload (LoadedTensor D V)} (hcompletions : s.completions = incoming :: rest)
      (harrived : s.arrived incoming = some payload) :
      Steps torch s (.publish recorded)
        { s with
          completions := rest
          received := s.received ++
            (incoming.requestId, some (incoming.layerNames, payload)) ::
              if recorded then [] else [(incoming.requestId, none)] }
  | receiveRaises {incoming : Incoming D V} {rest : List (Incoming D V)}
      (hcompletions : s.completions = incoming :: rest) :
      Steps torch s .receiveRaises
        { s with
          completions := rest, received := s.received ++ [(incoming.requestId, none)] }
  | drains : Steps torch s .drain { s with received := [], drained := s.drained ++ s.received }

variable {torch : Torch D} {s s' : Link D V} {a : Action D V}

theorem senderStep_cases (h : s.senderStep torch a = some s') : Steps torch s a s' := by
  unfold senderStep at h
  split at h
  · obtain rfl := Option.some.inj h
    exact .sends
  · split at h
    · rename_i item rest hthread hqueue
      obtain rfl := Option.some.inj h
      exact .pops hthread hqueue
    · cases h
  · split at h
    · rename_i item ack rest hthread hacks
      obtain rfl := Option.some.inj h
      exact .acks hthread hacks
    · cases h
  · split at h
    · rename_i item t left hthread
      split at h
      · rename_i call hcall
        obtain rfl := Option.some.inj h
        exact .ncclSends hthread hcall
      · rename_i hcall
        obtain rfl := Option.some.inj h
        exact .sendRefused hthread hcall
    · cases h
  · split at h
    · rename_i item hthread
      obtain rfl := Option.some.inj h
      exact .submits hthread
    · cases h
  · split at h
    · rename_i item hthread
      obtain rfl := Option.some.inj h
      exact .sendRaises (Or.inl hthread)
    · rename_i item left hthread
      obtain rfl := Option.some.inj h
      exact .sendRaises (Or.inr ⟨left, hthread⟩)
    · cases h
  · split at h
    · rename_i item rest hcompletions
      obtain rfl := Option.some.inj h
      exact .retires hcompletions
    · cases h
  · cases h

theorem receiverStep_cases (h : s.receiverStep torch a = some s') : Steps torch s a s' := by
  unfold receiverStep at h
  split at h
  · split at h
    · rename_i message rest hlistener hwire
      split at h
      · obtain rfl := Option.some.inj h
        exact .retries hlistener hwire
      · obtain rfl := Option.some.inj h
        exact .rejects hlistener hwire
      · obtain ⟨payload, hpayload, rfl⟩ := Option.map_eq_some_iff.mp h
        exact .accepts hlistener hwire hpayload
    · cases h
  · split at h
    · rename_i incoming t left hlistener
      split at h
      · rename_i call hcall
        obtain rfl := Option.some.inj h
        exact .ncclRecvs hlistener hcall
      · rename_i hcall
        obtain rfl := Option.some.inj h
        exact .recvRefused hlistener hcall
    · cases h
  · split at h
    · rename_i incoming hlistener
      obtain rfl := Option.some.inj h
      exact .posts hlistener
    · cases h
  · split at h
    · rename_i incoming rest hcompletions
      obtain ⟨payload, harrived, rfl⟩ := Option.map_eq_some_iff.mp h
      exact .publishes hcompletions harrived
    · cases h
  · split at h
    · rename_i incoming rest hcompletions
      obtain rfl := Option.some.inj h
      exact .receiveRaises hcompletions
    · cases h
  · obtain rfl := Option.some.inj h
    exact .drains
  · cases h

/-- **Inversion of the step function.** -/
theorem step_cases (h : s.step torch a = some s') : Steps torch s a s' := by
  unfold step at h
  split at h
  all_goals first
    | exact receiverStep_cases h
    | exact senderStep_cases h

end Link

/-- Both ends of a connection, after `INIT`. -/
def linkMachine {D V : Type} (torch : Torch D) : Machine (Link D V) (Link.Action D V) where
  init s := s = {}
  step := Link.step torch

end KVServe.Transport
