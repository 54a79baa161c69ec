import KVServe.Lib.Channel
import KVServe.Transport.Link

/-!
# KVServe.Transport.Delivery

**Accepted payloads arrive.** `DeliveryInv` ties both ends together. The send thread
has at most one message out (`Lockstep`), so the accepted items, the item whose
answer is not decided and the queue are, within every request id, the sent items in
their order with the rejected ones left out. The calls on both streams are those of
the accepted items, short of what a thread still owes (`unsent`, `unposted`), which
pairs every receive with the send of its own tensor.

All this needs NCCL to have a type for every tensor on the stream (`Clean`): where
`from_torch` raises after the acknowledgement, both threads drop the payload and the
producer may already have made some of its calls.
-/

namespace KVServe.Transport

variable {D V : Type}

/-- The calls for some tensors, with the elements sent. -/
def Torch.loadedCalls (torch : Torch D) (ts : List (LoadedTensor D V)) :
    List ((Nat × Nat) × List V) :=
  ts.filterMap fun t => (torch.call? t.1).map (·, t.2)

namespace Item

/-- The calls an accepted item makes. -/
def calls (torch : Torch D) (item : Item D V) : List ((Nat × Nat) × List V) :=
  torch.loadedCalls item.payload.loadedOnStream

/-- What `_received` is to hold for the item. -/
def entry (item : Item D V) : RequestId × List String × Payload (LoadedTensor D V) :=
  (item.requestId, item.layerNames, item.payload)

end Item

section Calls

variable {torch : Torch D}

theorem Torch.loadedCalls_map_fst (ts : List (LoadedTensor D V)) :
    (torch.loadedCalls ts).map (·.1) = (ts.map (·.1)).filterMap torch.call? := by
  simp only [Torch.loadedCalls, List.map_filterMap, List.filterMap_map]
  refine List.filterMap_congr fun t _ => ?_
  simp [Function.comp_def]

theorem Torch.loadedCalls_cons {t : LoadedTensor D V} {ts : List (LoadedTensor D V)}
    {call : Nat × Nat} (h : torch.call? t.1 = some call) :
    torch.loadedCalls (t :: ts) = (call, t.2) :: torch.loadedCalls ts :=
  List.filterMap_cons_some (by rw [h]; rfl)

/-- Every supported tensor makes its call. -/
theorem Torch.loadedCalls_map_snd {ts : List (LoadedTensor D V)}
    (h : ∀ t ∈ ts, (torch.ncclType t.1.dtype).isSome) :
    (torch.loadedCalls ts).map (·.2) = ts.map (·.2) := by
  induction ts with
  | nil => rfl
  | cons t ts ih =>
      obtain ⟨type, htype⟩ := Option.isSome_iff_exists.mp (h t List.mem_cons_self)
      have hcall : torch.call? t.1 = some (t.1.numel, type) := by rw [Torch.call?, htype]; rfl
      rw [Torch.loadedCalls_cons hcall, List.map_cons, List.map_cons,
        ih fun t ht => h t (List.mem_cons_of_mem _ ht)]

theorem Torch.call?_ne_none {t : DeviceTensor D} (h : (torch.ncclType t.dtype).isSome) :
    torch.call? t ≠ none := by
  obtain ⟨type, htype⟩ := Option.isSome_iff_exists.mp h
  simp [Torch.call?, htype]

end Calls

/-- The payload the listener is posting receives for. -/
def PostAt.incomings : PostAt D V → List (Incoming D V)
  | .posting incoming _ => [incoming]
  | .idle => []

/-- Payloads that carry what their items say, their receives in order from place `k`. -/
def Based (torch : Torch D) : Nat → List (Incoming D V) → Prop
  | _, [] => True
  | k, i :: rest =>
      (i.base = k ∧ i.payload = i.item.payload.map (·.1) ∧ i.requestId = i.item.requestId ∧
        i.layerNames = i.item.layerNames) ∧ Based torch (k + (i.item.calls torch).length) rest

variable {torch : Torch D}

theorem Based.concat {k : Nat} {l : List (Incoming D V)} {i : Incoming D V} (h : Based torch k l)
    (hbase : i.base = k + ((l.map (·.item)).flatMap (Item.calls torch)).length)
    (hpayload : i.payload = i.item.payload.map (·.1)) (hrequest : i.requestId = i.item.requestId)
    (hlayers : i.layerNames = i.item.layerNames) : Based torch k (l ++ [i]) := by
  induction l generalizing k with
  | nil => exact ⟨⟨hbase, hpayload, hrequest, hlayers⟩, trivial⟩
  | cons j l ih =>
      refine ⟨h.1, ih h.2 ?_⟩
      simp only [List.map_cons, List.flatMap_cons, List.length_append] at hbase
      omega

namespace Link

variable {s s' : Link D V} {a : Action D V}

/-! ### What is where -/

/-- The item in hand, if it is neither accepted nor rejected. -/
def undecided (s : Link D V) : List (Item D V) :=
  match s.sender.thread with
  | .awaiting item => if s.acks = [.ok] ∨ s.acks = [.oom] then [] else [item]
  | _ => []

/-- The calls the producer still owes for an accepted item. -/
def unsent (torch : Torch D) (s : Link D V) : List ((Nat × Nat) × List V) :=
  match s.sender.thread with
  | .awaiting item => if s.acks = [.ok] then item.calls torch else []
  | .submitting _ left => torch.loadedCalls left
  | .idle => []

/-- The calls the consumer still owes. -/
def unposted (torch : Torch D) (s : Link D V) : List (Nat × Nat) :=
  match s.listener with
  | .posting _ left => left.filterMap torch.call?
  | .idle => []

/-- The accepted payloads that have not appeared, in order. -/
def inTransit (s : Link D V) : List (Incoming D V) := s.completions ++ s.listener.incomings

/-- The payloads among some entries of `_received`. -/
def payloads (l : List (RequestId × Published D V)) :
    List (RequestId × List String × Payload (LoadedTensor D V)) :=
  l.filterMap fun entry => entry.2.map (entry.1, ·)

/-- Every payload that has appeared in `_received`, drained ones included. -/
def appeared (s : Link D V) : List (RequestId × List String × Payload (LoadedTensor D V)) :=
  payloads (s.drained ++ s.received)

/-- The send thread has at most one message or acknowledgement under way. -/
def Lockstep (torch : Torch D) (s : Link D V) : Prop :=
  match s.sender.thread with
  | .awaiting item => item.Supported torch ∧
      ((s.wire = [(item.put torch, item)] ∧ s.acks = []) ∨ (s.wire = [] ∧ ∃ ack, s.acks = [ack]))
  | .submitting _ left => (∀ t ∈ left, (torch.ncclType t.1.dtype).isSome) ∧ s.wire = [] ∧ s.acks = []
  | .idle => s.wire = [] ∧ s.acks = []

/-- The tensors put on the stream have NCCL types, and no call raises. -/
def Clean (torch : Torch D) : Action D V → Prop
  | .send _ _ payload _ => ∀ t ∈ payload.loadedOnStream, (torch.ncclType t.1.dtype).isSome
  | .sendRaises | .receiveRaises => False
  | _ => True

/-- No call but `from_torch` raises. -/
def Faultless : Action D V → Prop
  | .sendRaises | .receiveRaises => False
  | _ => True

structure DeliveryInv (torch : Torch D) (s : Link D V) : Prop where
  supported : ∀ item ∈ s.sender.sent, item.Supported torch
  serials : s.sender.sent.map (·.serial) = List.range s.sender.sent.length
  lockstep : s.Lockstep torch
  posting : ∀ {i left}, s.listener = .posting i left →
    ∀ t ∈ left, (torch.ncclType t.dtype).isSome
  /-- Within a request id nothing overtakes. -/
  order : ∀ r, ((s.accepted ++ s.undecided ++ s.sender.queue).filter (·.requestId = r)).Sublist
    (s.sender.sent.filter (·.requestId = r))
  appeared : ∃ done, s.accepted = done ++ s.inTransit.map (·.item) ∧
    s.appeared = done.map Item.entry ∧
    Based torch (done.flatMap (Item.calls torch)).length s.inTransit
  sends : s.sends ++ s.unsent torch = s.accepted.flatMap (Item.calls torch)
  recvs : s.recvs ++ s.unposted torch =
    (s.accepted.flatMap (Item.calls torch)).map (·.1)

/-! ### One step -/

/-- What is accepted, undecided or queued was sent. -/
theorem DeliveryInv.mem_sent (h : DeliveryInv torch s) {item : Item D V}
    (hmem : item ∈ s.accepted ++ s.undecided ++ s.sender.queue) : item ∈ s.sender.sent := by
  have hfilter : item ∈ (s.accepted ++ s.undecided ++ s.sender.queue).filter
      (·.requestId = item.requestId) := List.mem_filter.mpr ⟨hmem, by simp⟩
  exact List.mem_of_mem_filter ((h.order item.requestId).subset hfilter)

theorem DeliveryInv.enqueue (h : DeliveryInv torch s) {item : Item D V}
    (hserial : item.serial = s.sender.sent.length) (hsupported : item.Supported torch) :
    DeliveryInv torch { s with sender := s.sender.enqueue torch item } where
  supported i hi := by
    rcases List.mem_append.mp hi with hi | hi
    · exact h.supported i hi
    · rw [List.mem_singleton.mp hi]
      exact hsupported
  serials := by
    simp only [Sender.enqueue, List.map_append, List.map_cons, List.map_nil, h.serials, hserial,
      List.length_append, List.length_singleton, List.range_succ]
  lockstep := h.lockstep
  posting := h.posting
  order r := by
    show ((s.accepted ++ s.undecided ++ (s.sender.queue ++ [item])).filter _).Sublist
      ((s.sender.sent ++ [item]).filter _)
    simp only [← List.append_assoc, List.filter_append _ [item]]
    exact (h.order r).append (List.Sublist.refl _)
  appeared := h.appeared
  sends := h.sends
  recvs := h.recvs

/-- The send thread takes the oldest item: it is undecided instead of queued. -/
theorem DeliveryInv.pop (h : DeliveryInv torch s) {item : Item D V} {rest : List (Item D V)}
    (hthread : s.sender.thread = .idle) (hqueue : s.sender.queue = item :: rest) :
    DeliveryInv torch { s with
      sender := { s.sender with
        queue := rest, thread := .awaiting item, inflight := s.sender.inflight + 1 }
      wire := s.wire ++ [(item.put torch, item)] } := by
  obtain ⟨hwire, hacks⟩ : s.wire = [] ∧ s.acks = [] := by
    have := h.lockstep
    rwa [Lockstep, hthread] at this
  have hundecided : s.undecided = [] := by rw [undecided, hthread]
  have hunsent : s.unsent torch = [] := by rw [unsent, hthread]
  have hsent : item ∈ s.sender.sent :=
    h.mem_sent (List.mem_append_right _ (hqueue ▸ List.mem_cons_self))
  refine ⟨h.supported, h.serials, ?_, h.posting, fun r => ?_, h.appeared, ?_, h.recvs⟩
  · exact ⟨h.supported item hsent, Or.inl ⟨by rw [hwire]; rfl, hacks⟩⟩
  · have horder := h.order r
    rw [hundecided, hqueue, List.append_nil] at horder
    simpa [undecided, hacks] using horder
  · have hsends := h.sends
    rw [hunsent, List.append_nil] at hsends
    simpa [unsent, hacks] using hsends

/-- The acknowledgement reaches the send thread. -/
theorem DeliveryInv.recvAck (h : DeliveryInv torch s) {item : Item D V} {ack : Ack}
    {rest : List Ack} (hthread : s.sender.thread = .awaiting item) (hacks : s.acks = ack :: rest) :
    DeliveryInv torch { s with sender := s.sender.acked torch item ack, acks := rest } := by
  obtain ⟨hsupported, hwire, hrest⟩ : item.Supported torch ∧ s.wire = [] ∧ rest = [] := by
    have := h.lockstep
    rw [Lockstep, hthread] at this
    obtain ⟨hsupported, ⟨-, hnil⟩ | ⟨hwire, ack', hack⟩⟩ := this
    · rw [hnil] at hacks
      cases hacks
    · rw [hack] at hacks
      exact ⟨hsupported, hwire, (List.cons.inj hacks).2.symm⟩
  subst hrest
  have horder := h.order
  have hsends := h.sends
  simp only [undecided, hthread, hacks] at horder
  simp only [unsent, hthread, hacks] at hsends
  cases ack with
  | ok =>
      refine ⟨h.supported, h.serials, ⟨hsupported, hwire, rfl⟩, h.posting, fun r => ?_, h.appeared,
        ?_, h.recvs⟩
      · simpa [undecided, Sender.acked] using horder r
      · simpa [unsent, Sender.acked, Item.calls] using hsends
  | oom =>
      refine ⟨h.supported, h.serials, ⟨hwire, rfl⟩, h.posting, fun r => ?_, h.appeared, ?_, h.recvs⟩
      · simpa [undecided, Sender.acked, Sender.finishSendItem] using horder r
      · simpa [unsent, Sender.acked] using hsends
  | retry =>
      refine ⟨h.supported, h.serials, ⟨hwire, rfl⟩, h.posting, fun r => ?_, h.appeared, ?_, h.recvs⟩
      · have := horder r
        simp only [undecided, Sender.acked, Sender.requeue, List.append_nil, List.filter_append,
          Sender.filter_insertBefore]
        simpa [List.filter_append, List.filter_cons] using this
      · simpa [unsent, Sender.acked, Sender.requeue] using hsends

/-- One `ncclSend` pays one owed call. -/
theorem DeliveryInv.ncclSend (h : DeliveryInv torch s) {item : Item D V} {t : LoadedTensor D V}
    {left : List (LoadedTensor D V)} {call : Nat × Nat}
    (hthread : s.sender.thread = .submitting item (t :: left))
    (hcall : torch.call? t.1 = some call) :
    DeliveryInv torch { s with
      sender := { s.sender with thread := .submitting item left }
      sends := s.sends ++ [(call, t.2)] } := by
  have hlock := h.lockstep
  have horder := h.order
  have hsends := h.sends
  simp only [Lockstep, hthread] at hlock
  simp only [undecided, hthread] at horder
  simp only [unsent, hthread, Torch.loadedCalls_cons hcall] at hsends
  refine ⟨h.supported, h.serials, ⟨fun t ht => hlock.1 t (List.mem_cons_of_mem _ ht), hlock.2⟩,
    h.posting, fun r => ?_, h.appeared, ?_, h.recvs⟩
  · simpa [undecided] using horder r
  · simpa [unsent] using hsends

theorem DeliveryInv.submit (h : DeliveryInv torch s) {item : Item D V}
    (hthread : s.sender.thread = .submitting item []) :
    DeliveryInv torch { s with sender := { s.sender with
      thread := .idle, completions := s.sender.completions ++ [item] } } := by
  have hlock := h.lockstep
  have horder := h.order
  have hsends := h.sends
  simp only [Lockstep, hthread] at hlock
  simp only [undecided, hthread] at horder
  simp only [unsent, hthread] at hsends
  refine ⟨h.supported, h.serials, hlock.2, h.posting, fun r => ?_, h.appeared, ?_, h.recvs⟩
  · simpa [undecided] using horder r
  · simpa [unsent, Torch.loadedCalls] using hsends

/-- The message a listener reads is about the item in hand. -/
theorem DeliveryInv.message (h : DeliveryInv torch s) {message : Put × Item D V}
    {rest : List (Put × Item D V)} (hwire : s.wire = message :: rest) :
    ∃ item, s.sender.thread = .awaiting item ∧ message = (item.put torch, item) ∧ rest = [] ∧
      s.acks = [] ∧ item.Supported torch := by
  have hlock := h.lockstep
  unfold Lockstep at hlock
  split at hlock
  · rename_i item hthread
    obtain ⟨hsupported, ⟨heq, hacks⟩ | ⟨hnil, -⟩⟩ := hlock
    · rw [hwire] at heq
      obtain ⟨hmessage, hrest⟩ := List.cons.inj heq
      exact ⟨item, hthread, hmessage, hrest, hacks, hsupported⟩
    · rw [hwire] at hnil
      cases hnil
  · rw [hwire] at hlock
    cases hlock.2.1
  · rw [hwire] at hlock
    cases hlock.1

/-- A message is refused. -/
theorem DeliveryInv.refuse (h : DeliveryInv torch s) {message : Put × Item D V}
    {rest : List (Put × Item D V)} {ack : Ack} {received : List (RequestId × Published D V)}
    (hwire : s.wire = message :: rest) (hack : ack ≠ .ok)
    (hreceived : payloads (s.drained ++ received) = payloads (s.drained ++ s.received)) :
    DeliveryInv torch { s with wire := rest, acks := s.acks ++ [ack], received } := by
  obtain ⟨item, hthread, -, rfl, hacks, hsupported⟩ := h.message hwire
  have horder := h.order
  have hsends := h.sends
  simp only [undecided, hthread, hacks] at horder
  simp only [unsent, hthread, hacks] at hsends
  obtain ⟨done, haccepted, happeared, hbased⟩ := h.appeared
  refine ⟨h.supported, h.serials, ?_, h.posting, fun r => ?_,
    ⟨done, haccepted, hreceived.trans happeared, hbased⟩, ?_, h.recvs⟩
  · simp only [Lockstep, hthread, hacks]
    exact ⟨hsupported, Or.inr ⟨trivial, ack, rfl⟩⟩
  · refine List.Sublist.trans (List.Sublist.filter _ ?_) (horder r)
    simp only [undecided, hthread, hacks]
    refine List.Sublist.append (List.Sublist.append (List.Sublist.refl _) ?_) (List.Sublist.refl _)
    split
    · exact List.nil_sublist _
    · exact List.Sublist.refl _
  · simpa [unsent, hthread, hacks, hack] using hsends

/-- A message is accepted. -/
theorem DeliveryInv.accept (h : DeliveryInv torch s) {message : Put × Item D V}
    {rest : List (Put × Item D V)} {payload : Payload (DeviceTensor D)}
    (hlistener : s.listener = .idle) (hwire : s.wire = message :: rest)
    (hpayload : torch.allocate message.1 = some payload) :
    DeliveryInv torch { s with
      wire := rest, acks := s.acks ++ [.ok]
      listener := .posting (s.incoming message payload) payload.onStream
      accepted := s.accepted ++ [message.2] } := by
  obtain ⟨item, hthread, rfl, rfl, hacks, hsupported⟩ := h.message hwire
  obtain rfl : item.payload.map (·.1) = payload :=
    Option.some.inj ((Item.allocate_put item).symm.trans hpayload)
  have horder := h.order
  have hsends := h.sends
  have hrecvs := h.recvs
  simp only [undecided, hthread, hacks] at horder
  simp only [unsent, hthread, hacks] at hsends
  simp only [unposted, hlistener, List.append_nil] at hrecvs
  obtain ⟨done, haccepted, happeared, hbased⟩ := h.appeared
  simp only [inTransit, hlistener, PostAt.incomings, List.append_nil] at haccepted hbased
  refine ⟨h.supported, h.serials, ?_, fun {i left} hposting => ?_, fun r => ?_,
    ⟨done, ?_, happeared, ?_⟩, ?_, ?_⟩
  · simp only [Lockstep, hthread, hacks]
    exact ⟨hsupported, Or.inr ⟨trivial, .ok, rfl⟩⟩
  · obtain ⟨-, rfl⟩ := PostAt.posting.inj hposting
    rw [← Payload.loadedOnStream_map_fst]
    intro t ht
    obtain ⟨u, hu, rfl⟩ := List.mem_map.mp ht
    exact hsupported u hu
  · simpa [undecided, hthread, hacks] using horder r
  · simp [inTransit, PostAt.incomings, haccepted, incoming]
  · refine hbased.concat ?_ rfl (Item.put_requestId item) (Item.put_layerNames item)
    have hlength := congrArg List.length hrecvs
    rw [haccepted, List.flatMap_append, List.map_append, List.length_append, List.length_map,
      List.length_map] at hlength
    exact hlength
  · simp only [unsent, hthread, hacks, List.nil_append, if_true, List.flatMap_append,
      List.flatMap_cons, List.flatMap_nil, List.append_nil]
    rw [← hsends]
    simp
  · simp only [unposted, List.flatMap_append, List.map_append, List.flatMap_cons, List.flatMap_nil,
      List.append_nil, ← hrecvs]
    rw [← Payload.loadedOnStream_map_fst, Item.calls, Torch.loadedCalls_map_fst]

/-- One `ncclRecv` pays one owed call. -/
theorem DeliveryInv.ncclRecv (h : DeliveryInv torch s) {i : Incoming D V} {t : DeviceTensor D}
    {left : List (DeviceTensor D)} {call : Nat × Nat} (hlistener : s.listener = .posting i (t :: left))
    (hcall : torch.call? t = some call) :
    DeliveryInv torch { s with listener := .posting i left, recvs := s.recvs ++ [call] } := by
  have hrecvs := h.recvs
  simp only [unposted, hlistener, List.filterMap_cons_some hcall] at hrecvs
  obtain ⟨done, haccepted, happeared, hbased⟩ := h.appeared
  simp only [inTransit, hlistener, PostAt.incomings] at haccepted hbased
  refine ⟨h.supported, h.serials, h.lockstep, fun {j left'} hposting => ?_, h.order,
    ⟨done, haccepted, happeared, hbased⟩, h.sends, ?_⟩
  · obtain ⟨-, rfl⟩ := PostAt.posting.inj hposting
    exact fun t ht => h.posting hlistener t (List.mem_cons_of_mem _ ht)
  · simpa [unposted] using hrecvs

theorem DeliveryInv.post (h : DeliveryInv torch s) {i : Incoming D V}
    (hlistener : s.listener = .posting i []) :
    DeliveryInv torch { s with listener := .idle, completions := s.completions ++ [i] } := by
  have hrecvs := h.recvs
  simp only [unposted, hlistener] at hrecvs
  obtain ⟨done, haccepted, happeared, hbased⟩ := h.appeared
  simp only [inTransit, hlistener, PostAt.incomings] at haccepted hbased
  refine ⟨h.supported, h.serials, h.lockstep, fun hposting => (by cases hposting), h.order,
    ⟨done, ?_, happeared, ?_⟩, h.sends, ?_⟩
  · simpa [inTransit, PostAt.incomings] using haccepted
  · simpa [inTransit, PostAt.incomings] using hbased
  · simpa [unposted] using hrecvs

/-- A segment of the calls is read off the sends made so far. -/
theorem segment_eq {α : Type} {made owed before own after : List α}
    (h : made ++ owed = before ++ (own ++ after))
    (hmade : before.length + own.length ≤ made.length) :
    (made.drop before.length).take own.length = own := by
  have htake : made.take (before.length + own.length) = before ++ own := by
    rw [← List.take_append_of_le_length hmade, h, ← List.append_assoc,
      List.take_append_of_le_length (by simp), List.take_of_length_le (by simp)]
  have hdrop := congrArg (List.drop before.length) htake
  rwa [List.drop_take, Nat.add_sub_cancel_left, List.drop_left] at hdrop

/-- The receives of the oldest payload in transit are at the place of its own sends. -/
theorem DeliveryInv.first (h : DeliveryInv torch s) {i : Incoming D V} {rest : List (Incoming D V)}
    (hcompletions : s.completions = i :: rest) :
    ∃ done others, s.accepted = done ++ i.item :: others ∧ i.item.Supported torch ∧
      i.base = (done.flatMap (Item.calls torch)).length ∧ i.payload = i.item.payload.map (·.1) ∧
      i.requestId = i.item.requestId ∧ i.layerNames = i.item.layerNames ∧
      i.payload.onStream.length = (i.item.calls torch).length := by
  obtain ⟨done, haccepted, -, hbased⟩ := h.appeared
  simp only [inTransit, hcompletions, List.cons_append] at haccepted hbased
  obtain ⟨⟨hbase, hpayload, hrequest, hlayers⟩, -⟩ := hbased
  have hsupported : i.item.Supported torch :=
    h.supported _ (h.mem_sent (List.mem_append_left _ (List.mem_append_left _ (by
      rw [haccepted]
      simp))))
  refine ⟨done, _, haccepted, hsupported, hbase, hpayload, hrequest, hlayers, ?_⟩
  have hlength := congrArg List.length (Torch.loadedCalls_map_snd hsupported)
  rw [List.length_map, List.length_map] at hlength
  rw [hpayload, ← Payload.loadedOnStream_map_fst, List.length_map, Item.calls, hlength]

/-- **The oldest payload in transit is filled with its own elements.** -/
theorem DeliveryInv.arrived (h : DeliveryInv torch s) {i : Incoming D V}
    {rest : List (Incoming D V)} {payload : Payload (LoadedTensor D V)}
    (hcompletions : s.completions = i :: rest) (harrived : s.arrived i = some payload) :
    payload = i.item.payload := by
  obtain ⟨done, others, haccepted, hsupported, hbase, hpayload, -, -, hlength⟩ := h.first hcompletions
  simp only [Link.arrived, hlength] at harrived
  split at harrived
  · rename_i hmade
    obtain rfl := Option.some.inj harrived
    have hsends := h.sends
    rw [haccepted, List.flatMap_append, List.flatMap_cons] at hsends
    rw [hbase] at hmade ⊢
    rw [segment_eq hsends hmade, Item.calls, Torch.loadedCalls_map_snd hsupported, hpayload]
    exact Payload.fill_loaded i.item.sized
  · cases harrived

/-- A payload appears. -/
theorem DeliveryInv.publish (h : DeliveryInv torch s) {i : Incoming D V}
    {rest : List (Incoming D V)} {payload : Payload (LoadedTensor D V)}
    {markers : List (RequestId × Published D V)} (hmarkers : payloads markers = [])
    (hcompletions : s.completions = i :: rest) (harrived : s.arrived i = some payload) :
    DeliveryInv torch { s with
      completions := rest
      received := s.received ++ (i.requestId, some (i.layerNames, payload)) :: markers } := by
  obtain rfl := h.arrived hcompletions harrived
  obtain ⟨done, haccepted, happeared, hbased⟩ := h.appeared
  simp only [inTransit, hcompletions, List.cons_append, List.map_cons] at haccepted hbased
  obtain ⟨⟨-, -, hrequest, hlayers⟩, hbased⟩ := hbased
  refine ⟨h.supported, h.serials, h.lockstep, h.posting, h.order,
    ⟨done ++ [i.item], ?_, ?_, ?_⟩, h.sends, h.recvs⟩
  · rw [haccepted, List.append_assoc]
    rfl
  · simp only [Link.appeared, payloads, List.filterMap_append] at happeared
    rw [payloads] at hmarkers
    simp only [Link.appeared, payloads, ← List.append_assoc, List.filterMap_append, happeared]
    simp only [List.filterMap_cons, Option.map_some, hmarkers, List.map_append, hrequest, hlayers]
    rfl
  · rw [List.flatMap_append, List.length_append, List.flatMap_singleton]
    exact hbased

/-- **One clean step keeps the delivery invariant.** -/
theorem DeliveryInv.step (h : DeliveryInv torch s) (hclean : Clean torch a)
    (hsteps : Steps torch s a s') : DeliveryInv torch s' := by
  cases hsteps with
  | sends => exact h.enqueue rfl hclean
  | pops hthread hqueue => exact h.pop hthread hqueue
  | acks hthread hacks => exact h.recvAck hthread hacks
  | ncclSends hthread hcall => exact h.ncclSend hthread hcall
  | sendRefused hthread hcall =>
      have hlock := h.lockstep
      simp only [Lockstep, hthread] at hlock
      exact absurd hcall (Torch.call?_ne_none (hlock.1 _ List.mem_cons_self))
  | submits hthread => exact h.submit hthread
  | sendRaises => exact absurd hclean id
  | retires =>
      exact ⟨h.supported, h.serials, h.lockstep, h.posting, h.order, h.appeared, h.sends, h.recvs⟩
  | retries _ hwire => exact h.refuse hwire (by decide) rfl
  | rejects _ hwire =>
      refine h.refuse hwire (by decide) ?_
      simp [payloads]
  | accepts hlistener hwire hpayload => exact h.accept hlistener hwire hpayload
  | ncclRecvs hlistener hcall => exact h.ncclRecv hlistener hcall
  | recvRefused hlistener hcall =>
      exact absurd hcall (Torch.call?_ne_none (h.posting hlistener _ List.mem_cons_self))
  | posts hlistener => exact h.post hlistener
  | @publishes recorded _ _ _ hcompletions harrived =>
      refine h.publish ?_ hcompletions harrived
      cases recorded <;> rfl
  | receiveRaises => exact absurd hclean id
  | drains =>
      obtain ⟨done, haccepted, happeared, hbased⟩ := h.appeared
      refine ⟨h.supported, h.serials, h.lockstep, h.posting, h.order,
        ⟨done, haccepted, ?_, hbased⟩, h.sends, h.recvs⟩
      rw [← happeared, Link.appeared, Link.appeared, List.append_nil]

/-! ### Nothing stays in transit -/

/-- The steps the listener has to take until its payload has appeared. -/
def postsLeft (s : Link D V) : Nat :=
  match s.listener with
  | .posting _ left => left.length + 2
  | .idle => 0

/-- The steps the send thread has to take until its accepted item is sent. -/
def sendsLeft (s : Link D V) : Nat :=
  match s.sender.thread with
  | .awaiting item => if s.acks = [.ok] then item.payload.loadedOnStream.length + 1 else 0
  | .submitting _ left => left.length
  | .idle => 0

/-- The steps that are left until every accepted payload has appeared. -/
def remaining (s : Link D V) : Nat := s.postsLeft + s.completions.length + s.sendsLeft

/-- A step brings the accepted payloads closer. -/
def Advances (torch : Torch D) (s : Link D V) : Prop :=
  ∃ a s', Clean torch a ∧ s.step torch a = some s' ∧ s'.accepted = s.accepted ∧
    s'.remaining < s.remaining

/-- The listener can post what it owes. -/
theorem DeliveryInv.advances_posting (h : DeliveryInv torch s) {i : Incoming D V}
    {left : List (DeviceTensor D)} (hlistener : s.listener = .posting i left) :
    s.Advances torch := by
  cases left with
  | nil =>
      have hstep : s.step torch .posted =
          some { s with listener := .idle, completions := s.completions ++ [i] } := by
        simp only [Link.step, receiverStep, hlistener]
      refine ⟨.posted, _, trivial, hstep, rfl, ?_⟩
      simp only [remaining, postsLeft, sendsLeft, hlistener, List.length_append, List.length_cons,
        List.length_nil]
      omega
  | cons t left =>
      obtain ⟨call, hcall⟩ := Option.ne_none_iff_exists'.mp
        (Torch.call?_ne_none (h.posting hlistener t List.mem_cons_self))
      have hstep : s.step torch .ncclRecv =
          some { s with listener := .posting i left, recvs := s.recvs ++ [call] } := by
        simp only [Link.step, receiverStep, hlistener, hcall]
      refine ⟨.ncclRecv, _, trivial, hstep, rfl, ?_⟩
      simp only [remaining, postsLeft, sendsLeft, hlistener, List.length_cons]
      omega

/-- The send thread can read an acknowledgement. -/
theorem advances_acked {item : Item D V} (hthread : s.sender.thread = .awaiting item)
    (hacks : s.acks = [.ok]) : s.Advances torch := by
  have hstep : s.step torch .recvAck =
      some { s with sender := s.sender.acked torch item .ok, acks := [] } := by
    simp only [Link.step, senderStep, hthread, hacks]
  refine ⟨.recvAck, _, trivial, hstep, rfl, ?_⟩
  simp only [remaining, postsLeft, sendsLeft, hthread, hacks, Sender.acked, if_true]
  omega

/-- The send thread can make a call it owes. -/
theorem DeliveryInv.advances_sending (h : DeliveryInv torch s) {item : Item D V}
    {t : LoadedTensor D V} {left : List (LoadedTensor D V)}
    (hthread : s.sender.thread = .submitting item (t :: left)) : s.Advances torch := by
  have hlock := h.lockstep
  simp only [Lockstep, hthread] at hlock
  obtain ⟨call, hcall⟩ := Option.ne_none_iff_exists'.mp
    (Torch.call?_ne_none (hlock.1 t List.mem_cons_self))
  have hstep : s.step torch .ncclSend =
      some { s with
        sender := { s.sender with thread := .submitting item left }
        sends := s.sends ++ [(call, t.2)] } := by
    simp only [Link.step, senderStep, hthread, hcall]
  refine ⟨.ncclSend, _, trivial, hstep, rfl, ?_⟩
  simp only [remaining, postsLeft, sendsLeft, hthread, List.length_cons]
  omega

/-- The completion thread can publish once the producer owes nothing. -/
theorem DeliveryInv.advances_publishing (h : DeliveryInv torch s) (hunsent : s.unsent torch = [])
    {i : Incoming D V} {rest : List (Incoming D V)} (hcompletions : s.completions = i :: rest) :
    s.Advances torch := by
  obtain ⟨done, others, haccepted, -, hbase, -, -, -, hlength⟩ := h.first hcompletions
  have hsends := h.sends
  rw [hunsent, List.append_nil, haccepted, List.flatMap_append, List.flatMap_cons] at hsends
  have harrived : ∃ payload, s.arrived i = some payload := by
    simp only [Link.arrived, hlength, hbase, hsends, List.length_append]
    rw [if_pos (by omega)]
    exact ⟨_, rfl⟩
  obtain ⟨payload, harrived⟩ := harrived
  have hstep : s.step torch (.publish true) =
      some { s with
        completions := rest
        received := s.received ++ [(i.requestId, some (i.layerNames, payload))] } := by
    simp only [Link.step, receiverStep, hcompletions, harrived, Option.map_some, if_true]
  refine ⟨.publish true, _, trivial, hstep, rfl, ?_⟩
  simp only [remaining, postsLeft, sendsLeft, hcompletions, List.length_cons]
  omega

/-- **Something can be done** until every accepted payload has appeared. -/
theorem DeliveryInv.progress (h : DeliveryInv torch s) (hremaining : s.remaining ≠ 0) :
    s.Advances torch := by
  have hpublish (hposts : s.postsLeft = 0) (hsendsLeft : s.sendsLeft = 0)
      (hunsent : s.unsent torch = []) : s.Advances torch := by
    cases hcompletions : s.completions with
    | nil =>
        rw [remaining, hposts, hsendsLeft, hcompletions] at hremaining
        exact absurd rfl hremaining
    | cons i rest => exact h.advances_publishing hunsent hcompletions
  cases hlistener : s.listener with
  | posting i left => exact h.advances_posting hlistener
  | idle =>
      have hposts : s.postsLeft = 0 := by rw [postsLeft, hlistener]
      cases hthread : s.sender.thread with
      | idle =>
          refine hpublish hposts ?_ ?_
          · rw [sendsLeft, hthread]
          · rw [unsent, hthread]
      | submitting item left =>
          cases left with
          | nil =>
              refine hpublish hposts ?_ ?_
              · rw [sendsLeft, hthread]
                rfl
              · rw [unsent, hthread]
                rfl
          | cons t left => exact h.advances_sending hthread
      | awaiting item =>
          by_cases hacks : s.acks = [.ok]
          · exact advances_acked hthread hacks
          · refine hpublish hposts ?_ ?_
            · simp only [sendsLeft, hthread, if_neg hacks]
            · simp only [unsent, hthread, if_neg hacks]

/-- With no step left, everything accepted has appeared. -/
theorem DeliveryInv.complete (h : DeliveryInv torch s) (hremaining : s.remaining = 0) :
    s.appeared = s.accepted.map Item.entry ∧ s.sends.map (·.1) = s.recvs := by
  have hlistener : s.listener = .idle := by
    cases hl : s.listener with
    | idle => rfl
    | posting i left =>
        rw [remaining, postsLeft, hl] at hremaining
        simp only at hremaining
        omega
  have hcompletions : s.completions = [] := by
    rw [← List.length_eq_zero_iff]
    rw [remaining] at hremaining
    omega
  have hunsent : s.unsent torch = [] := by
    have hzero : s.sendsLeft = 0 := by
      rw [remaining] at hremaining
      omega
    unfold sendsLeft at hzero
    unfold unsent
    split at hzero
    · rename_i item hthread
      split at hzero
      · omega
      · rename_i hacks
        simp only [if_neg hacks]
    · simp only [List.length_eq_zero_iff.mp hzero, Torch.loadedCalls, List.filterMap_nil]
    · rfl
  obtain ⟨done, haccepted, happeared, -⟩ := h.appeared
  refine ⟨?_, ?_⟩
  · rw [happeared, haccepted, inTransit, hcompletions, hlistener]
    simp [PostAt.incomings]
  · have hsends := h.sends
    have hrecvs := h.recvs
    rw [hunsent, List.append_nil] at hsends
    rw [unposted, hlistener, List.append_nil] at hrecvs
    rw [hsends, hrecvs]

/-- **Every accepted payload appears**: the threads can always be run until it has. -/
theorem DeliveryInv.drains (h : DeliveryInv torch s) :
    ∃ t, (linkMachine torch).Path (fun _ a => Clean torch a) s t ∧ t.accepted = s.accepted ∧
      t.appeared = s.accepted.map Item.entry ∧ t.sends.map (·.1) = t.recvs := by
  induction hn : s.remaining using Nat.strongRecOn generalizing s with
  | ind n ih =>
      by_cases hremaining : s.remaining = 0
      · exact ⟨s, .refl, rfl, h.complete hremaining⟩
      · obtain ⟨a, s', hclean, hstep, haccepted, hlt⟩ := h.progress hremaining
        obtain ⟨t, hpath, heq, happeared, hcalls⟩ :=
          ih _ (hn ▸ hlt) (h.step hclean (step_cases hstep)) rfl
        have hfirst : (linkMachine torch).Path (fun _ a => Clean torch a) s s' :=
          Machine.Path.refl.step hclean hstep
        refine ⟨t, hfirst.trans hpath, heq.trans haccepted, ?_, hcalls⟩
        rw [happeared, haccepted]

/-! ### Every run -/

/-- **What a connection delivers.** -/
structure Delivered (torch : Torch D) (s : Link D V) : Prop where
  /-- The sent items are told apart. -/
  serials : s.sender.sent.map (·.serial) = List.range s.sender.sent.length
  /-- The items accepted for a request id are sent ones, each once and in the order of sending. -/
  accepted : ∀ r, (s.accepted.filter (·.requestId = r)).Sublist
    (s.sender.sent.filter (·.requestId = r))
  /-- What has appeared for a request id are the items accepted for it, each once, in
  order and with their own contents, short of those still in transit. -/
  appeared : ∀ r, (onChannel r s.appeared) ++
    ((s.inTransit.map (·.item)).filter (·.requestId = r)).map (·.entry.2) =
      (s.accepted.filter (·.requestId = r)).map (·.entry.2)
  /-- Both streams make the calls of the accepted items. -/
  streams : (s.sends.map (·.1)) ++ (s.unsent torch).map (·.1) = s.recvs ++ s.unposted torch
  /-- The threads can be run until nothing is in transit. -/
  drains : ∃ t, (linkMachine torch).Path (fun _ a => Clean torch a) s t ∧
    t.accepted = s.accepted ∧ t.appeared = s.accepted.map Item.entry ∧ t.sends.map (·.1) = t.recvs

theorem onChannel_entry (r : RequestId) (items : List (Item D V)) :
    onChannel r (items.map Item.entry) = (items.filter (·.requestId = r)).map (·.entry.2) := by
  induction items with
  | nil => rfl
  | cons item items ih =>
      by_cases hitem : item.requestId = r
      · subst hitem
        rw [List.filter_cons_of_pos (by simp), List.map_cons, List.map_cons, ← ih]
        exact onChannel_cons_self
      · rw [List.filter_cons_of_neg (by simpa using hitem), ← ih]
        exact onChannel_cons_ne hitem

theorem DeliveryInv.delivered (h : DeliveryInv torch s) : Delivered torch s where
  serials := h.serials
  accepted r := by
    refine List.Sublist.trans (List.Sublist.filter _ ?_) (h.order r)
    rw [List.append_assoc]
    exact List.sublist_append_left _ _
  appeared r := by
    obtain ⟨done, haccepted, happeared, -⟩ := h.appeared
    rw [happeared, haccepted, onChannel_entry, List.filter_append, List.map_append]
  streams := by
    rw [h.recvs, ← h.sends, List.map_append]
  drains := h.drains

end Link

/-- **Delivery.** In every run in which NCCL has a type for every tensor put on the stream
and no call raises: the payloads accepted for a request id appear under it in the order
they were sent, each once, with the contents sent, and both streams make the same calls. -/
theorem accepted_payloads_delivered {D V : Type} {torch : Torch D} {s : Link D V}
    (h : (linkMachine torch).ReachWith (fun _ a => Link.Clean torch a) s) : s.Delivered torch := by
  refine Link.DeliveryInv.delivered (Machine.invariant (I := Link.DeliveryInv torch) ?_ ?_ h)
  · rintro s rfl
    refine ⟨fun item hmem => ?_, rfl, ⟨rfl, rfl⟩, fun hposting => ?_, fun r => ?_,
      ⟨[], rfl, rfl, trivial⟩, rfl, rfl⟩
    · cases hmem
    · cases hposting
    · exact List.Sublist.refl _
  · intro s a s' _ hs hclean hstep
    exact hs.step hclean (Link.step_cases hstep)

namespace Link

instance (torch : Torch D) : DecidablePred (Clean torch : Action D V → Prop)
  | .send _ _ payload _ => inferInstanceAs
      (Decidable (∀ t ∈ payload.loadedOnStream, (torch.ncclType t.1.dtype).isSome = true))
  | .sendRaises | .receiveRaises => isFalse id
  | .pop | .recvAck | .ncclSend | .submitted | .retire | .answer _ | .ncclRecv | .posted
  | .publish _ | .drain => isTrue trivial

instance : DecidablePred (Faultless : Action D V → Prop)
  | .sendRaises | .receiveRaises => isFalse id
  | .send .. | .pop | .recvAck | .ncclSend | .submitted | .retire | .answer _ | .ncclRecv | .posted
  | .publish _ | .drain => isTrue trivial

/-- A tensor of two elements. -/
def pair (dtype : SampleDType) : Payload (LoadedTensor SampleDType Nat) :=
  .tensor (⟨[2], dtype⟩, [1, 2])

/-- A bundle with an empty tensor in front. -/
def single : Payload (LoadedTensor SampleDType Nat) :=
  .bundle "meta" [(⟨[0], .float16⟩, []), (⟨[1], .float16⟩, [7])] []

/-- The first request is refused and overtaken by the second. -/
def rotation : List (Action SampleDType Nat) :=
  [.send "a" ["x"] (pair .float16) (by decide), .send "b" ["y"] single (by decide),
    .pop, .answer .retry, .recvAck,
    .pop, .answer .ok, .recvAck, .ncclRecv, .posted, .ncclSend, .submitted, .publish true,
    .pop, .answer .ok, .ncclRecv, .recvAck, .ncclSend, .posted, .publish true]

end Link

open Link in
/-- Both payloads appear, the refused one after the other. -/
theorem accepted_payloads_delivered_rotated : ∃ s : Link SampleDType Nat,
    s.appeared = [("b", ["y"], single), ("a", ["x"], pair .float16)] ∧ s.Delivered .sample := by
  let s := ((linkMachine .sample).exec (fun _ a => decide (Clean .sample a)) {} rotation).get
    (by decide)
  refine ⟨s, by decide, ?_⟩
  exact accepted_payloads_delivered ((Machine.reachWith_of_exec rfl (Option.some_get _).symm).mono
    fun _ _ h => of_decide_eq_true h)

open Link in
/-- A dtype NCCL does not know: the payload is accepted and never appears. -/
theorem accepted_payload_lost :
    ¬ ∀ (D V : Type) (torch : Torch D) (s : Link D V),
      (linkMachine torch).ReachWith (fun _ a => Faultless a) s → s.Delivered torch := by
  intro hall
  let run : List (Action SampleDType Nat) :=
    [.send "r" ["x"] (pair .bool) (by decide), .pop, .answer .ok, .ncclRecv]
  let s := ((linkMachine .sample).exec (fun _ a => decide (Faultless a)) {} run).get (by decide)
  have hreach : (linkMachine .sample).ReachWith (fun _ a => Faultless a) s :=
    (Machine.reachWith_of_exec rfl (Option.some_get _).symm).mono fun _ _ h => of_decide_eq_true h
  have happeared := (hall _ _ _ s hreach).appeared "r"
  have hlength := congrArg List.length happeared
  revert hlength
  decide

end KVServe.Transport
