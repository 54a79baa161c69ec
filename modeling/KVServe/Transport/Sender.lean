import KVServe.Transport.Payload

/-!
# KVServe.Transport.Sender

The **producer side of the NCCL transport**: `send` and `send_bundle`, the queue
of `_send_loop` and the items that wait for their completion events.

An item is a payload with its elements; `Item.sized` says that the elements are
those of its shapes, so a tensor without elements carries none. The send thread
has one item in hand at a time (`SendAt`). A refused item goes back in front of
the first queued item of its own request id, which rotates the requests and keeps
the order within each.

`sent` and `finished` are history: no definition reads them to decide anything.
-/

namespace KVServe.Transport

variable {D V : Type}

/-- A tensor with its elements. -/
abbrev LoadedTensor (D V : Type) := DeviceTensor D × List V

namespace Payload

/-- The tensors that go over NCCL, with their elements. -/
def loadedOnStream : Payload (LoadedTensor D V) → List (LoadedTensor D V)
  | .tensor t => [t]
  | .bundle _ bodyChunks auxTensors => (bodyChunks ++ auxTensors).filter (·.1.numel ≠ 0)

theorem loadedOnStream_map_fst (payload : Payload (LoadedTensor D V)) :
    payload.loadedOnStream.map (·.1) = (payload.map (·.1)).onStream := by
  cases payload with
  | tensor t => rfl
  | bundle «meta» bodyChunks auxTensors =>
      simp only [loadedOnStream, Payload.map, onStream, ← List.map_append, List.filter_map]
      rfl

/-- Put elements into some buffers, in the order of the stream. Empty buffers are
skipped. -/
def fillTensors : List (DeviceTensor D) → List (List V) → List (LoadedTensor D V) × List (List V)
  | [], elements => ([], elements)
  | t :: ts, elements =>
      if t.numel = 0 then
        ((t, []) :: (fillTensors ts elements).1, (fillTensors ts elements).2)
      else
        ((t, elements.headD []) :: (fillTensors ts elements.tail).1,
          (fillTensors ts elements.tail).2)

/-- The buffers of a payload with the elements that arrived for it. -/
def fill : Payload (DeviceTensor D) → List (List V) → Payload (LoadedTensor D V)
  | .tensor t, elements => .tensor (t, elements.headD [])
  | .bundle «meta» bodyChunks auxTensors, elements =>
      .bundle «meta» (fillTensors bodyChunks elements).1
        (fillTensors auxTensors (fillTensors bodyChunks elements).2).1

theorem fillTensors_loaded {ts : List (LoadedTensor D V)}
    (hsized : ∀ t ∈ ts, t.2.length = t.1.numel) (rest : List (List V)) :
    fillTensors (ts.map (·.1)) ((ts.filter (·.1.numel ≠ 0)).map (·.2) ++ rest) = (ts, rest) := by
  induction ts with
  | nil => rfl
  | cons t ts ih =>
      have ih := ih fun t ht => hsized t (List.mem_cons_of_mem _ ht)
      by_cases hzero : t.1.numel = 0
      · have hnil : t.2 = [] := by
          rw [← List.length_eq_zero_iff, hsized t List.mem_cons_self, hzero]
        simp only [List.map_cons, fillTensors, hzero, if_true]
        rw [List.filter_cons_of_neg (by simp [hzero]), ih, ← hnil]
      · simp only [List.map_cons, fillTensors, hzero, if_false]
        rw [List.filter_cons_of_pos (by simp [hzero])]
        simp only [List.map_cons, List.cons_append, List.headD_cons, List.tail_cons, ih]

/-- **The buffers of a payload hold it** once its own elements have arrived. -/
theorem fill_loaded {payload : Payload (LoadedTensor D V)}
    (hsized : ∀ t ∈ payload.tensors, t.2.length = t.1.numel) :
    (payload.map (·.1)).fill (payload.loadedOnStream.map (·.2)) = payload := by
  cases payload with
  | tensor t => rfl
  | bundle «meta» bodyChunks auxTensors =>
      have hbody := @fillTensors_loaded _ _ bodyChunks
        (fun t ht => hsized t (List.mem_append_left _ ht))
        ((auxTensors.filter (·.1.numel ≠ 0)).map (·.2))
      have haux := @fillTensors_loaded _ _ auxTensors
        (fun t ht => hsized t (List.mem_append_right _ ht)) []
      rw [List.append_nil] at haux
      simp only [Payload.map, fill, loadedOnStream, List.filter_append, List.map_append, hbody, haux]

end Payload

/-- `_tensor_spec`. -/
def Torch.tensorSpec (torch : Torch D) (t : DeviceTensor D) : TensorSpec :=
  { shape := t.shape, dtype := torch.name t.dtype }

/-- An entry of `_send_queue`. -/
structure Item (D V : Type) where
  /-- History: the place in `sent`. -/
  serial : Nat
  requestId : RequestId
  layerNames : List String
  payload : Payload (LoadedTensor D V)
  sized : ∀ t ∈ payload.tensors, t.2.length = t.1.numel

namespace Item

/-- The message of `_send_one` or `_send_bundle_one`. -/
def put (torch : Torch D) (item : Item D V) : Put :=
  match item.payload with
  | .tensor t => .tensor item.requestId item.layerNames (torch.tensorSpec t.1)
  | .bundle «meta» bodyChunks auxTensors =>
      .bundle item.requestId item.layerNames «meta» (bodyChunks.map fun t => torch.tensorSpec t.1)
        (auxTensors.map fun t => torch.tensorSpec t.1)

/-- `payload_bytes`. -/
def payloadBytes (torch : Torch D) (item : Item D V) : Nat :=
  torch.payloadNbytes (item.payload.map (·.1))

/-- NCCL has a type for every tensor that goes on the stream. -/
def Supported (torch : Torch D) (item : Item D V) : Prop :=
  ∀ t ∈ item.payload.loadedOnStream, (torch.ncclType t.1.dtype).isSome

variable {torch : Torch D}

@[simp] theorem put_requestId (item : Item D V) : (item.put torch).requestId = item.requestId := by
  unfold put
  split <;> rfl

@[simp] theorem put_layerNames (item : Item D V) :
    (item.put torch).layerNames = item.layerNames := by
  unfold put
  split <;> rfl

theorem mapM_tensorSpec (ts : List (LoadedTensor D V)) :
    (ts.map fun t => torch.tensorSpec t.1).mapM torch.allocateFromSpec = some (ts.map (·.1)) := by
  induction ts with
  | nil => rfl
  | cons t ts ih =>
      rw [List.map_cons, List.mapM_cons, ih]
      simp [Torch.allocateFromSpec, Torch.tensorSpec, torch.byName_name]

/-- The consumer allocates the buffers the payload needs. -/
theorem allocate_put (item : Item D V) :
    torch.allocate (item.put torch) = some (item.payload.map (·.1)) := by
  unfold put
  split
  · rename_i t hpayload
    simp [Torch.allocate, Torch.allocateFromSpec, Torch.tensorSpec, torch.byName_name, hpayload,
      Payload.map]
  · rename_i «meta» bodyChunks auxTensors hpayload
    simp only [Torch.allocate, mapM_tensorSpec, hpayload, Payload.map]
    rfl

end Item

/-! ### The send thread -/

/-- Where `_send_loop` stands. -/
inductive SendAt (D V : Type)
  | idle
  /-- The message is sent, the acknowledgement is to come. -/
  | awaiting (item : Item D V)
  /-- The item is accepted, the `ncclSend` calls of `left` are to come. -/
  | submitting (item : Item D V) (left : List (LoadedTensor D V))

structure Sender (D V : Type) where
  queue : List (Item D V) := []
  thread : SendAt D V := .idle
  completions : List (Item D V) := []
  inflight : Int := 0
  pendingBytes : Int := 0
  sent : List (Item D V) := []
  finished : List (Item D V) := []

namespace Sender

/-- `send` and `send_bundle`. -/
def enqueue (torch : Torch D) (s : Sender D V) (item : Item D V) : Sender D V :=
  { s with
    queue := s.queue ++ [item]
    pendingBytes := s.pendingBytes + item.payloadBytes torch
    sent := s.sent ++ [item] }

/-- `insert` before the first queued item of the same request id. -/
def insertBefore (item : Item D V) : List (Item D V) → List (Item D V)
  | [] => [item]
  | queued :: rest =>
      if queued.requestId = item.requestId then item :: queued :: rest
      else queued :: insertBefore item rest

/-- The consumer has answered `_NCCL_ACK_RETRY`. -/
def requeue (s : Sender D V) (item : Item D V) : Sender D V :=
  { s with thread := .idle, queue := insertBefore item s.queue, inflight := s.inflight - 1 }

/-- `_finish_send_item`. -/
def finishSendItem (torch : Torch D) (s : Sender D V) (item : Item D V) : Sender D V :=
  { s with
    pendingBytes := s.pendingBytes - item.payloadBytes torch
    inflight := s.inflight - 1
    finished := s.finished ++ [item] }

/-- The acknowledgement of the item in hand. -/
def acked (torch : Torch D) (s : Sender D V) (item : Item D V) : Ack → Sender D V
  | .ok => { s with thread := .submitting item item.payload.loadedOnStream }
  | .oom => { s.finishSendItem torch item with thread := .idle }
  | .retry => s.requeue item

/-- **Requeueing keeps the order within every request.** -/
theorem filter_insertBefore (item : Item D V) (queue : List (Item D V)) (r : RequestId) :
    (insertBefore item queue).filter (·.requestId = r) =
      (item :: queue).filter (·.requestId = r) := by
  induction queue with
  | nil => rfl
  | cons queued rest ih =>
      rw [insertBefore]
      split
      · rfl
      · rename_i hne
        by_cases hitem : item.requestId = r
        · have hqueued : queued.requestId ≠ r := fun h => hne (h.trans hitem.symm)
          simp only [List.filter_cons, ih, hitem, hqueued, decide_true, decide_false, if_true,
            Bool.false_eq_true, if_false]
        · simp only [List.filter_cons, ih, hitem, decide_false, Bool.false_eq_true, if_false]

end Sender

end KVServe.Transport
