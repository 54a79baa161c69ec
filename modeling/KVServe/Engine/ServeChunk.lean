import KVServe.Engine.Transfer

/-!
# KVServe.Engine.ServeChunk

`_serve_compression_chunk`, the **in-process producer's handler of a `ChunkPull`**.

The handler is one coroutine on the sender loop. It is given by the `await` it is suspended
at; between two steps of it the other coroutines may do anything to the tables they share
(`Action.others`). The tables are those of the session helper: `_finish_compression_send_meta`,
`_complete_compression_session` and `_discard_compression_session` are the functions of
`KVServe.Session.Book` over `reqs_need_send`, `_compression_producer_sessions` and
`_compression_closed`.

The `except` block logs `request.kv_part` before it marks the session. A `ChunkPull` has no
such field, so **every exception of the `try` block turns into an `AttributeError`**: the
session keeps its state and the consumer gets no reply.
-/

namespace KVServe.Engine

open KVServe.Session

/-- What is raised: an `Exception` with its message, or a `CancelledError`. -/
inductive Raised
  | exception (message : String)
  | cancelled
  deriving DecidableEq, Repr

/-! ### The log call -/

/-- The fields of a `CompressionChunkPull` by name. -/
def attributes (request : CompressionChunkPull) : List (String × (Nat ⊕ String)) :=
  [("transfer_id", .inr request.transferId), ("d_req_id", .inr request.dReqId),
    ("chunk_id", .inl request.chunkId), ("slot_id", .inl request.slotId),
    ("payload_addr", .inl request.payloadAddr), ("aux_addr", .inl request.auxAddr),
    ("tail_addr", .inl request.tailAddr), ("nonce", .inr request.nonce)]

def attributeError (name : String) : String :=
  "'CompressionChunkPull' object has no attribute '" ++ name ++ "'"

/-- `request.name`. -/
def getAttribute (request : CompressionChunkPull) (name : String) : Except String (Nat ⊕ String) :=
  match (attributes request).lookup name with
  | some value => .ok value
  | none => .error (attributeError name)

/-- The arguments of `logger.exception`, evaluated from left to right. -/
def logArguments (request : CompressionChunkPull) : Except String (List (Nat ⊕ String)) :=
  ["d_req_id", "transfer_id", "chunk_id", "kv_part"].mapM (getAttribute request)

/-- The last one does not exist. -/
theorem logArguments_eq (request : CompressionChunkPull) :
    logArguments request = .error (attributeError "kv_part") := rfl

/-! ### The handler -/

/-- The tables of the sender loop. -/
structure Tables where
  book : Book
  now : Nat
  /-- `_compression_sender_slots`. -/
  senderSlots : List Nat

/-- Where `_serve_compression_chunk` is suspended. -/
inductive ServeAt
  | created
  /-- In `_compression_sender_slots.get()`. -/
  | waitSlot (sref : Nat) (window : ChunkWindow)
  /-- In the executor: `_encode_compression_chunk`. -/
  | waitEncode (sref slot : Nat) (window : ChunkWindow) (localChunkIds : BlockIds)
      (validTokens : TokenCounts)
  /-- In `_await_compression_event(encoded.event)`. -/
  | waitEvent (sref slot : Nat) (chunk : OutgoingChunk)
  /-- In the executor: `_send_compressed_blocks`. -/
  | waitTransfer (sref slot : Nat) (chunk : OutgoingChunk)
  /-- In the `_await_compression_event` of the `finally` block, with the reply or the
  exception that follows it. -/
  | waitDrain (sref slot : Nat) (result : Except Raised CompressionChunkReady)
  | done (result : Except Raised CompressionChunkReady)

/-- A handler and the tables. The other fields are history. -/
structure Serving where
  tables : Tables
  pos : ServeAt := .created
  /-- What left the `try` block. -/
  failure : Option Raised := none
  /-- The slots this handler took, and those it put back. -/
  taken : List Nat := []
  released : List Nat := []
  /-- What this handler added to `inflight_chunks`. -/
  counted : Int := 0
  /-- This handler has set the state to `FAILED`. -/
  marked : Bool := false
  /-- The event of the `finally` block raised. -/
  drainFailed : Bool := false

namespace Serving

def mapBook (s : Serving) (f : Book → Book) : Serving :=
  { s with tables := { s.tables with book := f s.tables.book } }

/-- `session.inflight_chunks += n`. -/
def count (s : Serving) (sref : Nat) (n : Int) : Serving :=
  { s.mapBook fun b => b.addInflight sref n with counted := s.counted + n }

/-- `_compression_sender_slots.get()` returns the first slot. -/
def takeSlot (s : Serving) (slot : Nat) (rest : List Nat) : Serving :=
  { s with tables := { s.tables with senderSlots := rest }, taken := s.taken ++ [slot] }

def putSlot (s : Serving) (slot : Nat) : Serving :=
  let senderSlots := s.tables.senderSlots ++ [slot]
  { s with tables := { s.tables with senderSlots }, released := s.released ++ [slot] }

/-- `session.state = SessionState.FAILED`. -/
def markFailed (s : Serving) (sref : Nat) : Serving :=
  { s.mapBook fun b => b.setSessionState sref .failed with marked := true }

/-- The end of the `finally` block: count the chunk out, discard a dead session with its last
chunk. -/
def leave (s : Serving) (sref : Nat) (counted : Bool)
    (result : Except Raised CompressionChunkReady) : Serving :=
  { (if counted then s.count sref (-1) else s).mapBook fun b => b.discardIfIdle sref with
    pos := .done result }

/-- The `finally` block. -/
def finish (s : Serving) (sref : Nat) (slot : Option Nat) (counted : Bool)
    (result : Except Raised CompressionChunkReady) : Serving :=
  match slot with
  | some slot => { s with pos := .waitDrain sref slot result }
  | none => s.leave sref counted result

/-- Something is raised in the `try` block. -/
def raised (s : Serving) (request : CompressionChunkPull) (sref : Nat) (slot : Option Nat)
    (counted : Bool) (exc : Raised) : Serving :=
  let s := { s with failure := some exc }
  match exc with
  | .cancelled => s.finish sref slot counted (.error .cancelled)
  | .exception message =>
      match logArguments request with
      | .error message => s.finish sref slot counted (.error (.exception message))
      | .ok _ =>
          (s.markFailed sref).finish sref slot counted (.ok (.failed request.chunkId message))

/-- From `get()` to the encode job. -/
def withSlot (s : Serving) (worker : Worker) (request : CompressionChunkPull)
    (session : ProducerSession) (sref slot : Nat) (window : ChunkWindow) : Serving :=
  if session.state ≠ SessionState.active ∨
      (s.tables.book.closed request.operationKey).isSome then
    s.raised request sref (some slot) true
      (.exception "Session aborted while waiting for a slot.")
  else
    match chunkTokenCounts (session.validTokensByGroup.map fun (group, n) => (group, (n : Int)))
        worker.blockSizes window with
    | .error message => s.raised request sref (some slot) true (.exception message)
    | .ok validTokens =>
        let localChunkIds := window.blockIds worker.faGroupIndices session.localBlockIds
        { s with pos := .waitEncode sref slot window localChunkIds validTokens }

/-- Up to the first `await`. `get()` does not suspend when a slot is free. -/
def start (s : Serving) (worker : Worker) (identity : Identity) (request : CompressionChunkPull) :
    Option Serving :=
  match s.tables.book.producerSessions (identity, request.transferId, request.dReqId) with
  | none =>
      let result := .ok (.failed request.chunkId "Unknown or completed compression session.")
      some { s with pos := .done result }
  | some sref =>
      match s.tables.book.sessions[sref]? with
      | none => none
      | some session =>
          if session.state ≠ SessionState.active then
            some (s.raised request sref none false
              (.exception ("Compression session is " ++ session.state.name ++ ".")))
          else
            let window := compressionChunkWindow request.chunkId session.logicalBlockCount
              worker.logicalBlocksPerChunk
            let s := s.count sref 1
            match s.tables.senderSlots with
            | [] => some { s with pos := .waitSlot sref window }
            | slot :: rest =>
                some ((s.takeSlot slot rest).withSlot worker request session sref slot window)

/-- The encode job has answered. -/
def encodeAnswered (s : Serving) (worker : Worker) (request : CompressionChunkPull)
    (sref slot : Nat) (window : ChunkWindow) (validTokens : TokenCounts) :
    Except String EncodedChunk → Serving
  | .error message => s.raised request sref (some slot) true (.exception message)
  | .ok encoded =>
      match worker.slots[slot]? with
      | none => s.raised request sref (some slot) true (.exception "list index out of range")
      | some addresses =>
          let chunk : OutgoingChunk :=
            { encoded, sourcePayloadAddr := addresses.payload, sourceAuxAddr := addresses.aux
              destinationPayloadAddr := request.payloadAddr
              destinationAuxAddr := request.auxAddr, destinationTailAddr := request.tailAddr
              auxBytes := worker.auxBytes window.kvPart validTokens }
          { s with pos := .waitEvent sref slot chunk }

/-- The transfer has answered: count the chunk, complete the session with its last one. -/
def transferAnswered (s : Serving) (request : CompressionChunkPull) (sref slot : Nat)
    (chunk : OutgoingChunk) : Except String Nat → Serving
  | .error message => s.raised request sref (some slot) true (.exception message)
  | .ok codecBytes =>
      (s.mapBook fun b => b.chunkEncoded s.tables.now sref request.chunkId).finish sref
        (some slot) true (.ok
          { chunkId := request.chunkId, dataBytes := chunk.encoded.u8Bytes
            payloadBytes := codecBytes, auxBytes := chunk.auxBytes })

/-- Run from an `await` to the next one. `codes` are the return codes of the engine, `drained`
is the outcome of the event of the `finally` block. -/
def resume (s : Serving) (worker : Worker) (identity : Identity) (request : CompressionChunkPull)
    (codes : Nat → Int) (drained : Except String Unit) : Option Serving :=
  match s.pos with
  | .created => s.start worker identity request
  | .waitSlot sref window =>
      match s.tables.senderSlots, s.tables.book.sessions[sref]? with
      | slot :: rest, some session =>
          some ((s.takeSlot slot rest).withSlot worker request session sref slot window)
      | _, _ => none
  | .waitEncode sref slot window localChunkIds validTokens =>
      some (s.encodeAnswered worker request sref slot window validTokens
        (worker.encode slot localChunkIds window.kvPart validTokens))
  | .waitEvent sref slot chunk =>
      match worker.synchronize chunk.encoded with
      | .error message => some (s.raised request sref (some slot) true (.exception message))
      | .ok () => some { s with pos := .waitTransfer sref slot chunk }
  | .waitTransfer sref slot chunk =>
      some (s.transferAnswered request sref slot chunk
        ((worker.synchronize chunk.encoded).bind fun _ =>
          (sendCompressedBlocks codes chunk).result))
  | .waitDrain sref slot result =>
      match drained with
      -- the slot stays out and the chunk in flight
      | .error message =>
          let result := .error (.exception message)
          some { s with pos := .done result, drainFailed := true }
      | .ok () => some ((s.putSlot slot).leave sref true result)
  | .done _ => none

/-- A `CancelledError` at the `await`. -/
def cancel (s : Serving) (request : CompressionChunkPull) : Option Serving :=
  match s.pos with
  | .created => some { s with pos := .done (.error .cancelled) }
  | .waitSlot sref _ => some (s.raised request sref none true .cancelled)
  | .waitEncode sref slot _ _ _ => some (s.raised request sref (some slot) true .cancelled)
  | .waitEvent sref slot _ => some (s.raised request sref (some slot) true .cancelled)
  | .waitTransfer sref slot _ => some (s.raised request sref (some slot) true .cancelled)
  | .waitDrain _ _ _ =>
      some { s with pos := .done (.error .cancelled), drainFailed := true }
  | .done _ => none

/-- What can happen to a handler. -/
inductive Action
  | resume (codes : Nat → Int) (drained : Except String Unit)
  | cancel
  /-- The other coroutines leave these tables. -/
  | others (tables : Tables)

/-- The handler of one `ChunkPull`. -/
def machine (worker : Worker) (identity : Identity) (request : CompressionChunkPull) :
    Machine Serving Action where
  init s := ∃ tables, s = { tables }
  step s
    | .resume codes drained => s.resume worker identity request codes drained
    | .cancel => s.cancel request
    | .others tables => some { s with tables }

/-- The failure is handled: the reply carries the error, the session is dead, the slot and
the count are restored, and a session without chunks in flight is no longer filed. -/
structure Handled (s : Serving) (request : CompressionChunkPull) (sref : Nat) : Prop where
  reply : ∃ message, s.failure = some (.exception message) ∧
    s.pos = .done (.ok (.failed request.chunkId message))
  dead : ∃ session, s.tables.book.sessions[sref]? = some session ∧ session.state.dead = true ∧
    (session.inflightChunks = 0 → s.tables.book.producerSessions session.key ≠ some sref)
  slots : s.released = s.taken
  inflight : s.counted = 0

/-! ### What the handler leaves -/

variable {s s' : Serving} {worker : Worker} {identity : Identity} {request : CompressionChunkPull}

/-- A handler inside the `try` block, with the slots and the count it holds. -/
structure Holds (s : Serving) (taken : List Nat) (counted : Int) : Prop where
  unmarked : s.marked = false
  taken : s.taken = taken
  released : s.released = []
  counted : s.counted = counted
  drainFailed : s.drainFailed = false

theorem Holds.move {taken : List Nat} {counted : Int} (h : s.Holds taken counted)
    (tables : Tables) (pos : ServeAt) : { s with tables, pos }.Holds taken counted :=
  ⟨h.unmarked, h.taken, h.released, h.counted, h.drainFailed⟩

/-- A failed handler ends with an exception. -/
def Unanswered (s : Serving) (result : Except Raised CompressionChunkReady) : Prop :=
  s.failure.isSome = true → ∃ exc, result = .error exc

/-- The invariant of a handler. -/
def Inv (s : Serving) : Prop :=
  match s.pos with
  | .created => s.Holds [] 0 ∧ s.failure = none
  | .waitSlot _ _ => s.Holds [] 1 ∧ s.failure = none
  | .waitEncode _ slot _ _ _ | .waitEvent _ slot _ | .waitTransfer _ slot _ =>
      s.Holds [slot] 1 ∧ s.failure = none
  | .waitDrain _ slot result => s.Holds [slot] 1 ∧ s.Unanswered result
  | .done result =>
      s.marked = false ∧ s.Unanswered result ∧
        (s.drainFailed = false → s.released = s.taken ∧ s.counted = 0)

theorem Holds.finish {sref : Nat} (slot : Option Nat) (counted : Bool)
    {result : Except Raised CompressionChunkReady}
    (h : s.Holds slot.toList (if counted then 1 else 0)) (hslot : slot.isSome → counted = true)
    (hresult : s.Unanswered result) : (s.finish sref slot counted result).Inv := by
  cases slot with
  | some slot =>
      obtain rfl := hslot rfl
      exact ⟨h.move _ _, hresult⟩
  | none =>
      cases counted with
      | false =>
          refine ⟨h.unmarked, hresult, fun _ => ⟨?_, h.counted⟩⟩
          exact h.released.trans h.taken.symm
      | true =>
          refine ⟨h.unmarked, hresult, fun _ => ⟨h.released.trans h.taken.symm, ?_⟩⟩
          show s.counted + -1 = 0
          rw [h.counted]
          rfl

/-- **The `except` block raises**: the session is not marked and nothing is answered. -/
theorem Holds.raised {sref : Nat} (slot : Option Nat) (counted : Bool) {exc : Raised}
    (h : s.Holds slot.toList (if counted then 1 else 0)) (hslot : slot.isSome → counted = true) :
    (s.raised request sref slot counted exc).Inv := by
  have hfail : { s with failure := some exc }.Holds slot.toList (if counted then 1 else 0) :=
    ⟨h.unmarked, h.taken, h.released, h.counted, h.drainFailed⟩
  cases exc with
  | cancelled => exact hfail.finish slot counted hslot fun _ => ⟨_, rfl⟩
  | exception message =>
      rw [Serving.raised]
      simp only [logArguments_eq]
      exact hfail.finish slot counted hslot fun _ => ⟨_, rfl⟩

theorem Holds.withSlot {session : ProducerSession} {sref slot : Nat} {window : ChunkWindow}
    (h : s.Holds [slot] 1) (hfail : s.failure = none) :
    (s.withSlot worker request session sref slot window).Inv := by
  unfold Serving.withSlot
  split
  · exact Holds.raised (some slot) true h fun _ => rfl
  · split
    · exact Holds.raised (some slot) true h fun _ => rfl
    · exact ⟨h.move _ _, hfail⟩

theorem Holds.takeSlot {slot : Nat} {rest : List Nat} (h : s.Holds [] 1) :
    (s.takeSlot slot rest).Holds [slot] 1 := by
  refine ⟨h.unmarked, ?_, h.released, h.counted, h.drainFailed⟩
  show s.taken ++ [slot] = [slot]
  rw [h.taken]
  rfl

theorem Inv.start (h : s.Holds [] 0) (hfail : s.failure = none)
    (hstep : s.start worker identity request = some s') : s'.Inv := by
  unfold Serving.start at hstep
  split at hstep
  · obtain rfl := Option.some.inj hstep
    refine ⟨h.unmarked, fun hsome => ?_, fun _ => ⟨h.released.trans h.taken.symm, h.counted⟩⟩
    rw [hfail] at hsome
    cases hsome
  · split at hstep
    · cases hstep
    · split at hstep
      · obtain rfl := Option.some.inj hstep
        exact Holds.raised none false h fun hnone => nomatch hnone
      · rename_i sref _ _ _ _ _
        have hcount : (s.count sref 1).Holds [] 1 := by
          refine ⟨h.unmarked, h.taken, h.released, ?_, h.drainFailed⟩
          show s.counted + 1 = 1
          rw [h.counted]
          rfl
        simp only at hstep
        split at hstep
        · obtain rfl := Option.some.inj hstep
          exact ⟨hcount.move _ _, hfail⟩
        · obtain rfl := Option.some.inj hstep
          exact hcount.takeSlot.withSlot hfail

theorem Inv.resume {codes : Nat → Int} {drained : Except String Unit} (h : s.Inv)
    (hstep : s.resume worker identity request codes drained = some s') : s'.Inv := by
  unfold Serving.resume at hstep
  unfold Inv at h
  split at hstep
  · rename_i hpos
    rw [hpos] at h
    exact Inv.start h.1 h.2 hstep
  · rename_i hpos
    rw [hpos] at h
    split at hstep
    · obtain rfl := Option.some.inj hstep
      exact h.1.takeSlot.withSlot h.2
    · cases hstep
  · rename_i sref slot window localChunkIds validTokens hpos
    rw [hpos] at h
    obtain rfl := Option.some.inj hstep
    unfold encodeAnswered
    split
    · exact Holds.raised (some slot) true h.1 fun _ => rfl
    · split
      · exact Holds.raised (some slot) true h.1 fun _ => rfl
      · exact ⟨h.1.move _ _, h.2⟩
  · rename_i sref slot chunk hpos
    rw [hpos] at h
    split at hstep
    · obtain rfl := Option.some.inj hstep
      exact Holds.raised (some slot) true h.1 fun _ => rfl
    · obtain rfl := Option.some.inj hstep
      exact ⟨h.1.move _ _, h.2⟩
  · rename_i sref slot chunk hpos
    rw [hpos] at h
    obtain rfl := Option.some.inj hstep
    unfold transferAnswered
    split
    · exact Holds.raised (some slot) true h.1 fun _ => rfl
    · refine Holds.finish (some slot) true ?_ (fun _ => rfl) fun hsome => ?_
      · exact h.1.move _ _
      · have hfail : s.failure.isSome = true := hsome
        rw [h.2] at hfail
        cases hfail
  · rename_i sref slot result hpos
    rw [hpos] at h
    split at hstep
    · obtain rfl := Option.some.inj hstep
      exact ⟨h.1.unmarked, fun _ => ⟨_, rfl⟩, fun hdrain => nomatch hdrain⟩
    · obtain rfl := Option.some.inj hstep
      refine ⟨h.1.unmarked, h.2, fun _ => ⟨?_, ?_⟩⟩
      · show s.released ++ [slot] = s.taken
        rw [h.1.released, h.1.taken]
        rfl
      · show s.counted + -1 = 0
        rw [h.1.counted]
        rfl
  · cases hstep

theorem Inv.cancel (h : s.Inv) (hstep : s.cancel request = some s') : s'.Inv := by
  unfold Serving.cancel at hstep
  unfold Inv at h
  split at hstep
  · rename_i hpos
    rw [hpos] at h
    obtain rfl := Option.some.inj hstep
    exact ⟨h.1.unmarked, fun _ => ⟨_, rfl⟩,
      fun _ => ⟨h.1.released.trans h.1.taken.symm, h.1.counted⟩⟩
  · rename_i hpos
    rw [hpos] at h
    obtain rfl := Option.some.inj hstep
    exact Holds.raised none true h.1 fun hnone => nomatch hnone
  · rename_i slot _ _ _ hpos
    rw [hpos] at h
    obtain rfl := Option.some.inj hstep
    exact Holds.raised (some slot) true h.1 fun _ => rfl
  · rename_i slot _ hpos
    rw [hpos] at h
    obtain rfl := Option.some.inj hstep
    exact Holds.raised (some slot) true h.1 fun _ => rfl
  · rename_i slot _ hpos
    rw [hpos] at h
    obtain rfl := Option.some.inj hstep
    exact Holds.raised (some slot) true h.1 fun _ => rfl
  · rename_i hpos
    rw [hpos] at h
    obtain rfl := Option.some.inj hstep
    exact ⟨h.1.unmarked, fun _ => ⟨_, rfl⟩, fun hdrain => nomatch hdrain⟩
  · cases hstep

theorem inv_of_reachable (h : (machine worker identity request).Reachable s) : s.Inv := by
  refine Machine.invariant (I := Inv) ?_ ?_ h
  · rintro s ⟨tables, rfl⟩
    exact ⟨⟨rfl, rfl, rfl, rfl, rfl⟩, rfl⟩
  · intro s a s' _ hinv _ hstep
    cases a with
    | resume codes drained => exact hinv.resume hstep
    | cancel => exact hinv.cancel hstep
    | others tables =>
        obtain rfl := Option.some.inj hstep
        unfold Inv at hinv ⊢
        split at hinv <;> rename_i hpos <;> simp only [hpos]
        · exact hinv.imp_left fun h => h.move _ _
        · exact hinv.imp_left fun h => h.move _ _
        · exact hinv.imp_left fun h => h.move _ _
        · exact hinv.imp_left fun h => h.move _ _
        · exact hinv.imp_left fun h => h.move _ _
        · exact hinv.imp_left fun h => h.move _ _
        · exact hinv

/-- **No failure is handled.** Whatever is raised while a chunk of a filed session is served,
and whatever the other coroutines do, the handler ends with an exception and without having
marked the session. The slot and the count are restored, unless the event of the `finally` block
raises. -/
theorem serve_failure_unanswered (h : (machine worker identity request).Reachable s)
    (hfail : s.failure.isSome = true) {result : Except Raised CompressionChunkReady}
    (hdone : s.pos = .done result) (sref : Nat) :
    (∃ exc, result = .error exc) ∧ s.marked = false ∧
      (s.drainFailed = false → s.released = s.taken ∧ s.counted = 0) ∧
      ¬ s.Handled request sref := by
  have hinv := inv_of_reachable h
  unfold Inv at hinv
  rw [hdone] at hinv
  obtain ⟨hmarked, hresult, hrestores⟩ := hinv
  obtain ⟨exc, rfl⟩ := hresult hfail
  refine ⟨⟨exc, rfl⟩, hmarked, hrestores, fun hhandled => ?_⟩
  obtain ⟨message, -, hreply⟩ := hhandled.reply
  rw [hdone] at hreply
  cases hreply

/-- A session of one window is filed, and a slot is free. -/
def servingTables : Tables :=
  { book :=
      { states := [{ transferId := "t", pReqId := "p", ready := true, needSend := 1, sending := 1 }]
        sendMeta := fun id => if id = "t" then some 0 else none
        sessions := [{ identity := "c", transferId := "t", dReqId := "d", nonce := "n"
                       remoteSession := ("c", 2), localBlockIds := [[1]]
                       validTokensByGroup := [(0, 1)], logicalBlockCount := 1
                       totalChunks := 2, sendState := 0, opener := 0 }]
        producerSessions := fun key => if key = ("c", "t", "d") then some 0 else none }
    now := 0, senderSlots := [0] }

def servedPull : CompressionChunkPull :=
  { transferId := "t", dReqId := "d", chunkId := 0, slotId := 0, payloadAddr := 100
    auxAddr := 200, tailAddr := 300, nonce := "n" }

/-- A worker whose encoder raises. -/
def failingWorker : Worker :=
  { logicalBlocksPerChunk := 1, faGroupIndices := [0], blockSizes := [(0, 1)]
    slots := [⟨0, 10, 20⟩], encode := fun _ _ _ _ => .error "out of memory"
    auxBytes := fun _ _ => 0, synchronize := fun _ => .ok () }

/-- The handler takes the slot, the encoder raises, the slot is drained. -/
def failedServing : Serving :=
  ((machine failingWorker "c" servedPull).exec (fun _ _ => true) { tables := servingTables }
    (List.replicate 3 (.resume (fun _ => 0) (.ok ())))).get (by decide)

theorem reachable_failedServing :
    (machine failingWorker "c" servedPull).Reachable failedServing := by
  have hinit : (machine failingWorker "c" servedPull).init { tables := servingTables } :=
    ⟨servingTables, rfl⟩
  exact (Machine.reachWith_of_exec hinit (Option.some_get _).symm).mono fun _ _ _ => trivial

theorem serve_failure_unanswered_encode :
    failedServing.pos = .done (.error (.exception (attributeError "kv_part"))) ∧
      ((∃ exc, (.error (.exception (attributeError "kv_part")) :
          Except Raised CompressionChunkReady) = .error exc) ∧
        failedServing.marked = false ∧
        (failedServing.drainFailed = false →
          failedServing.released = failedServing.taken ∧ failedServing.counted = 0) ∧
        ¬ failedServing.Handled servedPull 0) :=
  ⟨rfl, serve_failure_unanswered reachable_failedServing rfl rfl 0⟩

/-- The encoder fails in the only chunk in flight: the handler raises, the session stays
active with nothing in flight, and the send target is never finished. -/
theorem serve_failure_lost : ∃ s, (machine failingWorker "c" servedPull).Reachable s ∧
    s.failure = some (.exception "out of memory") ∧
    s.pos = .done (.error (.exception (attributeError "kv_part"))) ∧
    (s.tables.book.sessions.map fun x => (x.state, x.inflightChunks)) =
      [(SessionState.active, 0)] ∧
    s.tables.book.finalEvents = [] ∧ ¬ s.Handled servedPull 0 := by
  refine ⟨failedServing, reachable_failedServing, rfl, rfl, by decide, rfl, fun hhandled => ?_⟩
  obtain ⟨message, -, hreply⟩ := hhandled.reply
  cases hreply

end Serving

end KVServe.Engine
