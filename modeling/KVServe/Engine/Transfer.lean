import KVServe.Engine.Chunks
import KVServe.Session.ProducerRuns

/-!
# KVServe.Engine.Transfer

The **remote write of an encoded chunk**: `_send_blocks` with its batching,
`_send_compressed_blocks`, `_session_job_encode_chunk` and `_run_job`, up to the
reply of the helper.

The Mooncake transfer engine is not part of the repository. All the code sees of
`batch_transfer_sync_write` is its return code, so a run is given by the code
`codes i` of the `i`-th call, and a result lists the calls that were made.

`_send_compressed_blocks` drops the return code of `_send_blocks`, so a failed
write is not seen by the job: `encode_ready_iff_written` says exactly when that
does no harm.
-/

namespace KVServe.Engine

open KVServe.Session

/-- `_RAW_TRANSFER_MAX_DESCRIPTORS`. -/
def rawTransferMaxDescriptors : Nat := 1024

/-- `_RAW_TRANSFER_MAX_BYTES`. -/
def rawTransferMaxBytes : Nat := 64 * 1024 * 1024

/-- One entry of the parallel lists `src_ptrs`, `dst_ptrs`, `lengths`. -/
structure Descriptor where
  src : Nat
  dst : Nat
  length : Int
  deriving DecidableEq, Repr

/-- One call of `batch_transfer_sync_write` and its return code. -/
structure WriteCall where
  batch : List Descriptor
  code : Int
  deriving DecidableEq, Repr

/-- What `_send_blocks` did and what it returned or raised. -/
structure SendResult where
  calls : List WriteCall
  ret : Except String Int

/-! ### `_send_blocks` -/

/-- The inner loop: fill a batch that already has `count` descriptors of `bytes`
bytes in total. Returns the batch and the descriptors after it. -/
def fillBatch (count : Nat) (bytes : Int) :
    List Descriptor → Except String (List Descriptor × List Descriptor)
  | [] => .ok ([], [])
  | d :: rest =>
      if d.length < 0 then .error "Mooncake raw transfer lengths cannot be negative."
      else if rawTransferMaxDescriptors ≤ count ∨
          (0 < count ∧ (rawTransferMaxBytes : Int) < bytes + d.length) then .ok ([], d :: rest)
      else
        match fillBatch (count + 1) (bytes + d.length) rest with
        | .ok (batch, remaining) => .ok (d :: batch, remaining)
        | .error message => .error message

/-- The inner loop only splits the list. -/
theorem fillBatch_append {count : Nat} {bytes : Int} {ds batch remaining : List Descriptor}
    (h : fillBatch count bytes ds = .ok (batch, remaining)) : batch ++ remaining = ds := by
  induction ds generalizing count bytes batch remaining with
  | nil =>
      obtain ⟨rfl, rfl⟩ := Prod.mk.inj (Except.ok.inj h)
      rfl
  | cons d rest ih =>
      rw [fillBatch] at h
      split at h
      · cases h
      · split at h
        · obtain ⟨rfl, rfl⟩ := Prod.mk.inj (Except.ok.inj h)
          rfl
        · split at h
          · rename_i hfill
            obtain ⟨rfl, rfl⟩ := Prod.mk.inj (Except.ok.inj h)
            rw [List.cons_append, ih hfill]
          · cases h

/-- A fresh batch takes its first descriptor, whatever its size. -/
theorem fillBatch_ne_nil {d : Descriptor} {rest batch remaining : List Descriptor}
    (h : fillBatch 0 0 (d :: rest) = .ok (batch, remaining)) : batch ≠ [] := by
  rw [fillBatch] at h
  split at h
  · cases h
  · rw [if_neg (by simp [rawTransferMaxDescriptors])] at h
    split at h
    · obtain ⟨rfl, -⟩ := Prod.mk.inj (Except.ok.inj h)
      exact List.cons_ne_nil _ _
    · cases h

theorem fillBatch_progress {d : Descriptor} {rest batch remaining : List Descriptor}
    (h : fillBatch 0 0 (d :: rest) = .ok (batch, remaining)) :
    remaining.length < (d :: rest).length := by
  have happend := congrArg List.length (fillBatch_append h)
  have hpos := List.length_pos_iff.mpr (fillBatch_ne_nil h)
  rw [List.length_append] at happend
  omega

/-- Filling a batch fails only on a negative length. -/
theorem fillBatch_ok {count : Nat} {bytes : Int} {ds : List Descriptor}
    (h : ∀ d ∈ ds, 0 ≤ d.length) :
    ∃ batch remaining, fillBatch count bytes ds = .ok (batch, remaining) := by
  induction ds generalizing count bytes with
  | nil => exact ⟨[], [], rfl⟩
  | cons d rest ih =>
      have hd := h d List.mem_cons_self
      rw [fillBatch, if_neg (by omega)]
      split
      · exact ⟨_, _, rfl⟩
      · obtain ⟨batch, remaining, hfill⟩ := ih
          fun d' hd' => h d' (List.mem_cons_of_mem d hd')
        exact ⟨d :: batch, remaining, by rw [hfill]⟩

/-- The outer loop after `made` calls. -/
def sendLoop (codes : Nat → Int) (made : Nat) : List Descriptor → SendResult
  | [] => { calls := [], ret := .ok 0 }
  | d :: rest =>
      match hfill : fillBatch 0 0 (d :: rest) with
      | .error message => { calls := [], ret := .error message }
      | .ok (batch, remaining) =>
          let call : WriteCall := { batch, code := codes made }
          if codes made ≠ 0 then { calls := [call], ret := .ok (codes made) }
          else
            let result := sendLoop codes (made + 1) remaining
            { result with calls := call :: result.calls }
termination_by ds => ds.length
decreasing_by exact fillBatch_progress hfill

/-- `_send_blocks`. -/
def sendBlocks (codes : Nat → Int) (srcPtrs dstPtrs : List Nat) (lengths : List Int) :
    SendResult :=
  if srcPtrs.length = dstPtrs.length ∧ dstPtrs.length = lengths.length then
    sendLoop codes 0 ((srcPtrs.zip dstPtrs).zipWith (fun (src, dst) length => ⟨src, dst, length⟩)
      lengths)
  else
    { calls := []
      ret := .error ("Mooncake raw transfer requires matching source, destination, " ++
        "and length descriptor counts.") }

/-! ### The batches of a transfer -/

/-- One pass of the outer loop. -/
theorem sendLoop_cons {codes : Nat → Int} {made : Nat} {d : Descriptor}
    {rest batch remaining : List Descriptor}
    (h : fillBatch 0 0 (d :: rest) = .ok (batch, remaining)) :
    sendLoop codes made (d :: rest) =
      if codes made ≠ 0 then { calls := [⟨batch, codes made⟩], ret := .ok (codes made) }
      else { sendLoop codes (made + 1) remaining with
        calls := ⟨batch, codes made⟩ :: (sendLoop codes (made + 1) remaining).calls } := by
  rw [sendLoop]
  split
  · rename_i hfill
    rw [h] at hfill
    cases hfill
  · rename_i hfill
    rw [h] at hfill
    obtain ⟨rfl, rfl⟩ := Prod.mk.inj (Except.ok.inj hfill)
    rfl

/-- The batches `_send_blocks` hands over when every call returns 0. -/
def planBatches (ds : List Descriptor) : List (List Descriptor) :=
  (sendLoop (fun _ => 0) 0 ds).calls.map WriteCall.batch

/-- The zero run does not depend on how many calls were made before. -/
theorem sendLoop_zero (made made' : Nat) (ds : List Descriptor) :
    sendLoop (fun _ => 0) made ds = sendLoop (fun _ => 0) made' ds := by
  induction hn : ds.length using Nat.strong_induction_on generalizing made made' ds with
  | _ n ih =>
      subst hn
      cases ds with
      | nil => rw [sendLoop, sendLoop]
      | cons d rest =>
          rw [sendLoop, sendLoop]
          split
          · rfl
          · rename_i hfill
            rw [ih _ (fillBatch_progress hfill) (made + 1) (made' + 1) _ rfl]

theorem planBatches_cons {d : Descriptor} {rest batch remaining : List Descriptor}
    (h : fillBatch 0 0 (d :: rest) = .ok (batch, remaining)) :
    planBatches (d :: rest) = batch :: planBatches remaining := by
  rw [planBatches, sendLoop_cons h, if_neg (by simp), planBatches, sendLoop_zero 0 1]
  rfl

/-- **What `_send_blocks` does with non-negative lengths.** It hands over the
planned batches up to the first non-zero code, and returns that code. -/
theorem sendLoop_spec {codes : Nat → Int} {made : Nat} {ds : List Descriptor}
    (h : ∀ d ∈ ds, 0 ≤ d.length) :
    (planBatches ds).flatten = ds ∧
    ((∀ i < (planBatches ds).length, codes (made + i) = 0) →
      (sendLoop codes made ds).calls = (planBatches ds).map (⟨·, 0⟩) ∧
        (sendLoop codes made ds).ret = .ok 0) ∧
    (¬ (∀ i < (planBatches ds).length, codes (made + i) = 0) →
      ∃ call ∈ (sendLoop codes made ds).calls, call.code ≠ 0 ∧
        (sendLoop codes made ds).ret = .ok call.code) := by
  induction hn : ds.length using Nat.strong_induction_on generalizing made ds with
  | _ n ih =>
      subst hn
      cases ds with
      | nil =>
          rw [planBatches, sendLoop, sendLoop]
          exact ⟨rfl, fun _ => ⟨rfl, rfl⟩, fun hno => absurd (by simp) hno⟩
      | cons d rest =>
          obtain ⟨batch, remaining, hfill⟩ := fillBatch_ok h
          have happend := fillBatch_append hfill
          have hrest : ∀ d' ∈ remaining, 0 ≤ d'.length := fun d' hd' =>
            h d' (happend ▸ List.mem_append_right batch hd')
          obtain ⟨hflat, hzero, hfail⟩ := ih _ (fillBatch_progress hfill) hrest rfl
          rw [planBatches_cons hfill, sendLoop_cons hfill]
          refine ⟨by rw [List.flatten_cons, hflat, happend], fun hall => ?_, fun hno => ?_⟩
          · have hfirst : codes made = 0 := hall 0 (by simp)
            obtain ⟨hcalls, hret⟩ := hzero fun i hi => by
              have := hall (i + 1) (by simpa using hi)
              rwa [← Nat.add_assoc, Nat.add_right_comm] at this
            rw [if_neg (by simpa using hfirst)]
            exact ⟨by rw [hcalls, hfirst]; rfl, hret⟩
          · by_cases hfirst : codes made = 0
            · rw [if_neg (by simpa using hfirst)]
              obtain ⟨call, hmem, hcode, hret⟩ := hfail fun hall => hno fun i hi => by
                cases i with
                | zero => exact hfirst
                | succ i =>
                    rw [← Nat.add_assoc, Nat.add_right_comm]
                    exact hall i (by simpa using hi)
              exact ⟨call, List.mem_cons_of_mem _ hmem, hcode, hret⟩
            · rw [if_pos hfirst]
              exact ⟨_, List.mem_singleton_self _, hfirst, rfl⟩

/-! ### The encode job -/

/-- `EncodedChunk`, as far as the transfer reads it. -/
structure EncodedChunk where
  u8Bytes : Nat
  codecBytes : Nat
  rawTailAddr : Nat
  rawTailBytes : Nat
  deriving DecidableEq, Repr

/-- The worker, as far as an encode job reads it. The compression pipeline is a
parameter: any chunk, or an exception, can come out of it. -/
structure Worker where
  logicalBlocksPerChunk : Nat
  faGroupIndices : List Nat
  /-- `_compression_block_sizes()`. -/
  blockSizes : List (Nat × Nat)
  /-- `arena_a`, `aux` and `raw_tail` of each slot. -/
  slots : List SlotAddresses
  /-- `compression.encode(slot_id, ids, kv_part, execution, valid_tokens)`. -/
  encode : Nat → BlockIds → Nat → TokenCounts → Except String EncodedChunk
  /-- `execution.aux_bytes(kv_part, valid_tokens)`. -/
  auxBytes : Nat → TokenCounts → Nat
  /-- `encoded.event.synchronize()`. -/
  synchronize : EncodedChunk → Except String Unit

/-- What `_send_compressed_blocks` is called with. -/
structure OutgoingChunk where
  encoded : EncodedChunk
  sourcePayloadAddr : Nat
  sourceAuxAddr : Nat
  destinationPayloadAddr : Nat
  destinationAuxAddr : Nat
  destinationTailAddr : Nat
  auxBytes : Nat
  deriving DecidableEq, Repr

namespace OutgoingChunk

/-- The descriptors of payload, aux and tail; empty ones are left out. -/
def descriptors (chunk : OutgoingChunk) : List Descriptor :=
  (if chunk.encoded.codecBytes = 0 then [] else
    [⟨chunk.sourcePayloadAddr, chunk.destinationPayloadAddr, chunk.encoded.codecBytes⟩]) ++
  (if chunk.auxBytes = 0 then [] else
    [⟨chunk.sourceAuxAddr, chunk.destinationAuxAddr, chunk.auxBytes⟩]) ++
  (if chunk.encoded.rawTailBytes = 0 then [] else
    [⟨chunk.encoded.rawTailAddr, chunk.destinationTailAddr, chunk.encoded.rawTailBytes⟩])

theorem descriptors_nonneg {chunk : OutgoingChunk} {d : Descriptor} (h : d ∈ chunk.descriptors) :
    0 ≤ d.length := by
  unfold descriptors at h
  rcases List.mem_append.mp h with h | h
  · rcases List.mem_append.mp h with h | h
    · split at h
      · cases h
      · rw [List.mem_singleton.mp h]
        exact Int.natCast_nonneg _
    · split at h
      · cases h
      · rw [List.mem_singleton.mp h]
        exact Int.natCast_nonneg _
  · split at h
    · cases h
    · rw [List.mem_singleton.mp h]
      exact Int.natCast_nonneg _

end OutgoingChunk

/-- The calls made during a job, and its result or exception. -/
structure JobRun (α : Type) where
  calls : List WriteCall
  result : Except String α

/-- `_send_compressed_blocks` after the synchronisation: the return code of
`_send_blocks` is not looked at. -/
def sendCompressedBlocks (codes : Nat → Int) (chunk : OutgoingChunk) : JobRun Nat :=
  let ds := chunk.descriptors
  let sent := sendBlocks codes (ds.map (·.src)) (ds.map (·.dst)) (ds.map (·.length))
  { calls := sent.calls, result := sent.ret.map fun _ => chunk.encoded.codecBytes }

namespace Worker

/-- `_session_job_encode_chunk` up to the transfer. -/
def encodeChunk (worker : Worker) (job : EncodeChunkJob) : Except String OutgoingChunk := do
  let window := compressionChunkWindow job.chunkId job.logicalBlockCount
    worker.logicalBlocksPerChunk
  let localChunkIds := window.blockIds worker.faGroupIndices job.localBlockIds
  let validTokens ← chunkTokenCounts (job.validTokensByGroup.map fun (group, n) => (group, (n : Int)))
    worker.blockSizes window
  let encoded ← worker.encode job.slotId localChunkIds window.kvPart validTokens
  match worker.slots[job.slotId]? with
  | none => throw "list index out of range"
  | some slot =>
      worker.synchronize encoded
      return {
        encoded
        sourcePayloadAddr := slot.payload, sourceAuxAddr := slot.aux
        destinationPayloadAddr := job.payloadAddr, destinationAuxAddr := job.auxAddr
        destinationTailAddr := job.tailAddr
        auxBytes := worker.auxBytes window.kvPart validTokens }

/-- `_session_job_encode_chunk`. -/
def sessionJobEncodeChunk (worker : Worker) (codes : Nat → Int) (job : EncodeChunkJob) :
    JobRun JobDone :=
  match worker.encodeChunk job with
  | .error message => { calls := [], result := .error message }
  | .ok chunk =>
      let sent := sendCompressedBlocks codes chunk
      { calls := sent.calls
        result := sent.result.map fun codecBytes =>
          { u8Bytes := chunk.encoded.u8Bytes, codecBytes, auxBytes := chunk.auxBytes } }

/-- `_run_job`: an exception becomes the error of the answer. -/
def runJob (worker : Worker) (codes : Nat → Int) (job : EncodeChunkJob) : JobDone :=
  match (worker.sessionJobEncodeChunk codes job).result with
  | .ok done => done
  | .error message => { error := some message }

/-- The chunk was encoded, and every batch of its payload, aux and tail
descriptors was written with return code 0. -/
def Written (worker : Worker) (codes : Nat → Int) (job : EncodeChunkJob) : Prop :=
  ∃ chunk, worker.encodeChunk job = .ok chunk ∧
    ((worker.sessionJobEncodeChunk codes job).calls.map WriteCall.batch).flatten =
      chunk.descriptors ∧
    ∀ call ∈ (worker.sessionJobEncodeChunk codes job).calls, call.code = 0

end Worker

theorem sendBlocks_descriptors (codes : Nat → Int) (ds : List Descriptor) :
    sendBlocks codes (ds.map (·.src)) (ds.map (·.dst)) (ds.map (·.length)) =
      sendLoop codes 0 ds := by
  unfold sendBlocks
  rw [if_pos (by simp)]
  congr 1
  induction ds with
  | nil => rfl
  | cons d rest ih => simpa using ih

/-- A chunk that could be encoded is sent, and the job succeeds whatever the codes are. -/
theorem Worker.sessionJobEncodeChunk_ok {worker : Worker} {codes : Nat → Int}
    {job : EncodeChunkJob} {chunk : OutgoingChunk} (h : worker.encodeChunk job = .ok chunk) :
    (worker.sessionJobEncodeChunk codes job).calls = (sendLoop codes 0 chunk.descriptors).calls ∧
      (worker.runJob codes job).error = none := by
  have hret : ∃ code, (sendLoop codes 0 chunk.descriptors).ret = .ok code := by
    obtain ⟨-, hzero, hfail⟩ := sendLoop_spec fun _ => OutgoingChunk.descriptors_nonneg
    by_cases hall : ∀ i < (planBatches chunk.descriptors).length, codes (0 + i) = 0
    · exact ⟨0, (hzero hall).2⟩
    · obtain ⟨call, -, -, hret⟩ := hfail hall
      exact ⟨call.code, hret⟩
  obtain ⟨code, hret⟩ := hret
  have hrun : worker.sessionJobEncodeChunk codes job =
      { calls := (sendLoop codes 0 chunk.descriptors).calls
        result := .ok { u8Bytes := chunk.encoded.u8Bytes, codecBytes := chunk.encoded.codecBytes
                        auxBytes := chunk.auxBytes } } := by
    simp only [Worker.sessionJobEncodeChunk, h, sendCompressedBlocks, sendBlocks_descriptors, hret,
      Except.map]
  rw [Worker.runJob, hrun]
  exact ⟨rfl, rfl⟩

/-- The write is complete exactly if every planned batch gets code 0. -/
theorem Worker.written_iff {worker : Worker} {codes : Nat → Int} {job : EncodeChunkJob}
    {chunk : OutgoingChunk} (h : worker.encodeChunk job = .ok chunk) :
    worker.Written codes job ↔
      ∀ i < (planBatches chunk.descriptors).length, codes i = 0 := by
  obtain ⟨hcalls, -⟩ := sessionJobEncodeChunk_ok h
  obtain ⟨hflat, hzero, hfail⟩ := @sendLoop_spec codes 0 _ fun _ => OutgoingChunk.descriptors_nonneg
  simp only [Nat.zero_add] at hzero hfail
  rw [Worker.Written, hcalls]
  constructor
  · rintro ⟨-, -, -, hcodes⟩
    by_contra hno
    obtain ⟨call, hmem, hne, -⟩ := hfail hno
    exact hne (hcodes call hmem)
  · intro hall
    obtain ⟨hcall, -⟩ := hzero hall
    refine ⟨chunk, h, ?_, ?_⟩
    · have hbatch : (WriteCall.batch ∘ fun batch => { batch, code := 0 }) = id := rfl
      rw [hcall, List.map_map, hbatch, List.map_id]
      exact hflat
    · rw [hcall]
      intro call hmem
      obtain ⟨batch, -, rfl⟩ := List.mem_map.mp hmem
      rfl

/-! ### The reply of the helper -/

/-- What `_serve_producer_chunk` replies to the answer of its encode job. -/
def chunkReply (chunkId : Nat) (result : JobDone) : CompressionChunkReady :=
  match result.error with
  | some message => .failed chunkId message
  | none =>
      { chunkId, dataBytes := result.u8Bytes, payloadBytes := result.codecBytes
        auxBytes := result.auxBytes }

/-- In `s'` the handler has sent `ready`, or holds it until its slot is drained. -/
def Answers (s s' : Producer) (tid : Nat) (identity : Identity) (ready : CompressionChunkReady) :
    Prop :=
  s'.replies = s.replies ++ [(identity, .chunkReady ready)] ∨
    ∃ task request sref slot job, s'.tasks[tid]? = some task ∧
      task.coro = .chunkPull request (.waitDrain sref slot job (some ready))

theorem encodeAnswered_answers {s : Producer} {tid sref slot : Nat} {task : Task}
    {identity : Identity} {request : CompressionChunkPull} {result : JobDone}
    {ready : CompressionChunkReady} (htask : s.tasks[tid]? = some task)
    (hrouter : s.routerOpen = true) :
    Answers s (s.encodeAnswered tid identity request sref slot result) tid identity ready ↔
      ready = chunkReply request.chunkId result := by
  unfold Producer.encodeAnswered chunkReply Answers
  cases result.error with
  | some message =>
      simp only [Producer.chunkFailed, Producer.drainSlot, Producer.setCoro, Producer.submit,
        Producer.mapBook, getElem?_modify_self htask, Option.some.injEq]
      constructor
      · rintro (hreplies | ⟨_, _, _, _, _, rfl, hcoro⟩)
        · simp at hreplies
        · cases hcoro
          rfl
      · rintro rfl
        exact Or.inr ⟨_, _, _, _, _, rfl, rfl⟩
  | none =>
      simp only [Producer.leaveChunk, Producer.setCoro, Producer.putSlot, Producer.mapBook,
        Producer.reply, hrouter, if_true, getElem?_modify_self htask, Option.some.injEq]
      constructor
      · rintro (hreplies | ⟨_, _, _, _, _, rfl, hcoro⟩)
        · simpa using hreplies.symm
        · cases hcoro
      · rintro rfl
        exact Or.inl rfl

/-- The job succeeds, or the consumer takes the reply for a success, only if
the chunk has been written. -/
def ReadyMeansWritten (worker : Worker) (codes : Nat → Int) (job : EncodeChunkJob) (s : Producer)
    (tid : Nat) (identity : Identity) (request : CompressionChunkPull) (sref slot : Nat) : Prop :=
  ((worker.runJob codes job).error = none → worker.Written codes job) ∧
    ∀ ready, Answers s (s.encodeAnswered tid identity request sref slot (worker.runJob codes job))
      tid identity ready → isError ready.error = false → worker.Written codes job

/-- **When a success reply means a complete write.** For a chunk that could be
encoded: exactly if every batch of its descriptors gets return code 0. For one
that could not: exactly if the exception has a message, since the consumer
takes an empty error for no error. -/
theorem encode_ready_iff_written (worker : Worker) (codes : Nat → Int) (job : EncodeChunkJob)
    {s : Producer} {tid sref slot id : Nat} {identity : Identity} {request : CompressionChunkPull}
    (htask : s.tasks[tid]? =
      some { identity, coro := .chunkPull request (.waitEncode sref slot id) })
    (hrouter : s.routerOpen = true) :
    ReadyMeansWritten worker codes job s tid identity request sref slot ↔
      match worker.encodeChunk job with
      | .ok chunk => ∀ i < (planBatches chunk.descriptors).length, codes i = 0
      | .error message => message ≠ "" := by
  cases hencode : worker.encodeChunk job with
  | ok chunk =>
      dsimp only
      rw [← Worker.written_iff hencode]
      obtain ⟨-, hok⟩ := Worker.sessionJobEncodeChunk_ok hencode
      exact ⟨fun h => h.1 hok, fun h => ⟨fun _ => h, fun _ _ _ => h⟩⟩
  | error message =>
      have hrun : worker.runJob codes job = { error := some message } := by
        simp only [Worker.runJob, Worker.sessionJobEncodeChunk, hencode]
      have hno : ¬ worker.Written codes job := by
        rintro ⟨chunk, hchunk, -⟩
        rw [hencode] at hchunk
        cases hchunk
      have hempty : isError (some message) = false ↔ message = "" := by
        simp [isError]
      dsimp only
      constructor
      · rintro ⟨-, hreply⟩ hmessage
        refine hno (hreply (.failed request.chunkId message) ?_ (hempty.mpr hmessage))
        rw [encodeAnswered_answers htask hrouter, hrun]
        rfl
      · intro hmessage
        refine ⟨fun hnone => ?_, fun ready hready hsuccess => ?_⟩
        · rw [hrun] at hnone
          cases hnone
        · rw [encodeAnswered_answers htask hrouter, hrun] at hready
          subst hready
          exact absurd (hempty.mp hsuccess) hmessage

/-- A worker with one slot whose chunks have one payload byte. -/
def Worker.oneByte : Worker :=
  { logicalBlocksPerChunk := 1, faGroupIndices := [0], blockSizes := [(0, 16)]
    slots := [⟨100, 200, 300⟩]
    encode := fun _ _ _ _ => .ok { u8Bytes := 1, codecBytes := 1, rawTailAddr := 0, rawTailBytes := 0 }
    auxBytes := fun _ _ => 0
    synchronize := fun _ => .ok () }

/-- The job of a pull for chunk 0 of a one-block session. -/
def oneByteJob : EncodeChunkJob :=
  { transferId := "t", dReqId := "d", nonce := "n", chunkId := 0, slotId := 0
    logicalBlockCount := 1, localBlockIds := [[7]], validTokensByGroup := [(0, 16)]
    remoteSession := ("c", 2), payloadAddr := 900, auxAddr := 901, tailAddr := 902 }

/-- A helper whose only handler waits for the answer to `oneByteJob`. -/
def oneByteHelper : Producer :=
  { Producer.start (.solo [⟨100, 200, 300⟩]) with
    tasks := [{ identity := "i"
                coro := .chunkPull { transferId := "t", dReqId := "d", chunkId := 0, slotId := 0
                                     payloadAddr := 900, auxAddr := 901, tailAddr := 902
                                     nonce := "n" } (.waitEncode 0 0 2) }] }

/-- The chunk of `oneByteJob`. -/
def oneByteChunk : OutgoingChunk :=
  { encoded := { u8Bytes := 1, codecBytes := 1, rawTailAddr := 0, rawTailBytes := 0 }
    sourcePayloadAddr := 100, sourceAuxAddr := 200, destinationPayloadAddr := 900
    destinationAuxAddr := 901, destinationTailAddr := 902, auxBytes := 0 }

theorem oneByte_encodeChunk : Worker.oneByte.encodeChunk oneByteJob = .ok oneByteChunk := rfl

/-- A transfer engine that returns 0: the success reply is honest. -/
theorem encode_ready_iff_written_clean :
    ReadyMeansWritten Worker.oneByte (fun _ => 0) oneByteJob oneByteHelper 0 "i"
      { transferId := "t", dReqId := "d", chunkId := 0, slotId := 0, payloadAddr := 900
        auxAddr := 901, tailAddr := 902, nonce := "n" } 0 0 := by
  rw [encode_ready_iff_written Worker.oneByte (fun _ => 0) oneByteJob rfl rfl,
    oneByte_encodeChunk]
  exact fun _ _ => rfl

/-- **A failed write is reported as a success**: the only batch gets code -1, the
job has no error and the reply has none either. -/
theorem encode_ready_of_failed_write :
    ¬ ∀ (worker : Worker) (codes : Nat → Int) (job : EncodeChunkJob),
      (worker.runJob codes job).error = none → worker.Written codes job := by
  intro hall
  have hdone := (@Worker.sessionJobEncodeChunk_ok _ (fun _ => -1) _ _ oneByte_encodeChunk).2
  have hwritten := (Worker.written_iff oneByte_encodeChunk).mp
    (hall Worker.oneByte (fun _ => -1) oneByteJob hdone)
  refine absurd (hwritten 0 (List.length_pos_iff.mpr ?_)) (by decide)
  intro hnil
  have hflat := (@sendLoop_spec (fun _ => 0) 0 oneByteChunk.descriptors
    fun _ => OutgoingChunk.descriptors_nonneg).1
  rw [hnil] at hflat
  cases hflat

end KVServe.Engine
