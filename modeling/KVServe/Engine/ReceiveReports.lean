import KVServe.Engine.ReceiveOutcomes

/-!
# KVServe.Engine.ReceiveReports

**A receive is reported once, if its abort is acknowledged.** Each call of
`_receive_compressed_request` that returns has made one call of
`_finish_compression_receive`, so a request is reported when the last of its calls returns,
with all its blocks if the transfer of one of them has failed, and with none otherwise. The
`except` block awaits the abort before it reports, and nothing catches what the abort raises:
such a call ends without a report, and the request is never reported.
-/

namespace KVServe.Engine

open KVServe.Session hiding ConsumerSession

/-- The call has ended. -/
def ReceiveAt.isEnded : ReceiveAt → Bool
  | .ended _ => true
  | _ => false

/-- A turn of a call that does not raise: either it goes on, or it ends with its one call of
`_finish_compression_receive`. -/
structure Receive.Proceeds (r : Receive) (turn : ReceiveTurn) : Prop where
  rid : turn.call.rid = r.rid
  report : turn.finish = none ∧ turn.call.finishes = r.finishes ∧
      (turn.call.pos = r.pos ∨ turn.call.pos.isEnded = false) ∨
    ∃ failed, turn.finish = some failed ∧ turn.call.finishes = r.finishes ++ [failed] ∧
      turn.call.pos = .ended .returned

namespace Receive

variable {r : Receive} {turn : ReceiveTurn} {config : ReceiverConfig} {pullMeta : PullReqMeta}

/-! ### Turns of a call -/

/-- The turn of a call: as long as it has not ended it reports its outcome, and a task of it
that runs beside it leaves the outcome. -/
def Judges (r : Receive) (turn : ReceiveTurn) : Prop :=
  r.pos.isEnded = false ∧ (r.Open → turn.Decides) ∨
    turn.finish = none ∧ turn.call.pos = r.pos ∧ turn.call.outcome = r.outcome

/-- The turn depends on the request and the reports of the call it started from. -/
theorem Proceeds.of_same {r' : Receive} (h : r'.Proceeds turn) (hrid : r'.rid = r.rid)
    (hfinishes : r'.finishes = r.finishes) (hpos : r'.pos = r.pos) : r.Proceeds turn := by
  refine ⟨h.rid.trans hrid, ?_⟩
  rw [← hfinishes, ← hpos]
  exact h.report

/-- Slots that are put back change nothing. -/
theorem Proceeds.withPuts (h : r.Proceeds turn) (puts : List Nat) :
    r.Proceeds { turn with puts } := ⟨h.rid, h.report⟩

/-- A turn that only moves on. -/
theorem proceeds_move {r' : Receive} {sends : List CompressionRequest} {puts : List Nat}
    (hrid : r'.rid = r.rid) (hfinishes : r'.finishes = r.finishes)
    (hpos : r'.pos = r.pos ∨ r'.pos.isEnded = false) :
    r.Proceeds { call := r', sends, puts } := ⟨hrid, Or.inl ⟨rfl, hfinishes, hpos⟩⟩

theorem proceeds_finish (r : Receive) (failed : Bool) : r.Proceeds (r.finish failed) :=
  ⟨rfl, Or.inr ⟨failed, rfl, rfl, rfl⟩⟩

theorem proceeds_drainSlots (r : Receive) (slots : List Nat) : r.Proceeds (r.drainSlots slots) := by
  cases slots with
  | nil => exact (proceeds_finish _ true).of_same rfl rfl rfl
  | cons slot slots => exact proceeds_move rfl rfl (Or.inr rfl)

theorem proceeds_afterWritebacks (r : Receive) : r.Proceeds r.afterWritebacks := by
  unfold afterWritebacks
  split
  · exact proceeds_finish r true
  · exact proceeds_drainSlots r _

theorem proceeds_afterRecv (r : Receive) : r.Proceeds r.afterRecv := by
  unfold afterRecv
  simp only
  split
  · exact (proceeds_afterWritebacks _).of_same rfl rfl rfl
  · exact proceeds_move rfl rfl (Or.inr rfl)

theorem proceeds_cleanup (r : Receive) : r.Proceeds r.cleanup := by
  unfold cleanup
  split
  · exact proceeds_afterRecv r
  · exact proceeds_move rfl rfl (Or.inr rfl)

theorem proceeds_sendAbort (r : Receive) (message : String) :
    r.Proceeds (r.sendAbort pullMeta message) := by
  unfold sendAbort
  split
  · exact proceeds_finish r true
  · exact proceeds_move rfl rfl (Or.inr rfl)

theorem proceeds_complete (r : Receive) : r.Proceeds r.complete :=
  (proceeds_finish _ false).of_same rfl rfl rfl

theorem proceeds_afterIssuer (r : Receive) (failure : Option String) :
    r.Proceeds (r.afterIssuer pullMeta failure) := by
  cases failure with
  | some message => exact proceeds_sendAbort r message
  | none =>
      unfold afterIssuer
      simp only
      split
      · exact proceeds_complete r
      · exact proceeds_move rfl rfl (Or.inr rfl)

theorem proceeds_enterStop (r : Receive) (failure : Option String) :
    r.Proceeds (r.enterStop pullMeta failure) := by
  unfold enterStop
  split
  · exact proceeds_afterIssuer r failure
  · exact proceeds_move rfl rfl (Or.inr rfl)
  · exact proceeds_move rfl rfl (Or.inr rfl)

theorem proceeds_loopHead (r : Receive) : r.Proceeds (r.loopHead pullMeta) := by
  unfold loopHead
  split
  · exact proceeds_move rfl rfl (Or.inl rfl)
  · split
    · exact proceeds_move rfl rfl (Or.inr rfl)
    · exact proceeds_enterStop r none

theorem proceeds_start (r : Receive) (nonce : Nonce) (sent : Except String Unit) :
    r.Proceeds (r.start config pullMeta nonce sent) := by
  unfold start
  simp only
  split
  · exact (proceeds_enterStop _ _).of_same rfl rfl rfl
  · split
    · exact (proceeds_enterStop _ _).of_same rfl rfl rfl
    · exact proceeds_move rfl rfl (Or.inr rfl)

theorem proceeds_opened (r : Receive) (answer : Except String CompressionResponse) :
    r.Proceeds (r.opened config pullMeta answer) := by
  unfold opened
  split
  · exact proceeds_enterStop r _
  · split
    · exact proceeds_enterStop r _
    · split
      · exact (proceeds_loopHead _).of_same rfl rfl rfl
      · exact proceeds_enterStop r _

/-- A reply leaves the request, the reports and the position. -/
theorem acceptReply_same (r : Receive) (response : CompressionResponse) :
    (r.acceptReply config pullMeta response).1.rid = r.rid ∧
      (r.acceptReply config pullMeta response).1.finishes = r.finishes ∧
      (r.acceptReply config pullMeta response).1.pos = r.pos := by
  unfold acceptReply
  split
  · exact ⟨rfl, rfl, rfl⟩
  · split
    · split
      · exact ⟨rfl, rfl, rfl⟩
      · simp only
        split <;> exact ⟨rfl, rfl, rfl⟩
    · exact ⟨rfl, rfl, rfl⟩

theorem takeReply_same {r' : Receive} {result : Except String DecodeCall} (r : Receive)
    (answer : Except String CompressionResponse)
    (h : r.takeReply config pullMeta answer = (r', result)) :
    r'.rid = r.rid ∧ r'.finishes = r.finishes ∧ r'.pos = r.pos := by
  cases answer with
  | error message =>
      obtain ⟨rfl, -⟩ := Prod.mk.inj h
      exact ⟨rfl, rfl, rfl⟩
  | ok response =>
      have hsame := @acceptReply_same config pullMeta r response
      rw [show r.acceptReply config pullMeta response = (r', result) from h] at hsame
      exact hsame

theorem proceeds_takeDone (r : Receive) (puts : List Nat) (done : List DoneTask) :
    r.Proceeds (r.takeDone config pullMeta puts done) := by
  induction done generalizing r puts with
  | nil => exact (proceeds_loopHead r).withPuts _
  | cons task rest ih =>
      cases task with
      | issueTask =>
          rw [takeDone]
          split
          · exact (proceeds_enterStop r _).withPuts _
          · exact (ih _ puts).of_same rfl rfl rfl
      | recvTask =>
          rw [takeDone]
          split
          · rename_i answer hrecv
            split
            · rename_i r' message hreply
              obtain ⟨hrid, hfinishes, hpos⟩ := takeReply_same _ answer hreply
              exact ((proceeds_enterStop r' _).withPuts _).of_same hrid hfinishes hpos
            · rename_i r' call hreply
              obtain ⟨hrid, hfinishes, hpos⟩ := takeReply_same _ answer hreply
              exact proceeds_move hrid hfinishes (Or.inr rfl)
          · exact ih r puts
      | writeback i =>
          rw [takeDone]
          split
          · exact ih r puts
          · simp only
            split
            · exact ((proceeds_enterStop _ _).withPuts _).of_same rfl rfl rfl
            · exact (ih _ _).of_same rfl rfl rfl

theorem proceeds_decoded (r : Receive) (call : DecodeCall) (rest : List DoneTask)
    (answer : Except String Unit) : r.Proceeds (r.decoded config pullMeta call rest answer) := by
  cases answer with
  | error message => exact proceeds_enterStop r _
  | ok _ => exact (proceeds_takeDone _ [] rest).of_same rfl rfl rfl

theorem proceeds_issueChunk (r : Receive) (chunkId slot : Nat) (sent : Except String Unit) :
    r.Proceeds (r.issueChunk config pullMeta chunkId slot sent) := by
  cases sent with
  | error message => exact proceeds_move rfl rfl (Or.inl rfl)
  | ok _ => exact proceeds_move rfl rfl (Or.inl rfl)

theorem proceeds_slotDrained (r : Receive) (slots : List Nat) (answer : Except String Unit) :
    r.Proceeds (r.slotDrained slots answer) := by
  cases answer with
  | error message => exact proceeds_finish r true
  | ok _ =>
      cases slots with
      | nil => exact proceeds_drainSlots r []
      | cons slot rest => exact ((proceeds_drainSlots _ rest).withPuts _).of_same rfl rfl rfl

theorem proceeds_replied {answer : Except String CompressionResponse}
    (h : r.replied answer = some turn) : r.Proceeds turn := by
  unfold replied at h
  split at h
  · obtain rfl := Option.some.inj h
    exact proceeds_move rfl rfl (Or.inl rfl)
  · cases h

theorem proceeds_writtenBack {i : Nat} {answer : Except String Unit}
    (h : r.writtenBack i answer = some turn) : r.Proceeds turn := by
  unfold writtenBack at h
  split at h
  · obtain rfl := Option.some.inj h
    exact proceeds_move rfl rfl (Or.inl rfl)
  · cases h

theorem proceeds_resume (h : r.resume pullMeta = some turn) : r.Proceeds turn := by
  unfold resume at h
  split at h
  · obtain rfl := Option.some.inj h
    exact (proceeds_afterIssuer _ _).of_same rfl rfl rfl
  · obtain rfl := Option.some.inj h
    exact (proceeds_complete _).of_same rfl rfl rfl
  · obtain rfl := Option.some.inj h
    exact proceeds_afterRecv r
  · split at h
    · obtain rfl := Option.some.inj h
      exact proceeds_afterWritebacks r
    · cases h
  · cases h

end Receive

/-! ### Steps of the loop -/

namespace Receiver

variable {s t : Receiver} {cid : Nat} {call : Receive} {pullMeta : PullReqMeta}

/-- The abort of this step is acknowledged. -/
def Acked (s : Receiver) : Action → Prop
  | .aborted cid answer =>
      match s.calls[cid]? with
      | none => True
      | some call =>
          match s.pullMetas[call.rid]? with
          | none => True
          | some pullMeta => call.isAck pullMeta answer = true
  | _ => True

instance (s : Receiver) (a : Action) : Decidable (s.Acked a) := by
  unfold Acked
  split
  · split
    · infer_instance
    · split <;> infer_instance
  · infer_instance

/-- A step of the loop: a receive begins, a call proceeds, or its abort raises. -/
inductive Steps (s : Receiver) (a : Action) : Receiver → Prop
  | receiveKv (requests : List PullReqMeta) (workerAddr : String) (workerAddrs : List String) :
      s.Acked a → Steps s a (s.receiveKv requests (workerAddr :: workerAddrs))
  | proceeds (cid : Nat) (call : Receive) (slots : List Nat) (turn : ReceiveTurn) :
      s.calls[cid]? = some call → call.rid < s.pullMetas.length → s.Acked a →
      call.Proceeds turn → call.Judges turn → Steps s a ({ s with receiverSlots := slots }.apply cid turn)
  | raises (cid : Nat) (call : Receive) (message : String) :
      s.calls[cid]? = some call → call.rid < s.pullMetas.length → ¬ s.Acked a →
      call.pos.isEnded = false →
      Steps s a (s.apply cid { call := { call with pos := .ended (.raised message) } })

theorem onCall_some {f : Receive → PullReqMeta → Option ReceiveTurn}
    (h : s.onCall cid f = some t) :
    ∃ call pullMeta turn, s.calls[cid]? = some call ∧ s.pullMetas[call.rid]? = some pullMeta ∧
      f call pullMeta = some turn ∧ t = s.apply cid turn := by
  obtain ⟨call, hcall, h⟩ := Option.bind_eq_some_iff.mp h
  obtain ⟨pullMeta, hmeta, h⟩ := Option.bind_eq_some_iff.mp h
  obtain ⟨turn, hturn, h⟩ := Option.bind_eq_some_iff.mp h
  exact ⟨call, pullMeta, turn, hcall, hmeta, hturn, (Option.some.inj h).symm⟩

/-- A call that proceeds whatever its request is. -/
theorem onCall_proceeds {f : Receive → PullReqMeta → Option ReceiveTurn} {a : Action}
    (h : s.onCall cid f = some t) (hacked : s.Acked a)
    (hf : ∀ call pullMeta turn, f call pullMeta = some turn →
      call.Proceeds turn ∧ call.Judges turn) : s.Steps a t := by
  obtain ⟨call, pullMeta, turn, hcall, hmeta, hturn, rfl⟩ := onCall_some h
  obtain ⟨hproceeds, hjudges⟩ := hf call pullMeta turn hturn
  have hrid : call.rid < s.pullMetas.length := (List.getElem?_eq_some_iff.mp hmeta).1
  exact .proceeds cid call s.receiverSlots turn hcall hrid hacked hproceeds hjudges

/-- A call inside the `try` block. -/
theorem judges_of_running {turn : ReceiveTurn} (hlive : call.pos.isEnded = false)
    (hpos : ¬ call.pos.Stopping) (h : call.Running → turn.Decides) : call.Judges turn :=
  .inl ⟨hlive, fun hopen => h ⟨hopen.unfinished, hpos⟩⟩

theorem step_cases {a : Action} (h : s.step a = some t) : s.Steps a t := by
  cases a with
  | receiveKv requests workerAddrs =>
      simp only [step] at h
      cases workerAddrs with
      | nil => cases h
      | cons workerAddr workerAddrs =>
          rw [if_neg (List.cons_ne_nil _ _)] at h
          obtain rfl := Option.some.inj h
          exact .receiveKv requests workerAddr workerAddrs trivial
  | start cid nonce sent =>
      refine onCall_proceeds h trivial fun call pullMeta turn hturn => ?_
      split at hturn
      · rename_i hpos
        obtain rfl := Option.some.inj hturn
        exact ⟨call.proceeds_start nonce sent, judges_of_running (by rw [hpos]; rfl)
          (by rw [hpos]; exact id) fun hrun => Receive.decides_start hrun nonce sent⟩
      · cases hturn
  | opened cid answer =>
      refine onCall_proceeds h trivial fun call pullMeta turn hturn => ?_
      split at hturn
      · rename_i hpos
        obtain rfl := Option.some.inj hturn
        exact ⟨call.proceeds_opened answer, judges_of_running (by rw [hpos]; rfl)
          (by rw [hpos]; exact id) fun hrun => Receive.decides_opened hrun answer⟩
      · cases hturn
  | issue cid sent =>
      simp only [step, issue] at h
      split at h
      · cases h
      · rename_i slot rest _
        obtain ⟨call, pullMeta, turn, hcall, hmeta, hturn, rfl⟩ := onCall_some h
        split at hturn
        · rename_i chunkId _
          obtain rfl := Option.some.inj hturn
          exact .proceeds cid call rest _ hcall (List.getElem?_eq_some_iff.mp hmeta).1 trivial
            (call.proceeds_issueChunk chunkId slot sent)
            (Or.inr (Receive.issueChunk_same chunkId slot sent))
        · cases hturn
  | replied cid answer =>
      refine onCall_proceeds h trivial fun call pullMeta turn hturn =>
        ⟨Receive.proceeds_replied hturn, Or.inr ?_⟩
      unfold Receive.replied at hturn
      split at hturn
      · obtain rfl := Option.some.inj hturn
        exact ⟨rfl, rfl, rfl⟩
      · cases hturn
  | writtenBack cid i answer =>
      refine onCall_proceeds h trivial fun call pullMeta turn hturn =>
        ⟨Receive.proceeds_writtenBack hturn, Or.inr ?_⟩
      unfold Receive.writtenBack at hturn
      split at hturn
      · obtain rfl := Option.some.inj hturn
        exact ⟨rfl, rfl, rfl⟩
      · cases hturn
  | wake cid done =>
      refine onCall_proceeds h trivial fun call pullMeta turn hturn => ?_
      split at hturn
      · rename_i hpos
        split at hturn
        · obtain rfl := Option.some.inj hturn
          exact ⟨call.proceeds_takeDone [] done, judges_of_running (by rw [hpos]; rfl)
            (by rw [hpos]; exact id) fun hrun => Receive.decides_takeDone hrun [] done⟩
        · cases hturn
      · cases hturn
  | decoded cid answer =>
      refine onCall_proceeds h trivial fun call pullMeta turn hturn => ?_
      split at hturn
      · rename_i decode rest hpos
        obtain rfl := Option.some.inj hturn
        exact ⟨call.proceeds_decoded decode rest answer, judges_of_running (by rw [hpos]; rfl)
          (by rw [hpos]; exact id) fun hrun => Receive.decides_decoded hrun decode rest answer⟩
      · cases hturn
  | resume cid =>
      refine onCall_proceeds h trivial fun call pullMeta turn hturn =>
        ⟨Receive.proceeds_resume hturn,
          Or.inl ⟨?_, fun hopen => Receive.decides_resume hopen hturn⟩⟩
      unfold Receive.resume at hturn
      split at hturn <;> first | (rename_i hpos; rw [hpos]; rfl) | cases hturn
  | aborted cid answer =>
      obtain ⟨call, pullMeta, turn, hcall, hmeta, hturn, rfl⟩ := onCall_some h
      have hrid : call.rid < s.pullMetas.length := (List.getElem?_eq_some_iff.mp hmeta).1
      have hacked : s.Acked (.aborted cid answer) ↔ call.isAck pullMeta answer = true := by
        simp only [Acked, hcall, hmeta]
      split at hturn
      · rename_i hpos
        obtain rfl := Option.some.inj hturn
        have hended : call.pos.isEnded = false := by
          rw [hpos]
          rfl
        unfold Receive.aborted
        split
        · rename_i hack
          exact .proceeds cid call s.receiverSlots _ hcall hrid (hacked.mpr hack)
            call.proceeds_cleanup
            (Or.inl ⟨hended, fun hopen => Receive.decides_cleanup hopen.unfinished⟩)
        · rename_i hack
          exact .raises cid call _ hcall hrid (mt hacked.mp hack) hended
      · cases hturn
  | slotDrained cid answer =>
      refine onCall_proceeds h trivial fun call pullMeta turn hturn => ?_
      split at hturn
      · rename_i slots hpos
        obtain rfl := Option.some.inj hturn
        exact ⟨call.proceeds_slotDrained slots answer, Or.inl ⟨by rw [hpos]; rfl,
          fun hopen => Receive.decides_slotDrained hopen.unfinished slots answer⟩⟩
      · cases hturn

/-! ### The account of a request -/

/-- The calls of a request that have not reported. -/
def openCalls (s : Receiver) (rid : Nat) : Nat :=
  s.calls.countP fun call => call.rid = rid ∧ call.finishes = []

/-- The calls of a request that have reported a failure. -/
def failedCalls (s : Receiver) (rid : Nat) : Nat :=
  s.calls.countP fun call => call.rid = rid ∧ true ∈ call.finishes

/-- The counters of a request and its reports, from the calls. -/
structure Accounted (s : Receiver) (rid : Nat) (pullMeta : PullReqMeta) : Prop where
  count : pullMeta.pullTasksCount = s.openCalls rid
  failed : pullMeta.failedBlocks =
    if s.failedCalls rid = 0 then ∅ else allBlocks pullMeta.localBlockIds
  finished : s.finishedRecving.filter (·.1 = rid) =
    if s.openCalls rid = 0 then [(rid, pullMeta.dReqId)] else []
  invalid : s.invalidBlockIds.filter (·.1 = rid) =
    if s.openCalls rid = 0 ∧ pullMeta.failedBlocks ≠ ∅ then [(rid, pullMeta.failedBlocks)] else []

/-- The account of a request depends on its own calls and reports. -/
theorem Accounted.of_same {rid : Nat} (h : s.Accounted rid pullMeta)
    (hopen : t.openCalls rid = s.openCalls rid) (hfailed : t.failedCalls rid = s.failedCalls rid)
    (hfinished : t.finishedRecving.filter (·.1 = rid) = s.finishedRecving.filter (·.1 = rid))
    (hinvalid : t.invalidBlockIds.filter (·.1 = rid) = s.invalidBlockIds.filter (·.1 = rid)) :
    t.Accounted rid pullMeta where
  count := by rw [h.count, hopen]
  failed := by rw [h.failed, hfailed]
  finished := by rw [hfinished, h.finished, hopen]
  invalid := by simp only [hinvalid, h.invalid, hopen]

/-- The invariant of the loop. -/
structure Inv (s : Receiver) : Prop where
  reported : ∀ call ∈ s.calls, call.finishes = [] ∧ call.pos ≠ .ended .returned ∨
    (∃ failed, call.finishes = [failed]) ∧ call.pos = .ended .returned
  rid : ∀ call ∈ s.calls, call.rid < s.pullMetas.length
  accounted : ∀ {rid pullMeta}, s.pullMetas[rid]? = some pullMeta → s.Accounted rid pullMeta
  finishedRid : ∀ entry ∈ s.finishedRecving, entry.1 < s.pullMetas.length
  invalidRid : ∀ entry ∈ s.invalidBlockIds, entry.1 < s.pullMetas.length

/-- The counts after a call was replaced. -/
theorem countP_set_of_same {l : List Receive} {p : Receive → Bool} {turn : ReceiveTurn}
    (hcall : l[cid]? = some call) (hp : p turn.call = p call) :
    (l.set cid turn.call).countP p = l.countP p := by
  obtain ⟨hlt, hget⟩ := List.getElem?_eq_some_iff.mp hcall
  have hmem : p call = true → 0 < l.countP p := fun hp =>
    List.countP_pos_iff.mpr ⟨call, List.mem_of_getElem? hcall, hp⟩
  rw [List.countP_set hlt, hget, hp]
  split
  · rename_i h
    have hpos := hmem h
    omega
  · omega

theorem calls_finishReceive (s : Receiver) (rid : Nat) (failed : Bool) :
    (s.finishReceive rid failed).calls = s.calls := by
  cases hget : s.pullMetas[rid]? with
  | none => simp only [finishReceive, hget]
  | some pullMeta =>
      simp only [finishReceive, hget]
      exact (apply_ite Receiver.calls _ _ _).trans (ite_self _)

theorem calls_apply (s : Receiver) (cid : Nat) (turn : ReceiveTurn) :
    (s.apply cid turn).calls = s.calls.set cid turn.call := by
  unfold apply
  split
  · exact calls_finishReceive _ _ _
  · rfl

/-- A step that reports nothing keeps the account. -/
theorem Inv.unreported (h : s.Inv) {turn : ReceiveTurn} {slots : List Nat}
    (hcall : s.calls[cid]? = some call) (hfinish : turn.finish = none)
    (hrid : turn.call.rid = call.rid) (hfinishes : turn.call.finishes = call.finishes)
    (hpos : call.finishes = [] ∧ turn.call.pos ≠ .ended .returned ∨ turn.call.pos = call.pos) :
    ({ s with receiverSlots := slots }.apply cid turn).Inv := by
  have hmem : ∀ {other}, other ∈ s.calls.set cid turn.call → other ∈ s.calls ∨ other = turn.call :=
    fun hother => List.mem_or_eq_of_mem_set hother
  have happly : { s with receiverSlots := slots }.apply cid turn = { s with
      calls := s.calls.set cid turn.call
      sent := s.sent ++ turn.sends.map fun message => (turn.call.workerAddr, message)
      receiverSlots := slots ++ turn.puts } := by
    rw [apply, hfinish]
  rw [happly]
  have hopen : ∀ rid, (s.calls.set cid turn.call).countP
      (fun call => call.rid = rid ∧ call.finishes = []) = s.openCalls rid := fun rid =>
    countP_set_of_same hcall (by simp only [hrid, hfinishes])
  have hfailed : ∀ rid, (s.calls.set cid turn.call).countP
      (fun call => call.rid = rid ∧ true ∈ call.finishes) = s.failedCalls rid := fun rid =>
    countP_set_of_same hcall (by simp only [hrid, hfinishes])
  have hcallMem := List.mem_of_getElem? hcall
  refine ⟨fun other hother => ?_, fun other hother => ?_, fun {rid pullMeta} hmeta => ?_,
    h.finishedRid, h.invalidRid⟩
  · rcases hmem hother with hother | rfl
    · exact h.reported other hother
    · rw [hfinishes]
      rcases hpos with hpos | hpos
      · exact Or.inl hpos
      · rw [hpos]
        exact h.reported call hcallMem
  · rcases hmem hother with hother | rfl
    · exact h.rid other hother
    · rw [hrid]
      exact h.rid call hcallMem
  · exact (h.accounted hmeta).of_same (hopen rid) (hfailed rid) rfl rfl

/-- A count that includes a call loses it when it is replaced by one outside. -/
theorem countP_set_of_neg {l : List Receive} {p : Receive → Bool} {new : Receive}
    (hcall : l[cid]? = some call) (hold : p call = true) (hnew : p new = false) :
    (l.set cid new).countP p + 1 = l.countP p := by
  obtain ⟨hlt, hget⟩ := List.getElem?_eq_some_iff.mp hcall
  have hpos : 0 < l.countP p :=
    List.countP_pos_iff.mpr ⟨call, List.mem_of_getElem? hcall, hold⟩
  rw [List.countP_set hlt, hget, hold, hnew, if_pos rfl, if_neg Bool.false_ne_true]
  omega

theorem countP_set_of_pos {l : List Receive} {p : Receive → Bool} {new : Receive}
    (hcall : l[cid]? = some call) (hold : p call = false) (hnew : p new = true) :
    (l.set cid new).countP p = l.countP p + 1 := by
  obtain ⟨hlt, hget⟩ := List.getElem?_eq_some_iff.mp hcall
  rw [List.countP_set hlt, hget, hold, hnew, if_pos rfl, if_neg Bool.false_ne_true]
  omega

/-- **What a report leaves**: the request has one task less and the blocks of a failed one, and
the last task hands it over. -/
theorem apply_finish {turn : ReceiveTurn} {failed : Bool} {pullMeta : PullReqMeta}
    {failedBlocks : Finset Nat} {pullTasksCount : Int} (hfinish : turn.finish = some failed)
    (hmeta : s.pullMetas[turn.call.rid]? = some pullMeta)
    (hblocks : failedBlocks = if failed then
      pullMeta.failedBlocks ∪ allBlocks pullMeta.localBlockIds else pullMeta.failedBlocks)
    (hcount : pullTasksCount = pullMeta.pullTasksCount - 1) :
    s.apply cid turn = { s with
      calls := s.calls.set cid turn.call
      sent := s.sent ++ turn.sends.map fun message => (turn.call.workerAddr, message)
      receiverSlots := s.receiverSlots ++ turn.puts
      pullMetas := s.pullMetas.set turn.call.rid { pullMeta with failedBlocks, pullTasksCount }
      invalidBlockIds := s.invalidBlockIds ++
        if pullTasksCount = 0 ∧ failedBlocks ≠ ∅ then [(turn.call.rid, failedBlocks)] else []
      finishedRecving := s.finishedRecving ++
        if pullTasksCount = 0 then [(turn.call.rid, pullMeta.dReqId)] else [] } := by
  rw [apply, hfinish]
  simp only [finishReceive, hmeta, ← hblocks, ← hcount]
  by_cases hlast : pullTasksCount = 0
  · rw [if_pos hlast, if_pos hlast]
    by_cases hempty : failedBlocks = ∅
    · rw [if_pos hempty, if_neg (fun h => h.2 hempty), List.append_nil]
    · rw [if_neg hempty, if_pos ⟨hlast, hempty⟩]
  · rw [if_neg hlast, if_neg hlast, if_neg (fun h => hlast h.1), List.append_nil,
      List.append_nil]

/-- **A call that reports.** -/
theorem Inv.reports (h : s.Inv) {turn : ReceiveTurn} {slots : List Nat} {failed : Bool}
    (hcall : s.calls[cid]? = some call) (hnone : call.finishes = [])
    (hfinish : turn.finish = some failed) (hrid : turn.call.rid = call.rid)
    (hfinishes : turn.call.finishes = [failed]) (hpos : turn.call.pos = .ended .returned) :
    ({ s with receiverSlots := slots }.apply cid turn).Inv := by
  have hcallMem := List.mem_of_getElem? hcall
  have hlt := h.rid call hcallMem
  obtain ⟨pullMeta, hmeta⟩ : ∃ pullMeta, s.pullMetas[call.rid]? = some pullMeta :=
    ⟨_, List.getElem?_eq_getElem hlt⟩
  have haccount := h.accounted hmeta
  -- the counts of the calls
  have hopen : (s.calls.set cid turn.call).countP
      (fun other => other.rid = call.rid ∧ other.finishes = []) + 1 = s.openCalls call.rid :=
    countP_set_of_neg hcall (by simp [hnone]) (by simp [hfinishes])
  have hopenOther : ∀ rid ≠ call.rid, (s.calls.set cid turn.call).countP
      (fun other => other.rid = rid ∧ other.finishes = []) = s.openCalls rid := fun rid hne =>
    countP_set_of_same hcall (by simp [hrid, hne.symm])
  have hfailedOther : ∀ rid ≠ call.rid, (s.calls.set cid turn.call).countP
      (fun other => other.rid = rid ∧ true ∈ other.finishes) = s.failedCalls rid := fun rid hne =>
    countP_set_of_same hcall (by simp [hrid, hne.symm])
  have hfailed : (s.calls.set cid turn.call).countP
      (fun other => other.rid = call.rid ∧ true ∈ other.finishes) =
      s.failedCalls call.rid + if failed then 1 else 0 := by
    cases failed with
    | false => exact countP_set_of_same hcall (by simp [hnone, hfinishes])
    | true => exact countP_set_of_pos hcall (by simp [hnone]) (by simp [hfinishes, hrid])
  -- the request and the reports after the step
  obtain ⟨failedBlocks, hfailedBlocks⟩ : ∃ failedBlocks, failedBlocks = if failed then
      pullMeta.failedBlocks ∪ allBlocks pullMeta.localBlockIds else pullMeta.failedBlocks :=
    ⟨_, rfl⟩
  obtain ⟨pullTasksCount, hpull⟩ : ∃ count, count = pullMeta.pullTasksCount - 1 := ⟨_, rfl⟩
  have hblocks : failedBlocks = if s.failedCalls call.rid + (if failed then 1 else 0) = 0 then ∅
      else allBlocks pullMeta.localBlockIds := by
    have hbefore := haccount.failed
    cases failed with
    | false => simpa [hfailedBlocks] using hbefore
    | true =>
        rw [hfailedBlocks, if_pos rfl, hbefore]
        split <;> simp
  have hzero : pullTasksCount = 0 ↔ (s.calls.set cid turn.call).countP
      (fun other => other.rid = call.rid ∧ other.finishes = []) = 0 := by
    have hcount := haccount.count
    omega
  rw [@apply_finish { s with receiverSlots := slots } cid turn failed pullMeta failedBlocks
    pullTasksCount hfinish (by rw [hrid]; exact hmeta) hfailedBlocks hpull, hrid]
  have hempty : s.openCalls call.rid ≠ 0 := by omega
  have hadded : ∀ {β : Type} {entries : List (Nat × β)} {last : Prop} [Decidable last] {x : β},
      (∀ entry ∈ entries, entry.1 < s.pullMetas.length) →
      ∀ entry ∈ entries ++ (if last then [(call.rid, x)] else []),
        entry.1 < s.pullMetas.length := by
    intro β entries last _ x hentries entry hentry
    rcases List.mem_append.mp hentry with hentry | hentry
    · exact hentries entry hentry
    · split at hentry
      · obtain rfl := List.mem_singleton.mp hentry
        exact hlt
      · cases hentry
  refine ⟨fun other hother => ?_, fun other hother => ?_, fun {rid pullMeta'} hmeta' => ?_,
    fun entry hentry => ?_, fun entry hentry => ?_⟩
  · rcases List.mem_or_eq_of_mem_set hother with hother | rfl
    · exact h.reported other hother
    · exact Or.inr ⟨⟨failed, hfinishes⟩, hpos⟩
  · rw [List.length_set]
    rcases List.mem_or_eq_of_mem_set hother with hother | rfl
    · exact h.rid other hother
    · rw [hrid]
      exact hlt
  · by_cases hsame : rid = call.rid
    · subst hsame
      rw [List.getElem?_set_self hlt] at hmeta'
      obtain rfl := Option.some.inj hmeta'
      refine ⟨?_, ?_, ?_, ?_⟩
      · show pullTasksCount = (((s.calls.set cid turn.call).countP fun other =>
          other.rid = call.rid ∧ other.finishes = [] : Nat) : Int)
        have hcount := haccount.count
        omega
      · show failedBlocks = if List.countP _ _ = 0 then _ else _
        rw [hfailed]
        exact hblocks
      · have hbefore := haccount.finished
        rw [if_neg hempty] at hbefore
        show List.filter _ (s.finishedRecving ++ _) = if List.countP _ _ = 0 then _ else _
        rw [List.filter_append, hbefore, List.nil_append]
        simp only [← hzero]
        split <;> simp
      · have hbefore := haccount.invalid
        rw [if_neg (fun h => hempty h.1)] at hbefore
        show List.filter _ (s.invalidBlockIds ++ _) =
          if List.countP _ _ = 0 ∧ failedBlocks ≠ ∅ then [(call.rid, failedBlocks)] else []
        rw [List.filter_append, hbefore, List.nil_append]
        simp only [← hzero]
        split <;> simp
    · rw [List.getElem?_set_ne (Ne.symm hsame)] at hmeta'
      refine (h.accounted hmeta').of_same (hopenOther rid hsame) (hfailedOther rid hsame) ?_ ?_
      · show List.filter _ (s.finishedRecving ++ _) = _
        rw [List.filter_append]
        split <;> simp [Ne.symm hsame]
      · show List.filter _ (s.invalidBlockIds ++ _) = _
        rw [List.filter_append]
        split <;> simp [Ne.symm hsame]
  · rw [List.length_set]
    exact hadded h.finishedRid entry hentry
  · rw [List.length_set]
    exact hadded h.invalidRid entry hentry

/-- The calls that begin for the requests `base, …, base + n - 1`. -/
theorem countP_begun {p : Receive → Bool} {base n rid : Nat} {addrs : List String}
    (hp : ∀ addr i, p { rid := base + i, workerAddr := addr } = decide (base + i = rid)) :
    (addrs.flatMap fun workerAddr =>
        (List.range n).map fun i => ({ rid := base + i, workerAddr } : Receive)).countP p =
      if base ≤ rid ∧ rid < base + n then addrs.length else 0 := by
  have hone : ∀ addr, ((List.range n).map fun i =>
      ({ rid := base + i, workerAddr := addr } : Receive)).countP p =
        if base ≤ rid ∧ rid < base + n then 1 else 0 := by
    intro addr
    rw [List.countP_map]
    simp only [Function.comp_def, hp]
    induction n with
    | zero => rw [if_neg (by omega)]; rfl
    | succ n ih =>
        rw [List.range_succ, List.countP_append, ih]
        simp only [List.countP_cons, List.countP_nil, decide_eq_true_eq]
        split <;> split <;> split <;> omega
  induction addrs with
  | nil => simp
  | cons addr addrs ih =>
      rw [List.flatMap_cons, List.countP_append, hone, ih, List.length_cons]
      split <;> omega

theorem Inv.receiveKv (h : s.Inv) (requests : List PullReqMeta) (workerAddr : String)
    (workerAddrs : List String) :
    (s.receiveKv requests (workerAddr :: workerAddrs)).Inv := by
  have hlength : (s.receiveKv requests (workerAddr :: workerAddrs)).pullMetas.length =
      s.pullMetas.length + requests.length := by
    simp [Receiver.receiveKv]
  have hnew : ∀ call ∈ (workerAddr :: workerAddrs).flatMap fun workerAddr =>
      (List.range requests.length).map fun i =>
        ({ rid := s.pullMetas.length + i, workerAddr } : Receive),
      call.finishes = [] ∧ call.pos = .created ∧
        call.rid < s.pullMetas.length + requests.length := by
    intro call hcall
    obtain ⟨addr, -, hcall⟩ := List.mem_flatMap.mp hcall
    obtain ⟨i, hi, rfl⟩ := List.mem_map.mp hcall
    exact ⟨rfl, rfl, Nat.add_lt_add_left (List.mem_range.mp hi) _⟩
  have hopen : ∀ rid, (s.receiveKv requests (workerAddr :: workerAddrs)).openCalls rid =
      s.openCalls rid + if s.pullMetas.length ≤ rid ∧ rid < s.pullMetas.length + requests.length
        then (workerAddr :: workerAddrs).length else 0 := by
    intro rid
    rw [← countP_begun (p := fun call => call.rid = rid ∧ call.finishes = []) (fun _ _ => by simp)]
    exact List.countP_append
  have hfailed : ∀ rid, (s.receiveKv requests (workerAddr :: workerAddrs)).failedCalls rid =
      s.failedCalls rid := by
    intro rid
    refine List.countP_append.trans ?_
    refine Nat.add_eq_left.mpr (List.countP_eq_zero.mpr fun call hcall => ?_)
    simp [(hnew call hcall).1]
  have hnone : ∀ rid, s.pullMetas.length ≤ rid → s.openCalls rid = 0 ∧ s.failedCalls rid = 0 := by
    intro rid hrid
    constructor
    all_goals
      refine List.countP_eq_zero.mpr fun call hcall => ?_
      have hlt := h.rid call hcall
      simp only [decide_eq_true_eq, not_and]
      omega
  refine ⟨fun call hcall => ?_, fun call hcall => ?_, fun {rid pullMeta} hmeta => ?_,
    fun entry hentry => ?_, fun entry hentry => ?_⟩
  · rcases List.mem_append.mp hcall with hcall | hcall
    · exact h.reported call hcall
    · obtain ⟨hfinishes, hpos, -⟩ := hnew call hcall
      refine Or.inl ⟨hfinishes, ?_⟩
      rw [hpos]
      exact fun heq => nomatch heq
  · rw [hlength]
    rcases List.mem_append.mp hcall with hcall | hcall
    · exact Nat.lt_add_right _ (h.rid call hcall)
    · exact (hnew call hcall).2.2
  · by_cases hold : rid < s.pullMetas.length
    · have hmeta : s.pullMetas[rid]? = some pullMeta := by
        rw [← hmeta]
        exact (List.getElem?_append_left hold).symm
      refine (h.accounted hmeta).of_same ?_ (hfailed rid) rfl rfl
      rw [hopen, if_neg (by omega), Nat.add_zero]
    · have hrid : s.pullMetas.length ≤ rid := Nat.le_of_not_lt hold
      obtain ⟨hopenZero, hfailedZero⟩ := hnone rid hrid
      have hlt : rid < s.pullMetas.length + requests.length := by
        rw [← hlength]
        exact (List.getElem?_eq_some_iff.mp hmeta).1
      have hopenNew : (s.receiveKv requests (workerAddr :: workerAddrs)).openCalls rid =
          workerAddrs.length + 1 := by
        rw [hopen, hopenZero, if_pos ⟨hrid, hlt⟩, Nat.zero_add, List.length_cons]
      obtain ⟨fresh, -, rfl⟩ : ∃ fresh ∈ requests, pullMeta = { fresh with
          pullTasksCount := ((workerAddr :: workerAddrs).length : Nat), failedBlocks := ∅ } := by
        have hget := (List.getElem?_append_right hrid).symm.trans hmeta
        rw [List.getElem?_map, Option.map_eq_some_iff] at hget
        obtain ⟨fresh, hfresh, heq⟩ := hget
        exact ⟨fresh, List.mem_of_getElem? hfresh, heq.symm⟩
      refine ⟨?_, ?_, ?_, ?_⟩
      · rw [hopenNew]
        rfl
      · rw [hfailed, hfailedZero]
        rfl
      · rw [hopenNew, if_neg (Nat.succ_ne_zero _)]
        refine List.filter_eq_nil_iff.mpr fun entry hentry heq => ?_
        have hentryLt := h.finishedRid entry hentry
        have heq : entry.1 = rid := by simpa using heq
        omega
      · rw [hopenNew, if_neg (fun h => Nat.succ_ne_zero _ h.1)]
        refine List.filter_eq_nil_iff.mpr fun entry hentry heq => ?_
        have hentryLt := h.invalidRid entry hentry
        have heq : entry.1 = rid := by simpa using heq
        omega
  · rw [hlength]
    exact Nat.lt_add_right _ (h.finishedRid entry hentry)
  · rw [hlength]
    exact Nat.lt_add_right _ (h.invalidRid entry hentry)

/-- A call that has not ended has not reported. -/
theorem Inv.finishes_eq_nil (h : s.Inv) (hcall : s.calls[cid]? = some call)
    (hended : call.pos.isEnded = false) : call.finishes = [] := by
  rcases h.reported call (List.mem_of_getElem? hcall) with ⟨hnone, -⟩ | ⟨-, hpos⟩
  · exact hnone
  · rw [hpos] at hended
    cases hended

theorem ne_returned {pos : ReceiveAt} (hended : pos.isEnded = false) :
    pos ≠ .ended .returned := by
  rintro rfl
  cases hended

/-- **One step of the loop.** -/
theorem Inv.step (h : s.Inv) {a : Action} (hstep : s.step a = some t) : t.Inv := by
  cases step_cases hstep with
  | receiveKv requests workerAddr workerAddrs => exact h.receiveKv requests workerAddr workerAddrs
  | proceeds cid call slots turn hcall hrid _ hproceeds hjudges =>
      rcases hproceeds.report with ⟨hfinish, hfinishes, hpos⟩ | ⟨failed, hfinish, hfinishes, hpos⟩
      · refine h.unreported hcall hfinish hproceeds.rid hfinishes ?_
        rcases hjudges with ⟨hended, -⟩ | ⟨-, hsame, -⟩
        · rcases hpos with hpos | hpos
          · exact Or.inr hpos
          · exact Or.inl ⟨h.finishes_eq_nil hcall hended, ne_returned hpos⟩
        · exact Or.inr hsame
      · have hlive : call.pos.isEnded = false := by
          rcases hjudges with ⟨hended, -⟩ | ⟨hnone, -, -⟩
          · exact hended
          · rw [hfinish] at hnone
            cases hnone
        have hnone := h.finishes_eq_nil hcall hlive
        rw [hnone, List.nil_append] at hfinishes
        exact h.reports hcall hnone hfinish hproceeds.rid hfinishes hpos
  | raises cid call message hcall hrid _ hended =>
      have hnone := h.finishes_eq_nil hcall hended
      exact @Inv.unreported s cid call h { call := { call with pos := .ended (.raised message) } }
        s.receiverSlots hcall rfl rfl rfl (Or.inl ⟨hnone, fun heq => nomatch heq⟩)

theorem inv_of_reachable {config : ReceiverConfig} (h : (receiverMachine config).Reachable s) :
    s.Inv := by
  refine Machine.invariant (I := Inv) ?_ (fun _ _ _ _ hinv _ hstep => hinv.step hstep) h
  rintro s rfl
  exact ⟨fun _ h => (nomatch h), fun _ h => (nomatch h), fun h => (nomatch h),
    fun _ h => (nomatch h), fun _ h => (nomatch h)⟩

/-- **The reports are the outcomes.** -/
theorem judged_step (h : s.Inv) (hjudged : ∀ call ∈ s.calls, call.Judged) {a : Action}
    (hstep : s.step a = some t) : ∀ call ∈ t.calls, call.Judged := by
  intro other hother
  cases step_cases hstep with
  | receiveKv requests workerAddr workerAddrs =>
      rcases List.mem_append.mp hother with hother | hother
      · exact hjudged other hother
      · obtain ⟨addr, -, hother⟩ := List.mem_flatMap.mp hother
        obtain ⟨i, -, rfl⟩ := List.mem_map.mp hother
        exact ⟨fun _ => ⟨nofun, nofun⟩, nofun, nofun⟩
  | proceeds cid call slots turn hcall _ _ hproceeds hjudges =>
      have hmem := List.mem_of_getElem? hcall
      rw [calls_apply] at hother
      rcases List.mem_or_eq_of_mem_set hother with hother | rfl
      · exact hjudged other hother
      · rcases hjudges with ⟨hlive, hdecides⟩ | ⟨hfinish, hpos, hsame⟩
        · have hnone := h.finishes_eq_nil hcall hlive
          refine Receive.judged_of_decides (hdecides ((hjudged call hmem).unreported hnone)) ?_
          rcases hproceeds.report with ⟨hfinish, hfinishes, -⟩ | ⟨failed, hfinish, hfinishes, -⟩
          · exact Or.inl ⟨hfinish, hfinishes.trans hnone⟩
          · exact Or.inr ⟨failed, hfinish, by rw [hfinishes, hnone, List.nil_append]⟩
        · rcases hproceeds.report with ⟨-, hfinishes, -⟩ | ⟨failed, hreport, -, -⟩
          · exact (hjudged call hmem).of_same hsame hpos hfinishes
          · rw [hfinish] at hreport
            cases hreport
  | raises cid call message hcall _ _ hended =>
      rw [calls_apply] at hother
      rcases List.mem_or_eq_of_mem_set hother with hother | rfl
      · exact hjudged other hother
      · have hnone := h.finishes_eq_nil hcall hended
        have hopen := (hjudged call (List.mem_of_getElem? hcall)).unreported hnone
        exact @Receive.judged_of_decides { call := { call with pos := .ended (.raised message) } }
          (hopen.raise message) (Or.inl ⟨rfl, hnone⟩)

theorem judged_of_reachable {config : ReceiverConfig}
    (h : (receiverMachine config).Reachable s) : ∀ call ∈ s.calls, call.Judged := by
  refine Machine.invariant (I := fun s : Receiver => ∀ call ∈ s.calls, call.Judged) ?_ ?_ h
  · rintro s rfl
    exact fun _ hcall => nomatch hcall
  · intro s a t hreach hjudged _ hstep
    exact judged_step (inv_of_reachable hreach) hjudged hstep

/-! ### Every call reports -/

/-- Every call that has ended has made one call of `_finish_compression_receive`. -/
def FinishesOnce (s : Receiver) : Prop :=
  ∀ call ∈ s.calls, call.pos.isEnded = true → call.finishes.length = 1

/-- A step keeps the reports complete exactly if its abort is acknowledged. -/
theorem finishesOnce_step (h : s.Inv) (honce : s.FinishesOnce) {a : Action}
    (hstep : s.step a = some t) : s.Acked a ↔ t.FinishesOnce := by
  have hinv := h.step hstep
  cases step_cases hstep with
  | receiveKv requests workerAddr workerAddrs hacked =>
      refine iff_of_true hacked fun call hcall hended => ?_
      rcases List.mem_append.mp hcall with hcall | hcall
      · exact honce call hcall hended
      · obtain ⟨addr, -, hcall⟩ := List.mem_flatMap.mp hcall
        obtain ⟨i, -, rfl⟩ := List.mem_map.mp hcall
        cases hended
  | proceeds cid call slots turn hcall hrid hacked hproceeds _ =>
      refine iff_of_true hacked fun other hother hended => ?_
      have hcalls : ({ s with receiverSlots := slots }.apply cid turn).calls =
          s.calls.set cid turn.call := calls_apply _ cid turn
      have hmem : other ∈ s.calls ∨ other = turn.call :=
        List.mem_or_eq_of_mem_set (hcalls ▸ hother)
      rcases hmem with hmem | rfl
      · exact honce other hmem hended
      · rcases hproceeds.report with ⟨-, hfinishes, hpos⟩ | ⟨failed, -, -, hpos⟩
        · rw [hfinishes]
          rcases hpos with hpos | hpos
          · rw [hpos] at hended
            exact honce call (List.mem_of_getElem? hcall) hended
          · rw [hpos] at hended
            cases hended
        · rcases hinv.reported _ hother with ⟨-, hnot⟩ | ⟨⟨failed, hfinishes⟩, -⟩
          · exact absurd hpos hnot
          · rw [hfinishes]
            rfl
  | raises cid call message hcall hrid hacked hended =>
      refine iff_of_false hacked fun honce' => ?_
      have hlt := (List.getElem?_eq_some_iff.mp hcall).1
      have hmem : { call with pos := .ended (.raised message) } ∈
          (s.apply cid { call := { call with pos := .ended (.raised message) } }).calls := by
        rw [calls_apply]
        exact List.mem_set hlt _
      have hlength : call.finishes.length = 1 :=
        honce' { call with pos := .ended (.raised message) } hmem rfl
      rw [h.finishes_eq_nil hcall hended] at hlength
      cases hlength

theorem finishesOnce_of_reach {config : ReceiverConfig}
    (h : (receiverMachine config).ReachWith Acked s) : s.FinishesOnce := by
  have hinv : ∀ {s}, (receiverMachine config).ReachWith Acked s → s.Inv := fun h =>
    inv_of_reachable (h.mono fun _ _ _ => trivial)
  refine Machine.invariant (I := FinishesOnce) ?_ ?_ h
  · rintro s rfl
    exact fun _ hcall => nomatch hcall
  · intro s a t hreach honce hacked hstep
    exact (finishesOnce_step (hinv hreach) honce hstep).mp hacked

/-- A request whose calls have all ended is reported once: with all its blocks invalid if a
transfer has failed, and with none if all have succeeded. -/
def ReportsOnce (s : Receiver) : Prop :=
  ∀ rid pullMeta, s.pullMetas[rid]? = some pullMeta →
    (∀ call ∈ s.calls, call.rid = rid → call.pos.isEnded = true) →
    s.finishedRecving.filter (·.1 = rid) = [(rid, pullMeta.dReqId)] ∧
      ((∃ call ∈ s.calls, call.rid = rid ∧ ¬ call.Succeeded) →
        allBlocks pullMeta.localBlockIds ≠ ∅ →
        s.invalidBlockIds.filter (·.1 = rid) = [(rid, allBlocks pullMeta.localBlockIds)]) ∧
      ((∀ call ∈ s.calls, call.rid = rid → call.Succeeded) →
        s.invalidBlockIds.filter (·.1 = rid) = [])

/-- The failed calls are those that have not succeeded. -/
theorem failedCalls_eq_zero {rid : Nat} (hjudged : ∀ call ∈ s.calls, call.Judged)
    (honce : ∀ call ∈ s.calls, call.rid = rid → call.finishes.length = 1) :
    s.failedCalls rid = 0 ↔ ∀ call ∈ s.calls, call.rid = rid → call.Succeeded := by
  refine List.countP_eq_zero.trans (forall₂_congr fun call hcall => ?_)
  rw [decide_eq_true_eq, not_and]
  refine forall_congr' fun hrid => ?_
  obtain ⟨failed, hfinishes⟩ := List.length_eq_one_iff.mp (honce call hcall hrid)
  have h := hjudged call hcall
  rw [hfinishes]
  cases failed with
  | true =>
      refine iff_of_false (by simp) fun hsucceeded => ?_
      exact hsucceeded.not_unfinished (h.failed (by simp [hfinishes]))
  | false => exact iff_of_true (by simp) (h.succeeded (by simp [hfinishes]))

theorem reportsOnce (h : s.Inv) (hjudged : ∀ call ∈ s.calls, call.Judged)
    (honce : s.FinishesOnce) : s.ReportsOnce := by
  intro rid pullMeta hmeta hended
  have haccount := h.accounted hmeta
  have hlength : ∀ call ∈ s.calls, call.rid = rid → call.finishes.length = 1 :=
    fun call hcall hrid => honce call hcall (hended call hcall hrid)
  have hopen : s.openCalls rid = 0 := by
    refine List.countP_eq_zero.mpr fun call hcall hp => ?_
    obtain ⟨hrid, hnone⟩ := of_decide_eq_true hp
    have hone := hlength call hcall hrid
    rw [hnone] at hone
    cases hone
  have hfailed := failedCalls_eq_zero hjudged hlength
  refine ⟨?_, fun hsome hblocks => ?_, fun hall => ?_⟩
  · rw [haccount.finished, if_pos hopen]
  · have hpos : s.failedCalls rid ≠ 0 := by
      obtain ⟨call, hcall, hrid, hnot⟩ := hsome
      exact fun hzero => hnot (hfailed.mp hzero call hcall hrid)
    have hfailedBlocks : pullMeta.failedBlocks = allBlocks pullMeta.localBlockIds := by
      rw [haccount.failed, if_neg hpos]
    rw [haccount.invalid, hfailedBlocks, if_pos ⟨hopen, hblocks⟩]
  · have hnone : pullMeta.failedBlocks = ∅ := by
      rw [haccount.failed, if_pos (hfailed.mpr hall)]
    rw [haccount.invalid, if_neg fun hsome => hsome.2 hnone]

/-- **Every call reports once, if every abort is acknowledged.** In a run in which each abort
is acknowledged, every call that has ended has made one call of
`_finish_compression_receive`, and a request is reported once its calls have ended, with its
blocks if one of the transfers has failed. The first abort that is not acknowledged leaves a
call that ends without a report. -/
theorem receive_reports_once {config : ReceiverConfig}
    (h : (receiverMachine config).ReachWith Acked s) :
    (s.FinishesOnce ∧ s.ReportsOnce) ∧
      ∀ a t, (receiverMachine config).step s a = some t →
        (t.FinishesOnce ∧ t.ReportsOnce ↔ s.Acked a) := by
  have hreach : (receiverMachine config).Reachable s := h.mono fun _ _ _ => trivial
  have hinv := inv_of_reachable hreach
  have hjudged := judged_of_reachable hreach
  have honce := finishesOnce_of_reach h
  refine ⟨⟨honce, reportsOnce hinv hjudged honce⟩, fun a t hstep => ?_⟩
  have hiff := finishesOnce_step hinv honce hstep
  constructor
  · rintro ⟨honce', -⟩
    exact hiff.mpr honce'
  · intro hacked
    exact ⟨hiff.mp hacked,
      reportsOnce (hinv.step hstep) (judged_step hinv hjudged hstep) (hiff.mp hacked)⟩

/-- A worker with one slot. -/
def oneSlot : ReceiverConfig :=
  { «metadata» :=
      { remoteHostname := "h", remotePort := 1, remoteTpSize := 1, remoteTpRank := 0
        reqBlocks := [], kvCachesBaseAddr := [], blockLens := [], kvBlockLens := [] }
    slots := [⟨0, 10, 20⟩], logicalBlocksPerChunk := 1, faGroupIndices := [0]
    blockSizes := [(0, 16)], executionRaw := false }

/-- A request of one block. -/
def oneBlock : PullReqMeta :=
  { dReqId := "d", transferId := "t", localBlockIds := [[7]], numTokens := some 16 }

/-- The open fails. -/
def openFails : List Action :=
  [.receiveKv [oneBlock] ["a"], .start 0 "n" (.ok ()),
    .opened 0 (.ok (.sessionOpened
      { logicalBlockCount := 0, totalChunks := 0, error := some "not ready" }))]

/-- The first chunk fails at the producer, and the slot is drained after the abort. -/
def chunkFails : List Action :=
  [.receiveKv [oneBlock] ["a"], .start 0 "n" (.ok ()),
    .opened 0 (.ok (.sessionOpened { logicalBlockCount := 1, totalChunks := 2 })),
    .issue 0 (.ok ()), .replied 0 (.ok (.chunkReady (.failed 0 "out of memory"))),
    .wake 0 [.recvTask], .resume 0,
    .aborted 0 (.ok (.abortAck { transferId := "t", dReqId := "d", nonce := "n" })),
    .slotDrained 0 (.ok ())]

/-- A failed chunk with an acknowledged abort is reported with its block. -/
theorem receive_reports_once_chunk : ∃ s, (receiverMachine oneSlot).ReachWith Acked s ∧
    s.calls.map Receive.outcome = [some (.failed, 0, 2)] ∧ s.finishedRecving = [(0, "d")] ∧
    s.invalidBlockIds = [(0, {7})] ∧ (s.FinishesOnce ∧ s.ReportsOnce) := by
  let s := ((receiverMachine oneSlot).exec (fun s a => decide (s.Acked a)) (start oneSlot)
    chunkFails).get (by decide)
  have hreach : (receiverMachine oneSlot).ReachWith Acked s :=
    (Machine.reachWith_of_exec (M := receiverMachine oneSlot) rfl (Option.some_get _).symm).mono
      fun _ _ h => of_decide_eq_true h
  exact ⟨s, hreach, by decide, by decide, by decide, (receive_reports_once hreach).1⟩

/-- The open fails and its abort times out: the only call of the request ends, and the
request is not reported. -/
theorem receive_unreported : ∃ s, (receiverMachine oneSlot).Reachable s ∧
    (∀ call ∈ s.calls, call.pos.isEnded = true) ∧ s.finishedRecving = [] ∧
    s.invalidBlockIds = [] ∧ ¬ s.FinishesOnce := by
  let s := ((receiverMachine oneSlot).exec (fun _ _ => true) (start oneSlot)
    (openFails ++ [.aborted 0 (.error "timed out")])).get (by decide)
  have hreach : (receiverMachine oneSlot).Reachable s :=
    (Machine.reachWith_of_exec (M := receiverMachine oneSlot) rfl (Option.some_get _).symm).mono
      fun _ _ _ => trivial
  refine ⟨s, hreach, by decide, by decide, by decide, fun honce => ?_⟩
  have hlength := honce (s.calls.get ⟨0, by decide⟩) (List.get_mem _ _) (by decide)
  revert hlength
  decide

end Receiver

end KVServe.Engine
