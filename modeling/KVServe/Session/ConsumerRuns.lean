import KVServe.Lib.ListHeap
import KVServe.Session.Consumer

/-!
# KVServe.Session.ConsumerRuns

What one run of a consumer session can do, said once: `Resumes` lists the ways
`_run_consumer_session` gets from its `await` to the next one, `Cancels` what a
`CancelledError` does there. `resume_cases` and `resumeCancelled_cases` invert
the definitions into these lists.
-/

namespace KVServe.Session

/-- What a session in its `finally` block, or past it, ends with. -/
def SessionAt.outcome? : SessionAt → Option Outcome
  | finIssue out | finRecv out | finDecode _ out | finDrain _ out | ended out => some out
  | _ => none

namespace ConsumerSession

variable {σ : ConsumerSession} {nextJob : Nat} {futures : Nat → Option JobDone} {turn : Turn}

/-- One run of a session from its `await` to the next. -/
inductive Resumes (σ : ConsumerSession) (nextJob : Nat) : Turn → Prop
  | openFails {message : Option CompressionResponse} (reason : String)
      (hpos : σ.pos = .opening (some message)) : Resumes σ nextJob (σ.sendAbort reason)
  | openEmpty {message : Option CompressionResponse} (hpos : σ.pos = .opening (some message)) :
      Resumes σ nextJob (σ.enterFinally (.returned ∅) nextJob)
  | openStarts {response : CompressionSessionOpened}
      (hpos : σ.pos = .opening (some (some (.sessionOpened response))))
      (hchunks : response.totalChunks ≠ 0) :
      Resumes σ nextJob { session := (σ.startTasks response).loopHead }
  | replyFails {waited : List Nat} {σ₁ : ConsumerSession} (reason : String)
      (hpos : σ.pos = .waiting waited true) (hreply : σ.takeReply = (σ₁, some reason)) :
      Resumes σ nextJob (σ₁.sendAbort reason)
  | issueFails {waited : List Nat} {σ₁ σ₂ : ConsumerSession} (reason : String)
      (hpos : σ.pos = .waiting waited true) (hreply : σ.takeReply = (σ₁, none))
      (hissue : σ₁.takeIssue = (σ₂, some reason)) : Resumes σ nextJob (σ₂.sendAbort reason)
  | decodeFails {waited : List Nat} {σ₁ σ₂ σ₃ : ConsumerSession} (reason : String)
      (hpos : σ.pos = .waiting waited true) (hreply : σ.takeReply = (σ₁, none))
      (hissue : σ₁.takeIssue = (σ₂, none))
      (hdecodes : σ₂.takeDecodes waited = (σ₃, some reason)) :
      Resumes σ nextJob (σ₃.sendAbort reason)
  | loops {waited : List Nat} {σ₁ σ₂ σ₃ : ConsumerSession}
      (hpos : σ.pos = .waiting waited true) (hreply : σ.takeReply = (σ₁, none))
      (hissue : σ₁.takeIssue = (σ₂, none)) (hdecodes : σ₂.takeDecodes waited = (σ₃, none)) :
      Resumes σ nextJob { session := σ₃.loopHead }
  | stops (hpos : σ.pos = .stopRecv) (hnone : σ.decodeTasks = []) :
      Resumes σ nextJob ({ σ with recvTask := .absent }.enterFinally (.returned ∅) nextJob)
  | gathers (hpos : σ.pos = .stopRecv) :
      Resumes σ nextJob
        { session := { σ with recvTask := .absent, pos := .gatherDecode σ.decodeTasks } }
  | gatherFails {tasks : List Nat} (reason : String) (hpos : σ.pos = .gatherDecode tasks) :
      Resumes σ nextJob (σ.sendAbort reason)
  | gatherDone {tasks : List Nat} (hpos : σ.pos = .gatherDecode tasks)
      (herr : σ.firstError tasks = none) (hdone : σ.allDone tasks = true) :
      Resumes σ nextJob (σ.enterFinally (.returned ∅) nextJob)
  | aborted {message : Option CompressionResponse} (hpos : σ.pos = .aborting (some message)) :
      Resumes σ nextJob ({ σ with acked := σ.isAck message }.enterFinally
        (.returned (allBlocks σ.request.localBlockIds)) nextJob)
  | finIssue {out : Outcome} (hpos : σ.pos = .finIssue out) :
      Resumes σ nextJob (σ.afterIssue out nextJob)
  | finRecv {out : Outcome} (hpos : σ.pos = .finRecv out) :
      Resumes σ nextJob (σ.afterRecv out nextJob)
  | finDecode {tasks : List Nat} {out : Outcome} (hpos : σ.pos = .finDecode tasks out)
      (hdone : σ.allDone tasks = true) : Resumes σ nextJob (σ.afterDecode out nextJob)
  | finDrain {job : Nat} {out : Outcome} (hpos : σ.pos = .finDrain job out) :
      Resumes σ nextJob (σ.finish out)

theorem opened_resumes {message : Option CompressionResponse}
    (hpos : σ.pos = .opening (some message)) : Resumes σ nextJob (σ.opened nextJob message) := by
  unfold opened
  split
  · exact .openFails _ hpos
  · split
    · exact .openFails _ hpos
    · split
      · exact .openEmpty hpos
      · rename_i hchunks
        exact .openStarts hpos hchunks
  · exact .openFails _ hpos

theorem wake_resumes {waited : List Nat} (hpos : σ.pos = .waiting waited true) :
    Resumes σ nextJob (σ.wake waited) := by
  unfold wake
  split
  · rename_i hreply
    exact .replyFails _ hpos hreply
  · rename_i hreply
    split
    · rename_i hissue
      exact .issueFails _ hpos hreply hissue
    · rename_i hissue
      split
      · rename_i hdecodes
        exact .decodeFails _ hpos hreply hissue hdecodes
      · rename_i hdecodes
        exact .loops hpos hreply hissue hdecodes

/-- **Inversion of `resume`.** -/
theorem resume_cases (h : σ.resume nextJob futures = some turn) : Resumes σ nextJob turn := by
  unfold resume at h
  split at h
  · rename_i hpos
    obtain rfl := Option.some.inj h
    exact opened_resumes hpos
  · rename_i hpos
    obtain rfl := Option.some.inj h
    exact wake_resumes hpos
  · rename_i hpos
    split at h
    · rename_i hnone
      obtain rfl := Option.some.inj h
      exact .stops hpos hnone
    · obtain rfl := Option.some.inj h
      exact .gathers hpos
  · rename_i hpos
    split at h
    · obtain rfl := Option.some.inj h
      exact .gatherFails _ hpos
    · rename_i herr
      split at h
      · rename_i hdone
        obtain rfl := Option.some.inj h
        exact .gatherDone hpos herr hdone
      · cases h
  · rename_i hpos
    obtain rfl := Option.some.inj h
    exact .aborted hpos
  · rename_i hpos
    obtain rfl := Option.some.inj h
    exact .finIssue hpos
  · rename_i hpos
    obtain rfl := Option.some.inj h
    exact .finRecv hpos
  · rename_i hpos
    split at h
    · rename_i hdone
      obtain rfl := Option.some.inj h
      exact .finDecode hpos hdone
    · cases h
  · rename_i hpos
    obtain ⟨result, -, rfl⟩ := Option.map_eq_some_iff.mp h
    exact .finDrain hpos
  · cases h

/-- The session once its `CancelledError` is delivered. -/
def uncancelled (σ : ConsumerSession) : ConsumerSession :=
  { σ with cancelRequested := false, waiters := σ.waiters.filter (· ≠ Waiter.session) }

/-- What a `CancelledError` does to a session. -/
inductive Cancels (σ : ConsumerSession) (nextJob : Nat) : Turn → Prop
  | unstarted (hpos : σ.pos = .created) :
      Cancels σ nextJob { session := { σ.uncancelled with pos := .ended .cancelled } }
  | body (hcreated : σ.pos ≠ .created) (hfinally : σ.pos.inFinally = false)
      (hended : σ.pos.isEnded = false) :
      Cancels σ nextJob (σ.uncancelled.enterFinally .cancelled nextJob)
  | gather {tasks : List Nat} (hpos : σ.pos = .gatherDecode tasks) :
      Cancels σ nextJob ((σ.uncancelled.cancelDecodes tasks).enterFinally .cancelled nextJob)
  /-- Inside the `finally` block: the rest of it is skipped. -/
  | skips (hfinally : σ.pos.inFinally = true) :
      Cancels σ nextJob { session := { σ.uncancelled with pos := .ended .cancelled } }
  | skipsGather {tasks : List Nat} {out : Outcome} (hpos : σ.pos = .finDecode tasks out) :
      Cancels σ nextJob
        { session := { σ.uncancelled.cancelDecodes tasks with pos := .ended .cancelled } }

/-- **Inversion of `resumeCancelled`.** -/
theorem resumeCancelled_cases (h : σ.resumeCancelled nextJob = some turn) :
    Cancels σ nextJob turn := by
  unfold resumeCancelled at h
  dsimp only at h
  split at h <;> rename_i hpos
  · obtain rfl := Option.some.inj h
    exact .unstarted hpos
  · obtain rfl := Option.some.inj h
    exact .body (by simp [hpos]) (by simp [hpos, SessionAt.inFinally])
      (by simp [hpos, SessionAt.isEnded])
  · obtain rfl := Option.some.inj h
    exact .body (by simp [hpos]) (by simp [hpos, SessionAt.inFinally])
      (by simp [hpos, SessionAt.isEnded])
  · obtain rfl := Option.some.inj h
    exact .body (by simp [hpos]) (by simp [hpos, SessionAt.inFinally])
      (by simp [hpos, SessionAt.isEnded])
  · obtain rfl := Option.some.inj h
    exact .body (by simp [hpos]) (by simp [hpos, SessionAt.inFinally])
      (by simp [hpos, SessionAt.isEnded])
  · obtain rfl := Option.some.inj h
    exact .gather hpos
  · obtain rfl := Option.some.inj h
    exact .skipsGather hpos
  · obtain rfl := Option.some.inj h
    exact .skips (σ := σ) (by simp [hpos, SessionAt.inFinally])
  · obtain rfl := Option.some.inj h
    exact .skips (σ := σ) (by simp [hpos, SessionAt.inFinally])
  · obtain rfl := Option.some.inj h
    exact .skips (σ := σ) (by simp [hpos, SessionAt.inFinally])
  · cases h

/-- Only a session that has started and not ended runs. -/
theorem Resumes.live (h : Resumes σ nextJob turn) :
    σ.pos ≠ .created ∧ σ.pos.isEnded = false := by
  obtain ⟨pos, hpos, hcreated, hended⟩ : ∃ pos, σ.pos = pos ∧ pos ≠ .created ∧
      pos.isEnded = false := by
    cases h with
    | openFails reason hpos => exact ⟨_, hpos, by simp, rfl⟩
    | openEmpty hpos => exact ⟨_, hpos, by simp, rfl⟩
    | openStarts hpos => exact ⟨_, hpos, by simp, rfl⟩
    | replyFails reason hpos => exact ⟨_, hpos, by simp, rfl⟩
    | issueFails reason hpos => exact ⟨_, hpos, by simp, rfl⟩
    | decodeFails reason hpos => exact ⟨_, hpos, by simp, rfl⟩
    | loops hpos => exact ⟨_, hpos, by simp, rfl⟩
    | stops hpos => exact ⟨_, hpos, by simp, rfl⟩
    | gathers hpos => exact ⟨_, hpos, by simp, rfl⟩
    | gatherFails reason hpos => exact ⟨_, hpos, by simp, rfl⟩
    | gatherDone hpos => exact ⟨_, hpos, by simp, rfl⟩
    | aborted hpos => exact ⟨_, hpos, by simp, rfl⟩
    | finIssue hpos => exact ⟨_, hpos, by simp, rfl⟩
    | finRecv hpos => exact ⟨_, hpos, by simp, rfl⟩
    | finDecode hpos => exact ⟨_, hpos, by simp, rfl⟩
    | finDrain hpos => exact ⟨_, hpos, by simp, rfl⟩
  rw [hpos]
  exact ⟨hcreated, hended⟩

/-! ### Frames -/

@[simp] theorem cancelRecv_inflight : σ.cancelRecv.inflight = σ.inflight := by
  unfold cancelRecv; split <;> rfl

@[simp] theorem cancelRecv_decodes : σ.cancelRecv.decodes = σ.decodes := by
  unfold cancelRecv; split <;> rfl

@[simp] theorem cancelRecv_owned : σ.cancelRecv.owned = σ.owned := by
  unfold cancelRecv; split <;> rfl

@[simp] theorem cancelRecv_issue : σ.cancelRecv.issue = σ.issue := by
  unfold cancelRecv; split <;> rfl

theorem cancelIssue_eq : σ.cancelIssue = { σ with issue := σ.cancelIssue.issue } := by
  unfold cancelIssue; split <;> rfl

theorem mem_decodeTasks {i : Nat} :
    i ∈ σ.decodeTasks ↔ ∃ task, σ.decodes[i]? = some task ∧ task.tracked = true := by
  unfold decodeTasks
  rw [List.mem_filter, List.mem_range]
  constructor
  · rintro ⟨hlt, hmap⟩
    obtain ⟨task, htask⟩ : ∃ task, σ.decodes[i]? = some task := ⟨_, List.getElem?_eq_getElem hlt⟩
    exact ⟨task, htask, by simpa [htask] using hmap⟩
  · rintro ⟨task, htask, htracked⟩
    exact ⟨(List.getElem?_eq_some_iff.mp htask).1, by simpa [htask] using htracked⟩

/-- What the `finally` block can have done when it suspends or ends: the
position carries the outcome, and only the tasks, the socket and the slots have
changed. -/
structure Tidied (σ : ConsumerSession) (out : Outcome) (turn : Turn) : Prop where
  same : turn.session = { σ with
    pos := turn.session.pos, issue := turn.session.issue, recvTask := turn.session.recvTask
    waiters := turn.session.waiters, owned := turn.session.owned
    inflight := turn.session.inflight }
  pos : turn.session.pos.outcome? = some out
  issue : turn.session.issue = σ.issue ∨
    ((∃ chunkId, σ.issue = .running chunkId) ∧ turn.session.issue = .cancelled)
  inflight : turn.session.inflight = σ.inflight ∨
    (turn.session.inflight = [] ∧ turn.session.pos = .ended out)
  sends : turn.sends = []
  submits : turn.submits = none ∨ ∃ slots, turn.submits = some (.drainSlots slots)
  recv : turn.session.recvTask = σ.recvTask ∨ turn.session.recvTask = .absent ∨
    turn.session.recvTask = .cancelled

variable {out : Outcome}

theorem finish_tidied : Tidied σ out (σ.finish out) :=
  ⟨rfl, rfl, Or.inl rfl, Or.inr ⟨rfl, rfl⟩, rfl, Or.inl rfl, Or.inl rfl⟩

theorem afterDecode_tidied : Tidied σ out (σ.afterDecode out nextJob) := by
  unfold afterDecode
  split
  · exact finish_tidied
  · exact ⟨rfl, rfl, Or.inl rfl, Or.inl rfl, rfl, Or.inr ⟨_, rfl⟩, Or.inl rfl⟩

theorem afterRecv_tidied : Tidied σ out (σ.afterRecv out nextJob) := by
  unfold afterRecv
  dsimp only
  split
  · obtain ⟨h₁, h₂, h₃, h₄, h₅, h₆, h₇⟩ :=
      afterDecode_tidied (σ := { σ with recvTask := .absent })
    refine ⟨h₁, h₂, h₃, h₄, h₅, h₆, Or.inr ?_⟩
    exact h₇.elim Or.inl id
  · exact ⟨rfl, rfl, Or.inl rfl, Or.inl rfl, rfl, Or.inl rfl, Or.inr (Or.inl rfl)⟩

theorem cancelRecv_eq : σ.cancelRecv =
    { σ with recvTask := σ.cancelRecv.recvTask, waiters := σ.cancelRecv.waiters } := by
  unfold cancelRecv; split <;> rfl

theorem cancelRecv_recvTask :
    σ.cancelRecv.recvTask = σ.recvTask ∨ σ.cancelRecv.recvTask = .cancelled := by
  unfold cancelRecv
  split
  · exact Or.inr rfl
  · exact Or.inr rfl
  · exact Or.inl rfl

theorem afterIssue_tidied : Tidied σ out (σ.afterIssue out nextJob) := by
  unfold afterIssue
  split
  · exact afterRecv_tidied
  · refine ⟨?_, rfl, Or.inl cancelRecv_issue, Or.inl cancelRecv_inflight, rfl, Or.inl rfl, ?_⟩
    · rw [cancelRecv_eq]
    · exact cancelRecv_recvTask.imp_right Or.inr

theorem enterFinally_tidied : Tidied σ out (σ.enterFinally out nextJob) := by
  unfold enterFinally
  split
  · exact afterIssue_tidied
  · refine ⟨?_, rfl, ?_, ?_, rfl, Or.inl rfl, ?_⟩
    · rw [cancelIssue_eq]
    · unfold cancelIssue
      split
      · rename_i chunkId hissue
        exact Or.inr ⟨⟨chunkId, hissue⟩, rfl⟩
      · exact Or.inl rfl
    · rw [cancelIssue_eq]
      exact Or.inl rfl
    · rw [cancelIssue_eq]
      exact Or.inl rfl

end ConsumerSession

/-! ### Steps of the helper -/

namespace Consumer

variable {s s' : Consumer} {sid : Nat}

/-- **Inversion of a step of one session.** -/
theorem withSession_cases {f : ConsumerSession → Option Turn}
    (h : s.withSession sid f = some s') :
    ∃ σ turn, s.sessions[sid]? = some σ ∧ f σ = some turn ∧ s' = s.apply sid turn := by
  unfold withSession at h
  cases hσ : s.sessions[sid]? with
  | none => simp [hσ] at h
  | some σ =>
      cases hturn : f σ with
      | none => simp [hσ, hturn] at h
      | some turn =>
          refine ⟨σ, turn, rfl, hturn, ?_⟩
          simpa [hσ, hturn] using h.symm

theorem onSession_cases {f : ConsumerSession → Option ConsumerSession}
    (h : s.onSession sid f = some s') :
    ∃ σ σ', s.sessions[sid]? = some σ ∧ f σ = some σ' ∧ s' = s.apply sid { session := σ' } := by
  obtain ⟨σ, turn, hσ, hturn, rfl⟩ := withSession_cases h
  obtain ⟨σ', hf, rfl⟩ := Option.map_eq_some_iff.mp hturn
  exact ⟨σ, σ', hσ, hf, rfl⟩

theorem issue_cases {fails : Bool} (h : s.issue sid fails = some s') :
    ∃ σ chunkId slot rest, s.sessions[sid]? = some σ ∧ σ.issue = .running chunkId ∧
      s.receiverSlots = slot :: rest ∧
      s' = { s with receiverSlots := rest }.apply sid (σ.issueChunk s.init chunkId slot fails) := by
  unfold issue at h
  cases hσ : s.sessions[sid]? with
  | none => simp [hσ] at h
  | some σ =>
      simp only [hσ, Option.bind_eq_bind, Option.bind_some] at h
      split at h
      · rename_i chunkId slot rest hissue hslots
        exact ⟨σ, chunkId, slot, rest, rfl, hissue, hslots, (Option.some.inj h).symm⟩
      · cases h

/-- What a step can do to one session. -/
inductive Moves (s : Consumer) (sid : Nat) (σ : ConsumerSession) : Action → Turn → Prop
  | start {nonce : Nonce} {identity : Identity} (hunused : s.unused nonce identity = true)
      (hpos : σ.pos = .created) (hcancel : σ.cancelRequested = false) :
      Moves s sid σ (.start sid nonce identity) (σ.start s.init nonce identity)
  | resume {turn : Turn} (hcancel : σ.cancelRequested = false)
      (hturn : σ.Resumes (s.nextJobId + 1) turn) : Moves s sid σ (.resume sid) turn
  | cancel {turn : Turn} (hcancel : σ.cancelRequested = true)
      (hturn : σ.Cancels (s.nextJobId + 1) turn) : Moves s sid σ (.resume sid) turn
  | startRecv {σ' : ConsumerSession} (hσ' : σ.startRecv = some σ') :
      Moves s sid σ (.startRecv sid) { session := σ' }
  | callbacks {task : Awaited} {σ' : ConsumerSession} (hσ' : σ.callbacks task = some σ') :
      Moves s sid σ (.callbacks sid task) { session := σ' }
  | startDecode {i : Nat} {turn : Turn} (hturn : σ.startDecode i (s.nextJobId + 1) = some turn) :
      Moves s sid σ (.startDecode sid i) turn
  | finishDecode {i : Nat} {turn : Turn} (hturn : σ.finishDecode i s.futures = some turn) :
      Moves s sid σ (.finishDecode sid i) turn
  | decodeTimeout {i : Nat} {σ' : ConsumerSession} (hσ' : σ.decodeTimeout i s.futures = some σ') :
      Moves s sid σ (.decodeTimeout sid i) { session := σ' }
  | drainTimeout {job : Nat} {out : Outcome} (hpos : σ.pos = .finDrain job out)
      (hcancel : σ.cancelRequested = false) :
      Moves s sid σ (.drainTimeout sid) (σ.finish out)
  | deliver (response : CompressionResponse) :
      Moves s sid σ (.deliver sid response) { session := σ.arrive response }
  | expireRecv {waiter : Waiter} {σ' : ConsumerSession} (hσ' : σ.expireRecv waiter = some σ') :
      Moves s sid σ (.expireRecv sid waiter) { session := σ' }

/-- The sessions `_recv_request` starts for a request. -/
def startSessions (s : Consumer) (rid : Nat) (request : ConsumerRequest) (count : Nat) : Consumer :=
  { s with
    sessions := s.sessions ++ List.replicate count { request, rid }
    requests := s.requests.modify rid fun r =>
      { r with pos := .gathering ((List.range count).map (s.sessions.length + ·)) } }

/-- What a step of the consumer can do. -/
inductive Steps (s : Consumer) : Action → Consumer → Prop
  | consumerMetadata (requests : List ConsumerRequest) :
      Steps s (.consumerMetadata requests)
        { s with requests := s.requests ++ requests.map fun request => { request } }
  | unreachable {rid : Nat} {agents : Option Agents} {task : RecvRequest}
      (htask : s.requests[rid]? = some task) (hpos : task.pos = .created) :
      Steps s (.ensureRemoteAgent rid agents)
        (s.endRequest rid task.request (allBlocks task.request.localBlockIds))
  | starts {rid : Nat} {agents : Agents} {task : RecvRequest} {addrs : List String}
      (htask : s.requests[rid]? = some task) (hpos : task.pos = .created)
      (haddrs : handshakeWorkerAddrs s.init agents = .ok addrs) (hne : addrs ≠ []) :
      Steps s (.ensureRemoteAgent rid (some agents))
        (s.startSessions rid task.request addrs.length)
  | requestCancelled {rid : Nat} {task : RecvRequest} (htask : s.requests[rid]? = some task)
      (hpos : task.pos ≠ .done)
      (hcancel : task.cancelRequested = true ∨ ∃ sids, task.pos = .gathering sids ∧
        ∃ sid ∈ sids, s.outcome sid = some .cancelled) :
      Steps s (.gathered rid) (s.endRequest rid task.request ∅)
  | gathered {rid : Nat} {task : RecvRequest} {sids : List Nat}
      (htask : s.requests[rid]? = some task) (hpos : task.pos = .gathering sids)
      (hended : ∀ sid ∈ sids, (s.outcome sid).isSome) :
      Steps s (.gathered rid) (s.endRequest rid task.request (s.failedBlocks sids))
  | session {sid : Nat} {σ : ConsumerSession} {a : Action} {turn : Turn}
      (hσ : s.sessions[sid]? = some σ) (hmove : s.Moves sid σ a turn) :
      Steps s a (s.apply sid turn)
  | issue {sid chunkId slot : Nat} {σ : ConsumerSession} {rest : List Nat} {fails : Bool}
      (hσ : s.sessions[sid]? = some σ) (hissue : σ.issue = .running chunkId)
      (hslots : s.receiverSlots = slot :: rest) :
      Steps s (.issue sid fails)
        ({ s with receiverSlots := rest }.apply sid (σ.issueChunk s.init chunkId slot fails))
  | jobDone {job : Nat} {result : JobDone} (hjob : (s.engineJobs job).isSome = true) :
      Steps s (.jobDone job result)
        { s with
          engineJobs := Function.update s.engineJobs job none
          futures := Function.update s.futures job (some result) }
  | shutdown : Steps s .shutdown s.shutdown

theorem ensureRemoteAgent_cases {rid : Nat} {agents : Option Agents}
    (h : s.ensureRemoteAgent rid agents = some s') :
    s.Steps (.ensureRemoteAgent rid agents) s' := by
  unfold ensureRemoteAgent at h
  cases htask : s.requests[rid]? with
  | none => simp [htask] at h
  | some task =>
      simp only [htask, Option.bind_eq_bind, Option.bind_some] at h
      split at h
      · cases h
      · rename_i hlive
        have hpos : task.pos = .created := by
          by_contra hpos
          exact hlive (Or.inl hpos)
        split at h
        · rename_i addr addrs haddrs
          obtain ⟨known, rfl, hknown⟩ := Option.map_eq_some_iff.mp haddrs
          obtain rfl := Option.some.inj h
          have hsteps := Steps.starts htask hpos hknown (List.cons_ne_nil _ _)
          rw [startSessions, ← List.map_const'] at hsteps
          simpa using hsteps
        · obtain rfl := Option.some.inj h
          exact .unreachable htask hpos

theorem gathered_cases {rid : Nat} (h : s.gathered rid = some s') : s.Steps (.gathered rid) s' := by
  unfold gathered at h
  cases htask : s.requests[rid]? with
  | none => simp [htask] at h
  | some task =>
      simp only [htask, Option.bind_eq_bind, Option.bind_some] at h
      split at h
      · rename_i hpos
        split at h
        · rename_i hcancel
          obtain rfl := Option.some.inj h
          exact .requestCancelled htask (by simp [hpos]) (Or.inl hcancel)
        · cases h
      · rename_i sids hpos
        split at h
        · rename_i hcancel
          obtain rfl := Option.some.inj h
          refine .requestCancelled htask (by simp [hpos]) ?_
          rcases hcancel with hany | ⟨hcancel, -⟩
          · obtain ⟨sid, hmem, hout⟩ := List.any_eq_true.mp hany
            exact Or.inr ⟨sids, hpos, sid, hmem, by simpa using hout⟩
          · exact Or.inl hcancel
        · split at h
          · rename_i hall
            obtain rfl := Option.some.inj h
            exact .gathered htask hpos fun sid hmem => List.all_eq_true.mp hall sid hmem
          · cases h
      · cases h

/-- A step that runs one task of a session is a move of that session. -/
theorem withSession_steps {f : ConsumerSession → Option Turn} {a : Action}
    (h : s.withSession sid f = some s')
    (hf : ∀ {σ turn}, f σ = some turn → s.Moves sid σ a turn) : s.Steps a s' := by
  obtain ⟨σ, turn, hσ, hturn, rfl⟩ := withSession_cases h
  exact .session hσ (hf hturn)

theorem onSession_steps {f : ConsumerSession → Option ConsumerSession} {a : Action}
    (h : s.onSession sid f = some s')
    (hf : ∀ {σ σ'}, f σ = some σ' → s.Moves sid σ a { session := σ' }) : s.Steps a s' := by
  obtain ⟨σ, σ', hσ, hσ', rfl⟩ := onSession_cases h
  exact .session hσ (hf hσ')

/-- **Inversion of `step`.** -/
theorem step_cases {a : Action} (h : s.step a = some s') : s.Steps a s' := by
  cases a with
  | consumerMetadata requests =>
      obtain rfl := Option.some.inj h
      exact .consumerMetadata requests
  | ensureRemoteAgent rid agents => exact ensureRemoteAgent_cases h
  | gathered rid => exact gathered_cases h
  | start sid nonce identity =>
      simp only [Consumer.step] at h
      split at h
      · rename_i hunused
        refine withSession_steps h fun {σ turn} hturn => ?_
        unfold startSession at hturn
        split at hturn
        · rename_i hpos
          obtain rfl := Option.some.inj hturn
          exact .start hunused hpos.1 hpos.2
        · cases hturn
      · cases h
  | resume sid =>
      refine withSession_steps h fun {σ turn} hturn => ?_
      unfold resumeSession at hturn
      split at hturn
      · rename_i hcancel
        exact .cancel hcancel (ConsumerSession.resumeCancelled_cases hturn)
      · rename_i hcancel
        exact .resume (by simpa using hcancel) (ConsumerSession.resume_cases hturn)
  | issue sid fails =>
      obtain ⟨σ, chunkId, slot, rest, hσ, hissue, hslots, rfl⟩ := issue_cases h
      exact .issue hσ hissue hslots
  | startRecv sid => exact onSession_steps h .startRecv
  | callbacks sid task => exact onSession_steps h .callbacks
  | startDecode sid i => exact withSession_steps h .startDecode
  | finishDecode sid i => exact withSession_steps h .finishDecode
  | decodeTimeout sid i => exact onSession_steps h .decodeTimeout
  | drainTimeout sid =>
      refine withSession_steps h fun {σ turn} hturn => ?_
      unfold drainTimeout at hturn
      split at hturn
      · rename_i hpos
        split at hturn
        · rename_i hlive
          obtain rfl := Option.some.inj hturn
          exact .drainTimeout hpos hlive.2
        · cases hturn
      · cases hturn
  | deliver sid response =>
      refine onSession_steps h fun {σ σ'} hσ' => ?_
      obtain rfl := Option.some.inj hσ'
      exact .deliver response
  | expireRecv sid waiter => exact onSession_steps h .expireRecv
  | jobDone job result =>
      simp only [Consumer.step] at h
      split at h
      · rename_i hjob
        obtain rfl := Option.some.inj h
        exact .jobDone hjob
      · cases h
  | shutdown =>
      simp only [Consumer.step] at h
      split at h
      · cases h
      · obtain rfl := Option.some.inj h
        exact .shutdown

end Consumer

end KVServe.Session
