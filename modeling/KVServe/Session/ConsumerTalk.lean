import KVServe.Session.ConsumerTasks

/-!
# KVServe.Session.ConsumerTalk

What a consumer session has been told and what it says. `Talk R σ` is relative
to the set `R` of messages the peer has sent on the socket of the session: every
message the session still holds is one of them, its number of chunks comes from
one of them, every chunk it decodes was reported ready by one of them, and a
session that counts itself acknowledged holds the acknowledgement. It also says
that `issue_all` goes through the chunks in order, so that no chunk is granted a
slot twice.

`Script` is about the other direction: an open first, then pulls for the granted
chunks and aborts of the session's own key.
-/

namespace KVServe.Session

namespace ConsumerSession

variable {R : CompressionResponse → Prop} {σ σ' : ConsumerSession} {out : Outcome}
  {nextJob : Nat} {turn : Turn} {futures : Nat → Option JobDone} {init : InitMessage}

/-- The operation key of the session. -/
def operationKey (σ : ConsumerSession) : OperationKey :=
  (σ.request.transferId, σ.request.dReqId, σ.nonce)

/-- The chunks that were reported ready, in the order of their decode tasks. -/
def accepted (σ : ConsumerSession) : List Nat := σ.decodes.map (·.job.chunkId)

/-- The part of `Talk` that does not depend on where the session stands. -/
structure TalkCore (R : CompressionResponse → Prop) (σ : ConsumerSession) : Prop where
  inbox : ∀ m ∈ σ.inbox, R m
  recvTask : ∀ m, σ.recvTask = .finished (some m) → R m
  total : σ.totalChunks ≠ 0 →
    ∃ opened, R (.sessionOpened opened) ∧ opened.totalChunks = σ.totalChunks
  issue : ∀ k, σ.issue = .running k → k < σ.totalChunks ∧ ∀ grant ∈ σ.grants, grant.1 < k
  grants : ∀ grant ∈ σ.grants, grant.1 < σ.totalChunks
  distinct : (σ.grants.map (·.1)).Nodup
  accepted : ∀ c ∈ σ.accepted, ∃ ready, R (.chunkReady ready) ∧ ready.chunkId = c
  acked : σ.acked = true → ∃ ack, R (.abortAck ack) ∧ isError ack.error = false ∧
    (ack.transferId, ack.dReqId, ack.nonce) = σ.operationKey

/-- What a session has been told. -/
structure Talk (R : CompressionResponse → Prop) (σ : ConsumerSession) : Prop extends
    TalkCore R σ where
  opening : ∀ m, σ.pos = .opening (some (some m)) → R m
  aborting : ∀ m, σ.pos = .aborting (some (some m)) → R m
  /-- Nothing is issued before the open is answered. -/
  early : σ.pos = .created ∨ (∃ got, σ.pos = .opening got) → σ.issue = .absent ∧ σ.grants = []
  /-- A session that has not started is brand new. -/
  created : σ.pos = .created →
    σ = { request := σ.request, rid := σ.rid, cancelRequested := σ.cancelRequested }

theorem TalkCore.of_eq (h : TalkCore R σ) (hinbox : σ'.inbox ⊆ σ.inbox)
    (hrecv : ∀ m, σ'.recvTask = .finished (some m) → R m)
    (htotal : σ'.totalChunks = σ.totalChunks)
    (hissue : ∀ k, σ'.issue = .running k → σ.issue = .running k)
    (hgrants : σ'.grants = σ.grants) (haccepted : σ'.accepted = σ.accepted)
    (hacked : σ'.acked = σ.acked) (hkey : σ'.operationKey = σ.operationKey) : TalkCore R σ' where
  inbox m hm := h.inbox m (hinbox hm)
  recvTask := hrecv
  total hne := by rw [htotal] at hne ⊢; exact h.total hne
  issue k hk := by rw [htotal, hgrants]; exact h.issue k (hissue k hk)
  grants := by rw [htotal, hgrants]; exact h.grants
  distinct := by rw [hgrants]; exact h.distinct
  accepted := by rw [haccepted]; exact h.accepted
  acked ha := by rw [hkey]; exact h.acked (hacked ▸ ha)

/-- The session moves to an `await` where it holds no message. -/
theorem TalkCore.talk (h : TalkCore R σ) (hopening : ∀ got, σ.pos ≠ .opening got)
    (haborting : ∀ m, σ.pos ≠ .aborting (some (some m))) (hcreated : σ.pos ≠ .created) :
    Talk R σ where
  toTalkCore := h
  opening m hpos := absurd hpos (hopening _)
  aborting m hpos := absurd hpos (haborting m)
  early hpos := by
    rcases hpos with hpos | ⟨got, hpos⟩
    · exact absurd hpos hcreated
    · exact absurd hpos (hopening got)
  created hpos := absurd hpos hcreated

theorem Talk.mono {R' : CompressionResponse → Prop} (h : Talk R σ) (hR : ∀ m, R m → R' m) :
    Talk R' σ where
  inbox m hm := hR m (h.inbox m hm)
  recvTask m hm := hR m (h.recvTask m hm)
  total hne := by
    obtain ⟨opened, hopened, heq⟩ := h.total hne
    exact ⟨opened, hR _ hopened, heq⟩
  issue := h.issue
  grants := h.grants
  distinct := h.distinct
  accepted c hc := by
    obtain ⟨ready, hready, heq⟩ := h.accepted c hc
    exact ⟨ready, hR _ hready, heq⟩
  acked ha := by
    obtain ⟨ack, hack, hrest⟩ := h.acked ha
    exact ⟨ack, hR _ hack, hrest⟩
  opening m hm := hR m (h.opening m hm)
  aborting m hm := hR m (h.aborting m hm)
  early := h.early
  created := h.created

/-- A session nobody has told anything. -/
theorem talk_new (request : ConsumerRequest) (rid : Nat) :
    Talk R { request, rid : ConsumerSession } where
  inbox m hm := by cases hm
  recvTask m hm := by cases hm
  total hne := absurd rfl hne
  issue k hk := by cases hk
  grants _ hg := by cases hg
  distinct := List.nodup_nil
  accepted c hc := by cases hc
  acked ha := by cases ha
  opening m hm := by cases hm
  aborting m hm := by cases hm
  early _ := ⟨rfl, rfl⟩
  created _ := rfl

/-! ### The `finally` block -/

theorem Tidied.not_body (h : Tidied σ out turn) :
    (∀ got, turn.session.pos ≠ .opening got) ∧ (∀ m, turn.session.pos ≠ .aborting (some (some m))) ∧
      turn.session.pos ≠ .created := by
  have hpos := h.pos
  refine ⟨fun got heq => ?_, fun m heq => ?_, fun heq => ?_⟩ <;> rw [heq] at hpos <;> cases hpos

theorem Tidied.talk (h : Tidied σ out turn) (hcore : TalkCore R σ) : Talk R turn.session := by
  have hsame := h.same
  obtain ⟨h₁, h₂, h₃⟩ := h.not_body
  refine (hcore.of_eq ?_ (fun m hm => ?_) ?_ (fun k hk => ?_) ?_ ?_ ?_ ?_).talk h₁ h₂ h₃
  · rw [hsame]; exact List.Subset.refl _
  · rcases h.recv with heq | heq | heq
    · exact hcore.recvTask m (heq ▸ hm)
    · rw [heq] at hm; cases hm
    · rw [heq] at hm; cases hm
  · rw [hsame]
  · rcases h.issue with heq | ⟨-, heq⟩
    · exact heq ▸ hk
    · rw [heq] at hk; cases hk
  · rw [hsame]
  · rw [hsame]; rfl
  · rw [hsame]
  · rw [hsame]; rfl

/-! ### The body -/

/-- `await sock.recv()` by the session: the message it may get comes from the inbox. -/
theorem callRecv_talk (h : TalkCore R σ) (pos : Option (Option CompressionResponse) → SessionAt) :
    TalkCore R (σ.callRecv pos) ∧ ((σ.callRecv pos).pos = pos none ∨
      ∃ m, R m ∧ (σ.callRecv pos).pos = pos (some (some m))) := by
  unfold callRecv
  split
  · rename_i response rest _ hinbox
    refine ⟨h.of_eq ?_ h.recvTask rfl (fun _ => id) rfl rfl rfl rfl, Or.inr ⟨response, ?_, rfl⟩⟩
    · rw [hinbox]; exact List.subset_cons_self _ _
    · exact h.inbox _ (by rw [hinbox]; exact List.mem_cons_self)
  · exact ⟨h.of_eq (List.Subset.refl _) h.recvTask rfl (fun _ => id) rfl rfl rfl rfl, Or.inl rfl⟩

theorem sendAbort_talk (h : TalkCore R σ) (reason : String) :
    Talk R (σ.sendAbort reason).session := by
  obtain ⟨hcore, hpos⟩ := callRecv_talk h .aborting
  refine ⟨hcore, fun m hm => ?_, fun m hm => ?_, fun hearly => ?_, fun hcreated => ?_⟩
  · rcases hpos with hpos | ⟨m', -, hpos⟩ <;> rw [sendAbort, hpos] at hm <;> cases hm
  · rcases hpos with hpos | ⟨m', hR, hpos⟩ <;> rw [sendAbort, hpos] at hm <;> cases hm
    exact hR
  · rcases hpos with hpos | ⟨m', -, hpos⟩ <;> rw [sendAbort, hpos] at hearly <;>
      rcases hearly with hearly | ⟨got, hearly⟩ <;> cases hearly
  · rcases hpos with hpos | ⟨m', -, hpos⟩ <;> rw [sendAbort, hpos] at hcreated <;> cases hcreated

theorem loopHead_talk (h : TalkCore R σ) : Talk R σ.loopHead := by
  unfold loopHead
  split
  · exact TalkCore.talk (h.of_eq (List.Subset.refl _) h.recvTask rfl (fun _ => id) rfl rfl rfl rfl)
      (fun _ hpos => by cases hpos) (fun _ hpos => by cases hpos) (fun hpos => by cases hpos)
  · refine TalkCore.talk (h.of_eq ?_ (fun m hm => ?_) ?_ (fun k hk => ?_) ?_ ?_ ?_ ?_)
      (fun _ hpos => by cases hpos) (fun _ hpos => by cases hpos) (fun hpos => by cases hpos)
    · rw [cancelRecv_eq]; exact List.Subset.refl _
    · rcases cancelRecv_recvTask (σ := σ) with heq | heq
      · exact h.recvTask m (heq ▸ hm)
      · cases heq.symm.trans hm
    · rw [cancelRecv_eq]
    · rw [cancelRecv_eq] at hk
      exact hk
    · rw [cancelRecv_eq]
    · rw [cancelRecv_eq]; rfl
    · rw [cancelRecv_eq]
    · rw [cancelRecv_eq]; rfl

theorem startTasks_core (h : Talk R σ) {response : CompressionSessionOpened}
    (hpos : σ.pos = .opening (some (some (.sessionOpened response))))
    (hchunks : response.totalChunks ≠ 0) : TalkCore R (σ.startTasks response) := by
  have hgrants : σ.grants = [] := (h.early (Or.inr ⟨_, hpos⟩)).2
  refine ⟨h.inbox, fun m hm => (by cases hm), fun _ => ⟨response, h.opening _ hpos, rfl⟩,
    fun k hk => ?_, fun grant hg => ?_, h.distinct, h.accepted, h.acked⟩
  · cases hk
    refine ⟨Nat.pos_of_ne_zero hchunks, fun grant hg => ?_⟩
    rw [startTasks, hgrants] at hg
    cases hg
  · rw [startTasks, hgrants] at hg
    cases hg

/-- A good reply: its chunk joins the accepted ones. -/
theorem TalkCore.acceptChunk (h : TalkCore R σ) {ready : CompressionChunkReady} {slot : Nat}
    (hready : R (.chunkReady ready)) : TalkCore R (σ.acceptChunk ready slot) := by
  refine ⟨h.inbox, h.recvTask, h.total, h.issue, h.grants, h.distinct, fun c hc => ?_, h.acked⟩
  simp only [ConsumerSession.accepted, ConsumerSession.acceptChunk, List.map_append, List.map_cons,
    List.map_nil, List.mem_append, List.mem_singleton] at hc
  rcases hc with hc | rfl
  · exact h.accepted c hc
  · exact ⟨ready, hready, rfl⟩

theorem TalkCore.takeReply (h : TalkCore R σ) {reason : Option String}
    (hreply : σ.takeReply = (σ', reason)) : TalkCore R σ' := by
  obtain rfl : σ.takeReply.1 = σ' := congrArg Prod.fst hreply
  have hframe : TalkCore R { σ with recvTask := .created } :=
    h.of_eq (List.Subset.refl _) (fun m hm => by cases hm) rfl (fun _ => id) rfl rfl rfl rfl
  unfold ConsumerSession.takeReply
  split
  · exact h
  · rename_i response hrecv
    dsimp only
    split
    · split
      · exact hframe
      · split
        · exact hframe.acceptChunk (h.recvTask _ hrecv)
        · exact hframe
    · exact hframe
  · exact h

theorem TalkCore.takeIssue (h : TalkCore R σ) {reason : Option String}
    (hissue : σ.takeIssue = (σ', reason)) : TalkCore R σ' := by
  obtain rfl : σ.takeIssue.1 = σ' := congrArg Prod.fst hissue
  unfold ConsumerSession.takeIssue
  split
  · exact h.of_eq (List.Subset.refl _) h.recvTask rfl (fun k hk => by cases hk) rfl rfl rfl rfl
  · exact h
  · exact h

theorem map_job_modify {i : Nat} {f : DecodeTask → DecodeTask} (hjob : ∀ task, (f task).job = task.job)
    (l : List DecodeTask) : (l.modify i f).map (·.job.chunkId) = l.map (·.job.chunkId) := by
  refine List.ext_getElem? fun j => ?_
  rw [List.getElem?_map, List.getElem?_map]
  by_cases hij : i = j
  · subst hij
    cases hi : l[i]? with
    | none => simp [hi]
    | some task => rw [getElem?_modify_self hi, Option.map_some, Option.map_some, hjob]
  · rw [getElem?_modify_ne hij]

theorem TalkCore.modifyDecode (h : TalkCore R σ) {i : Nat} {f : DecodeTask → DecodeTask}
    (hjob : ∀ task, (f task).job = task.job) : TalkCore R (σ.modifyDecode i f) :=
  h.of_eq (List.Subset.refl _) h.recvTask rfl (fun _ => id) rfl (map_job_modify hjob _) rfl rfl

theorem TalkCore.untrack (h : TalkCore R σ) (i : Nat) : TalkCore R (σ.untrack i) :=
  h.modifyDecode fun _ => rfl

theorem TalkCore.takeDecodes (h : TalkCore R σ) {waited : List Nat} {reason : Option String}
    (hdecodes : σ.takeDecodes waited = (σ', reason)) : TalkCore R σ' := by
  induction waited generalizing σ with
  | nil =>
      obtain ⟨rfl, rfl⟩ := Prod.mk.inj hdecodes
      exact h
  | cons i rest ih =>
      rw [ConsumerSession.takeDecodes] at hdecodes
      split at hdecodes
      · obtain ⟨rfl, rfl⟩ := Prod.mk.inj hdecodes
        exact h.untrack i
      · exact ih (h.untrack i) hdecodes
      · exact ih h hdecodes

theorem TalkCore.cancelDecodes (h : TalkCore R σ) (tasks : List Nat) :
    TalkCore R (σ.cancelDecodes tasks) := by
  unfold ConsumerSession.cancelDecodes
  induction tasks generalizing σ with
  | nil => exact h
  | cons i rest ih => exact ih (h.modifyDecode cancel_job)

/-- **A run of the session keeps what it has been told.** -/
theorem Talk.resumes (h : Talk R σ) (hturn : Resumes σ nextJob turn) : Talk R turn.session := by
  have hcore := h.toTalkCore
  have hrecv : TalkCore R { σ with recvTask := .absent } :=
    hcore.of_eq (List.Subset.refl _) (fun m hm => by cases hm) rfl (fun _ => id) rfl rfl rfl rfl
  cases hturn with
  | openFails reason => exact sendAbort_talk hcore reason
  | openEmpty => exact enterFinally_tidied.talk hcore
  | openStarts hpos hchunks => exact loopHead_talk (startTasks_core h hpos hchunks)
  | replyFails reason _ hreply => exact sendAbort_talk (hcore.takeReply hreply) reason
  | issueFails reason _ hreply hissue =>
      exact sendAbort_talk ((hcore.takeReply hreply).takeIssue hissue) reason
  | decodeFails reason _ hreply hissue hdecodes =>
      exact sendAbort_talk (((hcore.takeReply hreply).takeIssue hissue).takeDecodes hdecodes) reason
  | loops _ hreply hissue hdecodes =>
      exact loopHead_talk (((hcore.takeReply hreply).takeIssue hissue).takeDecodes hdecodes)
  | stops => exact enterFinally_tidied.talk hrecv
  | gathers =>
      exact TalkCore.talk (hrecv.of_eq (List.Subset.refl _) hrecv.recvTask rfl (fun _ => id) rfl rfl
        rfl rfl) (fun _ hpos => by cases hpos) (fun _ hpos => by cases hpos) (fun hpos => by cases hpos)
  | gatherFails reason => exact sendAbort_talk hcore reason
  | gatherDone => exact enterFinally_tidied.talk hcore
  | @aborted message hpos =>
      refine enterFinally_tidied.talk (σ := { σ with acked := σ.isAck message })
        ⟨h.inbox, h.recvTask, h.total, h.issue, h.grants, h.distinct, h.accepted, fun hack => ?_⟩
      -- Only an acknowledgement for this session counts.
      unfold isAck at hack
      split at hack
      · rename_i ack
        simp only [Bool.decide_and, Bool.and_eq_true, decide_eq_true_eq] at hack
        exact ⟨ack, h.aborting _ hpos, hack.2.2.2,
          Prod.ext hack.2.1 (Prod.ext hack.2.2.1 hack.1)⟩
      · cases hack
  | finIssue => exact afterIssue_tidied.talk hcore
  | finRecv => exact afterRecv_tidied.talk hcore
  | finDecode => exact afterDecode_tidied.talk hcore
  | finDrain => exact finish_tidied.talk hcore

theorem Talk.cancels (h : Talk R σ) (hturn : Cancels σ nextJob turn) : Talk R turn.session := by
  have hcore : TalkCore R σ.uncancelled :=
    h.toTalkCore.of_eq (List.Subset.refl _) h.recvTask rfl (fun _ => id) rfl rfl rfl rfl
  have hended {τ : ConsumerSession} (hτ : TalkCore R τ) :
      Talk R { τ with pos := .ended .cancelled } :=
    TalkCore.talk (hτ.of_eq (List.Subset.refl _) hτ.recvTask rfl (fun _ => id) rfl rfl rfl rfl)
      (fun _ hpos => by cases hpos) (fun _ hpos => by cases hpos) (fun hpos => by cases hpos)
  cases hturn with
  | unstarted => exact hended hcore
  | body => exact enterFinally_tidied.talk hcore
  | @gather tasks => exact enterFinally_tidied.talk (hcore.cancelDecodes tasks)
  | skips => exact hended hcore
  | @skipsGather tasks => exact hended (hcore.cancelDecodes tasks)

/-! ### The other steps -/

/-- The position and the messages held stay as they are. -/
theorem Talk.of_eq (h : Talk R σ) (hcore : TalkCore R σ') (hpos : σ'.pos = σ.pos)
    (hissue : σ'.issue = σ.issue) (hgrants : σ'.grants = σ.grants) (hlive : σ.pos ≠ .created) :
    Talk R σ' where
  toTalkCore := hcore
  opening := by rw [hpos]; exact h.opening
  aborting := by rw [hpos]; exact h.aborting
  early := by rw [hpos, hissue, hgrants]; exact h.early
  created hcreated := absurd (hpos ▸ hcreated) hlive

theorem Talk.start (h : Talk R σ) {R' : CompressionResponse → Prop} {nonce : Nonce}
    {identity : Identity} (hpos : σ.pos = .created) :
    Talk R' (σ.start init nonce identity).session := by
  rw [h.created hpos]
  unfold ConsumerSession.start callRecv
  dsimp only
  refine ⟨⟨fun m hm => (by cases hm), fun m hm => (by cases hm), fun hne => absurd rfl hne,
    fun k hk => (by cases hk), fun _ hg => (by cases hg), List.nodup_nil, fun c hc => (by cases hc),
    fun ha => by cases ha⟩, fun m hm => (by cases hm), fun m hm => (by cases hm), fun _ => ⟨rfl, rfl⟩,
    fun hm => by cases hm⟩

theorem Talk.answer (h : Talk R σ) (hlive : σ.pos ≠ .created) (waiter : Waiter)
    {message : Option CompressionResponse} (hmessage : ∀ m, message = some m → R m) :
    Talk R (σ.answer waiter message) := by
  unfold ConsumerSession.answer
  split
  · refine h.of_eq (h.toTalkCore.of_eq (List.Subset.refl _) (fun m hm => ?_) rfl (fun _ => id) rfl
      rfl rfl rfl) rfl rfl rfl hlive
    cases hm
    exact hmessage m rfl
  · have hcore (pos : SessionAt) : TalkCore R { σ with pos } :=
      h.toTalkCore.of_eq (List.Subset.refl _) h.recvTask rfl (fun _ => id) rfl rfl rfl rfl
    split
    · rename_i hpos
      refine ⟨hcore _, fun m hm => ?_, fun m hm => (by cases hm), fun _ => ?_, fun hm => by cases hm⟩
      · cases hm
        exact hmessage m rfl
      · exact h.early (Or.inr ⟨_, hpos⟩)
    · refine ⟨hcore _, fun m hm => (by cases hm), fun m hm => ?_, fun hearly => ?_,
        fun hm => by cases hm⟩
      · cases hm
        exact hmessage m rfl
      · rcases hearly with hearly | ⟨got, hearly⟩ <;> cases hearly
    · exact h

theorem Talk.arrive (h : Talk R σ) (hlive : σ.pos ≠ .created) {response : CompressionResponse}
    (hresponse : R response) : Talk R (σ.arrive response) := by
  unfold ConsumerSession.arrive
  split
  · exact h
  · split
    · rename_i waiter rest _
      have hpop : Talk R { σ with waiters := rest } :=
        h.of_eq (h.toTalkCore.of_eq (List.Subset.refl _) h.recvTask rfl (fun _ => id) rfl rfl rfl
          rfl) rfl rfl rfl hlive
      refine hpop.answer hlive waiter fun m hm => ?_
      obtain rfl := Option.some.inj hm
      exact hresponse
    · refine h.of_eq ⟨fun m hm => ?_, h.recvTask, h.total, h.issue, h.grants, h.distinct, h.accepted,
        h.acked⟩ rfl rfl rfl hlive
      rcases List.mem_append.mp hm with hm | hm
      · exact h.inbox m hm
      · rw [List.mem_singleton.mp hm]
        exact hresponse

theorem Talk.expireRecv (h : Talk R σ) {waiter : Waiter} (hσ' : σ.expireRecv waiter = some σ') :
    Talk R σ' := by
  unfold ConsumerSession.expireRecv at hσ'
  split at hσ'
  · rename_i hwaits
    obtain rfl := Option.some.inj hσ'
    have hlive : σ.pos ≠ .created := by
      intro hpos
      rw [h.created hpos] at hwaits
      cases hwaits
    have hpop : Talk R { σ with waiters := σ.waiters.erase waiter } :=
      h.of_eq (h.toTalkCore.of_eq (List.Subset.refl _) h.recvTask rfl (fun _ => id) rfl rfl rfl rfl)
        rfl rfl rfl hlive
    exact hpop.answer hlive _ fun m hm => by cases hm
  · cases hσ'

theorem Talk.startRecv (h : Talk R σ) (hσ' : σ.startRecv = some σ') : Talk R σ' := by
  have hlive (hrecv : σ.recvTask = .created) : σ.pos ≠ .created := by
    intro hpos
    rw [h.created hpos] at hrecv
    cases hrecv
  unfold ConsumerSession.startRecv at hσ'
  split at hσ'
  · rename_i response rest hrecv _ hinbox
    obtain rfl := Option.some.inj hσ'
    refine h.of_eq (h.toTalkCore.of_eq ?_ (fun m hm => ?_) rfl (fun _ => id) rfl rfl rfl rfl)
      rfl rfl rfl (hlive hrecv)
    · rw [hinbox]; exact List.subset_cons_self _ _
    · cases hm
      exact h.inbox _ (by rw [hinbox]; exact List.mem_cons_self)
  · rename_i hrecv _
    obtain rfl := Option.some.inj hσ'
    exact h.of_eq (h.toTalkCore.of_eq (List.Subset.refl _) (fun m hm => by cases hm) rfl
      (fun _ => id) rfl rfl rfl rfl) rfl rfl rfl (hlive hrecv)
  · cases hσ'

theorem Talk.callbacks (h : Talk R σ) {task : Awaited} (hσ' : σ.callbacks task = some σ') :
    Talk R σ' := by
  obtain ⟨⟨σ₁, hσ₁, heq⟩, hpos⟩ := callbacks_eq hσ'
  have hcore₁ : TalkCore R σ₁ ∧ σ₁.issue = σ.issue ∧ σ₁.grants = σ.grants := by
    rcases hσ₁ with rfl | ⟨i, -, rfl⟩
    · exact ⟨h.toTalkCore, rfl, rfl⟩
    · exact ⟨h.toTalkCore.modifyDecode fun _ => rfl, rfl, rfl⟩
  obtain ⟨hcore, hissue, hgrants⟩ := hcore₁
  have hcore' : TalkCore R σ' := by
    rw [heq]
    exact hcore.of_eq (List.Subset.refl _) hcore.recvTask rfl (fun _ => id) rfl rfl rfl rfl
  have hdone : σ.isDone task = true := by
    unfold ConsumerSession.callbacks at hσ'
    split at hσ'
    · rename_i hdone; exact hdone
    · cases hσ'
  rcases hpos with hpos | ⟨waited, woken, hold, hpos⟩
  · refine h.of_eq hcore' hpos (by rw [heq]; exact hissue) (by rw [heq]; exact hgrants) ?_
    intro hcreated
    rw [h.created hcreated] at hdone
    cases task <;> cases hdone
  · refine hcore'.talk ?_ ?_ ?_ <;> simp [hpos]

theorem Talk.modifyDecode (h : Talk R σ) {i : Nat} {f : DecodeTask → DecodeTask}
    (hjob : ∀ task, (f task).job = task.job) {task : DecodeTask} (hi : σ.decodes[i]? = some task) :
    Talk R (σ.modifyDecode i f) := by
  refine h.of_eq (h.toTalkCore.modifyDecode hjob) rfl rfl rfl fun hpos => ?_
  rw [h.created hpos] at hi
  cases hi

theorem Talk.startDecode (h : Talk R σ) {i : Nat} (hturn : σ.startDecode i nextJob = some turn) :
    Talk R turn.session := by
  unfold ConsumerSession.startDecode at hturn
  split at hturn
  · rename_i hi
    obtain rfl := Option.some.inj hturn
    exact h.modifyDecode (fun _ => rfl) hi
  · cases hturn

theorem Talk.finishDecode (h : Talk R σ) {i : Nat} (hturn : σ.finishDecode i futures = some turn) :
    Talk R turn.session := by
  unfold ConsumerSession.finishDecode at hturn
  split at hturn
  · rename_i hi
    obtain ⟨result, -, rfl⟩ := Option.map_eq_some_iff.mp hturn
    split
    · exact h.modifyDecode (fun _ => rfl) hi
    · have hend : Talk R (σ.endDecode i .returned) := h.modifyDecode (fun _ => rfl) hi
      refine hend.of_eq (hend.toTalkCore.of_eq (List.Subset.refl _) hend.recvTask rfl (fun _ => id)
        rfl rfl rfl rfl) rfl rfl rfl fun hpos => ?_
      rw [h.created hpos] at hi
      cases hi
  · cases hturn

theorem Talk.decodeTimeout (h : Talk R σ) {i : Nat}
    (hσ' : σ.decodeTimeout i futures = some σ') : Talk R σ' := by
  unfold ConsumerSession.decodeTimeout at hσ'
  split at hσ'
  · rename_i hi
    split at hσ'
    · obtain rfl := Option.some.inj hσ'
      exact h.modifyDecode (fun _ => rfl) hi
    · cases hσ'
  · cases hσ'

/-- One turn of `issue_all`: the next chunk is granted a slot. -/
theorem Talk.issueChunk (h : Talk R σ) {chunkId slot : Nat} {fails : Bool}
    (hissue : σ.issue = .running chunkId) : Talk R (σ.issueChunk init chunkId slot fails).session := by
  obtain ⟨hlt, hbelow⟩ := h.issue chunkId hissue
  have hlive : σ.pos ≠ .created ∧ ∀ got, σ.pos ≠ .opening got := by
    refine ⟨fun hpos => ?_, fun got hpos => ?_⟩
    · have := (h.early (Or.inl hpos)).1
      rw [hissue] at this
      cases this
    · have := (h.early (Or.inr ⟨got, hpos⟩)).1
      rw [hissue] at this
      cases this
  have hgrants : ∀ grant ∈ σ.grants ++ [(chunkId, slot)], grant.1 < chunkId + 1 := by
    intro grant hg
    rcases List.mem_append.mp hg with hg | hg
    · exact Nat.lt_succ_of_lt (hbelow grant hg)
    · rw [List.mem_singleton.mp hg]
      exact Nat.lt_succ_self _
  have hdistinct : ((σ.grants ++ [(chunkId, slot)]).map (·.1)).Nodup := by
    rw [List.map_append, List.nodup_append]
    refine ⟨h.distinct, List.nodup_singleton _, fun c hc d hd heq => ?_⟩
    obtain ⟨grant, hg, rfl⟩ := List.mem_map.mp hc
    have hd : d = chunkId := List.mem_singleton.mp hd
    have := hbelow grant hg
    omega
  have hcore (issue : IssueAt) (owned : List Nat) (inflight : List (Nat × Nat))
      (hnext : ∀ k, issue = .running k → k = chunkId + 1 ∧ k < σ.totalChunks) :
      TalkCore R { σ with issue, owned, inflight, grants := σ.grants ++ [(chunkId, slot)] } := by
    refine ⟨h.inbox, h.recvTask, h.total, fun k hk => ?_, fun grant hg => ?_, hdistinct, h.accepted,
      h.acked⟩
    · obtain ⟨rfl, hk⟩ := hnext k hk
      exact ⟨hk, hgrants⟩
    · exact lt_of_lt_of_le (hgrants grant hg) hlt
  have htalk {τ : ConsumerSession} (hτ : TalkCore R τ) (hpos : τ.pos = σ.pos) : Talk R τ := by
    refine ⟨hτ, by rw [hpos]; exact h.opening, by rw [hpos]; exact h.aborting, fun hearly => ?_,
      fun hcreated => absurd (hpos ▸ hcreated) hlive.1⟩
    rw [hpos] at hearly
    rcases hearly with hearly | ⟨got, hearly⟩
    · exact absurd hearly hlive.1
    · exact absurd hearly (hlive.2 got)
  unfold ConsumerSession.issueChunk
  dsimp only
  split
  · exact htalk (hcore _ _ _ fun k hk => by cases hk) rfl
  · refine htalk (hcore _ _ _ fun k hk => ?_) rfl
    split at hk
    · rename_i hmore
      cases hk
      exact ⟨rfl, hmore⟩
    · cases hk

/-! ### What a session says -/

/-- A run of the session grants no chunk and sends at most an abort of its own key. -/
def Says (σ : ConsumerSession) (turn : Turn) : Prop :=
  turn.session.grants = σ.grants ∧
    (turn.sends = [] ∨ ∃ request, turn.sends = [.abort request] ∧
      request.operationKey = σ.operationKey)

theorem Tidied.speaks (h : Tidied σ out turn) : Says σ turn :=
  ⟨by rw [h.same], Or.inl h.sends⟩

theorem sendAbort_speaks (reason : String) : Says σ (σ.sendAbort reason) := by
  refine ⟨?_, Or.inr ⟨_, rfl, rfl⟩⟩
  unfold sendAbort callRecv
  split <;> rfl

theorem loopHead_grants : σ.loopHead.grants = σ.grants := by
  unfold loopHead
  split
  · rfl
  · rw [cancelRecv_eq]

theorem takeReply_grants {reason : Option String} (h : σ.takeReply = (σ', reason)) :
    σ'.grants = σ.grants := by
  obtain rfl : σ.takeReply.1 = σ' := congrArg Prod.fst h
  unfold takeReply
  split
  · rfl
  · dsimp only
    split
    · split
      · rfl
      · split <;> rfl
    · rfl
  · rfl

theorem takeIssue_grants {reason : Option String} (h : σ.takeIssue = (σ', reason)) :
    σ'.grants = σ.grants := by
  obtain rfl : σ.takeIssue.1 = σ' := congrArg Prod.fst h
  unfold takeIssue
  split <;> rfl

theorem takeDecodes_grants {waited : List Nat} {reason : Option String}
    (h : σ.takeDecodes waited = (σ', reason)) : σ'.grants = σ.grants := by
  induction waited generalizing σ with
  | nil =>
      obtain ⟨rfl, rfl⟩ := Prod.mk.inj h
      rfl
  | cons i rest ih =>
      rw [takeDecodes] at h
      split at h
      · obtain ⟨rfl, rfl⟩ := Prod.mk.inj h
        rfl
      · exact (ih h).trans rfl
      · exact ih h

theorem Says.of_eq {τ : ConsumerSession} (h : Says τ turn) (hgrants : τ.grants = σ.grants)
    (hkey : τ.operationKey = σ.operationKey) : Says σ turn :=
  ⟨h.1.trans hgrants, h.2.imp_right fun ⟨request, hsends, heq⟩ => ⟨request, hsends, heq.trans hkey⟩⟩

theorem SameTasks.operationKey (h : SameTasks σ σ') : σ'.operationKey = σ.operationKey := by
  rw [ConsumerSession.operationKey, ConsumerSession.operationKey, h.request, h.nonce]

theorem Resumes.speaks (hturn : Resumes σ nextJob turn) : Says σ turn := by
  cases hturn with
  | openFails reason => exact sendAbort_speaks reason
  | openEmpty => exact enterFinally_tidied.speaks
  | openStarts => exact ⟨loopHead_grants, Or.inl rfl⟩
  | replyFails reason _ hreply =>
      exact (sendAbort_speaks reason).of_eq (takeReply_grants hreply)
        (takeReply_sameTasks hreply).operationKey
  | issueFails reason _ hreply hissue =>
      exact (sendAbort_speaks reason).of_eq ((takeIssue_grants hissue).trans (takeReply_grants hreply))
        ((takeReply_sameTasks hreply).trans (takeIssue_sameTasks hissue)).operationKey
  | decodeFails reason _ hreply hissue hdecodes =>
      exact (sendAbort_speaks reason).of_eq ((takeDecodes_grants hdecodes).trans
        ((takeIssue_grants hissue).trans (takeReply_grants hreply)))
        (((takeReply_sameTasks hreply).trans (takeIssue_sameTasks hissue)).trans
          (takeDecodes_sameTasks hdecodes)).operationKey
  | loops _ hreply hissue hdecodes =>
      exact ⟨loopHead_grants.trans ((takeDecodes_grants hdecodes).trans
        ((takeIssue_grants hissue).trans (takeReply_grants hreply))), Or.inl rfl⟩
  | stops => exact enterFinally_tidied.speaks.of_eq (τ := { σ with recvTask := .absent }) rfl rfl
  | gathers => exact ⟨rfl, Or.inl rfl⟩
  | gatherFails reason => exact sendAbort_speaks reason
  | gatherDone => exact enterFinally_tidied.speaks
  | @aborted message =>
      exact enterFinally_tidied.speaks.of_eq (τ := { σ with acked := σ.isAck message }) rfl rfl
  | finIssue => exact afterIssue_tidied.speaks
  | finRecv => exact afterRecv_tidied.speaks
  | finDecode => exact afterDecode_tidied.speaks
  | finDrain => exact finish_tidied.speaks

theorem Cancels.speaks (hturn : Cancels σ nextJob turn) : Says σ turn := by
  cases hturn with
  | unstarted => exact ⟨rfl, Or.inl rfl⟩
  | body => exact enterFinally_tidied.speaks.of_eq (τ := σ.uncancelled) rfl rfl
  | @gather tasks =>
      have heq := (cancelDecodes_eq (σ := σ.uncancelled) tasks).1
      exact enterFinally_tidied.speaks.of_eq (by rw [heq]; rfl) (by rw [heq]; rfl)
  | skips => exact ⟨rfl, Or.inl rfl⟩
  | @skipsGather tasks =>
      have heq := (cancelDecodes_eq (σ := σ.uncancelled) tasks).1
      refine ⟨?_, Or.inl rfl⟩
      rw [heq]
      rfl

theorem answer_grants (waiter : Waiter) (message : Option CompressionResponse) :
    (σ.answer waiter message).grants = σ.grants := by
  unfold answer
  split
  · rfl
  · split <;> rfl

theorem callbacks_grants {task : Awaited} (hσ' : σ.callbacks task = some σ') :
    σ'.grants = σ.grants := by
  obtain ⟨⟨σ₁, hσ₁, heq⟩, -⟩ := callbacks_eq hσ'
  rw [heq]
  rcases hσ₁ with rfl | ⟨i, -, rfl⟩ <;> rfl

/-- The pull a request is, if it is one. -/
def pull? : CompressionRequest → Option CompressionChunkPull
  | .chunkPull request => some request
  | _ => none

/-- What a session has sent: its open, then pulls for chunks it was granted a slot
for, in the order of the grants, and aborts. -/
def Script (init : InitMessage) (messages : List CompressionRequest) (σ : ConsumerSession) : Prop :=
  ∃ rest, messages = .sessionOpen (openRequest init σ.request σ.nonce) :: rest ∧
    (∀ m ∈ rest, (∃ request, m = .chunkPull request ∧ request.operationKey = σ.operationKey) ∨
      ∃ request, m = .abort request ∧ request.operationKey = σ.operationKey) ∧
    (rest.filterMap pull?).Sublist (σ.grants.map fun grant => σ.pull init grant.1 grant.2)

theorem pull_eq {chunkId slot : Nat} (hrequest : σ'.request = σ.request)
    (hnonce : σ'.nonce = σ.nonce) : σ'.pull init chunkId slot = σ.pull init chunkId slot := by
  rw [pull, pull, hrequest, hnonce]

variable {messages : List CompressionRequest}

theorem Script.of_eq (h : Script init messages σ) (hrequest : σ'.request = σ.request)
    (hnonce : σ'.nonce = σ.nonce) (hgrants : σ'.grants = σ.grants) : Script init messages σ' := by
  obtain ⟨rest, heq, hkeys, hpulls⟩ := h
  have hkey : σ'.operationKey = σ.operationKey := by
    rw [operationKey, operationKey, hrequest, hnonce]
  refine ⟨rest, by rw [hrequest, hnonce]; exact heq, by rw [hkey]; exact hkeys, ?_⟩
  simp only [hgrants, pull_eq hrequest hnonce]
  exact hpulls

theorem Script.speaks (h : Script init messages σ) (hrequest : turn.session.request = σ.request)
    (hnonce : turn.session.nonce = σ.nonce) (hspeaks : Says σ turn) :
    Script init (messages ++ turn.sends) turn.session := by
  refine Script.of_eq ?_ hrequest hnonce hspeaks.1
  rcases hspeaks.2 with hnone | ⟨request, habort, hkey⟩
  · rw [hnone, List.append_nil]
    exact h
  · obtain ⟨rest, rfl, hkeys, hpulls⟩ := h
    refine ⟨rest ++ [.abort request], by rw [habort]; rfl, fun m hm => ?_, ?_⟩
    · rcases List.mem_append.mp hm with hm | hm
      · exact hkeys m hm
      · exact Or.inr ⟨request, List.mem_singleton.mp hm, hkey⟩
    · have hnone : [CompressionRequest.abort request].filterMap pull? = [] := rfl
      rw [List.filterMap_append, hnone, List.append_nil]
      exact hpulls

/-- The pull of a newly granted chunk comes last. -/
theorem Script.issueChunk (h : Script init messages σ) {chunkId slot : Nat} {fails : Bool} :
    Script init (messages ++ (σ.issueChunk init chunkId slot fails).sends)
      (σ.issueChunk init chunkId slot fails).session := by
  obtain ⟨rest, rfl, hkeys, hpulls⟩ := h
  unfold ConsumerSession.issueChunk
  dsimp only
  split
  · refine ⟨rest, by rw [List.append_nil], hkeys, ?_⟩
    simp only [List.map_append]
    exact hpulls.trans (List.sublist_append_left _ _)
  · refine ⟨rest ++ [.chunkPull (σ.pull init chunkId slot)], rfl, fun m hm => ?_, ?_⟩
    · rcases List.mem_append.mp hm with hm | hm
      · exact hkeys m hm
      · exact Or.inl ⟨_, List.mem_singleton.mp hm, rfl⟩
    · rw [List.filterMap_append, List.map_append]
      exact hpulls.append (List.Sublist.refl _)

end ConsumerSession

namespace Consumer

variable {R : Identity → CompressionResponse → Prop} {s : Consumer} {sid : Nat}
  {σ : ConsumerSession} {turn : Turn} {a : Action}

/-- **A move of a session keeps what it has been told.** -/
theorem Moves.talk (h : s.Moves sid σ a turn) (htalk : σ.Talk (R σ.identity))
    (hdeliver : ∀ response, a = .deliver sid response →
      R σ.identity response ∧ σ.pos ≠ .created) :
    turn.session.Talk (R turn.session.identity) := by
  by_cases hstart : ∃ nonce identity, a = .start sid nonce identity
  · obtain ⟨nonce, identity, rfl⟩ := hstart
    cases h with
    | start hunused hpos => exact htalk.start hpos
  · have ha : ∀ nonce identity, a ≠ .start sid nonce identity :=
      fun nonce identity heq => hstart ⟨nonce, identity, heq⟩
    rw [(h.sameNames ha).2.1]
    cases h with
    | start => exact absurd rfl (ha _ _)
    | resume _ hturn => exact htalk.resumes hturn
    | cancel _ hturn => exact htalk.cancels hturn
    | startRecv hσ' => exact htalk.startRecv hσ'
    | callbacks hσ' => exact htalk.callbacks hσ'
    | startDecode hturn => exact htalk.startDecode hturn
    | finishDecode hturn => exact htalk.finishDecode hturn
    | decodeTimeout hσ' => exact htalk.decodeTimeout hσ'
    | drainTimeout hpos =>
        exact htalk.resumes (@ConsumerSession.Resumes.finDrain _ 0 _ _ hpos)
    | deliver response =>
        obtain ⟨hR, hlive⟩ := hdeliver response rfl
        exact htalk.arrive hlive hR
    | expireRecv hσ' => exact htalk.expireRecv hσ'

/-- A move that is not the start of the session says at most an abort. -/
theorem Moves.speaks (h : s.Moves sid σ a turn)
    (ha : ∀ nonce identity, a ≠ .start sid nonce identity) : σ.Says turn := by
  have hquiet {σ' : ConsumerSession} (hgrants : σ'.grants = σ.grants) :
      σ.Says { session := σ' } := ⟨hgrants, Or.inl rfl⟩
  cases h with
  | start => exact absurd rfl (ha _ _)
  | resume _ hturn => exact hturn.speaks
  | cancel _ hturn => exact hturn.speaks
  | startRecv hσ' =>
      refine hquiet ?_
      unfold ConsumerSession.startRecv at hσ'
      split at hσ'
      · obtain rfl := Option.some.inj hσ'; rfl
      · obtain rfl := Option.some.inj hσ'; rfl
      · cases hσ'
  | callbacks hσ' => exact hquiet (ConsumerSession.callbacks_grants hσ')
  | startDecode hturn =>
      unfold ConsumerSession.startDecode at hturn
      split at hturn
      · obtain rfl := Option.some.inj hturn
        exact ⟨rfl, Or.inl rfl⟩
      · cases hturn
  | finishDecode hturn =>
      unfold ConsumerSession.finishDecode at hturn
      split at hturn
      · obtain ⟨result, -, rfl⟩ := Option.map_eq_some_iff.mp hturn
        split <;> exact ⟨rfl, Or.inl rfl⟩
      · cases hturn
  | decodeTimeout hσ' =>
      refine hquiet ?_
      unfold ConsumerSession.decodeTimeout at hσ'
      split at hσ'
      · split at hσ'
        · obtain rfl := Option.some.inj hσ'; rfl
        · cases hσ'
      · cases hσ'
  | drainTimeout => exact ConsumerSession.finish_tidied.speaks
  | deliver response =>
      refine hquiet ?_
      unfold ConsumerSession.arrive
      split
      · rfl
      · split
        · exact ConsumerSession.answer_grants _ _
        · rfl
  | expireRecv hσ' =>
      refine hquiet ?_
      unfold ConsumerSession.expireRecv at hσ'
      split at hσ'
      · obtain rfl := Option.some.inj hσ'
        exact ConsumerSession.answer_grants _ _
      · cases hσ'

end Consumer

end KVServe.Session
