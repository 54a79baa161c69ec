import KVServe.Session.ConsumerRuns

/-!
# KVServe.Session.ConsumerTasks

How a session and its decode tasks evolve. `Follows` says what one step can do
to a session, whatever the step: a decode task keeps its job and only moves from
`created` over `waitJob` to `finished`, and a session that has ended stays as it
is. From it come the facts about whole runs that do not depend on the position
of the session: which session a `DecodeChunkJob` belongs to (`Named`), and how
the engine answered the job of a task that returned (`Linked`).
-/

namespace KVServe.Session

namespace ConsumerSession

variable {σ σ' σ'' : ConsumerSession} {out : Outcome} {nextJob : Nat} {turn : Turn}
  {futures : Nat → Option JobDone}

/-- One step of a decode task. -/
inductive Advances (futures : Nat → Option JobDone) (nextJob : Nat) : DecodeAt → DecodeAt → Prop
  | same {pos : DecodeAt} : Advances futures nextJob pos pos
  | submit : Advances futures nextJob .created (.waitJob nextJob)
  | returns {id : Nat} {result : JobDone} (hresult : futures id = some result)
      (hok : result.error = none) : Advances futures nextJob (.waitJob id) (.finished .returned)
  | raises {id : Nat} {message : String} :
      Advances futures nextJob (.waitJob id) (.finished (.raised message))
  | cancels {pos : DecodeAt} (hrun : pos.isDone = false) :
      Advances futures nextJob pos (.finished .cancelled)

theorem Advances.of_done {pos pos' : DecodeAt} (h : Advances futures nextJob pos pos')
    (hdone : pos.isDone = true) : pos' = pos := by
  cases h with
  | same => rfl
  | cancels hrun => rw [hrun] at hdone; cases hdone
  | _ => cases hdone

/-- What every step of a session keeps. -/
structure Follows (futures : Nat → Option JobDone) (nextJob : Nat) (σ σ' : ConsumerSession) :
    Prop where
  request : σ'.request = σ.request
  rid : σ'.rid = σ.rid
  task : ∀ {i : Nat} {task : DecodeTask}, σ.decodes[i]? = some task →
    ∃ task', σ'.decodes[i]? = some task' ∧ task'.job = task.job ∧
      Advances futures nextJob task.pos task'.pos
  /-- A new decode task is for this session. -/
  created : ∀ {i : Nat} {task' : DecodeTask}, σ'.decodes[i]? = some task' →
    (∃ task, σ.decodes[i]? = some task) ∨ (task'.job.nonce = σ.nonce ∧ σ.pos ≠ .created)
  ended : σ.pos.isEnded = true → σ'.pos = σ.pos ∧ σ'.totalChunks = σ.totalChunks ∧
    σ'.decodes.length = σ.decodes.length

/-- Only the position, the socket, the slots and `decode_tasks` have changed. -/
structure SameTasks (σ σ' : ConsumerSession) : Prop where
  request : σ'.request = σ.request
  rid : σ'.rid = σ.rid
  nonce : σ'.nonce = σ.nonce
  identity : σ'.identity = σ.identity
  task : ∀ {i : Nat} {task : DecodeTask}, σ.decodes[i]? = some task →
    ∃ task', σ'.decodes[i]? = some task' ∧ task'.job = task.job ∧ task'.pos = task.pos
  created : ∀ {i : Nat} {task' : DecodeTask}, σ'.decodes[i]? = some task' →
    (∃ task, σ.decodes[i]? = some task) ∨ task'.job.nonce = σ.nonce

theorem SameTasks.of_eq (hrequest : σ'.request = σ.request) (hrid : σ'.rid = σ.rid)
    (hnonce : σ'.nonce = σ.nonce) (hidentity : σ'.identity = σ.identity)
    (hdecodes : σ'.decodes = σ.decodes) : SameTasks σ σ' where
  request := hrequest
  rid := hrid
  nonce := hnonce
  identity := hidentity
  task {_ task} hi := ⟨task, hdecodes ▸ hi, rfl, rfl⟩
  created {_ task'} hi := Or.inl ⟨task', hdecodes ▸ hi⟩

theorem SameTasks.refl : SameTasks σ σ := .of_eq rfl rfl rfl rfl rfl

theorem SameTasks.trans (h₁ : SameTasks σ σ') (h₂ : SameTasks σ' σ'') : SameTasks σ σ'' where
  request := h₂.request.trans h₁.request
  rid := h₂.rid.trans h₁.rid
  nonce := h₂.nonce.trans h₁.nonce
  identity := h₂.identity.trans h₁.identity
  task hi := by
    obtain ⟨task', hi', hjob', hpos'⟩ := h₁.task hi
    obtain ⟨task'', hi'', hjob'', hpos''⟩ := h₂.task hi'
    exact ⟨task'', hi'', hjob''.trans hjob', hpos''.trans hpos'⟩
  created hi := by
    rcases h₂.created hi with ⟨task, hold⟩ | hnonce
    · rcases h₁.created hold with hold | hnonce
      · exact Or.inl hold
      · obtain ⟨task'', hi'', hjob, -⟩ := h₂.task hold
        obtain rfl := Option.some.inj (hi.symm.trans hi'')
        exact Or.inr (hjob ▸ hnonce)
    · exact Or.inr (hnonce.trans h₁.nonce)

theorem SameTasks.follows (h : SameTasks σ σ') (hcreated : σ.pos ≠ .created)
    (hended : σ.pos.isEnded = false) : Follows futures nextJob σ σ' where
  request := h.request
  rid := h.rid
  task hi := by
    obtain ⟨task', hi', hjob, hpos⟩ := h.task hi
    exact ⟨task', hi', hjob, hpos ▸ .same⟩
  created hi := (h.created hi).imp id fun hnonce => ⟨hnonce, hcreated⟩
  ended hp := by rw [hended] at hp; cases hp

/-- A step that leaves the decode tasks and an ended session alone. -/
theorem Follows.of_eq (hrequest : σ'.request = σ.request) (hrid : σ'.rid = σ.rid)
    (hdecodes : σ'.decodes = σ.decodes)
    (hended : σ.pos.isEnded = true → σ'.pos = σ.pos ∧ σ'.totalChunks = σ.totalChunks) :
    Follows futures nextJob σ σ' where
  request := hrequest
  rid := hrid
  task {_ task} hi := ⟨task, hdecodes ▸ hi, rfl, .same⟩
  created {_ task'} hi := Or.inl ⟨task', hdecodes ▸ hi⟩
  ended hp := ⟨(hended hp).1, (hended hp).2, by rw [hdecodes]⟩

/-! ### A run of the session -/

theorem Tidied.sameTasks (h : Tidied σ out turn) : SameTasks σ turn.session := by
  have hsame := h.same
  refine .of_eq ?_ ?_ ?_ ?_ ?_ <;> rw [hsame]

theorem sendAbort_sameTasks (reason : String) : SameTasks σ (σ.sendAbort reason).session := by
  unfold sendAbort callRecv
  split <;> exact .of_eq rfl rfl rfl rfl rfl

theorem loopHead_sameTasks : SameTasks σ σ.loopHead := by
  unfold loopHead
  split
  · exact .of_eq rfl rfl rfl rfl rfl
  · rw [cancelRecv_eq]
    exact .of_eq rfl rfl rfl rfl rfl

theorem acceptChunk_sameTasks {ready : CompressionChunkReady} {slot : Nat} :
    SameTasks σ (σ.acceptChunk ready slot) where
  request := rfl
  rid := rfl
  nonce := rfl
  identity := rfl
  task {_ task} hi := ⟨task, getElem?_append_of_some hi _, rfl, rfl⟩
  created hi := by
    rcases getElem?_append_some hi with hold | ⟨-, rfl⟩
    · exact Or.inl ⟨_, hold⟩
    · exact Or.inr rfl

theorem takeReply_sameTasks {reason : Option String} (h : σ.takeReply = (σ', reason)) :
    SameTasks σ σ' := by
  have hframe : SameTasks σ { σ with recvTask := .created } := .of_eq rfl rfl rfl rfl rfl
  obtain rfl : σ.takeReply.1 = σ' := congrArg Prod.fst h
  unfold takeReply
  split
  · exact .refl
  · dsimp only
    split
    · split
      · exact hframe
      · split
        · exact hframe.trans acceptChunk_sameTasks
        · exact hframe
    · exact hframe
  · exact .refl

theorem takeIssue_sameTasks {reason : Option String} (h : σ.takeIssue = (σ', reason)) :
    SameTasks σ σ' := by
  obtain rfl : σ.takeIssue.1 = σ' := congrArg Prod.fst h
  unfold takeIssue
  split
  · exact .of_eq rfl rfl rfl rfl rfl
  · exact .refl
  · exact .refl

theorem untrack_sameTasks (i : Nat) : SameTasks σ (σ.untrack i) where
  request := rfl
  rid := rfl
  nonce := rfl
  identity := rfl
  task {j task} hj := by
    by_cases hij : i = j
    · subst hij
      exact ⟨_, getElem?_modify_self hj _, rfl, rfl⟩
    · exact ⟨task, (getElem?_modify_ne hij _).trans hj, rfl, rfl⟩
  created hj := by
    rcases getElem?_modify_some hj with ⟨rfl, old, hold, -⟩ | ⟨-, hold⟩
    · exact Or.inl ⟨old, hold⟩
    · exact Or.inl ⟨_, hold⟩

theorem takeDecodes_sameTasks {waited : List Nat} {reason : Option String}
    (h : σ.takeDecodes waited = (σ', reason)) : SameTasks σ σ' := by
  induction waited generalizing σ with
  | nil =>
      obtain ⟨rfl, rfl⟩ := Prod.mk.inj h
      exact .refl
  | cons i rest ih =>
      rw [takeDecodes] at h
      split at h
      · obtain ⟨rfl, rfl⟩ := Prod.mk.inj h
        exact untrack_sameTasks i
      · exact (untrack_sameTasks i).trans (ih h)
      · exact ih h

theorem Resumes.sameTasks (hturn : Resumes σ nextJob turn) : SameTasks σ turn.session := by
  cases hturn with
  | openFails reason => exact sendAbort_sameTasks reason
  | openEmpty => exact enterFinally_tidied.sameTasks
  | @openStarts response =>
      have hstart : SameTasks σ (σ.startTasks response) := .of_eq rfl rfl rfl rfl rfl
      exact hstart.trans loopHead_sameTasks
  | replyFails reason _ hreply =>
      exact (takeReply_sameTasks hreply).trans (sendAbort_sameTasks reason)
  | issueFails reason _ hreply hissue =>
      exact ((takeReply_sameTasks hreply).trans (takeIssue_sameTasks hissue)).trans
        (sendAbort_sameTasks reason)
  | decodeFails reason _ hreply hissue hdecodes =>
      exact (((takeReply_sameTasks hreply).trans (takeIssue_sameTasks hissue)).trans
        (takeDecodes_sameTasks hdecodes)).trans (sendAbort_sameTasks reason)
  | loops _ hreply hissue hdecodes =>
      exact (((takeReply_sameTasks hreply).trans (takeIssue_sameTasks hissue)).trans
        (takeDecodes_sameTasks hdecodes)).trans loopHead_sameTasks
  | stops =>
      have hstop : SameTasks σ { σ with recvTask := .absent } := .of_eq rfl rfl rfl rfl rfl
      exact hstop.trans enterFinally_tidied.sameTasks
  | gathers => exact .of_eq rfl rfl rfl rfl rfl
  | gatherFails reason => exact sendAbort_sameTasks reason
  | gatherDone => exact enterFinally_tidied.sameTasks
  | @aborted message =>
      have hacked : SameTasks σ { σ with acked := σ.isAck message } := .of_eq rfl rfl rfl rfl rfl
      exact hacked.trans enterFinally_tidied.sameTasks
  | finIssue => exact afterIssue_tidied.sameTasks
  | finRecv => exact afterRecv_tidied.sameTasks
  | finDecode => exact afterDecode_tidied.sameTasks
  | finDrain => exact finish_tidied.sameTasks

/-! ### The other steps -/

/-- Modifying one decode task. -/
theorem modifyDecode_follows {i : Nat} {f : DecodeTask → DecodeTask}
    (hjob : ∀ task, (f task).job = task.job)
    (hpos : ∀ task, σ.decodes[i]? = some task → Advances futures nextJob task.pos (f task).pos) :
    Follows futures nextJob σ (σ.modifyDecode i f) where
  request := rfl
  rid := rfl
  task {j task} hj := by
    by_cases hij : i = j
    · subst hij
      exact ⟨_, getElem?_modify_self hj f, hjob task, hpos task hj⟩
    · exact ⟨task, (getElem?_modify_ne hij f).trans hj, rfl, .same⟩
  created hj := by
    rcases getElem?_modify_some hj with ⟨rfl, old, hold, -⟩ | ⟨-, hold⟩
    · exact Or.inl ⟨old, hold⟩
    · exact Or.inl ⟨_, hold⟩
  ended _ := ⟨rfl, rfl, List.length_modify ..⟩

theorem cancel_job (task : DecodeTask) : task.cancel.job = task.job := by
  unfold DecodeTask.cancel
  split <;> rfl

theorem cancel_pos (task : DecodeTask) :
    task.cancel.pos = task.pos ∨ (task.pos.isDone = false ∧ task.cancel.pos = .finished .cancelled) := by
  unfold DecodeTask.cancel
  split
  · exact Or.inl rfl
  · rename_i hrun
    exact Or.inr ⟨by simpa using hrun, rfl⟩

/-- Cancelling the tasks of a gather touches only their positions. -/
theorem cancelDecodes_task (tasks : List Nat) {i : Nat} {task : DecodeTask}
    (hi : σ.decodes[i]? = some task) :
    ∃ task', (σ.cancelDecodes tasks).decodes[i]? = some task' ∧ task'.job = task.job ∧
      (task'.pos = task.pos ∨ (task.pos.isDone = false ∧ task'.pos = .finished .cancelled)) := by
  induction tasks generalizing σ task with
  | nil => exact ⟨task, hi, rfl, Or.inl rfl⟩
  | cons j rest ih =>
      by_cases hij : j = i
      · subst hij
        obtain ⟨task', hi', hjob', hpos'⟩ :=
          ih (σ := σ.modifyDecode j DecodeTask.cancel) (getElem?_modify_self hi _)
        refine ⟨task', hi', hjob'.trans (cancel_job task), ?_⟩
        rcases cancel_pos task with hsame | ⟨hrun, hcancel⟩
        · rw [hsame] at hpos'
          exact hpos'
        · rcases hpos' with hpos' | ⟨hrun', -⟩
          · exact Or.inr ⟨hrun, hpos'.trans hcancel⟩
          · rw [hcancel] at hrun'
            cases hrun'
      · exact ih (σ := σ.modifyDecode j DecodeTask.cancel)
          ((getElem?_modify_ne hij _).trans hi)

theorem cancelDecodes_eq (tasks : List Nat) :
    σ.cancelDecodes tasks = { σ with decodes := (σ.cancelDecodes tasks).decodes } ∧
      (σ.cancelDecodes tasks).decodes.length = σ.decodes.length := by
  induction tasks generalizing σ with
  | nil => exact ⟨rfl, rfl⟩
  | cons i rest ih =>
      obtain ⟨heq, hlength⟩ := ih (σ := σ.modifyDecode i DecodeTask.cancel)
      refine ⟨heq, hlength.trans ?_⟩
      exact List.length_modify ..

theorem cancelDecodes_follows (tasks : List Nat) :
    Follows futures nextJob σ (σ.cancelDecodes tasks) := by
  obtain ⟨heq, hlength⟩ := cancelDecodes_eq (σ := σ) tasks
  refine ⟨by rw [heq], by rw [heq], fun {i task} hi => ?_, fun {i task'} hi => ?_, fun _ => ?_⟩
  · obtain ⟨task', hi', hjob, hpos⟩ := cancelDecodes_task tasks hi
    refine ⟨task', hi', hjob, ?_⟩
    rcases hpos with hpos | ⟨hrun, hpos⟩
    · exact hpos ▸ .same
    · exact hpos ▸ .cancels hrun
  · have hlt : i < σ.decodes.length := hlength ▸ (List.getElem?_eq_some_iff.mp hi).1
    exact Or.inl ⟨_, List.getElem?_eq_getElem hlt⟩
  · exact ⟨by rw [heq], by rw [heq], hlength⟩

/-- A step that does not touch the decode tasks after one that follows. -/
theorem Follows.of_eq_right (h : Follows futures nextJob σ σ') (hrequest : σ''.request = σ'.request)
    (hrid : σ''.rid = σ'.rid) (hdecodes : σ''.decodes = σ'.decodes)
    (hended : σ.pos.isEnded = false) : Follows futures nextJob σ σ'' where
  request := hrequest.trans h.request
  rid := hrid.trans h.rid
  task hi := by rw [hdecodes]; exact h.task hi
  created hi := h.created (hdecodes ▸ hi)
  ended hp := by rw [hended] at hp; cases hp

/-- The names of a session after a step that does not start it. -/
def SameNames (σ σ' : ConsumerSession) : Prop :=
  σ'.nonce = σ.nonce ∧ σ'.identity = σ.identity ∧
    (σ.pos.isEnded = true → σ'.pos.isEnded = true) ∧ (σ'.pos = .created → σ.pos = .created) ∧
    (σ.pos = .created → σ'.pos = .created ∨ σ'.pos.isEnded = true)

theorem answer_follows (waiter : Waiter) (message : Option CompressionResponse) :
    Follows futures nextJob σ (σ.answer waiter message) ∧ SameNames σ (σ.answer waiter message) := by
  unfold answer
  split
  · exact ⟨.of_eq rfl rfl rfl fun _ => ⟨rfl, rfl⟩, rfl, rfl, id, id, Or.inl⟩
  · split
    · rename_i hpos
      refine ⟨.of_eq rfl rfl rfl fun hend => ?_, rfl, rfl, ?_, ?_, ?_⟩ <;> simp_all [SessionAt.isEnded]
    · rename_i hpos
      refine ⟨.of_eq rfl rfl rfl fun hend => ?_, rfl, rfl, ?_, ?_, ?_⟩ <;> simp_all [SessionAt.isEnded]
    · exact ⟨.of_eq rfl rfl rfl fun _ => ⟨rfl, rfl⟩, rfl, rfl, id, id, Or.inl⟩

theorem sameNames_of_eq (hnonce : σ'.nonce = σ.nonce) (hidentity : σ'.identity = σ.identity)
    (hpos : σ'.pos = σ.pos) : SameNames σ σ' := by
  refine ⟨hnonce, hidentity, ?_, ?_, ?_⟩ <;> rw [hpos]
  · exact id
  · exact id
  · exact Or.inl

theorem arrive_follows (response : CompressionResponse) :
    Follows futures nextJob σ (σ.arrive response) ∧ SameNames σ (σ.arrive response) := by
  unfold arrive
  split
  · exact ⟨.of_eq rfl rfl rfl fun _ => ⟨rfl, rfl⟩, sameNames_of_eq rfl rfl rfl⟩
  · split
    · rename_i waiter rest _
      obtain ⟨h₁, h₂⟩ := answer_follows (σ := { σ with waiters := rest }) waiter (some response)
      exact ⟨⟨h₁.request, h₁.rid, h₁.task, h₁.created, h₁.ended⟩, h₂⟩
    · exact ⟨.of_eq rfl rfl rfl fun _ => ⟨rfl, rfl⟩, sameNames_of_eq rfl rfl rfl⟩

theorem expireRecv_follows {waiter : Waiter} (hσ' : σ.expireRecv waiter = some σ') :
    Follows futures nextJob σ σ' ∧ SameNames σ σ' := by
  unfold expireRecv at hσ'
  split at hσ'
  · obtain rfl := Option.some.inj hσ'
    obtain ⟨h₁, h₂⟩ := answer_follows (σ := { σ with waiters := σ.waiters.erase waiter }) waiter none
    exact ⟨⟨h₁.request, h₁.rid, h₁.task, h₁.created, h₁.ended⟩, h₂⟩
  · cases hσ'

theorem startRecv_follows (hσ' : σ.startRecv = some σ') :
    Follows futures nextJob σ σ' ∧ SameNames σ σ' := by
  unfold startRecv at hσ'
  split at hσ'
  · obtain rfl := Option.some.inj hσ'
    exact ⟨.of_eq rfl rfl rfl fun _ => ⟨rfl, rfl⟩, sameNames_of_eq rfl rfl rfl⟩
  · obtain rfl := Option.some.inj hσ'
    exact ⟨.of_eq rfl rfl rfl fun _ => ⟨rfl, rfl⟩, sameNames_of_eq rfl rfl rfl⟩
  · cases hσ'

theorem notify_eq (task : Awaited) : σ.notify task = { σ with pos := (σ.notify task).pos } ∧
    ((σ.notify task).pos = σ.pos ∨
      ∃ waited woken, σ.pos = .waiting waited woken ∧ (σ.notify task).pos = .waiting waited true) := by
  unfold notify
  split
  · rename_i hpos
    split
    · exact ⟨rfl, Or.inr ⟨_, _, hpos, rfl⟩⟩
    · exact ⟨rfl, Or.inl rfl⟩
  · rename_i hpos _
    exact ⟨rfl, Or.inr ⟨_, _, hpos, rfl⟩⟩
  · exact ⟨rfl, Or.inl rfl⟩

/-- The callbacks of a task change `decode_tasks` and wake the session. -/
theorem callbacks_eq {task : Awaited} (hσ' : σ.callbacks task = some σ') :
    (∃ σ₁, (σ₁ = σ ∨ ∃ i, task = .decode i ∧ σ₁ = σ.untrack i) ∧ σ' = { σ₁ with pos := σ'.pos }) ∧
      (σ'.pos = σ.pos ∨
        ∃ waited woken, σ.pos = .waiting waited woken ∧ σ'.pos = .waiting waited true) := by
  unfold callbacks at hσ'
  split at hσ'
  · split at hσ'
    · rename_i i _
      obtain rfl := Option.some.inj hσ'
      obtain ⟨heq, hpos⟩ := notify_eq (σ := σ.untrack i) (.decode i)
      exact ⟨⟨σ.untrack i, Or.inr ⟨i, rfl, rfl⟩, heq⟩, hpos⟩
    · obtain rfl := Option.some.inj hσ'
      obtain ⟨heq, hpos⟩ := notify_eq (σ := σ) task
      exact ⟨⟨σ, Or.inl rfl, heq⟩, hpos⟩
  · cases hσ'

theorem callbacks_follows {task : Awaited} (hσ' : σ.callbacks task = some σ') :
    Follows futures nextJob σ σ' ∧ SameNames σ σ' := by
  obtain ⟨⟨σ₁, hσ₁, heq⟩, hpos⟩ := callbacks_eq hσ'
  have hsame : SameTasks σ σ' := by
    have hwoken : SameTasks σ₁ σ' := by
      refine .of_eq ?_ ?_ ?_ ?_ ?_ <;> rw [heq]
    rcases hσ₁ with rfl | ⟨i, -, rfl⟩
    · exact hwoken
    · exact (untrack_sameTasks i).trans hwoken
  have hlength : σ'.decodes.length = σ.decodes.length ∧ σ'.totalChunks = σ.totalChunks := by
    rw [heq]
    rcases hσ₁ with rfl | ⟨i, -, rfl⟩
    · exact ⟨rfl, rfl⟩
    · exact ⟨List.length_modify .., rfl⟩
  refine ⟨⟨hsame.request, hsame.rid, fun hi => ?_, fun {i task'} hi => ?_, fun hend => ?_⟩,
    hsame.nonce, hsame.identity, ?_⟩
  · obtain ⟨task', hi', hjob, hpos'⟩ := hsame.task hi
    exact ⟨task', hi', hjob, hpos' ▸ .same⟩
  · have hlt : i < σ.decodes.length := hlength.1 ▸ (List.getElem?_eq_some_iff.mp hi).1
    exact Or.inl ⟨_, List.getElem?_eq_getElem hlt⟩
  · rcases hpos with hpos | ⟨waited, woken, hpos, -⟩
    · exact ⟨hpos, hlength.2, hlength.1⟩
    · rw [hpos] at hend
      cases hend
  · rcases hpos with hpos | ⟨waited, woken, hpos, hpos'⟩
    · rw [hpos]
      exact ⟨id, id, Or.inl⟩
    · rw [hpos, hpos']
      refine ⟨?_, ?_, ?_⟩ <;> intro h <;> cases h

theorem startDecode_follows {i : Nat} (hturn : σ.startDecode i nextJob = some turn) :
    Follows futures nextJob σ turn.session ∧ SameNames σ turn.session ∧
      ∃ task, turn.session.decodes[i]? = some task ∧ task.pos = .waitJob nextJob ∧
        turn.submits = some (.decodeChunk task.job) := by
  unfold startDecode at hturn
  split at hturn
  · rename_i hi
    obtain rfl := Option.some.inj hturn
    refine ⟨modifyDecode_follows (fun _ => rfl) fun task htask => ?_, sameNames_of_eq rfl rfl rfl,
      _, getElem?_modify_self hi _, rfl, rfl⟩
    obtain rfl := Option.some.inj (hi.symm.trans htask)
    exact .submit
  · cases hturn

theorem finishDecode_follows {i : Nat} (hturn : σ.finishDecode i futures = some turn) :
    Follows futures nextJob σ turn.session ∧ SameNames σ turn.session ∧ turn.submits = none := by
  unfold finishDecode at hturn
  split at hturn
  · rename_i id _ hi
    obtain ⟨result, hresult, rfl⟩ := Option.map_eq_some_iff.mp hturn
    split
    · refine ⟨modifyDecode_follows (fun _ => rfl) fun task htask => ?_,
        sameNames_of_eq rfl rfl rfl, rfl⟩
      obtain rfl := Option.some.inj (hi.symm.trans htask)
      exact .raises
    · rename_i hok
      have hend : Follows futures nextJob σ (σ.endDecode i .returned) := by
        refine modifyDecode_follows (fun _ => rfl) fun task htask => ?_
        obtain rfl := Option.some.inj (hi.symm.trans htask)
        exact .returns hresult hok
      exact ⟨⟨hend.request, hend.rid, hend.task, hend.created, hend.ended⟩,
        sameNames_of_eq rfl rfl rfl, rfl⟩
  · cases hturn

theorem decodeTimeout_follows {i : Nat} (hσ' : σ.decodeTimeout i futures = some σ') :
    Follows futures nextJob σ σ' ∧ SameNames σ σ' := by
  unfold decodeTimeout at hσ'
  split at hσ'
  · rename_i hi
    split at hσ'
    · obtain rfl := Option.some.inj hσ'
      refine ⟨modifyDecode_follows (fun _ => rfl) fun task htask => ?_, sameNames_of_eq rfl rfl rfl⟩
      obtain rfl := Option.some.inj (hi.symm.trans htask)
      exact .raises
    · cases hσ'
  · cases hσ'

theorem start_follows {init : InitMessage} {nonce : Nonce} {identity : Identity}
    (hpos : σ.pos = .created) : Follows futures nextJob σ (σ.start init nonce identity).session := by
  unfold start callRecv
  dsimp only
  split <;> exact .of_eq rfl rfl rfl fun hend => by rw [hpos] at hend; cases hend

theorem issueChunk_follows {init : InitMessage} {chunkId slot : Nat} {fails : Bool} :
    Follows futures nextJob σ (σ.issueChunk init chunkId slot fails).session ∧
      SameNames σ (σ.issueChunk init chunkId slot fails).session := by
  unfold issueChunk
  cases fails
  · exact ⟨.of_eq rfl rfl rfl fun _ => ⟨rfl, rfl⟩, sameNames_of_eq rfl rfl rfl⟩
  · exact ⟨.of_eq rfl rfl rfl fun _ => ⟨rfl, rfl⟩, sameNames_of_eq rfl rfl rfl⟩

theorem Cancels.follows (hturn : Cancels σ nextJob turn) :
    Follows futures nextJob σ turn.session ∧ turn.session.nonce = σ.nonce ∧
      turn.session.identity = σ.identity ∧ σ.pos.isEnded = false := by
  have hcancel (tasks : List Nat) :
      Follows futures nextJob σ (σ.uncancelled.cancelDecodes tasks) ∧
        (σ.uncancelled.cancelDecodes tasks).nonce = σ.nonce ∧
        (σ.uncancelled.cancelDecodes tasks).identity = σ.identity := by
    have h := @cancelDecodes_follows σ.uncancelled nextJob futures tasks
    obtain ⟨heq, -⟩ := cancelDecodes_eq (σ := σ.uncancelled) tasks
    refine ⟨⟨h.request, h.rid, h.task, h.created, h.ended⟩, ?_, ?_⟩ <;> rw [heq] <;> rfl
  have hunstarted (hlive : σ.pos.isEnded = false) : Follows futures nextJob σ
      { σ.uncancelled with pos := .ended .cancelled } :=
    .of_eq rfl rfl rfl fun hend => by rw [hlive] at hend; cases hend
  cases hturn with
  | unstarted hpos =>
      have hlive : σ.pos.isEnded = false := by rw [hpos]; rfl
      exact ⟨hunstarted hlive, rfl, rfl, hlive⟩
  | body hcreated hfinally hended =>
      have hsame := (@enterFinally_tidied σ.uncancelled nextJob .cancelled).sameTasks
      have hfollows : Follows futures nextJob σ.uncancelled
          (σ.uncancelled.enterFinally .cancelled nextJob).session :=
        hsame.follows hcreated hended
      exact ⟨⟨hfollows.request, hfollows.rid, hfollows.task, hfollows.created, hfollows.ended⟩,
        hsame.nonce, hsame.identity, hended⟩
  | @gather tasks hpos =>
      have hlive : σ.pos.isEnded = false := by rw [hpos]; rfl
      obtain ⟨hfollows, hnonce, hidentity⟩ := hcancel tasks
      have hsame := (@enterFinally_tidied (σ.uncancelled.cancelDecodes tasks) nextJob .cancelled).same
      refine ⟨hfollows.of_eq_right ?_ ?_ ?_ hlive, ?_, ?_, hlive⟩
      · rw [hsame]
      · rw [hsame]
      · rw [hsame]
      · rw [hsame]
        exact hnonce
      · rw [hsame]
        exact hidentity
  | skips hfinally =>
      have hlive : σ.pos.isEnded = false := by
        cases hpos : σ.pos <;> rw [hpos] at hfinally <;> first | rfl | cases hfinally
      exact ⟨hunstarted hlive, rfl, rfl, hlive⟩
  | @skipsGather tasks out hpos =>
      have hlive : σ.pos.isEnded = false := by rw [hpos]; rfl
      obtain ⟨hfollows, hnonce, hidentity⟩ := hcancel tasks
      exact ⟨hfollows.of_eq_right rfl rfl rfl hlive, hnonce, hidentity, hlive⟩

/-- A run of the session leaves it at an `await` past its start. -/
theorem Resumes.not_created (hturn : Resumes σ nextJob turn) : turn.session.pos ≠ .created := by
  have habort {σ : ConsumerSession} (reason : String) :
      (σ.sendAbort reason).session.pos ≠ .created := by
    unfold sendAbort callRecv
    split <;> simp
  have hloop {σ : ConsumerSession} : σ.loopHead.pos ≠ .created := by
    unfold loopHead
    split <;> simp
  have htidied {σ : ConsumerSession} {out : Outcome} {turn : Turn} (h : Tidied σ out turn) :
      turn.session.pos ≠ .created := by
    intro hpos
    have hout := h.pos
    rw [hpos] at hout
    cases hout
  cases hturn with
  | openFails reason => exact habort reason
  | openEmpty => exact htidied enterFinally_tidied
  | openStarts => exact hloop
  | replyFails reason => exact habort reason
  | issueFails reason => exact habort reason
  | decodeFails reason => exact habort reason
  | loops => exact hloop
  | stops => exact htidied enterFinally_tidied
  | gathers => simp
  | gatherFails reason => exact habort reason
  | gatherDone => exact htidied enterFinally_tidied
  | aborted => exact htidied enterFinally_tidied
  | finIssue => exact htidied afterIssue_tidied
  | finRecv => exact htidied afterRecv_tidied
  | finDecode => exact htidied afterDecode_tidied
  | finDrain => exact htidied finish_tidied

theorem Resumes.names (hturn : Resumes σ nextJob turn) : SameNames σ turn.session := by
  have hsame := hturn.sameTasks
  obtain ⟨hcreated, hended⟩ := hturn.live
  refine ⟨hsame.nonce, hsame.identity, fun hend => ?_, fun hpos => ?_, fun hpos => ?_⟩
  · rw [hended] at hend
    cases hend
  · exact absurd hpos hturn.not_created
  · exact absurd hpos hcreated

theorem Cancels.outcome (hturn : Cancels σ nextJob turn) :
    turn.session.pos.outcome? = some .cancelled := by
  cases hturn with
  | unstarted => rfl
  | body => exact enterFinally_tidied.pos
  | gather => exact enterFinally_tidied.pos
  | skips => rfl
  | skipsGather => rfl

theorem Cancels.names (hturn : Cancels σ nextJob turn) : SameNames σ turn.session := by
  obtain ⟨-, hnonce, hidentity, hended⟩ := @Cancels.follows _ _ _ (fun _ => none) hturn
  refine ⟨hnonce, hidentity, fun hend => ?_, fun hpos => ?_, fun hpos => ?_⟩
  · rw [hended] at hend
    cases hend
  · have hout := hturn.outcome
    rw [hpos] at hout
    cases hout
  · cases hturn with
    | unstarted => exact Or.inr rfl
    | body hcreated => exact absurd hpos hcreated
    | gather hgather => rw [hpos] at hgather; cases hgather
    | skips => exact Or.inr rfl
    | skipsGather => exact Or.inr rfl

/-- The jobs a run of the session itself submits are drains. -/
theorem Resumes.submits (hturn : Resumes σ nextJob turn) :
    turn.submits = none ∨ ∃ slots, turn.submits = some (.drainSlots slots) := by
  cases hturn with
  | openEmpty => exact enterFinally_tidied.submits
  | stops => exact (enterFinally_tidied (σ := { σ with recvTask := .absent })).submits
  | gatherDone => exact enterFinally_tidied.submits
  | @aborted message =>
      exact (enterFinally_tidied (σ := { σ with acked := σ.isAck message })).submits
  | finIssue => exact afterIssue_tidied.submits
  | finRecv => exact afterRecv_tidied.submits
  | finDecode => exact afterDecode_tidied.submits
  | _ => exact Or.inl rfl

theorem Cancels.submits (hturn : Cancels σ nextJob turn) :
    turn.submits = none ∨ ∃ slots, turn.submits = some (.drainSlots slots) := by
  cases hturn with
  | body => exact (enterFinally_tidied (σ := σ.uncancelled)).submits
  | @gather tasks => exact (enterFinally_tidied (σ := σ.uncancelled.cancelDecodes tasks)).submits
  | _ => exact Or.inl rfl

end ConsumerSession

/-! ### Whole runs -/

namespace Consumer

variable {s s' : Consumer} {sid : Nat} {σ : ConsumerSession} {turn : Turn} {a : Action}

/-- **What a step does to the tasks of a session.** -/
theorem Moves.follows (h : s.Moves sid σ a turn) :
    σ.Follows s.futures (s.nextJobId + 1) turn.session := by
  cases h with
  | start _ hpos => exact ConsumerSession.start_follows hpos
  | resume _ hturn => exact hturn.sameTasks.follows hturn.live.1 hturn.live.2
  | cancel _ hturn => exact hturn.follows.1
  | startRecv hσ' => exact (ConsumerSession.startRecv_follows hσ').1
  | callbacks hσ' => exact (ConsumerSession.callbacks_follows hσ').1
  | startDecode hturn => exact (ConsumerSession.startDecode_follows hturn).1
  | finishDecode hturn => exact (ConsumerSession.finishDecode_follows hturn).1
  | decodeTimeout hσ' => exact (ConsumerSession.decodeTimeout_follows hσ').1
  | drainTimeout hpos =>
      exact ConsumerSession.finish_tidied.sameTasks.follows (by simp [hpos])
        (by simp [hpos, SessionAt.isEnded])
  | deliver response => exact (ConsumerSession.arrive_follows response).1
  | expireRecv hσ' => exact (ConsumerSession.expireRecv_follows hσ').1

/-- A step that does not start the session keeps its names. -/
theorem Moves.sameNames (h : s.Moves sid σ a turn)
    (ha : ∀ nonce identity, a ≠ .start sid nonce identity) : σ.SameNames turn.session := by
  cases h with
  | start => exact absurd rfl (ha _ _)
  | resume _ hturn => exact hturn.names
  | cancel _ hturn => exact hturn.names
  | startRecv hσ' =>
      exact (@ConsumerSession.startRecv_follows _ _ 0 s.futures hσ').2
  | callbacks hσ' =>
      exact (@ConsumerSession.callbacks_follows _ _ 0 s.futures _ hσ').2
  | startDecode hturn =>
      exact (@ConsumerSession.startDecode_follows _ _ _ s.futures _ hturn).2.1
  | finishDecode hturn => exact (@ConsumerSession.finishDecode_follows _ 0 _ _ _ hturn).2.1
  | decodeTimeout hσ' => exact (@ConsumerSession.decodeTimeout_follows _ _ 0 _ _ hσ').2
  | drainTimeout hpos => exact (@ConsumerSession.Resumes.finDrain _ 0 _ _ hpos).names
  | deliver response =>
      exact (@ConsumerSession.arrive_follows _ 0 s.futures response).2
  | expireRecv hσ' =>
      exact (@ConsumerSession.expireRecv_follows _ _ 0 s.futures _ hσ').2

/-- A step either starts the session under fresh names or keeps its names. -/
theorem Moves.names (h : s.Moves sid σ a turn) :
    σ.SameNames turn.session ∨
      (σ.pos = .created ∧ turn.session.pos ≠ .created ∧ turn.session.pos.isEnded = false ∧
        s.unused turn.session.nonce turn.session.identity = true) := by
  by_cases hstart : ∃ nonce identity, a = .start sid nonce identity
  · obtain ⟨nonce, identity, rfl⟩ := hstart
    cases h with
    | start hunused hpos =>
        refine Or.inr ⟨hpos, ?_⟩
        unfold ConsumerSession.start ConsumerSession.callRecv
        dsimp only
        split <;> exact ⟨by simp, rfl, hunused⟩
  · exact Or.inl (h.sameNames fun nonce identity heq => hstart ⟨nonce, identity, heq⟩)

/-- A `DecodeChunkJob` is submitted by the decode task that waits for it. -/
theorem Moves.submits (h : s.Moves sid σ a turn) {job : DecodeChunkJob}
    (hsub : turn.submits = some (.decodeChunk job)) :
    ∃ (i : Nat) (task : DecodeTask), turn.session.decodes[i]? = some task ∧ task.job = job ∧
      task.pos = .waitJob (s.nextJobId + 1) := by
  have hdrain (h : turn.submits = none ∨ ∃ slots, turn.submits = some (.drainSlots slots)) :
      False := by
    rcases h with hnone | ⟨slots, hdrain⟩
    · rw [hsub] at hnone; cases hnone
    · rw [hsub] at hdrain; cases hdrain
  cases h with
  | resume _ hturn => exact (hdrain hturn.submits).elim
  | cancel _ hturn => exact (hdrain hturn.submits).elim
  | startDecode hturn =>
      obtain ⟨-, -, task, hi, hpos, hjob⟩ :=
        @ConsumerSession.startDecode_follows _ _ _ s.futures _ hturn
      rw [hsub] at hjob
      cases hjob
      exact ⟨_, task, hi, rfl, hpos⟩
  | finishDecode hturn =>
      rw [(@ConsumerSession.finishDecode_follows _ 0 _ _ _ hturn).2.2] at hsub
      cases hsub
  | _ => cases hsub

/-- How the task of a `DecodeChunkJob` stands with respect to the engine. -/
def Answered (futures : Nat → Option JobDone) (id : Nat) (pos : DecodeAt) : Prop :=
  pos = .waitJob id ∨ ∃ how, pos = .finished how ∧
    (how = .returned → ∃ result, futures id = some result ∧ result.error = none)

/-- Two sessions never share a name that has been given out. -/
def DistinctNames (s : Consumer) (name : ConsumerSession → String) : Prop :=
  ∀ {i j : Nat} {σ τ : ConsumerSession}, s.sessions[i]? = some σ → s.sessions[j]? = some τ →
    name σ = name τ → name σ ≠ "" → i = j

/-- Jobs and the sessions they belong to. -/
structure TaskBook (s : Consumer) : Prop where
  fresh : ∀ id, s.nextJobId < id → s.engineJobs id = none ∧ s.futures id = none ∧
    s.submitted id = none
  pending : ∀ {id : Nat}, (s.engineJobs id).isSome = true → s.futures id = none
  linked : ∀ {id : Nat} {job : DecodeChunkJob}, s.submitted id = some (.decodeChunk job) →
    ∃ (sid : Nat) (σ : ConsumerSession) (i : Nat) (task : DecodeTask),
      s.sessions[sid]? = some σ ∧ σ.decodes[i]? = some task ∧ task.job = job ∧
        Answered s.futures id task.pos
  created : ∀ {sid : Nat} {σ : ConsumerSession}, s.sessions[sid]? = some σ → σ.pos = .created →
    σ.nonce = "" ∧ σ.identity = ""
  live : ∀ {sid : Nat} {σ : ConsumerSession}, s.sessions[sid]? = some σ → σ.pos ≠ .created →
    σ.pos.isEnded = false → σ.nonce ≠ "" ∧ σ.identity ≠ ""
  /-- The jobs of a session carry its nonce. -/
  jobs : ∀ {sid i : Nat} {σ : ConsumerSession} {task : DecodeTask}, s.sessions[sid]? = some σ →
    σ.decodes[i]? = some task → task.job.nonce = σ.nonce ∧ σ.nonce ≠ ""
  nonces : s.DistinctNames ConsumerSession.nonce
  identities : s.DistinctNames ConsumerSession.identity

theorem Answered.advance {futures : Nat → Option JobDone} {id nextJob : Nat} {pos pos' : DecodeAt}
    (h : Answered futures id pos) (hadv : ConsumerSession.Advances futures nextJob pos pos') :
    Answered futures id pos' := by
  rcases h with rfl | ⟨how, rfl, hreturned⟩
  · cases hadv with
    | same => exact Or.inl rfl
    | returns hresult hok => exact Or.inr ⟨_, rfl, fun _ => ⟨_, hresult, hok⟩⟩
    | raises => exact Or.inr ⟨_, rfl, fun hret => by cases hret⟩
    | cancels => exact Or.inr ⟨_, rfl, fun hret => by cases hret⟩
  · cases hadv with
    | same => exact Or.inr ⟨how, rfl, hreturned⟩
    | cancels hrun => cases hrun

/-- A fresh nonce and a fresh identity belong to no session. -/
theorem unused_spec {nonce : Nonce} {identity : Identity} (h : s.unused nonce identity = true) :
    nonce ≠ "" ∧ identity ≠ "" ∧ ∀ {sid : Nat} {σ : ConsumerSession}, s.sessions[sid]? = some σ →
      σ.nonce ≠ nonce ∧ σ.identity ≠ identity := by
  simp only [unused, ne_eq, decide_not, Bool.and_eq_true, Bool.not_eq_eq_eq_not, Bool.not_true,
    decide_eq_false_iff_not, List.all_eq_true] at h
  exact ⟨h.1.1, h.1.2, fun hσ => h.2 _ (List.mem_of_getElem? hσ)⟩

theorem getElem?_apply {j : Nat} {τ : ConsumerSession} (h : (s.apply sid turn).sessions[j]? = some τ) :
    (j = sid ∧ τ = turn.session) ∨ (j ≠ sid ∧ s.sessions[j]? = some τ) := by
  rcases getElem?_modify_some h with ⟨rfl, -, -, rfl⟩ | ⟨hne, hold⟩
  · exact Or.inl ⟨rfl, rfl⟩
  · exact Or.inr ⟨fun heq => hne heq.symm, hold⟩

theorem distinctNames_apply {name : ConsumerSession → String} (h : s.DistinctNames name)
    (hself : ∀ {j : Nat} {ρ : ConsumerSession}, j ≠ sid → s.sessions[j]? = some ρ →
      name ρ = name turn.session → name ρ ≠ "" → False) :
    (s.apply sid turn).DistinctNames name := by
  intro i j τ ρ hτ hρ heq hne
  rcases getElem?_apply hτ with ⟨hi, rfl⟩ | ⟨hi, hτ'⟩
  · rcases getElem?_apply hρ with ⟨hj, rfl⟩ | ⟨hj, hρ'⟩
    · rw [hi, hj]
    · exact (hself hj hρ' heq.symm (heq ▸ hne)).elim
  · rcases getElem?_apply hρ with ⟨hj, rfl⟩ | ⟨hj, hρ'⟩
    · exact (hself hi hτ' heq hne).elim
    · exact h hτ' hρ' heq hne

/-- A step of one session keeps the books. -/
theorem TaskBook.apply (h : s.TaskBook) (hσ : s.sessions[sid]? = some σ)
    (hfollows : σ.Follows s.futures (s.nextJobId + 1) turn.session)
    (hnames : σ.SameNames turn.session ∨
      (σ.pos = .created ∧ turn.session.pos ≠ .created ∧ turn.session.pos.isEnded = false ∧
        s.unused turn.session.nonce turn.session.identity = true))
    (hsubmits : ∀ {job : DecodeChunkJob}, turn.submits = some (.decodeChunk job) →
      ∃ (i : Nat) (task : DecodeTask), turn.session.decodes[i]? = some task ∧ task.job = job ∧
        task.pos = .waitJob (s.nextJobId + 1)) : (s.apply sid turn).TaskBook := by
  have hself : (s.apply sid turn).sessions[sid]? = some turn.session := getElem?_modify_self hσ _
  have hnext : s.nextJobId ≤ (s.apply sid turn).nextJobId := by
    simp only [Consumer.apply]
    split <;> omega
  -- A decode task that existed before still has its job, under the name of its session.
  have hlinked {id : Nat} {job : DecodeChunkJob} (hjob : s.submitted id = some (.decodeChunk job)) :
      ∃ (j : Nat) (τ : ConsumerSession) (i : Nat) (task : DecodeTask),
        (s.apply sid turn).sessions[j]? = some τ ∧ τ.decodes[i]? = some task ∧ task.job = job ∧
          Answered s.futures id task.pos := by
    obtain ⟨j, τ, i, task, hτ, hi, hjob, hans⟩ := h.linked hjob
    by_cases hj : j = sid
    · subst hj
      obtain rfl := Option.some.inj (hσ.symm.trans hτ)
      obtain ⟨task', hi', hjob', hadv⟩ := hfollows.task hi
      exact ⟨j, turn.session, i, task', hself, hi', hjob'.trans hjob, hans.advance hadv⟩
    · exact ⟨j, τ, i, task, (getElem?_modify_ne (Ne.symm hj) _).trans hτ, hi, hjob, hans⟩
  have hfresh := h.fresh (s.nextJobId + 1) (Nat.lt_succ_self _)
  have hcreated {σ' : ConsumerSession} (hσ' : σ' = turn.session) (hpos : σ'.pos = .created) :
      σ'.nonce = "" ∧ σ'.identity = "" := by
    subst hσ'
    rcases hnames with ⟨hnonce, hidentity, -, hback, -⟩ | ⟨-, hstarted, -⟩
    · rw [hnonce, hidentity]
      exact h.created hσ (hback hpos)
    · exact absurd hpos hstarted
  have hlive (hpos : turn.session.pos ≠ .created) (hended : turn.session.pos.isEnded = false) :
      turn.session.nonce ≠ "" ∧ turn.session.identity ≠ "" := by
    rcases hnames with ⟨hnonce, hidentity, hend, -, hstart⟩ | ⟨-, -, -, hunused⟩
    · rw [hnonce, hidentity]
      refine h.live hσ (fun hcr => ?_) ?_
      · rcases hstart hcr with hcr | hcr
        · exact hpos hcr
        · rw [hended] at hcr; cases hcr
      · by_contra hcr
        rw [hend (by simpa using hcr)] at hended
        cases hended
    · exact ⟨(unused_spec hunused).1, (unused_spec hunused).2.1⟩
  refine ⟨?_, ?_, ?_, ?_, ?_, ?_, ?_, ?_⟩
  · intro id hid
    have hold := h.fresh id (lt_of_le_of_lt hnext hid)
    simp only [Consumer.apply] at hid ⊢
    cases hsub : turn.submits with
    | none => exact hold
    | some job =>
        simp only [hsub, Option.isSome_some, if_true] at hid
        have hne : id ≠ s.nextJobId + 1 := by omega
        simpa [Function.update_of_ne hne] using hold
  · intro id hid
    simp only [Consumer.apply] at hid ⊢
    cases hsub : turn.submits with
    | none => exact h.pending (by simpa [hsub] using hid)
    | some job =>
        by_cases hne : id = s.nextJobId + 1
        · rw [hne]
          exact hfresh.2.1
        · exact h.pending (by simpa [hsub, Function.update_of_ne hne] using hid)
  · intro id job hid
    simp only [Consumer.apply] at hid
    cases hsub : turn.submits with
    | none => exact hlinked (by simpa [hsub] using hid)
    | some job' =>
        by_cases hne : id = s.nextJobId + 1
        · subst hne
          have hjob : job' = .decodeChunk job := by simpa [hsub] using hid
          obtain ⟨i, task, hi, hjob, hpos⟩ := hsubmits (hsub.trans (congrArg some hjob))
          exact ⟨sid, turn.session, i, task, hself, hi, hjob, Or.inl hpos⟩
        · exact hlinked (by simpa [hsub, Function.update_of_ne hne] using hid)
  · intro j τ hτ hpos
    rcases getElem?_apply hτ with ⟨rfl, rfl⟩ | ⟨-, hτ⟩
    · exact hcreated rfl hpos
    · exact h.created hτ hpos
  · intro j τ hτ hpos hended
    rcases getElem?_apply hτ with ⟨rfl, rfl⟩ | ⟨-, hτ⟩
    · exact hlive hpos hended
    · exact h.live hτ hpos hended
  · intro j i τ task hτ hi
    rcases getElem?_apply hτ with ⟨rfl, rfl⟩ | ⟨-, hτ⟩
    · -- The names of a session with a decode task do not change.
      have hkeep (hpos : σ.pos ≠ .created) : turn.session.nonce = σ.nonce := by
        rcases hnames with ⟨hnonce, -⟩ | ⟨hcr, -⟩
        · exact hnonce
        · exact absurd hcr hpos
      rcases hfollows.created hi with ⟨old, hold⟩ | ⟨hnonce, hpos⟩
      · obtain ⟨hjob, hne⟩ := h.jobs hσ hold
        obtain ⟨task', hi', hjob', -⟩ := hfollows.task hold
        obtain rfl := Option.some.inj (hi.symm.trans hi')
        have hpos : σ.pos ≠ .created := fun hpos => hne (h.created hσ hpos).1
        rw [hkeep hpos, hjob']
        exact ⟨hjob, hne⟩
      · by_cases hended : σ.pos.isEnded = true
        · have hlt : i < σ.decodes.length :=
            (hfollows.ended hended).2.2 ▸ (List.getElem?_eq_some_iff.mp hi).1
          obtain ⟨task', hi', hjob', -⟩ := hfollows.task (List.getElem?_eq_getElem hlt)
          obtain rfl := Option.some.inj (hi.symm.trans hi')
          rw [hkeep hpos, hjob']
          exact h.jobs hσ (List.getElem?_eq_getElem hlt)
        · rw [hkeep hpos]
          exact ⟨hnonce, (h.live hσ hpos (by simpa using hended)).1⟩
    · exact h.jobs hτ hi
  · refine distinctNames_apply h.nonces fun {j ρ} hj hρ heq hne => ?_
    rcases hnames with ⟨hnonce, -⟩ | ⟨-, -, -, hunused⟩
    · exact hj (h.nonces hρ hσ (heq.trans hnonce) hne)
    · exact ((unused_spec hunused).2.2 hρ).1 heq
  · refine distinctNames_apply h.identities fun {j ρ} hj hρ heq hne => ?_
    rcases hnames with ⟨-, hidentity, -⟩ | ⟨-, -, -, hunused⟩
    · exact hj (h.identities hρ hσ (heq.trans hidentity) hne)
    · exact ((unused_spec hunused).2.2 hρ).2 heq

/-- The sessions change at most in what the books do not speak about, or are new. -/
theorem TaskBook.of_sessions (h : s.TaskBook) (hnext : s'.nextJobId = s.nextJobId)
    (hjobs : s'.engineJobs = s.engineJobs) (hfutures : s'.futures = s.futures)
    (hsubmitted : s'.submitted = s.submitted)
    (hold : ∀ {sid : Nat} {σ : ConsumerSession}, s.sessions[sid]? = some σ →
      ∃ σ', s'.sessions[sid]? = some σ' ∧ σ'.decodes = σ.decodes)
    (hnew : ∀ {sid : Nat} {σ' : ConsumerSession}, s'.sessions[sid]? = some σ' →
      (∃ σ, s.sessions[sid]? = some σ ∧ σ'.pos = σ.pos ∧ σ'.nonce = σ.nonce ∧
        σ'.identity = σ.identity ∧ σ'.decodes = σ.decodes) ∨
      (σ'.pos = .created ∧ σ'.nonce = "" ∧ σ'.identity = "" ∧ σ'.decodes = [])) :
    s'.TaskBook where
  fresh := by rw [hnext, hjobs, hfutures, hsubmitted]; exact h.fresh
  pending := by rw [hjobs, hfutures]; exact h.pending
  linked hjob := by
    rw [hsubmitted] at hjob
    obtain ⟨sid, σ, i, task, hσ, hi, hj, hans⟩ := h.linked hjob
    obtain ⟨σ', hσ', hdecodes⟩ := hold hσ
    rw [hfutures]
    exact ⟨sid, σ', i, task, hσ', hdecodes ▸ hi, hj, hans⟩
  created hσ' hpos := by
    rcases hnew hσ' with ⟨σ, hσ, hposeq, hnonce, hidentity, -⟩ | ⟨-, hnonce, hidentity, -⟩
    · rw [hnonce, hidentity]
      exact h.created hσ (hposeq ▸ hpos)
    · exact ⟨hnonce, hidentity⟩
  live hσ' hpos hended := by
    rcases hnew hσ' with ⟨σ, hσ, hposeq, hnonce, hidentity, -⟩ | ⟨hcr, -⟩
    · rw [hnonce, hidentity]
      exact h.live hσ (hposeq ▸ hpos) (hposeq ▸ hended)
    · exact absurd hcr hpos
  jobs hσ' hi := by
    rcases hnew hσ' with ⟨σ, hσ, -, hnonce, -, hdecodes⟩ | ⟨-, -, -, hdecodes⟩
    · rw [hnonce]
      exact h.jobs hσ (hdecodes ▸ hi)
    · simp [hdecodes] at hi
  nonces {i j σ τ} hσ hτ heq hne := by
    rcases hnew hσ with ⟨σ₀, hσ₀, -, hn, -⟩ | ⟨-, hn, -⟩
    · rcases hnew hτ with ⟨τ₀, hτ₀, -, hn', -⟩ | ⟨-, hn', -⟩
      · exact h.nonces hσ₀ hτ₀ (hn ▸ hn' ▸ heq) (hn ▸ hne)
      · exact absurd (heq.trans hn') hne
    · exact absurd hn hne
  identities {i j σ τ} hσ hτ heq hne := by
    rcases hnew hσ with ⟨σ₀, hσ₀, -, -, hn, -⟩ | ⟨-, -, hn, -⟩
    · rcases hnew hτ with ⟨τ₀, hτ₀, -, -, hn', -⟩ | ⟨-, -, hn', -⟩
      · exact h.identities hσ₀ hτ₀ (hn ▸ hn' ▸ heq) (hn ▸ hne)
      · exact absurd (heq.trans hn') hne
    · exact absurd hn hne

/-- A session of `startSessions` is old or brand new. -/
theorem getElem?_startSessions {rid count j : Nat} {request : ConsumerRequest}
    (h : (s.startSessions rid request count).sessions[j]? = some σ) :
    s.sessions[j]? = some σ ∨
      (j ∈ (List.range count).map (s.sessions.length + ·) ∧ σ = { request, rid }) := by
  simp only [startSessions] at h
  by_cases hlt : j < s.sessions.length
  · rw [List.getElem?_append_left hlt] at h
    exact Or.inl h
  · rw [List.getElem?_append_right (Nat.le_of_not_lt hlt), List.getElem?_replicate] at h
    split at h
    · rename_i hcount
      refine Or.inr ⟨List.mem_map.mpr ⟨j - s.sessions.length, List.mem_range.mpr hcount, ?_⟩,
        (Option.some.inj h).symm⟩
      omega
    · cases h

/-- **Every step keeps the books.** -/
theorem TaskBook.step (h : s.TaskBook) (hstep : s.step a = some s') : s'.TaskBook := by
  cases step_cases hstep with
  | consumerMetadata requests =>
      exact ⟨h.fresh, h.pending, h.linked, h.created, h.live, h.jobs, h.nonces, h.identities⟩
  | unreachable =>
      exact ⟨h.fresh, h.pending, h.linked, h.created, h.live, h.jobs, h.nonces, h.identities⟩
  | starts =>
      refine h.of_sessions rfl rfl rfl rfl (fun {sid σ} hσ => ?_) fun {sid σ'} hσ' => ?_
      · refine ⟨σ, ?_, rfl⟩
        rw [startSessions, List.getElem?_append_left (List.getElem?_eq_some_iff.mp hσ).1]
        exact hσ
      · rcases getElem?_startSessions hσ' with hσ | ⟨-, rfl⟩
        · exact Or.inl ⟨σ', hσ, rfl, rfl, rfl, rfl⟩
        · exact Or.inr ⟨rfl, rfl, rfl, rfl⟩
  | requestCancelled =>
      exact ⟨h.fresh, h.pending, h.linked, h.created, h.live, h.jobs, h.nonces, h.identities⟩
  | gathered =>
      exact ⟨h.fresh, h.pending, h.linked, h.created, h.live, h.jobs, h.nonces, h.identities⟩
  | session hσ hmove => exact h.apply hσ hmove.follows hmove.names hmove.submits
  | @issue sid chunkId slot σ rest fails hσ hissue =>
      have hbook : { s with receiverSlots := rest : Consumer }.TaskBook :=
        ⟨h.fresh, h.pending, h.linked, h.created, h.live, h.jobs, h.nonces, h.identities⟩
      obtain ⟨hfollows, hnames⟩ := ConsumerSession.issueChunk_follows (σ := σ)
      refine hbook.apply hσ hfollows (Or.inl hnames) fun hsub => ?_
      unfold ConsumerSession.issueChunk at hsub
      cases fails <;> cases hsub
  | @jobDone job result hjob =>
      have hnone := h.pending hjob
      refine ⟨fun id hid => ?_, fun {id} hid => ?_, fun hsub => ?_, h.created, h.live, h.jobs,
        h.nonces, h.identities⟩
      · have hold := h.fresh id hid
        have hne : id ≠ job := by
          rintro rfl
          rw [hold.1] at hjob
          cases hjob
        simpa [Function.update_of_ne hne] using hold
      · have hne : id ≠ job := by
          rintro rfl
          simp at hid
        simp only [Function.update_of_ne hne] at hid ⊢
        exact h.pending hid
      · obtain ⟨sid, σ, i, task, hσ, hi, hj, hans⟩ := h.linked hsub
        refine ⟨sid, σ, i, task, hσ, hi, hj, hans.imp_right ?_⟩
        rintro ⟨how, hpos, hreturned⟩
        refine ⟨how, hpos, fun hret => ?_⟩
        -- The answer the task returned on was there before.
        obtain ⟨old, hold, hok⟩ := hreturned hret
        refine ⟨old, (Function.update_of_ne ?_ _ _).trans hold, hok⟩
        rintro rfl
        rw [hnone] at hold
        cases hold
  | shutdown =>
      refine h.of_sessions rfl rfl rfl rfl (fun {sid σ} hσ => ?_) fun {sid σ'} hσ' => ?_
      · simp only [Consumer.shutdown, List.getElem?_map, hσ, Option.map_some]
        refine ⟨_, rfl, ?_⟩
        split <;> rfl
      · simp only [Consumer.shutdown, List.getElem?_map, Option.map_eq_some_iff] at hσ'
        obtain ⟨σ, hσ, rfl⟩ := hσ'
        refine Or.inl ⟨σ, hσ, ?_⟩
        split <;> exact ⟨rfl, rfl, rfl, rfl⟩

theorem start_taskBook (init : InitMessage) : (start init).TaskBook where
  fresh _ _ := ⟨rfl, rfl, rfl⟩
  pending hid := by cases hid
  linked hid := by cases hid
  created hσ := by simp [start] at hσ
  live hσ := by simp [start] at hσ
  jobs hσ := by simp [start] at hσ
  nonces {_ _ _ _} hσ := by simp [start] at hσ
  identities {_ _ _ _} hσ := by simp [start] at hσ

end Consumer

end KVServe.Session
