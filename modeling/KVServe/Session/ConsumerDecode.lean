import KVServe.Session.ConsumerTasks

/-!
# KVServe.Session.ConsumerDecode

**What an empty `failed_blocks` means.** A session that returns the empty set
must have decoded every chunk. `DecodeInv` follows the decode tasks through the
reply loop, the gather and the `finally` block: a task that has not returned
stays in `decode_tasks` until the session has read its result.

That holds as long as `decode_tasks.discard`, the first done-callback of a
decode task, does not run for a failed task while the session is in its reply
loop or waits for the cancelled `recv_task` (`Attentive`). If it does, the test
`task in decode_tasks` skips the result and the error is lost.
-/

namespace KVServe.Session

namespace ConsumerSession

variable {σ : ConsumerSession} {out : Outcome} {nextJob : Nat} {turn : Turn}

/-- The chunks a decode task was created for, in order. -/
def chunkIds (σ : ConsumerSession) : List Nat := σ.decodes.map (·.job.chunkId)

/-- The first chunk `issue_all` has not issued. -/
def issueNext (σ : ConsumerSession) : Nat :=
  match σ.issue with
  | .running chunkId => chunkId
  | _ => σ.totalChunks

/-- Every chunk of the session was decoded without an error. -/
structure AllDecoded (σ : ConsumerSession) : Prop where
  returned : ∀ {i : Nat} {task : DecodeTask}, σ.decodes[i]? = some task →
    task.pos = .finished .returned
  chunks : σ.chunkIds.Perm (List.range σ.totalChunks)

/-- A session reports all its blocks, or has decoded all its chunks. -/
def Verdict (σ : ConsumerSession) (out : Outcome) : Prop :=
  out = .returned (allBlocks σ.request.localBlockIds) ∨ (out = .returned ∅ ∧ σ.AllDecoded)

/-- A task that has not returned is in `decode_tasks`. -/
def Attends (σ : ConsumerSession) : Prop :=
  ∀ {i : Nat} {task : DecodeTask}, σ.decodes[i]? = some task →
    task.pos ≠ .finished .returned → task.tracked = true

/-- The part of `DecodeInv` that does not depend on where the session stands. -/
structure DecodeCore (σ : ConsumerSession) : Prop where
  uncancelled : σ.cancelRequested = false
  counted : σ.completed = σ.decodes.length
  /-- No chunk is in flight twice, or in flight and decoded. -/
  chunks : (σ.chunkIds ++ σ.inflight.map (·.1)).Nodup
  bound : ∀ c ∈ σ.chunkIds ++ σ.inflight.map (·.1), c < σ.issueNext
  issuing : ∀ chunkId, σ.issue = .running chunkId → chunkId < σ.totalChunks
  alive : ∀ {i : Nat} {task : DecodeTask}, σ.decodes[i]? = some task →
    task.pos ≠ .finished .cancelled

/-- What a session maintains about its decode tasks. -/
structure DecodeInv (σ : ConsumerSession) : Prop extends DecodeCore σ where
  opening : (σ.pos = .created ∨ ∃ got, σ.pos = .opening got) →
    σ.decodes = [] ∧ σ.inflight = [] ∧ σ.issue = .absent ∧ σ.totalChunks = 0
  attentive : ((∃ waited woken, σ.pos = .waiting waited woken) ∨ σ.pos = .stopRecv) → Attends σ
  stopping : σ.pos = .stopRecv → σ.totalChunks ≤ σ.completed
  gathering : ∀ {tasks : List Nat}, σ.pos = .gatherDecode tasks → σ.totalChunks ≤ σ.completed ∧
    ∀ {i : Nat} {task : DecodeTask}, σ.decodes[i]? = some task →
      task.pos ≠ .finished .returned → i ∈ tasks
  verdict : ∀ {out : Outcome}, σ.pos.outcome? = some out → σ.Verdict out

theorem issueNext_le (h : DecodeCore σ) : σ.issueNext ≤ σ.totalChunks := by
  unfold issueNext
  split
  · rename_i chunkId hissue
    exact (h.issuing chunkId hissue).le
  · exact le_rfl

/-- All replies are in and every decode task has returned. -/
theorem DecodeCore.allDecoded (h : DecodeCore σ) (hcount : σ.totalChunks ≤ σ.completed)
    (hreturned : ∀ {i : Nat} {task : DecodeTask}, σ.decodes[i]? = some task →
      task.pos = .finished .returned) : σ.AllDecoded := by
  refine ⟨hreturned, ?_⟩
  have hnodup : σ.chunkIds.Nodup := (List.nodup_append.mp h.chunks).1
  have hsub : σ.chunkIds ⊆ List.range σ.totalChunks := by
    intro c hc
    have := h.bound c (List.mem_append_left _ hc)
    have := issueNext_le h
    exact List.mem_range.mpr (by omega)
  refine (List.subperm_of_subset hnodup hsub).perm_of_length_le ?_
  rw [List.length_range, chunkIds, List.length_map, ← h.counted]
  exact hcount

/-- A session at an `await` of its body that makes no promise. -/
theorem DecodeCore.decodeInv (h : DecodeCore σ) (hcreated : σ.pos ≠ .created)
    (hopening : ∀ got, σ.pos ≠ .opening got) (hwaiting : ∀ waited woken, σ.pos ≠ .waiting waited woken)
    (hstop : σ.pos ≠ .stopRecv) (hgather : ∀ tasks, σ.pos ≠ .gatherDecode tasks)
    (hverdict : ∀ {out : Outcome}, σ.pos.outcome? = some out → σ.Verdict out) : DecodeInv σ where
  toDecodeCore := h
  opening hpos := by
    rcases hpos with hpos | ⟨got, hpos⟩
    · exact absurd hpos hcreated
    · exact absurd hpos (hopening got)
  attentive hpos := by
    rcases hpos with ⟨waited, woken, hpos⟩ | hpos
    · exact absurd hpos (hwaiting waited woken)
    · exact absurd hpos hstop
  stopping hpos := absurd hpos hstop
  gathering hpos := absurd hpos (hgather _)
  verdict := hverdict

/-! ### The `finally` block -/

theorem AllDecoded.of_eq {σ' : ConsumerSession} (h : AllDecoded σ)
    (hdecodes : σ'.decodes = σ.decodes) (htotal : σ'.totalChunks = σ.totalChunks) :
    AllDecoded σ' := by
  refine ⟨by rw [hdecodes]; exact h.returned, ?_⟩
  rw [chunkIds, hdecodes, htotal]
  exact h.chunks

theorem Verdict.of_eq {σ' : ConsumerSession} (h : Verdict σ out)
    (hdecodes : σ'.decodes = σ.decodes) (htotal : σ'.totalChunks = σ.totalChunks)
    (hrequest : σ'.request = σ.request) : Verdict σ' out := by
  rcases h with h | ⟨h, hall⟩
  · exact Or.inl (by rw [hrequest]; exact h)
  · exact Or.inr ⟨h, hall.of_eq hdecodes htotal⟩

/-- Fewer chunks in flight and an issue task that is no further behind. -/
theorem DecodeCore.mono {σ' : ConsumerSession} (h : DecodeCore σ)
    (hcancel : σ'.cancelRequested = false) (hdecodes : σ'.decodes = σ.decodes)
    (hcompleted : σ'.completed = σ.completed) (htotal : σ'.totalChunks = σ.totalChunks)
    (hinflight : σ'.inflight = σ.inflight ∨ σ'.inflight = [])
    (hissue : σ'.issue = σ.issue ∨ ∀ chunkId, σ'.issue ≠ .running chunkId) : DecodeCore σ' := by
  have hsub : (σ'.chunkIds ++ σ'.inflight.map (·.1)).Sublist
      (σ.chunkIds ++ σ.inflight.map (·.1)) := by
    rw [chunkIds, hdecodes]
    rcases hinflight with hinflight | hinflight
    · rw [hinflight]; exact List.Sublist.refl _
    · rw [hinflight]; simp [chunkIds]
  have hnext : σ.issueNext ≤ σ'.issueNext := by
    rcases hissue with hissue | hissue
    · rw [issueNext, issueNext, hissue, htotal]
    · have hle := issueNext_le h
      have : σ'.issueNext = σ'.totalChunks := by
        unfold issueNext
        split
        · rename_i chunkId hrun
          exact absurd hrun (hissue chunkId)
        · rfl
      rw [this, htotal]
      exact hle
  exact {
    uncancelled := hcancel
    counted := by rw [hcompleted, hdecodes]; exact h.counted
    chunks := h.chunks.sublist hsub
    bound := fun c hc => lt_of_lt_of_le (h.bound c (hsub.subset hc)) hnext
    issuing := fun chunkId hrun => by
      rcases hissue with hissue | hissue
      · rw [htotal]; exact h.issuing chunkId (hissue ▸ hrun)
      · exact absurd hrun (hissue chunkId)
    alive := by rw [hdecodes]; exact h.alive }

theorem Tidied.decodeInv (h : DecodeCore σ) (hverdict : Verdict σ out)
    (hturn : Tidied σ out turn) : DecodeInv turn.session := by
  have hsame := hturn.same
  have hpos := hturn.pos
  have hcore : DecodeCore turn.session := by
    refine h.mono ?_ ?_ ?_ ?_ ?_ ?_
    · rw [hsame]; exact h.uncancelled
    · rw [hsame]
    · rw [hsame]
    · rw [hsame]
    · exact hturn.inflight.imp id And.left
    · rcases hturn.issue with hissue | ⟨-, hissue⟩
      · exact Or.inl hissue
      · exact Or.inr fun chunkId => by rw [hissue]; simp
  refine hcore.decodeInv ?_ ?_ ?_ ?_ ?_ ?_
  · intro heq; rw [heq] at hpos; cases hpos
  · intro _ heq; rw [heq] at hpos; cases hpos
  · intro _ _ heq; rw [heq] at hpos; cases hpos
  · intro heq; rw [heq] at hpos; cases hpos
  · intro _ heq; rw [heq] at hpos; cases hpos
  · intro out' hout'
    obtain rfl := Option.some.inj (hpos.symm.trans hout')
    exact hverdict.of_eq (by rw [hsame]) (by rw [hsame]) (by rw [hsame])

/-! ### The body -/

theorem chunkIds_modifyDecode {i : Nat} {f : DecodeTask → DecodeTask}
    (hjob : ∀ task, (f task).job = task.job) : (σ.modifyDecode i f).chunkIds = σ.chunkIds := by
  unfold chunkIds modifyDecode
  refine List.ext_getElem? fun j => ?_
  rw [List.getElem?_map, List.getElem?_map]
  by_cases hj : i = j
  · subst hj
    cases hi : σ.decodes[i]? with
    | none => simp [hi]
    | some task => rw [getElem?_modify_self hi]; simp [hjob]
  · rw [getElem?_modify_ne hj]

theorem DecodeCore.modifyDecode (h : DecodeCore σ) {i : Nat} {f : DecodeTask → DecodeTask}
    (hjob : ∀ task, (f task).job = task.job)
    (halive : ∀ task, σ.decodes[i]? = some task → (f task).pos ≠ .finished .cancelled) :
    DecodeCore (σ.modifyDecode i f) where
  uncancelled := h.uncancelled
  counted := by simpa [ConsumerSession.modifyDecode] using h.counted
  chunks := by rw [chunkIds_modifyDecode hjob]; exact h.chunks
  bound := by rw [chunkIds_modifyDecode hjob]; exact h.bound
  issuing := h.issuing
  alive {j task} hj := by
    rcases getElem?_modify_some hj with ⟨rfl, old, hold, rfl⟩ | ⟨-, hold⟩
    · exact halive old hold
    · exact h.alive hold

theorem DecodeCore.acceptChunk (h : DecodeCore σ) {ready : CompressionChunkReady} {slot : Nat}
    (hslot : σ.inflight.lookup ready.chunkId = some slot) :
    DecodeCore (σ.acceptChunk ready slot) := by
  have hids : (σ.acceptChunk ready slot).chunkIds = σ.chunkIds ++ [ready.chunkId] := by
    simp [chunkIds, ConsumerSession.acceptChunk, decodeJob]
  have hmem : ready.chunkId ∈ σ.inflight.map (·.1) := by
    rw [List.lookup_eq_some_iff] at hslot
    obtain ⟨l₁, l₂, heq, -⟩ := hslot
    rw [heq]
    simp
  obtain ⟨hids_nodup, hkeys, hdisj⟩ := List.nodup_append.mp h.chunks
  have hsub : (σ.inflight.filter (·.1 ≠ ready.chunkId)).map (·.1) ⊆ σ.inflight.map (·.1) :=
    (List.filter_sublist.map _).subset
  have hne : ready.chunkId ∉ (σ.inflight.filter (·.1 ≠ ready.chunkId)).map (·.1) := by
    simp
  refine ⟨h.uncancelled, ?_, ?_, ?_, h.issuing, ?_⟩
  · simp [ConsumerSession.acceptChunk, h.counted]
  · rw [hids]
    refine List.nodup_append.mpr ⟨?_, hkeys.sublist (List.filter_sublist.map _), ?_⟩
    · refine List.nodup_append.mpr ⟨hids_nodup, List.nodup_singleton _, ?_⟩
      intro c hc c' hc' heq
      obtain rfl := List.mem_singleton.mp hc'
      exact hdisj c hc _ hmem heq
    · intro c hc c' hc' heq
      rcases List.mem_append.mp hc with hc | hc
      · exact hdisj c hc c' (hsub hc') heq
      · obtain rfl := List.mem_singleton.mp hc
        subst heq
        exact hne hc'
  · intro c hc
    rw [hids] at hc
    have hold : c ∈ σ.chunkIds ++ σ.inflight.map (·.1) := by
      rcases List.mem_append.mp hc with hc | hc
      · rcases List.mem_append.mp hc with hc | hc
        · exact List.mem_append_left _ hc
        · rw [List.mem_singleton.mp hc]
          exact List.mem_append_right _ hmem
      · exact List.mem_append_right _ (hsub hc)
    exact h.bound c hold
  · intro i task hi
    rcases getElem?_append_some hi with hold | ⟨-, rfl⟩
    · exact h.alive hold
    · simp

theorem DecodeCore.reframe {σ' : ConsumerSession} (h : DecodeCore σ)
    (hcancel : σ'.cancelRequested = σ.cancelRequested) (hdecodes : σ'.decodes = σ.decodes)
    (hcompleted : σ'.completed = σ.completed) (htotal : σ'.totalChunks = σ.totalChunks)
    (hinflight : σ'.inflight = σ.inflight) (hissue : σ'.issue = σ.issue) : DecodeCore σ' :=
  h.mono (hcancel.trans h.uncancelled) hdecodes hcompleted htotal (Or.inl hinflight)
    (Or.inl hissue)

/-- Reading a reply keeps the books, and a new decode task is in `decode_tasks`. -/
theorem takeReply_decode {σ₁ : ConsumerSession} {reason : Option String} (h : DecodeCore σ)
    (hreply : σ.takeReply = (σ₁, reason)) : DecodeCore σ₁ ∧ (Attends σ → Attends σ₁) := by
  have hframe : DecodeCore { σ with recvTask := .created } := by
    refine h.reframe ?_ ?_ ?_ ?_ ?_ ?_ <;> rfl
  obtain rfl : σ.takeReply.1 = σ₁ := congrArg Prod.fst hreply
  unfold takeReply
  split
  · exact ⟨h, id⟩
  · dsimp only
    split
    · split
      · exact ⟨hframe, fun ha => ha⟩
      · split
        · rename_i hslot
          refine ⟨hframe.acceptChunk hslot, fun ha {i task} hi hpos => ?_⟩
          rcases getElem?_append_some hi with hold | ⟨-, rfl⟩
          · exact ha hold hpos
          · rfl
        · exact ⟨hframe, fun ha => ha⟩
    · exact ⟨hframe, fun ha => ha⟩
  · exact ⟨h, id⟩

theorem takeIssue_decode {σ₁ : ConsumerSession} {reason : Option String} (h : DecodeCore σ)
    (hissue : σ.takeIssue = (σ₁, reason)) : DecodeCore σ₁ ∧ (Attends σ → Attends σ₁) := by
  obtain rfl : σ.takeIssue.1 = σ₁ := congrArg Prod.fst hissue
  unfold takeIssue
  split
  · refine ⟨h.mono h.uncancelled rfl rfl rfl (Or.inl rfl) (Or.inr fun chunkId => by simp), ?_⟩
    exact fun ha => ha
  · exact ⟨h, id⟩
  · exact ⟨h, id⟩

theorem DecodeCore.untrack (h : DecodeCore σ) (i : Nat) : DecodeCore (σ.untrack i) :=
  h.modifyDecode (fun _ => rfl) fun _ hi hpos => h.alive hi hpos

/-- Taking a returned task out of `decode_tasks`. -/
theorem Attends.untrack (ha : Attends σ) {i : Nat}
    (hreturned : ∀ task, σ.decodes[i]? = some task → task.pos = .finished .returned) :
    Attends (σ.untrack i) := by
  intro j task hj hpos
  rcases getElem?_modify_some hj with ⟨rfl, old, hold, rfl⟩ | ⟨-, hold⟩
  · exact absurd (hreturned old hold) hpos
  · exact ha hold hpos

/-- If no result raises, every task taken out had returned. -/
theorem takeDecodes_decode {σ₁ : ConsumerSession} {waited : List Nat} {reason : Option String}
    (h : DecodeCore σ) (hdecodes : σ.takeDecodes waited = (σ₁, reason)) :
    DecodeCore σ₁ ∧ (reason = none → Attends σ → Attends σ₁) := by
  induction waited generalizing σ with
  | nil =>
      obtain ⟨rfl, rfl⟩ := Prod.mk.inj hdecodes
      exact ⟨h, fun _ ha => ha⟩
  | cons i rest ih =>
      rw [takeDecodes] at hdecodes
      split at hdecodes
      · obtain ⟨rfl, rfl⟩ := Prod.mk.inj hdecodes
        exact ⟨h.untrack i, fun hnone => by cases hnone⟩
      · rename_i how hraised hi
        obtain ⟨hcore, hattends⟩ := ih (h.untrack i) hdecodes
        refine ⟨hcore, fun hnone ha => hattends hnone (ha.untrack fun task htask => ?_)⟩
        obtain rfl := Option.some.inj (hi.symm.trans htask)
        cases how with
        | returned => rfl
        | raised message => exact absurd rfl (hraised message)
        | cancelled => exact absurd rfl (h.alive hi)
      · exact ih h hdecodes

theorem sendAbort_decodeInv (h : DecodeCore σ) (reason : String) :
    DecodeInv (σ.sendAbort reason).session := by
  obtain ⟨got, hpos⟩ : ∃ got, (σ.sendAbort reason).session.pos = .aborting got := by
    unfold sendAbort callRecv
    split
    · exact ⟨_, rfl⟩
    · exact ⟨_, rfl⟩
  have hcore : DecodeCore (σ.sendAbort reason).session := by
    unfold sendAbort callRecv
    split <;> (refine h.reframe ?_ ?_ ?_ ?_ ?_ ?_ <;> rfl)
  refine hcore.decodeInv ?_ ?_ ?_ ?_ ?_ ?_ <;> simp [hpos, SessionAt.outcome?]

theorem loopHead_decodeInv (h : DecodeCore σ) (ha : Attends σ) : DecodeInv σ.loopHead := by
  unfold loopHead
  split
  · exact {
      toDecodeCore := by refine h.reframe ?_ ?_ ?_ ?_ ?_ ?_ <;> rfl
      opening := fun hpos => by rcases hpos with hpos | ⟨_, hpos⟩ <;> cases hpos
      attentive := fun _ => ha
      stopping := fun hpos => by cases hpos
      gathering := fun hpos => by cases hpos
      verdict := fun hpos => by cases hpos }
  · rename_i hdone
    exact {
      toDecodeCore := by
        rw [cancelRecv_eq]
        refine h.reframe ?_ ?_ ?_ ?_ ?_ ?_ <;> rfl
      opening := fun hpos => by rcases hpos with hpos | ⟨_, hpos⟩ <;> cases hpos
      attentive := fun _ => by rw [cancelRecv_eq]; exact ha
      stopping := fun _ => by rw [cancelRecv_eq]; exact Nat.le_of_not_lt hdone
      gathering := fun hpos => by cases hpos
      verdict := fun hpos => by cases hpos }

theorem startTasks_decode (h : DecodeInv σ) {got : Option (Option CompressionResponse)}
    (hpos : σ.pos = .opening got) {response : CompressionSessionOpened}
    (hchunks : response.totalChunks ≠ 0) :
    DecodeCore (σ.startTasks response) ∧ Attends (σ.startTasks response) := by
  obtain ⟨hdecodes, hinflight, -, -⟩ := h.opening (Or.inr ⟨got, hpos⟩)
  refine ⟨⟨h.uncancelled, h.counted, h.chunks, ?_, ?_, h.alive⟩, fun {i task} hi => ?_⟩
  · simp [chunkIds, startTasks, hdecodes, hinflight]
  · intro chunkId hissue
    obtain rfl : 0 = chunkId := by simpa [startTasks] using hissue
    exact Nat.pos_of_ne_zero hchunks
  · simp [startTasks, hdecodes] at hi

theorem firstError_none {tasks : List Nat} (h : σ.firstError tasks = none) {i : Nat}
    (hi : i ∈ tasks) (message : String) : σ.decodeEnd i ≠ some (.raised message) := by
  intro hend
  have := List.findSome?_eq_none_iff.mp h i hi
  simp [hend] at this

/-- **A run of a session keeps the invariant.** -/
theorem Resumes.decodeInv (h : DecodeInv σ) (hturn : Resumes σ nextJob turn) :
    DecodeInv turn.session := by
  have hcore := h.toDecodeCore
  cases hturn with
  | openFails reason => exact sendAbort_decodeInv hcore reason
  | openEmpty hpos =>
      obtain ⟨hdecodes, -, -, htotal⟩ := h.opening (Or.inr ⟨_, hpos⟩)
      refine enterFinally_tidied.decodeInv hcore (Or.inr ⟨rfl, ?_⟩)
      refine hcore.allDecoded (by omega) fun {i task} hi => ?_
      simp [hdecodes] at hi
  | openStarts hpos hchunks =>
      obtain ⟨hstart, hattends⟩ := startTasks_decode h hpos hchunks
      exact loopHead_decodeInv hstart hattends
  | replyFails reason _ hreply =>
      exact sendAbort_decodeInv (takeReply_decode hcore hreply).1 reason
  | issueFails reason _ hreply hissue =>
      exact sendAbort_decodeInv
        (takeIssue_decode (takeReply_decode hcore hreply).1 hissue).1 reason
  | decodeFails reason _ hreply hissue hdecodes =>
      exact sendAbort_decodeInv (takeDecodes_decode
        (takeIssue_decode (takeReply_decode hcore hreply).1 hissue).1 hdecodes).1 reason
  | loops hpos hreply hissue hdecodes =>
      obtain ⟨hcore₁, ha₁⟩ := takeReply_decode hcore hreply
      obtain ⟨hcore₂, ha₂⟩ := takeIssue_decode hcore₁ hissue
      obtain ⟨hcore₃, ha₃⟩ := takeDecodes_decode hcore₂ hdecodes
      exact loopHead_decodeInv hcore₃ (ha₃ rfl (ha₂ (ha₁ (h.attentive (Or.inl ⟨_, _, hpos⟩)))))
  | stops hpos hnone =>
      -- Nothing is left in `decode_tasks`, so every decode task has returned.
      have hall : σ.AllDecoded := by
        refine hcore.allDecoded (h.stopping hpos) fun {i task} hi => ?_
        by_contra hfail
        have htracked := h.attentive (Or.inr hpos) hi hfail
        have hmem := mem_decodeTasks.mpr ⟨task, hi, htracked⟩
        rw [hnone] at hmem
        cases hmem
      refine Tidied.decodeInv (σ := { σ with recvTask := .absent }) ?_
        (Or.inr ⟨rfl, hall.of_eq rfl rfl⟩) enterFinally_tidied
      refine hcore.reframe ?_ ?_ ?_ ?_ ?_ ?_ <;> rfl
  | gathers hpos =>
      exact {
        toDecodeCore := by refine hcore.reframe ?_ ?_ ?_ ?_ ?_ ?_ <;> rfl
        opening := fun hp => by rcases hp with hp | ⟨_, hp⟩ <;> cases hp
        attentive := fun hp => by rcases hp with ⟨_, _, hp⟩ | hp <;> cases hp
        stopping := fun hp => by cases hp
        gathering := fun hp => by
          cases hp
          refine ⟨h.stopping hpos, fun {i task} hi hfail => ?_⟩
          exact mem_decodeTasks.mpr ⟨task, hi, h.attentive (Or.inr hpos) hi hfail⟩
        verdict := fun hp => by cases hp }
  | gatherFails reason => exact sendAbort_decodeInv hcore reason
  | gatherDone hpos herr hdone =>
      -- Every task of the gather is done and none of them has raised.
      obtain ⟨hcount, hmem⟩ := h.gathering hpos
      refine enterFinally_tidied.decodeInv hcore (Or.inr ⟨rfl, ?_⟩)
      refine hcore.allDecoded hcount fun {i task} hi => ?_
      by_contra hfail
      have hin := hmem hi hfail
      have hend := List.all_eq_true.mp hdone i hin
      obtain ⟨job, pos, tracked⟩ := task
      cases pos with
      | finished how =>
          cases how with
          | returned => exact hfail rfl
          | raised message => exact firstError_none herr hin message (by simp [decodeEnd, hi])
          | cancelled => exact hcore.alive hi rfl
      | _ => simp [decodeEnd, hi] at hend
  | @aborted message hpos =>
      refine Tidied.decodeInv (σ := { σ with acked := σ.isAck message }) ?_ (Or.inl rfl)
        enterFinally_tidied
      refine hcore.reframe ?_ ?_ ?_ ?_ ?_ ?_ <;> rfl
  | finIssue hpos => exact afterIssue_tidied.decodeInv hcore (h.verdict (by rw [hpos]; rfl))
  | finRecv hpos => exact afterRecv_tidied.decodeInv hcore (h.verdict (by rw [hpos]; rfl))
  | finDecode hpos => exact afterDecode_tidied.decodeInv hcore (h.verdict (by rw [hpos]; rfl))
  | finDrain hpos => exact finish_tidied.decodeInv hcore (h.verdict (by rw [hpos]; rfl))

/-! ### The other tasks of a session -/

/-- The same `await`; only what was received or whether it was woken differs. -/
inductive SameAwait : SessionAt → SessionAt → Prop
  | refl {pos : SessionAt} : SameAwait pos pos
  | opening {got got' : Option (Option CompressionResponse)} :
      SameAwait (.opening got) (.opening got')
  | waiting {waited : List Nat} {woken woken' : Bool} :
      SameAwait (.waiting waited woken) (.waiting waited woken')
  | aborting {got got' : Option (Option CompressionResponse)} :
      SameAwait (.aborting got) (.aborting got')

/-- Nothing the invariant speaks about changes. -/
theorem DecodeInv.frame {σ' : ConsumerSession} (h : DecodeInv σ)
    (hcancel : σ'.cancelRequested = σ.cancelRequested) (hdecodes : σ'.decodes = σ.decodes)
    (hcompleted : σ'.completed = σ.completed) (htotal : σ'.totalChunks = σ.totalChunks)
    (hinflight : σ'.inflight = σ.inflight) (hissue : σ'.issue = σ.issue)
    (hrequest : σ'.request = σ.request) (hpos : SameAwait σ.pos σ'.pos) : DecodeInv σ' := by
  have hattends : Attends σ → Attends σ' := by
    intro ha i task hi
    exact ha (hdecodes ▸ hi)
  refine ⟨h.reframe hcancel hdecodes hcompleted htotal hinflight hissue, ?_, ?_, ?_, ?_, ?_⟩
  · intro hp
    rw [hdecodes, hinflight, hissue, htotal]
    refine h.opening ?_
    generalize σ.pos = pos, σ'.pos = pos' at hpos hp
    cases hpos with
    | refl => exact hp
    | opening => exact Or.inr ⟨_, rfl⟩
    | waiting => rcases hp with hp | ⟨_, hp⟩ <;> cases hp
    | aborting => rcases hp with hp | ⟨_, hp⟩ <;> cases hp
  · intro hp
    refine hattends (h.attentive ?_)
    generalize σ.pos = pos, σ'.pos = pos' at hpos hp
    cases hpos with
    | refl => exact hp
    | opening => rcases hp with ⟨_, _, hp⟩ | hp <;> cases hp
    | waiting => exact Or.inl ⟨_, _, rfl⟩
    | aborting => rcases hp with ⟨_, _, hp⟩ | hp <;> cases hp
  · intro hp
    rw [htotal, hcompleted]
    refine h.stopping ?_
    rw [hp] at hpos
    generalize σ.pos = pos at hpos ⊢
    cases hpos with
    | refl => rfl
  · intro tasks hp
    rw [htotal, hcompleted, hdecodes]
    refine h.gathering ?_
    rw [hp] at hpos
    generalize σ.pos = pos at hpos ⊢
    cases hpos with
    | refl => rfl
  · intro out hp
    refine (h.verdict ?_).of_eq hdecodes htotal hrequest
    generalize σ.pos = pos, σ'.pos = pos' at hpos hp ⊢
    cases hpos with
    | refl => exact hp
    | opening => cases hp
    | waiting => cases hp
    | aborting => cases hp

theorem answer_decodeInv (h : DecodeInv σ) (waiter : Waiter)
    (message : Option CompressionResponse) : DecodeInv (σ.answer waiter message) := by
  unfold answer
  split
  · exact h.frame rfl rfl rfl rfl rfl rfl rfl .refl
  · split
    · rename_i hpos
      exact h.frame rfl rfl rfl rfl rfl rfl rfl (by rw [hpos]; exact .opening)
    · rename_i hpos
      exact h.frame rfl rfl rfl rfl rfl rfl rfl (by rw [hpos]; exact .aborting)
    · exact h

theorem arrive_decodeInv (h : DecodeInv σ) (response : CompressionResponse) :
    DecodeInv (σ.arrive response) := by
  unfold arrive
  split
  · exact h
  · split
    · rename_i waiter rest _
      have hpop : DecodeInv { σ with waiters := rest } :=
        h.frame rfl rfl rfl rfl rfl rfl rfl .refl
      exact answer_decodeInv hpop _ _
    · exact h.frame rfl rfl rfl rfl rfl rfl rfl .refl

theorem expireRecv_decodeInv {σ' : ConsumerSession} {waiter : Waiter} (h : DecodeInv σ)
    (hσ' : σ.expireRecv waiter = some σ') : DecodeInv σ' := by
  unfold expireRecv at hσ'
  split at hσ'
  · obtain rfl := Option.some.inj hσ'
    have hpop : DecodeInv { σ with waiters := σ.waiters.erase waiter } :=
      h.frame rfl rfl rfl rfl rfl rfl rfl .refl
    exact answer_decodeInv hpop _ _
  · cases hσ'

theorem startRecv_decodeInv {σ' : ConsumerSession} (h : DecodeInv σ)
    (hσ' : σ.startRecv = some σ') : DecodeInv σ' := by
  unfold startRecv at hσ'
  split at hσ'
  · obtain rfl := Option.some.inj hσ'
    exact h.frame rfl rfl rfl rfl rfl rfl rfl .refl
  · obtain rfl := Option.some.inj hσ'
    exact h.frame rfl rfl rfl rfl rfl rfl rfl .refl
  · cases hσ'

theorem notify_decodeInv (h : DecodeInv σ) (task : Awaited) : DecodeInv (σ.notify task) := by
  unfold notify
  split
  · rename_i hpos
    split
    · exact h.frame rfl rfl rfl rfl rfl rfl rfl (by rw [hpos]; exact .waiting)
    · exact h
  · rename_i hpos _
    exact h.frame rfl rfl rfl rfl rfl rfl rfl (by rw [hpos]; exact .waiting)
  · exact h

/-- The session that the done-callback of a failed decode task must not meet. -/
def InReplyLoop (σ : ConsumerSession) : Prop :=
  (∃ waited woken, σ.pos = .waiting waited woken) ∨ σ.pos = .stopRecv

/-- `decode_tasks.discard`, unless it hides a failed task from the reply loop. -/
theorem untrack_decodeInv (h : DecodeInv σ) {i : Nat} (hdone : (σ.decodeEnd i).isSome = true)
    (hseen : ∀ message, σ.decodeEnd i = some (.raised message) → ¬ σ.InReplyLoop) :
    DecodeInv (σ.untrack i) := by
  have hreturned (hloop : σ.InReplyLoop) (task : DecodeTask) (hi : σ.decodes[i]? = some task) :
      task.pos = .finished .returned := by
    obtain ⟨job, pos, tracked⟩ := task
    cases pos with
    | finished how =>
        cases how with
        | returned => rfl
        | raised message => exact absurd hloop (hseen message (by simp [decodeEnd, hi]))
        | cancelled => exact absurd rfl (h.alive hi)
    | _ => simp [decodeEnd, hi] at hdone
  have hold {j : Nat} {task : DecodeTask} (hj : (σ.untrack i).decodes[j]? = some task) :
      ∃ old, σ.decodes[j]? = some old ∧ old.pos = task.pos := by
    rcases getElem?_modify_some hj with ⟨rfl, old, hold, rfl⟩ | ⟨-, hold⟩
    · exact ⟨old, hold, rfl⟩
    · exact ⟨task, hold, rfl⟩
  refine ⟨h.toDecodeCore.untrack i, ?_, ?_, h.stopping, ?_, ?_⟩
  · intro hp
    obtain ⟨hdecodes, hrest⟩ := h.opening hp
    exact ⟨by simp [untrack, ConsumerSession.modifyDecode, hdecodes], hrest⟩
  · intro hp
    exact Attends.untrack (h.attentive hp) (hreturned hp)
  · intro tasks hp
    obtain ⟨hcount, hmem⟩ := h.gathering hp
    refine ⟨hcount, fun {j task} hj hfail => ?_⟩
    obtain ⟨old, hget, hposeq⟩ := hold hj
    exact hmem hget (hposeq ▸ hfail)
  · intro out hp
    rcases h.verdict hp with hall | ⟨hempty, hall⟩
    · exact Or.inl hall
    · refine Or.inr ⟨hempty, fun {j task} hj => ?_, ?_⟩
      · obtain ⟨old, hget, hposeq⟩ := hold hj
        exact hposeq ▸ hall.returned hget
      · have hids : (σ.untrack i).chunkIds = σ.chunkIds :=
          chunkIds_modifyDecode (f := fun task => { task with tracked := false }) fun _ => rfl
        rw [hids]
        exact hall.chunks

theorem callbacks_decodeInv {σ' : ConsumerSession} {task : Awaited} (h : DecodeInv σ)
    (hseen : ∀ i message, task = .decode i → σ.decodeEnd i = some (.raised message) →
      ¬ σ.InReplyLoop) (hσ' : σ.callbacks task = some σ') : DecodeInv σ' := by
  unfold callbacks at hσ'
  split at hσ'
  · rename_i hdone
    split at hσ'
    · rename_i i
      obtain rfl := Option.some.inj hσ'
      exact notify_decodeInv (untrack_decodeInv h hdone fun message => hseen i message rfl) _
    · obtain rfl := Option.some.inj hσ'
      exact notify_decodeInv h _
  · cases hσ'

/-- A decode task that has not returned moves on. -/
theorem DecodeInv.modifyDecode (h : DecodeInv σ) {i : Nat} {task : DecodeTask}
    (hi : σ.decodes[i]? = some task) (hrun : task.pos.isDone = false)
    {f : DecodeTask → DecodeTask} (hjob : ∀ task, (f task).job = task.job)
    (htracked : (f task).tracked = task.tracked)
    (halive : (f task).pos ≠ .finished .cancelled) : DecodeInv (σ.modifyDecode i f) := by
  have hfail : task.pos ≠ .finished .returned := by
    intro hpos
    rw [hpos] at hrun
    cases hrun
  have hcore : DecodeCore (σ.modifyDecode i f) := by
    refine h.toDecodeCore.modifyDecode hjob fun old hold => ?_
    obtain rfl := Option.some.inj (hi.symm.trans hold)
    exact halive
  refine ⟨hcore, ?_, ?_, h.stopping, ?_, ?_⟩
  · intro hp
    simp [(h.opening hp).1] at hi
  · intro hp j task' hj hfail'
    rcases getElem?_modify_some hj with ⟨rfl, old, hold, rfl⟩ | ⟨-, hold⟩
    · obtain rfl := Option.some.inj (hi.symm.trans hold)
      rw [htracked]
      exact h.attentive hp hi hfail
    · exact h.attentive hp hold hfail'
  · intro tasks hp
    obtain ⟨hcount, hmem⟩ := h.gathering hp
    refine ⟨hcount, fun {j task'} hj hfail' => ?_⟩
    rcases getElem?_modify_some hj with ⟨rfl, old, hold, rfl⟩ | ⟨-, hold⟩
    · exact hmem hi hfail
    · exact hmem hold hfail'
  · intro out hp
    rcases h.verdict hp with hall | ⟨-, hall⟩
    · exact Or.inl hall
    · exact absurd (hall.returned hi) hfail

theorem startDecode_decodeInv {i : Nat} (h : DecodeInv σ)
    (hturn : σ.startDecode i nextJob = some turn) : DecodeInv turn.session := by
  unfold startDecode at hturn
  split at hturn
  · rename_i hi
    obtain rfl := Option.some.inj hturn
    exact h.modifyDecode hi rfl (fun _ => rfl) rfl (by simp)
  · cases hturn

theorem finishDecode_decodeInv {i : Nat} {futures : Nat → Option JobDone} (h : DecodeInv σ)
    (hturn : σ.finishDecode i futures = some turn) : DecodeInv turn.session := by
  unfold finishDecode at hturn
  split at hturn
  · rename_i hi
    obtain ⟨result, -, rfl⟩ := Option.map_eq_some_iff.mp hturn
    split
    · exact h.modifyDecode hi rfl (fun _ => rfl) rfl (by simp)
    · refine DecodeInv.frame (σ := σ.endDecode i .returned) ?_ rfl rfl rfl rfl rfl rfl rfl .refl
      exact h.modifyDecode hi rfl (fun _ => rfl) rfl (by simp)
  · cases hturn

theorem decodeTimeout_decodeInv {i : Nat} {futures : Nat → Option JobDone} {σ' : ConsumerSession}
    (h : DecodeInv σ) (hσ' : σ.decodeTimeout i futures = some σ') : DecodeInv σ' := by
  unfold decodeTimeout at hσ'
  split at hσ'
  · rename_i hi
    split at hσ'
    · obtain rfl := Option.some.inj hσ'
      exact h.modifyDecode hi rfl (fun _ => rfl) rfl (by simp)
    · cases hσ'
  · cases hσ'

theorem start_decodeInv {init : InitMessage} {nonce : Nonce} {identity : Identity}
    (h : DecodeInv σ) (hpos : σ.pos = .created) :
    DecodeInv (σ.start init nonce identity).session := by
  have hopen := h.opening (Or.inl hpos)
  unfold start callRecv
  dsimp only
  split <;> exact {
    toDecodeCore := by refine h.reframe ?_ ?_ ?_ ?_ ?_ ?_ <;> rfl
    opening := fun _ => hopen
    attentive := fun hp => by rcases hp with ⟨_, _, hp⟩ | hp <;> cases hp
    stopping := fun hp => by cases hp
    gathering := fun hp => by cases hp
    verdict := fun hp => by cases hp }

/-- `issue_all` issues chunks in order, each once. -/
theorem issueChunk_decodeInv {init : InitMessage} {chunkId slot : Nat} {fails : Bool}
    (h : DecodeInv σ) (hissue : σ.issue = .running chunkId) :
    DecodeInv (σ.issueChunk init chunkId slot fails).session := by
  have hlt := h.issuing chunkId hissue
  have hnext : σ.issueNext = chunkId := by simp [issueNext, hissue]
  have hbound : ∀ c ∈ σ.chunkIds ++ σ.inflight.map (·.1), c < chunkId := hnext ▸ h.bound
  -- The chunk is not in flight, so nothing is replaced.
  have hfilter : σ.inflight.filter (·.1 ≠ chunkId) = σ.inflight := by
    refine List.filter_eq_self.mpr fun entry hmem => ?_
    have := hbound entry.1 (List.mem_append_right _ (List.mem_map_of_mem hmem))
    simp only [ne_eq, decide_not, Bool.not_eq_eq_eq_not, Bool.not_true, decide_eq_false_iff_not]
    omega
  have hcore {σ' : ConsumerSession} (hcancel : σ'.cancelRequested = σ.cancelRequested)
      (hdecodes : σ'.decodes = σ.decodes) (hcompleted : σ'.completed = σ.completed)
      (htotal : σ'.totalChunks = σ.totalChunks)
      (hinflight : σ'.inflight = (chunkId, slot) :: σ.inflight)
      (hrun : ∀ c, σ'.issue = .running c → c = chunkId + 1 ∧ c < σ.totalChunks) :
      DecodeCore σ' := by
    have hids : σ'.chunkIds = σ.chunkIds := by rw [chunkIds, chunkIds, hdecodes]
    have hperm : (σ'.chunkIds ++ σ'.inflight.map (·.1)).Perm
        (chunkId :: (σ.chunkIds ++ σ.inflight.map (·.1))) := by
      rw [hids, hinflight]
      exact List.perm_middle
    have hlater : chunkId < σ'.issueNext := by
      unfold issueNext
      split
      · rename_i c hc
        have := hrun c hc
        omega
      · omega
    refine ⟨hcancel.trans h.uncancelled, ?_, ?_, ?_, ?_, ?_⟩
    · rw [hcompleted, hdecodes]; exact h.counted
    · refine hperm.nodup_iff.mpr (List.nodup_cons.mpr ⟨fun hmem => ?_, h.chunks⟩)
      exact absurd (hbound chunkId hmem) (lt_irrefl _)
    · intro c hc
      rcases List.mem_cons.mp (hperm.mem_iff.mp hc) with rfl | hmem
      · exact hlater
      · exact lt_trans (hbound c hmem) hlater
    · intro c hc
      rw [htotal]
      exact (hrun c hc).2
    · rw [hdecodes]; exact h.alive
  have hinv {σ' : ConsumerSession} (hσ' : DecodeCore σ') (hdecodes : σ'.decodes = σ.decodes)
      (hcompleted : σ'.completed = σ.completed) (htotal : σ'.totalChunks = σ.totalChunks)
      (hrequest : σ'.request = σ.request) (hpos : σ'.pos = σ.pos) : DecodeInv σ' := by
    refine ⟨hσ', ?_, ?_, ?_, ?_, ?_⟩
    · intro hp
      rw [(h.opening (hpos ▸ hp)).2.2.1] at hissue
      cases hissue
    · intro hp i task hi
      exact h.attentive (hpos ▸ hp) (hdecodes ▸ hi)
    · intro hp
      rw [htotal, hcompleted]
      exact h.stopping (hpos ▸ hp)
    · intro tasks hp
      rw [htotal, hcompleted, hdecodes]
      exact h.gathering (hpos ▸ hp)
    · intro out hp
      exact (h.verdict (hpos ▸ hp)).of_eq hdecodes htotal hrequest
  unfold issueChunk
  dsimp only
  rw [hfilter]
  cases fails
  · refine hinv (hcore ?_ ?_ ?_ ?_ ?_ ?_) ?_ ?_ ?_ ?_ ?_ <;> try rfl
    intro c hc
    simp only [Bool.false_eq_true, if_false] at hc
    split at hc
    · obtain rfl := IssueAt.running.inj hc
      exact ⟨rfl, by assumption⟩
    · cases hc
  · refine hinv (hcore ?_ ?_ ?_ ?_ ?_ ?_) ?_ ?_ ?_ ?_ ?_ <;> try rfl
    intro c hc
    cases hc

/-- Once a session has ended, what it has decoded stays decoded. -/
theorem AllDecoded.follows {σ' : ConsumerSession} {futures : Nat → Option JobDone}
    (h : AllDecoded σ) (hended : σ.pos.isEnded = true) (hfollows : Follows futures nextJob σ σ') :
    AllDecoded σ' := by
  obtain ⟨-, htotal, hlength⟩ := hfollows.ended hended
  have hold {i : Nat} {task : DecodeTask} (hi : σ'.decodes[i]? = some task) :
      ∃ old, σ.decodes[i]? = some old ∧ task.job = old.job ∧ task.pos = old.pos := by
    have hlt : i < σ.decodes.length := hlength ▸ (List.getElem?_eq_some_iff.mp hi).1
    have hget := List.getElem?_eq_getElem hlt
    obtain ⟨task', hi', hjob, hadv⟩ := hfollows.task hget
    obtain rfl := Option.some.inj (hi.symm.trans hi')
    refine ⟨_, hget, hjob, hadv.of_done ?_⟩
    rw [h.returned hget]
    rfl
  refine ⟨fun hi => ?_, ?_⟩
  · obtain ⟨old, hget, -, hpos⟩ := hold hi
    exact hpos.trans (h.returned hget)
  · have hids : σ'.chunkIds = σ.chunkIds := by
      refine List.ext_getElem? fun i => ?_
      rw [chunkIds, chunkIds, List.getElem?_map, List.getElem?_map]
      cases hi : σ'.decodes[i]? with
      | none =>
          rw [List.getElem?_eq_none (by rw [← hlength]; exact List.getElem?_eq_none_iff.mp hi)]
      | some task =>
          obtain ⟨old, hget, hjob, -⟩ := hold hi
          rw [hget, Option.map_some, Option.map_some, hjob]
    rw [hids, htotal]
    exact h.chunks

end ConsumerSession

/-! ### The requests -/

namespace Consumer

variable {s s' : Consumer} {sid : Nat} {σ : ConsumerSession} {turn : Turn} {a : Action}

/-- The steps under which no decode error is lost: the helper is not shut down,
and no failed decode task runs its done-callbacks while its session is in the
reply loop or waits for the cancelled `recv_task`. -/
def Attentive (s : Consumer) (a : Action) : Prop :=
  a ≠ .shutdown ∧ ∀ (sid i : Nat) (σ : ConsumerSession) (message : String),
    a = .callbacks sid (.decode i) → s.sessions[sid]? = some σ →
      σ.decodeEnd i = some (.raised message) → ¬ σ.InReplyLoop

/-- **A step of one session keeps its invariant.** -/
theorem Moves.decodeInv (h : s.Moves sid σ a turn) (hσ : s.sessions[sid]? = some σ)
    (hinv : σ.DecodeInv) (hattentive : s.Attentive a) : turn.session.DecodeInv := by
  cases h with
  | start _ hpos => exact ConsumerSession.start_decodeInv hinv hpos
  | resume _ hturn => exact hturn.decodeInv hinv
  | cancel hcancel =>
      rw [hinv.uncancelled] at hcancel
      cases hcancel
  | startRecv hσ' => exact ConsumerSession.startRecv_decodeInv hinv hσ'
  | callbacks hσ' =>
      refine ConsumerSession.callbacks_decodeInv hinv (fun i message htask hend => ?_) hσ'
      subst htask
      exact hattentive.2 sid i σ message rfl hσ hend
  | startDecode hturn => exact ConsumerSession.startDecode_decodeInv hinv hturn
  | finishDecode hturn => exact ConsumerSession.finishDecode_decodeInv hinv hturn
  | decodeTimeout hσ' => exact ConsumerSession.decodeTimeout_decodeInv hinv hσ'
  | drainTimeout hpos => exact (@ConsumerSession.Resumes.finDrain _ 0 _ _ hpos).decodeInv hinv
  | deliver response => exact ConsumerSession.arrive_decodeInv hinv response
  | expireRecv hσ' => exact ConsumerSession.expireRecv_decodeInv hinv hσ'

/-- What a `RecvDone` stands for: the request failed as a whole, or every chunk
of every session of the request was decoded. -/
def Justified (s : Consumer) (rid : Nat) (task : RecvRequest) (done : RecvDone) : Prop :=
  done.failedBlocks = allBlocks task.request.localBlockIds ∨
    ∀ {sid : Nat} {σ : ConsumerSession}, s.sessions[sid]? = some σ → σ.rid = rid →
      σ.pos.isEnded = true ∧ σ.AllDecoded

/-- What the helper maintains about requests, their sessions and their reports. -/
structure DecodeBook (s : Consumer) : Prop where
  sessions : ∀ {sid : Nat} {σ : ConsumerSession}, s.sessions[sid]? = some σ → σ.DecodeInv
  uncancelled : ∀ {rid : Nat} {task : RecvRequest}, s.requests[rid]? = some task →
    task.cancelRequested = false
  owner : ∀ {sid : Nat} {σ : ConsumerSession}, s.sessions[sid]? = some σ →
    ∃ task, s.requests[σ.rid]? = some task ∧ task.request = σ.request ∧ task.pos ≠ .created
  started : ∀ {rid : Nat} {task : RecvRequest} {sids : List Nat}, s.requests[rid]? = some task →
    task.pos = .gathering sids → ∀ sid ∈ sids, sid < s.sessions.length
  gathers : ∀ {rid sid : Nat} {task : RecvRequest} {sids : List Nat} {σ : ConsumerSession},
    s.requests[rid]? = some task → task.pos = .gathering sids → s.sessions[sid]? = some σ →
      (σ.rid = rid ↔ sid ∈ sids)
  reported : ∀ {rid : Nat} {done : RecvDone}, (rid, done) ∈ s.recvDone →
    ∃ task, s.requests[rid]? = some task ∧ task.pos = .done ∧ done.dReqId = task.request.dReqId ∧
      s.Justified rid task done

/-- What a fold adds to a set, one item at a time. -/
theorem mem_foldl_iff {α β : Type} {add : Finset α → β → Finset α} {x : α} {P : β → Prop}
    (hadd : ∀ s b, x ∈ add s b ↔ x ∈ s ∨ P b) (bs : List β) (s : Finset α) :
    x ∈ bs.foldl add s ↔ x ∈ s ∨ ∃ b ∈ bs, P b := by
  induction bs generalizing s with
  | nil => simp
  | cons b bs ih => rw [List.foldl_cons, ih, hadd, List.exists_mem_cons_iff, or_assoc]

theorem mem_failedBlocks {sids : List Nat} {block : Nat} :
    block ∈ s.failedBlocks sids ↔
      ∃ sid ∈ sids, ∃ result, s.outcome sid = some (.returned result) ∧ block ∈ result := by
  unfold failedBlocks
  rw [mem_foldl_iff (P := fun sid =>
    ∃ result, s.outcome sid = some (.returned result) ∧ block ∈ result)]
  · simp
  · intro failed sid
    split
    · next result hout => simp [hout]
    · next hout =>
        simp only [iff_self_or]
        rintro ⟨result, hresult, -⟩
        exact absurd hresult (hout result)

theorem outcome_some {out : Outcome} (h : s.outcome sid = some out) :
    ∃ σ, s.sessions[sid]? = some σ ∧ σ.pos = .ended out := by
  unfold outcome at h
  split at h
  · rename_i hσ
    exact ⟨_, hσ, congrArg SessionAt.ended (Option.some.inj h)⟩
  · cases h

/-- **The report of a gather.** -/
theorem DecodeBook.gathered {rid : Nat} {task : RecvRequest} {sids : List Nat} (h : s.DecodeBook)
    (htask : s.requests[rid]? = some task) (hpos : task.pos = .gathering sids)
    (hended : ∀ sid ∈ sids, (s.outcome sid).isSome) :
    s.Justified rid task
      { dReqId := task.request.dReqId, failedBlocks := s.failedBlocks sids } := by
  -- Every session of the gather has ended with all its blocks, or decoded all its chunks.
  have hverdict {sid : Nat} {σ : ConsumerSession} (hσ : s.sessions[sid]? = some σ)
      (hrid : σ.rid = rid) : ∃ out, s.outcome sid = some out ∧ σ.pos = .ended out ∧
        σ.request = task.request ∧ σ.Verdict out := by
    have hmem := (h.gathers htask hpos hσ).mp hrid
    obtain ⟨out, hout⟩ := Option.isSome_iff_exists.mp (hended sid hmem)
    obtain ⟨σ', hσ', hpos'⟩ := outcome_some hout
    obtain rfl := Option.some.inj (hσ.symm.trans hσ')
    obtain ⟨owner, howner, hrequest, -⟩ := h.owner hσ
    obtain rfl := Option.some.inj (htask.symm.trans (hrid ▸ howner))
    exact ⟨out, hout, hpos', hrequest.symm, (h.sessions hσ).verdict (by rw [hpos']; rfl)⟩
  by_cases hall : ∀ {sid : Nat} {σ : ConsumerSession}, s.sessions[sid]? = some σ → σ.rid = rid →
      σ.AllDecoded
  · refine Or.inr fun hσ hrid => ⟨?_, hall hσ hrid⟩
    obtain ⟨out, -, hpos', -⟩ := hverdict hσ hrid
    rw [hpos']
    rfl
  · refine Or.inl (Finset.ext fun block => ?_)
    rw [mem_failedBlocks]
    constructor
    · rintro ⟨sid, hmem, result, hout, hblock⟩
      obtain ⟨σ, hσ, -⟩ := outcome_some hout
      obtain ⟨out, hout', -, hrequest, hver⟩ := hverdict hσ ((h.gathers htask hpos hσ).mpr hmem)
      obtain rfl := Option.some.inj (hout.symm.trans hout')
      rcases hver with hver | ⟨hver, -⟩
      · rw [hrequest] at hver
        exact Outcome.returned.inj hver ▸ hblock
      · obtain rfl := Outcome.returned.inj hver
        cases hblock
    · intro hblock
      push Not at hall
      obtain ⟨sid, σ, hσ, hrid, hfail⟩ := hall
      obtain ⟨out, hout, -, hrequest, hver⟩ := hverdict hσ hrid
      rcases hver with rfl | ⟨-, hdecoded⟩
      · refine ⟨sid, (h.gathers htask hpos hσ).mp hrid, _, hout, ?_⟩
        rw [hrequest]
        exact hblock
      · exact absurd hdecoded hfail

/-- A request ends with a report that is justified. -/
theorem DecodeBook.endRequest {rid : Nat} {task : RecvRequest} {failed : Finset Nat}
    (h : s.DecodeBook) (htask : s.requests[rid]? = some task)
    (hjust : s.Justified rid task { dReqId := task.request.dReqId, failedBlocks := failed }) :
    (s.endRequest rid task.request failed).DecodeBook := by
  have hself : (s.endRequest rid task.request failed).requests[rid]? =
      some { task with pos := .done } := getElem?_modify_self htask _
  have hold {j : Nat} {r : RecvRequest} (hj : s.requests[j]? = some r) :
      ∃ r', (s.endRequest rid task.request failed).requests[j]? = some r' ∧
        r'.request = r.request ∧ (r.pos ≠ .created → r'.pos ≠ .created) ∧
        (r.pos = .done → r' = r) := by
    by_cases hjr : j = rid
    · subst hjr
      obtain rfl := Option.some.inj (htask.symm.trans hj)
      refine ⟨_, hself, rfl, fun _ => by simp, fun hdone => ?_⟩
      rw [← hdone]
    · exact ⟨r, (getElem?_modify_ne (Ne.symm hjr) _).trans hj, rfl, id, fun _ => rfl⟩
  refine ⟨h.sessions, fun {j r} hj => ?_, fun hσ => ?_, fun {j r sids} hj hpos => ?_,
    fun {j sid r sids σ} hj hpos hσ => ?_, fun {j done} hmem => ?_⟩
  · rcases getElem?_modify_some hj with ⟨rfl, old, hget, rfl⟩ | ⟨-, hget⟩
    · exact @DecodeBook.uncancelled _ h _ old hget
    · exact h.uncancelled hget
  · obtain ⟨r, hr, hrequest, hpos⟩ := h.owner hσ
    obtain ⟨r', hr', hrequest', hpos', -⟩ := hold hr
    exact ⟨r', hr', hrequest'.trans hrequest, hpos' hpos⟩
  · rcases getElem?_modify_some hj with ⟨rfl, old, hget, rfl⟩ | ⟨-, hget⟩
    · cases hpos
    · exact h.started hget hpos
  · rcases getElem?_modify_some hj with ⟨rfl, old, hget, rfl⟩ | ⟨-, hget⟩
    · cases hpos
    · exact h.gathers hget hpos hσ
  · rcases List.mem_append.mp hmem with hmem | hmem
    · obtain ⟨r, hr, hpos, hid, hj⟩ := h.reported hmem
      obtain ⟨r', hr', -, -, hsame⟩ := hold hr
      obtain rfl := hsame hpos
      exact ⟨r', hr', hpos, hid, hj⟩
    · obtain ⟨rfl, rfl⟩ := Prod.mk.inj (List.mem_singleton.mp hmem)
      exact ⟨_, hself, rfl, rfl, hjust⟩

/-- A step of one session keeps the book of requests. -/
theorem DecodeBook.apply (h : s.DecodeBook) (hσ : s.sessions[sid]? = some σ)
    (hinv : turn.session.DecodeInv)
    (hfollows : σ.Follows s.futures (s.nextJobId + 1) turn.session) :
    (s.apply sid turn).DecodeBook := by
  refine ⟨fun {j τ} hτ => ?_, h.uncancelled, fun {j τ} hτ => ?_, fun ht hp j hmem => ?_,
    fun {rid j task sids τ} ht hp hτ => ?_, fun {rid done} hmem => ?_⟩
  · rcases getElem?_apply hτ with ⟨rfl, rfl⟩ | ⟨-, hτ⟩
    · exact hinv
    · exact h.sessions hτ
  · rcases getElem?_apply hτ with ⟨rfl, rfl⟩ | ⟨-, hτ⟩
    · rw [hfollows.rid, hfollows.request]
      exact h.owner hσ
    · exact h.owner hτ
  · simpa [Consumer.apply] using h.started ht hp j hmem
  · rcases getElem?_apply hτ with ⟨rfl, rfl⟩ | ⟨-, hτ⟩
    · rw [hfollows.rid]
      exact h.gathers ht hp hσ
    · exact h.gathers ht hp hτ
  · obtain ⟨task, htask, hpos, hid, hjust⟩ := h.reported hmem
    refine ⟨task, htask, hpos, hid, hjust.imp_right fun hall {j τ} hτ hrid => ?_⟩
    rcases getElem?_apply hτ with ⟨rfl, rfl⟩ | ⟨-, hτ⟩
    · obtain ⟨hended, hdecoded⟩ := hall hσ (hfollows.rid ▸ hrid)
      exact ⟨by rw [(hfollows.ended hended).1]; exact hended, hdecoded.follows hended hfollows⟩
    · exact hall hτ hrid

theorem newSession_decodeInv (request : ConsumerRequest) (rid : Nat) :
    ConsumerSession.DecodeInv { request, rid } where
  uncancelled := rfl
  counted := rfl
  chunks := List.nodup_nil
  bound c hc := by simp [ConsumerSession.chunkIds] at hc
  issuing _ hrun := by cases hrun
  alive hi := by simp at hi
  opening _ := ⟨rfl, rfl, rfl, rfl⟩
  attentive _ _ _ hi := by simp at hi
  stopping hp := by cases hp
  gathering hp := by cases hp
  verdict hp := by cases hp

/-- `_recv_request` starts its sessions. -/
theorem DecodeBook.startSessions {rid count : Nat} {task : RecvRequest} (h : s.DecodeBook)
    (htask : s.requests[rid]? = some task) (hpos : task.pos = .created) :
    (s.startSessions rid task.request count).DecodeBook := by
  have hself : (s.startSessions rid task.request count).requests[rid]? =
      some { task with
        pos := .gathering ((List.range count).map (s.sessions.length + ·)) } :=
    getElem?_modify_self htask _
  -- A request that has not been started owns no session.
  have hother {j : Nat} {τ : ConsumerSession} (hτ : s.sessions[j]? = some τ) : τ.rid ≠ rid := by
    intro hrid
    obtain ⟨r, hr, -, hstarted⟩ := h.owner hτ
    obtain rfl := Option.some.inj (htask.symm.trans (hrid ▸ hr))
    exact hstarted hpos
  have hkeep {j : Nat} {r : RecvRequest} (hne : rid ≠ j) (hr : s.requests[j]? = some r) :
      (s.startSessions rid task.request count).requests[j]? = some r :=
    (getElem?_modify_ne hne _).trans hr
  have hlength : (s.startSessions rid task.request count).sessions.length =
      s.sessions.length + count := by
    simp [Consumer.startSessions]
  refine ⟨fun {j τ} hτ => ?_, fun {j r} hr => ?_, fun {j τ} hτ => ?_, fun {rid' r sids} hr hp => ?_,
    fun {rid' j r sids τ} hr hp hτ => ?_, fun {rid' done} hmem => ?_⟩
  · rcases getElem?_startSessions hτ with hτ | ⟨-, rfl⟩
    · exact h.sessions hτ
    · exact newSession_decodeInv task.request rid
  · rcases getElem?_modify_some hr with ⟨rfl, old, hget, rfl⟩ | ⟨-, hget⟩
    · exact @DecodeBook.uncancelled _ h _ old hget
    · exact h.uncancelled hget
  · rcases getElem?_startSessions hτ with hτ | ⟨-, rfl⟩
    · obtain ⟨r, hr, hrequest, hstarted⟩ := h.owner hτ
      exact ⟨r, hkeep (hother hτ).symm hr, hrequest, hstarted⟩
    · exact ⟨_, hself, rfl, by simp⟩
  · rw [hlength]
    intro j hmem
    rcases getElem?_modify_some hr with ⟨rfl, old, hget, rfl⟩ | ⟨-, hget⟩
    · cases hp
      obtain ⟨k, hk, rfl⟩ := List.mem_map.mp hmem
      have := List.mem_range.mp hk
      omega
    · have := h.started hget hp j hmem
      omega
  · rcases getElem?_modify_some hr with ⟨rfl, old, hget, rfl⟩ | ⟨hne, hget⟩
    · cases hp
      rcases getElem?_startSessions hτ with hτ | ⟨hmem, rfl⟩
      · refine iff_of_false (hother hτ) fun hmem => ?_
        have hlt := (List.getElem?_eq_some_iff.mp hτ).1
        obtain ⟨k, -, rfl⟩ := List.mem_map.mp hmem
        omega
      · exact iff_of_true rfl hmem
    · rcases getElem?_startSessions hτ with hτ | ⟨hmem, rfl⟩
      · exact h.gathers hget hp hτ
      · -- The sessions of an earlier gather are all older.
        refine iff_of_false hne fun hmem' => ?_
        have hlt := h.started hget hp j hmem'
        obtain ⟨k, -, rfl⟩ := List.mem_map.mp hmem
        omega
  · obtain ⟨r, hr, hdone, hid, hjust⟩ := h.reported hmem
    have hne : rid ≠ rid' := by
      rintro rfl
      obtain rfl := Option.some.inj (htask.symm.trans hr)
      rw [hpos] at hdone
      cases hdone
    refine ⟨r, hkeep hne hr, hdone, hid, hjust.imp_right fun hall {j τ} hτ hrid => ?_⟩
    rcases getElem?_startSessions hτ with hτ | ⟨-, rfl⟩
    · exact hall hτ hrid
    · exact absurd hrid hne

/-- **Every attentive step keeps the book of requests.** -/
theorem DecodeBook.step (h : s.DecodeBook) (hattentive : s.Attentive a)
    (hstep : s.step a = some s') : s'.DecodeBook := by
  cases step_cases hstep with
  | consumerMetadata requests =>
      have hnew {j : Nat} {r : RecvRequest}
          (hr : (s.requests ++ requests.map fun request => ({ request } : RecvRequest))[j]? = some r) :
          s.requests[j]? = some r ∨ (r.pos = .created ∧ r.cancelRequested = false) := by
        by_cases hlt : j < s.requests.length
        · rw [List.getElem?_append_left hlt] at hr
          exact Or.inl hr
        · rw [List.getElem?_append_right (Nat.le_of_not_lt hlt), List.getElem?_map] at hr
          obtain ⟨request, -, rfl⟩ := Option.map_eq_some_iff.mp hr
          exact Or.inr ⟨rfl, rfl⟩
      have hkeep {j : Nat} {r : RecvRequest} (hr : s.requests[j]? = some r) :
          (s.requests ++ requests.map fun request => ({ request } : RecvRequest))[j]? = some r := by
        rw [List.getElem?_append_left (List.getElem?_eq_some_iff.mp hr).1]
        exact hr
      refine ⟨h.sessions, fun hr => ?_, fun hσ => ?_, fun hr hp => ?_, fun hr hp hσ => ?_,
        fun hmem => ?_⟩
      · rcases hnew hr with hr | ⟨-, hcancel⟩
        · exact h.uncancelled hr
        · exact hcancel
      · obtain ⟨r, hr, hrest⟩ := h.owner hσ
        exact ⟨r, hkeep hr, hrest⟩
      · rcases hnew hr with hr | ⟨hcreated, -⟩
        · exact h.started hr hp
        · rw [hcreated] at hp; cases hp
      · rcases hnew hr with hr | ⟨hcreated, -⟩
        · exact h.gathers hr hp hσ
        · rw [hcreated] at hp; cases hp
      · obtain ⟨r, hr, hrest⟩ := h.reported hmem
        exact ⟨r, hkeep hr, hrest⟩
  | unreachable htask => exact h.endRequest htask (Or.inl rfl)
  | starts htask hpos => exact h.startSessions htask hpos
  | requestCancelled htask hpos hcancel =>
      -- Nothing has been cancelled, so no session ends with a `CancelledError`.
      rcases hcancel with hcancel | ⟨sids, -, sid, -, hout⟩
      · rw [h.uncancelled htask] at hcancel
        cases hcancel
      · obtain ⟨σ, hσ, hpos'⟩ := outcome_some hout
        rcases (h.sessions hσ).verdict (by rw [hpos']; rfl) with hver | ⟨hver, -⟩
        · cases hver
        · cases hver
  | gathered htask hpos hended => exact h.endRequest htask (h.gathered htask hpos hended)
  | session hσ hmove =>
      exact h.apply hσ (hmove.decodeInv hσ (h.sessions hσ) hattentive) hmove.follows
  | @issue sid chunkId slot σ rest fails hσ hissue =>
      have hbook : { s with receiverSlots := rest : Consumer }.DecodeBook :=
        ⟨h.sessions, h.uncancelled, h.owner, h.started, h.gathers, h.reported⟩
      exact hbook.apply hσ (ConsumerSession.issueChunk_decodeInv (h.sessions hσ) hissue)
        ConsumerSession.issueChunk_follows.1
  | jobDone =>
      exact ⟨h.sessions, h.uncancelled, h.owner, h.started, h.gathers, h.reported⟩
  | shutdown => exact absurd rfl hattentive.1

theorem start_decodeBook (init : InitMessage) : (start init).DecodeBook where
  sessions hσ := by simp [start] at hσ
  uncancelled hr := by simp [start] at hr
  owner hσ := by simp [start] at hσ
  started hr := by simp [start] at hr
  gathers hr := by simp [start] at hr
  reported hmem := by simp [start] at hmem

/-- Both books hold along every attentive run. -/
theorem books {init : InitMessage} (h : (consumerMachine init).ReachWith Attentive s) :
    s.DecodeBook ∧ s.TaskBook :=
  Machine.invariant (I := fun s => s.DecodeBook ∧ s.TaskBook)
    (fun s hs => by
      obtain rfl : s = Consumer.start init := hs
      exact ⟨start_decodeBook init, start_taskBook init⟩)
    (fun _ _ _ _ hbooks hok hstep => ⟨hbooks.1.step hok hstep, hbooks.2.step hstep⟩) h

/-- A `DecodeChunkJob` that the engine answered with an error fails its session
and the request with all its blocks. -/
def ErrorFailsRequest (s : Consumer) : Prop :=
  ∀ (id : Nat) (job : DecodeChunkJob) (result : JobDone),
    s.submitted id = some (.decodeChunk job) → s.futures id = some result → result.error ≠ none →
      ∀ (sid : Nat) (σ : ConsumerSession), s.sessions[sid]? = some σ → σ.nonce = job.nonce →
        (∀ out, σ.pos = .ended out → out = .returned (allBlocks σ.request.localBlockIds)) ∧
        ∀ done, (σ.rid, done) ∈ s.recvDone →
          done.failedBlocks = allBlocks σ.request.localBlockIds

/-- A `RecvDone` that does not carry all blocks is only sent once every session
of the request has decoded its chunks `0 .. total_chunks - 1`. -/
def EmptyMeansDecoded (s : Consumer) : Prop :=
  ∀ (rid : Nat) (done : RecvDone), (rid, done) ∈ s.recvDone →
    ∃ task, s.requests[rid]? = some task ∧ done.dReqId = task.request.dReqId ∧
      (done.failedBlocks = allBlocks task.request.localBlockIds ∨
        ∀ (sid : Nat) (σ : ConsumerSession), s.sessions[sid]? = some σ → σ.rid = rid → σ.AllDecoded)

/-- The task of a job that was answered with an error has not returned. -/
theorem TaskBook.not_returned (h : s.TaskBook) {id : Nat} {job : DecodeChunkJob} {result : JobDone}
    (hsub : s.submitted id = some (.decodeChunk job)) (hresult : s.futures id = some result)
    (herror : result.error ≠ none) (hσ : s.sessions[sid]? = some σ) (hnonce : σ.nonce = job.nonce) :
    ¬ σ.AllDecoded := by
  intro hall
  obtain ⟨j, τ, i, task, hτ, hi, hjob, hans⟩ := h.linked hsub
  obtain ⟨htask, hne⟩ := h.jobs hτ hi
  obtain rfl : j = sid := h.nonces hτ hσ (by rw [hnonce, ← hjob, htask]) hne
  obtain rfl := Option.some.inj (hσ.symm.trans hτ)
  have hpos := hall.returned hi
  rcases hans with hwait | ⟨how, hfin, hreturned⟩
  · rw [hpos] at hwait
    cases hwait
  · rw [hpos] at hfin
    cases hfin
    obtain ⟨result', hresult', hok⟩ := hreturned rfl
    obtain rfl := Option.some.inj (hresult.symm.trans hresult')
    exact herror hok

end Consumer

/-- **No decode error is lost on an attentive run**: a job answered with an error
fails its session and its request with all blocks, and any other report means
that every chunk was decoded. -/
theorem decode_error_fails_request {init : InitMessage} {s : Consumer}
    (h : (consumerMachine init).ReachWith Consumer.Attentive s) :
    s.ErrorFailsRequest ∧ s.EmptyMeansDecoded := by
  obtain ⟨hbook, htasks⟩ := Consumer.books h
  refine ⟨?_, ?_⟩
  · intro id job result hsub hresult herror sid σ hσ hnonce
    have hfail := htasks.not_returned hsub hresult herror hσ hnonce
    refine ⟨fun out hpos => ?_, fun done hmem => ?_⟩
    · rcases (hbook.sessions hσ).verdict (by rw [hpos]; rfl) with hver | ⟨-, hall⟩
      · exact hver
      · exact absurd hall hfail
    · obtain ⟨task, htask, -, -, hjust⟩ := hbook.reported hmem
      obtain ⟨owner, howner, hrequest, -⟩ := hbook.owner hσ
      obtain rfl := Option.some.inj (htask.symm.trans howner)
      rcases hjust with hjust | hall
      · rw [← hrequest]
        exact hjust
      · exact absurd (hall hσ rfl).2 hfail
  · intro rid done hmem
    obtain ⟨task, htask, -, hid, hjust⟩ := hbook.reported hmem
    exact ⟨task, htask, hid, hjust.imp_right fun hall sid σ hσ hrid => (hall hσ hrid).2⟩

namespace Consumer

/-- One request for one block, received by one session over the given number of
chunks, up to the reply for chunk 0. -/
def receiveFirst (totalChunks : Nat) : List Action :=
  [.consumerMetadata [{ dReqId := "d", transferId := "t", localBlockIds := [[1]], numTokens := none }],
   .ensureRemoteAgent 0 (some [(0, [(0, "addr")])]), .start 0 "n" "i",
   .deliver 0 (.sessionOpened { logicalBlockCount := 1, totalChunks }), .resume 0] ++
  List.replicate totalChunks (.issue 0 false) ++
  [.startRecv 0,
   .deliver 0 (.chunkReady { chunkId := 0, dataBytes := 1, payloadBytes := 1, auxBytes := 0 }),
   .callbacks 0 .recvTask, .resume 0]

/-- The decode of chunk 0 fails. -/
def failFirst : List Action :=
  [.startDecode 0 0, .jobDone 1 { error := some "bad chunk" }, .finishDecode 0 0]

/-- A run that never lets the done-callbacks of a decode task run is attentive. -/
def noDecodeCallback (_ : Consumer) : Action → Bool
  | .shutdown => false
  | .callbacks _ (.decode _) => false
  | _ => true

theorem attentive_of_noDecodeCallback (s : Consumer) (a : Action)
    (h : noDecodeCallback s a = true) : s.Attentive a := by
  refine ⟨?_, ?_⟩
  · rintro rfl
    cases h
  · rintro sid i σ message rfl
    cases h

end Consumer

open Consumer in
/-- The only chunk fails while the session gathers: the abort is sent, all
blocks are reported. -/
theorem decode_error_fails_request_gathered :
    ∃ s : Consumer, (consumerMachine (.solo [⟨0, 0, 0⟩])).exec noDecodeCallback
        (start (.solo [⟨0, 0, 0⟩]))
        (receiveFirst 1 ++ failFirst ++ [.resume 0, .resume 0,
          .deliver 0 (.abortAck { transferId := "t", dReqId := "d", nonce := "n" }), .resume 0,
          .resume 0, .jobDone 2 {}, .resume 0, .gathered 0]) = some s ∧
      s.recvDone = [(0, { dReqId := "d", failedBlocks := ({1} : Finset Nat) })] ∧
      s.ErrorFailsRequest ∧ s.EmptyMeansDecoded := by
  let actions := receiveFirst 1 ++ failFirst ++ [.resume 0, .resume 0,
    .deliver 0 (.abortAck { transferId := "t", dReqId := "d", nonce := "n" }), .resume 0,
    .resume 0, .jobDone 2 {}, .resume 0, .gathered 0]
  let s := ((consumerMachine (.solo [⟨0, 0, 0⟩])).exec noDecodeCallback
    (start (.solo [⟨0, 0, 0⟩])) actions).get (by decide)
  have hexec : (consumerMachine (.solo [⟨0, 0, 0⟩])).exec noDecodeCallback
      (start (.solo [⟨0, 0, 0⟩])) actions = some s := (Option.some_get _).symm
  have h := decode_error_fails_request
    ((Machine.reachWith_of_exec rfl hexec).mono attentive_of_noDecodeCallback)
  exact ⟨s, hexec, by decide, h.1, h.2⟩

open Consumer in
/-- **Without the condition the error is lost**: chunk 0 fails and its callbacks
run while the session waits for chunk 1, whose decode succeeds. `RecvDone` then
carries no failed block. -/
theorem decode_error_lost :
    ¬ ∀ (init : InitMessage) (s : Consumer), (consumerMachine init).Reachable s →
      s.ErrorFailsRequest := by
  intro hall
  let slots : List SlotAddresses := [⟨0, 0, 0⟩, ⟨1, 1, 1⟩]
  let actions := receiveFirst 2 ++ failFirst ++
    [.callbacks 0 (.decode 0), .resume 0, .startRecv 0,
     .deliver 0 (.chunkReady { chunkId := 1, dataBytes := 1, payloadBytes := 1, auxBytes := 0 }),
     .callbacks 0 .recvTask, .resume 0, .startDecode 0 1, .resume 0, .jobDone 2 {},
     .finishDecode 0 1, .resume 0, .resume 0, .jobDone 3 {}, .resume 0, .gathered 0]
  let s := ((consumerMachine (.solo slots)).exec (fun _ _ => true) (start (.solo slots))
    actions).get (by decide)
  have hreach : (consumerMachine (.solo slots)).Reachable s :=
    (Machine.reachWith_of_exec (p := fun _ _ => true) rfl (Option.some_get _).symm).mono
      fun _ _ _ => trivial
  have hdone : s.recvDone = [(0, { dReqId := "d" })] := by decide
  let σ := (s.sessions[0]?).get (by decide)
  have hσ : s.sessions[0]? = some σ := (Option.some_get _).symm
  have hrid : σ.rid = 0 := by decide
  have hnonce : σ.nonce = "n" := by decide
  have hblocks : σ.request.localBlockIds = [[1]] := by decide
  let job : DecodeChunkJob :=
    { transferId := "t", dReqId := "d", nonce := "n", chunkId := 0, slotId := 0
      logicalBlockCount := 1, localBlockIds := [[1]], numTokens := none, codecBytes := 1
      u8Bytes := 1 }
  have hsub : s.submitted 1 = some (.decodeChunk job) := by decide
  have hfailed := (hall _ s hreach 1 job { error := some "bad chunk" } hsub (by decide) (by decide)
    0 σ hσ hnonce).2 { dReqId := "d" } (by rw [hrid, hdone]; simp)
  rw [hblocks] at hfailed
  exact absurd hfailed (by decide)

end KVServe.Session
