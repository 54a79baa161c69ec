import KVServe.Session.ConsumerRuns

/-!
# KVServe.Session.ConsumerSlots

**The receiver pool is conserved.** A slot goes from `_receiver_slots` to the
`owned` set of a session (`issue_all`) and back, by the decode task of its chunk
or by the `finally` block of the session. `SlotInv` is why neither gives a slot
back twice: an unanswered chunk and an unfinished decode task each hold a slot
of `owned` of their own, and the `finally` block puts `owned` back only after
the issue task and the decode tasks are over.

The one exception is a `CancelledError` that strikes inside the `finally` block.
-/

namespace KVServe.Session

/-- The slot a decode task holds until it ends. -/
def DecodeTask.heldSlot (task : DecodeTask) : Option Nat :=
  if task.pos.isDone then none else some task.job.slotId

theorem DecodeTask.heldSlot_cancel (task : DecodeTask) : task.cancel.heldSlot = none := by
  unfold DecodeTask.cancel
  split
  · rename_i hdone; simp [DecodeTask.heldSlot, hdone]
  · simp [DecodeTask.heldSlot, DecodeAt.isDone]

namespace ConsumerSession

variable {σ : ConsumerSession} {out : Outcome} {nextJob : Nat}

/-- The slots of the decode tasks that have not ended. -/
def decodingSlots (σ : ConsumerSession) : List Nat := σ.decodes.filterMap DecodeTask.heldSlot

/-- The slots waiting for a reply or for a decode. -/
def busySlots (σ : ConsumerSession) : List Nat := σ.inflight.map (·.2) ++ σ.decodingSlots

/-- The slots a session accounts for: none once the coroutine has ended. -/
def held (σ : ConsumerSession) : List Nat := if σ.pos.isEnded then [] else σ.owned

/-- The part of `SlotInv` that does not depend on where the session stands. -/
structure SlotCore (σ : ConsumerSession) : Prop where
  busy : ∀ x, σ.busySlots.count x ≤ σ.owned.count x
  tracked : ∀ {i : Nat} {task : DecodeTask}, σ.decodes[i]? = some task →
    task.pos.isDone = false → task.tracked = true

/-- `issue_all` is over. -/
def Issued (σ : ConsumerSession) : Prop := ∀ chunkId, σ.issue ≠ .running chunkId

/-- Every decode task is over. -/
def Decoded (σ : ConsumerSession) : Prop :=
  ∀ {i : Nat} {task : DecodeTask}, σ.decodes[i]? = some task → task.pos.isDone = true

/-- What a session maintains about its slots. -/
structure SlotInv (σ : ConsumerSession) : Prop extends SlotCore σ where
  created : σ.pos = .created → σ.issue = .absent ∧ σ.owned = [] ∧ σ.decodes = []
  issued : σ.pos.inFinally = true ∨ σ.pos.isEnded = true → Issued σ
  decoding : ∀ {tasks : List Nat} {out : Outcome}, σ.pos = .finDecode tasks out →
    ∀ {i : Nat} {task : DecodeTask}, σ.decodes[i]? = some task → task.pos.isDone = false → i ∈ tasks
  drained : (∃ job out, σ.pos = .finDrain job out) ∨ σ.pos.isEnded = true → Decoded σ
  ended : σ.pos.isEnded = true → σ.owned = []

/-- A session in the body of its `try`, at an `await` that holds no slots back. -/
theorem SlotCore.slotInv (h : SlotCore σ) (hcreated : σ.pos ≠ .created)
    (hfinally : σ.pos.inFinally = false) (hended : σ.pos.isEnded = false) : SlotInv σ where
  toSlotCore := h
  created hpos := absurd hpos hcreated
  issued hpos := by rcases hpos with hpos | hpos <;> simp_all
  decoding hpos := by rw [hpos] at hfinally; cases hfinally
  drained hpos := by
    rcases hpos with ⟨job, out, hpos⟩ | hpos
    · rw [hpos] at hfinally; cases hfinally
    · rw [hended] at hpos; cases hpos
  ended hpos := by rw [hended] at hpos; cases hpos

/-! ### The `finally` block -/

theorem SlotCore.of_eq {σ' : ConsumerSession} (h : SlotCore σ) (hinflight : σ'.inflight = σ.inflight)
    (hdecodes : σ'.decodes = σ.decodes) (howned : σ'.owned = σ.owned) : SlotCore σ' := by
  refine ⟨?_, by rw [hdecodes]; exact h.tracked⟩
  simpa only [busySlots, decodingSlots, hinflight, hdecodes, howned] using h.busy

theorem decodingSlots_of_decoded (h : Decoded σ) : σ.decodingSlots = [] := by
  refine List.filterMap_eq_nil_iff.mpr fun task htask => ?_
  obtain ⟨i, hi⟩ := List.getElem?_of_mem htask
  rw [DecodeTask.heldSlot, if_pos (h hi)]

theorem finish_slotInv (hissued : Issued σ) (hdecoded : Decoded σ) :
    SlotInv (σ.finish out).session where
  busy x := by
    have := decodingSlots_of_decoded hdecoded
    simp only [busySlots, finish, decodingSlots] at this ⊢
    simp [this]
  tracked hi hdone := by
    rw [hdecoded hi] at hdone
    cases hdone
  created hpos := by cases hpos
  issued _ := hissued
  decoding hpos := by cases hpos
  drained _ := hdecoded
  ended _ := rfl

theorem afterDecode_slotInv (h : SlotCore σ) (hissued : Issued σ) (hdecoded : Decoded σ) :
    SlotInv (σ.afterDecode out nextJob).session := by
  unfold afterDecode
  split
  · exact finish_slotInv hissued hdecoded
  · exact {
      toSlotCore := h.of_eq rfl rfl rfl
      created := fun hpos => by cases hpos
      issued := fun _ => hissued
      decoding := fun hpos => by cases hpos
      drained := fun _ => hdecoded
      ended := fun hpos => by cases hpos }

theorem afterRecv_slotInv (h : SlotCore σ) (hissued : Issued σ) :
    SlotInv (σ.afterRecv out nextJob).session := by
  unfold afterRecv
  dsimp only
  have h' : SlotCore { σ with recvTask := .absent } := h.of_eq rfl rfl rfl
  split
  · rename_i hnone
    refine afterDecode_slotInv h' hissued fun {i task} hi => ?_
    by_contra hrun
    have htracked := h'.tracked hi (by simpa using hrun)
    have := mem_decodeTasks.mpr ⟨task, hi, htracked⟩
    rw [hnone] at this
    cases this
  · exact {
      toSlotCore := h.of_eq rfl rfl rfl
      created := fun hpos => by cases hpos
      issued := fun _ => hissued
      decoding := fun hpos => by
        cases hpos
        exact fun hi hrun => mem_decodeTasks.mpr ⟨_, hi, h'.tracked hi hrun⟩
      drained := fun hpos => by rcases hpos with ⟨_, _, hpos⟩ | hpos <;> cases hpos
      ended := fun hpos => by cases hpos }

theorem cancelIssue_issued : Issued σ.cancelIssue := by
  intro chunkId
  unfold cancelIssue
  split
  · simp
  · rename_i hrun
    exact hrun chunkId

theorem afterIssue_slotInv (h : SlotCore σ) (hissued : Issued σ) :
    SlotInv (σ.afterIssue out nextJob).session := by
  unfold afterIssue
  split
  · exact afterRecv_slotInv h hissued
  · exact {
      toSlotCore := h.of_eq cancelRecv_inflight cancelRecv_decodes cancelRecv_owned
      created := fun hpos => by cases hpos
      issued := fun _ chunkId => by simpa using hissued chunkId
      decoding := fun hpos => by cases hpos
      drained := fun hpos => by rcases hpos with ⟨_, _, hpos⟩ | hpos <;> cases hpos
      ended := fun hpos => by cases hpos }

theorem enterFinally_slotInv (h : SlotCore σ) : SlotInv (σ.enterFinally out nextJob).session := by
  unfold enterFinally
  split
  · rename_i habsent
    exact afterIssue_slotInv h fun chunkId => by rw [habsent]; simp
  · exact {
      toSlotCore := by
        rw [cancelIssue_eq]
        exact h.of_eq rfl rfl rfl
      created := fun hpos => by cases hpos
      issued := fun _ => cancelIssue_issued
      decoding := fun hpos => by cases hpos
      drained := fun hpos => by rcases hpos with ⟨_, _, hpos⟩ | hpos <;> cases hpos
      ended := fun hpos => by cases hpos }

/-! ### The body -/

theorem count_inflight_filter {inflight : List (Nat × Nat)} {chunkId slot : Nat} (x : Nat)
    (h : inflight.lookup chunkId = some slot) :
    ((inflight.filter (·.1 ≠ chunkId)).map (·.2)).count x + [slot].count x
      ≤ (inflight.map (·.2)).count x := by
  induction inflight with
  | nil => simp at h
  | cons entry rest ih =>
      obtain ⟨key, value⟩ := entry
      rw [List.lookup_cons] at h
      split at h
      · rename_i hkey
        obtain rfl : chunkId = key := by simpa using hkey
        obtain rfl := Option.some.inj h
        have hsub : ((rest.filter (·.1 ≠ chunkId)).map (·.2)).count x
            ≤ (rest.map (·.2)).count x :=
          (List.filter_sublist.map _).count_le x
        simp only [ne_eq, not_true_eq_false, decide_false, Bool.false_eq_true, not_false_eq_true,
          List.filter_cons_of_neg, List.map_cons, List.count_cons, List.count_nil] at hsub ⊢
        omega
      · rename_i hkey
        have hne : key ≠ chunkId := fun heq => by simp [heq] at hkey
        have := ih h
        simp only [ne_eq, hne, not_false_eq_true, decide_true, List.filter_cons_of_pos,
          List.map_cons, List.count_cons] at this ⊢
        omega

theorem SlotCore.acceptChunk (h : SlotCore σ) {ready : CompressionChunkReady} {slot : Nat}
    (hslot : σ.inflight.lookup ready.chunkId = some slot) :
    SlotCore (σ.acceptChunk ready slot) where
  busy x := by
    have hbusy := h.busy x
    have hpop := count_inflight_filter x hslot
    have hnew : (σ.acceptChunk ready slot).decodingSlots = σ.decodingSlots ++ [slot] := by
      simp [decodingSlots, ConsumerSession.acceptChunk, DecodeTask.heldSlot, DecodeAt.isDone,
        decodeJob]
    rw [busySlots, List.count_append] at hbusy ⊢
    rw [hnew, List.count_append]
    simp only [ConsumerSession.acceptChunk]
    omega
  tracked hi hrun := by
    rcases getElem?_append_some hi with hold | ⟨-, rfl⟩
    · exact h.tracked hold hrun
    · rfl

theorem SlotCore.takeReply {σ₁ : ConsumerSession} {reason : Option String} (h : SlotCore σ)
    (hreply : σ.takeReply = (σ₁, reason)) : SlotCore σ₁ := by
  obtain rfl : σ.takeReply.1 = σ₁ := congrArg Prod.fst hreply
  unfold ConsumerSession.takeReply
  split
  · exact h
  · dsimp only
    split
    · split
      · exact h.of_eq rfl rfl rfl
      · split
        · rename_i hslot
          exact (h.of_eq rfl rfl rfl : SlotCore { σ with recvTask := .created }).acceptChunk hslot
        · exact h.of_eq rfl rfl rfl
    · exact h.of_eq rfl rfl rfl
  · exact h

theorem SlotCore.takeIssue {σ₁ : ConsumerSession} {reason : Option String} (h : SlotCore σ)
    (hissue : σ.takeIssue = (σ₁, reason)) : SlotCore σ₁ := by
  obtain rfl : σ.takeIssue.1 = σ₁ := congrArg Prod.fst hissue
  unfold ConsumerSession.takeIssue
  split
  · exact h.of_eq rfl rfl rfl
  · exact h
  · exact h

theorem SlotCore.untrack (h : SlotCore σ) {i : Nat} (hdone : (σ.decodeEnd i).isSome = true) :
    SlotCore (σ.untrack i) where
  busy x := by
    have hsame : (σ.untrack i).decodingSlots = σ.decodingSlots := by
      refine filterMap_modify_of_eq ?_ _ _
      intro task
      rfl
    rw [busySlots, hsame]
    exact h.busy x
  tracked {j} {task} hj hrun := by
    rcases getElem?_modify_some hj with ⟨rfl, old, hold, rfl⟩ | ⟨-, hold⟩
    · obtain ⟨job, pos, tracked⟩ := old
      cases pos with
      | finished how => cases hrun
      | _ => simp [decodeEnd, hold] at hdone
    · exact h.tracked hold hrun

theorem SlotCore.takeDecodes {σ₁ : ConsumerSession} {waited : List Nat} {reason : Option String}
    (h : SlotCore σ) (hdecodes : σ.takeDecodes waited = (σ₁, reason)) : SlotCore σ₁ := by
  obtain rfl : (σ.takeDecodes waited).1 = σ₁ := congrArg Prod.fst hdecodes
  clear hdecodes
  induction waited generalizing σ with
  | nil => exact h
  | cons i rest ih =>
      rw [ConsumerSession.takeDecodes]
      split
      · rename_i hi
        exact h.untrack (by simp [decodeEnd, hi])
      · rename_i hi
        exact ih (h.untrack (by simp [decodeEnd, hi]))
      · exact ih h

theorem callRecv_core (h : SlotCore σ) (pos : Option (Option CompressionResponse) → SessionAt) :
    SlotCore (σ.callRecv pos) := by
  unfold callRecv
  split <;> exact h.of_eq rfl rfl rfl

theorem callRecv_pos (pos : Option (Option CompressionResponse) → SessionAt) :
    ∃ got, (σ.callRecv pos).pos = pos got := by
  unfold callRecv
  split
  · exact ⟨_, rfl⟩
  · exact ⟨_, rfl⟩

theorem sendAbort_slotInv (h : SlotCore σ) (reason : String) :
    SlotInv (σ.sendAbort reason).session := by
  obtain ⟨got, hpos⟩ := callRecv_pos (σ := σ) .aborting
  refine (callRecv_core h .aborting).slotInv ?_ ?_ ?_ <;> simp [hpos, SessionAt.inFinally,
    SessionAt.isEnded]

theorem loopHead_slotInv (h : SlotCore σ) : SlotInv σ.loopHead := by
  unfold loopHead
  split
  · exact SlotCore.slotInv (h.of_eq rfl rfl rfl) (by simp) rfl rfl
  · refine SlotCore.slotInv (h.of_eq ?_ ?_ ?_) (by simp) rfl rfl <;> simp

theorem Resumes.slotInv {turn : Turn} (h : SlotInv σ) (hturn : Resumes σ nextJob turn) :
    SlotInv turn.session := by
  have hcore := h.toSlotCore
  cases hturn with
  | openFails reason => exact sendAbort_slotInv hcore reason
  | openEmpty => exact enterFinally_slotInv hcore
  | openStarts => exact loopHead_slotInv (hcore.of_eq rfl rfl rfl)
  | replyFails reason _ hreply => exact sendAbort_slotInv (hcore.takeReply hreply) reason
  | issueFails reason _ hreply hissue =>
      exact sendAbort_slotInv ((hcore.takeReply hreply).takeIssue hissue) reason
  | decodeFails reason _ hreply hissue hdecodes =>
      exact sendAbort_slotInv (((hcore.takeReply hreply).takeIssue hissue).takeDecodes hdecodes)
        reason
  | loops _ hreply hissue hdecodes =>
      exact loopHead_slotInv (((hcore.takeReply hreply).takeIssue hissue).takeDecodes hdecodes)
  | stops => exact enterFinally_slotInv (hcore.of_eq rfl rfl rfl)
  | gathers => exact SlotCore.slotInv (hcore.of_eq rfl rfl rfl) (by simp) rfl rfl
  | gatherFails reason => exact sendAbort_slotInv hcore reason
  | gatherDone => exact enterFinally_slotInv hcore
  | aborted => exact enterFinally_slotInv (hcore.of_eq rfl rfl rfl)
  | finIssue hpos => exact afterIssue_slotInv hcore (h.issued (Or.inl (by rw [hpos]; rfl)))
  | finRecv hpos => exact afterRecv_slotInv hcore (h.issued (Or.inl (by rw [hpos]; rfl)))
  | finDecode hpos hdone =>
      refine afterDecode_slotInv hcore (h.issued (Or.inl (by rw [hpos]; rfl))) ?_
      -- Every unfinished decode task is in the gather, and the gather is done.
      intro i task hi
      by_contra hrun
      have hmem := h.decoding hpos hi (by simpa using hrun)
      have hend := List.all_eq_true.mp hdone i hmem
      obtain ⟨job, pos, tracked⟩ := task
      cases pos <;> simp_all [decodeEnd, DecodeAt.isDone]
  | finDrain hpos =>
      exact finish_slotInv (h.issued (Or.inl (by rw [hpos]; rfl)))
        (h.drained (Or.inl ⟨_, _, hpos⟩))

/-- An update of a decode task that at most ends it. -/
structure AtMostEnds (f : DecodeTask → DecodeTask) (task : DecodeTask) : Prop where
  slot : (f task).heldSlot = none ∨ (f task).heldSlot = task.heldSlot
  tracked : (f task).tracked = task.tracked
  running : (f task).pos.isDone = false → task.pos.isDone = false

theorem SlotCore.modifyDecode (h : SlotCore σ) {i : Nat} {f : DecodeTask → DecodeTask}
    (hf : ∀ task, σ.decodes[i]? = some task → AtMostEnds f task) :
    SlotCore (σ.modifyDecode i f) where
  busy x := by
    have hbusy := h.busy x
    have hle := count_filterMap_modify_le (fun task hi => (hf task hi).slot) x
    rw [busySlots, List.count_append] at hbusy ⊢
    simp only [ConsumerSession.modifyDecode, decodingSlots] at hbusy ⊢
    omega
  tracked {j task} hj hrun := by
    rcases getElem?_modify_some hj with ⟨rfl, old, hold, rfl⟩ | ⟨-, hold⟩
    · exact (hf old hold).tracked.trans (h.tracked hold ((hf old hold).running hrun))
    · exact h.tracked hold hrun

theorem cancel_atMostEnds (task : DecodeTask) : AtMostEnds DecodeTask.cancel task := by
  refine ⟨Or.inl task.heldSlot_cancel, ?_, fun hrun => ?_⟩
  · unfold DecodeTask.cancel
    split <;> rfl
  · unfold DecodeTask.cancel at hrun
    split at hrun
    · exact hrun
    · cases hrun

theorem SlotCore.cancelDecodes (h : SlotCore σ) (tasks : List Nat) :
    SlotCore (σ.cancelDecodes tasks) := by
  unfold ConsumerSession.cancelDecodes
  induction tasks generalizing σ with
  | nil => exact h
  | cons i rest ih =>
      exact ih (h.modifyDecode fun task _ => cancel_atMostEnds task)

/-- A cancellation outside the `finally` block goes through all of it. -/
theorem Cancels.slotInv {turn : Turn} (h : SlotInv σ) (hclean : σ.pos.inFinally = false)
    (hturn : Cancels σ nextJob turn) : SlotInv turn.session := by
  have hcore : SlotCore σ.uncancelled := h.toSlotCore.of_eq rfl rfl rfl
  cases hturn with
  | unstarted hpos =>
      obtain ⟨hissue, howned, hdecodes⟩ := h.created hpos
      exact {
        toSlotCore := h.toSlotCore.of_eq rfl rfl rfl
        created := fun hpos => by cases hpos
        issued := fun _ chunkId => by simp [uncancelled, hissue]
        decoding := fun hpos => by cases hpos
        drained := fun _ => fun {i task} hi => by simp [uncancelled, hdecodes] at hi
        ended := fun _ => howned }
  | body => exact enterFinally_slotInv hcore
  | gather => exact enterFinally_slotInv (hcore.cancelDecodes _)
  | skips hfinally => rw [hfinally] at hclean; cases hclean
  | skipsGather hpos => rw [hpos] at hclean; cases hclean

/-! ### Slots kept and slots put back -/

/-- A run of a session goes on with what it owns, or ends and puts it back. -/
def Keeps (σ : ConsumerSession) (turn : Turn) : Prop :=
  (turn.session.pos.isEnded = false ∧ turn.session.owned = σ.owned ∧ turn.puts = []) ∨
    (turn.session.pos.isEnded = true ∧ turn.puts = σ.owned)

theorem Keeps.of_owned {σ' : ConsumerSession} {turn : Turn} (h : Keeps σ' turn)
    (howned : σ'.owned = σ.owned) : Keeps σ turn := by
  rwa [Keeps, ← howned]

theorem Keeps.count {turn : Turn} (h : Keeps σ turn) (hpos : σ.pos.isEnded = false) (x : Nat) :
    turn.puts.count x + turn.session.held.count x = σ.held.count x := by
  rcases h with ⟨hrun, howned, hputs⟩ | ⟨hend, hputs⟩
  · simp [held, hrun, hpos, howned, hputs]
  · simp [held, hend, hpos, hputs]

theorem afterDecode_keeps : Keeps σ (σ.afterDecode out nextJob) := by
  unfold afterDecode
  split
  · exact Or.inr ⟨rfl, rfl⟩
  · exact Or.inl ⟨rfl, rfl, rfl⟩

theorem afterRecv_keeps : Keeps σ (σ.afterRecv out nextJob) := by
  unfold afterRecv
  dsimp only
  split
  · exact afterDecode_keeps.of_owned rfl
  · exact Or.inl ⟨rfl, rfl, rfl⟩

theorem afterIssue_keeps : Keeps σ (σ.afterIssue out nextJob) := by
  unfold afterIssue
  split
  · exact afterRecv_keeps
  · exact Or.inl ⟨rfl, cancelRecv_owned, rfl⟩

theorem enterFinally_keeps : Keeps σ (σ.enterFinally out nextJob) := by
  unfold enterFinally
  split
  · exact afterIssue_keeps
  · exact Or.inl ⟨rfl, by rw [cancelIssue_eq], rfl⟩

theorem sendAbort_keeps (reason : String) : Keeps σ (σ.sendAbort reason) := by
  unfold sendAbort callRecv
  split <;> exact Or.inl ⟨rfl, rfl, rfl⟩

theorem loopHead_keeps : Keeps σ { session := σ.loopHead } := by
  unfold loopHead
  split
  · exact Or.inl ⟨rfl, rfl, rfl⟩
  · exact Or.inl ⟨rfl, cancelRecv_owned, rfl⟩

theorem takeReply_owned {σ₁ : ConsumerSession} {reason : Option String}
    (hreply : σ.takeReply = (σ₁, reason)) : σ₁.owned = σ.owned := by
  obtain rfl : σ.takeReply.1 = σ₁ := congrArg Prod.fst hreply
  unfold takeReply
  split
  · rfl
  · dsimp only
    split
    · split
      · rfl
      · split <;> rfl
    · rfl
  · rfl

theorem takeIssue_owned {σ₁ : ConsumerSession} {reason : Option String}
    (hissue : σ.takeIssue = (σ₁, reason)) : σ₁.owned = σ.owned := by
  obtain rfl : σ.takeIssue.1 = σ₁ := congrArg Prod.fst hissue
  unfold takeIssue
  split <;> rfl

theorem takeDecodes_owned {σ₁ : ConsumerSession} {waited : List Nat} {reason : Option String}
    (hdecodes : σ.takeDecodes waited = (σ₁, reason)) : σ₁.owned = σ.owned := by
  obtain rfl : (σ.takeDecodes waited).1 = σ₁ := congrArg Prod.fst hdecodes
  clear hdecodes
  induction waited generalizing σ with
  | nil => rfl
  | cons i rest ih =>
      rw [takeDecodes]
      split
      · rfl
      · rw [ih]; rfl
      · exact ih

theorem Resumes.keeps {turn : Turn} (hturn : Resumes σ nextJob turn) : Keeps σ turn := by
  cases hturn with
  | openFails reason => exact sendAbort_keeps reason
  | openEmpty => exact enterFinally_keeps
  | openStarts => exact loopHead_keeps.of_owned rfl
  | replyFails reason _ hreply => exact (sendAbort_keeps reason).of_owned (takeReply_owned hreply)
  | issueFails reason _ hreply hissue =>
      exact (sendAbort_keeps reason).of_owned
        ((takeIssue_owned hissue).trans (takeReply_owned hreply))
  | decodeFails reason _ hreply hissue hdecodes =>
      exact (sendAbort_keeps reason).of_owned ((takeDecodes_owned hdecodes).trans
        ((takeIssue_owned hissue).trans (takeReply_owned hreply)))
  | loops _ hreply hissue hdecodes =>
      exact loopHead_keeps.of_owned ((takeDecodes_owned hdecodes).trans
        ((takeIssue_owned hissue).trans (takeReply_owned hreply)))
  | stops => exact enterFinally_keeps.of_owned rfl
  | gathers => exact Or.inl ⟨rfl, rfl, rfl⟩
  | gatherFails reason => exact sendAbort_keeps reason
  | gatherDone => exact enterFinally_keeps
  | aborted => exact enterFinally_keeps.of_owned rfl
  | finIssue => exact afterIssue_keeps
  | finRecv => exact afterRecv_keeps
  | finDecode => exact afterDecode_keeps
  | finDrain => exact Or.inr ⟨rfl, rfl⟩

theorem cancelDecodes_owned (tasks : List Nat) : (σ.cancelDecodes tasks).owned = σ.owned := by
  unfold cancelDecodes
  induction tasks generalizing σ with
  | nil => rfl
  | cons i rest ih => exact (ih (σ := σ.modifyDecode i DecodeTask.cancel)).trans rfl

theorem Cancels.keeps {turn : Turn} (h : SlotInv σ) (hclean : σ.pos.inFinally = false)
    (hturn : Cancels σ nextJob turn) : σ.pos.isEnded = false ∧ Keeps σ turn := by
  cases hturn with
  | unstarted hpos => exact ⟨by rw [hpos]; rfl, Or.inr ⟨rfl, (h.created hpos).2.1.symm⟩⟩
  | body _ _ hended => exact ⟨hended, enterFinally_keeps.of_owned rfl⟩
  | gather hpos =>
      exact ⟨by rw [hpos]; rfl, enterFinally_keeps.of_owned (cancelDecodes_owned _)⟩
  | skips hfinally => rw [hfinally] at hclean; cases hclean
  | skipsGather hpos => rw [hpos] at hclean; cases hclean

/-! ### The other tasks of a session -/

/-- A step of another task, at an unchanged position of the session. -/
theorem SlotInv.of_core {σ' : ConsumerSession} (h : SlotInv σ) (hcore : SlotCore σ')
    (hpos : σ'.pos = σ.pos) (hissue : σ'.issue = σ.issue)
    (hrun : ∀ {i : Nat} {task : DecodeTask}, σ'.decodes[i]? = some task →
      task.pos.isDone = false → ∃ task', σ.decodes[i]? = some task' ∧ task'.pos.isDone = false)
    (howned : σ.owned = [] → σ'.owned = []) (hnone : σ.decodes = [] → σ'.decodes = []) :
    SlotInv σ' where
  toSlotCore := hcore
  created hc := by
    obtain ⟨h₁, h₂, h₃⟩ := h.created (hpos ▸ hc)
    exact ⟨hissue.trans h₁, howned h₂, hnone h₃⟩
  issued hf chunkId := by
    rw [hpos] at hf
    rw [hissue]
    exact h.issued hf chunkId
  decoding {tasks out} hp i task hi hd := by
    obtain ⟨task', hi', hd'⟩ := hrun hi hd
    exact h.decoding (hpos ▸ hp) hi' hd'
  drained hp {i task} hi := by
    rw [hpos] at hp
    by_contra hd
    obtain ⟨task', hi', hd'⟩ := hrun hi (by simpa using hd)
    rw [h.drained hp hi'] at hd'
    cases hd'
  ended hp := howned (h.ended (hpos ▸ hp))

/-- The invariant carries over, and the session holds the same slots. -/
def Undisturbed (σ σ' : ConsumerSession) : Prop := SlotInv σ' ∧ σ'.held = σ.held

theorem Undisturbed.trans {σ₁ σ₂ : ConsumerSession} (h₁ : Undisturbed σ σ₁)
    (h₂ : Undisturbed σ₁ σ₂) : Undisturbed σ σ₂ := ⟨h₂.1, h₂.2.trans h₁.2⟩

/-- Nothing the invariant speaks about changes but the `await` in the body. -/
theorem SlotInv.repos {σ' : ConsumerSession} (h : SlotInv σ) (hinflight : σ'.inflight = σ.inflight)
    (hdecodes : σ'.decodes = σ.decodes) (howned : σ'.owned = σ.owned)
    (hissue : σ'.issue = σ.issue)
    (hpos : σ'.pos = σ.pos ∨
      (σ'.pos ≠ .created ∧ σ'.pos.inFinally = false ∧ σ'.pos.isEnded = false ∧
        σ.pos.isEnded = false)) : Undisturbed σ σ' := by
  have hcore := h.toSlotCore.of_eq hinflight hdecodes howned
  rcases hpos with hpos | ⟨h₁, h₂, h₃, h₄⟩
  · refine ⟨h.of_core hcore hpos hissue (fun hi hd => ⟨_, hdecodes ▸ hi, hd⟩) ?_ ?_, ?_⟩
    · rw [howned]; exact id
    · rw [hdecodes]; exact id
    · rw [held, held, hpos, howned]
  · exact ⟨hcore.slotInv h₁ h₂ h₃, by rw [held, held, h₃, h₄, howned]⟩

theorem answer_undisturbed (h : SlotInv σ) (waiter : Waiter)
    (message : Option CompressionResponse) : Undisturbed σ (σ.answer waiter message) := by
  unfold answer
  split
  · exact h.repos rfl rfl rfl rfl (Or.inl rfl)
  · split
    · rename_i hpos
      exact h.repos rfl rfl rfl rfl (Or.inr ⟨by simp, rfl, rfl, by rw [hpos]; rfl⟩)
    · rename_i hpos
      exact h.repos rfl rfl rfl rfl (Or.inr ⟨by simp, rfl, rfl, by rw [hpos]; rfl⟩)
    · exact ⟨h, rfl⟩

theorem arrive_undisturbed (h : SlotInv σ) (response : CompressionResponse) :
    Undisturbed σ (σ.arrive response) := by
  unfold arrive
  split
  · exact ⟨h, rfl⟩
  · split
    · rename_i waiter rest _
      have hpop : Undisturbed σ { σ with waiters := rest } :=
        h.repos rfl rfl rfl rfl (Or.inl rfl)
      exact hpop.trans (answer_undisturbed hpop.1 _ _)
    · exact h.repos rfl rfl rfl rfl (Or.inl rfl)

theorem expireRecv_undisturbed {σ' : ConsumerSession} {waiter : Waiter} (h : SlotInv σ)
    (hσ' : σ.expireRecv waiter = some σ') : Undisturbed σ σ' := by
  unfold expireRecv at hσ'
  split at hσ'
  · obtain rfl := Option.some.inj hσ'
    have hpop : Undisturbed σ { σ with waiters := σ.waiters.erase waiter } :=
      h.repos rfl rfl rfl rfl (Or.inl rfl)
    exact hpop.trans (answer_undisturbed hpop.1 _ _)
  · cases hσ'

theorem startRecv_undisturbed {σ' : ConsumerSession} (h : SlotInv σ)
    (hσ' : σ.startRecv = some σ') : Undisturbed σ σ' := by
  unfold startRecv at hσ'
  split at hσ'
  · obtain rfl := Option.some.inj hσ'
    exact h.repos rfl rfl rfl rfl (Or.inl rfl)
  · obtain rfl := Option.some.inj hσ'
    exact h.repos rfl rfl rfl rfl (Or.inl rfl)
  · cases hσ'

theorem notify_undisturbed (h : SlotInv σ) (task : Awaited) : Undisturbed σ (σ.notify task) := by
  unfold notify
  split
  · rename_i hpos
    split
    · exact h.repos rfl rfl rfl rfl (Or.inr ⟨by simp, rfl, rfl, by rw [hpos]; rfl⟩)
    · exact ⟨h, rfl⟩
  · rename_i hpos _
    exact h.repos rfl rfl rfl rfl (Or.inr ⟨by simp, rfl, rfl, by rw [hpos]; rfl⟩)
  · exact ⟨h, rfl⟩

theorem callbacks_undisturbed {σ' : ConsumerSession} {task : Awaited} (h : SlotInv σ)
    (hσ' : σ.callbacks task = some σ') : Undisturbed σ σ' := by
  unfold callbacks at hσ'
  split at hσ'
  · rename_i hdone
    split at hσ'
    · rename_i i
      obtain rfl := Option.some.inj hσ'
      have huntrack : SlotInv (σ.untrack i) := by
        refine h.of_core (h.toSlotCore.untrack hdone) rfl rfl ?_ id ?_
        · intro i task hi hd
          rcases getElem?_modify_some hi with ⟨rfl, old, hold, rfl⟩ | ⟨-, hold⟩
          · exact ⟨old, hold, hd⟩
          · exact ⟨task, hold, hd⟩
        · intro hnil
          simp [untrack, ConsumerSession.modifyDecode, hnil]
      exact Undisturbed.trans ⟨huntrack, rfl⟩ (notify_undisturbed huntrack _)
    · obtain rfl := Option.some.inj hσ'
      exact notify_undisturbed h _
  · cases hσ'

/-- The first run of a session sends the open and owns nothing yet. -/
theorem start_undisturbed {init : InitMessage} {nonce : Nonce} {identity : Identity}
    (h : SlotInv σ) (hpos : σ.pos = .created) :
    Undisturbed σ (σ.start init nonce identity).session := by
  unfold start callRecv
  dsimp only
  split <;> exact h.repos rfl rfl rfl rfl (Or.inr ⟨by simp, rfl, rfl, by rw [hpos]; rfl⟩)

/-- A decode task moves on or ends. -/
theorem SlotInv.modifyDecode (h : SlotInv σ) {i : Nat} {f : DecodeTask → DecodeTask}
    (hf : ∀ task, σ.decodes[i]? = some task → AtMostEnds f task) :
    SlotInv (σ.modifyDecode i f) := by
  refine h.of_core (h.toSlotCore.modifyDecode hf) rfl rfl ?_ id ?_
  · intro j task hj hd
    rcases getElem?_modify_some hj with ⟨rfl, old, hold, rfl⟩ | ⟨-, hold⟩
    · exact ⟨old, hold, (hf old hold).running hd⟩
    · exact ⟨task, hold, hd⟩
  · intro hnil
    simp [ConsumerSession.modifyDecode, hnil]

theorem endDecode_slotInv (h : SlotInv σ) (i : Nat) (how : TaskEnd) : SlotInv (σ.endDecode i how) :=
  h.modifyDecode fun _ _ => ⟨Or.inl rfl, rfl, fun hrun => by cases hrun⟩

/-- Starting a decode task submits a job and keeps every slot. -/
theorem startDecode_slotInv {i : Nat} {turn : Turn} (h : SlotInv σ)
    (hturn : σ.startDecode i nextJob = some turn) :
    SlotInv turn.session ∧ turn.session.held = σ.held ∧ turn.puts = [] := by
  unfold startDecode at hturn
  split at hturn
  · rename_i job tracked hi
    obtain rfl := Option.some.inj hturn
    refine ⟨h.modifyDecode fun task htask => ?_, rfl, rfl⟩
    obtain rfl := Option.some.inj (hi.symm.trans htask)
    exact ⟨Or.inr rfl, rfl, fun _ => rfl⟩
  · cases hturn

theorem decodeTimeout_undisturbed {i : Nat} {futures : Nat → Option JobDone} {σ' : ConsumerSession}
    (h : SlotInv σ) (hσ' : σ.decodeTimeout i futures = some σ') : Undisturbed σ σ' := by
  unfold decodeTimeout at hσ'
  split at hσ'
  · split at hσ'
    · obtain rfl := Option.some.inj hσ'
      exact ⟨endDecode_slotInv h i _, rfl⟩
    · cases hσ'
  · cases hσ'

/-- A decode that succeeds gives its slot back; the slot is still owned. -/
theorem finishDecode_slotInv {i : Nat} {futures : Nat → Option JobDone} {turn : Turn}
    (h : SlotInv σ) (hturn : σ.finishDecode i futures = some turn) :
    SlotInv turn.session ∧ ∀ x, turn.puts.count x + turn.session.held.count x
      = σ.held.count x := by
  unfold finishDecode at hturn
  split at hturn
  · rename_i job id tracked hi
    obtain ⟨result, -, rfl⟩ := Option.map_eq_some_iff.mp hturn
    have hlive : σ.pos.isEnded = false := by
      by_contra hend
      have := h.drained (Or.inr (by simpa using hend)) hi
      cases this
    split
    · refine ⟨endDecode_slotInv h i _, fun x => ?_⟩
      simp only [List.count_nil, Nat.zero_add]
      rfl
    · -- The slot leaves `owned` together with the decode task that held it.
      have hmove (x : Nat) := count_filterMap_modify
        (fun task : DecodeTask => { task with pos := .finished .returned })
        DecodeTask.heldSlot x hi
      have hbusy (x : Nat) : (σ.endDecode i .returned).busySlots.count x + [job.slotId].count x
          ≤ σ.owned.count x := by
        have := hmove x
        have hb := h.busy x
        simp only [busySlots, decodingSlots, List.count_append, endDecode,
          ConsumerSession.modifyDecode] at hb ⊢
        simp only [DecodeTask.heldSlot, DecodeAt.isDone, List.count_singleton] at this hb ⊢
        simp only [if_true, Bool.false_eq_true, if_false, Option.some.injEq, beq_iff_eq,
          reduceCtorEq] at this ⊢
        omega
      have herase (x : Nat) : (σ.owned.erase job.slotId).count x
          = σ.owned.count x - [job.slotId].count x := by
        rw [List.count_erase, List.count_singleton]
      refine ⟨h.of_core ⟨fun x => ?_, ?_⟩ rfl rfl ?_ ?_ ?_, fun x => ?_⟩
      · have := hbusy x
        rw [herase]
        exact Nat.le_sub_of_add_le this
      · exact (endDecode_slotInv h i .returned).tracked
      · intro j task hj hd
        rcases getElem?_modify_some hj with ⟨rfl, old, hold, rfl⟩ | ⟨-, hold⟩
        · cases hd
        · exact ⟨task, hold, hd⟩
      · intro hnil
        simp [hnil]
      · intro hnil
        simp [hnil] at hi
      · have := hbusy x
        simp only [held, endDecode, ConsumerSession.modifyDecode, hlive, Bool.false_eq_true,
          if_false, herase]
        omega
  · cases hturn

/-- `issue_all` takes a slot nobody owns. -/
theorem issueChunk_slotInv {init : InitMessage} {chunkId slot : Nat} {fails : Bool}
    (h : SlotInv σ) (hissue : σ.issue = .running chunkId) (hslot : slot ∉ σ.owned) :
    SlotInv (σ.issueChunk init chunkId slot fails).session ∧
      (σ.issueChunk init chunkId slot fails).puts = [] ∧
      ∀ x, (σ.issueChunk init chunkId slot fails).session.held.count x
        = σ.held.count x + [slot].count x := by
  have hbody : σ.pos ≠ .created ∧ σ.pos.inFinally = false ∧ σ.pos.isEnded = false := by
    refine ⟨fun hpos => ?_, ?_, ?_⟩
    · rw [(h.created hpos).1] at hissue
      cases hissue
    · by_contra hf
      exact h.issued (Or.inl (by simpa using hf)) chunkId hissue
    · by_contra hf
      exact h.issued (Or.inr (by simpa using hf)) chunkId hissue
  have howned (x : Nat) : (σ.owned.insert slot).count x = σ.owned.count x + [slot].count x := by
    rw [List.insert_of_not_mem hslot, List.count_cons, List.count_singleton]
  have hcore : SlotCore { σ with
      owned := σ.owned.insert slot
      inflight := (chunkId, slot) :: σ.inflight.filter (·.1 ≠ chunkId) } := by
    refine ⟨fun x => ?_, h.tracked⟩
    have hbusy := h.busy x
    have hsub : ((σ.inflight.filter (·.1 ≠ chunkId)).map (·.2)).count x
        ≤ (σ.inflight.map (·.2)).count x := (List.filter_sublist.map _).count_le x
    rw [howned]
    simp only [busySlots, decodingSlots, List.count_append, List.map_cons, List.count_cons]
      at hbusy hsub ⊢
    omega
  unfold issueChunk
  cases fails
  · refine ⟨SlotCore.slotInv (hcore.of_eq rfl rfl rfl) hbody.1 hbody.2.1 hbody.2.2, rfl,
      fun x => ?_⟩
    simpa [held, hbody.2.2] using howned x
  · refine ⟨SlotCore.slotInv (hcore.of_eq rfl rfl rfl) hbody.1 hbody.2.1 hbody.2.2, rfl,
      fun x => ?_⟩
    simpa [held, hbody.2.2] using howned x

end ConsumerSession

/-! ### The pool -/

namespace Consumer

variable {s s' : Consumer} {sid : Nat}

/-- The receiver pool: the free slots and those owned by running sessions. -/
def pool (s : Consumer) : List Nat := s.receiverSlots ++ s.sessions.flatMap ConsumerSession.held

/-- The step does not cancel a session inside its own `finally` block. -/
def CleanCancel (s : Consumer) (a : Action) : Prop :=
  ∀ sid σ, a = .resume sid → s.sessions[sid]? = some σ → σ.cancelRequested = true →
    σ.pos.inFinally = false

/-- Every session keeps its own books. -/
def SlotsWf (s : Consumer) : Prop :=
  ∀ {sid : Nat} {σ : ConsumerSession}, s.sessions[sid]? = some σ → σ.SlotInv

/-- The two halves of the conservation of slots. -/
structure PoolInv (s : Consumer) (n : Nat) : Prop where
  sessions : s.SlotsWf
  perm : s.pool.Perm (List.range n)

theorem SlotsWf.apply (h : s.SlotsWf) {turn : Turn} (hturn : turn.session.SlotInv)
    (free : List Nat) : ({ s with receiverSlots := free }.apply sid turn).SlotsWf := by
  intro j σ hj
  rcases getElem?_modify_some hj with ⟨-, _, -, rfl⟩ | ⟨-, hold⟩
  · exact hturn
  · exact h hold

/-- A step of one session that moves slots between the session and the queue. -/
theorem PoolInv.apply {n : Nat} (h : s.PoolInv n) {σ : ConsumerSession} {turn : Turn}
    (hσ : s.sessions[sid]? = some σ) (hturn : turn.session.SlotInv) {free : List Nat}
    (hcount : ∀ x, free.count x + (turn.puts.count x + turn.session.held.count x)
      = s.receiverSlots.count x + σ.held.count x) :
    ({ s with receiverSlots := free }.apply sid turn).PoolInv n := by
  refine ⟨SlotsWf.apply h.sessions hturn free, (List.perm_iff_count.mpr fun x => ?_).trans h.perm⟩
  have hheld := count_flatMap_modify (fun _ => turn.session) ConsumerSession.held x hσ
  have hx := hcount x
  simp only [pool, Consumer.apply, List.count_append] at hheld ⊢
  omega

/-- The special case of a turn that conserves the slots of its own session. -/
theorem PoolInv.turn {n : Nat} (h : s.PoolInv n) {σ : ConsumerSession} {turn : Turn}
    (hσ : s.sessions[sid]? = some σ) (hturn : turn.session.SlotInv)
    (hcount : ∀ x, turn.puts.count x + turn.session.held.count x = σ.held.count x) :
    (s.apply sid turn).PoolInv n :=
  h.apply hσ hturn fun x => by rw [hcount x]

theorem PoolInv.onSession {n : Nat} {f : ConsumerSession → Option ConsumerSession}
    (h : s.PoolInv n) (hstep : s.onSession sid f = some s')
    (hf : ∀ {σ σ'}, σ.SlotInv → f σ = some σ' → σ.Undisturbed σ') : s'.PoolInv n := by
  obtain ⟨σ, σ', hσ, hσ', rfl⟩ := onSession_cases hstep
  obtain ⟨hinv, hheld⟩ := hf (h.sessions hσ) hσ'
  exact h.turn hσ hinv fun x => by simp [hheld]

theorem PoolInv.resume {n : Nat} (h : s.PoolInv n)
    (hclean : ∀ σ, s.sessions[sid]? = some σ → σ.cancelRequested = true →
      σ.pos.inFinally = false)
    (hstep : s.withSession sid (resumeSession (s.nextJobId + 1) s.futures) = some s') :
    s'.PoolInv n := by
  obtain ⟨σ, turn, hσ, hturn, rfl⟩ := withSession_cases hstep
  have hinv := h.sessions hσ
  unfold resumeSession at hturn
  split at hturn
  · rename_i hcancel
    have hcases := ConsumerSession.resumeCancelled_cases hturn
    have hfin := hclean σ hσ hcancel
    obtain ⟨hlive, hkeeps⟩ := hcases.keeps hinv hfin
    exact h.turn hσ (hcases.slotInv hinv hfin) (hkeeps.count hlive)
  · have hcases := ConsumerSession.resume_cases hturn
    exact h.turn hσ (hcases.slotInv hinv) (hcases.keeps.count hcases.live.2)

theorem PoolInv.issue {n : Nat} {fails : Bool} (h : s.PoolInv n)
    (hstep : s.issue sid fails = some s') : s'.PoolInv n := by
  obtain ⟨σ, chunkId, slot, rest, hσ, hissue, hslots, rfl⟩ := issue_cases hstep
  have hinv := h.sessions hσ
  have hlive : σ.pos.isEnded = false := by
    by_contra hend
    exact hinv.issued (Or.inr (by simpa using hend)) chunkId hissue
  -- The slot is free, so no session owns it.
  have hslot : slot ∉ σ.owned := by
    intro hmem
    have hnodup : s.pool.Nodup := h.perm.nodup_iff.mpr List.nodup_range
    have hdisj := (List.nodup_append.mp hnodup).2.2
    have hheld : slot ∈ s.sessions.flatMap ConsumerSession.held :=
      List.mem_flatMap.mpr ⟨σ, List.mem_of_getElem? hσ, by simpa [ConsumerSession.held, hlive]⟩
    exact hdisj slot (by simp [hslots]) slot hheld rfl
  obtain ⟨hturn, hputs, hcount⟩ :=
    ConsumerSession.issueChunk_slotInv hinv hissue hslot
  refine h.apply hσ hturn fun x => ?_
  rw [hputs, hcount, hslots, List.count_nil, List.count_cons (l := rest), List.count_singleton]
  omega

theorem newSession_slotInv (request : ConsumerRequest) (rid : Nat) :
    ConsumerSession.SlotInv { request, rid } where
  busy x := Nat.le_refl _
  tracked hi := by simp at hi
  created _ := ⟨rfl, rfl, rfl⟩
  issued hf := by rcases hf with hf | hf <;> cases hf
  decoding hp := by cases hp
  drained hp := by rcases hp with ⟨_, _, hp⟩ | hp <;> cases hp
  ended hp := by cases hp

theorem PoolInv.ensureRemoteAgent {n rid : Nat} {agents : Option Agents} (h : s.PoolInv n)
    (hstep : s.ensureRemoteAgent rid agents = some s') : s'.PoolInv n := by
  unfold Consumer.ensureRemoteAgent at hstep
  cases htask : s.requests[rid]? with
  | none => simp [htask] at hstep
  | some task =>
      simp only [htask, Option.bind_eq_bind, Option.bind_some] at hstep
      split at hstep
      · cases hstep
      · split at hstep
        · rename_i addr addrs _
          obtain rfl := Option.some.inj hstep
          have hnew : ∀ σ ∈ (addr :: addrs).map (fun _ =>
              { request := task.request, rid : ConsumerSession }),
              σ = { request := task.request, rid } := by
            simp
          refine ⟨fun {sid σ} hσ => ?_, ?_⟩
          · rcases List.mem_append.mp (List.mem_of_getElem? hσ) with hmem | hmem
            · obtain ⟨j, hj⟩ := List.getElem?_of_mem hmem
              exact h.sessions hj
            · rw [hnew σ hmem]
              exact newSession_slotInv task.request rid
          · have hnone : ((addr :: addrs).map (fun _ =>
                { request := task.request, rid : ConsumerSession })).flatMap
                ConsumerSession.held = [] :=
              List.flatMap_eq_nil_iff.mpr fun σ hmem => by rw [hnew σ hmem]; rfl
            simpa only [pool, List.flatMap_append, hnone, List.append_nil] using h.perm
        · obtain rfl := Option.some.inj hstep
          exact ⟨h.sessions, h.perm⟩

theorem PoolInv.gathered {n rid : Nat} (h : s.PoolInv n) (hstep : s.gathered rid = some s') :
    s'.PoolInv n := by
  have hend (request : ConsumerRequest) (failed : Finset Nat) :
      (s.endRequest rid request failed).PoolInv n := ⟨h.sessions, h.perm⟩
  unfold Consumer.gathered at hstep
  cases htask : s.requests[rid]? with
  | none => simp [htask] at hstep
  | some task =>
      simp only [htask, Option.bind_eq_bind, Option.bind_some] at hstep
      split at hstep
      · split at hstep
        · obtain rfl := Option.some.inj hstep
          exact hend _ _
        · cases hstep
      · split at hstep
        · obtain rfl := Option.some.inj hstep
          exact hend _ _
        · split at hstep
          · obtain rfl := Option.some.inj hstep
            exact hend _ _
          · cases hstep
      · cases hstep

theorem PoolInv.shutdown {n : Nat} (h : s.PoolInv n) : s.shutdown.PoolInv n := by
  refine ⟨fun {sid σ} hσ => ?_, ?_⟩
  · simp only [Consumer.shutdown, List.getElem?_map, Option.map_eq_some_iff] at hσ
    obtain ⟨old, hold, rfl⟩ := hσ
    split
    · exact h.sessions hold
    · refine (ConsumerSession.SlotInv.repos (h.sessions hold) ?_ ?_ ?_ ?_ (Or.inl ?_)).1 <;> rfl
  · have hheld : s.shutdown.sessions.flatMap ConsumerSession.held
        = s.sessions.flatMap ConsumerSession.held := by
      simp only [Consumer.shutdown, List.flatMap_map]
      refine List.flatMap_congr fun σ _ => ?_
      split <;> rfl
    have hperm := h.perm
    rw [pool] at hperm ⊢
    rw [hheld]
    exact hperm

/-- **One step keeps the receiver pool**, unless it cancels a session inside its
`finally` block. -/
theorem PoolInv.step {n : Nat} {a : Action} (h : s.PoolInv n) (hclean : s.CleanCancel a)
    (hstep : s.step a = some s') : s'.PoolInv n := by
  cases a with
  | consumerMetadata requests =>
      obtain rfl := Option.some.inj hstep
      exact ⟨h.sessions, h.perm⟩
  | ensureRemoteAgent rid agents => exact h.ensureRemoteAgent hstep
  | gathered rid => exact h.gathered hstep
  | start sid nonce identity =>
      simp only [Consumer.step] at hstep
      split at hstep
      · obtain ⟨σ, turn, hσ, hturn, rfl⟩ := withSession_cases hstep
        unfold startSession at hturn
        split at hturn
        · rename_i hpos
          obtain rfl := Option.some.inj hturn
          obtain ⟨hinv, hheld⟩ := ConsumerSession.start_undisturbed (h.sessions hσ) hpos.1
          refine h.turn hσ hinv fun x => ?_
          rw [hheld, ConsumerSession.start, List.count_nil, Nat.zero_add]
        · cases hturn
      · cases hstep
  | resume sid => exact h.resume (fun σ hσ hcancel => hclean sid σ rfl hσ hcancel) hstep
  | issue sid fails => exact h.issue hstep
  | startRecv sid => exact h.onSession hstep ConsumerSession.startRecv_undisturbed
  | callbacks sid task => exact h.onSession hstep ConsumerSession.callbacks_undisturbed
  | startDecode sid i =>
      obtain ⟨σ, turn, hσ, hturn, rfl⟩ := withSession_cases hstep
      obtain ⟨hinv, hheld, hputs⟩ := ConsumerSession.startDecode_slotInv (h.sessions hσ) hturn
      exact h.turn hσ hinv fun x => by simp [hheld, hputs]
  | finishDecode sid i =>
      obtain ⟨σ, turn, hσ, hturn, rfl⟩ := withSession_cases hstep
      obtain ⟨hinv, hcount⟩ := ConsumerSession.finishDecode_slotInv (h.sessions hσ) hturn
      exact h.turn hσ hinv hcount
  | decodeTimeout sid i => exact h.onSession hstep ConsumerSession.decodeTimeout_undisturbed
  | drainTimeout sid =>
      obtain ⟨σ, turn, hσ, hturn, rfl⟩ := withSession_cases hstep
      unfold Consumer.drainTimeout at hturn
      split at hturn
      · rename_i hpos
        split at hturn
        · obtain rfl := Option.some.inj hturn
          have hcases := @ConsumerSession.Resumes.finDrain _ 0 _ _ hpos
          exact h.turn hσ (hcases.slotInv (h.sessions hσ)) (hcases.keeps.count hcases.live.2)
        · cases hturn
      · cases hturn
  | deliver sid response =>
      refine h.onSession hstep fun {σ σ'} hσ hσ' => ?_
      obtain rfl := Option.some.inj hσ'
      exact ConsumerSession.arrive_undisturbed hσ response
  | expireRecv sid waiter => exact h.onSession hstep ConsumerSession.expireRecv_undisturbed
  | jobDone job result =>
      simp only [Consumer.step] at hstep
      split at hstep
      · obtain rfl := Option.some.inj hstep
        exact ⟨h.sessions, h.perm⟩
      · cases hstep
  | shutdown =>
      simp only [Consumer.step] at hstep
      split at hstep
      · cases hstep
      · obtain rfl := Option.some.inj hstep
        exact h.shutdown

theorem start_poolInv (init : InitMessage) :
    (start init).PoolInv init.slotAddresses.length := by
  refine ⟨fun hσ => by simp [start] at hσ, ?_⟩
  simp [pool, start]

end Consumer

end KVServe.Session
