import KVServe.Session.ProducerAbort
import KVServe.Session.ProducerConduct
import Mathlib.Data.List.GetD

/-!
# KVServe.Session.ProducerInside

The **chunks in flight** of a producer session. A pull handler is inside its
session from `inflight_chunks += 1` on; while one is, the session stays in
`_producer_sessions` unless it has just completed (`Book.Busy`), since only an
idle session is discarded.
-/

namespace KVServe.Session

/-- The session a pull handler has counted itself into. -/
def Coroutine.inside : Coroutine → Option Nat
  | chunkPull _ (.waitSlot sref) => some sref
  | chunkPull _ (.waitEncode sref ..) => some sref
  | chunkPull _ (.waitDrain sref ..) => some sref
  | _ => none

namespace Book

variable {now : Nat} {b b' : Book} {ref : Nat}

/-- `inflight_chunks` of every session. -/
def inflights (b : Book) : List Int := b.sessions.map (·.inflightChunks)

/-- A session with a chunk in flight is filed, unless it has completed. -/
def Busy (b : Book) : Prop :=
  ∀ (ref : Nat) (x : ProducerSession), b.sessions[ref]? = some x → 0 < x.inflightChunks →
    x.state ≠ .complete → b.registered ref = true

/-! ### What the operations leave of `inflight_chunks` -/

theorem inflights_modifySession {f : ProducerSession → ProducerSession}
    (hf : ∀ x, (f x).inflightChunks = x.inflightChunks) :
    (b.modifySession ref f).inflights = b.inflights := by
  refine List.ext_getElem? fun i => ?_
  rw [inflights, inflights, List.getElem?_map, List.getElem?_map, Book.modifySession,
    List.getElem?_modify]
  cases b.sessions[i]? with
  | none => rfl
  | some x =>
      by_cases hi : ref = i
      · simp [hi, hf]
      · simp [hi]

@[simp] theorem inflights_setSessionState (state : SessionState) :
    (b.setSessionState ref state).inflights = b.inflights :=
  inflights_modifySession fun _ => rfl

@[simp] theorem inflights_countChunk (chunkId : Nat) :
    (b.countChunk ref chunkId).inflights = b.inflights :=
  inflights_modifySession fun _ => rfl

theorem inflights_finishSendMeta (claim : Nat) :
    (b.finishSendMeta claim ref).inflights = b.inflights := by
  rw [inflights, (finishSendMeta_fields b claim ref).1, inflights]

@[simp] theorem inflights_completeProducerSession :
    (b.completeProducerSession now ref).inflights = b.inflights := by
  unfold completeProducerSession
  split
  · rfl
  · split
    · rw [inflights_finishSendMeta]
      exact inflights_setSessionState _
    · rfl

@[simp] theorem inflights_discardProducerSession :
    (b.discardProducerSession ref).inflights = b.inflights := by
  unfold discardProducerSession
  split
  · rfl
  · split
    · split
      · rw [inflights_finishSendMeta]
        rfl
      · rfl
    · rfl

@[simp] theorem inflights_discardIfIdle : (b.discardIfIdle ref).inflights = b.inflights := by
  unfold discardIfIdle
  split
  · split
    · exact inflights_discardProducerSession
    · rfl
  · rfl

@[simp] theorem inflights_completeIfDone : (b.completeIfDone now ref).inflights = b.inflights := by
  unfold completeIfDone
  split
  · split
    · exact inflights_completeProducerSession
    · rfl
  · rfl

@[simp] theorem inflights_cancelSession : (b.cancelSession ref).inflights = b.inflights := by
  rw [cancelSession, inflights_discardIfIdle, inflights_setSessionState]

@[simp] theorem inflights_cancelAll (key : OperationKey) :
    (b.cancelAll key).inflights = b.inflights := by
  unfold cancelAll
  generalize List.range b.sessions.length = refs
  induction refs generalizing b with
  | nil => rfl
  | cons ref refs ih =>
      rw [List.foldl_cons, ih, cancelMatching]
      split
      · split
        · exact inflights_cancelSession
        · rfl
      · rfl

/-! ### Only idle sessions are discarded -/

theorem Busy.of_eq (h : Busy b) (hsessions : b'.sessions = b.sessions)
    (hfiled : b'.producerSessions = b.producerSessions) : Busy b' := by
  intro i x hx hpos hstate
  rw [registered, hsessions, hfiled]
  exact h i x (hsessions ▸ hx) hpos hstate

theorem registered_modifySession {f : ProducerSession → ProducerSession}
    (hkey : ∀ x, (f x).key = x.key) (i : Nat) :
    (b.modifySession ref f).registered i = b.registered i := by
  rw [registered, registered]
  cases hx : b.sessions[i]? with
  | none =>
      have hnone : (b.modifySession ref f).sessions[i]? = none := by
        rw [Book.modifySession, List.getElem?_modify, hx]
        rfl
      rw [hnone]
  | some x =>
      by_cases hi : ref = i
      · subst hi
        rw [show (b.modifySession ref f).sessions[ref]? = some (f x) from
          getElem?_modify_self hx f]
        simp [hkey, Book.modifySession]
      · rw [show (b.modifySession ref f).sessions[i]? = some x from
          (getElem?_modify_ne hi f).trans hx]
        rfl

theorem registered_addInflight (n : Int) (i : Nat) :
    (b.addInflight ref n).registered i = b.registered i :=
  registered_modifySession (f := fun x => { x with inflightChunks := x.inflightChunks + n })
    (fun _ => rfl) i

/-- A filed session changes. -/
theorem Busy.modifySession (h : Busy b) {f : ProducerSession → ProducerSession}
    (hkey : ∀ x, (f x).key = x.key)
    (hf : ∀ x, b.sessions[ref]? = some x → b.registered ref = true ∨
      ((f x).inflightChunks ≤ x.inflightChunks ∧ (x.state = .complete → (f x).state = .complete))) :
    Busy (b.modifySession ref f) := by
  intro i y hy hpos hstate
  rw [registered_modifySession hkey]
  rcases getElem?_modify_some hy with ⟨rfl, x, hx, rfl⟩ | ⟨-, hx⟩
  · rcases hf x hx with hfiled | ⟨hle, hcomplete⟩
    · exact hfiled
    · exact h ref x hx (by omega) fun hdone => hstate (hcomplete hdone)
  · exact h i y hx hpos hstate

/-- A session is taken out that is idle or completes. -/
theorem Busy.takeOut (h : Busy b) (hl : Ledger b) {x y : ProducerSession}
    (hx : b.sessions[ref]? = some x) (hkey : y.key = x.key)
    (hout : y.inflightChunks ≤ 0 ∨ y.state = .complete)
    (hself : b'.sessions[ref]? = some y) (hother : ∀ i ≠ ref, b'.sessions[i]? = b.sessions[i]?)
    (hfiled : b'.producerSessions = Function.update b.producerSessions x.key none) : Busy b' := by
  intro i z hz hpos hstate
  by_cases hi : i = ref
  · subst hi
    obtain rfl := Option.some.inj (hz.symm.trans hself)
    rcases hout with hidle | hdone
    · omega
    · exact absurd hdone hstate
  · have hz' := (hother i hi).symm.trans hz
    have hreg := h i z hz' hpos hstate
    have hne : z.key ≠ x.key := fun heq => hi (hl.sess.key hz' hx heq)
    rw [registered_iff hz, hfiled, Function.update_of_ne hne]
    exact (registered_iff hz').mp hreg

theorem Busy.completeProducerSession (h : Busy b) (hl : Ledger b) :
    Busy (b.completeProducerSession now ref) := by
  unfold Book.completeProducerSession
  split
  · exact h
  · rename_i x hx
    split
    · have hout : Busy (((b.popSession x.key).setSessionState ref .complete).close now
          x.operationKey) :=
        h.takeOut (y := { x with state := .complete }) hl hx rfl (Or.inr rfl)
          (getElem?_modify_self hx _) (fun i hi => getElem?_modify_ne (Ne.symm hi) _) rfl
      obtain ⟨hsessions, hfiled, -⟩ := finishSendMeta_fields (((b.popSession x.key).setSessionState
        ref .complete).close now x.operationKey) x.opener x.sendState
      exact hout.of_eq hsessions hfiled
    · rename_i hreg
      rw [hl.key_free hx hreg]
      exact h

theorem Busy.discardIfIdle (h : Busy b) (hl : Ledger b) : Busy (b.discardIfIdle ref) := by
  unfold Book.discardIfIdle
  split
  · rename_i x hx
    split
    · rename_i hidle
      unfold Book.discardProducerSession
      rw [hx]
      dsimp only
      split
      · rw [if_pos hidle.2]
        have hout : Busy (b.popSession x.key) :=
          h.takeOut hl hx rfl (Or.inl (by omega)) hx (fun _ _ => rfl) rfl
        obtain ⟨hsessions, hfiled, -⟩ :=
          finishSendMeta_fields (b.popSession x.key) x.opener x.sendState
        exact hout.of_eq hsessions hfiled
      · rename_i hreg
        rw [hl.key_free hx hreg]
        exact h
    · exact h
  · exact h

theorem Busy.completeIfDone (h : Busy b) (hl : Ledger b) : Busy (b.completeIfDone now ref) := by
  unfold Book.completeIfDone
  split
  · split
    · exact h.completeProducerSession hl
    · exact h
  · exact h

/-- A filed session dies. -/
theorem Busy.setSessionState (h : Busy b) {state : SessionState} (hreg : b.registered ref = true) :
    Busy (b.setSessionState ref state) :=
  h.modifySession (f := fun x => { x with state }) (fun _ => rfl) fun _ _ => Or.inl hreg

theorem Busy.cancelSession (h : Busy b) (hl : Ledger b) (hreg : b.registered ref = true) :
    Busy (b.cancelSession ref) :=
  (h.setSessionState hreg).discardIfIdle (hl.setDead rfl)

theorem Busy.cancelAll (h : Busy b) (hl : Ledger b) (key : OperationKey) : Busy (b.cancelAll key) := by
  unfold Book.cancelAll
  generalize List.range b.sessions.length = refs
  induction refs generalizing b with
  | nil => exact h
  | cons ref refs ih =>
      refine ih ?_ (hl.cancelMatching key)
      unfold cancelMatching
      split
      · split
        · rename_i hmatch
          exact h.cancelSession hl hmatch.1
        · exact h
      · exact h

/-- A new session has no chunk in flight. -/
theorem Busy.addSession (h : Busy b) {x : ProducerSession} (hidle : x.inflightChunks = 0)
    (hkey : ∀ {i : Nat} {y : ProducerSession}, b.sessions[i]? = some y → y.key ≠ x.key) :
    Busy (b.addSession x) := by
  intro i y hy hpos hstate
  rcases getElem?_append_some hy with hold | ⟨-, rfl⟩
  · have hreg := (registered_iff hold).mp (h i y hold hpos hstate)
    rw [registered_iff hy]
    simp [Book.addSession, Function.update_of_ne (hkey hold), hreg]
  · omega

/-- A failed open touches no session. -/
theorem openFailed_sessions (b : Book) (tid : Nat) (transferId : TransferId) (ref : Nat)
    (isNew claimed : Bool) :
    (b.openFailed tid transferId ref isNew claimed).sessions = b.sessions ∧
      (b.openFailed tid transferId ref isNew claimed).producerSessions = b.producerSessions := by
  have hdrop : ∀ b : Book, (b.dropPlaceholder transferId ref isNew).sessions = b.sessions ∧
      (b.dropPlaceholder transferId ref isNew).producerSessions = b.producerSessions := by
    intro b
    unfold dropPlaceholder
    split
    · split <;> exact ⟨rfl, rfl⟩
    · exact ⟨rfl, rfl⟩
  obtain ⟨h₁, h₂⟩ := hdrop (if claimed then b.finishSendMeta tid ref else b)
  obtain ⟨h₃, h₄, -⟩ := finishSendMeta_fields b tid ref
  unfold openFailed
  rw [h₁, h₂]
  cases claimed
  · exact ⟨rfl, rfl⟩
  · exact ⟨h₃, h₄⟩

/-- Neither does the engine's metadata, nor the sweep. -/
theorem applyProducerMetadata_sessions (b : Book) (now : Nat) (message : ProducerMetadata) :
    (b.applyProducerMetadata now message).sessions = b.sessions ∧
      (b.applyProducerMetadata now message).producerSessions = b.producerSessions := by
  refine applyProducerMetadata_keeps (P := fun c => c.sessions = b.sessions ∧
    c.producerSessions = b.producerSessions) (fun c a h => ?_) (fun c a h => ?_)
    (fun c _ h => h) message ⟨rfl, rfl⟩
  · unfold applyAnnouncement
    dsimp only
    split <;> exact h
  · unfold applyPublish
    split <;> exact h

theorem sweepSends_sessions (b : Book) (now : Nat) : (b.sweepSends now).sessions = b.sessions ∧
    (b.sweepSends now).producerSessions = b.producerSessions := by
  refine foldl_keeps (P := fun c => c.sessions = b.sessions ∧
    c.producerSessions = b.producerSessions) (fun c ref h => ?_) _ ⟨rfl, rfl⟩
  unfold sweepState
  split
  · exact h
  · split <;> exact h

theorem getD_addSession {x : ProducerSession} (hidle : x.inflightChunks = 0) (i : Nat) :
    (b.addSession x).inflights.getD i 0 = b.inflights.getD i 0 := by
  have hnew : (b.addSession x).inflights = b.inflights ++ [0] := by
    rw [inflights, Book.addSession, List.map_append, List.map_singleton, hidle, inflights]
  rw [hnew]
  rcases Nat.lt_or_ge i b.inflights.length with hlt | hge
  · exact List.getD_append _ _ _ _ hlt
  · rw [List.getD_append_right _ _ _ _ hge, List.getD_eq_default _ _ hge]
    cases i - b.inflights.length <;> rfl

theorem getD_addInflight {x : ProducerSession} (hx : b.sessions[ref]? = some x) (n : Int) (i : Nat) :
    (b.addInflight ref n).inflights.getD i 0 = b.inflights.getD i 0 + if ref = i then n else 0 := by
  rw [List.getD_eq_getElem?_getD, List.getD_eq_getElem?_getD, inflights, inflights,
    List.getElem?_map, List.getElem?_map, addInflight, modifySession, List.getElem?_modify]
  by_cases hi : ref = i
  · subst hi
    simp [hx]
  · simp [hi]

end Book

namespace Producer

variable {s s' : Producer} {tid : Nat} {task : Task} {late : Bool} {c : Coroutine}

/-- The sessions of the pull handlers that are inside one. -/
def insides (s : Producer) : List Nat := s.tasks.filterMap fun task => task.coro.inside

/-- `inflight_chunks` counts at least the handlers inside. -/
structure InsideInv (s : Producer) : Prop where
  counted : ∀ sref, (s.insides.count sref : Int) ≤ s.book.inflights.getD sref 0
  busy : s.book.Busy

theorem count_insides_pos {sref : Nat} (htask : s.tasks[tid]? = some task)
    (hinside : task.coro.inside = some sref) : 0 < s.insides.count sref :=
  List.count_pos_iff.mpr (List.mem_filterMap.mpr ⟨task, List.mem_of_getElem? htask, hinside⟩)

/-- The session a handler is inside of is the one it serves. -/
theorem ConductInv.inside_serves (hinv : ConductInv s) {sref : Nat}
    (htask : s.tasks[tid]? = some task) (hinside : task.coro.inside = some sref) :
    ∃ request, task.coro.request = .chunkPull request ∧ task.coro.isDone = false ∧
      Serves s.book task.identity request sref := by
  have hwf := hinv.task htask
  cases hcoro : task.coro with
  | sessionOpen request pos => rw [hcoro] at hinside; cases hinside
  | abort request pos => rw [hcoro] at hinside; cases hinside
  | chunkPull request pos =>
      rw [hcoro] at hwf hinside
      refine ⟨request, rfl, ?_⟩
      cases pos with
      | created => cases hinside
      | done => cases hinside
      | waitSlot sref' => cases hinside; exact ⟨rfl, hwf⟩
      | waitEncode sref' slot job => cases hinside; exact ⟨rfl, hwf⟩
      | waitDrain sref' slot job reply => cases hinside; exact ⟨rfl, hwf.1⟩

/-- **A session with a handler inside has not completed**: each of its chunks is counted by
a handler that has ended. -/
theorem ConductInv.not_complete (hinv : ConductInv s) {sref : Nat} {x : ProducerSession}
    (htask : s.tasks[tid]? = some task) (hinside : task.coro.inside = some sref)
    (hx : s.book.sessions[sref]? = some x) : x.state ≠ .complete := by
  intro hdone
  obtain ⟨request, hrequest, hrun, y, hy, hid, -, hchunk⟩ := hinv.inside_serves htask hinside
  obtain rfl := Option.some.inj (hx.symm.trans hy)
  have hwf := hinv.ledger.sess.session hx
  have hsession := hinv.session hx
  have hall : x.totalChunks ≤ x.encoded.length := hwf.counted ▸ (hwf.complete hdone).2
  obtain ⟨-, j, u, hu, hpulled⟩ := hsession.pulled _ (hsession.all_encoded hall hchunk)
  unfold pulled? at hpulled
  split at hpulled
  · rename_i request' hcoro
    obtain ⟨hpeer, hid'⟩ := Prod.mk.inj (Option.some.inj hpulled)
    obtain rfl : j = tid := hinv.pulls hu htask (by rw [hcoro]; rfl) hrequest
      (hpeer.trans hid) hid'
    obtain rfl := Option.some.inj (htask.symm.trans hu)
    rw [hcoro] at hrun
    cases hrun
  · cases hpulled

/-- **A session with a handler inside is filed.** -/
theorem InsideInv.registered (h : InsideInv s) (hinv : ConductInv s) {sref : Nat}
    (htask : s.tasks[tid]? = some task) (hinside : task.coro.inside = some sref) :
    s.book.registered sref = true := by
  obtain ⟨request, -, -, x, hx, -⟩ := hinv.inside_serves htask hinside
  refine h.busy sref x hx ?_ (hinv.not_complete htask hinside hx)
  have hcounted := h.counted sref
  have hpos := count_insides_pos htask hinside
  rw [List.getD_eq_getElem?_getD, Book.inflights, List.getElem?_map, hx] at hcounted
  simp only [Option.map_some, Option.getD_some] at hcounted
  omega

/-- One handler moves. -/
theorem InsideInv.moves (h : InsideInv s) (htask : s.tasks[tid]? = some task)
    (htasks : s'.tasks = (s.setCoro tid c).tasks) (hbusy : s'.book.Busy)
    (hdelta : ∀ x, s.book.inflights.getD x 0 + (if c.inside = some x then 1 else 0) ≤
      s'.book.inflights.getD x 0 + if task.coro.inside = some x then 1 else 0) : InsideInv s' := by
  refine ⟨fun x => ?_, hbusy⟩
  have hmove := count_filterMap_modify (fun task : Task => { task with coro := c })
    (fun task : Task => task.coro.inside) x htask
  have hcounted := h.counted x
  have hle := hdelta x
  rw [insides, htasks]
  simp only [setCoro]
  unfold insides at hcounted
  by_cases h₁ : c.inside = some x <;> by_cases h₂ : task.coro.inside = some x <;>
    simp only [h₁, h₂, if_true, if_false] at hmove hle <;> omega

/-- A handler that is inside no session moves, and `inflight_chunks` stays. -/
theorem InsideInv.moves_outside (h : InsideInv s) (htask : s.tasks[tid]? = some task)
    (htasks : s'.tasks = (s.setCoro tid c).tasks) (hbusy : s'.book.Busy)
    (hinflights : s'.book.inflights = s.book.inflights)
    (hinside : c.inside = none ∨ c.inside = task.coro.inside) : InsideInv s' := by
  refine h.moves htask htasks hbusy fun x => ?_
  rw [hinflights]
  rcases hinside with hinside | hinside
  · rw [hinside, if_neg (by simp)]
    split <;> omega
  · rw [hinside]

/-! ### The runs of a handler -/

/-- The session filed for a pull. -/
theorem registered_of_key (hinv : ConductInv s) {key : SessionKey} {sref : Nat}
    (hkey : s.book.producerSessions key = some sref) : s.book.registered sref = true := by
  obtain ⟨x, hx, hxkey⟩ := hinv.ledger.sess.filed hkey
  rw [Book.registered_iff hx, hxkey]
  exact hkey

/-- So is the session an abort finds. -/
theorem found_registered (hinv : ConductInv s) {request : CompressionAbort} {sref : Nat}
    (hfound : s.book.sameNonce request (s.book.findSession identity request) = some sref) :
    s.book.registered sref = true := by
  unfold Book.sameNonce at hfound
  obtain ⟨ref, hfind, hnonce⟩ := Option.bind_eq_some_iff.mp hfound
  obtain rfl : ref = sref := by
    split at hnonce
    · exact Option.some.inj hnonce
    · cases hnonce
  unfold Book.findSession at hfind
  split at hfind
  · rename_i hkey
    obtain rfl := Option.some.inj hfind
    exact registered_of_key hinv hkey
  · have hmatch := List.find?_some hfind
    exact (Bool.and_eq_true_iff.mp hmatch).1

/-- A handler that was inside its session leaves it. -/
theorem InsideInv.leaves (h : InsideInv s) (hinv : ConductInv s)
    (htask : s.tasks[tid]? = some task) {sref : Nat} (hinside : task.coro.inside = some sref)
    {t : Producer} {request : CompressionChunkPull} {response : Option CompressionChunkReady}
    (htasks : t.tasks = s.tasks) (hbusy : t.book.Busy) (hledger : t.book.Ledger)
    (hinflights : t.book.inflights = s.book.inflights) :
    InsideInv (t.leaveChunk tid task.identity request sref true response) := by
  obtain ⟨-, -, -, x, hx, -⟩ := hinv.inside_serves htask hinside
  have hold : t.book.inflights[sref]? = some x.inflightChunks := by
    rw [hinflights, Book.inflights, List.getElem?_map, hx]
    rfl
  obtain ⟨y, hy, -⟩ : ∃ y, t.book.sessions[sref]? = some y ∧ y.inflightChunks = x.inflightChunks :=
    Option.map_eq_some_iff.mp (by rw [← hold, Book.inflights, List.getElem?_map])
  refine h.moves (c := .chunkPull request .done) htask ?_ ?_ fun i => ?_
  · rw [leaveChunk_tasks, setCoro, setCoro, htasks]
  · rw [leaveChunk_book]
    refine Book.Busy.discardIfIdle ?_ (hledger.addInflight _)
    exact hbusy.modifySession (fun _ => rfl) fun x _ =>
      Or.inr ⟨by dsimp only; omega, fun hdone => hdone⟩
  · rw [leaveChunk_book, Book.inflights_discardIfIdle, if_pos rfl, Book.getD_addInflight hy,
      hinflights, hinside]
    simp only [Coroutine.inside, Option.some.injEq]
    by_cases hi : sref = i
    · simp [hi]
    · simp [hi]

theorem InsideInv.runs_open {request : CompressionSessionOpen} {pos : OpenAt} (h : InsideInv s)
    (hinv : ConductInv s) (htask : s.tasks[tid]? = some task)
    (hcoro : task.coro = .sessionOpen request pos)
    (hruns : Runs s tid task.identity late (.sessionOpen request pos) s') : InsideInv s' := by
  have key {t : Producer} {c : Coroutine} (htasks : t.tasks = (s.setCoro tid c).tasks)
      (hsessions : t.book.sessions = s.book.sessions)
      (hfiled : t.book.producerSessions = s.book.producerSessions)
      (hinside : c.inside = none) : InsideInv t :=
    h.moves_outside htask htasks (h.busy.of_eq hsessions hfiled)
      (by rw [Book.inflights, hsessions, Book.inflights]) (Or.inl hinside)
  have henters {transferId : TransferId} {b : Book} {ref : Nat} {isNew : Bool} {deadline : Nat}
      (henter : Enters s transferId pos b ref isNew deadline) :
      b.sessions = s.book.sessions ∧ b.producerSessions = s.book.producerSessions := by
    cases henter <;> exact ⟨rfl, rfl⟩
  cases hruns with
  | openEmpty => exact key rfl rfl rfl rfl
  | openWaits hreq henter => exact key rfl (henters henter).1 (henters henter).2 rfl
  | @openRefused _ _ _ transferId _ _ b ref isNew _ message hreq henter =>
      obtain ⟨hsessions, hfiled⟩ := b.openFailed_sessions tid transferId ref isNew false
      exact key rfl (hsessions.trans (henters henter).1) (hfiled.trans (henters henter).2) rfl
  | @openClosed _ _ _ transferId _ _ b ref isNew _ ranks hreq henter =>
      obtain ⟨hsessions, hfiled⟩ :=
        (b.claim tid ref ranks.length).openFailed_sessions tid transferId ref isNew true
      exact key rfl (hsessions.trans (henters henter).1) (hfiled.trans (henters henter).2) rfl
  | openSubmits hreq henter => exact key rfl (henters henter).1 (henters henter).2 rfl
  | @openErrs _ _ transferId _ _ ref _ isNew message hreq =>
      obtain ⟨hsessions, hfiled⟩ := s.book.openFailed_sessions tid transferId ref isNew true
      exact key rfl hsessions hfiled rfl
  | @openFiles _ dReqId transferId blocks more ref job isNew result hreq hdone hok =>
      have hwf := hinv.task htask
      rw [hcoro] at hwf
      obtain ⟨-, -, -, hsession⟩ := hwf
      have hledger := @ConductInv.addSession _ _ _ hinv htask _ _ _ _ hcoro dReqId transferId result
      have hadd : (s.book.addSession
          (newSession tid task.identity request dReqId transferId ref result)).Busy :=
        h.busy.addSession rfl fun hy => hinv.key_fresh htask hcoro hsession hy
      rw [openAnswered, hok]
      refine h.moves (c := .sessionOpen request .done) htask rfl ?_ fun i => ?_
      · simp only [mapBook, reply, setCoro]
        split
        · exact hadd.completeProducerSession hledger
        · exact hadd
      · have hsame : ((s.book.addSession (newSession tid task.identity request dReqId transferId ref
            result)).inflights).getD i 0 = s.book.inflights.getD i 0 := Book.getD_addSession rfl i
        simp only [mapBook, reply, setCoro, Coroutine.inside, hcoro, reduceCtorEq, if_false]
        split
        · rw [Book.inflights_completeProducerSession, hsame]
        · rw [hsame]

theorem InsideInv.runs_pull {request : CompressionChunkPull} {pos : PullAt} (h : InsideInv s)
    (hinv : ConductInv s) (htask : s.tasks[tid]? = some task)
    (hcoro : task.coro = .chunkPull request pos)
    (hruns : Runs s tid task.identity late (.chunkPull request pos) s') : InsideInv s' := by
  have hledger := hinv.ledger
  -- a handler that got a slot is counted in, and its session is filed
  have hslots {b : Book} {sref slot : Nat} {rest : List Nat} {session : ProducerSession}
      (hslot : GetsSlot s task.identity request pos b sref slot rest session) :
      b.Busy ∧ b.registered sref = true ∧ ∀ i, s.book.inflights.getD i 0 +
        (if sref = i then 1 else 0) ≤ b.inflights.getD i 0 +
          if task.coro.inside = some i then 1 else 0 := by
    cases hslot with
    | fresh hkey hsession hactive hslots =>
        have hreg := registered_of_key hinv hkey
        refine ⟨h.busy.modifySession (fun _ => rfl) fun _ _ => Or.inl hreg, ?_, fun i => ?_⟩
        · rw [Book.registered_addInflight]
          exact hreg
        · rw [Book.getD_addInflight hsession, hcoro]
          simp [Coroutine.inside]
    | woken hsession hslots =>
        refine ⟨h.busy, h.registered hinv htask (by rw [hcoro]; rfl), fun i => ?_⟩
        rw [hcoro]
        simp [Coroutine.inside]
  cases hruns with
  | pullUnknown =>
      exact h.moves_outside htask (c := .chunkPull request .done) rfl h.busy rfl (Or.inl rfl)
  | pullRefused hkey hsession hstate =>
      refine h.moves_outside htask leaveChunk_tasks ?_ ?_ (Or.inl rfl)
      · rw [leaveChunk_book]
        exact (h.busy.setSessionState (registered_of_key hinv hkey)).discardIfIdle
          (hledger.setDead rfl)
      · rw [leaveChunk_book]
        simp [mapBook]
  | @pullWaits _ sref _ hkey hsession hactive =>
      refine h.moves (c := .chunkPull request (.waitSlot sref)) htask rfl ?_ fun i => ?_
      · exact h.busy.modifySession (fun _ => rfl) fun _ _ => Or.inl (registered_of_key hinv hkey)
      · rw [hcoro]
        simp only [mapBook, setCoro, Coroutine.inside, Book.getD_addInflight hsession,
          Option.some.injEq, reduceCtorEq, if_false]
        omega
  | @pullAborted _ _ b sref slot _ _ message hslot =>
      obtain ⟨hbusy, hreg, hdelta⟩ := hslots hslot
      refine h.moves (c := .chunkPull request (.waitDrain sref slot (s.nextJobId + 1)
        (some (.failed request.chunkId message)))) htask rfl (hbusy.setSessionState hreg) fun i => ?_
      simp only [chunkFailed, drainSlot, submit, mapBook, setCoro,
        Book.inflights_setSessionState, Coroutine.inside, Option.some.injEq]
      exact hdelta i
  | @pullSubmits _ _ b sref slot _ _ hslot =>
      obtain ⟨hbusy, hreg, hdelta⟩ := hslots hslot
      refine h.moves (c := .chunkPull request (.waitEncode sref slot (s.nextJobId + 1)))
        htask rfl hbusy fun i => ?_
      simp only [submit, setCoro, Coroutine.inside, Option.some.injEq]
      exact hdelta i
  | @pullErrs _ sref slot job message =>
      have hinside : task.coro.inside = some sref := by rw [hcoro]; rfl
      refine h.moves_outside (c := .chunkPull request (.waitDrain sref slot (s.nextJobId + 1)
        (some (.failed request.chunkId message)))) htask rfl
        (h.busy.setSessionState (h.registered hinv htask hinside)) ?_ (Or.inr hinside.symm)
      simp [chunkFailed, drainSlot, submit, mapBook, setCoro]
  | @pullEncoded _ sref slot job result hdone hok =>
      rw [encodeAnswered, hok]
      refine h.leaves hinv htask (by rw [hcoro]; rfl) rfl ?_ (hledger.chunkEncoded _) ?_
      · refine Book.Busy.completeIfDone ?_ (hledger.countChunk _)
        exact h.busy.modifySession (fun _ => rfl) fun _ _ => Or.inr ⟨le_rfl, fun hd => hd⟩
      · simp [mapBook, putSlot, Book.chunkEncoded]
  | pullDrained =>
      exact h.leaves hinv htask (by rw [hcoro]; rfl) rfl h.busy hledger rfl

theorem InsideInv.runs_abort {request : CompressionAbort} {pos : AbortAt} (h : InsideInv s)
    (hinv : ConductInv s) (htask : s.tasks[tid]? = some task)
    (hruns : Runs s tid task.identity late (.abort request pos) s') : InsideInv s' := by
  have hledger := hinv.ledger
  cases hruns with
  | abortStarts =>
      have hclose : (s.book.close s.now request.operationKey).Busy := h.busy.of_eq rfl rfl
      refine h.moves_outside htask rfl ?_ ?_ (Or.inl rfl)
      · simp only [abortProducer, mapBook, setCoro]
        split
        · rename_i sref hfound
          refine hclose.cancelSession (hledger.of_eq rfl rfl rfl rfl rfl) ?_
          exact found_registered hinv hfound
        · exact hclose
      · simp only [abortProducer, mapBook, setCoro]
        split
        · exact Book.inflights_cancelSession
        · rfl
  | abortAcks =>
      exact h.moves_outside htask rfl (h.busy.cancelAll hledger _) (Book.inflights_cancelAll _)
        (Or.inl rfl)
  | abortTimesOut =>
      exact h.moves_outside htask rfl (h.busy.cancelAll hledger _) (Book.inflights_cancelAll _)
        (Or.inl rfl)

/-- **Every run of a handler keeps the count.** -/
theorem InsideInv.runs (h : InsideInv s) (hinv : ConductInv s) (htask : s.tasks[tid]? = some task)
    (hruns : Runs s tid task.identity late task.coro s') : InsideInv s' := by
  cases hcoro : task.coro with
  | sessionOpen request pos => exact h.runs_open hinv htask hcoro (hcoro ▸ hruns)
  | chunkPull request pos => exact h.runs_pull hinv htask hcoro (hcoro ▸ hruns)
  | abort request pos => exact h.runs_abort hinv htask (hcoro ▸ hruns)

/-! ### The other steps -/

/-- The handlers stay where they are. -/
theorem InsideInv.frame (h : InsideInv s) (hinsides : s'.insides = s.insides)
    (hbusy : s'.book.Busy) (hinflights : s'.book.inflights = s.book.inflights) : InsideInv s' :=
  ⟨fun sref => by rw [hinsides, hinflights]; exact h.counted sref, hbusy⟩

theorem clearCancel_insides : (s.clearCancel tid).insides = s.insides := by
  have hcoros := congrArg (List.filterMap Coroutine.inside) (@clearCancel_coros s tid)
  rw [List.filterMap_map, List.filterMap_map] at hcoros
  exact hcoros

/-- A cancelled handler is counted out, or its session keeps the count. -/
theorem InsideInv.runCancelled (h : InsideInv s) (hinv : ConductInv s)
    (htask : s.tasks[tid]? = some task) : InsideInv (s.runCancelled tid task) := by
  have hclear : InsideInv (s.clearCancel tid) := h.frame clearCancel_insides h.busy rfl
  have htask' : (s.clearCancel tid).tasks[tid]? = some { task with cancelRequested := false } :=
    getElem?_modify_self htask _
  cases hcoro : task.coro with
  | sessionOpen request pos =>
      simp only [Producer.runCancelled, hcoro]
      exact hclear.moves_outside htask' rfl h.busy rfl (Or.inl rfl)
  | abort request pos =>
      simp only [Producer.runCancelled, hcoro]
      exact hclear.moves_outside htask' rfl h.busy rfl (Or.inl rfl)
  | chunkPull request pos =>
      simp only [Producer.runCancelled, hcoro]
      cases pos with
      | waitSlot sref =>
          exact hclear.leaves hinv.clearCancel htask' (by rw [hcoro]; rfl) rfl h.busy hinv.ledger rfl
      | waitEncode sref slot job =>
          exact hclear.moves_outside htask' rfl h.busy rfl (Or.inr (by rw [hcoro]; rfl))
      | created => exact hclear.moves_outside htask' rfl h.busy rfl (Or.inl rfl)
      | waitDrain => exact hclear.moves_outside htask' rfl h.busy rfl (Or.inl rfl)
      | done => exact hclear.moves_outside htask' rfl h.busy rfl (Or.inl rfl)

theorem newTask_inside (request : CompressionRequest) :
    (newTask identity request).coro.inside = none := by
  cases request <;> rfl

theorem InsideInv.dispatch (h : InsideInv s) (request : CompressionRequest) :
    InsideInv (s.dispatchProducer identity request) := by
  unfold dispatchProducer
  split
  · exact h
  · refine h.frame ?_ (h.busy.of_eq rfl rfl) rfl
    simp [insides, List.filterMap_append, newTask_inside]

/-- The sessions stay as they are. -/
theorem InsideInv.mapBook (h : InsideInv s) {f : Book → Book}
    (hsessions : (f s.book).sessions = s.book.sessions)
    (hfiled : (f s.book).producerSessions = s.book.producerSessions) : InsideInv (s.mapBook f) :=
  h.frame rfl (h.busy.of_eq hsessions hfiled) (by
    rw [Book.inflights, Book.inflights]
    exact congrArg _ hsessions)

theorem start_insideInv (init : InitMessage) : InsideInv (start init) where
  counted sref := by simp [start, insides, Book.inflights]
  busy := by
    intro ref x hx
    simp [start] at hx

/-- **One step keeps the count.** -/
theorem InsideInv.step (h : InsideInv s) (hinv : ConductInv s) {a : Action}
    (hstep : s.step a = some s') : InsideInv s' := by
  cases a with
  | recv identity request =>
      simp only [Producer.step] at hstep
      split at hstep
      · obtain rfl := Option.some.inj hstep
        exact h.dispatch request
      · cases hstep
  | metadataUpdate message =>
      obtain rfl := Option.some.inj hstep
      obtain ⟨hsessions, hfiled⟩ := s.book.applyProducerMetadata_sessions s.now message
      exact h.mapBook hsessions hfiled
  | jobDone id result =>
      simp only [Producer.step] at hstep
      split at hstep
      · obtain rfl := Option.some.inj hstep
        exact h.frame rfl h.busy rfl
      · cases hstep
  | run tid =>
      obtain ⟨task, htask, ⟨-, rfl⟩ | ⟨-, hruns⟩⟩ := run_cases hstep
      · exact h.runCancelled hinv htask
      · exact h.runs hinv htask hruns
  | timeout tid =>
      obtain ⟨task, htask, -, hruns⟩ := timeout_cases hstep
      exact h.runs hinv htask hruns
  | sweep =>
      simp only [Producer.step] at hstep
      split at hstep
      · cases hstep
      · obtain rfl := Option.some.inj hstep
        obtain ⟨hsessions, hfiled⟩ := s.book.sweepSends_sessions s.now
        exact h.mapBook hsessions hfiled
  | clock =>
      simp only [Producer.step] at hstep
      split at hstep
      · cases hstep
      · obtain rfl := Option.some.inj hstep
        exact h.frame rfl h.busy rfl
  | stop =>
      obtain rfl := Option.some.inj hstep
      exact h.frame rfl h.busy rfl
  | shutdown =>
      simp only [Producer.step] at hstep
      split at hstep
      · obtain rfl := Option.some.inj hstep
        refine h.frame ?_ h.busy rfl
        have hcoros := congrArg (List.filterMap Coroutine.inside) (shutdown_coros (s := s))
        rw [List.filterMap_map, List.filterMap_map] at hcoros
        exact hcoros
      · cases hstep

end Producer

end KVServe.Session
