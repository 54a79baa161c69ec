import KVServe.Session.BookClaims
import KVServe.Session.ProducerRuns
import Mathlib.Data.Finset.Card

/-!
# KVServe.Session.ProducerConduct

A producer helper **among well-behaved peers**. `Conduct` is what the consumer
side promises about the requests that arrive: a socket opens one session under
a fresh key, and pulls each chunk of it at most once, below the number of chunks
it was told. Under it the accounting of `KVServe.Session.BookClaims` holds on
every run (`ConductInv`): who has claimed, which handler works for which
session, and that a session counts every chunk once.
-/

namespace KVServe.Session

/-- The operation key a request names. -/
def CompressionRequest.operationKey? : CompressionRequest → Option OperationKey
  | .sessionOpen request => request.operationKey?
  | .chunkPull request => some request.operationKey
  | .abort request => some request.operationKey

namespace Producer

variable {s s' : Producer} {tid : Nat} {identity : Identity} {late : Bool} {a : Action}
  {task : Task} {coro : Coroutine}

/-- What the peers promise about a request that arrives. -/
def Conduct (s : Producer) : Action → Prop
  | .recv identity (.sessionOpen request) =>
      request.metadata.reqBlocks.length = 1 ∧ (∀ entry ∈ s.received, entry.1 ≠ identity) ∧
        ∀ entry ∈ s.received, entry.2.operationKey? ≠ request.operationKey?
  | .recv identity (.chunkPull request) =>
      (∃ opened, (identity, .sessionOpened opened) ∈ s.replies ∧
        request.chunkId < opened.totalChunks) ∧
      (∃ open', (identity, .sessionOpen open') ∈ s.received ∧
        open'.operationKey? = some request.operationKey) ∧
      ∀ other, (identity, .chunkPull other) ∈ s.received → other.chunkId ≠ request.chunkId
  | _ => True

/-! ### What a run does to the accounts -/

/-- The book a run starts its accounting from: a session is filed or a chunk is
counted by a handler that ends, or neither. -/
inductive Credits (s : Producer) (tid : Nat) (identity : Identity) :
    Coroutine → Coroutine → Book → Prop
  | plain (coro coro' : Coroutine) : Credits s tid identity coro coro' s.book
  | files {request : CompressionSessionOpen} {dReqId : ReqId} {transferId : TransferId}
      {blocks : BlockIds} {more : List (ReqId × TransferId × BlockIds)} {ref job : Nat}
      {isNew : Bool} (result : JobDone)
      (hreq : request.metadata.reqBlocks = (dReqId, transferId, blocks) :: more) :
      Credits s tid identity (.sessionOpen request (.waitJob ref isNew job))
        (.sessionOpen request .done)
        (s.book.addSession (newSession tid identity request dReqId transferId ref result))
  | counts {request : CompressionChunkPull} {sref slot job : Nat} :
      Credits s tid identity (.chunkPull request (.waitEncode sref slot job))
        (.chunkPull request .done) (s.book.countChunk sref request.chunkId)

/-- Only an open handler claims. -/
def claimant (tid : Nat) : Coroutine → Option Nat
  | .sessionOpen .. => some tid
  | _ => none

theorem Enters.accounts {transferId : TransferId} {pos : OpenAt} {b : Book} {ref : Nat}
    {isNew : Bool} {deadline : Nat} (h : Enters s transferId pos b ref isNew deadline) :
    Book.Accounts (some tid) s.book b := by
  cases h with
  | placeholder => exact .of_eq rfl rfl rfl
  | _ => exact .refl _

theorem GetsSlot.accounts {request : CompressionChunkPull} {pos : PullAt} {b : Book}
    {sref slot : Nat} {rest : List Nat} {session : ProducerSession}
    (h : GetsSlot s identity request pos b sref slot rest session) :
    Book.Accounts none s.book b := by
  cases h with
  | fresh => exact .addInflight 1
  | woken => exact .refl _

theorem leaveChunk_accounts {t : Producer} {b : Book} {request : CompressionChunkPull} {sref : Nat}
    {counted : Bool} {response : Option CompressionChunkReady}
    (h : Book.Accounts none b t.book) :
    Book.Accounts none b (t.leaveChunk tid identity request sref counted response).book := by
  rw [leaveChunk_book]
  cases counted
  · exact h.trans .discardIfIdle
  · exact h.trans ((Book.Accounts.addInflight _).trans .discardIfIdle)

/-- The session of an open that succeeded. -/
theorem openAnswered_session {request : CompressionSessionOpen} {dReqId : ReqId}
    {transferId : TransferId} {ref : Nat} {isNew : Bool} {result : JobDone}
    (hok : result.error = none) :
    ∃ (i : Nat) (y : ProducerSession), (s.openAnswered tid identity request dReqId transferId ref
        isNew result).book.sessions[i]? = some y ∧
      SameSession (newSession tid identity request dReqId transferId ref result) y := by
  have hnew : ((s.book.addSession (newSession tid identity request dReqId transferId ref
      result)).sessions)[s.book.sessions.length]? =
        some (newSession tid identity request dReqId transferId ref result) := by
    simp [Book.addSession]
  rw [openAnswered, hok]
  simp only [mapBook, reply, setCoro]
  split
  · obtain ⟨y, hy, hsame⟩ :=
      (Book.completeProducerSession_evolves _ _).sessions_of_some hnew
    exact ⟨_, y, hy, hsame⟩
  · exact ⟨_, _, hnew, .refl _⟩

/-- **What a run adds to the accounts.** -/
theorem Runs.accounts (h : Runs s tid identity late coro s') :
    ∃ coro' b, s'.tasks = (s.setCoro tid coro').tasks ∧ coro'.request = coro.request ∧
      Credits s tid identity coro coro' b ∧ Book.Accounts (claimant tid coro) b s'.book := by
  cases h with
  | openEmpty => exact ⟨_, _, rfl, rfl, .plain _ _, .refl _⟩
  | openWaits _ henter => exact ⟨_, _, rfl, rfl, .plain _ _, henter.accounts⟩
  | openRefused _ _ henter =>
      exact ⟨_, _, rfl, rfl, .plain _ _, henter.accounts.trans .openFailed⟩
  | openClosed _ henter =>
      exact ⟨_, _, rfl, rfl, .plain _ _, henter.accounts.trans (.trans .claim .openFailed)⟩
  | openSubmits _ henter => exact ⟨_, _, rfl, rfl, .plain _ _, henter.accounts.trans .claim⟩
  | openErrs => exact ⟨_, _, rfl, rfl, .plain _ _, .openFailed⟩
  | @openFiles request dReqId transferId blocks more ref job isNew result hreq _ hok =>
      rw [openAnswered, hok]
      refine ⟨_, _, rfl, rfl, .files result hreq, ?_⟩
      simp only [mapBook, reply, setCoro]
      split
      · exact .completeProducerSession
      · exact .refl _
  | pullUnknown => exact ⟨_, _, rfl, rfl, .plain _ _, .refl _⟩
  | pullRefused =>
      exact ⟨_, _, leaveChunk_tasks, rfl, .plain _ _,
        leaveChunk_accounts (.setSessionState (by decide))⟩
  | pullWaits => exact ⟨_, _, rfl, rfl, .plain _ _, .addInflight 1⟩
  | pullAborted hslot =>
      exact ⟨_, _, rfl, rfl, .plain _ _, hslot.accounts.trans (.setSessionState (by decide))⟩
  | pullSubmits hslot => exact ⟨_, _, rfl, rfl, .plain _ _, hslot.accounts⟩
  | pullErrs => exact ⟨_, _, rfl, rfl, .plain _ _, .setSessionState (by decide)⟩
  | pullEncoded _ hok =>
      rw [encodeAnswered, hok]
      exact ⟨_, _, leaveChunk_tasks, rfl, .counts, leaveChunk_accounts .completeIfDone⟩
  | pullDrained =>
      exact ⟨_, _, leaveChunk_tasks, rfl, .plain _ _, leaveChunk_accounts (.refl _)⟩
  | abortStarts =>
      refine ⟨_, _, rfl, rfl, .plain _ _, ?_⟩
      have hclose (b : Book) (key : OperationKey) : Book.Accounts none b (b.close s.now key) :=
        .of_eq rfl rfl rfl
      simp only [abortProducer, mapBook, setCoro]
      split
      · exact (hclose _ _).trans .cancelSession
      · exact hclose _ _
  | abortAcks => exact ⟨_, _, rfl, rfl, .plain _ _, .cancelAll _⟩
  | abortTimesOut => exact ⟨_, _, rfl, rfl, .plain _ _, .cancelAll _⟩

theorem runCancelled_accounts (task : Task) :
    Book.Accounts none s.book (s.runCancelled tid task).book := by
  unfold runCancelled
  split
  · exact .refl _
  · exact .refl _
  · split
    · exact leaveChunk_accounts (b := s.book) (.refl _)
    all_goals exact .refl _

/-! ### What a run answers -/

/-- The answer of a handler that ends. -/
inductive Replied (s' : Producer) (tid : Nat) : Coroutine → CompressionResponse → Prop
  | refused {request : CompressionSessionOpen} {pos : OpenAt} {message : String} :
      Replied s' tid (.sessionOpen request pos)
        (.sessionOpened { logicalBlockCount := 0, totalChunks := 0, error := some message })
  | opened {request : CompressionSessionOpen} {pos : OpenAt} {opened : CompressionSessionOpened}
      {i : Nat} {x : ProducerSession} (hx : s'.book.sessions[i]? = some x) (hopener : x.opener = tid)
      (htotal : x.totalChunks = opened.totalChunks) :
      Replied s' tid (.sessionOpen request pos) (.sessionOpened opened)
  | ready {request : CompressionChunkPull} {pos : PullAt} {ready : CompressionChunkReady}
      (hchunk : ready.chunkId = request.chunkId ∨
        ∃ sref slot job, pos = .waitDrain sref slot job (some ready)) :
      Replied s' tid (.chunkPull request pos) (.chunkReady ready)
  | ack {request : CompressionAbort} {pos : AbortAt} {error : Option String} :
      Replied s' tid (.abort request pos) (.abortAck
        { transferId := request.transferId, dReqId := request.dReqId, nonce := request.nonce, error })

/-- What a run sends: nothing, or the answer with which the handler ends. -/
def Answers (s : Producer) (tid : Nat) (identity : Identity) (coro : Coroutine) (s' : Producer) :
    Prop :=
  s'.replies = s.replies ∨
    (∃ response, s'.replies = s.replies ++ [(identity, response)] ∧ Replied s' tid coro response) ∧
      ∃ coro', s'.tasks = (s.setCoro tid coro').tasks ∧ coro'.isDone = true

theorem reply_replies (identity : Identity) (response : CompressionResponse) :
    (s.reply identity response).replies = s.replies ∨
      (s.reply identity response).replies = s.replies ++ [(identity, response)] := by
  simp only [reply]
  split
  · exact Or.inr rfl
  · exact Or.inl rfl

/-- A handler ends with an answer. -/
theorem answers_of_reply {t : Producer} {response : CompressionResponse} {coro' : Coroutine}
    (ht : t.replies = s.replies) (htasks : t.tasks = s.tasks) (hdone : coro'.isDone = true)
    (hreply : Replied ((t.reply identity response).setCoro tid coro') tid coro response) :
    Answers s tid identity coro ((t.reply identity response).setCoro tid coro') := by
  rcases reply_replies (s := t) identity response with heq | heq
  · exact Or.inl (heq.trans ht)
  · refine Or.inr ⟨⟨response, heq.trans (by rw [ht]), hreply⟩, coro', ?_, hdone⟩
    simp only [setCoro, reply, htasks]

theorem leaveChunk_answers {t : Producer} {request : CompressionChunkPull} {sref : Nat}
    {counted : Bool} {response : Option CompressionChunkReady} {pos : PullAt}
    (ht : t.replies = s.replies) (htasks : t.tasks = s.tasks)
    (hchunk : ∀ ready, response = some ready → ready.chunkId = request.chunkId ∨
      ∃ sref slot job, pos = .waitDrain sref slot job (some ready)) :
    Answers s tid identity (.chunkPull request pos)
      (t.leaveChunk tid identity request sref counted response) := by
  cases response with
  | none => exact Or.inl ht
  | some ready =>
      exact answers_of_reply (t := t.mapBook _) ht htasks rfl (.ready (hchunk ready rfl))

theorem Runs.answers (h : Runs s tid identity late coro s') : Answers s tid identity coro s' := by
  cases h with
  | openRefused message =>
      exact answers_of_reply (t := (s.mapBook _).mapBook _) rfl rfl rfl .refused
  | openClosed =>
      exact answers_of_reply (t := (s.mapBook _).mapBook _) rfl rfl rfl .refused
  | openErrs message => exact answers_of_reply (t := s.mapBook _) rfl rfl rfl .refused
  | @openFiles request dReqId transferId blocks more ref job isNew result hreq hdone hok =>
      obtain ⟨i, y, hy, hsame⟩ := @openAnswered_session s _ _ _ _ _ _ isNew _ hok
      rw [openAnswered, hok] at hy ⊢
      exact answers_of_reply (t := s.mapBook _) rfl rfl rfl
        (.opened hy hsame.opener hsame.totalChunks)
  | pullUnknown => exact answers_of_reply (t := s) rfl rfl rfl (.ready (Or.inl rfl))
  | pullRefused =>
      refine leaveChunk_answers rfl rfl fun ready heq => Or.inl ?_
      obtain rfl := Option.some.inj heq
      rfl
  | pullEncoded _ hok =>
      rw [encodeAnswered, hok]
      refine leaveChunk_answers rfl rfl fun ready heq => Or.inl ?_
      obtain rfl := Option.some.inj heq
      rfl
  | @pullDrained request sref slot job response =>
      exact leaveChunk_answers rfl rfl fun ready heq => Or.inr ⟨sref, slot, job, by rw [heq]⟩
  | abortAcks => exact answers_of_reply (t := s.mapBook _) rfl rfl rfl .ack
  | abortTimesOut => exact answers_of_reply (t := s.mapBook _) rfl rfl rfl .ack
  | _ => exact Or.inl rfl

/-! ### The invariant -/

/-- No session was opened by this task. -/
def NoSession (b : Book) (tid : Nat) : Prop :=
  ∀ (i : Nat) (x : ProducerSession), b.sessions[i]? = some x → x.opener ≠ tid

/-- An open handler and its claim. -/
def OpenWf (b : Book) (tid : Nat) : OpenAt → Prop
  | .created | .waitReady .. => tid ∉ b.claims.map (·.1) ∧ NoSession b tid
  | .waitJob ref _ _ => (tid, ref) ∈ b.claims ∧ tid ∉ b.finished ∧ NoSession b tid
  | .done => True

/-- The session a pull is for. -/
def Serves (b : Book) (identity : Identity) (request : CompressionChunkPull) (sref : Nat) : Prop :=
  ∃ x, b.sessions[sref]? = some x ∧ x.identity = identity ∧
    x.operationKey = request.operationKey ∧ request.chunkId < x.totalChunks

/-- A pull handler and its session. -/
def PullWf (b : Book) (identity : Identity) (request : CompressionChunkPull) : PullAt → Prop
  | .created | .done => ∃ sref, Serves b identity request sref
  | .waitSlot sref | .waitEncode sref _ _ => Serves b identity request sref
  | .waitDrain sref _ _ response => Serves b identity request sref ∧
      ∀ ready, response = some ready → ready.chunkId = request.chunkId

/-- A handler, by what it works on. -/
def CoroWf (b : Book) (tid : Nat) (identity : Identity) : Coroutine → Prop
  | .sessionOpen request pos => request.metadata.reqBlocks.length = 1 ∧ OpenWf b tid pos
  | .chunkPull request pos => PullWf b identity request pos
  | .abort _ _ => True

/-- The chunk a finished pull handler asked for, with the socket it came from. -/
def pulled? (task : Task) : Option (Identity × Nat) :=
  match task.coro with
  | .chunkPull request .done => some (task.identity, request.chunkId)
  | _ => none

/-- A session, with the handlers that opened it and served its chunks. -/
structure SessionOk (tasks : List Task) (x : ProducerSession) : Prop where
  opener : ∃ task request, tasks[x.opener]? = some task ∧
    task.coro = .sessionOpen request .done ∧ task.identity = x.identity ∧
    request.operationKey? = some x.operationKey
  encoded : x.encoded.Nodup
  pulled : ∀ c ∈ x.encoded, c < x.totalChunks ∧
    ∃ (tid : Nat) (task : Task), tasks[tid]? = some task ∧ pulled? task = some (x.identity, c)

/-- Distinct chunks below the total, as many as the total, are all of them. -/
theorem SessionOk.all_encoded {tasks : List Task} {x : ProducerSession} (h : SessionOk tasks x)
    (hcount : x.totalChunks ≤ x.encoded.length) {c : Nat} (hc : c < x.totalChunks) :
    c ∈ x.encoded := by
  have hsub : x.encoded.toFinset ⊆ Finset.range x.totalChunks := fun d hd =>
    Finset.mem_range.mpr (h.pulled d (List.mem_toFinset.mp hd)).1
  have hcard : (Finset.range x.totalChunks).card ≤ x.encoded.toFinset.card := by
    rw [Finset.card_range, List.toFinset_card_of_nodup h.encoded]
    exact hcount
  rw [← List.mem_toFinset, Finset.eq_of_subset_of_card_le hsub hcard]
  exact Finset.mem_range.mpr hc

/-- What a producer among well-behaved peers maintains. -/
structure ConductInv (s : Producer) : Prop where
  ledger : s.book.Ledger
  /-- Cancellation only comes with shutdown, after the router is closed. -/
  uncancelled : s.routerOpen = true → ∀ {tid : Nat} {task : Task},
    s.tasks[tid]? = some task → task.cancelRequested = false
  received : s.received = s.tasks.map fun task => (task.identity, task.coro.request)
  opens : ∀ {i j : Nat} {t u : Task} {request request' : CompressionSessionOpen},
    s.tasks[i]? = some t → s.tasks[j]? = some u → t.coro.request = .sessionOpen request →
    u.coro.request = .sessionOpen request' → t.identity = u.identity → i = j
  pulls : ∀ {i j : Nat} {t u : Task} {request request' : CompressionChunkPull},
    s.tasks[i]? = some t → s.tasks[j]? = some u → t.coro.request = .chunkPull request →
    u.coro.request = .chunkPull request' → t.identity = u.identity →
    request.chunkId = request'.chunkId → i = j
  claims : ∀ claim ∈ s.book.claims, ∃ task request,
    s.tasks[claim.1]? = some task ∧ task.coro.request = .sessionOpen request
  task : ∀ {tid : Nat} {task : Task}, s.tasks[tid]? = some task →
    CoroWf s.book tid task.identity task.coro
  session : ∀ {i : Nat} {x : ProducerSession}, s.book.sessions[i]? = some x →
    SessionOk s.tasks x
  opened : ∀ {identity : Identity} {opened : CompressionSessionOpened},
    (identity, .sessionOpened opened) ∈ s.replies → 0 < opened.totalChunks →
    ∃ (i : Nat) (x : ProducerSession), s.book.sessions[i]? = some x ∧ x.identity = identity ∧
      x.totalChunks = opened.totalChunks
  /-- A claim is finished, or held by its session or by its handler, as long as
  no handler has been cancelled. -/
  held : ∀ claim ∈ s.book.claims, claim.1 ∈ s.book.finished ∨
    (∃ (i : Nat) (x : ProducerSession), s.book.sessions[i]? = some x ∧ x.opener = claim.1) ∨
    (∃ task request isNew job, s.tasks[claim.1]? = some task ∧
      task.coro = .sessionOpen request (.waitJob claim.2 isNew job)) ∨
    s.routerOpen = false

/-! ### What other handlers keep -/

section

variable {b b' : Book} {owner : Option Nat}

theorem NoSession.accounts (h : NoSession b tid) (hacc : Book.Accounts owner b b') :
    NoSession b' tid := by
  intro i y hy
  obtain ⟨x, hx, hsame, -⟩ := hacc.session hy
  rw [hsame.opener]
  exact h i x hx

theorem OpenWf.accounts {pos : OpenAt} (h : OpenWf b tid pos) (hacc : Book.Accounts owner b b')
    (howner : owner ≠ some tid) : OpenWf b' tid pos := by
  have hclaims (hnone : tid ∉ b.claims.map (·.1)) : tid ∉ b'.claims.map (·.1) := by
    intro hmem
    obtain ⟨claim, hclaim, rfl⟩ := List.mem_map.mp hmem
    rcases hacc.claimed claim hclaim with hold | hown
    · exact hnone (List.mem_map_of_mem hold)
    · exact howner hown
  cases pos with
  | created => exact ⟨hclaims h.1, h.2.accounts hacc⟩
  | waitReady ref isNew deadline => exact ⟨hclaims h.1, h.2.accounts hacc⟩
  | waitJob ref isNew job =>
      refine ⟨hacc.claims h.1, fun hmem => ?_, h.2.2.accounts hacc⟩
      rcases hacc.ended tid hmem with hold | hown | ⟨i, x, hx, hopener⟩
      · exact h.2.1 hold
      · exact howner hown
      · exact h.2.2 i x hx hopener
  | done => trivial

theorem Serves.of_sessions {request : CompressionChunkPull} {sref : Nat}
    (h : Serves b identity request sref)
    (hsessions : ∀ {i : Nat} {x : ProducerSession}, b.sessions[i]? = some x →
      ∃ y, b'.sessions[i]? = some y ∧ SameSession x y) : Serves b' identity request sref := by
  obtain ⟨x, hx, hidentity, hkey, hchunk⟩ := h
  obtain ⟨y, hy, hsame⟩ := hsessions hx
  refine ⟨y, hy, ?_, hsame.operationKey.trans hkey, hsame.totalChunks ▸ hchunk⟩
  rw [hsame.same]
  exact hidentity

theorem PullWf.of_sessions {request : CompressionChunkPull} {pos : PullAt}
    (h : PullWf b identity request pos)
    (hsessions : ∀ {i : Nat} {x : ProducerSession}, b.sessions[i]? = some x →
      ∃ y, b'.sessions[i]? = some y ∧ SameSession x y) : PullWf b' identity request pos := by
  cases pos with
  | created =>
      obtain ⟨sref, hserves⟩ := h
      exact ⟨sref, hserves.of_sessions hsessions⟩
  | done =>
      obtain ⟨sref, hserves⟩ := h
      exact ⟨sref, hserves.of_sessions hsessions⟩
  | waitSlot sref => exact Serves.of_sessions h hsessions
  | waitEncode sref slot job => exact Serves.of_sessions h hsessions
  | waitDrain sref slot job response => exact ⟨Serves.of_sessions h.1 hsessions, h.2⟩

theorem CoroWf.accounts (h : CoroWf b tid identity coro) (hacc : Book.Accounts owner b b')
    (howner : owner ≠ some tid) : CoroWf b' tid identity coro := by
  have hsessions {i : Nat} {x : ProducerSession} (hx : b.sessions[i]? = some x) :
      ∃ y, b'.sessions[i]? = some y ∧ SameSession x y := by
    obtain ⟨y, hy, hsame, -⟩ := hacc.sessions hx
    exact ⟨y, hy, hsame⟩
  cases coro with
  | sessionOpen request pos => exact ⟨h.1, h.2.accounts hacc howner⟩
  | chunkPull request pos => exact PullWf.of_sessions h hsessions
  | abort request pos => trivial

end

/-- Filing a session or counting a chunk for one handler leaves the others alone. -/
theorem CoroWf.credits {b : Book} {j : Nat} {peer : Identity} {coro' : Coroutine}
    {coro'' : Coroutine} (h : CoroWf s.book j peer coro')
    (hcredits : Credits s tid identity coro coro'' b) (hj : j ≠ tid) : CoroWf b j peer coro' := by
  cases hcredits with
  | plain => exact h
  | @files request dReqId transferId blocks more ref job isNew result hreq =>
      have hnew : NoSession s.book j → NoSession (s.book.addSession
          (newSession tid identity request dReqId transferId ref result)) j := by
        intro hno i x hx
        rcases getElem?_append_some hx with hold | ⟨-, rfl⟩
        · exact hno i x hold
        · exact Ne.symm hj
      cases coro' with
      | sessionOpen request' pos =>
          refine ⟨h.1, ?_⟩
          have hpos := h.2
          cases pos with
          | created => exact ⟨hpos.1, hnew hpos.2⟩
          | waitReady => exact ⟨hpos.1, hnew hpos.2⟩
          | waitJob => exact ⟨hpos.1, hpos.2.1, hnew hpos.2.2⟩
          | done => trivial
      | chunkPull request' pos =>
          exact PullWf.of_sessions h fun hx => ⟨_, getElem?_append_of_some hx _, .refl _⟩
      | abort => trivial
  | @counts request sref slot job =>
      cases coro' with
      | sessionOpen request' pos =>
          refine ⟨h.1, ?_⟩
          have hnew : NoSession s.book j → NoSession (s.book.countChunk sref request.chunkId) j := by
            intro hno i y hy
            obtain ⟨x, hx, hsame⟩ :=
              (@Book.countChunk_evolves 0 s.book sref request.chunkId).sessions hy
            rw [hsame.opener]
            exact hno i x hx
          have hpos := h.2
          cases pos with
          | created => exact ⟨hpos.1, hnew hpos.2⟩
          | waitReady => exact ⟨hpos.1, hnew hpos.2⟩
          | waitJob => exact ⟨hpos.1, hpos.2.1, hnew hpos.2.2⟩
          | done => trivial
      | chunkPull request' pos =>
          exact PullWf.of_sessions h
            (@Book.countChunk_evolves 0 s.book sref request.chunkId).sessions_of_some
      | abort => trivial

/-- Finished handlers stay as they are. -/
def KeepsDone (tasks tasks' : List Task) : Prop :=
  ∀ (j : Nat) (task : Task), tasks[j]? = some task → task.coro.isDone = true →
    ∃ task', tasks'[j]? = some task' ∧ task'.coro = task.coro ∧ task'.identity = task.identity

theorem SessionOk.tasks {tasks tasks' : List Task} {x : ProducerSession} (h : SessionOk tasks x)
    (hkeeps : KeepsDone tasks tasks') : SessionOk tasks' x where
  opener := by
    obtain ⟨task, request, htask, hcoro, hidentity, hkey⟩ := h.opener
    obtain ⟨task', htask', hcoro', hidentity'⟩ := hkeeps _ task htask (by rw [hcoro]; rfl)
    exact ⟨task', request, htask', hcoro'.trans hcoro, hidentity'.trans hidentity, hkey⟩
  encoded := h.encoded
  pulled c hc := by
    obtain ⟨hlt, tid, task, htask, hpulled⟩ := h.pulled c hc
    have hdone : task.coro.isDone = true := by
      unfold pulled? at hpulled
      split at hpulled
      · rename_i hcoro
        rw [hcoro]
        rfl
      · cases hpulled
    obtain ⟨task', htask', hcoro', hidentity'⟩ := hkeeps tid task htask hdone
    refine ⟨hlt, tid, task', htask', ?_⟩
    rw [pulled?, hcoro', hidentity']
    exact hpulled

/-- A session later on, with the same chunks counted. -/
theorem SessionOk.same {tasks : List Task} {x y : ProducerSession} (h : SessionOk tasks x)
    (hsame : SameSession x y) (hencoded : y.encoded = x.encoded) : SessionOk tasks y := by
  have hidentity : y.identity = x.identity := by rw [hsame.same]
  refine ⟨?_, by rw [hencoded]; exact h.encoded, ?_⟩
  · rw [hsame.opener, hidentity, hsame.operationKey]
    exact h.opener
  · rw [hencoded, hidentity, hsame.totalChunks]
    exact h.pulled

/-! ### One handler moves -/

/-- The handler that moves to `coro'`, with what it does to the book. -/
structure Turns (s : Producer) (tid : Nat) (task : Task) (coro' : Coroutine) (s' : Producer) :
    Prop where
  tasks : s'.tasks = (s.setCoro tid coro').tasks
  request : coro'.request = task.coro.request
  /-- A finished handler does not move. -/
  done : task.coro.isDone = true → coro' = task.coro
  received : s'.received = s.received
  routerOpen : s'.routerOpen = s.routerOpen
  ledger : s'.book.Ledger
  accounts : ∃ b, Credits s tid task.identity task.coro coro' b ∧
    Book.Accounts (claimant tid task.coro) b s'.book
  wf : CoroWf s'.book tid task.identity coro'
  held : ∀ ref, (tid, ref) ∈ s'.book.claims → tid ∈ s'.book.finished ∨
    (∃ (i : Nat) (x : ProducerSession), s'.book.sessions[i]? = some x ∧ x.opener = tid) ∨
    (∃ request isNew job, coro' = .sessionOpen request (.waitJob ref isNew job)) ∨
    s.routerOpen = false
  answers : Answers s tid task.identity task.coro s'

theorem Turns.keepsDone {coro' : Coroutine} (h : Turns s tid task coro' s')
    (htask : s.tasks[tid]? = some task) : KeepsDone s.tasks s'.tasks := by
  intro j u hu hdone
  rw [h.tasks]
  by_cases hj : j = tid
  · subst hj
    obtain rfl := Option.some.inj (htask.symm.trans hu)
    exact ⟨_, setCoro_tasks_self htask, h.done hdone, rfl⟩
  · exact ⟨u, (setCoro_tasks_of_ne hj).trans hu, rfl, rfl⟩

/-- A chunk that is counted was not counted before: its handler is the only one
for it, and has just ended. -/
theorem SessionOk.countChunk {x : ProducerSession} {request : CompressionChunkPull}
    {tasks' : List Task} (h : SessionOk tasks' x) (hinv : ConductInv s)
    (htask : s.tasks[tid]? = some task) (hrequest : task.coro.request = .chunkPull request)
    (hrun : task.coro.isDone = false) (hidentity : x.identity = task.identity)
    (hchunk : request.chunkId < x.totalChunks) (hold : SessionOk s.tasks x)
    (hself : tasks'[tid]? = some { task with coro := .chunkPull request .done }) :
    SessionOk tasks' { x with
      completedChunks := x.completedChunks + 1, encoded := x.encoded ++ [request.chunkId] } where
  opener := h.opener
  encoded := by
    refine List.nodup_append.mpr ⟨h.encoded, List.nodup_singleton _, fun c hc d hd heq => ?_⟩
    obtain rfl := List.mem_singleton.mp hd
    subst heq
    obtain ⟨-, j, u, hu, hpulled⟩ := hold.pulled _ hc
    unfold pulled? at hpulled
    split at hpulled
    · rename_i request' hcoro
      obtain ⟨hpeer, hid⟩ := Prod.mk.inj (Option.some.inj hpulled)
      obtain rfl : j = tid := hinv.pulls hu htask (by rw [hcoro]; rfl) hrequest
        (hpeer.trans hidentity) hid
      obtain rfl := Option.some.inj (htask.symm.trans hu)
      rw [hcoro] at hrun
      cases hrun
    · cases hpulled
  pulled c hc := by
    rcases List.mem_append.mp hc with hc | hc
    · exact h.pulled c hc
    · obtain rfl := List.mem_singleton.mp hc
      refine ⟨hchunk, tid, _, hself, ?_⟩
      rw [hidentity]
      rfl

/-- The sessions after a turn: those of before, the one just opened, or the one
whose chunk was just counted. -/
theorem Turns.session {coro' : Coroutine} (h : Turns s tid task coro' s') (hinv : ConductInv s)
    (htask : s.tasks[tid]? = some task) {i : Nat} {y : ProducerSession}
    (hy : s'.book.sessions[i]? = some y) : SessionOk s'.tasks y := by
  obtain ⟨b, hcredits, hacc⟩ := h.accounts
  have hkeeps := h.keepsDone htask
  obtain ⟨x, hx, hsame, hencoded⟩ := hacc.session hy
  refine SessionOk.same ?_ hsame hencoded
  have hself : s'.tasks[tid]? = some { task with coro := coro' } := by
    rw [h.tasks]
    exact setCoro_tasks_self htask
  have hwf := hinv.task htask
  generalize hcoro : task.coro = coro at hcredits hwf
  cases hcredits with
  | plain => exact (hinv.session hx).tasks hkeeps
  | @files request dReqId transferId blocks more ref job isNew result hreq =>
      rcases getElem?_append_some hx with hold | ⟨-, rfl⟩
      · exact (hinv.session hold).tasks hkeeps
      · refine ⟨⟨_, request, hself, rfl, rfl, ?_⟩, List.nodup_nil, fun c hc => by cases hc⟩
        simp [CompressionSessionOpen.operationKey?, hreq, ProducerSession.operationKey, newSession]
  | @counts request sref slot job =>
      rcases getElem?_modify_some hx with ⟨rfl, x₀, hx₀, rfl⟩ | ⟨-, hold⟩
      · obtain ⟨x₁, hx₁, hidentity, -, hchunk⟩ := hwf
        obtain rfl := Option.some.inj (hx₀.symm.trans hx₁)
        have hold := hinv.session hx₀
        exact (hold.tasks hkeeps).countChunk hinv htask (by rw [hcoro]; rfl) (by rw [hcoro]; rfl)
          hidentity hchunk hold hself
      · exact (hinv.session hold).tasks hkeeps

theorem Credits.frame {b : Book} {coro' : Coroutine}
    (h : Credits s tid identity coro coro' b) :
    b.claims = s.book.claims ∧ b.finished = s.book.finished := by
  cases h <;> exact ⟨rfl, rfl⟩

theorem Credits.sessions {b : Book} {coro' : Coroutine}
    (h : Credits s tid identity coro coro' b) {i : Nat} {x : ProducerSession}
    (hx : s.book.sessions[i]? = some x) : ∃ y, b.sessions[i]? = some y ∧ SameSession x y := by
  cases h with
  | plain => exact ⟨x, hx, .refl x⟩
  | files => exact ⟨x, getElem?_append_of_some hx _, .refl x⟩
  | counts => exact (@Book.countChunk_evolves 0 _ _ _).sessions_of_some hx

/-- Sessions are never lost. -/
theorem Turns.sessions {coro' : Coroutine} (h : Turns s tid task coro' s') {i : Nat}
    {x : ProducerSession} (hx : s.book.sessions[i]? = some x) :
    ∃ y, s'.book.sessions[i]? = some y ∧ SameSession x y := by
  obtain ⟨b, hcredits, hacc⟩ := h.accounts
  obtain ⟨y, hy, hxy⟩ := hcredits.sessions hx
  obtain ⟨z, hz, hyz, -⟩ := hacc.sessions hy
  exact ⟨z, hz, hxy.trans hyz⟩

/-- Handlers keep their peer and their request. -/
theorem Turns.task_old {coro' : Coroutine} (h : Turns s tid task coro' s')
    (htask : s.tasks[tid]? = some task) {j : Nat} {u' : Task} (hu' : s'.tasks[j]? = some u') :
    ∃ u, s.tasks[j]? = some u ∧ u'.identity = u.identity ∧ u'.coro.request = u.coro.request ∧
      u'.cancelRequested = u.cancelRequested := by
  rw [h.tasks] at hu'
  rcases setCoro_tasks_some hu' with ⟨rfl, u, hu, rfl⟩ | ⟨-, hu⟩
  · obtain rfl := Option.some.inj (htask.symm.trans hu)
    exact ⟨task, hu, rfl, h.request, rfl⟩
  · exact ⟨u', hu, rfl, rfl, rfl⟩

theorem Turns.task_new {coro' : Coroutine} (h : Turns s tid task coro' s')
    (htask : s.tasks[tid]? = some task) {j : Nat} {u : Task} (hu : s.tasks[j]? = some u) :
    ∃ u', s'.tasks[j]? = some u' ∧ u'.identity = u.identity ∧
      u'.coro.request = u.coro.request := by
  rw [h.tasks]
  by_cases hj : j = tid
  · subst hj
    obtain rfl := Option.some.inj (htask.symm.trans hu)
    exact ⟨_, setCoro_tasks_self htask, rfl, h.request⟩
  · exact ⟨u, (setCoro_tasks_of_ne hj).trans hu, rfl, rfl⟩

/-- **A turn of a handler keeps the invariant.** -/
theorem ConductInv.turns {coro' : Coroutine} (hinv : ConductInv s)
    (htask : s.tasks[tid]? = some task) (h : Turns s tid task coro' s') : ConductInv s' where
  ledger := h.ledger
  uncancelled hopen := by
    intro j u' hu'
    obtain ⟨u, hu, -, -, hcancel⟩ := h.task_old htask hu'
    rw [hcancel]
    exact hinv.uncancelled (h.routerOpen ▸ hopen) hu
  received := by
    rw [h.received, hinv.received]
    refine List.ext_getElem? fun j => ?_
    rw [List.getElem?_map, List.getElem?_map]
    cases hu : s.tasks[j]? with
    | none =>
        rw [h.tasks, setCoro, List.getElem?_eq_none_iff.mpr (by
          rw [List.length_modify]
          exact List.getElem?_eq_none_iff.mp hu)]
    | some u =>
        obtain ⟨u', hu', hidentity, hrequest⟩ := h.task_new htask hu
        rw [hu', Option.map_some, Option.map_some, hidentity, hrequest]
  opens {i j t' u' request request'} ht hu hreq hreq' hid := by
    obtain ⟨t, ht₀, hti, htr, -⟩ := h.task_old htask ht
    obtain ⟨u, hu₀, hui, hur, -⟩ := h.task_old htask hu
    exact hinv.opens ht₀ hu₀ (htr ▸ hreq) (hur ▸ hreq') (hti ▸ hui ▸ hid)
  pulls {i j t' u' request request'} ht hu hreq hreq' hid hchunk := by
    obtain ⟨t, ht₀, hti, htr, -⟩ := h.task_old htask ht
    obtain ⟨u, hu₀, hui, hur, -⟩ := h.task_old htask hu
    exact hinv.pulls ht₀ hu₀ (htr ▸ hreq) (hur ▸ hreq') (hti ▸ hui ▸ hid) hchunk
  claims claim hclaim := by
    obtain ⟨b, hcredits, hacc⟩ := h.accounts
    rcases hacc.claimed claim hclaim with hold | hown
    · obtain ⟨u, request, hu, hreq⟩ := hinv.claims claim (hcredits.frame.1 ▸ hold)
      obtain ⟨u', hu', -, hreq'⟩ := h.task_new htask hu
      exact ⟨u', request, hu', hreq'.trans hreq⟩
    · obtain ⟨u', hu', -, hreq'⟩ := h.task_new htask htask
      cases hcoro : task.coro with
      | sessionOpen request pos =>
          rw [hcoro] at hown hreq'
          obtain rfl : tid = claim.1 := Option.some.inj hown
          exact ⟨u', request, hu', hreq'⟩
      | chunkPull => rw [hcoro] at hown; cases hown
      | abort => rw [hcoro] at hown; cases hown
  task {j u'} hu' := by
    rw [h.tasks] at hu'
    rcases setCoro_tasks_some hu' with ⟨rfl, u, hu, rfl⟩ | ⟨hj, hu⟩
    · obtain rfl := Option.some.inj (htask.symm.trans hu)
      exact h.wf
    · obtain ⟨b, hcredits, hacc⟩ := h.accounts
      refine ((hinv.task hu).credits hcredits hj).accounts hacc fun hown => ?_
      cases hcoro : task.coro with
      | sessionOpen => rw [hcoro] at hown; exact hj (Option.some.inj hown).symm
      | chunkPull => rw [hcoro] at hown; cases hown
      | abort => rw [hcoro] at hown; cases hown
  session := h.session hinv htask
  opened {peer opened} hmem htotal := by
    have hold (hmem : (peer, .sessionOpened opened) ∈ s.replies) :
        ∃ (i : Nat) (x : ProducerSession), s'.book.sessions[i]? = some x ∧ x.identity = peer ∧
          x.totalChunks = opened.totalChunks := by
      obtain ⟨i, x, hx, hidentity, hchunks⟩ := hinv.opened hmem htotal
      obtain ⟨y, hy, hsame⟩ := h.sessions hx
      refine ⟨i, y, hy, ?_, hsame.totalChunks.trans hchunks⟩
      rw [hsame.same]
      exact hidentity
    rcases h.answers with heq | ⟨⟨response, heq, hreplied⟩, -⟩
    · exact hold (heq ▸ hmem)
    · rw [heq] at hmem
      rcases List.mem_append.mp hmem with hmem | hmem
      · exact hold hmem
      · obtain ⟨rfl, rfl⟩ := Prod.mk.inj (List.mem_singleton.mp hmem)
        generalize task.coro = coro at hreplied
        cases hreplied with
        | refused => cases htotal
        | @opened _ _ _ i x hx hopener hchunks =>
            obtain ⟨u, request, hu, -, hidentity, -⟩ := (h.session hinv htask hx).opener
            rw [hopener, h.tasks, setCoro_tasks_self htask] at hu
            obtain rfl := Option.some.inj hu
            exact ⟨i, x, hx, hidentity.symm, hchunks⟩
  held claim hclaim := by
    by_cases htid : claim.1 = tid
    · obtain ⟨_, ref⟩ := claim
      obtain rfl : _ = tid := htid
      rcases h.held ref hclaim with hfin | hses | ⟨request, isNew, job, rfl⟩ | hclosed
      · exact Or.inl hfin
      · exact Or.inr (Or.inl hses)
      · refine Or.inr (Or.inr (Or.inl
          ⟨{ task with coro := .sessionOpen request (.waitJob ref isNew job) }, request, isNew, job,
            ?_, rfl⟩))
        rw [h.tasks]
        exact setCoro_tasks_self htask
      · exact Or.inr (Or.inr (Or.inr (h.routerOpen.trans hclosed)))
    · obtain ⟨b, hcredits, hacc⟩ := h.accounts
      have hold : claim ∈ s.book.claims := by
        rcases hacc.claimed claim hclaim with hold | hown
        · exact hcredits.frame.1 ▸ hold
        · cases hcoro : task.coro with
          | sessionOpen => rw [hcoro] at hown; exact absurd (Option.some.inj hown).symm htid
          | chunkPull => rw [hcoro] at hown; cases hown
          | abort => rw [hcoro] at hown; cases hown
      rcases hinv.held claim hold with hfin | ⟨i, x, hx, hopener⟩ | ⟨u, request, isNew, job, hu, hpos⟩ |
        hclosed
      · exact Or.inl (hacc.finished (hcredits.frame.2 ▸ hfin))
      · obtain ⟨y, hy, hsame⟩ := h.sessions hx
        exact Or.inr (Or.inl ⟨i, y, hy, hsame.opener.trans hopener⟩)
      · refine Or.inr (Or.inr (Or.inl ⟨u, request, isNew, job, ?_, hpos⟩))
        rw [h.tasks]
        exact (setCoro_tasks_of_ne htid).trans hu
      · exact Or.inr (Or.inr (Or.inr (h.routerOpen.trans hclosed)))

/-! ### Every run is a turn -/

/-- Two sessions of one socket are the same. -/
theorem ConductInv.identity_unique (hinv : ConductInv s) {i j : Nat} {x y : ProducerSession}
    (hx : s.book.sessions[i]? = some x) (hy : s.book.sessions[j]? = some y)
    (hid : x.identity = y.identity) : i = j := by
  obtain ⟨t, request, ht, htc, hti, -⟩ := (hinv.session hx).opener
  obtain ⟨u, request', hu, huc, hui, -⟩ := (hinv.session hy).opener
  have hopener : x.opener = y.opener :=
    hinv.opens ht hu (by rw [htc]; rfl) (by rw [huc]; rfl) (hti.trans (hid.trans hui.symm))
  exact hinv.ledger.sess.opener hx hy hopener

/-- The session filed for a pull is the one it is for. -/
theorem ConductInv.serves (hinv : ConductInv s) {request : CompressionChunkPull} {sref : Nat}
    (hwf : ∃ sref, Serves s.book identity request sref)
    (hkey : s.book.producerSessions (identity, request.transferId, request.dReqId) = some sref) :
    Serves s.book identity request sref := by
  obtain ⟨sref', x', hx', hid', hop, hchunk⟩ := hwf
  obtain ⟨x, hx, hxkey⟩ := hinv.ledger.sess.filed hkey
  have hid : x.identity = identity := congrArg Prod.fst hxkey
  obtain rfl := hinv.identity_unique hx hx' (hid.trans hid'.symm)
  exact ⟨x', hx', hid', hop, hchunk⟩

theorem GetsSlot.serves (hinv : ConductInv s) {request : CompressionChunkPull} {pos : PullAt}
    {b : Book} {sref slot : Nat} {rest : List Nat} {session : ProducerSession}
    (h : GetsSlot s identity request pos b sref slot rest session)
    (hwf : PullWf s.book identity request pos) : Serves s.book identity request sref := by
  cases h with
  | fresh hkey => exact hinv.serves hwf hkey
  | woken => exact hwf

theorem GetsSlot.ledger {request : CompressionChunkPull} {pos : PullAt} {b : Book}
    {sref slot : Nat} {rest : List Nat} {session : ProducerSession}
    (h : GetsSlot s identity request pos b sref slot rest session) (hledger : s.book.Ledger) :
    b.Ledger := by
  cases h with
  | fresh => exact hledger.addInflight 1
  | woken => exact hledger

theorem leaveChunk_ledger {t : Producer} {request : CompressionChunkPull} {sref : Nat}
    {counted : Bool} {response : Option CompressionChunkReady} (h : t.book.Ledger) :
    (t.leaveChunk tid identity request sref counted response).book.Ledger := by
  rw [leaveChunk_book]
  cases counted
  · exact h.discardIfIdle
  · exact (h.addInflight _).discardIfIdle

theorem Enters.ledger {transferId : TransferId} {pos : OpenAt} {b : Book} {ref : Nat}
    {isNew : Bool} {deadline : Nat} (h : Enters s transferId pos b ref isNew deadline)
    (hledger : s.book.Ledger) : b.Ledger := by
  cases h with
  | placeholder => exact hledger.addState rfl rfl
  | _ => exact hledger

/-- A handler in `_wait_ready` has not claimed. -/
theorem Enters.unclaimed {transferId : TransferId} {pos : OpenAt} {b : Book} {ref : Nat}
    {isNew : Bool} {deadline : Nat} (h : Enters s transferId pos b ref isNew deadline)
    (hwf : OpenWf s.book tid pos) : tid ∉ b.claims.map (·.1) ∧ NoSession b tid := by
  cases h <;> exact hwf

theorem lt_of_isReady {b : Book} {ref : Nat} (h : b.isReady ref = true) :
    ref < b.states.length := by
  unfold Book.isReady at h
  cases hm : b.states[ref]? with
  | none => simp [hm] at h
  | some m => exact (List.getElem?_eq_some_iff.mp hm).1

/-- What is left to say about a run, by cases. -/
structure Settles (s : Producer) (tid : Nat) (identity : Identity) (coro : Coroutine)
    (s' : Producer) : Prop where
  ledger : s'.book.Ledger
  wf : CoroWf s'.book tid identity coro
  held : ∀ ref, (tid, ref) ∈ s'.book.claims → tid ∈ s'.book.finished ∨
    (∃ (i : Nat) (x : ProducerSession), s'.book.sessions[i]? = some x ∧ x.opener = tid) ∨
    ∃ request isNew job, coro = .sessionOpen request (.waitJob ref isNew job)

/-- A handler that is no open handler holds no claim. -/
theorem Runs.unclaimed (h : Runs s tid task.identity late task.coro s') (hinv : ConductInv s)
    (htask : s.tasks[tid]? = some task) (hnone : claimant tid task.coro = none) (ref : Nat) :
    (tid, ref) ∉ s'.book.claims := by
  intro hmem
  obtain ⟨coro', b, -, -, hcredits, hacc⟩ := h.accounts
  rcases hacc.claimed _ hmem with hold | hown
  · obtain ⟨u, request, hu, hreq⟩ := hinv.claims _ (hcredits.frame.1 ▸ hold)
    obtain rfl := Option.some.inj (htask.symm.trans hu)
    cases hcoro : task.coro with
    | sessionOpen => rw [hcoro] at hnone; cases hnone
    | chunkPull => rw [hcoro] at hreq; cases hreq
    | abort => rw [hcoro] at hreq; cases hreq
  · rw [hnone] at hown
    cases hown

theorem Runs.sessions (h : Runs s tid identity late coro s') {i : Nat} {x : ProducerSession}
    (hx : s.book.sessions[i]? = some x) : ∃ y, s'.book.sessions[i]? = some y ∧ SameSession x y := by
  obtain ⟨coro', b, -, -, hcredits, hacc⟩ := h.accounts
  obtain ⟨y, hy, hxy⟩ := hcredits.sessions hx
  obtain ⟨z, hz, hyz, -⟩ := hacc.sessions hy
  exact ⟨z, hz, hxy.trans hyz⟩

/-- The session of a waiting open handler is under a fresh key. -/
theorem ConductInv.key_fresh (hinv : ConductInv s) (htask : s.tasks[tid]? = some task)
    {request : CompressionSessionOpen} {pos : OpenAt} (hcoro : task.coro = .sessionOpen request pos)
    (hno : NoSession s.book tid) {i : Nat} {y : ProducerSession} (hy : s.book.sessions[i]? = some y)
    {dReqId : ReqId} {transferId : TransferId} : y.key ≠ (task.identity, transferId, dReqId) := by
  intro heq
  obtain ⟨u, request', hu, huc, hui, -⟩ := (hinv.session hy).opener
  have hid : y.identity = task.identity := congrArg Prod.fst heq
  exact hno i y hy (hinv.opens hu htask (by rw [huc]; rfl) (by rw [hcoro]; rfl) (hui.trans hid))

/-- The session of an open that succeeded is filed. -/
theorem ConductInv.addSession (hinv : ConductInv s) (htask : s.tasks[tid]? = some task)
    {request : CompressionSessionOpen} {ref job : Nat} {isNew : Bool}
    (hcoro : task.coro = .sessionOpen request (.waitJob ref isNew job)) {dReqId : ReqId}
    {transferId : TransferId} (result : JobDone) :
    (s.book.addSession
      (newSession tid task.identity request dReqId transferId ref result)).Ledger := by
  have hwf := hinv.task htask
  rw [hcoro] at hwf
  obtain ⟨-, hclaim, hopen, hsession⟩ := hwf
  exact hinv.ledger.addSession hclaim hopen (hsession _ _)
    (fun hy => hinv.key_fresh htask hcoro hsession hy) rfl rfl

theorem Runs.settles_open {request : CompressionSessionOpen} {pos : OpenAt}
    (hruns : Runs s tid task.identity late (.sessionOpen request pos) s') (hinv : ConductInv s)
    (htask : s.tasks[tid]? = some task) (hcoro : task.coro = .sessionOpen request pos) :
    ∃ coro', s'.tasks = (s.setCoro tid coro').tasks ∧ Settles s tid task.identity coro' s' := by
  have hwf := hinv.task htask
  rw [hcoro] at hwf
  obtain ⟨hsingle, hwf⟩ := hwf
  have hunclaimed {b : Book} (hno : tid ∉ b.claims.map (·.1)) (ref : Nat) : (tid, ref) ∉ b.claims :=
    fun hmem => hno (List.mem_map_of_mem hmem)
  cases hruns with
  | openEmpty hreq => rw [hreq] at hsingle; cases hsingle
  | openWaits hreq henter =>
      obtain ⟨hno, hsession⟩ := henter.unclaimed hwf
      exact ⟨_, rfl, henter.ledger hinv.ledger, ⟨hsingle, hno, hsession⟩,
        fun ref hmem => absurd hmem (hunclaimed hno ref)⟩
  | openRefused message hreq henter =>
      obtain ⟨hno, hsession⟩ := henter.unclaimed hwf
      refine ⟨_, rfl, ?_, ⟨hsingle, trivial⟩, fun ref hmem => ?_⟩
      · exact (henter.ledger hinv.ledger).openFailed fun hfalse => by cases hfalse
      · refine absurd ?_ (hunclaimed hno ref)
        rw [← (Book.openFailed_fields _ tid _ _ _ false).1]
        exact hmem
  | @openClosed _ _ _ _ _ _ b ref isNew _ ranks hreq henter hready =>
      obtain ⟨hno, hsession⟩ := henter.unclaimed hwf
      have hclaim : (b.claim tid ref ranks.length).Ledger :=
        (henter.ledger hinv.ledger).claim hno (lt_of_isReady hready)
      refine ⟨_, rfl, ?_, ⟨hsingle, trivial⟩, fun ref hmem => Or.inl ?_⟩
      · refine hclaim.openFailed fun _ =>
          ⟨List.mem_append_right _ (List.mem_singleton_self _), fun hmem => ?_, hsession _ _⟩
        exact hno ((henter.ledger hinv.ledger).send.known tid hmem)
      · exact (Book.openFailed_fields _ tid _ _ _ true).2 rfl
  | @openSubmits _ _ _ _ _ _ b ref isNew _ ranks job hreq henter hready =>
      obtain ⟨hno, hsession⟩ := henter.unclaimed hwf
      have hclaim : (b.claim tid ref ranks.length).Ledger :=
        (henter.ledger hinv.ledger).claim hno (lt_of_isReady hready)
      have hself : (tid, ref) ∈ (b.claim tid ref ranks.length).claims :=
        List.mem_append_right _ (List.mem_singleton_self _)
      refine ⟨_, rfl, hclaim, ⟨hsingle, hself, fun hmem => ?_, hsession⟩, fun ref' hmem => ?_⟩
      · exact hno ((henter.ledger hinv.ledger).send.known tid hmem)
      · obtain rfl := hclaim.send.claim_unique hself hmem
        exact Or.inr (Or.inr ⟨_, _, _, rfl⟩)
  | openErrs message hreq =>
      refine ⟨_, rfl, ?_, ⟨hsingle, trivial⟩, fun ref hmem => Or.inl ?_⟩
      · exact hinv.ledger.openFailed fun _ => ⟨hwf.1, hwf.2.1, hwf.2.2 _ _⟩
      · exact (Book.openFailed_fields _ tid _ _ _ true).2 rfl
  | @openFiles _ dReqId transferId blocks more ref job isNew result hreq _ hok =>
      obtain ⟨hclaim, hopen, hsession⟩ := hwf
      have hadd := @ConductInv.addSession _ _ _ hinv htask _ _ _ _ hcoro dReqId transferId result
      have hnew : (s.book.addSession (newSession tid task.identity request dReqId transferId ref
          result)).sessions[s.book.sessions.length]? =
            some (newSession tid task.identity request dReqId transferId ref result) := by
        simp [Book.addSession]
      obtain ⟨i, y, hy, hsame⟩ := @openAnswered_session s _ _ _ _ _ _ isNew _ hok
      rw [openAnswered, hok] at hy ⊢
      refine ⟨.sessionOpen request .done, rfl, ?_, ⟨hsingle, trivial⟩, fun ref hmem =>
        Or.inr (Or.inl ?_)⟩
      · simp only [mapBook, reply, setCoro]
        split
        · rename_i hzero
          refine hadd.completeProducerSession fun x hx => ?_
          obtain rfl := Option.some.inj (hnew.symm.trans hx)
          exact hzero.le.trans (Nat.zero_le _)
        · exact hadd
      · exact ⟨i, y, hy, hsame.opener⟩

theorem Runs.settles_pull {request : CompressionChunkPull} {pos : PullAt}
    (hruns : Runs s tid task.identity late (.chunkPull request pos) s') (hinv : ConductInv s)
    (htask : s.tasks[tid]? = some task) (hcoro : task.coro = .chunkPull request pos) :
    ∃ coro', s'.tasks = (s.setCoro tid coro').tasks ∧ Settles s tid task.identity coro' s' := by
  have hwf : PullWf s.book task.identity request pos := by
    have := hinv.task htask
    rwa [hcoro] at this
  have hheld (ref : Nat) : (tid, ref) ∉ s'.book.claims :=
    Runs.unclaimed (hcoro ▸ hruns) hinv htask (by rw [hcoro]; rfl) ref
  -- It is enough to look at the new position in the old book.
  have hsettles (pos' : PullAt) (hledger : s'.book.Ledger)
      (hpos : PullWf s.book task.identity request pos') :
      Settles s tid task.identity (.chunkPull request pos') s' :=
    ⟨hledger, hpos.of_sessions hruns.sessions, fun ref hmem => absurd hmem (hheld ref)⟩
  have hserved {pos : PullAt} (hpos : PullWf s.book task.identity request pos) :
      ∃ sref, Serves s.book task.identity request sref := by
    cases pos with
    | created => exact hpos
    | done => exact hpos
    | waitSlot sref => exact ⟨sref, hpos⟩
    | waitEncode sref => exact ⟨sref, hpos⟩
    | waitDrain sref => exact ⟨sref, hpos.1⟩
  have hledger := hinv.ledger
  cases hruns with
  | pullUnknown => exact ⟨_, rfl, hsettles .done hledger (hserved hwf)⟩
  | pullRefused =>
      exact ⟨_, leaveChunk_tasks,
        hsettles .done (leaveChunk_ledger (hledger.setDead rfl)) (hserved hwf)⟩
  | @pullWaits _ sref _ hkey =>
      exact ⟨_, rfl, hsettles (.waitSlot sref) (hledger.addInflight 1)
        (hinv.serves hwf hkey)⟩
  | @pullAborted _ _ _ sref slot _ _ message hslot =>
      refine ⟨_, rfl, hsettles (.waitDrain sref slot _ _) ((hslot.ledger hledger).setDead rfl)
        ⟨hslot.serves hinv hwf, fun ready heq => ?_⟩⟩
      obtain rfl := Option.some.inj heq
      rfl
  | @pullSubmits _ _ _ sref slot _ _ hslot =>
      exact ⟨_, rfl, hsettles (.waitEncode sref slot _) (hslot.ledger hledger)
        (hslot.serves hinv hwf)⟩
  | @pullErrs _ sref slot job message =>
      refine ⟨_, rfl, hsettles (.waitDrain sref slot _ _) (hledger.setDead rfl)
        ⟨hwf, fun ready heq => ?_⟩⟩
      obtain rfl := Option.some.inj heq
      rfl
  | pullEncoded _ hok =>
      rw [encodeAnswered, hok] at hsettles ⊢
      exact ⟨_, leaveChunk_tasks,
        hsettles .done (leaveChunk_ledger (hledger.chunkEncoded _)) (hserved hwf)⟩
  | pullDrained =>
      exact ⟨_, leaveChunk_tasks,
        hsettles .done (leaveChunk_ledger hledger) (hserved hwf)⟩

theorem Runs.settles_abort {request : CompressionAbort} {pos : AbortAt}
    (hruns : Runs s tid task.identity late (.abort request pos) s') (hinv : ConductInv s)
    (htask : s.tasks[tid]? = some task) (hcoro : task.coro = .abort request pos) :
    ∃ coro', s'.tasks = (s.setCoro tid coro').tasks ∧ Settles s tid task.identity coro' s' := by
  have hheld (ref : Nat) : (tid, ref) ∉ s'.book.claims :=
    Runs.unclaimed (hcoro ▸ hruns) hinv htask (by rw [hcoro]; rfl) ref
  have hledger := hinv.ledger
  cases hruns with
  | abortStarts =>
      refine ⟨_, rfl, ?_, trivial, fun ref hmem => absurd hmem (hheld ref)⟩
      have hclose : (s.book.close s.now request.operationKey).Ledger :=
        hledger.of_eq rfl rfl rfl rfl rfl
      simp only [abortProducer, mapBook, setCoro]
      split
      · exact hclose.cancelSession
      · exact hclose
  | abortAcks =>
      exact ⟨_, rfl, hledger.cancelAll _, trivial, fun ref hmem => absurd hmem (hheld ref)⟩
  | abortTimesOut =>
      exact ⟨_, rfl, hledger.cancelAll _, trivial, fun ref hmem => absurd hmem (hheld ref)⟩

theorem Runs.not_done (h : Runs s tid identity late coro s') : coro.isDone = false := by
  cases h with
  | openWaits _ henter => cases henter <;> rfl
  | openRefused _ _ henter => cases henter <;> rfl
  | openClosed _ henter => cases henter <;> rfl
  | openSubmits _ henter => cases henter <;> rfl
  | pullAborted hslot => cases hslot <;> rfl
  | pullSubmits hslot => cases hslot <;> rfl
  | _ => rfl

/-- **Every run of a handler is a turn.** -/
theorem Runs.turns (hruns : Runs s tid task.identity late task.coro s') (hinv : ConductInv s)
    (htask : s.tasks[tid]? = some task) : ∃ coro', Turns s tid task coro' s' := by
  obtain ⟨coro', htasks, hsettles⟩ :
      ∃ coro', s'.tasks = (s.setCoro tid coro').tasks ∧ Settles s tid task.identity coro' s' := by
    cases hcoro : task.coro with
    | sessionOpen request pos =>
        exact Runs.settles_open (hcoro ▸ hruns) hinv htask hcoro
    | chunkPull request pos => exact Runs.settles_pull (hcoro ▸ hruns) hinv htask hcoro
    | abort request pos => exact Runs.settles_abort (hcoro ▸ hruns) hinv htask hcoro
  obtain ⟨coro, b, htasks', hrequest, hcredits, hacc⟩ := hruns.accounts
  obtain rfl : coro = coro' := setCoro_inj htask (htasks'.symm.trans htasks)
  refine ⟨coro, htasks, hrequest, fun hdone => ?_, hruns.frame.received, hruns.frame.routerOpen,
    hsettles.ledger, ⟨b, hcredits, hacc⟩, hsettles.wf, fun ref hmem => ?_, hruns.answers⟩
  · rw [hruns.not_done] at hdone
    cases hdone
  · rcases hsettles.held ref hmem with hfin | hses | hpos
    · exact Or.inl hfin
    · exact Or.inr (Or.inl hses)
    · exact Or.inr (Or.inr (Or.inl hpos))

/-! ### The other steps -/

theorem start_conductInv (init : InitMessage) : ConductInv (start init) where
  ledger :=
    { send :=
        { claims := List.nodup_nil, finished := List.nodup_nil
          known := fun _ h => by cases h
          target := fun h => by cases h
          sending := fun h => by simp [start] at h
          sent := fun h => by simp [start] at h }
      sess :=
        { filed := fun h => by cases h
          opener := fun h => by simp [start] at h
          key := fun h => by simp [start] at h
          session := fun h => by simp [start] at h } }
  uncancelled _ := by intro tid task h; simp [start] at h
  received := rfl
  opens h := by simp [start] at h
  pulls h := by simp [start] at h
  claims _ h := by cases h
  task h := by simp [start] at h
  session h := by simp [start] at h
  opened h := by cases h
  held _ h := by cases h

/-- Who a handler works for and where it stands. -/
def work (task : Task) : Identity × Coroutine := (task.identity, task.coro)

/-- No handler moves, no chunk is counted and no session is filed. -/
theorem ConductInv.frame (hinv : ConductInv s) (hledger : s'.book.Ledger)
    (hacc : Book.Accounts none s.book s'.book)
    (htasks : ∀ j : Nat, (s'.tasks[j]?).map work = (s.tasks[j]?).map work)
    (hreceived : s'.received = s.received) (hreplies : s'.replies = s.replies)
    (hopen : s'.routerOpen = true → s.routerOpen = true ∧ ∀ {tid : Nat} {task : Task},
      s'.tasks[tid]? = some task → task.cancelRequested = false) : ConductInv s' := by
  have hold {j : Nat} {u' : Task} (hu' : s'.tasks[j]? = some u') :
      ∃ u, s.tasks[j]? = some u ∧ u.identity = u'.identity ∧ u.coro = u'.coro := by
    have hj := htasks j
    rw [hu', Option.map_some] at hj
    obtain ⟨u, hu, heq⟩ := Option.map_eq_some_iff.mp hj.symm
    obtain ⟨hidentity, hcoro⟩ := Prod.mk.inj heq
    exact ⟨u, hu, hidentity, hcoro⟩
  have hnew {j : Nat} {u : Task} (hu : s.tasks[j]? = some u) :
      ∃ u', s'.tasks[j]? = some u' ∧ u'.identity = u.identity ∧ u'.coro = u.coro := by
    have hj := htasks j
    rw [hu, Option.map_some] at hj
    obtain ⟨u', hu', heq⟩ := Option.map_eq_some_iff.mp hj
    obtain ⟨hidentity, hcoro⟩ := Prod.mk.inj heq
    exact ⟨u', hu', hidentity, hcoro⟩
  have hkeeps : KeepsDone s.tasks s'.tasks := fun j u hu _ => by
    obtain ⟨u', hu', hidentity, hcoro⟩ := hnew hu
    exact ⟨u', hu', hcoro, hidentity⟩
  refine ⟨hledger, fun ho => (hopen ho).2, ?_, ?_, ?_, ?_, ?_, ?_, ?_, ?_⟩
  · rw [hreceived, hinv.received]
    refine List.ext_getElem? fun j => ?_
    have hj := congrArg (Option.map fun p : Identity × Coroutine => (p.1, p.2.request)) (htasks j)
    rw [List.getElem?_map, List.getElem?_map]
    simpa [Function.comp_def, work] using hj.symm
  · intro i j t u request request' ht hu hreq hreq' hid
    obtain ⟨t₀, ht₀, hti, htc⟩ := hold ht
    obtain ⟨u₀, hu₀, hui, huc⟩ := hold hu
    exact hinv.opens ht₀ hu₀ (htc ▸ hreq) (huc ▸ hreq') (hti.trans (hid.trans hui.symm))
  · intro i j t u request request' ht hu hreq hreq' hid hchunk
    obtain ⟨t₀, ht₀, hti, htc⟩ := hold ht
    obtain ⟨u₀, hu₀, hui, huc⟩ := hold hu
    exact hinv.pulls ht₀ hu₀ (htc ▸ hreq) (huc ▸ hreq') (hti.trans (hid.trans hui.symm)) hchunk
  · intro claim hclaim
    rcases hacc.claimed claim hclaim with hc | hown
    · obtain ⟨u, request, hu, hreq⟩ := hinv.claims claim hc
      obtain ⟨u', hu', -, hcoro⟩ := hnew hu
      exact ⟨u', request, hu', hcoro ▸ hreq⟩
    · cases hown
  · intro j u' hu'
    obtain ⟨u, hu, hidentity, hcoro⟩ := hold hu'
    rw [← hidentity, ← hcoro]
    exact (hinv.task hu).accounts hacc (by simp)
  · intro i y hy
    obtain ⟨x, hx, hsame, hencoded⟩ := hacc.session hy
    exact ((hinv.session hx).same hsame hencoded).tasks hkeeps
  · intro peer opened hmem htotal
    obtain ⟨i, x, hx, hidentity, hchunks⟩ := hinv.opened (hreplies ▸ hmem) htotal
    obtain ⟨y, hy, hsame, -⟩ := hacc.sessions hx
    refine ⟨i, y, hy, ?_, hsame.totalChunks.trans hchunks⟩
    rw [hsame.same]
    exact hidentity
  · intro claim hclaim
    rcases hacc.claimed claim hclaim with hc | hown
    · rcases hinv.held claim hc with hfin | ⟨i, x, hx, hopener⟩ |
        ⟨u, request, isNew, job, hu, hpos⟩ | hclosed
      · exact Or.inl (hacc.finished hfin)
      · obtain ⟨y, hy, hsame, -⟩ := hacc.sessions hx
        exact Or.inr (Or.inl ⟨i, y, hy, hsame.opener.trans hopener⟩)
      · obtain ⟨u', hu', -, hcoro⟩ := hnew hu
        exact Or.inr (Or.inr (Or.inl ⟨u', request, isNew, job, hu', hcoro.trans hpos⟩))
      · refine Or.inr (Or.inr (Or.inr ?_))
        by_contra ho
        rw [(hopen (by simpa using ho)).1] at hclosed
        cases hclosed
    · cases hown

theorem ConductInv.clearCancel (hinv : ConductInv s) : ConductInv (s.clearCancel tid) := by
  refine hinv.frame hinv.ledger (.refl _) (fun j => ?_) rfl rfl fun hopen => ⟨hopen, ?_⟩
  · by_cases hj : tid = j
    · subst hj
      cases htask : s.tasks[tid]? with
      | none => simp [Producer.clearCancel, htask]
      | some task =>
          rw [show (s.clearCancel tid).tasks[tid]? = _ from getElem?_modify_self htask _]
          rfl
    · rw [show (s.clearCancel tid).tasks[j]? = _ from getElem?_modify_ne hj _]
  · intro j u hu
    rcases getElem?_modify_some hu with ⟨-, u₀, -, rfl⟩ | ⟨-, hu₀⟩
    · rfl
    · exact hinv.uncancelled hopen hu₀

/-- A cancelled handler: an open handler ends with its claim unfinished, which
only happens once the router is closed. -/
theorem ConductInv.runCancelled (hinv : ConductInv s) (htask : s.tasks[tid]? = some task)
    (hcancel : task.cancelRequested = true) : ConductInv (s.runCancelled tid task) := by
  have hclosed : s.routerOpen = false := by
    by_contra hopen
    rw [hinv.uncancelled (by simpa using hopen) htask] at hcancel
    cases hcancel
  have hclear : ConductInv (s.clearCancel tid) := hinv.clearCancel
  have htask' : (s.clearCancel tid).tasks[tid]? = some { task with cancelRequested := false } :=
    getElem?_modify_self htask _
  have hframe := @runCancelled_frame s tid task
  have hacc := @runCancelled_accounts s tid task
  have hwf := hinv.task htask
  suffices ∃ coro', (s.runCancelled tid task).tasks = ((s.clearCancel tid).setCoro tid coro').tasks ∧
      coro'.request = task.coro.request ∧ (task.coro.isDone = true → coro' = task.coro) ∧
      (s.runCancelled tid task).book.Ledger ∧
      CoroWf (s.runCancelled tid task).book tid task.identity coro' by
    obtain ⟨coro', htasks, hrequest, hdone, hledger, hwf'⟩ := this
    exact hclear.turns htask' (show Turns _ _ _ coro' _ from ⟨htasks, hrequest, hdone, hframe.received,
      hframe.routerOpen, hledger, ⟨_, .plain _ _, hacc.weaken⟩, hwf',
      fun ref _ => Or.inr (Or.inr (Or.inr hclosed)), Or.inl (runCancelled_replies task)⟩)
  have hsessions {i : Nat} {x : ProducerSession} (hx : s.book.sessions[i]? = some x) :
      ∃ y, (s.runCancelled tid task).book.sessions[i]? = some y ∧ SameSession x y := by
    obtain ⟨y, hy, hsame, -⟩ := hacc.sessions hx
    exact ⟨y, hy, hsame⟩
  cases hcoro : task.coro with
  | sessionOpen request pos =>
      rw [hcoro] at hwf
      simp only [Producer.runCancelled, hcoro]
      refine ⟨_, rfl, rfl, fun hdone => ?_, hinv.ledger, hwf.1, trivial⟩
      cases pos <;> first | rfl | cases hdone
  | abort request pos =>
      simp only [Producer.runCancelled, hcoro]
      refine ⟨_, rfl, rfl, fun hdone => ?_, hinv.ledger, trivial⟩
      cases pos <;> first | rfl | cases hdone
  | chunkPull request pos =>
      rw [hcoro] at hwf
      simp only [Producer.runCancelled, hcoro] at hsessions ⊢
      cases pos with
      | created =>
          exact ⟨.chunkPull request .done, rfl, rfl, fun hdone => (by cases hdone), hinv.ledger, hwf⟩
      | done => exact ⟨.chunkPull request .done, rfl, rfl, fun _ => rfl, hinv.ledger, hwf⟩
      | waitSlot sref =>
          refine ⟨.chunkPull request .done, leaveChunk_tasks, rfl, fun hdone => (by cases hdone),
            leaveChunk_ledger hinv.ledger, ?_⟩
          exact ⟨sref, Serves.of_sessions hwf hsessions⟩
      | waitEncode sref slot job =>
          exact ⟨_, rfl, rfl, fun hdone => (by cases hdone), hinv.ledger, hwf, fun _ h => by cases h⟩
      | waitDrain sref slot job response =>
          exact ⟨.chunkPull request .done, rfl, rfl, fun hdone => (by cases hdone), hinv.ledger,
            sref, hwf.1⟩

/-- The handler an open was received for. -/
theorem ConductInv.task_of_received (hinv : ConductInv s) {entry : Identity × CompressionRequest}
    (hmem : entry ∈ s.received) :
    ∃ (j : Nat) (u : Task), s.tasks[j]? = some u ∧ u.identity = entry.1 ∧
      u.coro.request = entry.2 := by
  rw [hinv.received] at hmem
  obtain ⟨u, hu, rfl⟩ := List.mem_map.mp hmem
  obtain ⟨j, hj⟩ := List.getElem?_of_mem hu
  exact ⟨j, u, hj, rfl, rfl⟩

theorem ConductInv.mem_received (hinv : ConductInv s) {j : Nat} {u : Task}
    (hu : s.tasks[j]? = some u) : (u.identity, u.coro.request) ∈ s.received := by
  rw [hinv.received]
  exact List.mem_map.mpr ⟨u, List.mem_of_getElem? hu, rfl⟩

@[simp] theorem newTask_identity (request : CompressionRequest) :
    (newTask identity request).identity = identity := by
  cases request <;> rfl

@[simp] theorem newTask_request (request : CompressionRequest) :
    (newTask identity request).coro.request = request := by
  cases request <;> rfl

/-- The new handler finds its session, or nothing of itself. -/
theorem ConductInv.newTask_wf (hinv : ConductInv s) {request : CompressionRequest}
    (hconduct : s.Conduct (.recv identity request)) :
    CoroWf s.book s.tasks.length identity (newTask identity request).coro := by
  cases request with
  | sessionOpen request =>
      refine ⟨hconduct.1, fun hmem => ?_, fun i x hx heq => ?_⟩
      · obtain ⟨claim, hclaim, heq⟩ := List.mem_map.mp hmem
        obtain ⟨u, request', hu, -⟩ := hinv.claims claim hclaim
        have hlt := (List.getElem?_eq_some_iff.mp hu).1
        omega
      · obtain ⟨u, request', hu, -⟩ := (hinv.session hx).opener
        have hlt := (List.getElem?_eq_some_iff.mp hu).1
        omega
  | chunkPull request =>
      obtain ⟨⟨opened, hreply, hchunk⟩, ⟨open', hopen', hkey⟩, -⟩ := hconduct
      obtain ⟨i, x, hx, hidentity, htotal⟩ := hinv.opened hreply (Nat.lt_of_le_of_lt (Nat.zero_le _)
        hchunk)
      obtain ⟨j, u, hu, hui, hur⟩ := hinv.task_of_received hopen'
      obtain ⟨t, request', ht, htc, hti, htk⟩ := (hinv.session hx).opener
      have hopener : x.opener = j := hinv.opens ht hu (by rw [htc]; rfl) hur
        (hti.trans (hidentity.trans hui.symm))
      rw [hopener, hu] at ht
      obtain rfl := Option.some.inj ht
      rw [htc] at hur
      obtain rfl : request' = open' := CompressionRequest.sessionOpen.inj hur
      exact ⟨i, x, hx, hidentity, Option.some.inj (htk.symm.trans hkey), htotal ▸ hchunk⟩
  | abort request => trivial

theorem ConductInv.dispatch (hinv : ConductInv s) {request : CompressionRequest}
    (hconduct : s.Conduct (.recv identity request)) :
    ConductInv (s.dispatchProducer identity request) := by
  unfold dispatchProducer
  split
  · exact hinv
  · have hold {j : Nat} {u : Task} (hu : (s.tasks ++ [newTask identity request])[j]? = some u) :
        s.tasks[j]? = some u ∨ (j = s.tasks.length ∧ u = newTask identity request) :=
      getElem?_append_some hu
    have hkeep {j : Nat} {u : Task} (hu : s.tasks[j]? = some u) :
        (s.tasks ++ [newTask identity request])[j]? = some u := getElem?_append_of_some hu _
    refine ⟨hinv.ledger.of_eq rfl rfl rfl rfl rfl, ?_, ?_, ?_, ?_, ?_, ?_, ?_, hinv.opened, ?_⟩
    · intro hopen j u hu
      rcases hold hu with hu | ⟨-, rfl⟩
      · exact hinv.uncancelled hopen hu
      · cases request <;> rfl
    · simp only [List.map_append, List.map_cons, List.map_nil, newTask_identity, newTask_request,
        ← hinv.received]
    · intro i j t u req req' ht hu hreq hreq' hid
      -- A new open comes from a socket that has sent nothing yet.
      have hfresh {k : Nat} {v : Task} {r : CompressionSessionOpen} (hv : s.tasks[k]? = some v)
          (hr : (newTask identity request).coro.request = .sessionOpen r) :
          v.identity ≠ identity := by
        rw [newTask_request] at hr
        subst hr
        exact hconduct.2.1 _ (hinv.mem_received hv)
      rcases hold ht with ht | ⟨hi, rfl⟩
      · rcases hold hu with hu | ⟨-, rfl⟩
        · exact hinv.opens ht hu hreq hreq' hid
        · rw [newTask_identity] at hid
          exact absurd hid (hfresh ht hreq')
      · rcases hold hu with hu | ⟨hj, -⟩
        · rw [newTask_identity] at hid
          exact absurd hid.symm (hfresh hu hreq)
        · rw [hi, hj]
    · intro i j t u req req' ht hu hreq hreq' hid hchunk
      have hfresh {k : Nat} {v : Task} {r r' : CompressionChunkPull} (hv : s.tasks[k]? = some v)
          (hr : (newTask identity request).coro.request = .chunkPull r)
          (hr' : v.coro.request = .chunkPull r') (hid : v.identity = identity) :
          r'.chunkId ≠ r.chunkId := by
        rw [newTask_request] at hr
        subst hr
        have hmem := hinv.mem_received hv
        rw [hid, hr'] at hmem
        exact hconduct.2.2 r' hmem
      rcases hold ht with ht | ⟨hi, rfl⟩
      · rcases hold hu with hu | ⟨-, rfl⟩
        · exact hinv.pulls ht hu hreq hreq' hid hchunk
        · rw [newTask_identity] at hid
          exact absurd hchunk (hfresh ht hreq' hreq hid)
      · rcases hold hu with hu | ⟨hj, -⟩
        · rw [newTask_identity] at hid
          exact absurd hchunk.symm (hfresh hu hreq hreq' hid.symm)
        · rw [hi, hj]
    · intro claim hclaim
      obtain ⟨u, req, hu, hreq⟩ := hinv.claims claim hclaim
      exact ⟨u, req, hkeep hu, hreq⟩
    · intro j u hu
      rcases hold hu with hu | ⟨rfl, rfl⟩
      · exact hinv.task hu
      · rw [newTask_identity]
        exact hinv.newTask_wf hconduct
    · intro i x hx
      exact (hinv.session hx).tasks fun j u hu _ => ⟨u, hkeep hu, rfl, rfl⟩
    · intro claim hclaim
      rcases hinv.held claim hclaim with hfin | hses | ⟨u, req, isNew, job, hu, hpos⟩ | hclosed
      · exact Or.inl hfin
      · exact Or.inr (Or.inl hses)
      · exact Or.inr (Or.inr (Or.inl ⟨u, req, isNew, job, hkeep hu, hpos⟩))
      · exact Or.inr (Or.inr (Or.inr hclosed))

/-- **One step keeps the invariant.** -/
theorem ConductInv.step (hinv : ConductInv s) (hconduct : s.Conduct a)
    (hstep : s.step a = some s') : ConductInv s' := by
  have hopen : s.routerOpen = true → s.routerOpen = true ∧ ∀ {tid : Nat} {task : Task},
      s.tasks[tid]? = some task → task.cancelRequested = false :=
    fun ho => ⟨ho, hinv.uncancelled ho⟩
  cases a with
  | recv identity request =>
      simp only [Producer.step] at hstep
      split at hstep
      · obtain rfl := Option.some.inj hstep
        exact hinv.dispatch hconduct
      · cases hstep
  | metadataUpdate message =>
      obtain rfl := Option.some.inj hstep
      exact hinv.frame (hinv.ledger.applyProducerMetadata message) (.applyProducerMetadata message)
        (fun _ => rfl) rfl rfl hopen
  | jobDone id result =>
      simp only [Producer.step] at hstep
      split at hstep
      · obtain rfl := Option.some.inj hstep
        exact hinv.frame hinv.ledger (.refl _) (fun _ => rfl) rfl rfl hopen
      · cases hstep
  | run tid =>
      obtain ⟨task, htask, ⟨hcancel, rfl⟩ | ⟨-, hruns⟩⟩ := run_cases hstep
      · exact hinv.runCancelled htask hcancel
      · obtain ⟨coro', hturns⟩ := hruns.turns hinv htask
        exact hinv.turns htask hturns
  | timeout tid =>
      obtain ⟨task, htask, -, hruns⟩ := timeout_cases hstep
      obtain ⟨coro', hturns⟩ := hruns.turns hinv htask
      exact hinv.turns htask hturns
  | sweep =>
      simp only [Producer.step] at hstep
      split at hstep
      · cases hstep
      · obtain rfl := Option.some.inj hstep
        exact hinv.frame hinv.ledger.sweepSends .sweepSends (fun _ => rfl) rfl rfl hopen
  | clock =>
      simp only [Producer.step] at hstep
      split at hstep
      · cases hstep
      · obtain rfl := Option.some.inj hstep
        exact hinv.frame hinv.ledger (.refl _) (fun _ => rfl) rfl rfl hopen
  | stop =>
      obtain rfl := Option.some.inj hstep
      exact hinv.frame hinv.ledger (.refl _) (fun _ => rfl) rfl rfl hopen
  | shutdown =>
      simp only [Producer.step] at hstep
      split at hstep
      · obtain rfl := Option.some.inj hstep
        refine hinv.frame hinv.ledger (.refl _) (fun j => ?_) rfl rfl fun ho => by cases ho
        simp only [Producer.shutdown, List.getElem?_map, Option.map_map]
        refine congrArg (Option.map · _) (funext fun task => ?_)
        simp only [Function.comp_apply]
        split <;> rfl
      · cases hstep

end Producer

end KVServe.Session
