import KVServe.Session.BookRelease
import KVServe.Session.Handshake
import KVServe.Session.ProducerInside

/-!
# KVServe.Session.ProducerRelease

**When a producer worker releases the blocks of a request.** The consumer
workers of a `Topology` open their sessions with one producer worker, in any
order and each at its own pace; the helper emits the `FinalEvent` of the request
after the last of them has finished, if each paired TP rank has one PP rank that
opens (`Topology.OnePpRank`), and too early otherwise.

`owner` names the consumer worker behind a socket.
-/

namespace KVServe.Session

/-- The transfer an open is for. -/
def CompressionSessionOpen.transferId? (request : CompressionSessionOpen) : Option TransferId :=
  request.operationKey?.map (·.1)

namespace Topology

/-- The `InitMessage` of a producer worker. -/
def producerInit (T : Topology) (base : InitMessage) (w : Worker) : InitMessage :=
  { base with tpRank := w.1, tpSize := T.producerTp, ppRank := w.2, ppSize := T.producerPp }

/-- `len(remote_tp_ranks)` of a producer worker. -/
def needSend (T : Topology) (w : Worker) : Nat :=
  match handshakeTargetRanks w.1 T.producerTp T.consumerTp with
  | .ok ranks => ranks.length
  | .error _ => 0

end Topology

namespace Producer

variable {T : Topology} {addr : Worker → String} {base : InitMessage} {owner : Identity → Worker}
  {w : Worker} {s s' : Producer} {tid : Nat} {identity : Identity} {late : Bool} {a : Action}
  {task : Task}

/-- Each consumer worker opens the sessions its handshake yields, one for a
transfer, and the engine announces a transfer once. -/
def Paired (T : Topology) (addr : Worker → String) (base : InitMessage) (owner : Identity → Worker)
    (w : Worker) (s : Producer) : Action → Prop
  | .recv identity (.sessionOpen request) =>
      request.metadata.remoteTpSize = T.consumerTp ∧
        T.Opens addr base (owner identity) w.1 w.2 ∧
        ∀ entry ∈ s.received, ∀ other, entry.2 = .sessionOpen other →
          owner entry.1 = owner identity → other.transferId? ≠ request.transferId?
  | .metadataUpdate message => s.book.Fresh message.announced
  | _ => True

/-- A waiter of `_wait_ready` for a `_SendState` that is announced has its whole
deadline left. -/
def Waits (s : Producer) (task : Task) (ref : Nat) (request : CompressionSessionOpen) : Prop :=
  ∃ m, s.book.states[ref]? = some m ∧ request.transferId? = some m.transferId ∧
    (task.cancelRequested = false → m.ready = true →
      m.expireTime = some (s.now + abortTimeout))

/-- The account of a producer worker and its paired consumer workers. -/
structure ServedInv (T : Topology) (addr : Worker → String) (base : InitMessage)
    (owner : Identity → Worker) (w : Worker) (s : Producer) : Prop where
  init : s.init = T.producerInit base w
  conduct : ConductInv s
  inside : InsideInv s
  release : s.book.ReleaseInv (T.needSend w) s.now
  opens : ∀ {i : Nat} {identity : Identity} {request : CompressionSessionOpen},
    s.received[i]? = some (identity, .sessionOpen request) →
    request.metadata.remoteTpSize = T.consumerTp ∧ T.Opens addr base (owner identity) w.1 w.2
  /-- A worker opens one session for a transfer. -/
  paired : ∀ {i j : Nat} {identity identity' : Identity} {request request' : CompressionSessionOpen},
    s.received[i]? = some (identity, .sessionOpen request) →
    s.received[j]? = some (identity', .sessionOpen request') →
    request.transferId? = request'.transferId? → owner identity = owner identity' → i = j
  waits : ∀ {tid : Nat} {task : Task} {request : CompressionSessionOpen} {ref : Nat} {isNew : Bool}
    {deadline : Nat}, s.tasks[tid]? = some task →
    task.coro = .sessionOpen request (.waitReady ref isNew deadline) → Waits s task ref request
  claimers : ∀ {tid ref : Nat}, (tid, ref) ∈ s.book.claims →
    ∃ identity request m, s.received[tid]? = some (identity, .sessionOpen request) ∧
      s.book.states[ref]? = some m ∧ request.transferId? = some m.transferId

theorem ConductInv.received_get (h : ConductInv s) (htask : s.tasks[tid]? = some task) :
    s.received[tid]? = some (task.identity, task.coro.request) := by
  rw [h.received, List.getElem?_map, htask]
  rfl

/-! ### A handler that claims -/

/-- The consumer worker `v` has opened a session for the transfer, and claimed. -/
def ClaimedBy (s : Producer) (owner : Identity → Worker) (ref : Nat) (transferId : TransferId)
    (v : Worker) : Prop :=
  ∃ tid identity request, (tid, ref) ∈ s.book.claims ∧
    s.received[tid]? = some (identity, .sessionOpen request) ∧
    request.transferId? = some transferId ∧ owner identity = v

/-- The workers behind the claims on a state. -/
theorem ServedInv.claim_workers (h : ServedInv T addr base owner w s) {ref : Nat} {m : SendState}
    (hm : s.book.states[ref]? = some m) :
    ∃ workers : List Worker, workers.Nodup ∧ workers.length = s.book.claimsOn ref ∧
      ∀ v ∈ workers, T.Opens addr base v w.1 w.2 ∧ ClaimedBy s owner ref m.transferId v := by
  let claims := s.book.claims.filter (·.2 == ref)
  let worker (claim : Nat × Nat) : Worker := owner ((s.received[claim.1]?.map (·.1)).getD "")
  have hpeer : ∀ claim ∈ claims, ∃ identity request, claim ∈ s.book.claims ∧ claim.2 = ref ∧
      s.received[claim.1]? = some (identity, .sessionOpen request) ∧
        request.transferId? = some m.transferId := by
    rintro ⟨tid, ref'⟩ hclaim
    obtain ⟨hmem, href⟩ := List.mem_filter.mp hclaim
    obtain rfl : ref' = ref := by simpa using href
    obtain ⟨identity, request, m', hentry, hm', htransfer⟩ := h.claimers hmem
    obtain rfl := Option.some.inj (hm.symm.trans hm')
    exact ⟨identity, request, hmem, rfl, hentry, htransfer⟩
  refine ⟨claims.map worker, ?_, ?_, fun v hv => ?_⟩
  · refine List.Nodup.map_on (fun c hc d hd heq => ?_)
      ((List.Nodup.of_map _ h.conduct.ledger.send.claims).sublist List.filter_sublist)
    obtain ⟨id₁, r₁, -, hc₂, h₁, ht₁⟩ := hpeer c hc
    obtain ⟨id₂, r₂, -, hd₂, h₂, ht₂⟩ := hpeer d hd
    refine Prod.ext (h.paired h₁ h₂ (ht₁.trans ht₂.symm) ?_) (hc₂.trans hd₂.symm)
    simpa [worker, h₁, h₂] using heq
  · rw [List.length_map, Book.claimsOn, List.countP_eq_length_filter]
  · obtain ⟨claim, hclaim, rfl⟩ := List.mem_map.mp hv
    obtain ⟨identity, request, hmem, rfl, hentry, htransfer⟩ := hpeer claim hclaim
    have hworker : worker claim = owner identity := by simp [worker, hentry]
    rw [hworker]
    exact ⟨(h.opens hentry).2, claim.1, identity, request, hmem, hentry, htransfer, rfl⟩

/-- As many workers open a session as `need_send` says, or fewer. -/
theorem openers_le (haddr : Function.Injective addr) (hone : T.OnePpRank) {workers : List Worker}
    (hnodup : workers.Nodup) (hopens : ∀ v ∈ workers, T.Opens addr base v w.1 w.2) :
    workers.length ≤ T.needSend w := by
  unfold Topology.needSend
  split
  · rename_i ranks hranks
    exact Topology.length_openers_le haddr hone hranks hnodup hopens
  · rename_i message hranks
    unfold handshakeTargetRanks at hranks
    have hpos := T.consumerTp_pos
    have hpos' := T.producerTp_pos
    split at hranks <;> rw [if_neg (by omega)] at hranks <;> cases hranks

/-- A worker that opens and has not claimed makes one more. -/
theorem ServedInv.claimsOn_lt (h : ServedInv T addr base owner w s)
    (haddr : Function.Injective addr) (hone : T.OnePpRank) {ref : Nat} {m : SendState} {v : Worker}
    (hm : s.book.states[ref]? = some m) (hopens : T.Opens addr base v w.1 w.2)
    (hfree : ¬ ClaimedBy s owner ref m.transferId v) : s.book.claimsOn ref < T.needSend w := by
  obtain ⟨workers, hnodup, hlength, hworkers⟩ := h.claim_workers hm
  have hle := openers_le haddr hone (List.nodup_cons.mpr ⟨fun hmem => hfree (hworkers v hmem).2,
    hnodup⟩) (List.forall_mem_cons.mpr ⟨hopens, fun u hu => (hworkers u hu).1⟩)
  rw [List.length_cons, hlength] at hle
  exact hle

/-- The `_SendState` a handler in `_wait_ready` goes on with, once it is announced. -/
theorem Enters.of_ready {transferId : TransferId} {pos : OpenAt} {b : Book} {ref : Nat}
    {isNew : Bool} {deadline : Nat} (h : Enters s transferId pos b ref isNew deadline)
    (hready : b.isReady ref = true) :
    b = s.book ∧ (s.book.sendMeta transferId = some ref ∨
      pos = .waitReady ref isNew deadline) := by
  cases h with
  | found hfound => exact ⟨rfl, Or.inl hfound⟩
  | placeholder => simp [Book.isReady, Book.addState] at hready
  | resumed => exact ⟨rfl, Or.inr rfl⟩

theorem isReady_iff {b : Book} {ref : Nat} :
    b.isReady ref = true ↔ ∃ m, b.states[ref]? = some m ∧ m.ready = true := by
  unfold Book.isReady
  cases b.states[ref]? <;> simp

theorem transferId?_of_reqBlocks {request : CompressionSessionOpen} {dReqId : ReqId}
    {transferId : TransferId} {blocks : BlockIds} {more : List (ReqId × TransferId × BlockIds)}
    (hreq : request.metadata.reqBlocks = (dReqId, transferId, blocks) :: more) :
    request.transferId? = some transferId := by
  rw [CompressionSessionOpen.transferId?, CompressionSessionOpen.operationKey?, hreq]
  rfl

/-- **A state that is claimed has not had its event**: its peers have not all claimed it, and a
waiter is served before its deadline. -/
theorem ServedInv.not_released (h : ServedInv T addr base owner w s)
    (haddr : Function.Injective addr) (hone : T.OnePpRank) {request : CompressionSessionOpen}
    {pos : OpenAt} {transferId : TransferId} {b : Book} {ref : Nat} {isNew : Bool} {deadline : Nat}
    (henter : Enters s transferId pos b ref isNew deadline) (htask : s.tasks[tid]? = some task)
    (hcancel : task.cancelRequested = false) (hcoro : task.coro = .sessionOpen request pos)
    (htransfer : request.transferId? = some transferId) (hready : b.isReady ref = true) :
    ∃ m, s.book.states[ref]? = some m ∧ m.ready = true ∧ m.transferId = transferId ∧
      s.book.claimsOn ref < T.needSend w ∧ ∀ e ∈ s.book.finalEvents, e.reqId ≠ m.pReqId := by
  obtain ⟨rfl, hfrom⟩ := henter.of_ready hready
  obtain ⟨m, hm, hmr⟩ := isReady_iff.mp hready
  have hmt : m.transferId = transferId := by
    rcases hfrom with hfound | rfl
    · obtain ⟨m', hm', heq⟩ := h.release.filed hfound
      obtain rfl := Option.some.inj (hm.symm.trans hm')
      exact heq
    · obtain ⟨m', hm', heq, -⟩ := h.waits htask hcoro
      obtain rfl := Option.some.inj (hm.symm.trans hm')
      exact Option.some.inj (heq.symm.trans htransfer)
  subst hmt
  have hwf := h.conduct.task htask
  rw [hcoro] at hwf
  have hreceived : s.received[tid]? = some (task.identity, .sessionOpen request) := by
    rw [h.conduct.received_get htask, hcoro]
    rfl
  have hfree : ¬ ClaimedBy s owner ref m.transferId (owner task.identity) := by
    rintro ⟨tid', identity', request', hclaim, hentry, htransfer', howner⟩
    obtain rfl := h.paired hentry hreceived (htransfer'.trans htransfer.symm) howner
    exact (henter.unclaimed hwf.2).1 (List.mem_map_of_mem hclaim)
  have hlt := h.claimsOn_lt haddr hone hm (h.opens hreceived).2 hfree
  refine ⟨m, hm, hmr, rfl, hlt, fun e he hreq => ?_⟩
  obtain ⟨i, x, hreleased, hreqx⟩ := h.release.event e he
  obtain rfl := h.release.same_ref hreleased.state hm hreleased.ready hmr (hreqx.trans hreq)
  obtain rfl := Option.some.inj (hm.symm.trans hreleased.state)
  rcases hreleased.last with hall | ⟨-, expiry, hexpiry, hpast⟩
  · omega
  · rcases hfrom with hfound | rfl
    · exact hreleased.gone hfound
    · obtain ⟨m', hm', -, hdeadline⟩ := h.waits htask hcoro
      obtain rfl := Option.some.inj (hm.symm.trans hm')
      rw [hdeadline hcancel hmr] at hexpiry
      obtain rfl := Option.some.inj hexpiry
      omega

/-! ### What a run does to the accounts of the transfers -/

structure Releases (n : Nat) (s : Producer) (tid : Nat) (coro : Coroutine) (s' : Producer) :
    Prop where
  release : s'.book.ReleaseInv n s.now
  ages : Book.Ages s.now s.book s'.book
  /-- A new claim is one of the handler, on a state of its transfer. -/
  claimed : ∀ claim ∈ s'.book.claims, claim ∈ s.book.claims ∨ (claim.1 = tid ∧
    ∃ request m, coro.request = .sessionOpen request ∧ s.book.states[claim.2]? = some m ∧
      request.transferId? = some m.transferId)
  /-- A handler that goes on waiting does so for a state of its transfer. -/
  waits : ∀ request ref isNew deadline,
    s'.tasks = (s.setCoro tid (.sessionOpen request (.waitReady ref isNew deadline))).tasks →
    ∃ m, s'.book.states[ref]? = some m ∧ request.transferId? = some m.transferId ∧ m.ready = false

/-- The state an open handler waits for. -/
theorem ServedInv.enters (h : ServedInv T addr base owner w s) {request : CompressionSessionOpen}
    {pos : OpenAt} {transferId : TransferId} {b : Book} {ref : Nat} {isNew : Bool} {deadline : Nat}
    (henter : Enters s transferId pos b ref isNew deadline) (htask : s.tasks[tid]? = some task)
    (hcoro : task.coro = .sessionOpen request pos)
    (htransfer : request.transferId? = some transferId) :
    b.ReleaseInv (T.needSend w) s.now ∧ Book.Ages s.now s.book b ∧ b.claims = s.book.claims ∧
      ∃ m, b.states[ref]? = some m ∧ m.transferId = transferId := by
  cases henter with
  | found hfound => exact ⟨h.release, .refl _, rfl, h.release.filed hfound⟩
  | placeholder =>
      exact ⟨h.release.addState rfl rfl rfl, .addState, rfl, { transferId }, by simp [Book.addState],
        rfl⟩
  | resumed =>
      obtain ⟨m, hm, heq, -⟩ := h.waits htask hcoro
      exact ⟨h.release, .refl _, rfl, m, hm, Option.some.inj (heq.symm.trans htransfer)⟩

/-- A handler that waits for nothing more. -/
theorem releases_of_parks {n : Nat} {coro c : Coroutine} (htask : s.tasks[tid]? = some task)
    (hrelease : s'.book.ReleaseInv n s.now) (hages : Book.Ages s.now s.book s'.book)
    (hclaims : s'.book.claims ⊆ s.book.claims) (htasks : s'.tasks = (s.setCoro tid c).tasks)
    (hparks : ∀ request ref isNew deadline,
      c ≠ .sessionOpen request (.waitReady ref isNew deadline)) :
    Releases n s tid coro s' :=
  ⟨hrelease, hages, fun _ hmem => Or.inl (hclaims hmem), fun request ref isNew deadline heq =>
    absurd (setCoro_inj htask (htasks.symm.trans heq)) (hparks request ref isNew deadline)⟩

theorem ServedInv.releases_open (h : ServedInv T addr base owner w s)
    (haddr : Function.Injective addr) (hone : T.OnePpRank) {request : CompressionSessionOpen}
    {pos : OpenAt} (htask : s.tasks[tid]? = some task) (hcancel : task.cancelRequested = false)
    (hcoro : task.coro = .sessionOpen request pos)
    (hruns : Runs s tid task.identity late (.sessionOpen request pos) s') :
    Releases (T.needSend w) s tid (.sessionOpen request pos) s' := by
  have hwf := h.conduct.task htask
  rw [hcoro] at hwf
  obtain ⟨-, hwf⟩ := hwf
  -- the claim of an announced state
  have hclaims {transferId : TransferId} {ref : Nat} {isNew : Bool} {deadline : Nat} {dReqId : ReqId}
      {blocks : BlockIds} {more : List (ReqId × TransferId × BlockIds)}
      (hreq : request.metadata.reqBlocks = (dReqId, transferId, blocks) :: more)
      (henter : Enters s transferId pos s.book ref isNew deadline)
      (hready : s.book.isReady ref = true) :
      (s.book.claim tid ref (T.needSend w)).ReleaseInv (T.needSend w) s.now ∧
        (s.book.claim tid ref (T.needSend w)).Ledger ∧
        ((tid, ref) ∈ (s.book.claim tid ref (T.needSend w)).claims ∧ tid ∉ s.book.finished) ∧
        ∀ claim ∈ (s.book.claim tid ref (T.needSend w)).claims, claim ∈ s.book.claims ∨
          (claim.1 = tid ∧ ∃ request' m, Coroutine.request (.sessionOpen request pos) =
            .sessionOpen request' ∧ s.book.states[claim.2]? = some m ∧
              request'.transferId? = some m.transferId) := by
    have htransfer := transferId?_of_reqBlocks hreq
    obtain ⟨m, hm, hready', hmt, hfew, hlive⟩ :=
      h.not_released haddr hone henter htask hcancel hcoro htransfer hready
    obtain ⟨hno, -⟩ := henter.unclaimed hwf
    refine ⟨h.release.claim hm hready' hfew hlive,
      h.conduct.ledger.claim hno (lt_of_isReady hready), ⟨List.mem_append_right _
        (List.mem_singleton_self _), fun hmem => hno (h.conduct.ledger.send.known tid hmem)⟩,
      fun claim hmem => ?_⟩
    rcases List.mem_append.mp hmem with hold | hnew
    · exact Or.inl hold
    · rw [List.mem_singleton.mp hnew]
      exact Or.inr ⟨rfl, request, m, rfl, hm, by rw [htransfer, hmt]⟩
  -- the number of targets is the one of the topology
  have htargets {ranks : List Nat} (hranks : handshakeTargetRanks s.init.tpRank s.init.tpSize
      request.metadata.remoteTpSize = .ok ranks) : ranks.length = T.needSend w := by
    have hreceived : s.received[tid]? = some (task.identity, .sessionOpen request) := by
      rw [h.conduct.received_get htask, hcoro]
      rfl
    obtain ⟨hsize, -⟩ := h.opens hreceived
    rw [h.init, hsize] at hranks
    unfold Topology.needSend
    rw [show handshakeTargetRanks w.1 T.producerTp T.consumerTp = .ok ranks from hranks]
  cases hruns with
  | openEmpty =>
      exact releases_of_parks htask h.release (.refl _) (fun _ hmem => hmem) rfl
        fun _ _ _ _ heq => by cases heq
  | @openWaits _ _ _ transferId _ _ b ref isNew deadline hreq henter hready =>
      obtain ⟨hrelease, hages, hclaims, m, hm, rfl⟩ :=
        h.enters henter htask hcoro (transferId?_of_reqBlocks hreq)
      refine ⟨hrelease, hages, fun _ hmem => Or.inl (hclaims ▸ hmem),
        fun request' ref' isNew' deadline' heq => ?_⟩
      obtain ⟨rfl, hpos⟩ := Coroutine.sessionOpen.inj (setCoro_inj htask heq)
      obtain ⟨rfl, -, -⟩ := OpenAt.waitReady.inj hpos
      refine ⟨m, hm, transferId?_of_reqBlocks hreq, ?_⟩
      cases hno : m.ready with
      | false => rfl
      | true => exact absurd (isReady_iff.mpr ⟨m, hm, hno⟩) (by rw [hready]; simp)
  | @openRefused _ _ _ transferId _ _ b ref isNew _ message hreq henter =>
      obtain ⟨hrelease, hages, hclaims, -⟩ :=
        h.enters henter htask hcoro (transferId?_of_reqBlocks hreq)
      refine releases_of_parks htask hrelease.dropPlaceholder (hages.trans .openFailed)
        (fun claim hmem => ?_) rfl fun _ _ _ _ heq => by cases heq
      rw [← hclaims, ← (Book.openFailed_fields b tid transferId ref isNew false).1]
      exact hmem
  | @openClosed _ _ _ transferId _ _ b ref isNew _ ranks hreq henter hready hranks =>
      obtain ⟨rfl, -⟩ := henter.of_ready hready
      obtain ⟨hrelease, hledger, hopen, hclaimed⟩ := hclaims hreq henter hready
      rw [htargets hranks]
      refine ⟨hrelease.openFailed hledger.send fun _ => hopen,
        Book.Ages.claim.trans .openFailed, fun claim hmem => hclaimed claim ?_,
        fun _ _ _ _ heq => ?_⟩
      · rw [← (Book.openFailed_fields _ tid transferId ref isNew true).1]
        exact hmem
      · cases setCoro_inj htask heq
  | @openSubmits _ _ _ transferId _ _ b ref isNew _ ranks job hreq henter hready hranks =>
      obtain ⟨rfl, -⟩ := henter.of_ready hready
      obtain ⟨hrelease, -, -, hclaimed⟩ := hclaims hreq henter hready
      rw [htargets hranks]
      refine ⟨hrelease, Book.Ages.claim, hclaimed, fun _ _ _ _ heq => ?_⟩
      cases setCoro_inj htask heq
  | @openErrs _ _ transferId _ _ ref _ isNew message hreq =>
      refine releases_of_parks htask (h.release.openFailed h.conduct.ledger.send
        fun _ => ⟨hwf.1, hwf.2.1⟩) .openFailed (fun claim hmem => ?_) rfl
        fun _ _ _ _ heq => by cases heq
      rw [← (Book.openFailed_fields s.book tid transferId ref isNew true).1]
      exact hmem
  | @openFiles _ dReqId transferId blocks more ref job isNew result hreq hdone hok =>
      have hledger := @ConductInv.addSession _ _ _ h.conduct htask _ _ _ _ hcoro dReqId transferId result
      have hadd : (s.book.addSession (newSession tid task.identity request dReqId transferId ref
          result)).ReleaseInv (T.needSend w) s.now := h.release.of_eq rfl rfl rfl rfl rfl rfl
      rw [openAnswered, hok]
      refine releases_of_parks (c := .sessionOpen request .done) htask ?_ ?_
        (fun claim hmem => ?_) rfl fun _ _ _ _ heq => by cases heq
      · simp only [mapBook, reply, setCoro]
        split
        · exact hadd.completeProducerSession hledger
        · exact hadd
      · simp only [mapBook, reply, setCoro]
        split
        · exact .trans (c := s.book.addSession _) (.of_eq rfl) .completeProducerSession
        · exact .of_eq rfl
      · simp only [mapBook, reply, setCoro] at hmem
        split at hmem
        · have hacc := @Book.Accounts.completeProducerSession s.now (s.book.addSession
            (newSession tid task.identity request dReqId transferId ref result))
            s.book.sessions.length none
          rcases hacc.claimed claim hmem with hold | hown
          · exact hold
          · cases hown
        · exact hmem

/-- A run of another handler claims nothing. -/
theorem Runs.no_claim {coro : Coroutine} (hruns : Runs s tid identity late coro s')
    (hnone : claimant tid coro = none) : s'.book.claims ⊆ s.book.claims := by
  intro claim hmem
  obtain ⟨coro', b, -, -, hcredits, hacc⟩ := hruns.accounts
  rcases hacc.claimed claim hmem with hold | hown
  · exact hcredits.frame.1 ▸ hold
  · rw [hnone] at hown
    cases hown

theorem leaveChunk_release {n : Nat} {t : Producer} {request : CompressionChunkPull} {sref : Nat}
    {counted : Bool} {response : Option CompressionChunkReady} (hledger : t.book.Ledger)
    (h : t.book.ReleaseInv n s.now) (hages : Book.Ages s.now s.book t.book) :
    (t.leaveChunk tid identity request sref counted response).book.ReleaseInv n s.now ∧
      Book.Ages s.now s.book (t.leaveChunk tid identity request sref counted response).book := by
  rw [leaveChunk_book]
  cases counted with
  | false => exact ⟨h.discardIfIdle hledger, hages.trans .discardIfIdle⟩
  | true =>
      have hcount : (t.book.addInflight sref (-1)).ReleaseInv n s.now :=
        h.of_eq rfl rfl rfl rfl rfl rfl
      exact ⟨hcount.discardIfIdle (hledger.addInflight _),
        hages.trans (.trans (c := t.book.addInflight sref (-1)) (.of_eq rfl) .discardIfIdle)⟩

theorem ServedInv.releases_pull (h : ServedInv T addr base owner w s)
    {request : CompressionChunkPull} {pos : PullAt} (htask : s.tasks[tid]? = some task)
    (hcoro : task.coro = .chunkPull request pos)
    (hruns : Runs s tid task.identity late (.chunkPull request pos) s') :
    Releases (T.needSend w) s tid (.chunkPull request pos) s' := by
  have hclaims : s'.book.claims ⊆ s.book.claims :=
    hruns.no_claim rfl
  have hledger := h.conduct.ledger
  suffices ∃ pos', s'.tasks = (s.setCoro tid (.chunkPull request pos')).tasks ∧
      s'.book.ReleaseInv (T.needSend w) s.now ∧ Book.Ages s.now s.book s'.book by
    obtain ⟨pos', htasks, hrelease, hages⟩ := this
    exact releases_of_parks htask hrelease hages hclaims htasks fun _ _ _ _ heq => by cases heq
  have hset {b : Book} (hb : b.states = s.book.states ∧ b.sendMeta = s.book.sendMeta ∧
      b.claims = s.book.claims ∧ b.finished = s.book.finished ∧
      b.announcements = s.book.announcements ∧ b.finalEvents = s.book.finalEvents) :
      b.ReleaseInv (T.needSend w) s.now ∧ Book.Ages s.now s.book b := by
    obtain ⟨h₁, h₂, h₃, h₄, h₅, h₆⟩ := hb
    exact ⟨h.release.of_eq h₁ h₂ h₃ h₄ h₅ h₆, .of_eq h₁⟩
  have hslots {b : Book} {sref slot : Nat} {rest : List Nat} {session : ProducerSession}
      (hslot : GetsSlot s task.identity request pos b sref slot rest session) :
      b.states = s.book.states ∧ b.sendMeta = s.book.sendMeta ∧ b.claims = s.book.claims ∧
        b.finished = s.book.finished ∧ b.announcements = s.book.announcements ∧
        b.finalEvents = s.book.finalEvents := by
    cases hslot <;> exact ⟨rfl, rfl, rfl, rfl, rfl, rfl⟩
  cases hruns with
  | pullUnknown => exact ⟨.done, rfl, h.release, .refl _⟩
  | @pullRefused _ sref _ message =>
      obtain ⟨hrelease, hages⟩ := hset (b := s.book.setSessionState sref .failed)
        ⟨rfl, rfl, rfl, rfl, rfl, rfl⟩
      exact ⟨.done, leaveChunk_tasks, leaveChunk_release (hledger.setDead rfl) hrelease hages⟩
  | @pullWaits _ sref =>
      exact ⟨.waitSlot sref, rfl, hset ⟨rfl, rfl, rfl, rfl, rfl, rfl⟩⟩
  | pullAborted hslot =>
      have hb := hslots hslot
      exact ⟨_, rfl, hset hb⟩
  | pullSubmits hslot => exact ⟨_, rfl, hset (hslots hslot)⟩
  | pullErrs => exact ⟨_, rfl, hset ⟨rfl, rfl, rfl, rfl, rfl, rfl⟩⟩
  | @pullEncoded _ sref slot job result hdone hok =>
      rw [encodeAnswered, hok]
      obtain ⟨hrelease, hages⟩ := hset (b := s.book.countChunk sref request.chunkId)
        ⟨rfl, rfl, rfl, rfl, rfl, rfl⟩
      exact ⟨.done, leaveChunk_tasks, leaveChunk_release (hledger.chunkEncoded _)
        (hrelease.completeIfDone (hledger.countChunk _)) (hages.trans .completeIfDone)⟩
  | pullDrained =>
      exact ⟨.done, leaveChunk_tasks, leaveChunk_release hledger h.release (.refl _)⟩

theorem ServedInv.releases_abort (h : ServedInv T addr base owner w s) {request : CompressionAbort}
    {pos : AbortAt} (htask : s.tasks[tid]? = some task) (hcoro : task.coro = .abort request pos)
    (hruns : Runs s tid task.identity late (.abort request pos) s') :
    Releases (T.needSend w) s tid (.abort request pos) s' := by
  have hclaims : s'.book.claims ⊆ s.book.claims :=
    hruns.no_claim rfl
  have hledger := h.conduct.ledger
  cases hruns with
  | abortStarts =>
      have hclose : (s.book.close s.now request.operationKey).ReleaseInv (T.needSend w) s.now :=
        h.release.of_eq rfl rfl rfl rfl rfl rfl
      refine releases_of_parks htask ?_ ?_ hclaims rfl fun _ _ _ _ heq => by cases heq
      · simp only [abortProducer, mapBook, setCoro]
        split
        · exact hclose.cancelSession (hledger.of_eq rfl rfl rfl rfl rfl)
        · exact hclose
      · simp only [abortProducer, mapBook, setCoro]
        split
        · exact .trans (c := s.book.close s.now request.operationKey) (.of_eq rfl) .cancelSession
        · exact .of_eq rfl
  | abortAcks =>
      exact releases_of_parks htask (h.release.cancelAll hledger _) (.cancelAll _) hclaims rfl
        fun _ _ _ _ heq => by cases heq
  | abortTimesOut =>
      exact releases_of_parks htask (h.release.cancelAll hledger _) (.cancelAll _) hclaims rfl
        fun _ _ _ _ heq => by cases heq

/-- **What a run does to the accounts of the transfers.** -/
theorem ServedInv.releases (h : ServedInv T addr base owner w s)
    (haddr : Function.Injective addr) (hone : T.OnePpRank) (htask : s.tasks[tid]? = some task)
    (hcancel : task.cancelRequested = false)
    (hruns : Runs s tid task.identity late task.coro s') :
    Releases (T.needSend w) s tid task.coro s' := by
  cases hcoro : task.coro with
  | sessionOpen request pos =>
      exact h.releases_open haddr hone htask hcancel hcoro (hcoro ▸ hruns)
  | chunkPull request pos => exact h.releases_pull htask hcoro (hcoro ▸ hruns)
  | abort request pos => exact h.releases_abort htask hcoro (hcoro ▸ hruns)

/-! ### Every step -/

/-- No request arrives. -/
theorem ServedInv.advance (h : ServedInv T addr base owner w s) (hinit : s'.init = s.init)
    (hconduct : ConductInv s') (hinside : InsideInv s')
    (hrelease : s'.book.ReleaseInv (T.needSend w) s'.now) (hages : Book.Ages s.now s.book s'.book)
    (hreceived : s'.received = s.received)
    (hclaimed : ∀ claim ∈ s'.book.claims, claim ∈ s.book.claims ∨ ∃ identity request m,
      s.received[claim.1]? = some (identity, .sessionOpen request) ∧
        s.book.states[claim.2]? = some m ∧ request.transferId? = some m.transferId)
    (hwaits : ∀ {tid : Nat} {task : Task} {request : CompressionSessionOpen} {ref : Nat}
      {isNew : Bool} {deadline : Nat}, s'.tasks[tid]? = some task →
      task.coro = .sessionOpen request (.waitReady ref isNew deadline) →
      Waits s' task ref request) : ServedInv T addr base owner w s' := by
  refine ⟨hinit.trans h.init, hconduct, hinside, hrelease, fun hi => h.opens (hreceived ▸ hi),
    fun hi hj => h.paired (hreceived ▸ hi) (hreceived ▸ hj), hwaits, fun {tid ref} hclaim => ?_⟩
  obtain ⟨identity, request, m, hentry, hm, htransfer⟩ : ∃ identity request m,
      s.received[tid]? = some (identity, .sessionOpen request) ∧ s.book.states[ref]? = some m ∧
        request.transferId? = some m.transferId := by
    rcases hclaimed _ hclaim with hold | hnew
    · exact h.claimers hold
    · exact hnew
  obtain ⟨m', hm', htransfer', -⟩ := hages.states hm
  exact ⟨identity, request, m', hreceived ▸ hentry, hm', htransfer.trans (by rw [htransfer'])⟩

/-- A waiter later on, while the clock stands. -/
theorem Waits.ages {ref : Nat} {request : CompressionSessionOpen} {task' : Task}
    (h : Waits s task ref request) (hages : Book.Ages s.now s.book s'.book) (hnow : s'.now = s.now)
    (hcancel : task'.cancelRequested = false → task.cancelRequested = false) :
    Waits s' task' ref request := by
  obtain ⟨m, hm, htransfer, hdeadline⟩ := h
  obtain ⟨m', hm', htransfer', hready'⟩ := hages.states hm
  refine ⟨m', hm', htransfer.trans (by rw [htransfer']), fun hc hr => ?_⟩
  rw [hnow]
  rcases hready' hr with hset | ⟨hready, hsame⟩
  · exact hset
  · rw [hsame]
    exact hdeadline (hcancel hc) hready

/-- A run of a handler. -/
theorem ServedInv.runs (h : ServedInv T addr base owner w s)
    (haddr : Function.Injective addr) (hone : T.OnePpRank) (htask : s.tasks[tid]? = some task)
    (hcancel : task.cancelRequested = false)
    (hruns : Runs s tid task.identity late task.coro s') : ServedInv T addr base owner w s' := by
  have hreleases := h.releases haddr hone htask hcancel hruns
  have hframe := hruns.frame
  obtain ⟨coro', hturns⟩ := hruns.turns h.conduct htask
  refine h.advance hframe.init (h.conduct.turns htask hturns) (h.inside.runs h.conduct htask hruns)
    (by rw [hframe.now]; exact hreleases.release) hreleases.ages hframe.received
    (fun claim hmem => ?_) fun {j u request ref isNew deadline} hu hcoro => ?_
  · rcases hreleases.claimed claim hmem with hold | ⟨rfl, request, m, hrequest, hm, htransfer⟩
    · exact Or.inl hold
    · refine Or.inr ⟨task.identity, request, m, ?_, hm, htransfer⟩
      rw [h.conduct.received_get htask, hrequest]
  · have hu' := hu
    rw [hturns.tasks] at hu'
    rcases setCoro_tasks_some hu' with ⟨rfl, u₀, hu₀, rfl⟩ | ⟨-, hold⟩
    · obtain rfl : coro' = _ := hcoro
      obtain ⟨m, hm, htransfer, hno⟩ := hreleases.waits request ref isNew deadline hturns.tasks
      exact ⟨m, hm, htransfer, fun _ hready => by rw [hno] at hready; cases hready⟩
    · exact (h.waits hold hcoro).ages hreleases.ages hframe.now id

theorem runCancelled_parks (task : Task) :
    ∃ coro', (s.runCancelled tid task).tasks = ((s.clearCancel tid).setCoro tid coro').tasks ∧
      ∀ request ref isNew deadline,
        coro' ≠ .sessionOpen request (.waitReady ref isNew deadline) := by
  unfold runCancelled
  dsimp only
  split
  · exact ⟨_, rfl, fun _ _ _ _ heq => by cases heq⟩
  · exact ⟨_, rfl, fun _ _ _ _ heq => by cases heq⟩
  · split
    · exact ⟨_, leaveChunk_tasks, fun _ _ _ _ heq => by cases heq⟩
    all_goals exact ⟨_, rfl, fun _ _ _ _ heq => by cases heq⟩

/-- A cancelled handler. -/
theorem ServedInv.runCancelled (h : ServedInv T addr base owner w s)
    (htask : s.tasks[tid]? = some task) (hcancel : task.cancelRequested = true) :
    ServedInv T addr base owner w (s.runCancelled tid task) := by
  have hframe := @runCancelled_frame s tid task
  have hacc := @runCancelled_accounts s tid task
  obtain ⟨hrelease, hages⟩ : (s.runCancelled tid task).book.ReleaseInv (T.needSend w) s.now ∧
      Book.Ages s.now s.book (s.runCancelled tid task).book := by
    unfold Producer.runCancelled
    split
    · exact ⟨h.release, .refl _⟩
    · exact ⟨h.release, .refl _⟩
    · split
      · exact leaveChunk_release (s := s) h.conduct.ledger h.release (.refl _)
      all_goals exact ⟨h.release, .refl _⟩
  refine h.advance hframe.init (h.conduct.runCancelled htask hcancel)
    (h.inside.runCancelled h.conduct htask) (by rw [hframe.now]; exact hrelease) hages
    hframe.received (fun claim hmem => Or.inl ?_) fun {j u request ref isNew deadline} hu hcoro => ?_
  · rcases hacc.claimed claim hmem with hold | hown
    · exact hold
    · cases hown
  · obtain ⟨coro', htasks, hparks⟩ := @runCancelled_parks s tid task
    rw [htasks] at hu
    rcases setCoro_tasks_some hu with ⟨-, u₀, -, rfl⟩ | ⟨hj, hold⟩
    · exact absurd hcoro (hparks request ref isNew deadline)
    · rw [show (s.clearCancel tid).tasks[j]? = s.tasks[j]? from
        getElem?_modify_ne (Ne.symm hj) _] at hold
      exact (h.waits hold hcoro).ages hages hframe.now id

/-- A request arrives. -/
theorem ServedInv.dispatch (h : ServedInv T addr base owner w s) {request : CompressionRequest}
    (hconduct : s.Conduct (.recv identity request))
    (hpaired : Paired T addr base owner w s (.recv identity request)) :
    ServedInv T addr base owner w (s.dispatchProducer identity request) := by
  have hconduct' := h.conduct.dispatch hconduct
  have hinside' := @InsideInv.dispatch s identity h.inside request
  unfold dispatchProducer at hconduct' hinside' ⊢
  split
  · exact h
  · rename_i hopen
    rw [if_neg hopen] at hconduct' hinside'
    have hentry {i : Nat} {identity' : Identity} {r : CompressionSessionOpen}
        (hi : (s.received ++ [(identity, request)])[i]? = some (identity', .sessionOpen r)) :
        s.received[i]? = some (identity', .sessionOpen r) ∨
          (i = s.received.length ∧ identity' = identity ∧ request = .sessionOpen r) := by
      rcases getElem?_append_some hi with hold | ⟨rfl, heq⟩
      · exact Or.inl hold
      · obtain ⟨rfl, rfl⟩ := Prod.mk.inj heq
        exact Or.inr ⟨rfl, rfl, rfl⟩
    -- a new open is the first of its worker for its transfer
    have hfirst {i : Nat} {identity' : Identity} {r r' : CompressionSessionOpen}
        (hi : s.received[i]? = some (identity', .sessionOpen r)) (hr : request = .sessionOpen r')
        (htransfer : r.transferId? = r'.transferId?) : owner identity' ≠ owner identity := by
      subst hr
      exact fun howner => hpaired.2.2 _ (List.mem_of_getElem? hi) r rfl howner htransfer
    refine ⟨h.init, hconduct', hinside', h.release.of_eq rfl rfl rfl rfl rfl rfl, fun hi => ?_,
      fun hi hj htransfer howner => ?_, fun {j u r ref isNew deadline} hu hcoro => ?_,
      fun hclaim => ?_⟩
    · rcases hentry hi with hold | ⟨-, rfl, rfl⟩
      · exact h.opens hold
      · exact ⟨hpaired.1, hpaired.2.1⟩
    · rcases hentry hi with hi' | ⟨rfl, rfl, hr⟩
      · rcases hentry hj with hj' | ⟨-, rfl, hr'⟩
        · exact h.paired hi' hj' htransfer howner
        · exact absurd howner (hfirst hi' hr' htransfer)
      · rcases hentry hj with hj' | ⟨rfl, -, -⟩
        · exact absurd howner.symm (hfirst hj' hr htransfer.symm)
        · rfl
    · rcases getElem?_append_some hu with hold | ⟨-, rfl⟩
      · exact h.waits hold hcoro
      · cases request <;> cases hcoro
    · obtain ⟨identity', r, m, hi, hm, htransfer⟩ := h.claimers hclaim
      exact ⟨identity', r, m, getElem?_append_of_some hi _, hm, htransfer⟩

theorem start_servedInv (T : Topology) (addr : Worker → String) (base : InitMessage)
    (owner : Identity → Worker) (w : Worker) :
    ServedInv T addr base owner w (start (T.producerInit base w)) where
  init := rfl
  conduct := start_conductInv _
  inside := start_insideInv _
  release :=
    { reqIds := List.nodup_nil, transferIds := List.nodup_nil, named := fun _ h => by cases h
      announced := fun h => by simp [start] at h
      single := fun h => by simp [start] at h
      expires := fun h => by simp [start] at h
      needs := fun h => by simp [start] at h
      filed := fun h => by cases h
      claimed := fun h => by cases h
      few := fun _ => Nat.zero_le _
      event := fun _ h => by cases h
      once := List.nodup_nil }
  opens h := by simp [start] at h
  paired h := by simp [start] at h
  waits h := by simp [start] at h
  claimers h := by cases h

/-- **One step keeps the account.** -/
theorem ServedInv.step (h : ServedInv T addr base owner w s) (haddr : Function.Injective addr)
    (hone : T.OnePpRank) (hconduct : s.Conduct a) (hpaired : Paired T addr base owner w s a)
    (hstep : s.step a = some s') : ServedInv T addr base owner w s' := by
  have hinit := step_init hstep
  have hconduct' := h.conduct.step hconduct hstep
  have hinside' := h.inside.step h.conduct hstep
  cases a with
  | recv identity request =>
      simp only [Producer.step] at hstep
      split at hstep
      · obtain rfl := Option.some.inj hstep
        exact h.dispatch hconduct hpaired
      · cases hstep
  | metadataUpdate message =>
      obtain rfl := Option.some.inj hstep
      have hages : Book.Ages s.now s.book (s.book.applyProducerMetadata s.now message) :=
        .applyProducerMetadata message
      refine h.advance hinit hconduct' hinside' (h.release.applyProducerMetadata hpaired) hages rfl
        (fun claim hmem => Or.inl ?_) fun hu hcoro => (h.waits hu hcoro).ages hages rfl id
      have hacc : Book.Accounts none s.book (s.book.applyProducerMetadata s.now message) :=
        .applyProducerMetadata message
      rcases hacc.claimed claim hmem with hold | hown
      · exact hold
      · cases hown
  | jobDone id result =>
      simp only [Producer.step] at hstep
      split at hstep
      · obtain rfl := Option.some.inj hstep
        exact h.advance rfl hconduct' hinside' h.release (.refl _) rfl (fun _ => Or.inl) h.waits
      · cases hstep
  | run tid =>
      obtain ⟨task, htask, ⟨hcancel, rfl⟩ | ⟨hcancel, hruns⟩⟩ := run_cases hstep
      · exact h.runCancelled htask hcancel
      · exact h.runs haddr hone htask hcancel hruns
  | timeout tid =>
      obtain ⟨task, htask, hcancel, hruns⟩ := timeout_cases hstep
      exact h.runs haddr hone htask hcancel hruns
  | sweep =>
      simp only [Producer.step] at hstep
      split at hstep
      · cases hstep
      · obtain rfl := Option.some.inj hstep
        have hages : Book.Ages s.now s.book (s.book.sweepSends s.now) := .sweepSends
        refine h.advance rfl hconduct' hinside' (h.release.sweepSends h.conduct.ledger) hages rfl
          (fun claim hmem => Or.inl ?_) fun hu hcoro => (h.waits hu hcoro).ages hages rfl id
        have hacc : Book.Accounts none s.book (s.book.sweepSends s.now) := .sweepSends
        rcases hacc.claimed claim hmem with hold | hown
        · exact hold
        · cases hown
  | clock =>
      simp only [Producer.step] at hstep
      split at hstep
      · cases hstep
      · rename_i hblocked
        obtain rfl := Option.some.inj hstep
        refine h.advance rfl hconduct' hinside' (h.release.mono (Nat.le_succ _)) (.refl _) rfl
          (fun _ => Or.inl) fun {j u request ref isNew deadline} hu hcoro => ?_
        -- the clock stands while a waiter is ready to go
        obtain ⟨m, hm, htransfer, -⟩ := h.waits hu hcoro
        refine ⟨m, hm, htransfer, fun hcancel hready => absurd ?_ hblocked⟩
        refine List.any_eq_true.mpr ⟨u, List.mem_of_getElem? hu, ?_⟩
        rw [hcoro, hcancel]
        exact isReady_iff.mpr ⟨m, hm, hready⟩
  | stop =>
      obtain rfl := Option.some.inj hstep
      exact h.advance rfl hconduct' hinside' h.release (.refl _) rfl (fun _ => Or.inl) h.waits
  | shutdown =>
      simp only [Producer.step] at hstep
      split at hstep
      · obtain rfl := Option.some.inj hstep
        refine h.advance rfl hconduct' hinside' h.release (.refl _) rfl (fun _ => Or.inl)
          fun {j u request ref isNew deadline} hu hcoro => ?_
        simp only [Producer.shutdown, List.getElem?_map] at hu
        obtain ⟨u₀, hu₀, rfl⟩ := Option.map_eq_some_iff.mp hu
        split at hcoro
        · rename_i hdone
          rw [hcoro] at hdone
          cases hdone
        · rename_i hrun
          rw [if_neg hrun]
          exact (h.waits hu₀ hcoro).ages (.refl _) rfl fun hcancel => by cases hcancel
      · cases hstep

/-! ### What a final event says -/

/-- **The blocks of a request are released once, after its sessions.** -/
structure ReleasesLast (T : Topology) (addr : Worker → String) (base : InitMessage)
    (owner : Identity → Worker) (w : Worker) (s : Producer) : Prop where
  once : (s.book.finalEvents.map (·.reqId)).Nodup
  /-- No session of the transfer is active, and no pull handler is inside one. -/
  idle : ∀ e ∈ s.book.finalEvents, ∀ announcement ∈ s.book.announcements,
    announcement.pReqId = e.reqId → ∀ (i : Nat) (x : ProducerSession),
    s.book.sessions[i]? = some x → x.transferId = announcement.transferId →
    x.state ≠ .active ∧ ∀ task ∈ s.tasks, task.coro.inside ≠ some i
  /-- If the deadline of the announcement has not passed, each paired worker has opened a
  session and finished it. -/
  last : ∀ e ∈ s.book.finalEvents, e.kind = .sending → ∀ announcement ∈ s.book.announcements,
    announcement.pReqId = e.reqId → ∀ v, T.Opens addr base v w.1 w.2 →
    ∃ tid identity request, s.received[tid]? = some (identity, .sessionOpen request) ∧
      owner identity = v ∧ request.transferId? = some announcement.transferId ∧
      tid ∈ s.book.finished

/-- No chunk of a transfer is being encoded after its final event. -/
def NoChunkJob (s : Producer) : Prop :=
  ∀ e ∈ s.book.finalEvents, ∀ announcement ∈ s.book.announcements, announcement.pReqId = e.reqId →
    ∀ (id : Nat) (job : EncodeChunkJob), s.engineJobs id = some (.encodeChunk job) →
      job.transferId ≠ announcement.transferId

/-- The state behind a final event, by the announcement of its request. -/
theorem ServedInv.released (h : ServedInv T addr base owner w s) {e : FinalEvent}
    (he : e ∈ s.book.finalEvents) {announcement : ProducerAnnouncement}
    (hmem : announcement ∈ s.book.announcements) (hreq : announcement.pReqId = e.reqId) :
    ∃ ref m, s.book.ReleasedAt (T.needSend w) s.now e.kind ref m ∧
      m.transferId = announcement.transferId := by
  obtain ⟨ref, m, hreleased, hreqm⟩ := h.release.event e he
  obtain ⟨a', ha', hreq', htransfer⟩ := h.release.announced hreleased.state hreleased.ready
  obtain rfl : announcement = a' := List.inj_on_of_nodup_map h.release.reqIds hmem ha'
    (hreq.trans (hreqm.symm.trans hreq'.symm))
  exact ⟨ref, m, hreleased, htransfer.symm⟩

/-- The claim of a session is on the announced state of its transfer. -/
theorem ServedInv.session_claim (h : ServedInv T addr base owner w s) {i : Nat}
    {x : ProducerSession} (hx : s.book.sessions[i]? = some x) {ref : Nat} {m : SendState}
    (hm : s.book.states[ref]? = some m) (hready : m.ready = true)
    (htransfer : x.transferId = m.transferId) : x.sendState = ref := by
  have hclaim := (h.conduct.ledger.sess.session hx).claimed
  obtain ⟨identity, request, m', hentry, hm', htransfer'⟩ := h.claimers hclaim
  obtain ⟨m'', hm'', hready', -⟩ := h.release.claimed hclaim
  obtain rfl := Option.some.inj (hm'.symm.trans hm'')
  obtain ⟨task, request', htask, hcoro, -, hkey⟩ := (h.conduct.session hx).opener
  have hentry' := h.conduct.received_get htask
  rw [hcoro, hentry] at hentry'
  obtain ⟨-, hrequest⟩ := Prod.mk.inj (Option.some.inj hentry')
  obtain rfl : request = request' := CompressionRequest.sessionOpen.inj hrequest
  have hxt : request.transferId? = some x.transferId := by
    rw [CompressionSessionOpen.transferId?, hkey]
    rfl
  refine h.release.single hm' hm hready' hready ?_
  rw [← htransfer]
  exact Option.some.inj (htransfer'.symm.trans hxt)

theorem ServedInv.releasesLast (h : ServedInv T addr base owner w s)
    (haddr : Function.Injective addr) (hone : T.OnePpRank) :
    ReleasesLast T addr base owner w s where
  once := h.release.once
  idle e he announcement hmem hreq i x hx htransfer := by
    obtain ⟨ref, m, hreleased, hmt⟩ := h.released he hmem hreq
    obtain rfl := h.session_claim hx hreleased.state hreleased.ready (htransfer.trans hmt.symm)
    have hwf := h.conduct.ledger.sess.session hx
    have hfinished : x.opener ∈ s.book.finished :=
      Book.mem_finished hreleased.finished hwf.claimed
    have hout : s.book.registered i = true → False := fun hreg => hwf.filed.mp hreg hfinished
    refine ⟨fun hactive => hout (hwf.active hactive), fun task htask hinside => ?_⟩
    obtain ⟨tid, htid⟩ := List.getElem?_of_mem htask
    exact hout (h.inside.registered h.conduct htid hinside)
  last e he hkind announcement hmem hreq v hopens := by
    obtain ⟨ref, m, hreleased, hmt⟩ := h.released he hmem hreq
    have hall : s.book.claimsOn ref = T.needSend w := by
      rcases hreleased.last with hall | ⟨hexpired, -⟩
      · exact hall
      · rw [hkind] at hexpired
        cases hexpired
    have hclaimed : ClaimedBy s owner ref m.transferId v := by
      by_contra hfree
      have hlt := h.claimsOn_lt haddr hone hreleased.state hopens hfree
      omega
    obtain ⟨tid, identity, request, hclaim, hentry, htransfer, howner⟩ := hclaimed
    exact ⟨tid, identity, request, hentry, howner, hmt ▸ htransfer,
      Book.mem_finished hreleased.finished hclaim⟩

theorem ServedInv.noChunkJob (h : ServedInv T addr base owner w s)
    (haddr : Function.Injective addr) (hone : T.OnePpRank) (habort : AbortInv s)
    (hopen : s.routerOpen = true) : NoChunkJob s := by
  intro e he announcement hmem hreq id job hjob htransfer
  obtain ⟨tid, task, request, sref, slot, htask, hcoro, hkey⟩ := habort.covered hopen hjob
  have hinside : task.coro.inside = some sref := by rw [hcoro]; rfl
  obtain ⟨request', hrequest, -, x, hx, -, hxkey, -⟩ := h.conduct.inside_serves htask hinside
  rw [hcoro] at hrequest
  obtain rfl : request = request' := CompressionRequest.chunkPull.inj hrequest
  have hxt : x.transferId = job.transferId := congrArg Prod.fst (hxkey.trans hkey)
  exact ((h.releasesLast haddr hone).idle e he announcement hmem hreq sref x hx
    (hxt.trans htransfer)).2 task (List.mem_of_getElem? htask) hinside

theorem reachable_servedInv (haddr : Function.Injective addr) (hone : T.OnePpRank)
    (h : (producerMachine (T.producerInit base w)).ReachWith
      (fun s a => s.Conduct a ∧ Paired T addr base owner w s a) s) :
    ServedInv T addr base owner w s := by
  refine Machine.invariant ?_ ?_ h
  · rintro s rfl
    exact start_servedInv T addr base owner w
  · intro s a s' _ hs hok hstep
    exact hs.step haddr hone hok.1 hok.2 hstep

/-- A peer that behaves opens a session for one request. -/
theorem Conduct.singleOpen (h : s.Conduct a) : SingleOpen a := by
  rintro identity request rfl
  exact h.1.le

end Producer

open Producer in
/-- **The producer's blocks are released after the last session, once**, if each consumer TP
rank that pairs with a producer worker has one PP rank that does: in every run in which the
consumer workers open the sessions of their handshakes, no request has two final events, and
when it has one, no session of its transfer is active or has a pull handler inside, and every
paired worker has finished its session unless the request has expired. As long as the engine
answers in time, no chunk of the transfer is with the engine either. -/
theorem producer_releases_last {T : Topology} {addr : Worker → String} {base : InitMessage}
    {owner : Identity → Worker} {w : Worker} (haddr : Function.Injective addr)
    (hone : T.OnePpRank) :
    (∀ s, (producerMachine (T.producerInit base w)).ReachWith
        (fun s a => s.Conduct a ∧ Paired T addr base owner w s a) s →
      ReleasesLast T addr base owner w s) ∧
    ∀ s, (producerMachine (T.producerInit base w)).ReachWith
        (fun s a => (s.Conduct a ∧ Paired T addr base owner w s a) ∧ s.JobsInTime a) s →
      s.routerOpen = true → NoChunkJob s := by
  refine ⟨fun s h => (reachable_servedInv haddr hone h).releasesLast haddr hone,
    fun s h hopen => ?_⟩
  have hserved := reachable_servedInv haddr hone (h.mono fun _ _ hok => hok.1)
  have habort : s.AbortInv :=
    reachable_abortInv (h.mono fun _ _ hok => ⟨hok.2, Conduct.singleOpen hok.1.1⟩)
  exact hserved.noChunkJob haddr hone habort hopen

/-! ### Runs -/

namespace Producer

variable {T : Topology} {addr : Worker → String} {base : InitMessage} {owner : Identity → Worker}
  {w : Worker} {s : Producer} {a : Action}

/-- `Conduct`, as a check. -/
def conducts (s : Producer) : Action → Bool
  | .recv identity (.sessionOpen request) =>
      decide (request.metadata.reqBlocks.length = 1) && s.received.all fun entry =>
        entry.1 != identity && entry.2.operationKey? != request.operationKey?
  | .recv identity (.chunkPull request) =>
      (s.replies.any fun
        | (peer, .sessionOpened opened) => peer == identity && request.chunkId < opened.totalChunks
        | _ => false) &&
      (s.received.any fun
        | (peer, .sessionOpen opened) =>
            peer == identity && opened.operationKey? == some request.operationKey
        | _ => false) &&
      s.received.all fun
        | (peer, .chunkPull other) => peer != identity || other.chunkId != request.chunkId
        | _ => true
  | _ => true

theorem conduct_of_conducts (h : s.conducts a = true) : s.Conduct a := by
  cases a with
  | recv identity request =>
      cases request with
      | sessionOpen request =>
          obtain ⟨hsingle, hall⟩ := Bool.and_eq_true_iff.mp h
          have hentry : ∀ entry ∈ s.received, entry.1 ≠ identity ∧
              entry.2.operationKey? ≠ request.operationKey? := by
            intro entry hmem
            simpa using List.all_eq_true.mp hall entry hmem
          exact ⟨of_decide_eq_true hsingle, fun entry hmem => (hentry entry hmem).1,
            fun entry hmem => (hentry entry hmem).2⟩
      | chunkPull request =>
          obtain ⟨h, hall⟩ := Bool.and_eq_true_iff.mp h
          obtain ⟨hreply, hopen⟩ := Bool.and_eq_true_iff.mp h
          refine ⟨?_, ?_, fun other hmem => ?_⟩
          · obtain ⟨⟨peer, response⟩, hmem, hmatch⟩ := List.any_eq_true.mp hreply
            cases response with
            | sessionOpened opened =>
                obtain ⟨rfl, hlt⟩ : peer = identity ∧ request.chunkId < opened.totalChunks := by
                  simpa using hmatch
                exact ⟨opened, hmem, hlt⟩
            | chunkReady => cases hmatch
            | abortAck => cases hmatch
          · obtain ⟨⟨peer, received⟩, hmem, hmatch⟩ := List.any_eq_true.mp hopen
            cases received with
            | sessionOpen opened =>
                obtain ⟨rfl, hkey⟩ : peer = identity ∧
                    opened.operationKey? = some request.operationKey := by simpa using hmatch
                exact ⟨opened, hmem, hkey⟩
            | chunkPull => cases hmatch
            | abort => cases hmatch
          · simpa using List.all_eq_true.mp hall _ hmem
      | abort => trivial
  | _ => trivial

instance (b : Book) (announced : List ProducerAnnouncement) : Decidable (b.Fresh announced) := by
  unfold Book.Fresh
  infer_instance

/-- `Paired`, as a check. -/
def pairs (T : Topology) (addr : Worker → String) (base : InitMessage) (owner : Identity → Worker)
    (w : Worker) (s : Producer) : Action → Bool
  | .recv identity (.sessionOpen request) =>
      decide (request.metadata.remoteTpSize = T.consumerTp) &&
      decide (T.Opens addr base (owner identity) w.1 w.2) &&
      s.received.all fun
        | (peer, .sessionOpen other) =>
            owner peer != owner identity || other.transferId? != request.transferId?
        | _ => true
  | .metadataUpdate message => decide (s.book.Fresh message.announced)
  | _ => true

theorem paired_of_pairs (h : pairs T addr base owner w s a = true) :
    Paired T addr base owner w s a := by
  cases a with
  | recv identity request =>
      cases request with
      | sessionOpen request =>
          obtain ⟨h, hall⟩ := Bool.and_eq_true_iff.mp h
          obtain ⟨hsize, hopens⟩ := Bool.and_eq_true_iff.mp h
          refine ⟨of_decide_eq_true hsize, of_decide_eq_true hopens,
            fun ⟨peer, received⟩ hmem other heq howner => ?_⟩
          obtain rfl : received = .sessionOpen other := heq
          simpa [howner] using List.all_eq_true.mp hall _ hmem
      | chunkPull => trivial
      | abort => trivial
  | metadataUpdate message =>
      have hfresh : s.book.Fresh message.announced := of_decide_eq_true h
      exact hfresh
  | _ => trivial

end Producer

/-- A topology of one producer worker. -/
def Topology.ofOne (consumerTp consumerPp : Nat) (htp : 0 < consumerTp) (hpp : 0 < consumerPp) :
    Topology :=
  { producerTp := 1, producerPp := 1, consumerTp, consumerPp
    producerTp_pos := Nat.one_pos, producerPp_pos := Nat.one_pos
    consumerTp_pos := htp, consumerPp_pos := hpp, divides := Or.inl (one_dvd _) }

/-- The address of a worker. -/
def workerAddr (w : Worker) : String :=
  String.ofList (List.replicate w.1 't' ++ List.replicate w.2 'p')

theorem workerAddr_injective : Function.Injective workerAddr := by
  intro v w heq
  have hlist := String.ofList_injective heq
  refine Prod.ext ?_ ?_
  · simpa [List.count_replicate] using congrArg (List.count 't') hlist
  · simpa [List.count_replicate] using congrArg (List.count 'p') hlist

namespace Producer

/-- The open of a peer for the transfer `t`. -/
def peerOpen (remoteTpSize remoteTpRank : Nat) (nonce : Nonce) : CompressionSessionOpen :=
  let request := CompressionSessionOpen.ofSolo nonce [("d", "t", [[1]])]
  { request with «metadata» := { request.metadata with remoteTpSize, remoteTpRank } }

/-- Two peers open a session of one chunk each. -/
def openBoth (first second : CompressionSessionOpen) : List Action :=
  [.metadataUpdate { announced := [{ pReqId := "p", transferId := "t", localBlockIds := [[1]] }] },
   .recv "a" (.sessionOpen first), .run 0, .jobDone 1 { totalChunks := 1 }, .run 0,
   .recv "b" (.sessionOpen second), .run 1, .jobDone 2 { totalChunks := 1 }, .run 1]

/-- A peer pulls its chunk: the handler `tid`, its encode job and its answer. -/
def pullChunk (identity : Identity) (nonce : Nonce) (tid job : Nat) : List Action :=
  [.recv identity (.chunkPull { transferId := "t", dReqId := "d", chunkId := 0, slotId := 0
                                payloadAddr := 0, auxAddr := 0, tailAddr := 0, nonce }),
   .run tid, .jobDone job {}, .run tid]

/-- The conditions on a step, as a check. -/
def wellPaired (T : Topology) (owner : Identity → Worker) (s : Producer) (a : Action) : Bool :=
  s.conducts a && pairs T workerAddr (.solo [⟨0, 0, 0⟩]) owner (0, 0) s a && prompt s a

theorem of_wellPaired {T : Topology} {owner : Identity → Worker} (s : Producer) (a : Action)
    (h : wellPaired T owner s a = true) :
    (s.Conduct a ∧ Paired T workerAddr (.solo [⟨0, 0, 0⟩]) owner (0, 0) s a) ∧ s.JobsInTime a := by
  obtain ⟨h, hprompt⟩ := Bool.and_eq_true_iff.mp h
  obtain ⟨hconduct, hpaired⟩ := Bool.and_eq_true_iff.mp h
  exact ⟨⟨conduct_of_conducts hconduct, paired_of_pairs hpaired⟩, jobsInTime_of_prompt s a hprompt⟩

/-- The sockets `a` and `b` of two workers. -/
def twoOwners (first second : Worker) (identity : Identity) : Worker :=
  if identity = "a" then first else second

end Producer

open Producer in
/-- Two consumer TP ranks and one PP rank: the blocks are released when both have finished. -/
theorem producer_releases_last_both :
    ∃ s : Producer, (producerMachine ((Topology.ofOne 2 1 (by decide) (by decide)).producerInit
        (.solo [⟨0, 0, 0⟩]) (0, 0))).exec
        (wellPaired (.ofOne 2 1 (by decide) (by decide)) (twoOwners (0, 0) (1, 0)))
        (start ((Topology.ofOne 2 1 (by decide) (by decide)).producerInit (.solo [⟨0, 0, 0⟩]) (0, 0)))
        (openBoth (peerOpen 2 0 "n") (peerOpen 2 1 "n'") ++ pullChunk "b" "n'" 2 3 ++
          pullChunk "a" "n" 3 4) = some s ∧
      s.book.finalEvents = [⟨.sending, "p"⟩] ∧
      ReleasesLast (.ofOne 2 1 (by decide) (by decide)) workerAddr (.solo [⟨0, 0, 0⟩])
        (twoOwners (0, 0) (1, 0)) (0, 0) s ∧ s.NoChunkJob := by
  let T := Topology.ofOne 2 1 (by decide) (by decide)
  let M := producerMachine (T.producerInit (.solo [⟨0, 0, 0⟩]) (0, 0))
  let owner := twoOwners (0, 0) (1, 0)
  let as := openBoth (peerOpen 2 0 "n") (peerOpen 2 1 "n'") ++ pullChunk "b" "n'" 2 3 ++
    pullChunk "a" "n" 3 4
  let s := (M.exec (wellPaired T owner) (start (T.producerInit (.solo [⟨0, 0, 0⟩]) (0, 0))) as).get
    (by decide +kernel)
  have hexec : M.exec (wellPaired T owner) (start (T.producerInit (.solo [⟨0, 0, 0⟩]) (0, 0))) as =
      some s := (Option.some_get _).symm
  have hreach := (Machine.reachWith_of_exec (M := M) rfl hexec).mono of_wellPaired
  obtain ⟨hlast, hjobs⟩ := @producer_releases_last T workerAddr (.solo [⟨0, 0, 0⟩]) owner (0, 0)
    workerAddr_injective (Or.inl rfl)
  exact ⟨s, hexec, by decide +kernel, hlast s (hreach.mono fun _ _ hok => hok.1),
    hjobs s hreach (by decide +kernel)⟩

open Producer in
/-- Two consumer PP ranks and one producer PP rank: the producer worker waits for one of its two
peers only, and releases the blocks while the session of the other is active. -/
theorem producer_releases_early :
    ¬ ∀ (T : Topology) (addr : Worker → String) (base : InitMessage) (owner : Identity → Worker)
        (w : Worker) (s : Producer), Function.Injective addr →
      (producerMachine (T.producerInit base w)).ReachWith
        (fun s a => (s.Conduct a ∧ Paired T addr base owner w s a) ∧ s.JobsInTime a) s →
      ∀ e ∈ s.book.finalEvents, ∀ announcement ∈ s.book.announcements,
        announcement.pReqId = e.reqId → ∀ (i : Nat) (x : ProducerSession),
        s.book.sessions[i]? = some x → x.transferId = announcement.transferId →
        x.state ≠ .active := by
  intro hall
  let T := Topology.ofOne 1 2 (by decide) (by decide)
  let M := producerMachine (T.producerInit (.solo [⟨0, 0, 0⟩]) (0, 0))
  let owner := twoOwners (0, 0) (0, 1)
  let as := openBoth (peerOpen 1 0 "n") (peerOpen 1 0 "n'") ++ pullChunk "b" "n'" 2 3
  let s := (M.exec (wellPaired T owner) (start (T.producerInit (.solo [⟨0, 0, 0⟩]) (0, 0))) as).get
    (by decide +kernel)
  have hexec : M.exec (wellPaired T owner) (start (T.producerInit (.solo [⟨0, 0, 0⟩]) (0, 0))) as =
      some s := (Option.some_get _).symm
  have hreach := (Machine.reachWith_of_exec (M := M) rfl hexec).mono of_wellPaired
  have hevents : s.book.finalEvents = [⟨.sending, "p"⟩] := by decide +kernel
  let announcement : ProducerAnnouncement :=
    { pReqId := "p", transferId := "t", localBlockIds := [[1]] }
  have hannounced : s.book.announcements = [announcement] := by decide +kernel
  have hactive : s.book.sessions[0]?.map (fun x => (x.transferId, x.state)) =
      some ("t", .active) := by decide +kernel
  obtain ⟨x, hx, heq⟩ := Option.map_eq_some_iff.mp hactive
  obtain ⟨htransfer, hstate⟩ := Prod.mk.inj heq
  exact hall T workerAddr _ owner (0, 0) s workerAddr_injective hreach ⟨.sending, "p"⟩
    (by rw [hevents]; simp) announcement (by rw [hannounced]; simp) rfl 0 x hx htransfer hstate

end KVServe.Session
