import KVServe.Transport.ReceiverCredits

/-!
# KVServe.Transport.ReceiverPriority

**A scheduled payload is never starved.** While `start_load_kv` waits, the
priority slot belongs to an admitted payload of a request it still waits for. So
as long as none of these is admitted the slot is free, and the next message for
one of them passes the budget, however much of it payloads of later steps hold.

The runs are those in which every transfer id has one payload, of positive size,
and every load step gets all its payloads (`Steady`). Exceptions of the listener
and of the completion thread are allowed: a payload they lose stays admitted.
-/

namespace KVServe.Transport

variable {D : Type}

/-- The transfer ids `start_load_kv` still has to inject. -/
def LoadAt.wanted : LoadAt D → List RequestId
  | .loading pending => pending.map (·.transferId)
  | .injecting request _ pending => request.transferId :: pending.map (·.transferId)
  | .idle | .starting _ => []

/-- The transfer ids of the requests in `pending`. -/
def LoadAt.pendingIds : LoadAt D → List RequestId
  | .loading pending | .injecting _ _ pending => pending.map (·.transferId)
  | .idle | .starting _ => []

namespace Receiver

variable {torch : Torch D} {s s' : Receiver D} {a : Action}

/-- A payload of the request is admitted and not released. -/
def Unreleased (s : Receiver D) (requestId : RequestId) : Prop :=
  ∃ serial payloadBytes, s.admissions[serial]? = some (requestId, payloadBytes) ∧
    serial ∉ s.releases.map (·.1)

/-- Every transfer id has one payload, of positive size, and every load step
consumes the payloads it is scheduled for. -/
def Steady (torch : Torch D) (s : Receiver D) : Action → Prop
  | .reserve => ∀ put, s.listen = .read put →
      (∀ payloadBytes, torch.putNbytes put = some payloadBytes → 0 < payloadBytes) ∧
        ∀ entry ∈ s.admissions, entry.1 ≠ put.requestId
  | .expire => False
  | .inject ok => ok = true ∧ ∀ request pending, s.load ≠ .injecting request none pending
  | _ => True

/-- The priority slot belongs to the load step in progress. -/
structure PriorityInv (s : Receiver D) : Prop where
  positive : ∀ entry ∈ s.admissions, 0 < entry.2
  released : ∀ serial ∈ s.releases.map (·.1), serial < s.admissions.length
  /-- The slot marks an admitted payload of a request the step still wants. -/
  held : ∀ {r : RequestId}, s.budget.priorityRequest = some r →
    s.Unreleased r ∧ r ∈ s.load.wanted
  /-- What is expected is still wanted, unless its payload has come. -/
  expected : ∀ r ∈ s.budget.expectedRequests,
    r ∈ s.load.wanted ∨ ∃ entry ∈ s.admissions, entry.1 = r
  pending : ∀ r ∈ s.load.pendingIds, r ∈ s.budget.expectedRequests
  /-- Nothing is expected between two load steps. -/
  calm : s.load = .idle ∨ (∃ requests, s.load = .starting requests) →
    s.budget.expectedRequests = []

theorem Unreleased.of_eq {r : RequestId} (h : s.Unreleased r)
    (hadmissions : s'.admissions = s.admissions) (hreleases : s'.releases = s.releases) :
    s'.Unreleased r := by
  rw [Unreleased, hadmissions, hreleases]
  exact h

/-- Nothing the invariant speaks about changes. -/
theorem PriorityInv.of_eq (h : PriorityInv s) (hbudget : s'.budget = s.budget)
    (hload : s'.load = s.load) (hadmissions : s'.admissions = s.admissions)
    (hreleases : s'.releases = s.releases) : PriorityInv s' where
  positive := by rw [hadmissions]; exact h.positive
  released := by rw [hadmissions, hreleases]; exact h.released
  held hr := by
    rw [hbudget] at hr
    rw [hload]
    exact ⟨(h.held hr).1.of_eq hadmissions hreleases, (h.held hr).2⟩
  expected := by rw [hbudget, hload, hadmissions]; exact h.expected
  pending := by rw [hbudget, hload]; exact h.pending
  calm := by rw [hbudget, hload]; exact h.calm

/-- An admission: one that takes the slot was expected, so it is wanted. -/
theorem PriorityInv.admits (h : PriorityInv s) {put : Put} {payloadBytes : Nat} {budget : Budget}
    {listen : ListenAt D} (hpositive : 0 < payloadBytes)
    (hfresh : ∀ entry ∈ s.admissions, entry.1 ≠ put.requestId)
    (hbudget : s.budget.reserveReceived put.requestId payloadBytes = some budget) :
    PriorityInv { s with
      budget, listen, admissions := s.admissions ++ [(put.requestId, payloadBytes)] } := by
  obtain ⟨-, -, hexpected, hcases⟩ := Budget.reserveReceived_cases hbudget
  refine ⟨fun entry hmem => ?_, fun serial hmem => ?_, fun {r} hr => ?_, fun r hr => ?_,
    fun r hr => ?_, fun hcalm => ?_⟩
  · rcases List.mem_append.mp hmem with hmem | hmem
    · exact h.positive entry hmem
    · rw [List.mem_singleton.mp hmem]
      exact hpositive
  · have hlt := h.released serial hmem
    simp only [List.length_append]
    omega
  · rcases hcases with ⟨-, hprio⟩ | ⟨-, hexp, -, hprio⟩
    · obtain ⟨⟨serial, bytes, hserial, hopen⟩, hwanted⟩ := h.held (hprio.symm.trans hr)
      refine ⟨⟨serial, bytes, ?_, hopen⟩, hwanted⟩
      dsimp only
      rw [List.getElem?_append_left (List.getElem?_eq_some_iff.mp hserial).1]
      exact hserial
    · obtain rfl := Option.some.inj (hprio.symm.trans hr)
      refine ⟨⟨s.admissions.length, payloadBytes, List.getElem?_concat_length, fun hmem => ?_⟩, ?_⟩
      · exact absurd (h.released _ hmem) (Nat.lt_irrefl _)
      · rcases h.expected _ hexp with hwanted | ⟨entry, hmem, heq⟩
        · exact hwanted
        · exact absurd heq (hfresh entry hmem)
  · dsimp only at hr
    rw [hexpected] at hr
    rcases h.expected r hr with hwanted | ⟨entry, hmem, heq⟩
    · exact Or.inl hwanted
    · exact Or.inr ⟨entry, List.mem_append_left _ hmem, heq⟩
  · dsimp only
    rw [hexpected]
    exact h.pending r hr
  · dsimp only
    rw [hexpected]
    exact h.calm hcalm

/-- A release of an admitted payload frees the slot of its own request only. -/
theorem PriorityInv.release (h : PriorityInv s) {serial payloadBytes : Nat} {requestId : RequestId}
    (hentry : s.admissions[serial]? = some (requestId, payloadBytes)) :
    PriorityInv (s.release serial requestId payloadBytes) ∧
      (s.release serial requestId payloadBytes).budget.priorityRequest ≠ some requestId := by
  have hpositive : payloadBytes ≠ 0 :=
    Nat.ne_of_gt (h.positive _ (List.mem_of_getElem? hentry))
  have hprio {r : RequestId}
      (hr : (s.release serial requestId payloadBytes).budget.priorityRequest = some r) :
      s.budget.priorityRequest = some r ∧ r ≠ requestId := by
    simp only [Receiver.release, Budget.releaseReceived, if_neg hpositive] at hr
    split at hr
    · cases hr
    · rename_i hne
      exact ⟨hr, fun heq => hne (heq ▸ hr)⟩
  refine ⟨⟨h.positive, fun serial' hmem => ?_, fun {r} hr => ?_, ?_, ?_, ?_⟩,
    fun hr => (hprio hr).2 rfl⟩
  · simp only [Receiver.release, List.map_append, List.mem_append, List.map_cons, List.map_nil,
      List.mem_singleton] at hmem
    rcases hmem with hmem | rfl
    · exact h.released serial' hmem
    · exact (List.getElem?_eq_some_iff.mp hentry).1
  · obtain ⟨hold, hne⟩ := hprio hr
    obtain ⟨⟨serial', bytes, hserial', hopen⟩, hwanted⟩ := h.held hold
    refine ⟨⟨serial', bytes, hserial', fun hmem => ?_⟩, hwanted⟩
    simp only [Receiver.release, List.map_append, List.mem_append, List.map_cons, List.map_nil,
      List.mem_singleton] at hmem
    rcases hmem with hmem | rfl
    · exact hopen hmem
    · rw [hentry] at hserial'
      exact hne (congrArg Prod.fst (Option.some.inj hserial')).symm
  · simp only [Receiver.release, Budget.releaseReceived_expected]
    exact h.expected
  · simp only [Receiver.release, Budget.releaseReceived_expected]
    exact h.pending
  · simp only [Receiver.release, Budget.releaseReceived_expected]
    exact h.calm

/-- Nothing but the position of the load step changes, and it wants the same. -/
theorem PriorityInv.moves (h : PriorityInv s) (hbudget : s'.budget = s.budget)
    (hadmissions : s'.admissions = s.admissions) (hreleases : s'.releases = s.releases)
    (hwanted : ∀ r, r ∈ s.load.wanted → r ∈ s'.load.wanted)
    (hpending : ∀ r, r ∈ s'.load.pendingIds → r ∈ s.load.pendingIds)
    (hcalm : s'.load = .idle ∨ (∃ requests, s'.load = .starting requests) → s.load = .idle) :
    PriorityInv s' where
  positive := by rw [hadmissions]; exact h.positive
  released := by rw [hadmissions, hreleases]; exact h.released
  held {r} hr := by
    rw [hbudget] at hr
    exact ⟨(h.held hr).1.of_eq hadmissions hreleases, hwanted r (h.held hr).2⟩
  expected r hr := by
    rw [hbudget] at hr
    rw [hadmissions]
    exact (h.expected r hr).imp_left (hwanted r)
  pending r hr := by
    rw [hbudget]
    exact h.pending r (hpending r hr)
  calm hidle := by
    rw [hbudget]
    exact h.calm (Or.inl (hcalm hidle))

/-- Between two load steps the slot is free. -/
theorem PriorityInv.priority_none (h : PriorityInv s) (hwanted : s.load.wanted = []) :
    s.budget.priorityRequest = none := by
  cases hprio : s.budget.priorityRequest with
  | none => rfl
  | some r =>
      have hmem := (h.held hprio).2
      rw [hwanted] at hmem
      cases hmem

/-- The injection of a payload frees the slot if its request holds it. -/
theorem PriorityInv.injects (h : PriorityInv s) (hfiled : Filed torch s) {request : ReqMeta}
    {x : Arrival D} {pending : List ReqMeta}
    (hload : s.load = .injecting request (some x) pending) :
    PriorityInv { s.releasePayload torch request.transferId (some x) with
      load := .loading pending } := by
  obtain ⟨hentry, hbytes⟩ := hfiled.arrival x (mem_arrivals.mpr (by simp [hload, LoadAt.arrivals]))
  rw [hfiled.injecting request x pending hload] at hentry
  simp only [releasePayload, hbytes]
  obtain ⟨hrel, hfree⟩ := h.release hentry
  have hload' : (s.release x.serial request.transferId x.payloadBytes).load =
    .injecting request (some x) pending := hload
  refine ⟨hrel.positive, hrel.released, fun {r} hr => ?_, fun r hr => ?_, fun r hr => ?_,
    fun hidle => ?_⟩
  · obtain ⟨hopen, hwanted⟩ := hrel.held hr
    refine ⟨hopen, ?_⟩
    rw [hload'] at hwanted
    rcases List.mem_cons.mp hwanted with rfl | hmem
    · exact absurd hr hfree
    · exact hmem
  · rcases hrel.expected r hr with hwanted | hmem
    · rw [hload'] at hwanted
      rcases List.mem_cons.mp hwanted with rfl | hmem
      · exact Or.inr ⟨_, List.mem_of_getElem? hentry, rfl⟩
      · exact Or.inl hmem
    · exact Or.inr hmem
  · refine hrel.pending r ?_
    rw [hload']
    exact hr
  · rcases hidle with hidle | ⟨requests, hidle⟩ <;> cases hidle

/-- **One steady step keeps the slot with the load step in progress.** -/
theorem PriorityInv.step (h : PriorityInv s) (hfiled : Filed torch s) (hsteady : Steady torch s a)
    (hsteps : Steps torch s a s') : PriorityInv s' := by
  cases hsteps with
  | admits hlisten hbytes hbudget =>
      obtain ⟨hpositive, hfresh⟩ := hsteady _ hlisten
      exact h.admits (hpositive _ hbytes) hfresh hbudget
  | outOfMemory hlisten =>
      exact (h.release (hfiled.admitted _ hlisten).1).1.of_eq rfl rfl rfl rfl
  | recordRaises hcompleting =>
      exact (h.release (hfiled.recording _ hcompleting).1).1.of_eq rfl rfl rfl rfl
  | receiveRaises hcompletions =>
      have hmem : _ ∈ s.arrivals := mem_arrivals.mpr (Or.inr (Or.inl
        (hcompletions ▸ List.mem_cons_self)))
      exact (h.release (hfiled.arrival _ hmem).1).1.of_eq rfl rfl rfl rfl
  | begins hload =>
      refine h.moves rfl rfl rfl (fun r hr => ?_) (fun r hr => ?_) fun _ => hload
      · rw [hload] at hr
        cases hr
      · cases hr
  | @expects requests hload =>
      have hfree := h.priority_none (by rw [hload]; rfl)
      refine ⟨h.positive, h.released, fun {r} hr => ?_, fun r hr => Or.inl hr, fun r hr => hr,
        fun hidle => ?_⟩
      · exact absurd (hfree.symm.trans hr) (by simp)
      · rcases hidle with hidle | ⟨requests, hidle⟩ <;> cases hidle
  | @takes pending request payload rest hload hmem htake =>
      have hperm := (List.perm_cons_erase hmem).map (·.transferId)
      refine h.moves rfl rfl rfl (fun r hr => ?_) (fun r hr => ?_) fun hidle => ?_
      · rw [hload] at hr
        exact hperm.subset hr
      · rw [hload]
        exact hperm.symm.subset (List.mem_cons_of_mem _ hr)
      · rcases hidle with hidle | ⟨requests, hidle⟩ <;> cases hidle
  | expires => exact absurd hsteady id
  | @injects ok request payload pending hload =>
      obtain ⟨rfl, hfound⟩ := hsteady
      cases payload with
      | none => exact absurd hload (hfound request pending)
      | some x => exact h.injects hfiled hload
  | ends hload =>
      have hfree := h.priority_none (by rw [hload]; rfl)
      refine ⟨h.positive, h.released, fun {r} hr => ?_, fun r hr => ?_, fun r hr => ?_, fun _ => rfl⟩
      · exact absurd (hfree.symm.trans hr) (by simp)
      · cases hr
      · cases hr
  | _ => exact h.of_eq rfl rfl rfl rfl

end Receiver

/-- **No credit starvation.** While `start_load_kv` waits and no payload of a request it
waits for is admitted, the priority slot is free and a message for any of these requests
is admitted and not answered, whatever its size and whatever the budget holds. -/
theorem pending_payload_admitted {D : Type} {torch : Torch D} {recvBufferSize : Int}
    {s : Receiver D} (h : (receiverMachine torch recvBufferSize).ReachWith
      (fun s a => s.Steady torch a) s) {pending : List ReqMeta} (hload : s.load = .loading pending)
    (hnone : ∀ r ∈ pending, ¬ s.Unreleased r.transferId) :
    s.budget.priorityRequest = none ∧ ∀ r ∈ pending, ∀ put : Put, put.requestId = r.transferId →
      ∀ payloadBytes, (s.budget.reserveReceived r.transferId payloadBytes).isSome ∧
        (s.admitOrRetry put payloadBytes).listen = .admitted ⟨s.admissions.length, put, payloadBytes⟩ ∧
        (s.admitOrRetry put payloadBytes).replies = s.replies := by
  have hinv : s.PriorityInv := by
    refine Machine.invariant (I := Receiver.PriorityInv) ?_ ?_ h
    · rintro s rfl
      refine ⟨fun x hx => ?_, fun x hx => ?_, fun hr => ?_, fun x hx => ?_, fun x hx => ?_,
        fun _ => rfl⟩
      all_goals first | cases hx | cases hr
    · intro s a s' hreach hs hsteady hstep
      exact hs.step (Receiver.reachable_filed hreach) hsteady (Receiver.step_cases hstep)
  have hfree : s.budget.priorityRequest = none := by
    cases hprio : s.budget.priorityRequest with
    | none => rfl
    | some r =>
        obtain ⟨hopen, hwanted⟩ := hinv.held hprio
        rw [hload] at hwanted
        obtain ⟨request, hmem, rfl⟩ := List.mem_map.mp hwanted
        exact absurd hopen (hnone request hmem)
  refine ⟨hfree, fun r hr put hput payloadBytes => ?_⟩
  have hexpected : r.transferId ∈ s.budget.expectedRequests :=
    hinv.pending _ (by rw [hload]; exact List.mem_map_of_mem hr)
  have hsome : (s.budget.reserveReceived r.transferId payloadBytes).isSome := by
    simp only [Budget.reserveReceived, Budget.canPass, hfree, hexpected]
    split <;> rfl
  refine ⟨hsome, ?_⟩
  obtain ⟨budget, hbudget⟩ := Option.isSome_iff_exists.mp hsome
  simp only [Receiver.admitOrRetry, hput, hbudget, and_self]

open Receiver in
/-- A payload of a later step fills the budget of ten bytes; the one `start_load_kv` waits
for is admitted all the same. -/
theorem pending_payload_admitted_full :
    ∃ s : Receiver SampleDType, s.load = .loading [⟨"q", "r"⟩] ∧ s.budget.reservedBytes = 8 ∧
      (s.admitOrRetry (.tensor "r" [] { shape := [4], dtype := "float16" }) 8).replies = [.ok] := by
  let put : Put := .tensor "later" ["layer"] { shape := [4], dtype := "float16" }
  let steps : List Action := [.init, .message put, .reserve, .allocate, .beginLoad [⟨"q", "r"⟩],
    .setExpected]
  let alone : Receiver SampleDType → Action → Bool := fun s a =>
    match a with
    | .expire | .inject _ => false
    | .reserve => s.listen == .read put && s.admissions.isEmpty
    | _ => true
  let s := ((receiverMachine .sample 10).exec alone { budget := .ofSize 10 } steps).get (by decide)
  have hload : s.load = .loading [⟨"q", "r"⟩] := by decide
  have hreach : (receiverMachine .sample 10).ReachWith (fun s a => s.Steady .sample a) s := by
    refine (Machine.reachWith_of_exec rfl (Option.some_get _).symm).mono fun s a h => ?_
    cases a with
    | reserve =>
        obtain ⟨hlisten, hempty⟩ := Bool.and_eq_true_iff.mp h
        intro put' hput'
        obtain rfl := ListenAt.read.inj (hput'.symm.trans (eq_of_beq hlisten))
        refine ⟨fun n hn => ?_, fun entry hmem => ?_⟩
        · obtain rfl := Option.some.inj hn
          decide
        · rw [List.isEmpty_iff.mp hempty] at hmem
          cases hmem
    | expire => cases h
    | inject ok => cases h
    | _ => trivial
  have hnone : ∀ r ∈ [(⟨"q", "r"⟩ : ReqMeta)], ¬ s.Unreleased r.transferId := by
    rintro r hr ⟨serial, bytes, hentry, -⟩
    obtain rfl := List.mem_singleton.mp hr
    have hmem : ("r", bytes) ∈ s.admissions := List.mem_of_getElem? hentry
    have hadm : s.admissions = [("later", 8)] := by decide
    simp [hadm] at hmem
  refine ⟨s, hload, by decide, ?_⟩
  rw [((pending_payload_admitted hreach hload hnone).2 _ List.mem_cons_self _ rfl 8).2.2]
  decide

end KVServe.Transport
