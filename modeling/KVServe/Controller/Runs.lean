import KVServe.Controller.Selection

/-!
# KVServe.Controller.Runs

Calls of `select_profile` and `update` in any order. A call is safe for every volume exactly when
the residuals it may use are not negative; an observation of one large request that is faster than
predicted makes the next small one **divide by zero**.
-/

namespace KVServe.Controller

/-! ### Runs -/

/-- A call on the controller. -/
inductive Event
  | select (req : Request) (choice : Choice) (valid : req.Valid)
  /-- An observed latency for the context that was returned as number `call`. -/
  | update (call : Nat) (tObsMs : ℚ) (positive : 0 < tObsMs)

/-- A controller in use, with the contexts it has returned. -/
structure RunState where
  controller : OnlineController
  contexts : List Context := []

namespace RunState

/-- The contexts after a call; a call that raises returns none. -/
def record (s : RunState) (outcome : Outcome) : RunState :=
  match outcome.result with
  | .ok (_, context) => ⟨outcome.controller, s.contexts ++ [context]⟩
  | .error _ => ⟨outcome.controller, s.contexts⟩

def step (s : RunState) : Event → RunState
  | .select req choice _ => s.record (s.controller.selectProfile req choice)
  | .update call tObsMs _ =>
      match s.contexts[call]? with
      | some context => { s with controller := s.controller.update context tObsMs }
      | none => s

/-- The states of a run, the first one included. -/
def states (s : RunState) : List Event → List RunState
  | [] => [s]
  | event :: rest => s :: states (s.step event) rest

/-- A new controller. -/
def start (library : ProfileLibrary) (epsilon alpha : ℚ) : RunState :=
  ⟨{ library := library, epsilon := epsilon, bandit := { alpha := alpha } }, []⟩

end RunState

namespace OnlineController

variable (c : OnlineController)

/-- `total_decisions = exploit_count + explore_count + no_compression_count`. -/
def CountsAgree : Prop :=
  c.totalDecisions = c.exploitCount + c.exploreCount + c.noCompressionCount

/-- Every call divides by positive latencies only, and the counts agree after it. -/
def CallsSound : Prop :=
  ∀ req choice, req.Valid → (∀ t ∈ (c.selectProfile req choice).divided, 0 < t) ∧
    (c.selectProfile req choice).controller.CountsAgree

/-- No candidate on offer has a ratio of zero, and for those that pass the benefit test neither the
residual nor the cost of a megabyte is negative, nor are both zero. -/
def ResidualsSound : Prop :=
  ∀ accReq bMbps bucket interval, 0 < bMbps → c.library.Offers accReq bMbps bucket interval →
    (∀ p ∈ c.library.getCandidateProfiles interval, p.compressionRatio ≠ 0) ∧
    ∀ p ∈ c.library.getCandidateProfiles interval,
      bMbps < (1 - 1 / p.compressionRatio) * p.harmonicSpeed →
      0 ≤ c.residual bucket interval p ∧ 0 ≤ unitCost p bMbps ∧
        0 < c.residual bucket interval p + unitCost p bMbps

end OnlineController

/-! ### One call -/

section Call

variable {c : OnlineController} {req : Request} {choice : Choice} {bucket : Bucket}
  {interval : Interval} {candidates : List Profile} {bMbps : ℚ}

/-- The counts keep step with the decisions unless the call raises. -/
theorem selectProfile_counts (hB : 0 < req.bMbps) (h : c.CountsAgree) :
    (c.selectProfile req choice).controller.CountsAgree ↔
      ∃ result, (c.selectProfile req choice).result = .ok result := by
  unfold OnlineController.CountsAgree at h
  -- a decision that is not counted
  have hraised : ¬ ({ c with totalDecisions := c.totalDecisions + 1 } :
      OnlineController).CountsAgree := by
    show ¬ c.totalDecisions + 1 = c.exploitCount + c.exploreCount + c.noCompressionCount
    omega
  have hrejected : ∀ divided reason, (OnlineController.noCompression
      { c with totalDecisions := c.totalDecisions + 1 } divided reason).controller.CountsAgree := by
    intro divided reason
    show c.totalDecisions + 1 = c.exploitCount + c.exploreCount + (c.noCompressionCount + 1)
    omega
  cases hscreen : c.library.screen req.accReq req.bMbps with
  | error e =>
      unfold OnlineController.selectProfile
      simp only [hscreen]
      exact iff_of_false hraised (by simp)
  | ok screened =>
      cases screened with
      | rejected reason =>
          unfold OnlineController.selectProfile
          simp only [hscreen]
          exact iff_of_true (hrejected _ _) ⟨_, rfl⟩
      | kept bucket interval candidates =>
          rw [selectProfile_of_kept hB hscreen]
          rcases OnlineController.conclude_cases { c with totalDecisions := c.totalDecisions + 1 }
              req choice bucket interval candidates (baselineOf req)
              (predictLoop (c.residual bucket interval) req (baselineOf req) candidates []) with
            ⟨e, -, heq⟩ | ⟨-, reason, heq⟩ | ⟨_, action, _, _, -, -, -, -, -, -, -, heq⟩
          · rw [heq]
            exact iff_of_false hraised (by simp)
          · rw [heq]
            exact iff_of_true (hrejected _ _) ⟨_, rfl⟩
          · rw [heq]
            refine iff_of_true ?_ ⟨_, rfl⟩
            unfold OnlineController.CountsAgree
            cases action with
            | explore =>
                show c.totalDecisions + 1 = c.exploitCount + (c.exploreCount + 1) + c.noCompressionCount
                omega
            | exploit =>
                show c.totalDecisions + 1 = c.exploitCount + 1 + c.exploreCount + c.noCompressionCount
                omega

/-- A ratio of zero among the candidates raises. -/
theorem ratio_ne_zero_of_sound (h : c.CountsAgree) (hsound : c.CallsSound) (hreq : req.Valid)
    (hoffers : c.library.Offers req.accReq req.bMbps bucket interval) :
    ∀ p ∈ c.library.getCandidateProfiles interval, p.compressionRatio ≠ 0 := by
  obtain ⟨result, hresult⟩ := (selectProfile_counts hreq.bandwidth h).mp (hsound req ⟨0, 0⟩ hreq).2
  by_cases hnone : c.library.getCandidateProfiles interval = []
  · rw [hnone]
    exact fun p hp => absurd hp List.not_mem_nil
  · cases hkept : filterBenefit req.bMbps (c.library.getCandidateProfiles interval) with
    | ok kept => exact filterBenefit_ok_iff.mp ⟨kept, hkept⟩
    | error e =>
        have hscreen := screen_of_offers hoffers
        rw [if_neg hnone, hkept] at hscreen
        have hscreen : c.library.screen req.accReq req.bMbps = .error e := hscreen
        unfold OnlineController.selectProfile at hresult
        simp only [hscreen] at hresult
        cases hresult

/-- A line that is positive for every positive argument. -/
theorem line_positive_iff {u d : ℚ} :
    (∀ m, 0 < m → 0 < m * u + d) ↔ 0 ≤ d ∧ 0 ≤ u ∧ 0 < d + u := by
  constructor
  · intro h
    have hu : 0 ≤ u := by
      by_contra hneg
      have hneg : 0 < -u := neg_pos.mpr (not_le.mp hneg)
      have hline := h ((1 + |d|) / -u) (by positivity)
      have hmul : (1 + |d|) / -u * u = -(1 + |d|) := by
        rw [div_mul_eq_mul_div, div_eq_iff hneg.ne']
        ring
      have hd := le_abs_self d
      linarith
    have hd : 0 ≤ d := by
      by_contra hneg
      have hneg : 0 < -d := neg_pos.mpr (not_le.mp hneg)
      have hline := h (-d / (u + 1)) (by positivity)
      have hmul : -d / (u + 1) * u + d = d / (u + 1) := by
        have hne : u + 1 ≠ 0 := by positivity
        field_simp
        ring
      have hquotient : 0 < -d / (u + 1) := by positivity
      rw [hmul] at hline
      rw [neg_div] at hquotient
      linarith
    have hone := h 1 one_pos
    exact ⟨hd, hu, by linarith⟩
  · rintro ⟨hd, hu, hsum⟩ m hm
    rcases hd.eq_or_lt with rfl | hd
    · have hu : 0 < u := by linarith
      have hmul := mul_pos hm hu
      linarith
    · have hmul := mul_nonneg hm.le hu
      linarith

/-- **The calls of a controller** are sound when its residuals are, and only then. -/
theorem callsSound_iff (h : c.CountsAgree) : c.CallsSound ↔ c.ResidualsSound := by
  constructor
  · intro hsound accReq bMbps bucket interval hB hoffers
    have hratio := @ratio_ne_zero_of_sound c ⟨1, bMbps, 0, none, accReq⟩ bucket interval h hsound
      ⟨one_pos, hB, le_refl 0⟩ hoffers
    refine ⟨hratio, fun p hp hbenefit => line_positive_iff.mp fun m hm => ?_⟩
    -- a call for `m` megabytes, without a model latency and without a limit
    obtain ⟨req, hreq⟩ : ∃ req : Request, req = ⟨m * (1024 * 1024), bMbps, 0, none, accReq⟩ :=
      ⟨_, rfl⟩
    have hvolume : megabytes req.vBytes = m := by
      rw [hreq]
      exact mul_div_cancel_right₀ m (by norm_num)
    have hslo : ∀ t, req.withinSlo t = true := fun t => by rw [hreq]; rfl
    have hmodel : req.tModelMs = 0 := by rw [hreq]
    have hvalid : req.Valid := by
      rw [hreq]
      exact ⟨by positivity, hB, le_refl 0⟩
    have hreqB : req.bMbps = bMbps := by rw [hreq]
    have hreqAcc : req.accReq = accReq := by rw [hreq]
    subst hreqB hreqAcc
    have hkept := @filterBenefit_eq (c.library.getCandidateProfiles interval) req.bMbps hratio
    have hmem : p ∈ (c.library.getCandidateProfiles interval).filter fun p =>
        decide (req.bMbps < (1 - 1 / p.compressionRatio) * p.harmonicSpeed) :=
      List.mem_filter.mpr ⟨hp, decide_eq_true hbenefit⟩
    have hpositive := (hsound req ⟨0, 0⟩ hvalid).1
    rw [selectProfile_divided hB (screen_eq_kept.mpr ⟨hoffers, List.ne_nil_of_mem hmem, hkept⟩)]
      at hpositive
    have hspeed := fun q hq => (mem_filterBenefit (p := q) hB hkept hq).2.2.1
    rcases effective_mem_divided hB hspeed hmem (hslo _) with hdivided | hzero
    · have heffective := hpositive _ hdivided
      rw [effective, hvolume, hmodel] at heffective
      linarith
    · exact absurd (hpositive 0 hzero) (lt_irrefl 0)
  · intro hresiduals req choice hreq
    have hB := hreq.bandwidth
    have hvolume : 0 < megabytes req.vBytes := div_pos hreq.volume (by norm_num)
    obtain ⟨screened, hscreen⟩ := exists_screened hB fun bucket interval hoffers =>
      (hresiduals req.accReq req.bMbps bucket interval hB hoffers).1
    rw [selectProfile_counts hB h]
    cases screened with
    | rejected reason =>
        unfold OnlineController.selectProfile
        simp only [hscreen]
        exact ⟨fun t ht => absurd ht List.not_mem_nil, _, rfl⟩
    | kept bucket interval candidates =>
        obtain ⟨hoffers, -, hkept⟩ := screen_eq_kept.mp hscreen
        have hspeed := fun q hq => (mem_filterBenefit (p := q) hB hkept hq).2.2.1
        have heffective : ∀ p ∈ candidates, 0 < effective (c.residual bucket interval) req p := by
          intro p hp
          obtain ⟨hmem, -, -, hbenefit⟩ := mem_filterBenefit hB hkept hp
          have hline := line_positive_iff.mpr
            ((hresiduals req.accReq req.bMbps bucket interval hB hoffers).2 p hmem hbenefit)
            (megabytes req.vBytes) hvolume
          have hmodel := hreq.model
          rw [effective]
          linarith
        constructor
        · intro t ht
          rw [selectProfile_divided hB hscreen] at ht
          obtain ⟨p, hp, -, rfl⟩ := mem_divided hB hspeed ht
          exact heffective p hp
        · obtain ⟨predictions, hloop⟩ := @exists_predictions req (baselineOf req) candidates
            (c.residual bucket interval) [] hB hspeed fun p hp _ => (heffective p hp).ne'
          rw [selectProfile_of_kept hB hscreen]
          rcases OnlineController.conclude_cases { c with totalDecisions := c.totalDecisions + 1 }
              req choice bucket interval candidates (baselineOf req)
              (predictLoop (c.residual bucket interval) req (baselineOf req) candidates []) with
            ⟨e, herror, -⟩ | ⟨-, reason, heq⟩ | ⟨_, _, _, _, -, -, -, -, -, -, -, heq⟩
          · rw [hloop] at herror
            cases herror
          · rw [heq]
            exact ⟨_, rfl⟩
          · rw [heq]
            exact ⟨_, rfl⟩

end Call

/-! ### Every run -/

section Run

variable {s t : RunState} {events : List Event}

theorem RunState.record_controller (s : RunState) (outcome : Outcome) :
    (s.record outcome).controller = outcome.controller := by
  unfold RunState.record
  split <;> rfl

/-- A call that is sound keeps the counts, and so does an update. -/
theorem RunState.step_counts (event : Event) (h : s.controller.CountsAgree)
    (hsound : s.controller.CallsSound) : (s.step event).controller.CountsAgree := by
  cases event with
  | select req choice valid =>
      rw [RunState.step, RunState.record_controller]
      exact (hsound req choice valid).2
  | update call tObsMs positive =>
      rw [RunState.step]
      cases hcontext : s.contexts[call]? with
      | none => exact h
      | some context =>
          cases context with
          | noCompression reason => exact h
          | decision d => exact h

/-- **Every run**: its calls are sound in every state exactly when the residuals are. -/
theorem RunState.states_sound_iff (h : s.controller.CountsAgree) (events : List Event) :
    (∀ t ∈ s.states events, t.controller.CallsSound) ↔
      ∀ t ∈ s.states events, t.controller.ResidualsSound := by
  induction events generalizing s with
  | nil =>
      rw [RunState.states, List.forall_mem_singleton, List.forall_mem_singleton]
      exact callsSound_iff h
  | cons event rest ih =>
      rw [RunState.states, List.forall_mem_cons, List.forall_mem_cons, callsSound_iff h]
      refine and_congr_right fun hresiduals => ih ?_
      exact s.step_counts event h ((callsSound_iff h).mpr hresiduals)

/-- **The runs of a new controller.** -/
theorem runs_sound_iff (library : ProfileLibrary) (epsilon alpha : ℚ) (events : List Event) :
    (∀ t ∈ (RunState.start library epsilon alpha).states events, t.controller.CallsSound) ↔
      ∀ t ∈ (RunState.start library epsilon alpha).states events, t.controller.ResidualsSound :=
  @RunState.states_sound_iff (RunState.start library epsilon alpha) (Eq.refl 0) events

/-- The last state of a run. -/
theorem RunState.foldl_mem_states (s : RunState) (events : List Event) :
    events.foldl RunState.step s ∈ s.states events := by
  induction events generalizing s with
  | nil => exact List.mem_singleton_self s
  | cons event rest ih => exact List.mem_cons_of_mem s (ih (s.step event))

end Run

/-! ### A fast observation -/

/-- One profile of ratio four, for every bandwidth. -/
def oneProfile : ProfileLibrary where
  accuracyBuckets := [⟨0, 0, 1, [⟨0, 0, 1, ["p"]⟩], [⟨"p", 4, 100, 1 / 2⟩]⟩]
  nonempty := List.cons_ne_nil _ _

def requestOf (megabytes : ℚ) : Request := ⟨megabytes * 1048576, 10, 0, none, 1 / 2⟩

/-- Twenty seconds are observed where forty-one were predicted. -/
def fastObservation : List Event :=
  [.select (requestOf 100) ⟨1, 0⟩ ⟨by decide +kernel, by decide +kernel, by decide +kernel⟩,
    .update 0 20500 (by decide +kernel)]

def afterFast : RunState := fastObservation.foldl RunState.step (RunState.start oneProfile 0 (1 / 5))

/-- **The next small request** is predicted to take no time: the call raises and is not counted. A
smaller one has a negative latency. -/
theorem fast_observation_divides_by_zero :
    (afterFast.controller.selectProfile (requestOf 10) ⟨1, 0⟩).divided = [0] ∧
      (afterFast.controller.selectProfile (requestOf 10) ⟨1, 0⟩).result.isOk = false ∧
      (afterFast.controller.selectProfile (requestOf 1) ⟨1, 0⟩).divided = [-3690] ∧
      ¬ ∀ t ∈ (RunState.start oneProfile 0 (1 / 5)).states fastObservation,
        t.controller.CallsSound := by
  have hdivided : (afterFast.controller.selectProfile (requestOf 10) ⟨1, 0⟩).divided = [0] := by
    decide +kernel
  refine ⟨hdivided, by decide +kernel, by decide +kernel, fun hall => ?_⟩
  have hsound := hall afterFast (RunState.foldl_mem_states _ fastObservation) (requestOf 10) ⟨1, 0⟩
    ⟨by decide +kernel, by decide +kernel, by decide +kernel⟩
  exact absurd (hsound.1 0 (hdivided ▸ List.mem_singleton_self 0)) (lt_irrefl 0)

end KVServe.Controller
