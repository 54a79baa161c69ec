import KVServe.Controller.ProfileLibrary

/-!
# KVServe.Controller.OnlineController

`OnlineController`: candidates are screened with the analytical model, predicted latencies are
corrected with residuals that were learned from observations, and one of the candidates within
the latency limit is chosen. The predictions are divided by without a check.
-/

namespace KVServe.Controller

/-! ### Residuals -/

/-- The key of a residual: bucket, interval and profile. -/
abbrev BanditKey := Int × Int × String

/-- `BanditStateManager`: usage counts and residuals by key. -/
structure BanditState where
  alpha : ℚ
  state : List (BanditKey × (Nat × ℚ)) := []
  distinct : (state.map Prod.fst).Nodup := by exact List.nodup_nil

namespace BanditState

variable (bandit : BanditState)

/-- `get_stats`. -/
def getStats (key : BanditKey) : Nat × ℚ := (Assoc.get key bandit.state).getD (0, 0)

/-- `self.state[key] = stats`. -/
def put (key : BanditKey) (stats : Nat × ℚ) : BanditState where
  alpha := bandit.alpha
  state := Assoc.set key stats bandit.state
  distinct := Assoc.nodup_keys_set bandit.distinct

/-- `update`. -/
def update (key : BanditKey) (deltaObs : ℚ) : BanditState :=
  let stats := bandit.getStats key
  let deltaBar := (1 - bandit.alpha) * stats.2 + bandit.alpha * deltaObs
  bandit.put key (stats.1 + 1, deltaBar)

end BanditState

/-! ### Decisions -/

/-- The arguments of `select_profile`. -/
structure Request where
  vBytes : ℚ
  bMbps : ℚ
  tModelMs : ℚ
  /-- `none` is an infinite limit. -/
  tSloMs : Option ℚ
  accReq : ℚ
  deriving DecidableEq, Repr

/-- A volume, a bandwidth and a latency as they are measured. -/
structure Request.Valid (req : Request) : Prop where
  volume : 0 < req.vBytes
  bandwidth : 0 < req.bMbps
  model : 0 ≤ req.tModelMs

/-- `T_eff <= T_SLO_ms`. -/
def Request.withinSlo (req : Request) (tEff : ℚ) : Bool :=
  match req.tSloMs with
  | some limit => tEff ≤ limit
  | none => true

/-- What `random.random()` and `random.choice` yield. -/
structure Choice where
  roll : ℚ
  pick : Nat

/-- Why nothing is compressed. -/
inductive Reason
  | noMatchingBucket (accReq : ℚ)
  | noMatchingInterval (bMbps : ℚ)
  | noCandidates (bucketId intervalId : Int)
  | noBenefit (bMbps : ℚ) (bucketId intervalId : Int)
  | sloViolation (tSloMs : Option ℚ) (bucketId intervalId : Int) (candidates : List String)
  deriving DecidableEq, Repr

inductive ActionType
  | explore
  | exploit
  deriving DecidableEq, Repr

/-- The context of a decision for a profile. -/
structure Decision where
  bucketId : Int
  intervalId : Int
  profileId : String
  tHat : ℚ
  tEff : ℚ
  deltaBar : ℚ
  speedupPredicted : ℚ
  action : ActionType
  numCandidates : Nat
  baselineLatency : ℚ
  request : Request
  deriving DecidableEq, Repr

/-- The context `select_profile` returns. -/
inductive Context
  | noCompression (reason : Reason)
  | decision (d : Decision)
  deriving DecidableEq, Repr

/-- An entry of `predictions`. -/
structure Prediction where
  profile : Profile
  tHat : ℚ
  tEff : ℚ
  deltaBar : ℚ
  speedup : ℚ
  deriving DecidableEq, Repr

/-! ### The controller -/

/-- `OnlineController` with its counters. -/
structure OnlineController where
  library : ProfileLibrary
  epsilon : ℚ := 1 / 10
  bandit : BanditState
  totalDecisions : Nat := 0
  exploitCount : Nat := 0
  exploreCount : Nat := 0
  noCompressionCount : Nat := 0

/-- What tier 1 leaves over. -/
inductive Screened
  | rejected (reason : Reason)
  | kept (bucket : Bucket) (interval : Interval) (candidates : List Profile)

/-- Tier 1 of `select_profile`. -/
def ProfileLibrary.screen (library : ProfileLibrary) (accReq bMbps : ℚ) :
    Except ZeroDivision Screened :=
  match library.findBucket accReq with
  | none => .ok (.rejected (.noMatchingBucket accReq))
  | some bucket => do
      match ← findInterval bucket bMbps with
      | none => return .rejected (.noMatchingInterval bMbps)
      | some interval =>
          let candidates := library.getCandidateProfiles interval
          if candidates = [] then
            return .rejected (.noCandidates bucket.bucketId interval.intervalId)
          else do
            let candidates ← filterBenefit bMbps candidates
            if candidates = [] then
              return .rejected (.noBenefit bMbps bucket.bucketId interval.intervalId)
            else return .kept bucket interval candidates

/-- The loop over the candidates. The first component is what it has divided by. -/
def predictLoop (residual : Profile → ℚ) (req : Request) (baseline : ℚ) :
    List Profile → List (String × Prediction) →
      List ℚ × Except ZeroDivision (List (String × Prediction))
  | [], predictions => ([], .ok predictions)
  | profile :: rest, predictions =>
      match predictLatency profile req.vBytes req.bMbps req.tModelMs with
      | .error e => ([], .error e)
      | .ok tHat =>
          let deltaBar := residual profile
          let tEff := tHat + deltaBar
          if req.withinSlo tEff then
            match pyDiv baseline tEff with
            | .error e => ([tEff], .error e)
            | .ok speedup =>
                let loop := predictLoop residual req baseline rest
                  (Assoc.set profile.profileId ⟨profile, tHat, tEff, deltaBar, speedup⟩ predictions)
                (tEff :: loop.1, loop.2)
          else predictLoop residual req baseline rest predictions

/-- The result of `select_profile`, the controller after it, and what it has divided by. -/
structure Outcome where
  controller : OnlineController
  divided : List ℚ
  result : Except ZeroDivision (Option Profile × Context)

namespace OnlineController

variable (c : OnlineController)

/-- The residual of a profile. -/
def residual (bucket : Bucket) (interval : Interval) (profile : Profile) : ℚ :=
  (c.bandit.getStats (bucket.bucketId, interval.intervalId, profile.profileId)).2

/-- `self.no_compression_count += 1` and the return. -/
def noCompression (divided : List ℚ) (reason : Reason) : Outcome :=
  ⟨{ c with noCompressionCount := c.noCompressionCount + 1 }, divided,
    .ok (none, .noCompression reason)⟩

/-- Step 6 of `select_profile`. -/
def choose (predictions : List (String × Prediction)) (choice : Choice) :
    ActionType × Option (String × Prediction) :=
  if choice.roll < c.epsilon then
    (.explore, predictions[choice.pick % predictions.length]?)
  else (.exploit, predictions.argmin (·.2.tEff))

/-- `self.explore_count += 1` or `self.exploit_count += 1`. -/
def count : ActionType → OnlineController
  | .explore => { c with exploreCount := c.exploreCount + 1 }
  | .exploit => { c with exploitCount := c.exploitCount + 1 }

/-- What follows the loop over the candidates in `select_profile`. -/
def conclude (req : Request) (choice : Choice) (bucket : Bucket) (interval : Interval)
    (candidates : List Profile) (baseline : ℚ)
    (loop : List ℚ × Except ZeroDivision (List (String × Prediction))) : Outcome :=
  match loop.2 with
  | .error e => ⟨c, loop.1, .error e⟩
  | .ok predictions =>
      match c.choose predictions choice with
      | (_, none) =>
          -- there are no predictions
          c.noCompression loop.1 (.sloViolation req.tSloMs bucket.bucketId interval.intervalId
            (candidates.map (·.profileId)))
      | (action, some (selectedId, p)) =>
          ⟨c.count action, loop.1, .ok (some p.profile, .decision
            { bucketId := bucket.bucketId, intervalId := interval.intervalId,
              profileId := selectedId, tHat := p.tHat, tEff := p.tEff, deltaBar := p.deltaBar,
              speedupPredicted := p.speedup, action, numCandidates := candidates.length,
              baselineLatency := baseline, request := req })⟩

/-- `select_profile`. -/
def selectProfile (req : Request) (choice : Choice) : Outcome :=
  let c := { c with totalDecisions := c.totalDecisions + 1 }
  match c.library.screen req.accReq req.bMbps with
  | .error e => ⟨c, [], .error e⟩
  | .ok (.rejected reason) => c.noCompression [] reason
  | .ok (.kept bucket interval candidates) =>
      match predictBaselineLatency req.vBytes req.bMbps req.tModelMs with
      | .error e => ⟨c, [], .error e⟩
      | .ok baseline =>
          c.conclude req choice bucket interval candidates baseline
            (predictLoop (c.residual bucket interval) req baseline candidates [])

/-- `update`. -/
def update (context : Context) (tObsMs : ℚ) : OnlineController :=
  match context with
  | .noCompression _ => c
  | .decision d =>
      { c with bandit := c.bandit.update (d.bucketId, d.intervalId, d.profileId) (tObsMs - d.tHat) }

end OnlineController

end KVServe.Controller
