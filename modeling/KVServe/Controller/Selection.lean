import KVServe.Controller.OnlineController

/-!
# KVServe.Controller.Selection

What `select_profile` can return: a candidate that passed the benefit test, of the interval of
the bandwidth in the bucket of the requirement. The requirement itself is **not checked again**
for the candidates of the bucket.
-/

namespace KVServe.Controller

variable {library : ProfileLibrary} {req : Request} {choice : Choice} {baseline : ℚ}
  {candidates : List Profile} {residual : Profile → ℚ} {p : Profile} {bucket : Bucket}
  {interval : Interval} {accReq bMbps : ℚ} {predictions predictions' : List (String × Prediction)}

/-! ### Screening -/

theorem exists_findBucket (library : ProfileLibrary) (accReq : ℚ) :
    ∃ bucket, library.findBucket accReq = some bucket := by
  unfold ProfileLibrary.findBucket
  split
  · next b _ => exact ⟨b, rfl⟩
  · cases h : library.accuracyBuckets.argmin (ProfileLibrary.accDistance accReq) with
    | none => exact absurd (List.argmin_eq_none.mp h) library.nonempty
    | some b => exact ⟨b, rfl⟩

/-- The bucket and the interval that a request is given. -/
def ProfileLibrary.Offers (library : ProfileLibrary) (accReq bMbps : ℚ) (bucket : Bucket)
    (interval : Interval) : Prop :=
  library.findBucket accReq = some bucket ∧ findInterval bucket bMbps = .ok (some interval)

/-- The candidates that pass the benefit test. -/
theorem screen_of_offers (h : library.Offers accReq bMbps bucket interval) :
    library.screen accReq bMbps =
      if library.getCandidateProfiles interval = [] then
        .ok (.rejected (.noCandidates bucket.bucketId interval.intervalId))
      else do
        let kept ← filterBenefit bMbps (library.getCandidateProfiles interval)
        if kept = [] then
          return .rejected (.noBenefit bMbps bucket.bucketId interval.intervalId)
        else return .kept bucket interval kept := by
  obtain ⟨hbucket, hinterval⟩ := h
  rw [ProfileLibrary.screen, hbucket]
  simp only [hinterval]
  rfl

/-- Without an interval nothing is divided by. -/
theorem screen_of_no_interval (hbucket : library.findBucket accReq = some bucket)
    (hinterval : findInterval bucket bMbps = .ok none) :
    library.screen accReq bMbps = .ok (.rejected (.noMatchingInterval bMbps)) := by
  rw [ProfileLibrary.screen, hbucket]
  simp only [hinterval]
  rfl

/-- The test fails for a ratio of zero, and for nothing else. -/
theorem filterBenefit_ok_iff : (∃ kept, filterBenefit bMbps candidates = .ok kept) ↔
    ∀ p ∈ candidates, p.compressionRatio ≠ 0 := by
  constructor
  · rintro ⟨kept, h⟩
    induction candidates generalizing kept with
    | nil => simp
    | cons q rest ih =>
        rw [filterBenefit, checkBenefit] at h
        by_cases hratio : q.compressionRatio = 0
        · rw [pyDiv, if_pos hratio] at h
          cases h
        · rw [pyDiv_of_ne hratio] at h
          cases hrest : filterBenefit bMbps rest with
          | error e =>
              rw [hrest] at h
              cases h
          | ok kept' => exact List.forall_mem_cons.mpr ⟨hratio, ih kept' hrest⟩
  · intro h
    exact ⟨_, filterBenefit_eq h⟩

/-- Tier 1 fails for nothing else either. -/
theorem exists_screened (hB : 0 < bMbps)
    (h : ∀ bucket interval, library.Offers accReq bMbps bucket interval →
      ∀ p ∈ library.getCandidateProfiles interval, p.compressionRatio ≠ 0) :
    ∃ screened, library.screen accReq bMbps = .ok screened := by
  obtain ⟨bucket, hbucket⟩ := exists_findBucket library accReq
  have hfound := @findInterval_eq bucket bMbps hB
  cases hinterval : (bucket.bandwidthIntervals.find? fun i => i.Contains (1 / bMbps)).or
      bucket.bandwidthIntervals.getLast? with
  | none =>
      rw [hinterval] at hfound
      exact ⟨_, screen_of_no_interval hbucket hfound⟩
  | some interval =>
      rw [hinterval] at hfound
      obtain ⟨kept, hkept⟩ := filterBenefit_ok_iff.mpr (h bucket interval ⟨hbucket, hfound⟩)
      rw [screen_of_offers ⟨hbucket, hfound⟩, hkept]
      split
      · exact ⟨_, rfl⟩
      · show ∃ screened, (if kept = [] then _ else _) = Except.ok screened
        split
        · exact ⟨_, rfl⟩
        · exact ⟨_, rfl⟩

/-- What tier 1 keeps. -/
theorem screen_eq_kept :
    library.screen accReq bMbps = .ok (.kept bucket interval candidates) ↔
      library.Offers accReq bMbps bucket interval ∧ candidates ≠ [] ∧
        filterBenefit bMbps (library.getCandidateProfiles interval) = .ok candidates := by
  constructor
  · intro h
    obtain ⟨bucket', hbucket⟩ := exists_findBucket library accReq
    cases hinterval : findInterval bucket' bMbps with
    | error e =>
        rw [ProfileLibrary.screen, hbucket] at h
        simp only [hinterval] at h
        cases h
    | ok interval? =>
        cases interval? with
        | none =>
            rw [screen_of_no_interval hbucket hinterval] at h
            cases h
        | some interval' =>
            rw [screen_of_offers ⟨hbucket, hinterval⟩] at h
            split at h
            · cases h
            · cases hkept : filterBenefit bMbps (library.getCandidateProfiles interval') with
              | error e =>
                  rw [hkept] at h
                  cases h
              | ok kept =>
                  rw [hkept] at h
                  simp only [bind, Except.bind] at h
                  split at h
                  · cases h
                  · next hne =>
                      cases h
                      exact ⟨⟨hbucket, hinterval⟩, hne, hkept⟩
  · rintro ⟨hoffers, hne, hkept⟩
    have hcandidates : library.getCandidateProfiles interval ≠ [] := by
      intro hnil
      rw [hnil] at hkept
      exact hne (Except.ok.inj hkept).symm
    rw [screen_of_offers hoffers, if_neg hcandidates, hkept]
    show (if candidates = [] then _ else _) = _
    rw [if_neg hne]
    rfl

/-- A profile that passes has a ratio and a speed. -/
theorem mem_filterBenefit (hB : 0 < bMbps) {kept : List Profile}
    (h : filterBenefit bMbps candidates = .ok kept) (hp : p ∈ kept) :
    p ∈ candidates ∧ p.compressionRatio ≠ 0 ∧ p.harmonicSpeed ≠ 0 ∧
      bMbps < (1 - 1 / p.compressionRatio) * p.harmonicSpeed := by
  have hratio := filterBenefit_ok_iff.mp ⟨kept, h⟩
  rw [filterBenefit_eq hratio] at h
  obtain rfl := Except.ok.inj h
  obtain ⟨hmem, hbenefit⟩ := List.mem_filter.mp hp
  have hbenefit := of_decide_eq_true hbenefit
  refine ⟨hmem, hratio p hmem, fun hspeed => ?_, hbenefit⟩
  rw [hspeed, mul_zero] at hbenefit
  exact absurd hB hbenefit.not_gt

/-! ### Predictions -/

/-- The latency without compression. -/
def baselineOf (req : Request) : ℚ := req.tModelMs + megabytes req.vBytes * (1000 / req.bMbps)

/-- The corrected latency of a profile. -/
def effective (residual : Profile → ℚ) (req : Request) (p : Profile) : ℚ :=
  req.tModelMs + megabytes req.vBytes * unitCost p req.bMbps + residual p

/-- The entry of a profile. -/
def predictionOf (residual : Profile → ℚ) (req : Request) (baseline : ℚ) (p : Profile) :
    Prediction :=
  ⟨p, req.tModelMs + megabytes req.vBytes * unitCost p req.bMbps, effective residual req p,
    residual p, baseline / effective residual req p⟩

/-- One pass of the loop. -/
theorem predictLoop_cons {rest : List Profile} (hB : 0 < req.bMbps) (hspeed : p.harmonicSpeed ≠ 0) :
    predictLoop residual req baseline (p :: rest) predictions =
      if req.withinSlo (effective residual req p) then
        if effective residual req p = 0 then ([effective residual req p], .error .raised)
        else
          let loop := predictLoop residual req baseline rest
            (Assoc.set p.profileId (predictionOf residual req baseline p) predictions)
          (effective residual req p :: loop.1, loop.2)
      else predictLoop residual req baseline rest predictions := by
  rw [predictLoop, predictLatency_eq hspeed hB.ne']
  simp only [← effective.eq_def, pyDiv]
  by_cases hslo : req.withinSlo (effective residual req p) = true
  · rw [if_pos hslo, if_pos hslo]
    by_cases hzero : effective residual req p = 0
    · rw [if_pos hzero, if_pos hzero]
    · rw [if_neg hzero, if_neg hzero]
      rfl
  · rw [if_neg hslo, if_neg hslo]

section Loop

variable (hB : 0 < req.bMbps) (hspeed : ∀ p ∈ candidates, p.harmonicSpeed ≠ 0)

include hB hspeed

/-- The loop divides by corrected latencies within the limit. -/
theorem mem_divided {t : ℚ}
    (h : t ∈ (predictLoop residual req baseline candidates predictions).1) :
    ∃ p ∈ candidates, req.withinSlo t = true ∧ t = effective residual req p := by
  induction candidates generalizing predictions with
  | nil => cases h
  | cons p rest ih =>
      have hrest := fun q hq => hspeed q (List.mem_cons_of_mem p hq)
      rw [predictLoop_cons hB (hspeed p List.mem_cons_self)] at h
      split at h
      · next hslo =>
          split at h
          · obtain rfl := List.mem_singleton.mp h
            exact ⟨p, List.mem_cons_self, hslo, rfl⟩
          · rcases List.mem_cons.mp h with rfl | h
            · exact ⟨p, List.mem_cons_self, hslo, rfl⟩
            · obtain ⟨q, hq, heq⟩ := ih hrest h
              exact ⟨q, List.mem_cons_of_mem p hq, heq⟩
      · obtain ⟨q, hq, heq⟩ := ih hrest h
        exact ⟨q, List.mem_cons_of_mem p hq, heq⟩

/-- The loop divides by all of them, unless one is zero. -/
theorem effective_mem_divided (hp : p ∈ candidates)
    (hslo : req.withinSlo (effective residual req p) = true) :
    effective residual req p ∈ (predictLoop residual req baseline candidates predictions).1 ∨
      0 ∈ (predictLoop residual req baseline candidates predictions).1 := by
  induction candidates generalizing predictions with
  | nil => cases hp
  | cons q rest ih =>
      have hrest := fun r hr => hspeed r (List.mem_cons_of_mem q hr)
      rw [predictLoop_cons hB (hspeed q List.mem_cons_self)]
      rcases List.mem_cons.mp hp with rfl | hp
      · rw [if_pos hslo]
        split
        · exact Or.inl List.mem_cons_self
        · exact Or.inl List.mem_cons_self
      · split
        · split
          · next hzero => exact Or.inr (hzero ▸ List.mem_cons_self)
          · exact (ih hrest hp).imp (List.mem_cons_of_mem _) (List.mem_cons_of_mem _)
        · exact ih hrest hp

/-- The loop ends when none of them is zero. -/
theorem exists_predictions
    (h : ∀ p ∈ candidates, req.withinSlo (effective residual req p) = true →
      effective residual req p ≠ 0) :
    ∃ predictions', (predictLoop residual req baseline candidates predictions).2 =
      .ok predictions' := by
  induction candidates generalizing predictions with
  | nil => exact ⟨predictions, rfl⟩
  | cons p rest ih =>
      have hspeeds := fun q hq => hspeed q (List.mem_cons_of_mem p hq)
      have hrest := fun q hq => h q (List.mem_cons_of_mem p hq)
      rw [predictLoop_cons hB (hspeed p List.mem_cons_self)]
      split
      · next hslo =>
          rw [if_neg (h p List.mem_cons_self hslo)]
          exact ih hspeeds hrest
      · exact ih hspeeds hrest

/-- What is predicted: the candidates within the limit, by their ids. -/
theorem predictions_spec
    (h : (predictLoop residual req baseline candidates predictions).2 = .ok predictions') :
    (∀ e ∈ predictions', e ∈ predictions ∨
      ∃ p ∈ candidates, e = (p.profileId, predictionOf residual req baseline p)) ∧
    ∀ id, id ∈ predictions'.map Prod.fst ↔ id ∈ predictions.map Prod.fst ∨
      ∃ p ∈ candidates, req.withinSlo (effective residual req p) = true ∧ p.profileId = id := by
  induction candidates generalizing predictions with
  | nil =>
      obtain rfl := Except.ok.inj h
      simp
  | cons p rest ih =>
      have hspeeds := fun q hq => hspeed q (List.mem_cons_of_mem p hq)
      rw [predictLoop_cons hB (hspeed p List.mem_cons_self)] at h
      split at h
      · next hslo =>
          split at h
          · cases h
          · obtain ⟨hmem, hkeys⟩ := ih hspeeds h
            constructor
            · intro e he
              rcases hmem e he with he | ⟨q, hq, rfl⟩
              · rcases Assoc.mem_set he with rfl | he
                · exact Or.inr ⟨p, List.mem_cons_self, rfl⟩
                · exact Or.inl he
              · exact Or.inr ⟨q, List.mem_cons_of_mem p hq, rfl⟩
            · intro id
              rw [hkeys, Assoc.mem_keys_set, List.exists_mem_cons_iff]
              simp only [hslo, true_and, eq_comm, or_assoc, or_left_comm]
      · next hslo =>
          obtain ⟨hmem, hkeys⟩ := ih hspeeds h
          constructor
          · intro e he
            rcases hmem e he with he | ⟨q, hq, rfl⟩
            · exact Or.inl he
            · exact Or.inr ⟨q, List.mem_cons_of_mem p hq, rfl⟩
          · intro id
            rw [hkeys, List.exists_mem_cons_iff]
            simp [hslo]

end Loop

/-! ### The choice -/

section Choice

variable {c : OnlineController}

theorem choose_none {action : ActionType} (h : c.choose predictions choice = (action, none)) :
    predictions = [] := by
  unfold OnlineController.choose at h
  split at h
  · have hlength := List.getElem?_eq_none_iff.mp (Prod.mk.inj h).2
    by_contra hne
    exact absurd (Nat.mod_lt choice.pick (List.length_pos_of_ne_nil hne)) (Nat.not_lt.mpr hlength)
  · exact List.argmin_eq_none.mp (Prod.mk.inj h).2

theorem choose_some {action : ActionType} {e : String × Prediction}
    (h : c.choose predictions choice = (action, some e)) : e ∈ predictions := by
  unfold OnlineController.choose at h
  split at h
  · exact List.mem_of_getElem? (Prod.mk.inj h).2
  · exact List.argmin_mem (Prod.mk.inj h).2

/-- How `select_profile` ends. -/
theorem OnlineController.conclude_cases (c : OnlineController) (req : Request) (choice : Choice) (bucket : Bucket)
    (interval : Interval) (candidates : List Profile) (baseline : ℚ)
    (loop : List ℚ × Except ZeroDivision (List (String × Prediction))) :
    (∃ e, loop.2 = .error e ∧
      c.conclude req choice bucket interval candidates baseline loop = ⟨c, loop.1, .error e⟩) ∨
    (loop.2 = .ok [] ∧ ∃ reason,
      c.conclude req choice bucket interval candidates baseline loop =
        c.noCompression loop.1 reason) ∨
    ∃ predictions action e d, loop.2 = .ok predictions ∧
      c.choose predictions choice = (action, some e) ∧ e ∈ predictions ∧
      d.bucketId = bucket.bucketId ∧ d.intervalId = interval.intervalId ∧ d.profileId = e.1 ∧
      d.tHat = e.2.tHat ∧ c.conclude req choice bucket interval candidates baseline loop =
        ⟨c.count action, loop.1, .ok (some e.2.profile, .decision d)⟩ := by
  unfold OnlineController.conclude
  cases hloop : loop.2 with
  | error e => exact Or.inl ⟨e, rfl, rfl⟩
  | ok predictions =>
      refine Or.inr ?_
      cases hchoose : c.choose predictions choice with
      | mk action e? =>
          cases e? with
          | none =>
              obtain rfl := choose_none hchoose
              refine Or.inl ⟨rfl, .sloViolation req.tSloMs bucket.bucketId interval.intervalId
                (candidates.map (·.profileId)), ?_⟩
              simp only [hchoose]
          | some e =>
              obtain ⟨selectedId, q⟩ := e
              refine Or.inr ⟨predictions, action, (selectedId, q),
                { bucketId := bucket.bucketId, intervalId := interval.intervalId,
                  profileId := selectedId, tHat := q.tHat, tEff := q.tEff, deltaBar := q.deltaBar,
                  speedupPredicted := q.speedup, action, numCandidates := candidates.length,
                  baselineLatency := baseline, request := req },
                rfl, hchoose, choose_some hchoose, rfl, rfl, rfl, rfl, ?_⟩
              simp only [hchoose]

/-- What `select_profile` does with the candidates that are left. -/
theorem selectProfile_of_kept (hB : 0 < req.bMbps)
    (h : c.library.screen req.accReq req.bMbps = .ok (.kept bucket interval candidates)) :
    c.selectProfile req choice =
      OnlineController.conclude { c with totalDecisions := c.totalDecisions + 1 } req choice bucket
        interval candidates (baselineOf req)
        (predictLoop (c.residual bucket interval) req (baselineOf req) candidates []) := by
  unfold OnlineController.selectProfile
  simp only [h, predictBaselineLatency_eq hB.ne']
  rfl

/-- What is divided by is what the loop divides by. -/
theorem conclude_divided (c : OnlineController) {baseline : ℚ}
    {loop : List ℚ × Except ZeroDivision (List (String × Prediction))} :
    (c.conclude req choice bucket interval candidates baseline loop).divided = loop.1 := by
  rcases c.conclude_cases req choice bucket interval candidates baseline loop with
    ⟨e, -, heq⟩ | ⟨-, reason, heq⟩ | ⟨_, _, _, _, -, -, -, -, -, -, -, heq⟩
  · rw [heq]
  · rw [heq]
    rfl
  · rw [heq]

/-- What `select_profile` divides by. -/
theorem selectProfile_divided (hB : 0 < req.bMbps)
    (h : c.library.screen req.accReq req.bMbps = .ok (.kept bucket interval candidates)) :
    (c.selectProfile req choice).divided =
      (predictLoop (c.residual bucket interval) req (baselineOf req) candidates []).1 := by
  rw [selectProfile_of_kept hB h, conclude_divided]

end Choice

end KVServe.Controller
