import KVServe.Controller.Selection
import Mathlib.Algebra.Order.BigOperators.Group.List

/-!
# KVServe.Controller.Requirement

The accuracy requirement of a call. It chooses the bucket and is not looked at again: every
candidate of the bucket that passes the benefit test is **returned by some call**, whatever its
accuracy is. So a requirement is met at or below the lower end of its bucket, and behind the upper
end only where the bucket is of no use at any bandwidth.
-/

namespace KVServe.Controller

variable {library : ProfileLibrary} {bucket : Bucket} {interval : Interval} {kept : List Profile}
  {p q : Profile} {accReq bMbps : ℚ}

/-- A library as it is profiled: disjoint ranges, and every profile in the range of its bucket. -/
structure ProfileLibrary.Profiled (library : ProfileLibrary) : Prop where
  disjoint : library.accuracyBuckets.Pairwise fun b b' =>
    b.accUpper ≤ b'.accLower ∨ b'.accUpper ≤ b.accLower
  inRange : ∀ b ∈ library.accuracyBuckets, ∀ p ∈ b.paretoProfiles,
    b.accLower ≤ p.accuracy ∧ p.accuracy < b.accUpper

/-- The requirement of a call: no profile below it is returned, and none at all if every profile
of the library is below it. -/
def MeetsRequirement (library : ProfileLibrary) (accReq : ℚ) : Prop :=
  ∀ (c : OnlineController) (req : Request) (choice : Choice) (profile? : Option Profile)
    (context : Context), c.library = library → req.Valid → req.accReq = accReq →
    (c.selectProfile req choice).result = .ok (profile?, context) →
    (∀ p, profile? = some p → accReq ≤ p.accuracy) ∧
      ((∀ b ∈ library.accuracyBuckets, ∀ p ∈ b.paretoProfiles, p.accuracy < accReq) →
        profile? = none)

/-! ### Ranges -/

/-- The requirement lies in the range of the bucket. -/
def Bucket.Contains (b : Bucket) (accReq : ℚ) : Prop := b.accLower ≤ accReq ∧ accReq < b.accUpper

instance (b : Bucket) (accReq : ℚ) : Decidable (b.Contains accReq) :=
  inferInstanceAs (Decidable (_ ∧ _))

/-- The distance of a requirement to the closer end of a range. -/
def Bucket.gap (b : Bucket) (accReq : ℚ) : ℚ := min |b.accLower - accReq| |b.accUpper - accReq|

/-- A requirement belongs to the first range that it lies in. Outside all ranges it belongs to the
one with the nearest end, the first of several. -/
def ProfileLibrary.Assigns (library : ProfileLibrary) (accReq : ℚ) (b : Bucket) : Prop :=
  ∃ before after, library.accuracyBuckets = before ++ b :: after ∧
    ((b.Contains accReq ∧ ∀ c ∈ before, ¬ c.Contains accReq) ∨
      ((∀ c ∈ library.accuracyBuckets, ¬ c.Contains accReq) ∧
        (∀ c ∈ before, b.gap accReq < c.gap accReq) ∧ ∀ c ∈ after, b.gap accReq ≤ c.gap accReq))

/-- A bandwidth is served by the first interval that its inverse lies in, else by the last one. -/
def Bucket.Serves (b : Bucket) (bMbps : ℚ) (i : Interval) : Prop :=
  (∃ before after, b.bandwidthIntervals = before ++ i :: after ∧ i.Contains (1 / bMbps) ∧
      ∀ c ∈ before, ¬ c.Contains (1 / bMbps)) ∨
    ((∀ c ∈ b.bandwidthIntervals, ¬ c.Contains (1 / bMbps)) ∧
      ∃ before, b.bandwidthIntervals = before ++ [i])

/-- A profile that an interval names, the last one of its id. -/
def ProfileLibrary.Candidate (library : ProfileLibrary) (i : Interval) (p : Profile) : Prop :=
  p.profileId ∈ i.candidateProfileIds ∧
    ∃ before after, library.accuracyBuckets.flatMap (·.paretoProfiles) = before ++ p :: after ∧
      ∀ q ∈ after, q.profileId ≠ p.profileId

/-- At some bandwidth the bucket has the profile to offer, and it is faster than no compression.
With a ratio of zero among the candidates nothing is returned. -/
def ProfileLibrary.Useful (library : ProfileLibrary) (b : Bucket) (p : Profile) : Prop :=
  ∃ bMbps i, 0 < bMbps ∧ b.Serves bMbps i ∧ library.Candidate i p ∧
    (∀ q, library.Candidate i q → q.compressionRatio ≠ 0) ∧
    bMbps < (1 - 1 / p.compressionRatio) * p.harmonicSpeed

/-- The bucket that a requirement belongs to has nothing useful below it. -/
def ProfileLibrary.Covers (library : ProfileLibrary) (accReq : ℚ) : Prop :=
  ∀ b p, library.Assigns accReq b → library.Useful b p → accReq ≤ p.accuracy

/-- The intervals of a bucket name profiles of the bucket. -/
def ProfileLibrary.OwnCandidates (library : ProfileLibrary) : Prop :=
  ∀ b ∈ library.accuracyBuckets, ∀ i ∈ b.bandwidthIntervals, ∀ p, library.Candidate i p →
    p ∈ b.paretoProfiles

/-- The smallest element, the first of several. -/
theorem argmin_iff {α : Type} [DecidableEq α] {f : α → ℚ} {l : List α} {m : α} :
    l.argmin f = some m ↔ ∃ before after, l = before ++ m :: after ∧
      (∀ c ∈ before, f m < f c) ∧ ∀ c ∈ after, f m ≤ f c := by
  rw [List.argmin_eq_some_iff]
  constructor
  · rintro ⟨hmem, hle, hfirst⟩
    obtain ⟨before, after, rfl, hnot⟩ := List.eq_append_cons_of_mem hmem
    refine ⟨before, after, rfl, fun c hc => ?_, fun c hc => hle c (by simp [hc])⟩
    by_contra hge
    have hindex := hfirst c (List.mem_append_left _ hc) (not_lt.mp hge)
    rw [List.idxOf_append_of_notMem hnot, List.idxOf_append_of_mem hc] at hindex
    have := List.idxOf_lt_length_iff.mpr hc
    omega
  · rintro ⟨before, after, rfl, hbefore, hafter⟩
    have hnot : m ∉ before := fun hm => lt_irrefl _ (hbefore m hm)
    refine ⟨by simp, fun c hc => ?_, fun c hc hcm => ?_⟩
    · rcases List.mem_append.mp hc with hc | hc
      · exact (hbefore c hc).le
      · rcases List.mem_cons.mp hc with rfl | hc
        · exact le_rfl
        · exact hafter c hc
    · have hc' : c ∉ before := fun hcb => absurd hcm (not_le.mpr (hbefore c hcb))
      rw [List.idxOf_append_of_notMem hnot, List.idxOf_append_of_notMem hc', List.idxOf_cons_self]
      omega

/-- **`find_bucket`** gives the bucket that a requirement belongs to. -/
theorem findBucket_iff {b : Bucket} :
    library.findBucket accReq = some b ↔ library.Assigns accReq b := by
  rw [ProfileLibrary.findBucket]
  split
  · next found hfound =>
      obtain ⟨hcontains, before, after, heq, hbefore⟩ := List.find?_eq_some_iff_append.mp hfound
      have hcontains : found.Contains accReq := of_decide_eq_true hcontains
      have hbefore : ∀ c ∈ before, ¬ c.Contains accReq := fun c hc =>
        of_decide_eq_false ((Bool.not_eq_true' _).mp (hbefore c hc))
      constructor
      · intro h
        obtain rfl := Option.some.inj h
        exact ⟨before, after, heq, .inl ⟨hcontains, hbefore⟩⟩
      · rintro ⟨before', after', heq', ⟨hb, hbefore'⟩ | ⟨hnone, -⟩⟩
        · have hfind : library.accuracyBuckets.find?
              (fun b => b.accLower ≤ accReq ∧ accReq < b.accUpper) = some b :=
            List.find?_eq_some_iff_append.mpr ⟨decide_eq_true hb, before', after', heq',
              fun c hc => (Bool.not_eq_true' _).mpr (decide_eq_false (hbefore' c hc))⟩
          exact hfound.symm.trans hfind
        · exact absurd hcontains (hnone found (heq ▸ by simp))
  · next hnone =>
      have hnone : ∀ c ∈ library.accuracyBuckets, ¬ c.Contains accReq := fun c hc hcontains =>
        List.find?_eq_none.mp hnone c hc (decide_eq_true hcontains)
      rw [argmin_iff]
      constructor
      · rintro ⟨before, after, heq, hnear⟩
        exact ⟨before, after, heq, .inr ⟨hnone, hnear⟩⟩
      · rintro ⟨before, after, heq, ⟨hb, -⟩ | ⟨-, hnear⟩⟩
        · exact absurd hb (hnone b (heq ▸ by simp))
        · exact ⟨before, after, heq, hnear⟩

/-- **`find_interval`** gives the interval that serves a bandwidth. -/
theorem findInterval_iff (hB : 0 < bMbps) :
    findInterval bucket bMbps = .ok (some interval) ↔ bucket.Serves bMbps interval := by
  rw [findInterval_eq hB, Except.ok.injEq, Option.or_eq_some_iff, List.find?_eq_some_iff_append,
    List.find?_eq_none, List.getLast?_eq_some_iff]
  simp only [Bucket.Serves, decide_eq_true_eq, Bool.not_eq_true', decide_eq_false_iff_not]
  refine or_congr ⟨?_, ?_⟩ Iff.rfl
  · rintro ⟨hcontains, before, after, heq, hbefore⟩
    exact ⟨before, after, heq, hcontains, hbefore⟩
  · rintro ⟨before, after, heq, hcontains, hbefore⟩
    exact ⟨hcontains, before, after, heq, hbefore⟩

/-! ### Candidates -/

theorem getProfile_iff {profileId : String} : library.getProfile profileId = some p ↔
    p.profileId = profileId ∧
      ∃ before after, library.accuracyBuckets.flatMap (·.paretoProfiles) = before ++ p :: after ∧
        ∀ q ∈ after, q.profileId ≠ p.profileId := by
  rw [ProfileLibrary.getProfile, ProfileLibrary.profileMap, Assoc.get_ofItems]
  constructor
  · rintro ⟨before, after, hitems, hafter⟩
    obtain ⟨before, rest, heq, rfl, hrest⟩ := List.map_eq_append_iff.mp hitems
    obtain ⟨q, after, rfl, hq, rfl⟩ := List.map_eq_cons_iff.mp hrest
    obtain ⟨rfl, rfl⟩ := Prod.mk.inj hq
    exact ⟨rfl, before, after, heq, fun r hr => hafter _ (List.mem_map_of_mem hr)⟩
  · rintro ⟨rfl, before, after, heq, hafter⟩
    refine ⟨_, _, by rw [heq, List.map_append, List.map_cons], fun e he => ?_⟩
    obtain ⟨q, hq, rfl⟩ := List.mem_map.mp he
    exact hafter q hq

/-- **`get_candidate_profiles`** gives the candidates of the interval. -/
theorem mem_getCandidateProfiles :
    p ∈ library.getCandidateProfiles interval ↔ library.Candidate interval p := by
  rw [ProfileLibrary.getCandidateProfiles, List.mem_filterMap]
  constructor
  · rintro ⟨profileId, hmem, hget⟩
    obtain ⟨rfl, hlast⟩ := getProfile_iff.mp hget
    exact ⟨hmem, hlast⟩
  · rintro ⟨hmem, hlast⟩
    exact ⟨p.profileId, hmem, getProfile_iff.mpr ⟨rfl, hlast⟩⟩

/-- Candidates are told apart by their ids. -/
theorem candidate_ext (hp : p ∈ library.getCandidateProfiles interval)
    (hq : q ∈ library.getCandidateProfiles interval) (h : q.profileId = p.profileId) : q = p := by
  have hget := getProfile_iff.mpr ⟨h, (mem_getCandidateProfiles.mp hq).2⟩
  rw [getProfile_iff.mpr ⟨rfl, (mem_getCandidateProfiles.mp hp).2⟩] at hget
  exact (Option.some.inj hget).symm

/-! ### A call for every candidate -/

/-- A call that waits long enough for every prediction to be positive. -/
def patientRequest (kept : List Profile) (bMbps accReq : ℚ) : Request where
  vBytes := 1
  bMbps := bMbps
  tModelMs := 1 + (kept.map fun p => |megabytes 1 * unitCost p bMbps|).sum
  tSloMs := none
  accReq := accReq

theorem patientRequest_valid (hB : 0 < bMbps) : (patientRequest kept bMbps accReq).Valid := by
  refine ⟨one_pos, hB, ?_⟩
  have hsum : 0 ≤ (kept.map fun p => |megabytes 1 * unitCost p bMbps|).sum := by
    apply List.sum_nonneg
    intro x hx
    obtain ⟨q, -, rfl⟩ := List.mem_map.mp hx
    exact abs_nonneg _
  show 0 ≤ 1 + _
  linarith

theorem effective_patientRequest (hp : p ∈ kept) :
    0 < effective (fun _ => 0) (patientRequest kept bMbps accReq) p := by
  have hle : |megabytes 1 * unitCost p bMbps| ≤
      (kept.map fun p => |megabytes 1 * unitCost p bMbps|).sum := by
    apply List.single_le_sum
    · intro x hx
      obtain ⟨q, -, rfl⟩ := List.mem_map.mp hx
      exact abs_nonneg _
    · exact List.mem_map_of_mem hp
  have hneg := neg_abs_le (megabytes 1 * unitCost p bMbps)
  show 0 < 1 + _ + megabytes 1 * unitCost p bMbps + 0
  linarith

theorem conclude_explore {c : OnlineController} {req : Request} {choice : Choice} {baseline : ℚ}
    {loop : List ℚ × Except ZeroDivision (List (String × Prediction))}
    {predictions : List (String × Prediction)} {e : String × Prediction}
    (hroll : choice.roll < c.epsilon) (hloop : loop.2 = .ok predictions)
    (hpick : predictions[choice.pick % predictions.length]? = some e) :
    ∃ context, (c.conclude req choice bucket interval kept baseline loop).result =
      .ok (some e.2.profile, context) := by
  have hchoose : c.choose predictions choice = (.explore, some e) := by
    rw [OnlineController.choose, if_pos hroll, hpick]
  unfold OnlineController.conclude
  simp only [hloop, hchoose]
  exact ⟨_, rfl⟩

/-- **Every candidate** that passes the benefit test is returned by some call. -/
theorem exists_selected (hB : 0 < bMbps) (hoffers : library.Offers accReq bMbps bucket interval)
    (hkept : filterBenefit bMbps (library.getCandidateProfiles interval) = .ok kept)
    (hp : p ∈ kept) :
    ∃ (c : OnlineController) (req : Request) (choice : Choice) (context : Context),
      c.library = library ∧ req.Valid ∧ req.accReq = accReq ∧
        (c.selectProfile req choice).result = .ok (some p, context) := by
  let c : OnlineController :=
    { library := library, epsilon := 1 / 2, bandit := { alpha := 1 / 5 } }
  obtain ⟨req, hreq⟩ : ∃ req, req = patientRequest kept bMbps accReq := ⟨_, rfl⟩
  have hbMbps : req.bMbps = bMbps := by rw [hreq]; rfl
  have haccReq : req.accReq = accReq := by rw [hreq]; rfl
  have hslo : ∀ t, req.withinSlo t = true := fun t => by rw [hreq]; rfl
  subst hbMbps haccReq
  have hscreen : library.screen req.accReq req.bMbps = .ok (.kept bucket interval kept) :=
    screen_eq_kept.mpr ⟨hoffers, List.ne_nil_of_mem hp, hkept⟩
  have hspeed : ∀ q ∈ kept, q.harmonicSpeed ≠ 0 := fun q hq =>
    (mem_filterBenefit hB hkept hq).2.2.1
  have hpositive : ∀ q ∈ kept, effective (fun _ => 0) req q ≠ 0 := fun q hq =>
    hreq ▸ (effective_patientRequest hq).ne'
  obtain ⟨predictions, hloop⟩ := @exists_predictions req (baselineOf req) kept (fun _ => 0) []
    hB hspeed fun q hq _ => hpositive q hq
  obtain ⟨hentries, hids⟩ := predictions_spec hB hspeed hloop
  -- the entry of the profile, and its place among the predictions
  obtain ⟨e, he, hid⟩ := List.mem_map.mp ((hids p.profileId).mpr (Or.inr ⟨p, hp, hslo _, rfl⟩))
  obtain ⟨q, hq, rfl⟩ := (hentries e he).resolve_left List.not_mem_nil
  obtain rfl : q = p := candidate_ext (mem_filterBenefit hB hkept hp).1
    (mem_filterBenefit hB hkept hq).1 hid
  obtain ⟨pick, hpick⟩ := List.mem_iff_getElem?.mp he
  have hlt : pick < predictions.length := (List.getElem?_eq_some_iff.mp hpick).1
  have hroll : (0 : ℚ) < 1 / 2 := by norm_num
  obtain ⟨context, hresult⟩ := @conclude_explore bucket interval kept
    { c with totalDecisions := c.totalDecisions + 1 } req ⟨0, pick⟩ (baselineOf req) _ _ _ hroll
    hloop (by rw [Nat.mod_eq_of_lt hlt]; exact hpick)
  refine ⟨c, req, ⟨0, pick⟩, context, rfl, hreq ▸ patientRequest_valid hB, rfl, ?_⟩
  rw [selectProfile_of_kept hB hscreen]
  exact hresult

/-! ### The requirement -/

/-- A useful profile is returned by some call. -/
theorem MeetsRequirement.le (h : MeetsRequirement library accReq)
    (hbucket : library.Assigns accReq bucket) (huseful : library.Useful bucket p) :
    accReq ≤ p.accuracy := by
  obtain ⟨bMbps, i, hB, hserves, hp, hratio, hbenefit⟩ := huseful
  have hoffers : library.Offers accReq bMbps bucket i :=
    ⟨findBucket_iff.mpr hbucket, (findInterval_iff hB).mpr hserves⟩
  have hkept := @filterBenefit_eq (library.getCandidateProfiles i) bMbps
    fun q hq => hratio q (mem_getCandidateProfiles.mp hq)
  obtain ⟨c, req, choice, context, hlibrary, hvalid, hreq, hresult⟩ :=
    exists_selected hB hoffers hkept
      (List.mem_filter.mpr ⟨mem_getCandidateProfiles.mpr hp, decide_eq_true hbenefit⟩)
  exact (h c req choice (some p) context hlibrary hvalid hreq hresult).1 p rfl

theorem ProfileLibrary.Assigns.mem (h : library.Assigns accReq bucket) :
    bucket ∈ library.accuracyBuckets := by
  obtain ⟨before, after, heq, -⟩ := h
  exact heq ▸ by simp

/-- A requirement belongs to one bucket. -/
theorem ProfileLibrary.Assigns.unique {b : Bucket} (h : library.Assigns accReq bucket)
    (h' : library.Assigns accReq b) : bucket = b :=
  Option.some.inj ((findBucket_iff.mpr h).symm.trans (findBucket_iff.mpr h'))

/-- What is useful in a bucket is in its range. -/
theorem ProfileLibrary.Profiled.accuracy (h : library.Profiled) (hown : library.OwnCandidates)
    (hbucket : bucket ∈ library.accuracyBuckets) (huseful : library.Useful bucket p) :
    bucket.accLower ≤ p.accuracy ∧ p.accuracy < bucket.accUpper := by
  obtain ⟨bMbps, i, -, hserves, hp, -, -⟩ := huseful
  have hi : i ∈ bucket.bandwidthIntervals := by
    rcases hserves with ⟨before, after, heq, -, -⟩ | ⟨-, before, heq⟩
    · exact heq ▸ by simp
    · exact heq ▸ by simp
  exact h.inRange bucket hbucket p (hown bucket hbucket i hi p hp)

end KVServe.Controller
