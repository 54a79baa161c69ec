import Mathlib.Algebra.Order.Field.Basic
import Mathlib.Algebra.Order.Ring.Rat
import Mathlib.Tactic.FieldSimp
import Mathlib.Tactic.Linarith
import Mathlib.Tactic.Positivity
import Mathlib.Tactic.Ring

/-!
# KVServe.Controller.AnalyticalModel

`AnalyticalModel` over exact rationals. `predict_latency` takes the compression ratio for the
part of the volume that is left and `check_benefit` for its inverse: **no profile that passes the
test is predicted to be faster** than no compression.
-/

namespace KVServe.Controller

/-! ### Profiles -/

/-- `Profile`, with the metrics the controller reads. -/
structure Profile where
  profileId : String
  /-- `performance_metrics['compression_ratio']`. -/
  compressionRatio : ℚ
  /-- `performance_metrics['harmonic_speed_mbps']`. -/
  harmonicSpeed : ℚ
  /-- `quality_metrics['accuracy']`. -/
  accuracy : ℚ
  deriving DecidableEq, Repr

/-- `ZeroDivisionError`. -/
inductive ZeroDivision
  | raised
  deriving DecidableEq, Repr

/-- `a / b`. -/
def pyDiv (a b : ℚ) : Except ZeroDivision ℚ := if b = 0 then .error .raised else .ok (a / b)

theorem pyDiv_of_ne {a b : ℚ} (h : b ≠ 0) : pyDiv a b = .ok (a / b) := if_neg h

/-! ### The model -/

/-- `V_bytes / (1024 * 1024)`. -/
def megabytes (vBytes : ℚ) : ℚ := vBytes / (1024 * 1024)

/-- `predict_latency`. -/
def predictLatency (profile : Profile) (vBytes bMbps tModelMs : ℚ) : Except ZeroDivision ℚ := do
  let vMb := megabytes vBytes
  let codec ← pyDiv vMb profile.harmonicSpeed
  let transfer ← pyDiv (vMb * profile.compressionRatio) bMbps
  return tModelMs + codec * 1000 + transfer * 1000

/-- `predict_baseline_latency`. -/
def predictBaselineLatency (vBytes bMbps tModelMs : ℚ) : Except ZeroDivision ℚ := do
  let transfer ← pyDiv (megabytes vBytes) bMbps
  return tModelMs + transfer * 1000

/-- `check_benefit`. -/
def checkBenefit (profile : Profile) (bMbps : ℚ) : Except ZeroDivision Bool := do
  let inverse ← pyDiv 1 profile.compressionRatio
  return bMbps < (1 - inverse) * profile.harmonicSpeed

/-- The benefit filter of `select_profile`. -/
def filterBenefit (bMbps : ℚ) : List Profile → Except ZeroDivision (List Profile)
  | [] => .ok []
  | p :: rest => do
      let benefit ← checkBenefit p bMbps
      let kept ← filterBenefit bMbps rest
      return if benefit then p :: kept else kept

/-- The latency of a megabyte besides that of the model. -/
def unitCost (profile : Profile) (bMbps : ℚ) : ℚ :=
  (1 / profile.harmonicSpeed + profile.compressionRatio / bMbps) * 1000

section Model

variable {profile : Profile} {candidates kept : List Profile} {vBytes bMbps tModelMs : ℚ}

theorem predictLatency_eq (hspeed : profile.harmonicSpeed ≠ 0) (hB : bMbps ≠ 0) :
    predictLatency profile vBytes bMbps tModelMs =
      .ok (tModelMs + megabytes vBytes * unitCost profile bMbps) := by
  rw [predictLatency, pyDiv_of_ne hspeed, pyDiv_of_ne hB]
  refine congrArg Except.ok ?_
  simp only [unitCost]
  ring

theorem predictBaselineLatency_eq (hB : bMbps ≠ 0) :
    predictBaselineLatency vBytes bMbps tModelMs =
      .ok (tModelMs + megabytes vBytes * (1000 / bMbps)) := by
  rw [predictBaselineLatency, pyDiv_of_ne hB]
  refine congrArg Except.ok ?_
  ring

theorem checkBenefit_eq (hratio : profile.compressionRatio ≠ 0) :
    checkBenefit profile bMbps =
      .ok (decide (bMbps < (1 - 1 / profile.compressionRatio) * profile.harmonicSpeed)) := by
  rw [checkBenefit, pyDiv_of_ne hratio]
  rfl

theorem filterBenefit_eq (hratio : ∀ p ∈ candidates, p.compressionRatio ≠ 0) :
    filterBenefit bMbps candidates = .ok (candidates.filter fun p =>
      decide (bMbps < (1 - 1 / p.compressionRatio) * p.harmonicSpeed)) := by
  induction candidates with
  | nil => rfl
  | cons p rest ih =>
      rw [filterBenefit, checkBenefit_eq (hratio p List.mem_cons_self),
        ih fun q hq => hratio q (List.mem_cons_of_mem p hq), List.filter_cons]
      rfl

/-- Compression is predicted to be faster below this bandwidth. -/
theorem latency_lt_baseline_iff (hspeed : 0 < profile.harmonicSpeed) (hB : 0 < bMbps)
    (hV : 0 < vBytes) :
    tModelMs + megabytes vBytes * unitCost profile bMbps <
        tModelMs + megabytes vBytes * (1000 / bMbps) ↔
      bMbps < (1 - profile.compressionRatio) * profile.harmonicSpeed := by
  have hvolume : 0 < megabytes vBytes := by
    unfold megabytes
    positivity
  rw [add_lt_add_iff_left, mul_lt_mul_iff_right₀ hvolume, unitCost]
  have hcost : (1 / profile.harmonicSpeed + profile.compressionRatio / bMbps) * 1000 =
      (bMbps + profile.compressionRatio * profile.harmonicSpeed) * 1000 /
        (profile.harmonicSpeed * bMbps) := by
    field_simp
  rw [hcost, div_lt_div_iff₀ (mul_pos hspeed hB) hB]
  constructor
  · intro h
    nlinarith [mul_pos hspeed hB]
  · intro h
    nlinarith [mul_pos hspeed hB]

/-! ### Agreement -/

/-- The test and the two predictions agree. -/
def AgreesAt (profile : Profile) (vBytes bMbps tModelMs : ℚ) : Prop :=
  ∃ benefit latency baseline, checkBenefit profile bMbps = .ok benefit ∧
    predictLatency profile vBytes bMbps tModelMs = .ok latency ∧
    predictBaselineLatency vBytes bMbps tModelMs = .ok baseline ∧
    (benefit = true ↔ latency < baseline)

/-- No profile is predicted to be slower than no compression. -/
def Faster (kept : List Profile) (vBytes bMbps tModelMs : ℚ) : Prop :=
  ∀ p ∈ kept, ∃ latency baseline, predictLatency p vBytes bMbps tModelMs = .ok latency ∧
    predictBaselineLatency vBytes bMbps tModelMs = .ok baseline ∧ latency < baseline

theorem agreesAt_iff (hratio : 0 < profile.compressionRatio) (hspeed : 0 < profile.harmonicSpeed)
    (hV : 0 < vBytes) (hB : 0 < bMbps) :
    AgreesAt profile vBytes bMbps tModelMs ↔
      (bMbps < (1 - 1 / profile.compressionRatio) * profile.harmonicSpeed ↔
        bMbps < (1 - profile.compressionRatio) * profile.harmonicSpeed) := by
  unfold AgreesAt
  rw [checkBenefit_eq hratio.ne', predictLatency_eq hspeed.ne' hB.ne',
    predictBaselineLatency_eq hB.ne']
  constructor
  · rintro ⟨_, _, _, ⟨rfl⟩, ⟨rfl⟩, ⟨rfl⟩, h⟩
    rwa [decide_eq_true_eq, latency_lt_baseline_iff hspeed hB hV] at h
  · intro h
    refine ⟨_, _, _, rfl, rfl, rfl, ?_⟩
    rwa [decide_eq_true_eq, latency_lt_baseline_iff hspeed hB hV]

/-- Of the two thresholds at most one is positive. -/
theorem thresholds_iff {ratio speed : ℚ} (hratio : 0 < ratio) (hspeed : 0 < speed) (hB : 0 < bMbps) :
    (bMbps < (1 - 1 / ratio) * speed ↔ bMbps < (1 - ratio) * speed) ↔
      (1 - min ratio (1 / ratio)) * speed ≤ bMbps := by
  rcases lt_trichotomy ratio 1 with hlt | rfl | hgt
  · have hinv : 1 < 1 / ratio := by rwa [lt_div_iff₀ hratio, one_mul]
    rw [min_eq_left (hlt.trans hinv).le]
    have hnot : ¬ bMbps < (1 - 1 / ratio) * speed := by nlinarith
    rw [iff_false_left hnot, not_lt]
  · simp [hB.le]
  · have hinv : 1 / ratio < 1 := by rwa [div_lt_iff₀ hratio, one_mul]
    rw [min_eq_right (hinv.trans hgt).le]
    have hnot : ¬ bMbps < (1 - ratio) * speed := by nlinarith
    rw [iff_false_right hnot, not_lt]

/-- **The benefit test agrees with the latency model** for bandwidths that are not below the
threshold, of the ratio or of its inverse, and for no others. -/
theorem benefit_agrees_iff (candidates : List Profile)
    (hpos : ∀ p ∈ candidates, 0 < p.compressionRatio ∧ 0 < p.harmonicSpeed)
    (hV : 0 < vBytes) (hB : 0 < bMbps) :
    ((∀ p ∈ candidates, AgreesAt p vBytes bMbps tModelMs) ∧
        ∀ kept, filterBenefit bMbps candidates = .ok kept → Faster kept vBytes bMbps tModelMs) ↔
      ∀ p ∈ candidates,
        (1 - min p.compressionRatio (1 / p.compressionRatio)) * p.harmonicSpeed ≤ bMbps := by
  have hagrees : ∀ p ∈ candidates, AgreesAt p vBytes bMbps tModelMs ↔
      (1 - min p.compressionRatio (1 / p.compressionRatio)) * p.harmonicSpeed ≤ bMbps := by
    intro p hp
    obtain ⟨hratio, hspeed⟩ := hpos p hp
    rw [agreesAt_iff hratio hspeed hV hB, thresholds_iff hratio hspeed hB]
  constructor
  · rintro ⟨hall, -⟩ p hp
    exact (hagrees p hp).mp (hall p hp)
  · intro hall
    refine ⟨fun p hp => (hagrees p hp).mpr (hall p hp), fun kept hkept p hp => ?_⟩
    rw [filterBenefit_eq fun q hq => (hpos q hq).1.ne'] at hkept
    obtain rfl := Except.ok.inj hkept
    obtain ⟨hmem, hbenefit⟩ := List.mem_filter.mp hp
    -- the profile passed the test
    obtain ⟨benefit, latency, baseline, htest, hlatency, hbaseline, hiff⟩ :=
      (hagrees p hmem).mpr (hall p hmem)
    rw [checkBenefit_eq (hpos p hmem).1.ne'] at htest
    obtain rfl := Except.ok.inj htest
    exact ⟨latency, baseline, hlatency, hbaseline, hiff.mp hbenefit⟩

/-- A profile that is fast enough for neither threshold to matter. -/
theorem benefit_agrees_wide :
    (∀ p ∈ [(⟨"p", 4, 100, 1⟩ : Profile)], AgreesAt p 1048576 80 5) ∧
      ∀ kept, filterBenefit 80 [⟨"p", 4, 100, 1⟩] = .ok kept → Faster kept 1048576 80 5 :=
  (@benefit_agrees_iff 1048576 80 5 [⟨"p", 4, 100, 1⟩] (by decide +kernel) (by decide +kernel)
    (by decide +kernel)).mpr (by decide +kernel)

/-- **Ten megabytes per second**: the profile of ratio four passes the test, and its predicted
latency is higher than without compression. -/
theorem benefit_contradicts :
    checkBenefit ⟨"p", 4, 100, 1⟩ 10 = .ok true ∧
      predictLatency ⟨"p", 4, 100, 1⟩ 1048576 10 5 = .ok 415 ∧
      predictBaselineLatency 1048576 10 5 = .ok 105 ∧
      ¬ AgreesAt ⟨"p", 4, 100, 1⟩ 1048576 10 5 := by
  have hagrees := @agreesAt_iff ⟨"p", 4, 100, 1⟩ 1048576 10 5 (by decide +kernel)
    (by decide +kernel) (by decide +kernel) (by decide +kernel)
  refine ⟨by decide +kernel, by decide +kernel, by decide +kernel, fun h => ?_⟩
  exact absurd (hagrees.mp h) (by decide +kernel)

end Model

end KVServe.Controller
