import KVServe.Controller.AnalyticalModel
import KVServe.Lib.Assoc
import Mathlib.Data.List.MinMax

/-!
# KVServe.Controller.ProfileLibrary

`ProfileLibrary`: accuracy buckets, and intervals of `1/B` inside a bucket. A bandwidth that no
interval contains gets the last one, which is meant for low bandwidths; **above the bandwidths
that were profiled it is the farthest**.
-/

namespace KVServe.Controller

/-! ### The library -/

/-- An entry of `bandwidth_intervals`, `x_range` being in `1/B`. -/
structure Interval where
  intervalId : Int
  xLower : ℚ
  xUpper : ℚ
  candidateProfileIds : List String
  deriving DecidableEq, Repr

/-- An entry of `accuracy_buckets`. -/
structure Bucket where
  bucketId : Int
  accLower : ℚ
  accUpper : ℚ
  bandwidthIntervals : List Interval
  paretoProfiles : List Profile
  deriving DecidableEq, Repr

/-- `ProfileLibrary`, as far as `_validate` lets it pass. -/
structure ProfileLibrary where
  accuracyBuckets : List Bucket
  nonempty : accuracyBuckets ≠ []

namespace Interval

/-- `x_lower <= x < x_upper`. -/
def Contains (i : Interval) (x : ℚ) : Prop := i.xLower ≤ x ∧ x < i.xUpper

instance (i : Interval) (x : ℚ) : Decidable (i.Contains x) := by
  unfold Contains
  infer_instance

/-- How far a point is from the interval. -/
def distance (i : Interval) (x : ℚ) : ℚ := max 0 (max (i.xLower - x) (x - i.xUpper))

end Interval

/-- `find_interval`. -/
def findInterval (bucket : Bucket) (bMbps : ℚ) : Except ZeroDivision (Option Interval) := do
  let x ← pyDiv 1 bMbps
  match bucket.bandwidthIntervals.find? fun i => i.Contains x with
  | some i => return some i
  | none => return bucket.bandwidthIntervals.getLast?

namespace ProfileLibrary

variable (library : ProfileLibrary)

/-- `profile_map`: a later profile replaces an earlier one of the same id. -/
def profileMap : List (String × Profile) :=
  Assoc.ofItems ((library.accuracyBuckets.flatMap (·.paretoProfiles)).map fun p => (p.profileId, p))

/-- `get_profile`. -/
def getProfile (profileId : String) : Option Profile := Assoc.get profileId library.profileMap

/-- `get_candidate_profiles`. -/
def getCandidateProfiles (interval : Interval) : List Profile :=
  interval.candidateProfileIds.filterMap library.getProfile

/-- The distance of `acc_req` to the closer end of a bucket. -/
def accDistance (accReq : ℚ) (bucket : Bucket) : ℚ :=
  min |bucket.accLower - accReq| |bucket.accUpper - accReq|

/-- `find_bucket`: the bucket that contains the requirement, or the closest one. -/
def findBucket (accReq : ℚ) : Option Bucket :=
  match library.accuracyBuckets.find? fun b => b.accLower ≤ accReq ∧ accReq < b.accUpper with
  | some b => some b
  | none => library.accuracyBuckets.argmin (accDistance accReq)

end ProfileLibrary

/-! ### Contiguous intervals -/

/-- The intervals ascend, and each one begins where the one before it ends. -/
def Contiguous : List Interval → Prop
  | [] => True
  | [a] => a.xLower < a.xUpper
  | a :: b :: rest => a.xLower < a.xUpper ∧ a.xUpper = b.xLower ∧ Contiguous (b :: rest)

section Contiguous

variable {a b r r' : Interval} {l rest : List Interval} {x y : ℚ}

theorem Contiguous.lt (h : Contiguous (a :: rest)) : a.xLower < a.xUpper := by
  cases rest with
  | nil => exact h
  | cons b rest => exact h.1

theorem Contiguous.tail (h : Contiguous (a :: rest)) : Contiguous rest := by
  cases rest with
  | nil => trivial
  | cons b rest => exact h.2.2

theorem Contiguous.lt_of_mem (h : Contiguous l) (hr : r ∈ l) : r.xLower < r.xUpper := by
  induction l with
  | nil => cases hr
  | cons a rest ih =>
      rcases List.mem_cons.mp hr with rfl | hr
      · exact h.lt
      · exact ih h.tail hr

/-- Everything after the first interval begins where it ends, or later. -/
theorem Contiguous.upper_le (h : Contiguous (a :: rest)) : ∀ c ∈ rest, a.xUpper ≤ c.xLower := by
  induction rest generalizing a with
  | nil => exact fun c hc => absurd hc List.not_mem_nil
  | cons b rest ih =>
      intro c hc
      rcases List.mem_cons.mp hc with rfl | hc
      · exact h.2.1.le
      · calc a.xUpper = b.xLower := h.2.1
          _ ≤ b.xUpper := h.tail.lt.le
          _ ≤ c.xLower := ih h.tail c hc

/-- **No gaps**: from the first lower bound on, a point is in an interval or behind all of them. -/
theorem Contiguous.find_cases (h : Contiguous (a :: rest)) (hx : a.xLower ≤ x) :
    (∃ (i : Nat) (r : Interval), (a :: rest)[i]? = some r ∧ r.Contains x ∧
        (a :: rest).find? (fun i => i.Contains x) = some r) ∨
      ((a :: rest).find? (fun i => i.Contains x) = none ∧ ∀ c ∈ a :: rest, c.xUpper ≤ x) := by
  induction rest generalizing a with
  | nil =>
      by_cases hlt : x < a.xUpper
      · exact Or.inl ⟨0, a, rfl, ⟨hx, hlt⟩, by simp [Interval.Contains, hx, hlt]⟩
      · refine Or.inr ⟨by simp [Interval.Contains, hlt], fun c hc => ?_⟩
        obtain rfl := List.mem_singleton.mp hc
        exact not_lt.mp hlt
  | cons b rest ih =>
      by_cases hlt : x < a.xUpper
      · exact Or.inl ⟨0, a, rfl, ⟨hx, hlt⟩, by simp [Interval.Contains, hx, hlt]⟩
      · have hnot : ¬ a.Contains x := fun hc => hlt hc.2
        have hb : b.xLower ≤ x := h.2.1 ▸ not_lt.mp hlt
        rw [List.find?_cons_of_neg (by simpa using hnot)]
        rcases ih h.tail hb with ⟨i, r, hget, hcontains, hfind⟩ | ⟨hnone, hall⟩
        · exact Or.inl ⟨i + 1, r, hget, hcontains, hfind⟩
        · refine Or.inr ⟨hnone, fun c hc => ?_⟩
          rcases List.mem_cons.mp hc with rfl | hc
          · exact not_lt.mp hlt
          · exact hall c hc

/-- Below the first lower bound there is nothing. -/
theorem Contiguous.find_below (h : Contiguous (a :: rest)) (hx : x < a.xLower) :
    (∀ c ∈ a :: rest, x < c.xLower) ∧
      (a :: rest).find? (fun i => i.Contains x) = none := by
  have hall : ∀ c ∈ a :: rest, x < c.xLower := by
    intro c hc
    rcases List.mem_cons.mp hc with rfl | hc
    · exact hx
    · exact hx.trans (h.lt.trans_le (h.upper_le c hc))
  refine ⟨hall, List.find?_eq_none.mpr fun c hc hcontains => ?_⟩
  exact absurd (of_decide_eq_true hcontains).1 (not_le.mpr (hall c hc))

/-- A later interval is behind an earlier one. -/
theorem Contiguous.upper_le_lower (h : Contiguous l) {i j : Nat} (hij : i < j)
    (hi : l[i]? = some r) (hj : l[j]? = some r') : r.xUpper ≤ r'.xLower := by
  induction l generalizing i j with
  | nil => simp at hi
  | cons a rest ih =>
      cases j with
      | zero => omega
      | succ j =>
          cases i with
          | zero =>
              obtain rfl := Option.some.inj hi
              exact h.upper_le r' (List.mem_of_getElem? hj)
          | succ i => exact ih h.tail (Nat.lt_of_succ_lt_succ hij) hi hj

end Contiguous

/-! ### The choice of an interval -/

/-- The interval contains the point if some interval does, and is one of the nearest. -/
structure Interval.Fits (r : Interval) (l : List Interval) (x : ℚ) : Prop where
  contains : (∃ c ∈ l, c.Contains x) → r.Contains x
  nearest : ∀ c ∈ l, r.distance x ≤ c.distance x

/-- Two choices of `find_interval`, for a bandwidth and one that is not smaller. -/
def ChoosesWell (bucket : Bucket) (bMbps bMbps' : ℚ) : Prop :=
  ∀ r r', findInterval bucket bMbps = .ok (some r) → findInterval bucket bMbps' = .ok (some r') →
    (∃ i i' : Nat, bucket.bandwidthIntervals[i]? = some r ∧
      bucket.bandwidthIntervals[i']? = some r' ∧ i' ≤ i) ∧
    r.Fits bucket.bandwidthIntervals (1 / bMbps) ∧ r'.Fits bucket.bandwidthIntervals (1 / bMbps')

section Choice

variable {bucket : Bucket} {bMbps bMbps' x : ℚ} {a r : Interval} {rest l : List Interval}

theorem findInterval_eq (hB : 0 < bMbps) : findInterval bucket bMbps =
    .ok ((bucket.bandwidthIntervals.find? fun i => i.Contains (1 / bMbps)).or
      bucket.bandwidthIntervals.getLast?) := by
  rw [findInterval, pyDiv_of_ne hB.ne']
  show (match bucket.bandwidthIntervals.find? _ with | some i => _ | none => _) = _
  split
  · next i hi => rw [hi]; rfl
  · next hi => rw [hi]; rfl

/-- The interval of a point from the first lower bound on. -/
theorem Contiguous.fits (h : Contiguous (a :: rest)) (hx : a.xLower ≤ x) :
    ∃ (i : Nat) (r : Interval),
      ((a :: rest).find? (fun i => i.Contains x)).or (a :: rest).getLast? = some r ∧
      (a :: rest)[i]? = some r ∧ r.Fits (a :: rest) x ∧
      (r.Contains x ∨ (i = rest.length ∧ ∀ c ∈ a :: rest, c.xUpper ≤ x)) := by
  rcases h.find_cases hx with ⟨i, r, hget, hcontains, hfind⟩ | ⟨hnone, hall⟩
  · refine ⟨i, r, by rw [hfind]; rfl, hget, ⟨fun _ => hcontains, fun c _ => ?_⟩, Or.inl hcontains⟩
    have hzero : r.distance x = 0 := by
      rw [Interval.distance, max_eq_left]
      exact max_le (sub_nonpos.mpr hcontains.1) (sub_nonpos.mpr hcontains.2.le)
    rw [hzero]
    exact le_max_left _ _
  · have hlast : (a :: rest)[rest.length]? = (a :: rest).getLast? := by
      rw [List.getLast?_eq_getElem?, List.length_cons, Nat.add_sub_cancel]
    obtain ⟨r, hr⟩ : ∃ r, (a :: rest).getLast? = some r := ⟨_, List.getLast?_cons⟩
    have hget := hlast.trans hr
    refine ⟨rest.length, r, by rw [hnone, hr]; rfl, hget, ⟨?_, fun c hc => ?_⟩, Or.inr ⟨rfl, hall⟩⟩
    · rintro ⟨c, hc, hcontains⟩
      exact absurd hcontains.2 (not_lt.mpr (hall c hc))
    · -- the last interval ends last
      have hupper : c.xUpper ≤ r.xUpper := by
        obtain ⟨j, hj⟩ := List.mem_iff_getElem?.mp hc
        have hlt : j < (a :: rest).length := (List.getElem?_eq_some_iff.mp hj).1
        rcases Nat.lt_or_ge j rest.length with hlt' | hge
        · exact (h.upper_le_lower hlt' hj hget).trans (h.lt_of_mem (List.mem_of_getElem? hget)).le
        · obtain rfl : j = rest.length := by
            rw [List.length_cons] at hlt
            omega
          rw [hget] at hj
          rw [Option.some.inj hj]
      have hr := h.lt_of_mem (List.mem_of_getElem? hget)
      have hx := hall r (List.mem_of_getElem? hget)
      refine max_le (le_max_left _ _) (max_le ?_ ?_)
      · exact (sub_nonpos.mpr (hr.le.trans hx)).trans (le_max_left _ _)
      · exact (sub_le_sub_left hupper x).trans
          ((le_max_right _ _).trans (le_max_right _ _))

/-- Below all of several intervals the last one is not the nearest. -/
theorem Contiguous.not_fits_last (h : Contiguous (a :: b :: rest)) (hx : x < a.xLower) :
    ∃ r, ((a :: b :: rest).find? (fun i => i.Contains x)).or (a :: b :: rest).getLast? = some r ∧
      ¬ r.Fits (a :: b :: rest) x := by
  obtain ⟨hall, hnone⟩ := h.find_below hx
  obtain ⟨r, hr⟩ : ∃ r, (b :: rest).getLast? = some r := ⟨_, List.getLast?_cons⟩
  refine ⟨r, by rw [hnone, List.getLast?_cons_cons, hr]; rfl, fun hfits => ?_⟩
  have hmem : r ∈ b :: rest := List.mem_of_getLast? hr
  have hle := hfits.nearest a List.mem_cons_self
  have hfirst : a.distance x = a.xLower - x := by
    have hupper : x - a.xUpper ≤ a.xLower - x := by linarith [h.lt]
    rw [Interval.distance, max_eq_left hupper, max_eq_right (sub_pos.mpr hx).le]
  have hlast : r.xLower - x ≤ r.distance x := (le_max_left _ _).trans (le_max_right _ _)
  have hbehind := h.upper_le r hmem
  linarith [h.lt]

/-- **The choice of an interval** is monotone and the nearest one, unless there are several
intervals and the larger bandwidth is above all of them. -/
theorem choosesWell_iff (bucket : Bucket) (h : Contiguous bucket.bandwidthIntervals)
    (hB : 0 < bMbps) (hle : bMbps ≤ bMbps') :
    ChoosesWell bucket bMbps bMbps' ↔ bucket.bandwidthIntervals.length ≤ 1 ∨
      ∀ first ∈ bucket.bandwidthIntervals.head?, first.xLower ≤ 1 / bMbps' := by
  have hB' : 0 < bMbps' := hB.trans_le hle
  have hinverse : 1 / bMbps' ≤ 1 / bMbps := one_div_le_one_div_of_le hB hle
  unfold ChoosesWell
  rw [findInterval_eq hB, findInterval_eq hB']
  generalize 1 / bMbps = x at hinverse ⊢
  generalize 1 / bMbps' = y at hinverse ⊢
  generalize bucket.bandwidthIntervals = l at h ⊢
  match l, h with
  | [], _ => simp
  | [a], h =>
      refine iff_of_true (fun r r' hr hr' => ?_) (Or.inl (Nat.le_refl 1))
      have hsingle : ∀ z, ([a].find? fun i => i.Contains z).or [a].getLast? = some a := by
        intro z
        by_cases hz : a.Contains z <;> simp [hz]
      rw [hsingle] at hr hr'
      obtain rfl := Option.some.inj (Except.ok.inj hr)
      obtain rfl := Option.some.inj (Except.ok.inj hr')
      exact ⟨⟨0, 0, rfl, rfl, Nat.le_refl 0⟩, ⟨by simp, by simp⟩, ⟨by simp, by simp⟩⟩
  | a :: b :: rest, h =>
      have hcond : (a :: b :: rest).length ≤ 1 ∨
          (∀ first ∈ (a :: b :: rest).head?, first.xLower ≤ y) ↔ a.xLower ≤ y := by simp
      rw [hcond]
      constructor
      · intro hall
        by_contra hlt
        obtain ⟨r', hr', hnot⟩ := h.not_fits_last (not_le.mp hlt)
        obtain ⟨r, hr⟩ : ∃ r, ((a :: b :: rest).find? fun i => i.Contains x).or
            (a :: b :: rest).getLast? = some r := by
          cases (a :: b :: rest).find? fun i => i.Contains x with
          | none => exact ⟨_, List.getLast?_cons⟩
          | some r => exact ⟨r, rfl⟩
        exact hnot (hall r r' (by rw [hr]) (by rw [hr'])).2.2
      · intro hy r r' hr hr'
        obtain ⟨i, s, hs, hi, hfits, hcases⟩ := h.fits (hy.trans hinverse)
        obtain ⟨i', s', hs', hi', hfits', hcases'⟩ := h.fits hy
        rw [hs] at hr
        rw [hs'] at hr'
        obtain rfl := Option.some.inj (Except.ok.inj hr)
        obtain rfl := Option.some.inj (Except.ok.inj hr')
        refine ⟨⟨i, i', hi, hi', ?_⟩, hfits, hfits'⟩
        by_contra hlt
        have hbehind := h.upper_le_lower (Nat.lt_of_not_le hlt) hi hi'
        rcases hcases with hcontains | ⟨rfl, -⟩
        · rcases hcases' with hcontains' | ⟨-, hall⟩
          · exact absurd (hbehind.trans (hcontains'.1.trans hinverse)) (not_le.mpr hcontains.2)
          · have hmem := hall s' (List.mem_of_getElem? hi')
            have hs' := h.lt_of_mem (List.mem_of_getElem? hi')
            linarith [hcontains.2]
        · have hlt' := (List.getElem?_eq_some_iff.mp hi').1
          rw [List.length_cons] at hlt'
          omega

/-- Bandwidths from ten to a hundred megabytes per second, in two intervals. -/
def twoIntervals : Bucket where
  bucketId := 0
  accLower := 9 / 10
  accUpper := 1
  bandwidthIntervals := [⟨0, 1 / 100, 1 / 50, []⟩, ⟨1, 1 / 50, 1 / 10, []⟩]
  paretoProfiles := []

theorem twoIntervals_contiguous : Contiguous twoIntervals.bandwidthIntervals :=
  ⟨by decide +kernel, rfl, by show (_ : ℚ) < _; decide +kernel⟩

theorem choosesWell_inside :
    findInterval twoIntervals 20 = .ok (some ⟨1, 1 / 50, 1 / 10, []⟩) ∧
      findInterval twoIntervals 80 = .ok (some ⟨0, 1 / 100, 1 / 50, []⟩) ∧
      ChoosesWell twoIntervals 20 80 :=
  ⟨by decide +kernel, by decide +kernel,
    (@choosesWell_iff 20 80 twoIntervals twoIntervals_contiguous (by decide +kernel)
      (by decide +kernel)).mpr (Or.inr (by decide +kernel))⟩

/-- **A bandwidth above all that were profiled** gets the interval of the lowest ones. -/
theorem fastest_gets_slowest :
    findInterval twoIntervals 80 = .ok (some ⟨0, 1 / 100, 1 / 50, []⟩) ∧
      findInterval twoIntervals 200 = .ok (some ⟨1, 1 / 50, 1 / 10, []⟩) ∧
      ¬ ChoosesWell twoIntervals 80 200 := by
  have hslow : findInterval twoIntervals 80 = .ok (some ⟨0, 1 / 100, 1 / 50, []⟩) := by
    decide +kernel
  have hfast : findInterval twoIntervals 200 = .ok (some ⟨1, 1 / 50, 1 / 10, []⟩) := by
    decide +kernel
  refine ⟨hslow, hfast, fun h => ?_⟩
  have hnearest := (h _ _ hslow hfast).2.2.nearest ⟨0, 1 / 100, 1 / 50, []⟩ List.mem_cons_self
  exact absurd hnearest (by decide +kernel)

end Choice

end KVServe.Controller
