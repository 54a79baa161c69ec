import KVServe.Runtime.Scores
import Mathlib.Data.List.GetD

/-!
# KVServe.Runtime.HeadOrders

**What a head selection is for**: globally the heads with the smallest scores are selected,
and every rank orders its own heads with the selected ones first. The copy of the Mooncake
connector does this exactly for the widths it handles; for any other width it reads the
mask of another layer, or none.
-/

namespace KVServe.Runtime

/-! ### Sorting -/

section Argsort

variable {F : Type} [LinearOrder F] {key : Nat → F} {n : Nat}

theorem perm_argsortStable : (argsortStable key n).Perm (List.range n) :=
  List.perm_insertionSort _ _

/-- Positions stand in the order of their keys, equal keys in that of the positions. -/
theorem pairwise_argsortStable : (argsortStable key n).Pairwise fun i j =>
    key i < key j ∨ (key i = key j ∧ i ≤ j) := by
  have htotal : Std.Total fun i j => key i < key j ∨ (key i = key j ∧ i ≤ j) := ⟨fun i j => by
    rcases lt_trichotomy (key i) (key j) with hlt | heq | hgt
    · exact .inl (.inl hlt)
    · rcases Nat.le_total i j with hle | hle
      · exact .inl (.inr ⟨heq, hle⟩)
      · exact .inr (.inr ⟨heq.symm, hle⟩)
    · exact .inr (.inl hgt)⟩
  have htrans : IsTrans Nat fun i j => key i < key j ∨ (key i = key j ∧ i ≤ j) := ⟨by
    rintro i j k (hij | ⟨hij, hle⟩) (hjk | ⟨hjk, hle'⟩)
    · exact .inl (hij.trans hjk)
    · exact .inl (hjk ▸ hij)
    · exact .inl (hij ▸ hjk)
    · exact .inr ⟨hij.trans hjk, hle.trans hle'⟩⟩
  exact List.pairwise_insertionSort _ _

end Argsort

/-! ### The heads with the smallest scores -/

section Smallest

variable {F : Type} {scores : Scores F} {ratio : HybridRatio} {layers : List (Nat × Nat)}

theorem lowCount_le (scores : Scores F) (ratio : HybridRatio) (layers : List (Nat × Nat)) :
    lowCount scores ratio layers ≤ (candidateOffsets scores layers).length := by
  have := roundHalfEven_le (ratio.le (candidateOffsets scores layers).length)
  rw [lowCount, pyRound]
  omega

theorem nodup_candidateOffsets (scores : Scores F) (h : (layers.map Prod.fst).Nodup) :
    (candidateOffsets scores layers).Nodup := by
  rw [candidateOffsets, List.nodup_flatMap]
  refine ⟨fun layer _ => List.nodup_range.map fun _ _ heq => Nat.add_left_cancel heq, ?_⟩
  refine (List.pairwise_map.mp h).imp fun {layer layer'} hne c hc hc' => hne ?_
  obtain ⟨head, hhead, rfl⟩ := List.mem_map.mp hc
  obtain ⟨head', hhead', heq⟩ := List.mem_map.mp hc'
  have hhead := List.mem_range.mp hhead
  have hhead' := List.mem_range.mp hhead'
  have hdiv := congrArg (· / scores.cols) heq
  have hpos : 0 < scores.cols := by omega
  simp only [Nat.mul_comm _ scores.cols, Nat.mul_add_div hpos, Nat.div_eq_of_lt hhead,
    Nat.div_eq_of_lt hhead', Nat.add_zero] at hdiv
  exact hdiv.symm

variable [LinearOrder F]

/-- Of all candidates `round(n * ratio)` are selected, none with a larger score than one that
is not, and of equal scores the earlier ones. -/
structure SmallestHeads (scores : Scores F) (ratio : HybridRatio) (layers : List (Nat × Nat))
    (selected : List Nat) : Prop where
  count : (selected.length : Int) =
    pyRound (ratio.times (candidateOffsets scores layers).length)
  nodup : selected.Nodup
  subset : selected ⊆ candidateOffsets scores layers
  smallest : ∀ i j c d : Nat, (candidateOffsets scores layers)[i]? = some c →
    (candidateOffsets scores layers)[j]? = some d → c ∈ selected → d ∉ selected →
    scores.entry c < scores.entry d ∨ (scores.entry c = scores.entry d ∧ i < j)

theorem smallestHeads_lowOffsets (h : (layers.map Prod.fst).Nodup) :
    SmallestHeads scores ratio layers (lowOffsets scores ratio layers) := by
  have hnodup := nodup_candidateOffsets scores h
  have hcount := lowCount_le scores ratio layers
  have hround := roundHalfEven_nonneg (ratio.nonneg (candidateOffsets scores layers).length)
  have hlow : (lowCount scores ratio layers : Int) =
      pyRound (ratio.times (candidateOffsets scores layers).length) := Int.toNat_of_nonneg hround
  -- positions of the candidates, sorted by score
  generalize hk : lowCount scores ratio layers = k at hcount hlow
  let candidates := candidateOffsets scores layers
  let key := fun i => scores.entry (candidates.getD i 0)
  let order := argsortStable key candidates.length
  have hperm : order.Perm (List.range candidates.length) := perm_argsortStable
  have hlt : ∀ i ∈ order, i < candidates.length :=
    fun i hi => List.mem_range.mp (hperm.mem_iff.mp hi)
  have hselected : lowOffsets scores ratio layers = (order.take k).map (candidates.getD · 0) := by
    rw [lowOffsets, hk]
  have hget : ∀ i, i < candidates.length → ∀ c, candidates[i]? = some c → candidates.getD i 0 = c :=
    fun i _ c hc => by rw [List.getD_eq_getElem?_getD, hc, Option.getD_some]
  have hinj : ∀ i < candidates.length, ∀ j < candidates.length,
      candidates.getD i 0 = candidates.getD j 0 → i = j := by
    intro i hi j hj heq
    rw [List.getD_eq_getElem _ _ hi, List.getD_eq_getElem _ _ hj] at heq
    exact (List.Nodup.getElem_inj_iff hnodup).mp heq
  rw [hselected]
  refine ⟨?_, ?_, ?_, ?_⟩
  · rw [List.length_map, List.length_take, hperm.length_eq, List.length_range,
      Nat.min_eq_left hcount, hlow]
  · refine List.Nodup.map_on ?_ ((hperm.nodup_iff.mpr List.nodup_range).sublist
      (List.take_sublist _ _))
    exact fun i hi j hj heq => hinj i (hlt i (List.mem_of_mem_take hi)) j
      (hlt j (List.mem_of_mem_take hj)) heq
  · intro c hc
    obtain ⟨i, hi, rfl⟩ := List.mem_map.mp hc
    have hi := hlt i (List.mem_of_mem_take hi)
    rw [List.getD_eq_getElem _ _ hi]
    exact List.getElem_mem hi
  · intro i j c d hc hd hin hout
    have hi := (List.getElem?_eq_some_iff.mp hc).1
    have hj := (List.getElem?_eq_some_iff.mp hd).1
    have hci := hget i hi c hc
    have hdj := hget j hj d hd
    have hitake : i ∈ order.take k := by
      obtain ⟨i', hi', heq⟩ := List.mem_map.mp hin
      have := hinj i' (hlt i' (List.mem_of_mem_take hi')) i hi (heq.trans hci.symm)
      exact this ▸ hi'
    have hjdrop : j ∈ order.drop k := by
      have hmem : j ∈ order.take k ++ order.drop k := by
        rw [List.take_append_drop]
        exact hperm.mem_iff.mpr (List.mem_range.mpr hj)
      refine (List.mem_append.mp hmem).resolve_left fun hjtake => hout ?_
      exact List.mem_map.mpr ⟨j, hjtake, hdj⟩
    have hpair : order.Pairwise fun i j => key i < key j ∨ (key i = key j ∧ i ≤ j) :=
      pairwise_argsortStable
    rw [← List.take_append_drop k order] at hpair
    have hrel := (List.pairwise_append.mp hpair).2.2 i hitake j hjdrop
    simp only [key, hci, hdj] at hrel
    rcases hrel with hless | ⟨heq, hle⟩
    · exact .inl hless
    · refine .inr ⟨heq, Nat.lt_of_le_of_ne hle ?_⟩
      rintro rfl
      exact hout (hci.symm.trans hdj ▸ hin)

end Smallest

/-! ### Local orders -/

section Order

variable {mask : List Bool} {head : Nat}

theorem localOrder_perm (mask : List Bool) :
    (localOrder mask).Perm (List.range mask.length) := List.filter_append_perm _ _

theorem take_localOrder (mask : List Bool) :
    (localOrder mask).take (lowHeads mask).length = lowHeads mask := List.take_left

theorem mem_lowHeads : head ∈ lowHeads mask ↔ mask.getD head false = true := by
  rw [lowHeads, List.mem_filter, List.mem_range]
  refine ⟨And.right, fun h => ⟨?_, h⟩⟩
  by_contra hge
  rw [List.getD_eq_default _ _ (Nat.le_of_not_lt hge)] at h
  cases h

end Order

/-- The key of an entry determines it. -/
theorem lookup_of_mem {α : Type} {l : List (Nat × α)} (hnd : (l.map Prod.fst).Nodup)
    {e : Nat × α} (h : e ∈ l) : l.lookup e.1 = some e.2 := by
  induction l with
  | nil => exact absurd h List.not_mem_nil
  | cons first l ih =>
      rw [List.map_cons, List.nodup_cons] at hnd
      rcases List.mem_cons.mp h with rfl | h
      · rw [List.lookup_cons, beq_self_eq_true]
      · have hne : e.1 ≠ first.1 := fun heq => hnd.1 (heq ▸ List.mem_map_of_mem h)
        rw [List.lookup_cons, beq_false_of_ne hne]
        exact ih hnd.2 h

/-- A head of a layer is among the first `low_counts` of its order. -/
def HeadSelection.IsLow (sel : HeadSelection) (layerIndex head : Nat) : Prop :=
  ∃ order low, sel.localOrders.lookup layerIndex = some order ∧
    sel.lowCounts.lookup layerIndex = some low ∧ head ∈ order.take low

section SelectionOf

variable {masks : List (Nat × List Bool)} {layerIndex : Nat} {mask : List Bool}

theorem lookup_localOrders (hnd : (masks.map Prod.fst).Nodup) (h : (layerIndex, mask) ∈ masks) :
    (selectionOf masks).localOrders.lookup layerIndex = some (localOrder mask) := by
  have hkeys : ((selectionOf masks).localOrders.map Prod.fst).Nodup := by
    rw [selectionOf, List.map_map]
    exact hnd
  exact lookup_of_mem hkeys (List.mem_map_of_mem (f := fun e => (e.1, localOrder e.2)) h)

theorem lookup_lowCounts (hnd : (masks.map Prod.fst).Nodup) (h : (layerIndex, mask) ∈ masks) :
    (selectionOf masks).lowCounts.lookup layerIndex = some (lowHeads mask).length := by
  have hkeys : ((selectionOf masks).lowCounts.map Prod.fst).Nodup := by
    rw [selectionOf, List.map_map]
    exact hnd
  exact lookup_of_mem hkeys (List.mem_map_of_mem (f := fun e => (e.1, (lowHeads e.2).length)) h)

theorem isLow_selectionOf (hnd : (masks.map Prod.fst).Nodup) (h : (layerIndex, mask) ∈ masks)
    {head : Nat} : (selectionOf masks).IsLow layerIndex head ↔ mask.getD head false = true := by
  rw [← mem_lowHeads, ← take_localOrder]
  constructor
  · rintro ⟨order, low, horder, hlow, hmem⟩
    obtain rfl := Option.some.inj ((lookup_localOrders hnd h).symm.trans horder)
    obtain rfl := Option.some.inj ((lookup_lowCounts hnd h).symm.trans hlow)
    exact hmem
  · exact fun hmem => ⟨_, _, lookup_localOrders hnd h, lookup_lowCounts hnd h, hmem⟩

end SelectionOf

/-! ### What a selection has to be -/

section Spec

variable {F : Type} [LinearOrder F]

/-- A local order is a permutation of the heads of the rank with the low-precision heads
first, as many as `low_counts` says: those whose column is selected. -/
structure LayerSelected (scores : Scores F) (selected : List Nat) (sel : HeadSelection)
    (layer : Nat × Nat) (start : Nat) : Prop where
  order : ∃ order low, sel.localOrders.lookup layer.1 = some order ∧
    sel.lowCounts.lookup layer.1 = some low ∧ order.Perm (List.range layer.2) ∧ low ≤ layer.2
  low : ∀ head < layer.2,
    (sel.IsLow layer.1 head ↔ layer.1 * scores.cols + start + head ∈ selected)

/-- A `build_head_selection` raises a `ValueError`, or it selects the heads with the smallest
scores, and gives each rank its slice of the selection of a single rank. -/
def Selects (scores : Scores F) (ratio : HybridRatio)
    (build : List (Nat × Nat) → (tpRank tpSize : Nat) → Except SelectionError HeadSelection)
    (layers : List (Nat × Nat)) (tpRank tpSize : Nat) : Prop :=
  match build layers tpRank tpSize with
  | .error e => e.isValueError = true
  | .ok sel => ∃ selected whole, SmallestHeads scores ratio layers selected ∧
      build (layers.map fun layer => (layer.1, scores.cols)) 0 1 = .ok whole ∧
      ∀ layer ∈ layers, ∃ start, headStart scores.cols layer.2 tpRank tpSize = some start ∧
        LayerSelected scores selected sel layer start ∧
        ∀ head < layer.2, (sel.IsLow layer.1 head ↔ whole.IsLow layer.1 (start + head))

end Spec

/-! ### The masks -/

section Masks

variable {F : Type} {scores : Scores F} {ratio : HybridRatio} {layers : List (Nat × Nat)}
  {tpRank tpSize : Nat}

/-- The heads of a rank are columns of the scores. -/
theorem headStart_add_le {localHeads start : Nat} (hrank : tpRank < tpSize)
    (h : headStart scores.cols localHeads tpRank tpSize = some start) :
    start + localHeads ≤ scores.cols := by
  unfold headStart at h
  split at h
  · next heq =>
      cases h
      omega
  · split at h
    · next heq =>
        cases h
        rw [heq, ← Nat.succ_mul, Nat.mul_comm]
        exact Nat.mul_le_mul_left _ hrank
    · split at h
      · next hrep =>
          obtain ⟨rfl, hpos, hlt, hmod⟩ := hrep
          cases h
          have hdvd := Nat.div_mul_cancel (Nat.dvd_of_mod_eq_zero hmod)
          refine Nat.div_lt_of_lt_mul ?_
          rwa [hdvd]
      · cases h

theorem headStart_self : headStart scores.cols scores.cols 0 1 = some 0 := if_pos rfl

variable [LinearOrder F]

theorem length_localMask (ratio : HybridRatio) (layers : List (Nat × Nat)) (layerIndex : Nat)
    {start localHeads : Nat} (h : start + localHeads ≤ scores.cols) :
    (localMask scores ratio layers layerIndex start localHeads).length = localHeads := by
  rw [localMask, List.length_map, List.length_take, List.length_drop, List.length_range]
  omega

theorem localMask_getD {layerIndex start localHeads head : Nat}
    (h : start + localHeads ≤ scores.cols) (hhead : head < localHeads) :
    (localMask scores ratio layers layerIndex start localHeads).getD head false = true ↔
      layerIndex * scores.cols + start + head ∈ lowOffsets scores ratio layers := by
  have hlt : head < (localMask scores ratio layers layerIndex start localHeads).length := by
    rw [length_localMask ratio layers layerIndex h]
    exact hhead
  rw [List.getD_eq_getElem _ _ hlt]
  simp only [localMask, List.getElem_map, List.getElem_take, List.getElem_drop,
    List.getElem_range, decide_eq_true_eq, Nat.add_assoc]

/-- The mask of a layer where the width of the scores fits. -/
def maskOf (scores : Scores F) (ratio : HybridRatio) (layers : List (Nat × Nat))
    (tpRank tpSize : Nat) (layer : Nat × Nat) : Nat × List Bool :=
  (layer.1, localMask scores ratio layers layer.1
    ((headStart scores.cols layer.2 tpRank tpSize).getD 0) layer.2)

theorem keys_maskOf : (layers.map (maskOf scores ratio layers tpRank tpSize)).map Prod.fst =
    layers.map Prod.fst := by
  rw [List.map_map]
  rfl

/-- The layers of a model that is not sharded. -/
def wholeLayers (scores : Scores F) (layers : List (Nat × Nat)) : List (Nat × Nat) :=
  layers.map fun layer => (layer.1, scores.cols)

theorem lowOffsets_wholeLayers :
    lowOffsets scores ratio (wholeLayers scores layers) = lowOffsets scores ratio layers := by
  have hcandidates : candidateOffsets scores (wholeLayers scores layers) =
      candidateOffsets scores layers := by
    rw [candidateOffsets, wholeLayers, List.flatMap_map]
    rfl
  simp only [lowOffsets, lowCount, hcandidates]

/-- **A selection with the right masks is right.** -/
theorem selects_of_masks
    {build : List (Nat × Nat) → (tpRank tpSize : Nat) → Except SelectionError HeadSelection}
    (hdistinct : (layers.map Prod.fst).Nodup) (hrank : tpRank < tpSize)
    (hfits : ∀ layer ∈ layers, ∃ start,
      headStart scores.cols layer.2 tpRank tpSize = some start)
    (hbuild : build layers tpRank tpSize =
      .ok (selectionOf (layers.map (maskOf scores ratio layers tpRank tpSize))))
    (hwhole : build (wholeLayers scores layers) 0 1 = .ok (selectionOf
      ((wholeLayers scores layers).map (maskOf scores ratio (wholeLayers scores layers) 0 1)))) :
    Selects scores ratio build layers tpRank tpSize := by
  unfold Selects
  rw [hbuild]
  refine ⟨lowOffsets scores ratio layers, _, smallestHeads_lowOffsets hdistinct, hwhole,
    fun layer hlayer => ?_⟩
  obtain ⟨start, hstart⟩ := hfits layer hlayer
  have hle := headStart_add_le hrank hstart
  have hkeys : ((layers.map (maskOf scores ratio layers tpRank tpSize)).map Prod.fst).Nodup := by
    rw [keys_maskOf]
    exact hdistinct
  have hmask : (layer.1, localMask scores ratio layers layer.1 start layer.2) ∈
      layers.map (maskOf scores ratio layers tpRank tpSize) :=
    List.mem_map.mpr ⟨layer, hlayer, by rw [maskOf, hstart, Option.getD_some]⟩
  have hlength := length_localMask ratio layers layer.1 hle
  -- the same columns in the selection of a single rank
  have hkeys' : (((wholeLayers scores layers).map
      (maskOf scores ratio (wholeLayers scores layers) 0 1)).map Prod.fst).Nodup := by
    rw [keys_maskOf, wholeLayers, List.map_map]
    exact hdistinct
  have hmask' : (layer.1, localMask scores ratio (wholeLayers scores layers) layer.1 0
      scores.cols) ∈ (wholeLayers scores layers).map
        (maskOf scores ratio (wholeLayers scores layers) 0 1) :=
    List.mem_map.mpr ⟨(layer.1, scores.cols), List.mem_map.mpr ⟨layer, hlayer, rfl⟩, by
      rw [maskOf, headStart_self, Option.getD_some]⟩
  have hlow : ∀ head < layer.2,
      ((selectionOf (layers.map (maskOf scores ratio layers tpRank tpSize))).IsLow layer.1 head ↔
        layer.1 * scores.cols + start + head ∈ lowOffsets scores ratio layers) :=
    fun head hhead => (isLow_selectionOf hkeys hmask).trans (localMask_getD hle hhead)
  refine ⟨start, hstart, ⟨⟨_, _, lookup_localOrders hkeys hmask, lookup_lowCounts hkeys hmask,
    ?_, ?_⟩, hlow⟩, fun head hhead => ?_⟩
  · have hperm := localOrder_perm (localMask scores ratio layers layer.1 start layer.2)
    rwa [hlength] at hperm
  · have hsub := List.length_filter_le
      ((localMask scores ratio layers layer.1 start layer.2).getD · false)
      (List.range (localMask scores ratio layers layer.1 start layer.2).length)
    rw [List.length_range, hlength] at hsub
    rw [lowHeads, hlength]
    exact hsub
  · rw [hlow head hhead, isLow_selectionOf hkeys' hmask',
      localMask_getD (by omega) (by omega), lowOffsets_wholeLayers, Nat.add_zero, Nat.add_assoc]

end Masks

/-! ### The two functions -/

section Build

variable {F : Type} {scores : Scores F} {layers : List (Nat × Nat)} {tpRank tpSize : Nat}

/-- The rows of all layers exist, or the check names one that does not. -/
theorem checkRows_cases (scores : Scores F) (layers : List (Nat × Nat)) :
    (checkRows scores layers = .ok () ∧ ∀ layer ∈ layers, layer.1 < scores.rows) ∨
      ∃ layer ∈ layers, checkRows scores layers = .error (.noRow layer.1) ∧
        scores.rows ≤ layer.1 := by
  induction layers with
  | nil => exact .inl ⟨rfl, fun _ h => absurd h List.not_mem_nil⟩
  | cons layer rest ih =>
      rw [checkRows]
      split
      · next hlt =>
          rcases ih with ⟨hok, hrest⟩ | ⟨bad, hbad, herror, hge⟩
          · refine .inl ⟨hok, fun l hl => ?_⟩
            rcases List.mem_cons.mp hl with rfl | hl
            · exact hlt
            · exact hrest l hl
          · exact .inr ⟨bad, List.mem_cons_of_mem _ hbad, herror, hge⟩
      · next hge => exact .inr ⟨layer, List.mem_cons_self, rfl, Nat.le_of_not_lt hge⟩

variable [LinearOrder F]

/-- The masks of all layers, or the error of one whose width does not fit. -/
theorem layerMasks_cases (scores : Scores F) (ratio : HybridRatio) (tpRank tpSize : Nat)
    (all layers : List (Nat × Nat)) :
    (layers.mapM (layerMask scores ratio all tpRank tpSize) =
        .ok (layers.map (maskOf scores ratio all tpRank tpSize)) ∧
      ∀ layer ∈ layers, ∃ start, headStart scores.cols layer.2 tpRank tpSize = some start) ∨
      ∃ layer ∈ layers, layers.mapM (layerMask scores ratio all tpRank tpSize) =
        .error (.width scores.cols layer.2 tpSize) ∧
          headStart scores.cols layer.2 tpRank tpSize = none := by
  induction layers with
  | nil => exact .inl ⟨rfl, fun _ h => absurd h List.not_mem_nil⟩
  | cons layer rest ih =>
      rw [List.mapM_cons]
      cases hstart : headStart scores.cols layer.2 tpRank tpSize with
      | none =>
          refine .inr ⟨layer, List.mem_cons_self, ?_, hstart⟩
          rw [layerMask, hstart]
          rfl
      | some start =>
          have hmask : layerMask scores ratio all tpRank tpSize layer =
              .ok (maskOf scores ratio all tpRank tpSize layer) := by
            rw [layerMask, maskOf, hstart, Option.getD_some]
          rw [hmask]
          rcases ih with ⟨hok, hfits⟩ | ⟨bad, hbad, herror, hnone⟩
          · refine .inl ⟨?_, fun l hl => ?_⟩
            · rw [hok]
              rfl
            · rcases List.mem_cons.mp hl with rfl | hl
              · exact ⟨start, hstart⟩
              · exact hfits l hl
          · refine .inr ⟨bad, List.mem_cons_of_mem _ hbad, ?_, hnone⟩
            rw [herror]
            rfl

/-- The function of `kvserve_v1` gives the right masks, or one of its errors says why there
are none. -/
theorem buildHeadSelection_cases (scores : Scores F) (ratio : HybridRatio)
    (layers : List (Nat × Nat)) (tpRank tpSize : Nat) :
    (buildHeadSelection scores ratio layers tpRank tpSize .head =
        .ok (selectionOf (layers.map (maskOf scores ratio layers tpRank tpSize))) ∧
      (∀ layer ∈ layers, layer.1 < scores.rows) ∧
      ∀ layer ∈ layers, ∃ start, headStart scores.cols layer.2 tpRank tpSize = some start) ∨
    ∃ layer ∈ layers, (buildHeadSelection scores ratio layers tpRank tpSize .head =
        .error (.noRow layer.1) ∧ scores.rows ≤ layer.1) ∨
      (buildHeadSelection scores ratio layers tpRank tpSize .head =
        .error (.width scores.cols layer.2 tpSize) ∧
          headStart scores.cols layer.2 tpRank tpSize = none) := by
  rcases checkRows_cases scores layers with ⟨hcheck, hrows⟩ | ⟨layer, hlayer, hcheck, hge⟩
  · rcases layerMasks_cases scores ratio tpRank tpSize layers layers with
      ⟨hmasks, hfits⟩ | ⟨layer, hlayer, hmasks, hnone⟩
    · refine .inl ⟨?_, hrows, hfits⟩
      simp only [buildHeadSelection, hcheck, hmasks, bind, Except.bind]
      rfl
    · refine .inr ⟨layer, hlayer, .inr ⟨?_, hnone⟩⟩
      simp only [buildHeadSelection, hcheck, hmasks, bind, Except.bind]
  · refine .inr ⟨layer, hlayer, .inl ⟨?_, hge⟩⟩
    simp only [buildHeadSelection, hcheck, bind, Except.bind]

end Build

namespace Mooncake

/-- The width of the scores fits a layer without replication, and the layer has a row. -/
def Handled {F : Type} (scores : Scores F) (tpSize : Nat) (layer : Nat × Nat) : Prop :=
  layer.1 < scores.rows ∧ (scores.cols = layer.2 ∨ scores.cols = layer.2 * tpSize)

variable {F : Type} {scores : Scores F} {layers : List (Nat × Nat)} {tpRank tpSize : Nat}

theorem Handled.headStart {layer : Nat × Nat} (tpRank : Nat) (h : Handled scores tpSize layer) :
    ∃ start, headStart scores.cols layer.2 tpRank tpSize = some start := by
  unfold Runtime.headStart
  rcases h.2 with heq | heq
  · exact ⟨0, if_pos heq⟩
  · by_cases hsame : scores.cols = layer.2
    · exact ⟨0, if_pos hsame⟩
    · exact ⟨tpRank * layer.2, by rw [if_neg hsame, if_pos heq]⟩

/-- With a row for every layer all candidates are scores. -/
theorem candidateOffsets_lt (hrows : ∀ layer ∈ layers, layer.1 < scores.rows) :
    (candidateOffsets scores layers).any (scores.rows * scores.cols ≤ ·) = false := by
  rw [List.any_eq_false]
  intro c hc
  obtain ⟨layer, hlayer, hc⟩ := List.mem_flatMap.mp hc
  obtain ⟨head, hhead, rfl⟩ := List.mem_map.mp hc
  have hhead := List.mem_range.mp hhead
  have hrow := Nat.mul_le_mul_right scores.cols (hrows layer hlayer)
  rw [Nat.succ_mul] at hrow
  simp only [decide_eq_true_eq, Nat.not_le]
  omega

variable [LinearOrder F] {ratio : HybridRatio}

theorem layerMask_handled (scores : Scores F) (ratio : HybridRatio) (all : List (Nat × Nat))
    (tpRank : Nat) (previous : Option (List Bool)) {layer : Nat × Nat}
    (h : Handled scores tpSize layer) :
    layerMask scores ratio all tpRank tpSize previous layer =
      .ok (maskOf scores ratio all tpRank tpSize layer).2 := by
  obtain ⟨hrow, hwidth⟩ := h
  unfold layerMask maskOf Runtime.headStart
  by_cases hsame : scores.cols = layer.2
  · rw [if_pos hsame, if_pos hrow, if_pos hsame, Option.getD_some]
  · have hsplit := hwidth.resolve_left hsame
    rw [if_neg hsame, if_pos hsplit, if_pos hrow, if_neg hsame, if_pos hsplit, Option.getD_some]

/-- A layer gets its own mask, or keeps one of a width that is not its own. -/
theorem layerMask_ok (hrank : tpRank < tpSize) {all : List (Nat × Nat)}
    {previous : Option (List Bool)} {layer : Nat × Nat} {mask : List Bool}
    (hprevious : ∀ m, previous = some m →
      scores.cols = m.length ∨ scores.cols = m.length * tpSize)
    (h : layerMask scores ratio all tpRank tpSize previous layer = .ok mask) :
    (Handled scores tpSize layer ∨ mask.length ≠ layer.2) ∧
      (scores.cols = mask.length ∨ scores.cols = mask.length * tpSize) := by
  by_cases hwidth : scores.cols = layer.2 ∨ scores.cols = layer.2 * tpSize
  · by_cases hrow : layer.1 < scores.rows
    · have hhandled : Handled scores tpSize layer := ⟨hrow, hwidth⟩
      obtain ⟨start, hstart⟩ := hhandled.headStart tpRank
      rw [layerMask_handled scores ratio all tpRank previous hhandled] at h
      cases h
      have hlength := length_localMask ratio all layer.1 (headStart_add_le hrank hstart)
      refine ⟨.inl hhandled, ?_⟩
      rw [maskOf, hstart, Option.getD_some, hlength]
      exact hwidth
    · -- the index into the mask is out of bounds
      unfold layerMask at h
      rw [if_neg hrow, if_neg hrow] at h
      split at h
      · cases h
      · rw [if_pos (hwidth.resolve_left ‹_›)] at h
        cases h
  · rw [not_or] at hwidth
    unfold layerMask at h
    rw [if_neg hwidth.1, if_neg hwidth.2] at h
    cases previous with
    | none => cases h
    | some m =>
        cases h
        have hm := hprevious mask rfl
        refine ⟨.inr fun heq => ?_, hm⟩
        rw [heq] at hm
        exact hm.elim hwidth.1 hwidth.2

theorem layerMask_error {previous : Option (List Bool)} {all : List (Nat × Nat)}
    {layer : Nat × Nat} {e : SelectionError}
    (h : layerMask scores ratio all tpRank tpSize previous layer = .error e) :
    e.isValueError = false := by
  unfold layerMask at h
  split at h
  · split at h
    · cases h
    · cases h
      rfl
  · split at h
    · split at h
      · cases h
      · cases h
        rfl
    · cases previous with
      | none =>
          cases h
          rfl
      | some mask => cases h

/-- No error of the loop is a `ValueError`; where it ends, each layer that is not handled has
a mask of another width. -/
theorem layerMasks_cases (ratio : HybridRatio) (hrank : tpRank < tpSize) (all layers : List (Nat × Nat))
    (previous : Option (List Bool))
    (hprevious : ∀ m, previous = some m →
      scores.cols = m.length ∨ scores.cols = m.length * tpSize) :
    (∃ e, layerMasks scores ratio all tpRank tpSize previous layers = .error e ∧
      e.isValueError = false) ∨
    ∃ masks, layerMasks scores ratio all tpRank tpSize previous layers = .ok masks ∧
      masks.map Prod.fst = layers.map Prod.fst ∧
      ∀ layer ∈ layers, ∃ mask, (layer.1, mask) ∈ masks ∧
        (Handled scores tpSize layer ∨ mask.length ≠ layer.2) := by
  induction layers generalizing previous with
  | nil => exact .inr ⟨[], rfl, rfl, fun _ h => absurd h List.not_mem_nil⟩
  | cons layer rest ih =>
      rw [layerMasks]
      cases hmask : layerMask scores ratio all tpRank tpSize previous layer with
      | error e => exact .inl ⟨e, rfl, layerMask_error hmask⟩
      | ok mask =>
          obtain ⟨hlayer, hnext⟩ := layerMask_ok hrank hprevious hmask
          have hstep := ih (some mask) fun m heq => Option.some.inj heq ▸ hnext
          rcases hstep with ⟨e, herror, hkind⟩ | ⟨masks, hok, hkeys, hrest⟩
          · refine .inl ⟨e, ?_, hkind⟩
            simp only [bind, Except.bind, herror]
          · refine .inr ⟨(layer.1, mask) :: masks, ?_, ?_, fun l hl => ?_⟩
            · simp only [bind, Except.bind, hok]
              rfl
            · rw [List.map_cons, List.map_cons, hkeys]
            · rcases List.mem_cons.mp hl with rfl | hl
              · exact ⟨mask, List.mem_cons_self, hlayer⟩
              · obtain ⟨mask', hmem, hcase⟩ := hrest l hl
                exact ⟨mask', List.mem_cons_of_mem _ hmem, hcase⟩

/-- Where every layer is handled, the masks are the right ones. -/
theorem layerMasks_handled (scores : Scores F) (ratio : HybridRatio) (tpRank : Nat)
    (all layers : List (Nat × Nat)) (h : ∀ layer ∈ layers, Handled scores tpSize layer)
    (previous : Option (List Bool)) :
    layerMasks scores ratio all tpRank tpSize previous layers =
      .ok (layers.map (maskOf scores ratio all tpRank tpSize)) := by
  induction layers generalizing previous with
  | nil => rfl
  | cons layer rest ih =>
      have hlayer := h layer List.mem_cons_self
      have hrest := fun l hl => h l (List.mem_cons_of_mem _ hl)
      rw [layerMasks, layerMask_handled scores ratio all tpRank previous hlayer]
      simp only [bind, Except.bind, ih hrest]
      rfl

theorem buildHeadSelection_handled (scores : Scores F) (ratio : HybridRatio) (tpRank : Nat)
    (h : ∀ layer ∈ layers, Handled scores tpSize layer) :
    buildHeadSelection scores ratio layers tpRank tpSize .head =
      .ok (selectionOf (layers.map (maskOf scores ratio layers tpRank tpSize))) := by
  have hcandidates := candidateOffsets_lt fun layer hlayer => (h layer hlayer).1
  have hbounds : ¬ (lowCount scores ratio layers ≠ 0 ∧
      (candidateOffsets scores layers).any (scores.rows * scores.cols ≤ ·)) := by
    rw [hcandidates]
    exact fun hboth => Bool.false_ne_true hboth.2
  simp only [buildHeadSelection, if_neg hbounds, bind, Except.bind,
    layerMasks_handled scores ratio tpRank layers layers h none]
  rfl

/-- The function of the Mooncake connector never raises a `ValueError`. -/
theorem buildHeadSelection_cases (scores : Scores F) (ratio : HybridRatio)
    (layers : List (Nat × Nat)) (hrank : tpRank < tpSize) :
    (∃ e, buildHeadSelection scores ratio layers tpRank tpSize .head = .error e ∧
      e.isValueError = false) ∨
    ∃ masks, buildHeadSelection scores ratio layers tpRank tpSize .head =
        .ok (selectionOf masks) ∧
      masks.map Prod.fst = layers.map Prod.fst ∧
      ∀ layer ∈ layers, ∃ mask, (layer.1, mask) ∈ masks ∧
        (Handled scores tpSize layer ∨ mask.length ≠ layer.2) := by
  rw [buildHeadSelection]
  split
  · exact .inl ⟨.indexError, rfl, rfl⟩
  · have hstart : ∀ m : List Bool, none = some m →
        scores.cols = m.length ∨ scores.cols = m.length * tpSize := fun _ h => nomatch h
    rcases layerMasks_cases ratio hrank layers layers none hstart with
      ⟨e, herror, hkind⟩ | ⟨masks, hok, hkeys, hmasks⟩
    · refine .inl ⟨e, ?_, hkind⟩
      simp only [bind, Except.bind, herror]
    · refine .inr ⟨masks, ?_, hkeys, hmasks⟩
      simp only [bind, Except.bind, hok]
      rfl

end Mooncake

/-! ### The selections of the ranks -/

section Ranks

variable {F : Type} [LinearOrder F] (scores : Scores F) (ratio : HybridRatio)
  (layers : List (Nat × Nat)) (tpRank tpSize : Nat)

theorem selects_buildHeadSelection (hdistinct : (layers.map Prod.fst).Nodup)
    (hrank : tpRank < tpSize) :
    Selects scores ratio (fun ls r n => buildHeadSelection scores ratio ls r n .head) layers
      tpRank tpSize := by
  rcases buildHeadSelection_cases scores ratio layers tpRank tpSize with
    ⟨hok, hrows, hfits⟩ | ⟨layer, -, ⟨herror, -⟩ | ⟨herror, -⟩⟩
  · refine selects_of_masks hdistinct hrank hfits hok ?_
    rcases buildHeadSelection_cases scores ratio (wholeLayers scores layers) 0 1 with
      ⟨hwhole, -⟩ | ⟨layer, hlayer, hbad⟩
    · exact hwhole
    · obtain ⟨own, hown, rfl⟩ := List.mem_map.mp hlayer
      rcases hbad with ⟨-, hge⟩ | ⟨-, hnone⟩
      · exact absurd (hrows own hown) (Nat.not_lt.mpr hge)
      · rw [headStart_self] at hnone
        cases hnone
  · simp only [Selects, herror]
    rfl
  · simp only [Selects, herror]
    rfl

theorem mooncake_selects_iff (hdistinct : (layers.map Prod.fst).Nodup) (hrank : tpRank < tpSize) :
    Selects scores ratio (fun ls r n => Mooncake.buildHeadSelection scores ratio ls r n .head)
      layers tpRank tpSize ↔ ∀ layer ∈ layers, Mooncake.Handled scores tpSize layer := by
  constructor
  · intro h layer hlayer
    unfold Selects at h
    rcases Mooncake.buildHeadSelection_cases scores ratio layers hrank with
      ⟨e, herror, hkind⟩ | ⟨masks, hok, hkeys, hmasks⟩
    · simp only [herror] at h
      rw [hkind] at h
      cases h
    · simp only [hok] at h
      obtain ⟨selected, whole, -, -, hlayers⟩ := h
      obtain ⟨start, -, ⟨⟨order, low, horder, -, hperm, -⟩, -⟩, -⟩ := hlayers layer hlayer
      obtain ⟨mask, hmem, hcase⟩ := hmasks layer hlayer
      -- a mask of another width is no permutation of the heads
      refine hcase.resolve_right fun hwidth => hwidth ?_
      obtain rfl := Option.some.inj
        ((lookup_localOrders (hkeys ▸ hdistinct) hmem).symm.trans horder)
      have hlength := ((localOrder_perm mask).symm.trans hperm).length_eq
      rwa [List.length_range, List.length_range] at hlength
  · intro h
    refine selects_of_masks hdistinct hrank (fun layer hlayer => (h layer hlayer).headStart tpRank)
      (Mooncake.buildHeadSelection_handled scores ratio tpRank h)
      (Mooncake.buildHeadSelection_handled scores ratio 0 fun layer hlayer => ?_)
    obtain ⟨own, hown, rfl⟩ := List.mem_map.mp hlayer
    exact ⟨(h own hown).1, .inl rfl⟩

/-- **The function of `kvserve_v1` selects the heads with the smallest scores and gives each
rank its slice, for every width of the scores; the copy of the Mooncake connector does so
exactly where every layer has a row and the width is that of its heads on one rank or on
all ranks together.** -/
theorem head_selection_iff (hdistinct : (layers.map Prod.fst).Nodup) (hrank : tpRank < tpSize) :
    (Selects scores ratio (fun ls r n => buildHeadSelection scores ratio ls r n .head) layers
        tpRank tpSize ∧
      Selects scores ratio (fun ls r n => Mooncake.buildHeadSelection scores ratio ls r n .head)
        layers tpRank tpSize) ↔ ∀ layer ∈ layers, Mooncake.Handled scores tpSize layer :=
  ⟨fun h => (mooncake_selects_iff scores ratio layers tpRank tpSize hdistinct hrank).mp h.2,
    fun h => ⟨selects_buildHeadSelection scores ratio layers tpRank tpSize hdistinct hrank,
      (mooncake_selects_iff scores ratio layers tpRank tpSize hdistinct hrank).mpr h⟩⟩

/-- Two layers, two heads: the smallest scores are those of head 1 and then of head 0 of
layer 1. -/
def twoByTwo : Scores Nat := ⟨2, 2, fun entry => [7, 5, 4, 3].getD entry 0⟩

/-- Half of the heads. -/
def oneHalf : HybridRatio := .exact (1 / 2) (by decide +kernel) (by decide +kernel)

theorem head_selection_two_ranks :
    (Selects twoByTwo oneHalf
        (fun ls r n => buildHeadSelection twoByTwo oneHalf ls r n .head) [(0, 1), (1, 1)] 1 2 ∧
      Selects twoByTwo oneHalf
        (fun ls r n => Mooncake.buildHeadSelection twoByTwo oneHalf ls r n .head)
        [(0, 1), (1, 1)] 1 2) ↔
      ∀ layer ∈ [(0, 1), (1, 1)], Mooncake.Handled twoByTwo 2 layer :=
  head_selection_iff twoByTwo oneHalf [(0, 1), (1, 1)] 1 2 (by decide) (by decide)

/-- Layer 1 has one head of four ranks, a replicated one; it is given the two heads of
layer 0. With layer 1 alone there is no mask to take. -/
theorem replicated_head_keeps_mask :
    Mooncake.buildHeadSelection twoByTwo oneHalf [(0, 2), (1, 1)] 1 4 .head =
        .ok ⟨[(0, 0), (1, 0)], [(0, [0, 1]), (1, [0, 1])]⟩ ∧
      Mooncake.buildHeadSelection twoByTwo oneHalf [(1, 1)] 1 4 .head = .error .unboundLocal ∧
      buildHeadSelection twoByTwo oneHalf [(1, 1)] 1 4 .head = .ok ⟨[(1, 0)], [(1, [0])]⟩ ∧
      ¬ Selects twoByTwo oneHalf
        (fun ls r n => Mooncake.buildHeadSelection twoByTwo oneHalf ls r n .head)
        [(0, 2), (1, 1)] 1 4 := by
  refine ⟨by with_unfolding_all rfl, by with_unfolding_all rfl, by with_unfolding_all rfl,
    fun h => ?_⟩
  have hall := (mooncake_selects_iff twoByTwo oneHalf [(0, 2), (1, 1)] 1 4 (by decide)
    (by decide)).mp h
  exact absurd (hall (1, 1) (by decide)).2 (by decide)

end Ranks

end KVServe.Runtime
