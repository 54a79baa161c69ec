import KVServe.Compression.Quantizer
import KVServe.Lib.Blocks
import KVServe.Runtime.HeadOrders

/-!
# KVServe.Compression.Parameters

`KVServeQuantizer.update_params`. The head mask is derived from the score table of the model and
from `hybrid_ratio`; an update that changes the ratio computes it **before the new ratio is
stored**, and never reads the table of a new model. The mask is right as long as no update asks
for other heads.
-/

namespace KVServe.Compression

open KVServe.Runtime (QuantAxis SplitType Scores argsortStable)

/-! ### Parameters -/

/-- The parameters of a `KVServeQuantizer`, with the defaults of `__init__`. -/
structure QuantizerParams where
  modelName : String := "Llama-3.1-8B-Instruct"
  hybridRatio : ℚ := 3 / 10
  highKeyMaxValue : Nat := 16
  highValueMaxValue : Nat := 16
  lowKeyMaxValue : Nat := 12
  lowValueMaxValue : Nat := 12
  axisKey : QuantAxis := .channel
  axisValue : QuantAxis := .token
  splitType : SplitType := .head
  tensorParallelSize : Nat := 1
  tpRank : Int := 0

/-- The keyword arguments of `update_params`. -/
structure QuantizerKwargs where
  modelName : Option String := none
  hybridRatio : Option ℚ := none
  highKeyMaxValue : Option Nat := none
  highValueMaxValue : Option Nat := none
  lowKeyMaxValue : Option Nat := none
  lowValueMaxValue : Option Nat := none
  axisKey : Option QuantAxis := none
  axisValue : Option QuantAxis := none
  splitType : Option SplitType := none
  tensorParallelSize : Option Nat := none
  tpRank : Option Int := none

/-- `setattr(self, key, value)` for the arguments. -/
def QuantizerParams.set (p : QuantizerParams) (kwargs : QuantizerKwargs) : QuantizerParams where
  modelName := kwargs.modelName.getD p.modelName
  hybridRatio := kwargs.hybridRatio.getD p.hybridRatio
  highKeyMaxValue := kwargs.highKeyMaxValue.getD p.highKeyMaxValue
  highValueMaxValue := kwargs.highValueMaxValue.getD p.highValueMaxValue
  lowKeyMaxValue := kwargs.lowKeyMaxValue.getD p.lowKeyMaxValue
  lowValueMaxValue := kwargs.lowValueMaxValue.getD p.lowValueMaxValue
  axisKey := kwargs.axisKey.getD p.axisKey
  axisValue := kwargs.axisValue.getD p.axisValue
  splitType := kwargs.splitType.getD p.splitType
  tensorParallelSize := kwargs.tensorParallelSize.getD p.tensorParallelSize
  tpRank := kwargs.tpRank.getD p.tpRank

/-- The score files and the library functions the constructor calls. -/
structure ScoreSource where
  /-- `get_scores_from_csv`; `None` for a model without a file. -/
  scores : String → Option (Scores ℚ)
  /-- `torch.argsort(self.head_scores.flatten())`, which leaves the order of equal scores open. -/
  argsort : Scores ℚ → List Nat
  argsort_perm : ∀ table, (argsort table).Perm (List.range (table.rows * table.cols))
  /-- The double `numel * hybrid_ratio`. -/
  product : Nat → ℚ → ℚ
  product_le : ∀ n ratio, ratio ≤ 1 → product n ratio ≤ n

/-- Exact products, and the earlier of equal scores first. -/
def ScoreSource.stable (scores : String → Option (Scores ℚ)) : ScoreSource where
  scores
  argsort table := argsortStable table.entry (table.rows * table.cols)
  argsort_perm _ := Runtime.perm_argsortStable
  product n ratio := n * ratio
  product_le n _ h := mul_le_of_le_one_right n.cast_nonneg h

namespace ScoreSource

variable (src : ScoreSource)

/-- `low_precision_num_heads`, or `pruned_num_heads`. -/
def lowHeadCount (table : Scores ℚ) (ratio : ℚ) : Nat :=
  (Runtime.pyRound (src.product (table.rows * table.cols) ratio)).toNat

/-- `head_scores_mask`, by rows: true for the heads with the smallest scores. -/
def headMask (table : Scores ℚ) (ratio : ℚ) : List (List Bool) :=
  let selected := (src.argsort table).take (src.lowHeadCount table ratio)
  (List.range table.rows).map fun row =>
    (List.range table.cols).map fun col => decide (row * table.cols + col ∈ selected)

end ScoreSource

/-- `layer_scores_mask`. The slice `[-0:]` is the whole mask. -/
def layerScoresMask (table : Scores ℚ) : List Bool :=
  let low := Runtime.lowLayerCount table.rows
  (List.range table.rows).map fun layer => decide (low = 0 ∨ table.rows - low ≤ layer)

section Masks

variable {src : ScoreSource} {table table' : Scores ℚ} {ratio ratio' : ℚ}

theorem length_of_mem_headMask {row : List Bool} (h : row ∈ src.headMask table ratio) :
    row.length = table.cols := by
  obtain ⟨_, -, rfl⟩ := List.mem_map.mp h
  simp

@[simp] theorem length_headMask : (src.headMask table ratio).length = table.rows := by
  simp [ScoreSource.headMask]

@[simp] theorem length_layerScoresMask : (layerScoresMask table).length = table.rows := by
  simp [layerScoresMask]

theorem lowHeadCount_le (h : ratio ≤ 1) :
    src.lowHeadCount table ratio ≤ table.rows * table.cols := by
  have := roundHalfEven_le (src.product_le (table.rows * table.cols) ratio h)
  rw [ScoreSource.lowHeadCount, Runtime.pyRound]
  omega

/-- As many heads have low precision as were counted. -/
theorem count_headMask (h : ratio ≤ 1) :
    (src.headMask table ratio).flatten.count true = src.lowHeadCount table ratio := by
  have hnodup : ((src.argsort table).take (src.lowHeadCount table ratio)).Nodup :=
    ((src.argsort_perm table).nodup_iff.mpr List.nodup_range).sublist (List.take_sublist _ _)
  have hsubset : ∀ c ∈ (src.argsort table).take (src.lowHeadCount table ratio),
      c < table.rows * table.cols := fun c hc =>
    List.mem_range.mp ((src.argsort_perm table).mem_iff.mp (List.mem_of_mem_take hc))
  have hlength : ((src.argsort table).take (src.lowHeadCount table ratio)).length =
      src.lowHeadCount table ratio := by
    rw [List.length_take, (src.argsort_perm table).length_eq, List.length_range,
      Nat.min_eq_left (lowHeadCount_le h)]
  unfold ScoreSource.headMask
  generalize (src.argsort table).take (src.lowHeadCount table ratio) = selected at *
  rw [← List.flatMap_def, flatMap_range_mul fun c => decide (c ∈ selected), List.count_eq_countP,
    List.countP_map, List.countP_eq_length_filter, ← hlength]
  refine List.Perm.length_eq ((List.perm_ext_iff_of_nodup (List.nodup_range.filter _) hnodup).mpr
    fun c => ?_)
  rw [List.mem_filter, List.mem_range]
  simpa using hsubset c

theorem length_flatten_headMask :
    (src.headMask table ratio).flatten.length = table.rows * table.cols := by
  unfold ScoreSource.headMask
  rw [← List.flatMap_def]
  simp

/-- Equal masks have equally many heads of low precision. -/
theorem lowHeadCount_of_headMask_eq (hratio : ratio ≤ 1) (hratio' : ratio' ≤ 1)
    (h : src.headMask table ratio = src.headMask table' ratio') :
    table.rows * table.cols = table'.rows * table'.cols ∧
      src.lowHeadCount table ratio = src.lowHeadCount table' ratio' := by
  have hlength := congrArg (fun mask => mask.flatten.length) h
  have hcount := congrArg (fun mask => mask.flatten.count true) h
  simp only [length_flatten_headMask, count_headMask, hratio, hratio'] at hlength hcount
  exact ⟨hlength, hcount⟩

/-- **One table gives one mask** for ratios that select equally many heads. -/
theorem headMask_eq_iff (hratio : ratio ≤ 1) (hratio' : ratio' ≤ 1) :
    src.headMask table ratio = src.headMask table ratio' ↔
      src.lowHeadCount table ratio = src.lowHeadCount table ratio' :=
  ⟨fun h => (lowHeadCount_of_headMask_eq hratio hratio' h).2,
    fun h => by rw [ScoreSource.headMask, ScoreSource.headMask, h]⟩

end Masks

/-! ### The quantizer with its parameters -/

/-- The quantizer with these parameters, before its tables are loaded. -/
def QuantizerParams.quantizer (p : QuantizerParams) : KVServeQuantizer where
  hybridRatio := p.hybridRatio
  highKeyMaxValue := p.highKeyMaxValue
  highValueMaxValue := p.highValueMaxValue
  lowKeyMaxValue := p.lowKeyMaxValue
  lowValueMaxValue := p.lowValueMaxValue
  axisKey := p.axisKey
  axisValue := p.axisValue
  splitType := p.splitType
  tensorParallelSize := p.tensorParallelSize
  tpRank := p.tpRank
  tableHeads := 0
  headScoresMask := []
  layerScoresMask := []
  rows _ h := absurd h List.not_mem_nil
  layers := rfl

/-- The assertions of `validate`, which reads no table. -/
def QuantizerParams.validate (p : QuantizerParams) : Bool := p.quantizer.validate

/-- The attributes of a `KVServeQuantizer`. -/
structure QuantizerState where
  params : QuantizerParams
  headScores : Scores ℚ
  headScoresMask : List (List Bool)
  layerScoresMask : List Bool
  cols : ∀ row ∈ headScoresMask, row.length = headScores.cols
  rows : headScoresMask.length = headScores.rows
  layers : layerScoresMask.length = headScores.rows

namespace QuantizerState

/-- `self.head_scores_mask = …`. -/
def setMask (s : QuantizerState) (src : ScoreSource) (ratio : ℚ) : QuantizerState where
  params := s.params
  headScores := s.headScores
  headScoresMask := src.headMask s.headScores ratio
  layerScoresMask := s.layerScoresMask
  cols _ h := length_of_mem_headMask h
  rows := length_headMask
  layers := s.layers

/-- `__init__`; `none` where it raises. -/
def construct (src : ScoreSource) (p : QuantizerParams) : Option QuantizerState :=
  if p.validate then
    (src.scores p.modelName).map fun table =>
      { params := p, headScores := table, headScoresMask := src.headMask table p.hybridRatio,
        layerScoresMask := Compression.layerScoresMask table,
        cols := fun _ h => length_of_mem_headMask h, rows := length_headMask,
        layers := length_layerScoresMask }
  else none

/-- `update_params`; `none` where `validate` raises. -/
def updateParams (src : ScoreSource) (s : QuantizerState) (kwargs : QuantizerKwargs) :
    Option QuantizerState :=
  let s := if kwargs.hybridRatio ≠ some s.params.hybridRatio ∧ kwargs.splitType = some .head then
      -- the ratio of the request before
      s.setMask src s.params.hybridRatio
    else s
  let s := { s with params := s.params.set kwargs }
  if s.params.validate then some s else none

/-- The state is that of a quantizer newly constructed with its parameters. -/
def AsNew (src : ScoreSource) (s : QuantizerState) : Prop :=
  ∃ fresh, construct src s.params = some fresh ∧ s.params = fresh.params ∧
    s.headScoresMask = fresh.headScoresMask

/-! ### Updates -/

section Updates

variable {src : ScoreSource} {s s' : QuantizerState} {p p' : QuantizerParams}
  {kwargs : QuantizerKwargs}

theorem construct_eq_some : construct src p = some s ↔ p.validate = true ∧
    ∃ table, src.scores p.modelName = some table ∧
      s = ⟨p, table, src.headMask table p.hybridRatio, Compression.layerScoresMask table,
        fun _ h => length_of_mem_headMask h, length_headMask, length_layerScoresMask⟩ := by
  unfold construct
  split
  · next h => simp [h, eq_comm]
  · next h => simp [h]

theorem ratio_le (h : p.validate = true) : p.hybridRatio ≤ 1 := by
  simp only [QuantizerParams.validate, KVServeQuantizer.validate, Bool.and_eq_true,
    decide_eq_true_eq] at h
  have hratio : 0 ≤ p.hybridRatio ∧ p.hybridRatio ≤ 1 := by tauto
  exact hratio.2

/-- What an update leaves behind: the mask of the ratio before it, or the mask before it. -/
theorem updateParams_cases (h : s.updateParams src kwargs = some s') :
    s'.params = s.params.set kwargs ∧ s'.params.validate = true ∧ s'.headScores = s.headScores ∧
      (s'.headScoresMask = src.headMask s.headScores s.params.hybridRatio ∨
        s'.headScoresMask = s.headScoresMask) := by
  simp only [updateParams] at h
  split at h
  · split at h
    · next hvalid =>
        obtain rfl := Option.some.inj h
        exact ⟨rfl, hvalid, rfl, Or.inl rfl⟩
    · cases h
  · split at h
    · next hvalid =>
        obtain rfl := Option.some.inj h
        exact ⟨rfl, hvalid, rfl, Or.inr rfl⟩
    · cases h

/-- Two configurations select the same heads. -/
def SameHeads (src : ScoreSource) (p p' : QuantizerParams) : Prop :=
  (src.scores p.modelName).map (src.headMask · p.hybridRatio) =
    (src.scores p'.modelName).map (src.headMask · p'.hybridRatio)

/-- The mask is that of the parameters, for the table of their model and for the table of the
first model. -/
structure Current (src : ScoreSource) (s : QuantizerState) : Prop where
  valid : s.params.validate = true
  first : s.headScoresMask = src.headMask s.headScores s.params.hybridRatio
  model : (src.scores s.params.modelName).map (src.headMask · s.params.hybridRatio) =
    some s.headScoresMask

theorem current_of_construct (h : construct src p = some s) : Current src s := by
  obtain ⟨hvalid, table, htable, rfl⟩ := construct_eq_some.mp h
  exact ⟨hvalid, rfl, by rw [htable]; rfl⟩

theorem asNew_iff (hvalid : s.params.validate = true) : AsNew src s ↔
    (src.scores s.params.modelName).map (src.headMask · s.params.hybridRatio) =
      some s.headScoresMask := by
  unfold AsNew
  constructor
  · rintro ⟨fresh, hfresh, -, hmask⟩
    obtain ⟨-, table, htable, rfl⟩ := construct_eq_some.mp hfresh
    rw [htable, hmask]
    rfl
  · intro h
    obtain ⟨table, htable, hmask⟩ := Option.map_eq_some_iff.mp h
    exact ⟨_, construct_eq_some.mpr ⟨hvalid, table, htable, rfl⟩, rfl, hmask.symm⟩

/-- **One update** of a current state. -/
theorem Current.update (h : Current src s) (hstep : s.updateParams src kwargs = some s') :
    s'.params = s.params.set kwargs ∧ (AsNew src s' ↔ SameHeads src s.params s'.params) ∧
      (SameHeads src s.params s'.params → Current src s') := by
  obtain ⟨hparams, hvalid, htable, hcases⟩ := updateParams_cases hstep
  have hmask : s'.headScoresMask = s.headScoresMask := hcases.elim (·.trans h.first.symm) id
  have hnew : AsNew src s' ↔ SameHeads src s.params s'.params := by
    rw [asNew_iff hvalid, SameHeads, h.model, hmask, eq_comm]
  refine ⟨hparams, hnew, fun hsame => ⟨hvalid, ?_, (asNew_iff hvalid).mp (hnew.mpr hsame)⟩⟩
  -- the first table has as many heads as the others, and so the same selection
  rw [SameHeads, h.model] at hsame
  obtain ⟨table', -, hmask'⟩ := Option.map_eq_some_iff.mp hsame.symm
  rw [h.first] at hmask'
  obtain ⟨hsize, hcount⟩ :=
    lowHeadCount_of_headMask_eq (ratio_le hvalid) (ratio_le h.valid) hmask'
  rw [hmask, h.first, htable, headMask_eq_iff (ratio_le h.valid) (ratio_le hvalid), ← hcount,
    ScoreSource.lowHeadCount, ScoreSource.lowHeadCount, hsize]

/-- The parameters after some calls. -/
def paramsAfter (p : QuantizerParams) (calls : List QuantizerKwargs) : QuantizerParams :=
  calls.foldl QuantizerParams.set p

/-- The state after some calls. -/
def after (src : ScoreSource) (s : QuantizerState) (calls : List QuantizerKwargs) :
    Option QuantizerState :=
  calls.foldlM (updateParams src) s

theorem after_cons {call : QuantizerKwargs} {calls : List QuantizerKwargs} :
    after src s (call :: calls) = (s.updateParams src call).bind (after src · calls) := by
  simp [after]

/-- The run lemma: from a current state. -/
theorem Current.after_iff (calls : List QuantizerKwargs) (h : Current src s)
    (hrun : (after src s calls).isSome) :
    (∀ done rest, calls = done ++ rest → ∀ s', after src s done = some s' → AsNew src s') ↔
      ∀ done call rest, calls = done ++ call :: rest →
        SameHeads src (paramsAfter s.params done) (paramsAfter s.params (done ++ [call])) := by
  induction calls generalizing s with
  | nil =>
      refine iff_of_true (fun done rest hsplit s' hs' => ?_) fun done call rest hsplit => ?_
      · obtain ⟨rfl, -⟩ := List.append_eq_nil_iff.mp hsplit.symm
        obtain rfl : s = s' := Option.some.inj hs'
        exact (asNew_iff h.valid).mpr h.model
      · simp at hsplit
  | cons call calls ih =>
      rw [after_cons] at hrun
      obtain ⟨s₁, hstep⟩ : ∃ s₁, s.updateParams src call = some s₁ := by
        cases hstep : s.updateParams src call with
        | none => simp [hstep] at hrun
        | some s₁ => exact ⟨s₁, rfl⟩
      rw [hstep, Option.bind_some] at hrun
      obtain ⟨hparams, hnew, hcurrent⟩ := h.update hstep
      constructor
      · intro hall done c rest hsplit
        have hnew₁ : AsNew src s₁ :=
          hall [call] calls rfl s₁ (by rw [after_cons, hstep]; rfl)
        have hih := (ih (hcurrent (hnew.mp hnew₁)) hrun).mp fun done' rest' hsplit' s' hs' =>
          hall (call :: done') rest' (by rw [hsplit']; rfl) s' (by rw [after_cons, hstep]; exact hs')
        cases done with
        | nil =>
            obtain ⟨rfl, -⟩ := List.cons.inj hsplit
            show SameHeads src s.params (s.params.set call)
            rw [← hparams]
            exact hnew.mp hnew₁
        | cons d done =>
            obtain ⟨rfl, htail⟩ := List.cons.inj hsplit
            have hsame := hih done c rest htail
            rw [hparams] at hsame
            exact hsame
      · intro hall done rest hsplit s' hs'
        have hsame : SameHeads src s.params s₁.params := by
          rw [hparams]
          exact hall [] call calls rfl
        have hih := (ih (hcurrent hsame) hrun).mpr fun done' c rest' hsplit' => by
          rw [hparams]
          exact hall (call :: done') c rest' (by rw [hsplit']; rfl)
        cases done with
        | nil =>
            obtain rfl : s = s' := Option.some.inj hs'
            exact (asNew_iff h.valid).mpr h.model
        | cons d done =>
            obtain ⟨rfl, htail⟩ := List.cons.inj hsplit
            rw [after_cons, hstep] at hs'
            exact hih done rest htail s' hs'

/-- **Updates keep the mask** if and only if none of them asks for other heads. -/
theorem updates_asNew_iff (hs : construct src p = some s) (calls : List QuantizerKwargs)
    (hvalid : (after src s calls).isSome) :
    (∀ done rest, calls = done ++ rest → ∀ s', after src s done = some s' → AsNew src s') ↔
      ∀ done call rest, calls = done ++ call :: rest →
        SameHeads src (paramsAfter p done) (paramsAfter p (done ++ [call])) := by
  have hparams : s.params = p := by
    obtain ⟨-, table, -, rfl⟩ := construct_eq_some.mp hs
    rfl
  rw [← hparams]
  exact (current_of_construct hs).after_iff calls hvalid

end Updates

/-- A model with one layer of two heads. -/
def twoHeads : ScoreSource := .stable fun _ => some ⟨1, 2, fun i => i⟩

/-- Other levels for the default ratio, then the layer split. -/
theorem updates_asNew_levels :
    ∃ s s' : QuantizerState, construct twoHeads {} = some s ∧
      after twoHeads s [{ lowKeyMaxValue := some 8 }, { splitType := some .layer }] = some s' ∧
      s'.headScoresMask = [[true, false]] ∧ AsNew twoHeads s' := by
  let calls : List QuantizerKwargs := [{ lowKeyMaxValue := some 8 }, { splitType := some .layer }]
  let s := (construct twoHeads {}).get (by decide +kernel)
  have hs : construct twoHeads {} = some s := (Option.some_get _).symm
  let s' := (after twoHeads s calls).get (by decide +kernel)
  have hs' : after twoHeads s calls = some s' := (Option.some_get _).symm
  refine ⟨s, s', hs, hs', by decide +kernel, (updates_asNew_iff hs calls (by decide +kernel)).mpr
    (fun done call rest hsplit => ?_) calls [] rfl s' hs'⟩
  have hkeeps : ∀ kwargs ∈ calls, ∀ p : QuantizerParams, SameHeads twoHeads p (p.set kwargs) := by
    intro kwargs hmem p
    rcases List.mem_cons.mp hmem with rfl | hmem
    · rfl
    · cases List.mem_singleton.mp hmem
      rfl
  rw [paramsAfter, paramsAfter, List.foldl_append]
  exact hkeeps call (by rw [hsplit]; exact List.mem_append_right _ List.mem_cons_self) _

/-- **The first update to another ratio**: both heads should have low precision. -/
theorem updated_ratio_keeps_mask :
    ∃ s s' : QuantizerState, construct twoHeads {} = some s ∧
      after twoHeads s [{ hybridRatio := some 1, splitType := some .head }] = some s' ∧
      s'.params.hybridRatio = 1 ∧ s'.headScoresMask = [[true, false]] ∧ ¬ AsNew twoHeads s' := by
  let calls : List QuantizerKwargs := [{ hybridRatio := some 1, splitType := some .head }]
  let s := (construct twoHeads {}).get (by decide +kernel)
  let s' := (after twoHeads s calls).get (by decide +kernel)
  have hmask : s'.headScoresMask = [[true, false]] := by decide +kernel
  have hmodel : (twoHeads.scores s'.params.modelName).map
      (twoHeads.headMask · s'.params.hybridRatio) = some [[true, true]] := by decide +kernel
  refine ⟨s, s', (Option.some_get _).symm, (Option.some_get _).symm, by decide +kernel, hmask,
    fun hnew => ?_⟩
  rw [asNew_iff (by decide +kernel), hmodel, hmask] at hnew
  cases hnew

end QuantizerState

end KVServe.Compression
