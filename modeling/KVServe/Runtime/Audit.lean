import KVServe.Runtime.Memory
import KVServe.Runtime.Workspace
import Mathlib.Data.List.InsertIdx

/-!
# KVServe.Runtime.Audit

The sizing run measures nvCOMP with an `_AuditAllocator`: the workspace of a slot is the
peak of the live bytes. **A request needs its bytes in one piece:** the workspace serves a
trace exactly when every request finds a gap between the live allocations, and live bytes
below the peak do not give one.
-/

namespace KVServe.Runtime

/-! ### The sizing run -/

/-- `_AuditAllocator`. -/
structure AuditAllocator where
  liveBytes : Nat := 0
  peakBytes : Nat := 0
  requests : List Nat := []
  deriving DecidableEq, Repr

namespace AuditAllocator

/-- `__call__`, with the bytes the allocation accounts for. -/
def call (audit : AuditAllocator) (nbytes : Nat) : Nat × AuditAllocator :=
  let accountedBytes := roundUp nbytes alignment
  let liveBytes := audit.liveBytes + accountedBytes
  (accountedBytes,
    { liveBytes, peakBytes := max audit.peakBytes liveBytes, requests := audit.requests ++ [nbytes] })

/-- `release`. -/
def release (audit : AuditAllocator) (nbytes : Nat) : AuditAllocator :=
  { audit with liveBytes := audit.liveBytes - nbytes }

end AuditAllocator

/-- An audit with the accounted bytes of its live allocations, the oldest first. -/
structure Audit where
  allocator : AuditAllocator := {}
  live : List Nat := []
  deriving DecidableEq, Repr

namespace Audit

def step (audit : Audit) : WorkspaceOp → Option Audit
  | .request nbytes =>
      let (accounted, allocator) := audit.allocator.call nbytes
      some ⟨allocator, audit.live ++ [accounted]⟩
  | .drop index =>
      audit.live[index]?.map fun nbytes =>
        ⟨audit.allocator.release nbytes, audit.live.eraseIdx index⟩

/-- The audit after a trace; only live allocations are dropped. -/
def run (trace : List WorkspaceOp) : Option Audit := trace.foldlM step {}

/-- The recorded `peak_bytes`. -/
def peak (trace : List WorkspaceOp) : Option Nat := (run trace).map (·.allocator.peakBytes)

theorem step_dvd_peak {audit audit' : Audit} {op : WorkspaceOp}
    (h : alignment ∣ audit.allocator.liveBytes ∧ alignment ∣ audit.allocator.peakBytes ∧
      ∀ nbytes ∈ audit.live, alignment ∣ nbytes) (hstep : audit.step op = some audit') :
    alignment ∣ audit'.allocator.liveBytes ∧ alignment ∣ audit'.allocator.peakBytes ∧
      ∀ nbytes ∈ audit'.live, alignment ∣ nbytes := by
  obtain ⟨hbytes, hpeak, hlive⟩ := h
  cases op with
  | request nbytes =>
      cases hstep
      have hsum := Nat.dvd_add hbytes (dvd_roundUp (n := nbytes))
      refine ⟨hsum, ?_, ?_⟩
      · rcases Nat.le_total audit.allocator.peakBytes
          (audit.allocator.liveBytes + roundUp nbytes alignment) with hle | hle
        · simpa [AuditAllocator.call, Nat.max_eq_right hle] using hsum
        · simpa [AuditAllocator.call, Nat.max_eq_left hle] using hpeak
      · exact List.forall_mem_append.mpr ⟨hlive, by simp [dvd_roundUp]⟩
  | drop index =>
      obtain ⟨nbytes, hget, rfl⟩ := Option.map_eq_some_iff.mp hstep
      exact ⟨Nat.dvd_sub hbytes (hlive _ (List.mem_of_getElem? hget)), hpeak,
        fun b hb => hlive b (List.mem_of_mem_eraseIdx hb)⟩

/-- The recorded peak is a multiple of the alignment. -/
theorem dvd_peak {trace : List WorkspaceOp} {bytes : Nat} (h : peak trace = some bytes) :
    alignment ∣ bytes := by
  obtain ⟨audit, hrun, rfl⟩ := Option.map_eq_some_iff.mp h
  suffices hall : ∀ (trace : List WorkspaceOp) (start : Audit),
      trace.foldlM step start = some audit →
      alignment ∣ start.allocator.liveBytes ∧ alignment ∣ start.allocator.peakBytes ∧
        (∀ nbytes ∈ start.live, alignment ∣ nbytes) → alignment ∣ audit.allocator.peakBytes by
    exact hall trace {} hrun ⟨Nat.dvd_zero _, Nat.dvd_zero _, by simp⟩
  intro trace
  induction trace with
  | nil =>
      intro start hstart hdvd
      exact Option.some.inj hstart ▸ hdvd.2.1
  | cons op trace ih =>
      intro start hstart hdvd
      obtain ⟨next, hstep, hrest⟩ := Option.bind_eq_some_iff.mp hstart
      exact ih next hrest (step_dvd_peak hdvd hstep)

end Audit

/-! ### Serving a trace -/

namespace Workspace

/-- A step in which no request raises. -/
def serve (w : Workspace) : WorkspaceOp → Option Workspace
  | .request nbytes =>
      (w.allocator.call nbytes).map fun (range, allocator) => ⟨allocator, w.live ++ [range]⟩
  | .drop index => w.step (.drop index)

/-- Every request of the trace is served. -/
def serveAll (w : Workspace) (trace : List WorkspaceOp) : Option Workspace := trace.foldlM serve w

/-- A condition on the steps of a trace, each with the state before it. -/
def Along (p : Workspace → WorkspaceOp → Prop) : Workspace → List WorkspaceOp → Prop
  | _, [] => True
  | w, op :: trace => p w op ∧ ∀ w', w.step op = some w' → Along p w' trace

/-- There is a gap for the request between the live allocations. A request of zero bytes
needs a byte that is not live, or a free range of zero bytes. -/
def Room (n : Nat) (w : Workspace) : WorkspaceOp → Prop
  | .request nbytes =>
      (∃ gap : Span, gap.size = max (roundUp nbytes alignment) 1 ∧ gap.Within n ∧
        ∀ s ∈ w.live, 0 < s.size → gap.Disjoint s) ∨
      nbytes = 0 ∧ ∃ z ∈ w.allocator.free, z.size = 0
  | .drop _ => True

variable {w w' : Workspace} {n index nbytes : Nat} {range : Span} {trace : List WorkspaceOp}

/-- A free list that is divided from the live ranges and has gaps between its own. -/
structure Gapped (n : Nat) (w : Workspace) : Prop where
  divided : w.Divided n
  apart : w.allocator.free.Pairwise Span.Apart

theorem init_gapped (h : alignment ∣ n) : (init n).Gapped n :=
  ⟨init_divided h, List.pairwise_singleton _ _⟩

/-- A request shortens one free range, a settled release merges them all. -/
theorem step_gapped {op : WorkspaceOp} (h : w.Gapped n) (hok : w.Settled op)
    (hstep : w.step op = some w') : w'.Gapped n := by
  refine ⟨step_divided h.divided hstep, ?_⟩
  obtain ⟨_, -, -, rfl⟩ | ⟨_, _, _, -, hcall, rfl⟩ | ⟨_, _, rfl, hget, rfl⟩ := step_cases hstep
  · exact h.apart
  · obtain ⟨chosen, rest, hperm, hle, -, -, hfree⟩ := FixedWorkspaceAllocator.call_some hcall
    obtain ⟨hchosen, hrest⟩ := List.pairwise_cons.mp (h.apart.perm hperm Span.Apart.symm)
    rw [hfree]
    split
    · refine List.pairwise_append.mpr ⟨hrest, List.pairwise_singleton _ _, fun s hs t ht => ?_⟩
      obtain rfl := List.mem_singleton.mp ht
      have := hchosen s hs
      simp only [Span.Apart, Span.stop] at *
      omega
    · exact hrest
  · exact (drop_apart h.divided hget (hok _ hget)).imp fun hlt => .inl hlt

/-- A gap between the live allocations lies in one free range. -/
theorem Gapped.exists_free (h : w.Gapped n) {gap : Span} (hpos : 0 < gap.size)
    (hwithin : gap.Within n) (hlive : ∀ s ∈ w.live, 0 < s.size → gap.Disjoint s) :
    ∃ range ∈ w.allocator.free, gap.size ≤ range.size := by
  have hfree : ∀ b, gap.Holds b → ∃ range ∈ w.allocator.free, range.Holds b := by
    intro b hb
    have hlt : b < n := Nat.lt_of_lt_of_le hb.2 hwithin
    obtain ⟨range, hmem, hholds⟩ := h.divided.partition.tile.exists_holds hlt
    rcases List.mem_append.mp hmem with hmem | hmem
    · exact ⟨range, hmem, hholds⟩
    · have hdisj := hlive range hmem (by simp only [Span.Holds, Span.stop] at hholds; omega)
      simp only [Span.Holds, Span.Disjoint] at *
      omega
  obtain ⟨range, hrange, hholds⟩ := hfree gap.start ⟨Nat.le_refl _, Nat.lt_add_of_pos_right hpos⟩
  refine ⟨range, hrange, Nat.le_of_not_lt fun hshort => ?_⟩
  -- a range that ends in the gap is followed by another one without a gap
  have hin : gap.Holds range.stop := by
    simp only [Span.Holds, Span.stop] at *
    omega
  obtain ⟨next, hnext, hnextHolds⟩ := hfree range.stop hin
  have hne : next ≠ range := fun heq => Nat.lt_irrefl _ (heq ▸ hnextHolds).2
  have hapart : next.Apart range := h.apart.forall hnext hrange hne
  simp only [Span.Apart, Span.Holds, Span.stop] at *
  omega

/-- **A request is served exactly when there is room for it.** -/
theorem call_isSome_iff (h : w.Gapped n) :
    (w.allocator.call nbytes).isSome ↔ w.Room n (.request nbytes) := by
  rw [Option.isSome_iff_ne_none, ne_eq, FixedWorkspaceAllocator.call_eq_none]
  push Not
  constructor
  · rintro ⟨range, hrange, hle⟩
    rcases Nat.eq_zero_or_pos range.size with hzero | hpos
    · have hbytes : nbytes ≤ roundUp nbytes alignment := le_roundUp alignment_pos
      exact .inr ⟨by omega, range, hrange, hzero⟩
    · refine .inl ⟨⟨range.start, max (roundUp nbytes alignment) 1⟩, rfl, ?_, fun s hs hs' => ?_⟩
      · have hwithin := h.divided.partition.within range (List.mem_append_left _ hrange)
        simp only [Span.Within, Span.stop] at *
        omega
      · have hdisj := (List.pairwise_append.mp h.divided.partition.tile.pairwise).2.2 range hrange
          s hs hpos hs'
        simp only [Span.Disjoint, Span.stop] at *
        omega
  · rintro (⟨gap, hsize, hwithin, hlive⟩ | ⟨rfl, z, hz, -⟩)
    · obtain ⟨range, hrange, hle⟩ := h.exists_free (by omega) hwithin hlive
      exact ⟨range, hrange, by omega⟩
    · exact ⟨z, hz, by simp [roundUp, alignment]⟩

/-! ### Whole traces -/

/-- The audit and the workspace have the same allocations live. -/
theorem serve_live {op : WorkspaceOp} {audit audit' : Audit}
    (hlive : w.live.map Span.size = audit.live) (haudit : audit.step op = some audit')
    (hstep : w.serve op = some w') : w'.live.map Span.size = audit'.live := by
  cases op with
  | request nbytes =>
      obtain ⟨⟨range, allocator⟩, hcall, rfl⟩ := Option.map_eq_some_iff.mp hstep
      obtain ⟨_, _, -, -, rfl, -, -⟩ := FixedWorkspaceAllocator.call_some hcall
      cases haudit
      simp [hlive]
  | drop index =>
      obtain ⟨range, -, rfl⟩ := Option.map_eq_some_iff.mp hstep
      obtain ⟨nbytes, -, rfl⟩ := Option.map_eq_some_iff.mp haudit
      rw [← hlive]
      exact (List.eraseIdx_map _ _ _).symm

theorem serve_step {op : WorkspaceOp} (h : w.serve op = some w') : w.step op = some w' := by
  cases op with
  | request nbytes =>
      obtain ⟨⟨range, allocator⟩, hcall, rfl⟩ := Option.map_eq_some_iff.mp h
      rw [step, hcall]
  | drop index => exact h

/-- A step of an audited trace is served exactly when there is room for it. -/
theorem serve_isSome_iff {op : WorkspaceOp} {audit audit' : Audit} (h : w.Gapped n)
    (hlive : w.live.map Span.size = audit.live) (haudit : audit.step op = some audit') :
    (w.serve op).isSome ↔ w.Room n op := by
  cases op with
  | request nbytes => rw [serve, Option.isSome_map, call_isSome_iff h]
  | drop index =>
      obtain ⟨nbytes, hget, -⟩ := Option.map_eq_some_iff.mp haudit
      rw [← hlive, List.getElem?_map] at hget
      obtain ⟨range, hget, -⟩ := Option.map_eq_some_iff.mp hget
      exact iff_of_true (by rw [serve, step, hget]; rfl) trivial

/-- **A settled trace is served exactly when every request finds room.** -/
theorem serveAll_isSome_iff {audit : Audit} (h : w.Gapped n)
    (hlive : w.live.map Span.size = audit.live) (haudit : (trace.foldlM Audit.step audit).isSome)
    (hsettled : Along Settled w trace) : (w.serveAll trace).isSome ↔ Along (Room n) w trace := by
  induction trace generalizing w audit with
  | nil => exact iff_of_true rfl trivial
  | cons op trace ih =>
      obtain ⟨hop, htrace⟩ := hsettled
      rw [List.foldlM_cons] at haudit
      cases haudit' : audit.step op with
      | none =>
          rw [haudit'] at haudit
          cases haudit
      | some audit' =>
          rw [haudit'] at haudit
          have hiff := serve_isSome_iff h hlive haudit'
          rw [serveAll, List.foldlM_cons]
          cases hserve : w.serve op with
          | none =>
              rw [hserve] at hiff
              exact iff_of_false (by simp) fun hroom => by simpa using hiff.mpr hroom.1
          | some w' =>
              rw [hserve] at hiff
              have hstep := serve_step hserve
              have hrest := ih (step_gapped h hop hstep) (serve_live hlive haudit' hserve) haudit
                (htrace w' hstep)
              refine hrest.trans ⟨fun hroom => ⟨hiff.mp rfl, fun w'' hw'' => ?_⟩,
                fun hroom => hroom.2 w' hstep⟩
              rw [hstep] at hw''
              exact Option.some.inj hw'' ▸ hroom

/-! ### Traces without requests of zero bytes -/

/-- Ranges of zero bytes only at the start of the buffer. -/
def Solid (spans : List Span) : Prop := ∀ s ∈ spans, s.size = 0 → s.start = 0

theorem step_solid {op : WorkspaceOp} (h : Solid w.ranges) (hop : op ≠ .request 0)
    (hstep : w.step op = some w') : Solid w'.ranges := by
  obtain ⟨_, -, -, rfl⟩ | ⟨nbytes, _, _, rfl, hcall, rfl⟩ | ⟨index, range, rfl, hget, rfl⟩ :=
    step_cases hstep
  · exact h
  · obtain ⟨chosen, rest, hperm, hle, rfl, -, hfree⟩ := FixedWorkspaceAllocator.call_some hcall
    have hpos : 0 < roundUp nbytes alignment := by
      refine Nat.lt_of_lt_of_le (Nat.pos_of_ne_zero fun hzero => hop ?_)
        (le_roundUp alignment_pos)
      rw [hzero]
    have hrest : Solid (rest ++ w.live) := fun s hs =>
      h s ((hperm.append_right _).mem_iff.mpr (List.mem_cons_of_mem _ hs))
    intro s hs hzero
    rw [ranges, hfree] at hs
    have hmem : s ∈ rest ++ w.live := by
      split at hs <;> grind
    exact hrest s hmem hzero
  · obtain ⟨first, rest, hperm, -, hfree⟩ := w.allocator.release_free range
    have hlive := drop_perm hget
    have hall : Solid ((first :: rest) ++ w.live.eraseIdx index) := fun s hs =>
      h s (by rw [ranges]; grind)
    rw [ranges, hfree]
    refine List.forall_mem_append.mpr ⟨mergeFrom_forall (fun s t hs _ _ hzero => ?_) ?_, ?_⟩
    · exact hs (Nat.eq_zero_of_add_eq_zero_right hzero)
    · exact fun s hs => hall s (List.mem_append_left _ hs)
    · exact fun s hs => hall s (List.mem_append_right _ hs)

/-- **A trace without requests of zero bytes settles.** -/
theorem along_settled (h : .request 0 ∉ trace) : Along Settled (init n) trace := by
  suffices hall : ∀ w : Workspace, Solid w.ranges → Along Settled w trace by
    refine hall _ fun s hs _ => ?_
    obtain rfl : s = ⟨0, n⟩ := by simpa [ranges, init, FixedWorkspaceAllocator.init] using hs
    rfl
  induction trace with
  | nil => exact fun _ _ => trivial
  | cons op trace ih =>
      intro w hw
      obtain ⟨hop, htrace⟩ := not_or.mp (mt List.mem_cons.mpr h)
      refine ⟨?_, fun w' hstep => ih htrace w' (step_solid hw (Ne.symm hop) hstep)⟩
      cases op with
      | request nbytes => trivial
      | drop index =>
          intro range hget z hz hzero s _ hstraddles
          have hmem : z ∈ w.ranges := by
            rcases List.mem_cons.mp hz with rfl | hz
            · exact List.mem_append_right _ (List.mem_of_getElem? hget)
            · exact List.mem_append_left _ hz
          have := hw z hmem hzero
          have := hstraddles.1
          omega

end Workspace

section Plan

variable {cfg : CompressionConfig} {specs : Specs} {probe : Probe}
  {select : CompressionConfig → Except PlanError HeadSelection} {blocksPerLogical numLayers : Nat}
  {plan : CompressionMemoryPlan}

/-- `carver.take(plan.codec_workspace_bytes // len(self.slots))`. -/
def CompressionMemoryPlan.workspaceBytes (plan : CompressionMemoryPlan) : Nat :=
  plan.codecWorkspaceBytes / plan.config.slotCount

/-- The workspace of a slot has the bytes of the peak. -/
theorem buildMemoryPlan_workspaceBytes
    (h : buildMemoryPlan cfg specs select probe blocksPerLogical numLayers = .ok (some plan))
    (hcodec : cfg.usesCodec = true) :
    plan.workspaceBytes = roundUp probe.peakBytes alignment := by
  obtain ⟨selection, _, layout, -, hfinish⟩ := buildMemoryPlan_cases h
  rw [finishPlan] at hfinish
  split at hfinish
  · cases hfinish
  · split at hfinish
    · cases hfinish
    · cases hfinish
      simp only [CompressionMemoryPlan.workspaceBytes, planOf, codecFigures, hcodec, if_true,
        probeOperators]
      exact Nat.mul_div_cancel _ cfg.slotCountPos

open Workspace in
/-- **The workspace of a plan.** It has the bytes of the peak that the sizing run recorded,
and a trace whose releases settle is served exactly when every request finds a gap between
the live allocations. -/
theorem workspace_serves {probing trace : List WorkspaceOp}
    (h : buildMemoryPlan cfg specs select probe blocksPerLogical numLayers = .ok (some plan))
    (hcodec : cfg.usesCodec = true)
    (hprobe : Audit.peak probing = some probe.peakBytes) (haudit : (Audit.run trace).isSome)
    (hsettled : Along Settled (init plan.workspaceBytes) trace) :
    plan.workspaceBytes = probe.peakBytes ∧
      (((init plan.workspaceBytes).serveAll trace).isSome ↔
        Along (Room plan.workspaceBytes) (init plan.workspaceBytes) trace) := by
  have hbytes := buildMemoryPlan_workspaceBytes h hcodec
  refine ⟨?_, ?_⟩
  · rw [hbytes, roundUp_of_dvd alignment_pos (Audit.dvd_peak hprobe)]
  · refine serveAll_isSome_iff (init_gapped ?_) rfl haudit hsettled
    rw [hbytes]
    exact dvd_roundUp

/-- One layer, two slots. -/
def smallConfig : CompressionConfig :=
  { enabled := true, slotCount := 2, logicalBlocksPerChunk := 1, slotCountPos := Nat.two_pos,
    levels := CompressionConfig.default_levels }

theorem smallBlock_pos : 0 < 4 := by decide

def smallSpecs : Specs :=
  ⟨[("a", { layerIndex := 0, blockSize := 4, numKvHeads := 2, headSize := 8, dtype := .bfloat16,
            blockSizePos := smallBlock_pos })], List.nodup_singleton "a"⟩

def smallSelection : HeadSelection := ⟨[(0, 0)], [(0, [0, 1])]⟩

/-- A sizing run with a peak of 768 bytes. -/
theorem exists_smallPlan : ∃ plan, buildMemoryPlan smallConfig smallSpecs
    (fun _ => .ok smallSelection) ⟨768, (· + 2000), 10⟩ 1 0 = .ok (some plan) := by
  have hsome : (buildMemoryPlan smallConfig smallSpecs (fun _ => .ok smallSelection)
      ⟨768, (· + 2000), 10⟩ 1 0).toOption.join.isSome = true := by decide +kernel
  cases hplan : buildMemoryPlan smallConfig smallSpecs (fun _ => .ok smallSelection)
      ⟨768, (· + 2000), 10⟩ 1 0 with
  | error e =>
      rw [hplan] at hsome
      cases hsome
  | ok r =>
      cases r with
      | none =>
          rw [hplan] at hsome
          cases hsome
      | some plan => exact ⟨plan, rfl⟩

/-- The allocations of the sizing run in another order are served. -/
theorem workspace_serves_reordered : ∃ plan, buildMemoryPlan smallConfig smallSpecs
    (fun _ => .ok smallSelection) ⟨768, (· + 2000), 10⟩ 1 0 = .ok (some plan) ∧
      plan.workspaceBytes = 768 ∧
      Workspace.Along (Workspace.Room plan.workspaceBytes) (.init plan.workspaceBytes)
        [.request 100, .request 512, .drop 0] ∧
      (Workspace.init plan.workspaceBytes).serveAll [.request 100, .request 512, .drop 0] =
        some ⟨⟨768, [⟨0, 256⟩]⟩, [⟨256, 512⟩]⟩ := by
  obtain ⟨plan, hplan⟩ := exists_smallPlan
  have hprobe : Audit.peak [.request 512, .request 100] = some 768 := by decide
  have hsettled : Workspace.Along Workspace.Settled (.init plan.workspaceBytes)
      [.request 100, .request 512, .drop 0] := Workspace.along_settled (by simp)
  obtain ⟨hbytes, hserves⟩ := workspace_serves hplan (by decide) hprobe (by decide) hsettled
  have hall : (Workspace.init plan.workspaceBytes).serveAll [.request 100, .request 512, .drop 0] =
      some ⟨⟨768, [⟨0, 256⟩]⟩, [⟨256, 512⟩]⟩ := by
    rw [hbytes]
    decide +kernel
  exact ⟨plan, hplan, hbytes, hserves.mp (by rw [hall]; rfl), hall⟩

/-- Two free ranges of 256 bytes with a live one between them do not hold 512 bytes. -/
theorem workspace_falls_short : ∃ plan, buildMemoryPlan smallConfig smallSpecs
    (fun _ => .ok smallSelection) ⟨768, (· + 2000), 10⟩ 1 0 = .ok (some plan) ∧
      Audit.peak [.request 768] = some 768 ∧
      Audit.peak [.request 256, .request 256, .request 256, .drop 0, .drop 1, .request 512] =
        some 768 ∧
      (Workspace.init plan.workspaceBytes).serveAll
        [.request 256, .request 256, .request 256, .drop 0, .drop 1, .request 512] = none := by
  obtain ⟨plan, hplan⟩ := exists_smallPlan
  have hbytes : plan.workspaceBytes = 768 :=
    buildMemoryPlan_workspaceBytes hplan (by decide)
  refine ⟨plan, hplan, by decide, by decide, ?_⟩
  rw [hbytes]
  decide +kernel

end Plan

end KVServe.Runtime
