import KVServe.Lib.Blocks
import KVServe.Store.SchedulerJobs
import KVServe.Store.System

/-!
# KVServe.Store.JobReads

**What a store job reads.** Every block the sending thread hands to the store for a job is one
of the blocks the scheduler lists for it: a boundary state of the job, or a block in its
request's tables of a group without boundary states. The positional save never reads a Mamba
group, for its mask is false everywhere.
-/

namespace KVServe.Store

open MooncakeStoreScheduler (offloadBlocks tableBlocks jobBlocks)

/-- The blocks the store is to read for a job in this phase. -/
def Phase.blocks : Phase → List BlockId
  | .tailExists puts => puts.map BoundaryPut.blockId
  | .tailPut puts => puts.map BoundaryPut.blockId
  | .saveExists _ items => items.map SaveItem.blockId
  | .savePut _ _ missing => missing.map SaveItem.blockId
  | _ => []

theorem mem_tableBlocks {store : StoreConfig} {m : ReqMeta} {b : BlockId} :
    b ∈ tableBlocks store m ↔ ∃ g blocks, m.blockIds[g]? = some blocks ∧
      g ∉ store.boundaryStateGroupIds ∧ b ∈ blocks ∧ b ≠ NULL_BLOCK_ID := by
  simp only [tableBlocks, List.mem_flatMap, List.mem_filter, decide_eq_true_eq]
  constructor
  · rintro ⟨⟨blocks, g⟩, ⟨hmem, hg⟩, hb, hnull⟩
    exact ⟨g, blocks, List.mem_zipIdx_iff_getElem?.mp hmem, hg, hb, hnull⟩
  · rintro ⟨g, blocks, hget, hg, hb, hnull⟩
    exact ⟨⟨blocks, g⟩, ⟨List.mem_zipIdx_iff_getElem?.mpr hget, hg⟩, hb, hnull⟩

namespace SendConfig

variable {store : StoreConfig} {cfg : SendConfig} {m : ReqMeta} {offloads : List BoundaryOffload}
  {saved tokenLen saveStart : Nat} {b : BlockId}

/-! ### Boundary states -/

theorem snapshotPut_block {entry : BoundaryOffload} {put : BoundaryPut}
    (h : cfg.snapshotPut m entry = some put) : put.blockId = entry.blockId := by
  simp only [snapshotPut, Option.bind_eq_bind, Option.bind_eq_some_iff, Option.guard_eq_some'] at h
  obtain ⟨_, -, _, -, _, -, _, -, hret⟩ := h
  obtain rfl := Option.some.inj hret
  rfl

theorem tailPut_block {blockHashes : List BlockHash} {groupBlocks : List BlockId}
    {entries : List BoundaryOffload} {boundary groupIdx blockIdx : Nat} {group : StoreGroup}
    {put : BoundaryPut}
    (h : cfg.tailPut blockHashes groupBlocks entries boundary groupIdx group blockIdx = some put) :
    put.blockId ∈ entries.map BoundaryOffload.blockId ∨
      group.mamba = false ∧ put.blockId ∈ groupBlocks ∧ put.blockId ≠ NULL_BLOCK_ID := by
  simp only [tailPut, Option.bind_eq_bind, Option.bind_eq_some_iff, Option.guard_eq_some'] at h
  obtain ⟨_, -, blockId, hsource, _, hnull, hret⟩ := h
  obtain rfl := Option.some.inj hret
  simp only [tailSource] at hsource
  split at hsource
  · next entry hfind =>
      split at hsource
      · obtain rfl := Option.some.inj hsource
        exact Or.inl (List.mem_map_of_mem (List.mem_reverse.mp (List.mem_of_find?_eq_some hfind)))
      · cases hsource
  · split at hsource
    · cases hsource
    · next hmamba =>
        exact Or.inr ⟨by simpa using hmamba, List.mem_of_getElem? hsource, hnull⟩

theorem subBlockTailPuts_block (hagree : Agrees store cfg) {entries : List BoundaryOffload}
    {puts : List BoundaryPut} (h : cfg.subBlockTailPuts m entries saved = .ok puts) :
    ∀ put ∈ puts, put.blockId ∈ entries.map BoundaryOffload.blockId ∨
      put.blockId ∈ tableBlocks store m := by
  simp only [subBlockTailPuts] at h
  split at h
  · cases h
    exact fun _ hput => nomatch hput
  · split at h
    · cases h
    · split at h
      · cases h
        exact fun _ hput => nomatch hput
      · obtain ⟨rows, hrows, hret⟩ := bind_eq_ok.mp h
        obtain rfl := Except.ok.inj hret
        intro put hput
        obtain ⟨row, hrow, hput⟩ := List.mem_flatten.mp hput
        obtain ⟨⟨group, g⟩, hgroup, hputs⟩ :=
          exists_mem_of_forall₂ (List.Forall₂.flip (mapM_eq_ok.mp hrows)) hrow
        have hget := List.mem_zipIdx_iff_getElem?.mp hgroup
        simp only [groupTailPuts] at hputs
        split at hputs
        · cases hputs
          cases hput
        · split at hputs
          · cases hputs
          · next groupBlocks hblocks =>
              obtain rfl := Except.ok.inj hputs
              obtain ⟨blockIdx, -, hsome⟩ := List.mem_filterMap.mp hput
              rcases tailPut_block hsome with hentry | ⟨hmamba, hmem, hnull⟩
              · exact Or.inl hentry
              · have hg : g ∉ store.boundaryStateGroupIds := fun hg => by
                  rw [(hagree g group hget).mpr hg] at hmamba
                  cases hmamba
                exact Or.inr (mem_tableBlocks.mpr ⟨g, groupBlocks, hblocks, hg, hmem, hnull⟩)

/-- The boundary puts of a job read its boundary states and its tables. -/
theorem boundaryPuts_block (hagree : Agrees store cfg) {puts : List BoundaryPut}
    (hoffloads : m.boundaryStateOffloads = some offloads)
    (h : cfg.boundaryPuts m offloads saved = .ok puts) :
    ∀ put ∈ puts, put.blockId ∈ jobBlocks store m := by
  have hentry : ∀ entry ∈ offloads, entry.blockId ∈ jobBlocks store m := fun entry hmem =>
    List.mem_append_left _ (by
      rw [offloadBlocks, hoffloads]
      exact List.mem_map_of_mem hmem)
  have hsnapshot : ∀ put ∈ (offloads.filter cfg.aligned).filterMap (cfg.snapshotPut m),
      put.blockId ∈ jobBlocks store m := fun put hput => by
    obtain ⟨entry, hmem, hsome⟩ := List.mem_filterMap.mp hput
    rw [snapshotPut_block hsome]
    exact hentry entry (List.mem_of_mem_filter hmem)
  simp only [boundaryPuts] at h
  split at h
  · cases h
  · split at h
    · obtain ⟨tail, htail, hret⟩ := bind_eq_ok.mp h
      obtain rfl := Except.ok.inj hret
      intro put hput
      rcases List.mem_append.mp hput with hput | hput
      · exact hsnapshot put hput
      · rcases subBlockTailPuts_block hagree htail put hput with hput | hput
        · obtain ⟨entry, hmem, heq⟩ := List.mem_map.mp hput
          exact heq ▸ hentry entry (List.mem_of_mem_filter hmem)
        · exact List.mem_append_right _ hput
    · obtain rfl := Except.ok.inj h
      exact hsnapshot

/-! ### The positional save -/

theorem groupItems_block (hagree : Agrees store cfg) {group : StoreGroup}
    {mask : Option (List Bool)} {g : Nat} {items : List SaveItem} {numPromptTokens : Option Nat}
    (hget : cfg.groups[g]? = some group)
    (hmask : group.storeMask tokenLen saveStart numPromptTokens = .ok mask)
    (h : cfg.groupItems m tokenLen saveStart ((group, mask), g) = .ok items) :
    ∀ item ∈ items, item.blockId ∈ tableBlocks store m := by
  simp only [groupItems] at h
  split at h
  · cases h
    exact fun _ hitem => nomatch hitem
  · split at h
    · cases h
    · next groupBlocks hblocks =>
        obtain ⟨chunks, hchunks, hret⟩ := bind_eq_ok.mp h
        obtain rfl := Except.ok.inj hret
        intro item hitem
        obtain ⟨chunk, hchunk, hitem⟩ := List.mem_flatMap.mp hitem
        simp only [chunkItems] at hitem
        split at hitem
        · cases hitem
        · next blockId hblock =>
            obtain ⟨shardId, -, rfl⟩ := List.mem_map.mp hitem
            obtain ⟨hget', hnull⟩ := Option.filter_eq_some_iff.mp hblock
            refine mem_tableBlocks.mpr ⟨g, groupBlocks, hblocks, fun hg => ?_,
              List.mem_of_getElem? hget', by simpa using hnull⟩
            -- a Mamba group's mask is false everywhere
            have hmamba := (hagree g group hget).mpr hg
            simp only [StoreGroup.storeMask, if_pos hmamba] at hmask
            obtain rfl := Except.ok.inj hmask
            obtain ⟨-, ⟨-, rfl⟩ | ⟨-, -, rfl⟩⟩ := ChunkSizes.processTokens_ok hchunks
            · cases hchunk
            · rw [ChunkSizes.chunkIds_replicate_false] at hchunk
              cases hchunk

/-- The positional save of a job reads its tables. -/
theorem saveItems_block (hagree : Agrees store cfg) {items : List SaveItem}
    (h : cfg.saveItems m tokenLen saveStart = .ok items) :
    ∀ item ∈ items, item.blockId ∈ jobBlocks store m := by
  simp only [saveItems] at h
  obtain ⟨masks, hmasks, h⟩ := bind_eq_ok.mp h
  obtain ⟨rows, hrows, hret⟩ := bind_eq_ok.mp h
  obtain rfl := Except.ok.inj hret
  obtain ⟨_, -, hmasks⟩ := bind_eq_ok.mp hmasks
  intro item hitem
  obtain ⟨row, hrow, hitem⟩ := List.mem_flatten.mp hitem
  obtain ⟨⟨⟨group, mask⟩, g⟩, hmem, hitems⟩ :=
    exists_mem_of_forall₂ (List.Forall₂.flip (mapM_eq_ok.mp hrows)) hrow
  have hzip := List.mem_zipIdx_iff_getElem?.mp hmem
  have hgroup := (List.getElem?_zip_eq_some.mp hzip).1
  have hmask := (List.forall₂_iff_zip.mp (mapM_eq_ok.mp hmasks)).2 (List.mem_of_getElem? hzip)
  exact List.mem_append_right _ (groupItems_block hagree hgroup hmask hitems item hitem)

/-! ### The running job -/

variable {ledger ledger' : Ledger} {h h' : Handling} {phase phase' : Phase} {answer : Answer}

theorem withStatus_subset {α : Type} (p : Int → Bool) (items : List α) (codes : List Int) :
    withStatus p items codes ⊆ items := by
  intro item hitem
  obtain ⟨⟨item', code⟩, hmem, rfl⟩ := List.mem_map.mp hitem
  exact (List.of_mem_zip (List.mem_of_mem_filter hmem)).1

/-- **A step of a job reads the job's own blocks.** -/
theorem handle_blocks (hagree : Agrees store cfg)
    (hold : ∀ b ∈ phase.blocks, b ∈ jobBlocks store h.req)
    (hstep : cfg.handle ledger h phase answer = some (ledger', h', phase')) :
    ∀ b ∈ phase'.blocks, b ∈ jobBlocks store h'.req := by
  obtain ⟨-, hreq⟩ := handle_frame hstep
  rw [hreq]
  cases phase <;> cases answer <;> simp only [handle] at hstep
  all_goals
    repeat' split at hstep
  all_goals
    first
    | (cases hstep; done)
    | (cases hstep; simp only [Phase.blocks, List.not_mem_nil, false_implies, implies_true]; done)
    | skip
  -- the boundary states are prepared, then those missing are put
  · next offloads hoffloads _ _ puts _ hputs =>
      cases hstep
      intro b hb
      obtain ⟨put, hput, rfl⟩ := List.mem_map.mp hb
      exact boundaryPuts_block hagree hoffloads hputs put hput
  · cases hstep
    exact fun b hb => hold b (List.map_subset _ (withStatus_subset _ _ _) hb)
  -- the same with the chunks of the save
  · next items _ hitems =>
      cases hstep
      intro b hb
      obtain ⟨item, hitem, rfl⟩ := List.mem_map.mp hb
      exact saveItems_block hagree hitems item hitem
  · cases hstep
    exact fun b hb => hold b (List.map_subset _ (withStatus_subset _ _ _) hb)

end SendConfig

namespace Rank

variable {store : StoreConfig} {cfg : SendConfig} {canPut : Bool} {r r' : Rank}
  {action : RankAction}

/-- The running job of a rank reads its own blocks. -/
def Reads (store : StoreConfig) (r : Rank) : Prop :=
  ∀ h phase, r.handling = some (h, phase) → ∀ b ∈ phase.blocks, b ∈ jobBlocks store h.req

theorem Reads.step (hagree : Agrees store cfg) (hr : Reads store r)
    (hstep : r.step cfg canPut action = some r') : Reads store r' := by
  have hsame : r'.handling = r.handling → Reads store r' := fun hhandling h phase hget =>
    hr h phase (hhandling ▸ hget)
  cases stepped_of_step hstep with
  | receive _ _ _ _ _ _ => exact hsame rfl
  | ignore _ _ _ _ => exact hsame rfl
  | save _ _ _ _ _ => exact hsame rfl
  | close closing rest _ _ =>
      refine hsame ?_
      cases closing with
      | preempted reqId => rfl
      | ended reqId =>
          simp only [Rank.close]
          split <;> rfl
  | report _ => exact hsame rfl
  | take m queue _ _ =>
      intro h phase hget b hb
      obtain ⟨rfl, rfl⟩ := Prod.mk.inj (Option.some.inj hget)
      cases hb
  | work answer h h' phase phase' ledger hhandling hhandle =>
      intro h₁ phase₁ hget
      obtain ⟨rfl, rfl⟩ := Prod.mk.inj (Option.some.inj hget)
      exact SendConfig.handle_blocks hagree (hr h phase hhandling) hhandle
  | finish h ledger _ _ =>
      intro h phase hget
      cases hget

end Rank

end KVServe.Store
