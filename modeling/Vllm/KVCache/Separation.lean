import Vllm.KVCache.Ownership

namespace Vllm.KVCache

open Foundation SingleTypeKVCacheManager List

/-!
# Managers with separate blocks

A block that is in the tables of one manager is in the tables of no other, and
the hash of a cached block carries the id of the group whose tables hold it.
All operations keep this, except that entering hits needs them to be still as
they were found.
-/

section Separate

variable {H : Type}

/-- No two managers hold the same block, and hashes carry the right group. -/
structure Separate (managers : List (SingleTypeKVCacheManager H)) (pool : BlockPool H) :
    Prop where
  apart : ∀ manager ∈ managers, ∀ block, block ≠ pool.nullBlock ->
    0 < manager.tableCount block -> heldBy managers block = manager.tableCount block
  grouped : pool.enableCaching = true -> ∀ manager ∈ managers, ∀ block key,
    block ≠ pool.nullBlock -> 0 < manager.tableCount block ->
    pool.blockHash block = some key -> key.groupId = manager.kvCacheGroupId

theorem tableCount_le_heldBy {managers : List (SingleTypeKVCacheManager H)}
    {manager : SingleTypeKVCacheManager H} (member : manager ∈ managers) (block : BlockId) :
    manager.tableCount block <= heldBy managers block := by
  rcases append_of_mem member with ⟨_, _, rfl⟩
  rw [heldBy_around]
  exact Nat.le_add_left _ _

variable {block : BlockId} {before rest : List (SingleTypeKVCacheManager H)}

theorem Separate.alone {manager : SingleTypeKVCacheManager H} {pool : BlockPool H}
    (separate : Separate (before ++ manager :: rest) pool) (notNull : block ≠ pool.nullBlock)
    (held : 0 < manager.tableCount block) :
    heldAround before rest block = 0 := by
  have total := separate.apart manager (by simp) block notNull held
  rw [heldBy_around] at total
  omega

/-- What a visit of one manager may do to blocks and hashes.  Blocks that come
to it, and blocks that it hashes, belong to no other manager. -/
structure Contained (others : BlockId -> Nat) (manager after : SingleTypeKVCacheManager H)
    (pool poolAfter : BlockPool H) : Prop where
  gains : ∀ block, block ≠ pool.nullBlock ->
    after.tableCount block <= manager.tableCount block \/ others block = 0
  hashes : pool.enableCaching = true -> ∀ block key, block ≠ pool.nullBlock ->
    poolAfter.blockHash block = some key ->
    (pool.blockHash block = some key /\ after.tableCount block <= manager.tableCount block) \/
      (key.groupId = manager.kvCacheGroupId /\ others block = 0)

theorem Separate.update {manager after : SingleTypeKVCacheManager H} {pool poolAfter : BlockPool H}
    (separate : Separate (before ++ manager :: rest) pool) (same : SamePool pool poolAfter)
    (groupId : after.kvCacheGroupId = manager.kvCacheGroupId)
    (contained : Contained (heldAround before rest) manager after pool poolAfter) :
    Separate (before ++ after :: rest) poolAfter := by
  have around {other : SingleTypeKVCacheManager H} (member : other ∈ before \/ other ∈ rest)
      (block : BlockId) : other.tableCount block <= heldAround before rest block := by
    rcases member with early | late
    · exact Nat.le_add_right_of_le (tableCount_le_heldBy early block)
    · exact Nat.le_add_left_of_le (tableCount_le_heldBy late block)
  have old {other : SingleTypeKVCacheManager H} (member : other ∈ before \/ other ∈ rest) :
      other ∈ before ++ manager :: rest := by
    simp only [mem_append, mem_cons]
    tauto
  have split {other : SingleTypeKVCacheManager H} (member : other ∈ before ++ after :: rest) :
      other = after \/ other ∈ before \/ other ∈ rest := by
    simp only [mem_append, mem_cons] at member
    tauto
  refine ⟨?_, ?_⟩
  · intro other member block notNull held
    rw [same.nullBlock] at notNull
    rw [heldBy_around]
    rcases split member with rfl | elsewhere
    · have alone : heldAround before rest block = 0 := by
        rcases contained.gains block notNull with fewer | alone
        · exact separate.alone notNull (held.trans_le fewer)
        · exact alone
      omega
    have bound := around elsewhere block
    have total := separate.apart other (old elsewhere) block notNull held
    rw [heldBy_around] at total
    rcases contained.gains block notNull with fewer | alone
    · omega
    · omega
  intro caching other member block key notNull held hash
  rw [same.nullBlock] at notNull
  rw [same.enableCaching] at caching
  rcases split member with rfl | elsewhere
  · rw [groupId]
    rcases contained.hashes caching block key notNull hash with ⟨kept, fewer⟩ | ⟨ours, -⟩
    · exact separate.grouped caching manager (by simp) block key notNull
        (held.trans_le fewer) kept
    · exact ours
  have bound := around elsewhere block
  rcases contained.hashes caching block key notNull hash with ⟨kept, -⟩ | ⟨-, alone⟩
  · exact separate.grouped caching other (old elsewhere) block key notNull held kept
  · omega

section Operations

open SingleTypeKVCacheManager

variable {others : BlockId -> Nat} {manager after : SingleTypeKVCacheManager H}
  {pool poolAfter : BlockPool H} {free : List BlockId} {requestId : RequestId}

theorem contained_of_fewer
    (hashes : ∀ block key, poolAfter.blockHash block = some key -> pool.blockHash block = some key)
    (fewer : ∀ block, block ≠ pool.nullBlock -> after.tableCount block <= manager.tableCount block) :
    Contained others manager after pool poolAfter :=
  ⟨fun block notNull => Or.inl (fewer block notNull),
    fun _ block key notNull hash => Or.inl ⟨hashes block key hash, fewer block notNull⟩⟩

theorem SingleTypeKVCacheManager.Frame.tableCount_le (frame : Frame requestId manager after)
    (fewer : (after.blocks requestId).count block <= (manager.blocks requestId).count block) :
    after.tableCount block <= manager.tableCount block := by
  have counts := frame.counts block
  omega

theorem SingleTypeKVCacheManager.Removes.contained {bound : Nat}
    (removes : Removes others requestId bound manager after pool poolAfter free) :
    Contained others manager after pool poolAfter := by
  apply contained_of_fewer
  · intro block key hash
    rwa [removes.hashes.blockHash] at hash
  intro block notNull
  exact removes.frame.tableCount_le (removes.fewer block notNull)

theorem SingleTypeKVCacheManager.Tables.unheld (tables : Tables others manager pool free)
    (isFree : block ∈ free) : others block = 0 := by
  have unheld := ((tables.owned.free_iff block).mp isFree).2.2
  omega

theorem SingleTypeKVCacheManager.TakesBlocks.contained {base taken freeAfter : List BlockId}
    (tables : Tables others manager pool free)
    (takes : TakesBlocks others requestId manager after pool poolAfter free base taken freeAfter) :
    Contained others manager after pool poolAfter := by
  have fewer {block : BlockId} (notNull : block ≠ pool.nullBlock) (notTaken : block ∉ taken) :
      after.tableCount block <= manager.tableCount block := by
    apply takes.frame.tableCount_le
    rw [takes.blocks, count_append, takes.counts block notNull,
      count_eq_zero_of_not_mem notTaken, Nat.add_zero]
  refine ⟨?_, ?_⟩
  · intro block notNull
    by_cases isTaken : block ∈ taken
    · exact Or.inr (tables.unheld (takes.taken_free isTaken))
    · exact Or.inl (fewer notNull isTaken)
  intro caching block key notNull hash
  rcases takes.forgets.hash caching hash with ⟨notTaken, wasHash⟩
  exact Or.inl ⟨wasHash, fewer notNull notTaken⟩

theorem SingleTypeKVCacheManager.CachesTable.contained
    (caches : CachesTable others requestId manager after pool poolAfter free)
    (alone : ∀ block, block ≠ pool.nullBlock -> 0 < manager.tableCount block -> others block = 0) :
    Contained others manager after pool poolAfter := by
  have fewer (block : BlockId) : after.tableCount block <= manager.tableCount block :=
    caches.frame.tableCount_le (by rw [caches.blocks])
  refine ⟨fun block _ => Or.inl (fewer block), ?_⟩
  intro _ block key notNull hash
  rcases caches.hashes block with same | ⟨member, -, -, _, isNew⟩
  · rw [same] at hash
    exact Or.inl ⟨hash, fewer block⟩
  rw [isNew, Option.some.injEq] at hash
  have held := (count_pos_iff.mpr member).trans_le (manager.count_le_tableCount requestId block)
  exact Or.inr ⟨by rw [<- hash], alone block notNull held⟩

end Operations

section Sweeps

variable {A : Type} {visit : Visit H A} {coordinator after : KVCacheCoordinator H}
  {outputs : List A}

/-- A visit of a manager whose blocks nobody else holds is contained. -/
def VisitContained
    (visit : SingleTypeKVCacheManager H -> BlockPool H ->
      Except ManagerError (A × SingleTypeKVCacheManager H × BlockPool H))
    (manager : SingleTypeKVCacheManager H) : Prop :=
  ∀ others pool free output after poolAfter, manager.Tables others pool free ->
    (∀ block, block ≠ pool.nullBlock -> 0 < manager.tableCount block -> others block = 0) ->
    visit manager pool = .ok (output, after, poolAfter) ->
    Contained others manager after pool poolAfter

section

variable (accounted : Accounted coordinator)
  (keeps : ∀ manager, VisitKeepsTables visit coordinator.blockPool manager)
include accounted keeps

theorem run_separate (contains : ∀ manager, VisitContained visit manager)
    (separate : Separate coordinator.singleTypeManagers coordinator.blockPool)
    (done : coordinator.run visit = .ok (outputs, after)) :
    Separate after.singleTypeManagers after.blockPool := by
  refine (accounted.invariant Separate (fun manager _ => keeps manager) ?_ separate done).2
  intro manager _ before rest current free output after next here same sameAfter signature visited
    apart
  have contained := contains manager _ current free output after next here.focus
    (fun block notNull held => apart.alone notNull held) visited
  exact apart.update sameAfter (groupId_congr signature) contained

/-- A visit leaves the hashes of blocks alone that are in a table. -/
def VisitKeepsHashes
    (visit : SingleTypeKVCacheManager H -> BlockPool H ->
      Except ManagerError (A × SingleTypeKVCacheManager H × BlockPool H))
    (manager : SingleTypeKVCacheManager H) : Prop :=
  ∀ others pool free output after poolAfter, manager.Tables others pool free ->
    visit manager pool = .ok (output, after, poolAfter) ->
    ∀ block key, block ≠ pool.nullBlock -> 0 < others block + manager.tableCount block ->
      pool.blockHash block = some key ->
      poolAfter.blockHash block = some key /\ manager.tableCount block <= after.tableCount block

theorem run_keepsHash (keepsHashes : ∀ manager, VisitKeepsHashes visit manager)
    (done : coordinator.run visit = .ok (outputs, after)) {key : BlockHashWithGroupId H}
    (notNull : block ≠ coordinator.blockPool.nullBlock)
    (held : 0 < heldBy coordinator.singleTypeManagers block)
    (hash : coordinator.blockPool.blockHash block = some key) :
    after.blockPool.blockHash block = some key /\ 0 < heldBy after.singleTypeManagers block := by
  refine (accounted.invariant
    (fun managers current => current.blockHash block = some key /\ 0 < heldBy managers block)
    (fun manager _ => keeps manager) ?_ ⟨hash, held⟩ done).2
  rintro manager - before rest current free output after next here same - - visited ⟨hash, held⟩
  rw [heldBy_around] at held
  rcases keepsHashes manager _ current free output after next here.focus visited block key
    (same.nullBlock ▸ notNull) held hash with ⟨hashAfter, _⟩
  refine ⟨hashAfter, ?_⟩
  rw [heldBy_around]
  omega

end

variable (requestId : RequestId)

theorem removeSkippedBlocks_contained (totalComputedTokens : Nat)
    (manager : SingleTypeKVCacheManager H) :
    VisitContained (silently (fun manager pool =>
      manager.removeSkippedBlocks pool requestId totalComputedTokens)) manager := by
  intro others pool free output after poolAfter tables alone visited
  exact (removeSkippedBlocks_removes tables visited).contained

theorem free_contained (manager : SingleTypeKVCacheManager H) :
    VisitContained (silently (fun manager pool => manager.free pool requestId)) manager := by
  intro others pool free output after poolAfter tables alone visited
  rcases free_spec tables with
    ⟨_, _, _, result, -, -, hashes, frame, empty, -⟩
  rw [silently_eq_ok visited] at result
  cases result
  apply contained_of_fewer
  · intro block key hash
    rwa [hashes.blockHash] at hash
  intro block notNull
  apply frame.tableCount_le
  rw [empty]
  exact Nat.zero_le _

variable [DecidableEq H]

variable (requestId : RequestId) (request : Request H) (numTokens : Nat)

theorem allocateNewBlocks_contained
    (numMain numEncoderTokens : Nat) (manager : SingleTypeKVCacheManager H) :
    VisitContained (fun manager pool => manager.allocateNewBlocks pool requestId
      (match manager.kvCacheSpec.kind with
        | .crossAttention => numEncoderTokens
        | _ => numTokens) numMain) manager := by
  intro others pool free output after poolAfter tables alone visited
  rcases allocateNewBlocks_takes tables visited with
    ⟨_, _, _, takes⟩
  exact takes.contained tables

theorem allocateNewBlocks_keepsHashes
    (numMain numEncoderTokens : Nat) (manager : SingleTypeKVCacheManager H) :
    VisitKeepsHashes (fun manager pool => manager.allocateNewBlocks pool requestId
      (match manager.kvCacheSpec.kind with
        | .crossAttention => numEncoderTokens
        | _ => numTokens) numMain) manager := by
  intro others pool free output after poolAfter tables visited block key notNull held hash
  rcases allocateNewBlocks_takes tables visited with
    ⟨_, taken, _, takes⟩
  have notTaken : block ∉ taken := by
    intro isTaken
    have unheld := ((tables.owned.free_iff block).mp (takes.taken_free isTaken)).2.2
    omega
  refine ⟨(takes.forgets.kept block notTaken).trans hash, ?_⟩
  have counts := takes.frame.counts block
  rw [takes.blocks, count_append, takes.counts block notNull] at counts
  omega

theorem cacheBlocks_contained (manager : SingleTypeKVCacheManager H) :
    VisitContained (silently (fun manager pool => manager.cacheBlocks pool request numTokens))
      manager := by
  intro others pool free output after poolAfter tables alone visited
  exact (cacheBlocks_caches tables (silently_eq_ok visited)).contained alone

theorem cacheBlocks_keepsHashes (manager : SingleTypeKVCacheManager H) :
    VisitKeepsHashes (silently (fun manager pool => manager.cacheBlocks pool request numTokens))
      manager := by
  intro others pool free output after poolAfter tables visited block key notNull held hash
  have caches := cacheBlocks_caches tables (silently_eq_ok visited)
  refine ⟨?_, ?_⟩
  · rcases caches.hashes block with same | ⟨-, -, unhashed, -⟩
    · exact same.trans hash
    rw [unhashed] at hash
    cases hash
  have counts := caches.frame.counts block
  rw [caches.blocks] at counts
  omega

end Sweeps

end Separate

end Vllm.KVCache
