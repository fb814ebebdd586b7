import Vllm.Foundation.System
import Vllm.KVCache.Coordination

namespace Vllm.KVCache

open Foundation SingleTypeKVCacheManager List

/-!
# Block ownership

Every entry of a block table is a reference to its block, and the pool counts
these references.  A block is in the free queue exactly if nothing refers to it.
This holds along every sequence of calls of the cache manager, as long as a
lookup does not return more blocks than the tokens of a request fill when a
connector adds tokens to it.  Otherwise the manager asks the pool for a negative
number of blocks, and the counter of free blocks goes wrong.
-/

variable {requestId : RequestId}

section Visits

variable {H : Type} {manager after : SingleTypeKVCacheManager H} {pool poolAfter : BlockPool H}

theorem silently_eq_ok {visit : SingleTypeKVCacheManager H -> BlockPool H ->
      Except ManagerError (SingleTypeKVCacheManager H × BlockPool H)} {output : Unit}
    (visited : silently visit manager pool = .ok (output, after, poolAfter)) :
    visit manager pool = .ok (after, poolAfter) := by
  unfold silently at visited
  split at visited
  · cases visited
  case h_2 result isResult =>
    cases visited
    exact isResult

theorem removeSkippedBlocks_removes {others : BlockId -> Nat} {free : List BlockId}
    {numComputed : Nat} {output : Unit} (tables : manager.Tables others pool free)
    (visited : silently (fun manager pool =>
      manager.removeSkippedBlocks pool requestId numComputed) manager pool =
        .ok (output, after, poolAfter)) :
    Removes others requestId (manager.numRemovable numComputed) manager after pool
      poolAfter free := by
  rcases removeSkippedBlocks_spec tables with
    ⟨_, _, result, removes⟩
  rw [silently_eq_ok visited] at result
  cases result
  exact removes

theorem removeSkippedBlocks_keeps (numComputed : Nat)
    (start : BlockPool H) (manager : SingleTypeKVCacheManager H) :
    VisitKeepsTables (silently (fun manager pool =>
      manager.removeSkippedBlocks pool requestId numComputed)) start manager := by
  intro others pool free output after poolAfter same tables visited
  have removes := removeSkippedBlocks_removes tables visited
  rcases removes.tables with ⟨_, tablesAfter⟩
  exact ⟨⟨_, tablesAfter⟩, removes.same, removes.frame.signature⟩

theorem free_keeps (start : BlockPool H)
    (manager : SingleTypeKVCacheManager H) :
    VisitKeepsTables (silently (fun manager pool => manager.free pool requestId)) start
      manager := by
  intro others pool free output after poolAfter same tables visited
  rcases free_spec tables with
    ⟨_, _, _, result, tablesAfter, sameAfter, -, frame, -⟩
  rw [silently_eq_ok visited] at result
  cases result
  exact ⟨⟨_, tablesAfter⟩, sameAfter, frame.signature⟩

variable [DecidableEq H]

/-- What a manager relies on when a request enters its hits. -/
structure EntersSafely (pool : BlockPool H) (newComputedBlocks : List (List BlockId))
    (numLocalComputedTokens numExternalComputedTokens : Nat)
    (manager : SingleTypeKVCacheManager H) : Prop where
  valid : ∀ block ∈ newComputedBlocks.getD manager.kvCacheGroupId [],
    block = pool.nullBlock \/ block < pool.numGpuBlocks
  distinct : Distinct pool.nullBlock (newComputedBlocks.getD manager.kvCacheGroupId [])
  fit : manager.HitsFit (newComputedBlocks.getD manager.kvCacheGroupId []) numLocalComputedTokens
    numExternalComputedTokens

theorem allocateNewComputedBlocks_keeps
    {newComputedBlocks : List (List BlockId)}
    {numLocalComputedTokens numExternalComputedTokens : Nat} {start : BlockPool H}
    (safe : EntersSafely start newComputedBlocks numLocalComputedTokens
      numExternalComputedTokens manager) :
    VisitKeepsTables (silently (fun manager pool =>
      manager.allocateNewComputedBlocks pool requestId
        (newComputedBlocks.getD manager.kvCacheGroupId []) numLocalComputedTokens
        numExternalComputedTokens)) start manager := by
  intro others pool free output after poolAfter same tables visited
  rcases allocateNewComputedBlocks_cases tables
    (by rw [same.nullBlock, same.numGpuBlocks]; exact safe.valid)
    (by rw [same.nullBlock]; exact safe.distinct) safe.fit (silently_eq_ok visited) with
    ⟨-, rfl, rfl, -⟩ | ⟨-, -, -, _, freeAfter, enters⟩
  · exact ⟨⟨free, tables⟩, SamePool.refl poolAfter, rfl⟩
  · exact ⟨⟨freeAfter, enters.tables⟩, enters.same, enters.frame.signature⟩

theorem allocateNewBlocks_keeps {numMain : Nat} (numTokens numEncoderTokens : Nat)
    (start : BlockPool H) (manager : SingleTypeKVCacheManager H) :
    VisitKeepsTables (fun manager pool => manager.allocateNewBlocks pool requestId
      (match manager.kvCacheSpec.kind with
        | .crossAttention => numEncoderTokens
        | _ => numTokens) numMain) start manager := by
  intro others pool free output after poolAfter same tables visited
  rcases allocateNewBlocks_takes tables visited with
    ⟨_, _, freeAfter, takes⟩
  exact ⟨⟨freeAfter, takes.tables⟩, takes.same, takes.frame.signature⟩

theorem cacheBlocks_keeps {request : Request H} (numTokens : Nat) (start : BlockPool H)
    (manager : SingleTypeKVCacheManager H) :
    VisitKeepsTables (silently (fun manager pool => manager.cacheBlocks pool request numTokens))
      start manager := by
  intro others pool free output after poolAfter same tables visited
  have caches := cacheBlocks_caches tables (silently_eq_ok visited)
  exact ⟨⟨free, caches.tables⟩, caches.same, caches.frame.signature⟩

end Visits

variable {config : CoordinatorConfig} {spec : KVCacheSpec}

section Slots

variable {H : Type}

/-- The blocks of requests are made of the blocks that are hashed, if there is a
cache at all. -/
theorem CoordinatorConfig.hashBlockSize_dvd (caching : config.enableCaching = true) {groupId : Nat}
    (isSpec : config.specOf groupId = some spec) :
    config.hashBlockSize ∣ spec.blockSize := by
  rcases Option.map_eq_some_iff.mp isSpec with ⟨group, present, rfl⟩
  cases config with
  | noPrefixCache groups hashBlockSize => cases caching
  | unitary single useEagle =>
    have same : group = single := by
      simpa [CoordinatorConfig.kvCacheGroups] using mem_of_getElem? present
    rw [same]
    exact Nat.dvd_refl _
  | hybrid config => exact config.divisible group (mem_of_getElem? present)

theorem CoordinatorConfig.covers (caching : config.enableCaching = true) {groupId : Nat}
    (isSpec : config.specOf groupId = some spec) :
    0 < config.hashBlockSize /\ config.hashBlockSize <= spec.blockSize :=
  have divides := hashBlockSize_dvd caching isSpec
  ⟨Nat.pos_of_dvd_of_pos divides spec.blockSize_pos, Nat.le_of_dvd spec.blockSize_pos divides⟩

variable {manager : KVCacheManager H} {request : Request H} {single : SingleTypeKVCacheManager H}
  {demand : SlotDemand} {coordinator after : KVCacheCoordinator H} {outputs : List Unit}
  {numTokens : Nat}

theorem getComputedBlocks_hitTable (accounted : Accounted manager.coordinator)
    {hits : List (List BlockId)}
    (result : manager.getComputedBlocks request = .ok (hits, numTokens))
    (member : single ∈ manager.coordinator.singleTypeManagers) :
    HitTable manager.coordinator.blockPool single.kvCacheGroupId
      (hits.getD single.kvCacheGroupId []) := by
  rcases accounted.configured.manager member with ⟨isSpec, -⟩
  rcases accounted.pooled with ⟨_, pooled⟩
  cases caching : manager.coordinator.config.enableCaching with
  | true =>
    rcases CoordinatorConfig.covers caching isSpec with ⟨positive, covers⟩
    rw [<- accounted.configured.hashBlockSize] at positive covers
    exact (getComputedBlocks_fromCache result isSpec).hitTable pooled.indexed
      request.blockHashes_nodup covers positive
  | false =>
    have disabled : manager.enableCaching = false := caching
    simp only [KVCacheManager.getComputedBlocks, disabled, true_or, if_true, Except.ok.injEq,
      Prod.mk.injEq] at result
    have empty : hits.getD single.kvCacheGroupId [] = [] := by
      rw [<- result.1, getD_eq_getElem?_getD, List.getElem?_map]
      cases manager.coordinator.config.kvCacheGroups[single.kvCacheGroupId]? <;> rfl
    rw [empty]
    exact hitTable_nil

/-- The hits of a call were just returned by a lookup, or there are none. -/
def JustLookedUp (manager : KVCacheManager H) (request : Request H) (demand : SlotDemand) : Prop :=
  demand.newComputedBlocks = [] \/ manager.getComputedBlocks request =
    .ok (demand.newComputedBlocks, demand.numNewComputedTokens)

/-- In no group do the hits reach beyond the computed tokens of the request,
if a connector adds some. -/
def HitsFitTokens (manager : KVCacheManager H) (request : Request H) (demand : SlotDemand) : Prop :=
  ∀ single ∈ manager.coordinator.singleTypeManagers,
    single.HitsFit (demand.newComputedBlocks.getD single.kvCacheGroupId [])
      (KVCacheManager.numLocalComputedTokens request demand) demand.numExternalComputedTokens

theorem JustLookedUp.hitTable (looked : JustLookedUp manager request demand)
    (accounted : Accounted manager.coordinator)
    (member : single ∈ manager.coordinator.singleTypeManagers) :
    HitTable manager.coordinator.blockPool single.kvCacheGroupId
      (demand.newComputedBlocks.getD single.kvCacheGroupId []) := by
  rcases looked with none_new | result
  · rw [none_new]
    exact hitTable_nil
  · exact getComputedBlocks_hitTable accounted result member

/-- Managers with the same signatures rely on the same facts about hits. -/
theorem exists_signature {managers others : List (SingleTypeKVCacheManager H)}
    (shape : others.map signature = managers.map signature) (member : single ∈ others) :
    ∃ manager ∈ managers, single.signature = manager.signature := by
  have signed : single.signature ∈ managers.map signature := by
    rw [<- shape]
    exact mem_map_of_mem member
  rcases mem_map.mp signed with ⟨manager, inside, equal⟩
  exact ⟨manager, inside, equal.symm⟩

theorem entersSafely (accounted : Accounted manager.coordinator)
    (looked : JustLookedUp manager request demand) (fit : HitsFitTokens manager request demand)
    (continues : Continues manager.coordinator coordinator)
    (member : single ∈ coordinator.singleTypeManagers) :
    EntersSafely coordinator.blockPool demand.newComputedBlocks
      (KVCacheManager.numLocalComputedTokens request demand) demand.numExternalComputedTokens
      single := by
  rcases exists_signature continues.shape member with ⟨original, inside, signature⟩
  have spec := kvCacheSpec_congr signature
  have groupId := groupId_congr signature
  have table := looked.hitTable accounted inside
  rcases accounted.pooled with ⟨_, pooled⟩
  refine ⟨?_, ?_, ?_⟩
  · rw [groupId, continues.same.nullBlock, continues.same.numGpuBlocks]
    intro block isHit
    by_cases isNull : block = manager.coordinator.blockPool.nullBlock
    · exact Or.inl isNull
    rcases table.hashed block isHit isNull with ⟨_, isHash⟩
    exact Or.inr (pooled.indexed.valid block _ isHash).1
  · rw [groupId, continues.same.nullBlock]
    exact table.distinct
  have fits := fit original inside
  unfold HitsFit blockSize at fits ⊢
  rw [groupId, spec]
  exact fits

variable [DecidableEq H]

theorem enterComputed_eq_ok
    (done : KVCacheManager.enterComputed request demand coordinator = .ok (outputs, after)) :
    ((∀ hits ∈ demand.newComputedBlocks, hits = []) /\ demand.numExternalComputedTokens = 0 /\
        after = coordinator) \/
      coordinator.allocateNewComputedBlocks request.requestId demand.newComputedBlocks
        (KVCacheManager.numLocalComputedTokens request demand) demand.numExternalComputedTokens =
          .ok (outputs, after) := by
  unfold KVCacheManager.enterComputed at done
  split at done
  · exact Or.inr done
  case isFalse nothing =>
    cases done
    rw [not_or] at nothing
    refine Or.inl ⟨?_, Nat.eq_zero_of_not_pos nothing.2, rfl⟩
    simpa using nothing.1

theorem commitBlocks_eq_ok
    (done : manager.commitBlocks request demand coordinator = .ok (outputs, after)) :
    after = coordinator \/ ∃ numTokens,
      coordinator.cacheBlocks request numTokens = .ok (outputs, after) := by
  unfold KVCacheManager.commitBlocks at done
  split at done
  · cases done
    exact Or.inl rfl
  · exact Or.inr ⟨_, done⟩

variable {newBlocks : List (List BlockId)}

theorem takeSlots_eq_ok
    (done : manager.takeSlots request demand coordinator = .ok (newBlocks, after)) :
    ∃ enterOutputs entered extended commitOutputs,
      KVCacheManager.enterComputed request demand coordinator = .ok (enterOutputs, entered) /\
      entered.allocateNewBlocks request.requestId (manager.numTokensNeedSlot request demand)
        (manager.numTokensMainModel request demand) demand.numEncoderTokens =
          .ok (newBlocks, extended) /\
      manager.commitBlocks request demand extended = .ok (commitOutputs, after) := by
  unfold KVCacheManager.takeSlots at done
  split at done
  · cases done
  case h_2 enterOutputs entered isEntered =>
    split at done
    · cases done
    case h_2 blocks extended isExtended =>
      split at done
      · cases done
      case h_2 commitOutputs committed isCommitted =>
        cases done
        exact ⟨enterOutputs, entered, extended, commitOutputs, isEntered, isExtended, isCommitted⟩

variable {result : Option (List (List BlockId))}

/-- Slots are taken after blocks outside the window were removed, if enough
blocks are free then. -/
theorem allocateSlots_eq_ok {after : KVCacheManager H}
    (done : manager.allocateSlots request demand = .ok (result, after)) :
    ∃ outputs removed, manager.coordinator.removeSkippedBlocks request.requestId
        (manager.totalComputedTokens request demand) = .ok (outputs, removed) /\
      ((result = none /\ after = { manager with coordinator := removed }) \/
        ∃ newBlocks taken, result = some newBlocks /\
          manager.takeSlots request demand removed = .ok (newBlocks, taken) /\
          after = { manager with coordinator := taken }) := by
  unfold KVCacheManager.allocateSlots at done
  split at done
  · cases done
  split at done
  · cases done
  case h_2 outputs removed isRemoved =>
    refine ⟨outputs, removed, isRemoved, ?_⟩
    split at done
    · cases done
    split at done
    · cases done
      exact Or.inl ⟨rfl, rfl⟩
    split at done
    · cases done
    case h_2 newBlocks taken isTaken =>
      cases done
      exact Or.inr ⟨newBlocks, taken, rfl, isTaken, rfl⟩

section

variable (accounted : Accounted coordinator)
include accounted

omit [DecidableEq H] in
theorem removeSkippedBlocks_continues
    (done : coordinator.removeSkippedBlocks requestId numTokens = .ok (outputs, after)) :
    Continues coordinator after :=
  accounted.run (fun single _ => removeSkippedBlocks_keeps numTokens _ single) done

theorem allocateNewBlocks_continues {numMain numEncoderTokens : Nat}
    (done : coordinator.allocateNewBlocks requestId numTokens numMain
      numEncoderTokens = .ok (newBlocks, after)) : Continues coordinator after :=
  accounted.run (fun single _ =>
    allocateNewBlocks_keeps numTokens _ _ single) done

theorem cacheBlocks_continues
    (done : coordinator.cacheBlocks request numTokens = .ok (outputs, after)) :
    Continues coordinator after :=
  accounted.run (fun single _ => cacheBlocks_keeps numTokens _ single) done

theorem commitBlocks_continues
    (done : manager.commitBlocks request demand coordinator = .ok (outputs, after)) :
    Continues coordinator after := by
  rcases commitBlocks_eq_ok done with rfl | ⟨_, cached⟩
  · exact Continues.refl accounted
  · exact cacheBlocks_continues accounted cached

end

section

variable (accounted : Accounted coordinator)
  (safe : ∀ single ∈ coordinator.singleTypeManagers,
    EntersSafely coordinator.blockPool demand.newComputedBlocks
      (KVCacheManager.numLocalComputedTokens request demand) demand.numExternalComputedTokens
      single)
include accounted safe

theorem enterComputed_continues
    (done : KVCacheManager.enterComputed request demand coordinator = .ok (outputs, after)) :
    Continues coordinator after := by
  rcases enterComputed_eq_ok done with ⟨-, -, rfl⟩ | entered
  · exact Continues.refl accounted
  exact accounted.run (fun single member =>
    allocateNewComputedBlocks_keeps (safe single member)) entered

theorem takeSlots_continues
    (done : manager.takeSlots request demand coordinator = .ok (newBlocks, after)) :
    Continues coordinator after := by
  rcases takeSlots_eq_ok done with ⟨_, _, _, _, isEntered, isExtended, isCommitted⟩
  have first := enterComputed_continues accounted safe isEntered
  have second := allocateNewBlocks_continues first.accounted isExtended
  exact (first.trans second).trans (commitBlocks_continues second.accounted isCommitted)

end

theorem allocateSlots_continues {after : KVCacheManager H}
    (accounted : Accounted manager.coordinator) (looked : JustLookedUp manager request demand)
    (fit : HitsFitTokens manager request demand)
    (done : manager.allocateSlots request demand = .ok (result, after)) :
    Continues manager.coordinator after.coordinator := by
  rcases allocateSlots_eq_ok done with ⟨_, _, isRemoved, outcome⟩
  have first := removeSkippedBlocks_continues accounted isRemoved
  rcases outcome with ⟨-, rfl⟩ | ⟨_, _, -, isTaken, rfl⟩
  · exact first
  exact first.trans (takeSlots_continues first.accounted
    (fun single member => entersSafely accounted looked fit first member) isTaken)

end Slots

/-- The calls that change the state of the cache manager. -/
inductive CacheCall (H : Type) where
  | allocateSlots (request : Request H) (demand : SlotDemand)
  | cacheBlocks (request : Request H) (numComputedTokens : Nat)
  | removeSkippedBlocks (requestId : RequestId) (totalComputedTokens : Nat)
  | free (requestId : RequestId)
  | evictBlocks (blockIds : List BlockId)
  | resetPrefixCache
  | newStepStarts

section Calls

variable {H : Type} [DecidableEq H]

variable (manager : KVCacheManager H)

/-- The state after a call. -/
def KVCacheManager.call : CacheCall H -> Except ManagerError (KVCacheManager H)
  | .allocateSlots request demand =>
    match manager.allocateSlots request demand with
    | .error error => .error error
    | .ok (_, after) => .ok after
  | .cacheBlocks request numComputedTokens => manager.cacheBlocks request numComputedTokens
  | .removeSkippedBlocks requestId totalComputedTokens =>
    manager.removeSkippedBlocks requestId totalComputedTokens
  | .free requestId => manager.free requestId
  | .evictBlocks blockIds => manager.evictBlocks blockIds
  | .resetPrefixCache => .ok manager.resetPrefixCache.2
  | .newStepStarts => .ok manager.newStepStarts

/-- Slots are allocated with the hits of a lookup right before, or without. -/
def CallPermitted : CacheCall H -> Prop
  | .allocateSlots request demand => JustLookedUp manager request demand
  | _ => True

/-- All sequences of calls on a new cache manager.  An exception ends a
sequence. -/
def cacheSystem (H : Type) [DecidableEq H] : System (KVCacheManager H) (CacheCall H) where
  initial manager := ∃ config numBlocks maxNumBatchedTokens maxModelLen,
    KVCacheManager.init config numBlocks maxNumBatchedTokens maxModelLen = .ok manager
  step manager call after := CallPermitted manager call /\ manager.call call = .ok after

/-- The condition on calls with external tokens: no group is given more hits
than the tokens that are computed before the call fill.  It leaves out the calls
whose lookup found a longer hit in one group than in the others, for which the
manager asks the pool for a negative number of blocks.  Calls without external
tokens are free, and so is everything besides `allocateSlots`. -/
def CallFits : CacheCall H -> Prop
  | .allocateSlots request demand => HitsFitTokens manager request demand
  | _ => True

omit [DecidableEq H] in
theorem heldBy_init {maxBatched maxModelLen : Nat} (block : BlockId) :
    heldBy (config.kvCacheGroups.mapIdx (fun groupId group =>
      (init group.kvCacheSpec config.enableCaching groupId
        maxBatched maxModelLen : SingleTypeKVCacheManager H))) block = 0 := by
  unfold heldBy
  apply sum_eq_zero
  intro count member
  rcases mem_map.mp member with ⟨_, inside, rfl⟩
  rcases mem_mapIdx.mp inside with ⟨_, _, rfl⟩
  rfl

variable {manager} {numBlocks maxBatched maxModelLen : Nat}
  {condition : KVCacheManager H -> CacheCall H -> Prop}

section

omit [DecidableEq H]

section

variable (created : KVCacheManager.init config numBlocks maxBatched maxModelLen = .ok manager)
include created

theorem init_eq_ok :
    ∃ pool, BlockPool.init numBlocks config.enableCaching config.hashBlockSize = .ok pool /\
      manager = ⟨maxModelLen, ⟨config, pool, config.kvCacheGroups.mapIdx (fun groupId group =>
        init group.kvCacheSpec config.enableCaching groupId maxBatched maxModelLen)⟩⟩ := by
  unfold KVCacheManager.init KVCacheCoordinator.init at created
  cases isPool : (BlockPool.init numBlocks config.enableCaching config.hashBlockSize :
      Except PoolError (BlockPool H)) with
  | error error => simp [isPool] at created
  | ok pool =>
    simp only [isPool, Except.ok.injEq] at created
    exact ⟨pool, rfl, created.symm⟩

theorem init_accounted : Accounted manager.coordinator := by
  rcases init_eq_ok created with ⟨_, isPool, rfl⟩
  rcases init_spec isPool with ⟨indexed, caching, hashBlockSize, -, -, free, owned⟩
  refine ⟨⟨hashBlockSize, caching, ?_⟩, free, ?_, indexed, ?_⟩
  · apply ext_getElem?
    intro groupId
    rw [List.getElem?_map, List.getElem?_mapIdx, List.getElem?_mapIdx, Option.map_map]
    rfl
  · exact owned.congr (fun block _ => heldBy_init block)
  intro single member requestId
  rcases mem_mapIdx.mp member with ⟨_, _, rfl⟩
  exact fun block _ => Nat.zero_le 1

end

theorem newStepStarts_eq {single : SingleTypeKVCacheManager H} :
    ∃ keys, single.newStepStarts = { single with cachedBlocksThisStep := keys } := by
  unfold newStepStarts
  split <;> exact ⟨_, rfl⟩

section

variable {managers : List (SingleTypeKVCacheManager H)}

theorem mem_newStepStarts {single : SingleTypeKVCacheManager H}
    (member : single ∈ managers.map newStepStarts) :
    ∃ original ∈ managers, ∃ keys, single = { original with cachedBlocksThisStep := keys } := by
  rcases mem_map.mp member with ⟨original, inside, rfl⟩
  exact ⟨original, inside, newStepStarts_eq⟩

theorem map_newStepStarts {A : Type} {measure : SingleTypeKVCacheManager H -> A}
    (same : ∀ single keys, measure { single with cachedBlocksThisStep := keys } =
      measure single) : (managers.map newStepStarts).map measure = managers.map measure := by
  rw [map_map]
  apply map_congr_left
  intro single _
  rcases newStepStarts_eq with ⟨keys, isStarted⟩
  rw [Function.comp_apply, isStarted]
  exact same single keys

end

end

variable {coordinator : KVCacheCoordinator H} {call : CacheCall H}

section

omit [DecidableEq H]

theorem newStepStarts_continues (accounted : Accounted coordinator) :
    Continues coordinator coordinator.newStepStarts := by
  have shape : coordinator.newStepStarts.singleTypeManagers.map signature =
      coordinator.singleTypeManagers.map signature := map_newStepStarts (fun _ _ => rfl)
  rcases accounted.pooled with ⟨free, pooled⟩
  refine ⟨⟨accounted.configured.update (SamePool.refl _) shape, free,
    pooled.owned.congr (fun block _ => congrArg List.sum (map_newStepStarts (fun _ _ => rfl))),
    pooled.indexed, ?_⟩, rfl, SamePool.refl _, shape⟩
  intro single member requestId
  rcases mem_newStepStarts member with ⟨original, inside, _, rfl⟩
  exact pooled.distinct original inside requestId

theorem Accounted.setHashes (accounted : Accounted coordinator) {pool : BlockPool H}
    (same : SamePool coordinator.blockPool pool) (indexed : Indexed pool)
    (queue : pool.freeBlockQueue = coordinator.blockPool.freeBlockQueue)
    (refCnt : pool.refCnt = coordinator.blockPool.refCnt) :
    Continues coordinator { coordinator with blockPool := pool } := by
  rcases accounted.pooled with ⟨free, pooled⟩
  refine ⟨⟨accounted.configured.update same rfl, free, pooled.owned.of_same same queue refCnt,
    indexed, ?_⟩, rfl, same, rfl⟩
  intro single member requestId
  rw [same.nullBlock]
  exact pooled.distinct single member requestId

theorem withCoordinator_eq_ok {A : Type} {after : KVCacheManager H}
    {result : Except ManagerError (A × KVCacheCoordinator H)}
    (done : manager.withCoordinator result = .ok after) :
    ∃ output coordinator, result = .ok (output, coordinator) /\
      after = { manager with coordinator := coordinator } := by
  cases result with
  | error error => cases done
  | ok value =>
    cases done
    exact ⟨value.1, value.2, rfl, rfl⟩

end

/-- What a call that succeeded did. -/
inductive CallEffect (manager : KVCacheManager H) : CacheCall H -> KVCacheManager H -> Prop where
  | allocated {request demand result after}
    (done : manager.allocateSlots request demand = .ok (result, after)) :
    CallEffect manager (.allocateSlots request demand) after
  | cached {request numTokens outputs after} (caching : manager.enableCaching = true)
    (done : manager.coordinator.cacheBlocks request numTokens = .ok (outputs, after)) :
    CallEffect manager (.cacheBlocks request numTokens) { manager with coordinator := after }
  | skipped {request numTokens} : CallEffect manager (.cacheBlocks request numTokens) manager
  | removed {requestId numTokens outputs after}
    (done : manager.coordinator.removeSkippedBlocks requestId numTokens = .ok (outputs, after)) :
    CallEffect manager (.removeSkippedBlocks requestId numTokens)
      { manager with coordinator := after }
  | freed {requestId outputs after}
    (done : manager.coordinator.free requestId = .ok (outputs, after)) :
    CallEffect manager (.free requestId) { manager with coordinator := after }
  | forgot {call pool} (same : SamePool manager.coordinator.blockPool pool) (indexed : Indexed pool)
    (queue : pool.freeBlockQueue = manager.coordinator.blockPool.freeBlockQueue)
    (refCnt : pool.refCnt = manager.coordinator.blockPool.refCnt)
    (hashes : ∀ block,
      pool.blockHash block = manager.coordinator.blockPool.blockHash block \/
        pool.blockHash block = none) :
    CallEffect manager call
      { manager with coordinator := { manager.coordinator with blockPool := pool } }
  | stepped : CallEffect manager .newStepStarts manager.newStepStarts

theorem call_effect {after : KVCacheManager H} (accounted : Accounted manager.coordinator)
    (done : manager.call call = .ok after) :
    CallEffect manager call after := by
  rcases accounted.pooled with ⟨free, pooled⟩
  cases call with
  | allocateSlots request demand =>
    simp only [KVCacheManager.call] at done
    split at done
    · cases done
    case h_2 allocated =>
      cases done
      exact .allocated allocated
  | cacheBlocks request numComputedTokens =>
    simp only [KVCacheManager.call, KVCacheManager.cacheBlocks] at done
    split at done
    case isTrue caching =>
      rcases withCoordinator_eq_ok done with ⟨_, _, result, rfl⟩
      exact .cached caching result
    case isFalse =>
      cases done
      exact .skipped
  | removeSkippedBlocks requestId numComputed =>
    rcases withCoordinator_eq_ok done with ⟨_, _, result, rfl⟩
    exact .removed result
  | free requestId =>
    rcases withCoordinator_eq_ok done with ⟨_, _, result, rfl⟩
    exact .freed result
  | evictBlocks blockIds =>
    simp only [KVCacheManager.call, KVCacheManager.evictBlocks] at done
    split at done
    · cases done
    case h_2 pool evicted =>
      cases done
      rcases evictBlocks_spec pooled.indexed evicted with ⟨same, indexed, queue, refCnt, hashes⟩
      exact .forgot same indexed queue refCnt hashes
  | resetPrefixCache =>
    cases done
    rcases resetPrefixCache_spec pooled.indexed with ⟨same, indexed, queue, refCnt, hashes⟩
    exact .forgot same indexed queue refCnt hashes
  | newStepStarts =>
    cases done
    exact .stepped

theorem call_continues {after : KVCacheManager H} (accounted : Accounted manager.coordinator)
    (permitted : CallPermitted manager call) (fits : CallFits manager call)
    (done : manager.call call = .ok after) :
    Continues manager.coordinator after.coordinator := by
  cases call_effect accounted done with
  | allocated allocated => exact allocateSlots_continues accounted permitted fits allocated
  | cached _ ran => exact cacheBlocks_continues accounted ran
  | skipped => exact Continues.refl accounted
  | removed ran => exact removeSkippedBlocks_continues accounted ran
  | freed ran => exact accounted.run (fun single _ => free_keeps _ single) ran
  | forgot same indexed queue refCnt _ => exact accounted.setHashes same indexed queue refCnt
  | stepped => exact newStepStarts_continues accounted

/-- The invariant of all sequences of calls that meet the condition. -/
theorem reachable_accounted (reachable : ((cacheSystem H).restrict CallFits).Reachable manager) :
    Accounted manager.coordinator := by
  refine reachable.invariant (fun manager => Accounted manager.coordinator) ?_ ?_
  · rintro state ⟨_, _, _, _, created⟩
    exact init_accounted created
  rintro state call after - accounted ⟨fits, permitted, done⟩
  exact (call_continues accounted permitted fits done).accounted

/-- The reference counts are the numbers of table entries, and the free queue
holds exactly the blocks that nothing refers to. -/
structure BlocksOwned (manager : KVCacheManager H) : Prop where
  refCnt : ∀ block, block < manager.coordinator.blockPool.numGpuBlocks ->
    block ≠ manager.coordinator.blockPool.nullBlock ->
    manager.coordinator.blockPool.refCnt block =
      heldBy manager.coordinator.singleTypeManagers block
  queue : ∃ free, manager.coordinator.blockPool.freeBlockQueue.Represents free /\
    ∀ block, block ∈ free <-> block < manager.coordinator.blockPool.numGpuBlocks /\
      block ≠ manager.coordinator.blockPool.nullBlock /\
      manager.coordinator.blockPool.refCnt block = 0
  null_unhashed :
    manager.coordinator.blockPool.blockHash manager.coordinator.blockPool.nullBlock = none

omit [DecidableEq H] in
theorem Accounted.blocksOwned (accounted : Accounted manager.coordinator) :
    BlocksOwned manager := by
  rcases accounted.pooled with ⟨free, pooled⟩
  refine ⟨fun block _ notNull => pooled.owned.refCnt block notNull,
    ⟨free, pooled.owned.represents, fun block => ?_⟩, ?_⟩
  · rw [pooled.owned.free_iff]
    constructor
    · rintro ⟨valid, notNull, unheld⟩
      exact ⟨valid, notNull, by rw [pooled.owned.refCnt block notNull, unheld]; rfl⟩
    rintro ⟨valid, notNull, unheld⟩
    rw [pooled.owned.refCnt block notNull] at unheld
    exact ⟨valid, notNull, by omega⟩
  cases hash : manager.coordinator.blockPool.blockHash
      manager.coordinator.blockPool.nullBlock with
  | none => rfl
  | some key => exact absurd rfl (pooled.indexed.valid _ key hash).2

/-- In every sequence of calls that meet the condition, blocks are owned by the
table entries that hold them. -/
theorem reachable_blocksOwned (manager : KVCacheManager H)
    (reachable : ((cacheSystem H).restrict CallFits).Reachable manager) : BlocksOwned manager :=
  (reachable_accounted reachable).blocksOwned

omit [DecidableEq H] in
instance (manager : KVCacheManager H) (request : Request H) (demand : SlotDemand) :
    Decidable (JustLookedUp manager request demand) :=
  inferInstanceAs (Decidable (_ \/ _))

omit [DecidableEq H] in
instance (manager : KVCacheManager H) (request : Request H) (demand : SlotDemand) :
    Decidable (HitsFitTokens manager request demand) :=
  inferInstanceAs (Decidable (∀ single ∈ manager.coordinator.singleTypeManagers, _ \/ _))

instance : (manager : KVCacheManager H) -> (call : CacheCall H) ->
    Decidable (CallPermitted manager call)
  | manager, .allocateSlots request demand =>
    inferInstanceAs (Decidable (JustLookedUp manager request demand))
  | _, .cacheBlocks _ _ | _, .removeSkippedBlocks _ _ | _, .free _ | _, .evictBlocks _
  | _, .resetPrefixCache | _, .newStepStarts => inferInstanceAs (Decidable True)

omit [DecidableEq H] in
instance : (manager : KVCacheManager H) -> (call : CacheCall H) -> Decidable (CallFits manager call)
  | manager, .allocateSlots request demand =>
    inferInstanceAs (Decidable (HitsFitTokens manager request demand))
  | _, .cacheBlocks _ _ | _, .removeSkippedBlocks _ _ | _, .free _ | _, .evictBlocks _
  | _, .resetPrefixCache | _, .newStepStarts => inferInstanceAs (Decidable True)

/-- The result of a permitted call that meets a further condition. -/
def nextState (condition : KVCacheManager H -> CacheCall H -> Prop)
    [∀ manager call, Decidable (condition manager call)] (manager : KVCacheManager H)
    (call : CacheCall H) : Option (KVCacheManager H) :=
  if condition manager call /\ CallPermitted manager call then (manager.call call).toOption else none

def afterCalls (condition : KVCacheManager H -> CacheCall H -> Prop)
    [∀ manager call, Decidable (condition manager call)] (config : CoordinatorConfig)
    (numBlocks maxNumBatchedTokens maxModelLen : Nat) (calls : List (CacheCall H)) :
    Option (KVCacheManager H) :=
  (KVCacheManager.init config numBlocks maxNumBatchedTokens maxModelLen).toOption.bind
    (System.run (nextState condition) calls)

variable {calls : List (CacheCall H)}

theorem afterCalls_reachable [∀ manager call, Decidable (condition manager call)]
    (ran : afterCalls condition config numBlocks maxBatched maxModelLen calls = some manager) :
    ((cacheSystem H).restrict condition).Reachable manager := by
  unfold afterCalls at ran
  rcases Option.bind_eq_some_iff.mp ran with ⟨start, isStart, later⟩
  have initial : ((cacheSystem H).restrict condition).initial start :=
    ⟨config, numBlocks, maxBatched, maxModelLen, System.ok_of_toOption isStart⟩
  refine System.Reachable.run_where ?_ (.start initial) later
  exact fun _ _ _ allowed isNext => ⟨allowed.1, allowed.2, isNext⟩

theorem exists_afterCalls [∀ manager call, Decidable (condition manager call)]
    {property : KVCacheManager H -> Prop} [DecidablePred property]
    (holds : (afterCalls condition config numBlocks maxBatched maxModelLen calls).map
      (fun manager => decide (property manager)) = some true) :
    ∃ manager, afterCalls condition config numBlocks maxBatched maxModelLen calls =
      some manager /\ property manager := by
  rcases Option.map_eq_some_iff.mp holds with ⟨manager, ran, isTrue⟩
  exact ⟨manager, ran, of_decide_eq_true isTrue⟩

omit [DecidableEq H] in
/-- The counter of free blocks is the number of blocks without references. -/
theorem BlocksOwned.numFreeBlocks (owned : BlocksOwned manager) :
    manager.coordinator.blockPool.freeBlockQueue.numFreeBlocks =
      ((List.range manager.coordinator.blockPool.numGpuBlocks).filter (fun block =>
        block ≠ manager.coordinator.blockPool.nullBlock /\
          manager.coordinator.blockPool.refCnt block = 0)).length := by
  rcases owned.queue with ⟨_, represents, member⟩
  rw [represents.count]
  congr 1
  apply List.Perm.length_eq
  rw [perm_ext_iff_of_nodup represents.nodup (nodup_range.filter _)]
  intro block
  rw [member, mem_filter, mem_range]
  simp

end Calls

def threeBlockRequest (requestId : RequestId) (numTokens : Nat) : Request Nat where
  requestId := requestId
  numTokens := numTokens
  numComputedTokens := 0
  blockHashes := [0, 1, 2]
  blockHashes_nodup := by decide
  skipReadingPrefixCache := false

/-- A first request fills three blocks in every group and is freed.  Two blocks
of the window group are evicted.  Then a second request with the same tokens is
given the hits of the remaining blocks, and some external tokens. -/
def callsWithExternalTokens (numExternalComputedTokens : Nat) : List (CacheCall Nat) :=
  [.allocateSlots (threeBlockRequest "first" 48) ⟨48, 0, [], 0, 0, false, 0⟩,
    .free "first",
    .evictBlocks [8, 9],
    .allocateSlots (threeBlockRequest "second" 49)
      ⟨1, 16, [[1], [4, 5, 6], [7]], 0, numExternalComputedTokens, false, 0⟩]

/-- The second layout of full attention keeps three hits, but the computed
tokens of the request fill two blocks.  The pool is asked for `2 - 3` blocks. -/
theorem long_hits_miscount_free_blocks :
    ∃ manager, (cacheSystem Nat).Reachable manager /\ ¬ BlocksOwned manager := by
  have counts : (afterCalls (fun _ _ => True) (.hybrid twoLayoutsConfig) 20 64 64
      (callsWithExternalTokens 5)).map (fun manager =>
        (manager.coordinator.blockPool.freeBlockQueue.numFreeBlocks,
          ((List.range manager.coordinator.blockPool.numGpuBlocks).filter (fun block =>
            block ≠ manager.coordinator.blockPool.nullBlock /\
              manager.coordinator.blockPool.refCnt block = 0)).length)) = some (13, 12) := by
    decide +kernel
  rcases Option.map_eq_some_iff.mp counts with ⟨manager, ran, pair⟩
  refine ⟨manager, (afterCalls_reachable ran).of_restrict, fun owned => ?_⟩
  rw [Prod.mk.injEq] at pair
  have count := owned.numFreeBlocks
  rw [pair.1, pair.2] at count
  exact absurd count (by decide)

/-- With more external tokens all hits are filled. -/
theorem filled_hits_owned :
    ∃ manager, afterCalls CallFits (.hybrid twoLayoutsConfig) 20 64 64
      (callsWithExternalTokens 17) = some manager /\ BlocksOwned manager := by
  have succeeds : (afterCalls CallFits (.hybrid twoLayoutsConfig) 20 64 64
      (callsWithExternalTokens 17)).isSome := by
    decide +kernel
  rcases Option.isSome_iff_exists.mp succeeds with ⟨manager, ran⟩
  exact ⟨manager, ran, reachable_blocksOwned manager (afterCalls_reachable ran)⟩

end Vllm.KVCache
