import Vllm.KVCache.HashIndex

namespace Vllm.KVCache

open List Foundation KVCacheCoordinator

/-!
# What callers of the cache manager rely on

The invariants of runs in the words of the callers: no call of the scheduler
raises, nobody else sees a block that is still being filled, and the prefix cache
can be reset exactly when no request holds a block.
-/

variable {H : Type} [DecidableEq H] {state : ScheduledCache H} {manager : KVCacheManager H}

/-- In every run whose calls are safe, the next safe call returns, unless it
evicts a block that does not exist. -/
theorem scheduled_call_returns (reachable : ((scheduledSystem H).restrict CallSafe).Reachable state)
    {call : CacheCall H} (scheduled : CallScheduled state call) (safe : CallSafe state call) :
    (∃ after, state.advance call = .ok after) \/
      ∃ block, state.advance call = .error (.pool (.invalidBlockId block)) := by
  rcases advance_total (reachable_sound reachable) scheduled safe with ⟨after, done, -⟩ | failed
  · exact Or.inl ⟨after, done⟩
  · exact Or.inr failed

/-- In every run whose calls are safe, a table entry that is not cached yet is a
block that no lookup finds, and that no other request or group has as such an
entry. -/
theorem reachable_pending_exclusive
    (reachable : ((scheduledSystem H).restrict CallSafe).Reachable state)
    (caching : state.manager.coordinator.config.enableCaching = true)
    {single : SingleTypeKVCacheManager H} {requestId : RequestId} {block : BlockId}
    (member : single ∈ state.manager.coordinator.singleTypeManagers)
    (notNull : block ≠ state.manager.coordinator.blockPool.nullBlock)
    (isPending : block ∈ single.pending requestId) :
    (∀ key, state.manager.coordinator.blockPool.cachedBlockHashToBlock.getOneBlock key ≠
        some block) /\
      ∀ other ∈ state.manager.coordinator.singleTypeManagers, ∀ otherId,
        block ∈ other.pending otherId ->
          other.kvCacheGroupId = single.kvCacheGroupId /\ otherId = requestId := by
  have sound := reachable_sound reachable
  rcases sound.accounted.pooled with ⟨_, pooled⟩
  have pending := sound.pending caching
  refine ⟨fun key found => ?_, fun other inside otherId isOther => ?_⟩
  · have held := (pooled.indexed.holds_iff _ _).mp (getOneBlock_holds pooled.indexed.keyed found)
    rw [pending.unhashed single member requestId block isPending notNull] at held
    cases held
  · exact pending.once other inside single member otherId requestId block notNull isOther isPending

/-- The second step of the first request in `callsWithLongMambaHit`. -/
def secondStep : CacheCall Nat :=
  .allocateSlots (countingRequest "first" 5 2) ⟨2, 0, [], 0, 0, false, 0⟩

theorem exists_before_secondStep : ∃ state : ScheduledCache Nat,
    ((scheduledSystem Nat).restrict CallSafe).Reachable state /\
    (CallScheduled state secondStep /\ CallSafe state secondStep /\
      state.manager.coordinator.config.enableCaching = true /\
      2 ≠ state.manager.coordinator.blockPool.nullBlock /\
      ∃ single ∈ state.manager.coordinator.singleTypeManagers, 2 ∈ single.pending "first") := by
  apply exists_afterScheduled (.hybrid twoMambaConfig) 20 64 64 (callsWithLongMambaHit.take 1)
  · decide
  · decide +kernel

theorem secondStep_returns : ∃ state : ScheduledCache Nat, CallScheduled state secondStep /\
    ((∃ after, state.advance secondStep = .ok after) \/
      ∃ block, state.advance secondStep = .error (.pool (.invalidBlockId block))) := by
  rcases exists_before_secondStep with ⟨state, reachable, scheduled, safe, -⟩
  exact ⟨state, scheduled, scheduled_call_returns reachable scheduled safe⟩

theorem secondStep_fills_own_block : ∃ state : ScheduledCache Nat,
    ((scheduledSystem Nat).restrict CallSafe).Reachable state /\
    (∃ single ∈ state.manager.coordinator.singleTypeManagers, 2 ∈ single.pending "first") /\
    ∀ key, state.manager.coordinator.blockPool.cachedBlockHashToBlock.getOneBlock key ≠ some 2 := by
  rcases exists_before_secondStep with
    ⟨state, reachable, -, -, caching, notNull, single, member, isPending⟩
  refine ⟨state, reachable, ⟨single, member, isPending⟩, ?_⟩
  exact (reachable_pending_exclusive reachable caching member notNull isPending).1

omit [DecidableEq H] in
/-- The free blocks are all blocks but the null block exactly if nothing is held. -/
theorem Owned.resetPrefixCache_iff {pool : BlockPool H} {held : BlockId -> Nat}
    {free : List BlockId} (owned : Owned pool held free) :
    pool.resetPrefixCache.1 = true <-> ∀ block, block ≠ pool.nullBlock -> held block = 0 := by
  have blocks : (List.range pool.numGpuBlocks).Nodup := nodup_range
  have isFree : free.Perm (((List.range pool.numGpuBlocks).erase pool.nullBlock).filter
      (fun block => held block = 0)) := by
    rw [perm_ext_iff_of_nodup owned.represents.nodup ((blocks.erase _).filter _)]
    intro block
    rw [owned.free_iff, mem_filter, blocks.mem_erase_iff, mem_range, decide_eq_true_iff]
    tauto
  have others := length_erase_of_mem (mem_range.mpr owned.null_valid)
  have positive : 0 < pool.numGpuBlocks := Nat.zero_lt_of_lt owned.null_valid
  have succeeds : pool.resetPrefixCache.1 = true <->
      free.length = ((List.range pool.numGpuBlocks).erase pool.nullBlock).length := by
    rw [length_range] at others
    rw [others, BlockPool.resetPrefixCache, BlockPool.getNumFreeBlocks, owned.represents.count]
    split
    case isTrue used => exact iff_of_false Bool.false_ne_true (by omega)
    case isFalse unused => exact iff_of_true rfl (by omega)
  rw [succeeds, isFree.length_eq, length_filter_eq_length_iff]
  refine ⟨fun unheld block notNull => ?_, fun unheld block member => ?_⟩
  · by_contra isHeld
    have valid := owned.valid block notNull (Nat.pos_of_ne_zero isHeld)
    exact isHeld (of_decide_eq_true (unheld block (blocks.mem_erase_iff.mpr
      ⟨notNull, mem_range.mpr valid⟩)))
  · exact decide_eq_true (unheld block (blocks.mem_erase_iff.mp member).1)

/-- In every run whose hits fit, `reset_prefix_cache` succeeds exactly when no
table holds a block. -/
theorem resetPrefixCache_iff_unheld
    (reachable : ((cacheSystem H).restrict CallFits).Reachable manager) :
    manager.resetPrefixCache.1 = true <->
      ∀ block, block ≠ manager.coordinator.blockPool.nullBlock ->
        heldBy manager.coordinator.singleTypeManagers block = 0 := by
  rcases (reachable_accounted reachable).pooled with ⟨_, pooled⟩
  exact pooled.owned.resetPrefixCache_iff

theorem freed_cache_is_unheld : ∃ manager : KVCacheManager Nat,
    manager.resetPrefixCache.1 = true /\
      ∀ block, block ≠ manager.coordinator.blockPool.nullBlock ->
        heldBy manager.coordinator.singleTypeManagers block = 0 := by
  have outcome : ∃ manager, afterCalls CallFits (.hybrid twoLayoutsConfig) 20 64 64
      ((callsWithExternalTokens 0).take 2) = some manager /\
        manager.resetPrefixCache.1 = true := exists_afterCalls (by decide +kernel)
  rcases outcome with ⟨manager, ran, isReset⟩
  exact ⟨manager, isReset, (resetPrefixCache_iff_unheld (afterCalls_reachable ran)).mp isReset⟩

end Vllm.KVCache
