import Vllm.KVCache.Separation

namespace Vllm.KVCache

open Foundation List Option

/-!
# Blocks that wait to be cached

The entries of a table from the number of cached blocks on are pending: they are
to be cached when they are full.  Caching asserts that a block has no hash yet.
It never fails, because a block is pending at one place at most, and has no hash
as long as it is.
-/

variable {block : BlockId}

namespace SingleTypeKVCacheManager

variable {H : Type}

variable (manager : SingleTypeKVCacheManager H)

/-- The entries of a table that are not cached yet. -/
def pending (requestId : RequestId) : List BlockId :=
  (manager.blocks requestId).drop ((manager.numCachedBlock requestId).getD 0)

/-- No block that is still being filled has a hash. -/
abbrev PendingUnhashed (pool : BlockPool H) (requestId : RequestId) : Prop :=
  ∀ block ∈ manager.pending requestId, block ≠ pool.nullBlock -> pool.blockHash block = none

theorem mem_blocks_of_pending {manager : SingleTypeKVCacheManager H} {requestId : RequestId}
    (isPending : block ∈ manager.pending requestId) :
    block ∈ manager.blocks requestId :=
  mem_of_mem_drop isPending

theorem Frame.pending {requestId other : RequestId} {manager after : SingleTypeKVCacheManager H}
    (frame : Frame requestId manager after) (different : other ≠ requestId) :
    after.pending other = manager.pending other := by
  unfold SingleTypeKVCacheManager.pending
  rw [frame.blocks other different, frame.numCached other different]

section Caching

variable {others : BlockId -> Nat} {manager} {pool : BlockPool H} {free : List BlockId}

/-- What is known in addition when all full blocks of a request are cached. -/
structure CachesPrefix (others : BlockId -> Nat) (requestId : RequestId) (numFullBlocks : Nat)
    (manager after : SingleTypeKVCacheManager H) (pool poolAfter : BlockPool H)
    (free : List BlockId) : Prop
    extends CachesTable others requestId manager after pool poolAfter free where
  numCached : (after.numCachedBlock requestId).getD 0 =
    max ((manager.numCachedBlock requestId).getD 0) numFullBlocks
  allocated : after.allocatedBlockReqs = manager.allocatedBlockReqs
  only : ∀ block, poolAfter.blockHash block = pool.blockHash block \/
    block ∈ ((manager.blocks requestId).take numFullBlocks).drop
      ((manager.numCachedBlock requestId).getD 0)
  hashed : ∀ block ∈ ((manager.blocks requestId).take numFullBlocks).drop
      ((manager.numCachedBlock requestId).getD 0),
    block ≠ pool.nullBlock -> (poolAfter.blockHash block).isSome

/-- The request has a hash for each of its full blocks. -/
def HashesCover (manager : SingleTypeKVCacheManager H) (pool : BlockPool H) (blockHashes : List H)
    (numTokens : Nat) : Prop :=
  numTokens / manager.blockSize <= blockHashes.length /\
    ∀ j, j < numTokens / manager.blockSize ->
      (BlockPool.blockHashAt pool.hashBlockSize manager.blockSize blockHashes j).isSome

theorem collectKeys_total {blocks : List BlockId}
    (hashed : ∀ block ∈ blocks, block ≠ pool.nullBlock -> (pool.blockHash block).isSome) :
    ∃ keys, collectKeys pool blocks = .ok keys := by
  induction blocks with
  | nil => exact ⟨[], rfl⟩
  | cons block rest ih =>
    rcases ih (fun other member => hashed other (mem_cons_of_mem _ member)) with
      ⟨keys, collected⟩
    rw [collectKeys]
    by_cases isNull : block = pool.nullBlock
    · rw [if_pos isNull]
      exact ⟨keys, collected⟩
    rcases isSome_iff_exists.mp (hashed block mem_cons_self isNull) with
      ⟨key, isKey⟩
    rw [if_neg isNull]
    simp only [isKey, collected]
    exact ⟨key :: keys, rfl⟩

variable [DecidableEq H] (tables : Tables others manager pool free) {request : Request H}
  {numTokens : Nat} (unhashed : manager.PendingUnhashed pool request.requestId)
  (covered : manager.HashesCover pool request.blockHashes numTokens)
include tables unhashed covered

theorem cacheFullBlocks_total
    (more : ¬ numTokens / manager.blockSize <= (manager.numCachedBlock request.requestId).getD 0) :
    ∃ poolAfter, pool.cacheFullBlocks request.blockHashes (manager.blocks request.requestId)
        ((manager.numCachedBlock request.requestId).getD 0) (numTokens / manager.blockSize)
        manager.blockSize manager.kvCacheGroupId = .ok poolAfter /\
      Caches pool poolAfter manager.kvCacheGroupId
        (((manager.blocks request.requestId).take (numTokens / manager.blockSize)).drop
          ((manager.numCachedBlock request.requestId).getD 0)) := by
  generalize isCached : (manager.numCachedBlock request.requestId).getD 0 = numCached at more ⊢
  generalize isFull : numTokens / manager.blockSize = numFull at more ⊢
  have inPending {block : BlockId}
      (member : block ∈ ((manager.blocks request.requestId).take numFull).drop numCached) :
      block ∈ manager.pending request.requestId := by
    rw [pending, isCached]
    exact (take_sublist _ _).drop numCached |>.subset member
  have distinct : Distinct pool.nullBlock
      (((manager.blocks request.requestId).take numFull).drop numCached) := fun block notNull =>
    (((drop_sublist _ _).trans (take_sublist _ _)).count_le block).trans
      (tables.distinct request.requestId block notNull)
  rcases covered with ⟨enough, hashAt⟩
  rw [isFull] at enough hashAt
  rcases cacheLoop_succeeds (distinct_iff_nodup.mp distinct)
    (fun block member => unhashed block (inPending member)) (fun j inside => by
      rw [length_drop, length_take] at inside
      exact hashAt (numCached + j) (by omega)) with ⟨poolAfter, cached⟩
  refine ⟨poolAfter, ?_, cacheLoop_caches tables.indexed ?_ cached⟩
  · unfold BlockPool.cacheFullBlocks
    rw [if_neg more, if_neg (Nat.not_lt.mpr enough)]
    exact cached
  intro block member notNull
  apply tables.owned.valid block notNull
  exact Tables.held_pos (mem_blocks_of_pending (inPending member))

theorem baseCacheBlocks_total :
    ∃ after poolAfter,
      manager.baseCacheBlocks pool request numTokens = .ok (after, poolAfter) /\
      CachesPrefix others request.requestId (numTokens / manager.blockSize) manager after pool
        poolAfter free := by
  by_cases few : numTokens / manager.blockSize <= (manager.numCachedBlock request.requestId).getD 0
  · have empty : ((manager.blocks request.requestId).take (numTokens / manager.blockSize)).drop
        ((manager.numCachedBlock request.requestId).getD 0) = [] := by
      apply drop_eq_nil_of_le
      rw [length_take]
      omega
    refine ⟨manager, pool, ?_, CachesTable.refl tables, ?_, rfl, fun _ => Or.inl rfl, ?_⟩
    · unfold baseCacheBlocks
      simp only [if_pos few]
    · omega
    rw [empty]
    simp
  rcases cacheFullBlocks_total tables unhashed covered few with ⟨poolAfter, cached, caches⟩
  have done : manager.baseCacheBlocks pool request numTokens =
      .ok ((manager.setBlocks request.requestId (manager.blocks request.requestId)).setNumCached
        request.requestId (some (numTokens / manager.blockSize)), poolAfter) := by
    unfold baseCacheBlocks
    simp only [if_neg few, cached, fromPool]
  refine ⟨_, poolAfter, done, baseCacheBlocks_caches tables done, ?_, rfl, ?_, caches.hashed⟩
  · change (Function.update manager.numCachedBlock request.requestId _
      request.requestId).getD 0 = _
    rw [Function.update_self, getD_some]
    omega
  intro block
  exact (caches.hashes block).imp_right And.left

theorem mambaCacheBlocks_total :
    ∃ after poolAfter,
      manager.mambaCacheBlocks pool request numTokens = .ok (after, poolAfter) /\
      CachesPrefix others request.requestId (numTokens / manager.blockSize) manager after pool
        poolAfter free := by
  rcases baseCacheBlocks_total tables unhashed covered with ⟨middle, poolAfter, done, caches⟩
  have range : ((middle.blocks request.requestId).take
        ((middle.numCachedBlock request.requestId).getD 0)).drop
          ((manager.numCachedBlock request.requestId).getD 0) =
      ((manager.blocks request.requestId).take (numTokens / manager.blockSize)).drop
        ((manager.numCachedBlock request.requestId).getD 0) := by
    rw [caches.blocks, caches.numCached]
    by_cases few : numTokens / manager.blockSize <=
        (manager.numCachedBlock request.requestId).getD 0
    · rw [drop_eq_nil_of_le, drop_eq_nil_of_le]
      · rw [length_take]
        omega
      rw [length_take]
      omega
    · rw [Nat.max_eq_right (Nat.le_of_not_le few)]
  have hashed : ∀ block ∈ ((middle.blocks request.requestId).take
        ((middle.numCachedBlock request.requestId).getD 0)).drop
          ((manager.numCachedBlock request.requestId).getD 0),
      block ≠ poolAfter.nullBlock -> (poolAfter.blockHash block).isSome := by
    rw [range, caches.same.nullBlock]
    exact caches.hashed
  rcases collectKeys_total hashed with ⟨keys, collected⟩
  refine ⟨{ middle with cachedBlocksThisStep := keys ++ middle.cachedBlocksThisStep }, poolAfter,
    by simp only [mambaCacheBlocks, done, collected], ?_⟩
  refine ⟨⟨caches.tables.of_reqToBlocks rfl, caches.same, caches.frame.trans
    ⟨rfl, rfl, rfl, fun _ _ => rfl, fun _ _ => rfl, fun _ _ => rfl, fun _ _ => rfl,
      fun _ => rfl⟩, caches.blocks, caches.hashes⟩, caches.numCached, caches.allocated, caches.only,
    caches.hashed⟩

/-- Caching succeeds if the pending blocks have no hash and the request has one
for each full block. -/
theorem cacheBlocks_total (notCross : manager.kvCacheSpec.kind ≠ .crossAttention) :
    ∃ after poolAfter, manager.cacheBlocks pool request numTokens = .ok (after, poolAfter) /\
      CachesPrefix others request.requestId (numTokens / manager.blockSize) manager after pool
        poolAfter free := by
  unfold cacheBlocks
  split
  case h_1 isCross => exact absurd isCross notCross
  · exact mambaCacheBlocks_total tables unhashed covered
  · exact baseCacheBlocks_total tables unhashed covered

end Caching

end SingleTypeKVCacheManager

section Places

variable {H : Type}

/-- A pending block has no hash and is pending at one place. -/
structure Pending (managers : List (SingleTypeKVCacheManager H)) (pool : BlockPool H) : Prop where
  unhashed : ∀ manager ∈ managers, ∀ requestId, ∀ block ∈ manager.pending requestId,
    block ≠ pool.nullBlock -> pool.blockHash block = none
  once : ∀ left ∈ managers, ∀ right ∈ managers, ∀ leftId rightId block,
    block ≠ pool.nullBlock -> block ∈ left.pending leftId -> block ∈ right.pending rightId ->
    left.kvCacheGroupId = right.kvCacheGroupId /\ leftId = rightId

/-- What a visit may do to pending blocks and hashes.  Blocks become pending from
the free list only, and only blocks that stop to be pending are hashed. -/
structure PendingStep (requestId : RequestId) (manager after : SingleTypeKVCacheManager H)
    (pool poolAfter : BlockPool H) (free : List BlockId) : Prop where
  frame : SingleTypeKVCacheManager.Frame requestId manager after
  same : SamePool pool poolAfter
  entries : ∀ block ∈ after.pending requestId, block ≠ pool.nullBlock ->
    (block ∈ manager.pending requestId \/ block ∈ free) /\ poolAfter.blockHash block = none
  hashes : ∀ block, block ≠ pool.nullBlock -> pool.blockHash block = none ->
    poolAfter.blockHash block = none \/ block ∈ manager.pending requestId

section Update

variable {before rest : List (SingleTypeKVCacheManager H)}
  {manager after : SingleTypeKVCacheManager H} {pool poolAfter : BlockPool H} {free : List BlockId}
  {requestId other : RequestId} {single : SingleTypeKVCacheManager H}

theorem Pooled.not_free {managers : List (SingleTypeKVCacheManager H)}
    (pooled : Pooled managers pool free) (member : single ∈ managers)
    (inside : block ∈ single.blocks other) : block ∉ free := by
  intro isFree
  have unheld := ((pooled.owned.free_iff block).mp isFree).2.2
  have bound := tableCount_le_heldBy member block
  have held := (count_pos_iff.mpr inside).trans_le (single.count_le_tableCount other block)
  omega

/-- A pending block after a visit was pending before, at the same place, unless
the visit was for its request. -/
theorem PendingStep.old (step : PendingStep requestId manager after pool poolAfter free)
    (member : single ∈ before ++ after :: rest) (isPending : block ∈ single.pending other) :
    (single = after /\ other = requestId) \/ (∃ original ∈ before ++ manager :: rest,
        original.kvCacheGroupId = single.kvCacheGroupId /\ block ∈ original.pending other /\
        (original ∈ before ++ rest \/ other ≠ requestId)) := by
  rw [mem_append, mem_cons] at member
  rcases member with early | rfl | late
  · exact Or.inr ⟨single, by simp [early], rfl, isPending, Or.inl (by simp [early])⟩
  · by_cases here : other = requestId
    · exact Or.inl ⟨rfl, here⟩
    rw [step.frame.pending here] at isPending
    exact Or.inr ⟨manager, by simp, step.frame.kvCacheGroupId.symm, isPending, Or.inr here⟩
  · exact Or.inr ⟨single, by simp [late], rfl, isPending, Or.inl (by simp [late])⟩

theorem Pending.update (pending : Pending (before ++ manager :: rest) pool)
    (pooled : Pooled (before ++ manager :: rest) pool free)
    (groups : ((before ++ manager :: rest).map (fun single => single.kvCacheGroupId)).Nodup)
    (step : PendingStep requestId manager after pool poolAfter free) :
    Pending (before ++ after :: rest) poolAfter := by
  have here : manager ∈ before ++ manager :: rest := by simp
  refine ⟨?_, ?_⟩
  · intro single member other block isPending notNull
    rw [step.same.nullBlock] at notNull
    rcases step.old member isPending with ⟨rfl, rfl⟩ | ⟨original, inside, -, wasPending, elsewhere⟩
    · exact (step.entries block isPending notNull).2
    have unhashed := pending.unhashed original inside other block wasPending notNull
    rcases step.hashes block notNull unhashed with kept | visited
    · exact kept
    have place := pending.once original inside manager here other requestId block notNull
      wasPending visited
    rcases elsewhere with other_manager | different
    · rw [map_append, map_cons, nodup_middle, <- map_append, nodup_cons] at groups
      exact absurd (mem_map.mpr ⟨original, other_manager, place.1⟩) groups.1
    · exact absurd place.2 different
  intro left leftIn right rightIn leftId rightId block notNull inLeft inRight
  rw [step.same.nullBlock] at notNull
  have meets {original : SingleTypeKVCacheManager H} {other : RequestId}
      (inside : original ∈ before ++ manager :: rest) (wasPending : block ∈ original.pending other)
      (isPending : block ∈ after.pending requestId) :
      manager.kvCacheGroupId = original.kvCacheGroupId /\ requestId = other := by
    rcases (step.entries block isPending notNull).1 with visited | isFree
    · exact pending.once manager here original inside requestId other block notNull visited
        wasPending
    exact absurd isFree (pooled.not_free inside
      (SingleTypeKVCacheManager.mem_blocks_of_pending wasPending))
  have groupId := step.frame.kvCacheGroupId
  rcases step.old leftIn inLeft with ⟨rfl, rfl⟩ | ⟨oldLeft, leftInside, leftGroup, wasLeft, -⟩
  · rcases step.old rightIn inRight with ⟨rfl, rfl⟩ |
      ⟨oldRight, rightInside, rightGroup, wasRight, -⟩
    · exact ⟨rfl, rfl⟩
    rcases meets rightInside wasRight inLeft with ⟨group, same⟩
    exact ⟨by rw [groupId, group, rightGroup], same⟩
  rcases step.old rightIn inRight with ⟨rfl, rfl⟩ |
    ⟨oldRight, rightInside, rightGroup, wasRight, -⟩
  · rcases meets leftInside wasLeft inRight with ⟨group, same⟩
    exact ⟨by rw [groupId, group, leftGroup], same.symm⟩
  rw [<- leftGroup, <- rightGroup]
  exact pending.once oldLeft leftInside oldRight rightInside leftId rightId block notNull
    wasLeft wasRight

end Update

section Operations

open SingleTypeKVCacheManager

variable {others : BlockId -> Nat} {manager after : SingleTypeKVCacheManager H}
  {pool poolAfter : BlockPool H} {free : List BlockId} {requestId : RequestId}

theorem PendingStep.of_fewer (frame : Frame requestId manager after) (same : SamePool pool poolAfter)
    (hashes : SameHashes pool poolAfter)
    (unhashed : manager.PendingUnhashed pool requestId)
    (fewer : ∀ block ∈ after.pending requestId, block ≠ pool.nullBlock ->
      block ∈ manager.pending requestId) :
    PendingStep requestId manager after pool poolAfter free := by
  refine ⟨frame, same, ?_, ?_⟩
  · intro block isPending notNull
    have old := fewer block isPending notNull
    rw [hashes.blockHash]
    exact ⟨Or.inl old, unhashed block old notNull⟩
  intro block _ isNone
  rw [hashes.blockHash]
  exact Or.inl isNone

/-- Entries that became null are not pending. -/
theorem SingleTypeKVCacheManager.Removes.pendingStep {bound : Nat}
    (removes : Removes others requestId bound manager after pool poolAfter free)
    (unhashed : manager.PendingUnhashed pool requestId) :
    PendingStep requestId manager after pool poolAfter free := by
  apply PendingStep.of_fewer removes.frame removes.same removes.hashes unhashed
  intro block isPending notNull
  unfold pending at isPending ⊢
  rw [removes.numCached] at isPending
  rcases mem_iff_getElem?.mp isPending with ⟨index, entry⟩
  rw [List.getElem?_drop] at entry
  rcases removes.nulled.entry ((manager.numCachedBlock requestId).getD 0 + index) with
    same | ⟨-, null⟩
  · apply mem_iff_getElem?.mpr
    exact ⟨index, by rw [List.getElem?_drop, <- same]; exact entry⟩
  rw [null, Option.some.injEq] at entry
  exact absurd entry.symm notNull

/-- The hits of a new request are cached, and its further blocks are pending. -/
theorem SingleTypeKVCacheManager.EntersHits.pendingStep {newComputedBlocks : List BlockId}
    {numLocalComputedTokens numExternalComputedTokens : Nat} {taken freeAfter : List BlockId}
    (enters : EntersHits others requestId newComputedBlocks numLocalComputedTokens
      numExternalComputedTokens manager after pool poolAfter free taken freeAfter)
    (caching : pool.enableCaching = true) :
    PendingStep requestId manager after pool poolAfter free := by
  have onlyTaken : after.pending requestId = taken := by
    unfold pending
    rw [enters.numCached, enters.blocks, getD_some]
    apply drop_left'
    rw [length_append, length_replicate, keptHits, length_drop]
    omega
  refine ⟨enters.frame, enters.same, ?_, ?_⟩
  · rw [onlyTaken]
    intro block isTaken _
    refine ⟨Or.inr ?_, enters.forgets.gone caching block isTaken⟩
    apply mem_of_mem_filter
    rw [enters.split]
    exact mem_append_left _ isTaken
  · exact fun block _ isNone => Or.inl (enters.forgets.unhashed caching isNone)

/-- New blocks are pending, and rearranging the table makes no other block
pending. -/
theorem SingleTypeKVCacheManager.TakesBlocks.pendingStep {base taken freeAfter : List BlockId}
    (takes : TakesBlocks others requestId manager after pool poolAfter free base taken freeAfter)
    (caching : pool.enableCaching = true) (unhashed : manager.PendingUnhashed pool requestId)
    (stays : ∀ block ∈ base.drop ((manager.numCachedBlock requestId).getD 0),
      block ≠ pool.nullBlock -> block ∈ manager.pending requestId) :
    PendingStep requestId manager after pool poolAfter free := by
  refine ⟨takes.frame, takes.same, ?_, ?_⟩
  · intro block isPending notNull
    unfold pending at isPending
    rw [takes.blocks, takes.numCached, drop_append] at isPending
    rcases mem_append.mp isPending with old | new
    · have wasPending := stays block old notNull
      exact ⟨Or.inl wasPending, takes.forgets.unhashed caching (unhashed block wasPending notNull)⟩
    have isTaken := mem_of_mem_drop new
    exact ⟨Or.inr (takes.taken_free isTaken), takes.forgets.gone caching block isTaken⟩
  · exact fun block _ isNone => Or.inl (takes.forgets.unhashed caching isNone)

theorem SingleTypeKVCacheManager.CachesPrefix.pendingStep {numFullBlocks : Nat}
    (tables : Tables others manager pool free)
    (caches : CachesPrefix others requestId numFullBlocks manager after pool poolAfter free)
    (unhashed : manager.PendingUnhashed pool requestId) :
    PendingStep requestId manager after pool poolAfter free := by
  have rangePending {block : BlockId}
      (inRange : block ∈ ((manager.blocks requestId).take numFullBlocks).drop
        ((manager.numCachedBlock requestId).getD 0)) : block ∈ manager.pending requestId :=
    ((take_sublist _ _).drop _).subset inRange
  refine ⟨caches.frame, caches.same, ?_, ?_⟩
  · intro block isPending notNull
    unfold pending at isPending
    rw [caches.blocks, caches.numCached] at isPending
    have wasPending : block ∈ manager.pending requestId := by
      unfold pending
      exact (drop_sublist_drop_left _ (Nat.le_max_left _ _)).subset isPending
    refine ⟨Or.inl wasPending, ?_⟩
    rcases caches.only block with same | inRange
    · exact same.trans (unhashed block wasPending notNull)
    have once := tables.distinct requestId block notNull
    rw [<- take_append_drop numFullBlocks (manager.blocks requestId), count_append] at once
    have early := count_pos_iff.mpr (mem_of_mem_drop inRange)
    have late : block ∈ (manager.blocks requestId).drop numFullBlocks :=
      (drop_sublist_drop_left _ (Nat.le_max_right _ _)).subset isPending
    have lateCount := count_pos_iff.mpr late
    omega
  · intro block _ isNone
    rcases caches.only block with same | inRange
    · exact Or.inl (same.trans isNone)
    · exact Or.inr (rangePending inRange)

end Operations

end Places

end Vllm.KVCache
