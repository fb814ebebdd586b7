import Mathlib.Data.List.Count
import Vllm.KVCache.Ownership

namespace Vllm.KVCache

open Foundation SingleTypeKVCacheManager BlockPool List Option

/-!
# Common prefixes

A manager of full attention takes a block for common if its reference count is
the number of tables.  Tables hold a shared block at the same index, because a
hash tells its position in a prompt, so this is right as long as all references
come from the tables.  A transfer of a connector that is under way, or another
manager, may hold a reference as well.  A block counts as common by mistake
exactly if it has such a reference.
-/

section Model

variable {H : Type}

variable (manager : SingleTypeKVCacheManager H)

/-- The loop stops at the first block with another number of references. -/
def SingleTypeKVCacheManager.getNumCommonPrefixBlocks
    (pool : BlockPool H) (runningRequestId : RequestId) : Nat :=
  ((manager.blocks runningRequestId).takeWhile (fun block =>
    decide (pool.refCnt block = manager.reqToBlocks.entries.length))).length

/-- A table holds a block at an index. -/
abbrev SingleTypeKVCacheManager.BlockAt
    (requestId : RequestId) (index : Nat) (block : BlockId) : Prop :=
  (manager.blocks requestId)[index]? = some block

/-- A manager and its pool, with the references to blocks from elsewhere:
transfers that are under way, and the tables of other managers. -/
structure SharedPool (H : Type) where
  manager : SingleTypeKVCacheManager H
  pool : BlockPool H
  outside : List BlockId

/-- What is called on the manager and what others do to its pool.  Reading the
table of a request creates it. -/
inductive PoolCall (H : Type) where
  | readTable (requestId : RequestId)
  | allocateNewComputedBlocks (request : Request H) (newComputedBlocks : List BlockId)
      (numLocalComputedTokens numExternalComputedTokens : Nat)
  | allocateNewBlocks (requestId : RequestId) (numTokens : Nat)
  | cacheBlocks (request : Request H) (numTokens : Nat)
  | removeSkippedBlocks (requestId : RequestId) (totalComputedTokens : Nat)
  | free (requestId : RequestId)
  | touch (blocks : List BlockId)
  | freeBlocks (blocks : List BlockId)
  | getNewBlocks (numBlocks : Nat)
  | cacheFullBlocks (request : Request H) (blocks : List BlockId)
      (numCachedBlocks numFullBlocks blockSize kvCacheGroupId : Nat)
  | evictBlocks (blockIds : List BlockId)
  | resetPrefixCache

variable [DecidableEq H]

namespace SharedPool

variable (state : SharedPool H)

/-- A call of the manager. -/
def ofManager (result : Except ManagerError (SingleTypeKVCacheManager H × BlockPool H)) :
    Except ManagerError (SharedPool H) :=
  result.map (fun (manager, pool) => { state with manager := manager, pool := pool })

/-- A call of the pool that leaves some references outside. -/
def ofPool (outside : List BlockId) (result : Except PoolError (BlockPool H)) :
    Except ManagerError (SharedPool H) :=
  (fromPool result).map (fun pool => { state with pool := pool, outside := outside })

/-- The calls of the manager and of the other users of the pool. -/
def call : PoolCall H -> Except ManagerError (SharedPool H)
  | .readTable requestId =>
    .ok { state with
      manager := state.manager.setBlocks requestId (state.manager.blocks requestId) }
  | .allocateNewComputedBlocks request newComputedBlocks numLocal numExternal =>
    state.ofManager (state.manager.allocateNewComputedBlocks state.pool request.requestId
      newComputedBlocks numLocal numExternal)
  | .allocateNewBlocks requestId numTokens =>
    state.ofManager ((state.manager.allocateNewBlocks state.pool requestId numTokens numTokens).map
      Prod.snd)
  | .cacheBlocks request numTokens =>
    state.ofManager (state.manager.cacheBlocks state.pool request numTokens)
  | .removeSkippedBlocks requestId totalComputedTokens =>
    state.ofManager (state.manager.removeSkippedBlocks state.pool requestId totalComputedTokens)
  | .free requestId => state.ofManager (state.manager.free state.pool requestId)
  | .touch blocks => state.ofPool (state.outside ++ blocks) (state.pool.touch blocks)
  | .freeBlocks blocks => state.ofPool (state.outside.diff blocks) (state.pool.freeBlocks blocks)
  | .getNewBlocks numBlocks =>
    (fromPool (state.pool.getNewBlocks numBlocks)).map (fun (taken, pool) =>
      { state with pool := pool, outside := state.outside ++ taken })
  | .cacheFullBlocks request blocks numCachedBlocks numFullBlocks blockSize kvCacheGroupId =>
    state.ofPool state.outside (state.pool.cacheFullBlocks request.blockHashes blocks
      numCachedBlocks numFullBlocks blockSize kvCacheGroupId)
  | .evictBlocks blockIds => state.ofPool state.outside (state.pool.evictBlocks blockIds)
  | .resetPrefixCache => .ok { state with pool := state.pool.resetPrefixCache.2 }

end SharedPool

variable (position : H -> Nat)

/-- A hash of this prompt tells its position. -/
def Positioned (request : Request H) : Prop :=
  request.blockHashes.map position = List.range request.blockHashes.length

variable (state : SharedPool H)

/-- The hits of a request were found under the hashes of their positions, and
fit the tokens of a connector.  Others use their own group and free what they
refer to. -/
def PoolCall.Permitted : PoolCall H -> Prop
  | .allocateNewComputedBlocks request newComputedBlocks numLocal numExternal =>
    Positioned position request /\
      (state.manager.enableCaching = true \/ newComputedBlocks = []) /\
      (∀ j < newComputedBlocks.length, newComputedBlocks[j]? = cachedBlockAt state.pool
        request.blockHashes state.manager.kvCacheSpec state.manager.kvCacheGroupId j) /\
      state.manager.HitsFit newComputedBlocks numLocal numExternal
  | .cacheBlocks request _ => Positioned position request
  | .touch blocks => ∀ block ∈ blocks, block < state.pool.numGpuBlocks
  | .freeBlocks blocks => blocks.Nodup /\ ∀ block ∈ blocks, block ∈ state.outside
  | .cacheFullBlocks _ blocks _ _ _ kvCacheGroupId =>
    kvCacheGroupId ≠ state.manager.kvCacheGroupId /\ ∀ block ∈ blocks, block ∈ state.outside
  | _ => True

/-- All runs of a manager of full attention on a pool that it may share. -/
def sharedPoolSystem : System (SharedPool H) (PoolCall H) where
  initial state := ∃ spec enableCaching groupId numBlocks hashBlockSize maxTokens maxModelLen,
    spec.kind = .fullAttention /\
      (enableCaching = true -> 0 < hashBlockSize /\ hashBlockSize ∣ spec.blockSize) /\
      BlockPool.init numBlocks enableCaching hashBlockSize = .ok state.pool /\
      state.manager = .init spec enableCaching groupId maxTokens maxModelLen /\ state.outside = []
  step state call after := call.Permitted position state /\ state.call call = .ok after

variable (requestId : RequestId)

/-- The blocks that are counted stand in every table. -/
def CommonPrefix : Prop :=
  ∀ other ∈ state.manager.reqToBlocks.keys,
    ∀ j < state.manager.getNumCommonPrefixBlocks state.pool requestId,
      (state.manager.blocks other)[j]? = (state.manager.blocks requestId)[j]?

/-- Nobody else refers to a block of a request up to which all blocks have as
many references as there are tables. -/
def Unreferenced : Prop :=
  ∀ j block, state.manager.BlockAt requestId j block ->
    (∀ i ≤ j, ∀ earlier, state.manager.BlockAt requestId i earlier ->
      state.pool.refCnt earlier = state.manager.reqToBlocks.entries.length) ->
    block ∉ state.outside

end Model

variable {block : BlockId} {free outside blocks : List BlockId} {others : BlockId -> Nat}

section Places

variable {H : Type} {position : H -> Nat} {state after : SharedPool H} {requestId : RequestId}
  {blockHashes : List H} {hash : BlockHash H}

/-- A hash belongs to the block at an index of its prompt. -/
def Marks (position : H -> Nat) (state : SharedPool H) (hash : BlockHash H) (index : Nat) : Prop :=
  hash.head?.map position = some (index * (state.manager.blockSize / state.pool.hashBlockSize))

/-- Tables hold a block at the same index, which is the one of its hash. -/
structure InPlace (position : H -> Nat) (state : SharedPool H) : Prop where
  kind : state.manager.kvCacheSpec.kind = .fullAttention
  caching : state.pool.enableCaching = state.manager.enableCaching
  covers : state.pool.enableCaching = true ->
    0 < state.pool.hashBlockSize /\ state.pool.hashBlockSize <= state.manager.blockSize
  tables : ∃ free, Tables (fun block => state.outside.count block) state.manager state.pool free
  real : ∀ requestId, state.pool.nullBlock ∉ state.manager.blocks requestId
  aligned : ∀ first second i j block, state.manager.BlockAt first i block ->
    state.manager.BlockAt second j block -> i = j
  marked : state.pool.enableCaching = true -> ∀ requestId i block hash,
    state.manager.BlockAt requestId i block ->
    state.pool.blockHash block = some ⟨hash, state.manager.kvCacheGroupId⟩ ->
    Marks position state hash i

/-- A call changes one table at most.  A new entry is a block that was in no
table, or one that was found under the hash of its index. -/
structure Enters (position : H -> Nat) (requestId : RequestId) (state after : SharedPool H) :
    Prop where
  frame : Frame requestId state.manager after.manager
  same : SamePool state.pool after.pool
  entry : ∀ i block, after.manager.BlockAt requestId i block ->
    state.manager.BlockAt requestId i block \/
      block ≠ state.pool.nullBlock /\
        ((∀ other, block ∉ state.manager.blocks other) /\
            (state.pool.enableCaching = true -> after.pool.blockHash block = none) \/
          state.pool.enableCaching = true /\
            ∃ hash, state.pool.blockHash block = some ⟨hash, state.manager.kvCacheGroupId⟩ /\
              Marks position state hash i)
  hashes : state.pool.enableCaching = true -> ∀ block hash,
    after.pool.blockHash block = some ⟨hash, state.manager.kvCacheGroupId⟩ ->
    state.pool.blockHash block = some ⟨hash, state.manager.kvCacheGroupId⟩ \/
      ∃ i, after.manager.BlockAt requestId i block /\ Marks position state hash i

theorem Marks.unique {i j : Nat} (inPlace : InPlace position state)
    (caching : state.pool.enableCaching = true) (first : Marks position state hash i)
    (second : Marks position state hash j) : i = j := by
  rcases inPlace.covers caching with ⟨positive, covers⟩
  have same : i * _ = j * _ := Option.some.inj (first.symm.trans second)
  exact Nat.eq_of_mul_eq_mul_right (Nat.div_pos covers positive) same

variable {request : Request H}

theorem marks_of_positioned (inPlace : InPlace position state)
    (caching : state.pool.enableCaching = true) (positioned : Positioned position request) {i : Nat}
    (isHash : blockHashAt state.pool.hashBlockSize state.manager.blockSize
      request.blockHashes i = some hash) : Marks position state hash i := by
  rcases inPlace.covers caching with ⟨positive, covers⟩
  have scale := Nat.div_pos covers positive
  unfold blockHashAt at isHash
  dsimp only at isHash
  split at isHash
  case isFalse => cases isHash
  case isTrue inside =>
    cases isHash
    rw [Marks, List.head?_eq_getElem?, List.getElem?_take_of_lt scale, List.getElem?_drop,
      Nat.add_zero, <- List.getElem?_map, positioned, List.getElem?_range (by omega)]

variable {manager : SingleTypeKVCacheManager H} {pool : BlockPool H}

theorem SingleTypeKVCacheManager.Tables.nodup (tables : Tables others manager pool free)
    (real : pool.nullBlock ∉ manager.blocks requestId) :
    (manager.blocks requestId).Nodup := by
  rw [nodup_iff_count_le_one]
  intro block
  by_cases isNull : block = pool.nullBlock
  · rw [isNull, count_eq_zero_of_not_mem real]
    exact Nat.zero_le 1
  · exact tables.distinct requestId block isNull

section

variable (inPlace : InPlace position state) (enters : Enters position requestId state after)
include inPlace enters

theorem Enters.aligned {other : RequestId} {i j : Nat} (isOld : state.manager.BlockAt other j block)
    (isEntry : after.manager.BlockAt requestId i block) : i = j := by
  rcases enters.entry i block isEntry with wasEntry | ⟨_, ⟨nowhere, _⟩ | ⟨caching, hash, isHash, marks⟩⟩
  · exact inPlace.aligned _ _ i j block wasEntry isOld
  · exact absurd (mem_of_getElem? isOld) (nowhere other)
  · exact marks.unique inPlace caching (inPlace.marked caching other j block hash isOld isHash)

theorem InPlace.step
    (tables : ∃ free, Tables (fun block => after.outside.count block) after.manager after.pool free) :
    InPlace position after := by
  rcases tables with ⟨free, tables⟩
  have frame := enters.frame
  have same := enters.same
  have sameMarks : ∀ hash i, Marks position after hash i <-> Marks position state hash i := by
    intro hash i
    rw [Marks, Marks, same.hashBlockSize, blockSize, blockSize, frame.kvCacheSpec]
  have old : ∀ other i block, other ≠ requestId -> after.manager.BlockAt other i block ->
      state.manager.BlockAt other i block := by
    intro other i block different isEntry
    rwa [BlockAt, frame.blocks other different] at isEntry
  have real : ∀ other, after.pool.nullBlock ∉ after.manager.blocks other := by
    intro other isNull
    rw [same.nullBlock] at isNull
    rcases List.getElem?_of_mem isNull with ⟨i, isEntry⟩
    by_cases here : other = requestId
    · rcases enters.entry i _ (here ▸ isEntry) with wasEntry | ⟨notNull, _⟩
      · exact inPlace.real requestId (mem_of_getElem? wasEntry)
      · exact notNull rfl
    · exact inPlace.real other (mem_of_getElem? (old other i _ here isEntry))
  have aligned : ∀ first second i j block, after.manager.BlockAt first i block ->
      after.manager.BlockAt second j block -> i = j := by
    intro first second i j block isFirst isSecond
    by_cases firstHere : first = requestId
    · by_cases secondHere : second = requestId
      · rw [firstHere] at isFirst
        rw [secondHere] at isSecond
        have inside := (List.getElem?_eq_some_iff.mp isFirst).choose
        exact (List.getElem?_inj inside (tables.nodup (real requestId))).mp
          (isFirst.trans isSecond.symm)
      · exact enters.aligned inPlace (old second j block secondHere isSecond) (firstHere ▸ isFirst)
    have wasFirst := old first i block firstHere isFirst
    by_cases secondHere : second = requestId
    · exact (enters.aligned inPlace wasFirst (secondHere ▸ isSecond)).symm
    exact inPlace.aligned first second i j block wasFirst
      (old second j block secondHere isSecond)
  refine ⟨?_, ?_, ?_, ⟨free, tables⟩, real, aligned, ?_⟩
  · rw [frame.kvCacheSpec]
    exact inPlace.kind
  · rw [same.enableCaching, frame.enableCaching]
    exact inPlace.caching
  · rw [same.enableCaching, same.hashBlockSize, blockSize, frame.kvCacheSpec]
    exact inPlace.covers
  rw [same.enableCaching, frame.kvCacheGroupId]
  intro caching other i block hash isEntry isHash
  rw [sameMarks]
  rcases enters.hashes caching block hash isHash with wasHash | ⟨j, isNew, marks⟩
  · by_cases here : other = requestId
    · rcases enters.entry i block (here ▸ isEntry) with
        wasEntry | ⟨_, ⟨_, unhashed⟩ | ⟨_, _, isKnown, marks⟩⟩
      · exact inPlace.marked caching requestId i block hash wasEntry wasHash
      · rw [unhashed caching] at isHash
        cases isHash
      rw [wasHash] at isKnown
      cases isKnown
      exact marks
    · exact inPlace.marked caching other i block hash (old other i block here isEntry) wasHash
  · rw [aligned other requestId i j block isEntry isNew]
    exact marks

end

theorem Enters.of_blocks (frame : Frame requestId state.manager after.manager)
    (same : SamePool state.pool after.pool)
    (blocks : after.manager.blocks requestId = state.manager.blocks requestId)
    (hashes : ∀ block, after.pool.blockHash block = state.pool.blockHash block \/
      ∀ hash, after.pool.blockHash block ≠ some ⟨hash, state.manager.kvCacheGroupId⟩) :
    Enters position requestId state after where
  frame := frame
  same := same
  entry i block isEntry := by
    rw [BlockAt, blocks] at isEntry
    exact Or.inl isEntry
  hashes _ block hash isHash := by
    rcases hashes block with kept | other
    · rw [kept] at isHash
      exact Or.inl isHash
    · exact absurd isHash (other hash)

theorem SingleTypeKVCacheManager.Tables.nowhere (tables : Tables others manager pool free)
    (isFree : block ∈ free) (other : RequestId) :
    block ∉ manager.blocks other := by
  intro member
  have unheld := ((tables.owned.free_iff block).mp isFree).2.2
  have held : 0 < others block + manager.tableCount block := Tables.held_pos member
  omega

variable [DecidableEq H]

theorem allocateNewComputedBlocks_inPlace (inPlace : InPlace position state)
    {newComputedBlocks : List BlockId} {numLocal numExternal : Nat}
    (permitted : PoolCall.Permitted position state
      (.allocateNewComputedBlocks request newComputedBlocks numLocal numExternal))
    (done : state.manager.allocateNewComputedBlocks state.pool request.requestId newComputedBlocks
      numLocal numExternal = .ok (manager, pool)) :
    InPlace position ⟨manager, pool, state.outside⟩ := by
  rcases inPlace.tables with ⟨free, tables⟩
  rcases permitted with ⟨positioned, allowed, found, fit⟩
  have caching : newComputedBlocks ≠ [] -> state.pool.enableCaching = true := by
    intro someNew
    rw [inPlace.caching]
    exact allowed.resolve_right someNew
  have isCached : ∀ i block, newComputedBlocks[i]? = some block ->
      cachedBlockAt state.pool request.blockHashes state.manager.kvCacheSpec
        state.manager.kvCacheGroupId i = some block := by
    intro i block isHit
    rw [<- found i (List.getElem?_eq_some_iff.mp isHit).choose, isHit]
  have isReal : ∀ block ∈ newComputedBlocks,
      block < state.pool.numGpuBlocks /\ block ≠ state.pool.nullBlock := by
    intro block member
    rcases List.getElem?_of_mem member with ⟨i, isHit⟩
    rcases cachedBlockAt_hash tables.indexed (isCached i block isHit) with ⟨_, _, isHash⟩
    exact tables.indexed.valid block _ isHash
  have distinct : Distinct state.pool.nullBlock newComputedBlocks := by
    by_cases none_new : newComputedBlocks = []
    · rw [none_new]
      exact fun _ _ => Nat.zero_le 1
    rcases inPlace.covers (caching none_new) with ⟨positive, covers⟩
    exact FromCache.distinct tables.indexed request.blockHashes_nodup covers positive
      fun i block isHit => Or.inr (isCached i block isHit)
  rcases allocateNewComputedBlocks_cases tables (fun block member => Or.inr (isReal block member).1)
    distinct fit done with ⟨-, rfl, rfl, -⟩ | ⟨-, -, -, taken, freeAfter, enters⟩
  · exact inPlace
  have skips : state.manager.numSkippedBlocks (numLocal + numExternal) = 0 := by
    simp only [numSkippedBlocks, getNumSkippedTokens, inPlace.kind, Nat.zero_div]
  have blocks := enters.blocks
  have split := enters.split
  rw [keptHits, skips, drop_zero] at blocks split
  have isFree : ∀ block ∈ taken, block ∈ free := by
    intro block member
    exact (mem_filter.mp (split ▸ mem_append_left freeAfter member)).1
  have isStep : Enters position request.requestId state ⟨manager, pool, state.outside⟩ := by
    refine ⟨enters.frame, enters.same, fun i block isEntry => Or.inr ?_,
      fun cachingOn block hash isHash => Or.inl (enters.forgets.hash cachingOn isHash).2⟩
    rw [BlockAt, blocks, replicate_zero, nil_append, List.getElem?_append] at isEntry
    split at isEntry
    · rcases cachedBlockAt_hash tables.indexed (isCached i block isEntry) with
        ⟨hash, isPrompt, isHash⟩
      have cachingOn := caching (ne_nil_of_mem (mem_of_getElem? isEntry))
      exact ⟨(isReal block (mem_of_getElem? isEntry)).2, Or.inr ⟨cachingOn, hash, isHash,
        marks_of_positioned inPlace cachingOn positioned isPrompt⟩⟩
    have isTaken := mem_of_getElem? isEntry
    exact ⟨((tables.owned.free_iff block).mp (isFree block isTaken)).2.1,
      Or.inl ⟨tables.nowhere (isFree block isTaken),
        fun cachingOn => enters.forgets.gone cachingOn block isTaken⟩⟩
  exact inPlace.step isStep ⟨freeAfter, enters.tables⟩

theorem allocateNewBlocks_inPlace (inPlace : InPlace position state) {numTokens : Nat}
    {newBlocks : List BlockId}
    (done : state.manager.allocateNewBlocks state.pool requestId numTokens numTokens =
      .ok (newBlocks, manager, pool)) : InPlace position ⟨manager, pool, state.outside⟩ := by
  rcases inPlace.tables with ⟨free, tables⟩
  simp only [allocateNewBlocks, inPlace.kind] at done
  rcases baseAllocateNewBlocks_spec tables (Or.inr ⟨_, done⟩) with
    ⟨_, _, _, _, freeAfter, result, -, takes⟩
  cases done.symm.trans result
  have isStep : Enters position requestId state ⟨manager, pool, state.outside⟩ := by
    refine ⟨takes.frame, takes.same, fun i block isEntry => ?_,
      fun caching block hash isHash => Or.inl (takes.forgets.hash caching isHash).2⟩
    rw [BlockAt, takes.blocks, List.getElem?_append] at isEntry
    split at isEntry
    · exact Or.inl isEntry
    have isTaken := mem_of_getElem? isEntry
    have isFree : block ∈ free := takes.split ▸ mem_append_left freeAfter isTaken
    exact Or.inr ⟨((tables.owned.free_iff block).mp isFree).2.1,
      Or.inl ⟨tables.nowhere isFree, fun caching => takes.forgets.gone caching block isTaken⟩⟩
  exact inPlace.step isStep ⟨freeAfter, takes.tables⟩

theorem cacheLoop_hash {groupId blockSize index : Nat} {after : BlockPool H}
    (cached : cacheLoop groupId blockSize blockHashes index blocks pool = .ok after) :
    after.blockHash block = pool.blockHash block \/
      ∃ j hash, blocks[j]? = some block /\ after.blockHash block = some ⟨hash, groupId⟩ /\
        blockHashAt pool.hashBlockSize blockSize blockHashes (index + j) = some hash := by
  induction blocks generalizing index pool with
  | nil =>
    cases cached
    exact Or.inl rfl
  | cons first rest ih =>
    rw [cacheLoop] at cached
    split at cached
    · rcases ih cached with kept | ⟨j, hash, isAt, isHash, _⟩
      · exact Or.inl kept
      · exact Or.inr ⟨j + 1, hash, isAt, isHash, by rwa [<- Nat.add_assoc, Nat.add_right_comm]⟩
    split at cached
    · cases cached
    · cases cached
    case h_3 hash unhashed isFirst =>
      rcases ih cached with kept | ⟨j, other, isAt, isHash, _⟩
      · by_cases here : block = first
        · refine Or.inr ⟨0, hash, by rw [here]; rfl, ?_, isFirst⟩
          rw [kept, here]
          exact Function.update_self _ _ _
        rw [kept]
        exact Or.inl (Function.update_of_ne here _ _)
      · exact Or.inr ⟨j + 1, other, isAt, isHash, by rwa [<- Nat.add_assoc, Nat.add_right_comm]⟩

theorem cacheFullBlocks_hash {groupId blockSize numCachedBlocks numFullBlocks : Nat}
    {after : BlockPool H}
    (cached : pool.cacheFullBlocks blockHashes blocks numCachedBlocks numFullBlocks blockSize
      groupId = .ok after) :
    after.blockHash block = pool.blockHash block \/
      ∃ j hash, blocks[j]? = some block /\ after.blockHash block = some ⟨hash, groupId⟩ /\
        blockHashAt pool.hashBlockSize blockSize blockHashes j = some hash := by
  unfold cacheFullBlocks at cached
  split at cached
  · cases cached
    exact Or.inl rfl
  split at cached
  · cases cached
  rcases cacheLoop_hash cached with kept | ⟨j, hash, isAt, isHash, isPrompt⟩
  · exact Or.inl kept
  refine Or.inr ⟨numCachedBlocks + j, hash, ?_, isHash, isPrompt⟩
  rw [List.getElem?_drop, List.getElem?_take] at isAt
  split at isAt
  · exact isAt
  · cases isAt

theorem cacheBlocks_inPlace (inPlace : InPlace position state)
    (positioned : Positioned position request) {numTokens : Nat}
    (done : state.manager.cacheBlocks state.pool request numTokens = .ok (manager, pool)) :
    InPlace position ⟨manager, pool, state.outside⟩ := by
  rcases inPlace.tables with ⟨free, tables⟩
  have caches := cacheBlocks_caches tables done
  have isStep : Enters position request.requestId state ⟨manager, pool, state.outside⟩ := by
    refine ⟨caches.frame, caches.same, fun i block isEntry => ?_, fun caching block hash isHash => ?_⟩
    · rw [BlockAt, caches.blocks] at isEntry
      exact Or.inl isEntry
    simp only [cacheBlocks, inPlace.kind, baseCacheBlocks] at done
    split at done
    · cases done
      exact Or.inl isHash
    split at done
    · cases done
    case h_2 cachedPool cached =>
      cases done
      rcases cacheFullBlocks_hash (fromPool_eq_ok cached) with
        kept | ⟨i, _, isAt, isOther, isPrompt⟩
      · rw [kept] at isHash
        exact Or.inl isHash
      cases isOther.symm.trans isHash
      refine Or.inr ⟨i, ?_, marks_of_positioned inPlace caching positioned isPrompt⟩
      rw [BlockAt, caches.blocks]
      exact isAt
  exact inPlace.step isStep ⟨free, caches.tables⟩

section

omit [DecidableEq H]

theorem InPlace.ofPool (inPlace : InPlace position state) {held : BlockId -> Nat}
    (same : SamePool state.pool pool) (indexed : Indexed pool) (owned : Owned pool held free)
    (counts : ∀ block, block ≠ state.pool.nullBlock ->
      outside.count block + state.manager.tableCount block = held block)
    (hashes : state.pool.enableCaching = true -> ∀ block,
      pool.blockHash block = state.pool.blockHash block \/
        ∀ hash, pool.blockHash block ≠ some ⟨hash, state.manager.kvCacheGroupId⟩) :
    InPlace position { state with pool := pool, outside := outside } := by
  rcases inPlace.tables with ⟨_, tables⟩
  have isStep : Enters position "" state { state with pool := pool, outside := outside } := by
    refine ⟨Frame.refl "" _, same, fun _ _ isEntry => Or.inl isEntry,
      fun caching block hash isHash => ?_⟩
    rcases hashes caching block with kept | other
    · rw [kept] at isHash
      exact Or.inl isHash
    · exact absurd isHash (other hash)
  refine inPlace.step isStep ⟨free, owned.congr (fun block notNull =>
    counts block (same.nullBlock ▸ notNull)), indexed, ?_⟩
  rw [same.nullBlock]
  exact tables.distinct

theorem SharedPool.ofManager_eq_ok
    {result : Except ManagerError (SingleTypeKVCacheManager H × BlockPool H)}
    (done : state.ofManager result = .ok after) :
    ∃ manager pool, result = .ok (manager, pool) /\ after = ⟨manager, pool, state.outside⟩ := by
  cases result with
  | error error => cases done
  | ok value =>
    cases done
    exact ⟨value.1, value.2, rfl, rfl⟩

theorem SharedPool.ofPool_eq_ok {result : Except PoolError (BlockPool H)}
    (done : state.ofPool outside result = .ok after) :
    ∃ pool, result = .ok pool /\ after = { state with pool := pool, outside := outside } := by
  cases result with
  | error error => cases done
  | ok pool =>
    cases done
    exact ⟨pool, rfl, rfl⟩

end

section Calls

variable (inPlace : InPlace position state)
include inPlace

theorem readTable_inPlace {requestId : RequestId}
    (done : state.call (.readTable requestId) = .ok after) : InPlace position after := by
  cases done
  rcases inPlace.tables with ⟨free, tables⟩
  refine inPlace.step (.of_blocks (frame_setBlocks _ requestId _) (SamePool.refl _)
    (blocks_setBlocks _ _ _) fun _ => Or.inl rfl) ⟨free, ?_⟩
  exact tables.setBlocks (SamePool.refl _) tables.indexed tables.owned (tables.distinct requestId)
    fun _ _ => rfl

/-- Full attention skips no blocks, so nothing is removed from a table. -/
theorem removeSkippedBlocks_inPlace {requestId : RequestId} {totalComputedTokens : Nat}
    (done : state.call (.removeSkippedBlocks requestId totalComputedTokens) = .ok after) :
    InPlace position after := by
  rcases inPlace.tables with ⟨free, tables⟩
  rcases SharedPool.ofManager_eq_ok done with ⟨manager, _, result, rfl⟩
  rcases removeSkippedBlocks_spec tables with ⟨_, _, isResult, removes⟩
  cases result.symm.trans isResult
  have unskipped : state.manager.numRemovable totalComputedTokens = 0 := by
    simp only [numRemovable, inPlace.kind, numSkippedBlocks, getNumSkippedTokens, Nat.zero_div]
  have blocks : manager.blocks requestId = state.manager.blocks requestId := by
    apply ext_getElem?
    intro j
    refine (removes.nulled.entry j).resolve_right fun nulled => ?_
    rw [unskipped] at nulled
    exact Nat.not_lt_zero j nulled.1
  rcases removes.tables with ⟨_, tablesAfter⟩
  exact inPlace.step (.of_blocks removes.frame removes.same blocks fun block =>
    Or.inl (congrFun removes.hashes.blockHash block)) ⟨_, tablesAfter⟩

theorem free_inPlace {requestId : RequestId}
    (done : state.call (.free requestId) = .ok after) : InPlace position after := by
  rcases inPlace.tables with ⟨free, tables⟩
  rcases SharedPool.ofManager_eq_ok done with ⟨manager, pool, result, rfl⟩
  rcases free_spec tables with ⟨_, _, _, isResult, tablesAfter, same, hashes, frame, gone, -⟩
  cases result.symm.trans isResult
  have isStep : Enters position requestId state ⟨manager, pool, state.outside⟩ := by
    refine ⟨frame, same, fun i block isEntry => ?_, fun _ block hash isHash => Or.inl ?_⟩
    · rw [BlockAt, gone] at isEntry
      cases isEntry
    · rwa [hashes.blockHash] at isHash
  exact inPlace.step isStep ⟨_, tablesAfter⟩

theorem touch_inPlace {blocks : List BlockId}
    (valid : ∀ block ∈ blocks, block < state.pool.numGpuBlocks)
    (done : state.call (.touch blocks) = .ok after) : InPlace position after := by
  rcases inPlace.tables with ⟨free, tables⟩
  rcases SharedPool.ofPool_eq_ok done with ⟨_, result, rfl⟩
  rcases touch_spec tables.owned (fun block member => Or.inr (valid block member)) with
    ⟨_, isResult, same, hashes, ownedAfter⟩
  cases result.symm.trans isResult
  refine inPlace.ofPool same (tables.indexed.of_same same hashes) ownedAfter (fun block _ => ?_)
    fun _ block => Or.inl (congrFun hashes.blockHash block)
  rw [count_append]
  omega

theorem freeBlocks_inPlace {blocks : List BlockId} (distinct : blocks.Nodup)
    (known : ∀ block ∈ blocks, block ∈ state.outside)
    (done : state.call (.freeBlocks blocks) = .ok after) : InPlace position after := by
  rcases inPlace.tables with ⟨free, tables⟩
  rcases SharedPool.ofPool_eq_ok done with ⟨_, result, rfl⟩
  have once := nodup_iff_count_le_one.mp distinct
  have isHeld : ∀ block ∈ blocks, 0 < state.outside.count block :=
    fun block member => count_pos_iff.mpr (known block member)
  rcases freeBlocks_spec tables.owned (fun block _ => once block)
    (fun block member _ => Nat.add_pos_left (isHeld block member) _) with
    ⟨_, isResult, same, hashes, ownedAfter⟩
  cases result.symm.trans isResult
  refine inPlace.ofPool same (tables.indexed.of_same same hashes) ownedAfter (fun block _ => ?_)
    fun _ block => Or.inl (congrFun hashes.blockHash block)
  rw [count_diff]
  by_cases member : block ∈ blocks
  · have positive := isHeld block member
    have atMost := once block
    omega
  rw [count_eq_zero_of_not_mem member]
  omega

/-- Blocks that others take are in no table, and their hashes are forgotten. -/
theorem getNewBlocks_inPlace {numBlocks : Nat}
    (done : state.call (.getNewBlocks numBlocks) = .ok after) : InPlace position after := by
  rcases inPlace.tables with ⟨free, tables⟩
  cases result : state.pool.getNewBlocks numBlocks with
  | error error =>
    simp only [SharedPool.call, result] at done
    cases done
  | ok value =>
    simp only [SharedPool.call, result] at done
    cases done
    rcases getNewBlocks_spec tables.owned tables.indexed (getNewBlocks_enough tables.owned result)
      with ⟨_, isResult, same, indexed, forgets, ownedAfter⟩
    cases result.symm.trans isResult
    refine inPlace.ofPool same indexed ownedAfter (fun block _ => ?_) fun caching block => ?_
    · dsimp only
      rw [count_append]
      omega
    by_cases isTaken : block ∈ free.take numBlocks
    · exact Or.inr fun hash isHash => by simp [forgets.gone caching block isTaken] at isHash
    · exact Or.inl (forgets.kept block isTaken)

/-- Others cache blocks for groups of their own, so no hash of this group is
added. -/
theorem cacheFullBlocks_inPlace {request : Request H} {blocks : List BlockId}
    {numCachedBlocks numFullBlocks blockSize kvCacheGroupId : Nat}
    (otherGroup : kvCacheGroupId ≠ state.manager.kvCacheGroupId)
    (known : ∀ block ∈ blocks, block ∈ state.outside)
    (done : state.call (.cacheFullBlocks request blocks numCachedBlocks numFullBlocks blockSize
      kvCacheGroupId) = .ok after) : InPlace position after := by
  rcases inPlace.tables with ⟨free, tables⟩
  rcases SharedPool.ofPool_eq_ok done with ⟨_, result, rfl⟩
  have valid : ∀ block ∈ blocks, block ≠ state.pool.nullBlock ->
      block < state.pool.numGpuBlocks := by
    intro block member notNull
    exact tables.owned.valid block notNull
      (Nat.add_pos_left (count_pos_iff.mpr (known block member)) _)
  rcases cacheFullBlocks_caches tables.indexed valid result with ⟨_, caches, -⟩
  refine inPlace.ofPool caches.same caches.indexed
    (tables.owned.of_same caches.same caches.queue caches.refCnt) (fun _ _ => rfl) fun _ block => ?_
  refine (caches.hashes block).imp_right ?_
  rintro ⟨-, -, -, _, isKnown⟩ hash isHash
  cases isKnown.symm.trans isHash
  exact otherGroup rfl

omit [DecidableEq H] in
/-- A call that only forgets hashes, of some blocks or of all. -/
theorem InPlace.of_forgotten (same : SamePool state.pool pool) (indexed : Indexed pool)
    (queue : pool.freeBlockQueue = state.pool.freeBlockQueue)
    (refCnt : pool.refCnt = state.pool.refCnt)
    (hashes : ∀ block, pool.blockHash block = state.pool.blockHash block \/
      pool.blockHash block = none) :
    InPlace position { state with pool := pool } := by
  rcases inPlace.tables with ⟨free, tables⟩
  refine inPlace.ofPool same indexed (tables.owned.of_same same queue refCnt) (fun _ _ => rfl) ?_
  intro _ block
  refine (hashes block).imp_right fun gone hash isHash => ?_
  cases gone.symm.trans isHash

/-- What one call keeps. -/
theorem call_inPlace {call : PoolCall H} (permitted : call.Permitted position state)
    (done : state.call call = .ok after) : InPlace position after := by
  rcases inPlace.tables with ⟨free, tables⟩
  cases call with
  | readTable requestId => exact readTable_inPlace inPlace done
  | allocateNewComputedBlocks request newComputedBlocks numLocal numExternal =>
    rcases SharedPool.ofManager_eq_ok done with ⟨_, _, result, rfl⟩
    exact allocateNewComputedBlocks_inPlace inPlace permitted result
  | allocateNewBlocks requestId numTokens =>
    rcases SharedPool.ofManager_eq_ok done with ⟨_, _, result, rfl⟩
    cases taken : state.manager.allocateNewBlocks state.pool requestId numTokens numTokens with
    | error error =>
      rw [taken] at result
      cases result
    | ok value =>
      rcases value with ⟨_, _, _⟩
      rw [taken] at result
      cases result
      exact allocateNewBlocks_inPlace inPlace taken
  | cacheBlocks request numTokens =>
    rcases SharedPool.ofManager_eq_ok done with ⟨_, _, result, rfl⟩
    exact cacheBlocks_inPlace inPlace permitted result
  | removeSkippedBlocks requestId totalComputedTokens =>
    exact removeSkippedBlocks_inPlace inPlace done
  | free requestId => exact free_inPlace inPlace done
  | touch blocks => exact touch_inPlace inPlace permitted done
  | freeBlocks blocks => exact freeBlocks_inPlace inPlace permitted.1 permitted.2 done
  | getNewBlocks numBlocks => exact getNewBlocks_inPlace inPlace done
  | cacheFullBlocks request blocks numCachedBlocks numFullBlocks blockSize kvCacheGroupId =>
    exact cacheFullBlocks_inPlace inPlace permitted.1 permitted.2 done
  | evictBlocks blockIds =>
    rcases SharedPool.ofPool_eq_ok done with ⟨_, result, rfl⟩
    rcases evictBlocks_spec tables.indexed result with ⟨same, indexed, queue, refCnt, hashes⟩
    exact inPlace.of_forgotten same indexed queue refCnt hashes
  | resetPrefixCache =>
    cases done
    rcases resetPrefixCache_spec tables.indexed with ⟨same, indexed, queue, refCnt, hashes⟩
    exact inPlace.of_forgotten same indexed queue refCnt hashes

end Calls

theorem init_inPlace (initial : (sharedPoolSystem position).initial state) :
    InPlace position state := by
  rcases initial with ⟨spec, _, _, _, _, _,
    _, kind, covers, isPool, isManager, outside⟩
  rcases init_spec isPool with ⟨indexed, caching, hashes, -, -, free, owned⟩
  have noBlocks : ∀ requestId, state.manager.blocks requestId = [] := by
    intro requestId
    rw [isManager]
    rfl
  refine ⟨?_, ?_, ?_, ⟨free, owned.congr (fun block _ => ?_), indexed, ?_⟩, ?_, ?_, ?_⟩
  · rw [isManager]
    exact kind
  · rw [caching, isManager]
    rfl
  · rw [caching, hashes, isManager]
    exact fun enabled => ⟨(covers enabled).1, Nat.le_of_dvd spec.blockSize_pos (covers enabled).2⟩
  · rw [outside, isManager]
    rfl
  · intro requestId
    rw [noBlocks]
    exact fun _ _ => Nat.zero_le 1
  · intro requestId
    rw [noBlocks]
    exact not_mem_nil
  · intro first second i j block isFirst
    rw [BlockAt, noBlocks] at isFirst
    cases isFirst
  · intro _ requestId i block hash isEntry
    rw [BlockAt, noBlocks] at isEntry
    cases isEntry

theorem reachable_inPlace (reachable : (sharedPoolSystem position).Reachable state) :
    InPlace position state := by
  refine reachable.invariant (InPlace position) (fun _ => init_inPlace) ?_
  rintro before call later - inPlace ⟨permitted, done⟩
  exact call_inPlace inPlace permitted done

end Places

section Common

theorem lt_length_takeWhile {A : Type} {property : A -> Bool} {list : List A} {j : Nat} :
    j < (list.takeWhile property).length <->
      j < list.length /\ ∀ i ≤ j, ∀ value, list[i]? = some value -> property value = true := by
  induction list generalizing j with
  | nil => simp
  | cons first rest ih =>
    rw [takeWhile_cons]
    split
    case isTrue holds =>
      cases j with
      | zero => simp [holds]
      | succ j =>
        rw [length_cons, length_cons, Nat.succ_lt_succ_iff, Nat.succ_lt_succ_iff, ih]
        refine and_congr_right fun _ => ⟨fun rest i within => ?_, fun all i within => ?_⟩
        · cases i with
          | zero => simp [holds]
          | succ i => exact rest i (Nat.le_of_succ_le_succ within)
        · exact all (i + 1) (Nat.succ_le_succ within)
    case isFalse fails =>
      refine iff_of_false (Nat.not_lt_zero j) fun both => fails ?_
      exact both.2 0 (Nat.zero_le j) first rfl

/-- Numbers that are at most one add up to their length if all are one. -/
theorem sum_eq_length_iff {A : Type} {measure : A -> Nat} {list : List A}
    (bounded : ∀ value ∈ list, measure value <= 1) :
    (list.map measure).sum <= list.length /\
      ((list.map measure).sum = list.length <-> ∀ value ∈ list, measure value = 1) := by
  induction list with
  | nil => simp
  | cons first rest ih =>
    rw [forall_mem_cons] at bounded
    rcases ih bounded.2 with ⟨_, all⟩
    rw [map_cons, sum_cons, length_cons, forall_mem_cons, <- all]
    omega

variable {H : Type} {position : H -> Nat} {state : SharedPool H}

/-- A block whose references are as many as the tables is in all of them, unless
one of the references comes from elsewhere. -/
theorem InPlace.common_iff (inPlace : InPlace position state) {requestId : RequestId} {j : Nat}
    (isEntry : state.manager.BlockAt requestId j block)
    (counted : state.pool.refCnt block = state.manager.reqToBlocks.entries.length) :
    block ∉ state.outside <->
      ∀ other ∈ state.manager.reqToBlocks.keys, state.manager.BlockAt other j block := by
  rcases inPlace.tables with ⟨_, tables⟩
  have notNull : block ≠ state.pool.nullBlock := fun isNull =>
    inPlace.real requestId (isNull ▸ mem_of_getElem? isEntry)
  have references := tables.owned.refCnt block notNull
  have isTable : ∀ entry ∈ state.manager.reqToBlocks.entries,
      state.manager.blocks entry.1 = entry.2 := by
    intro entry member
    rw [blocks, (state.manager.reqToBlocks.get?_eq_some_iff).mpr member]
    rfl
  have bounded : ∀ entry ∈ state.manager.reqToBlocks.entries, entry.2.count block <= 1 := by
    intro entry member
    rw [<- isTable entry member]
    exact tables.distinct entry.1 block notNull
  have everywhere : block ∉ state.outside <->
      ∀ entry ∈ state.manager.reqToBlocks.entries, entry.2.count block = 1 := by
    rw [<- count_eq_zero, <- (sum_eq_length_iff bounded).2]
    change _ <-> state.manager.tableCount block = _
    omega
  rw [everywhere]
  constructor
  · intro all other isKey
    rcases mem_map.mp isKey with ⟨entry, member, rfl⟩
    have inside : block ∈ state.manager.blocks entry.1 := by
      rw [isTable entry member, <- count_pos_iff, all entry member]
      exact Nat.one_pos
    rcases List.getElem?_of_mem inside with ⟨i, isAt⟩
    rwa [inPlace.aligned requestId entry.1 j i block isEntry isAt]
  intro all entry member
  refine (bounded entry member).antisymm (count_pos_iff.mpr ?_)
  rw [<- isTable entry member]
  exact mem_of_getElem? (all entry.1 (mem_map_of_mem member))

variable [DecidableEq H]

/-- In every state that runs reach, what is counted as a common prefix is one
exactly if nobody else refers to its blocks. -/
theorem common_prefix_iff_unreferenced (position : H -> Nat) (state : SharedPool H)
    (reachable : (sharedPoolSystem position).Reachable state) (requestId : RequestId) :
    CommonPrefix state requestId <-> Unreferenced state requestId := by
  have inPlace := reachable_inPlace reachable
  have counted : ∀ j, j < state.manager.getNumCommonPrefixBlocks state.pool requestId <->
      j < (state.manager.blocks requestId).length /\
        ∀ i ≤ j, ∀ earlier, state.manager.BlockAt requestId i earlier ->
          state.pool.refCnt earlier = state.manager.reqToBlocks.entries.length := by
    intro j
    rw [getNumCommonPrefixBlocks, lt_length_takeWhile]
    simp only [decide_eq_true_eq]
  constructor
  · intro common j block isEntry earlier
    have inside := (List.getElem?_eq_some_iff.mp isEntry).choose
    refine (inPlace.common_iff isEntry (earlier j (le_rfl) block isEntry)).mpr ?_
    intro other isKey
    exact (common other isKey j ((counted j).mpr ⟨inside, earlier⟩)).trans isEntry
  intro unreferenced other isKey j isCounted
  rcases (counted j).mp isCounted with ⟨inside, earlier⟩
  have isEntry : state.manager.BlockAt requestId j _ := List.getElem?_eq_getElem inside
  have outside := unreferenced j _ isEntry earlier
  rw [isEntry]
  exact (inPlace.common_iff isEntry (earlier j (le_rfl) _ isEntry)).mp outside other isKey

instance (position : H -> Nat) (state : SharedPool H) : (call : PoolCall H) ->
    Decidable (call.Permitted position state)
  | .allocateNewComputedBlocks _ newComputedBlocks _ _ => inferInstanceAs (Decidable
      (_ = _ /\ _ /\ (∀ j < newComputedBlocks.length, _ = _) /\ (_ \/ _)))
  | .cacheBlocks _ _ => inferInstanceAs (Decidable (_ = _))
  | .touch blocks => inferInstanceAs (Decidable (∀ block ∈ blocks, _ < _))
  | .freeBlocks blocks => inferInstanceAs (Decidable (_ /\ ∀ block ∈ blocks, _ ∈ _))
  | .cacheFullBlocks _ blocks _ _ _ _ => inferInstanceAs (Decidable
      (_ ≠ _ /\ ∀ block ∈ blocks, _ ∈ _))
  | .readTable _ | .allocateNewBlocks _ _ | .removeSkippedBlocks _ _ | .free _
  | .getNewBlocks _ | .evictBlocks _ | .resetPrefixCache => inferInstanceAs (Decidable True)

/-- Calls on a new manager with blocks of 16 tokens. -/
def afterPoolCalls (calls : List (PoolCall Nat)) : Option (SharedPool Nat) :=
  (BlockPool.init 10 true 16 : Except PoolError (BlockPool Nat)).toOption.bind (fun pool =>
    System.run (fun state call =>
      if PoolCall.Permitted id state call then (state.call call).toOption else none) calls
      ⟨.init ⟨16, zero_lt_sixteen, .fullAttention, 0⟩ true 0 64 64, pool, []⟩)

theorem afterPoolCalls_reachable {calls : List (PoolCall Nat)} {state : SharedPool Nat}
    (ran : afterPoolCalls calls = some state) : (sharedPoolSystem id).Reachable state := by
  rcases bind_eq_some_iff.mp ran with ⟨_, isPool, later⟩
  have steps : ∀ (state : SharedPool Nat) call after, call.Permitted id state ->
      state.call call = .ok after -> (sharedPoolSystem id).step state call after :=
    fun _ _ _ permitted done => ⟨permitted, done⟩
  refine System.Reachable.run_where steps (.start ?_) later
  exact ⟨_, true, 0, 10, 16, 64, 64, rfl, fun _ => by decide, System.ok_of_toOption isPool, rfl, rfl⟩

/-- Two requests with the same tokens share their first block. -/
theorem shared_block_common_prefix : ∃ state, (sharedPoolSystem id).Reachable state /\
    state.manager.getNumCommonPrefixBlocks state.pool "first" = 1 /\ CommonPrefix state "first" := by
  have shared : (afterPoolCalls
      [.allocateNewBlocks "first" 16, .cacheBlocks (threeBlockRequest "first" 16) 16,
        .allocateNewComputedBlocks (threeBlockRequest "second" 32) [1] 16 0,
        .allocateNewBlocks "second" 32]).map (fun state =>
          (state.manager.getNumCommonPrefixBlocks state.pool "first", state.outside)) =
      some (1, []) := by
    decide +kernel
  rcases map_eq_some_iff.mp shared with ⟨state, ran, pair⟩
  have reachable := afterPoolCalls_reachable ran
  refine ⟨state, reachable, congrArg Prod.fst pair, ?_⟩
  refine (common_prefix_iff_unreferenced id state reachable "first").mpr fun j block _ _ => ?_
  rw [show state.outside = [] from congrArg Prod.snd pair]
  exact not_mem_nil

instance (state : SharedPool H) (requestId : RequestId) : Decidable (CommonPrefix state requestId) :=
  inferInstanceAs (Decidable (∀ other ∈ state.manager.reqToBlocks.keys, ∀ j < _, _ = _))

/-- A transfer that stores the block of the first request refers to it, so it
has two references, as many as there are requests. -/
theorem stored_block_counted_as_common : ∃ state, (sharedPoolSystem id).Reachable state /\
    ¬ CommonPrefix state "first" := by
  have counted : (afterPoolCalls
      [.allocateNewBlocks "first" 16, .cacheBlocks (threeBlockRequest "first" 16) 16,
        .allocateNewBlocks "second" 16, .touch [1]]).map (fun state =>
          decide (CommonPrefix state "first")) = some false := by
    decide +kernel
  rcases map_eq_some_iff.mp counted with ⟨state, ran, isFalse⟩
  exact ⟨state, afterPoolCalls_reachable ran, of_decide_eq_false isFalse⟩

end Common

end Vllm.KVCache
