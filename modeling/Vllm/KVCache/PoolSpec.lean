import Vllm.KVCache.BlockPool

namespace Vllm.KVCache

open Foundation Function BlockPool BlockHashToBlockMap List

/-!
# What the operations of the pool do

Two invariants describe a pool.  `Owned` relates the reference counts and the
free queue to the references that are held from outside, which appear here as a
function.  `Indexed` says that the table of cached blocks and the hashes of the
blocks agree.
-/

section Pool

variable {H : Type}

/-- The data of a pool that no operation changes. -/
structure SamePool (pool after : BlockPool H) : Prop where
  numGpuBlocks : after.numGpuBlocks = pool.numGpuBlocks
  nullBlock : after.nullBlock = pool.nullBlock
  hashBlockSize : after.hashBlockSize = pool.hashBlockSize
  enableCaching : after.enableCaching = pool.enableCaching

theorem SamePool.refl (pool : BlockPool H) : SamePool pool pool := ⟨rfl, rfl, rfl, rfl⟩

variable {first second third : BlockPool H}

theorem SamePool.trans (left : SamePool first second) (right : SamePool second third) :
    SamePool first third :=
  ⟨right.numGpuBlocks.trans left.numGpuBlocks, right.nullBlock.trans left.nullBlock,
    right.hashBlockSize.trans left.hashBlockSize, right.enableCaching.trans left.enableCaching⟩

/-- The hashes and the table of cached blocks are unchanged. -/
structure SameHashes (pool after : BlockPool H) : Prop where
  blockHash : after.blockHash = pool.blockHash
  cache : after.cachedBlockHashToBlock = pool.cachedBlockHashToBlock

theorem SameHashes.refl (pool : BlockPool H) : SameHashes pool pool := ⟨rfl, rfl⟩

theorem SameHashes.trans (left : SameHashes first second) (right : SameHashes second third) :
    SameHashes first third :=
  ⟨right.blockHash.trans left.blockHash, right.cache.trans left.cache⟩

/-- The references to blocks are `held`, and `free` is the list that the free
queue stands for.  The reference count of the null block is not maintained. -/
structure Owned (pool : BlockPool H) (held : BlockId -> Nat) (free : List BlockId) : Prop where
  represents : pool.freeBlockQueue.Represents free
  free_iff : ∀ block, block ∈ free <->
    block < pool.numGpuBlocks /\ block ≠ pool.nullBlock /\ held block = 0
  refCnt : ∀ block, block ≠ pool.nullBlock -> pool.refCnt block = held block
  valid : ∀ block, block ≠ pool.nullBlock -> 0 < held block -> block < pool.numGpuBlocks
  null_valid : pool.nullBlock < pool.numGpuBlocks

variable {free : List BlockId} {held : BlockId -> Nat} {pool after : BlockPool H}
  {blocks : List BlockId} {cache : BlockHashToBlockMap H}

theorem Owned.of_same (owned : Owned pool held free) (same : SamePool pool after)
    (queue : after.freeBlockQueue = pool.freeBlockQueue) (refCnt : after.refCnt = pool.refCnt) :
    Owned after held free := by
  refine ⟨queue ▸ owned.represents, ?_, ?_, ?_, ?_⟩
  · intro block
    rw [same.numGpuBlocks, same.nullBlock]
    exact owned.free_iff block
  · intro block notNull
    rw [refCnt]
    exact owned.refCnt block (same.nullBlock ▸ notNull)
  · intro block notNull positive
    rw [same.numGpuBlocks]
    exact owned.valid block (same.nullBlock ▸ notNull) positive
  · rw [same.numGpuBlocks, same.nullBlock]
    exact owned.null_valid

theorem Owned.numFree (owned : Owned pool held free) : pool.getNumFreeBlocks = free.length :=
  owned.represents.count

theorem setRefCnt_refCnt (pool : BlockPool H) (block : BlockId) (refCnt : Int) :
    (pool.setRefCnt block refCnt).refCnt = update pool.refCnt block refCnt := rfl

theorem refCnt_succ (block other : BlockId) :
    (pool.setRefCnt block (pool.refCnt block + 1)).refCnt other =
      pool.refCnt other + [block].count other := by
  rw [setRefCnt_refCnt, update_apply, count_singleton]
  by_cases here : other = block
  · simp [here]
  · simp [here, Ne.symm here]

theorem count_cons_add (block : BlockId) (rest : List BlockId) (other : BlockId) :
    (block :: rest).count other = [block].count other + rest.count other := by
  rw [<- singleton_append, count_append]

/-- One more reference to each of some blocks, which are not free any more. -/
theorem Owned.retain (owned : Owned pool held free) (same : SamePool pool after)
    (valid : ∀ block ∈ blocks, block = pool.nullBlock \/ block < pool.numGpuBlocks)
    (represents : after.freeBlockQueue.Represents (free.filter (fun block => block ∉ blocks)))
    (refCnt : ∀ block, after.refCnt block = pool.refCnt block + blocks.count block) :
    Owned after (fun block => held block + blocks.count block)
      (free.filter (fun block => block ∉ blocks)) := by
  refine ⟨represents, ?_, ?_, ?_, ?_⟩
  · intro block
    rw [mem_filter, owned.free_iff, same.numGpuBlocks, same.nullBlock]
    simp only [decide_eq_true_eq, Nat.add_eq_zero_iff, count_eq_zero, and_assoc]
  · intro block notNull
    rw [refCnt, owned.refCnt block (same.nullBlock ▸ notNull)]
    rfl
  · intro block notNull positive
    rw [same.nullBlock] at notNull
    rw [same.numGpuBlocks]
    by_cases member : block ∈ blocks
    · exact (valid block member).resolve_left notNull
    rw [count_eq_zero_of_not_mem member] at positive
    exact owned.valid block notNull positive
  · rw [same.numGpuBlocks, same.nullBlock]
    exact owned.null_valid

theorem touch_spec (owned : Owned pool held free)
    (valid : ∀ block ∈ blocks, block = pool.nullBlock \/ block < pool.numGpuBlocks) :
    ∃ after, touch blocks pool = .ok after /\ SamePool pool after /\ SameHashes pool after /\
      Owned after (fun block => held block + blocks.count block)
        (free.filter (fun block => block ∉ blocks)) := by
  induction blocks generalizing pool held free with
  | nil => exact ⟨pool, rfl, SamePool.refl pool, SameHashes.refl pool, by simpa using owned⟩
  | cons block rest ih =>
    have blockValid := valid block mem_cons_self
    have firstValid : ∀ other ∈ [block], other = pool.nullBlock \/ other < pool.numGpuBlocks := by
      simpa using blockValid
    have filtered : free.filter (fun other => other ∉ block :: rest) =
        (free.filter (fun other => other ∉ [block])).filter (fun other => other ∉ rest) := by
      simp [filter_filter, Bool.and_comm]
    simp only [filtered, count_cons_add block rest, <- Nat.add_assoc]
    rw [touch]
    split
    case isTrue waiting =>
      have unheld : held block = 0 := by
        have count := owned.refCnt block waiting.2
        omega
      have member : block ∈ free := (owned.free_iff block).mpr
        ⟨blockValid.resolve_left waiting.2, waiting.2, unheld⟩
      rcases FreeKVCacheBlockQueue.remove_represents owned.represents member with
        ⟨queue, removed, represents⟩
      have shorter : free.erase block = free.filter (fun other => other ∉ [block]) := by
        rw [owned.represents.nodup.erase_eq_filter]
        exact filter_congr (fun other _ => by by_cases here : other = block <;> simp [here])
      have same : SamePool pool ({ pool with freeBlockQueue := queue }.setRefCnt block
          (pool.refCnt block + 1)) := ⟨rfl, rfl, rfl, rfl⟩
      simp only [removed]
      rcases ih (owned.retain same firstValid (shorter ▸ represents) (refCnt_succ block))
        (fun other later => valid other (mem_cons_of_mem _ later)) with
        ⟨after, touched, sameAfter, hashes, ownedAfter⟩
      exact ⟨after, touched, same.trans sameAfter, ⟨hashes.blockHash, hashes.cache⟩, ownedAfter⟩
    case isFalse inUse =>
      have absent : block ∉ free := by
        intro member
        have facts := (owned.free_iff block).mp member
        have count := owned.refCnt block facts.2.1
        exact inUse ⟨by omega, facts.2.1⟩
      have unchanged : free.filter (fun other => other ∉ [block]) = free := by
        rw [filter_eq_self]
        intro other member
        have different : other ≠ block := fun same => absent (same ▸ member)
        simpa using different
      have same : SamePool pool (pool.setRefCnt block (pool.refCnt block + 1)) :=
        ⟨rfl, rfl, rfl, rfl⟩
      rcases ih (owned.retain same firstValid (by rw [unchanged]; exact owned.represents)
        (refCnt_succ block)) (fun other later => valid other (mem_cons_of_mem _ later)) with
        ⟨after, touched, sameAfter, hashes, ownedAfter⟩
      exact ⟨after, touched, same.trans sameAfter, ⟨hashes.blockHash, hashes.cache⟩, ownedAfter⟩

theorem releaseAll_refCnt (blocks : List BlockId) (pool : BlockPool H) (block : BlockId) :
    (releaseAll blocks pool).refCnt block = pool.refCnt block - blocks.count block := by
  induction blocks generalizing pool with
  | nil => simp [releaseAll]
  | cons first rest ih =>
    rw [releaseAll, ih, setRefCnt_refCnt]
    by_cases here : block = first
    · subst here
      rw [update_self, count_cons_self]
      omega
    · rw [update_of_ne here, count_cons_of_ne (Ne.symm here)]

theorem releaseAll_same (pool : BlockPool H) :
    SamePool pool (releaseAll blocks pool) /\ SameHashes pool (releaseAll blocks pool) /\
      (releaseAll blocks pool).freeBlockQueue = pool.freeBlockQueue := by
  induction blocks generalizing pool with
  | nil => exact ⟨SamePool.refl pool, SameHashes.refl pool, rfl⟩
  | cons first rest ih =>
    rcases ih (pool.setRefCnt first (pool.refCnt first - 1)) with ⟨same, hashes, queue⟩
    exact ⟨⟨same.1, same.2, same.3, same.4⟩, ⟨hashes.1, hashes.2⟩, queue⟩

/-- A real block occurs at most once. -/
def Distinct (nullBlock : BlockId) (blocks : List BlockId) : Prop :=
  ∀ block, block ≠ nullBlock -> blocks.count block <= 1

theorem distinct_iff_nodup {nullBlock : BlockId} :
    Distinct nullBlock blocks <-> (blocks.filter (fun block => block ≠ nullBlock)).Nodup := by
  rw [nodup_iff_count_le_one]
  constructor
  · intro distinct block
    by_cases isNull : block = nullBlock
    · rw [count_eq_zero_of_not_mem (by simp [isNull])]
      exact Nat.zero_le 1
    rw [count_filter (by simpa using isNull)]
    exact distinct block isNull
  intro nodup block notNull
  rw [<- count_filter (p := fun block => block ≠ nullBlock) (by simpa using notNull)]
  exact nodup block

theorem Distinct.count_eq_one {nullBlock block : BlockId} (distinct : Distinct nullBlock blocks)
    (member : block ∈ blocks) (notNull : block ≠ nullBlock) : blocks.count block = 1 :=
  (distinct block notNull).antisymm (count_pos_iff.mpr member)

theorem freeBlocks_spec (owned : Owned pool held free) (distinct : Distinct pool.nullBlock blocks)
    (isHeld : ∀ block ∈ blocks, block ≠ pool.nullBlock -> 0 < held block) :
    ∃ after, pool.freeBlocks blocks = .ok after /\ SamePool pool after /\ SameHashes pool after /\
      Owned after (fun block => held block - blocks.count block)
        (free ++ blocks.filter (fun block => held block = 1 /\ block ≠ pool.nullBlock)) := by
  rcases releaseAll_same pool with ⟨same, hashes, queue⟩
  have freed : blocks.filter (fun block => (releaseAll blocks pool).refCnt block = 0 /\
        block ≠ (releaseAll blocks pool).nullBlock) =
      blocks.filter (fun block => held block = 1 /\ block ≠ pool.nullBlock) := by
    apply filter_congr
    intro block member
    rw [same.nullBlock, releaseAll_refCnt]
    by_cases isNull : block = pool.nullBlock
    · simp [isNull]
    have once := distinct.count_eq_one member isNull
    have count := owned.refCnt block isNull
    rw [once, count]
    simp only [isNull, ne_eq, not_false_eq_true, and_true, decide_eq_decide]
    omega
  have freedNodup : (free ++ blocks.filter (fun block =>
      held block = 1 /\ block ≠ pool.nullBlock)).Nodup := by
    rw [nodup_append]
    refine ⟨owned.represents.nodup, ?_, ?_⟩
    · refine (distinct_iff_nodup.mp distinct).sublist ?_
      apply monotone_filter_right
      intro block single
      simp only [ne_eq, Bool.decide_and, decide_not, Bool.and_eq_true, decide_eq_true_eq,
        Bool.not_eq_eq_eq_not, Bool.not_true, decide_eq_false_iff_not] at single ⊢
      exact single.2
    rintro block isFree other member rfl
    have unheld := ((owned.free_iff block).mp isFree).2.2
    simp [unheld] at member
  rcases FreeKVCacheBlockQueue.appendN_represents owned.represents freedNodup with
    ⟨after, appended, represents⟩
  refine ⟨{ releaseAll blocks pool with freeBlockQueue := after },
    by simp only [freeBlocks, freed, queue, appended], ⟨same.1, same.2, same.3, same.4⟩,
    ⟨hashes.1, hashes.2⟩, represents, ?_, ?_, ?_, ?_⟩
  · intro block
    change _ <-> block < (releaseAll blocks pool).numGpuBlocks /\
      block ≠ (releaseAll blocks pool).nullBlock /\ _
    rw [same.numGpuBlocks, same.nullBlock, mem_append, owned.free_iff, mem_filter]
    by_cases isNull : block = pool.nullBlock
    · simp [isNull]
    by_cases member : block ∈ blocks
    · have once := distinct.count_eq_one member isNull
      have positive := isHeld block member isNull
      have valid := owned.valid block isNull positive
      simp only [isNull, member, once, valid, ne_eq, not_false_eq_true, true_and, and_true,
        decide_eq_true_eq]
      omega
    · rw [count_eq_zero_of_not_mem member]
      simp [member]
  · intro block notNull
    change (releaseAll blocks pool).refCnt block = _
    rw [releaseAll_refCnt]
    have notNullBefore : block ≠ pool.nullBlock := same.nullBlock ▸ notNull
    rw [owned.refCnt block notNullBefore]
    by_cases member : block ∈ blocks
    · have once := distinct.count_eq_one member notNullBefore
      have positive := isHeld block member notNullBefore
      omega
    rw [count_eq_zero_of_not_mem member]
    simp
  · intro block notNull positive
    change block < (releaseAll blocks pool).numGpuBlocks
    rw [same.numGpuBlocks]
    exact owned.valid block (same.nullBlock ▸ notNull) (positive.trans_le (Nat.sub_le _ _))
  · change (releaseAll blocks pool).nullBlock <
      (releaseAll blocks pool).numGpuBlocks
    rw [same.numGpuBlocks, same.nullBlock]
    exact owned.null_valid

/-- A block is stored under a key. -/
def Holds (cache : BlockHashToBlockMap H) (key : BlockHashWithGroupId H) (block : BlockId) : Prop :=
  match cache key with
  | none => False
  | some (.single other) => other = block
  | some (.several blocks) => blocks.get? block = some block

/-- The table of several blocks under one key maps each block id to its block. -/
def KeyedByBlock (cache : BlockHashToBlockMap H) : Prop :=
  ∀ key blocks, cache key = some (.several blocks) ->
    ∀ block other, blocks.get? block = some other -> other = block

variable {key : BlockHashWithGroupId H} {block : BlockId}

theorem getOneBlock_holds (keyed : KeyedByBlock cache)
    (found : cache.getOneBlock key = some block) :
    Holds cache key block := by
  unfold getOneBlock at found
  unfold Holds
  cases stored : cache key with
  | none => simp [stored] at found
  | some cached =>
    cases cached with
    | single other => simpa [stored] using found
    | several blocks =>
      simp only [stored] at found ⊢
      cases entries : blocks.entries with
      | nil => simp [Dict.values, entries] at found
      | cons entry rest =>
        have isValue : entry.2 = block := by simpa [Dict.values, entries] using found
        have present : blocks.get? entry.1 = some entry.2 :=
          (blocks.get?_eq_some_iff).mpr (by simp [entries])
        have same := keyed key blocks stored entry.1 entry.2 present
        rw [<- isValue]
        rw [same] at present ⊢
        exact present

variable [DecidableEq H]

theorem insert_of_ne {other : BlockHashWithGroupId H}
    (different : other ≠ key) : cache.insert key block other = cache other := by
  unfold BlockHashToBlockMap.insert
  rcases cache key with _ | _ | _ <;> exact update_of_ne different _ _

theorem pop_of_ne {other : BlockHashWithGroupId H}
    (different : other ≠ key) : (cache.pop key block).2 other = cache other := by
  unfold pop
  rcases cache key with _ | present | _
  · rfl
  · by_cases found : present = block
    · simp only [found, if_true, update_of_ne different]
    · simp only [found, if_false]
  · exact update_of_ne different _ _

theorem insert_holds (cache : BlockHashToBlockMap H) (key other : BlockHashWithGroupId H)
    (block otherBlock : BlockId) :
    Holds (cache.insert key block) other otherBlock <->
      Holds cache other otherBlock \/ other = key /\ otherBlock = block := by
  by_cases same : other = key
  · subst same
    unfold BlockHashToBlockMap.insert Holds
    cases stored : cache other with
    | none => simp [eq_comm]
    | some cached =>
      cases cached with
      | single present =>
        simp only [update_self, Dict.get?_set, Dict.get?_empty]
        by_cases isNew : otherBlock = block
        · simp [isNew]
        by_cases isOld : otherBlock = present
        · simp [isOld, eq_comm]
        · simp [isNew, isOld, Ne.symm isOld]
      | several blocks =>
        simp only [update_self, Dict.get?_set]
        by_cases isNew : otherBlock = block
        · simp [isNew]
        · simp [isNew]
  · unfold Holds
    rw [insert_of_ne same]
    simp [same]

theorem insert_keyed (keyed : KeyedByBlock cache) :
    KeyedByBlock (cache.insert key block) := by
  intro other blocks stored
  by_cases same : other = key
  · subst same
    intro first second found
    unfold BlockHashToBlockMap.insert at stored
    cases before : cache other with
    | none => simp [before] at stored
    | some cached =>
      cases cached with
      | single present =>
        simp only [before, update_self, Option.some.injEq, CachedBlocks.several.injEq] at stored
        rw [<- stored, Dict.get?_set, Dict.get?_set, Dict.get?_empty] at found
        split at found
        · simp_all
        · split at found <;> simp_all
      | several olds =>
        simp only [before, update_self, Option.some.injEq, CachedBlocks.several.injEq] at stored
        rw [<- stored, Dict.get?_set] at found
        split at found
        · simp_all
        · exact keyed other olds before first second found
  · rw [insert_of_ne same] at stored
    exact keyed other blocks stored

omit [DecidableEq H] in
theorem get?_of_entries_nil {blocks : Dict BlockId BlockId} (empty : blocks.entries = [])
    (block : BlockId) : blocks.get? block = none := by
  rw [Dict.get?, empty]
  rfl

theorem pop_holds (cache : BlockHashToBlockMap H) (key other : BlockHashWithGroupId H)
    (block otherBlock : BlockId) :
    Holds (cache.pop key block).2 other otherBlock <->
      Holds cache other otherBlock /\ ¬ (other = key /\ otherBlock = block) := by
  by_cases same : other = key
  · subst same
    unfold pop Holds
    cases stored : cache other with
    | none => simp [stored]
    | some cached =>
      cases cached with
      | single present =>
        by_cases found : present = block
        · simp only [found, if_true, update_self, true_and]
          constructor
          · exact False.elim
          rintro ⟨here, notHere⟩
          exact notHere here.symm
        simp only [found, if_false, stored, true_and]
        constructor
        · rintro rfl
          exact ⟨rfl, found⟩
        · exact And.left
      | several blocks =>
        have erased : (blocks.erase block).get? otherBlock = some otherBlock <->
            blocks.get? otherBlock = some otherBlock /\ ¬ otherBlock = block := by
          rw [Dict.get?_erase]
          by_cases isPopped : otherBlock = block <;> simp [isPopped]
        simp only [update_self, true_and]
        rw [<- erased]
        by_cases empty : (blocks.erase block).entries = []
        · simp [empty, get?_of_entries_nil empty]
        · simp [empty]
  · unfold Holds
    rw [pop_of_ne same]
    simp [same]

theorem pop_keyed (keyed : KeyedByBlock cache) :
    KeyedByBlock (cache.pop key block).2 := by
  intro other blocks stored
  by_cases same : other = key
  · subst same
    unfold pop at stored
    cases before : cache other with
    | none => simp [before] at stored
    | some cached =>
      cases cached with
      | single present =>
        simp only [before] at stored
        split at stored <;> simp [before] at stored
      | several olds =>
        simp only [before, update_self] at stored
        split at stored
        · cases stored
        cases stored
        intro first second found
        rw [Dict.get?_erase] at found
        split at found
        · cases found
        · exact keyed other olds before first second found
  · rw [pop_of_ne same] at stored
    exact keyed other blocks stored

theorem pop_isSome (held : Holds cache key block) : (cache.pop key block).1.isSome := by
  unfold Holds at held
  unfold pop
  cases stored : cache key with
  | none => simp [stored] at held
  | some cached =>
    cases cached with
    | single present =>
      have same : present = block := by simpa [stored] using held
      simp [same]
    | several blocks =>
      simp only [stored] at held
      simp [held]

/-- The table of cached blocks lists exactly the blocks that have a hash, and
only real blocks have one. -/
structure Indexed (pool : BlockPool H) : Prop where
  holds_iff : ∀ key block,
    Holds pool.cachedBlockHashToBlock key block <-> pool.blockHash block = some key
  keyed : KeyedByBlock pool.cachedBlockHashToBlock
  valid : ∀ block key, pool.blockHash block = some key ->
    block < pool.numGpuBlocks /\ block ≠ pool.nullBlock

section

omit [DecidableEq H]

theorem Indexed.of_same (indexed : Indexed pool) (same : SamePool pool after)
    (hashes : SameHashes pool after) : Indexed after := by
  refine ⟨?_, ?_, ?_⟩
  · rw [hashes.cache, hashes.blockHash]
    exact indexed.holds_iff
  · rw [hashes.cache]
    exact indexed.keyed
  rw [hashes.blockHash, same.numGpuBlocks, same.nullBlock]
  exact indexed.valid

theorem Indexed.valid_update (indexed : Indexed pool) {hash : Option (BlockHashWithGroupId H)}
    (valid : ∀ key, hash = some key -> block < pool.numGpuBlocks /\ block ≠ pool.nullBlock) :
    ∀ other key, update pool.blockHash block hash other = some key ->
      other < pool.numGpuBlocks /\ other ≠ pool.nullBlock :=
  (forall_update_iff pool.blockHash (fun other hash => ∀ key, hash = some key ->
    other < pool.numGpuBlocks /\ other ≠ pool.nullBlock)).mpr
      ⟨valid, fun other _ => indexed.valid other⟩

theorem indexed_of_empty (cache : pool.cachedBlockHashToBlock = empty)
    (hashes : ∀ block, pool.blockHash block = none) : Indexed pool := by
  refine ⟨fun key block => ?_, fun key blocks stored => ?_, fun block key isHash => ?_⟩
  · rw [cache, hashes]
    simp [Holds, empty]
  · simp [cache, empty] at stored
  · simp [hashes] at isHash

end

theorem maybeEvict_spec (indexed : Indexed pool) :
    SamePool pool (pool.maybeEvictCachedBlock block) /\ Indexed (pool.maybeEvictCachedBlock block) /\
      (pool.maybeEvictCachedBlock block).blockHash = update pool.blockHash block none /\
      (pool.maybeEvictCachedBlock block).freeBlockQueue = pool.freeBlockQueue /\
      (pool.maybeEvictCachedBlock block).refCnt = pool.refCnt := by
  cases hash : pool.blockHash block with
  | none =>
    have result : pool.maybeEvictCachedBlock block = pool := by
      simp only [maybeEvictCachedBlock, hash]
    rw [result]
    refine ⟨SamePool.refl pool, indexed, ?_, rfl, rfl⟩
    rw [<- hash, update_eq_self]
  | some key =>
    have held := (indexed.holds_iff key block).mpr hash
    rcases Option.isSome_iff_exists.mp (pop_isSome held) with ⟨popped, isPopped⟩
    have split : pool.cachedBlockHashToBlock.pop key block =
        (some popped, (pool.cachedBlockHashToBlock.pop key block).2) := Prod.ext isPopped rfl
    have result : pool.maybeEvictCachedBlock block =
        { pool with cachedBlockHashToBlock :=
            (pool.cachedBlockHashToBlock.pop key block).2 }.setHash block none := by
      simp only [maybeEvictCachedBlock, hash]
      rw [split]
    rw [result]
    refine ⟨⟨rfl, rfl, rfl, rfl⟩, ⟨?_, pop_keyed indexed.keyed,
      indexed.valid_update (fun _ isHash => nomatch isHash)⟩, rfl, rfl, rfl⟩
    · intro other otherBlock
      change Holds (pool.cachedBlockHashToBlock.pop key block).2 other otherBlock <->
        update pool.blockHash block none otherBlock = some other
      rw [pop_holds, indexed.holds_iff]
      by_cases here : otherBlock = block
      · subst here
        rw [update_self, hash]
        simp [eq_comm]
      rw [update_of_ne here]
      simp [here]

/-- The hashes after some blocks were given out again. -/
structure Forgets (pool after : BlockPool H) (blocks : List BlockId) : Prop where
  kept : ∀ block, block ∉ blocks -> after.blockHash block = pool.blockHash block
  gone : pool.enableCaching = true -> ∀ block ∈ blocks, after.blockHash block = none

section

omit [DecidableEq H]

theorem Forgets.of_same {middle : BlockPool H} (forgets : Forgets middle after blocks)
    (same : SamePool pool middle) (hashes : SameHashes pool middle) : Forgets pool after blocks :=
  ⟨fun block absent => (forgets.kept block absent).trans (congrFun hashes.blockHash block),
    fun caching => forgets.gone (same.enableCaching.trans caching)⟩

variable (forgets : Forgets pool after blocks) (caching : pool.enableCaching = true)
include forgets caching

theorem Forgets.hash (isHash : after.blockHash block = some key) :
    block ∉ blocks /\ pool.blockHash block = some key := by
  by_cases isTaken : block ∈ blocks
  · rw [forgets.gone caching block isTaken] at isHash
    cases isHash
  · exact ⟨isTaken, (forgets.kept block isTaken) ▸ isHash⟩

theorem Forgets.unhashed (isNone : pool.blockHash block = none) : after.blockHash block = none := by
  by_cases isTaken : block ∈ blocks
  · exact forgets.gone caching block isTaken
  · exact (forgets.kept block isTaken).trans isNone

end

theorem claimLoop_spec (indexed : Indexed pool) (nodup : blocks.Nodup)
    (unheld : ∀ block ∈ blocks, pool.refCnt block = 0) :
    ∃ after, claimLoop blocks pool = .ok after /\ SamePool pool after /\
      Indexed after /\ Forgets pool after blocks /\
      after.freeBlockQueue = pool.freeBlockQueue /\
      ∀ block, after.refCnt block = pool.refCnt block + blocks.count block := by
  induction blocks generalizing pool with
  | nil =>
    exact ⟨pool, rfl, SamePool.refl pool, indexed, ⟨fun _ _ => rfl, by simp⟩, rfl, by simp⟩
  | cons block rest ih =>
    have parts := nodup_cons.mp nodup
    rcases (show ∃ middle : BlockPool H,
        (if pool.enableCaching then pool.maybeEvictCachedBlock block else pool) = middle /\
          SamePool pool middle /\ Indexed middle /\
          middle.freeBlockQueue = pool.freeBlockQueue /\ middle.refCnt = pool.refCnt /\
          middle.blockHash = (if pool.enableCaching then
            update pool.blockHash block none else pool.blockHash) by
      cases caching : pool.enableCaching with
      | false => exact ⟨pool, rfl, SamePool.refl pool, indexed, rfl, rfl, rfl⟩
      | true =>
        rcases maybeEvict_spec indexed with ⟨same, isIndexed, hashes, queue, refCnt⟩
        exact ⟨_, rfl, same, isIndexed, queue, refCnt, hashes⟩) with
      ⟨middle, isMiddle, same, isIndexed, queue, refCnt, hashes⟩
    have free : ¬ middle.refCnt block ≠ 0 := by
      rw [refCnt, not_not]
      exact unheld block mem_cons_self
    have claimed : Indexed (middle.setRefCnt block (middle.refCnt block + 1)) :=
      isIndexed.of_same ⟨rfl, rfl, rfl, rfl⟩ ⟨rfl, rfl⟩
    rcases ih claimed parts.2 (by
      intro other later
      have different : other ≠ block := fun here => parts.1 (here ▸ later)
      rw [setRefCnt_refCnt, update_of_ne different, refCnt]
      exact unheld other (mem_cons_of_mem _ later)) with
      ⟨after, loop, sameAfter, indexedAfter, forgets, queueAfter, refCntAfter⟩
    refine ⟨after, ?_, ⟨sameAfter.1.trans same.1, sameAfter.2.trans same.2,
      sameAfter.3.trans same.3, sameAfter.4.trans same.4⟩, indexedAfter, ⟨?_, ?_⟩,
      queueAfter.trans queue, ?_⟩
    · rw [claimLoop]
      simp only [isMiddle, if_neg free]
      exact loop
    · intro other absent
      rw [mem_cons, not_or] at absent
      rw [forgets.kept other absent.2]
      change middle.blockHash other = pool.blockHash other
      rw [hashes]
      split
      · rw [update_of_ne absent.1]
      · rfl
    · intro caching other member
      by_cases later : other ∈ rest
      · exact forgets.gone (same.4.trans caching) other later
      have here : other = block := (mem_cons.mp member).resolve_right later
      rw [forgets.kept other later]
      change middle.blockHash other = none
      rw [hashes, if_pos caching, here, update_self]
    · intro other
      rw [refCntAfter, refCnt_succ, refCnt, count_cons_add block rest]
      omega

theorem getNewBlocks_spec (owned : Owned pool held free) (indexed : Indexed pool) {numBlocks : Nat}
    (enough : numBlocks <= free.length) :
    ∃ after, pool.getNewBlocks numBlocks = .ok (free.take numBlocks, after) /\
      SamePool pool after /\ Indexed after /\ Forgets pool after (free.take numBlocks) /\
      Owned after (fun block => held block + (free.take numBlocks).count block)
        (free.drop numBlocks) := by
  have length : (free.take numBlocks).length = numBlocks := length_take_of_le enough
  have whole : free.take numBlocks ++ free.drop numBlocks = free := take_append_drop _ _
  have nodup : (free.take numBlocks).Nodup := owned.represents.nodup.sublist (take_sublist _ _)
  have represents := owned.represents
  rw [<- whole] at represents
  rcases FreeKVCacheBlockQueue.popleftN_represents represents with ⟨queue, popped, represented⟩
  rw [length] at popped
  have unheld : ∀ block ∈ free.take numBlocks,
      { pool with freeBlockQueue := queue }.refCnt block = 0 := by
    intro block member
    have facts := (owned.free_iff block).mp (mem_of_mem_take member)
    have count := owned.refCnt block facts.2.1
    change pool.refCnt block = 0
    omega
  have indexedQueue : Indexed { pool with freeBlockQueue := queue } :=
    indexed.of_same ⟨rfl, rfl, rfl, rfl⟩ ⟨rfl, rfl⟩
  rcases claimLoop_spec indexedQueue nodup unheld with
    ⟨after, claimed, same, indexedAfter, forgets, queueAfter, refCnt⟩
  have notFewer : ¬ pool.getNumFreeBlocks < (numBlocks : Int) := by
    rw [owned.numFree]
    omega
  refine ⟨after, ?_, ⟨same.1, same.2, same.3, same.4⟩, indexedAfter, ⟨forgets.1, forgets.2⟩, ?_⟩
  · rw [getNewBlocks, if_neg notFewer, popped]
    simp only [claimed]
  have rest : free.filter (fun block => block ∉ free.take numBlocks) = free.drop numBlocks := by
    have allNodup := owned.represents.nodup
    rw [<- whole, nodup_append] at allNodup
    have late : ∀ block ∈ free.drop numBlocks, decide (block ∉ free.take numBlocks) = true :=
      fun block later => decide_eq_true (fun early => allNodup.2.2 block early block later rfl)
    calc
      _ = (free.take numBlocks ++ free.drop numBlocks).filter
          (fun block => block ∉ free.take numBlocks) := by rw [whole]
      _ = free.drop numBlocks := by
        rw [filter_append, filter_eq_nil_iff.mpr (by simp),
          filter_eq_self.mpr late, nil_append]
  rw [<- rest] at represented ⊢
  exact owned.retain ⟨same.1, same.2, same.3, same.4⟩ (fun block taken => Or.inr
    ((owned.free_iff block).mp (mem_of_mem_take taken)).1) (queueAfter ▸ represented) refCnt

/-- The pool only gives out as many blocks as are free. -/
theorem getNewBlocks_enough (owned : Owned pool held free) {numBlocks : Nat}
    {result : List BlockId × BlockPool H} (taken : pool.getNewBlocks numBlocks = .ok result) :
    numBlocks <= free.length := by
  rw [getNewBlocks, owned.numFree] at taken
  by_contra more
  rw [if_pos (by omega)] at taken
  cases taken

/-- What caching the blocks of a group changes: blocks without a hash get one
that carries the group id. -/
structure Caches (pool after : BlockPool H) (groupId : Nat) (blocks : List BlockId) : Prop where
  same : SamePool pool after
  indexed : Indexed after
  queue : after.freeBlockQueue = pool.freeBlockQueue
  refCnt : after.refCnt = pool.refCnt
  hashes : ∀ block, after.blockHash block = pool.blockHash block \/
    block ∈ blocks /\ block ≠ pool.nullBlock /\ pool.blockHash block = none /\
      ∃ hash, after.blockHash block = some ⟨hash, groupId⟩
  hashed : ∀ block ∈ blocks, block ≠ pool.nullBlock -> (after.blockHash block).isSome

theorem Indexed.enter (indexed : Indexed pool) (key : BlockHashWithGroupId H)
    (unhashed : pool.blockHash block = none) (valid : block < pool.numGpuBlocks)
    (notNull : block ≠ pool.nullBlock) :
    Indexed { pool.setHash block (some key) with
      cachedBlockHashToBlock := pool.cachedBlockHashToBlock.insert key block } := by
  refine ⟨?_, insert_keyed indexed.keyed,
    indexed.valid_update (fun _ _ => ⟨valid, notNull⟩)⟩
  intro other otherBlock
  change Holds (pool.cachedBlockHashToBlock.insert key block) other otherBlock <->
    update pool.blockHash block (some key) otherBlock = some other
  rw [insert_holds, indexed.holds_iff]
  by_cases here : otherBlock = block
  · subst here
    rw [update_self, unhashed]
    simp [eq_comm]
  rw [update_of_ne here]
  simp [here]

variable {groupId blockSize index : Nat} {blockHashes : List H}

theorem cacheLoop_caches (indexed : Indexed pool)
    (valid : ∀ block ∈ blocks, block ≠ pool.nullBlock -> block < pool.numGpuBlocks)
    (cached : cacheLoop groupId blockSize blockHashes index blocks pool = .ok after) :
    Caches pool after groupId blocks := by
  induction blocks generalizing index pool with
  | nil =>
    cases cached
    exact ⟨SamePool.refl after, indexed, rfl, rfl, fun _ => Or.inl rfl, by simp⟩
  | cons block rest ih =>
    rw [cacheLoop] at cached
    split at cached
    case isTrue isNull =>
      have later := ih indexed (fun other member => valid other (mem_cons_of_mem _ member)) cached
      refine ⟨later.same, later.indexed, later.queue, later.refCnt, ?_, ?_⟩
      · intro other
        rcases later.hashes other with kept | ⟨member, facts⟩
        · exact Or.inl kept
        · exact Or.inr ⟨mem_cons_of_mem _ member, facts⟩
      intro other member notNull
      rcases mem_cons.mp member with here | member
      · exact absurd (here.trans isNull) notNull
      · exact later.hashed other member notNull
    case isFalse notNull =>
      cases unhashed : pool.blockHash block with
      | some key => simp [unhashed] at cached
      | none =>
        cases isHash : blockHashAt pool.hashBlockSize blockSize blockHashes index with
        | none => simp [unhashed, isHash] at cached
        | some hash =>
          simp only [unhashed, isHash] at cached
          have entered := indexed.enter ⟨hash, groupId⟩ unhashed
            (valid block mem_cons_self notNull) notNull
          have later := ih entered (fun other member =>
            valid other (mem_cons_of_mem _ member)) cached
          refine ⟨⟨later.same.1, later.same.2, later.same.3, later.same.4⟩, later.indexed,
            later.queue, later.refCnt, ?_, ?_⟩
          · intro other
            rcases later.hashes other with kept | ⟨member, otherNotNull, none_before, some_after⟩
            · rw [kept]
              change update pool.blockHash block _ other = _ \/ _ /\ _ /\ _ /\
                ∃ value, update pool.blockHash block _ other = _
              rw [update_apply]
              by_cases here : other = block
              · rw [if_pos here, here]
                exact Or.inr ⟨mem_cons_self, notNull, unhashed, hash, rfl⟩
              rw [if_neg here]
              exact Or.inl rfl
            change update pool.blockHash block _ other = none at none_before
            rw [update_apply] at none_before
            split at none_before
            · cases none_before
            · exact Or.inr ⟨mem_cons_of_mem _ member, otherNotNull, none_before, some_after⟩
          intro other member otherNotNull
          by_cases isLater : other ∈ rest
          · exact later.hashed other isLater otherNotNull
          have here : other = block := (mem_cons.mp member).resolve_right isLater
          rcases later.hashes other with kept | ⟨inRest, -⟩
          · rw [kept]
            change (update pool.blockHash block _ other).isSome
            rw [here, update_self]
            rfl
          · exact absurd inRest isLater

/-- Caching succeeds when the blocks have no hash yet and the request has one for
each of them. -/
theorem cacheLoop_succeeds (nodup : (blocks.filter (fun block => block ≠ pool.nullBlock)).Nodup)
    (unhashed : ∀ block ∈ blocks, block ≠ pool.nullBlock -> pool.blockHash block = none)
    (covered : ∀ j, j < blocks.length ->
      (blockHashAt pool.hashBlockSize blockSize blockHashes (index + j)).isSome) :
    ∃ after, cacheLoop groupId blockSize blockHashes index blocks pool = .ok after := by
  induction blocks generalizing index pool with
  | nil => exact ⟨pool, rfl⟩
  | cons block rest ih =>
    have later (j : Nat) (inside : j < rest.length) : (blockHashAt pool.hashBlockSize
        blockSize blockHashes (index + 1 + j)).isSome := by
      rw [show index + 1 + j = index + (j + 1) by omega]
      exact covered (j + 1) (by simpa using inside)
    rw [cacheLoop]
    by_cases isNull : block = pool.nullBlock
    · rw [if_pos isNull]
      apply ih
      · rwa [filter_cons_of_neg (by simpa using isNull)] at nodup
      · intro other member
        exact unhashed other (mem_cons_of_mem _ member)
      · exact later
    rw [if_neg isNull, unhashed block mem_cons_self isNull]
    rcases Option.isSome_iff_exists.mp (covered 0 (by simp)) with ⟨_, isHash⟩
    rw [Nat.add_zero] at isHash
    simp only [isHash]
    rw [filter_cons_of_pos (by simpa using isNull), nodup_cons] at nodup
    apply ih
    · exact nodup.2
    · intro other member otherNotNull
      change update pool.blockHash block _ other = none
      have different : other ≠ block := by
        rintro rfl
        exact nodup.1 (by simpa using And.intro member isNull)
      rw [update_of_ne different]
      exact unhashed other (mem_cons_of_mem _ member) otherNotNull
    · exact later

theorem evictBlocks_spec (indexed : Indexed pool) (evicted : evictBlocks blocks pool = .ok after) :
    SamePool pool after /\ Indexed after /\ after.freeBlockQueue = pool.freeBlockQueue /\
      after.refCnt = pool.refCnt /\
      ∀ block, after.blockHash block = pool.blockHash block \/ after.blockHash block = none := by
  induction blocks generalizing pool with
  | nil =>
    cases evicted
    exact ⟨SamePool.refl after, indexed, rfl, rfl, fun _ => Or.inl rfl⟩
  | cons block rest ih =>
    rw [evictBlocks] at evicted
    split at evicted
    · cases evicted
    rcases maybeEvict_spec indexed with ⟨same, isIndexed, hashes, queue, refCnt⟩
    rcases ih isIndexed evicted with ⟨sameAfter, indexedAfter, queueAfter, refCntAfter, kept⟩
    refine ⟨same.trans sameAfter, indexedAfter, queueAfter.trans queue,
      refCntAfter.trans refCnt, fun other => ?_⟩
    rcases kept other with keptHere | gone
    · rw [keptHere, hashes]
      by_cases here : other = block
      · rw [here, update_self]
        exact Or.inr rfl
      rw [update_of_ne here]
      exact Or.inl rfl
    · exact Or.inr gone

omit [DecidableEq H] in
theorem resetPrefixCache_spec (indexed : Indexed pool) :
    SamePool pool pool.resetPrefixCache.2 /\ Indexed pool.resetPrefixCache.2 /\
      pool.resetPrefixCache.2.freeBlockQueue = pool.freeBlockQueue /\
      pool.resetPrefixCache.2.refCnt = pool.refCnt /\
      ∀ block, pool.resetPrefixCache.2.blockHash block = pool.blockHash block \/
        pool.resetPrefixCache.2.blockHash block = none := by
  unfold resetPrefixCache
  split
  · exact ⟨SamePool.refl pool, indexed, rfl, rfl, fun _ => Or.inl rfl⟩
  · exact ⟨⟨rfl, rfl, rfl, rfl⟩, indexed_of_empty rfl (fun _ => rfl), rfl, rfl, fun _ => Or.inr rfl⟩

omit [DecidableEq H] in
/-- A new pool holds no references; all blocks but the null block are free. -/
theorem init_spec {numGpuBlocks : Nat} {enableCaching : Bool} {hashBlockSize : Nat}
    (created : init numGpuBlocks enableCaching hashBlockSize = .ok pool) :
    Indexed pool /\ pool.enableCaching = enableCaching /\ pool.hashBlockSize = hashBlockSize /\
      pool.numGpuBlocks = numGpuBlocks /\ (∀ block, pool.blockHash block = none) /\
      ∃ free, Owned pool (fun _ => 0) free := by
  unfold init at created
  cases numGpuBlocks with
  | zero =>
    have none_free : (FreeKVCacheBlockQueue.init (List.range 0)).popleft =
        .error QueueError.noFreeBlocks := rfl
    rw [none_free] at created
    cases created
  | succ count =>
    have represents := FreeKVCacheBlockQueue.init_represents (nodup_range (n := count + 1))
    rw [range_succ_eq_map] at represents
    rcases FreeKVCacheBlockQueue.popleft_represents represents with ⟨_, popped, represented⟩
    rw [<- range_succ_eq_map] at popped
    simp only [popped, Except.ok.injEq] at created
    subst created
    refine ⟨indexed_of_empty rfl (fun _ => rfl), rfl, rfl, rfl, fun _ => rfl, _, represented,
      ?_, fun _ _ => rfl, ?_, Nat.succ_pos count⟩
    · intro block
      simp only [mem_map, mem_range, and_true]
      constructor
      · rintro ⟨value, small, rfl⟩
        exact ⟨Nat.succ_lt_succ small, Nat.succ_ne_zero value⟩
      rintro ⟨small, positive⟩
      cases block with
      | zero => exact absurd rfl positive
      | succ value => exact ⟨value, Nat.lt_of_succ_lt_succ small, rfl⟩
    · intro block notNull positive
      exact absurd positive (Nat.lt_irrefl 0)

end Pool

end Vllm.KVCache
