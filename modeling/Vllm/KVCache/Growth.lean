import Vllm.KVCache.Tables

namespace Vllm.KVCache

open Foundation List

/-!
# How tables grow

A new request enters its hits and takes blocks for the tokens that a connector
loads.  Any request takes blocks for the tokens of the next step.  Full blocks
are cached.  New blocks always come from the front of the free list.
-/

namespace SingleTypeKVCacheManager

variable {H : Type} {numTokens : Nat} {request : Request H}

section Effects

variable {others : BlockId -> Nat} {manager : SingleTypeKVCacheManager H} {pool : BlockPool H}
  {free : List BlockId} {requestId : RequestId}

section Hits

variable (manager : SingleTypeKVCacheManager H) (newComputedBlocks : List BlockId)
  (numLocalComputedTokens numExternalComputedTokens : Nat)

/-- The hits inside the window, which are the ones that enter the table. -/
def keptHits : List BlockId :=
  newComputedBlocks.drop
    (manager.numSkippedBlocks (numLocalComputedTokens + numExternalComputedTokens))

/-- The tokens of a connector that need blocks.  Those that are skipped need none.
-/
def numExternalTokens : Nat :=
  let numTotalComputedTokens := numLocalComputedTokens + numExternalComputedTokens
  if 0 < manager.numSkippedBlocks numTotalComputedTokens then
    min (numTotalComputedTokens - manager.getNumSkippedTokens numTotalComputedTokens)
      numExternalComputedTokens
  else
    numExternalComputedTokens

/-- The blocks for them, behind the skipped ones and the hits. -/
def numExternalBlocks : Nat :=
  let numTotalComputedTokens := numLocalComputedTokens + numExternalComputedTokens
  if 0 < manager.numExternalTokens numLocalComputedTokens numExternalComputedTokens then
    cdiv numTotalComputedTokens manager.blockSize -
      max (manager.numSkippedBlocks numTotalComputedTokens) newComputedBlocks.length
  else
    0

/-- The hits do not reach beyond the external tokens, if there are any. -/
def HitsFit : Prop :=
  numExternalComputedTokens = 0 \/ newComputedBlocks.length <=
    cdiv (numLocalComputedTokens + numExternalComputedTokens) manager.blockSize

end Hits

variable {hits : List BlockId} {numLocal numExternal : Nat}
  {poolAfter : BlockPool H} {after : SingleTypeKVCacheManager H}
  {numMain numSpeculative : Nat}

/-- The hits never leave fewer than zero blocks to take for external tokens. -/
theorem HitsFit.le (fit : manager.HitsFit hits numLocal numExternal)
    (external : 0 < manager.numExternalTokens numLocal numExternal) :
    max (manager.numSkippedBlocks (numLocal + numExternal)) hits.length <=
      cdiv (numLocal + numExternal) manager.blockSize := by
  unfold numExternalTokens at external
  apply Nat.max_le.mpr
  refine ⟨?_, ?_⟩
  · by_cases skips : 0 <
        manager.numSkippedBlocks (numLocal + numExternal)
    · rw [if_pos skips] at external
      unfold numSkippedBlocks cdiv
      apply Nat.div_le_div_right
      have positive := manager.blockSize_pos
      omega
    · omega
  rcases fit with none_external | fits
  · rw [none_external] at external
    simp at external
  · exact fits

theorem touchComputed_spec (tables : Tables others manager pool free) {computed : List BlockId}
    (valid : ∀ block ∈ computed, block = pool.nullBlock \/ block < pool.numGpuBlocks)
    (allowed : manager.enableCaching = true \/ computed = []) :
    ∃ after, manager.touchComputed pool computed = .ok after /\ SamePool pool after /\
      SameHashes pool after /\
      Owned after (fun block => others block + manager.tableCount block + computed.count block)
        (free.filter (fun block => block ∉ computed)) := by
  unfold touchComputed
  split
  case isTrue =>
    rcases touch_spec tables.owned valid with ⟨after, touched, same, hashes, owned⟩
    exact ⟨after, by rw [touched]; rfl, same, hashes, owned⟩
  case isFalse disabled =>
    have empty := allowed.resolve_left disabled
    subst empty
    refine ⟨pool, rfl, SamePool.refl pool, SameHashes.refl pool, ?_⟩
    simpa using tables.owned

/-- What entering the hits of a new request does.  The blocks for external
tokens come from the front of the free list, without the hits of this group. -/
structure EntersHits (others : BlockId -> Nat) (requestId : RequestId)
    (newComputedBlocks : List BlockId) (numLocalComputedTokens numExternalComputedTokens : Nat)
    (manager after : SingleTypeKVCacheManager H) (pool poolAfter : BlockPool H)
    (free taken freeAfter : List BlockId) : Prop where
  split : free.filter (fun block => block ∉ manager.keptHits newComputedBlocks
    numLocalComputedTokens numExternalComputedTokens) = taken ++ freeAfter
  length : taken.length = manager.numExternalBlocks newComputedBlocks numLocalComputedTokens
    numExternalComputedTokens
  tables : Tables others after poolAfter freeAfter
  same : SamePool pool poolAfter
  forgets : Forgets pool poolAfter taken
  frame : Frame requestId manager after
  blocks : after.blocks requestId =
    List.replicate (manager.numSkippedBlocks (numLocalComputedTokens + numExternalComputedTokens))
        pool.nullBlock ++
      manager.keptHits newComputedBlocks numLocalComputedTokens numExternalComputedTokens ++ taken
  numCached : after.numCachedBlock requestId = some
    (max (manager.numSkippedBlocks (numLocalComputedTokens + numExternalComputedTokens))
      newComputedBlocks.length)
  allocated : after.allocatedBlockReqs = manager.allocatedBlockReqs
  lastState : after.lastStateBlockIdx = manager.lastStateBlockIdx

/-- The table of a new request: dummies, distinct hits, and fresh blocks. -/
theorem distinct_enter {nullBlock : BlockId} {kept taken rest : List BlockId} (count : Nat)
    (distinct : Distinct nullBlock kept) (nodup : free.Nodup)
    (split : free.filter (fun block => block ∉ kept) = taken ++ rest) :
    Distinct nullBlock (List.replicate count nullBlock ++ kept ++ taken) := by
  intro block notNull
  rw [count_append, count_append, count_replicate,
    if_neg (by simpa using Ne.symm notNull), Nat.zero_add]
  have takenNodup : taken.Nodup := by
    have filtered := nodup.filter (fun block => block ∉ kept)
    rw [split] at filtered
    exact (nodup_append.mp filtered).1
  by_cases isTaken : block ∈ taken
  · have fresh : block ∉ kept := by
      have member : block ∈ free.filter (fun block => block ∉ kept) := by
        rw [split]
        exact mem_append_left rest isTaken
      simpa using (mem_filter.mp member).2
    rw [count_eq_zero_of_not_mem fresh, Nat.zero_add]
    exact nodup_iff_count_le_one.mp takenNodup block
  · rw [count_eq_zero_of_not_mem isTaken, Nat.add_zero]
    exact distinct block notNull

/-- The tables after hits were touched and fresh blocks taken. -/
theorem Tables.enter (tables : Tables others manager pool free)
    (empty : manager.blocks requestId = []) {kept taken rest : List BlockId} (count : Nat)
    (same : SamePool pool poolAfter) (indexed : Indexed poolAfter)
    (distinct : Distinct pool.nullBlock kept)
    (split : free.filter (fun block => block ∉ kept) = taken ++ rest)
    (owned : Owned poolAfter (fun block => others block + manager.tableCount block +
      kept.count block + taken.count block) rest) :
    Tables others (manager.setBlocks requestId
      (List.replicate count pool.nullBlock ++ kept ++ taken)) poolAfter rest := by
  apply tables.setBlocks same indexed owned
  · exact distinct_enter count distinct tables.owned.represents.nodup split
  intro block notNull
  rw [empty, count_nil, count_append, count_append, count_replicate,
    if_neg (by simpa using Ne.symm notNull)]
  omega

variable [DecidableEq H]

/-- What remains of entering hits once they were touched. -/
theorem baseAllocateNewComputedBlocks_eq {touchedPool : BlockPool H}
    (fresh : manager.numCachedBlock requestId = none) (empty : manager.blocks requestId = [])
    (touched : manager.touchComputed pool (manager.keptHits hits
      numLocal numExternal) = .ok touchedPool) :
    manager.baseAllocateNewComputedBlocks pool requestId hits numLocal numExternal =
    let reqBlocks := List.replicate (manager.numSkippedBlocks
        (numLocal + numExternal)) touchedPool.nullBlock ++
      manager.keptHits hits numLocal numExternal
    let entered := (manager.setBlocks requestId reqBlocks).setNumCached requestId
      (some reqBlocks.length)
    if 0 < manager.numExternalTokens numLocal numExternal then
      match fromPool (touchedPool.getNewBlocks
          ((cdiv (numLocal + numExternal) manager.blockSize : Int) - reqBlocks.length)) with
      | .error error => .error error
      | .ok (allocated, pool) => .ok (entered.setBlocks requestId (reqBlocks ++ allocated), pool)
    else
      .ok (entered, touchedPool) := by
  have notCached : ¬ (manager.numCachedBlock requestId).isSome := by simp [fresh]
  unfold baseAllocateNewComputedBlocks
  rw [if_neg notCached, if_neg (not_not.mpr empty)]
  have touchedKept : manager.touchComputed pool (hits.drop (manager.getNumSkippedTokens
      (numLocal + numExternal) / manager.blockSize)) = .ok touchedPool := touched
  dsimp only
  rw [touchedKept]
  rfl

/-- Entering the hits of a new request succeeds if there are enough free blocks
for the external tokens, and only then. -/
theorem baseAllocateNewComputedBlocks_spec (tables : Tables others manager pool free)
    (fresh : manager.numCachedBlock requestId = none) (empty : manager.blocks requestId = [])
    (valid : ∀ block ∈ hits, block = pool.nullBlock \/ block < pool.numGpuBlocks)
    (distinct : Distinct pool.nullBlock hits)
    (allowed : manager.enableCaching = true \/ manager.keptHits hits numLocal numExternal = [])
    (fit : manager.HitsFit hits numLocal numExternal)
    (possible : (manager.numExternalBlocks hits numLocal numExternal <= (free.filter (fun block =>
        block ∉ manager.keptHits hits numLocal numExternal)).length) \/
      ∃ result, manager.baseAllocateNewComputedBlocks pool requestId hits numLocal
        numExternal = .ok result) :
    ∃ after poolAfter taken freeAfter,
      manager.baseAllocateNewComputedBlocks pool requestId hits numLocal numExternal =
        .ok (after, poolAfter) /\
      EntersHits others requestId hits numLocal numExternal manager after pool poolAfter free taken
        freeAfter := by
  let kept := manager.keptHits hits numLocal numExternal
  let needed := manager.numExternalBlocks hits numLocal numExternal
  let skipped := manager.numSkippedBlocks (numLocal + numExternal)
  let unused := free.filter (fun block => block ∉ kept)
  have keptValid : ∀ block ∈ kept, block = pool.nullBlock \/ block < pool.numGpuBlocks :=
    fun block member => valid block (mem_of_mem_drop member)
  have keptDistinct : Distinct pool.nullBlock kept := fun block notNull =>
    ((drop_sublist _ _).count_le block).trans (distinct block notNull)
  rcases touchComputed_spec tables keptValid allowed with
    ⟨touchedPool, touched, same, hashes, owned⟩
  have reduced := baseAllocateNewComputedBlocks_eq fresh empty touched
  have length : (List.replicate skipped touchedPool.nullBlock ++ kept).length =
      max skipped hits.length := by
    rw [length_append, length_replicate]
    simp only [kept, keptHits, length_drop]
    omega
  have indexed := tables.indexed.of_same same hashes
  dsimp only at reduced
  rw [length] at reduced
  by_cases external : 0 < manager.numExternalTokens numLocal numExternal
  · have numBlocks : needed =
        cdiv (numLocal + numExternal) manager.blockSize - max skipped hits.length := by
      simp only [needed, numExternalBlocks, if_pos external, skipped]
    have asked : (cdiv (numLocal + numExternal) manager.blockSize : Int) -
        (max skipped hits.length : Nat) = (needed : Nat) := by
      have below := fit.le external
      omega
    rw [if_pos external, asked] at reduced
    have enough : needed <= unused.length := by
      rcases possible with enough | ⟨_, done⟩
      · exact enough
      rw [reduced] at done
      cases got : touchedPool.getNewBlocks (needed : Nat) with
      | error error => simp [got, fromPool] at done
      | ok taken => exact getNewBlocks_enough owned got
    rcases getNewBlocks_spec owned indexed enough with
      ⟨poolAfter, got, sameAfter, indexedAfter, forgets, ownedAfter⟩
    simp only [got, fromPool] at reduced
    have split := (take_append_drop needed unused).symm
    refine ⟨_, poolAfter, _, _, reduced, split, length_take_of_le enough, ?_,
      same.trans sameAfter, forgets.of_same same hashes, ?_, ?_, ?_, rfl, rfl⟩
    · apply (tables.enter empty _ (same.trans sameAfter) indexedAfter keptDistinct split
        ownedAfter).of_reqToBlocks
      rw [same.nullBlock]
      exact Dict.set_set _ _
    · exact ((frame_setBlocks manager requestId _).trans (frame_setNumCached _ requestId _)).trans
        (frame_setBlocks _ requestId _)
    · rw [blocks_setBlocks, same.nullBlock]
    · exact Function.update_self requestId _ manager.numCachedBlock
  have numBlocks : needed = 0 := by
    simp only [needed, numExternalBlocks, if_neg external]
  rw [if_neg external] at reduced
  have split := (nil_append unused).symm
  refine ⟨_, touchedPool, [], _, reduced, split, numBlocks.symm, ?_, same,
    ⟨fun block _ => congrFun hashes.blockHash block, by simp⟩, ?_, ?_, ?_, rfl, rfl⟩
  · apply (tables.enter empty _ same indexed keptDistinct split
      (by simpa [unused] using owned)).of_reqToBlocks
    rw [same.nullBlock, append_nil]
    rfl
  · exact (frame_setBlocks manager requestId _).trans (frame_setNumCached _ requestId _)
  · rw [append_nil, <- same.nullBlock]
    exact manager.blocks_setBlocks requestId _
  · exact Function.update_self requestId _ manager.numCachedBlock

/-- A successful call either finds a request that has entered its hits before,
or enters them. -/
theorem allocateNewComputedBlocks_cases (tables : Tables others manager pool free)
    (valid : ∀ block ∈ hits, block = pool.nullBlock \/ block < pool.numGpuBlocks)
    (distinct : Distinct pool.nullBlock hits) (fit : manager.HitsFit hits numLocal numExternal)
    (done : manager.allocateNewComputedBlocks pool requestId hits
      numLocal numExternal = .ok (after, poolAfter)) :
    (hits = [] /\ after = manager /\ poolAfter = pool /\ (manager.kvCacheSpec.kind = .crossAttention \/
          (manager.numCachedBlock requestId).isSome)) \/
      (manager.kvCacheSpec.kind ≠ .crossAttention /\ manager.numCachedBlock requestId = none /\
        manager.blocks requestId = [] /\
        ∃ taken freeAfter, EntersHits others requestId hits
          numLocal numExternal manager after pool poolAfter free taken
          freeAfter) := by
  have plain (result : manager.baseAllocateNewComputedBlocks pool requestId hits
      numLocal numExternal = .ok (after, poolAfter)) :
      (hits = [] /\ after = manager /\ poolAfter = pool /\ (manager.numCachedBlock requestId).isSome) \/
        (manager.numCachedBlock requestId = none /\ manager.blocks requestId = [] /\
          ∃ taken freeAfter, EntersHits others requestId hits
            numLocal numExternal manager after pool poolAfter free
            taken freeAfter) := by
    cases cached : manager.numCachedBlock requestId with
    | some count =>
      left
      by_cases none_new : hits = []
      · simp only [baseAllocateNewComputedBlocks, cached, none_new, Option.isSome_some, if_true,
          Except.ok.injEq, Prod.mk.injEq] at result
        exact ⟨none_new, result.1.symm, result.2.symm, rfl⟩
      · simp [baseAllocateNewComputedBlocks, cached, none_new] at result
    | none =>
      right
      have empty : manager.blocks requestId = [] := by
        by_contra nonempty
        simp [baseAllocateNewComputedBlocks, cached, nonempty] at result
      have allowed : manager.enableCaching = true \/ manager.keptHits hits
          numLocal numExternal = [] := by
        by_contra neither
        rw [not_or] at neither
        have failed : manager.touchComputed pool (manager.keptHits hits numLocal numExternal) =
              .error .computedWithoutCaching := by
          unfold touchComputed
          rw [if_neg neither.1, if_neg neither.2]
        unfold keptHits numSkippedBlocks at failed
        simp [baseAllocateNewComputedBlocks, cached, empty, failed] at result
      rcases baseAllocateNewComputedBlocks_spec tables cached empty valid distinct allowed fit
        (Or.inr ⟨_, result⟩) with ⟨_, _, taken, freeAfter, same, enters⟩
      rw [result] at same
      cases same
      exact ⟨rfl, empty, taken, freeAfter, enters⟩
  unfold allocateNewComputedBlocks at done
  split at done
  case h_1 kind =>
    split at done
    case isTrue none_new =>
      cases done
      exact Or.inl ⟨none_new, rfl, rfl, Or.inl kind⟩
    · cases done
  case h_2 notCross =>
    rcases plain done with ⟨none_new, same, samePool, cached⟩ | enters
    · exact Or.inl ⟨none_new, same, samePool, Or.inr cached⟩
    · exact Or.inr ⟨notCross, enters⟩

/-- What taking new blocks does.  The table is first rearranged to `base`. -/
structure TakesBlocks (others : BlockId -> Nat) (requestId : RequestId)
    (manager after : SingleTypeKVCacheManager H) (pool poolAfter : BlockPool H)
    (free base taken freeAfter : List BlockId) : Prop where
  split : free = taken ++ freeAfter
  counts : ∀ block, block ≠ pool.nullBlock ->
    base.count block = (manager.blocks requestId).count block
  tables : Tables others after poolAfter freeAfter
  same : SamePool pool poolAfter
  forgets : Forgets pool poolAfter taken
  frame : Frame requestId manager after
  blocks : after.blocks requestId = base ++ taken
  numCached : after.numCachedBlock = manager.numCachedBlock

omit [DecidableEq H] in
theorem TakesBlocks.taken_free {base taken freeAfter : List BlockId}
    (takes : TakesBlocks others requestId manager after pool poolAfter free base taken freeAfter)
    {block : BlockId} (isTaken : block ∈ taken) : block ∈ free := by
  rw [takes.split]
  exact mem_append_left _ isTaken

section

variable (tables : Tables others manager pool free)
include tables

omit [DecidableEq H] in
theorem TakesBlocks.nothing (requestId : RequestId) :
    TakesBlocks others requestId manager (manager.setBlocks requestId (manager.blocks requestId))
      pool pool free (manager.blocks requestId) [] free := by
  refine ⟨rfl, fun _ _ => rfl, ?_, SamePool.refl pool, ⟨fun _ _ => rfl, by simp⟩,
    frame_setBlocks manager requestId _, ?_, rfl⟩
  · exact tables.setBlocks (SamePool.refl pool) tables.indexed tables.owned
      (tables.distinct requestId) (fun _ _ => rfl)
  · rw [blocks_setBlocks, append_nil]

theorem Tables.extend {base : List BlockId}
    (counts : ∀ block, block ≠ pool.nullBlock ->
      base.count block = (manager.blocks requestId).count block) {numBlocks : Nat}
    (enough : numBlocks <= free.length) :
    ∃ poolAfter, pool.getNewBlocks numBlocks = .ok (free.take numBlocks, poolAfter) /\
      SamePool pool poolAfter /\ Forgets pool poolAfter (free.take numBlocks) /\
      Tables others (manager.setBlocks requestId (base ++ free.take numBlocks)) poolAfter
        (free.drop numBlocks) := by
  rcases getNewBlocks_spec tables.owned tables.indexed enough with
    ⟨poolAfter, got, same, indexed, forgets, owned⟩
  refine ⟨poolAfter, got, same, forgets, tables.setBlocks same indexed owned ?_ ?_⟩
  · intro block notNull
    rw [count_append, counts block notNull]
    by_cases isTaken : block ∈ free.take numBlocks
    · have unheld := ((tables.owned.free_iff block).mp (mem_of_mem_take isTaken)).2.2
      have bound := manager.count_le_tableCount requestId block
      have once := nodup_iff_count_le_one.mp
        (tables.owned.represents.nodup.sublist (take_sublist numBlocks free)) block
      omega
    · rw [count_eq_zero_of_not_mem isTaken]
      exact tables.distinct requestId block notNull
  intro block notNull
  rw [count_append, counts block notNull]
  omega

theorem baseAllocateNewBlocks_spec
    (possible : cdiv numTokens manager.blockSize - (manager.blocks requestId).length <= free.length \/
      ∃ result, manager.baseAllocateNewBlocks pool requestId numTokens = .ok result) :
    ∃ newBlocks after poolAfter taken freeAfter,
      manager.baseAllocateNewBlocks pool requestId numTokens = .ok (newBlocks, after, poolAfter) /\
      taken.length = cdiv numTokens manager.blockSize - (manager.blocks requestId).length /\
      TakesBlocks others requestId manager after pool poolAfter free (manager.blocks requestId)
        taken freeAfter := by
  unfold baseAllocateNewBlocks at possible ⊢
  by_cases none_needed : cdiv numTokens manager.blockSize - (manager.blocks requestId).length = 0
  · rw [if_pos none_needed]
    exact ⟨_, _, pool, [], free, rfl, none_needed.symm, .nothing tables requestId⟩
  rw [if_neg none_needed] at possible ⊢
  have enough : cdiv numTokens manager.blockSize - (manager.blocks requestId).length <=
      free.length := by
    rcases possible with enough | ⟨_, done⟩
    · exact enough
    cases got : pool.getNewBlocks
        (cdiv numTokens manager.blockSize - (manager.blocks requestId).length : Nat) with
    | error error => simp [got, fromPool] at done
    | ok taken => exact getNewBlocks_enough tables.owned got
  rcases tables.extend (fun _ _ => rfl) enough with ⟨poolAfter, got, same, forgets, tablesAfter⟩
  refine ⟨_, _, poolAfter, _, _, by rw [got]; rfl, length_take_of_le enough,
    (take_append_drop _ free).symm, fun _ _ => rfl, tablesAfter, same, forgets,
    frame_setBlocks manager requestId _, manager.blocks_setBlocks requestId _, rfl⟩

end

section Align

omit [DecidableEq H]

theorem reuseSpeculativeBlocks_length (nullBlock : BlockId) (numSkippedBlocks count blockIdx : Nat)
    (reqBlocks : List BlockId) :
    (reuseSpeculativeBlocks nullBlock numSkippedBlocks count blockIdx reqBlocks).length =
      reqBlocks.length + min count (numSkippedBlocks - blockIdx) := by
  induction count generalizing blockIdx reqBlocks with
  | zero => simp [reuseSpeculativeBlocks]
  | succ count ih =>
    rw [reuseSpeculativeBlocks]
    split
    case isTrue =>
      rw [ih, length_set, length_append, length_singleton]
      omega
    case isFalse => omega

variable {nullBlock block : BlockId} {reqBlocks : List BlockId}

/-- A block that moves to the end of the table is still there once. -/
theorem count_move {blockIdx : Nat} (inside : blockIdx < reqBlocks.length)
    (notNull : block ≠ nullBlock) :
    ((reqBlocks ++ [reqBlocks.getD blockIdx nullBlock]).set blockIdx nullBlock).count block =
      reqBlocks.count block := by
  rw [set_append_left _ _ inside, count_append]
  exact count_set inside notNull

theorem reuseSpeculativeBlocks_count {numSkippedBlocks : Nat} (count blockIdx : Nat)
    (padded : numSkippedBlocks <= reqBlocks.length) (notNull : block ≠ nullBlock) :
    (reuseSpeculativeBlocks nullBlock numSkippedBlocks count blockIdx reqBlocks).count block =
      reqBlocks.count block := by
  induction count generalizing blockIdx reqBlocks with
  | zero => rfl
  | succ count ih =>
    rw [reuseSpeculativeBlocks]
    split
    case isTrue early =>
      rw [ih, count_move (early.trans_le padded) notNull]
      rw [length_set, length_append]
      exact Nat.le_add_right_of_le padded
    case isFalse => rfl

theorem alignedTable_count (blocksAllocated : Bool)
    {numRequiredBlocks : Nat} (notNull : block ≠ nullBlock) :
    (alignedTable nullBlock reqBlocks blocksAllocated numRequiredBlocks
      numSpeculative).count block = reqBlocks.count block := by
  have padding (count : Nat) :
      (reqBlocks ++ List.replicate count nullBlock).count block = reqBlocks.count block := by
    rw [count_append, count_replicate, if_neg (by simpa using Ne.symm notNull),
      Nat.add_zero]
  unfold alignedTable
  split
  · rw [reuseSpeculativeBlocks_count _ _ _ notNull, padding]
    rw [length_append, length_replicate]
    omega
  · exact padding _

/-- A request that was allocated before gets all its speculative blocks back, so
one block is missing in the end. -/
theorem alignedTable_length (nullBlock : BlockId) {blocksAllocated : Bool} {numRequiredBlocks : Nat}
    (fewer : reqBlocks.length < numRequiredBlocks)
    (speculative : blocksAllocated = true -> numSpeculative <= reqBlocks.length) :
    (alignedTable nullBlock reqBlocks blocksAllocated numRequiredBlocks numSpeculative).length =
      if blocksAllocated then numRequiredBlocks - 1
      else max reqBlocks.length (numRequiredBlocks - numSpeculative - 1) := by
  unfold alignedTable
  cases blocksAllocated with
  | true =>
    have bound := speculative rfl
    rw [if_pos rfl, if_pos rfl, reuseSpeculativeBlocks_length, length_append, length_replicate]
    omega
  | false =>
    rw [if_neg (by simp), if_neg (by simp), length_append, length_replicate]
    omega

end Align

omit [DecidableEq H] in
theorem recordLastState_spec (manager : SingleTypeKVCacheManager H)
    {prevBlockLen : Nat} :
    let after := manager.recordLastState requestId numSpeculative prevBlockLen
    after.reqToBlocks = manager.reqToBlocks /\ after.numCachedBlock = manager.numCachedBlock /\
      Frame requestId manager after := by
  unfold recordLastState
  split
  · exact ⟨rfl, rfl, frame_setLastState manager requestId _⟩
  split
  · exact ⟨rfl, rfl, frame_setLastState manager requestId _⟩
  · exact ⟨rfl, rfl, Frame.refl requestId manager⟩

/-- The number of blocks that a request holds in `align` mode. -/
def numAlignedBlocks (manager : SingleTypeKVCacheManager H)
    (numTokensMainModel numSpeculativeBlocks : Nat) : Nat :=
  cdiv numTokensMainModel manager.blockSize + numSpeculativeBlocks

/-- The table in `align` mode before new blocks are appended. -/
def alignedBase (manager : SingleTypeKVCacheManager H) (nullBlock : BlockId)
    (requestId : RequestId) (numTokensMainModel numSpeculativeBlocks : Nat) : List BlockId :=
  alignedTable nullBlock (manager.blocks requestId) (manager.allocatedBlockReqs requestId)
    (manager.numAlignedBlocks numTokensMainModel numSpeculativeBlocks) numSpeculativeBlocks

/-- The conditions of the assertions in `align` mode, with enough free blocks. -/
structure AlignPossible (manager : SingleTypeKVCacheManager H) (nullBlock : BlockId)
    (requestId : RequestId) (numTokensMainModel numSpeculativeBlocks numFree : Nat) : Prop where
  required : (manager.blocks requestId).length <
    manager.numAlignedBlocks numTokensMainModel numSpeculativeBlocks
  few : manager.numAlignedBlocks numTokensMainModel numSpeculativeBlocks -
      (manager.alignedBase nullBlock requestId numTokensMainModel numSpeculativeBlocks).length <=
    if manager.allocatedBlockReqs requestId then 1 else numSpeculativeBlocks + 1
  enough : manager.numAlignedBlocks numTokensMainModel numSpeculativeBlocks -
      (manager.alignedBase nullBlock requestId numTokensMainModel numSpeculativeBlocks).length <=
    numFree

theorem alignAllocateNewBlocks_same
    (same : manager.numAlignedBlocks numMain numSpeculative = (manager.blocks requestId).length) :
    manager.alignAllocateNewBlocks pool requestId numMain numSpeculative =
      .ok ([], manager.setBlocks requestId (manager.blocks requestId), pool) := by
  unfold alignAllocateNewBlocks
  rw [numAlignedBlocks] at same
  simp only [same, if_true]

section

variable (tables : Tables others manager pool free)
include tables

theorem alignAllocateNewBlocks_grows
    (possible : AlignPossible manager pool.nullBlock requestId numMain numSpeculative free.length) :
    ∃ newBlocks after poolAfter taken freeAfter,
      manager.alignAllocateNewBlocks pool requestId numMain numSpeculative =
        .ok (newBlocks, after, poolAfter) /\
      taken.length = manager.numAlignedBlocks numMain numSpeculative -
        (manager.alignedBase pool.nullBlock requestId numMain numSpeculative).length /\
      after.allocatedBlockReqs requestId = true /\
      TakesBlocks others requestId manager after pool poolAfter free
        (manager.alignedBase pool.nullBlock requestId numMain numSpeculative)
        taken freeAfter := by
  have counts (block : BlockId) (notNull : block ≠ pool.nullBlock) :
      (manager.alignedBase pool.nullBlock requestId numMain
        numSpeculative).count block = (manager.blocks requestId).count block :=
    alignedTable_count _ notNull
  rcases possible with ⟨more, few, enough⟩
  generalize isBase : manager.alignedBase pool.nullBlock requestId numMain
    numSpeculative = base at counts few enough ⊢
  generalize isRequired : manager.numAlignedBlocks numMain numSpeculative =
    required at more few enough ⊢
  rcases tables.extend counts enough with ⟨poolAfter, got, same, forgets, tablesAfter⟩
  rcases manager.recordLastState_spec with ⟨sameTables, sameCached, frame⟩
  generalize recorded : manager.recordLastState requestId numSpeculative
    (manager.blocks requestId).length = marked at sameTables sameCached frame
  refine ⟨(base ++ free.take (required - base.length)).drop (manager.blocks requestId).length,
    (marked.setBlocks requestId (base ++ free.take (required - base.length))).setAllocated
      requestId true, poolAfter, _, _, ?_, length_take_of_le enough,
    Function.update_self requestId _ marked.allocatedBlockReqs,
    (take_append_drop _ free).symm, counts, ?_, same, forgets, ?_, ?_, sameCached⟩
  · unfold alignedBase at isBase
    rw [isRequired] at isBase
    unfold numAlignedBlocks at isRequired
    unfold alignAllocateNewBlocks
    simp only [isRequired, isBase, recorded, if_neg more.ne',
      if_neg (Nat.not_lt.mpr more.le), if_neg (Nat.not_lt.mpr few), got, fromPool]
  · apply tablesAfter.of_reqToBlocks
    change marked.reqToBlocks.set requestId _ = manager.reqToBlocks.set requestId _
    rw [sameTables]
  · exact (frame.trans (frame_setBlocks marked requestId _)).trans
      (frame_setAllocated _ requestId true)
  · exact marked.blocks_setBlocks requestId _

theorem alignAllocateNewBlocks_cases
    {result : List BlockId × SingleTypeKVCacheManager H × BlockPool H}
    (done : manager.alignAllocateNewBlocks pool requestId numMain numSpeculative = .ok result) :
    manager.numAlignedBlocks numMain numSpeculative = (manager.blocks requestId).length \/
      AlignPossible manager pool.nullBlock requestId numMain numSpeculative
        free.length := by
  unfold alignAllocateNewBlocks at done
  dsimp only at done
  split at done
  case isTrue same => exact Or.inl same
  case isFalse different =>
    split at done
    · cases done
    case isFalse notFewer =>
      right
      by_cases few : manager.numAlignedBlocks numMain numSpeculative -
          (manager.alignedBase pool.nullBlock requestId numMain numSpeculative).length <=
          if manager.allocatedBlockReqs requestId then 1 else numSpeculative + 1
      · refine ⟨?_, few, ?_⟩
        · unfold numAlignedBlocks
          omega
        unfold alignedBase numAlignedBlocks at few ⊢
        rw [if_neg (Nat.not_lt.mpr few)] at done
        split at done
        · cases done
        case h_2 newBlocks after got =>
          cases taken : pool.getNewBlocks _ with
          | error error =>
            rw [taken] at got
            cases got
          | ok value => exact getNewBlocks_enough tables.owned taken
      · unfold alignedBase numAlignedBlocks at few
        rw [if_pos (Nat.not_le.mp few)] at done
        cases done

theorem allocateNewBlocks_takes {newBlocks : List BlockId}
    (done : manager.allocateNewBlocks pool requestId numTokens numMain =
      .ok (newBlocks, after, poolAfter)) :
    ∃ base taken freeAfter,
      TakesBlocks others requestId manager after pool poolAfter free base taken freeAfter := by
  have plain (count : Nat)
      (result : manager.baseAllocateNewBlocks pool requestId count =
        .ok (newBlocks, after, poolAfter)) : ∃ base taken freeAfter,
      TakesBlocks others requestId manager after pool poolAfter free base taken freeAfter := by
    rcases baseAllocateNewBlocks_spec tables (Or.inr ⟨_, result⟩) with
      ⟨_, _, _, taken, freeAfter, same, -, takes⟩
    rw [result] at same
    cases same
    exact ⟨_, taken, freeAfter, takes⟩
  unfold allocateNewBlocks at done
  split at done
  case h_1 mambaCacheMode numSpeculative kind =>
    split at done
    case isFalse => exact plain _ done
    case isTrue =>
      rcases alignAllocateNewBlocks_cases tables done with unchanged | possible
      · rw [alignAllocateNewBlocks_same unchanged] at done
        cases done
        exact ⟨_, [], free, .nothing tables requestId⟩
      rcases alignAllocateNewBlocks_grows tables possible with
        ⟨_, _, _, taken, freeAfter, same, -, -, takes⟩
      rw [done] at same
      cases same
      exact ⟨_, taken, freeAfter, takes⟩
  case h_2 => exact plain _ done

end

/-- What caching the full blocks of a request does. -/
structure CachesTable (others : BlockId -> Nat) (requestId : RequestId)
    (manager after : SingleTypeKVCacheManager H) (pool poolAfter : BlockPool H)
    (free : List BlockId) : Prop where
  tables : Tables others after poolAfter free
  same : SamePool pool poolAfter
  frame : Frame requestId manager after
  blocks : after.blocks requestId = manager.blocks requestId
  hashes : ∀ block, poolAfter.blockHash block = pool.blockHash block \/
    block ∈ manager.blocks requestId /\ block ≠ pool.nullBlock /\ pool.blockHash block = none /\
      ∃ hash, poolAfter.blockHash block = some ⟨hash, manager.kvCacheGroupId⟩

section

variable (tables : Tables others manager pool free)
include tables

omit [DecidableEq H] in
theorem CachesTable.refl : CachesTable others requestId manager manager pool pool free :=
  ⟨tables, SamePool.refl pool, Frame.refl requestId manager, rfl, fun _ => Or.inl rfl⟩

omit tables in
theorem cacheFullBlocks_caches {blockHashes : List H} {blocks : List BlockId}
    {numCachedBlocks numFullBlocks blockSize groupId : Nat} (indexed : Indexed pool)
    (valid : ∀ block ∈ blocks, block ≠ pool.nullBlock -> block < pool.numGpuBlocks)
    (done : pool.cacheFullBlocks blockHashes blocks numCachedBlocks numFullBlocks blockSize
      groupId = .ok poolAfter) :
    ∃ cached, Caches pool poolAfter groupId cached /\ ∀ block ∈ cached, block ∈ blocks := by
  unfold BlockPool.cacheFullBlocks at done
  split at done
  · cases done
    exact ⟨[], ⟨SamePool.refl pool, indexed, rfl, rfl, fun _ => Or.inl rfl, by simp⟩, by simp⟩
  split at done
  · cases done
  have inside : ∀ block ∈ (blocks.take numFullBlocks).drop numCachedBlocks, block ∈ blocks :=
    fun block member => mem_of_mem_take (mem_of_mem_drop member)
  exact ⟨_, cacheLoop_caches indexed (fun block member => valid block (inside block member))
    done, inside⟩

theorem baseCacheBlocks_caches
    (done : manager.baseCacheBlocks pool request numTokens = .ok (after, poolAfter)) :
    CachesTable others request.requestId manager after pool poolAfter free := by
  unfold baseCacheBlocks at done
  dsimp only at done
  split at done
  · cases done
    exact CachesTable.refl tables
  split at done
  · cases done
  case h_2 cachedPool cached =>
    cases done
    rcases cacheFullBlocks_caches tables.indexed (fun block member notNull =>
      tables.owned.valid block notNull (Tables.held_pos member)) (fromPool_eq_ok cached) with
      ⟨_, caches, inside⟩
    refine ⟨?_, caches.same, ?_, manager.blocks_setBlocks request.requestId _, ?_⟩
    · have tablesAfter := tables.setBlocks caches.same caches.indexed (tables.owned.of_same
        caches.same caches.queue caches.refCnt) (tables.distinct request.requestId) (fun _ _ => rfl)
      exact tablesAfter.of_reqToBlocks rfl
    · exact (frame_setBlocks manager request.requestId _).trans
        (frame_setNumCached _ request.requestId _)
    · intro block
      exact (caches.hashes block).imp_right (fun facts => ⟨inside block facts.1, facts.2⟩)

theorem cacheBlocks_caches
    (done : manager.cacheBlocks pool request numTokens = .ok (after, poolAfter)) :
    CachesTable others request.requestId manager after pool poolAfter free := by
  unfold cacheBlocks at done
  split at done
  · cases done
  · unfold mambaCacheBlocks at done
    dsimp only at done
    split at done
    · cases done
    case h_2 middle cachedPool cached =>
      split at done
      · cases done
      cases done
      have caches := baseCacheBlocks_caches tables cached
      exact ⟨caches.tables.of_reqToBlocks rfl, caches.same, caches.frame.trans
        ⟨rfl, rfl, rfl, fun _ _ => rfl, fun _ _ => rfl, fun _ _ => rfl, fun _ _ => rfl,
          fun _ => rfl⟩,
        caches.blocks, caches.hashes⟩
  · exact baseCacheBlocks_caches tables done

end

end Effects

end SingleTypeKVCacheManager

end Vllm.KVCache
