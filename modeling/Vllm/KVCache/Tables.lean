import Vllm.KVCache.PoolSpec
import Vllm.KVCache.SingleType

namespace Vllm.KVCache

open Foundation Function List

/-!
# What the operations of a manager do to its tables

The references to a block are the entries of block tables that hold it.  A
manager accounts for the entries of its own tables; those of the other managers
appear as a function `others`.
-/

theorem fromPool_eq_ok {A : Type} {result : Except PoolError A} {value : A}
    (done : fromPool result = .ok value) : result = .ok value := by
  cases result with
  | error error => cases done
  | ok other =>
    cases done
    rfl

/-- References to the null block do not matter. -/
theorem Owned.congr {H : Type} {pool : BlockPool H} {held others : BlockId -> Nat}
    {free : List BlockId} (owned : Owned pool held free)
    (same : ∀ block, block ≠ pool.nullBlock -> others block = held block) :
    Owned pool others free := by
  refine ⟨owned.represents, ?_, ?_, ?_, owned.null_valid⟩
  · intro block
    rw [owned.free_iff]
    by_cases isNull : block = pool.nullBlock
    · simp [isNull]
    · rw [same block isNull]
  · intro block notNull
    rw [same block notNull]
    exact owned.refCnt block notNull
  intro block notNull positive
  rw [same block notNull] at positive
  exact owned.valid block notNull positive

namespace SingleTypeKVCacheManager

variable {H : Type}

section Entries

variable (manager : SingleTypeKVCacheManager H) (requestId : RequestId)

variable (blocks : List BlockId) (block : BlockId)

/-- The number of table entries that hold a block. -/
def tableCount : Nat :=
  manager.reqToBlocks.total (fun blocks => blocks.count block)

theorem count_blocks : manager.reqToBlocks.weigh (fun blocks => blocks.count block) requestId =
      (manager.blocks requestId).count block := by
  unfold Dict.weigh blocks
  cases manager.reqToBlocks.get? requestId <;> rfl

theorem count_le_tableCount :
    (manager.blocks requestId).count block <= manager.tableCount block := by
  rw [<- count_blocks]
  exact manager.reqToBlocks.weigh_le_total _ requestId

theorem tableCount_setBlocks :
    (manager.setBlocks requestId blocks).tableCount block + (manager.blocks requestId).count block =
      manager.tableCount block + blocks.count block := by
  rw [<- count_blocks]
  exact manager.reqToBlocks.total_set _ requestId blocks

@[simp] theorem blocks_setBlocks :
    (manager.setBlocks requestId blocks).blocks requestId = blocks := by
  change ((manager.reqToBlocks.set requestId blocks).get? requestId).getD [] = blocks
  rw [Dict.get?_set_self]
  rfl

theorem blocks_setBlocks_of_ne {other : RequestId} (different : other ≠ requestId) :
    (manager.setBlocks requestId blocks).blocks other = manager.blocks other := by
  change ((manager.reqToBlocks.set requestId blocks).get? other).getD [] = manager.blocks other
  rw [Dict.get?_set_of_ne _ _ different]
  rfl

end Entries

/-- What an operation for one request leaves alone. -/
structure Frame (requestId : RequestId) (manager after : SingleTypeKVCacheManager H) : Prop where
  kvCacheSpec : after.kvCacheSpec = manager.kvCacheSpec
  enableCaching : after.enableCaching = manager.enableCaching
  kvCacheGroupId : after.kvCacheGroupId = manager.kvCacheGroupId
  blocks : ∀ other, other ≠ requestId -> after.blocks other = manager.blocks other
  numCached : ∀ other, other ≠ requestId ->
    after.numCachedBlock other = manager.numCachedBlock other
  allocated : ∀ other, other ≠ requestId ->
    after.allocatedBlockReqs other = manager.allocatedBlockReqs other
  lastState : ∀ other, other ≠ requestId ->
    after.lastStateBlockIdx other = manager.lastStateBlockIdx other
  counts : ∀ block, after.tableCount block + (manager.blocks requestId).count block =
    manager.tableCount block + (after.blocks requestId).count block

theorem Frame.refl (requestId : RequestId) (manager : SingleTypeKVCacheManager H) :
    Frame requestId manager manager :=
  ⟨rfl, rfl, rfl, fun _ _ => rfl, fun _ _ => rfl, fun _ _ => rfl, fun _ _ => rfl, fun _ => rfl⟩

theorem Frame.trans {requestId : RequestId} {first second third : SingleTypeKVCacheManager H}
    (left : Frame requestId first second) (right : Frame requestId second third) :
    Frame requestId first third :=
  ⟨right.1.trans left.1, right.2.trans left.2, right.3.trans left.3,
    fun other different => (right.4 other different).trans (left.4 other different),
    fun other different => (right.5 other different).trans (left.5 other different),
    fun other different => (right.6 other different).trans (left.6 other different),
    fun other different => (right.7 other different).trans (left.7 other different),
    fun block => by
      have first := left.8 block
      have second := right.8 block
      omega⟩

section

variable (manager : SingleTypeKVCacheManager H) (requestId : RequestId)
include manager requestId

theorem frame_setBlocks (blocks : List BlockId) :
    Frame requestId manager (manager.setBlocks requestId blocks) :=
  ⟨rfl, rfl, rfl, fun _ different => manager.blocks_setBlocks_of_ne requestId blocks different,
    fun _ _ => rfl, fun _ _ => rfl, fun _ _ => rfl, fun block => by
      rw [blocks_setBlocks]
      exact manager.tableCount_setBlocks requestId blocks block⟩

theorem frame_setNumCached (numCached : Option Nat) :
    Frame requestId manager (manager.setNumCached requestId numCached) :=
  ⟨rfl, rfl, rfl, fun _ _ => rfl, fun _ different => update_of_ne different _ _,
    fun _ _ => rfl, fun _ _ => rfl, fun _ => rfl⟩

theorem frame_setAllocated (allocated : Bool) :
    Frame requestId manager (manager.setAllocated requestId allocated) :=
  ⟨rfl, rfl, rfl, fun _ _ => rfl, fun _ _ => rfl,
    fun _ different => update_of_ne different _ _, fun _ _ => rfl, fun _ => rfl⟩

theorem frame_setLastState (blockIdx : Option Nat) :
    Frame requestId manager (manager.setLastState requestId blockIdx) :=
  ⟨rfl, rfl, rfl, fun _ _ => rfl, fun _ _ => rfl, fun _ _ => rfl,
    fun _ different => update_of_ne different _ _, fun _ => rfl⟩

end

/-- The pool serves the tables of a manager and of all others. -/
structure Tables (others : BlockId -> Nat) (manager : SingleTypeKVCacheManager H)
    (pool : BlockPool H) (free : List BlockId) : Prop where
  owned : Owned pool (fun block => others block + manager.tableCount block) free
  indexed : Indexed pool
  distinct : ∀ requestId, Distinct pool.nullBlock (manager.blocks requestId)

theorem blockSize_pos (manager : SingleTypeKVCacheManager H) : 0 < manager.blockSize :=
  manager.kvCacheSpec.blockSize_pos

section Effects

variable {others : BlockId -> Nat} {manager : SingleTypeKVCacheManager H} {pool : BlockPool H}
  {free blocks : List BlockId} {requestId : RequestId} {nullBlock block : BlockId}

/-- Replacing one table, when the references change by the same entries. -/
theorem Tables.setBlocks (tables : Tables others manager pool free) {after : BlockPool H}
    {freeAfter : List BlockId} {held : BlockId -> Nat} (same : SamePool pool after)
    (indexed : Indexed after) (owned : Owned after held freeAfter)
    (distinct : Distinct pool.nullBlock blocks)
    (exchanged : ∀ block, block ≠ pool.nullBlock ->
      held block + (manager.blocks requestId).count block =
        others block + manager.tableCount block + blocks.count block) :
    Tables others (manager.setBlocks requestId blocks) after freeAfter := by
  refine ⟨owned.congr ?_, indexed, ?_⟩
  · intro block notNull
    have counts := exchanged block (same.nullBlock ▸ notNull)
    have total := manager.tableCount_setBlocks requestId blocks block
    omega
  intro other
  rw [same.nullBlock]
  by_cases here : other = requestId
  · rw [here, blocks_setBlocks]
    exact distinct
  rw [blocks_setBlocks_of_ne _ _ _ here]
  exact tables.distinct other

theorem Tables.held_pos (member : block ∈ manager.blocks requestId) :
    0 < others block + manager.tableCount block := by
  have positive := count_pos_iff.mpr member
  have bound := manager.count_le_tableCount requestId block
  omega

/-- Some entries below `bound` became null. -/
structure Nulled (nullBlock : BlockId) (bound : Nat) (before after : List BlockId) : Prop where
  length : after.length = before.length
  entry : ∀ j, after[j]? = before[j]? \/ j < bound /\ after[j]? = some nullBlock

theorem Nulled.refl (nullBlock : BlockId) (bound : Nat) (blocks : List BlockId) :
    Nulled nullBlock bound blocks blocks :=
  ⟨rfl, fun _ => Or.inl rfl⟩

theorem Nulled.trans {bound : Nat} {first second third : List BlockId}
    (left : Nulled nullBlock bound first second) (right : Nulled nullBlock bound second third) :
    Nulled nullBlock bound first third := by
  refine ⟨right.length.trans left.length, fun j => ?_⟩
  rcases right.entry j with same | nulled
  · rw [same]
    exact left.entry j
  · exact Or.inr nulled

theorem nulled_set {bound i : Nat} (below : i < bound) : Nulled nullBlock bound blocks (blocks.set i nullBlock) := by
  refine ⟨length_set, fun j => ?_⟩
  rw [List.getElem?_set]
  split
  case isTrue here =>
    subst here
    split
    · exact Or.inr ⟨below, rfl⟩
    case isFalse outside =>
      left
      rw [List.getElem?_eq_none (by omega)]
  case isFalse => exact Or.inl rfl

/-- Setting an entry to null takes one occurrence of its block away. -/
theorem count_set {i : Nat} (inside : i < blocks.length) (notNull : block ≠ nullBlock) :
    (blocks.set i nullBlock).count block + [blocks.getD i nullBlock].count block =
      blocks.count block := by
  have entry : blocks.getD i nullBlock = blocks[i] := by
    rw [getD_eq_getElem?_getD, List.getElem?_eq_getElem inside, Option.getD_some]
  have present : 0 < blocks.count blocks[i] := count_pos_iff.mpr (getElem_mem inside)
  rw [List.count_set inside, entry, List.count_singleton]
  by_cases here : blocks[i] = block
  · simp only [here, beq_self_eq_true, if_true, beq_iff_eq, Ne.symm notNull, if_false]
    rw [here] at present
    omega
  · simp [here, Ne.symm notNull]

theorem count_set_null {i : Nat} (real : blocks.getD i nullBlock ≠ nullBlock) (block : BlockId)
    (notNull : block ≠ nullBlock) :
    (blocks.set i nullBlock).count block + [blocks.getD i nullBlock].count block =
      blocks.count block := by
  refine count_set ?_ notNull
  by_contra outside
  rw [getD_eq_getElem?_getD, List.getElem?_eq_none (by omega)] at real
  exact real rfl

theorem skipLoop_spec (i : Nat) (blocks : List BlockId) :
    Nulled nullBlock i blocks (skipLoop nullBlock i blocks).2 /\
      ∀ block, block ≠ nullBlock -> (skipLoop nullBlock i blocks).2.count block +
        (skipLoop nullBlock i blocks).1.count block = blocks.count block := by
  induction i generalizing blocks with
  | zero => exact ⟨Nulled.refl nullBlock 0 blocks, by simp [skipLoop]⟩
  | succ i ih =>
    rw [skipLoop]
    dsimp only
    split
    case isTrue => exact ⟨Nulled.refl nullBlock _ blocks, by simp⟩
    case isFalse real =>
      rcases ih (blocks.set i nullBlock) with ⟨nulled, counts⟩
      refine ⟨(nulled_set (Nat.lt_succ_self i)).trans
        ⟨nulled.length, fun j => ?_⟩, ?_⟩
      · exact (nulled.entry j).imp_right (fun facts => ⟨Nat.lt_succ_of_lt facts.1, facts.2⟩)
      intro block notNull
      have here := count_set_null real block notNull
      have later := counts block notNull
      dsimp only
      rw [count_cons]
      rw [List.count_singleton] at here
      omega

theorem Tables.release (tables : Tables others manager pool free) {removed : List BlockId}
    (counts : ∀ block, block ≠ pool.nullBlock ->
      blocks.count block + removed.count block = (manager.blocks requestId).count block) :
    ∃ after freed, pool.freeBlocks removed = .ok after /\ SamePool pool after /\
      SameHashes pool after /\
      Tables others (manager.setBlocks requestId blocks) after (free ++ freed) := by
  have distinct := tables.distinct requestId
  have member {block : BlockId} (inside : block ∈ removed) (real : block ≠ pool.nullBlock) :
      block ∈ manager.blocks requestId := by
    apply count_pos_iff.mp
    rw [<- counts block real]
    exact Nat.add_pos_right _ (count_pos_iff.mpr inside)
  rcases freeBlocks_spec tables.owned
    (fun block real => by
      have total := counts block real
      have once := distinct block real
      omega)
    (fun block inside real => Tables.held_pos (member inside real)) with
    ⟨after, freed, same, hashes, owned⟩
  refine ⟨after, _, freed, same, hashes, tables.setBlocks same
    (tables.indexed.of_same same hashes) owned ?_ ?_⟩
  · intro block real
    have total := counts block real
    have once := distinct block real
    omega
  intro block real
  have total := counts block real
  have bound := manager.count_le_tableCount requestId block
  omega

/-- The number of blocks before the window that a removal looks at. -/
def numRemovable (manager : SingleTypeKVCacheManager H) (totalComputedTokens : Nat) : Nat :=
  match manager.kvCacheSpec.kind with
  | .mamba _ numSpeculativeBlocks =>
    manager.numSkippedBlocks (totalComputedTokens - numSpeculativeBlocks)
  | _ => manager.numSkippedBlocks totalComputedTokens

/-- What a removal of skipped blocks does. -/
structure Removes (others : BlockId -> Nat) (requestId : RequestId) (bound : Nat)
    (manager after : SingleTypeKVCacheManager H) (pool poolAfter : BlockPool H)
    (free : List BlockId) : Prop where
  tables : ∃ freed, Tables others after poolAfter (free ++ freed)
  same : SamePool pool poolAfter
  hashes : SameHashes pool poolAfter
  frame : Frame requestId manager after
  nulled : Nulled pool.nullBlock bound (manager.blocks requestId) (after.blocks requestId)
  fewer : ∀ block, block ≠ pool.nullBlock ->
    (after.blocks requestId).count block <= (manager.blocks requestId).count block
  numCached : after.numCachedBlock = manager.numCachedBlock
  allocated : after.allocatedBlockReqs = manager.allocatedBlockReqs
  lastState : after.lastStateBlockIdx = manager.lastStateBlockIdx

section

variable (tables : Tables others manager pool free) (requestId : RequestId)
include tables

theorem Removes.refl
    (bound : Nat) : Removes others requestId bound manager manager pool pool free :=
  ⟨⟨[], by rwa [append_nil]⟩, SamePool.refl pool, SameHashes.refl pool,
    Frame.refl requestId manager, Nulled.refl _ _ _, fun _ _ => le_rfl, rfl, rfl, rfl⟩

theorem baseRemoveSkippedBlocks_spec (numComputed : Nat) :
    ∃ after poolAfter, manager.baseRemoveSkippedBlocks pool requestId numComputed =
        .ok (after, poolAfter) /\
      Removes others requestId (manager.numSkippedBlocks numComputed) manager after pool
        poolAfter free := by
  unfold baseRemoveSkippedBlocks
  split
  case isTrue => exact ⟨manager, pool, rfl, Removes.refl tables requestId _⟩
  case isFalse =>
    rcases skipLoop_spec
      (min (manager.numSkippedBlocks numComputed) (manager.blocks requestId).length)
      (manager.blocks requestId) with ⟨nulled, counts⟩
    rcases tables.release counts with ⟨after, freed, released, same, hashes, tablesAfter⟩
    refine ⟨_, after, by simp only [released, fromPool], ⟨freed, tablesAfter⟩, same, hashes,
      frame_setBlocks manager requestId _, ?_, ?_, rfl, rfl, rfl⟩
    · rw [blocks_setBlocks]
      refine ⟨nulled.length, fun j => (nulled.entry j).imp_right (fun facts => ⟨?_, facts.2⟩)⟩
      exact facts.1.trans_le (Nat.min_le_left _ _)
    intro block notNull
    rw [blocks_setBlocks]
    exact Nat.le.intro (counts block notNull)

theorem freeLastState_spec {numComputedTokens : Nat} :
    ∃ after poolAfter,
      manager.freeLastState pool requestId numComputedTokens = .ok (after, poolAfter) /\
      Removes others requestId (cdiv numComputedTokens manager.blockSize - 1) manager after pool
        poolAfter free := by
  unfold freeLastState
  split
  · exact ⟨manager, pool, rfl, Removes.refl tables requestId _⟩
  case h_2 blockIdx isLast =>
    dsimp only
    split
    case isFalse => exact ⟨manager, pool, rfl, Removes.refl tables requestId _⟩
    case isTrue old =>
      rcases tables.release (count_set_null old.2) with
        ⟨after, freed, released, same, hashes, tablesAfter⟩
      refine ⟨_, after, by simp only [released, fromPool]; rfl, ⟨freed, ?_⟩, same, hashes,
        frame_setBlocks manager requestId _, ?_, ?_, rfl, rfl, rfl⟩
      · rw [same.nullBlock]
        exact tablesAfter
      · rw [blocks_setBlocks, same.nullBlock]
        exact nulled_set old.1
      intro block notNull
      rw [blocks_setBlocks, same.nullBlock]
      exact Nat.le.intro (count_set_null old.2 block notNull)

end

theorem cdiv_sub_one {a b : Nat} (positive : 0 < b) : cdiv a b - 1 = (a - 1) / b := by
  unfold cdiv
  cases a with
  | zero => rw [Nat.zero_add, Nat.div_eq_of_lt (by omega), Nat.zero_sub, Nat.zero_div]
  | succ a =>
    rw [show a + 1 + b - 1 = a + b by omega, Nat.add_div_right a positive]
    rfl

variable {after : SingleTypeKVCacheManager H}

section

variable (tables : Tables others manager pool free)
include tables

theorem removeSkippedBlocks_spec {numComputed : Nat} :
    ∃ after poolAfter,
      manager.removeSkippedBlocks pool requestId numComputed = .ok (after, poolAfter) /\
      Removes others requestId (manager.numRemovable numComputed) manager after pool
        poolAfter free := by
  unfold removeSkippedBlocks numRemovable
  cases kind : manager.kvCacheSpec.kind with
  | mamba mambaCacheMode numSpeculativeBlocks =>
    rcases baseRemoveSkippedBlocks_spec tables requestId (numComputed - numSpeculativeBlocks) with
      ⟨middle, poolMiddle, removed, first⟩
    simp only [removed]
    split
    case isFalse => exact ⟨middle, poolMiddle, rfl, first⟩
    case isTrue =>
      rcases first.tables with ⟨freed, middleTables⟩
      rcases freeLastState_spec middleTables requestId with ⟨after, poolAfter, removedLast, last⟩
      rcases last.tables with ⟨freedLast, lastTables⟩
      refine ⟨after, poolAfter, removedLast, ⟨freed ++ freedLast, ?_⟩, first.same.trans last.same,
        first.hashes.trans last.hashes, first.frame.trans last.frame, first.nulled.trans ?_,
        fun block notNull => (last.fewer block (first.same.nullBlock ▸ notNull)).trans
          (first.fewer block notNull), last.numCached.trans first.numCached, last.allocated.trans first.allocated,
        last.lastState.trans first.lastState⟩
      · rw [<- append_assoc]
        exact lastTables
      have nulled := last.nulled
      have blockSize : middle.blockSize = manager.blockSize :=
        congrArg KVCacheSpec.blockSize first.frame.kvCacheSpec
      have bound : manager.numSkippedBlocks (numComputed - numSpeculativeBlocks) =
          (numComputed - numSpeculativeBlocks - 1) / manager.blockSize := by
        simp only [numSkippedBlocks, getNumSkippedTokens, kind]
      rw [first.same.nullBlock, blockSize, cdiv_sub_one manager.blockSize_pos] at nulled
      rw [bound]
      exact nulled
  | fullAttention => exact baseRemoveSkippedBlocks_spec tables requestId numComputed
  | slidingWindow slidingWindow => exact baseRemoveSkippedBlocks_spec tables requestId numComputed
  | chunkedLocalAttention attentionChunkSize =>
    exact baseRemoveSkippedBlocks_spec tables requestId numComputed
  | crossAttention => exact baseRemoveSkippedBlocks_spec tables requestId numComputed

theorem Tables.of_blocks (counts : ∀ block, after.tableCount block = manager.tableCount block)
    (blocks : ∀ requestId, after.blocks requestId = manager.blocks requestId) :
    Tables others after pool free := by
  refine ⟨tables.owned.congr (fun block _ => by rw [counts]), tables.indexed, fun requestId => ?_⟩
  rw [blocks]
  exact tables.distinct requestId

theorem Tables.of_reqToBlocks (same : after.reqToBlocks = manager.reqToBlocks) :
    Tables others after pool free :=
  tables.of_blocks (fun block => by rw [tableCount, same]; rfl)
    (fun requestId => by rw [blocks, same]; rfl)

end

theorem tableCount_erase (manager : SingleTypeKVCacheManager H) (requestId : RequestId)
    (block : BlockId) :
    (manager.reqToBlocks.erase requestId).total (fun blocks => blocks.count block) =
      (manager.setBlocks requestId []).tableCount block := by
  have erased := manager.reqToBlocks.total_erase (fun blocks => blocks.count block) requestId
  have emptied := manager.tableCount_setBlocks requestId [] block
  rw [count_blocks] at erased
  rw [count_nil, Nat.add_zero, tableCount] at emptied
  unfold tableCount
  unfold tableCount at emptied
  omega

theorem forgetState_spec :
    (manager.forgetState requestId).reqToBlocks = manager.reqToBlocks /\
      Frame requestId manager (manager.forgetState requestId) := by
  unfold forgetState
  split
  · exact ⟨rfl, (frame_setAllocated manager requestId false).trans
      (frame_setLastState _ requestId none)⟩
  · exact ⟨rfl, Frame.refl requestId manager⟩

theorem free_spec (tables : Tables others manager pool free) :
    ∃ after poolAfter freed, manager.free pool requestId = .ok (after, poolAfter) /\
      Tables others after poolAfter (free ++ freed) /\ SamePool pool poolAfter /\
      SameHashes pool poolAfter /\ Frame requestId manager after /\
      after.blocks requestId = [] /\ after.numCachedBlock requestId = none := by
  rcases forgetState_spec with ⟨sameTables, frame⟩
  generalize isCleared : manager.forgetState requestId = cleared at sameTables frame
  have clearedTables := tables.of_reqToBlocks sameTables
  have counts (block : BlockId) (_ : block ≠ pool.nullBlock) :
      [].count block + (cleared.blocks requestId).reverse.count block =
        (cleared.blocks requestId).count block := by
    rw [count_nil, Nat.zero_add, count_reverse]
  rcases clearedTables.release counts with
    ⟨poolAfter, freed, released, same, hashes, tablesAfter⟩
  let after := { cleared with reqToBlocks := cleared.reqToBlocks.erase requestId }.setNumCached
    requestId none
  have sameBlocks (other : RequestId) :
      after.blocks other = (cleared.setBlocks requestId []).blocks other := by
    change ((cleared.reqToBlocks.erase requestId).get? other).getD [] = _
    by_cases here : other = requestId
    · rw [here, Dict.get?_erase_self, blocks_setBlocks]
      rfl
    rw [Dict.get?_erase_of_ne _ here, blocks_setBlocks_of_ne _ _ _ here]
    rfl
  have sameCounts := cleared.tableCount_erase requestId
  have emptied := cleared.frame_setBlocks requestId []
  refine ⟨after, poolAfter, freed, ?_, tablesAfter.of_blocks sameCounts sameBlocks, same, hashes,
    frame.trans ⟨rfl, rfl, rfl, ?_, ?_, fun _ _ => rfl, fun _ _ => rfl, ?_⟩, ?_, ?_⟩
  · unfold SingleTypeKVCacheManager.free
    simp only [isCleared, released, fromPool]
    rfl
  · intro other different
    rw [sameBlocks, emptied.blocks other different]
  · intro other different
    exact update_of_ne different _ _
  · intro block
    rw [sameBlocks, <- emptied.counts block]
    exact congrArg (· + _) (sameCounts block)
  · rw [sameBlocks, blocks_setBlocks]
  · exact update_self requestId _ cleared.numCachedBlock

/-- In `align` mode a freed request is no longer marked as allocated. -/
theorem free_allocated {poolAfter : BlockPool H}
    (done : manager.free pool requestId = .ok (after, poolAfter)) {numSpeculativeBlocks : Nat}
    (align : manager.kvCacheSpec.kind = .mamba .align numSpeculativeBlocks) :
    after.allocatedBlockReqs requestId = false := by
  unfold SingleTypeKVCacheManager.free forgetState at done
  simp only [align] at done
  split at done
  · cases done
  cases done
  exact update_self requestId _ manager.allocatedBlockReqs

end Effects

end SingleTypeKVCacheManager

end Vllm.KVCache
