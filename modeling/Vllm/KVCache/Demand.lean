import Vllm.KVCache.HitClaims
import Vllm.KVCache.Pending

namespace Vllm.KVCache

open Foundation KVCacheCoordinator List Option

/-!
# The predicted demand is enough

Before blocks are taken, the demand of every manager is predicted and compared
with the number of free blocks.  The prediction covers what entering hits and
taking new blocks really take from the free queue.  So both succeed if the
prediction says so, for any order of the groups.

Managers fall into two kinds here.  Mamba in `align` mode has its own tables and
its own prediction, and all others share one.
-/

namespace SingleTypeKVCacheManager

variable {H : Type}

variable (manager : SingleTypeKVCacheManager H)

/-- The number of speculative blocks in `align` mode. -/
def alignBlocks : Option Nat :=
  match manager.kvCacheSpec.kind with
  | .mamba .align numSpeculativeBlocks => some numSpeculativeBlocks
  | _ => none

/-- The number of tokens that get a slot.  Mamba takes speculative blocks as
well. -/
def slotTokens (numTokens : Nat) : Nat :=
  match manager.kvCacheSpec.kind with
  | .mamba _ numSpeculativeBlocks => numTokens + manager.blockSize * numSpeculativeBlocks
  | _ => numTokens

theorem le_slotTokens (numTokens : Nat) : numTokens <= manager.slotTokens numTokens := by
  unfold slotTokens
  split
  · exact Nat.le_add_right _ _
  · exact le_rfl

theorem cdiv_slotTokens_le {fewer numTokens : Nat} (le : fewer <= numTokens) :
    cdiv fewer manager.blockSize <= cdiv (manager.slotTokens numTokens) manager.blockSize := by
  have bound := manager.le_slotTokens numTokens
  unfold cdiv
  apply Nat.div_le_div_right
  omega

variable {numSpeculativeBlocks : Nat}

theorem alignBlocks_eq_some {manager : SingleTypeKVCacheManager H}
    (align : manager.alignBlocks = some numSpeculativeBlocks) :
    manager.kvCacheSpec.kind = .mamba .align numSpeculativeBlocks := by
  unfold alignBlocks at align
  split at align
  case h_1 count kind =>
    cases align
    exact kind
  case h_2 => cases align

theorem alignBlocks_congr {manager after : SingleTypeKVCacheManager H}
    (signature : after.signature = manager.signature) : after.alignBlocks = manager.alignBlocks := by
  unfold alignBlocks
  rw [kvCacheSpec_congr signature]

theorem slotTokens_congr {manager after : SingleTypeKVCacheManager H}
    (signature : after.signature = manager.signature) (numTokens : Nat) :
    after.slotTokens numTokens = manager.slotTokens numTokens := by
  unfold slotTokens blockSize
  rw [kvCacheSpec_congr signature]

theorem blockSize_congr {manager after : SingleTypeKVCacheManager H}
    (signature : after.signature = manager.signature) : after.blockSize = manager.blockSize :=
  congrArg (fun value : KVCacheSpec × Bool × Nat => value.1.blockSize) signature

variable {manager} {pool : BlockPool H} {requestId : RequestId}

section Plain

variable [DecidableEq H]

theorem allocateNewBlocks_plain (plain : manager.alignBlocks = none) (numTokens numMain : Nat) :
    manager.allocateNewBlocks pool requestId numTokens numMain =
      manager.baseAllocateNewBlocks pool requestId (manager.slotTokens numTokens) := by
  unfold alignBlocks at plain
  unfold allocateNewBlocks slotTokens
  cases kind : manager.kvCacheSpec.kind with
  | mamba mode count =>
    cases mode with
    | align => simp [kind] at plain
    | none => rfl
    | all => rfl
  | _ => rfl

theorem allocateNewBlocks_align (align : manager.alignBlocks = some numSpeculativeBlocks)
    (numTokens numMain : Nat) :
    manager.allocateNewBlocks pool requestId numTokens numMain =
      manager.alignAllocateNewBlocks pool requestId numMain numSpeculativeBlocks := by
  unfold allocateNewBlocks
  rw [alignBlocks_eq_some align]
  rfl

variable {newComputedBlocks : List BlockId} {applyAdmissionCap : Bool} {numBlocks : Int}
  {numTokens numComputed numMain : Nat} (few : numBlocks <= pool.numGpuBlocks)
  (predicted : manager.getNumBlocksToAllocate pool requestId numTokens newComputedBlocks
    numComputed numMain applyAdmissionCap = .ok numBlocks)
include few predicted

/-- Unless a hit was cached in this very step, the prediction is the common one. -/
theorem getNumBlocksToAllocate_plain (plain : manager.alignBlocks = none) :
    ∃ count, manager.baseNumBlocksToAllocate pool requestId (manager.slotTokens numTokens)
      newComputedBlocks numComputed applyAdmissionCap = .ok count /\ numBlocks = count := by
  have convert {tokens : Nat} (result : (manager.baseNumBlocksToAllocate pool requestId tokens
      newComputedBlocks numComputed applyAdmissionCap).map Int.ofNat = .ok numBlocks) :
      ∃ count, manager.baseNumBlocksToAllocate pool requestId tokens newComputedBlocks
        numComputed applyAdmissionCap = .ok count /\ numBlocks = count := by
    cases base : manager.baseNumBlocksToAllocate pool requestId tokens newComputedBlocks
        numComputed applyAdmissionCap with
    | error error => simp [base, Except.map] at result
    | ok count =>
      rw [base] at result
      cases result
      exact ⟨count, rfl, rfl⟩
  unfold alignBlocks at plain
  unfold getNumBlocksToAllocate at predicted
  unfold slotTokens
  cases kind : manager.kvCacheSpec.kind with
  | mamba mode count =>
    simp only [kind] at predicted
    split at predicted
    · cases predicted
      omega
    cases mode with
    | align => simp [kind] at plain
    | none => exact convert predicted
    | all => exact convert predicted
  | fullAttention => simp only [kind] at predicted; exact convert predicted
  | slidingWindow size => simp only [kind] at predicted; exact convert predicted
  | chunkedLocalAttention size => simp only [kind] at predicted; exact convert predicted
  | crossAttention => simp only [kind] at predicted; exact convert predicted

theorem getNumBlocksToAllocate_align (align : manager.alignBlocks = some numSpeculative) :
    numBlocks = manager.alignNumBlocksToAllocate pool requestId numMain
      numSpeculative newComputedBlocks := by
  unfold getNumBlocksToAllocate at predicted
  rw [alignBlocks_eq_some align] at predicted
  simp only at predicted
  split at predicted
  · cases predicted
    omega
  cases predicted
  rfl

end Plain

/-- The number of blocks that a call takes. -/
def numNewBlocks (manager : SingleTypeKVCacheManager H) (nullBlock : BlockId)
    (requestId : RequestId) (numTokens numTokensMainModel : Nat) : Nat :=
  match manager.alignBlocks with
  | some numSpeculativeBlocks =>
    manager.numAlignedBlocks numTokensMainModel numSpeculativeBlocks -
      (manager.alignedBase nullBlock requestId numTokensMainModel numSpeculativeBlocks).length
  | none =>
    cdiv (manager.slotTokens numTokens) manager.blockSize - (manager.blocks requestId).length

/-- The number of blocks that a request has in a group after slots were allocated.
-/
def numBlocksAfter (manager : SingleTypeKVCacheManager H) (requestId : RequestId)
    (numTokens numTokensMainModel : Nat) : Nat :=
  match manager.alignBlocks with
  | some numSpeculativeBlocks =>
    manager.numAlignedBlocks numTokensMainModel numSpeculativeBlocks
  | none =>
    max (manager.blocks requestId).length
      (cdiv (manager.slotTokens numTokens) manager.blockSize)

/-- What a call relies on in `align` mode.  The request holds no more blocks than
it needs, and its speculative blocks come after the cached ones. -/
structure AlignReady (manager : SingleTypeKVCacheManager H) (requestId : RequestId)
    (numTokensMainModel numSpeculativeBlocks : Nat) : Prop where
  required : (manager.blocks requestId).length <=
    manager.numAlignedBlocks numTokensMainModel numSpeculativeBlocks
  speculative : manager.allocatedBlockReqs requestId = true ->
    (manager.numCachedBlock requestId).getD 0 + numSpeculativeBlocks <=
      (manager.blocks requestId).length

variable {nullBlock block : BlockId}

/-- Moving blocks to the end of a table makes no block pending that was not. -/
theorem mem_drop_reuseSpeculativeBlocks {numSkippedBlocks numCached : Nat} (count : Nat)
    {blockIdx : Nat} {reqBlocks : List BlockId} (behind : numCached <= blockIdx)
    (notNull : block ≠ nullBlock)
    (member : block ∈ (reuseSpeculativeBlocks nullBlock numSkippedBlocks count blockIdx
      reqBlocks).drop numCached) : block ∈ reqBlocks.drop numCached := by
  induction count generalizing blockIdx reqBlocks with
  | zero => exact member
  | succ count ih =>
    rw [reuseSpeculativeBlocks] at member
    split at member
    case isFalse => exact member
    case isTrue =>
      have moved := ih (Nat.le_succ_of_le behind) member
      rcases mem_iff_getElem?.mp moved with ⟨index, entry⟩
      rw [List.getElem?_drop, List.getElem?_set] at entry
      split at entry
      case isTrue =>
        split at entry
        · cases entry
          exact absurd rfl notNull
        · cases entry
      case isFalse =>
        rw [List.getElem?_append] at entry
        split at entry
        case isTrue =>
          apply mem_iff_getElem?.mpr
          exact ⟨index, by rw [List.getElem?_drop]; exact entry⟩
        case isFalse =>
          have isMoved : block = reqBlocks.getD blockIdx nullBlock := by
            have listed := mem_of_getElem? entry
            simpa using listed
          rw [getD_eq_getElem?_getD] at isMoved
          cases present : reqBlocks[blockIdx]? with
          | none =>
            rw [present] at isMoved
            exact absurd isMoved notNull
          | some other =>
            rw [present, getD_some] at isMoved
            apply mem_iff_getElem?.mpr
            refine ⟨blockIdx - numCached, ?_⟩
            rw [List.getElem?_drop, Nat.add_sub_cancel' behind, present, isMoved]

theorem mem_drop_alignedBase {numMain : Nat}
    (ready : manager.AlignReady requestId numMain numSpeculative) (notNull : block ≠ nullBlock)
    (member : block ∈ (manager.alignedBase nullBlock requestId numMain
      numSpeculative).drop ((manager.numCachedBlock requestId).getD 0)) :
    block ∈ manager.pending requestId := by
  have padded {count : Nat}
      (inside : block ∈ (manager.blocks requestId ++ List.replicate count nullBlock).drop
        ((manager.numCachedBlock requestId).getD 0)) : block ∈ manager.pending requestId := by
    rw [drop_append] at inside
    rcases mem_append.mp inside with old | padding
    · exact old
    · exact absurd (eq_of_mem_replicate (mem_of_mem_drop padding)) notNull
  unfold alignedBase alignedTable at member
  split at member
  case isTrue allocated =>
    have behind := ready.speculative allocated
    exact padded (mem_drop_reuseSpeculativeBlocks _ (by omega) notNull member)
  case isFalse => exact padded member

theorem le_alignedBase_length (manager : SingleTypeKVCacheManager H) (requestId : RequestId)
    (nullBlock : BlockId) (numMain numSpeculative : Nat) :
    (manager.blocks requestId).length <= (manager.alignedBase nullBlock requestId
      numMain numSpeculative).length := by
  unfold alignedBase alignedTable
  split
  · rw [reuseSpeculativeBlocks_length, length_append]
    omega
  rw [length_append]
  omega

section Total

variable [DecidableEq H] {others : BlockId -> Nat} {free : List BlockId}

theorem allocateNewBlocks_total (tables : Tables others manager pool free) {numTokens numMain : Nat}
    (ready : ∀ numSpeculative, manager.alignBlocks = some numSpeculative ->
      manager.AlignReady requestId numMain numSpeculative)
    (enough : manager.numNewBlocks pool.nullBlock requestId numTokens numMain <= free.length) :
    ∃ newBlocks after poolAfter base taken freeAfter,
      manager.allocateNewBlocks pool requestId numTokens numMain =
        .ok (newBlocks, after, poolAfter) /\
      TakesBlocks others requestId manager after pool poolAfter free base taken freeAfter /\
      taken.length = manager.numNewBlocks pool.nullBlock requestId numTokens numMain /\
      (after.blocks requestId).length = manager.numBlocksAfter requestId numTokens numMain /\
      ∀ block ∈ base.drop ((manager.numCachedBlock requestId).getD 0), block ≠ pool.nullBlock ->
        block ∈ manager.pending requestId := by
  cases align : manager.alignBlocks with
  | none =>
    simp only [numNewBlocks, align] at enough
    rcases baseAllocateNewBlocks_spec tables
      (Or.inl enough) with ⟨newBlocks, after, poolAfter, taken, freeAfter, done, length, takes⟩
    refine ⟨newBlocks, after, poolAfter, _, taken, freeAfter, ?_, takes, ?_, ?_, ?_⟩
    · rw [allocateNewBlocks_plain align]
      exact done
    · simp only [numNewBlocks, align]
      exact length
    · rw [takes.blocks, length_append, length]
      simp only [numBlocksAfter, align]
      omega
    · exact fun block member _ => member
  | some numSpeculative =>
    have isReady := ready numSpeculative align
    simp only [numNewBlocks, align] at enough
    rw [allocateNewBlocks_align align]
    rcases Nat.lt_or_eq_of_le isReady.required with fewer | same
    · have length := alignedTable_length pool.nullBlock
        fewer (fun allocated => (Nat.le_add_left _ _).trans (isReady.speculative allocated))
      have possible : AlignPossible manager pool.nullBlock requestId numMain
          numSpeculative free.length := by
        refine ⟨fewer, ?_, enough⟩
        rw [alignedBase, length]
        split <;> omega
      rcases alignAllocateNewBlocks_grows tables possible with
        ⟨newBlocks, after, poolAfter, taken, freeAfter, done, taken_length, -, takes⟩
      refine ⟨newBlocks, after, poolAfter, _, taken, freeAfter, done, takes, ?_, ?_, ?_⟩
      · simp only [numNewBlocks, align]
        exact taken_length
      · rw [takes.blocks, length_append, taken_length]
        simp only [numBlocksAfter, align]
        rw [alignedBase, length]
        split <;> omega
      · exact fun block member notNull => mem_drop_alignedBase isReady notNull member
    refine ⟨[], _, pool, manager.blocks requestId, [], free,
      alignAllocateNewBlocks_same same.symm, TakesBlocks.nothing tables requestId, ?_, ?_,
      fun block member _ => member⟩
    · simp only [numNewBlocks, align]
      have long := manager.le_alignedBase_length requestId pool.nullBlock numMain numSpeculative
      rw [length_nil]
      omega
    · rw [blocks_setBlocks, same]
      simp only [numBlocksAfter, align]

end Total

section Prediction

/-- In `align` mode a call takes one block, or one and the speculative ones. -/
theorem numNewBlocks_align_le (nullBlock : BlockId)
    (align : manager.alignBlocks = some numSpeculative) {numMain : Nat} (numTokens : Nat)
    (ready : manager.AlignReady requestId numMain numSpeculative) :
    (manager.numNewBlocks nullBlock requestId numTokens numMain : Int) <=
      if (manager.blocks requestId).length <
          manager.numAlignedBlocks numMain numSpeculative then
        if manager.allocatedBlockReqs requestId then 1 else 1 + (numSpeculative : Int)
      else 0 := by
  simp only [numNewBlocks, align]
  split
  case isTrue fewer =>
    have length := alignedTable_length nullBlock
      fewer (fun allocated => (Nat.le_add_left _ _).trans (ready.speculative allocated))
    rw [alignedBase, length]
    split <;> omega
  case isFalse same =>
    have long := manager.le_alignedBase_length requestId nullBlock numMain numSpeculative
    omega

variable {newComputedBlocks : List BlockId}

/-- In `align` mode the prediction counts the same, and the hits that wait in the
free queue. -/
theorem alignNumBlocksToAllocate_eq {numMain numSpeculative : Nat}
    (required : newComputedBlocks.length + (manager.blocks requestId).length <=
      manager.numAlignedBlocks numMain numSpeculative) :
    manager.alignNumBlocksToAllocate pool requestId numMain numSpeculative newComputedBlocks =
      (if newComputedBlocks.length + (manager.blocks requestId).length <
          manager.numAlignedBlocks numMain numSpeculative then
        if manager.allocatedBlockReqs requestId then 1 else 1 + (numSpeculative : Int)
      else 0) + getNumEvictableBlocks pool newComputedBlocks := by
  unfold numAlignedBlocks at required
  unfold alignNumBlocksToAllocate numAlignedBlocks
  dsimp only
  congr 1
  by_cases fewer : newComputedBlocks.length + (manager.blocks requestId).length <
      cdiv numMain manager.blockSize + numSpeculative
  · rw [if_pos fewer, if_pos (by omega)]
  rw [if_neg fewer, if_neg (by omega)]
  omega

variable {numTokens numComputed count : Nat}

/-- A request that has slots is given what the prediction says. -/
theorem baseNumBlocksToAllocate_running
    (covers : manager.numSkippedBlocks numComputed <= (manager.blocks requestId).length)
    (predicted : manager.baseNumBlocksToAllocate pool requestId numTokens [] numComputed
      false = .ok count) :
    count = cdiv numTokens manager.blockSize - (manager.blocks requestId).length := by
  unfold baseNumBlocksToAllocate at predicted
  dsimp only at predicted
  split at predicted
  · rw [if_pos rfl] at predicted
    cases predicted
    rfl
  cases predicted
  rw [length_nil, Nat.zero_add, Nat.max_eq_right covers, drop_nil]
  rfl

/-- A new request is given what the prediction says, and the prediction counts
the hits that wait in the free queue. -/
theorem baseNumBlocksToAllocate_new (new : manager.numCachedBlock requestId = none)
    (empty : manager.blocks requestId = [])
    (predicted : manager.baseNumBlocksToAllocate pool requestId numTokens newComputedBlocks
      numComputed false = .ok count) :
    count = cdiv numTokens manager.blockSize -
        max (manager.numSkippedBlocks numComputed) newComputedBlocks.length +
      getNumEvictableBlocks pool
        (newComputedBlocks.drop (manager.numSkippedBlocks numComputed)) := by
  simp only [baseNumBlocksToAllocate, new, empty, isSome_none, Bool.false_eq_true, if_false,
    length_nil, Nat.add_zero, Nat.sub_zero, Except.ok.injEq] at predicted
  exact predicted.symm

theorem getNumEvictableBlocks_le_of_sublist (pool : BlockPool H) {left right : List BlockId}
    (inside : left.Sublist right) :
    getNumEvictableBlocks pool left <= getNumEvictableBlocks pool right :=
  (inside.filter _).length_le

/-- The blocks for external tokens end where the tokens end. -/
theorem numExternalBlocks_le {numLocal numExternal numRequired : Nat}
    (fit : manager.HitsFit newComputedBlocks numLocal numExternal)
    (enough : cdiv (numLocal + numExternal) manager.blockSize <= numRequired) :
    manager.numExternalBlocks newComputedBlocks numLocal numExternal +
        (numRequired - (max (manager.numSkippedBlocks
            (numLocal + numExternal)) newComputedBlocks.length +
          manager.numExternalBlocks newComputedBlocks numLocal numExternal)) =
      numRequired - max (manager.numSkippedBlocks
        (numLocal + numExternal)) newComputedBlocks.length := by
  unfold numExternalBlocks
  dsimp only
  split
  case isTrue external =>
    have below := fit.le external
    omega
  case isFalse => omega

end Prediction

/-- The table of a request that was last given slots for a number of tokens, or
that has none. -/
def Covered (manager : SingleTypeKVCacheManager H) (requestId : RequestId) : Option Nat -> Prop
  | none => manager.blocks requestId = [] /\ manager.numCachedBlock requestId = none /\
      (manager.alignBlocks.isSome -> manager.allocatedBlockReqs requestId = false)
  | some numTokens =>
    match manager.alignBlocks with
    | some numSpeculativeBlocks =>
      (manager.blocks requestId).length =
          cdiv numTokens manager.blockSize + numSpeculativeBlocks /\
        (manager.numCachedBlock requestId).getD 0 <= cdiv numTokens manager.blockSize
    | none => manager.kvCacheSpec.kind = .crossAttention \/
        numTokens <= (manager.blocks requestId).length * manager.blockSize

theorem getNumSkippedTokens_le (window : manager.kvCacheSpec.kind ≠ .slidingWindow 0)
    {numTokens : Nat} : manager.getNumSkippedTokens numTokens <= numTokens := by
  unfold getNumSkippedTokens
  cases kind : manager.kvCacheSpec.kind with
  | slidingWindow size =>
    have positive : size ≠ 0 := by
      rintro rfl
      exact window kind
    dsimp only
    omega
  | chunkedLocalAttention size => exact Nat.div_mul_le_self numTokens size
  | mamba mode count => exact Nat.sub_le numTokens 1
  | fullAttention => exact Nat.zero_le _
  | crossAttention => exact Nat.zero_le _

theorem numSkippedBlocks_le_length (window : manager.kvCacheSpec.kind ≠ .slidingWindow 0)
    {numTokens : Nat} (covers : numTokens <= (manager.blocks requestId).length * manager.blockSize) :
    manager.numSkippedBlocks numTokens <= (manager.blocks requestId).length := by
  unfold numSkippedBlocks
  apply Nat.div_le_of_le_mul
  rw [Nat.mul_comm]
  exact (getNumSkippedTokens_le window).trans covers

section

variable (cross : manager.kvCacheSpec.kind = .crossAttention)
include cross

theorem numSkippedBlocks_cross (numTokens : Nat) : manager.numSkippedBlocks numTokens = 0 := by
  unfold numSkippedBlocks getNumSkippedTokens
  rw [cross]
  exact Nat.zero_div _

theorem plain_of_cross :
    manager.alignBlocks = none := by
  unfold alignBlocks
  rw [cross]

/-- The number of tokens that new blocks are taken for. -/
def visitTokens (manager : SingleTypeKVCacheManager H) (numTokens numEncoderTokens : Nat) : Nat :=
  match manager.kvCacheSpec.kind with
  | .crossAttention => numEncoderTokens
  | _ => numTokens

theorem visitTokens_cross (numTokens numEncoderTokens : Nat) :
    manager.visitTokens numTokens numEncoderTokens = numEncoderTokens := by
  unfold visitTokens
  rw [cross]

end

theorem visitTokens_of_ne (notCross : manager.kvCacheSpec.kind ≠ .crossAttention)
    (numTokens numEncoderTokens : Nat) :
    manager.visitTokens numTokens numEncoderTokens = numTokens := by
  unfold visitTokens
  split
  case h_1 cross => exact absurd cross notCross
  case h_2 => rfl

section Demand

variable [DecidableEq H] {newComputedBlocks : List (List BlockId)}
  {numTokens numEncoderTokens numComputed numMain : Nat} {numBlocks : Int}

theorem managerDemand_cross (cross : manager.kvCacheSpec.kind = .crossAttention) :
    managerDemand requestId numTokens newComputedBlocks numEncoderTokens
        numComputed numMain false manager pool =
      manager.getNumBlocksToAllocate pool requestId numEncoderTokens [] 0 numEncoderTokens
        false := by
  unfold managerDemand
  rw [cross]

theorem managerDemand_of_ne (notCross : manager.kvCacheSpec.kind ≠ .crossAttention) :
    managerDemand requestId numTokens newComputedBlocks numEncoderTokens
        numComputed numMain false manager pool =
      manager.getNumBlocksToAllocate pool requestId numTokens
        (newComputedBlocks.getD manager.kvCacheGroupId []) numComputed numMain
        false := by
  unfold managerDemand
  split
  case h_1 cross => exact absurd cross notCross
  case h_2 => rfl

section

variable (few : numBlocks <= pool.numGpuBlocks)
  (predicted : managerDemand requestId numTokens newComputedBlocks
    numEncoderTokens numComputed numMain false manager pool = .ok numBlocks)
include few predicted

theorem demand_cross (cross : manager.kvCacheSpec.kind = .crossAttention) :
    (manager.numNewBlocks pool.nullBlock requestId
      (manager.visitTokens numTokens numEncoderTokens) numMain : Int) <= numBlocks := by
  have plain := plain_of_cross cross
  rw [managerDemand_cross cross] at predicted
  rcases getNumBlocksToAllocate_plain few predicted plain with ⟨_, base, rfl⟩
  have exactly := baseNumBlocksToAllocate_running
    (by rw [numSkippedBlocks_cross cross]; exact Nat.zero_le _) base
  rw [visitTokens_cross cross]
  simp only [numNewBlocks, plain]
  omega

theorem demand_running (window : manager.kvCacheSpec.kind ≠ .slidingWindow 0)
    (none_new : newComputedBlocks.getD manager.kvCacheGroupId [] = [])
    (covers : manager.alignBlocks = none -> manager.kvCacheSpec.kind ≠ .crossAttention ->
      numComputed <= (manager.blocks requestId).length * manager.blockSize)
    (ready : ∀ numSpeculative, manager.alignBlocks = some numSpeculative ->
      manager.AlignReady requestId numMain numSpeculative) :
    (manager.numNewBlocks pool.nullBlock requestId
      (manager.visitTokens numTokens numEncoderTokens) numMain : Int) <= numBlocks := by
  by_cases cross : manager.kvCacheSpec.kind = .crossAttention
  · exact demand_cross few predicted cross
  rw [managerDemand_of_ne cross, none_new] at predicted
  rw [visitTokens_of_ne cross]
  cases align : manager.alignBlocks with
  | none =>
    rcases getNumBlocksToAllocate_plain few predicted align with ⟨_, base, rfl⟩
    have exactly := baseNumBlocksToAllocate_running
      (numSkippedBlocks_le_length window (covers align cross)) base
    simp only [numNewBlocks, align]
    omega
  | some numSpeculative =>
    have isReady := ready numSpeculative align
    have bound := numNewBlocks_align_le pool.nullBlock align numTokens isReady
    have required := isReady.required
    rw [getNumBlocksToAllocate_align few predicted align,
      alignNumBlocksToAllocate_eq (by simpa using required)]
    simpa [getNumEvictableBlocks] using bound

end

section New

variable {others : BlockId -> Nat} {after : SingleTypeKVCacheManager H}
  {poolBefore poolAfter : BlockPool H} {free taken freeAfter hits : List BlockId}
  {numLocal numExternal : Nat}

section

omit [DecidableEq H]

theorem EntersHits.blocks_length
    (enters : EntersHits others requestId hits numLocal numExternal manager after poolBefore
      poolAfter free taken freeAfter) :
    (after.blocks requestId).length =
      max (manager.numSkippedBlocks (numLocal + numExternal)) hits.length +
        manager.numExternalBlocks hits numLocal numExternal := by
  rw [enters.blocks, length_append, enters.length, length_append, length_replicate,
    keptHits, length_drop]
  omega

theorem numExternalBlocks_zero (hits : List BlockId) (numLocal : Nat) :
    manager.numExternalBlocks hits numLocal 0 = 0 := by
  unfold numExternalBlocks numExternalTokens
  simp

section

variable
  (enters : EntersHits others requestId hits numLocal numExternal manager after poolBefore
      poolAfter free taken freeAfter)
include enters

/-- A new request is ready for its first call in `align` mode. -/
theorem EntersHits.alignReady (align : manager.alignBlocks = some numSpeculative)
    (unallocated : manager.allocatedBlockReqs requestId = false) (local_only : numExternal = 0)
    (fit : hits.length <= cdiv numMain manager.blockSize) (more : numLocal + numExternal <= numMain) :
    after.AlignReady requestId numMain numSpeculative /\
      (after.numCachedBlock requestId).getD 0 <= cdiv numMain after.blockSize := by
  have size := blockSize_congr enters.frame.signature
  have skipped : manager.numSkippedBlocks (numLocal + numExternal) <=
      cdiv numMain manager.blockSize := by
    unfold numSkippedBlocks getNumSkippedTokens cdiv
    rw [alignBlocks_eq_some align]
    apply Nat.div_le_div_right
    dsimp only
    omega
  have length := enters.blocks_length
  rw [local_only, numExternalBlocks_zero, <- local_only] at length
  refine ⟨⟨?_, fun allocated => ?_⟩, ?_⟩
  · rw [length, numAlignedBlocks, size]
    omega
  · rw [enters.allocated, unallocated] at allocated
    cases allocated
  rw [enters.numCached, getD_some, size]
  omega

/-- The blocks that a new request still takes after its hits were entered. -/
def numLaterBlocks (manager : SingleTypeKVCacheManager H) (hits : List BlockId)
    (numLocal numExternal numTokens numMain : Nat) : Nat :=
  match manager.alignBlocks with
  | some numSpeculativeBlocks =>
    if hits.length < manager.numAlignedBlocks numMain numSpeculativeBlocks then
      1 + numSpeculativeBlocks
    else 0
  | none =>
    cdiv (manager.slotTokens numTokens) manager.blockSize -
      (max (manager.numSkippedBlocks (numLocal + numExternal)) hits.length +
        manager.numExternalBlocks hits numLocal numExternal)

theorem EntersHits.numNewBlocks_le (notCross : manager.kvCacheSpec.kind ≠ .crossAttention)
    (unallocated : manager.alignBlocks.isSome -> manager.allocatedBlockReqs requestId = false)
    (align : ∀ numSpeculativeBlocks, manager.alignBlocks = some numSpeculativeBlocks ->
      numExternal = 0 /\ hits.length <= cdiv numMain manager.blockSize)
    (more : numLocal + numExternal <= numMain) (nullBlock : BlockId)
    (numTokens numEncoderTokens : Nat) :
    after.numNewBlocks nullBlock requestId (after.visitTokens numTokens numEncoderTokens) numMain <=
      manager.numLaterBlocks hits numLocal numExternal numTokens numMain := by
  have signature := enters.frame.signature
  have size := blockSize_congr signature
  have length := enters.blocks_length
  rw [visitTokens_of_ne (by rw [enters.frame.kvCacheSpec]; exact notCross)]
  cases kind : manager.alignBlocks with
  | none =>
    simp only [numNewBlocks, numLaterBlocks, alignBlocks_congr signature, kind,
      slotTokens_congr signature, size, length]
    exact le_rfl
  | some numSpeculativeBlocks =>
    have isNew := unallocated (by rw [kind]; rfl)
    rcases align numSpeculativeBlocks kind with ⟨local_only, fit⟩
    rcases enters.alignReady kind isNew local_only fit more with ⟨ready, -⟩
    have bound := numNewBlocks_align_le nullBlock ((alignBlocks_congr signature).trans kind)
      numTokens ready
    rw [local_only, numExternalBlocks_zero, <- local_only] at length
    rw [enters.allocated, isNew, length] at bound
    simp only [numAlignedBlocks, size, Bool.false_eq_true, if_false] at bound
    simp only [numLaterBlocks, kind]
    unfold numAlignedBlocks
    split at bound <;> split <;> omega

end

end

/-- The demand of a new request covers the hits that wait in the free queue, the
blocks for external tokens, and the blocks that it takes afterwards. -/
theorem demand_new (notCross : manager.kvCacheSpec.kind ≠ .crossAttention)
    (new : manager.numCachedBlock requestId = none) (empty : manager.blocks requestId = [])
    (fitExternal : manager.HitsFit (newComputedBlocks.getD manager.kvCacheGroupId []) numLocal
      numExternal) (few : numBlocks <= pool.numGpuBlocks)
    (predicted : managerDemand requestId numTokens newComputedBlocks
      numEncoderTokens (numLocal + numExternal) numMain false manager pool = .ok numBlocks)
    (unallocated : manager.alignBlocks.isSome -> manager.allocatedBlockReqs requestId = false)
    (align : ∀ numSpeculativeBlocks, manager.alignBlocks = some numSpeculativeBlocks ->
      numExternal = 0 /\ (newComputedBlocks.getD manager.kvCacheGroupId []).length <=
        cdiv numMain manager.blockSize) (more : numLocal + numExternal <= numTokens) :
    ((getNumEvictableBlocks pool (manager.keptHits
          (newComputedBlocks.getD manager.kvCacheGroupId []) numLocal numExternal) +
        manager.numExternalBlocks (newComputedBlocks.getD manager.kvCacheGroupId []) numLocal
          numExternal +
        manager.numLaterBlocks (newComputedBlocks.getD manager.kvCacheGroupId []) numLocal
          numExternal numTokens numMain : Nat) : Int) <= numBlocks := by
  rw [managerDemand_of_ne notCross] at predicted
  generalize newComputedBlocks.getD manager.kvCacheGroupId [] = hits at *
  cases kind : manager.alignBlocks with
  | none =>
    rcases getNumBlocksToAllocate_plain few predicted kind with ⟨_, base, rfl⟩
    have exactly := baseNumBlocksToAllocate_new new empty base
    have enough := manager.cdiv_slotTokens_le more
    have covers := numExternalBlocks_le fitExternal enough
    simp only [numLaterBlocks, kind, keptHits]
    omega
  | some numSpeculativeBlocks =>
    rcases align numSpeculativeBlocks kind with ⟨local_only, _⟩
    have evictable := getNumEvictableBlocks_le_of_sublist pool
      (drop_sublist (manager.numSkippedBlocks (numLocal + numExternal)) hits)
    have required : hits.length + (manager.blocks requestId).length <=
        manager.numAlignedBlocks numMain numSpeculativeBlocks := by
      rw [empty, numAlignedBlocks, length_nil]
      omega
    rw [getNumBlocksToAllocate_align few predicted kind, alignNumBlocksToAllocate_eq required]
    rw [local_only, numExternalBlocks_zero, <- local_only, keptHits]
    rw [unallocated (by rw [kind]; rfl), empty, length_nil]
    simp only [numLaterBlocks, kind, Bool.false_eq_true, if_false]
    push_cast
    split <;> omega

end New

/-- The prediction fails only if a request has new hits after it entered some,
and it is not negative if the hits are not too long in `align` mode. -/
theorem getNumBlocksToAllocate_natural {hits : List BlockId}
    (allowed : hits = [] \/ manager.numCachedBlock requestId = none)
    (fit : ∀ numSpeculative, manager.alignBlocks = some numSpeculative ->
      hits.length + (manager.blocks requestId).length <=
        manager.numAlignedBlocks numMain numSpeculative) :
    ∃ count : Nat, manager.getNumBlocksToAllocate pool requestId numTokens hits
      numComputed numMain false = .ok (count : Int) := by
  have base (tokens : Nat) : ∃ count : Nat,
      (manager.baseNumBlocksToAllocate pool requestId tokens hits numComputed
        false).map Int.ofNat = .ok (count : Int) := by
    unfold baseNumBlocksToAllocate
    dsimp only
    split
    case isTrue present =>
      rcases allowed with none_new | new
      · exact ⟨_, by rw [if_pos none_new]; rfl⟩
      rw [new] at present
      cases present
    case isFalse => exact ⟨_, rfl⟩
  unfold getNumBlocksToAllocate
  split
  case h_1 mode numSpeculative kind =>
    split
    · exact ⟨pool.numGpuBlocks + 1, rfl⟩
    split
    case isTrue isAlign =>
      subst isAlign
      have required := fit numSpeculative (by rw [alignBlocks, kind])
      rw [alignNumBlocksToAllocate_eq required]
      split
      · split
        · exact ⟨1 + getNumEvictableBlocks pool hits, by push_cast; rfl⟩
        · exact ⟨1 + numSpeculative + getNumEvictableBlocks pool hits, by push_cast; rfl⟩
      · exact ⟨getNumEvictableBlocks pool hits, by rw [Int.zero_add]⟩
    case isFalse => exact base _
  case h_2 => exact base _

theorem managerDemand_natural (allowed : newComputedBlocks.getD manager.kvCacheGroupId [] = [] \/
      manager.numCachedBlock requestId = none)
    (fit : ∀ numSpeculative, manager.alignBlocks = some numSpeculative ->
      (newComputedBlocks.getD manager.kvCacheGroupId []).length +
          (manager.blocks requestId).length <=
        manager.numAlignedBlocks numMain numSpeculative) :
    ∃ count : Nat, managerDemand requestId numTokens newComputedBlocks
      numEncoderTokens numComputed numMain false manager pool = .ok (count : Int) := by
  by_cases cross : manager.kvCacheSpec.kind = .crossAttention
  · rw [managerDemand_cross cross]
    apply getNumBlocksToAllocate_natural (Or.inl rfl)
    rw [plain_of_cross cross]
    intro _ none
    cases none
  · rw [managerDemand_of_ne cross]
    exact getNumBlocksToAllocate_natural allowed fit

end Demand

end SingleTypeKVCacheManager

end Vllm.KVCache
