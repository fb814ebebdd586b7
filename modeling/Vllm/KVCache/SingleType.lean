import Vllm.KVCache.BlockPool
import Vllm.KVCache.Spec

namespace Vllm.KVCache

open Foundation

/-!
# Managers of one cache group

A manager keeps the block tables of all requests in one group.  The managers of
the different kinds of group share most of their code; Mamba and cross attention
override parts of it.  All managers take their blocks from the same pool, so
every operation takes a pool and returns one.

In `align` mode a Mamba request holds its running state in one block, followed
by blocks for speculative states.  When the request moves on, these speculative
blocks move to the end of the table.
-/

/-- The id that a request has in the engine. -/
abbrev RequestId := String

/-- What cache management reads of a request.  Each block hash is chained
through the one before it, so no two of them are equal. -/
structure Request (H : Type) where
  requestId : RequestId
  numTokens : Nat
  numComputedTokens : Nat
  blockHashes : List H
  blockHashes_nodup : blockHashes.Nodup
  skipReadingPrefixCache : Bool

/-- The exceptions and failed assertions of managers and coordinators. -/
inductive ManagerError where
  | pool (error : PoolError)
  | computedBlocksNotEmpty
  | requestHasBlocks
  | computedWithoutCaching
  | requiredBelowHeld (numRequiredBlocks numReqBlocks : Nat)
  | tooManyNewBlocks (numNewBlocks : Nat)
  | hashMissing (block : BlockId)
  | cachingDisabled
  | noNewTokens
  | lookupFailed
  deriving DecidableEq

/-- The texts of the exceptions that carry one. -/
def ManagerError.message : ManagerError -> Option String
  | .pool error => error.message
  | .computedWithoutCaching =>
    some "Computed blocks should be empty when prefix caching is disabled"
  | .requiredBelowHeld numRequiredBlocks numReqBlocks =>
    some ("num_required_blocks " ++ toString numRequiredBlocks ++ " < len(req_blocks) " ++
      toString numReqBlocks)
  | .cachingDisabled => some "Should not be called as prefix caching is disabled."
  | .noNewTokens =>
    some "num_new_tokens must be greater than 0 when there are no external computed tokens"
  | _ => none

/-- A call of the pool inside a manager. -/
def fromPool {A : Type} : Except PoolError A -> Except ManagerError A
  | .ok value => .ok value
  | .error error => .error (.pool error)

/-- The manager of one cache group.  The kind of its specification says which of
the classes of the source it is.  The last three fields are used by Mamba only. -/
structure SingleTypeKVCacheManager (H : Type) where
  kvCacheSpec : KVCacheSpec
  enableCaching : Bool
  kvCacheGroupId : Nat
  maxAdmissionBlocksPerRequest : Option Nat
  reqToBlocks : Dict RequestId (List BlockId)
  numCachedBlock : RequestId -> Option Nat
  cachedBlocksThisStep : List (BlockHashWithGroupId H)
  lastStateBlockIdx : RequestId -> Option Nat
  allocatedBlockReqs : RequestId -> Bool

namespace SingleTypeKVCacheManager

variable {H : Type}

/-- A manager without tables. -/
def init (kvCacheSpec : KVCacheSpec) (enableCaching : Bool) (kvCacheGroupId : Nat)
    (maxNumBatchedTokens maxModelLen : Nat) : SingleTypeKVCacheManager H where
  kvCacheSpec := kvCacheSpec
  enableCaching := enableCaching
  kvCacheGroupId := kvCacheGroupId
  maxAdmissionBlocksPerRequest :=
    kvCacheSpec.maxAdmissionBlocksPerRequest maxNumBatchedTokens maxModelLen
  reqToBlocks := Dict.empty
  numCachedBlock := fun _ => none
  cachedBlocksThisStep := []
  lastStateBlockIdx := fun _ => none
  allocatedBlockReqs := fun _ => false

variable (manager : SingleTypeKVCacheManager H)

def blockSize : Nat := manager.kvCacheSpec.blockSize

variable (requestId : RequestId)

/-- The table of a request; an unknown request has an empty one. -/
def blocks : List BlockId :=
  (manager.reqToBlocks.get? requestId).getD []

/-- Replace the table of a request. -/
def setBlocks (blocks : List BlockId) : SingleTypeKVCacheManager H :=
  { manager with reqToBlocks := manager.reqToBlocks.set requestId blocks }

def setNumCached (numCached : Option Nat) : SingleTypeKVCacheManager H :=
  { manager with numCachedBlock := Function.update manager.numCachedBlock requestId numCached }

/-- Replace the position of the state of the previous step. -/
def setLastState (blockIdx : Option Nat) : SingleTypeKVCacheManager H :=
  { manager with
    lastStateBlockIdx := Function.update manager.lastStateBlockIdx requestId blockIdx }

def setAllocated (allocated : Bool) : SingleTypeKVCacheManager H :=
  { manager with
    allocatedBlockReqs := Function.update manager.allocatedBlockReqs requestId allocated }

/-- The number of tokens before the attention window of the next token.  For
Mamba the source returns `-1` at zero tokens, which every caller treats as zero. -/
def getNumSkippedTokens (numComputedTokens : Nat) : Nat :=
  match manager.kvCacheSpec.kind with
  | .slidingWindow slidingWindow => numComputedTokens + 1 - slidingWindow
  | .chunkedLocalAttention attentionChunkSize =>
    numComputedTokens / attentionChunkSize * attentionChunkSize
  | .mamba _ _ => numComputedTokens - 1
  | _ => 0

/-- The leading blocks of which all tokens are skipped. -/
def numSkippedBlocks (numComputedTokens : Nat) : Nat :=
  manager.getNumSkippedTokens numComputedTokens / manager.blockSize

variable (pool : BlockPool H)

/-- The hits that are in the free queue, which leave it when they are touched. -/
def getNumEvictableBlocks (blocks : List BlockId) : Nat :=
  (blocks.filter (fun block => pool.refCnt block = 0 /\ block ≠ pool.nullBlock)).length

/-- The count that all managers but Mamba in `align` mode use. -/
def baseNumBlocksToAllocate (requestId : RequestId) (numTokens : Nat)
    (newComputedBlocks : List BlockId) (totalComputedTokens : Nat) (applyAdmissionCap : Bool) :
    Except ManagerError Nat :=
  let numRequiredBlocks := cdiv numTokens manager.blockSize
  let numRequiredBlocks :=
    match applyAdmissionCap, manager.maxAdmissionBlocksPerRequest with
    | true, some cap => min numRequiredBlocks cap
    | _, _ => numRequiredBlocks
  let numReqBlocks := (manager.blocks requestId).length
  if (manager.numCachedBlock requestId).isSome then
    if newComputedBlocks = [] then .ok (numRequiredBlocks - numReqBlocks)
    else .error .computedBlocksNotEmpty
  else
    let numLocalComputedBlocks := newComputedBlocks.length + numReqBlocks
    let numSkippedBlocks := manager.numSkippedBlocks totalComputedTokens
    let numNewBlocks := numRequiredBlocks - max numSkippedBlocks numLocalComputedBlocks
    .ok (numNewBlocks + getNumEvictableBlocks pool
      (newComputedBlocks.drop (numSkippedBlocks - numReqBlocks)))

/-- The count of Mamba in `align` mode.  It can be negative.  A request that was
allocated before reuses its speculative blocks. -/
def alignNumBlocksToAllocate (requestId : RequestId)
    (numTokensMainModel numSpeculativeBlocks : Nat) (newComputedBlocks : List BlockId) : Int :=
  let numRequiredBlocks := cdiv numTokensMainModel manager.blockSize + numSpeculativeBlocks
  let numNewBlocks : Int :=
    numRequiredBlocks - newComputedBlocks.length - (manager.blocks requestId).length
  let numNewBlocks :=
    if 0 < numNewBlocks then
      if manager.allocatedBlockReqs requestId then 1 else 1 + (numSpeculativeBlocks : Int)
    else
      numNewBlocks
  numNewBlocks + getNumEvictableBlocks pool newComputedBlocks

variable [DecidableEq H]

variable (pool : BlockPool H) (requestId : RequestId) (newComputedBlocks : List BlockId)

/-- The last hit of a Mamba lookup was cached in this very step. -/
def hitThisStep : Bool :=
  match newComputedBlocks.getLast? with
  | none => false
  | some block =>
    match pool.blockHash block with
    | none => false
    | some key => manager.cachedBlocksThisStep.contains key

variable (request : Request H) (numTokens : Nat)

/-- The blocks that a request needs in this group.  A hit that was cached in the
same step is not there yet: the request has to wait, which the source makes sure
of by asking for more blocks than there are. -/
def getNumBlocksToAllocate
    (newComputedBlocks : List BlockId) (totalComputedTokens numTokensMainModel : Nat)
    (applyAdmissionCap : Bool) : Except ManagerError Int :=
  match manager.kvCacheSpec.kind with
  | .mamba mambaCacheMode numSpeculativeBlocks =>
    if manager.hitThisStep pool newComputedBlocks then
      .ok (pool.numGpuBlocks + 1)
    else if mambaCacheMode = .align then
      .ok (manager.alignNumBlocksToAllocate pool requestId numTokensMainModel
        numSpeculativeBlocks newComputedBlocks)
    else
      (manager.baseNumBlocksToAllocate pool requestId
        (numTokens + manager.blockSize * numSpeculativeBlocks) newComputedBlocks
        totalComputedTokens applyAdmissionCap).map Int.ofNat
  | _ =>
    (manager.baseNumBlocksToAllocate pool requestId numTokens newComputedBlocks
      totalComputedTokens applyAdmissionCap).map Int.ofNat

omit [DecidableEq H] in
/-- Touch the hits of a new request, unless caching is off and there are none. -/
def touchComputed (computed : List BlockId) : Except ManagerError (BlockPool H) :=
  if manager.enableCaching then fromPool (BlockPool.touch computed pool)
  else if computed = [] then .ok pool
  else .error .computedWithoutCaching

/-- Enter the hits of a new request into its table, and take blocks for the
tokens that a connector loads. -/
def baseAllocateNewComputedBlocks (numLocalComputedTokens numExternalComputedTokens : Nat) :
    Except ManagerError (SingleTypeKVCacheManager H × BlockPool H) :=
  if (manager.numCachedBlock requestId).isSome then
    if newComputedBlocks = [] then .ok (manager, pool) else .error .computedBlocksNotEmpty
  else if manager.blocks requestId ≠ [] then .error .requestHasBlocks
  else
    let numTotalComputedTokens := numLocalComputedTokens + numExternalComputedTokens
    let numSkippedTokens := manager.getNumSkippedTokens numTotalComputedTokens
    let numSkippedBlocks := numSkippedTokens / manager.blockSize
    let newComputedBlocks := newComputedBlocks.drop numSkippedBlocks
    let numExternalComputedTokens :=
      if 0 < numSkippedBlocks then
        min (numTotalComputedTokens - numSkippedTokens) numExternalComputedTokens
      else
        numExternalComputedTokens
    match manager.touchComputed pool newComputedBlocks with
    | .error error => .error error
    | .ok pool =>
      let reqBlocks := List.replicate numSkippedBlocks pool.nullBlock ++ newComputedBlocks
      let manager := (manager.setBlocks requestId reqBlocks).setNumCached requestId
        (some reqBlocks.length)
      if 0 < numExternalComputedTokens then
        match fromPool (pool.getNewBlocks
            ((cdiv numTotalComputedTokens manager.blockSize : Int) - reqBlocks.length)) with
        | .error error => .error error
        | .ok (allocated, pool) =>
          .ok (manager.setBlocks requestId (reqBlocks ++ allocated), pool)
      else
        .ok (manager, pool)

/-- Enter the hits of a new request into its table.  Cross attention accepts none.
-/
def allocateNewComputedBlocks (numLocalComputedTokens numExternalComputedTokens : Nat) :
    Except ManagerError (SingleTypeKVCacheManager H × BlockPool H) :=
  match manager.kvCacheSpec.kind with
  | .crossAttention =>
    if newComputedBlocks = [] then .ok (manager, pool) else .error .computedBlocksNotEmpty
  | _ =>
    manager.baseAllocateNewComputedBlocks pool requestId newComputedBlocks
      numLocalComputedTokens numExternalComputedTokens

/-- Extend a table to the required number of blocks.  The new blocks are
returned as well. -/
def baseAllocateNewBlocks :
    Except ManagerError (List BlockId × SingleTypeKVCacheManager H × BlockPool H) :=
  let reqBlocks := manager.blocks requestId
  let numNewBlocks := cdiv numTokens manager.blockSize - reqBlocks.length
  if numNewBlocks = 0 then
    .ok ([], manager.setBlocks requestId reqBlocks, pool)
  else
    match fromPool (pool.getNewBlocks numNewBlocks) with
    | .error error => .error error
    | .ok (newBlocks, pool) =>
      .ok (newBlocks, manager.setBlocks requestId (reqBlocks ++ newBlocks), pool)

section

omit [DecidableEq H]

/-- Move speculative blocks that are no longer at the end of the table, from
position `blockIdx` on. -/
def reuseSpeculativeBlocks (nullBlock : BlockId) (numSkippedBlocks : Nat) :
    (count blockIdx : Nat) -> List BlockId -> List BlockId
  | 0, _, reqBlocks => reqBlocks
  | count + 1, blockIdx, reqBlocks =>
    if blockIdx < numSkippedBlocks then
      reuseSpeculativeBlocks nullBlock numSkippedBlocks count (blockIdx + 1)
        ((reqBlocks ++ [reqBlocks.getD blockIdx nullBlock]).set blockIdx nullBlock)
    else
      reqBlocks

/-- The table in `align` mode before new blocks are appended. -/
def alignedTable (nullBlock : BlockId) (reqBlocks : List BlockId) (blocksAllocated : Bool)
    (numRequiredBlocks numSpeculativeBlocks : Nat) : List BlockId :=
  let prevBlockLen := reqBlocks.length
  let numSkippedBlocks := numRequiredBlocks - numSpeculativeBlocks - 1
  let reqBlocks := reqBlocks ++ List.replicate (numSkippedBlocks - prevBlockLen) nullBlock
  if blocksAllocated then
    reuseSpeculativeBlocks nullBlock numSkippedBlocks numSpeculativeBlocks
      (prevBlockLen - numSpeculativeBlocks) reqBlocks
  else
    reqBlocks

/-- Record the block that holds the state of the previous step.  After a cache
hit this is the last block of the hit. -/
def recordLastState (requestId : RequestId) (numSpeculativeBlocks prevBlockLen : Nat) :
    SingleTypeKVCacheManager H :=
  if manager.allocatedBlockReqs requestId then
    manager.setLastState requestId (some (prevBlockLen - 1 - numSpeculativeBlocks))
  else if 0 < prevBlockLen then
    manager.setLastState requestId (some (prevBlockLen - 1))
  else
    manager

end

/-- Extend a table in `align` mode. -/
def alignAllocateNewBlocks (numTokensMainModel numSpeculativeBlocks : Nat) :
    Except ManagerError (List BlockId × SingleTypeKVCacheManager H × BlockPool H) :=
  let reqBlocks := manager.blocks requestId
  let prevBlockLen := reqBlocks.length
  let numRequiredBlocks := cdiv numTokensMainModel manager.blockSize + numSpeculativeBlocks
  if numRequiredBlocks = prevBlockLen then
    .ok ([], manager.setBlocks requestId reqBlocks, pool)
  else if numRequiredBlocks < prevBlockLen then
    .error (.requiredBelowHeld numRequiredBlocks prevBlockLen)
  else
    let blocksAllocated := manager.allocatedBlockReqs requestId
    let manager := manager.recordLastState requestId numSpeculativeBlocks prevBlockLen
    let reqBlocks := alignedTable pool.nullBlock reqBlocks blocksAllocated numRequiredBlocks
      numSpeculativeBlocks
    let numNewBlocks := numRequiredBlocks - reqBlocks.length
    if (if blocksAllocated then 1 else numSpeculativeBlocks + 1) < numNewBlocks then
      .error (.tooManyNewBlocks numNewBlocks)
    else
      match fromPool (pool.getNewBlocks numNewBlocks) with
      | .error error => .error error
      | .ok (newBlocks, pool) =>
        let reqBlocks := reqBlocks ++ newBlocks
        .ok (reqBlocks.drop prevBlockLen,
          (manager.setBlocks requestId reqBlocks).setAllocated requestId true, pool)

/-- Take the blocks for new tokens. -/
def allocateNewBlocks (numTokensMainModel : Nat) :
    Except ManagerError (List BlockId × SingleTypeKVCacheManager H × BlockPool H) :=
  match manager.kvCacheSpec.kind with
  | .mamba mambaCacheMode numSpeculativeBlocks =>
    if mambaCacheMode = .align then
      manager.alignAllocateNewBlocks pool requestId numTokensMainModel numSpeculativeBlocks
    else
      manager.baseAllocateNewBlocks pool requestId
        (numTokens + manager.blockSize * numSpeculativeBlocks)
  | _ => manager.baseAllocateNewBlocks pool requestId numTokens

/-- Cache the blocks of a request that have become full. -/
def baseCacheBlocks : Except ManagerError (SingleTypeKVCacheManager H × BlockPool H) :=
  let numCachedBlocks := (manager.numCachedBlock request.requestId).getD 0
  let numFullBlocks := numTokens / manager.blockSize
  if numFullBlocks <= numCachedBlocks then .ok (manager, pool)
  else
    match fromPool (pool.cacheFullBlocks request.blockHashes (manager.blocks request.requestId)
        numCachedBlocks numFullBlocks manager.blockSize manager.kvCacheGroupId) with
    | .error error => .error error
    | .ok pool =>
      let reqBlocks := manager.blocks request.requestId
      .ok ((manager.setBlocks request.requestId reqBlocks).setNumCached request.requestId
        (some numFullBlocks), pool)

omit [DecidableEq H] in
/-- The hashes of the blocks that are cached in this step. -/
def collectKeys (pool : BlockPool H) :
    List BlockId -> Except ManagerError (List (BlockHashWithGroupId H))
  | [] => .ok []
  | block :: rest =>
    if block = pool.nullBlock then collectKeys pool rest
    else
      match pool.blockHash block with
      | none => .error (.hashMissing block)
      | some key =>
        match collectKeys pool rest with
        | .error error => .error error
        | .ok keys => .ok (key :: keys)

/-- Mamba remembers what was cached in the current step. -/
def mambaCacheBlocks : Except ManagerError (SingleTypeKVCacheManager H × BlockPool H) :=
  let before := (manager.numCachedBlock request.requestId).getD 0
  match manager.baseCacheBlocks pool request numTokens with
  | .error error => .error error
  | .ok (manager, pool) =>
    let after := (manager.numCachedBlock request.requestId).getD 0
    match collectKeys pool (((manager.blocks request.requestId).take after).drop before) with
    | .error error => .error error
    | .ok keys =>
      .ok ({ manager with cachedBlocksThisStep := keys ++ manager.cachedBlocksThisStep }, pool)

/-- Cache the full blocks of a request.  Mamba remembers their hashes for this
step. -/
def cacheBlocks : Except ManagerError (SingleTypeKVCacheManager H × BlockPool H) :=
  match manager.kvCacheSpec.kind with
  | .crossAttention => .error .cachingDisabled
  | .mamba _ _ => manager.mambaCacheBlocks pool request numTokens
  | _ => manager.baseCacheBlocks pool request numTokens

omit [DecidableEq H]

/-- Mamba in `align` mode forgets the state of a request that is freed. -/
def forgetState : SingleTypeKVCacheManager H :=
  match manager.kvCacheSpec.kind with
  | .mamba .align _ => (manager.setAllocated requestId false).setLastState requestId none
  | _ => manager

/-- Give up the table of a request, the last block first. -/
def free : Except ManagerError (SingleTypeKVCacheManager H × BlockPool H) :=
  let manager := manager.forgetState requestId
  match fromPool (pool.freeBlocks (manager.blocks requestId).reverse) with
  | .error error => .error error
  | .ok pool =>
    .ok ({ manager with reqToBlocks := manager.reqToBlocks.erase requestId }.setNumCached
      requestId none, pool)

/-- Replace blocks by the null block, from position `i - 1` down to the first
one that was replaced before.  The first result are the replaced blocks. -/
def skipLoop (nullBlock : BlockId) : (i : Nat) -> List BlockId -> List BlockId × List BlockId
  | 0, blocks => ([], blocks)
  | i + 1, blocks =>
    let block := blocks.getD i nullBlock
    if block = nullBlock then ([], blocks)
    else
      let rest := skipLoop nullBlock i (blocks.set i nullBlock)
      (block :: rest.1, rest.2)

/-- Replace the blocks that are skipped by the null block and give them up, from
the last one down to the first that was replaced before. -/
def baseRemoveSkippedBlocks (totalComputedTokens : Nat) :
    Except ManagerError (SingleTypeKVCacheManager H × BlockPool H) :=
  if manager.getNumSkippedTokens totalComputedTokens = 0 then .ok (manager, pool)
  else
    let blocks := manager.blocks requestId
    let numSkippedBlocks := min (manager.numSkippedBlocks totalComputedTokens) blocks.length
    let result := skipLoop pool.nullBlock numSkippedBlocks blocks
    match fromPool (pool.freeBlocks result.1) with
    | .error error => .error error
    | .ok pool => .ok (manager.setBlocks requestId result.2, pool)

/-- Free the state block of an earlier step in `align` mode. -/
def freeLastState (numComputedTokens : Nat) :
    Except ManagerError (SingleTypeKVCacheManager H × BlockPool H) :=
  match manager.lastStateBlockIdx requestId with
  | none => .ok (manager, pool)
  | some blockIdx =>
    let blocks := manager.blocks requestId
    let block := blocks.getD blockIdx pool.nullBlock
    if blockIdx < cdiv numComputedTokens manager.blockSize - 1 /\ block ≠ pool.nullBlock then
      match fromPool (pool.freeBlocks [block]) with
      | .error error => .error error
      | .ok pool => .ok (manager.setBlocks requestId (blocks.set blockIdx pool.nullBlock), pool)
    else
      .ok (manager, pool)

/-- Remove the skipped blocks.  For Mamba all drafts of the previous step may
still be rejected, so their number is taken off first. -/
def removeSkippedBlocks (totalComputedTokens : Nat) :
    Except ManagerError (SingleTypeKVCacheManager H × BlockPool H) :=
  match manager.kvCacheSpec.kind with
  | .mamba mambaCacheMode numSpeculativeBlocks =>
    let numComputedTokens := totalComputedTokens - numSpeculativeBlocks
    match manager.baseRemoveSkippedBlocks pool requestId numComputedTokens with
    | .error error => .error error
    | .ok (manager, pool) =>
      if mambaCacheMode = .align then manager.freeLastState pool requestId numComputedTokens
      else .ok (manager, pool)
  | _ => manager.baseRemoveSkippedBlocks pool requestId totalComputedTokens

/-- A new step begins. -/
def newStepStarts : SingleTypeKVCacheManager H :=
  match manager.kvCacheSpec.kind with
  | .mamba _ _ => { manager with cachedBlocksThisStep := [] }
  | _ => manager

end SingleTypeKVCacheManager

end Vllm.KVCache
