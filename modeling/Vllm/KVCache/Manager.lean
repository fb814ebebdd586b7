import Vllm.Foundation.Sweep
import Vllm.KVCache.HybridLookup
import Vllm.KVCache.SingleType

namespace Vllm.KVCache

/-!
# The coordinator and the cache manager

The coordinator holds the pool and one manager for each cache group, and runs
every operation on the managers in the order of their group ids.  The three
kinds of coordinator differ only in how they look up the cache.

The main operation of the cache manager is `allocateSlots`: free what left the
attention window, check that the pool has enough blocks, enter the hits, take new
blocks, and cache the full ones.
-/

/-- The coordinators, with the configurations that their assertions allow. -/
inductive CoordinatorConfig where
  | noPrefixCache (kvCacheGroups : List KVCacheGroupSpec) (hashBlockSize : Nat)
  | unitary (group : KVCacheGroupSpec) (useEagle : Bool)
  | hybrid (config : HybridConfig)

namespace CoordinatorConfig

/-- The groups of a configuration. -/
def kvCacheGroups : CoordinatorConfig -> List KVCacheGroupSpec
  | .noPrefixCache kvCacheGroups _ => kvCacheGroups
  | .unitary group _ => [group]
  | .hybrid config => config.kvCacheGroups

def hashBlockSize : CoordinatorConfig -> Nat
  | .noPrefixCache _ hashBlockSize => hashBlockSize
  | .unitary group _ => group.kvCacheSpec.blockSize
  | .hybrid config => config.hashBlockSize

/-- Whether the configuration has prefix caching. -/
def enableCaching : CoordinatorConfig -> Bool
  | .noPrefixCache _ _ => false
  | _ => true

end CoordinatorConfig

/-- The coordinator: one manager for each cache group, all on the same pool. -/
structure KVCacheCoordinator (H : Type) where
  config : CoordinatorConfig
  blockPool : BlockPool H
  singleTypeManagers : List (SingleTypeKVCacheManager H)

/-- Run an operation on all managers in turn and collect what it returns. -/
def forManagers {H A : Type}
    (visit : SingleTypeKVCacheManager H -> BlockPool H ->
      Except ManagerError (A × SingleTypeKVCacheManager H × BlockPool H)) :
    List (SingleTypeKVCacheManager H) -> BlockPool H ->
      Except ManagerError (List A × List (SingleTypeKVCacheManager H) × BlockPool H) :=
  Foundation.sweep visit

/-- An operation that returns nothing. -/
def silently {H : Type}
    (visit : SingleTypeKVCacheManager H -> BlockPool H ->
      Except ManagerError (SingleTypeKVCacheManager H × BlockPool H))
    (manager : SingleTypeKVCacheManager H) (pool : BlockPool H) :
    Except ManagerError (Unit × SingleTypeKVCacheManager H × BlockPool H) :=
  match visit manager pool with
  | .error error => .error error
  | .ok result => .ok ((), result)

namespace KVCacheCoordinator

variable {H : Type}

def init (config : CoordinatorConfig) (numBlocks maxNumBatchedTokens maxModelLen : Nat) :
    Except ManagerError (KVCacheCoordinator H) :=
  match BlockPool.init numBlocks config.enableCaching config.hashBlockSize with
  | .error error => .error (.pool error)
  | .ok blockPool =>
    .ok
      { config := config
        blockPool := blockPool
        singleTypeManagers := config.kvCacheGroups.mapIdx (fun groupId group =>
          SingleTypeKVCacheManager.init group.kvCacheSpec config.enableCaching groupId
            maxNumBatchedTokens maxModelLen) }

variable (coordinator : KVCacheCoordinator H)

/-- Run an operation on all managers and keep the new state. -/
def run {A : Type}
    (visit : SingleTypeKVCacheManager H -> BlockPool H ->
      Except ManagerError (A × SingleTypeKVCacheManager H × BlockPool H)) :
    Except ManagerError (List A × KVCacheCoordinator H) :=
  match forManagers visit coordinator.singleTypeManagers coordinator.blockPool with
  | .error error => .error error
  | .ok (outputs, managers, pool) =>
    .ok (outputs, { coordinator with singleTypeManagers := managers, blockPool := pool })

/-- The longest hit that all groups have, with its number of tokens. -/
def findLongestCacheHit (blockHashes : List H) (maxCacheHitLength : Nat) :
    Option (List (List BlockId) × Nat) :=
  match coordinator.config with
  | .noPrefixCache kvCacheGroups _ => some (kvCacheGroups.map (fun _ => []), 0)
  | .unitary group useEagle =>
    let spec := group.kvCacheSpec
    match KVCache.findLongestCacheHit coordinator.blockPool blockHashes maxCacheHitLength [0] spec
        (group.isEagleGroup || useEagle) spec.blockSize with
    | none => none
    | some rows =>
      some ([column coordinator.blockPool.nullBlock rows 0], rows.length * spec.blockSize)
  | .hybrid config =>
    findLongestCommonHit config coordinator.blockPool blockHashes maxCacheHitLength

/-- Remove the skipped blocks in every group. -/
def removeSkippedBlocks (requestId : RequestId) (totalComputedTokens : Nat) :
    Except ManagerError (List Unit × KVCacheCoordinator H) :=
  coordinator.run (silently (fun manager pool =>
    manager.removeSkippedBlocks pool requestId totalComputedTokens))

def free (requestId : RequestId) : Except ManagerError (List Unit × KVCacheCoordinator H) :=
  coordinator.run (silently (fun manager pool => manager.free pool requestId))

def newStepStarts : KVCacheCoordinator H :=
  { coordinator with
    singleTypeManagers := coordinator.singleTypeManagers.map
      SingleTypeKVCacheManager.newStepStarts }

variable [DecidableEq H]

variable (requestId : RequestId)

variable (numTokens : Nat) (newComputedBlocks : List (List BlockId))

variable (numEncoderTokens totalComputedTokens numTokensMainModel : Nat)

/-- The demand of one manager.  Cross attention is sized by the encoder. -/
def managerDemand (applyAdmissionCap : Bool)
    (manager : SingleTypeKVCacheManager H) (pool : BlockPool H) : Except ManagerError Int :=
  match manager.kvCacheSpec.kind with
  | .crossAttention =>
    manager.getNumBlocksToAllocate pool requestId numEncoderTokens [] 0 numEncoderTokens
      applyAdmissionCap
  | _ =>
    manager.getNumBlocksToAllocate pool requestId numTokens
      (newComputedBlocks.getD manager.kvCacheGroupId []) totalComputedTokens numTokensMainModel
      applyAdmissionCap

omit [DecidableEq H] in
/-- The blocks that all groups need together. -/
def totalDemand (demand : SingleTypeKVCacheManager H -> Except ManagerError Int) :
    List (SingleTypeKVCacheManager H) -> Except ManagerError Int
  | [] => .ok 0
  | manager :: rest =>
    match demand manager with
    | .error error => .error error
    | .ok numBlocks =>
      match totalDemand demand rest with
      | .error error => .error error
      | .ok others => .ok (numBlocks + others)

/-- The blocks that a request needs in all groups.  For cross attention the number
of tokens is that of the encoder. -/
def getNumBlocksToAllocate (applyAdmissionCap : Bool) : Except ManagerError Int :=
  totalDemand (fun manager => managerDemand requestId numTokens newComputedBlocks numEncoderTokens
    totalComputedTokens numTokensMainModel applyAdmissionCap manager coordinator.blockPool)
    coordinator.singleTypeManagers

/-- Enter the hits and take blocks for external tokens, one group after the other.
-/
def allocateNewComputedBlocks (numLocalComputedTokens numExternalComputedTokens : Nat) :
    Except ManagerError (List Unit × KVCacheCoordinator H) :=
  coordinator.run (silently (fun manager pool =>
    manager.allocateNewComputedBlocks pool requestId
      (newComputedBlocks.getD manager.kvCacheGroupId []) numLocalComputedTokens
      numExternalComputedTokens))

/-- Take the blocks for new tokens in every group. -/
def allocateNewBlocks (numEncoderTokens : Nat) :
    Except ManagerError (List (List BlockId) × KVCacheCoordinator H) :=
  coordinator.run (fun manager pool =>
    manager.allocateNewBlocks pool requestId
      (match manager.kvCacheSpec.kind with
        | .crossAttention => numEncoderTokens
        | _ => numTokens)
      numTokensMainModel)

def cacheBlocks (request : Request H) (numComputedTokens : Nat) :
    Except ManagerError (List Unit × KVCacheCoordinator H) :=
  coordinator.run (silently (fun manager pool =>
    manager.cacheBlocks pool request numComputedTokens))

end KVCacheCoordinator

/-- The cache manager that the scheduler talks to. -/
structure KVCacheManager (H : Type) where
  maxModelLen : Nat
  coordinator : KVCacheCoordinator H

/-- The arguments of `allocateSlots` besides the request. -/
structure SlotDemand where
  numNewTokens : Nat
  numNewComputedTokens : Nat
  newComputedBlocks : List (List BlockId)
  numLookaheadTokens : Nat
  numExternalComputedTokens : Nat
  delayCacheBlocks : Bool
  numEncoderTokens : Nat

namespace KVCacheManager

variable {H : Type}

def init (config : CoordinatorConfig) (numBlocks maxNumBatchedTokens maxModelLen : Nat) :
    Except ManagerError (KVCacheManager H) :=
  match KVCacheCoordinator.init config numBlocks maxNumBatchedTokens maxModelLen with
  | .error error => .error error
  | .ok coordinator => .ok ⟨maxModelLen, coordinator⟩

variable (manager : KVCacheManager H)

def enableCaching : Bool := manager.coordinator.config.enableCaching

/-- The cached blocks of a request and the number of their tokens.  The last
token is always computed, because its logits are needed. -/
def getComputedBlocks (request : Request H) :
    Except ManagerError (List (List BlockId) × Nat) :=
  if manager.enableCaching = false \/ request.skipReadingPrefixCache then
    .ok (manager.coordinator.config.kvCacheGroups.map (fun _ => []), 0)
  else
    match manager.coordinator.findLongestCacheHit request.blockHashes (request.numTokens - 1) with
    | none => .error .lookupFailed
    | some result => .ok result

/-- A call of the coordinator. -/
def withCoordinator {A : Type} :
    Except ManagerError (A × KVCacheCoordinator H) -> Except ManagerError (KVCacheManager H)
  | .error error => .error error
  | .ok (_, coordinator) => .ok { manager with coordinator := coordinator }

def free (requestId : RequestId) : Except ManagerError (KVCacheManager H) :=
  manager.withCoordinator (manager.coordinator.free requestId)

def removeSkippedBlocks (requestId : RequestId) (totalComputedTokens : Nat) :
    Except ManagerError (KVCacheManager H) :=
  manager.withCoordinator (manager.coordinator.removeSkippedBlocks requestId totalComputedTokens)

def resetPrefixCache : Bool × KVCacheManager H :=
  let result := manager.coordinator.blockPool.resetPrefixCache
  (result.1, { manager with coordinator := { manager.coordinator with blockPool := result.2 } })

def newStepStarts : KVCacheManager H :=
  { manager with coordinator := manager.coordinator.newStepStarts }

variable [DecidableEq H]

def evictBlocks (blockIds : List BlockId) : Except ManagerError (KVCacheManager H) :=
  match manager.coordinator.blockPool.evictBlocks blockIds with
  | .error error => .error (.pool error)
  | .ok pool => .ok { manager with coordinator := { manager.coordinator with blockPool := pool } }

def cacheBlocks (request : Request H) (numComputedTokens : Nat) :
    Except ManagerError (KVCacheManager H) :=
  if manager.enableCaching then
    manager.withCoordinator (manager.coordinator.cacheBlocks request numComputedTokens)
  else
    .ok manager

section

omit [DecidableEq H]

variable (request : Request H) (demand : SlotDemand)

/-- The computed tokens with those of the hits. -/
def numLocalComputedTokens : Nat :=
  request.numComputedTokens + demand.numNewComputedTokens

/-- The computed tokens with those of a connector, up to the maximal length. -/
def totalComputedTokens : Nat :=
  min (numLocalComputedTokens request demand + demand.numExternalComputedTokens)
    manager.maxModelLen

/-- All tokens that have a slot after the call, up to the maximal length. -/
def numTokensMainModel : Nat :=
  manager.totalComputedTokens request demand + demand.numNewTokens

/-- The same with the slots that are reserved for drafts. -/
def numTokensNeedSlot : Nat :=
  min (manager.numTokensMainModel request demand + demand.numLookaheadTokens) manager.maxModelLen

end

variable (request : Request H) (demand : SlotDemand)

/-- Whether a whole request would fit into what is free. -/
def canFitFullSequence : Except ManagerError Bool :=
  let fullNumTokens := min request.numTokens manager.maxModelLen
  match manager.coordinator.getNumBlocksToAllocate request.requestId fullNumTokens
      demand.newComputedBlocks demand.numEncoderTokens
      (manager.totalComputedTokens request demand) fullNumTokens true with
  | .error error => .error error
  | .ok numBlocks => .ok (numBlocks <= manager.coordinator.blockPool.getNumFreeBlocks)

variable (coordinator : KVCacheCoordinator H)

/-- Enter the hits and the blocks of a connector into the tables. -/
def enterComputed : Except ManagerError (List Unit × KVCacheCoordinator H) :=
  if demand.newComputedBlocks.any (fun blocks => !blocks.isEmpty) \/
      0 < demand.numExternalComputedTokens then
    coordinator.allocateNewComputedBlocks request.requestId demand.newComputedBlocks
      (numLocalComputedTokens request demand) demand.numExternalComputedTokens
  else
    .ok ([], coordinator)

/-- Cache the full blocks, unless a transfer has to fill them first.  Draft
tokens may be rejected, so only known tokens are cached. -/
def commitBlocks : Except ManagerError (List Unit × KVCacheCoordinator H) :=
  if manager.enableCaching = false \/ demand.delayCacheBlocks then .ok ([], coordinator)
  else
    coordinator.cacheBlocks request
      (min (manager.totalComputedTokens request demand + demand.numNewTokens) request.numTokens)

/-- The part of `allocateSlots` after the check for free blocks. -/
def takeSlots : Except ManagerError (List (List BlockId) × KVCacheCoordinator H) :=
  match enterComputed request demand coordinator with
  | .error error => .error error
  | .ok (_, coordinator) =>
    match coordinator.allocateNewBlocks request.requestId
        (manager.numTokensNeedSlot request demand) (manager.numTokensMainModel request demand)
        demand.numEncoderTokens with
    | .error error => .error error
    | .ok (newBlocks, coordinator) =>
      match manager.commitBlocks request demand coordinator with
      | .error error => .error error
      | .ok (_, coordinator) => .ok (newBlocks, coordinator)

/-- Slots for new tokens of a request, or nothing if the pool has too few free
blocks. -/
def allocateSlots : Except ManagerError (Option (List (List BlockId)) × KVCacheManager H) :=
  if demand.numNewTokens = 0 /\ demand.numExternalComputedTokens = 0 then .error .noNewTokens
  else
    match manager.coordinator.removeSkippedBlocks request.requestId
        (manager.totalComputedTokens request demand) with
    | .error error => .error error
    | .ok (_, coordinator) =>
      match coordinator.getNumBlocksToAllocate request.requestId
          (manager.numTokensNeedSlot request demand) demand.newComputedBlocks
          demand.numEncoderTokens
          (numLocalComputedTokens request demand + demand.numExternalComputedTokens)
          (manager.numTokensMainModel request demand) false with
      | .error error => .error error
      | .ok numBlocksToAllocate =>
        if coordinator.blockPool.getNumFreeBlocks < numBlocksToAllocate then
          .ok (none, { manager with coordinator := coordinator })
        else
          match manager.takeSlots request demand coordinator with
          | .error error => .error error
          | .ok (newBlocks, coordinator) =>
            .ok (some newBlocks, { manager with coordinator := coordinator })

end KVCacheManager

end Vllm.KVCache
