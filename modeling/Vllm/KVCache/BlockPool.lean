import Vllm.Foundation.Dict
import Vllm.KVCache.FreeQueue

namespace Vllm.KVCache

open Foundation Function

/-!
# The block pool

The pool owns all blocks.  A block has a reference count and, when it is full
and cached, a hash key.  A cached block can be found by its key, whether it is
in use or waits in the free queue for its eviction.

A key is the hash of a block together with the id of its cache group.  Where a
group's blocks are larger than the blocks that requests are hashed by, the hash
of a block is the list of several request hashes.
-/

/-- The block hash of a group's block: one or several request hashes. -/
abbrev BlockHash (H : Type) := List H

/-- A block hash packed together with the group id. -/
structure BlockHashWithGroupId (H : Type) where
  blockHash : BlockHash H
  groupId : Nat
  deriving DecidableEq

/-- The blocks stored under one key: a bare block, or a dictionary of several. -/
inductive CachedBlocks where
  | single (block : BlockId)
  | several (blocks : Dict BlockId BlockId)

/-- The lookup table of cached blocks. -/
abbrev BlockHashToBlockMap (H : Type) := BlockHashWithGroupId H -> Option CachedBlocks

namespace BlockHashToBlockMap

variable {H : Type}

def empty : BlockHashToBlockMap H := fun _ => none

/-- Any block under the key; of several, the one inserted first. -/
def getOneBlock (cache : BlockHashToBlockMap H) (key : BlockHashWithGroupId H) : Option BlockId :=
  match cache key with
  | none => none
  | some (.single block) => some block
  | some (.several blocks) => blocks.values.head?

variable [DecidableEq H]

variable (cache : BlockHashToBlockMap H) (key : BlockHashWithGroupId H)

/-- Enter a block under a key, beside those that are there. -/
def insert (block : BlockId) : BlockHashToBlockMap H :=
  match cache key with
  | none => update cache key (some (.single block))
  | some (.single other) =>
    update cache key (some (.several ((Dict.empty.set other other).set block block)))
  | some (.several blocks) => update cache key (some (.several (blocks.set block block)))

/-- Remove one block from a key.  The result tells whether it was there. -/
def pop (blockId : BlockId) : Option BlockId × BlockHashToBlockMap H :=
  match cache key with
  | none => (none, cache)
  | some (.single block) =>
    if block = blockId then (some block, update cache key none) else (none, cache)
  | some (.several blocks) =>
    let rest := blocks.erase blockId
    (blocks.get? blockId,
      update cache key (if rest.entries.isEmpty then none else some (.several rest)))

end BlockHashToBlockMap

/-- The exceptions and failed assertions of the pool. -/
inductive PoolError where
  | queue (error : QueueError)
  | cannotGetBlocks (numBlocks : Int)
  | refCntNotZero (block : BlockId)
  | hashesMissing
  | alreadyHashed (block : BlockId)
  | invalidBlockId (block : BlockId)
  deriving DecidableEq

/-- The texts of the exceptions that carry one. -/
def PoolError.message : PoolError -> Option String
  | .cannotGetBlocks numBlocks =>
    some ("Cannot get " ++ toString numBlocks ++ " free blocks from the pool")
  | .queue .noFreeBlocks => some "No free blocks available"
  | .queue (.outOfSync numFreeBlocks) =>
    some ("num_free_blocks (" ++ toString numFreeBlocks ++
      ") is out of sync with the free list.")
  | .queue .tailMissing => some "prev_free_block of fake_free_list_tail should always exist"
  | _ => none

/-- The pool.  Block objects are ids, and their reference counts and hashes are
maps. The reference count of the null block is not maintained by the source. -/
structure BlockPool (H : Type) where
  numGpuBlocks : Nat
  enableCaching : Bool
  hashBlockSize : Nat
  refCnt : BlockId -> Int
  blockHash : BlockId -> Option (BlockHashWithGroupId H)
  freeBlockQueue : FreeKVCacheBlockQueue
  cachedBlockHashToBlock : BlockHashToBlockMap H
  nullBlock : BlockId

namespace BlockPool

variable {H : Type}

/-- All blocks start free, except that the first one becomes the null block. -/
def init (numGpuBlocks : Nat) (enableCaching : Bool) (hashBlockSize : Nat) :
    Except PoolError (BlockPool H) :=
  match (FreeKVCacheBlockQueue.init (List.range numGpuBlocks)).popleft with
  | .error error => .error (.queue error)
  | .ok (nullBlock, freeBlockQueue) =>
    .ok
      { numGpuBlocks := numGpuBlocks
        enableCaching := enableCaching
        hashBlockSize := hashBlockSize
        refCnt := fun _ => 0
        blockHash := fun _ => none
        freeBlockQueue := freeBlockQueue
        cachedBlockHashToBlock := BlockHashToBlockMap.empty
        nullBlock := nullBlock }

variable (pool : BlockPool H)

/-- The count of the free queue. -/
def getNumFreeBlocks : Int := pool.freeBlockQueue.numFreeBlocks

variable (block : BlockId)

/-- Replace the reference count of one block. -/
def setRefCnt (refCnt : Int) : BlockPool H :=
  { pool with refCnt := update pool.refCnt block refCnt }

/-- Give a block a hash, or take it away. -/
def setHash (hash : Option (BlockHashWithGroupId H)) : BlockPool H :=
  { pool with blockHash := update pool.blockHash block hash }

/-- The cached blocks of one hash, one for each group, if no group misses it. -/
def getCachedBlock (pool : BlockPool H) (blockHash : BlockHash H) :
    List Nat -> Option (List BlockId)
  | [] => some []
  | groupId :: groupIds =>
    match pool.cachedBlockHashToBlock.getOneBlock ⟨blockHash, groupId⟩ with
    | none => none
    | some block =>
      match pool.getCachedBlock blockHash groupIds with
      | none => none
      | some blocks => some (block :: blocks)

/-- The hash of the `index`-th block of `blockSize` tokens, from the hashes of
the request's blocks of `hashBlockSize` tokens. -/
def blockHashAt (hashBlockSize blockSize : Nat) (blockHashes : List H) (index : Nat) :
    Option (BlockHash H) :=
  let scaleFactor := blockSize / hashBlockSize
  let base := index * scaleFactor
  if base + scaleFactor <= blockHashes.length then
    some ((blockHashes.drop base).take scaleFactor)
  else
    none

variable [DecidableEq H]

/-- Give each new full block its hash and enter it into the table.  Null blocks
stand for skipped positions and are never cached. -/
def cacheLoop (kvCacheGroupId blockSize : Nat) (blockHashes : List H) :
    (index : Nat) -> List BlockId -> BlockPool H -> Except PoolError (BlockPool H)
  | _, [], pool => .ok pool
  | index, block :: rest, pool =>
    if block = pool.nullBlock then
      cacheLoop kvCacheGroupId blockSize blockHashes (index + 1) rest pool
    else
      match pool.blockHash block, blockHashAt pool.hashBlockSize blockSize blockHashes index with
      | some _, _ => .error (.alreadyHashed block)
      | none, none => .error .hashesMissing
      | none, some blockHash =>
        let key := ⟨blockHash, kvCacheGroupId⟩
        let pool := pool.setHash block (some key)
        cacheLoop kvCacheGroupId blockSize blockHashes (index + 1) rest
          { pool with
            cachedBlockHashToBlock := pool.cachedBlockHashToBlock.insert key block }

variable (pool : BlockPool H)

/-- Cache the blocks of a request that have become full since the last call. -/
def cacheFullBlocks (blockHashes : List H) (blocks : List BlockId)
    (numCachedBlocks numFullBlocks blockSize kvCacheGroupId : Nat) :
    Except PoolError (BlockPool H) :=
  if numFullBlocks <= numCachedBlocks then .ok pool
  else if blockHashes.length < numFullBlocks then .error .hashesMissing
  else
    cacheLoop kvCacheGroupId blockSize blockHashes numCachedBlocks
      ((blocks.take numFullBlocks).drop numCachedBlocks) pool

/-- Forget the hash of a block that is about to be used for something else. -/
def maybeEvictCachedBlock (block : BlockId) : BlockPool H :=
  match pool.blockHash block with
  | none => pool
  | some key =>
    match pool.cachedBlockHashToBlock.pop key block with
    | (none, cache) => { pool with cachedBlockHashToBlock := cache }
    | (some _, cache) => { pool with cachedBlockHashToBlock := cache }.setHash block none

/-- Take hold of the blocks that were just popped from the free queue. -/
def claimLoop : List BlockId -> BlockPool H -> Except PoolError (BlockPool H)
  | [], pool => .ok pool
  | block :: rest, pool =>
    let pool := if pool.enableCaching then pool.maybeEvictCachedBlock block else pool
    if pool.refCnt block ≠ 0 then .error (.refCntNotZero block)
    else claimLoop rest (pool.setRefCnt block (pool.refCnt block + 1))

/-- Take blocks from the front of the free queue and forget their hashes.  The
count is an integer as in the source, where a negative one is not refused. -/
def getNewBlocks (numBlocks : Int) : Except PoolError (List BlockId × BlockPool H) :=
  if pool.getNumFreeBlocks < numBlocks then .error (.cannotGetBlocks numBlocks)
  else
    match pool.freeBlockQueue.popleftN numBlocks with
    | .error error => .error (.queue error)
    | .ok (blocks, freeBlockQueue) =>
      match claimLoop blocks { pool with freeBlockQueue := freeBlockQueue } with
      | .error error => .error error
      | .ok pool => .ok (blocks, pool)

section

omit [DecidableEq H]

/-- Take hold of blocks that a request found in the cache.  A block without
references waits in the free queue and has to leave it. -/
def touch : List BlockId -> BlockPool H -> Except PoolError (BlockPool H)
  | [], pool => .ok pool
  | block :: rest, pool =>
    if pool.refCnt block = 0 /\ block ≠ pool.nullBlock then
      match pool.freeBlockQueue.remove block with
      | .error error => .error (.queue error)
      | .ok freeBlockQueue =>
        touch rest ({ pool with freeBlockQueue := freeBlockQueue }.setRefCnt block
          (pool.refCnt block + 1))
    else
      touch rest (pool.setRefCnt block (pool.refCnt block + 1))

/-- Lower the reference count once for each occurrence. -/
def releaseAll : List BlockId -> BlockPool H -> BlockPool H
  | [], pool => pool
  | block :: rest, pool => releaseAll rest (pool.setRefCnt block (pool.refCnt block - 1))

/-- Give up one reference to each of the blocks.  Those without references go to
the end of the free queue in this order, with their hashes. -/
def freeBlocks (pool : BlockPool H) (orderedBlocks : List BlockId) :
    Except PoolError (BlockPool H) :=
  let released := releaseAll orderedBlocks pool
  let freed := orderedBlocks.filter
    (fun block => released.refCnt block = 0 /\ block ≠ released.nullBlock)
  match released.freeBlockQueue.appendN freed with
  | .error error => .error (.queue error)
  | .ok freeBlockQueue => .ok { released with freeBlockQueue := freeBlockQueue }

end

/-- Forget the hashes of the given blocks. -/
def evictBlocks : List BlockId -> BlockPool H -> Except PoolError (BlockPool H)
  | [], pool => .ok pool
  | block :: rest, pool =>
    if pool.numGpuBlocks <= block then .error (.invalidBlockId block)
    else evictBlocks rest (pool.maybeEvictCachedBlock block)

omit [DecidableEq H] in
/-- Forget all hashes, unless a block other than the null block is in use. -/
def resetPrefixCache : Bool × BlockPool H :=
  if (pool.numGpuBlocks : Int) - pool.getNumFreeBlocks ≠ 1 then (false, pool)
  else
    (true,
      { pool with
        cachedBlockHashToBlock := BlockHashToBlockMap.empty
        blockHash := fun _ => none })

end BlockPool

end Vllm.KVCache
