import Vllm.KVCache.BlockPool
import Vllm.KVCache.Spec

namespace Vllm.KVCache

/-!
# Looking up the longest cached beginning in one group

Each kind of group has its own rule for which cached blocks make a hit.  The
lookups work on all groups of one specification at once: a row holds the cached
blocks of one position, one block for each group, and a position that misses in
any group misses in all.  The result of a lookup is a list of rows, which are
the block tables of the groups read position by position.

A lookup that fails an assertion, or that its manager does not implement,
returns nothing.
-/

/-- The blocks of one position, one for each group. -/
abbrev Row := List BlockId

section Scan

variable (cached : Nat -> Option Row) (blockSize alignmentTokens : Nat) (useEagle : Bool)

/-- Rows from `index` on, until `count` are found or one misses. -/
def takeCached : (count index : Nat) -> List Row
  | 0, _ => []
  | count + 1, index =>
    match cached index with
    | some row => row :: takeCached count (index + 1)
    | none => []

/-- Drop blocks at the end until the length is a multiple of the alignment. -/
def popUntilAligned : (fuel : Nat) -> List Row -> List Row
  | 0, rows => rows
  | fuel + 1, rows =>
    if blockSize ≠ alignmentTokens /\ rows.length * blockSize % alignmentTokens ≠ 0 then
      popUntilAligned fuel rows.dropLast
    else
      rows

/-- Every round of the loop pops a row, so their number is enough fuel. -/
def alignRows (rows : List Row) : List Row :=
  popUntilAligned blockSize alignmentTokens rows.length rows

/-- The lookup of full attention: the leading blocks that are cached. -/
def fullAttentionHit (maxNumBlocks : Nat) : List Row :=
  let computedBlocks := takeCached cached maxNumBlocks 0
  let computedBlocks := if useEagle then computedBlocks.dropLast else computedBlocks
  alignRows blockSize alignmentTokens computedBlocks

/-- The search of the sliding-window lookup from right to left.  The first
argument is one more than the position that is looked at.  If no run is long
enough for the window, the run that reaches the first block is a hit by
itself. -/
def slidingWindowScan (contiguousBlocks : Nat) :
    Nat -> (computedBlocks : List Row) -> (numContiguousBlocks : Nat) -> List Row
  | 0, computedBlocks, numContiguousBlocks =>
    alignRows blockSize alignmentTokens (computedBlocks.take numContiguousBlocks)
  | i + 1, computedBlocks, numContiguousBlocks =>
    match cached i with
    | none => slidingWindowScan contiguousBlocks i computedBlocks 0
    | some row =>
      let postPopBlocks := if useEagle then i else i + 1
      if numContiguousBlocks = 0 /\ blockSize ≠ alignmentTokens /\
          postPopBlocks * blockSize % alignmentTokens ≠ 0 then
        slidingWindowScan contiguousBlocks i computedBlocks numContiguousBlocks
      else
        let computedBlocks := computedBlocks.set i row
        let numContiguousBlocks := numContiguousBlocks + 1
        if contiguousBlocks <= numContiguousBlocks then
          computedBlocks.take (i + numContiguousBlocks)
        else
          slidingWindowScan contiguousBlocks i computedBlocks numContiguousBlocks

variable (nullRow : Row)

/-- The lookup of a sliding window: the last run that covers the window, with null
blocks before it. -/
def slidingWindowHit (slidingWindow maxNumBlocks : Nat) : List Row :=
  let contiguousBlocks := cdiv (slidingWindow - 1) blockSize
  let contiguousBlocks := if useEagle then contiguousBlocks + 1 else contiguousBlocks
  let computedBlocks := slidingWindowScan cached blockSize alignmentTokens useEagle
    contiguousBlocks maxNumBlocks (List.replicate maxNumBlocks nullRow) 0
  if useEagle /\ computedBlocks ≠ [] then
    alignRows blockSize alignmentTokens computedBlocks.dropLast
  else
    computedBlocks

/-- The last aligned cached block, with dummy rows before it.  The argument is
one more than the position that is looked at. -/
def mambaHit (nullRow : Row) : Nat -> List Row
  | 0 => []
  | i + 1 =>
    match cached i with
    | none => mambaHit nullRow i
    | some row =>
      if blockSize ≠ alignmentTokens /\ (i + 1) * blockSize % alignmentTokens ≠ 0 then
        mambaHit nullRow i
      else
        List.replicate i nullRow ++ [row]

/-- Blocks before the chunk of the next token count as computed. -/
def chunkedLocalHit (attentionChunkSize maxLength : Nat) : List Row :=
  let maxNumBlocks := maxLength / blockSize
  let localAttentionStartIdx := maxLength / attentionChunkSize * attentionChunkSize
  let localAttentionStartBlockIdx := localAttentionStartIdx / blockSize
  List.replicate localAttentionStartBlockIdx nullRow ++
    takeCached cached (maxNumBlocks - localAttentionStartBlockIdx) localAttentionStartBlockIdx

end Scan

variable {H : Type}

variable (pool : BlockPool H) (blockHashes : List H)

/-- The cached blocks of all groups at an index, if every group has one. -/
def cachedRow (groupIds : List Nat) (spec : KVCacheSpec) (index : Nat) : Option Row :=
  match BlockPool.blockHashAt pool.hashBlockSize spec.blockSize blockHashes index with
  | none => none
  | some blockHash => pool.getCachedBlock blockHash groupIds

/-- The lookup of the manager that the specification selects. -/
def findLongestCacheHit (maxLength : Nat)
    (groupIds : List Nat) (spec : KVCacheSpec) (useEagle : Bool) (alignmentTokens : Nat) :
    Option (List Row) :=
  let cached := cachedRow pool blockHashes groupIds spec
  let nullRow := List.replicate groupIds.length pool.nullBlock
  let maxNumBlocks := maxLength / spec.blockSize
  match spec.kind with
  | .fullAttention =>
    some (fullAttentionHit cached spec.blockSize alignmentTokens useEagle maxNumBlocks)
  | .slidingWindow slidingWindow =>
    some (slidingWindowHit cached spec.blockSize alignmentTokens useEagle nullRow slidingWindow
      maxNumBlocks)
  | .chunkedLocalAttention attentionChunkSize =>
    if useEagle \/ spec.blockSize ≠ alignmentTokens then none
    else some (chunkedLocalHit cached spec.blockSize nullRow attentionChunkSize maxLength)
  | .mamba _ _ => some (mambaHit cached spec.blockSize alignmentTokens nullRow maxNumBlocks)
  | .crossAttention => none

end Vllm.KVCache
