import Mathlib.Algebra.GCDMonoid.Nat
import Vllm.KVCache.Lookup

namespace Vllm.KVCache

/-!
# The common hit of several groups

The coordinator merges groups with the same specification, puts full attention
first, and then shrinks a candidate length: each specification in turn accepts it
or lowers it, until a whole pass changes nothing.

A group for a draft model (an eagle group) has to look one block further than
the candidate and drops that block again, at most once for each candidate.
-/

/-- All groups with one specification. -/
structure AttentionGroup where
  spec : KVCacheSpec
  groupIds : List Nat

/-- Add a group id to the entry with its specification, or make a new entry. -/
def addGroup (groupId : Nat) (spec : KVCacheSpec) : List AttentionGroup -> List AttentionGroup
  | [] => [⟨spec, [groupId]⟩]
  | group :: rest =>
    if group.spec = spec then { group with groupIds := group.groupIds ++ [groupId] } :: rest
    else group :: addGroup groupId spec rest

/-- Collect the groups from id `groupId` on. -/
def collectGroups : (groupId : Nat) -> List KVCacheGroupSpec -> List AttentionGroup ->
    List AttentionGroup
  | _, [], collected => collected
  | groupId, group :: rest, collected =>
    collectGroups (groupId + 1) rest (addGroup groupId group.kvCacheSpec collected)

/-- Sort full attention to the front; the sort is stable. -/
def fullAttentionFirst (groups : List AttentionGroup) : List AttentionGroup :=
  groups.filter (fun group => group.spec.isFullAttention) ++
    groups.filter (fun group => !group.spec.isFullAttention)

/-- A configuration that passes the assertions of the hybrid coordinator. -/
structure HybridConfig where
  kvCacheGroups : List KVCacheGroupSpec
  hashBlockSize : Nat
  hashBlockSize_pos : 0 < hashBlockSize
  useEagle : Bool
  divisible : ∀ group ∈ kvCacheGroups, hashBlockSize ∣ group.kvCacheSpec.blockSize
  several : 1 < (collectGroups 0 kvCacheGroups []).length

namespace HybridConfig

variable (config : HybridConfig)

/-- The groups with equal specifications are one attention group.  Full attention
comes first. -/
def attentionGroups : List AttentionGroup :=
  fullAttentionFirst (collectGroups 0 config.kvCacheGroups [])

/-- Hits have a length that is a multiple of all block sizes. -/
def lcmBlockSize : Nat :=
  ((collectGroups 0 config.kvCacheGroups []).map (fun group => group.spec.blockSize)).foldr Nat.lcm 1

/-- The ids of the eagle groups: the marked ones, or all if eagle is used and
none is marked. -/
def eagleGroupIds : List Nat :=
  let marked := (List.range config.kvCacheGroups.length).filter (fun groupId =>
    match config.kvCacheGroups[groupId]? with
    | some group => group.isEagleGroup
    | none => false)
  if config.useEagle && marked.isEmpty then List.range config.kvCacheGroups.length else marked

/-- Whether a group of this attention group drops its last matched block. -/
def isEagle (group : AttentionGroup) : Bool :=
  group.groupIds.any (fun groupId => config.eagleGroupIds.contains groupId)

/-- One full-attention specification and one other need a single pass. -/
def isSimpleHybrid : Bool :=
  config.attentionGroups.length == 2 &&
    match config.attentionGroups with
    | group :: _ => group.spec.isFullAttention
    | [] => false

end HybridConfig

/-- What a pass over the attention groups carries along. -/
structure PassState where
  currHitLength : Nat
  hitBlocksByGroup : Nat -> Option (List BlockId)
  eagleVerified : List Nat

/-- The block table of the `k`-th group of a lookup. -/
def column (nullBlock : BlockId) (rows : List Row) (k : Nat) : List BlockId :=
  rows.map (fun row => row.getD k nullBlock)

/-- The tables of the groups of an attention group, which are the columns of its
rows. -/
def recordHits (nullBlock : BlockId) (rows : List Row) :
    (k : Nat) -> List Nat -> (Nat -> Option (List BlockId)) -> Nat -> Option (List BlockId)
  | _, [], hitBlocks => hitBlocks
  | k, groupId :: rest, hitBlocks =>
    recordHits nullBlock rows (k + 1) rest
      (Function.update hitBlocks groupId (some (column nullBlock rows k)))

section Search

variable {H : Type} (config : HybridConfig) (pool : BlockPool H) (blockHashes : List H)
  (maxCacheHitLength : Nat)

/-- One attention group accepts or lowers the current length.  Full attention is
looked up once, and then accepts every shorter length. -/
def visitGroup (idx : Nat) (group : AttentionGroup) (state : PassState) : Option PassState :=
  let spec := group.spec
  if spec.isFullAttention && (state.hitBlocksByGroup (group.groupIds.headD 0)).isSome then
    some { state with
      currHitLength := state.currHitLength / spec.blockSize * spec.blockSize }
  else
    let useEagle := config.isEagle group && !state.eagleVerified.contains idx
    let maxLength :=
      if useEagle then min (state.currHitLength + spec.blockSize) maxCacheHitLength
      else state.currHitLength
    match findLongestCacheHit pool blockHashes maxLength group.groupIds spec useEagle
        config.lcmBlockSize with
    | none => none
    | some rows =>
      let newHitLength := rows.length * spec.blockSize
      some
        { currHitLength := newHitLength
          hitBlocksByGroup :=
            recordHits pool.nullBlock rows 0 group.groupIds state.hitBlocksByGroup
          eagleVerified :=
            if useEagle then idx :: state.eagleVerified
            else if newHitLength < state.currHitLength then []
            else state.eagleVerified }

/-- The `for` loop over the attention groups. -/
def visitGroups : (idx : Nat) -> List AttentionGroup -> PassState -> Option PassState
  | _, [], state => some state
  | idx, group :: rest, state =>
    match visitGroup config pool blockHashes maxCacheHitLength idx group state with
    | none => none
    | some state => visitGroups (idx + 1) rest state

/-- The `while True` loop.  The state carries the hit length before a pass. -/
def searchLoop : (fuel : Nat) -> PassState -> Option PassState
  | 0, _ => none
  | fuel + 1, state =>
    match visitGroups config pool blockHashes maxCacheHitLength 0 config.attentionGroups state with
    | none => none
    | some after =>
      if state.currHitLength <= after.currHitLength then
        some { after with currHitLength := state.currHitLength }
      else if config.isSimpleHybrid then some after
      else searchLoop fuel after

/-- Cut the tables of the first attention group, and of no other, to the length of
the hit. -/
def truncateFirst (hitLength : Nat) (hitBlocks : Nat -> Option (List BlockId)) :
    Nat -> Option (List BlockId) :=
  match config.attentionGroups with
  | group :: _ =>
    if group.spec.isFullAttention then
      fun groupId =>
        if group.groupIds.contains groupId then
          (hitBlocks groupId).map (fun blocks => blocks.take (hitLength / group.spec.blockSize))
        else
          hitBlocks groupId
    else
      hitBlocks
  | [] => hitBlocks

/-- The tables of all groups and the length of the longest common hit.  A pass
that does not end the search lowers the length, so the fuel is not used up. -/
def findLongestCommonHit : Option (List (List BlockId) × Nat) :=
  match searchLoop config pool blockHashes maxCacheHitLength (maxCacheHitLength + 1)
      ⟨maxCacheHitLength, fun _ => none, []⟩ with
  | none => none
  | some final =>
    let hitBlocks := truncateFirst config final.currHitLength final.hitBlocksByGroup
    some ((List.range config.kvCacheGroups.length).map (fun groupId =>
      (hitBlocks groupId).getD []), final.currHitLength)

end Search

end Vllm.KVCache
