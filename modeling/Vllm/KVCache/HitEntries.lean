import Vllm.KVCache.GreatestHit
import Vllm.KVCache.Manager
import Vllm.KVCache.PoolSpec

namespace Vllm.KVCache

open BlockPool List Option

/-!
# Where the blocks of a hit come from

Whatever the kinds of the groups are, a lookup fills each position of a table
with the null block or with the block that is cached for this position.  The
keys of different positions are different, so a block cannot fill two of them.
-/

section Rows

variable {cached : Nat -> Option Row} {nullRow : Row} {blockSize alignment : Nat}

/-- Every row is the cached row of its position or a dummy row. -/
def RowsFound (cached : Nat -> Option Row) (nullRow : Row) (rows : List Row) : Prop :=
  ∀ j row, rows[j]? = some row -> row = nullRow \/ cached j = some row

theorem RowsFound.ite {condition : Prop} [Decidable condition] {rows others : List Row}
    (left : RowsFound cached nullRow rows) (right : RowsFound cached nullRow others) :
    RowsFound cached nullRow (if condition then rows else others) := by
  split
  · exact left
  · exact right

variable {rows : List Row}

section

variable (found : RowsFound cached nullRow rows)
include found

theorem RowsFound.take (count : Nat) : RowsFound cached nullRow (rows.take count) := by
  intro j row present
  rw [List.getElem?_take] at present
  split at present
  · exact found j row present
  · cases present

theorem RowsFound.alignRows : RowsFound cached nullRow (alignRows blockSize alignment rows) := by
  rw [alignRows_eq_take]
  exact found.take _

theorem RowsFound.dropLast : RowsFound cached nullRow rows.dropLast := by
  rw [dropLast_eq_take]
  exact found.take _

theorem RowsFound.set {i : Nat} {row : Row} (here : cached i = some row) :
    RowsFound cached nullRow (rows.set i row) := by
  intro j other present
  rw [List.getElem?_set] at present
  split at present
  case isTrue same =>
    split at present
    · cases present
      exact Or.inr (same ▸ here)
    · cases present
  case isFalse => exact found j other present

end

theorem rowsFound_replicate (count : Nat) :
    RowsFound cached nullRow (List.replicate count nullRow) := by
  intro j row present
  exact Or.inl (eq_of_mem_replicate (mem_of_getElem? present))

/-- Dummy rows followed by the cached rows of the positions after them. -/
theorem rowsFound_append {count : Nat}
    (found : ∀ j, j < rows.length -> rows[j]? = cached (count + j)) :
    RowsFound cached nullRow (List.replicate count nullRow ++ rows) := by
  intro j row present
  by_cases early : j < count
  · rw [List.getElem?_append_left (by simpa using early)] at present
    exact rowsFound_replicate count j row present
  rw [List.getElem?_append_right (by simpa using early), length_replicate] at present
  have inside := (List.getElem?_eq_some_iff.mp present).1
  right
  rw [<- present, found _ inside]
  congr 1
  omega

theorem takeCached_rowsFound (count : Nat) :
    RowsFound cached nullRow (takeCached cached count 0) := by
  have found : RowsFound cached nullRow (List.replicate 0 nullRow ++ takeCached cached count 0) :=
    rowsFound_append (takeCached_getElem? cached count 0)
  simpa using found

theorem slidingWindowScan_rowsFound {useEagle : Bool} {contiguousBlocks i : Nat}
    {computedBlocks : List Row} (numContiguousBlocks : Nat)
    (found : RowsFound cached nullRow computedBlocks) :
    RowsFound cached nullRow (slidingWindowScan cached blockSize alignment useEagle
      contiguousBlocks i computedBlocks numContiguousBlocks) := by
  induction i generalizing computedBlocks numContiguousBlocks with
  | zero => exact (found.take _).alignRows
  | succ i ih =>
    rw [slidingWindowScan]
    cases here : cached i with
    | none => exact ih 0 found
    | some row =>
      have grown := found.set here
      exact (ih _ found).ite ((grown.take _).ite (ih _ grown))

theorem slidingWindowHit_rowsFound (useEagle : Bool) (slidingWindow maxNumBlocks : Nat) :
    RowsFound cached nullRow (slidingWindowHit cached blockSize alignment useEagle nullRow
      slidingWindow maxNumBlocks) := by
  have found (contiguousBlocks : Nat) : RowsFound cached nullRow
      (slidingWindowScan cached blockSize alignment useEagle contiguousBlocks maxNumBlocks
        (List.replicate maxNumBlocks nullRow) 0) :=
    slidingWindowScan_rowsFound 0 (rowsFound_replicate _)
  exact (found _).dropLast.alignRows.ite (found _)

theorem mambaHit_rowsFound (maxNumBlocks : Nat) :
    RowsFound cached nullRow (mambaHit cached blockSize alignment nullRow maxNumBlocks) := by
  induction maxNumBlocks with
  | zero => exact rowsFound_replicate 0
  | succ i ih =>
    rw [mambaHit]
    cases here : cached i with
    | none => exact ih
    | some row =>
      apply ih.ite
      apply rowsFound_append
      intro j inside
      have first : j = 0 := by simpa using inside
      subst first
      exact here.symm

end Rows

variable {H : Type} {blockHashes : List H} {pool : BlockPool H} {spec : KVCacheSpec}
  {blocks : List BlockId} {groupIds : List Nat}

theorem findLongestCacheHit_rowsFound {maxLength : Nat} {useEagle : Bool} {alignment : Nat}
    {rows : List Row}
    (result : findLongestCacheHit pool blockHashes maxLength groupIds spec useEagle
      alignment = some rows) :
    RowsFound (cachedRow pool blockHashes groupIds spec)
      (List.replicate groupIds.length pool.nullBlock) rows := by
  unfold findLongestCacheHit at result
  cases kind : spec.kind with
  | fullAttention =>
    simp only [kind, Option.some.injEq] at result
    subst result
    exact ((takeCached_rowsFound _).dropLast.ite (takeCached_rowsFound _)).alignRows
  | slidingWindow slidingWindow =>
    simp only [kind, Option.some.injEq] at result
    subst result
    exact slidingWindowHit_rowsFound _ _ _
  | chunkedLocalAttention attentionChunkSize =>
    simp only [kind] at result
    split at result
    · cases result
    cases result
    exact rowsFound_append (takeCached_getElem? _ _ _)
  | mamba mambaCacheMode numSpeculativeBlocks =>
    simp only [kind, Option.some.injEq] at result
    subst result
    exact mambaHit_rowsFound _
  | crossAttention => simp [kind] at result

/-- Every entry of a table is the null block or the cached block of its
position. -/
def FromCache (pool : BlockPool H) (blockHashes : List H) (spec : KVCacheSpec) (groupId : Nat)
    (blocks : List BlockId) : Prop :=
  ∀ j block, blocks[j]? = some block ->
    block = pool.nullBlock \/ cachedBlockAt pool blockHashes spec groupId j = some block

theorem fromCache_nil
    {groupId : Nat} : FromCache pool blockHashes spec groupId [] := by
  intro j block present
  simp at present

variable {groupId j : Nat}

theorem FromCache.take (found : FromCache pool blockHashes spec groupId blocks) (count : Nat) :
    FromCache pool blockHashes spec groupId (blocks.take count) := by
  intro j block present
  rw [List.getElem?_take] at present
  split at present
  · exact found j block present
  · cases present

theorem column_fromCache {maxLength : Nat} {useEagle : Bool} {alignment : Nat} {rows : List Row}
    (result : findLongestCacheHit pool blockHashes maxLength groupIds spec useEagle
      alignment = some rows) {k : Nat} (here : groupIds[k]? = some groupId) :
    FromCache pool blockHashes spec groupId (column pool.nullBlock rows k) := by
  intro j block present
  rw [column, List.getElem?_map] at present
  rcases map_eq_some_iff.mp present with ⟨row, isRow, isBlock⟩
  rcases findLongestCacheHit_rowsFound result j row isRow with dummy | cached
  · left
    rw [<- isBlock, dummy, getD_eq_getElem?_getD, List.getElem?_replicate]
    split <;> rfl
  have entry := cachedRow_getElem? pool blockHashes cached here
  rw [getD_eq_getElem?_getD, entry] at isBlock
  cases found : cachedBlockAt pool blockHashes spec groupId j with
  | none =>
    rw [found, getD_none] at isBlock
    exact Or.inl isBlock.symm
  | some other =>
    rw [found, getD_some] at isBlock
    exact Or.inr (congrArg some isBlock)

section Search

variable {config : HybridConfig} {maxLength : Nat}

/-- The stored tables come from the cache. -/
def TablesFromCache (config : HybridConfig) (pool : BlockPool H) (blockHashes : List H)
    (hitBlocks : Nat -> Option (List BlockId)) : Prop :=
  ∀ groupId spec blocks, config.specOf groupId = some spec ->
    hitBlocks groupId = some blocks -> FromCache pool blockHashes spec groupId blocks

theorem visitGroup_fromCache {idx : Nat} {group : AttentionGroup} {state after : PassState}
    (member : group ∈ config.attentionGroups)
    (visited : visitGroup config pool blockHashes maxLength idx group state = some after)
    (found : TablesFromCache config pool blockHashes state.hitBlocksByGroup) :
    TablesFromCache config pool blockHashes after.hitBlocksByGroup := by
  rw [visitGroup] at visited
  dsimp only at visited
  split at visited
  · cases visited
    exact found
  split at visited
  · cases visited
  case h_2 rows result =>
    cases visited
    intro groupId spec blocks isSpec present
    change recordHits pool.nullBlock rows 0 group.groupIds state.hitBlocksByGroup groupId =
      some blocks at present
    have grouped := config.attentionGroups_grouped
    by_cases inside : groupId ∈ group.groupIds
    · have nodup := (nodup_flatMap.mp grouped.nodup).1 group member
      rcases recordHits_of_mem pool.nullBlock rows nodup
        inside with ⟨k, here, stored⟩
      have same : group.spec = spec :=
        Option.some.inj ((grouped.spec group member groupId inside).symm.trans isSpec)
      rw [stored, Option.some.injEq] at present
      rw [<- present, <- same]
      exact column_fromCache result here
    · rw [recordHits_of_not_mem _ _ _ _ inside] at present
      exact found groupId spec blocks isSpec present

theorem searchLoop_fromCache {fuel : Nat} {state final : PassState}
    (searched : searchLoop config pool blockHashes maxLength fuel state = some final)
    (found : TablesFromCache config pool blockHashes state.hitBlocksByGroup) :
    TablesFromCache config pool blockHashes final.hitBlocksByGroup := by
  let tables (state : PassState) := TablesFromCache config pool blockHashes state.hitBlocksByGroup
  have pass : ∀ state after, tables state -> visitGroups config pool blockHashes maxLength 0
      config.attentionGroups state = some after -> tables after := fun _ _ =>
    visitGroups_invariant tables (fun _ member _ _ _ found visited =>
      visitGroup_fromCache member visited found)
  rcases searchLoop_invariant pass found searched with
    ⟨before, after, foundBefore, visited, ⟨-, rfl⟩ | rfl⟩
  · exact pass before after foundBefore visited
  · exact pass before final foundBefore visited

theorem truncateFirst_fromCache (hitLength : Nat) {hitBlocks : Nat -> Option (List BlockId)}
    (found : TablesFromCache config pool blockHashes hitBlocks) :
    TablesFromCache config pool blockHashes (truncateFirst config hitLength hitBlocks) := by
  unfold truncateFirst
  cases config.attentionGroups with
  | nil => exact found
  | cons group rest =>
    dsimp only
    split
    · intro groupId spec blocks isSpec present
      dsimp only at present
      split at present
      · rcases map_eq_some_iff.mp present with ⟨whole, isWhole, rfl⟩
        exact (found groupId spec whole isSpec isWhole).take _
      · exact found groupId spec blocks isSpec present
    · exact found

end Search

theorem blockHashAt_injective {hashBlockSize blockSize : Nat} (nodup : blockHashes.Nodup)
    (covers : hashBlockSize <= blockSize) (positive : 0 < hashBlockSize) {i : Nat}
    {hash : BlockHash H}
    (left : blockHashAt hashBlockSize blockSize blockHashes i = some hash)
    (right : blockHashAt hashBlockSize blockSize blockHashes j = some hash) : i = j := by
  have scale := Nat.div_pos covers positive
  unfold blockHashAt at left right
  dsimp only at left right
  split at left
  case isFalse => cases left
  case isTrue leftInside =>
    split at right
    case isFalse => cases right
    case isTrue rightInside =>
      have slices := Option.some.inj (left.trans right.symm)
      have heads := congrArg (fun slice => slice[0]?) slices
      simp only [List.getElem?_take_of_lt scale, List.getElem?_drop, Nat.add_zero] at heads
      have bases := (List.getElem?_inj (by omega) nodup).mp heads
      exact Nat.eq_of_mul_eq_mul_right scale bases

theorem cachedBlockAt_hash (indexed : Indexed pool) {block : BlockId}
    (cached : cachedBlockAt pool blockHashes spec groupId j = some block) :
    ∃ hash, blockHashAt pool.hashBlockSize spec.blockSize blockHashes j = some hash /\
      pool.blockHash block = some ⟨hash, groupId⟩ := by
  unfold cachedBlockAt at cached
  split at cached
  · cases cached
  case h_2 hash isHash =>
    exact ⟨hash, isHash, (indexed.holds_iff _ _).mp (getOneBlock_holds indexed.keyed cached)⟩

theorem FromCache.hash (indexed : Indexed pool)
    (found : FromCache pool blockHashes spec groupId blocks) {block : BlockId}
    (present : blocks[j]? = some block) (notNull : block ≠ pool.nullBlock) :
    ∃ hash, blockHashAt pool.hashBlockSize spec.blockSize blockHashes j = some hash /\
      pool.blockHash block = some ⟨hash, groupId⟩ :=
  cachedBlockAt_hash indexed ((found j block present).resolve_left notNull)

theorem FromCache.distinct (indexed : Indexed pool) (nodup : blockHashes.Nodup)
    (covers : pool.hashBlockSize <= spec.blockSize) (positive : 0 < pool.hashBlockSize)
    (found : FromCache pool blockHashes spec groupId blocks) :
    Distinct pool.nullBlock blocks := by
  rw [distinct_iff_nodup, nodup_iff_pairwise_ne, pairwise_filter, pairwise_iff_getElem]
  intro i j inside insideLater before leftReal rightReal same
  have notNull : blocks[i] ≠ pool.nullBlock := by simpa using leftReal
  rcases found.hash indexed (List.getElem?_eq_getElem inside) notNull with
    ⟨left, isLeft, leftHash⟩
  rw [same] at notNull leftHash
  rcases found.hash indexed (List.getElem?_eq_getElem insideLater) notNull with
    ⟨right, isRight, rightHash⟩
  have equal : left = right := by simpa using leftHash.symm.trans rightHash
  rw [equal] at isLeft
  have position := blockHashAt_injective nodup covers positive isLeft isRight
  omega

/-- What managers rely on in the hits they are given. -/
structure HitTable (pool : BlockPool H) (groupId : Nat) (blocks : List BlockId) : Prop where
  distinct : Distinct pool.nullBlock blocks
  hashed : ∀ block ∈ blocks, block ≠ pool.nullBlock ->
    ∃ hash, pool.blockHash block = some ⟨hash, groupId⟩

theorem hitTable_nil : HitTable pool groupId [] :=
  ⟨fun block _ => Nat.zero_le 1, by simp⟩

theorem FromCache.hitTable (indexed : Indexed pool) (nodup : blockHashes.Nodup)
    (covers : pool.hashBlockSize <= spec.blockSize) (positive : 0 < pool.hashBlockSize)
    (found : FromCache pool blockHashes spec groupId blocks) : HitTable pool groupId blocks := by
  refine ⟨found.distinct indexed nodup covers positive, ?_⟩
  intro block member notNull
  rcases List.getElem?_of_mem member with ⟨j, present⟩
  rcases found.hash indexed present notNull with ⟨hash, -, isHash⟩
  exact ⟨hash, isHash⟩

variable {hits : List (List BlockId)}

theorem findLongestCommonHit_fromCache {config : HybridConfig} {maxLength hitLength : Nat}
    (result : findLongestCommonHit config pool blockHashes maxLength = some (hits, hitLength))
    (isSpec : config.specOf groupId = some spec) :
    FromCache pool blockHashes spec groupId (hits.getD groupId []) := by
  rw [findLongestCommonHit] at result
  split at result
  · cases result
  case h_2 final searched =>
    cases result
    have found := truncateFirst_fromCache final.currHitLength
      (searchLoop_fromCache searched (fun _ _ _ _ none => by cases none))
    have inRange := (config.exists_attentionGroup isSpec).1
    rw [getD_eq_getElem?_getD, List.getElem?_map, List.getElem?_range inRange, map_some, getD_some]
    cases stored : truncateFirst config final.currHitLength final.hitBlocksByGroup groupId with
    | none => exact fromCache_nil
    | some blocks => exact found groupId spec blocks isSpec stored

/-- The specification of a group. -/
def CoordinatorConfig.specOf (config : CoordinatorConfig) (groupId : Nat) : Option KVCacheSpec :=
  config.kvCacheGroups[groupId]?.map KVCacheGroupSpec.kvCacheSpec

variable {manager : KVCacheManager H} {request : Request H}

theorem getComputedBlocks_fromCache {numTokens : Nat}
    (result : manager.getComputedBlocks request = .ok (hits, numTokens))
    (isSpec : manager.coordinator.config.specOf groupId = some spec) :
    FromCache manager.coordinator.blockPool request.blockHashes spec groupId
      (hits.getD groupId []) := by
  unfold KVCacheManager.getComputedBlocks at result
  split at result
  case isTrue =>
    cases result
    rw [getD_eq_getElem?_getD, List.getElem?_map]
    cases manager.coordinator.config.kvCacheGroups[groupId]? <;>
      exact fromCache_nil
  case isFalse =>
    split at result
    · cases result
    case h_2 found =>
      cases result
      unfold KVCacheCoordinator.findLongestCacheHit at found
      unfold CoordinatorConfig.specOf at isSpec
      cases kind : manager.coordinator.config with
      | noPrefixCache groups hashBlockSize =>
        simp only [kind, Option.some.injEq, Prod.mk.injEq] at found
        rw [<- found.1, getD_eq_getElem?_getD, List.getElem?_map]
        cases groups[groupId]? <;>
          exact fromCache_nil
      | unitary group useEagle =>
        rw [kind] at isSpec
        rcases map_eq_some_iff.mp isSpec with ⟨entry, isEntry, rfl⟩
        rcases List.getElem?_eq_some_iff.mp isEntry with ⟨inside, rfl⟩
        have first : groupId = 0 := by simpa [CoordinatorConfig.kvCacheGroups] using inside
        subst first
        simp only [kind] at found
        split at found
        · cases found
        case h_2 rows looked =>
          cases found
          exact column_fromCache looked rfl
      | hybrid config =>
        rw [kind] at isSpec
        simp only [kind] at found
        exact findLongestCommonHit_fromCache found isSpec

/-- A lookup of the cache manager that finds tokens finds blocks. -/
theorem getComputedBlocks_found {numTokens : Nat}
    (result : manager.getComputedBlocks request = .ok (hits, numTokens)) (positive : 0 < numTokens) :
    ∃ blocks ∈ hits, blocks ≠ [] := by
  unfold KVCacheManager.getComputedBlocks at result
  split at result
  case isTrue =>
    cases result
    cases positive
  case isFalse =>
    split at result
    · cases result
    case h_2 found =>
      cases result
      unfold KVCacheCoordinator.findLongestCacheHit at found
      cases kind : manager.coordinator.config with
      | noPrefixCache groups hashBlockSize =>
        simp only [kind, Option.some.injEq, Prod.mk.injEq] at found
        rw [<- found.2] at positive
        cases positive
      | unitary group useEagle =>
        simp only [kind] at found
        split at found
        · cases found
        case h_2 rows looked =>
          cases found
          refine ⟨_, mem_singleton_self _, ?_⟩
          intro empty
          have none_found : rows = [] := map_eq_nil_iff.mp empty
          rw [none_found, length_nil, Nat.zero_mul] at positive
          cases positive
      | hybrid config =>
        simp only [kind] at found
        exact findLongestCommonHit_found found positive

end Vllm.KVCache
