import Vllm.KVCache.HitClaims

namespace Vllm.KVCache

open Foundation SingleTypeKVCacheManager KVCacheManager List

/-!
# Groups do not share blocks

After a request was given slots, no block is in the tables of two groups, and
the hits carry the hashes that they were found under.  This holds exactly if no
group takes a hit of a later group from the free queue for external tokens.
Whether it does can be read off the free queue before the call.
-/

variable {outputs : List Unit} {numTokens : Nat}

section Phases

variable {H : Type}

variable {requestId : RequestId}

theorem SingleTypeKVCacheManager.Removes.of_empty {others : BlockId -> Nat} {bound : Nat}
    {manager after : SingleTypeKVCacheManager H} {pool poolAfter : BlockPool H}
    {free : List BlockId} (tables : manager.Tables others pool free)
    (empty : manager.blocks requestId = [])
    (removes : Removes others requestId bound manager after pool poolAfter free) :
    after.Tables others poolAfter free := by
  have emptyAfter : after.blocks requestId = [] := by
    apply eq_nil_of_length_eq_zero
    rw [removes.nulled.length, empty]
    rfl
  rcases removes.tables with ⟨freed, tablesAfter⟩
  cases freed with
  | nil => rwa [append_nil] at tablesAfter
  | cons block rest =>
    have isFree : block ∈ free ++ block :: rest := by simp
    have unheld := (tablesAfter.owned.free_iff block).mp isFree
    have counts := removes.frame.counts block
    rw [empty, emptyAfter] at counts
    rw [removes.same.numGpuBlocks, removes.same.nullBlock] at unheld
    have wasFree : block ∈ free := (tables.owned.free_iff block).mpr
      ⟨unheld.1, unheld.2.1, by have := unheld.2.2; omega⟩
    have nodup := tablesAfter.owned.represents.nodup
    rw [nodup_append] at nodup
    exact absurd rfl (nodup.2.2 block wasFree block mem_cons_self)

/-- Nothing that matters for the hits changes when a new request removes its
blocks. -/
theorem removeSkippedBlocks_of_new {coordinator after : KVCacheCoordinator H} {request : Request H}
    {free : List BlockId}
    (pooled : Pooled coordinator.singleTypeManagers coordinator.blockPool free)
    (new : ∀ manager ∈ coordinator.singleTypeManagers, manager.blocks request.requestId = [])
    (done : coordinator.removeSkippedBlocks request.requestId numTokens = .ok (outputs, after))
    (demand : SlotDemand) :
    Pooled after.singleTypeManagers after.blockPool free /\
      after.singleTypeManagers.map (fun manager => manager.claimOf request demand) =
        coordinator.singleTypeManagers.map (fun manager => manager.claimOf request demand) := by
  rcases run_eq_ok done with ⟨_, _, swept, rfl⟩
  have result := Sweep.invariant
    (fun before rest current => Pooled (before ++ rest) current free /\
      (∀ manager ∈ rest, manager.blocks request.requestId = []) /\
      (before ++ rest).map (fun manager => manager.claimOf request demand) =
        coordinator.singleTypeManagers.map (fun manager => manager.claimOf request demand))
    (by
      rintro before manager rest current output after next ⟨here, new, claims⟩ visited
      have removes := removeSkippedBlocks_removes here.focus visited
      refine ⟨?_, fun other member => new other (mem_cons_of_mem _ member), ?_⟩
      · rw [append_assoc]
        exact here.update removes.same
          (removes.of_empty here.focus (new manager mem_cons_self))
      have same : after.claimOf request demand = manager.claimOf request demand :=
        claimOf_congr removes.frame.signature (congrFun removes.numCached request.requestId)
      rw [<- claims]
      simp [same])
    ⟨pooled, new, rfl⟩ swept
  rw [append_nil] at result
  exact ⟨result.1, result.2.2⟩

theorem removeSkippedBlocks_blockHash {coordinator after : KVCacheCoordinator H}
    (accounted : Accounted coordinator)
    (done : coordinator.removeSkippedBlocks requestId numTokens = .ok (outputs, after)) :
    after.blockPool.blockHash = coordinator.blockPool.blockHash := by
  refine (accounted.invariant (fun _ current => current.blockHash = coordinator.blockPool.blockHash)
    (fun single _ => removeSkippedBlocks_keeps numTokens _ single) ?_ rfl done).2
  intro manager _ before rest current free output after next here _ _ _ visited hashes
  exact (removeSkippedBlocks_removes here.focus visited).hashes.blockHash.trans hashes

theorem free_blockHash {coordinator after : KVCacheCoordinator H}
    (accounted : Accounted coordinator) (done : coordinator.free requestId = .ok (outputs, after)) :
    after.blockPool.blockHash = coordinator.blockPool.blockHash := by
  refine (accounted.invariant (fun _ current => current.blockHash = coordinator.blockPool.blockHash)
    (fun single _ => free_keeps _ single) ?_ rfl done).2
  intro manager _ before rest current free output after next here _ _ _ visited hashes
  rcases free_spec here.focus with ⟨_, _, _, result, -, -, same, -⟩
  rw [silently_eq_ok visited] at result
  cases result
  exact same.blockHash.trans hashes

def VisitKeepsEntries {A : Type} (requestId : RequestId)
    (visit : SingleTypeKVCacheManager H -> BlockPool H ->
      Except ManagerError (A × SingleTypeKVCacheManager H × BlockPool H))
    (manager : SingleTypeKVCacheManager H) : Prop :=
  ∀ others pool free output after poolAfter, manager.Tables others pool free ->
    visit manager pool = .ok (output, after, poolAfter) ->
    ∀ block ∈ manager.blocks requestId, block ≠ pool.nullBlock -> block ∈ after.blocks requestId

theorem SharesBlock.update {nullBlock : BlockId} {before rest : List (SingleTypeKVCacheManager H)}
    {manager after : SingleTypeKVCacheManager H}
    (shares : SharesBlock requestId nullBlock (before ++ manager :: rest))
    (groupId : after.kvCacheGroupId = manager.kvCacheGroupId)
    (keeps : ∀ block ∈ manager.blocks requestId, block ≠ nullBlock ->
      block ∈ after.blocks requestId) :
    SharesBlock requestId nullBlock (before ++ after :: rest) := by
  have moved {single : SingleTypeKVCacheManager H} (member : single ∈ before ++ manager :: rest) :
      ∃ other ∈ before ++ after :: rest, other.kvCacheGroupId = single.kvCacheGroupId /\
        ∀ block ∈ single.blocks requestId, block ≠ nullBlock ->
          block ∈ other.blocks requestId := by
    rw [mem_append, mem_cons] at member
    rcases member with early | rfl | late
    · exact ⟨single, by simp [early], rfl, fun _ inside _ => inside⟩
    · exact ⟨after, by simp, groupId, keeps⟩
    · exact ⟨single, by simp [late], rfl, fun _ inside _ => inside⟩
  rcases shares with ⟨_, leftIn, _, rightIn, _, block, notNull, inLeft, inRight⟩
  rcases moved leftIn with ⟨left', leftIn', sameLeft, keepsLeft⟩
  rcases moved rightIn with ⟨right', rightIn', sameRight, keepsRight⟩
  exact ⟨left', leftIn', right', rightIn', by rwa [sameLeft, sameRight], block, notNull,
    keepsLeft block inLeft notNull, keepsRight block inRight notNull⟩

theorem run_shares {A : Type} {visit : Visit H A} {coordinator after : KVCacheCoordinator H}
    {outputs : List A} (accounted : Accounted coordinator)
    (keeps : ∀ manager, VisitKeepsTables visit coordinator.blockPool manager)
    (keepsEntries : ∀ manager, VisitKeepsEntries requestId visit manager)
    (shares : SharesBlock requestId coordinator.blockPool.nullBlock coordinator.singleTypeManagers)
    (done : coordinator.run visit = .ok (outputs, after)) :
    SharesBlock requestId after.blockPool.nullBlock after.singleTypeManagers := by
  rcases accounted.invariant
    (fun managers _ => SharesBlock requestId coordinator.blockPool.nullBlock managers)
    (fun manager _ => keeps manager) (by
      intro manager _ before rest current free output after next here same _ signature visited
        shares
      have entries := keepsEntries manager _ current free output after next here.focus visited
      rw [same.nullBlock] at entries
      exact shares.update (groupId_congr signature) entries) shares done with
    ⟨continues, sharesAfter⟩
  rw [continues.same.nullBlock]
  exact sharesAfter

variable [DecidableEq H]

theorem allocateNewBlocks_keepsEntries
    (numTokensMainModel numEncoderTokens : Nat) (manager : SingleTypeKVCacheManager H) :
    VisitKeepsEntries requestId (fun manager pool => manager.allocateNewBlocks pool requestId
      (match manager.kvCacheSpec.kind with
        | .crossAttention => numEncoderTokens
        | _ => numTokens) numTokensMainModel) manager := by
  intro others pool free output after poolAfter tables visited block inside notNull
  rcases allocateNewBlocks_takes tables visited with
    ⟨_, _, _, takes⟩
  rw [takes.blocks]
  apply mem_append_left
  rw [<- count_pos_iff, takes.counts block notNull]
  exact count_pos_iff.mpr inside

theorem cacheBlocks_keepsEntries (request : Request H)
    (manager : SingleTypeKVCacheManager H) :
    VisitKeepsEntries request.requestId
      (silently (fun manager pool => manager.cacheBlocks pool request numTokens)) manager := by
  intro others pool free output after poolAfter tables visited block inside notNull
  rw [(cacheBlocks_caches tables (silently_eq_ok visited)).blocks]
  exact inside

omit [DecidableEq H] in
theorem Configured.groups_nodup {coordinator : KVCacheCoordinator H}
    (configured : Configured coordinator) :
    (coordinator.singleTypeManagers.map (fun manager => manager.kvCacheGroupId)).Nodup := by
  have ids : coordinator.singleTypeManagers.map (fun manager => manager.kvCacheGroupId) =
      List.range coordinator.config.kvCacheGroups.length := by
    have shape := congrArg (List.map (fun value => value.2.2)) configured.shape
    rw [map_map] at shape
    refine shape.trans ?_
    apply ext_getElem
    · simp
    intro index inside _
    simp
  rw [ids]
  exact nodup_range

/-- The hits of a call, in the state in which they are entered. -/
structure HitsFound (request : Request H) (demand : SlotDemand)
    (coordinator : KVCacheCoordinator H) : Prop where
  safe : ∀ manager ∈ coordinator.singleTypeManagers,
    EntersSafely coordinator.blockPool demand.newComputedBlocks
      (numLocalComputedTokens request demand) demand.numExternalComputedTokens
      manager
  cached : ∀ manager ∈ coordinator.singleTypeManagers,
    ∀ block ∈ demand.newComputedBlocks.getD manager.kvCacheGroupId [],
      block ≠ coordinator.blockPool.nullBlock -> coordinator.blockPool.enableCaching = true /\
        ∃ hash, coordinator.blockPool.blockHash block = some ⟨hash, manager.kvCacheGroupId⟩

section Take

variable {manager : KVCacheManager H} {request : Request H} {demand : SlotDemand}
  {coordinator after : KVCacheCoordinator H} {newBlocks : List (List BlockId)}
  {free : List BlockId}

section

omit [DecidableEq H]

theorem HitsFound.entering (found : HitsFound request demand coordinator)
    (configured : Configured coordinator)
    (pooled : Pooled coordinator.singleTypeManagers coordinator.blockPool free) :
    Entering request demand coordinator.blockPool [] coordinator.singleTypeManagers
      coordinator.blockPool free :=
  ⟨pooled, SamePool.refl _, found.safe, configured.groups_nodup⟩

theorem getD_of_no_hits (none_new : ∀ hits ∈ demand.newComputedBlocks, hits = [])
    {groupId : Nat} : demand.newComputedBlocks.getD groupId [] = [] := by
  rw [getD_eq_getElem?_getD]
  cases present : demand.newComputedBlocks[groupId]? with
  | none => rfl
  | some hits => exact none_new hits (mem_of_getElem? present)

theorem hitsSpared_of_no_new (none_new : ∀ hits ∈ demand.newComputedBlocks, hits = [])
    (managers : List (SingleTypeKVCacheManager H)) :
    HitsSpared (managers.map (fun single => single.claimOf request demand)) free := by
  apply hitsSpared_of_no_hits
  intro claim member
  rcases mem_map.mp member with ⟨single, -, rfl⟩
  exact claimOf_no_hits (getD_of_no_hits none_new)

end

section

variable (accounted : Accounted coordinator)
    (pooled : Pooled coordinator.singleTypeManagers coordinator.blockPool free)
    (found : HitsFound request demand coordinator)
    (separate : Separate coordinator.singleTypeManagers coordinator.blockPool)
    (spared : HitsSpared
      (coordinator.singleTypeManagers.map (fun single => single.claimOf request demand)) free)
include accounted pooled found separate spared

theorem enterComputed_separate
    (done : enterComputed request demand coordinator = .ok (outputs, after)) :
    Separate after.singleTypeManagers after.blockPool /\ ∀ single ∈ coordinator.singleTypeManagers,
        ∀ block ∈ single.enteredHits request demand, block ≠ coordinator.blockPool.nullBlock ->
        after.blockPool.blockHash block = coordinator.blockPool.blockHash block /\
          0 < heldBy after.singleTypeManagers block := by
  rcases enterComputed_eq_ok done with ⟨none_new, -, rfl⟩ | entered
  · refine ⟨separate, fun single _ block isHit => ?_⟩
    rw [enteredHits, getD_of_no_hits none_new] at isHit
    exact absurd (mem_of_mem_drop isHit) not_mem_nil
  rcases run_eq_ok entered with ⟨_, _, swept, rfl⟩
  have entering := found.entering accounted.configured pooled
  rcases enter_separate entering swept separate (fun single member block isHit =>
    found.cached single member block (claimOf_hit isHit)) spared with ⟨apart, kept⟩
  refine ⟨apart, fun single member block isHit => kept single member block ?_⟩
  rw [enter_complete entering swept single member]
  exact isHit

theorem takeSlots_separate
    (done : manager.takeSlots request demand coordinator = .ok (newBlocks, after)) :
    Separate after.singleTypeManagers after.blockPool /\ ∀ single ∈ coordinator.singleTypeManagers,
        ∀ block ∈ single.enteredHits request demand, block ≠ coordinator.blockPool.nullBlock ->
        after.blockPool.blockHash block = coordinator.blockPool.blockHash block := by
  rcases takeSlots_eq_ok done with ⟨_, _, extended, _, isEntered, isExtended, isCommitted⟩
  have first := enterComputed_continues accounted found.safe isEntered
  have second := allocateNewBlocks_continues first.accounted isExtended
  rcases enterComputed_separate accounted pooled found separate spared isEntered with
    ⟨enteredApart, kept⟩
  have extendedApart := run_separate first.accounted (allocateNewBlocks_keeps _ _ _)
    (allocateNewBlocks_contained _ _ _ _) enteredApart isExtended
  have hashOf {single : SingleTypeKVCacheManager H}
      (member : single ∈ coordinator.singleTypeManagers) {block : BlockId}
      (isHit : block ∈ single.enteredHits request demand)
      (notNull : block ≠ coordinator.blockPool.nullBlock) :
      ∃ key, coordinator.blockPool.blockHash block = some key /\
        extended.blockPool.blockHash block = some key /\
        0 < heldBy extended.singleTypeManagers block := by
    rcases found.cached single member block (mem_of_mem_drop isHit) notNull with
      ⟨-, _, isHash⟩
    rcases kept single member block isHit notNull with ⟨same, held⟩
    exact ⟨_, isHash, run_keepsHash first.accounted (allocateNewBlocks_keeps _ _ _)
      (allocateNewBlocks_keepsHashes _ _ _ _) isExtended (first.same.nullBlock ▸ notNull) held
      (same.trans isHash)⟩
  rcases commitBlocks_eq_ok isCommitted with rfl | ⟨_, cached⟩
  · refine ⟨extendedApart, fun single member block isHit notNull => ?_⟩
    rcases hashOf member isHit notNull with ⟨key, before, later, -⟩
    exact later.trans before.symm
  refine ⟨run_separate second.accounted (cacheBlocks_keeps _ _) (cacheBlocks_contained _ _)
    extendedApart cached, fun single member block isHit notNull => ?_⟩
  rcases hashOf member isHit notNull with ⟨key, before, later, held⟩
  have final := run_keepsHash second.accounted (cacheBlocks_keeps _ _)
    (cacheBlocks_keepsHashes _ _) cached ((first.same.trans second.same).nullBlock ▸ notNull) held
    later
  exact final.1.trans before.symm

end

theorem takeSlots_shares (accounted : Accounted coordinator)
    (pooled : Pooled coordinator.singleTypeManagers coordinator.blockPool free)
    (found : HitsFound request demand coordinator)
    (taken_hit : ¬ HitsSpared
      (coordinator.singleTypeManagers.map (fun single => single.claimOf request demand)) free)
    (done : manager.takeSlots request demand coordinator = .ok (newBlocks, after)) :
    SharesBlock request.requestId coordinator.blockPool.nullBlock after.singleTypeManagers := by
  rcases takeSlots_eq_ok done with ⟨_, entered, _, _, isEntered, isExtended, isCommitted⟩
  have first := enterComputed_continues accounted found.safe isEntered
  have second := allocateNewBlocks_continues first.accounted isExtended
  have enteredShares : SharesBlock request.requestId entered.blockPool.nullBlock
      entered.singleTypeManagers := by
    rw [first.same.nullBlock]
    rcases enterComputed_eq_ok isEntered with ⟨none_new, -, -⟩ | isEntered
    · exact absurd (hitsSpared_of_no_new none_new _) taken_hit
    rcases run_eq_ok isEntered with ⟨_, _, swept, rfl⟩
    exact enter_shares (found.entering accounted.configured pooled) swept taken_hit
  have extendedShares := run_shares first.accounted (allocateNewBlocks_keeps _ _ _)
    (allocateNewBlocks_keepsEntries _ _) enteredShares isExtended
  rw [<- (first.same.trans second.same).nullBlock]
  rcases commitBlocks_eq_ok isCommitted with rfl | ⟨_, cached⟩
  · exact extendedShares
  rw [<- (cacheBlocks_continues second.accounted cached).same.nullBlock]
  exact run_shares second.accounted (cacheBlocks_keeps _ _) (cacheBlocks_keepsEntries _)
    extendedShares cached

end Take

end Phases

section Calls

variable {H : Type}

variable (manager : KVCacheManager H)

variable (request : Request H) (demand : SlotDemand)

/-- Hits are given only to a request that holds no blocks yet. -/
def HitsOfNewRequest : Prop :=
  (∀ hits ∈ demand.newComputedBlocks, hits = []) \/
    ∀ single ∈ manager.coordinator.singleTypeManagers, single.blocks request.requestId = []

/-- No group takes a hit of a later group from the free queue. -/
def GroupsSpareHits : Prop :=
  HitsSpared
    (manager.coordinator.singleTypeManagers.map (fun single => single.claimOf request demand))
    manager.coordinator.blockPool.freeBlockQueue.getAllFreeBlocks

/-- The condition on calls that give hits to several groups.  The hits fit the
tokens, they are given only to a request that holds no blocks yet, and no group
takes the hit of a later group off the free queue for its external tokens. -/
def CallSpares : CacheCall H -> Prop
  | .allocateSlots request demand => HitsFitTokens manager request demand /\
      HitsOfNewRequest manager request demand /\ GroupsSpareHits manager request demand
  | _ => True

variable {manager} {demand} {request} {after : KVCacheManager H}
  {managers : List (SingleTypeKVCacheManager H)} {call : CacheCall H}

theorem CallSpares.fits (spares : CallSpares manager call) : CallFits manager call := by
  cases call with
  | allocateSlots request demand => exact spares.1
  | _ => trivial

/-- What is claimed about a call that gave slots to a request.  No block is in
the tables of two groups, and the hits that the tables kept still have the hash
under which they were found. -/
structure GroupsApart (manager after : KVCacheManager H) (request : Request H)
    (demand : SlotDemand) : Prop where
  apart : ∀ left ∈ after.coordinator.singleTypeManagers,
    ∀ right ∈ after.coordinator.singleTypeManagers,
    left.kvCacheGroupId ≠ right.kvCacheGroupId -> ∀ leftId rightId block,
    block ∈ left.blocks leftId -> block ∈ right.blocks rightId ->
    block = after.coordinator.blockPool.nullBlock
  hashes : ∀ single ∈ manager.coordinator.singleTypeManagers,
    ∀ block ∈ single.keptHits (demand.newComputedBlocks.getD single.kvCacheGroupId [])
      (numLocalComputedTokens request demand) demand.numExternalComputedTokens,
    block ≠ manager.coordinator.blockPool.nullBlock ->
    ∃ hash, manager.coordinator.blockPool.blockHash block =
        some ⟨hash, single.kvCacheGroupId⟩ /\
      after.coordinator.blockPool.blockHash block = some ⟨hash, single.kvCacheGroupId⟩

theorem Separate.no_shared_block {pool : BlockPool H} (separate : Separate managers pool)
    {left right : SingleTypeKVCacheManager H} (leftIn : left ∈ managers)
    (rightIn : right ∈ managers) (different : left.kvCacheGroupId ≠ right.kvCacheGroupId)
    {leftId rightId : RequestId} {block : BlockId} (inLeft : block ∈ left.blocks leftId)
    (inRight : block ∈ right.blocks rightId) : block = pool.nullBlock := by
  by_contra notNull
  have held {single : SingleTypeKVCacheManager H} {requestId : RequestId}
      (inside : block ∈ single.blocks requestId) : 0 < single.tableCount block :=
    Nat.lt_of_lt_of_le (count_pos_iff.mpr inside) (single.count_le_tableCount requestId block)
  rcases append_of_mem leftIn with ⟨before, rest, rfl⟩
  have alone := separate.alone notNull (held inLeft)
  have elsewhere : right ∈ before \/ right ∈ rest := by
    rw [mem_append, mem_cons] at rightIn
    rcases rightIn with early | rfl | late
    · exact Or.inl early
    · exact absurd rfl different
    · exact Or.inr late
  have rightHeld := held inRight
  unfold heldAround at alone
  rcases elsewhere with early | late
  · have bound := tableCount_le_heldBy early block
    omega
  have bound := tableCount_le_heldBy late block
  omega

theorem JustLookedUp.caching (looked : JustLookedUp manager request demand) {groupId : Nat}
    {block : BlockId} (isHit : block ∈ demand.newComputedBlocks.getD groupId []) :
    manager.coordinator.config.enableCaching = true := by
  by_contra disabled
  rw [Bool.not_eq_true] at disabled
  have none_new : ∀ hits ∈ demand.newComputedBlocks, hits = [] := by
    rcases looked with none_new | result
    · simp [none_new]
    have off : manager.enableCaching = false := disabled
    simp only [getComputedBlocks, off, true_or, if_true, Except.ok.injEq,
      Prod.mk.injEq] at result
    rw [<- result.1]
    intro hits member
    rcases mem_map.mp member with ⟨_, -, rfl⟩
    rfl
  rw [getD_of_no_hits none_new] at isHit
  exact absurd isHit not_mem_nil

variable {removed coordinator : KVCacheCoordinator H}

theorem hitsFound (accounted : Accounted manager.coordinator)
    (looked : JustLookedUp manager request demand) (fit : HitsFitTokens manager request demand)
    (continues : Continues manager.coordinator removed)
    (hashes : removed.blockPool.blockHash = manager.coordinator.blockPool.blockHash) :
    HitsFound request demand removed := by
  refine ⟨fun single member => entersSafely accounted looked fit continues member, ?_⟩
  intro single member block isHit notNull
  rcases exists_signature continues.shape member with ⟨_, inside, signature⟩
  rw [groupId_congr signature] at isHit ⊢
  rw [continues.same.nullBlock] at notNull
  rw [continues.same.enableCaching, accounted.configured.enableCaching, hashes]
  exact ⟨looked.caching isHit, (looked.hitTable accounted inside).hashed block isHit notNull⟩

theorem removeSkippedBlocks_separate {after : KVCacheCoordinator H} {requestId : RequestId}
    (accounted : Accounted coordinator)
    (separate : Separate coordinator.singleTypeManagers coordinator.blockPool)
    (done : coordinator.removeSkippedBlocks requestId numTokens = .ok (outputs, after)) :
    Separate after.singleTypeManagers after.blockPool :=
  run_separate accounted (removeSkippedBlocks_keeps _ _) (removeSkippedBlocks_contained _ _)
    separate done

/-- The free list and the claims at the time when hits are entered.  For a new
request these are the ones before the call. -/
theorem claims_after_removal (accounted : Accounted manager.coordinator)
    (new : HitsOfNewRequest manager request demand)
    (done : manager.coordinator.removeSkippedBlocks request.requestId numTokens =
      .ok (outputs, removed)) :
    ∃ free, Pooled removed.singleTypeManagers removed.blockPool free /\
      (HitsSpared (removed.singleTypeManagers.map (fun single => single.claimOf request demand))
        free <-> GroupsSpareHits manager request demand) := by
  rcases new with none_new | new
  · have first := removeSkippedBlocks_continues accounted done
    rcases first.accounted.pooled with ⟨free, pooled⟩
    exact ⟨free, pooled, fun _ => hitsSpared_of_no_new none_new _,
      fun _ => hitsSpared_of_no_new none_new _⟩
  rcases accounted.pooled with ⟨free, pooled⟩
  have unchanged := removeSkippedBlocks_of_new pooled new done
  refine ⟨free, (unchanged demand).1, ?_⟩
  rw [(unchanged demand).2, GroupsSpareHits,
    FreeKVCacheBlockQueue.getAllFreeBlocks_eq pooled.owned.represents]

variable [DecidableEq H]

section

variable (accounted : Accounted manager.coordinator)
    (separate : Separate manager.coordinator.singleTypeManagers manager.coordinator.blockPool)
    (looked : JustLookedUp manager request demand) (fit : HitsFitTokens manager request demand)
    (new : HitsOfNewRequest manager request demand)
include accounted separate looked fit new

theorem allocateSlots_groupsApart {newBlocks : List (List BlockId)}
    (done : manager.allocateSlots request demand = .ok (some newBlocks, after)) :
    GroupsApart manager after request demand <-> GroupsSpareHits manager request demand := by
  rcases allocateSlots_eq_ok done with ⟨_, removed, isRemoved, outcome⟩
  rcases outcome with ⟨nothing, -⟩ | ⟨_, _, -, isTaken, rfl⟩
  · cases nothing
  have first := removeSkippedBlocks_continues accounted isRemoved
  have hashes := removeSkippedBlocks_blockHash accounted isRemoved
  have found := hitsFound accounted looked fit first hashes
  rcases claims_after_removal accounted new isRemoved with ⟨_, pooled, spared_iff⟩
  constructor
  · intro groupsApart
    by_contra taken_hit
    rw [<- spared_iff] at taken_hit
    rcases takeSlots_shares first.accounted pooled found taken_hit isTaken with
      ⟨left, leftIn, right, rightIn, different, block, notNull, inLeft, inRight⟩
    have null := groupsApart.apart left leftIn right rightIn different _ _ block inLeft inRight
    rw [(takeSlots_continues first.accounted found.safe isTaken).same.nullBlock] at null
    exact notNull null
  intro spares
  have removedApart := removeSkippedBlocks_separate accounted separate isRemoved
  rcases takeSlots_separate first.accounted pooled found removedApart (spared_iff.mpr spares)
    isTaken with ⟨apart, kept⟩
  refine ⟨fun left leftIn right rightIn different leftId rightId block inLeft inRight =>
    apart.no_shared_block leftIn rightIn different inLeft inRight, ?_⟩
  intro single member block isHit notNull
  rcases (looked.hitTable accounted member).hashed block (mem_of_mem_drop isHit) notNull with
    ⟨hash, isHash⟩
  refine ⟨hash, isHash, ?_⟩
  rcases exists_signature first.shape.symm member with ⟨current, inside, signature⟩
  rw [keptHits_congr signature, groupId_congr signature] at isHit
  rw [kept current inside block isHit (first.same.nullBlock ▸ notNull), hashes]
  exact isHash

theorem allocateSlots_separate {result : Option (List (List BlockId))}
    (spares : GroupsSpareHits manager request demand)
    (done : manager.allocateSlots request demand = .ok (result, after)) :
    Separate after.coordinator.singleTypeManagers after.coordinator.blockPool := by
  rcases allocateSlots_eq_ok done with ⟨_, _, isRemoved, outcome⟩
  have removedApart := removeSkippedBlocks_separate accounted separate isRemoved
  rcases outcome with ⟨-, rfl⟩ | ⟨_, _, -, isTaken, rfl⟩
  · exact removedApart
  have first := removeSkippedBlocks_continues accounted isRemoved
  have found := hitsFound accounted looked fit first
    (removeSkippedBlocks_blockHash accounted isRemoved)
  rcases claims_after_removal accounted new isRemoved with ⟨_, pooled, spared_iff⟩
  exact (takeSlots_separate first.accounted pooled found removedApart (spared_iff.mpr spares)
    isTaken).1

end

omit [DecidableEq H] in
theorem Separate.forget {pool after : BlockPool H} (separate : Separate managers pool)
    (same : SamePool pool after)
    (hashes : ∀ block, after.blockHash block = pool.blockHash block \/ after.blockHash block = none) :
    Separate managers after := by
  refine ⟨?_, ?_⟩
  · rw [same.nullBlock]
    exact separate.apart
  rw [same.enableCaching, same.nullBlock]
  intro caching manager member block key notNull held hash
  rcases hashes block with kept | gone
  · exact separate.grouped caching manager member block key notNull held (kept ▸ hash)
  rw [gone] at hash
  cases hash

omit [DecidableEq H] in
theorem newStepStarts_separate
    (separate : Separate coordinator.singleTypeManagers coordinator.blockPool) :
    Separate coordinator.newStepStarts.singleTypeManagers coordinator.newStepStarts.blockPool := by
  refine ⟨?_, ?_⟩
  · intro single member block notNull positive
    rcases mem_newStepStarts member with ⟨original, inside, keys, rfl⟩
    exact (congrArg List.sum (map_newStepStarts (fun _ _ => rfl))).trans
      (separate.apart original inside block notNull positive)
  intro caching single member block key notNull positive hash
  rcases mem_newStepStarts member with ⟨original, inside, keys, rfl⟩
  exact separate.grouped caching original inside block key notNull positive hash

/-- Every call that spares the hits keeps the groups apart. -/
theorem call_separate (accounted : Accounted manager.coordinator)
    (separate : Separate manager.coordinator.singleTypeManagers manager.coordinator.blockPool)
    (permitted : CallPermitted manager call) (spares : CallSpares manager call)
    (done : manager.call call = .ok after) :
    Separate after.coordinator.singleTypeManagers after.coordinator.blockPool := by
  cases call_effect accounted done with
  | allocated allocated =>
    exact allocateSlots_separate accounted separate permitted spares.1 spares.2.1 spares.2.2
      allocated
  | cached _ ran =>
    exact run_separate accounted (cacheBlocks_keeps _ _) (cacheBlocks_contained _ _) separate ran
  | skipped => exact separate
  | removed ran => exact removeSkippedBlocks_separate accounted separate ran
  | freed ran => exact run_separate accounted (free_keeps _) (free_contained _) separate ran
  | forgot same _ _ _ hashes => exact separate.forget same hashes
  | stepped => exact newStepStarts_separate separate

omit [DecidableEq H] in
theorem init_separate {config : CoordinatorConfig} {numBlocks maxNumBatchedTokens maxModelLen : Nat}
    (created : init config numBlocks maxNumBatchedTokens maxModelLen = .ok manager) :
    Separate manager.coordinator.singleTypeManagers manager.coordinator.blockPool := by
  rcases init_eq_ok created with ⟨_, _, rfl⟩
  have unheld {single : SingleTypeKVCacheManager H} {block : BlockId}
      (member : single ∈ config.kvCacheGroups.mapIdx (fun groupId group =>
        init group.kvCacheSpec config.enableCaching groupId
          maxNumBatchedTokens maxModelLen)) : ¬ 0 < single.tableCount block := by
    have bound := tableCount_le_heldBy member block
    rw [heldBy_init] at bound
    omega
  exact ⟨fun single member block _ held => absurd held (unheld member),
    fun _ single member block _ _ held => absurd held (unheld member)⟩

/-- The invariant of all sequences of calls that meet the condition. -/
theorem reachable_separate (reachable : ((cacheSystem H).restrict CallSpares).Reachable manager) :
    Accounted manager.coordinator /\
      Separate manager.coordinator.singleTypeManagers manager.coordinator.blockPool := by
  refine reachable.invariant (fun manager => Accounted manager.coordinator /\
    Separate manager.coordinator.singleTypeManagers manager.coordinator.blockPool) ?_ ?_
  · rintro state ⟨_, _, _, _, created⟩
    exact ⟨init_accounted created, init_separate created⟩
  rintro state call after - ⟨accounted, separate⟩ ⟨spares, permitted, done⟩
  exact ⟨(call_continues accounted permitted spares.fits done).accounted,
    call_separate accounted separate permitted spares done⟩

/-- After slots were given to a request, the groups are apart exactly if no
group took hits of a later one for external tokens. -/
theorem groupsApart_iff_spareHits (manager after : KVCacheManager H) (request : Request H)
    (demand : SlotDemand) (newBlocks : List (List BlockId))
    (reachable : ((cacheSystem H).restrict CallSpares).Reachable manager)
    (looked : JustLookedUp manager request demand) (fit : HitsFitTokens manager request demand)
    (new : HitsOfNewRequest manager request demand)
    (done : manager.allocateSlots request demand = .ok (some newBlocks, after)) :
    GroupsApart manager after request demand <-> GroupsSpareHits manager request demand := by
  rcases reachable_separate reachable with ⟨accounted, separate⟩
  exact allocateSlots_groupsApart accounted separate looked fit new done

omit [DecidableEq H]

instance (manager : KVCacheManager H) (request : Request H) (demand : SlotDemand) :
    Decidable (GroupsSpareHits manager request demand) :=
  inferInstanceAs (Decidable (HitsSpared _ _))

instance (manager : KVCacheManager H) (request : Request H) (demand : SlotDemand) :
    Decidable (HitsOfNewRequest manager request demand) :=
  inferInstanceAs (Decidable (_ \/ _))

instance : (manager : KVCacheManager H) -> (call : CacheCall H) ->
    Decidable (CallSpares manager call)
  | manager, .allocateSlots request demand =>
    inferInstanceAs (Decidable (HitsFitTokens manager request demand /\ _ /\ _))
  | _, .cacheBlocks _ _ | _, .removeSkippedBlocks _ _ | _, .free _ | _, .evictBlocks _
  | _, .resetPrefixCache | _, .newStepStarts => inferInstanceAs (Decidable True)

end Calls

def fullAndWindowConfig : HybridConfig where
  kvCacheGroups := [⟨⟨16, zero_lt_sixteen, .fullAttention, 0⟩, false⟩,
    ⟨⟨16, zero_lt_sixteen, .slidingWindow 64, 0⟩, false⟩]
  hashBlockSize := 16
  hashBlockSize_pos := zero_lt_sixteen
  useEagle := false
  divisible := by decide
  several := by decide

/-- Two requests come and go.  The first leaves two cached blocks in each group
at the front of the blocks that were used. -/
def callsOfTwoRequests : List (CacheCall Nat) :=
  [.allocateSlots ⟨"first", 32, 0, [0, 1], by decide, false⟩ ⟨32, 0, [], 0, 0, false, 0⟩,
    .free "first",
    .allocateSlots ⟨"second", 48, 0, [5, 6, 7], by decide, false⟩ ⟨48, 0, [], 0, 0, false, 0⟩,
    .free "second"]

/-- A request that starts like the first one. -/
def resumingRequest : Request Nat := ⟨"third", 64, 0, [0, 1, 8], by decide, false⟩

/-- All cached blocks are hits, and a connector has one more block. -/
def resumingDemand : SlotDemand := ⟨1, 32, [[1, 2], [3, 4]], 0, 16, false, 0⟩

/-- The tables of a request in all groups. -/
def groupTables (manager : KVCacheManager Nat) (requestId : RequestId) :
    BlockId × List (Nat × List BlockId) :=
  (manager.coordinator.blockPool.nullBlock,
    manager.coordinator.singleTypeManagers.map (fun single =>
      (single.kvCacheGroupId, single.blocks requestId)))

/-- When every block was used before, the blocks `2, 1, 4, 3` are first in the
free queue.  Full attention enters `1, 2` and takes `4` for the external tokens,
and then the window enters `3, 4`. -/
theorem external_tokens_share_block :
    ∃ manager after newBlocks, (cacheSystem Nat).Reachable manager /\
      JustLookedUp manager resumingRequest resumingDemand /\
      HitsFitTokens manager resumingRequest resumingDemand /\
      manager.allocateSlots resumingRequest resumingDemand = .ok (some newBlocks, after) /\
      ¬ GroupsApart manager after resumingRequest resumingDemand := by
  have outcome : (afterCalls (fun _ _ => True) (.hybrid fullAndWindowConfig) 11 64 64
      callsOfTwoRequests).map (fun manager => decide
        (JustLookedUp manager resumingRequest resumingDemand /\
          HitsFitTokens manager resumingRequest resumingDemand /\
          (manager.allocateSlots resumingRequest resumingDemand).toOption.map Prod.fst =
            some (some [[6], [5]]) /\
          (manager.allocateSlots resumingRequest resumingDemand).toOption.map
            (fun result => groupTables result.2 "third") =
              some (0, [(0, [1, 2, 4, 6]), (1, [3, 4, 7, 5])]))) = some true := by
    decide +kernel
  rcases exists_afterCalls outcome with ⟨manager, ran, looked, fit, isBlocks, isTables⟩
  rcases Option.map_eq_some_iff.mp isBlocks with ⟨⟨result, after⟩, isResult, blocks⟩
  have tables : groupTables after "third" = (0, [(0, [1, 2, 4, 6]), (1, [3, 4, 7, 5])]) := by
    rwa [isResult, Option.map_some, Option.some.injEq] at isTables
  have done := System.ok_of_toOption isResult
  rw [show result = some [[6], [5]] from blocks] at done
  refine ⟨manager, after, _, (afterCalls_reachable ran).of_restrict, looked, fit, done, ?_⟩
  intro groupsApart
  have groups : after.coordinator.singleTypeManagers.map (fun single =>
      (single.kvCacheGroupId, single.blocks "third")) = [(0, [1, 2, 4, 6]), (1, [3, 4, 7, 5])] :=
    congrArg Prod.snd tables
  have inGroup {groupId : Nat} {blocks : List BlockId}
      (listed : (groupId, blocks) ∈ [(0, [1, 2, 4, 6]), (1, [3, 4, 7, 5])]) :
      ∃ single ∈ after.coordinator.singleTypeManagers,
        single.kvCacheGroupId = groupId /\ single.blocks "third" = blocks := by
    rw [<- groups] at listed
    rcases mem_map.mp listed with ⟨single, member, equal⟩
    rw [Prod.mk.injEq] at equal
    exact ⟨single, member, equal⟩
  rcases inGroup (mem_cons_self) with ⟨left, leftIn, leftId, leftBlocks⟩
  rcases inGroup (mem_cons_of_mem _ mem_cons_self) with
    ⟨right, rightIn, rightId, rightBlocks⟩
  have null := groupsApart.apart left leftIn right rightIn (by rw [leftId, rightId]; decide)
    "third" "third" 4 (by rw [leftBlocks]; decide) (by rw [rightBlocks]; decide)
  rw [show after.coordinator.blockPool.nullBlock = 0 from congrArg Prod.fst tables] at null
  exact absurd null (by decide)

/-- With a larger pool unused blocks are taken first. -/
theorem unused_blocks_spare_hits :
    ∃ manager after newBlocks,
      afterCalls CallSpares (.hybrid fullAndWindowConfig) 20 64 64 callsOfTwoRequests =
        some manager /\
      manager.allocateSlots resumingRequest resumingDemand = .ok (some newBlocks, after) /\
      GroupsApart manager after resumingRequest resumingDemand := by
  have outcome : (afterCalls CallSpares (.hybrid fullAndWindowConfig) 20 64 64
      callsOfTwoRequests).map (fun manager => decide
        (JustLookedUp manager resumingRequest resumingDemand /\
          HitsFitTokens manager resumingRequest resumingDemand /\
          HitsOfNewRequest manager resumingRequest resumingDemand /\
          GroupsSpareHits manager resumingRequest resumingDemand /\
          (manager.allocateSlots resumingRequest resumingDemand).toOption.map Prod.fst =
            some (some [[13], [14]]))) = some true := by
    decide +kernel
  rcases exists_afterCalls outcome with ⟨manager, ran, looked, fit, new, spares, called⟩
  rcases Option.map_eq_some_iff.mp called with ⟨⟨result, after⟩, isResult, isBlocks⟩
  have done := System.ok_of_toOption isResult
  rw [show result = some [[13], [14]] from isBlocks] at done
  exact ⟨manager, after, _, ran, done, (groupsApart_iff_spareHits manager after resumingRequest
    resumingDemand _ (afterCalls_reachable ran) looked fit new done).mpr spares⟩

end Vllm.KVCache
