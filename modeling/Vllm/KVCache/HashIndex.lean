import Vllm.KVCache.Scheduled

namespace Vllm.KVCache

open Foundation BlockPool ScheduledCache

/-!
# The hash index agrees with the blocks

The pool finds cached blocks through an index from hashes to blocks.  In every
run of safe calls the index lists a block under a key exactly if the block
carries this key.

If hits do not fit the tokens of a request in `align` mode, a block that was
found in the cache can become a speculative block.  It still has its hash when
it is to be cached again, and an assertion fails.
-/

section Disabled

variable {H : Type}

/-- Neither hashes nor the switch for caching change. -/
structure KeepsHashes (pool after : BlockPool H) : Prop where
  blockHash : after.blockHash = pool.blockHash
  enableCaching : after.enableCaching = pool.enableCaching

theorem KeepsHashes.refl (pool : BlockPool H) : KeepsHashes pool pool := ⟨rfl, rfl⟩

theorem KeepsHashes.trans {first second third : BlockPool H} (left : KeepsHashes first second)
    (right : KeepsHashes second third) : KeepsHashes first third :=
  ⟨right.blockHash.trans left.blockHash, right.enableCaching.trans left.enableCaching⟩

variable {blocks : List BlockId} {pool after : BlockPool H}

theorem touch_keepsHashes (done : touch blocks pool = .ok after) : KeepsHashes pool after := by
  induction blocks generalizing pool with
  | nil =>
    cases done
    exact KeepsHashes.refl _
  | cons block rest ih =>
    rw [touch] at done
    split at done
    · split at done
      · cases done
      · exact ⟨(ih done).blockHash, (ih done).enableCaching⟩
    · exact ⟨(ih done).blockHash, (ih done).enableCaching⟩

variable [DecidableEq H]

theorem claimLoop_keepsHashes (disabled : pool.enableCaching = false)
    (done : claimLoop blocks pool = .ok after) :
    KeepsHashes pool after := by
  induction blocks generalizing pool with
  | nil =>
    cases done
    exact KeepsHashes.refl _
  | cons block rest ih =>
    simp only [claimLoop, disabled, Bool.false_eq_true, if_false] at done
    split at done
    · cases done
    have later := ih (by exact disabled) done
    exact ⟨later.blockHash, later.enableCaching⟩

theorem getNewBlocks_keepsHashes {numBlocks : Int} (disabled : pool.enableCaching = false)
    (done : fromPool (pool.getNewBlocks numBlocks) = .ok (blocks, after)) :
    KeepsHashes pool after := by
  unfold getNewBlocks at done
  split at done
  · cases done
  split at done
  · cases done
  split at done
  · cases done
  case h_2 claimed =>
    cases done
    have later := claimLoop_keepsHashes (by exact disabled) claimed
    exact ⟨later.blockHash, later.enableCaching⟩

def VisitKeepsDisabled {A : Type}
    (visit : SingleTypeKVCacheManager H -> BlockPool H ->
      Except ManagerError (A × SingleTypeKVCacheManager H × BlockPool H)) : Prop :=
  ∀ single pool output after next, pool.enableCaching = false ->
    visit single pool = .ok (output, after, next) -> KeepsHashes pool next

omit [DecidableEq H] in
theorem run_keepsHashes {A : Type} {coordinator after : KVCacheCoordinator H} {outputs : List A}
    {visit : Visit H A} (keeps : VisitKeepsDisabled visit) (disabled : coordinator.blockPool.enableCaching = false)
    (done : coordinator.run visit = .ok (outputs, after)) :
    KeepsHashes coordinator.blockPool after.blockPool := by
  rcases run_eq_ok done with ⟨_, _, swept, rfl⟩
  apply Sweep.invariant (fun _ _ current => KeepsHashes coordinator.blockPool current) _
    (KeepsHashes.refl _) swept
  intro before single rest current output after next kept visited
  exact kept.trans (keeps single current output after next
    (kept.enableCaching.trans disabled) visited)

section Visits

open SingleTypeKVCacheManager

variable {next : BlockPool H} {single after : SingleTypeKVCacheManager H} {requestId : RequestId}

omit [DecidableEq H] in
theorem touchComputed_keepsHashes {computed : List BlockId}
    (done : single.touchComputed pool computed = .ok next) :
    KeepsHashes pool next := by
  unfold touchComputed at done
  split at done
  · cases touched : touch computed pool with
    | error error =>
      rw [touched] at done
      cases done
    | ok value =>
      rw [touched] at done
      cases done
      exact touch_keepsHashes touched
  split at done
  · cases done
    exact KeepsHashes.refl _
  · cases done

theorem baseAllocateNewComputedBlocks_keepsHashes {hits : List BlockId} {numLocal numExternal : Nat}
    (disabled : pool.enableCaching = false)
    (done : single.baseAllocateNewComputedBlocks pool requestId hits numLocal numExternal =
      .ok (after, next)) : KeepsHashes pool next := by
  cases cached : single.numCachedBlock requestId with
  | some count =>
    unfold baseAllocateNewComputedBlocks at done
    rw [if_pos (by rw [cached]; rfl)] at done
    split at done
    · cases done
      exact KeepsHashes.refl _
    · cases done
  | none =>
    by_cases empty : single.blocks requestId = []
    · cases touched : single.touchComputed pool (single.keptHits hits numLocal numExternal) with
      | error error =>
        unfold keptHits numSkippedBlocks at touched
        simp [baseAllocateNewComputedBlocks, cached, empty, touched] at done
      | ok touchedPool =>
        have kept := touchComputed_keepsHashes touched
        rw [baseAllocateNewComputedBlocks_eq cached empty touched] at done
        dsimp only at done
        split at done
        · split at done
          · cases done
          case h_2 taken =>
            cases done
            exact kept.trans (getNewBlocks_keepsHashes (kept.enableCaching.trans disabled) taken)
        · cases done
          exact kept
    · simp [baseAllocateNewComputedBlocks, cached, empty] at done

theorem enterVisit_keepsDisabled (request : Request H) (demand : SlotDemand) :
    VisitKeepsDisabled (enterVisit request demand) := by
  intro single pool output after next disabled visited
  have done := silently_eq_ok visited
  unfold allocateNewComputedBlocks at done
  split at done
  · split at done
    · cases done
      exact KeepsHashes.refl _
    · cases done
  · exact baseAllocateNewComputedBlocks_keepsHashes disabled done

theorem baseAllocateNewBlocks_keepsHashes {numTokens : Nat} {newBlocks : List BlockId}
    (disabled : pool.enableCaching = false)
    (done : single.baseAllocateNewBlocks pool requestId numTokens = .ok (newBlocks, after, next)) :
    KeepsHashes pool next := by
  unfold baseAllocateNewBlocks at done
  dsimp only at done
  split at done
  · cases done
    exact KeepsHashes.refl _
  split at done
  · cases done
  case h_2 taken =>
    cases done
    exact getNewBlocks_keepsHashes disabled taken

theorem allocateNewBlocks_keepsDisabled
    (numTokens : SingleTypeKVCacheManager H -> Nat) (numTokensMainModel : Nat) :
    VisitKeepsDisabled (fun (single : SingleTypeKVCacheManager H) pool =>
      single.allocateNewBlocks pool requestId (numTokens single) numTokensMainModel) := by
  intro single pool newBlocks after next disabled done
  dsimp only at done
  unfold allocateNewBlocks at done
  split at done
  case h_2 => exact baseAllocateNewBlocks_keepsHashes disabled done
  case h_1 mode numSpeculativeBlocks kind =>
    split at done
    case isFalse => exact baseAllocateNewBlocks_keepsHashes disabled done
    case isTrue =>
      unfold alignAllocateNewBlocks at done
      dsimp only at done
      generalize (if single.allocatedBlockReqs requestId = true then 1
        else numSpeculativeBlocks + 1) = most at done
      split at done
      · cases done
        exact KeepsHashes.refl _
      split at done
      · cases done
      split at done
      · cases done
      split at done
      · cases done
      case h_2 taken =>
        cases done
        exact getNewBlocks_keepsHashes disabled taken

end Visits

/-- Without prefix caching no block has a hash. -/
def Unhashed (manager : KVCacheManager H) : Prop :=
  manager.coordinator.config.enableCaching = false ->
    ∀ block, manager.coordinator.blockPool.blockHash block = none

omit [DecidableEq H] in
theorem Unhashed.of_fades {manager after : KVCacheManager H}
    (accounted : Accounted manager.coordinator) (unhashed : Unhashed manager)
    (config : after.coordinator.config = manager.coordinator.config)
    (fades : manager.coordinator.blockPool.enableCaching = false -> ∀ block,
      after.coordinator.blockPool.blockHash block = manager.coordinator.blockPool.blockHash block \/
        after.coordinator.blockPool.blockHash block = none) : Unhashed after := by
  intro disabled block
  rw [config] at disabled
  rcases fades (accounted.configured.enableCaching.trans disabled) block with kept | gone
  · exact kept.trans (unhashed disabled block)
  · exact gone

theorem allocateSlots_keepsHashes {manager after : KVCacheManager H} {request : Request H}
    {demand : SlotDemand} {result : Option (List (List BlockId))}
    (accounted : Accounted manager.coordinator)
    (disabled : manager.coordinator.blockPool.enableCaching = false)
    (done : manager.allocateSlots request demand = .ok (result, after)) :
    KeepsHashes manager.coordinator.blockPool after.coordinator.blockPool := by
  rcases allocateSlots_eq_ok done with ⟨_, removed, isRemoved, outcome⟩
  have first : KeepsHashes manager.coordinator.blockPool removed.blockPool :=
    ⟨removeSkippedBlocks_blockHash accounted isRemoved,
      (removeSkippedBlocks_continues accounted isRemoved).same.enableCaching⟩
  rcases outcome with ⟨-, rfl⟩ | ⟨_, _, -, isTaken, rfl⟩
  · exact first
  rcases takeSlots_eq_ok isTaken with
    ⟨_, entered, _, _, isEntered, isExtended, isCommitted⟩
  have second : KeepsHashes removed.blockPool entered.blockPool := by
    rcases enterComputed_eq_ok isEntered with ⟨-, -, rfl⟩ | ran
    · exact KeepsHashes.refl _
    exact run_keepsHashes (enterVisit_keepsDisabled request demand)
      (first.enableCaching.trans disabled) ran
  have both := first.trans second
  have third := run_keepsHashes (allocateNewBlocks_keepsDisabled _ _)
    (both.enableCaching.trans disabled) isExtended
  have off : manager.enableCaching = false :=
    accounted.configured.enableCaching.symm.trans disabled
  rw [KVCacheManager.commitBlocks, if_pos (Or.inl off)] at isCommitted
  cases isCommitted
  exact both.trans third

end Disabled

section Runs

variable {H : Type} [DecidableEq H] {state : ScheduledCache H} {call : CacheCall H}

theorem call_unhashed {manager after : KVCacheManager H} (accounted : Accounted manager.coordinator)
    (unhashed : Unhashed manager) (permitted : CallPermitted manager call)
    (fits : CallFits manager call) (done : manager.call call = .ok after) : Unhashed after := by
  have config := (call_continues accounted permitted fits done).config
  apply unhashed.of_fades accounted config
  intro disabled block
  cases call_effect accounted done with
  | allocated allocated =>
    rw [(allocateSlots_keepsHashes accounted disabled allocated).blockHash]
    exact Or.inl rfl
  | cached caching ran =>
    have off := accounted.configured.enableCaching.symm.trans disabled
    exact absurd (off.symm.trans caching) (by decide)
  | skipped => exact Or.inl rfl
  | removed ran => exact Or.inl (congrFun (removeSkippedBlocks_blockHash accounted ran) block)
  | freed ran => exact Or.inl (congrFun (free_blockHash accounted ran) block)
  | forgot _ _ _ _ hashes => exact hashes block
  | stepped => exact Or.inl rfl

theorem advance_call {after : ScheduledCache H} (done : state.advance call = .ok after) :
    state.manager.call call = .ok after.manager := by
  cases call with
  | allocateSlots request demand =>
    simp only [advance] at done
    split at done
    · cases done
    case h_2 allocated =>
      cases done
      simp only [KVCacheManager.call, allocated]
    case h_3 allocated =>
      cases done
      simp only [KVCacheManager.call, allocated]
  | _ =>
    simp only [advance] at done
    split at done
    · cases done
    case h_2 called =>
      cases done
      exact called

section

omit [DecidableEq H]

theorem CallScheduled.permitted (scheduled : CallScheduled state call) :
    CallPermitted state.manager call := by
  cases call with
  | allocateSlots request demand => exact scheduled.2.1
  | _ => trivial

theorem CallSafe.fits (safe : CallSafe state call) : CallFits state.manager call := by
  cases call with
  | allocateSlots request demand => exact safe.1
  | _ => trivial

theorem init_unhashed {config : CoordinatorConfig} {numBlocks maxNumBatchedTokens maxModelLen : Nat}
    {manager : KVCacheManager H}
    (created : KVCacheManager.init config numBlocks maxNumBatchedTokens maxModelLen = .ok manager) :
    Unhashed manager := by
  rcases init_eq_ok created with ⟨_, isPool, rfl⟩
  unfold init at isPool
  split at isPool
  · cases isPool
  cases isPool
  exact fun _ _ => rfl

end

/-- What callers of the pool rely on. -/
structure IndexAgrees (pool : BlockPool H) : Prop where
  index : ∀ key block, block ≠ pool.nullBlock ->
    (Holds pool.cachedBlockHashToBlock key block <-> pool.blockHash block = some key)
  lookup : ∀ blockHash groupIds blocks, pool.getCachedBlock blockHash groupIds = some blocks ->
    blocks.length = groupIds.length /\ ∀ (k : Nat) block groupId, blocks[k]? = some block ->
      groupIds[k]? = some groupId -> pool.blockHash block = some ⟨blockHash, groupId⟩
  new : ∀ (numBlocks : Nat) blocks after, pool.getNewBlocks numBlocks = .ok (blocks, after) ->
    ∀ block ∈ blocks, after.blockHash block = none /\
      ∀ key, ¬ Holds after.cachedBlockHashToBlock key block

variable {pool : BlockPool H}

omit [DecidableEq H] in
theorem getCachedBlock_length {blockHash : BlockHash H} {groupIds : List Nat}
    {blocks : List BlockId} (found : pool.getCachedBlock blockHash groupIds = some blocks) :
    blocks.length = groupIds.length := by
  induction groupIds generalizing blocks with
  | nil =>
    cases found
    rfl
  | cons groupId rest ih =>
    rw [getCachedBlock] at found
    split at found
    · cases found
    split at found
    · cases found
    case h_2 others isOthers =>
      cases found
      rw [List.length_cons, List.length_cons, ih isOthers]

theorem indexAgrees {held : BlockId -> Nat} {free : List BlockId} (owned : Owned pool held free)
    (indexed : Indexed pool)
    (unhashed : pool.enableCaching = false -> ∀ block, pool.blockHash block = none) :
    IndexAgrees pool := by
  refine ⟨fun key block _ => indexed.holds_iff key block, ?_, ?_⟩
  · intro blockHash groupIds blocks found
    refine ⟨getCachedBlock_length found, fun k block groupId isBlock isGroup => ?_⟩
    rw [getCachedBlock_getElem? pool found isGroup] at isBlock
    exact (indexed.holds_iff _ _).mp (getOneBlock_holds indexed.keyed isBlock)
  intro numBlocks blocks after taken block member
  rcases getNewBlocks_spec owned indexed (getNewBlocks_enough owned taken) with
    ⟨_, got, _, indexedAfter, forgets, -⟩
  rw [taken, Except.ok.injEq, Prod.mk.injEq] at got
  rcases got with ⟨isBlocks, rfl⟩
  have none : after.blockHash block = none := by
    cases caching : pool.enableCaching with
    | true => exact forgets.gone caching block (isBlocks ▸ member)
    | false =>
      have kept := getNewBlocks_keepsHashes caching
        (show fromPool (pool.getNewBlocks numBlocks) = .ok (blocks, after) by rw [taken]; rfl)
      rw [kept.blockHash]
      exact unhashed caching block
  refine ⟨none, fun key held => ?_⟩
  rw [indexedAfter.holds_iff, none] at held
  cases held

theorem reachable_unhashed (reachable : ((scheduledSystem H).restrict CallSafe).Reachable state) :
    Unhashed state.manager := by
  apply reachable.invariant (fun state => Unhashed state.manager)
  · rintro start ⟨⟨_, _, _, _, _, created⟩, -⟩
    exact init_unhashed created
  rintro before call after earlier unhashed ⟨safe, scheduled, done⟩
  exact call_unhashed (reachable_sound earlier).accounted unhashed scheduled.permitted safe.fits
    (advance_call done)

theorem advance_not_alreadyHashed (sound : Sound state) (scheduled : CallScheduled state call)
    (safe : CallSafe state call) (block : BlockId) :
    state.advance call ≠ .error (.pool (.alreadyHashed block)) := by
  intro failed
  rcases advance_total sound scheduled safe with ⟨_, done, -⟩ | ⟨_, failedSo⟩
  · rw [done] at failed
    cases failed
  rw [failedSo] at failed
  cases failed

/-- In every run whose calls are safe, the index agrees with the blocks in every
state, and the next safe call does not find a block with a hash where it caches
one. -/
theorem reachable_indexAgrees (state : ScheduledCache H)
    (reachable : ((scheduledSystem H).restrict CallSafe).Reachable state) :
    IndexAgrees state.manager.coordinator.blockPool /\
      ∀ call, CallScheduled state call -> CallSafe state call -> ∀ block,
        state.advance call ≠ .error (.pool (.alreadyHashed block)) := by
  have sound := reachable_sound reachable
  rcases sound.accounted.pooled with ⟨_, pooled⟩
  refine ⟨indexAgrees pooled.owned pooled.indexed ?_, ?_⟩
  · rw [sound.accounted.configured.enableCaching]
    exact reachable_unhashed reachable
  · exact fun call scheduled safe block => advance_not_alreadyHashed sound scheduled safe block

end Runs

/-- Two kinds of Mamba layers in `align` mode and a window, with blocks of two
tokens.  The draft model uses the Mamba layers. -/
def twoMambaConfig : HybridConfig where
  kvCacheGroups := [⟨⟨2, Nat.two_pos, .mamba .align 2, 0⟩, true⟩,
    ⟨⟨2, Nat.two_pos, .mamba .align 2, 1⟩, true⟩, ⟨⟨2, Nat.two_pos, .slidingWindow 3, 0⟩, false⟩]
  hashBlockSize := 2
  hashBlockSize_pos := Nat.two_pos
  useEagle := false
  divisible := by decide
  several := by decide

/-- A request whose first blocks have the hashes `0`, `1`, and so on. -/
def countingRequest (requestId : RequestId) (numTokens numComputedTokens : Nat) : Request Nat where
  requestId := requestId
  numTokens := numTokens
  numComputedTokens := numComputedTokens
  blockHashes := List.range (numTokens / 2)
  blockHashes_nodup := List.nodup_range
  skipReadingPrefixCache := false

/-- A first request caches two blocks in each group.  Some of them are evicted,
and a second request is given a hit of two blocks in the second group, although
no token is a common hit. -/
def callsWithLongMambaHit : List (CacheCall Nat) :=
  [.allocateSlots (countingRequest "first" 5 0) ⟨2, 0, [], 0, 0, false, 0⟩,
    .allocateSlots (countingRequest "first" 5 2) ⟨2, 0, [], 0, 0, false, 0⟩,
    .free "first",
    .newStepStarts,
    .evictBlocks [2, 4, 7, 10],
    .allocateSlots (countingRequest "second" 9 0) ⟨2, 0, [[1], [0, 5], []], 0, 0, false, 0⟩,
    .allocateSlots (countingRequest "second" 9 2) ⟨4, 0, [], 0, 0, false, 0⟩]

/-- The hit becomes a speculative block of the second request, which still has
its hash when it is cached again. -/
theorem long_mamba_hit_is_hashed_twice :
    ∃ (state : ScheduledCache Nat) (call : CacheCall Nat) (block : BlockId),
      (scheduledSystem Nat).Reachable state /\ CallScheduled state call /\
      state.advance call = .error (.pool (.alreadyHashed block)) := by
  have outcome : ∃ state : ScheduledCache Nat,
      ((scheduledSystem Nat).restrict (fun _ _ => True)).Reachable state /\
      (IsScheduled state (countingRequest "second" 9 6) ⟨2, 0, [], 0, 0, false, 0⟩ /\
        (match state.advance
            (.allocateSlots (countingRequest "second" 9 6) ⟨2, 0, [], 0, 0, false, 0⟩) with
          | .error (.pool (.alreadyHashed block)) => some block
          | _ => none) = some 5) := by
    apply exists_afterScheduled (.hybrid twoMambaConfig) 20 64 64 callsWithLongMambaHit
    · decide
    · decide +kernel
  rcases outcome with ⟨state, reachable, scheduled, failed⟩
  refine ⟨state, .allocateSlots (countingRequest "second" 9 6) ⟨2, 0, [], 0, 0, false, 0⟩, 5,
    reachable.of_restrict, scheduled, ?_⟩
  split at failed
  case h_1 block isError =>
    cases failed
    exact isError
  case h_2 => cases failed

theorem first_request_keeps_index :
    ∃ state : ScheduledCache Nat, ((scheduledSystem Nat).restrict CallSafe).Reachable state /\
      state.manager.coordinator.blockPool.blockHash 2 ≠ none /\
      IndexAgrees state.manager.coordinator.blockPool /\
      ∀ call, CallScheduled state call -> CallSafe state call -> ∀ block,
        state.advance call ≠ .error (.pool (.alreadyHashed block)) := by
  have outcome : ∃ state : ScheduledCache Nat,
      ((scheduledSystem Nat).restrict CallSafe).Reachable state /\
      state.manager.coordinator.blockPool.blockHash 2 ≠ none := by
    apply exists_afterScheduled (.hybrid twoMambaConfig) 20 64 64 (callsWithLongMambaHit.take 4)
    · decide
    · decide +kernel
  rcases outcome with ⟨state, reachable, isHashed⟩
  exact ⟨state, reachable, isHashed, reachable_indexAgrees state reachable⟩

end Vllm.KVCache
