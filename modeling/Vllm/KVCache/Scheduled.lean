import Vllm.KVCache.AllOrNothing

namespace Vllm.KVCache

open List

open Foundation SingleTypeKVCacheManager KVCacheManager Function KVCacheCoordinator

/-!
# The calls of the scheduler

The scheduler calls the cache manager with a discipline.  A request is new until
it gets its first slots, and only then it has hits or external tokens.  While it
runs, it never counts more tokens as computed than it had slots for, although
the number can go back.  To say this, the state carries for each request the
number of tokens that it was last given slots for.
-/

/-- A cache manager and the tokens that each request has slots for. -/
structure ScheduledCache (H : Type) where
  manager : KVCacheManager H
  slots : RequestId -> Option Nat

open ScheduledCache

variable (numTokens : Nat)

/-- There are slots, and for at least this many tokens. -/
def Within : Option Nat -> Prop
  | some slots => numTokens <= slots
  | none => False

instance : (slots : Option Nat) -> Decidable (Within numTokens slots)
  | some slots => inferInstanceAs (Decidable (numTokens <= slots))
  | none => inferInstanceAs (Decidable False)

section Discipline

variable {H : Type}

variable (manager : KVCacheManager H)

/-- There is a hash for every full block of the request, if there is a cache. -/
def Hashed (request : Request H) : Prop :=
  manager.enableCaching = true ->
    request.numTokens / manager.coordinator.config.hashBlockSize <= request.blockHashes.length

variable (state : ScheduledCache H) (request : Request H) (demand : SlotDemand)

/-- A new request may have hits and external tokens.  Mamba in `align` mode does
not support external tokens. -/
def IsNew : Prop :=
  state.slots request.requestId = none /\ request.numComputedTokens = 0 /\
    (demand.newComputedBlocks = [] -> demand.numNewComputedTokens = 0) /\
    ∀ single ∈ state.manager.coordinator.singleTypeManagers, single.alignBlocks.isSome = true ->
      demand.numExternalComputedTokens = 0

/-- A request that has slots, with its computed tokens within them.  There are no
hits. -/
def IsRunning : Prop :=
  Within request.numComputedTokens (state.slots request.requestId) /\
    (∀ hits ∈ demand.newComputedBlocks, hits = []) /\ demand.numNewComputedTokens = 0 /\
    demand.numExternalComputedTokens = 0

/-- The calls of `allocateSlots` that the scheduler makes. -/
def IsScheduled : Prop :=
  (0 < demand.numNewTokens \/ 0 < demand.numExternalComputedTokens) /\
    JustLookedUp state.manager request demand /\
    numLocalComputedTokens request demand + demand.numExternalComputedTokens +
      demand.numNewTokens <= state.manager.maxModelLen /\
    Hashed state.manager request /\
    (IsNew state request demand \/ IsRunning state request demand)

/-- In `align` mode a request neither has more hits than its tokens fill, nor
holds more blocks than it needs for them.

The second part is what the Mamba manager asserts itself before it allocates.
It is not free: the blocks that a request holds for speculative tokens stay when
drafts are rejected, and a next step with fewer tokens then needs fewer blocks
than there are.  Such a step raises the assertion, and this condition leaves it
out. -/
def AlignFits (request : Request H) (demand : SlotDemand) : Prop :=
  ∀ single ∈ manager.coordinator.singleTypeManagers,
    ∀ numSpeculativeBlocks ∈ single.alignBlocks,
      (demand.newComputedBlocks.getD single.kvCacheGroupId []).length <=
          cdiv (manager.numTokensMainModel request demand) single.blockSize /\
        (single.blocks request.requestId).length <= single.numAlignedBlocks
          (manager.numTokensMainModel request demand) numSpeculativeBlocks

/-- Models with cross attention are served without prefix caching, and windows
are not empty. -/
def CoordinatorConfig.Supported (config : CoordinatorConfig) : Prop :=
  ∀ group ∈ config.kvCacheGroups, group.kvCacheSpec.kind ≠ .slidingWindow 0 /\
    (config.enableCaching = true -> group.kvCacheSpec.kind ≠ .crossAttention)

end Discipline

section Calls

variable {H : Type} [DecidableEq H]

variable (state : ScheduledCache H)

omit [DecidableEq H] in
/-- The discipline of the scheduler. -/
def CallScheduled : CacheCall H -> Prop
  | .allocateSlots request demand => IsScheduled state request demand
  | .cacheBlocks request numComputedTokens =>
    Within numComputedTokens (state.slots request.requestId) /\
      numComputedTokens <= request.numTokens /\ Hashed state.manager request
  | _ => True

omit [DecidableEq H] in
/-- The condition on the calls that allocate slots.  In every group the hits of
the call fit the tokens it is made for, and in every group in `align` mode the
request does not already hold more blocks than the call needs.

Two kinds of calls are left out.  One gives a group more hits than its tokens
fill, which makes the number of blocks to take negative.  The other comes after
rejected drafts in `align` mode, where the manager raises an assertion.  All the
other calls are free. -/
def CallSafe : CacheCall H -> Prop
  | .allocateSlots request demand =>
    HitsFitTokens state.manager request demand /\ AlignFits state.manager request demand
  | _ => True

/-- The state after a call, with the tokens that the requests have slots for. -/
def ScheduledCache.advance : CacheCall H -> Except ManagerError (ScheduledCache H)
  | .allocateSlots request demand =>
    match state.manager.allocateSlots request demand with
    | .error error => .error error
    | .ok (none, after) => .ok ⟨after, state.slots⟩
    | .ok (some _, after) =>
      .ok ⟨after, update state.slots request.requestId
        (some (state.manager.numTokensMainModel request demand))⟩
  | .free requestId =>
    match state.manager.free requestId with
    | .error error => .error error
    | .ok after => .ok ⟨after, update state.slots requestId none⟩
  | call =>
    match state.manager.call call with
    | .error error => .error error
    | .ok after => .ok ⟨after, state.slots⟩

/-- All runs of a cache manager under a scheduler.  An exception ends a run. -/
def scheduledSystem (H : Type) [DecidableEq H] : System (ScheduledCache H) (CacheCall H) where
  initial state := (∃ config numBlocks maxNumBatchedTokens maxModelLen,
      config.Supported /\
      KVCacheManager.init config numBlocks maxNumBatchedTokens maxModelLen = .ok state.manager) /\
    ∀ requestId, state.slots requestId = none
  step state call after := CallScheduled state call /\ state.advance call = .ok after

end Calls

section Invariant

open SingleTypeKVCacheManager

variable {H : Type} [DecidableEq H]

/-- What holds in every state of a run. -/
structure Sound (state : ScheduledCache H) : Prop where
  accounted : Accounted state.manager.coordinator
  supported : state.manager.coordinator.config.Supported
  pending : state.manager.coordinator.config.enableCaching = true ->
    Pending state.manager.coordinator.singleTypeManagers state.manager.coordinator.blockPool
  covered : ∀ single ∈ state.manager.coordinator.singleTypeManagers, ∀ requestId,
    single.Covered requestId (state.slots requestId)

variable {state : ScheduledCache H} {request : Request H} {demand : SlotDemand}
  {single : SingleTypeKVCacheManager H} {pool : BlockPool H}
  {managers : List (SingleTypeKVCacheManager H)} {slots : RequestId -> Option Nat}
  {call : CacheCall H}

section

omit [DecidableEq H]

theorem Sound.kind (sound : Sound state)
    (shape : managers.map signature = state.manager.coordinator.singleTypeManagers.map signature)
    (member : single ∈ managers) : single.kvCacheSpec.kind ≠ .slidingWindow 0 /\
      (state.manager.coordinator.config.enableCaching = true ->
        single.kvCacheSpec.kind ≠ .crossAttention) := by
  rcases exists_signature shape member with ⟨_, inside, signature⟩
  rcases Option.map_eq_some_iff.mp (sound.accounted.configured.manager inside).1 with
    ⟨group, present, isSpec⟩
  rw [kvCacheSpec_congr signature, <- isSpec]
  exact sound.supported group (mem_of_getElem? present)

theorem Sound.phase (sound : Sound state) :
    ∃ free, Phase state.manager.coordinator.singleTypeManagers
      state.manager.coordinator.blockPool free := by
  rcases sound.accounted.pooled with ⟨free, pooled⟩
  have configured := sound.accounted.configured
  refine ⟨free, pooled, configured.groups_nodup, ?_, ?_⟩
  · intro single member
    rw [(configured.manager member).2, configured.enableCaching]
  rw [configured.enableCaching]
  exact sound.pending

theorem Sound.of_phase (sound : Sound state) {free : List BlockId}
    (phase : Phase managers pool free) (same : SamePool state.manager.coordinator.blockPool pool)
    (shape : managers.map signature = state.manager.coordinator.singleTypeManagers.map signature)
    (covered : ∀ single ∈ managers, ∀ requestId, single.Covered requestId (slots requestId)) :
    Sound ⟨{ state.manager with
      coordinator := { state.manager.coordinator with
        singleTypeManagers := managers, blockPool := pool } }, slots⟩ := by
  have configured := sound.accounted.configured.update same shape
  refine ⟨⟨configured, free, phase.pooled⟩, sound.supported, ?_, covered⟩
  intro caching
  apply phase.pending
  exact configured.enableCaching.trans caching

theorem run_ok {A : Type} (coordinator : KVCacheCoordinator H) {outputs : List A}
    {visit : Visit H A}
    (swept : forManagers visit coordinator.singleTypeManagers coordinator.blockPool =
      .ok (outputs, managers, pool)) :
    coordinator.run visit =
      .ok (outputs, { coordinator with singleTypeManagers := managers, blockPool := pool }) := by
  unfold run
  rw [swept]

theorem Sound.run {A : Type} {visit : Visit H A} (sound : Sound state) {outputs : List A}
    {later : List BlockId}
    (swept : Swept visit state.manager.coordinator.singleTypeManagers
      state.manager.coordinator.blockPool outputs managers pool later)
    (covered : ∀ single ∈ managers, ∀ requestId, single.Covered requestId (slots requestId)) :
    ∃ after, state.manager.withCoordinator (state.manager.coordinator.run visit) =
      .ok after /\ Sound ⟨after, slots⟩ := by
  refine ⟨_, ?_, sound.of_phase swept.phase swept.same swept.shape covered⟩
  rw [run_ok _ swept.done]
  rfl

end

omit [DecidableEq H] in
theorem Owned.length_le {held : BlockId -> Nat} {free : List BlockId}
    (owned : Owned pool held free) :
    free.length <= pool.numGpuBlocks := by
  have inside : free ⊆ List.range pool.numGpuBlocks := by
    intro block member
    exact mem_range.mpr ((owned.free_iff block).mp member).1
  have bound := (subperm_of_subset owned.represents.nodup inside).length_le
  rwa [length_range] at bound

omit [DecidableEq H] in
theorem OnlyRemoves.same {requestId : RequestId} {nullBlock : BlockId} {bound : Nat}
    {after : SingleTypeKVCacheManager H}
    (removes : OnlyRemoves requestId nullBlock bound single after) :
    after.signature = single.signature /\ after.numCachedBlock = single.numCachedBlock /\
      (after.blocks requestId).length = (single.blocks requestId).length := by
  refine ⟨?_, ?_, removes.nulled.length⟩
  · rcases removes.table with rfl | ⟨_, rfl⟩
    · rfl
    · rfl
  rcases removes.table with rfl | ⟨_, rfl⟩
  · rfl
  · rfl

/-- What is known about a call when blocks outside the window were removed. -/
structure Removed (state : ScheduledCache H) (request : Request H) (demand : SlotDemand)
    (removed : KVCacheCoordinator H) (free : List BlockId) : Prop where
  phase : Phase removed.singleTypeManagers removed.blockPool free
  continues : Continues state.manager.coordinator removed
  covered : ∀ single ∈ removed.singleTypeManagers, ∀ requestId,
    single.Covered requestId (state.slots requestId)
  align : ∀ single ∈ removed.singleTypeManagers, ∀ numSpeculativeBlocks,
    single.alignBlocks = some numSpeculativeBlocks ->
      (demand.hitsOf single).length <=
          cdiv (state.manager.numTokensMainModel request demand) single.blockSize /\
        (single.blocks request.requestId).length <= single.numAlignedBlocks
          (state.manager.numTokensMainModel request demand) numSpeculativeBlocks

omit [DecidableEq H] in
/-- Removing succeeds, and only entries of the table of the request change. -/
theorem removeSkippedBlocks_removed (sound : Sound state)
    (fits : AlignFits state.manager request demand) :
    ∃ outputs removed free, state.manager.coordinator.removeSkippedBlocks request.requestId
        (state.manager.totalComputedTokens request demand) = .ok (outputs, removed) /\
      Removed state request demand removed free /\
      SameHashes state.manager.coordinator.blockPool removed.blockPool /\
      List.Forall₂ (fun single after => OnlyRemoves request.requestId
        state.manager.coordinator.blockPool.nullBlock
        (single.numRemovable (state.manager.totalComputedTokens request demand)) single after)
          state.manager.coordinator.singleTypeManagers removed.singleTypeManagers := by
  rcases sound.phase with ⟨_, phase⟩
  rcases remove_total phase sound.covered with
    ⟨outputs, _, _, later, swept, hashes, removes, covered⟩
  refine ⟨outputs, _, later, run_ok _ swept.done, ⟨swept.phase, ?_, covered, ?_⟩, hashes, removes⟩
  · exact ⟨⟨sound.accounted.configured.update swept.same swept.shape, later, swept.phase.pooled⟩,
      rfl, swept.same, swept.shape⟩
  intro single member numSpeculative align
  rcases exists_of_forall₂ removes member with ⟨original, inside, isRemoved⟩
  rcases isRemoved.same with ⟨signature, -, table⟩
  have size := blockSize_congr signature
  rw [alignBlocks_congr signature] at align
  have bounds := fits original inside numSpeculative align
  unfold SlotDemand.hitsOf numAlignedBlocks at *
  rw [groupId_congr signature, size, table]
  exact bounds

section Check

variable {removed : KVCacheCoordinator H} {free : List BlockId}

section

omit [DecidableEq H]

theorem numTokensMainModel_eq (scheduled : IsScheduled state request demand) :
    state.manager.totalComputedTokens request demand =
        numLocalComputedTokens request demand + demand.numExternalComputedTokens /\
      state.manager.numTokensMainModel request demand =
        numLocalComputedTokens request demand + demand.numExternalComputedTokens +
          demand.numNewTokens /\
      state.manager.numTokensMainModel request demand <=
        state.manager.numTokensNeedSlot request demand := by
  have bounded := scheduled.2.2.1
  unfold numTokensNeedSlot numTokensMainModel totalComputedTokens
  omega

theorem hashesCover (sound : Sound state) (hashed : Hashed state.manager request)
    (caching : state.manager.coordinator.config.enableCaching = true)
    (same : SamePool state.manager.coordinator.blockPool pool)
    {groups : List (SingleTypeKVCacheManager H)}
    (shape : groups.map signature = state.manager.coordinator.singleTypeManagers.map signature)
    (member : single ∈ groups) {numTokens : Nat} (few : numTokens <= request.numTokens) :
    single.HashesCover pool request.blockHashes numTokens := by
  rcases exists_signature shape member with ⟨original, inside, signature⟩
  have size := blockSize_congr signature
  have configured := sound.accounted.configured
  have enough := hashed caching
  have isSpec := (configured.manager inside).1
  have positive := (CoordinatorConfig.covers caching isSpec).1
  have divides := CoordinatorConfig.hashBlockSize_dvd caching isSpec
  change state.manager.coordinator.config.hashBlockSize ∣ original.blockSize at divides
  unfold HashesCover
  rw [size, same.hashBlockSize, configured.hashBlockSize]
  generalize state.manager.coordinator.config.hashBlockSize = hashBlockSize at *
  rcases divides with ⟨factor, isFactor⟩
  have sizePositive := original.blockSize_pos
  rw [isFactor] at sizePositive ⊢
  have factorPositive : 0 < factor := Nat.pos_of_mul_pos_left sizePositive
  have hashesEnough {count : Nat} (full : count <= numTokens / (hashBlockSize * factor)) :
      count * factor <= request.blockHashes.length := by
    refine Nat.le_trans ?_ enough
    apply (Nat.le_div_iff_mul_le positive).mpr
    have tokens := (Nat.le_div_iff_mul_le sizePositive).mp full
    calc count * factor * hashBlockSize
      _ = count * (hashBlockSize * factor) := by rw [Nat.mul_assoc, Nat.mul_comm factor]
      _ <= request.numTokens := tokens.trans few
  refine ⟨?_, fun j inRange => ?_⟩
  · exact (Nat.le_mul_of_pos_right _ factorPositive).trans (hashesEnough (le_rfl))
  unfold BlockPool.blockHashAt
  dsimp only
  rw [Nat.mul_div_cancel_left factor positive, <- Nat.succ_mul, if_pos (hashesEnough inRange)]
  rfl

theorem tokensOf_congr {manager : KVCacheManager H} (single after : SingleTypeKVCacheManager H)
    (signature : after.signature = single.signature) :
    manager.tokensOf request demand after = manager.tokensOf request demand single := by
  unfold tokensOf visitTokens
  rw [kvCacheSpec_congr signature]

end

/-- The slots of the requests after a call: those of this request are for all of
its tokens. -/
abbrev slotsAfter (state : ScheduledCache H) (request : Request H) (demand : SlotDemand) :
    RequestId -> Option Nat :=
  update state.slots request.requestId
    (some (state.manager.numTokensMainModel request demand))

variable (isRemoved : Removed state request demand removed free)
include isRemoved

omit [DecidableEq H] in
theorem covered_new (new : IsNew state request demand)
    (member : single ∈ removed.singleTypeManagers) : single.Covered request.requestId none := by
  have covered := isRemoved.covered single member request.requestId
  rw [new.1] at covered
  exact covered

omit [DecidableEq H] in
theorem covered_running (running : IsRunning state request demand) (member : single ∈ removed.singleTypeManagers) :
    ∃ slots, single.Covered request.requestId (some slots) /\
      numLocalComputedTokens request demand + demand.numExternalComputedTokens <=
        slots := by
  have covered := isRemoved.covered single member request.requestId
  rcases running with ⟨within, -, none_new, none_external⟩
  cases isSlots : state.slots request.requestId with
  | none =>
    rw [isSlots] at within
    exact absurd within id
  | some slots =>
    rw [isSlots] at within covered
    refine ⟨slots, covered, ?_⟩
    unfold numLocalComputedTokens
    rw [none_new, none_external]
    exact within

variable (scheduled : IsScheduled state request demand)
include scheduled

theorem demandOf_natural : ∀ single ∈ removed.singleTypeManagers, ∃ count : Nat,
      state.manager.demandOf request demand removed.blockPool single = .ok (count : Int) := by
  intro single member
  apply managerDemand_natural
  · rcases scheduled.2.2.2.2 with new | running
    · exact Or.inr (covered_new isRemoved new member).2.1
    · exact Or.inl (getD_of_no_hits running.2.1)
  intro numSpeculativeBlocks align
  rcases isRemoved.align single member numSpeculativeBlocks align with ⟨hits, blocks⟩
  rcases scheduled.2.2.2.2 with new | running
  · have fewer : cdiv (state.manager.numTokensMainModel request demand) single.blockSize <=
        single.numAlignedBlocks (state.manager.numTokensMainModel request demand)
          numSpeculativeBlocks := Nat.le_add_right _ _
    rw [(covered_new isRemoved new member).1, length_nil, Nat.add_zero]
    exact hits.trans fewer
  · rw [getD_of_no_hits running.2.1, length_nil, Nat.zero_add]
    exact blocks

omit [DecidableEq H] in
/-- A request without hits and external tokens has computed what it has slots
for. -/
theorem readyFor_of_no_hits (none_new : ∀ hits ∈ demand.newComputedBlocks, hits = [])
    (none_external : demand.numExternalComputedTokens = 0)
    (member : single ∈ removed.singleTypeManagers) :
    single.ReadyFor state.slots request.requestId
        (state.manager.numTokensMainModel request demand) /\
      (single.alignBlocks = none -> single.kvCacheSpec.kind ≠ .crossAttention ->
        numLocalComputedTokens request demand + demand.numExternalComputedTokens <=
          (single.blocks request.requestId).length * single.blockSize) := by
  have others (other : RequestId) (_ : other ≠ request.requestId) :=
    isRemoved.covered single member other
  rcases scheduled.2.2.2.2 with new | running
  · rcases covered_new isRemoved new member with ⟨empty, uncached, unallocated⟩
    refine ⟨⟨others, fun numSpeculative align => ⟨⟨?_, ?_⟩, ?_⟩⟩, fun _ _ => ?_⟩
    · rw [empty]
      exact Nat.zero_le _
    · intro allocated
      rw [unallocated (by rw [align]; rfl)] at allocated
      cases allocated
    · rw [uncached]
      exact Nat.zero_le _
    have none_found : demand.numNewComputedTokens = 0 := by
      rcases scheduled.2.1 with no_lookup | looked
      · exact new.2.2.1 no_lookup
      by_contra positive
      rcases getComputedBlocks_found looked (Nat.pos_of_ne_zero positive) with
        ⟨blocks, listed, nonempty⟩
      exact nonempty (none_new blocks listed)
    unfold numLocalComputedTokens
    rw [new.2.1, none_found, none_external]
    exact Nat.zero_le _
  rcases covered_running isRemoved running member with ⟨_, covered, computed⟩
  unfold Covered at covered
  refine ⟨⟨others, fun numSpeculative align => ?_⟩, fun plain notCross => ?_⟩
  · have required := (isRemoved.align single member numSpeculative align).2
    simp only [align] at covered
    refine ⟨⟨required, fun _ => ?_⟩, ?_⟩
    · omega
    unfold numAlignedBlocks at required
    omega
  · simp only [plain] at covered
    exact computed.trans (covered.resolve_left notCross)

variable (enough : (removed.singleTypeManagers.map (foreseen (state.manager.demandOf request demand
  removed.blockPool))).sum <= free.length)
include enough

/-- Every group has its demand, and no group has more than there are blocks, if
the check succeeds. -/
theorem foreseen_few (member : single ∈ removed.singleTypeManagers) :
    ∃ count : Nat,
      state.manager.demandOf request demand removed.blockPool single = .ok (count : Int) /\
      count = foreseen (state.manager.demandOf request demand removed.blockPool) single /\
      count <= removed.blockPool.numGpuBlocks := by
  rcases demandOf_natural isRemoved scheduled single member with ⟨count, isCount⟩
  have isForeseen := foreseen_of_ok isCount
  refine ⟨count, isCount, isForeseen.symm, ?_⟩
  rw [<- isForeseen]
  exact (Nat.le_trans (foreseen_le_sum member) enough).trans isRemoved.phase.pooled.owned.length_le

variable (sound : Sound state) (fit : HitsFitTokens state.manager request demand)
include sound fit

theorem entersNew (new : IsNew state request demand) (member : single ∈ removed.singleTypeManagers) :
    EntersNew state.manager request demand state.slots single removed.blockPool := by
  have continues := isRemoved.continues
  rcases exists_signature continues.shape member with ⟨original, inside, signature⟩
  have cached : demand.hitsOf single ≠ [] ->
      state.manager.coordinator.config.enableCaching = true := by
    intro nonempty
    rcases exists_mem_of_ne_nil _ nonempty with ⟨_, isHit⟩
    exact scheduled.2.1.caching isHit
  rcases foreseen_few isRemoved scheduled enough member with ⟨count, isCount, -, few⟩
  refine ⟨entersSafely sound.accounted scheduled.2.1 fit continues member, covered_new isRemoved new
    member, fun other _ => isRemoved.covered single member other, ?_, ?_, ?_, count, isCount, few⟩
  · by_cases nonempty : demand.hitsOf single = []
    · exact Or.inr nonempty
    left
    rw [continues.same.enableCaching, sound.accounted.configured.enableCaching]
    exact cached nonempty
  · intro cross
    by_contra nonempty
    exact (sound.kind continues.shape member).2 (cached nonempty) cross
  intro numSpeculative align
  refine ⟨?_, (isRemoved.align single member numSpeculative align).1⟩
  apply new.2.2.2 original inside
  rw [<- alignBlocks_congr signature, align]
  rfl

/-- Entering hits succeeds after the check, and leaves enough free blocks. -/
theorem enterComputed_total :
    ∃ outputs managers pool later,
      enterComputed request demand removed = .ok (outputs,
        { removed with singleTypeManagers := managers, blockPool := pool }) /\
      Phase managers pool later /\ SamePool removed.blockPool pool /\
      managers.map signature = removed.singleTypeManagers.map signature /\
      (managers.map (state.manager.needOf request demand pool.nullBlock)).sum <= later.length /\
      ∀ single ∈ managers, single.ReadyFor state.slots request.requestId
        (state.manager.numTokensMainModel request demand) := by
  rcases numTokensMainModel_eq scheduled with ⟨-, _, slotsFit⟩
  unfold enterComputed
  by_cases something : (demand.newComputedBlocks.any fun blocks => !blocks.isEmpty) = true \/
      0 < demand.numExternalComputedTokens
  · rw [if_pos something]
    have new : IsNew state request demand := by
      rcases scheduled.2.2.2.2 with new | ⟨-, none_new, -, _⟩
      · exact new
      rcases something with someHits | someExternal
      · rcases any_eq_true.mp someHits with ⟨hits, listed, nonempty⟩
        rw [none_new hits listed] at nonempty
        cases nonempty
      · omega
    rcases enter_total slotsFit (by omega) isRemoved.phase
      (fun single member => entersNew isRemoved scheduled enough sound fit new member) enough with
      ⟨outputs, managers, pool, later, swept, sum, ready⟩
    exact ⟨outputs, managers, pool, later, run_ok _ swept.done, swept.phase, swept.same, swept.shape,
      sum, ready⟩
  rw [if_neg something]
  rw [not_or] at something
  have none_new : ∀ hits ∈ demand.newComputedBlocks, hits = [] := by
    simpa using something.1
  have none_external : demand.numExternalComputedTokens = 0 := by omega
  refine ⟨[], removed.singleTypeManagers, removed.blockPool, free, rfl, isRemoved.phase,
    SamePool.refl _, rfl, Nat.le_trans ?_ enough, fun single member =>
      (readyFor_of_no_hits isRemoved scheduled none_new none_external member).1⟩
  apply sum_le_sum
  intro single member
  rcases readyFor_of_no_hits isRemoved scheduled none_new none_external member with
    ⟨ready, covers⟩
  rcases foreseen_few isRemoved scheduled enough member with ⟨_, isCount, isForeseen, few⟩
  have window := (sound.kind isRemoved.continues.shape member).1
  have bound := demand_running (by exact_mod_cast few) isCount window (getD_of_no_hits none_new)
    covers fun numSpeculative align => (ready.align numSpeculative align).1
  rw [<- isForeseen]
  exact_mod_cast bound

theorem takeSlots_total :
    ∃ newBlocks taken, state.manager.takeSlots request demand removed =
        .ok (newBlocks, taken) /\
      Sound ⟨{ state.manager with coordinator := taken }, slotsAfter state request demand⟩ /\
      ∀ single ∈ taken.singleTypeManagers, single.HasSlots state.slots request.requestId
        (state.manager.numTokensMainModel request demand)
        (state.manager.tokensOf request demand single) := by
  rcases numTokensMainModel_eq scheduled with ⟨_, _, slotsFit⟩
  rcases isRemoved.continues with ⟨-, sameConfig, same, shape⟩
  rcases enterComputed_total isRemoved scheduled enough sound fit with
    ⟨_, entered, enterPool, _, isEntered, enterPhase, enterSame, enterShape, sum,
      ready⟩
  rcases extend_total slotsFit enterPhase ready sum with
    ⟨newBlocks, extended, extendPool, _, extension, hasSlots⟩
  have sameExtended := (same.trans enterSame).trans extension.same
  have shapeExtended := (extension.shape.trans enterShape).trans shape
  have finish {managers : List (SingleTypeKVCacheManager H)} {pool : BlockPool H}
      {later : List BlockId} (phase : Phase managers pool later)
      (samePool : SamePool state.manager.coordinator.blockPool pool)
      (sameShape : managers.map signature =
        state.manager.coordinator.singleTypeManagers.map signature)
      (slots : ∀ single ∈ managers, single.HasSlots state.slots request.requestId
        (state.manager.numTokensMainModel request demand)
        (state.manager.tokensOf request demand single)) :
      Sound ⟨{ state.manager with coordinator := { removed with
        singleTypeManagers := managers, blockPool := pool } },
        slotsAfter state request demand⟩ := by
    have sameCoordinator : ({ removed with
        singleTypeManagers := managers, blockPool := pool } : KVCacheCoordinator H) =
        { state.manager.coordinator with
          singleTypeManagers := managers, blockPool := pool } := by
      rw [sameConfig]
    rw [sameCoordinator]
    apply sound.of_phase phase samePool sameShape
    intro single member requestId
    by_cases here : requestId = request.requestId
    · rw [here, slotsAfter, update_self]
      exact (slots single member).covered
    rw [slotsAfter, update_of_ne here]
    exact (slots single member).others requestId here
  have isExtended' : allocateNewBlocks
      { removed with singleTypeManagers := entered, blockPool := enterPool } request.requestId
      (state.manager.numTokensNeedSlot request demand)
      (state.manager.numTokensMainModel request demand) demand.numEncoderTokens =
        .ok (newBlocks, { removed with
          singleTypeManagers := extended, blockPool := extendPool }) :=
    run_ok { removed with singleTypeManagers := entered, blockPool := enterPool } extension.done
  unfold takeSlots
  simp only [isEntered, isExtended']
  unfold commitBlocks
  by_cases skip : state.manager.enableCaching = false \/ demand.delayCacheBlocks = true
  · rw [if_pos skip]
    exact ⟨newBlocks, _, rfl, finish extension.phase sameExtended shapeExtended hasSlots, hasSlots⟩
  rw [if_neg skip]
  have caching : state.manager.coordinator.config.enableCaching = true := by
    rw [not_or, Bool.not_eq_false] at skip
    exact skip.1
  rcases commit_total extension.phase
    (tokensOf_congr)
    (sameExtended.enableCaching.trans (sound.accounted.configured.enableCaching.trans caching))
    (fun single member => (sound.kind shapeExtended member).2 caching)
    (fun single member => hashesCover sound scheduled.2.2.2.1 caching sameExtended shapeExtended
      member (Nat.min_le_right _ _))
    (Nat.min_le_left (state.manager.totalComputedTokens request demand + demand.numNewTokens) _)
    hasSlots with
    ⟨outputs, committed, commitPool, _, commits, commitSlots⟩
  have isCommitted' : cacheBlocks { removed with
      singleTypeManagers := extended, blockPool := extendPool } request
      (min (state.manager.totalComputedTokens request demand + demand.numNewTokens)
        request.numTokens) = .ok (outputs, { removed with
          singleTypeManagers := committed, blockPool := commitPool }) :=
    run_ok { removed with singleTypeManagers := extended, blockPool := extendPool } commits.done
  simp only [isCommitted']
  exact ⟨newBlocks, _, rfl, finish commits.phase (sameExtended.trans commits.same)
    (commits.shape.trans shapeExtended) commitSlots, commitSlots⟩

end Check

/-- Nothing changed but entries of one table that left the window.  The counters
of the pool still agree with the tables. -/
structure NothingTaken (manager after : KVCacheManager H) (request : Request H)
    (demand : SlotDemand) : Prop where
  maxModelLen : after.maxModelLen = manager.maxModelLen
  config : after.coordinator.config = manager.coordinator.config
  tables : List.Forall₂ (fun single removed => OnlyRemoves request.requestId
    manager.coordinator.blockPool.nullBlock
    (single.numRemovable (manager.totalComputedTokens request demand)) single removed)
      manager.coordinator.singleTypeManagers after.coordinator.singleTypeManagers
  same : SamePool manager.coordinator.blockPool after.coordinator.blockPool
  hashes : SameHashes manager.coordinator.blockPool after.coordinator.blockPool
  owned : BlocksOwned after

/-- Every group without `align` mode has a table entry for each token.  For cross
attention these are the tokens of the encoder. -/
def SlotsTaken (manager after : KVCacheManager H) (request : Request H) (demand : SlotDemand) :
    Prop :=
  ∀ single ∈ after.coordinator.singleTypeManagers, single.alignBlocks = none ->
    cdiv (manager.tokensOf request demand single) single.blockSize <=
      (single.blocks request.requestId).length

theorem allocateSlots_total (sound : Sound state) (scheduled : IsScheduled state request demand)
    (fit : HitsFitTokens state.manager request demand)
    (alignFits : AlignFits state.manager request demand) :
    (∃ after, state.manager.allocateSlots request demand = .ok (none, after) /\
        Sound ⟨after, state.slots⟩ /\ NothingTaken state.manager after request demand) \/
      (∃ newBlocks after,
        state.manager.allocateSlots request demand = .ok (some newBlocks, after) /\
        Sound ⟨after, slotsAfter state request demand⟩ /\
        SlotsTaken state.manager after request demand) := by
  rcases removeSkippedBlocks_removed sound alignFits with
    ⟨_, removed, free, done, isRemoved, hashes, onlyRemoves⟩
  have tokens : ¬ (demand.numNewTokens = 0 /\ demand.numExternalComputedTokens = 0) := by
    have positive := scheduled.1
    omega
  have demanded : removed.getNumBlocksToAllocate request.requestId
      (state.manager.numTokensNeedSlot request demand) demand.newComputedBlocks
      demand.numEncoderTokens
      (numLocalComputedTokens request demand + demand.numExternalComputedTokens)
      (state.manager.numTokensMainModel request demand) false =
        .ok ((removed.singleTypeManagers.map (foreseen (state.manager.demandOf request demand
          removed.blockPool))).sum : Nat) :=
    totalDemand_eq (demandOf_natural isRemoved scheduled)
  unfold allocateSlots
  simp only [if_neg tokens, done, demanded, isRemoved.phase.pooled.owned.numFree]
  by_cases few : (free.length : Int) < ((removed.singleTypeManagers.map (foreseen
      (state.manager.demandOf request demand removed.blockPool))).sum : Nat)
  · left
    rw [if_pos few]
    have continues := isRemoved.continues
    have after : Sound ⟨{ state.manager with coordinator := removed }, state.slots⟩ := by
      refine ⟨continues.accounted, ?_, ?_, isRemoved.covered⟩
      · rw [continues.config]
        exact sound.supported
      intro caching
      apply isRemoved.phase.pending
      rw [continues.accounted.configured.enableCaching]
      exact caching
    exact ⟨_, rfl, after, rfl, continues.config, onlyRemoves, continues.same, hashes,
      continues.accounted.blocksOwned⟩
  right
  rw [if_neg few]
  rcases takeSlots_total isRemoved scheduled (by omega) sound fit with
    ⟨newBlocks, _, isTaken, soundAfter, hasSlots⟩
  simp only [isTaken]
  exact ⟨newBlocks, _, rfl, soundAfter, fun single member => (hasSlots single member).table⟩

omit [DecidableEq H] in
theorem Sound.forget (sound : Sound state)
    (same : SamePool state.manager.coordinator.blockPool pool) (indexed : Indexed pool)
    (queue : pool.freeBlockQueue = state.manager.coordinator.blockPool.freeBlockQueue)
    (refCnt : pool.refCnt = state.manager.coordinator.blockPool.refCnt) (hashes : ∀ block,
      pool.blockHash block = state.manager.coordinator.blockPool.blockHash block \/
        pool.blockHash block = none) :
    Sound ⟨{ state.manager with
      coordinator := { state.manager.coordinator with blockPool := pool } }, state.slots⟩ := by
  refine ⟨(sound.accounted.setHashes same indexed queue refCnt).accounted, sound.supported, ?_,
    sound.covered⟩
  intro caching
  have pending := sound.pending caching
  refine ⟨?_, ?_⟩
  · intro single member requestId block isPending notNull
    rw [same.nullBlock] at notNull
    rcases hashes block with kept | gone
    · rw [kept]
      exact pending.unhashed single member requestId block isPending notNull
    · exact gone
  · rw [same.nullBlock]
    exact pending.once

theorem cacheBlocks_sound (sound : Sound state) {numComputedTokens : Nat}
    (scheduled : CallScheduled state (.cacheBlocks request numComputedTokens)) :
    ∃ after, state.manager.cacheBlocks request numComputedTokens = .ok after /\
      Sound ⟨after, state.slots⟩ := by
  rcases scheduled with ⟨within, few, hashed⟩
  unfold KVCacheManager.cacheBlocks
  by_cases caching : state.manager.enableCaching = true
  · rw [if_pos caching]
    rcases sound.phase with ⟨_, phase⟩
    cases isSlots : state.slots request.requestId with
    | none =>
      rw [isSlots] at within
      exact absurd within id
    | some slots =>
      rw [isSlots] at within
      have covered (single : SingleTypeKVCacheManager H)
          (member : single ∈ state.manager.coordinator.singleTypeManagers) :
          single.HasSlots state.slots request.requestId slots 0 := by
        refine ⟨fun other _ => sound.covered single member other, ?_, fun _ => ?_⟩
        · rw [<- isSlots]
          exact sound.covered single member request.requestId
        have positive := single.blockSize_pos
        rw [cdiv, Nat.div_eq_of_lt (by omega)]
        exact Nat.zero_le _
      rcases commit_total phase (fun _ _ _ => rfl)
        (sound.accounted.configured.enableCaching.trans caching)
        (fun single member => (sound.kind rfl member).2 caching)
        (fun single member => hashesCover sound hashed caching (SamePool.refl _) rfl member few)
        within covered with ⟨_, _, _, _, swept, hasSlots⟩
      apply sound.run swept
      intro single member requestId
      by_cases here : requestId = request.requestId
      · rw [here, isSlots]
        exact (hasSlots single member).covered
      · exact (hasSlots single member).others requestId here
  · rw [if_neg caching]
    exact ⟨state.manager, rfl, sound⟩

section

omit [DecidableEq H]

theorem removeSkippedBlocks_sound (sound : Sound state) (requestId : RequestId) (numTokens : Nat) :
    ∃ after, state.manager.removeSkippedBlocks requestId numTokens = .ok after /\
      Sound ⟨after, state.slots⟩ := by
  rcases sound.phase with ⟨_, phase⟩
  rcases remove_total phase sound.covered with
    ⟨_, _, _, _, swept, -, -, covered⟩
  exact sound.run swept covered

theorem free_sound (sound : Sound state) (requestId : RequestId) :
    ∃ after, state.manager.free requestId = .ok after /\
      Sound ⟨after, update state.slots requestId none⟩ := by
  rcases sound.phase with ⟨_, phase⟩
  rcases free_total phase sound.covered with
    ⟨_, _, _, _, swept, covered⟩
  exact sound.run swept covered

theorem newStepStarts_sound (sound : Sound state) :
    Sound ⟨state.manager.newStepStarts, state.slots⟩ := by
  refine ⟨(newStepStarts_continues sound.accounted).accounted, sound.supported,
    fun caching => ⟨?_, ?_⟩, ?_⟩
  · intro single member requestId block isPending
    rcases mem_newStepStarts member with ⟨single, inside, _, rfl⟩
    exact (sound.pending caching).unhashed single inside requestId block isPending
  · intro left leftIn right rightIn leftId rightId block notNull inLeft inRight
    rcases mem_newStepStarts leftIn with ⟨left, leftInside, _, rfl⟩
    rcases mem_newStepStarts rightIn with ⟨right, rightInside, _, rfl⟩
    exact (sound.pending caching).once left leftInside right rightInside leftId rightId block
      notNull inLeft inRight
  intro single member requestId
  rcases mem_newStepStarts member with ⟨single, inside, _, rfl⟩
  exact sound.covered single inside requestId

end

theorem evictBlocks_error {blockIds : List BlockId} {error : PoolError}
    (failed : BlockPool.evictBlocks blockIds pool = .error error) :
    ∃ block, error = .invalidBlockId block := by
  induction blockIds generalizing pool with
  | nil => cases failed
  | cons block rest ih =>
    rw [BlockPool.evictBlocks] at failed
    split at failed
    · cases failed
      exact ⟨block, rfl⟩
    · exact ih failed

/-- Every call succeeds and keeps the invariant, except that an eviction may name
a block that does not exist. -/
theorem advance_total (sound : Sound state) (scheduled : CallScheduled state call)
    (safe : CallSafe state call) :
    (∃ after, state.advance call = .ok after /\ Sound after) \/
      ∃ block, state.advance call = .error (.pool (.invalidBlockId block)) := by
  cases call with
  | allocateSlots request demand =>
    simp only [advance]
    rcases allocateSlots_total sound scheduled safe.1 safe.2 with
      ⟨next, result, soundAfter, -⟩ | ⟨_, _, result, soundAfter, -⟩
    · rw [result]
      exact Or.inl ⟨_, rfl, soundAfter⟩
    rw [result]
    exact Or.inl ⟨_, rfl, soundAfter⟩
  | cacheBlocks request numComputedTokens =>
    rcases cacheBlocks_sound sound scheduled with ⟨_, result, soundAfter⟩
    simp only [advance, call, result]
    exact Or.inl ⟨_, rfl, soundAfter⟩
  | removeSkippedBlocks requestId numTokens =>
    rcases removeSkippedBlocks_sound sound requestId numTokens with ⟨_, result, soundAfter⟩
    simp only [advance, call, result]
    exact Or.inl ⟨_, rfl, soundAfter⟩
  | free requestId =>
    rcases free_sound sound requestId with ⟨_, result, soundAfter⟩
    simp only [advance, result]
    exact Or.inl ⟨_, rfl, soundAfter⟩
  | evictBlocks blockIds =>
    rcases sound.accounted.pooled with ⟨_, pooled⟩
    simp only [advance, call, evictBlocks]
    cases evicted : state.manager.coordinator.blockPool.evictBlocks blockIds with
    | error error =>
      rcases evictBlocks_error evicted with ⟨block, rfl⟩
      exact Or.inr ⟨block, rfl⟩
    | ok pool =>
      rcases evictBlocks_spec pooled.indexed evicted with ⟨same, indexed, queue, refCnt, hashes⟩
      exact Or.inl ⟨_, rfl, sound.forget same indexed queue refCnt hashes⟩
  | resetPrefixCache =>
    rcases sound.accounted.pooled with ⟨_, pooled⟩
    rcases resetPrefixCache_spec pooled.indexed with ⟨same, indexed, queue, refCnt, hashes⟩
    exact Or.inl ⟨_, rfl, sound.forget same indexed queue refCnt hashes⟩
  | newStepStarts => exact Or.inl ⟨_, rfl, newStepStarts_sound sound⟩

theorem advance_sound (sound : Sound state) {after : ScheduledCache H}
    (scheduled : CallScheduled state call) (safe : CallSafe state call)
    (done : state.advance call = .ok after) : Sound after := by
  rcases advance_total sound scheduled safe with ⟨_, result, soundAfter⟩ | ⟨_, failed⟩
  · cases done.symm.trans result
    exact soundAfter
  · cases done.symm.trans failed

omit [DecidableEq H] in
theorem init_sound {config : CoordinatorConfig}
    {numBlocks maxNumBatchedTokens maxModelLen : Nat} (supported : config.Supported)
    (created : KVCacheManager.init config numBlocks maxNumBatchedTokens maxModelLen =
      .ok state.manager) (empty : ∀ requestId, state.slots requestId = none) : Sound state := by
  have accounted := init_accounted created
  rcases init_eq_ok created with ⟨_, -, isManager⟩
  have tables (single : SingleTypeKVCacheManager H)
      (member : single ∈ state.manager.coordinator.singleTypeManagers) (requestId : RequestId) :
      single.Covered requestId none := by
    rw [isManager] at member
    rcases mem_mapIdx.mp member with ⟨_, _, rfl⟩
    exact ⟨rfl, rfl, fun _ => rfl⟩
  have nothing (single : SingleTypeKVCacheManager H)
      (member : single ∈ state.manager.coordinator.singleTypeManagers) (requestId : RequestId) :
      single.pending requestId = [] := by
    unfold pending
    rw [(tables single member requestId).1, drop_nil]
  refine ⟨accounted, ?_, fun _ => ⟨?_, ?_⟩, ?_⟩
  · rw [isManager]
    exact supported
  · intro single member requestId block isPending
    rw [nothing single member requestId] at isPending
    exact absurd isPending not_mem_nil
  · intro left leftIn right rightIn leftId rightId block notNull inLeft
    rw [nothing left leftIn leftId] at inLeft
    exact absurd inLeft not_mem_nil
  intro single member requestId
  rw [empty requestId]
  exact tables single member requestId

theorem reachable_sound (reachable : ((scheduledSystem H).restrict CallSafe).Reachable state) :
    Sound state := by
  apply reachable.invariant Sound
  · rintro start ⟨⟨_, _, _, _, supported, created⟩, empty⟩
    exact init_sound supported created empty
  rintro before call after - sound ⟨safe, scheduled, done⟩
  exact advance_sound sound scheduled safe done

/-- In every run whose calls are safe, a call takes slots for all tokens or
nothing at all. -/
theorem allocateSlots_all_or_nothing (state : ScheduledCache H)
    (reachable : ((scheduledSystem H).restrict CallSafe).Reachable state) (request : Request H)
    (demand : SlotDemand) (scheduled : IsScheduled state request demand)
    (safe : CallSafe state (.allocateSlots request demand)) :
    (∃ after, state.manager.allocateSlots request demand = .ok (none, after) /\
        NothingTaken state.manager after request demand) \/
      (∃ newBlocks after,
        state.manager.allocateSlots request demand = .ok (some newBlocks, after) /\
        SlotsTaken state.manager after request demand) := by
  rcases allocateSlots_total (reachable_sound reachable) scheduled safe.1 safe.2 with
    ⟨after, result, -, nothing⟩ | ⟨newBlocks, after, result, -, taken⟩
  · exact Or.inl ⟨after, result, nothing⟩
  · exact Or.inr ⟨newBlocks, after, result, taken⟩

end Invariant

section Runs

variable {H : Type}

instance (manager : KVCacheManager H) (request : Request H) : Decidable (Hashed manager request) :=
  inferInstanceAs (Decidable (_ -> _))

variable (state : ScheduledCache H) (request : Request H) (demand : SlotDemand)

instance : Decidable (IsNew state request demand) :=
  inferInstanceAs (Decidable (_ /\ _))

instance : Decidable (IsRunning state request demand) :=
  inferInstanceAs (Decidable (_ /\ _))

variable [DecidableEq H]

instance (state : ScheduledCache H) (request : Request H) (demand : SlotDemand) :
    Decidable (IsScheduled state request demand) :=
  inferInstanceAs (Decidable (_ /\ _))

instance (manager : KVCacheManager H) (request : Request H) (demand : SlotDemand) :
    Decidable (AlignFits manager request demand) :=
  inferInstanceAs (Decidable (∀ _ ∈ _, ∀ _ ∈ _, _ /\ _))

instance (config : CoordinatorConfig) : Decidable config.Supported :=
  inferInstanceAs (Decidable (∀ _ ∈ _, _ /\ _))

instance : (state : ScheduledCache H) -> (call : CacheCall H) ->
    Decidable (CallScheduled state call)
  | state, .allocateSlots request demand =>
    inferInstanceAs (Decidable (IsScheduled state request demand))
  | _, .cacheBlocks _ _ => inferInstanceAs (Decidable (_ /\ _))
  | _, .removeSkippedBlocks _ _ | _, .free _ | _, .evictBlocks _ | _, .resetPrefixCache
  | _, .newStepStarts => inferInstanceAs (Decidable True)

instance : (state : ScheduledCache H) -> (call : CacheCall H) -> Decidable (CallSafe state call)
  | _, .allocateSlots _ _ => inferInstanceAs (Decidable (_ /\ _))
  | _, .cacheBlocks _ _ | _, .removeSkippedBlocks _ _ | _, .free _ | _, .evictBlocks _
  | _, .resetPrefixCache | _, .newStepStarts => inferInstanceAs (Decidable True)

variable (condition : ScheduledCache H -> CacheCall H -> Prop)

/-- The state after a scheduled call that meets a further condition. -/
def ScheduledCache.next [∀ state call, Decidable (condition state call)] (state : ScheduledCache H)
    (call : CacheCall H) : Option (ScheduledCache H) :=
  if condition state call /\ CallScheduled state call then (state.advance call).toOption else none

def afterScheduled [∀ state call, Decidable (condition state call)] (config : CoordinatorConfig)
    (numBlocks maxNumBatchedTokens maxModelLen : Nat) (calls : List (CacheCall H)) :
    Option (ScheduledCache H) :=
  (KVCacheManager.init config numBlocks maxNumBatchedTokens maxModelLen).toOption.bind
    (fun manager => System.run (next condition) calls ⟨manager, fun _ => none⟩)

theorem exists_afterScheduled {condition : ScheduledCache H -> CacheCall H -> Prop}
    [∀ state call, Decidable (condition state call)] (config : CoordinatorConfig)
    (numBlocks maxNumBatchedTokens maxModelLen : Nat) (calls : List (CacheCall H))
    {property : ScheduledCache H -> Prop} [DecidablePred property] (supported : config.Supported)
    (holds : (afterScheduled condition config numBlocks maxNumBatchedTokens maxModelLen calls).map
      (fun state => decide (property state)) = some true) :
    ∃ state, ((scheduledSystem H).restrict condition).Reachable state /\ property state := by
  rcases Option.map_eq_some_iff.mp holds with ⟨state, ran, isTrue⟩
  refine ⟨state, ?_, of_decide_eq_true isTrue⟩
  unfold afterScheduled at ran
  rcases Option.bind_eq_some_iff.mp ran with ⟨manager, created, later⟩
  have initial : ((scheduledSystem H).restrict condition).initial ⟨manager, fun _ => none⟩ :=
    ⟨⟨config, numBlocks, maxNumBatchedTokens, maxModelLen, supported, System.ok_of_toOption created⟩,
      fun _ => rfl⟩
  refine System.Reachable.run_where ?_ (.start initial) later
  exact fun _ _ _ allowed isNext => ⟨allowed.1, allowed.2, isNext⟩

end Runs

def encoderDecoderConfig : CoordinatorConfig :=
  .noPrefixCache [⟨⟨16, zero_lt_sixteen, .fullAttention, 0⟩, false⟩,
    ⟨⟨16, zero_lt_sixteen, .crossAttention, 0⟩, false⟩] 16

/-- A request for text about a short encoder input. -/
def transcriptionRequest (numComputedTokens : Nat) : Request Nat :=
  ⟨"transcription", 33, numComputedTokens, [], by decide, false⟩

/-- The table of cross attention follows the encoder, not the decoder. -/
theorem cross_attention_has_fewer_entries :
    ∃ (state : ScheduledCache Nat) (request : Request Nat) (demand : SlotDemand)
      (newBlocks : List (List BlockId)) (after : KVCacheManager Nat),
      (scheduledSystem Nat).Reachable state /\ IsScheduled state request demand /\
      state.manager.allocateSlots request demand = .ok (some newBlocks, after) /\
      ∃ single ∈ after.coordinator.singleTypeManagers, single.alignBlocks = none /\
        (single.blocks request.requestId).length <
          cdiv (state.manager.numTokensNeedSlot request demand) single.blockSize := by
  have outcome : ∃ state : ScheduledCache Nat,
      ((scheduledSystem Nat).restrict (fun _ _ => True)).Reachable state /\
      (IsScheduled state (transcriptionRequest 0) ⟨33, 0, [], 0, 0, false, 10⟩ /\
        ((state.manager.allocateSlots (transcriptionRequest 0)
          ⟨33, 0, [], 0, 0, false, 10⟩).toOption.any (fun result => result.1.isSome &&
            result.2.coordinator.singleTypeManagers.any (fun single =>
              decide (single.alignBlocks = none /\ (single.blocks "transcription").length <
                cdiv (state.manager.numTokensNeedSlot (transcriptionRequest 0)
                  ⟨33, 0, [], 0, 0, false, 10⟩) single.blockSize)))) = true) := by
    apply exists_afterScheduled encoderDecoderConfig 20 64 64 []
    · decide
    · decide +kernel
  rcases outcome with ⟨state, reachable, scheduled, taken⟩
  rcases (Option.any_eq_true _ _).mp taken with ⟨⟨_, after⟩, done, isTaken⟩
  rw [Bool.and_eq_true, any_eq_true] at isTaken
  rcases isTaken with ⟨isSome, single, member, few⟩
  rcases Option.isSome_iff_exists.mp isSome with ⟨newBlocks, rfl⟩
  exact ⟨state, _, _, newBlocks, after, reachable.of_restrict, scheduled, System.ok_of_toOption done,
    single, member, of_decide_eq_true few⟩

theorem transcription_takes_slots :
    ∃ (state : ScheduledCache Nat) (request : Request Nat) (demand : SlotDemand),
      ((scheduledSystem Nat).restrict CallSafe).Reachable state /\
      IsScheduled state request demand /\ CallSafe state (.allocateSlots request demand) /\
      ((∃ after, state.manager.allocateSlots request demand = .ok (none, after) /\
          NothingTaken state.manager after request demand) \/
        (∃ newBlocks after,
          state.manager.allocateSlots request demand = .ok (some newBlocks, after) /\
          SlotsTaken state.manager after request demand)) := by
  have outcome : ∃ state : ScheduledCache Nat,
      ((scheduledSystem Nat).restrict CallSafe).Reachable state /\
      (IsScheduled state (transcriptionRequest 32) ⟨1, 0, [], 0, 0, false, 10⟩ /\
        CallSafe state (.allocateSlots (transcriptionRequest 32) ⟨1, 0, [], 0, 0, false, 10⟩)) := by
    apply exists_afterScheduled encoderDecoderConfig 20 64 64
      [.allocateSlots (transcriptionRequest 0) ⟨32, 0, [], 0, 0, false, 10⟩]
    · decide
    · decide +kernel
  rcases outcome with ⟨state, reachable, scheduled, safe⟩
  exact ⟨state, _, _, reachable, scheduled, safe,
    allocateSlots_all_or_nothing state reachable _ _ scheduled safe⟩

end Vllm.KVCache
