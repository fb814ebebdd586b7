import Mathlib.Algebra.BigOperators.Ring.Finset
import Mathlib.Algebra.Order.BigOperators.Group.List
import Mathlib.Algebra.Order.Group.Nat
import Mathlib.Data.Int.ConditionallyCompleteOrder
import Mathlib.Data.Nat.Cast.Order.Basic
import Vllm.KVCache.Demand
import Vllm.KVCache.GroupSharing

namespace Vllm.KVCache

open Foundation SingleTypeKVCacheManager Function List

/-!
# Slots for all tokens or none

If the pool has too few free blocks, `allocateSlots` takes nothing and has only
removed blocks that left the window.  Otherwise it takes what it predicted and
no assertion fails.  The three phases that take slots are sweeps, and each one
keeps enough free blocks for what is still to come.
-/

section Sums

variable {H : Type}

/-- The predicted number of blocks of one manager. -/
def foreseen (demand : SingleTypeKVCacheManager H -> Except ManagerError Int)
    (single : SingleTypeKVCacheManager H) : Nat :=
  (((demand single).toOption).getD 0).toNat

variable {demand : SingleTypeKVCacheManager H -> Except ManagerError Int}
  {single : SingleTypeKVCacheManager H}

theorem foreseen_of_ok {count : Nat} (isCount : demand single = .ok (count : Int)) :
    foreseen demand single = count := by
  unfold foreseen
  rw [isCount]
  rfl

variable {managers : List (SingleTypeKVCacheManager H)}

theorem totalDemand_eq
    (natural : ∀ single ∈ managers, ∃ count : Nat, demand single = .ok (count : Int)) :
    KVCacheCoordinator.totalDemand demand managers =
      .ok ((managers.map (foreseen demand)).sum : Nat) := by
  induction managers with
  | nil => rfl
  | cons single rest ih =>
    rcases natural single mem_cons_self with ⟨_, isCount⟩
    rw [KVCacheCoordinator.totalDemand, ih (fun other member =>
      natural other (mem_cons_of_mem _ member)), map_cons, sum_cons,
      foreseen_of_ok isCount]
    simp only [isCount]
    push_cast
    rfl

theorem foreseen_le_sum (member : single ∈ managers) :
    foreseen demand single <= (managers.map (foreseen demand)).sum :=
  single_le_sum (fun _ _ => Nat.zero_le _) _ (mem_map_of_mem member)

end Sums

namespace SingleTypeKVCacheManager

variable {H : Type} {requestId : RequestId} {manager after : SingleTypeKVCacheManager H}
  {slots : Option Nat} {other : RequestId}

theorem Covered.congr (covered : manager.Covered other slots)
    (signature : after.signature = manager.signature)
    (length : (after.blocks other).length = (manager.blocks other).length)
    (numCached : after.numCachedBlock other = manager.numCachedBlock other)
    (allocated : after.allocatedBlockReqs other = manager.allocatedBlockReqs other) :
    after.Covered other slots := by
  unfold Covered at covered ⊢
  rw [numCached, allocated, alignBlocks_congr signature, blockSize_congr signature,
    kvCacheSpec_congr signature, length]
  cases slots with
  | none =>
    refine ⟨eq_nil_of_length_eq_zero ?_, covered.2⟩
    rw [length, covered.1]
    rfl
  | some count => exact covered

theorem Frame.covered (frame : Frame requestId manager after) (different : other ≠ requestId)
    (covered : manager.Covered other slots) :
    after.Covered other slots :=
  covered.congr frame.signature (by rw [frame.blocks other different])
    (frame.numCached other different) (frame.allocated other different)

/-- Blocks that left the window keep their place in the table. -/
theorem Removes.covered {others : BlockId -> Nat} {bound : Nat} {pool poolAfter : BlockPool H}
    {free : List BlockId}
    (removes : Removes others requestId bound manager after pool poolAfter free)
    (covered : manager.Covered other slots) :
    after.Covered other slots := by
  by_cases different : other = requestId
  · subst different
    exact covered.congr removes.frame.signature removes.nulled.length
      (congrFun removes.numCached other) (congrFun removes.allocated other)
  · exact removes.frame.covered different covered

/-- The state of a manager before it takes new blocks for a request. -/
structure ReadyFor (manager : SingleTypeKVCacheManager H) (slots : RequestId -> Option Nat)
    (requestId : RequestId) (numTokensMainModel : Nat) : Prop where
  others : ∀ other, other ≠ requestId -> manager.Covered other (slots other)
  align : ∀ numSpeculativeBlocks, manager.alignBlocks = some numSpeculativeBlocks ->
    manager.AlignReady requestId numTokensMainModel numSpeculativeBlocks /\
      (manager.numCachedBlock requestId).getD 0 <= cdiv numTokensMainModel manager.blockSize

/-- The state of a manager after it took new blocks for a request. -/
structure HasSlots (manager : SingleTypeKVCacheManager H) (slots : RequestId -> Option Nat)
    (requestId : RequestId) (numTokensMainModel numTokens : Nat) : Prop where
  others : ∀ other, other ≠ requestId -> manager.Covered other (slots other)
  covered : manager.Covered requestId (some numTokensMainModel)
  table : manager.alignBlocks = none ->
    cdiv numTokens manager.blockSize <= (manager.blocks requestId).length

end SingleTypeKVCacheManager

section Phases

open SingleTypeKVCacheManager

variable {H : Type} [DecidableEq H] {manager : KVCacheManager H} {request : Request H}
  {demand : SlotDemand} {slots : RequestId -> Option Nat}

/-- The predicted demand of a group. -/
def KVCacheManager.demandOf (manager : KVCacheManager H) (request : Request H)
    (demand : SlotDemand) (pool : BlockPool H) (single : SingleTypeKVCacheManager H) :
    Except ManagerError Int :=
  KVCacheCoordinator.managerDemand request.requestId (manager.numTokensNeedSlot request demand)
    demand.newComputedBlocks demand.numEncoderTokens
    (KVCacheManager.numLocalComputedTokens request demand + demand.numExternalComputedTokens)
    (manager.numTokensMainModel request demand) false single pool

omit [DecidableEq H] in
def KVCacheManager.tokensOf (manager : KVCacheManager H) (request : Request H)
    (demand : SlotDemand) (single : SingleTypeKVCacheManager H) : Nat :=
  single.visitTokens (manager.numTokensNeedSlot request demand) demand.numEncoderTokens

omit [DecidableEq H] in
/-- The number of new blocks that a group takes. -/
def KVCacheManager.needOf (manager : KVCacheManager H) (request : Request H) (demand : SlotDemand)
    (nullBlock : BlockId) (single : SingleTypeKVCacheManager H) : Nat :=
  single.numNewBlocks nullBlock request.requestId (manager.tokensOf request demand single)
    (manager.numTokensMainModel request demand)

/-- The hits of a request for one group. -/
abbrev SlotDemand.hitsOf (demand : SlotDemand) (single : SingleTypeKVCacheManager H) :
    List BlockId :=
  demand.newComputedBlocks.getD single.kvCacheGroupId []

/-- The pool and the managers between two phases. -/
structure Phase (managers : List (SingleTypeKVCacheManager H)) (pool : BlockPool H)
    (free : List BlockId) : Prop where
  pooled : Pooled managers pool free
  groups : (managers.map (fun single => single.kvCacheGroupId)).Nodup
  caching : ∀ single ∈ managers, single.enableCaching = pool.enableCaching
  pending : pool.enableCaching = true -> Pending managers pool

/-- A visit for one request between two phases. -/
structure Visited (requestId : RequestId) (before rest : List (SingleTypeKVCacheManager H))
    (single after : SingleTypeKVCacheManager H) (pool next : BlockPool H)
    (free later : List BlockId) : Prop where
  tables : after.Tables (heldAround before rest) next later
  same : SamePool pool next
  frame : Frame requestId single after
  pending : pool.enableCaching = true -> PendingStep requestId single after pool next free

/-- A sweep that succeeded and ended in a phase. -/
structure Swept {A : Type} (visit : Visit H A) (managers : List (SingleTypeKVCacheManager H))
    (start : BlockPool H) (outputs : List A) (managersAfter : List (SingleTypeKVCacheManager H))
    (next : BlockPool H) (later : List BlockId) : Prop where
  done : forManagers visit managers start = .ok (outputs, managersAfter, next)
  phase : Phase managersAfter next later
  same : SamePool start next
  shape : managersAfter.map signature = managers.map signature

variable {start pool next : BlockPool H} {before rest : List (SingleTypeKVCacheManager H)}
  {single : SingleTypeKVCacheManager H} {free later : List BlockId}
  {managers : List (SingleTypeKVCacheManager H)} {requestId : RequestId}
  {numTokens covers extra : Nat} {held : BlockId -> Nat}

section Sweeps

omit [DecidableEq H]

theorem Phase.unhashed (phase : Phase (before ++ single :: rest) pool free)
    (caching : pool.enableCaching = true) (requestId : RequestId) :
    single.PendingUnhashed pool requestId :=
  (phase.pending caching).unhashed single (by simp) requestId

variable {after : SingleTypeKVCacheManager H}

theorem Phase.visited (phase : Phase (before ++ single :: rest) pool free)
    (visited : Visited requestId before rest single after pool next free later) :
    Phase (before ++ after :: rest) next later := by
  refine ⟨phase.pooled.update visited.same visited.tables, ?_, ?_, ?_⟩
  · simpa [visited.frame.kvCacheGroupId] using phase.groups
  · intro other member
    rw [visited.same.enableCaching]
    rw [mem_append, mem_cons] at member
    rcases member with early | rfl | late
    · exact phase.caching other (by simp [early])
    · rw [visited.frame.enableCaching]
      exact phase.caching single (by simp)
    · exact phase.caching other (by simp [late])
  intro caching
  rw [visited.same.enableCaching] at caching
  exact (phase.pending caching).update phase.pooled phase.groups (visited.pending caching)

/-- A sweep whose visits all succeed.  Each manager is related to what became of
it, and a further property may speak about the free list. -/
theorem Phase.sweep {A : Type} {visit : Visit H A} (phase : Phase managers start free)
    (requestId : RequestId)
    (relation : SingleTypeKVCacheManager H -> SingleTypeKVCacheManager H -> Prop)
    (property : List (SingleTypeKVCacheManager H) -> List (SingleTypeKVCacheManager H) ->
      BlockPool H -> List BlockId -> Prop)
    (step : ∀ single ∈ managers, ∀ before rest pool here,
      Phase (before ++ single :: rest) pool here -> SamePool start pool ->
      property before (single :: rest) pool here ->
      ∃ output after next later, visit single pool = .ok (output, after, next) /\
        Visited requestId before rest single after pool next here later /\
        relation single after /\ property (before ++ [after]) rest next later)
    (initially : property [] managers start free) :
    ∃ outputs managersAfter next later,
      Swept visit managers start outputs managersAfter next later /\
      List.Forall₂ relation managers managersAfter /\ property managersAfter [] next later := by
  rcases Sweep.total
    (fun before rest pool => ∃ here, Phase (before ++ rest) pool here /\ SamePool start pool /\
      (before ++ rest).map signature = managers.map signature /\
      (∃ passed, managers = passed ++ rest /\ List.Forall₂ relation passed before) /\
      property before rest pool here)
    (by
      rintro before single rest pool
        ⟨here, phaseHere, same, shape, ⟨passed, split, related⟩, holds⟩
      rcases step single (by simp [split]) before rest pool here phaseHere same holds with
        ⟨output, after, next, later, done, visited, isRelated, holdsAfter⟩
      refine ⟨output, after, next, done, later, ?_, same.trans visited.same, ?_,
        ⟨passed ++ [single], ?_, rel_append related (.cons isRelated .nil)⟩, holdsAfter⟩
      · rw [append_assoc]
        exact phaseHere.visited visited
      · rw [<- shape]
        simp [visited.frame.signature]
      · rw [split, append_assoc]
        rfl)
    ⟨free, phase, SamePool.refl start, rfl, ⟨[], rfl, .nil⟩, initially⟩ with
    ⟨outputs, managersAfter, next, done, later, phaseAfter, same, shape, ⟨passed, split, related⟩,
      holds⟩
  rw [append_nil] at phaseAfter shape split
  subst split
  exact ⟨outputs, managersAfter, next, later, ⟨done, phaseAfter, same, shape⟩, related, holds⟩

theorem exists_of_forall₂
    {relation : SingleTypeKVCacheManager H -> SingleTypeKVCacheManager H -> Prop}
    {others : List (SingleTypeKVCacheManager H)} (related : List.Forall₂ relation managers others)
    {other : SingleTypeKVCacheManager H} (member : other ∈ others) :
    ∃ single ∈ managers, relation single other := by
  induction related with
  | nil => exact absurd member not_mem_nil
  | cons first _ ih =>
    rcases mem_cons.mp member with rfl | later
    · exact ⟨_, mem_cons_self, first⟩
    rcases ih later with ⟨single, inside, isRelated⟩
    exact ⟨single, mem_cons_of_mem _ inside, isRelated⟩

theorem forall_of_forall₂ {property : SingleTypeKVCacheManager H -> Prop}
    {others : List (SingleTypeKVCacheManager H)}
    (related : List.Forall₂ (fun _ other => property other) managers others) :
    ∀ other ∈ others, property other := by
  intro other member
  rcases exists_of_forall₂ related member with ⟨-, -, holds⟩
  exact holds

theorem silently_ok
    (visit : SingleTypeKVCacheManager H -> BlockPool H ->
      Except ManagerError (SingleTypeKVCacheManager H × BlockPool H))
    (done : visit single pool = .ok (after, next)) :
    silently visit single pool = .ok ((), after, next) := by
  simp only [silently, done]

end Sweeps

/-- What is assumed of a new request. -/
structure EntersNew (manager : KVCacheManager H) (request : Request H) (demand : SlotDemand)
    (slots : RequestId -> Option Nat) (single : SingleTypeKVCacheManager H) (pool : BlockPool H) :
    Prop where
  safe : EntersSafely pool demand.newComputedBlocks
    (KVCacheManager.numLocalComputedTokens request demand) demand.numExternalComputedTokens single
  new : single.Covered request.requestId none
  others : ∀ other, other ≠ request.requestId -> single.Covered other (slots other)
  allowed : pool.enableCaching = true \/ demand.hitsOf single = []
  cross : single.kvCacheSpec.kind = .crossAttention -> demand.hitsOf single = []
  align : ∀ numSpeculativeBlocks, single.alignBlocks = some numSpeculativeBlocks ->
    demand.numExternalComputedTokens = 0 /\ (demand.hitsOf single).length <=
      cdiv (manager.numTokensMainModel request demand) single.blockSize
  foreseen : ∃ count : Nat, manager.demandOf request demand pool single = .ok (count : Int) /\
    count <= pool.numGpuBlocks

omit [DecidableEq H] in
/-- The hits that wait in the free queue were counted as evictable. -/
theorem length_le_filter_add_evictable (owned : Owned start held free)
    (inside : ∀ block ∈ later, block ∈ free) (nodup : later.Nodup) (kept : List BlockId) :
    later.length <= (later.filter (fun block => block ∉ kept)).length +
      getNumEvictableBlocks start kept := by
  have hits : (later.filter fun block => block ∈ kept).length <=
      getNumEvictableBlocks start kept := by
    unfold getNumEvictableBlocks
    apply List.Subperm.length_le
    apply subperm_of_subset (nodup.filter _)
    intro block member
    rw [mem_filter, decide_eq_true_eq] at member
    rcases (owned.free_iff block).mp (inside block member.1) with ⟨-, notNull, unheld⟩
    have unreferenced : start.refCnt block = 0 := by
      rw [owned.refCnt block notNull, unheld]
      rfl
    simp [member.2, unreferenced, notNull]
  have split := length_eq_length_filter_add (l := later) fun block => decide (block ∈ kept)
  simp only [<- decide_not] at split
  omega

section Fitting

variable (fits : manager.numTokensMainModel request demand <=
  manager.numTokensNeedSlot request demand)
include fits

section Enter

variable (more : KVCacheManager.numLocalComputedTokens request demand +
  demand.numExternalComputedTokens <= manager.numTokensMainModel request demand)
include more

theorem enter_step {startFree : List BlockId} (phase : Phase (before ++ single :: rest) pool free)
    (same : SamePool start pool) (owned : Owned start held startFree)
    (inside : ∀ block ∈ free, block ∈ startFree)
    (new : EntersNew manager request demand slots single start)
    (enough : foreseen (manager.demandOf request demand start) single + extra <= free.length) :
    ∃ after next later, enterVisit request demand single pool = .ok ((), after, next) /\
      Visited request.requestId before rest single after pool next free later /\
      after.ReadyFor slots request.requestId (manager.numTokensMainModel request demand) /\
      (∀ block ∈ later, block ∈ startFree) /\
      manager.needOf request demand start.nullBlock after + extra <= later.length := by
  have tables := phase.pooled.focus
  have safe := new.safe.of_same same
  rcases new.foreseen with ⟨_, predicted, few⟩
  rw [foreseen_of_ok predicted] at enough
  by_cases cross : single.kvCacheSpec.kind = .crossAttention
  · refine ⟨single, pool, free, ?_, ⟨tables, SamePool.refl pool, Frame.refl _ _, fun caching =>
      .of_fewer (Frame.refl _ _) (SamePool.refl pool) (SameHashes.refl pool)
        (phase.unhashed caching _) fun _ isPending _ => isPending⟩, ⟨new.others, ?_⟩, inside, ?_⟩
    · simp only [enterVisit, silently, allocateNewComputedBlocks, cross, new.cross cross, if_true]
    · rw [plain_of_cross cross]
      intro _ none
      cases none
    have covers := demand_cross (by exact_mod_cast few) predicted cross
    unfold KVCacheManager.needOf KVCacheManager.tokensOf
    omega
  rcases new.new with ⟨empty, uncached, unallocated⟩
  have waiting := length_le_filter_add_evictable owned inside
    phase.pooled.owned.represents.nodup (single.enteredHits request demand)
  unfold enteredHits at waiting
  have covers := demand_new cross uncached empty new.safe.fit (by exact_mod_cast few) predicted
    unallocated new.align (more.trans fits)
  have allowed : single.enableCaching = true \/ single.enteredHits request demand = [] := by
    rcases new.allowed with caching | none_new
    · left
      rw [phase.caching single (by simp), same.enableCaching]
      exact caching
    right
    exact (congrArg (fun hits => single.keptHits hits _ _) none_new).trans drop_nil
  rcases baseAllocateNewComputedBlocks_spec tables uncached empty safe.valid safe.distinct allowed
    safe.fit (Or.inl (by omega)) with ⟨after, next, _, later, done, enters⟩
  have later_few := enters.numNewBlocks_le cross unallocated new.align more start.nullBlock
    (manager.numTokensNeedSlot request demand) demand.numEncoderTokens
  refine ⟨after, next, later, ?_, ⟨enters.tables, enters.same, enters.frame,
    fun caching => enters.pendingStep caching⟩, ⟨?_, ?_⟩, ?_, ?_⟩
  · apply silently_ok
    unfold allocateNewComputedBlocks
    split
    case h_1 isCross => exact absurd isCross cross
    case h_2 => exact done
  · exact fun other different => enters.frame.covered different (new.others other different)
  · intro numSpeculative align
    rw [alignBlocks_congr enters.frame.signature] at align
    rcases new.align numSpeculative align with ⟨local_only, fit⟩
    exact enters.alignReady align (unallocated (by rw [align]; rfl)) local_only fit more
  · intro block member
    apply inside
    apply mem_of_mem_filter
    rw [enters.split]
    exact mem_append_right _ member
  · have length := congrArg List.length enters.split
    rw [length_append, enters.length] at length
    unfold KVCacheManager.needOf KVCacheManager.tokensOf
    omega

/-- All groups enter the hits of a new request and leave enough free blocks. -/
theorem enter_total (phase : Phase managers start free)
    (new : ∀ single ∈ managers, EntersNew manager request demand slots single start)
    (enough : (managers.map (foreseen (manager.demandOf request demand start))).sum <= free.length) :
    ∃ outputs managersAfter next later,
      Swept (enterVisit request demand) managers start outputs managersAfter next later /\
      (managersAfter.map (manager.needOf request demand next.nullBlock)).sum <= later.length /\
      ∀ single ∈ managersAfter, single.ReadyFor slots request.requestId
        (manager.numTokensMainModel request demand) := by
  rcases phase.sweep request.requestId
    (fun _ after => after.ReadyFor slots request.requestId
      (manager.numTokensMainModel request demand))
    (fun before rest _ here => (∀ block ∈ here, block ∈ free) /\
      (rest.map (foreseen (manager.demandOf request demand start))).sum +
        (before.map (manager.needOf request demand start.nullBlock)).sum <= here.length)
    (by
      rintro single member before rest pool here phaseHere same ⟨inside, sum⟩
      rw [map_cons, sum_cons, Nat.add_assoc] at sum
      rcases enter_step fits more phaseHere same phase.pooled.owned inside (new single member) sum
        with ⟨after, next, later, done, visited, ready, insideAfter, _⟩
      refine ⟨(), after, next, later, done, visited, ready, insideAfter, ?_⟩
      rw [map_append, sum_append, map_singleton, sum_singleton]
      omega)
    ⟨fun _ member => member, by simpa using enough⟩ with
    ⟨outputs, managersAfter, next, later, swept, ready, -, sum⟩
  refine ⟨outputs, managersAfter, next, later, swept, ?_, forall_of_forall₂ ready⟩
  rw [swept.same.nullBlock]
  simpa using sum

end Enter

omit [DecidableEq H] fits in
theorem le_cdiv_mul {a b : Nat} (positive : 0 < b) : a <= cdiv a b * b := by
  by_contra above
  exact absurd ((lt_cdiv_iff positive).mpr (Nat.not_le.mp above)) (Nat.lt_irrefl _)

theorem extend_step (phase : Phase (before ++ single :: rest) pool free)
    (ready : single.ReadyFor slots request.requestId (manager.numTokensMainModel request demand))
    (enough : manager.needOf request demand pool.nullBlock single + extra <= free.length) :
    ∃ newBlocks after next later,
      single.allocateNewBlocks pool request.requestId (manager.tokensOf request demand single)
        (manager.numTokensMainModel request demand) = .ok (newBlocks, after, next) /\
      Visited request.requestId before rest single after pool next free later /\
      after.HasSlots slots request.requestId (manager.numTokensMainModel request demand)
        (manager.tokensOf request demand after) /\ extra <= later.length := by
  rcases allocateNewBlocks_total phase.pooled.focus
    (fun numSpeculative align => (ready.align numSpeculative align).1)
    (Nat.le_of_add_right_le enough) with
    ⟨newBlocks, after, next, _, _, later, done, takes, taken_length, length, stays⟩
  have align := alignBlocks_congr takes.frame.signature
  have size := blockSize_congr takes.frame.signature
  have spec := takes.frame.kvCacheSpec
  have tokens : manager.tokensOf request demand after = manager.tokensOf request demand single := by
    unfold KVCacheManager.tokensOf visitTokens
    rw [spec]
  refine ⟨newBlocks, after, next, later, done, ⟨takes.tables, takes.same, takes.frame,
    fun caching => takes.pendingStep caching (phase.unhashed caching _) stays⟩,
    ⟨fun other different => takes.frame.covered different (ready.others other different), ?_, ?_⟩,
    ?_⟩
  · cases isAlign : single.alignBlocks with
    | some numSpeculative =>
      have cached := (ready.align numSpeculative isAlign).2
      simp only [Covered, align, isAlign, size, takes.numCached]
      refine ⟨?_, cached⟩
      rw [length]
      simp only [numBlocksAfter, isAlign, numAlignedBlocks]
    | none =>
      simp only [Covered, align, isAlign, size, spec]
      by_cases cross : single.kvCacheSpec.kind = .crossAttention
      · exact Or.inl cross
      right
      have slot := le_cdiv_mul (a := single.slotTokens
        (manager.tokensOf request demand single)) single.blockSize_pos
      have bound := single.le_slotTokens (manager.tokensOf request demand single)
      rw [KVCacheManager.tokensOf, visitTokens_of_ne cross] at slot bound
      rw [length]
      simp only [numBlocksAfter, isAlign]
      rw [KVCacheManager.tokensOf, visitTokens_of_ne cross]
      calc manager.numTokensMainModel request demand
        _ <= cdiv (single.slotTokens (manager.numTokensNeedSlot request demand))
            single.blockSize * single.blockSize := by omega
        _ <= _ := Nat.mul_le_mul_right _ (Nat.le_max_right _ _)
  · intro plain
    rw [align] at plain
    rw [tokens, size, length]
    simp only [numBlocksAfter, plain]
    exact (single.cdiv_slotTokens_le (Nat.le_refl _)).trans (Nat.le_max_right _ _)
  · have split := congrArg List.length takes.split
    rw [length_append, taken_length] at split
    unfold KVCacheManager.needOf at enough
    omega

theorem extend_total (phase : Phase managers start free)
    (ready : ∀ single ∈ managers, single.ReadyFor slots request.requestId
      (manager.numTokensMainModel request demand))
    (enough : (managers.map (manager.needOf request demand start.nullBlock)).sum <= free.length) :
    ∃ newBlocks managersAfter next later,
      Swept (fun single pool => single.allocateNewBlocks pool request.requestId
        (manager.tokensOf request demand single) (manager.numTokensMainModel request demand))
          managers start newBlocks managersAfter next later /\
      ∀ single ∈ managersAfter, single.HasSlots slots request.requestId
        (manager.numTokensMainModel request demand) (manager.tokensOf request demand single) := by
  rcases phase.sweep request.requestId
    (fun _ after => after.HasSlots slots request.requestId
      (manager.numTokensMainModel request demand) (manager.tokensOf request demand after))
    (fun _ rest _ here =>
      (rest.map (manager.needOf request demand start.nullBlock)).sum <= here.length)
    (by
      intro single member before rest pool here phaseHere same sum
      rw [map_cons, sum_cons, <- same.nullBlock] at sum
      rw [<- same.nullBlock]
      exact extend_step fits phaseHere (ready single member) sum)
    enough with
    ⟨newBlocks, managersAfter, next, later, swept, finished, -⟩
  exact ⟨newBlocks, managersAfter, next, later, swept, forall_of_forall₂ finished⟩

end Fitting

theorem commit_step (phase : Phase (before ++ single :: rest) pool free)
    (caching : pool.enableCaching = true) (notCross : single.kvCacheSpec.kind ≠ .crossAttention)
    (hashed : single.HashesCover pool request.blockHashes numTokens) (few : numTokens <= covers)
    (covered : single.Covered request.requestId (some covers)) :
    ∃ after next, single.cacheBlocks pool request numTokens = .ok (after, next) /\
      Visited request.requestId before rest single after pool next free free /\
      after.Covered request.requestId (some covers) /\
      after.blocks request.requestId = single.blocks request.requestId := by
  have unhashed := phase.unhashed caching request.requestId
  rcases cacheBlocks_total phase.pooled.focus unhashed hashed notCross with
    ⟨after, next, done, caches⟩
  refine ⟨after, next, done, ⟨caches.tables, caches.same, caches.frame,
    fun _ => caches.pendingStep phase.pooled.focus unhashed⟩, ?_, caches.blocks⟩
  have align := alignBlocks_congr caches.frame.signature
  have size := blockSize_congr caches.frame.signature
  unfold Covered at covered ⊢
  simp only [align, size, caches.blocks, caches.numCached, caches.frame.kvCacheSpec] at covered ⊢
  cases isAlign : single.alignBlocks with
  | none =>
    rw [isAlign] at covered
    exact covered
  | some numSpeculative =>
    rw [isAlign] at covered
    have full : numTokens / single.blockSize <= cdiv covers single.blockSize := by
      unfold cdiv
      apply Nat.div_le_div_right
      have positive := single.blockSize_pos
      omega
    exact ⟨covered.1, Nat.max_le.mpr ⟨covered.2, full⟩⟩

theorem commit_total (phase : Phase managers start free)
    {tokens : SingleTypeKVCacheManager H -> Nat}
    (tokens_congr : ∀ single after : SingleTypeKVCacheManager H,
      after.signature = single.signature -> tokens after = tokens single)
    (caching : start.enableCaching = true)
    (notCross : ∀ single ∈ managers, single.kvCacheSpec.kind ≠ .crossAttention)
    (hashed : ∀ single ∈ managers, single.HashesCover start request.blockHashes numTokens)
    (few : numTokens <= covers)
    (hasSlots : ∀ single ∈ managers, single.HasSlots slots request.requestId covers (tokens single)) :
    ∃ outputs managersAfter next later,
      Swept (silently (fun single pool => single.cacheBlocks pool request numTokens)) managers
        start outputs managersAfter next later /\
      ∀ single ∈ managersAfter, single.HasSlots slots request.requestId covers (tokens single) := by
  rcases phase.sweep request.requestId
    (fun _ after => after.HasSlots slots request.requestId covers (tokens after))
    (fun _ _ _ _ => True)
    (by
      intro single member before rest pool here phaseHere same _
      have slotsHere := hasSlots single member
      have hashedHere : single.HashesCover pool request.blockHashes numTokens := by
        unfold HashesCover
        rw [same.hashBlockSize]
        exact hashed single member
      rcases commit_step phaseHere (same.enableCaching.trans caching) (notCross single member)
        hashedHere few slotsHere.covered with ⟨after, next, done, visited, covered, blocks⟩
      have signature := visited.frame.signature
      refine ⟨(), after, next, here,
        silently_ok (fun single pool => single.cacheBlocks pool request numTokens) done, visited,
        ⟨fun other different => visited.frame.covered different (slotsHere.others other different),
          covered, ?_⟩, trivial⟩
      rw [alignBlocks_congr signature, tokens_congr single after signature,
        blockSize_congr signature, blocks]
      exact slotsHere.table)
    trivial with
    ⟨outputs, managersAfter, next, later, swept, finished, -⟩
  exact ⟨outputs, managersAfter, next, later, swept, forall_of_forall₂ finished⟩

/-- A manager in which only entries of one table became null, before some
position. -/
structure OnlyRemoves (requestId : RequestId) (nullBlock : BlockId) (bound : Nat)
    (single after : SingleTypeKVCacheManager H) : Prop where
  table : after = single \/ ∃ blocks, after = single.setBlocks requestId blocks
  nulled : Nulled nullBlock bound (single.blocks requestId) (after.blocks requestId)

omit [DecidableEq H]

theorem baseRemoveSkippedBlocks_table {after : SingleTypeKVCacheManager H}
    (done : single.baseRemoveSkippedBlocks pool requestId numTokens = .ok (after, next)) :
    after = single \/ ∃ blocks, after = single.setBlocks requestId blocks := by
  unfold baseRemoveSkippedBlocks at done
  dsimp only at done
  split at done
  · cases done
    exact Or.inl rfl
  split at done
  · cases done
  cases done
  exact Or.inr ⟨_, rfl⟩

theorem setBlocks_setBlocks
    {first second : List BlockId} :
    (single.setBlocks requestId first).setBlocks requestId second =
      single.setBlocks requestId second := by
  unfold setBlocks
  rw [Dict.set_set]

theorem removeSkippedBlocks_table {after : SingleTypeKVCacheManager H}
    (done : single.removeSkippedBlocks pool requestId numTokens = .ok (after, next)) :
    after = single \/ ∃ blocks, after = single.setBlocks requestId blocks := by
  unfold removeSkippedBlocks at done
  split at done
  case h_2 => exact baseRemoveSkippedBlocks_table done
  case h_1 mode numSpeculative kind =>
    dsimp only at done
    split at done
    · cases done
    case h_2 middle poolMiddle first =>
      have table := baseRemoveSkippedBlocks_table first
      split at done
      case isFalse =>
        cases done
        exact table
      case isTrue =>
        unfold freeLastState at done
        split at done
        · cases done
          exact table
        dsimp only at done
        split at done
        · split at done
          · cases done
          cases done
          right
          rcases table with rfl | ⟨blocks, rfl⟩
          · exact ⟨_, rfl⟩
          · exact ⟨_, setBlocks_setBlocks⟩
        · cases done
          exact table

/-- Removing what left the window succeeds and does nothing else. -/
theorem remove_total (phase : Phase managers start free)
    (covered : ∀ single ∈ managers, ∀ other, single.Covered other (slots other)) :
    ∃ outputs managersAfter next later,
      Swept (silently (fun single pool => single.removeSkippedBlocks pool requestId numTokens))
        managers start outputs managersAfter next later /\
      SameHashes start next /\
      List.Forall₂ (fun single after => OnlyRemoves requestId start.nullBlock
        (single.numRemovable numTokens) single after) managers managersAfter /\
      (∀ single ∈ managersAfter, ∀ other, single.Covered other (slots other)) := by
  rcases phase.sweep requestId
    (fun single after => OnlyRemoves requestId start.nullBlock (single.numRemovable numTokens)
      single after /\ ∀ other, after.Covered other (slots other))
    (fun _ _ pool _ => SameHashes start pool)
    (by
      intro single member before rest pool here phaseHere same hashes
      rcases removeSkippedBlocks_spec phaseHere.pooled.focus with
        ⟨after, next, done, removes⟩
      rcases removes.tables with ⟨freed, tables⟩
      refine ⟨(), after, next, here ++ freed, silently_ok (fun single pool =>
        single.removeSkippedBlocks pool requestId numTokens) done, ⟨tables, removes.same,
        removes.frame, fun caching => removes.pendingStep (phaseHere.unhashed caching requestId)⟩,
        ⟨⟨removeSkippedBlocks_table done, ?_⟩, fun other => removes.covered
          (covered single member other)⟩, hashes.trans removes.hashes⟩
      rw [<- same.nullBlock]
      exact removes.nulled)
    (SameHashes.refl start) with
    ⟨outputs, managersAfter, next, later, swept, related, hashes⟩
  refine ⟨outputs, managersAfter, next, later, swept, hashes, related.imp (fun _ _ both => both.1),
    forall_of_forall₂ (related.imp fun _ _ both => both.2)⟩

theorem free_total (phase : Phase managers start free)
    (covered : ∀ single ∈ managers, ∀ other, single.Covered other (slots other)) :
    ∃ outputs managersAfter next later,
      Swept (silently (fun single pool => single.free pool requestId)) managers start outputs
        managersAfter next later /\
      ∀ single ∈ managersAfter, ∀ other,
        single.Covered other (update slots requestId none other) := by
  rcases phase.sweep requestId
    (fun _ after => ∀ other,
      after.Covered other (update slots requestId none other))
    (fun _ _ _ _ => True)
    (by
      intro single member before rest pool here phaseHere same _
      rcases free_spec phaseHere.pooled.focus with
        ⟨after, next, freed, done, tables, sameAfter, hashes, frame, empty, uncached⟩
      refine ⟨(), after, next, here ++ freed,
        silently_ok (fun single pool => single.free pool requestId) done,
        ⟨tables, sameAfter, frame, ?_⟩,
        fun request => ?_, trivial⟩
      · intro caching
        apply PendingStep.of_fewer frame sameAfter hashes (phaseHere.unhashed caching requestId)
        intro block isPending
        unfold SingleTypeKVCacheManager.pending at isPending
        rw [empty, drop_nil] at isPending
        exact absurd isPending not_mem_nil
      by_cases here : request = requestId
      · rw [here, update_self]
        refine ⟨empty, uncached, fun isAlign => ?_⟩
        rw [alignBlocks_congr frame.signature] at isAlign
        rcases Option.isSome_iff_exists.mp isAlign with ⟨_, align⟩
        exact free_allocated done (alignBlocks_eq_some align)
      · rw [update_of_ne here]
        exact frame.covered here (covered single member request))
    trivial with
    ⟨outputs, managersAfter, next, later, swept, finished, -⟩
  exact ⟨outputs, managersAfter, next, later, swept, forall_of_forall₂ finished⟩

end Phases

end Vllm.KVCache
