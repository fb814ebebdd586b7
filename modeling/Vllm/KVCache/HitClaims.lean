import Vllm.KVCache.Separation

namespace Vllm.KVCache

open Foundation SingleTypeKVCacheManager List
open KVCacheManager (numLocalComputedTokens)

/-!
# Claims of groups on the free queue

The groups enter the hits of a new request one after the other.  A group that
takes blocks for external tokens takes them from the front of the free queue,
where hits of a later group may still be waiting.  Then the later group enters a
block that already belongs to the earlier one and that lost its hash.  If this
does not happen, the groups stay apart.
-/

/-- Every claim is a list of hits and a number of further blocks.  No claim
takes a hit of a later claim from the free list. -/
def HitsSpared : List (List BlockId × Nat) -> List BlockId -> Prop
  | [], _ => True
  | (hits, count) :: rest, free =>
    (∀ block ∈ (free.filter (fun block => block ∉ hits)).take count,
      ∀ claim ∈ rest, block ∉ claim.1) /\
    HitsSpared rest ((free.filter (fun block => block ∉ hits)).drop count)

instance : (claims : List (List BlockId × Nat)) -> (free : List BlockId) ->
    Decidable (HitsSpared claims free)
  | [], _ => inferInstanceAs (Decidable True)
  | (hits, count) :: rest, free =>
    have := instDecidableHitsSpared rest ((free.filter (fun block => block ∉ hits)).drop count)
    inferInstanceAs (Decidable (_ /\ _))

theorem hitsSpared_of_no_hits {claims : List (List BlockId × Nat)}
    (empty : ∀ claim ∈ claims, claim.1 = []) (free : List BlockId) : HitsSpared claims free := by
  induction claims generalizing free with
  | nil => trivial
  | cons claim rest ih =>
    refine ⟨?_, ih (fun later member => empty later (mem_cons_of_mem _ member)) _⟩
    intro block _ later member
    rw [empty later (mem_cons_of_mem _ member)]
    exact not_mem_nil

variable {block : BlockId}

section Claims

variable {H : Type}

variable (request : Request H) (demand : SlotDemand) (manager : SingleTypeKVCacheManager H)

/-- What a group enters and takes for the hits of a request.  Cross attention
and requests that already run enter nothing. -/
def SingleTypeKVCacheManager.claimOf : List BlockId × Nat :=
  if manager.kvCacheSpec.kind = .crossAttention \/
      (manager.numCachedBlock request.requestId).isSome then
    ([], 0)
  else
    let hits := demand.newComputedBlocks.getD manager.kvCacheGroupId []
    (manager.keptHits hits (numLocalComputedTokens request demand)
        demand.numExternalComputedTokens,
      manager.numExternalBlocks hits (numLocalComputedTokens request demand)
        demand.numExternalComputedTokens)

/-- The hits of a request that its table in a group keeps. -/
abbrev SingleTypeKVCacheManager.enteredHits : List BlockId :=
  manager.keptHits (demand.newComputedBlocks.getD manager.kvCacheGroupId [])
    (numLocalComputedTokens request demand) demand.numExternalComputedTokens

variable {manager} {after : SingleTypeKVCacheManager H} {demand} {request}

section

variable (signature : after.signature = manager.signature)
include signature

/-- How many blocks are skipped depends only on the group. -/
theorem numSkippedBlocks_congr (numTokens : Nat) :
    after.numSkippedBlocks numTokens = manager.numSkippedBlocks numTokens := by
  have spec := kvCacheSpec_congr signature
  unfold numSkippedBlocks getNumSkippedTokens blockSize
  rw [spec]

theorem keptHits_congr (hits : List BlockId) (numLocal numExternal : Nat) :
    after.keptHits hits numLocal numExternal = manager.keptHits hits numLocal numExternal := by
  unfold keptHits
  rw [numSkippedBlocks_congr signature]

/-- Claims depend on the group and on whether the request is new. -/
theorem claimOf_congr
    (numCached : after.numCachedBlock request.requestId = manager.numCachedBlock request.requestId) :
    after.claimOf request demand = manager.claimOf request demand := by
  have spec := kvCacheSpec_congr signature
  have groupId := groupId_congr signature
  have external (numLocal numExternal : Nat) :
      after.numExternalTokens numLocal numExternal =
        manager.numExternalTokens numLocal numExternal := by
    unfold numExternalTokens getNumSkippedTokens
    simp only [numSkippedBlocks_congr signature]
    rw [spec]
  unfold claimOf numExternalBlocks blockSize
  simp only [numSkippedBlocks_congr signature, keptHits_congr signature, external, numCached, spec,
    groupId]

end

theorem claimOf_no_hits (none_new : demand.newComputedBlocks.getD manager.kvCacheGroupId [] = []) :
    (manager.claimOf request demand).1 = [] := by
  unfold claimOf
  split
  · rfl
  dsimp only
  rw [none_new]
  exact drop_nil

theorem claimOf_hit (isHit : block ∈ (manager.claimOf request demand).1) :
    block ∈ demand.newComputedBlocks.getD manager.kvCacheGroupId [] := by
  unfold claimOf at isHit
  split at isHit
  · exact absurd isHit not_mem_nil
  · exact mem_of_mem_drop isHit

/-- What entering the hits of a request does, in terms of the claim. -/
structure EntersClaim (others : BlockId -> Nat) (request : Request H) (demand : SlotDemand)
    (manager after : SingleTypeKVCacheManager H) (pool poolAfter : BlockPool H)
    (free taken freeAfter : List BlockId) : Prop where
  split : free.filter (fun block => block ∉ (manager.claimOf request demand).1) =
    taken ++ freeAfter
  length : taken.length = (manager.claimOf request demand).2
  tables : after.Tables others poolAfter freeAfter
  same : SamePool pool poolAfter
  forgets : Forgets pool poolAfter taken
  signature : after.signature = manager.signature
  counts : ∀ block, block ≠ pool.nullBlock -> after.tableCount block =
    manager.tableCount block + (manager.claimOf request demand).1.count block + taken.count block
  entered : ∀ block ∈ (manager.claimOf request demand).1, block ∈ after.blocks request.requestId
  taken_entered : ∀ block ∈ taken, block ∈ after.blocks request.requestId
  complete : (manager.claimOf request demand).1 =
    manager.keptHits (demand.newComputedBlocks.getD manager.kvCacheGroupId [])
      (numLocalComputedTokens request demand) demand.numExternalComputedTokens

namespace EntersClaim

variable {others : BlockId -> Nat} {pool poolAfter : BlockPool H}
  {free taken freeAfter : List BlockId}

section

variable
    (enters : EntersClaim others request demand manager after pool poolAfter free taken freeAfter)
include enters

theorem taken_spec :
    taken = (free.filter (fun block => block ∉ (manager.claimOf request demand).1)).take
        (manager.claimOf request demand).2 /\
      freeAfter = (free.filter (fun block => block ∉ (manager.claimOf request demand).1)).drop
        (manager.claimOf request demand).2 := by
  rw [enters.split, <- enters.length]
  exact ⟨take_left.symm, drop_left.symm⟩

theorem taken_free (isTaken : block ∈ taken) :
    block ∈ free /\ block ∉ (manager.claimOf request demand).1 := by
  have filtered : block ∈ free.filter
      (fun block => block ∉ (manager.claimOf request demand).1) := by
    rw [enters.split]
    exact mem_append_left _ isTaken
  simpa using filtered

end

/-- Entering hits that nobody else holds is contained. -/
theorem contained (tables : manager.Tables others pool free)
    (enters : EntersClaim others request demand manager after pool poolAfter free taken freeAfter)
    (intact : ∀ block ∈ (manager.claimOf request demand).1, block ≠ pool.nullBlock ->
      (∃ hash, pool.blockHash block = some ⟨hash, manager.kvCacheGroupId⟩) /\
        others block = 0) : Contained others manager after pool poolAfter := by
  have fewer {block : BlockId} (notNull : block ≠ pool.nullBlock) (notTaken : block ∉ taken)
      (notHit : block ∉ (manager.claimOf request demand).1) :
      after.tableCount block <= manager.tableCount block := by
    rw [enters.counts block notNull, count_eq_zero_of_not_mem notTaken,
      count_eq_zero_of_not_mem notHit]
    exact Nat.le_refl _
  refine ⟨?_, ?_⟩
  · intro block notNull
    by_cases isTaken : block ∈ taken
    · exact Or.inr (tables.unheld (enters.taken_free isTaken).1)
    by_cases isHit : block ∈ (manager.claimOf request demand).1
    · exact Or.inr (intact block isHit notNull).2
    · exact Or.inl (fewer notNull isTaken isHit)
  intro caching block key notNull hash
  rcases enters.forgets.hash caching hash with ⟨notTaken, hash⟩
  by_cases isHit : block ∈ (manager.claimOf request demand).1
  · rcases intact block isHit notNull with ⟨⟨_, isHash⟩, alone⟩
    rw [isHash, Option.some.injEq] at hash
    exact Or.inr ⟨by rw [<- hash], alone⟩
  · exact Or.inl ⟨hash, fewer notNull notTaken isHit⟩

end EntersClaim

variable [DecidableEq H]

/-- What a group does when the hits of a request are entered into its table. -/
abbrev enterVisit (request : Request H) (demand : SlotDemand)
    (manager : SingleTypeKVCacheManager H) (pool : BlockPool H) :
    Except ManagerError (Unit × SingleTypeKVCacheManager H × BlockPool H) :=
  silently (fun manager pool =>
    manager.allocateNewComputedBlocks pool request.requestId
      (demand.newComputedBlocks.getD manager.kvCacheGroupId [])
      (numLocalComputedTokens request demand)
      demand.numExternalComputedTokens) manager pool

theorem enterVisit_entersClaim {others : BlockId -> Nat} {pool poolAfter : BlockPool H}
    {free : List BlockId} {output : Unit} (tables : manager.Tables others pool free)
    (safe : EntersSafely pool demand.newComputedBlocks
      (numLocalComputedTokens request demand) demand.numExternalComputedTokens
      manager) (visited : enterVisit request demand manager pool = .ok (output, after, poolAfter)) :
    ∃ taken freeAfter,
      EntersClaim others request demand manager after pool poolAfter free taken freeAfter := by
  rcases allocateNewComputedBlocks_cases tables safe.valid safe.distinct
    safe.fit (silently_eq_ok visited) with
    ⟨none_new, rfl, rfl, old⟩ | ⟨notCross, new, empty, taken, freeAfter, enters⟩
  · have none_claimed : after.claimOf request demand = ([], 0) := if_pos old
    refine ⟨[], free, ?_, ?_, tables, SamePool.refl _,
      ⟨fun _ _ => rfl, by simp⟩, rfl, ?_, ?_, ?_, ?_⟩
    · simp [none_claimed]
    · rw [none_claimed]
      rfl
    · simp [none_claimed]
    · simp [none_claimed]
    · simp
    · rw [none_claimed, none_new]
      exact drop_nil.symm
  have claimed : manager.claimOf request demand =
      (manager.enteredHits request demand,
        manager.numExternalBlocks (demand.newComputedBlocks.getD manager.kvCacheGroupId [])
          (numLocalComputedTokens request demand)
          demand.numExternalComputedTokens) := by
    apply if_neg
    simp [notCross, new]
  refine ⟨taken, freeAfter, ?_, ?_, enters.tables, enters.same, enters.forgets,
    enters.frame.signature, ?_, ?_, ?_, by rw [claimed]⟩
  · rw [claimed]
    exact enters.split
  · rw [claimed]
    exact enters.length
  · intro block notNull
    have counts := enters.frame.counts block
    rw [enters.blocks, empty, count_append, count_append, count_replicate,
      if_neg (by simpa using Ne.symm notNull), count_nil] at counts
    rw [claimed]
    dsimp only [enteredHits]
    omega
  · intro block isHit
    rw [claimed] at isHit
    rw [enters.blocks]
    exact mem_append_left _ (mem_append_right _ isHit)
  · intro block isTaken
    rw [enters.blocks]
    exact mem_append_right _ isTaken

end Claims

section Entering

variable {H : Type}

/-- The facts about a sweep that enters hits which do not depend on what the
groups claim. -/
structure Entering (request : Request H) (demand : SlotDemand) (start : BlockPool H)
    (before rest : List (SingleTypeKVCacheManager H)) (pool : BlockPool H) (free : List BlockId) :
    Prop where
  pooled : Pooled (before ++ rest) pool free
  same : SamePool start pool
  safe : ∀ manager ∈ rest, EntersSafely start demand.newComputedBlocks
    (numLocalComputedTokens request demand) demand.numExternalComputedTokens manager
  groups : ((before ++ rest).map (fun manager => manager.kvCacheGroupId)).Nodup

theorem EntersSafely.of_same {start pool : BlockPool H} {newComputedBlocks : List (List BlockId)}
    {numLocalComputedTokens numExternalComputedTokens : Nat} {manager : SingleTypeKVCacheManager H}
    (safe : EntersSafely start newComputedBlocks numLocalComputedTokens numExternalComputedTokens
      manager) (same : SamePool start pool) :
    EntersSafely pool newComputedBlocks numLocalComputedTokens numExternalComputedTokens
      manager := by
  refine ⟨?_, ?_, safe.fit⟩
  · rw [same.nullBlock, same.numGpuBlocks]
    exact safe.valid
  rw [same.nullBlock]
  exact safe.distinct

theorem exists_of_heldBy_pos {managers : List (SingleTypeKVCacheManager H)}
    (held : 0 < heldBy managers block) : ∃ manager ∈ managers, 0 < manager.tableCount block := by
  by_contra nobody
  push Not at nobody
  have zero : heldBy managers block = 0 := by
    apply sum_eq_zero
    intro count member
    rcases mem_map.mp member with ⟨manager, inside, rfl⟩
    exact Nat.le_zero.mp (nobody manager inside)
  omega

/-- A block with the hash of a group is in no table of another group. -/
theorem Entering.unheld {request : Request H} {demand : SlotDemand} {start pool : BlockPool H}
    {before rest : List (SingleTypeKVCacheManager H)} {manager : SingleTypeKVCacheManager H}
    {free : List BlockId}
    (entering : Entering request demand start before (manager :: rest) pool free)
    (separate : Separate (before ++ manager :: rest) pool) (caching : pool.enableCaching = true)
    (notNull : block ≠ pool.nullBlock) {hash : BlockHash H}
    (isHash : pool.blockHash block = some ⟨hash, manager.kvCacheGroupId⟩) :
    heldAround before rest block = 0 := by
  by_contra held
  have positive : 0 < heldBy (before ++ rest) block := by
    rw [heldBy_append]
    exact Nat.pos_of_ne_zero held
  rcases exists_of_heldBy_pos positive with ⟨other, member, holds⟩
  have inside : other ∈ before ++ manager :: rest := by
    simp only [mem_append, mem_cons] at member ⊢
    tauto
  have same := separate.grouped caching other inside block _ notNull holds isHash
  have groups := entering.groups
  rw [map_append, map_cons, nodup_middle, <- map_append, nodup_cons] at groups
  exact groups.1 (mem_map.mpr ⟨other, member, same.symm⟩)

variable [DecidableEq H] {request : Request H} {demand : SlotDemand}
  {start pool poolAfter : BlockPool H}
  {before rest : List (SingleTypeKVCacheManager H)} {manager after : SingleTypeKVCacheManager H}
  {free : List BlockId} {output : Unit}

theorem Entering.step (entering : Entering request demand start before (manager :: rest) pool free)
    (visited : enterVisit request demand manager pool = .ok (output, after, poolAfter)) :
    ∃ taken freeAfter,
      EntersClaim (heldAround before rest) request demand manager after pool poolAfter free taken
        freeAfter /\
      Entering request demand start (before ++ [after]) rest poolAfter freeAfter := by
  rcases enterVisit_entersClaim entering.pooled.focus
    ((entering.safe manager mem_cons_self).of_same entering.same) visited with
    ⟨taken, freeAfter, enters⟩
  refine ⟨taken, freeAfter, enters, ?_, entering.same.trans enters.same,
    fun other later => entering.safe other (mem_cons_of_mem _ later), ?_⟩
  · rw [append_assoc]
    exact entering.pooled.update enters.same enters.tables
  have groups := entering.groups
  simpa [groupId_congr enters.signature] using groups

def SharesBlock (requestId : RequestId) (nullBlock : BlockId)
    (managers : List (SingleTypeKVCacheManager H)) : Prop :=
  ∃ left ∈ managers, ∃ right ∈ managers, left.kvCacheGroupId ≠ right.kvCacheGroupId /\
    ∃ block, block ≠ nullBlock /\ block ∈ left.blocks requestId /\
      block ∈ right.blocks requestId

variable {managers managersAfter : List (SingleTypeKVCacheManager H)} {outputs : List Unit}
  (entering : Entering request demand start [] managers start free)
  (done : forManagers (enterVisit request demand) managers start =
    .ok (outputs, managersAfter, poolAfter))
include entering done

/-- Groups that spare each other's hits stay apart, and the hits keep their
hashes. -/
theorem enter_separate (separate : Separate managers start)
    (found : ∀ manager ∈ managers, ∀ block ∈ (manager.claimOf request demand).1,
      block ≠ start.nullBlock -> start.enableCaching = true /\
        ∃ hash, start.blockHash block = some ⟨hash, manager.kvCacheGroupId⟩)
    (spared : HitsSpared (managers.map (fun manager => manager.claimOf request demand)) free) :
    Separate managersAfter poolAfter /\
      ∀ manager ∈ managers, ∀ block ∈ (manager.claimOf request demand).1, block ≠ start.nullBlock ->
        poolAfter.blockHash block = start.blockHash block /\ 0 < heldBy managersAfter block := by
  have result := Sweep.invariant
    (fun before rest current => ∃ free,
      Entering request demand start before rest current free /\
      Separate (before ++ rest) current /\
      HitsSpared (rest.map (fun manager => manager.claimOf request demand)) free /\
      (∀ manager ∈ rest, manager ∈ managers) /\
      ∀ manager ∈ managers, ∀ block ∈ (manager.claimOf request demand).1,
        block ≠ start.nullBlock ->
        current.blockHash block = start.blockHash block /\
          (manager ∈ rest \/ 0 < heldBy (before ++ rest) block))
    (by
      rintro before manager rest current output after next
        ⟨free, here, apart, spared, known, kept⟩ visited
      rcases here.step visited with ⟨taken, freeAfter, enters, later⟩
      rcases enters.taken_spec with ⟨isTaken, isFree⟩
      have contained : Contained (heldAround before rest) manager after current next := by
        apply enters.contained here.pooled.focus
        intro block isHit notNull
        have member := known manager mem_cons_self
        rw [here.same.nullBlock] at notNull
        rcases found manager member block isHit notNull with ⟨caching, hash, isHash⟩
        rw [<- (kept manager member block isHit notNull).1] at isHash
        exact ⟨⟨hash, isHash⟩, here.unheld apart (here.same.enableCaching.trans caching)
          (here.same.nullBlock ▸ notNull) isHash⟩
      refine ⟨freeAfter, later, ?_, ?_, fun other member => known other
        (mem_cons_of_mem _ member), ?_⟩
      · rw [append_assoc]
        exact apart.update enters.same (groupId_congr enters.signature) contained
      · rw [isFree]
        exact spared.2
      intro owner member block isHit notNull
      have before_visit := kept owner member block isHit notNull
      have notNullHere : block ≠ current.nullBlock := here.same.nullBlock ▸ notNull
      have notTaken : block ∉ taken := by
        intro stolen
        rcases before_visit.2 with waiting | held
        · rcases mem_cons.mp waiting with rfl | waiting
          · exact (enters.taken_free stolen).2 isHit
          rw [isTaken] at stolen
          exact spared.1 block stolen _ (mem_map_of_mem waiting) isHit
        have unheld := ((here.pooled.owned.free_iff block).mp (enters.taken_free stolen).1).2.2
        omega
      refine ⟨(enters.forgets.kept block notTaken).trans before_visit.1, ?_⟩
      have counts := enters.counts block notNullHere
      rw [append_assoc, singleton_append, heldBy_around]
      rcases before_visit.2 with waiting | held
      · rcases mem_cons.mp waiting with rfl | waiting
        · have hit := count_pos_iff.mpr isHit
          omega
        · exact Or.inl waiting
      rw [heldBy_around] at held
      omega)
    ⟨free, entering, separate, spared, fun _ member => member,
      fun manager member block _ _ => ⟨rfl, Or.inl member⟩⟩ done
  rcases result with ⟨_, -, apart, -, -, kept⟩
  rw [append_nil] at apart
  refine ⟨apart, fun manager member block isHit notNull => ?_⟩
  rcases kept manager member block isHit notNull with ⟨hash, absent | held⟩
  · exact absurd absent not_mem_nil
  rw [append_nil] at held
  exact ⟨hash, held⟩

/-- A hit that is taken by an earlier group ends up in both groups. -/
theorem enter_shares
    (taken_hit : ¬ HitsSpared (managers.map (fun manager => manager.claimOf request demand)) free) :
    SharesBlock request.requestId start.nullBlock managersAfter := by
  have result := Sweep.invariant
    (fun before rest current => ∃ free,
      Entering request demand start before rest current free /\
      (SharesBlock request.requestId start.nullBlock before \/
        (∃ left ∈ before, ∃ right ∈ rest, ∃ block, block ≠ start.nullBlock /\
          block ∈ left.blocks request.requestId /\ block ∈ (right.claimOf request demand).1) \/
        ¬ HitsSpared (rest.map (fun manager => manager.claimOf request demand)) free))
    (by
      rintro before manager rest current output after next ⟨_, here, collision⟩ visited
      rcases here.step visited with ⟨_, freeAfter, enters, later⟩
      rcases enters.taken_spec with ⟨isTaken, isFree⟩
      refine ⟨freeAfter, later, ?_⟩
      rcases collision with ⟨left, leftIn, right, rightIn, different, shared⟩ |
        ⟨left, leftIn, right, rightIn, block, notNull, inLeft, isHit⟩ | stolen
      · exact Or.inl ⟨left, mem_append_left _ leftIn, right, mem_append_left _ rightIn,
          different, shared⟩
      · rcases mem_cons.mp rightIn with rfl | waiting
        · refine Or.inl ⟨left, mem_append_left _ leftIn, after, by simp, ?_, block, notNull,
            inLeft, enters.entered block isHit⟩
          have groups := later.groups
          simp only [append_assoc, map_append, nodup_append] at groups
          exact groups.2.2 _ (mem_map_of_mem leftIn) _ (by simp)
        · exact Or.inr (Or.inl ⟨left, mem_append_left _ leftIn, right, waiting, block, notNull,
            inLeft, isHit⟩)
      rw [map_cons, HitsSpared, not_and_or, <- isTaken, <- isFree] at stolen
      rcases stolen with now | afterwards
      · push Not at now
        rcases now with ⟨block, member, _, claims, isHit⟩
        rcases mem_map.mp claims with ⟨right, waiting, rfl⟩
        have notNull := ((here.pooled.owned.free_iff block).mp (enters.taken_free member).1).2.1
        exact Or.inr (Or.inl ⟨after, by simp, right, waiting, block,
          here.same.nullBlock ▸ notNull, enters.taken_entered block member, isHit⟩)
      · exact Or.inr (Or.inr afterwards))
    ⟨free, entering, Or.inr (Or.inr taken_hit)⟩ done
  rcases result with ⟨_, -, shared | ⟨-, -, _, absent, -⟩ | stolen⟩
  · exact shared
  · exact absurd absent not_mem_nil
  · exact absurd trivial stolen

/-- Groups that enter nothing were given nothing. -/
theorem enter_complete :
    ∀ manager ∈ managers,
      (manager.claimOf request demand).1 = manager.enteredHits request demand := by
  have result := Sweep.invariant
    (fun before rest current => ∃ free,
      Entering request demand start before rest current free /\
      ∀ manager ∈ managers, manager ∈ rest \/
        (manager.claimOf request demand).1 = manager.enteredHits request demand)
    (by
      rintro before manager rest current output after next ⟨_, here, complete⟩ visited
      rcases here.step visited with ⟨_, freeAfter, enters, later⟩
      refine ⟨freeAfter, later, fun other member => ?_⟩
      rcases complete other member with waiting | known
      · rcases mem_cons.mp waiting with rfl | waiting
        · exact Or.inr enters.complete
        · exact Or.inl waiting
      · exact Or.inr known)
    ⟨free, entering, fun manager member => Or.inl member⟩ done
  rcases result with ⟨_, -, complete⟩
  intro manager member
  exact (complete manager member).resolve_left not_mem_nil

end Entering

end Vllm.KVCache
