import Vllm.KVCache.Growth
import Vllm.KVCache.HitEntries

namespace Vllm.KVCache

open Foundation SingleTypeKVCacheManager List

/-!
# Several managers on one pool

The references to a block are the entries of the tables of all managers.  An
operation of the coordinator is a sweep over the managers, and while one of them
works, the tables of the others count as references from outside.
-/

section Managers

variable {H : Type}

/-- The number of table entries of some managers that hold a block. -/
def heldBy (managers : List (SingleTypeKVCacheManager H)) (block : BlockId) : Nat :=
  (managers.map (fun manager => manager.tableCount block)).sum

theorem heldBy_append (left right : List (SingleTypeKVCacheManager H)) (block : BlockId) :
    heldBy (left ++ right) block = heldBy left block + heldBy right block := by
  rw [heldBy, map_append, sum_append]
  rfl

theorem heldBy_cons (manager : SingleTypeKVCacheManager H)
    (rest : List (SingleTypeKVCacheManager H)) (block : BlockId) :
    heldBy (manager :: rest) block = manager.tableCount block + heldBy rest block := by
  rw [heldBy, map_cons, sum_cons]
  rfl

/-- The pool serves the tables of all managers. -/
structure Pooled (managers : List (SingleTypeKVCacheManager H)) (pool : BlockPool H)
    (free : List BlockId) : Prop where
  owned : Owned pool (heldBy managers) free
  indexed : Indexed pool
  distinct : ∀ manager ∈ managers, ∀ requestId,
    Distinct pool.nullBlock (manager.blocks requestId)

def heldAround (before rest : List (SingleTypeKVCacheManager H)) (block : BlockId) : Nat :=
  heldBy before block + heldBy rest block

theorem heldBy_around {before rest : List (SingleTypeKVCacheManager H)}
    {manager : SingleTypeKVCacheManager H} {block : BlockId} :
    heldBy (before ++ manager :: rest) block =
      heldAround before rest block + manager.tableCount block := by
  rw [heldBy_append, heldBy_cons, heldAround]
  omega

variable {before rest : List (SingleTypeKVCacheManager H)}

theorem Pooled.focus {manager : SingleTypeKVCacheManager H} {pool : BlockPool H}
    {free : List BlockId} (pooled : Pooled (before ++ manager :: rest) pool free) :
    manager.Tables (heldAround before rest) pool free :=
  ⟨pooled.owned.congr (fun block _ => (heldBy_around).symm),
    pooled.indexed, pooled.distinct manager (by simp)⟩

variable {manager after : SingleTypeKVCacheManager H}

theorem Pooled.update {pool poolAfter : BlockPool H} {free freeAfter : List BlockId}
    (pooled : Pooled (before ++ manager :: rest) pool free) (same : SamePool pool poolAfter)
    (tables : after.Tables (heldAround before rest) poolAfter freeAfter) :
    Pooled (before ++ after :: rest) poolAfter freeAfter := by
  refine ⟨tables.owned.congr (fun block _ => heldBy_around),
    tables.indexed, ?_⟩
  intro other member requestId
  rw [mem_append, mem_cons] at member
  rcases member with early | here | late
  · rw [same.nullBlock]
    exact pooled.distinct other (mem_append_left _ early) requestId
  · rw [here]
    exact tables.distinct requestId
  rw [same.nullBlock]
  exact pooled.distinct other (mem_append_right _ (mem_cons_of_mem _ late)) requestId

/-- What no operation changes about a manager. -/
def SingleTypeKVCacheManager.signature (manager : SingleTypeKVCacheManager H) :
    KVCacheSpec × Bool × Nat :=
  (manager.kvCacheSpec, manager.enableCaching, manager.kvCacheGroupId)

theorem SingleTypeKVCacheManager.Frame.signature {requestId : RequestId}
    (frame : SingleTypeKVCacheManager.Frame requestId manager after) :
    after.signature = manager.signature := by
  unfold SingleTypeKVCacheManager.signature
  rw [frame.kvCacheSpec, frame.enableCaching, frame.kvCacheGroupId]

/-- A visit of one manager in a sweep. -/
abbrev Visit (H A : Type) : Type :=
  SingleTypeKVCacheManager H -> BlockPool H ->
    Except ManagerError (A × SingleTypeKVCacheManager H × BlockPool H)

section

variable (signature : after.signature = manager.signature)
include signature

theorem kvCacheSpec_congr : after.kvCacheSpec = manager.kvCacheSpec := congrArg Prod.fst signature

theorem groupId_congr : after.kvCacheGroupId = manager.kvCacheGroupId :=
  congrArg (fun value => value.2.2) signature

end

/-- A visit of a manager with a given signature keeps the tables in order. -/
def VisitKeepsTables {A : Type}
    (visit : SingleTypeKVCacheManager H -> BlockPool H ->
      Except ManagerError (A × SingleTypeKVCacheManager H × BlockPool H))
    (start : BlockPool H) (manager : SingleTypeKVCacheManager H) : Prop :=
  ∀ others pool free output after poolAfter, SamePool start pool ->
    manager.Tables others pool free -> visit manager pool = .ok (output, after, poolAfter) ->
    (∃ freeAfter, after.Tables others poolAfter freeAfter) /\ SamePool pool poolAfter /\
      after.signature = manager.signature

end Managers

section Coordinator

variable {H : Type}

/-- The pool and the managers belong to the configuration. -/
structure Configured (coordinator : KVCacheCoordinator H) : Prop where
  hashBlockSize : coordinator.blockPool.hashBlockSize = coordinator.config.hashBlockSize
  enableCaching : coordinator.blockPool.enableCaching = coordinator.config.enableCaching
  shape : coordinator.singleTypeManagers.map SingleTypeKVCacheManager.signature =
    coordinator.config.kvCacheGroups.mapIdx (fun groupId group =>
      (group.kvCacheSpec, coordinator.config.enableCaching, groupId))

variable {coordinator : KVCacheCoordinator H} {A : Type} {visit : Visit H A} {outputs : List A}

theorem Configured.update (configured : Configured coordinator)
    {managers : List (SingleTypeKVCacheManager H)} {pool : BlockPool H}
    (same : SamePool coordinator.blockPool pool)
    (shape : managers.map signature = coordinator.singleTypeManagers.map signature) :
    Configured { coordinator with singleTypeManagers := managers, blockPool := pool } :=
  ⟨same.hashBlockSize.trans configured.hashBlockSize,
    same.enableCaching.trans configured.enableCaching, shape.trans configured.shape⟩

theorem Configured.manager (configured : Configured coordinator)
    {manager : SingleTypeKVCacheManager H} (member : manager ∈ coordinator.singleTypeManagers) :
    coordinator.config.specOf manager.kvCacheGroupId = some manager.kvCacheSpec /\
      manager.enableCaching = coordinator.config.enableCaching := by
  have signed : manager.signature ∈
      coordinator.singleTypeManagers.map signature :=
    mem_map_of_mem member
  rw [configured.shape, mem_mapIdx] at signed
  rcases signed with ⟨_, inside, equal⟩
  unfold signature at equal
  simp only [Prod.mk.injEq] at equal
  refine ⟨?_, equal.2.1.symm⟩
  rw [CoordinatorConfig.specOf, <- equal.2.2, List.getElem?_eq_getElem inside, Option.map_some,
    equal.1]

/-- The coordinator's pool serves the tables of its managers. -/
structure Accounted (coordinator : KVCacheCoordinator H) : Prop where
  configured : Configured coordinator
  pooled : ∃ free, Pooled coordinator.singleTypeManagers coordinator.blockPool free

theorem run_eq_ok {after : KVCacheCoordinator H}
    (done : coordinator.run visit = .ok (outputs, after)) :
    ∃ managers pool, forManagers visit coordinator.singleTypeManagers
        coordinator.blockPool = .ok (outputs, managers, pool) /\
      after = { coordinator with singleTypeManagers := managers, blockPool := pool } := by
  unfold KVCacheCoordinator.run at done
  split at done
  · cases done
  case h_2 managers pool swept =>
    cases done
    exact ⟨managers, pool, swept, rfl⟩

/-- What is known after a sweep of the coordinator. -/
structure Continues (coordinator after : KVCacheCoordinator H) : Prop where
  accounted : Accounted after
  config : after.config = coordinator.config
  same : SamePool coordinator.blockPool after.blockPool
  shape : after.singleTypeManagers.map SingleTypeKVCacheManager.signature =
    coordinator.singleTypeManagers.map SingleTypeKVCacheManager.signature

theorem Continues.refl (accounted : Accounted coordinator) : Continues coordinator coordinator :=
  ⟨accounted, rfl, SamePool.refl _, rfl⟩

theorem Continues.trans {first second third : KVCacheCoordinator H}
    (left : Continues first second) (right : Continues second third) : Continues first third :=
  ⟨right.accounted, right.config.trans left.config, left.same.trans right.same,
    right.shape.trans left.shape⟩

/-- A sweep whose visits keep the tables in order does, and what every visit keeps
holds after it. -/
theorem Accounted.invariant {after : KVCacheCoordinator H} (accounted : Accounted coordinator)
    (property : List (SingleTypeKVCacheManager H) -> BlockPool H -> Prop)
    (keeps : ∀ manager ∈ coordinator.singleTypeManagers,
      VisitKeepsTables visit coordinator.blockPool manager)
    (step : ∀ manager ∈ coordinator.singleTypeManagers,
      ∀ before rest current free output after next,
      Pooled (before ++ manager :: rest) current free -> SamePool coordinator.blockPool current ->
      SamePool current next -> after.signature = manager.signature ->
      visit manager current = .ok (output, after, next) ->
      property (before ++ manager :: rest) current -> property (before ++ after :: rest) next)
    (start : property coordinator.singleTypeManagers coordinator.blockPool)
    (done : coordinator.run visit = .ok (outputs, after)) :
    Continues coordinator after /\ property after.singleTypeManagers after.blockPool := by
  rcases run_eq_ok done with ⟨_, _, swept, rfl⟩
  have result := Sweep.invariant
    (fun before rest current => (∀ manager ∈ rest, manager ∈ coordinator.singleTypeManagers) /\
      (∃ free, Pooled (before ++ rest) current free) /\
      SamePool coordinator.blockPool current /\
      (before ++ rest).map signature = coordinator.singleTypeManagers.map signature /\
      property (before ++ rest) current)
    (by
      rintro before manager rest current output after next
        ⟨known, ⟨free, here⟩, same, shape, holds⟩ visited
      have member := known manager mem_cons_self
      rcases keeps manager member _ current free output after next same here.focus visited with
        ⟨⟨freeAfter, tables⟩, sameAfter, signature⟩
      rw [append_assoc]
      refine ⟨fun other later => known other (mem_cons_of_mem _ later),
        ⟨freeAfter, here.update sameAfter tables⟩, same.trans sameAfter, ?_,
        step manager member before rest current free output after next here same sameAfter
          signature visited holds⟩
      rw [<- shape]
      simp [signature])
    ⟨fun _ member => member, accounted.pooled, SamePool.refl _, rfl, start⟩ swept
  rw [append_nil] at result
  rcases result with ⟨-, pooled, same, shape, holds⟩
  exact ⟨⟨⟨accounted.configured.update same shape, pooled⟩, rfl, same, shape⟩, holds⟩

theorem Accounted.run {after : KVCacheCoordinator H} (accounted : Accounted coordinator)
    (keeps : ∀ manager ∈ coordinator.singleTypeManagers,
      VisitKeepsTables visit coordinator.blockPool manager)
    (done : coordinator.run visit = .ok (outputs, after)) : Continues coordinator after :=
  (accounted.invariant (fun _ _ => True) keeps (by intros; trivial) trivial done).1

end Coordinator

end Vllm.KVCache
