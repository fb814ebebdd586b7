import Vllm.Sched.Engine

namespace Vllm.Sched

open Foundation Function
open KVCache (RequestId BlockId KVCacheManager)

/-!
# What the calls inside the scheduler change

Each lemma takes a call that returned and gives the state after it in closed
form.  Calls of the cache manager change nothing else, and so do those of the
encoder cache; what is left are changes of single request objects and of the
queues.
-/

namespace Scheduler

variable {H A : Type} {scheduler after : Scheduler H} {requestId : RequestId}

theorem objects_modify (scheduler : Scheduler H) (ref other : Ref) (change : Request H -> Request H) :
    (scheduler.modify ref change).objects other =
      if other = ref then change (scheduler.objects ref) else scheduler.objects other := by
  simp only [modify, update_apply]

@[simp] theorem objects_modify_self (ref : Ref)
    (change : Request H -> Request H) :
    (scheduler.modify ref change).objects ref = change (scheduler.objects ref) := by
  rw [objects_modify, if_pos rfl]

theorem objects_modify_of_ne {ref other : Ref}
    (change : Request H -> Request H) (different : other ≠ ref) :
    (scheduler.modify ref change).objects other = scheduler.objects other := by
  rw [objects_modify, if_neg different]

/-- A field of the object behind another reference, or a field that the change
keeps, is what it was. -/
theorem objects_modify_keeps {field : Request H -> A} {ref : Ref}
    (change : Request H -> Request H)
    (keeps : field (change (scheduler.objects ref)) = field (scheduler.objects ref)) (other : Ref) :
    field ((scheduler.modify ref change).objects other) = field (scheduler.objects other) := by
  by_cases same : other = ref
  · subst same
    rw [objects_modify_self, keeps]
  · rw [objects_modify_of_ne _ same]

theorem kvFree_eq_ok (freed : scheduler.kvFree requestId = .ok after) :
    ∃ manager, scheduler.kvCacheManager.free requestId = .ok manager /\
      after = { scheduler with kvCacheManager := manager } := by
  obtain ⟨manager, returned, rest⟩ := andThen_eq_ok freed
  cases found : scheduler.kvCacheManager.free requestId with
  | error error =>
    rw [found] at returned
    cases returned
  | ok result =>
    rw [found] at returned
    cases returned
    cases rest
    exact ⟨manager, rfl, rfl⟩

theorem fromKv_eq_ok {call : Except KVCache.ManagerError A} {value : A}
    (returned : fromKv call = .ok value) : call = .ok value := by
  cases call with
  | error error => cases returned
  | ok result =>
    cases returned
    rfl

theorem naturalCount_eq_ok {count : Int} {value : Nat}
    (returned : naturalCount requestId count = .ok value) : count = value := by
  rw [naturalCount] at returned
  split at returned
  case isTrue notNegative =>
    cases returned
    exact (Int.toNat_of_nonneg notNegative).symm
  · cases returned

variable [DecidableEq H] {request : Request H} {env : ConnectorEnv}

theorem allocateSlots_eq_ok {args : SlotArgs} {blocks : Option (List (List BlockId))}
    (returned : scheduler.allocateSlots request args = .ok (blocks, after)) :
    ∃ view numNewTokens manager, kvRequest request = .ok view /\
      args.numNewTokens = (numNewTokens : Nat) /\
      scheduler.kvCacheManager.allocateSlots view (args.toDemand numNewTokens) =
        .ok (blocks, manager) /\
      after = { scheduler with kvCacheManager := manager } := by
  obtain ⟨view, viewed, rest⟩ := andThen_eq_ok returned
  obtain ⟨numNewTokens, counted, rest⟩ := andThen_eq_ok rest
  obtain ⟨result, allocated, rest⟩ := andThen_eq_ok rest
  cases rest
  exact ⟨view, numNewTokens, result.2, viewed, naturalCount_eq_ok counted, fromKv_eq_ok allocated,
    rfl⟩

theorem kvCacheBlocks_eq_ok {numComputedTokens : Int}
    (returned : scheduler.kvCacheBlocks request numComputedTokens = .ok after) :
    ∃ view numComputed manager, kvRequest request = .ok view /\
      numComputedTokens = (numComputed : Nat) /\
      scheduler.kvCacheManager.cacheBlocks view numComputed = .ok manager /\
      after = { scheduler with kvCacheManager := manager } := by
  obtain ⟨view, viewed, rest⟩ := andThen_eq_ok returned
  obtain ⟨numComputed, counted, rest⟩ := andThen_eq_ok rest
  obtain ⟨manager, cached, rest⟩ := andThen_eq_ok rest
  cases rest
  exact ⟨view, numComputed, manager, viewed, naturalCount_eq_ok counted, fromKv_eq_ok cached, rfl⟩

section

omit [DecidableEq H]

/-- A request when it was preempted. -/
def preemptedRequest (scheduler : Scheduler H) (ref : Ref) : Request H :=
  let request := scheduler.objects ref
  { request with
    status := .preempted
    numComputedTokens := 0
    specTokenIds := if scheduler.specTokenIds ref = [] then request.specTokenIds else .own []
    numPreemptions := request.numPreemptions + 1 }

section

variable (scheduler : Scheduler H) (ref : Ref) (change : Request H -> Request H)
  (keeps : (change (scheduler.objects ref)).specTokenIds = (scheduler.objects ref).specTokenIds)
include keeps

/-- Whether a request has draft tokens depends on its list only. -/
theorem specTokenIds_modify :
    (scheduler.modify ref change).specTokenIds ref = scheduler.specTokenIds ref := by
  rw [specTokenIds, objects_modify_self, keeps]
  rfl

theorem clearSpec_modify :
    (scheduler.modify ref change).clearSpec ref = scheduler.modify ref (fun request =>
        { change request with
          specTokenIds :=
            if scheduler.specTokenIds ref = [] then (change request).specTokenIds else .own [] }) := by
  rw [clearSpec, specTokenIds_modify _ _ _ keeps]
  split
  case isTrue isEmpty => rfl
  case isFalse hasDrafts => simp only [modify, update_idem, update_self]

end

/-- After a truncation a request has no more drafts than allowed. -/
theorem specTokenIds_truncateSpec (ref : Ref) {length : Nat} :
    ((scheduler.truncateSpec ref length).specTokenIds ref).length <= length := by
  rw [truncateSpec]
  split
  case h_1 isShared =>
    rw [specTokenIds, isShared]
    exact List.length_take_le _ _
  case h_2 tokenIds isOwn =>
    rw [specTokenIds, objects_modify_self]
    exact List.length_take_le _ _

theorem modify_modify (scheduler : Scheduler H) (ref : Ref) (first second : Request H -> Request H) :
    (scheduler.modify ref first).modify ref second =
      scheduler.modify ref (fun request => second (first request)) := by
  simp only [modify, update_idem, update_self]

theorem preemptRequest_eq_ok {ref : Ref} (returned : scheduler.preemptRequest ref = .ok after) :
    (scheduler.objects ref).status = .running /\
    ∃ manager, scheduler.kvCacheManager.free (scheduler.objects ref).requestId = .ok manager /\
      after =
        { scheduler with
          kvCacheManager := manager
          encoderCacheManager := scheduler.encoderCacheManager.free (scheduler.objects ref)
          objects := update scheduler.objects ref (scheduler.preemptedRequest ref)
          waiting := RequestQueue.prependRequest scheduler.config.policy
            (update scheduler.objects ref (scheduler.preemptedRequest ref))
            scheduler.waiting ref } := by
  obtain ⟨_, isRunning, rest⟩ := andThen_eq_ok returned
  obtain ⟨freed, free, rest⟩ := andThen_eq_ok rest
  obtain ⟨manager, freedManager, rfl⟩ := kvFree_eq_ok free
  refine ⟨require_eq_ok isRunning, manager, freedManager, ?_⟩
  dsimp only at rest
  rw [clearSpec_modify _ _ _ rfl, modify_modify] at rest
  cases rest
  rfl

end

omit [DecidableEq H]

theorem freeBlocks_eq_ok {ref : Ref} (returned : scheduler.freeBlocks ref = .ok after) :
    (scheduler.objects ref).isFinished = true /\
    ∃ manager, scheduler.kvCacheManager.free (scheduler.objects ref).requestId = .ok manager /\
      scheduler.requests.contains (scheduler.objects ref).requestId = true /\
      after =
        { scheduler with
          kvCacheManager := manager
          requests := scheduler.requests.erase (scheduler.objects ref).requestId } := by
  obtain ⟨_, finished, rest⟩ := andThen_eq_ok returned
  obtain ⟨freed, free, rest⟩ := andThen_eq_ok rest
  obtain ⟨manager, freedManager, rfl⟩ := kvFree_eq_ok free
  split at rest
  case isTrue present =>
    cases rest
    exact ⟨require_eq_ok finished, manager, freedManager, present, rfl⟩
  · cases rest

theorem connectorFinished_eq_ok {delayed : Bool}
    (returned : scheduler.connectorFinished env request = .ok (delayed, after)) :
    ∃ manager, after = { scheduler with kvCacheManager := manager } /\
      (manager = scheduler.kvCacheManager /\ delayed = false /\ scheduler.config.hasConnector = false \/
        delayed = env.delayFreeBlocks request.requestId /\ ∃ numComputedTokens : Nat,
          scheduler.kvCacheManager.removeSkippedBlocks request.requestId numComputedTokens =
            .ok manager) := by
  rw [connectorFinished] at returned
  split at returned
  case isTrue absent =>
    cases returned
    exact ⟨scheduler.kvCacheManager, rfl, Or.inl ⟨rfl, rfl, absent⟩⟩
  · obtain ⟨numComputedTokens, _, rest⟩ := andThen_eq_ok returned
    obtain ⟨manager, removed, rest⟩ := andThen_eq_ok rest
    obtain ⟨_, _, rest⟩ := andThen_eq_ok rest
    cases rest
    exact ⟨manager, rfl, Or.inr ⟨rfl, numComputedTokens, fromKv_eq_ok removed⟩⟩

/-- The scheduler after a request was freed but for its blocks. -/
def releasedRequest (scheduler : Scheduler H) (manager : KVCacheManager H) (ref : Ref) :
    Scheduler H :=
  let requestId := (scheduler.objects ref).requestId
  { scheduler with
    kvCacheManager := manager
    encoderCacheManager := scheduler.encoderCacheManager.free (scheduler.objects ref)
    finishedReqIds :=
      if requestId ∈ scheduler.finishedReqIds then scheduler.finishedReqIds
      else scheduler.finishedReqIds ++ [requestId] }

theorem freeRequest_eq_ok {ref : Ref} {delayFreeBlocks : Bool}
    (returned : scheduler.freeRequest env ref delayFreeBlocks = .ok after) :
    (scheduler.objects ref).isFinished = true /\
    ∃ delayed manager, scheduler.connectorFinished env (scheduler.objects ref) =
        .ok (delayed, { scheduler with kvCacheManager := manager }) /\
      ((delayFreeBlocks = true \/ delayed = true) /\ after = scheduler.releasedRequest manager ref \/
        (delayFreeBlocks = false /\ delayed = false) /\
          (scheduler.releasedRequest manager ref).freeBlocks ref = .ok after) := by
  obtain ⟨_, finished, rest⟩ := andThen_eq_ok returned
  obtain ⟨⟨delayed, told⟩, telling, rest⟩ := andThen_eq_ok rest
  obtain ⟨manager, rfl, _⟩ := connectorFinished_eq_ok telling
  refine ⟨require_eq_ok finished, delayed, manager, telling, ?_⟩
  split at rest
  case isTrue kept =>
    cases rest
    exact Or.inl ⟨kept, rfl⟩
  case isFalse notKept =>
    refine Or.inr ⟨?_, rest⟩
    simpa using notKept

end Scheduler

end Vllm.Sched
