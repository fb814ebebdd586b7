import Mathlib.Data.List.Dedup
import Vllm.Sched.Places

namespace Vllm.Sched

open Foundation Function Census RequestQueue List Option
open KVCache (RequestId BlockId)

/-!
# Adding, finishing and resetting keep the places sound

A bulk finish first takes all its requests out of the queues and then changes
their status one after the other.  In between, the census is taken as if the
requests that are still to be finished had their final status.
-/

namespace Scheduler

variable {H : Type} {scheduler after : Scheduler H}

variable {ref : Ref}

theorem freeBlocks_census (freed : scheduler.freeBlocks ref = .ok after) :
    (scheduler.objects ref).isFinished = true /\
      after.census [] = (scheduler.census []).forget ref := by
  obtain ⟨finished, _, _, _, rfl⟩ := freeBlocks_eq_ok freed
  exact ⟨finished, rfl⟩

theorem freeBlocks_sound (freed : scheduler.freeBlocks ref = .ok after)
    (sound : (scheduler.census []).Sound) (registered : (scheduler.census []).Registered ref) :
    (after.census []).Sound := by
  obtain ⟨finished, forgets⟩ := freeBlocks_census freed
  rw [forgets]
  exact sound.forget registered finished

theorem count_filter_absent {queue items : List Ref} :
    (queue.filter (fun other => other ∉ items)).count ref =
      if ref ∈ items then 0 else queue.count ref := by
  split
  case isTrue member =>
    apply count_eq_zero.mpr
    intro kept
    have absent := (mem_filter.mp kept).2
    exact of_decide_eq_true absent member
  case isFalse absent => exact count_filter (decide_eq_true absent)

theorem count_removeRequests (policy : SchedulingPolicy) (objects : Objects H)
    (queue items : List Ref) (ref : Ref) :
    (removeRequests policy objects queue items).count ref =
      if ref ∈ items then 0 else queue.count ref := by
  rw [(removeRequests_perm policy objects queue items).count_eq, count_filter_absent]

/-- Removing a single item takes only one occurrence, so that there should not
be more. -/
theorem count_removeAll {queue items : List Ref}
    (once : ∀ ref ∈ items, queue.count ref <= 1) (ref : Ref) :
    (removeAll queue items).count ref = if ref ∈ items then 0 else queue.count ref := by
  rw [removeAll]
  split
  case h_1 isEmpty =>
    have absent : ref ∉ items := by
      intro member
      have inDedup := mem_dedup.mpr member
      rw [isEmpty] at inDedup
      cases inDedup
    rw [if_neg absent]
  case h_2 item isSingle =>
    have members : ref ∈ items <-> ref = item := by
      rw [<- mem_dedup, isSingle, mem_singleton]
    by_cases same : ref = item
    · have bound := once ref (members.mpr same)
      rw [if_pos (members.mpr same), same, count_erase_self, <- same]
      omega
    · rw [if_neg (mt members.mp same), count_erase_of_ne same]
  · exact count_filter_absent

/-- The scheduler as if some requests had a status already. -/
def marked (scheduler : Scheduler H) (refs : List Ref) (status : RequestStatus) : Scheduler H :=
  { scheduler with
    objects := fun ref =>
      if ref ∈ refs then { scheduler.objects ref with status := status } else scheduler.objects ref }

variable (status : RequestStatus) (refs : List Ref) (census : Census)

def finishAll : Census :=
  refs.foldl (fun census ref => census.place ref status 0 0) census

theorem ite_mem_update {A : Type} (value : A) (first : Ref) (rest : List Ref) (f : Ref -> A)
    (ref : Ref) : (if ref ∈ rest then value else update f first value ref) =
      if ref ∈ first :: rest then value else f ref := by
  simp only [update_apply, mem_cons]
  split_ifs <;> simp_all

theorem finishAll_fields : (finishAll status refs census).requestId = census.requestId /\
    (finishAll status refs census).requests = census.requests /\
    (finishAll status refs census).numObjects = census.numObjects /\
    (∀ ref, (finishAll status refs census).status ref =
      if ref ∈ refs then status else census.status ref) /\
    (∀ ref, (finishAll status refs census).inRunning ref =
      if ref ∈ refs then 0 else census.inRunning ref) /\
    (∀ ref, (finishAll status refs census).inWaiting ref =
      if ref ∈ refs then 0 else census.inWaiting ref) := by
  induction refs generalizing census with
  | nil => exact ⟨rfl, rfl, rfl, fun _ => rfl, fun _ => rfl, fun _ => rfl⟩
  | cons first rest ih =>
    obtain ⟨ids, requests, objects, statuses, running, waiting⟩ :=
      ih (census.place first status 0 0)
    have step : finishAll status (first :: rest) census =
        finishAll status rest (census.place first status 0 0) := rfl
    rw [step]
    exact ⟨ids, requests, objects, fun ref => (statuses ref).trans (ite_mem_update _ _ _ _ _),
      fun ref => (running ref).trans (ite_mem_update _ _ _ _ _),
      fun ref => (waiting ref).trans (ite_mem_update _ _ _ _ _)⟩

variable {refs} {status} {env : ConnectorEnv}

/-- The counter loses the requests that waited for input. -/
theorem finishAll_numStreaming {census : Census} (finished : status.isFinished = true)
    (distinct : refs.Nodup) :
    (finishAll status refs census).numStreaming = census.numStreaming -
      ((refs.filter (fun ref => census.status ref = .waitingForStreamingReq)).length : Nat) := by
  have notStreaming := streams_of_finished finished
  induction refs generalizing census with
  | nil => exact (Int.sub_zero _).symm
  | cons first rest ih =>
    obtain ⟨absent, distinctRest⟩ := nodup_cons.mp distinct
    have step : finishAll status (first :: rest) census =
        finishAll status rest (census.place first status 0 0) := rfl
    have sameFilter : rest.filter (fun ref =>
          (census.place first status 0 0).status ref = .waitingForStreamingReq) =
        rest.filter (fun ref => census.status ref = .waitingForStreamingReq) := by
      apply filter_congr
      intro ref member
      have different : ref ≠ first := fun same => absent (same ▸ member)
      simp only [place, update_of_ne different]
    rw [step, ih distinctRest, sameFilter]
    simp only [place, notStreaming, filter_cons]
    by_cases waits : census.status first = .waitingForStreamingReq
    · simp only [streams, waits, decide_true, if_true, length_cons, Bool.toNat_true]
      omega
    simp only [streams, waits, decide_false, Bool.toNat_false, Bool.false_eq_true, if_false]
    omega

theorem finishAll_sound {census : Census} (finished : status.isFinished = true)
    (sound : census.Sound) (registered : ∀ ref ∈ refs, census.Registered ref) :
    (finishAll status refs census).Sound := by
  induction refs generalizing census with
  | nil => exact sound
  | cons first rest ih =>
    apply ih (sound.place (registered first mem_cons_self) (PlacedAt.nowhere finished))
    intro ref member
    exact registered ref (mem_cons_of_mem first member)

variable {requestIds : List RequestId}

theorem validRequests_spec (sound : (scheduler.census []).Sound) (distinct : requestIds.Nodup) :
    (scheduler.validRequests requestIds).Nodup /\
      ∀ ref ∈ scheduler.validRequests requestIds, (scheduler.census []).Registered ref /\
        (scheduler.objects ref).status.isFinished = false := by
  have isBind : scheduler.validRequests requestIds = requestIds.filterMap fun id =>
      (scheduler.requests.get? id).bind fun ref =>
        if (scheduler.objects ref).isFinished then none else some ref := by
    refine congrArg (requestIds.filterMap ·) (funext fun id => ?_)
    cases scheduler.requests.get? id with
    | none => rfl
    | some ref => rfl
  rw [isBind]
  have found : ∀ id ref, ((scheduler.requests.get? id).bind fun ref =>
        if (scheduler.objects ref).isFinished then none else some ref) = some ref ->
      scheduler.requests.get? id = some ref /\ (scheduler.objects ref).isFinished = false := by
    intro id ref isValid
    rcases bind_eq_some_iff.mp isValid with ⟨_, isStored, isKept⟩
    rcases ite_none_left_eq_some.mp isKept with ⟨unfinished, same⟩
    cases same
    exact ⟨isStored, Bool.eq_false_iff.mpr unfinished⟩
  constructor
  · apply List.Nodup.filterMap _ distinct
    intro first second ref inFirst inSecond
    have firstId := (sound.known first ref (found first ref inFirst).1).1
    have secondId := (sound.known second ref (found second ref inSecond).1).1
    exact firstId.symm.trans secondId
  intro ref member
  obtain ⟨id, _, isValid⟩ := mem_filterMap.mp member
  obtain ⟨isStored, unfinished⟩ := found id ref isValid
  exact ⟨sound.registered isStored, unfinished⟩

theorem dequeueRequests_counts (once : ∀ ref, scheduler.running.count ref <= 1) (ref : Ref) :
    (scheduler.dequeueRequests refs).running.count ref =
      (if ref ∈ refs /\ (scheduler.objects ref).status = .running then 0
        else scheduler.running.count ref) /\
    (scheduler.dequeueRequests refs).waiting.count ref =
      (if ref ∈ refs /\ (scheduler.objects ref).status ≠ .running then 0
        else scheduler.waiting.count ref) /\
    (scheduler.dequeueRequests refs).skippedWaiting.count ref =
      (if ref ∈ refs /\ (scheduler.objects ref).status ≠ .running then 0
        else scheduler.skippedWaiting.count ref) := by
  have running : (removeAll scheduler.running
      (refs.filter (fun ref => (scheduler.objects ref).status = .running))).count ref =
        if ref ∈ refs /\ (scheduler.objects ref).status = .running then 0
        else scheduler.running.count ref := by
    rw [count_removeAll (fun other _ => once other)]
    simp only [mem_filter, decide_eq_true_eq]
  have waits : ref ∈ refs.filter (fun ref => (scheduler.objects ref).status ≠ .running) <->
      ref ∈ refs /\ (scheduler.objects ref).status ≠ .running := by
    simp only [mem_filter, decide_eq_true_eq]
  rw [dequeueRequests]
  split
  case isTrue nothing =>
    have absent : ¬ (ref ∈ refs /\ (scheduler.objects ref).status ≠ .running) := by
      rw [<- waits, nothing]
      exact not_mem_nil
    exact ⟨running, (if_neg absent).symm, (if_neg absent).symm⟩
  case isFalse someWait =>
    refine ⟨running, ?_, ?_⟩
    · simp only [count_removeRequests, waits]
    · simp only [count_removeRequests, waits]

/-- The first pass finishes the requests as far as the census can tell. -/
theorem dequeueRequests_census (sound : (scheduler.census []).Sound)
    (finished : status.isFinished = true) (distinct : refs.Nodup)
    (valid : ∀ ref ∈ refs, (scheduler.census []).Registered ref /\
      (scheduler.objects ref).status.isFinished = false) :
    ((scheduler.dequeueRequests refs).marked refs status).census [] =
      finishAll status refs (scheduler.census []) := by
  obtain ⟨ids, requests, objects, statuses, inRunning, inWaiting⟩ :=
    finishAll_fields status refs (scheduler.census [])
  have numStreaming : (finishAll status refs (scheduler.census [])).numStreaming = _ :=
    finishAll_numStreaming finished distinct
  have once := nodup_iff_count_le_one.mp (running_nodup sound)
  have counts := fun ref => @dequeueRequests_counts _ scheduler refs once ref
  have sameObjects : (scheduler.dequeueRequests refs).objects = scheduler.objects := by
    rw [dequeueRequests]
    split <;> rfl
  have sameTable : (scheduler.dequeueRequests refs).requests = scheduler.requests /\
      (scheduler.dequeueRequests refs).numObjects = scheduler.numObjects /\
      (scheduler.dequeueRequests refs).numWaitingForStreamingInput =
        scheduler.numWaitingForStreamingInput - ((refs.filter (fun ref =>
          (scheduler.objects ref).status = .waitingForStreamingReq)).length : Nat) := by
    rw [dequeueRequests]
    split <;> exact ⟨rfl, rfl, rfl⟩
  apply Census.ext
  · rw [ids]
    funext ref
    simp only [census, marked, sameObjects]
    split <;> rfl
  · funext ref
    rw [statuses]
    simp only [census, marked, sameObjects]
    split <;> rfl
  · exact sameTable.1.trans requests.symm
  · exact sameTable.2.1.trans objects.symm
  · exact sameTable.2.2.trans numStreaming.symm
  · funext ref
    rw [inRunning]
    have count := (counts ref).1
    have placed := sound.placed ref
    simp only [census, marked] at placed ⊢
    rw [count]
    by_cases member : ref ∈ refs
    · by_cases isRunning : (scheduler.objects ref).status = .running
      · rw [if_pos ⟨member, isRunning⟩, if_pos member]
      obtain ⟨registered, unfinished⟩ := valid ref member
      rw [if_neg (fun both => isRunning both.2), if_pos member]
      exact (placed.of_waiting registered unfinished isRunning).1
    · rw [if_neg (fun both => member both.1), if_neg member]
  funext ref
  rw [inWaiting]
  have inQueue := (counts ref).2.1
  have inSkipped := (counts ref).2.2
  have placed := sound.placed ref
  simp only [census, marked, count_nil] at placed ⊢
  rw [inQueue, inSkipped]
  by_cases member : ref ∈ refs
  · by_cases isRunning : (scheduler.objects ref).status = .running
    · obtain ⟨registered, _⟩ := valid ref member
      rw [if_neg (fun both => both.2 isRunning), if_neg (fun both => both.2 isRunning),
        if_pos member]
      exact (placed.of_running registered isRunning).2
    · rw [if_pos ⟨member, isRunning⟩, if_pos ⟨member, isRunning⟩, if_pos member]
  · rw [if_neg (fun both => member both.1), if_neg (fun both => member both.1), if_neg member]

def setStatus (scheduler : Scheduler H) (ref : Ref) (status : RequestStatus) : Scheduler H :=
  scheduler.modify ref (fun request => { request with status := status })

theorem marked_requestId (scheduler : Scheduler H) (refs : List Ref) (status : RequestStatus)
    (ref : Ref) :
    ((scheduler.marked refs status).objects ref).requestId = (scheduler.objects ref).requestId := by
  rw [marked]
  dsimp only
  split <;> rfl

/-- Once the status of a request is set, it need not be marked. -/
theorem census_marked_modify (scheduler : Scheduler H) (ref : Ref) (refs : List Ref)
    (status : RequestStatus) :
    ((scheduler.setStatus ref status).marked refs status).census [] =
      (scheduler.marked (ref :: refs) status).census [] := by
  have parts : ∀ other, (((scheduler.setStatus ref status).marked refs status).objects other) =
        (scheduler.marked (ref :: refs) status).objects other := by
    intro other
    simp only [marked, setStatus, objects_modify, mem_cons]
    by_cases same : other = ref
    · subst same
      by_cases member : other ∈ refs <;> simp [member]
    · simp only [same, false_or, if_false]
  simp only [census, parts]
  rfl

section

variable (finished : status.isFinished = true)
include finished

theorem finishRequest_sound (distinct : (ref :: refs).Nodup)
    (returned : scheduler.finishRequest env status ref = .ok after)
    (sound : ((scheduler.marked (ref :: refs) status).census []).Sound)
    (registered : ∀ other ∈ ref :: refs, (scheduler.census []).Registered other) :
    ((after.marked refs status).census []).Sound /\
      ∀ other ∈ refs, (after.census []).Registered other := by
  rw [finishRequest] at returned
  generalize delayed : decide ((scheduler.objects ref).status = .waitingForRemoteKvs /\
    (scheduler.objects ref).requestId ∉ scheduler.finishedRecvingKvReqIds) = delay at returned
  have start : ∃ begun : Scheduler H,
      (begun.setStatus ref status).freeRequest env ref delay = .ok after /\ begun.objects = scheduler.objects /\
      (begun.marked (ref :: refs) status).census [] =
        (scheduler.marked (ref :: refs) status).census [] /\
      begun.census [] = scheduler.census [] := by
    split at returned
    · exact ⟨_, returned, rfl, rfl, rfl⟩
    · exact ⟨_, returned, rfl, rfl, rfl⟩
  obtain ⟨begun, freed, _, sameMarked, sameCensus⟩ := start
  rw [<- sameMarked, <- census_marked_modify] at sound
  have registered : ∀ other ∈ ref :: refs, begun.requests.get? (begun.objects other).requestId =
      some other := by
    intro other member
    have known := registered other member
    rw [<- sameCensus] at known
    exact known
  have keepsIds : ∀ other, ((begun.setStatus ref status).objects other).requestId =
      (begun.objects other).requestId :=
    objects_modify_keeps _ rfl
  obtain ⟨_, _, manager, _, ⟨_, rfl⟩ | ⟨_, freedBlocks⟩⟩ := freeRequest_eq_ok freed
  · refine ⟨sound, ?_⟩
    intro other member
    have known := registered other (mem_cons_of_mem ref member)
    rw [<- keepsIds] at known
    exact known
  obtain ⟨_, _, _, _, rfl⟩ := freeBlocks_eq_ok freedBlocks
  have sameId := marked_requestId (begun.setStatus ref status) refs status ref
  have stored : ((begun.setStatus ref status).marked refs status).requests.get?
      ((begun.setStatus ref status).objects ref).requestId = some ref := by
    rw [keepsIds]
    exact registered ref mem_cons_self
  constructor
  · have forgets := @Sound.forget _ sound ref (by rw [<- sameId] at stored; exact stored) (by
      simp only [census, marked, setStatus, objects_modify_self]
      split <;> exact finished)
    rw [forget] at forgets
    simp only [census, sameId] at forgets
    exact forgets
  intro other member
  have known := registered other (mem_cons_of_mem ref member)
  have different : (begun.objects other).requestId ≠ (begun.objects ref).requestId := by
    intro same
    rw [same, registered ref mem_cons_self] at known
    exact (nodup_cons.mp distinct).1 (Option.some.inj known ▸ member)
  simp only [Registered, census, releasedRequest, keepsIds]
  rw [Dict.get?_erase_of_ne _ different]
  exact known

theorem finishEach_sound (distinct : refs.Nodup)
    (returned : finishEach env status refs scheduler = .ok after)
    (sound : ((scheduler.marked refs status).census []).Sound)
    (registered : ∀ ref ∈ refs, (scheduler.census []).Registered ref) :
    (after.census []).Sound := by
  induction refs generalizing scheduler with
  | nil =>
    cases returned
    exact sound
  | cons ref refs ih =>
    obtain ⟨_, first, rest⟩ := andThen_eq_ok returned
    obtain ⟨middleSound, middleRegistered⟩ :=
      finishRequest_sound finished distinct first sound registered
    exact ih (nodup_cons.mp distinct).2 rest middleSound middleRegistered

theorem finishListed_sound (distinctIds : requestIds.Nodup)
    (returned : finishEach env status (scheduler.validRequests requestIds)
      (scheduler.dequeueRequests (scheduler.validRequests requestIds)) = .ok after)
    (sound : (scheduler.census []).Sound) : (after.census []).Sound := by
  obtain ⟨distinct, valid⟩ := validRequests_spec sound distinctIds
  refine finishEach_sound finished distinct returned ?_ ?_
  · rw [dequeueRequests_census sound finished distinct valid]
    exact finishAll_sound finished sound (fun ref member => (valid ref member).1)
  intro ref member
  have known := (valid ref member).1
  simp only [Registered, census, dequeueRequests] at known ⊢
  split <;> exact known

end

theorem finishRequests_sound {requestIds : Option (List RequestId)}
    (returned : scheduler.finishRequests env requestIds status = .ok after)
    (sound : (scheduler.census []).Sound) : (after.census []).Sound := by
  obtain ⟨_, required, rest⟩ := andThen_eq_ok returned
  have finished := require_eq_ok required
  cases requestIds with
  | none => exact finishListed_sound finished scheduler.requests.nodup rest sound
  | some requestIds => exact finishListed_sound finished (nodup_dedup requestIds) rest sound

theorem updateRequestAsSession_eq_ok {update : StreamingUpdate}
    (returned : scheduler.updateRequestAsSession ref update = .ok after) :
    ∃ promptTokenIds, (scheduler.objects ref).promptTokenIds = some promptTokenIds /\ after =
        { scheduler with
          objects := Function.update scheduler.objects ref
            (continueSession scheduler.config.blockHasher (scheduler.objects ref) promptTokenIds
              update)
          numWaitingForStreamingInput := scheduler.numWaitingForStreamingInput -
            streams (scheduler.objects ref).status } := by
  rw [updateRequestAsSession] at returned
  split at returned
  · cases returned
  case h_2 promptTokenIds found =>
    cases returned
    refine ⟨promptTokenIds, found, ?_⟩
    split
    case isTrue isStreaming =>
      rw [isStreaming]
      rfl
    case isFalse notStreaming =>
      rw [streams_of_ne notStreaming]
      simp only [modify, Nat.cast_zero, Int.sub_zero]

theorem updateRequestAsSession_sound {id : RequestId} {update : StreamingUpdate}
    (found : scheduler.requests.get? id = some ref)
    (isStreaming : (scheduler.objects ref).status = .waitingForStreamingReq)
    (returned : scheduler.updateRequestAsSession ref update = .ok after)
    (sound : (scheduler.census []).Sound) : (after.census []).Sound := by
  obtain ⟨_, _, rfl⟩ := updateRequestAsSession_eq_ok returned
  have registered := sound.registered found
  have placed := sound.placed ref
  simp only [census, isStreaming] at placed
  obtain ⟨noneRunning, once⟩ := placed.of_waiting registered rfl (by decide)
  apply Moves.sound .waiting sound registered (PlacedAt.inWaitingQueue rfl (by decide))
  refine ⟨⟨_, rfl, rfl, rfl⟩, rfl, rfl, ?_, noneRunning, once, fun _ _ => rfl, fun _ _ => rfl⟩
  simp [streams]

/-- A request that becomes waiting enters one of the waiting queues. -/
theorem enqueueWaitingRequest_counts (scheduler : Scheduler H) (ref other : Ref) :
    (scheduler.enqueueWaitingRequest ref).waiting.count other +
        (scheduler.enqueueWaitingRequest ref).skippedWaiting.count other =
      scheduler.waiting.count other + scheduler.skippedWaiting.count other + [ref].count other := by
  rw [enqueueWaitingRequest]
  split
  · dsimp only
    rw [(addRequest_perm _ _ _ _).count_eq, count_cons, count_singleton]
    omega
  dsimp only
  rw [(addRequest_perm _ _ _ _).count_eq, count_cons, count_singleton]
  omega

theorem addNew_census (sound : (scheduler.census []).Sound) (request : Request H)
    {started : Scheduler H}
    (isStarted : started =
      { scheduler with
        objects := update scheduler.objects scheduler.numObjects request
        numObjects := scheduler.numObjects + 1 }) :
    { started.enqueueWaitingRequest scheduler.numObjects with
      requests := (started.enqueueWaitingRequest scheduler.numObjects).requests.set
        request.requestId scheduler.numObjects }.census [] =
      (scheduler.census []).register request.requestId request.status := by
  have counts := enqueueWaitingRequest_counts started scheduler.numObjects
  have same : SchedulePass.SameButWaiting started
      (started.enqueueWaitingRequest scheduler.numObjects) := by
    rw [enqueueWaitingRequest]
    split <;> exact ⟨rfl, rfl, rfl, rfl, rfl⟩
  generalize started.enqueueWaitingRequest scheduler.numObjects = queued at *
  subst isStarted
  have noPlace := sound.fresh.2
  apply Census.ext
  · funext ref
    simp only [census, Census.register, same.objects, update_apply]
    split <;> rfl
  · funext ref
    simp only [census, register, same.objects, update_apply]
    split <;> rfl
  · simp only [census, register, same.requests]
  · exact same.numObjects
  · exact same.numStreaming
  · funext ref
    simp only [census, register, same.running]
  funext ref
  have count := counts ref
  dsimp only at count
  simp only [census, register, update_apply, count_nil] at noPlace ⊢
  split
  case isTrue isNew =>
    subst isNew
    rw [count_singleton_self] at count
    omega
  case isFalse different =>
    rw [count_eq_zero.mpr (fun member => different (mem_singleton.mp member))] at count
    omega

/-- What a new object may look like: it waits, possibly for its grammar. -/
theorem requestInit_status (blockHasher : Request H -> List H) (args : RequestArgs) :
    (Request.init blockHasher args).status = .waiting \/
      (Request.init blockHasher args).status = .waitingForStructuredOutputGrammar := by
  rw [Request.init]
  cases args.params with
  | pooling => exact Or.inl rfl
  | sampling params =>
    dsimp only
    split
    · exact Or.inr rfl
    · exact Or.inl rfl

theorem addRequest_sound {args : RequestArgs}
    (returned : scheduler.addRequest env (Request.init scheduler.config.blockHasher args) =
      .ok after) (sound : (scheduler.census []).Sound) : (after.census []).Sound := by
  have kind := requestInit_status scheduler.config.blockHasher args
  rw [addRequest] at returned
  generalize Request.init scheduler.config.blockHasher args = request at *
  split at returned
  case h_1 ref found =>
    dsimp only at returned
    split at returned
    · split at returned
      · cases returned
      cases returned
      rw [census_modify scheduler [] ref _ rfl rfl]
      exact sound
    case isFalse isStreaming =>
      have isStreaming := Classical.not_not.mp isStreaming
      split at returned
      · exact updateRequestAsSession_sound found isStreaming returned sound
      · exact finishRequests_sound returned sound
  case h_2 unknown =>
    have changed : ∃ kept : Request H,
        kept.requestId = request.requestId /\ kept.status = request.status /\
        kept = (if request.resumable then { request with streamingQueue := some [] }
          else request) := by
      refine ⟨_, ?_, ?_, rfl⟩ <;> (split <;> rfl)
    obtain ⟨kept, sameId, sameStatus, isKept⟩ := changed
    rw [<- isKept] at returned
    cases returned
    rw [addNew_census sound kept rfl]
    refine sound.register (by rw [sameId]; exact unknown) ?_ ?_ ?_
    · rw [sameStatus]
      rcases kind with is | is <;> (rw [is]; rfl)
    · rw [sameStatus]
      rcases kind with is | is <;> (rw [is]; exact nofun)
    rw [sameStatus]
    rcases kind with is | is <;> (rw [is]; exact nofun)

theorem preemptAll_sound {fuel : Nat} (returned : preemptAll fuel scheduler = .ok after)
    (sound : (scheduler.census []).Sound) : (after.census []).Sound := by
  induction fuel generalizing scheduler with
  | zero =>
    cases returned
    exact sound
  | succ fuel ih =>
    rw [preemptAll] at returned
    split at returned
    · cases returned
      exact sound
    case h_2 ref isLast =>
      obtain ⟨preempted, preemption, rest⟩ := andThen_eq_ok returned
      have parts : scheduler.running.Perm (ref :: scheduler.running.dropLast) := by
        have moved : (scheduler.running.dropLast ++ [ref]).Perm
            (ref :: scheduler.running.dropLast) := perm_append_singleton _ _
        rwa [dropLast_append_getLast? ref (mem_def.mpr isLast)] at moved
      apply ih rest
      rw [census_modify preempted [] ref _ rfl rfl]
      exact preemptRequest_sound parts sound preemption

theorem resetPrefixCache_sound {resetRunningRequests result : Bool}
    (returned : scheduler.resetPrefixCache resetRunningRequests = .ok (result, after))
    (sound : (scheduler.census []).Sound) : (after.census []).Sound := by
  obtain ⟨preempted, preemption, rest⟩ := andThen_eq_ok returned
  have preemptedSound : (preempted.census []).Sound := by
    split at preemption
    · obtain ⟨_, allPreempted, kept⟩ := andThen_eq_ok preemption
      cases kept
      have allSound := preemptAll_sound allPreempted sound
      exact allSound
    cases preemption
    exact sound
  dsimp only at rest
  split at rest
  · cases rest
  cases rest
  exact preemptedSound

theorem updateDraftTokens_census (drafts : DraftTokenIds)
    {requestId : RequestId} {tokenIds : List Token} :
    (scheduler.updateDraftTokens drafts requestId tokenIds).census [] = scheduler.census [] := by
  rw [updateDraftTokens]
  split
  · rfl
  dsimp only
  split
  · rfl
  split
  · exact census_clearSpec scheduler [] _
  · exact census_modify scheduler [] _ _ rfl rfl

theorem updateDraftTokenIds_census (scheduler : Scheduler H) (drafts : DraftTokenIds) :
    (scheduler.updateDraftTokenIds drafts).census [] = scheduler.census [] := by
  rw [updateDraftTokenIds]
  induction drafts.draftTokenIds generalizing scheduler with
  | nil => rfl
  | cons entry rest ih =>
    rw [foldl_cons, ih]
    exact updateDraftTokens_census drafts

end Scheduler

end Vllm.Sched
