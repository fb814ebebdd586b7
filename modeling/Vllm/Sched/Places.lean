import Vllm.Sched.Census

namespace Vllm.Sched

open Foundation Function Scheduler RequestQueue Census PlacedAt List
open KVCache (RequestId BlockId)

/-!
# Operations of the scheduler as changes of the census

The census of a scheduler counts its queues, and during a pass also the
requests that were set aside.  Each small step of a pass leaves the census
alone or gives one request another place.
-/

namespace Scheduler

variable {H : Type}

/-- The places of the requests, with some of them set aside. -/
def census (scheduler : Scheduler H) (aside : List Ref) : Census where
  requestId ref := (scheduler.objects ref).requestId
  status ref := (scheduler.objects ref).status
  requests := scheduler.requests
  numObjects := scheduler.numObjects
  numStreaming := scheduler.numWaitingForStreamingInput
  inRunning ref := scheduler.running.count ref
  inWaiting ref := scheduler.waiting.count ref + scheduler.skippedWaiting.count ref + aside.count ref

variable {scheduler after : Scheduler H} {aside left : List Ref}

section

variable (scheduler : Scheduler H) (aside : List Ref) (ref : Ref)

theorem census_modify (change : Request H -> Request H)
    (sameId : (change (scheduler.objects ref)).requestId = (scheduler.objects ref).requestId)
    (sameStatus : (change (scheduler.objects ref)).status = (scheduler.objects ref).status) :
    (scheduler.modify ref change).census aside = scheduler.census aside := by
  have ids := objects_modify_keeps change sameId
  have statuses := objects_modify_keeps change sameStatus
  simp only [census, ids, statuses]
  rfl

theorem census_clearSpec : (scheduler.clearSpec ref).census aside = scheduler.census aside := by
  rw [clearSpec]
  split
  · rfl
  · exact census_modify scheduler aside ref _ rfl rfl

theorem census_truncateSpec
    (length : Nat) : (scheduler.truncateSpec ref length).census aside = scheduler.census aside := by
  rw [truncateSpec]
  split
  · rfl
  · exact census_modify scheduler aside ref _ rfl rfl

end

/-- What a step has to change for the census to give one request another
place. -/
structure Moves (scheduler : Scheduler H) (aside : List Ref) (after : Scheduler H) (left : List Ref)
    (ref : Ref) (status : RequestStatus) (inRunning inWaiting : Nat) : Prop where
  objects : ∃ request, after.objects = Function.update scheduler.objects ref request /\
    request.requestId = (scheduler.objects ref).requestId /\ request.status = status
  requests : after.requests = scheduler.requests
  numObjects : after.numObjects = scheduler.numObjects
  numStreaming : after.numWaitingForStreamingInput = scheduler.numWaitingForStreamingInput +
    streams status - streams (scheduler.objects ref).status
  inRunning : after.running.count ref = inRunning
  inWaiting : after.waiting.count ref + after.skippedWaiting.count ref + left.count ref = inWaiting
  othersRunning : ∀ other, other ≠ ref ->
    after.running.count other = scheduler.running.count other
  othersWaiting : ∀ other, other ≠ ref ->
    after.waiting.count other + after.skippedWaiting.count other + left.count other =
      scheduler.waiting.count other + scheduler.skippedWaiting.count other + aside.count other

variable {ref : Ref} {inRunning inWaiting : Nat} {running : List Ref}

theorem Moves.census_eq {status : RequestStatus}
    (moves : Moves scheduler aside after left ref status inRunning inWaiting) :
    after.census left = (scheduler.census aside).place ref status inRunning inWaiting := by
  obtain ⟨_, isUpdate, sameId, hasStatus⟩ := moves.objects
  have ids : (fun other => (after.objects other).requestId) =
      fun other => (scheduler.objects other).requestId := by
    funext other
    rw [isUpdate]
    by_cases same : other = ref
    · rw [same, update_self, sameId]
    · rw [update_of_ne same]
  have statuses : (fun other => (after.objects other).status) =
      update (fun other => (scheduler.objects other).status) ref status := by
    rw [eq_update_iff, isUpdate, update_self]
    exact ⟨hasStatus, fun other different => by rw [update_of_ne different]⟩
  exact eq_place ids moves.requests moves.numObjects statuses moves.numStreaming
    moves.inRunning moves.inWaiting
    (fun other different => ⟨moves.othersRunning other different, moves.othersWaiting other different⟩)

theorem Moves.sound (status : RequestStatus) (sound : (scheduler.census aside).Sound)
    (registered : (scheduler.census aside).Registered ref)
    (placed : PlacedAt True status inRunning inWaiting)
    (moves : Moves scheduler aside after left ref status inRunning inWaiting) :
    (after.census left).Sound := by
  rw [moves.census_eq]
  exact sound.place registered placed

theorem count_prependRequest (policy : SchedulingPolicy) (objects : Objects H) (queue : List Ref)
    (ref other : Ref) :
    (prependRequest policy objects queue ref).count other =
      queue.count other + [ref].count other := by
  rw [(prependRequest_perm policy objects queue ref).count_eq, count_cons, count_singleton]

/-- What is in the running queue is a registered request that runs. -/
theorem member_runs (member : ref ∈ scheduler.running) (sound : (scheduler.census aside).Sound) :
    (scheduler.census aside).Registered ref /\ (scheduler.objects ref).status = .running /\
      scheduler.running.count ref = 1 /\
      scheduler.waiting.count ref + scheduler.skippedWaiting.count ref + aside.count ref = 0 :=
  (sound.placed ref).runs (Nat.ne_of_gt (count_pos_iff.mpr member))

/-- The census before and after a preemption whose victim left the running
queue. -/
theorem preemptRequest_moves (parts : scheduler.running.Perm (ref :: running))
    (sound : (scheduler.census aside).Sound)
    (preempted : { scheduler with running := running }.preemptRequest ref = .ok after) :
    Moves scheduler aside after aside ref .preempted 0 1 := by
  obtain ⟨isRunning, _, _, rfl⟩ := preemptRequest_eq_ok preempted
  have counts : ∀ other, scheduler.running.count other = (ref :: running).count other :=
    fun other => parts.count_eq other
  obtain ⟨_, _, once, _⟩ := member_runs (parts.mem_iff.mpr mem_cons_self) sound
  rw [counts, count_cons_self] at once
  have isRunning : (scheduler.objects ref).status = .running := isRunning
  refine ⟨⟨_, rfl, rfl, rfl⟩, rfl, rfl, ?_, ?_, ?_, ?_, ?_⟩
  · rw [isRunning]
    simp [streams]
  · dsimp only
    omega
  · dsimp only
    rw [count_prependRequest, count_singleton_self]
    omega
  · intro other different
    rw [counts, count_cons_of_ne (Ne.symm different)]
  intro other different
  rw [count_prependRequest, count_cons_of_ne (Ne.symm different)]
  rfl

theorem preemptRequest_sound (parts : scheduler.running.Perm (ref :: running))
    (sound : (scheduler.census aside).Sound)
    (preempted : { scheduler with running := running }.preemptRequest ref = .ok after) :
    (after.census aside).Sound := by
  have registered := (member_runs (parts.mem_iff.mpr mem_cons_self) sound).1
  exact Moves.sound .preempted sound registered (inWaitingQueue rfl nofun)
    (preemptRequest_moves parts sound preempted)

/-- Both waiting queues together when the front of one of them is taken. -/
theorem setQueue_counts {name : QueueName} {rest : List Ref}
    (parts : (scheduler.queue name).Perm (ref :: rest)) (other : Ref) :
    scheduler.waiting.count other + scheduler.skippedWaiting.count other =
      (scheduler.setQueue name rest).waiting.count other +
        (scheduler.setQueue name rest).skippedWaiting.count other + [ref].count other := by
  have counts : (scheduler.queue name).count other = rest.count other + [ref].count other := by
    rw [parts.count_eq, count_cons, count_singleton]
  cases name with
  | waiting =>
    simp only [queue] at counts
    simp only [setQueue]
    omega
  | skippedWaiting =>
    simp only [queue] at counts
    simp only [setQueue]
    omega

theorem front_waits {name : QueueName} (front : peekRequest (scheduler.queue name) = some ref)
    (sound : (scheduler.census aside).Sound) :
    (scheduler.census aside).Registered ref /\ (scheduler.objects ref).status.isFinished = false /\
      (scheduler.objects ref).status ≠ .running /\ scheduler.running.count ref = 0 /\
      scheduler.waiting.count ref + scheduler.skippedWaiting.count ref + aside.count ref = 1 := by
  have member : ref ∈ scheduler.queue name := mem_of_mem_head? (Option.mem_def.mpr front)
  have present : (scheduler.census aside).inWaiting ref ≠ 0 := by
    have counted := count_pos_iff.mpr member
    simp only [census]
    cases name with
    | waiting =>
      simp only [queue] at counted
      omega
    | skippedWaiting =>
      simp only [queue] at counted
      omega
  exact (sound.placed ref).waits present

end Scheduler

variable {env : ScheduleEnv} {stepActiveK : Nat} {phase : PassPhase}

namespace SchedulePass

variable {H : Type} {pass middle after : SchedulePass H}

/-- The places of the requests during a pass. -/
def census (pass : SchedulePass H) : Census := pass.scheduler.census pass.stepSkippedWaiting

variable {ref : Ref} {name : Scheduler.QueueName}

theorem untouchEncoder_scheduler {request : Request H} :
    (pass.untouchEncoder request).stepSkippedWaiting = pass.stepSkippedWaiting /\
    ∃ cache, (pass.untouchEncoder request).scheduler =
      { pass.scheduler with encoderCacheManager := cache } := by
  rw [untouchEncoder]
  split
  · exact ⟨rfl, _, rfl⟩
  · exact ⟨rfl, pass.scheduler.encoderCacheManager, rfl⟩

theorem preemptOne_sound {victim : Ref} (sound : pass.census.Sound)
    (preempted : pass.preemptOne = .ok (victim, after)) : after.census.Sound := by
  obtain ⟨middle, _, taken, preemption, rfl⟩ := preemptOne_eq_ok preempted
  obtain ⟨_, parts, same, admissions⟩ := takeVictim_scheduler taken
  have aside : middle.stepSkippedWaiting = pass.stepSkippedWaiting := congrArg Prod.fst admissions
  rw [same] at preemption
  simp only [census, aside]
  exact preemptRequest_sound parts sound preemption

/-- Two schedulers with the same requests, apart from the waiting queues. -/
structure SameButWaiting (scheduler after : Scheduler H) : Prop where
  objects : after.objects = scheduler.objects
  requests : after.requests = scheduler.requests
  numObjects : after.numObjects = scheduler.numObjects
  numStreaming : after.numWaitingForStreamingInput = scheduler.numWaitingForStreamingInput
  running : after.running = scheduler.running

theorem popFrom_counts (popped : pass.popFrom name = .ok (ref, after)) :
    peekRequest (pass.scheduler.queue name) = some ref /\
      after.stepSkippedWaiting = pass.stepSkippedWaiting /\
      SameButWaiting pass.scheduler after.scheduler /\
      ∀ other, pass.scheduler.waiting.count other + pass.scheduler.skippedWaiting.count other =
        after.scheduler.waiting.count other + after.scheduler.skippedWaiting.count other +
          [ref].count other := by
  obtain ⟨_, front, parts, rfl⟩ := popFrom_eq_ok popped
  refine ⟨front, rfl, ?_, setQueue_counts parts⟩
  cases name <;> exact ⟨rfl, rfl, rfl, rfl, rfl⟩

/-- Setting a request aside keeps its place among the waiting ones. -/
theorem skipRequest_census (skipped : pass.skipRequest name = .ok after) :
    after.census = pass.census := by
  obtain ⟨⟨ref, _⟩, popped, rest⟩ := andThen_eq_ok skipped
  cases rest
  obtain ⟨rest, _, parts, rfl⟩ := popFrom_eq_ok popped
  have counts := setQueue_counts parts
  have waiting : (fun other => (pass.scheduler.setQueue name rest).waiting.count other +
      (pass.scheduler.setQueue name rest).skippedWaiting.count other +
      (prependRequest (pass.scheduler.setQueue name rest).config.policy
        (pass.scheduler.setQueue name rest).objects pass.stepSkippedWaiting ref).count other) =
      fun other => pass.scheduler.waiting.count other + pass.scheduler.skippedWaiting.count other +
        pass.stepSkippedWaiting.count other := by
    funext other
    have before := counts other
    rw [count_prependRequest]
    omega
  simp only [census, Scheduler.census, setAside, withScheduler, waiting]
  cases name <;> rfl

variable [DecidableEq H] {scheduler : Scheduler H}

theorem allocateSlots_sound {request : Request H} {args : SlotArgs}
    {result : Option (List (List BlockId))}
    (allocated : pass.scheduler.allocateSlots request args = .ok (result, scheduler))
    (sound : pass.census.Sound) : (pass.withScheduler scheduler).census.Sound := by
  obtain ⟨_, _, _, _, _, _, rfl⟩ := allocateSlots_eq_ok allocated
  exact sound

theorem promote_sound {promoted : Bool} (front : peekRequest (pass.scheduler.queue name) = some ref)
    (tried : pass.scheduler.tryPromoteBlockedWaitingRequest env ref = .ok (promoted, scheduler))
    (sound : pass.census.Sound) : (pass.withScheduler scheduler).census.Sound := by
  obtain ⟨registered, unfinished, notRunning, noneRunning, once⟩ := front_waits front sound
  obtain ⟨_, _, _, status, _, _, ready, same, rfl⟩ :=
    tryPromote_eq_ok tried
  have statusKind : status.isFinished = false /\ status ≠ .running /\
      streams status = streams (pass.scheduler.objects ref).status := by
    cases promoted with
    | true =>
      obtain ⟨kind, notStreaming⟩ := ready rfl
      rw [streams_of_ne notStreaming]
      rcases kind with rfl | rfl <;>
        exact ⟨rfl, nofun, rfl⟩
    | false =>
      rw [same rfl]
      exact ⟨unfinished, notRunning, rfl⟩
  apply Moves.sound status sound registered
    (inWaitingQueue statusKind.1 statusKind.2.1)
  refine ⟨⟨_, rfl, rfl, rfl⟩, rfl, rfl, ?_, noneRunning, once, fun _ _ => rfl, fun _ _ => rfl⟩
  rw [statusKind.2.2]
  dsimp only [withScheduler, afterLoad]
  omega

omit [DecidableEq H] in
theorem startLoading_sound {numComputedTokens : Int}
    (ready : isBlockedWaitingStatus (pass.request ref).status = false)
    (popped : pass.popFrom name = .ok (ref, middle)) (sound : pass.census.Sound) :
    (middle.startLoading ref numComputedTokens).census.Sound := by
  obtain ⟨front, aside, same, counts⟩ := popFrom_counts popped
  obtain ⟨registered, _, _, noneRunning, _⟩ := front_waits front sound
  have notStreaming : (pass.scheduler.objects ref).status ≠ .waitingForStreamingReq := by
    intro isStreaming
    rw [request, isStreaming] at ready
    cases ready
  have moved : ∀ other, (middle.startLoading ref numComputedTokens).stepSkippedWaiting.count other =
      pass.stepSkippedWaiting.count other + [ref].count other := by
    intro other
    rw [<- aside]
    exact count_prependRequest _ _ _ ref other
  apply Moves.sound .waitingForRemoteKvs sound registered (inWaitingQueue rfl (by decide))
  refine ⟨⟨{ pass.scheduler.objects ref with
      status := .waitingForRemoteKvs, numComputedTokens := numComputedTokens }, ?_, rfl, rfl⟩,
    same.requests, same.numObjects, ?_, ?_, ?_, ?_, ?_⟩
  · simp only [startLoading, setAside, withScheduler, Scheduler.modify, update_idem,
      update_self, same.objects]
  · rw [streams_of_ne notStreaming]
    have counter := same.numStreaming
    simp only [startLoading, setAside, withScheduler, Scheduler.modify, counter]
    simp [streams]
  · exact (congrArg (fun running : List Ref => running.count ref) same.running).trans noneRunning
  · rw [moved]
    have before := counts ref
    simp only [startLoading, setAside, withScheduler, Scheduler.modify]
    omega
  · intro other different
    exact congrArg (fun running : List Ref => running.count other) same.running
  · intro other different
    rw [moved]
    have before := counts other
    simp only [startLoading, setAside, withScheduler, Scheduler.modify]
    omega

omit [DecidableEq H] in
theorem admitRequest_sound {numNewTokens numComputedTokens : Int} {plan : EncoderPlan}
    (popped : pass.popFrom name = .ok (ref, middle))
    (admitted : middle.admitRequest ref numNewTokens numComputedTokens plan = .ok after)
    (sound : pass.census.Sound) : after.census.Sound := by
  obtain ⟨front, aside, same, counts⟩ := popFrom_counts popped
  obtain ⟨registered, _, _, noneRunning, _⟩ := front_waits front sound
  obtain ⟨_, _, _, _, _, _, outcome, isAfter⟩ :=
    admitRequest_eq_ok admitted
  have kind : (pass.scheduler.objects ref).status = .waiting \/
      (pass.scheduler.objects ref).status = .preempted := by
    rw [request, same.objects] at outcome
    exact outcome.imp And.left And.left
  have nothingWaits : middle.scheduler.waiting.count ref + middle.scheduler.skippedWaiting.count ref +
      pass.stepSkippedWaiting.count ref = 0 := by
    have before := counts ref
    rw [count_singleton_self] at before
    omega
  rw [isAfter, census]
  dsimp only
  rw [aside]
  apply Moves.sound .running sound registered inRunningQueue
  refine ⟨⟨{ pass.scheduler.objects ref with
      status := .running, numComputedTokens := numComputedTokens }, ?_, rfl, rfl⟩,
    same.requests, same.numObjects, ?_, ?_, nothingWaits, ?_, ?_⟩
  · simp only [same.objects]
  · simp only [same.numStreaming]
    rcases kind with isWaiting | isPreempted
    · rw [isWaiting]
      simp [streams]
    rw [isPreempted]
    simp [streams]
  · simp only [count_append, same.running, noneRunning, count_singleton_self]
  · intro other different
    simp only [count_append, same.running]
    rw [count_eq_zero.mpr (fun member => different (mem_singleton.mp member))]
    rfl
  · intro other different
    have before := counts other
    rw [count_eq_zero.mpr (fun member => different (mem_singleton.mp member))] at before
    dsimp only
    omega

theorem PassStep.sound (step : PassStep env stepActiveK phase pass after)
    (sound : pass.census.Sound) :
    after.census.Sound := by
  cases step with
  | truncate ref isRunning =>
    rw [census]
    dsimp only [withScheduler]
    rw [census_truncateSpec]
    exact sound
  | passOver => exact sound
  | plan ref numComputedTokens numNewTokens plan planned =>
    obtain ⟨_, rfl⟩ := planEncoder_eq_ok planned
    exact sound
  | refuse ref args refused => exact allocateSlots_sound refused sound
  | preempt victim apart preempted => exact preemptOne_sound sound preempted
  | run ref numNewTokens blocks plan runs =>
    have granted := allocateSlots_sound runs.allocated sound
    obtain ⟨_, _, _, rfl⟩ := commitRunning_eq_ok runs.committed
    rw [census, <- census_clearSpec _ _ ref] at granted
    exact granted
  | loras recorded =>
    obtain ⟨_, rfl⟩ := recordLoras_eq_ok recorded
    exact sound
  | promote name ref front tried => exact promote_sound front tried sound
  | skip name skipped =>
    rw [skipRequest_census skipped]
    exact sound
  | untouch name ref front =>
    obtain ⟨aside, _, same⟩ := untouchEncoder_scheduler
    rw [census, same, aside]
    exact sound
  | load name ref computed numNewTokens plan blocks loads leaves =>
    have granted := allocateSlots_sound leaves.allocated sound
    have ready := leaves.ready
    have popped := leaves.popped
    obtain ⟨_, _, _, _, _, _, rfl⟩ := allocateSlots_eq_ok leaves.allocated
    exact startLoading_sound (by exact ready) popped granted
  | enter name ref computed numNewTokens plan blocks enters =>
    exact admitRequest_sound enters.popped enters.entered
      (allocateSlots_sound enters.allocated sound)

theorem PassSteps.sound (steps : PassSteps env stepActiveK phase pass after)
    (sound : pass.census.Sound) :
    after.census.Sound := by
  induction steps with
  | refl => exact sound
  | tail _ step ih => exact step.sound ih

omit [DecidableEq H] in
theorem requeueSkipped_census (pass : SchedulePass H) :
    pass.requeueSkipped.scheduler.census [] = pass.census := by
  have waiting : (fun other => pass.scheduler.waiting.count other +
      (prependRequests pass.scheduler.config.policy pass.scheduler.objects
        pass.scheduler.skippedWaiting pass.stepSkippedWaiting).count other +
      ([] : List Ref).count other) =
      fun other => pass.scheduler.waiting.count other +
        pass.scheduler.skippedWaiting.count other + pass.stepSkippedWaiting.count other := by
    funext other
    rw [(prependRequests_perm _ _ _ _).count_eq, count_append, count_nil]
    omega
  simp only [census, Scheduler.census, requeueSkipped, withScheduler, waiting]

end SchedulePass

namespace Scheduler

variable {H : Type} {scheduler after : Scheduler H}

theorem forScheduled_census {change : RequestId -> Int -> Request H -> Request H}
    {entries : List (RequestId × Int)}
    (sameId : ∀ id numTokens request, (change id numTokens request).requestId = request.requestId)
    (sameStatus : ∀ id numTokens request, (change id numTokens request).status = request.status)
    (returned : forScheduled change entries scheduler = .ok after) :
    after.census [] = scheduler.census [] := by
  induction entries generalizing scheduler with
  | nil =>
    cases returned
    rfl
  | cons entry rest ih =>
    rw [forScheduled] at returned
    split at returned
    · cases returned
    case h_2 ref found =>
      rw [ih returned]
      exact census_modify scheduler [] ref _ (sameId _ _ _) (sameStatus _ _ _)

variable {output : SchedulerOutput}

theorem updateAfterSchedule_census (returned : scheduler.updateAfterSchedule output = .ok after) :
    after.census [] = scheduler.census [] := by
  obtain ⟨advanced, advances, rest⟩ := andThen_eq_ok returned
  have first : advanced.census [] = scheduler.census [] := by
    refine forScheduled_census ?_ ?_ advances
    · intro id numTokens request
      rfl
    intro id numTokens request
    rfl
  dsimp only at rest
  split at rest
  · refine (forScheduled_census ?_ ?_ rest).trans first
    · intro id numTokens request
      rw [expectOutput]
      split <;> rfl
    intro id numTokens request
    rw [expectOutput]
    split <;> rfl
  · cases rest
    exact first

theorem running_nodup {aside : List Ref} (sound : (scheduler.census aside).Sound) :
    scheduler.running.Nodup := by
  apply nodup_iff_count_le_one.mpr
  intro ref
  by_contra more
  have placed := (sound.placed ref).runs (by simp only [census]; omega)
  simp only [census] at placed
  omega

theorem schedulePass_sound [DecidableEq H] {pass : SchedulePass H}
    (returned : scheduler.schedulePass env = .ok pass) (sound : (scheduler.census []).Sound) :
    (pass.scheduler.census []).Sound := by
  obtain ⟨_, _, runs, admits, _, rfl⟩ := schedulePass_eq_ok (running_nodup sound) returned
  rw [SchedulePass.requeueSkipped_census]
  exact SchedulePass.PassSteps.sound admits (SchedulePass.PassSteps.sound runs sound)

theorem schedule_sound [DecidableEq H] (returned : scheduler.schedule env = .ok (output, after))
    (sound : (scheduler.census []).Sound) : (after.census []).Sound := by
  rw [schedule_eq] at returned
  obtain ⟨_, chosen, rest⟩ := andThen_eq_ok returned
  obtain ⟨_, _, rest⟩ := andThen_eq_ok rest
  obtain ⟨⟨_, _⟩, makes, rest⟩ := andThen_eq_ok rest
  obtain ⟨_, updates, rest⟩ := andThen_eq_ok rest
  cases rest
  obtain ⟨_, _, rest⟩ := andThen_eq_ok makes
  obtain ⟨_, _, rest⟩ := andThen_eq_ok rest
  cases rest
  rw [updateAfterSchedule_census updates]
  exact schedulePass_sound chosen sound

end Scheduler

end Vllm.Sched
