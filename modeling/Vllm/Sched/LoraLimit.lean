import Mathlib.Data.List.Dedup
import Vllm.Sched.PassSteps

namespace Vllm.Sched

open Foundation Scheduler SchedulePass Function List
open KVCache (RequestId BlockId)

/-!
# The limit on adapters

A step may use at most `max_loras` adapters.  The scheduler asserts this of the
running requests that it scheduled and admits a waiting request only if its
adapter is in use or there is room for another one.

The assertion is about the running requests.  A running request that is left
out of a step does not count when waiting requests are admitted, so the running
requests can come to use more adapters than the limit, and then the assertion
fails in the first step that schedules all of them.

This module follows one pass of `schedule`.  If the running requests are within the
limit before it, so are the requests of the step, and whoever runs after it has run
before or was admitted by it.  An object that is created later must not take the
place of one that is still queued, so the pass also keeps all references to objects
that exist.
-/

namespace Scheduler

variable {H : Type} {scheduler : Scheduler H}

/-- The adapters that some requests use. -/
def adapters (scheduler : Scheduler H) (refs : List Ref) : List Nat :=
  ((refs.filterMap (fun ref => (scheduler.objects ref).loraIntId)).filter
    (fun lora => 0 < lora)).dedup

theorem mem_adapters {refs : List Ref} {lora : Nat} :
    lora ∈ scheduler.adapters refs <->
      (∃ ref ∈ refs, (scheduler.objects ref).loraIntId = some lora) /\ 0 < lora := by
  simp only [adapters, mem_dedup, mem_filter, mem_filterMap, decide_eq_true_eq]

/-- Requests whose adapters are all in a list use at most as many adapters as
the list has. -/
theorem length_adapters_le {refs : List Ref} {loras : List Nat}
    (listed : ∀ ref ∈ refs, ∀ lora ∈ (scheduler.objects ref).loraIntId, 0 < lora -> lora ∈ loras) :
    (scheduler.adapters refs).length <= loras.length := by
  apply List.Subperm.length_le
  apply subperm_of_subset (nodup_dedup _)
  intro lora member
  rcases mem_adapters.mp member with ⟨⟨ref, inRefs, isLora⟩, positive⟩
  exact listed ref inRefs lora isLora positive

/-- Every reference that a scheduler keeps is one of an object that exists. -/
structure Bounded (scheduler : Scheduler H) : Prop where
  running : ∀ ref ∈ scheduler.running, ref < scheduler.numObjects
  waiting : ∀ ref ∈ scheduler.waiting, ref < scheduler.numObjects
  skippedWaiting : ∀ ref ∈ scheduler.skippedWaiting, ref < scheduler.numObjects
  requests : ∀ id ref, scheduler.requests.get? id = some ref -> ref < scheduler.numObjects

end Scheduler

namespace SchedulePass

variable {H : Type} {pass after : SchedulePass H}

/-- The requests that were set aside exist as well. -/
structure Bounded (pass : SchedulePass H) : Prop where
  scheduler : pass.scheduler.Bounded
  aside : ∀ ref ∈ pass.stepSkippedWaiting, ref < pass.scheduler.numObjects

/-- All requests of a step. -/
def scheduledReqs (pass : SchedulePass H) : List Ref :=
  pass.scheduledRunningReqs ++ pass.scheduledNewReqs ++ pass.scheduledResumedReqs

/-- While the running requests are visited, the step has running requests only,
and nobody changes adapters. -/
structure RunsOnly (first : Scheduler H) (pass : SchedulePass H) : Prop where
  config : pass.scheduler.config = first.config
  adapter : ∀ ref, (pass.request ref).loraIntId = (first.objects ref).loraIntId
  running : pass.scheduler.running ⊆ first.running
  scheduled : pass.scheduledRunningReqs ⊆ first.running
  noNew : pass.scheduledNewReqs = []
  noResumed : pass.scheduledResumedReqs = []
  numObjects : pass.scheduler.numObjects = first.numObjects
  bounded : pass.Bounded

variable {first : Scheduler H} {ref : Ref}

theorem adapter_update {objects : Ref -> Request H} {request : Request H}
    (same : request.loraIntId = (objects ref).loraIntId) (other : Ref) :
    (update objects ref request other).loraIntId = (objects other).loraIntId := by
  by_cases isRef : other = ref
  · rw [isRef, update_self, same]
  · rw [update_of_ne isRef]

theorem RunsOnly.withScheduler {scheduler : Scheduler H} (only : RunsOnly first pass)
    (sameConfig : scheduler.config = pass.scheduler.config)
    (sameAdapters : ∀ ref, (scheduler.objects ref).loraIntId = (pass.request ref).loraIntId)
    (fewer : scheduler.running ⊆ pass.scheduler.running)
    (sameObjects : scheduler.numObjects = pass.scheduler.numObjects)
    (stillBounded : scheduler.Bounded) : RunsOnly first (pass.withScheduler scheduler) where
  config := sameConfig.trans only.config
  adapter ref := (sameAdapters ref).trans (only.adapter ref)
  running := List.Subset.trans fewer only.running
  scheduled := only.scheduled
  noNew := only.noNew
  noResumed := only.noResumed
  numObjects := sameObjects.trans only.numObjects
  bounded := ⟨stillBounded, fun ref member => sameObjects ▸ only.bounded.aside ref member⟩

theorem RunsOnly.truncateSpec (only : RunsOnly first pass) (ref : Ref) (length : Nat) :
    RunsOnly first (pass.withScheduler (pass.scheduler.truncateSpec ref length)) := by
  rw [Scheduler.truncateSpec]
  split
  · exact only.withScheduler rfl (fun _ => rfl) (List.Subset.refl _) rfl
      { only.bounded.scheduler with }
  · exact only.withScheduler rfl (adapter_update rfl) (List.Subset.refl _) rfl
      { only.bounded.scheduler with }

/-- A preemption takes one request out of the running queue, and out of the step
if it was in it. -/
theorem RunsOnly.preemptOne {victim : Ref} (only : RunsOnly first pass)
    (returned : pass.preemptOne = .ok (victim, after)) : RunsOnly first after := by
  rcases preemptOne_eq_ok returned with ⟨middle, _, taken, preempted, rfl⟩
  rcases takeVictim_eq_ok taken with ⟨running, parts, outcome⟩
  rcases preemptRequest_eq_ok preempted with ⟨_, _, _, rfl⟩
  have fewer : running ⊆ pass.scheduler.running := by
    intro ref member
    exact parts.mem_iff.mpr (mem_cons_of_mem victim member)
  have bounded := only.bounded.scheduler
  have isOld : victim < pass.scheduler.numObjects :=
    bounded.running victim (parts.mem_iff.mpr mem_cons_self)
  have without : RunsOnly first
      (pass.withScheduler { pass.scheduler with running := running }) :=
    only.withScheduler rfl (fun _ => rfl) fewer rfl
      { bounded with running := fun ref member => bounded.running ref (fewer member) }
  have middleOnly : RunsOnly first middle /\
      middle.scheduler = { pass.scheduler with running := running } := by
    rcases outcome with ⟨_, rfl⟩ | ⟨_, _, rfl⟩
    · exact ⟨without, rfl⟩
    exact ⟨⟨without.config, without.adapter, without.running,
      List.Subset.trans erase_subset without.scheduled, without.noNew, without.noResumed,
      without.numObjects, without.bounded.scheduler, without.bounded.aside⟩, rfl⟩
  rcases middleOnly with ⟨middleOnly, isMiddle⟩
  refine ⟨middleOnly.config, ?_, middleOnly.running, middleOnly.scheduled, middleOnly.noNew,
    middleOnly.noResumed, middleOnly.numObjects, ⟨?_, middleOnly.bounded.aside⟩⟩
  · intro ref
    refine Eq.trans ?_ (middleOnly.adapter ref)
    refine adapter_update ?_ ref
    rfl
  refine { middleOnly.bounded.scheduler with waiting := ?_ }
  intro ref member
  rcases mem_cons.mp ((RequestQueue.prependRequest_perm _ _ _ _).mem_iff.mp member) with
    isVictim | waits
  · rw [isVictim, isMiddle]
    exact isOld
  · exact middleOnly.bounded.scheduler.waiting ref waits

variable [DecidableEq H] {env : ScheduleEnv} {stepActiveK : Nat} {numNew : Int} {plan : EncoderPlan}

section

variable (only : RunsOnly first pass)
include only

theorem RunsOnly.allocateOrPreempt {fuel : Nat} {result : Option (List (List BlockId))}
    (returned : allocateOrPreempt ref numNew fuel pass = .ok (result, after)) :
    RunsOnly first after := by
  induction fuel generalizing pass with
  | zero =>
    cases returned
    exact only
  | succ fuel ih =>
    rcases andThen_eq_ok returned with ⟨⟨granted, _⟩, allocated, rest⟩
    rcases allocateSlots_eq_ok allocated with ⟨_, _, manager, _, _, _, rfl⟩
    have kept : RunsOnly first
        (pass.withScheduler { pass.scheduler with kvCacheManager := manager }) :=
      only.withScheduler rfl (fun _ => rfl) (List.Subset.refl _) rfl
        { only.bounded.scheduler with }
    cases granted with
    | some blocks =>
      cases rest
      exact kept
    | none =>
      rcases andThen_eq_ok rest with ⟨⟨_, _⟩, preemption, rest⟩
      have fewer := kept.preemptOne preemption
      split at rest
      · cases rest
        exact fewer
      · exact ih fewer rest

omit [DecidableEq H] in
theorem RunsOnly.commitRunning {blocks : List (List BlockId)} (member : ref ∈ first.running)
    (returned : pass.commitRunning ref numNew blocks plan = .ok after) :
    RunsOnly first after := by
  rcases commitRunning_eq_ok returned with ⟨_, _, _, rfl⟩
  have scheduled : pass.scheduledRunningReqs ++ [ref] ⊆ first.running :=
    append_subset.mpr ⟨only.scheduled, cons_subset.mpr ⟨member, nil_subset _⟩⟩
  rw [clearSpec]
  split
  · exact ⟨only.config, only.adapter, only.running, scheduled, only.noNew, only.noResumed,
      only.numObjects, { only.bounded.scheduler with }, only.bounded.aside⟩
  refine ⟨only.config, ?_, only.running, scheduled, only.noNew, only.noResumed, only.numObjects,
    { only.bounded.scheduler with }, only.bounded.aside⟩
  intro other
  refine Eq.trans ?_ (only.adapter other)
  refine adapter_update ?_ other
  rfl

theorem RunsOnly.visitRunning {goesOn : Bool} (member : ref ∈ pass.scheduler.running)
    (returned : pass.visitRunning env stepActiveK ref = .ok (goesOn, after)) :
    RunsOnly first after := by
  rw [SchedulePass.visitRunning] at returned
  have truncated := only.truncateSpec ref stepActiveK
  generalize pass.withScheduler (pass.scheduler.truncateSpec ref stepActiveK) = middle at *
  have passed : ∀ pass : SchedulePass H, RunsOnly first pass ->
      RunsOnly first { pass with reqIndex := pass.reqIndex + 1 } := by
    intro pass only
    exact ⟨only.config, only.adapter, only.running, only.scheduled, only.noNew, only.noResumed,
      only.numObjects, only.bounded.scheduler, only.bounded.aside⟩
  split at returned
  · cases returned
    exact passed middle truncated
  rcases andThen_eq_ok returned with ⟨⟨_, _⟩, planning, rest⟩
  rcases andThen_eq_ok rest with ⟨_, _, rest⟩
  rcases planEncoder_eq_ok planning with ⟨cache, rfl⟩
  have plannedOnly : RunsOnly first
      (middle.withScheduler { middle.scheduler with encoderCacheManager := cache }) :=
    truncated.withScheduler rfl (fun _ => rfl) (List.Subset.refl _) rfl
      { truncated.bounded.scheduler with }
  split at rest
  · cases rest
    exact passed _ plannedOnly
  rcases andThen_eq_ok rest with ⟨⟨granted, _⟩, allocation, rest⟩
  have allocatedOnly := plannedOnly.allocateOrPreempt allocation
  cases granted with
  | none =>
    cases rest
    exact allocatedOnly
  | some blocks =>
    rcases andThen_eq_ok rest with ⟨_, commits, rest⟩
    cases rest
    exact allocatedOnly.commitRunning (only.running member) commits

theorem RunsOnly.scheduleRunning {fuel : Nat}
    (returned : scheduleRunning env stepActiveK fuel pass = .ok after) : RunsOnly first after := by
  induction fuel generalizing pass with
  | zero =>
    cases returned
    exact only
  | succ fuel ih =>
    rw [scheduleRunning] at returned
    split at returned
    · cases returned
      exact only
    case h_2 ref found =>
      split at returned
      · rcases andThen_eq_ok returned with ⟨⟨_, _⟩, visit, rest⟩
        have visitedOnly := only.visitRunning (mem_of_getElem? found) visit
        split at rest
        · exact ih visitedOnly rest
        cases rest
        exact visitedOnly
      · cases returned
        exact only

end

/-- The requests that a step admits. -/
def admittedReqs (pass : SchedulePass H) : List Ref :=
  pass.scheduledNewReqs ++ pass.scheduledResumedReqs

/-- The adapters of the requests of the step are recorded, and they are not too
many.  Who runs has run before or was admitted. -/
structure WithinLimit (first : Scheduler H) (maxLoras : Nat) (pass : SchedulePass H) : Prop where
  config : pass.scheduler.config = first.config
  limit : pass.scheduler.config.maxLoras = some maxLoras
  adapter : ∀ ref, (pass.request ref).loraIntId = (first.objects ref).loraIntId
  short : pass.scheduledLoras.length <= maxLoras
  recorded : ∀ ref ∈ pass.scheduledReqs, ∀ lora ∈ (first.objects ref).loraIntId, 0 < lora ->
    lora ∈ pass.scheduledLoras
  running : ∀ ref ∈ pass.scheduler.running, ref ∈ first.running \/ ref ∈ pass.admittedReqs
  numObjects : pass.scheduler.numObjects = first.numObjects
  bounded : pass.Bounded

variable {maxLoras : Nat}

omit [DecidableEq H] in
/-- The assertion holds if the running requests do not use too many adapters. -/
theorem RunsOnly.recordLoras (only : RunsOnly first pass)
    (limit : first.config.maxLoras = some maxLoras)
    (fits : (first.adapters first.running).length <= maxLoras) :
    ∃ recorded, pass.recordLoras = .ok recorded /\ WithinLimit first maxLoras recorded := by
  have limited : pass.scheduler.config.maxLoras = some maxLoras := by rw [only.config, limit]
  have scheduledReqs : pass.scheduledReqs = pass.scheduledRunningReqs := by
    rw [scheduledReqs, only.noNew, only.noResumed, append_nil, append_nil]
  have short : (pass.scheduler.adapters pass.scheduledRunningReqs).length <= maxLoras := by
    refine le_trans (length_adapters_le ?_) fits
    intro ref member lora isLora positive
    refine mem_adapters.mpr ⟨⟨ref, only.scheduled member, ?_⟩, positive⟩
    rw [<- only.adapter ref]
    exact isLora
  refine ⟨{ pass with scheduledLoras := pass.scheduler.adapters pass.scheduledRunningReqs }, ?_,
    only.config, limited, only.adapter, short, ?_, fun ref member => Or.inl (only.running member),
    only.numObjects, only.bounded.scheduler, only.bounded.aside⟩
  · have passes : require ((pass.scheduler.adapters pass.scheduledRunningReqs).length <= maxLoras)
        SchedulerError.tooManyLoras = .ok () := if_pos short
    rw [SchedulePass.recordLoras, limited]
    exact congrArg (fun checked => andThen checked _) passes
  intro ref member lora isLora positive
  have inStep : ref ∈ pass.scheduledRunningReqs := scheduledReqs ▸ member
  exact mem_adapters.mpr ⟨⟨ref, inStep, (only.adapter ref).trans isLora⟩, positive⟩

omit [DecidableEq H] in
/-- A request that is set aside is one that exists. -/
theorem Bounded.setAside {pass : SchedulePass H} (bounded : pass.Bounded)
    (isOld : ref < pass.scheduler.numObjects) : (pass.setAside ref).Bounded := by
  refine ⟨bounded.scheduler, ?_⟩
  intro other member
  rcases mem_cons.mp ((RequestQueue.prependRequest_perm _ _ _ _).mem_iff.mp member) with
    isRef | before
  · rw [isRef]
    exact isOld
  · exact bounded.aside other before

omit [DecidableEq H] in
theorem Bounded.startLoading {pass : SchedulePass H} (bounded : pass.Bounded)
    (isOld : ref < pass.scheduler.numObjects) (numComputedTokens : Int) :
    (pass.startLoading ref numComputedTokens).Bounded := by
  have marked : (pass.withScheduler (pass.scheduler.modify ref (fun request =>
      { request with status := .waitingForRemoteKvs }))).Bounded :=
    ⟨{ bounded.scheduler with }, bounded.aside⟩
  have aside := marked.setAside isOld
  exact ⟨{ aside.scheduler with }, aside.aside⟩

section

variable (within : WithinLimit first maxLoras pass)
include within

omit [DecidableEq H]

/-- What does not change the step, the configuration, the adapters and the running
queue keeps the limit. -/
theorem WithinLimit.of_same (sameConfig : after.scheduler.config = pass.scheduler.config)
    (sameAdapters : ∀ ref, (after.request ref).loraIntId = (pass.request ref).loraIntId)
    (sameReqs : after.scheduledReqs = pass.scheduledReqs)
    (sameAdmitted : after.admittedReqs = pass.admittedReqs)
    (sameLoras : after.scheduledLoras = pass.scheduledLoras)
    (sameRunning : after.scheduler.running = pass.scheduler.running)
    (sameObjects : after.scheduler.numObjects = pass.scheduler.numObjects)
    (bounded : after.Bounded) : WithinLimit first maxLoras after where
  config := sameConfig.trans within.config
  limit := by rw [sameConfig, within.limit]
  adapter ref := (sameAdapters ref).trans (within.adapter ref)
  short := by rw [sameLoras]; exact within.short
  recorded := by rw [sameReqs, sameLoras]; exact within.recorded
  running := by rw [sameRunning, sameAdmitted]; exact within.running
  numObjects := sameObjects.trans within.numObjects
  bounded := bounded

/-- What is left of a queue, and the request that was taken from it, existed. -/
theorem WithinLimit.popFrom {name : QueueName} (popped : pass.popFrom name = .ok (ref, after)) :
    WithinLimit first maxLoras after /\ ref < after.scheduler.numObjects := by
  rcases popFrom_eq_ok popped with ⟨rest, _, parts, rfl⟩
  have bounded := within.bounded.scheduler
  have isOld : ∀ other ∈ ref :: rest, other < pass.scheduler.numObjects := by
    intro other member
    cases name with
    | waiting => exact bounded.waiting other (parts.mem_iff.mpr member)
    | skippedWaiting => exact bounded.skippedWaiting other (parts.mem_iff.mpr member)
  have others : ∀ other ∈ rest, other < pass.scheduler.numObjects :=
    fun other member => isOld other (mem_cons_of_mem ref member)
  cases name with
  | waiting =>
    refine ⟨within.of_same rfl (fun _ => rfl) rfl rfl rfl rfl rfl
      ⟨{ bounded with waiting := others }, within.bounded.aside⟩, isOld ref mem_cons_self⟩
  | skippedWaiting =>
    refine ⟨within.of_same rfl (fun _ => rfl) rfl rfl rfl rfl rfl
      ⟨{ bounded with skippedWaiting := others }, within.bounded.aside⟩, isOld ref mem_cons_self⟩

theorem WithinLimit.admitRequest {numComputedTokens : Int}
    (isOld : ref < pass.scheduler.numObjects)
    (spare : pass.exceedsLoras (pass.request ref) = false)
    (returned : pass.admitRequest ref numNew numComputedTokens plan = .ok after) :
    WithinLimit first maxLoras after := by
  rcases admitRequest_eq_ok returned with
    ⟨newReqs, resumedReqs, _, _, _, _, outcome, isAfter⟩
  have members : ∀ other, other ∈ pass.scheduledRunningReqs ++ newReqs ++ resumedReqs ->
      other ∈ pass.scheduledReqs \/ other = ref := by
    intro other
    rcases outcome with ⟨_, rfl, rfl⟩ | ⟨_, rfl, rfl⟩ <;>
      (simp only [scheduledReqs, mem_append, mem_singleton]; tauto)
  have grown : after.scheduledLoras.length <= maxLoras /\
      pass.scheduledLoras ⊆ after.scheduledLoras /\
        ∀ lora ∈ (pass.request ref).loraIntId, lora ∈ after.scheduledLoras := by
    have isLoras := congrArg (·.scheduledLoras) isAfter
    dsimp only at isLoras
    rw [within.limit] at isLoras
    rw [exceedsLoras, within.limit] at spare
    cases own : (pass.request ref).loraIntId with
    | none =>
      rw [own] at isLoras
      rw [isLoras]
      exact ⟨within.short, List.Subset.refl _, nofun⟩
    | some lora =>
      rw [own] at isLoras spare
      dsimp only at isLoras spare
      split at isLoras
      case isTrue listed =>
        rw [isLoras]
        refine ⟨within.short, List.Subset.refl _, ?_⟩
        rintro other ⟨⟩
        exact listed
      case isFalse unlisted =>
        have room : pass.scheduledLoras.length ≠ maxLoras := by
          intro full
          exact of_decide_eq_false spare ⟨full, unlisted⟩
        have short := within.short
        rw [isLoras]
        refine ⟨by rw [length_cons]; omega, subset_cons_self _ _, ?_⟩
        rintro other ⟨⟩
        exact mem_cons_self
  rcases grown with ⟨short, kept, listed⟩
  have admitted : ∀ other ∈ pass.admittedReqs ++ [ref], other ∈ newReqs ++ resumedReqs := by
    intro other
    rcases outcome with ⟨_, rfl, rfl⟩ | ⟨_, rfl, rfl⟩ <;>
      (simp only [admittedReqs, mem_append, mem_singleton]; tauto)
  subst isAfter
  refine ⟨within.config, within.limit, ?_, short, ?_, ?_, within.numObjects, ?_⟩
  · intro other
    refine Eq.trans ?_ (within.adapter other)
    refine adapter_update ?_ other
    rfl
  · intro other member lora isLora positive
    rcases members other member with before | isRef
    · exact kept (within.recorded other before lora isLora positive)
    rw [isRef, <- within.adapter ref] at isLora
    exact listed lora isLora
  · intro other member
    rcases mem_append.mp member with before | isRef
    · rcases within.running other before with ran | entered
      · exact Or.inl ran
      · exact Or.inr (admitted other (mem_append_left _ entered))
    · exact Or.inr (admitted other (mem_append_right _ isRef))
  refine ⟨{ within.bounded.scheduler with running := ?_ }, within.bounded.aside⟩
  intro other member
  rcases mem_append.mp member with before | isRef
  · exact within.bounded.scheduler.running other before
  · rw [mem_singleton.mp isRef]
    exact isOld

end

theorem PassStep.withinLimit (step : PassStep env stepActiveK .waiting pass after)
    (within : WithinLimit first maxLoras pass) :
    WithinLimit first maxLoras after := by
  have granted : ∀ {request : Request H} {args : SlotArgs}
      {blocks : Option (List (List BlockId))} {scheduler : Scheduler H},
      pass.scheduler.allocateSlots request args = .ok (blocks, scheduler) ->
      WithinLimit first maxLoras (pass.withScheduler scheduler) := by
    intro request args blocks scheduler allocated
    rcases allocateSlots_eq_ok allocated with ⟨_, _, _, _, _, _, rfl⟩
    exact within.of_same rfl (fun _ => rfl) rfl rfl rfl rfl rfl
      ⟨{ within.bounded.scheduler with }, within.bounded.aside⟩
  cases step with
  | plan ref numComputedTokens numNew plan planned =>
    rcases planEncoder_eq_ok planned with ⟨_, rfl⟩
    exact within.of_same rfl (fun _ => rfl) rfl rfl rfl rfl rfl
      ⟨{ within.bounded.scheduler with }, within.bounded.aside⟩
  | refuse ref args refused => exact granted refused
  | promote name ref front tried =>
    rcases tryPromote_eq_ok tried with ⟨_, _, _, _, _, _, _, _, rfl⟩
    exact within.of_same rfl (adapter_update rfl) rfl rfl rfl rfl rfl
      ⟨{ within.bounded.scheduler with }, within.bounded.aside⟩
  | skip name skipped =>
    rcases andThen_eq_ok skipped with ⟨⟨_, _⟩, popped, rest⟩
    cases rest
    rcases within.popFrom popped with ⟨fewer, isOld⟩
    exact fewer.of_same rfl (fun _ => rfl) rfl rfl rfl rfl rfl (fewer.bounded.setAside isOld)
  | untouch name ref front =>
    rw [untouchEncoder]
    split
    · exact within.of_same rfl (fun _ => rfl) rfl rfl rfl rfl rfl
        ⟨{ within.bounded.scheduler with }, within.bounded.aside⟩
    · exact within
  | load name ref computed numNew plan blocks loads leaves =>
    rcases (granted leaves.allocated).popFrom leaves.popped with ⟨fewer, isOld⟩
    refine fewer.of_same rfl ?_ rfl rfl rfl rfl rfl ?_
    · intro other
      simp only [startLoading, setAside, withScheduler, request, Scheduler.modify,
        update_idem, update_self]
      refine adapter_update ?_ other
      rfl
    exact fewer.bounded.startLoading isOld computed.numComputedTokens
  | enter name ref computed numNew plan blocks enters =>
    rcases (granted enters.allocated).popFrom enters.popped with ⟨fewer, isOld⟩
    refine fewer.admitRequest isOld ?_ enters.entered
    have spare := enters.spare
    rcases popFrom_eq_ok enters.popped with ⟨_, _, _, isMiddle⟩
    rcases allocateSlots_eq_ok enters.allocated with ⟨_, _, _, _, _, _, same⟩
    rw [isMiddle, same]
    cases name <;> exact spare

theorem PassSteps.withinLimit (steps : PassSteps env stepActiveK .waiting pass after)
    (within : WithinLimit first maxLoras pass) : WithinLimit first maxLoras after := by
  induction steps with
  | refl => exact within
  | tail _ step ih => exact step.withinLimit ih

theorem WithinLimit.admitWaiting (within : WithinLimit first maxLoras pass)
    (returned : pass.admitWaiting env = .ok after) : WithinLimit first maxLoras after := by
  rw [SchedulePass.admitWaiting] at returned
  split at returned
  · rcases andThen_eq_ok returned with ⟨admitted, waits, rest⟩
    cases rest
    have steps : PassSteps env 0 .waiting pass admitted := scheduleWaiting_steps waits
    have stepped := steps.withinLimit within
    refine stepped.of_same rfl (fun _ => rfl) rfl rfl rfl rfl rfl ⟨?_, stepped.bounded.aside⟩
    refine { stepped.bounded.scheduler with skippedWaiting := ?_ }
    intro ref member
    rcases mem_append.mp ((RequestQueue.prependRequests_perm _ _ _ _).mem_iff.mp member) with
      aside | skipped
    · exact stepped.bounded.aside ref aside
    · exact stepped.bounded.scheduler.skippedWaiting ref skipped
  cases returned
  exact within

end SchedulePass

namespace Scheduler

variable {H : Type} [DecidableEq H]

variable {scheduler : Scheduler H} {maxLoras : Nat} {env : ScheduleEnv}

omit [DecidableEq H] in
theorem Bounded.start (bounded : scheduler.Bounded) :
    SchedulePass.RunsOnly scheduler (SchedulePass.start scheduler) :=
  ⟨rfl, fun _ => rfl, List.Subset.refl _, nil_subset _, rfl, rfl, rfl, { bounded with },
    fun _ member => absurd member not_mem_nil⟩

section

variable (bounded : scheduler.Bounded) (limit : scheduler.config.maxLoras = some maxLoras)
  (fits : (scheduler.adapters scheduler.running).length <= maxLoras)
include bounded limit fits

/-- The assertion of a step holds if the running requests do not use too many
adapters. -/
theorem recordLoras_of_fits {ran : SchedulePass H}
    (returned : SchedulePass.scheduleRunning env scheduler.activeNumSpecTokens
      (scheduler.running.length + 1) (SchedulePass.start scheduler) = .ok ran) :
    ∃ recorded, ran.recordLoras = .ok recorded /\
      SchedulePass.WithinLimit scheduler maxLoras recorded :=
  (bounded.start.scheduleRunning returned).recordLoras limit fits

/-- What a pass leaves behind if the running requests do not use too many
adapters. -/
theorem schedulePass_withinLimit {pass : SchedulePass H}
    (returned : scheduler.schedulePass env = .ok pass) :
    SchedulePass.WithinLimit scheduler maxLoras pass := by
  rcases andThen_eq_ok returned with ⟨_, running, rest⟩
  rcases andThen_eq_ok rest with ⟨_, recording, waiting⟩
  rcases recordLoras_of_fits bounded limit fits running with ⟨_, isOk, within⟩
  rw [recording] at isOk
  cases isOk
  exact within.admitWaiting waiting

end

end Scheduler

end Vllm.Sched
