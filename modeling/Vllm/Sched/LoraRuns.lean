import Vllm.Sched.LoraLimit
import Vllm.Sched.RequestSteps

namespace Vllm.Sched

open Foundation Scheduler SchedulePass Function List
open KVCache (RequestId)

/-!
# The limit on adapters in every run

Only `schedule` lets a request start to run.  Every other call takes requests out of
the running queue or leaves it alone, and no call changes the adapter of an object.
So the running requests stay within the limit as long as every step leaves them
within it.

A step may break the limit in one way.  It passes over a running request, so that
the adapter of this request does not count, and it admits a request with an adapter
that no running request has.  The condition on the steps rules out that both happen
at once.  With it the invariant holds along every run, and so does the assertion.
-/

namespace Scheduler

variable {H : Type} {scheduler middle after : Scheduler H} {env : ConnectorEnv} {ref : Ref}

/-- Nobody starts to run, and no object that exists changes its adapter.  New objects
may be created behind those that exist. -/
structure Shrinks (before after : Scheduler H) : Prop where
  config : after.config = before.config
  numObjects : before.numObjects <= after.numObjects
  adapter : ∀ ref < before.numObjects,
    (after.objects ref).loraIntId = (before.objects ref).loraIntId
  running : after.running ⊆ before.running
  bounded : after.Bounded

theorem Shrinks.trans (first : Shrinks scheduler middle) (second : Shrinks middle after) :
    Shrinks scheduler after where
  config := second.config.trans first.config
  numObjects := first.numObjects.trans second.numObjects
  adapter ref isOld :=
    (second.adapter ref (isOld.trans_le first.numObjects)).trans (first.adapter ref isOld)
  running := List.Subset.trans second.running first.running
  bounded := second.bounded

/-- The running requests that are left use no other adapters than before. -/
theorem Shrinks.adapters_subset (shrinks : Shrinks scheduler after)
    (bounded : scheduler.Bounded) :
    after.adapters after.running ⊆ scheduler.adapters scheduler.running := by
  intro lora member
  rcases mem_adapters.mp member with ⟨⟨ref, runs, isLora⟩, positive⟩
  have ran := shrinks.running runs
  rw [shrinks.adapter ref (bounded.running ref ran)] at isLora
  exact mem_adapters.mpr ⟨⟨ref, ran, isLora⟩, positive⟩

theorem adapters_length_le {refs others : List Ref} {other : Scheduler H}
    (fewer : scheduler.adapters refs ⊆ other.adapters others) :
    (scheduler.adapters refs).length <= (other.adapters others).length :=
  (subperm_of_subset (nodup_dedup _) fewer).length_le

section

variable (bounded : scheduler.Bounded)
include bounded

/-- A change that leaves the queues, the table of requests and all adapters alone. -/
theorem Bounded.shrinks_of_same (config : after.config = scheduler.config)
    (numObjects : after.numObjects = scheduler.numObjects)
    (adapter : ∀ ref, (after.objects ref).loraIntId = (scheduler.objects ref).loraIntId)
    (running : after.running = scheduler.running) (waiting : after.waiting = scheduler.waiting)
    (skippedWaiting : after.skippedWaiting = scheduler.skippedWaiting)
    (requests : after.requests = scheduler.requests) : Shrinks scheduler after where
  config := config
  numObjects := Nat.le_of_eq numObjects.symm
  adapter ref _ := adapter ref
  running := by rw [running]; exact List.Subset.refl _
  bounded :=
    { running := by rw [running, numObjects]; exact bounded.running
      waiting := by rw [waiting, numObjects]; exact bounded.waiting
      skippedWaiting := by rw [skippedWaiting, numObjects]; exact bounded.skippedWaiting
      requests := by rw [requests, numObjects]; exact bounded.requests }

theorem Bounded.shrinks_modify {change : Request H -> Request H}
    (same : (change (scheduler.objects ref)).loraIntId = (scheduler.objects ref).loraIntId) :
    Shrinks scheduler (scheduler.modify ref change) :=
  bounded.shrinks_of_same rfl rfl (adapter_update same) rfl rfl rfl rfl

end

section Updating

variable [DecidableEq H] {output : SchedulerOutput} {modelOutput : ModelRunnerOutput}

end Updating

theorem forScheduled_shrinks {change : RequestId -> Int -> Request H -> Request H}
    (same : ∀ id numTokens request, (change id numTokens request).loraIntId = request.loraIntId)
    {entries : List (RequestId × Int)} (bounded : scheduler.Bounded)
    (returned : forScheduled change entries scheduler = .ok after) : Shrinks scheduler after := by
  induction entries generalizing scheduler with
  | nil =>
    cases returned
    exact bounded.shrinks_of_same rfl rfl (fun _ => rfl) rfl rfl rfl rfl
  | cons entry rest ih =>
    rw [forScheduled] at returned
    split at returned
    · cases returned
    case h_2 ref _ =>
      have changed : Shrinks scheduler (scheduler.modify ref (change entry.1 entry.2)) :=
        bounded.shrinks_modify (same entry.1 entry.2 _)
      exact changed.trans (ih changed.bounded returned)

theorem updateAfterSchedule_shrinks {output : SchedulerOutput} (bounded : scheduler.Bounded)
    (returned : scheduler.updateAfterSchedule output = .ok after) : Shrinks scheduler after := by
  rcases andThen_eq_ok returned with ⟨advanced, advances, rest⟩
  have first : Shrinks scheduler advanced := by
    refine forScheduled_shrinks ?_ bounded advances
    intro id numTokens request
    rfl
  have cleared : Shrinks scheduler { advanced with finishedReqIds := [] } :=
    first.trans (first.bounded.shrinks_of_same rfl rfl (fun _ => rfl) rfl rfl rfl rfl)
  dsimp only at rest
  split at rest
  · refine cleared.trans (forScheduled_shrinks ?_ cleared.bounded rest)
    intro id numTokens request
    rw [expectOutput]
    split <;> rfl
  · cases rest
    exact cleared

end Scheduler

namespace Engine

variable {H : Type} [DecidableEq H] {engine after : Engine H} {maxLoras : Nat}

/-- The step admits no adapter that no running request had, or every adapter of a
request that runs after it is used in it.  So it leaves out one kind of step: a
running request is passed over, its adapter is not used in the step, and a request
with an adapter that is new is admitted. -/
def CountsLoras (engine : Engine H) : EngineOp -> Prop
  | .schedule env => ∀ pass ∈ (engine.scheduler.schedulePass env).toOption,
      engine.scheduler.adapters pass.admittedReqs ⊆
          engine.scheduler.adapters engine.scheduler.running \/
        engine.scheduler.adapters pass.scheduler.running ⊆
          engine.scheduler.adapters pass.scheduledReqs
  | _ => True

instance (engine : Engine H) : (op : EngineOp) -> Decidable (engine.CountsLoras op)
  | .schedule env => inferInstanceAs (Decidable
      (∀ pass ∈ (engine.scheduler.schedulePass env).toOption, _ \/ _))
  | .addRequest _ _ | .updateFromOutput _ _ | .finishRequests _ _ _ | .resetPrefixCache _
  | .updateDraftTokenIds _ | .updateDraftTokenIdsInOutput _ | .resetEncoderCache
  | .setPauseState _ => .isTrue trivial

/-- The running requests are within the limit, and all references are to objects
that exist. -/
structure WithinLoras (maxLoras : Nat) (engine : Engine H) : Prop where
  limit : engine.scheduler.config.maxLoras = some maxLoras
  bounded : engine.scheduler.Bounded
  fits : (engine.scheduler.adapters engine.scheduler.running).length <= maxLoras

omit [DecidableEq H] in
theorem WithinLoras.shrink (within : WithinLoras maxLoras engine)
    (shrinks : Shrinks engine.scheduler after.scheduler) : WithinLoras maxLoras after where
  limit := by rw [shrinks.config]; exact within.limit
  bounded := shrinks.bounded
  fits := (adapters_length_le (shrinks.adapters_subset within.bounded)).trans within.fits

/-- A step that counts its adapters leaves the running requests within the limit. -/
theorem WithinLoras.fits_of_counts {env : ScheduleEnv} {pass : SchedulePass H}
    (within : WithinLoras maxLoras engine) (counts : engine.CountsLoras (.schedule env))
    (chosen : engine.scheduler.schedulePass env = .ok pass) :
    (engine.scheduler.adapters pass.scheduler.running).length <= maxLoras := by
  have passes := schedulePass_withinLimit within.bounded within.limit within.fits chosen
  have isChosen : pass ∈ (engine.scheduler.schedulePass env).toOption := by
    rw [chosen]
    exact rfl
  rcases counts pass isChosen with known | used
  · refine (adapters_length_le ?_).trans within.fits
    intro lora member
    rcases mem_adapters.mp member with ⟨⟨ref, runs, isLora⟩, positive⟩
    rcases passes.running ref runs with ran | entered
    · exact mem_adapters.mpr ⟨⟨ref, ran, isLora⟩, positive⟩
    · exact known (mem_adapters.mpr ⟨⟨ref, entered, isLora⟩, positive⟩)
  · exact (adapters_length_le used).trans
      ((length_adapters_le passes.recorded).trans passes.short)

theorem WithinLoras.schedule {env : ScheduleEnv} (within : WithinLoras maxLoras engine)
    (counts : engine.CountsLoras (.schedule env))
    (stepped : engine.next (.schedule env) = .ok after) : WithinLoras maxLoras after := by
  rcases andThen_eq_ok stepped with ⟨⟨_, _⟩, scheduling, rest⟩
  cases rest
  rw [schedule_eq] at scheduling
  rcases andThen_eq_ok scheduling with ⟨pass, chosen, rest⟩
  rcases andThen_eq_ok rest with ⟨_, _, rest⟩
  rcases andThen_eq_ok rest with ⟨⟨_, _⟩, makes, rest⟩
  rcases andThen_eq_ok rest with ⟨_, updates, rest⟩
  cases rest
  rcases andThen_eq_ok makes with ⟨_, _, rest⟩
  rcases andThen_eq_ok rest with ⟨_, _, rest⟩
  cases rest
  have passes := schedulePass_withinLimit within.bounded within.limit within.fits chosen
  have fits := within.fits_of_counts counts chosen
  have sameAdapters : pass.scheduler.adapters pass.scheduler.running ⊆
      engine.scheduler.adapters pass.scheduler.running := by
    intro lora member
    rcases mem_adapters.mp member with ⟨⟨ref, runs, isLora⟩, positive⟩
    exact mem_adapters.mpr ⟨⟨ref, runs, (passes.adapter ref).symm.trans isLora⟩, positive⟩
  have chosenWithin : WithinLoras maxLoras ⟨pass.scheduler, engine.inFlight⟩ :=
    ⟨passes.limit, passes.bounded.scheduler, (adapters_length_le sameAdapters).trans fits⟩
  have made : Shrinks pass.scheduler { pass.scheduler with
      prevStepScheduledReqIds := pass.numScheduledTokens.keys
      encoderCacheManager := pass.scheduler.encoderCacheManager.getFreedMmHashes.2 } :=
    passes.bounded.scheduler.shrinks_of_same rfl rfl (fun _ => rfl) rfl rfl rfl rfl
  exact chosenWithin.shrink (made.trans (updateAfterSchedule_shrinks made.bounded updates))

def loraRequest (requestId : RequestId) (lora : Nat) : RequestArgs :=
  { smallRequest requestId [1, 2, 3] false with loraIntId := some lora }

end Engine

end Vllm.Sched
