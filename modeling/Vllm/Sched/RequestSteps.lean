import Vllm.Sched.QueueAgreement

namespace Vllm.Sched

open Foundation Relation Scheduler Function
open KVCache (RequestId)

/-!
# What happens to a request between two steps

The calls other than `schedule` change the object of a request in few ways: a
new object takes a free place, tokens are absorbed, a session goes on or waits,
a request is finished or preempted by a reset.  What is true of every object and
is kept by each of these changes is kept by every such call.
-/

variable {H : Type} {status : RequestStatus}

/-- One change of a request object.  Every function of the scheduler changes an
object by a sequence of these. -/
inductive RequestStep (config : SchedulerConfig H) : Request H -> Request H -> Prop
  | create (request : Request H) (args : RequestArgs) :
      RequestStep config request (Request.init config.blockHasher args)
  | queue (request : Request H) (updates : Option (List (Option StreamingUpdate))) :
      RequestStep config request { request with streamingQueue := updates }
  | compute (request : Request H) (numComputedTokens : Int) :
      RequestStep config request { request with numComputedTokens := numComputedTokens }
  | absorb (request : Request H) (drafts : List Token) (modelOutput : ModelRunnerOutput)
      (requestId : RequestId) :
      RequestStep config request (absorbed config modelOutput requestId
        (observedRequest drafts (modelOutput.sampledTokenIds requestId) request)).2
  | resume (request : Request H) (promptTokenIds : List Token) (update : StreamingUpdate) :
      RequestStep config request
        (continueSession config.blockHasher request promptTokenIds update)
  | await (request : Request H) :
      RequestStep config request { request with status := .waitingForStreamingReq }
  | finish (request : Request H) (status : RequestStatus) (finished : status.isFinished = true) :
      RequestStep config request { request with status := status }
  | preempt (request : Request H) (specTokenIds : SpecTokenIds) :
      RequestStep config request
        { request with
          status := .preempted
          numComputedTokens := 0
          specTokenIds := specTokenIds
          numPreemptions := request.numPreemptions + 1 }
  | discard (request : Request H) :
      RequestStep config request
        { request with numOutputPlaceholders := 0, discardLatestAsyncTokens := true }

open RequestStep

/-- Any number of such changes. -/
abbrev RequestSteps (config : SchedulerConfig H) : Request H -> Request H -> Prop :=
  Relation.ReflTransGen (RequestStep config)

namespace Scheduler

/-- All objects change in such steps. -/
structure Changes (before after : Scheduler H) : Prop where
  config : after.config = before.config
  objects : ∀ ref, RequestSteps before.config (before.objects ref) (after.objects ref)

variable {scheduler middle after : Scheduler H} {env : ConnectorEnv} {ref : Ref}

theorem Changes.of_same (config : after.config = scheduler.config)
    (objects : after.objects = scheduler.objects) : Changes scheduler after where
  config := config
  objects ref := by rw [objects]

theorem Changes.trans (first : Changes scheduler middle) (second : Changes middle after) :
    Changes scheduler after where
  config := second.config.trans first.config
  objects ref := by
    have more := second.objects ref
    rw [first.config] at more
    exact (first.objects ref).trans more

theorem Changes.update {request : Request H} (config : after.config = scheduler.config)
    (objects : after.objects = update scheduler.objects ref request)
    (steps : RequestSteps scheduler.config (scheduler.objects ref) request) :
    Changes scheduler after where
  config := config
  objects other := by
    rw [objects]
    by_cases same : other = ref
    · rw [same, update_self]
      exact steps
    · rw [update_of_ne same]

theorem freeBlocks_changes (returned : scheduler.freeBlocks ref = .ok after) :
    Changes scheduler after := by
  rcases freeBlocks_eq_ok returned with ⟨_, _, _, _, rfl⟩
  exact Changes.of_same rfl rfl

theorem freeRequest_changes {delayFreeBlocks : Bool}
    (returned : scheduler.freeRequest env ref delayFreeBlocks = .ok after) :
    Changes scheduler after := by
  rcases freeRequest_eq_ok returned with ⟨_, _, manager, _, ⟨_, rfl⟩ | ⟨_, freed⟩⟩
  · exact Changes.of_same rfl rfl
  exact (Changes.of_same rfl rfl : Changes scheduler (scheduler.releasedRequest manager ref)).trans
    (freeBlocks_changes freed)

theorem finishEach_changes {refs : List Ref} (finished : status.isFinished = true)
    (returned : finishEach env status refs scheduler = .ok after) : Changes scheduler after := by
  induction refs generalizing scheduler with
  | nil =>
    cases returned
    exact Changes.of_same rfl rfl
  | cons ref refs ih =>
    rcases andThen_eq_ok returned with ⟨middle, first, rest⟩
    refine Changes.trans ?_ (ih rest)
    have begun : ∃ (begun : Scheduler H) (delayFreeBlocks : Bool),
        (begun.modify ref (fun request => { request with status := status })).freeRequest env ref
          delayFreeBlocks = .ok middle /\ begun.config = scheduler.config /\
        begun.objects = scheduler.objects := by
      rw [finishRequest] at first
      split at first <;> exact ⟨_, _, first, rfl, rfl⟩
    rcases begun with ⟨_, _, freed, sameConfig, sameObjects⟩
    refine Changes.trans ?_ (freeRequest_changes freed)
    refine Changes.update sameConfig ?_ (ReflTransGen.single
      (finish (scheduler.objects ref) status finished))
    rw [<- sameObjects]
    rfl

theorem finishRequests_changes {requestIds : Option (List RequestId)}
    (returned : scheduler.finishRequests env requestIds status = .ok after) :
    Changes scheduler after := by
  rcases andThen_eq_ok returned with ⟨_, finished, rest⟩
  have dequeued : ∀ refs, Changes scheduler (scheduler.dequeueRequests refs) := by
    intro refs
    rw [dequeueRequests]
    split <;> exact Changes.of_same rfl rfl
  exact (dequeued _).trans (finishEach_changes (require_eq_ok finished) rest)

theorem enqueueWaitingRequest_changes (scheduler : Scheduler H) (ref : Ref) :
    Changes scheduler (scheduler.enqueueWaitingRequest ref) := by
  rw [enqueueWaitingRequest]
  split <;> exact Changes.of_same rfl rfl

theorem updateRequestAsSession_changes {update : StreamingUpdate}
    (returned : scheduler.updateRequestAsSession ref update = .ok after) :
    Changes scheduler after := by
  rcases updateRequestAsSession_eq_ok returned with ⟨promptTokenIds, _, rfl⟩
  exact Changes.update rfl rfl (ReflTransGen.single
    (resume (scheduler.objects ref) promptTokenIds update))

theorem addRequest_changes {args : RequestArgs}
    (returned : scheduler.addRequest env (Request.init scheduler.config.blockHasher args) =
      .ok after) : Changes scheduler after := by
  rw [addRequest] at returned
  split at returned
  · dsimp only at returned
    split at returned
    · split at returned
      · cases returned
      cases returned
      exact Changes.update rfl rfl (ReflTransGen.single (RequestStep.queue _ _))
    split at returned
    · exact updateRequestAsSession_changes returned
    · exact finishRequests_changes returned
  cases returned
  have created : RequestSteps scheduler.config (scheduler.objects scheduler.numObjects)
      (if (Request.init scheduler.config.blockHasher args).resumable then
        { Request.init scheduler.config.blockHasher args with streamingQueue := some [] }
      else Request.init scheduler.config.blockHasher args) := by
    have first : RequestStep scheduler.config _ _ :=
      create (scheduler.objects scheduler.numObjects) args
    split
    · exact (ReflTransGen.single first).tail (RequestStep.queue _ (some []))
    · exact ReflTransGen.single first
  refine Changes.trans (Changes.trans ?_ (enqueueWaitingRequest_changes
    { scheduler with
      objects := update scheduler.objects scheduler.numObjects _
      numObjects := scheduler.numObjects + 1 } scheduler.numObjects)) (Changes.of_same rfl rfl)
  exact Changes.update rfl rfl created

theorem handleStoppedRequest_changes {finished : Bool}
    (returned : scheduler.handleStoppedRequest ref = .ok (finished, after)) :
    Changes scheduler after := by
  rw [handleStoppedRequest] at returned
  split at returned
  · cases returned
    exact Changes.of_same rfl rfl
  split at returned
  · cases returned
    exact Changes.update rfl rfl (ReflTransGen.single (RequestStep.queue _ _))
  · rcases andThen_eq_ok returned with ⟨_, continuing, kept⟩
    cases kept
    refine Changes.trans ?_ (enqueueWaitingRequest_changes _ _)
    refine Changes.trans ?_ (updateRequestAsSession_changes continuing)
    exact Changes.update rfl rfl (ReflTransGen.single (RequestStep.queue _ _))
  cases returned
  refine Changes.trans ?_ (enqueueWaitingRequest_changes _ _)
  exact Changes.update rfl rfl (ReflTransGen.single (await _))

variable {modelOutput : ModelRunnerOutput} {output : SchedulerOutput}

namespace UpdatePass

variable [DecidableEq H]

theorem processRequest_changes {requestId : RequestId} {pass after : UpdatePass H}
    (returned : processRequest env output modelOutput requestId ref pass = .ok after) :
    Changes pass.scheduler after.scheduler := by
  rcases processRequest_eq_ok returned with ⟨_, middle, isMiddle, _, outcome⟩
  have absorbed : Changes pass.scheduler middle.scheduler := by
    rw [isMiddle]
    exact Changes.update rfl rfl (ReflTransGen.single (absorb _ _ _ _))
  rcases outcome with ⟨_, same, _⟩ | ⟨_, stopped, stopping, same, _⟩
  · rw [same]
    exact absorbed
  refine absorbed.trans ?_
  rw [same]
  rcases andThen_eq_ok stopping with ⟨⟨_, _⟩, handling, rest⟩
  rcases andThen_eq_ok rest with ⟨freed, freeing, rest⟩
  have isFreed : stopped.scheduler = freed := by
    split at rest <;> (cases rest; rfl)
  rw [isFreed]
  refine (handleStoppedRequest_changes handling).trans ?_
  split at freeing
  · exact freeRequest_changes freeing
  cases freeing
  exact Changes.of_same rfl rfl

omit [DecidableEq H] in
theorem removeStopped_changes (pass : UpdatePass H) :
    Changes pass.scheduler (pass.removeStopped pass.observeStep) := by
  have observed : pass.observeStep.config = pass.scheduler.config /\
      pass.observeStep.objects = pass.scheduler.objects := by
    rw [observeStep]
    split <;> exact ⟨rfl, rfl⟩
  rw [removeStopped]
  split <;> exact Changes.of_same observed.1 observed.2

end UpdatePass

theorem updateFromOutput_changes [DecidableEq H] {outputs : List EngineCoreOutput}
    (returned : scheduler.updateFromOutput env output modelOutput = .ok (outputs, after)) :
    Changes scheduler after := by
  rcases updateFromOutput_eq_ok returned with
    ⟨_, _, pass, cleaned, ⟨objects, manager, loads, same, rfl⟩, processing, cleaning,
      transferring⟩
  have begins : Changes scheduler { scheduler with
      objects := objects, kvCacheManager := manager, failedRecvingKvReqIds := loads } := by
    refine ⟨rfl, ?_⟩
    intro ref
    rcases same ref with ⟨numComputedTokens, isSame⟩
    dsimp only
    rw [isSame]
    exact ReflTransGen.single (compute _ numComputedTokens)
  have processed : Changes scheduler pass.scheduler := by
    refine UpdatePass.processAll_rule (fun _ pass => Changes scheduler pass.scheduler) ?_ ?_
      processing begins
    · exact fun _ _ _ _ changes => changes
    intro _ _ _ pass after ref changes _ _ _ processed
    exact changes.trans (UpdatePass.processRequest_changes processed)
  have cleans : Changes scheduler cleaned := by
    have removed := processed.trans pass.removeStopped_changes
    rcases cleaning with rfl | finishing
    · exact removed
    · exact removed.trans (finishRequests_changes finishing)
  rcases transferring with rfl | ⟨_, _, transfer⟩
  · exact cleans
  refine updateFromKvXferFinished_rule (Changes scheduler) ?_ ?_ transfer cleans
  · exact fun _ _ changes => changes.trans (Changes.of_same rfl rfl)
  · exact fun _ _ _ _ _ freeing changes => changes.trans (freeBlocks_changes freeing)

theorem preemptAll_changes {fuel : Nat} (returned : preemptAll fuel scheduler = .ok after) :
    Changes scheduler after := by
  induction fuel generalizing scheduler with
  | zero =>
    cases returned
    exact Changes.of_same rfl rfl
  | succ fuel ih =>
    rw [preemptAll] at returned
    split at returned
    · cases returned
      exact Changes.of_same rfl rfl
    rcases andThen_eq_ok returned with ⟨preempted, preemption, rest⟩
    rcases preemptRequest_eq_ok preemption with ⟨_, _, _, isPreempted⟩
    have preempts : Changes scheduler preempted := by
      rw [isPreempted]
      exact Changes.update rfl rfl (ReflTransGen.single (preempt _ _))
    refine Changes.trans (preempts.trans ?_) (ih rest)
    exact Changes.update rfl rfl (ReflTransGen.single (RequestStep.discard _))

theorem resetPrefixCache_changes {resetRunningRequests result : Bool}
    (returned : scheduler.resetPrefixCache resetRunningRequests = .ok (result, after)) :
    Changes scheduler after := by
  rcases andThen_eq_ok returned with ⟨preempted, preemption, rest⟩
  have preempts : Changes scheduler preempted := by
    split at preemption
    · rcases andThen_eq_ok preemption with ⟨_, allPreempted, kept⟩
      cases kept
      exact (preemptAll_changes allPreempted).trans (Changes.of_same rfl rfl)
    cases preemption
    exact Changes.of_same rfl rfl
  dsimp only at rest
  split at rest
  · cases rest
  cases rest
  exact preempts.trans (Changes.of_same rfl rfl)

end Scheduler

namespace Engine

variable [DecidableEq H]

/-- The calls that neither schedule a step nor set drafts. -/
def IsPlainCall : EngineOp -> Prop
  | .schedule _ | .updateDraftTokenIds _ => False
  | _ => True

theorem next_changes {engine after : Engine H} {op : EngineOp} (isPlain : IsPlainCall op)
    (stepped : engine.next op = .ok after) : Scheduler.Changes engine.scheduler after.scheduler := by
  cases op with
  | addRequest env args =>
    rcases andThen_eq_ok stepped with ⟨_, adding, rest⟩
    cases rest
    exact addRequest_changes adding
  | schedule env => exact isPlain.elim
  | updateFromOutput env modelOutput =>
    rw [next] at stepped
    split at stepped
    · cases stepped
    rcases andThen_eq_ok stepped with ⟨_, updating, kept⟩
    cases kept
    exact updateFromOutput_changes updating
  | finishRequests env requestIds finishedStatus =>
    rcases andThen_eq_ok stepped with ⟨_, finishing, rest⟩
    cases rest
    exact finishRequests_changes finishing
  | resetPrefixCache resetRunningRequests =>
    rcases andThen_eq_ok stepped with ⟨_, resetting, rest⟩
    cases rest
    exact resetPrefixCache_changes resetting
  | updateDraftTokenIds drafts => exact isPlain.elim
  | updateDraftTokenIdsInOutput drafts | resetEncoderCache | setPauseState pauseState =>
    cases stepped
    exact Scheduler.Changes.of_same rfl rfl

end Engine

end Vllm.Sched
