import Mathlib.Data.Fintype.Defs
import Vllm.Sched.Lifecycle
import Vllm.Sched.UpdateSteps

namespace Vllm.Sched

open Foundation Function Scheduler Census List
open KVCache (RequestId BlockId CoordinatorConfig KVCacheGroupSpec)

/-!
# Every live request is in exactly one queue

While the output of a step is processed, stopped requests stay in their queues
until the end, where those that ran are taken out of the running queue and the
others out of the waiting queue.  The census of this phase does not count what
will be taken out.

A request that does not run any more when its output stops it is only ever
taken out of the waiting queue, wherever it was and wherever the stop put it.
So the places stay sound as long as such a stop finds the request where the
clean-up expects it.
-/

namespace Scheduler

variable {H : Type} {scheduler after : Scheduler H}

/-- The next input of a stopped request, if its session goes on with one. -/
def nextInput (request : Request H) : Option StreamingUpdate :=
  if request.resumable then
    match request.streamingQueue.getD [] with
    | some update :: _ => some update
    | _ => none
  else
    none

/-- The next input after an output was absorbed does not depend on counters. -/
theorem nextInput_absorbed_counters (config : SchedulerConfig H) (modelOutput : ModelRunnerOutput)
    (requestId : RequestId) (request : Request H) {numComputedTokens numOutputPlaceholders : Int} :
    nextInput (absorbed config modelOutput requestId { request with
      numComputedTokens := numComputedTokens
      numOutputPlaceholders := numOutputPlaceholders }).2 =
      nextInput (absorbed config modelOutput requestId request).2 := by
  rw [nextInput, nextInput, absorbed_resumable, absorbed_resumable, absorbed_counters,
    (absorbed_spec config modelOutput requestId _).streamingQueue,
    (absorbed_spec config modelOutput requestId request).streamingQueue]

/-- Whether the output of a step stops a request. -/
def stopsWith (scheduler : Scheduler H) (modelOutput : ModelRunnerOutput) (requestId : RequestId)
    (ref : Ref) : Bool :=
  (absorbed scheduler.config modelOutput requestId (scheduler.objects ref)).1.2

/-- The input with which the session of a request goes on when the output of a
step stops it. -/
def continuesWith (scheduler : Scheduler H) (modelOutput : ModelRunnerOutput)
    (requestId : RequestId) (ref : Ref) : Option StreamingUpdate :=
  nextInput (absorbed scheduler.config modelOutput requestId (scheduler.objects ref)).2

/-- Every request that the output stops while it does not run is in the skipped
queue if its session goes on with a queued input, and in the waiting queue
otherwise.  It is not one that waits for its next input already. -/
def LateStopsFit (scheduler : Scheduler H) (output : SchedulerOutput)
    (modelOutput : ModelRunnerOutput) : Prop :=
  ∀ requestId ∈ output.numScheduledTokens.keys, ∀ ref ∈ scheduler.requests.get? requestId,
    (scheduler.objects ref).isFinished = false ->
    (scheduler.objects ref).status ≠ .running ->
    scheduler.stopsWith modelOutput requestId ref = true ->
    (scheduler.objects ref).status ≠ .waitingForStreamingReq /\
      if (scheduler.continuesWith modelOutput requestId ref).isSome then ref ∉ scheduler.waiting
      else ref ∉ scheduler.skippedWaiting

instance (scheduler : Scheduler H) (output : SchedulerOutput) (modelOutput : ModelRunnerOutput) :
    Decidable (scheduler.LateStopsFit output modelOutput) := by
  unfold LateStopsFit
  infer_instance

end Scheduler

namespace Scheduler

variable {H : Type} {scheduler after : Scheduler H} {request : Request H}

/-- The places of requests without those that will be taken out of the running
and the waiting queue. -/
def censusWithout (scheduler : Scheduler H) (stoppedRunning stoppedPreempted : List Ref) : Census :=
  { scheduler.census [] with
    inRunning := fun ref => if ref ∈ stoppedRunning then 0 else scheduler.running.count ref
    inWaiting := fun ref =>
      (if ref ∈ stoppedPreempted then 0 else scheduler.waiting.count ref) +
        scheduler.skippedWaiting.count ref }

theorem censusWithout_nil (scheduler : Scheduler H) :
    scheduler.censusWithout [] [] = scheduler.census [] := by
  simp only [censusWithout, census, not_mem_nil, if_false, count_nil, Nat.add_zero]

namespace UpdatePass

/-- The places of requests while an output is processed. -/
def census (pass : UpdatePass H) : Census :=
  pass.scheduler.censusWithout pass.stoppedRunningReqs pass.stoppedPreemptedReqs

end UpdatePass

/-- What a stop does to the scheduler: the request is finished, or it goes back
to a waiting queue with its next input or to wait for it. -/
theorem handleStoppedRequest_eq_ok {ref : Ref} {finished : Bool}
    (isFinished : (scheduler.objects ref).status.isFinished = true)
    (returned : scheduler.handleStoppedRequest ref = .ok (finished, after)) :
    ∃ request, request.requestId = (scheduler.objects ref).requestId /\
      (finished = true /\ nextInput (scheduler.objects ref) = none /\
          request.status = (scheduler.objects ref).status /\
          after = { scheduler with objects := update scheduler.objects ref request } \/
        finished = false /\ (∃ update, nextInput (scheduler.objects ref) = some update) /\
          request.status = .waiting /\
          after =
            { scheduler with objects := update scheduler.objects ref request
            }.enqueueWaitingRequest ref \/
        finished = false /\ nextInput (scheduler.objects ref) = none /\
          request.status = .waitingForStreamingReq /\
          after =
            { scheduler with
              objects := update scheduler.objects ref request
              numWaitingForStreamingInput := scheduler.numWaitingForStreamingInput + 1
            }.enqueueWaitingRequest ref) := by
  rw [handleStoppedRequest] at returned
  split at returned
  case isTrue past =>
    cases returned
    refine ⟨scheduler.objects ref, rfl, Or.inl ⟨rfl, ?_, rfl, ?_⟩⟩
    · rw [nextInput, past, if_neg Bool.false_ne_true]
    · rw [update_eq_self]
  case isFalse notOver =>
    have resumes : (scheduler.objects ref).resumable = true := by simpa using notOver
    split at returned
    case h_1 rest queued =>
      cases returned
      refine ⟨{ scheduler.objects ref with streamingQueue := some rest }, rfl,
        Or.inl ⟨rfl, ?_, rfl, rfl⟩⟩
      rw [nextInput, resumes, queued]
      rfl
    case h_2 update rest queued =>
      obtain ⟨_, continuing, kept⟩ := andThen_eq_ok returned
      cases kept
      obtain ⟨promptTokenIds, _, rfl⟩ := updateRequestAsSession_eq_ok continuing
      refine ⟨continueSession scheduler.config.blockHasher
        { scheduler.objects ref with streamingQueue := some rest } promptTokenIds update, rfl,
        Or.inr (Or.inl ⟨rfl, ⟨update, ?_⟩, rfl, ?_⟩)⟩
      · rw [nextInput, resumes, queued]
        rfl
      have noStreaming : streams (scheduler.objects ref).status = 0 := by
        apply streams_of_ne
        intro isStreaming
        rw [isStreaming] at isFinished
        cases isFinished
      simp only [modify, update_self, update_idem, noStreaming, Nat.cast_zero, Int.sub_zero]
    case h_3 queued =>
      cases returned
      refine ⟨{ scheduler.objects ref with status := .waitingForStreamingReq }, rfl,
        Or.inr (Or.inr ⟨rfl, ?_, rfl, rfl⟩)⟩
      rw [nextInput, resumes, queued]
      rfl

/-- A scheduler that differs from another by one object and by where that
object is queued. -/
structure Requeues (scheduler after : Scheduler H) (ref : Ref) (request : Request H)
    (gained gainedSkipped : Nat) : Prop where
  objects : after.objects = Function.update scheduler.objects ref request
  sameId : request.requestId = (scheduler.objects ref).requestId
  requests : after.requests = scheduler.requests
  numObjects : after.numObjects = scheduler.numObjects
  running : after.running = scheduler.running
  waiting : after.waiting.count ref = scheduler.waiting.count ref + gained
  skippedWaiting : after.skippedWaiting.count ref = scheduler.skippedWaiting.count ref + gainedSkipped
  others : ∀ other, other ≠ ref -> after.waiting.count other = scheduler.waiting.count other /\
    after.skippedWaiting.count other = scheduler.skippedWaiting.count other

/-- A request that becomes waiting is put into the waiting queue, or into the
skipped one if it is blocked. -/
theorem enqueueWaitingRequest_requeues {ref : Ref} {numStreaming : Int}
    (sameId : request.requestId = (scheduler.objects ref).requestId) {blocked : Bool}
    (isBlocked : isBlockedWaitingStatus request.status = blocked) :
    ∃ queued, ({ scheduler with
        objects := Function.update scheduler.objects ref request
        numWaitingForStreamingInput := numStreaming } : Scheduler H).enqueueWaitingRequest ref =
          queued /\
      queued.config = scheduler.config /\ queued.numWaitingForStreamingInput = numStreaming /\
      Requeues scheduler queued ref request (if blocked then 0 else 1)
        (if blocked then 1 else 0) := by
  refine ⟨_, rfl, ?_⟩
  have perm : ∀ policy (objects : Objects H) (queue : List Ref),
      (RequestQueue.addRequest policy objects queue ref).count ref = queue.count ref + 1 /\
        ∀ other, other ≠ ref ->
          (RequestQueue.addRequest policy objects queue ref).count other = queue.count other := by
    intro policy objects queue
    have perm := RequestQueue.addRequest_perm policy objects queue ref
    exact ⟨(perm.count_eq ref).trans count_cons_self, fun other different =>
      (perm.count_eq other).trans (count_cons_of_ne (Ne.symm different))⟩
  rw [<- Function.update_self ref request scheduler.objects] at isBlocked
  rw [enqueueWaitingRequest]
  cases blocked with
  | true =>
    rw [if_pos isBlocked]
    exact ⟨rfl, rfl, rfl, sameId, rfl, rfl, rfl, rfl, (perm _ _ _).1,
      fun other different => ⟨rfl, (perm _ _ _).2 other different⟩⟩
  | false =>
    rw [if_neg (Bool.eq_false_iff.mp isBlocked)]
    exact ⟨rfl, rfl, rfl, sameId, rfl, rfl, rfl, (perm _ _ _).1, rfl,
      fun other different => ⟨(perm _ _ _).2 other different, rfl⟩⟩

theorem handleStoppedRequest_requeues {ref : Ref} {finished : Bool}
    (isFinished : (scheduler.objects ref).status.isFinished = true)
    (returned : scheduler.handleStoppedRequest ref = .ok (finished, after)) :
    ∃ request gained gainedSkipped, Requeues scheduler after ref request gained gainedSkipped /\
      after.config = scheduler.config /\
      after.numWaitingForStreamingInput = scheduler.numWaitingForStreamingInput +
        streams request.status /\
      (finished = true /\ nextInput (scheduler.objects ref) = none /\
          request.status.isFinished = true /\ gained = 0 /\ gainedSkipped = 0 \/
        finished = false /\ (nextInput (scheduler.objects ref)).isSome = true /\
          request.status = .waiting /\ gained = 1 /\ gainedSkipped = 0 \/
        finished = false /\ nextInput (scheduler.objects ref) = none /\
          request.status = .waitingForStreamingReq /\ gained = 0 /\ gainedSkipped = 1) := by
  obtain ⟨request, sameId, outcome⟩ := handleStoppedRequest_eq_ok isFinished returned
  rcases outcome with ⟨isOver, noInput, sameStatus, rfl⟩ | ⟨goesOn, ⟨_, hasInput⟩, isWaiting, same⟩ |
    ⟨goesOn, noInput, isStreaming, same⟩
  · refine ⟨request, 0, 0, ⟨rfl, sameId, rfl, rfl, rfl, rfl, rfl, fun _ _ => ⟨rfl, rfl⟩⟩, rfl, ?_,
      Or.inl ⟨isOver, noInput, by rw [sameStatus]; exact isFinished, rfl, rfl⟩⟩
    have noStreaming : streams request.status = 0 := by
      apply streams_of_ne
      intro isStreaming
      rw [<- sameStatus, isStreaming] at isFinished
      cases isFinished
    rw [noStreaming]
    exact (Int.add_zero _).symm
  · obtain ⟨_, isQueued, sameConfig, counter, requeues⟩ :=
      enqueueWaitingRequest_requeues sameId
        (show isBlockedWaitingStatus request.status = false by rw [isWaiting]; rfl)
    cases same.trans isQueued
    refine ⟨request, 1, 0, requeues, sameConfig, ?_,
      Or.inr (Or.inl ⟨goesOn, by rw [hasInput]; rfl, isWaiting, rfl, rfl⟩)⟩
    rw [counter, isWaiting]
    exact (Int.add_zero _).symm
  obtain ⟨_, isQueued, sameConfig, counter, requeues⟩ :=
    enqueueWaitingRequest_requeues sameId
      (show isBlockedWaitingStatus request.status = true by rw [isStreaming]; rfl)
  cases same.trans isQueued
  refine ⟨request, 0, 1, requeues, sameConfig, ?_,
    Or.inr (Or.inr ⟨goesOn, noInput, isStreaming, rfl, rfl⟩)⟩
  rw [counter, isStreaming]
  rfl

/-- How a stop ends: the request is freed, or it waits with its next input or
for it. -/
def Ends (env : ConnectorEnv) (ref : Ref) (input : Option StreamingUpdate) (status : RequestStatus)
    (gained gainedSkipped : Nat) (handled after : Scheduler H) : Prop :=
  input = none /\ status.isFinished = true /\ gained = 0 /\ gainedSkipped = 0 /\
      handled.freeRequest env ref false = .ok after \/
    input.isSome = true /\ status = .waiting /\ gained = 1 /\ gainedSkipped = 0 /\ after = handled \/
    input = none /\ status = .waitingForStreamingReq /\ gained = 0 /\ gainedSkipped = 1 /\
      after = handled

def stoppedLists (status : RequestStatus) (ref : Ref) (stoppedRunning stoppedPreempted : List Ref) :
    List Ref × List Ref :=
  if status = .running then (stoppedRunning ++ [ref], stoppedPreempted)
  else (stoppedRunning, stoppedPreempted ++ [ref])

/-- A request that stops and is where the clean-up expects it has one place
afterwards, or none if it is finished. -/
theorem Requeues.sound {env : ConnectorEnv} {ref : Ref} {input : Option StreamingUpdate}
    {gained gainedSkipped : Nat} {ended : Scheduler H} {stoppedRunning stoppedPreempted : List Ref}
    {stopped : List Ref × List Ref}
    (requeues : Requeues scheduler after ref request gained gainedSkipped)
    (sound : (scheduler.censusWithout stoppedRunning stoppedPreempted).Sound)
    (registered : (scheduler.census []).Registered ref)
    (unfinished : (scheduler.objects ref).status.isFinished = false)
    (notStopped : ref ∉ stoppedRunning /\ ref ∉ stoppedPreempted)
    (counter : after.numWaitingForStreamingInput = scheduler.numWaitingForStreamingInput +
      streams request.status)
    (fits : (scheduler.objects ref).status ≠ .running ->
      (scheduler.objects ref).status ≠ .waitingForStreamingReq /\
        if input.isSome then ref ∉ scheduler.waiting else ref ∉ scheduler.skippedWaiting)
    (ends : Ends env ref input request.status gained gainedSkipped after ended)
    (lists : stopped =
      stoppedLists (scheduler.objects ref).status ref stoppedRunning stoppedPreempted) :
    (after.censusWithout stopped.1 stopped.2).Sound := by
  have placed := sound.placed ref
  simp only [censusWithout, census, if_neg notStopped.1, if_neg notStopped.2] at placed
  have notStreaming : (scheduler.objects ref).status ≠ .waitingForStreamingReq := by
    by_cases isRunning : (scheduler.objects ref).status = .running
    · rw [isRunning]
      intro given
      cases given
    · exact (fits isRunning).1
  have counts : ∀ inWaiting,
      ((scheduler.objects ref).status = .running -> inWaiting = gained + gainedSkipped) ->
      ((scheduler.objects ref).status ≠ .running ->
        inWaiting = scheduler.skippedWaiting.count ref + gainedSkipped) ->
      after.censusWithout stopped.1 stopped.2 =
        (scheduler.censusWithout stoppedRunning stoppedPreempted).place ref request.status 0
          inWaiting := by
    intro inWaiting ifRunning ifNot
    apply eq_place
    · funext other
      simp only [censusWithout, census, requeues.objects]
      by_cases same : other = ref
      · rw [same, update_self, requeues.sameId]
      · rw [update_of_ne same]
    · exact requeues.requests
    · exact requeues.numObjects
    · funext other
      simp only [censusWithout, census, requeues.objects]
      exact apply_update (fun _ => Request.status) _ _ _ other
    · have noStreaming := streams_of_ne notStreaming
      simp only [censusWithout, census, counter, noStreaming]
      omega
    · by_cases isRunning : (scheduler.objects ref).status = .running
      · rw [lists, stoppedLists, if_pos isRunning]
        exact if_pos (mem_append_right _ (mem_singleton_self ref))
      rw [lists, stoppedLists, if_neg isRunning]
      simp only [censusWithout, requeues.running, if_neg notStopped.1]
      exact (placed.of_waiting registered unfinished isRunning).1
    · by_cases isRunning : (scheduler.objects ref).status = .running
      · rw [lists, stoppedLists, if_pos isRunning, ifRunning isRunning]
        have nowhere := (placed.of_running registered isRunning).2
        simp only [censusWithout, if_neg notStopped.2, requeues.waiting, requeues.skippedWaiting]
        omega
      rw [lists, stoppedLists, if_neg isRunning, ifNot isRunning]
      simp only [censusWithout, mem_append, mem_singleton, or_true, if_true,
        requeues.skippedWaiting]
      omega
    intro other different
    obtain ⟨sameWaiting, sameSkipped⟩ := requeues.others other different
    have notLast : other ∉ [ref] := fun member => different (mem_singleton.mp member)
    by_cases isRunning : (scheduler.objects ref).status = .running
    · rw [lists, stoppedLists, if_pos isRunning]
      simp only [censusWithout, requeues.running, sameWaiting, sameSkipped, mem_append,
        notLast, or_false, and_self]
    rw [lists, stoppedLists, if_neg isRunning]
    simp only [censusWithout, requeues.running, sameWaiting, sameSkipped, mem_append,
      notLast, or_false, and_self]
  have registered : (scheduler.censusWithout stoppedRunning stoppedPreempted).Registered ref :=
    registered
  rcases ends with ⟨rfl, isOver, rfl, rfl, -⟩ | ⟨hasInput, isWaiting, rfl, rfl, -⟩ |
    ⟨rfl, isStreaming, rfl, rfl, -⟩
  · have absent := fun notRunning => count_eq_zero.mpr (fits notRunning).2
    rw [counts 0 (fun _ => rfl) (fun notRunning => (absent notRunning).symm)]
    exact sound.place registered (PlacedAt.nowhere isOver)
  · rw [counts 1 (fun _ => rfl) ?_, isWaiting]
    · exact sound.place registered (PlacedAt.inWaitingQueue rfl (by decide))
    intro notRunning
    have once := (placed.of_waiting registered unfinished notRunning).2
    have absent := (fits notRunning).2
    rw [if_pos hasInput, <- count_eq_zero] at absent
    omega
  have absent := fun notRunning => count_eq_zero.mpr (fits notRunning).2
  rw [counts 1 (fun _ => rfl) (fun notRunning => by rw [absent notRunning]), isStreaming]
  exact sound.place registered (PlacedAt.inWaitingQueue rfl (by decide))

namespace UpdatePass

variable {pass after : UpdatePass H} {env : ConnectorEnv} {output : SchedulerOutput}
  {modelOutput : ModelRunnerOutput} {requestId : RequestId} {ref : Ref}

/-- The step is about one request: nothing else changes. -/
structure TouchesOnly (before after : UpdatePass H) (ref : Ref) : Prop where
  config : after.scheduler.config = before.scheduler.config
  running : after.scheduler.running = before.scheduler.running
  objects : ∀ other, other ≠ ref ->
    after.scheduler.objects other = before.scheduler.objects other
  requests : ∀ id, id ≠ (before.scheduler.objects ref).requestId ->
    after.scheduler.requests.get? id = before.scheduler.requests.get? id
  waiting : ∀ other, other ≠ ref ->
    after.scheduler.waiting.count other = before.scheduler.waiting.count other /\
    after.scheduler.skippedWaiting.count other = before.scheduler.skippedWaiting.count other
  stopped : ∀ other, other ≠ ref ->
    (other ∈ after.stoppedRunningReqs -> other ∈ before.stoppedRunningReqs) /\
    (other ∈ after.stoppedPreemptedReqs -> other ∈ before.stoppedPreemptedReqs)

/-- A request that stopped: how it was requeued, and whether it was freed. -/
def StopsAs (env : ConnectorEnv) (ref : Ref) (input : Option StreamingUpdate)
    (status : RequestStatus) (pass after : UpdatePass H) : Prop :=
  ∃ handled request gained gainedSkipped,
    Requeues pass.scheduler handled ref request gained gainedSkipped /\
    handled.config = pass.scheduler.config /\
    handled.numWaitingForStreamingInput = pass.scheduler.numWaitingForStreamingInput +
      streams request.status /\
    Ends env ref input request.status gained gainedSkipped handled after.scheduler /\
    after.stoppedReqs =
      stoppedLists status ref pass.stoppedRunningReqs pass.stoppedPreemptedReqs

theorem stopRequest_eq_ok {status : RequestStatus}
    (isFinished : (pass.scheduler.objects ref).status.isFinished = true)
    (returned : stopRequest env ref status pass = .ok after) :
    StopsAs env ref (nextInput (pass.scheduler.objects ref)) status pass after := by
  obtain ⟨⟨_, handled⟩, handling, rest⟩ := andThen_eq_ok returned
  obtain ⟨scheduler, freeing, rest⟩ := andThen_eq_ok rest
  obtain ⟨request, gained, gainedSkipped, requeues, sameConfig, counter, outcome⟩ :=
    handleStoppedRequest_requeues isFinished handling
  have isAfter : after.scheduler = scheduler /\ after.stoppedReqs =
      stoppedLists status ref pass.stoppedRunningReqs pass.stoppedPreemptedReqs := by
    rw [stoppedLists]
    split at rest
    case isTrue isRunning =>
      cases rest
      rw [if_pos isRunning]
      exact ⟨rfl, rfl⟩
    case isFalse notRunning =>
      cases rest
      rw [if_neg notRunning]
      exact ⟨rfl, rfl⟩
  obtain ⟨sameScheduler, lists⟩ := isAfter
  refine ⟨handled, request, gained, gainedSkipped, requeues, sameConfig, counter, ?_, lists⟩
  rw [sameScheduler]
  rcases outcome with ⟨isOver, noInput, past, noneGained, noneSkipped⟩ |
    ⟨goesOn, hasInput, isWaiting, oneGained, noneSkipped⟩ |
    ⟨goesOn, noInput, isStreaming, noneGained, oneSkipped⟩
  · rw [isOver, if_pos rfl] at freeing
    exact Or.inl ⟨noInput, past, noneGained, noneSkipped, freeing⟩
  · rw [goesOn, if_neg Bool.false_ne_true] at freeing
    cases freeing
    exact Or.inr (Or.inl ⟨hasInput, isWaiting, oneGained, noneSkipped, rfl⟩)
  rw [goesOn, if_neg Bool.false_ne_true] at freeing
  cases freeing
  exact Or.inr (Or.inr ⟨noInput, isStreaming, noneGained, oneSkipped, rfl⟩)

/-- The object of a request whose output was absorbed, with what it keeps. -/
theorem absorbs_spec (output : SchedulerOutput) (modelOutput : ModelRunnerOutput)
    (requestId : RequestId) (ref : Ref) (pass : UpdatePass H) :
    Absorbs (pass.scheduler.objects ref) (absorbs output modelOutput requestId ref pass).2
      (absorbs output modelOutput requestId ref pass).1.2 := by
  obtain ⟨_, _, same⟩ := observedRequest_eq
  have spec := absorbed_spec pass.scheduler.config modelOutput requestId
    (observedRequest (pass.scheduler.scheduledDrafts output requestId)
      (modelOutput.sampledTokenIds requestId) (pass.scheduler.objects ref))
  rw [absorbs]
  rw [same] at spec ⊢
  exact ⟨spec.requestId, spec.streamingQueue, spec.promptTokenIds, spec.status, spec.finished,
    spec.resumable, spec.isPrefillChunk, spec.specTokenIds, spec.loraIntId⟩

/-- A scheduler that keeps all but one registration. -/
structure Unregisters (requestId : RequestId) (scheduler freed : Scheduler H) : Prop where
  config : freed.config = scheduler.config
  running : freed.running = scheduler.running
  objects : freed.objects = scheduler.objects
  waiting : freed.waiting = scheduler.waiting
  skippedWaiting : freed.skippedWaiting = scheduler.skippedWaiting
  requests : ∀ id, id ≠ requestId -> freed.requests.get? id = scheduler.requests.get? id

theorem freeRequest_touches {freed : Scheduler H}
    (returned : scheduler.freeRequest env ref false = .ok freed) :
    Unregisters (scheduler.objects ref).requestId scheduler freed := by
  obtain ⟨_, _, manager, _, ⟨_, rfl⟩ | ⟨_, freedBlocks⟩⟩ := freeRequest_eq_ok returned
  · exact ⟨rfl, rfl, rfl, rfl, rfl, fun _ _ => rfl⟩
  obtain ⟨_, _, _, _, rfl⟩ := freeBlocks_eq_ok freedBlocks
  exact ⟨rfl, rfl, rfl, rfl, rfl, fun id different => Dict.get?_erase_of_ne _ different⟩

variable [DecidableEq H]

section

variable (returned : processRequest env output modelOutput requestId ref pass = .ok after)
include returned

/-- Processing one request leaves the queues as they are, or requeues it. -/
theorem processRequest_requeues :
    (absorbs output modelOutput requestId ref pass).1.2 = false /\
        (∃ manager, after.scheduler = absorbing output modelOutput requestId ref manager pass) /\
        after.stoppedReqs = pass.stoppedReqs \/
      (absorbs output modelOutput requestId ref pass).1.2 = true /\
        StopsAs env ref (nextInput (absorbs output modelOutput requestId ref pass).2)
          (pass.scheduler.objects ref).status pass after := by
  obtain ⟨manager, ⟨_, _, _⟩, rfl, sameStopped, outcome⟩ := processRequest_eq_ok returned
  obtain ⟨rfl, rfl⟩ := Prod.mk.inj sameStopped
  have spec := absorbs_spec output modelOutput requestId ref pass
  rcases outcome with ⟨goesOn, isAfter, isStopped⟩ | ⟨stops, _, stopping, isAfter, isStopped⟩
  · exact Or.inl ⟨goesOn, ⟨manager, isAfter⟩, isStopped⟩
  have middleObject : (absorbing output modelOutput requestId ref manager pass).objects ref =
      (absorbs output modelOutput requestId ref pass).2 := update_self _ _ _
  obtain ⟨handled, request, gained, gainedSkipped, requeues, sameConfig, counter, ends, lists⟩ :=
    stopRequest_eq_ok (by rw [middleObject]; exact spec.finished stops) stopping
  rw [middleObject] at ends
  rw [<- isAfter] at ends
  refine Or.inr ⟨stops, handled, request, gained, gainedSkipped, ⟨?_, ?_, requeues.requests,
    requeues.numObjects, requeues.running, requeues.waiting, requeues.skippedWaiting,
    requeues.others⟩, sameConfig, counter, ends, isStopped.trans lists⟩
  · rw [requeues.objects, absorbing, update_idem]
  · rw [requeues.sameId, middleObject, spec.requestId]

theorem processRequest_touches :
    TouchesOnly pass after ref := by
  rcases processRequest_requeues returned with ⟨_, ⟨_, same⟩, sameStopped⟩ |
    ⟨_, handled, _, _, _, requeues, sameConfig, _, ends, lists⟩
  · obtain ⟨sameRunning, samePreempted⟩ := Prod.mk.inj sameStopped
    constructor
    · rw [same]
      rfl
    · rw [same]
      rfl
    · intro other different
      rw [same]
      exact update_of_ne different _ _
    · intro id _
      rw [same]
      rfl
    · intro other _
      rw [same]
      exact ⟨rfl, rfl⟩
    · intro other _
      rw [sameRunning, samePreempted]
      exact ⟨id, id⟩
  have freed : Unregisters (pass.scheduler.objects ref).requestId handled after.scheduler := by
    rcases ends with ⟨_, _, _, _, freeing⟩ | ⟨_, _, _, _, isHandled⟩ | ⟨_, _, _, _, isHandled⟩
    · have touched := freeRequest_touches freeing
      rw [requeues.objects, update_self, requeues.sameId] at touched
      exact touched
    · rw [isHandled]
      exact ⟨rfl, rfl, rfl, rfl, rfl, fun _ _ => rfl⟩
    · rw [isHandled]
      exact ⟨rfl, rfl, rfl, rfl, rfl, fun _ _ => rfl⟩
  constructor
  · rw [freed.config, sameConfig]
  · rw [freed.running, requeues.running]
  · intro other different
    rw [freed.objects, requeues.objects, update_of_ne different]
  · intro id different
    rw [freed.requests id different, requeues.requests]
  · intro other different
    rw [freed.waiting, freed.skippedWaiting]
    exact requeues.others other different
  intro other different
  have notRef : other ∉ [ref] := fun member => different (mem_singleton.mp member)
  rw [stoppedLists] at lists
  split at lists
  · obtain ⟨isRunning, isPreempted⟩ := Prod.mk.inj lists
    rw [isRunning, isPreempted]
    exact ⟨fun member => (mem_append.mp member).resolve_right notRef, id⟩
  obtain ⟨isRunning, isPreempted⟩ := Prod.mk.inj lists
  rw [isRunning, isPreempted]
  exact ⟨id, fun member => (mem_append.mp member).resolve_right notRef⟩

end

/-- A request that is processed keeps a sound place, if a late stop finds it
where it should be. -/
theorem processRequest_sound (sound : pass.census.Sound)
    (registered : (pass.scheduler.census []).Registered ref)
    (unfinished : (pass.scheduler.objects ref).status.isFinished = false)
    (notStopped : ref ∉ pass.stoppedRunningReqs /\ ref ∉ pass.stoppedPreemptedReqs)
    (fits : (absorbs output modelOutput requestId ref pass).1.2 = true ->
      (pass.scheduler.objects ref).status ≠ .running ->
      (pass.scheduler.objects ref).status ≠ .waitingForStreamingReq /\
        if (nextInput (absorbs output modelOutput requestId ref pass).2).isSome then
          ref ∉ pass.scheduler.waiting
        else ref ∉ pass.scheduler.skippedWaiting)
    (returned : processRequest env output modelOutput requestId ref pass = .ok after) :
    after.census.Sound := by
  have spec := absorbs_spec output modelOutput requestId ref pass
  rcases processRequest_requeues returned with ⟨goesOn, ⟨_, sameScheduler⟩, sameStopped⟩ |
    ⟨stops, _, _, _, _, requeues, _, counter, ends, lists⟩
  · have sameObjects : ∀ other,
        (after.scheduler.objects other).requestId = (pass.scheduler.objects other).requestId /\
        (after.scheduler.objects other).status = (pass.scheduler.objects other).status := by
      intro other
      rw [sameScheduler, absorbing]
      by_cases same : other = ref
      · rw [same]
        dsimp only
        rw [update_self]
        exact ⟨spec.requestId, spec.status goesOn⟩
      dsimp only
      rw [update_of_ne same]
      exact ⟨rfl, rfl⟩
    obtain ⟨sameRunning, samePreempted⟩ := Prod.mk.inj sameStopped
    have sameCensus : after.census = pass.census := by
      simp only [census, censusWithout, Scheduler.census, sameObjects, sameRunning, samePreempted]
      rw [sameScheduler]
      rfl
    rw [sameCensus]
    exact sound
  have handledSound := requeues.sound sound registered unfinished notStopped counter (fits stops)
    ends lists
  rw [census]
  rcases ends with ⟨_, isOver, _, _, freeing⟩ | ⟨_, _, _, _, isHandled⟩ | ⟨_, _, _, _, isHandled⟩
  · obtain ⟨_, _, _, _, ⟨_, isFreed⟩ | ⟨_, freedBlocks⟩⟩ :=
      freeRequest_eq_ok freeing
    · rw [isFreed]
      exact handledSound
    obtain ⟨_, _, _, _, isFreed⟩ := freeBlocks_eq_ok freedBlocks
    rw [isFreed]
    refine handledSound.forget ?_ ?_
    · simp only [Registered, censusWithout, Scheduler.census, requeues.objects, update_self,
        requeues.sameId, requeues.requests]
      exact registered
    simp only [censusWithout, Scheduler.census, requeues.objects, update_self]
    exact isOver
  · rw [isHandled]
    exact handledSound
  · rw [isHandled]
    exact handledSound

/-- What is known while the requests of a step are visited: the places are
sound, and the requests still to come are as they were at the beginning. -/
structure Processing (begun : Scheduler H) (rest : List (RequestId × Int)) (pass : UpdatePass H) :
    Prop where
  sound : pass.census.Sound
  config : pass.scheduler.config = begun.config
  running : pass.scheduler.running = begun.running
  distinct : (rest.map Prod.fst).Nodup
  upcoming : ∀ id ∈ rest.map Prod.fst, ∀ ref, pass.scheduler.requests.get? id = some ref ->
    begun.requests.get? id = some ref /\
    pass.scheduler.objects ref = begun.objects ref /\
    pass.scheduler.waiting.count ref = begun.waiting.count ref /\
    pass.scheduler.skippedWaiting.count ref = begun.skippedWaiting.count ref /\
    ref ∉ pass.stoppedRunningReqs /\ ref ∉ pass.stoppedPreemptedReqs

variable {begun : Scheduler H}

omit [DecidableEq H] in
theorem Processing.start (sound : (begun.census []).Sound) (output : SchedulerOutput) :
    Processing begun output.numScheduledTokens.entries ⟨begun, [], [], 0, 0, []⟩ where
  sound := by
    rw [census, censusWithout_nil]
    exact sound
  config := rfl
  running := rfl
  distinct := output.numScheduledTokens.nodup
  upcoming _ _ _ found := ⟨found, rfl, rfl, rfl, not_mem_nil, not_mem_nil⟩

variable {rest : List (RequestId × Int)}

omit [DecidableEq H] in
theorem Processing.skip {id : RequestId} {numTokens : Int}
    (processing : Processing begun ((id, numTokens) :: rest) pass) :
    Processing begun rest pass where
  sound := processing.sound
  config := processing.config
  running := processing.running
  distinct := (nodup_cons.mp processing.distinct).2
  upcoming other member := processing.upcoming other (mem_cons_of_mem _ member)

theorem Processing.step {numTokens : Int} (fit : LateStopsFit begun output modelOutput)
    (inStep : requestId ∈ output.numScheduledTokens.keys)
    (processing : Processing begun ((requestId, numTokens) :: rest) pass)
    (found : pass.scheduler.requests.get? requestId = some ref)
    (unfinished : (pass.scheduler.objects ref).isFinished = false)
    (returned : processRequest env output modelOutput requestId ref pass = .ok after) :
    Processing begun rest after := by
  have touches := processRequest_touches returned
  obtain ⟨absent, distinct⟩ := nodup_cons.mp processing.distinct
  obtain ⟨wasFound, sameObject, sameWaiting, sameSkipped, notStopped⟩ :=
    processing.upcoming requestId mem_cons_self ref found
  have known := processing.sound.known requestId ref found
  have registered : (pass.scheduler.census []).Registered ref := processing.sound.registered found
  constructor
  · refine processRequest_sound processing.sound registered unfinished notStopped ?_ returned
    intro stops notRunning
    obtain ⟨_, _, observed⟩ := observedRequest_eq
    have sameStop : (absorbs output modelOutput requestId ref pass).1 =
        (absorbed begun.config modelOutput requestId (begun.objects ref)).1 := by
      rw [absorbs, observed, processing.config, sameObject]
      exact absorbed_counters _ _ _ _ _ _
    have sameInput : nextInput (absorbs output modelOutput requestId ref pass).2 =
        nextInput (absorbed begun.config modelOutput requestId (begun.objects ref)).2 := by
      rw [absorbs, observed, processing.config, sameObject]
      exact nextInput_absorbed_counters _ _ _ _
    rw [sameObject] at notRunning unfinished
    rw [sameStop] at stops
    have place := fit requestId inStep ref wasFound unfinished notRunning stops
    rw [continuesWith, <- sameInput, <- count_eq_zero, <- count_eq_zero, <- sameWaiting,
      <- sameSkipped, count_eq_zero, count_eq_zero] at place
    rw [sameObject]
    exact place
  · rw [touches.config, processing.config]
  · rw [touches.running, processing.running]
  · exact distinct
  intro other member otherRef otherFound
  have differentId : other ≠ requestId := fun same => absent (same ▸ member)
  have differentOwn : other ≠ (pass.scheduler.objects ref).requestId := by
    rw [show (pass.scheduler.objects ref).requestId = requestId from known.1]
    exact differentId
  rw [touches.requests other differentOwn] at otherFound
  have differentRef : otherRef ≠ ref := by
    intro same
    have otherKnown := processing.sound.known other otherRef otherFound
    rw [same] at otherKnown
    exact differentId (otherKnown.1.symm.trans known.1)
  obtain ⟨wasThere, objectSame, waitingSame, skippedSame, notRunningStopped, notPreemptedStopped⟩ :=
    processing.upcoming other (mem_cons_of_mem _ member) otherRef otherFound
  refine ⟨wasThere, ?_, ?_, ?_, ?_, ?_⟩
  · rw [touches.objects otherRef differentRef, objectSame]
  · rw [(touches.waiting otherRef differentRef).1, waitingSame]
  · rw [(touches.waiting otherRef differentRef).2, skippedSame]
  · exact mt (touches.stopped otherRef differentRef).1 notRunningStopped
  · exact mt (touches.stopped otherRef differentRef).2 notPreemptedStopped

omit [DecidableEq H] in
/-- The clean-up takes out of the queues what the census did not count. -/
theorem removeStopped_census (once : ∀ ref, pass.scheduler.running.count ref <= 1) :
    (pass.removeStopped pass.observeStep).census [] = pass.census := by
  have observed : ∃ controller activeNumSpecTokens, pass.observeStep =
      { pass.scheduler with
        specTokenController := controller
        activeNumSpecTokens := activeNumSpecTokens } := by
    rw [observeStep]
    split
    · exact ⟨pass.scheduler.specTokenController, pass.scheduler.activeNumSpecTokens, rfl⟩
    · exact ⟨_, _, rfl⟩
  obtain ⟨_, _, isObserved⟩ := observed
  have running : (fun ref => (removeAll pass.scheduler.running pass.stoppedRunningReqs).count ref) =
      fun ref => if ref ∈ pass.stoppedRunningReqs then 0 else pass.scheduler.running.count ref := by
    funext ref
    exact count_removeAll (fun other _ => once other) ref
  rw [isObserved, removeStopped]
  split
  case isTrue nothing =>
    simp only [census, censusWithout, Scheduler.census, running, nothing, not_mem_nil,
      if_false, count_nil, Nat.add_zero]
  case isFalse something =>
    simp only [census, censusWithout, Scheduler.census, running, count_removeRequests,
      count_nil, Nat.add_zero]

theorem processAll_sound {failed : List RequestId} (fit : LateStopsFit begun output modelOutput)
    (sound : (begun.census []).Sound)
    (returned : processAll env output modelOutput failed output.numScheduledTokens.entries
      ⟨begun, [], [], 0, 0, []⟩ = .ok after) :
    ((after.removeStopped after.observeStep).census []).Sound := by
  have processed : Processing begun [] after /\ [] ⊆ output.numScheduledTokens.entries := by
    refine processAll_rule (fun rest pass => Processing begun rest pass /\
      rest ⊆ output.numScheduledTokens.entries) ?_ ?_ returned
      ⟨Processing.start sound output, List.Subset.refl _⟩
    · rintro id numTokens rest pass ⟨processing, inside⟩
      exact ⟨processing.skip, (cons_subset.mp inside).2⟩
    rintro id numTokens rest pass after ref ⟨processing, inside⟩ _ found unfinished returned
    obtain ⟨member, insideRest⟩ := cons_subset.mp inside
    exact ⟨processing.step fit (mem_map_of_mem member) found unfinished returned, insideRest⟩
  have once : ∀ ref, after.scheduler.running.count ref <= 1 := by
    intro ref
    rw [processed.1.running]
    exact nodup_iff_count_le_one.mp (running_nodup sound) ref
  rw [removeStopped_census once]
  exact processed.1.sound

end UpdatePass

theorem updateFromOutput_sound [DecidableEq H] {env : ConnectorEnv} {output : SchedulerOutput}
    {modelOutput : ModelRunnerOutput} {outputs : List EngineCoreOutput}
    (fit : LateStopsFit scheduler output modelOutput)
    (returned : scheduler.updateFromOutput env output modelOutput = .ok (outputs, after))
    (sound : (scheduler.census []).Sound) : (after.census []).Sound := by
  obtain ⟨_, _, _, cleaned, ⟨objects, manager, loads, same, rfl⟩, processing, cleaning,
    transferring⟩ := updateFromOutput_eq_ok returned
  have sameCensus : { scheduler with
      objects := objects, kvCacheManager := manager, failedRecvingKvReqIds := loads }.census [] =
        scheduler.census [] := by
    have ids : (fun ref => (objects ref).requestId) =
        fun ref => (scheduler.objects ref).requestId := by
      funext ref
      obtain ⟨_, isSame⟩ := same ref
      rw [isSame]
    have statuses : (fun ref => (objects ref).status) =
        fun ref => (scheduler.objects ref).status := by
      funext ref
      obtain ⟨_, isSame⟩ := same ref
      rw [isSame]
    simp only [census, ids, statuses]
  have begunFit : LateStopsFit { scheduler with
      objects := objects, kvCacheManager := manager, failedRecvingKvReqIds := loads } output
      modelOutput := by
    intro requestId inStep ref found
    obtain ⟨_, isSame⟩ := same ref
    have sameStop : (absorbed scheduler.config modelOutput requestId (objects ref)).1 =
        (absorbed scheduler.config modelOutput requestId (scheduler.objects ref)).1 := by
      rw [isSame]
      exact absorbed_counters _ _ _ _ _ _
    have sameInput : nextInput (absorbed scheduler.config modelOutput requestId (objects ref)).2 =
        nextInput (absorbed scheduler.config modelOutput requestId (scheduler.objects ref)).2 := by
      rw [isSame]
      exact nextInput_absorbed_counters _ _ _ _
    have place := fit requestId inStep ref found
    simp only [stopsWith, continuesWith, sameStop, sameInput] at place ⊢
    rw [isSame]
    exact place
  have passSound := UpdatePass.processAll_sound begunFit (by rw [sameCensus]; exact sound) processing
  have cleanedSound : (cleaned.census []).Sound := by
    rcases cleaning with rfl | finishing
    · exact passSound
    · exact finishRequests_sound finishing passSound
  rcases transferring with rfl | ⟨_, _, transfer⟩
  · exact cleanedSound
  refine updateFromKvXferFinished_rule (fun scheduler => (scheduler.census []).Sound) ?_ ?_
    transfer cleanedSound
  · exact fun _ _ sound => sound
  · exact fun _ _ _ _ found freeing sound => freeBlocks_sound freeing sound (sound.registered found)

/-- Every live request is in exactly one queue, the running one if and only if
it runs; finished requests are in none; and the counter is right. -/
structure QueuesAgree (scheduler : Scheduler H) : Prop where
  once : ∀ id ref, scheduler.requests.get? id = some ref ->
    (scheduler.objects ref).isFinished = false ->
    scheduler.running.count ref + scheduler.waiting.count ref +
      scheduler.skippedWaiting.count ref = 1
  running : ∀ id ref, scheduler.requests.get? id = some ref ->
    (scheduler.objects ref).isFinished = false ->
    (ref ∈ scheduler.running <-> (scheduler.objects ref).status = .running)
  finished : ∀ ref ∈ scheduler.running ++ scheduler.waiting ++ scheduler.skippedWaiting,
    (scheduler.objects ref).isFinished = false
  streaming : scheduler.numWaitingForStreamingInput =
    ((scheduler.requests.values.filter (fun ref =>
      (scheduler.objects ref).status = .waitingForStreamingReq)).length : Nat)

theorem QueuesAgree.of_sound (sound : (scheduler.census []).Sound) : scheduler.QueuesAgree := by
  constructor
  · intro id ref found unfinished
    have once := (sound.placed ref).once (sound.registered found) unfinished
    simp only [census, count_nil] at once
    omega
  · intro id ref found unfinished
    have running := (sound.placed ref).running (sound.registered found)
    simp only [census] at running
    rw [<- running, Nat.ne_zero_iff_zero_lt, count_pos_iff]
  · intro ref member
    have present : (scheduler.census []).inRunning ref + (scheduler.census []).inWaiting ref ≠ 0 := by
      have counted := count_pos_iff.mpr member
      rw [count_append, count_append] at counted
      simp only [census, count_nil]
      omega
    exact (sound.placed ref).unfinished present
  · rw [Dict.length_filter_values]
    exact sound.streaming

end Scheduler

namespace Engine

variable {H : Type} [DecidableEq H]

/-- When a step is processed, each request that it stops although it does not
run any more is where the clean-up expects it. -/
def LateStopsFit (engine : Engine H) : EngineOp -> Prop
  | .updateFromOutput _ modelOutput =>
    ∀ output ∈ engine.inFlight.head?, engine.scheduler.LateStopsFit output modelOutput
  | _ => True

instance (engine : Engine H) : (op : EngineOp) -> Decidable (engine.LateStopsFit op)
  | .updateFromOutput _ modelOutput =>
    inferInstanceAs (Decidable (∀ output ∈ engine.inFlight.head?,
      engine.scheduler.LateStopsFit output modelOutput))
  | .addRequest _ _ | .schedule _ | .finishRequests _ _ _ | .resetPrefixCache _
  | .updateDraftTokenIds _ | .updateDraftTokenIdsInOutput _ | .resetEncoderCache
  | .setPauseState _ => .isTrue trivial

omit [DecidableEq H] in
theorem start_sound {setup : Setup H} {engine : Engine H} (started : start setup = .ok engine) :
    (engine.scheduler.census []).Sound := by
  obtain ⟨_, _, rest⟩ := andThen_eq_ok started
  cases rest
  refine ⟨?_, ?_, rfl⟩
  · intro id ref found
    cases found
  intro ref
  refine ⟨fun impossible => absurd rfl impossible, fun impossible => absurd rfl impossible, ?_, ?_⟩
  · intro registered
    cases registered
  intro registered
  cases registered

theorem next_sound {engine after : Engine H} {op : EngineOp} (fit : engine.LateStopsFit op)
    (stepped : engine.next op = .ok after) (sound : (engine.scheduler.census []).Sound) :
    (after.scheduler.census []).Sound := by
  cases op with
  | addRequest env args =>
    obtain ⟨_, adding, rest⟩ := andThen_eq_ok stepped
    cases rest
    exact addRequest_sound adding sound
  | schedule env =>
    obtain ⟨_, scheduling, rest⟩ := andThen_eq_ok stepped
    cases rest
    exact schedule_sound scheduling sound
  | updateFromOutput env modelOutput =>
    rw [next] at stepped
    split at stepped
    · cases stepped
    case h_2 output rest inFlight =>
      obtain ⟨_, updating, kept⟩ := andThen_eq_ok stepped
      cases kept
      have fits := fit output (by rw [inFlight]; rfl)
      exact updateFromOutput_sound fits updating sound
  | finishRequests env requestIds finishedStatus =>
    obtain ⟨_, finishing, rest⟩ := andThen_eq_ok stepped
    cases rest
    exact finishRequests_sound finishing sound
  | resetPrefixCache resetRunningRequests =>
    obtain ⟨_, resetting, rest⟩ := andThen_eq_ok stepped
    cases rest
    exact resetPrefixCache_sound resetting sound
  | updateDraftTokenIds drafts =>
    cases stepped
    rw [updateDraftTokenIds_census]
    exact sound
  | updateDraftTokenIdsInOutput drafts =>
    cases stepped
    exact sound
  | resetEncoderCache =>
    cases stepped
    exact sound
  | setPauseState pauseState =>
    cases stepped
    exact sound

/-- In every run in which late stops find their requests where the clean-up
expects them, every live request is in exactly one queue. -/
theorem queues_agree_of_late_stops_fit (setup : Setup H) {engine : Engine H}
    (reachable : ((system setup).restrict LateStopsFit).Reachable engine) :
    engine.scheduler.QueuesAgree := by
  apply QueuesAgree.of_sound
  refine System.Reachable.invariant (fun engine => (engine.scheduler.census []).Sound) ?_ ?_
    reachable
  · intro engine started
    exact start_sound started
  intro engine op after _ sound step
  exact next_sound step.1 step.2 sound

/-- Two requests, the second a session, and a pool that is too small for both
once they grow.  The second request is preempted while its step is in flight,
and the output of the step does not stop it. -/
def preemptedOps (lateTokens : List Token) : List EngineOp :=
  [.addRequest quietConnector (smallRequest "a" [1, 2, 3] false),
   .addRequest quietConnector (smallRequest "b" [1, 2, 3] true),
   .addRequest quietConnector (smallRequest "b" [4] true),
   .schedule quietSchedule, .schedule quietSchedule,
   .updateFromOutput quietConnector (sampled [("a", [7]), ("b", [7])]),
   .schedule quietSchedule,
   .updateFromOutput quietConnector (sampled [("a", [7]), ("b", lateTokens)])]

theorem queues_agree_of_late_stops_fit_preempted :
    ∃ engine, runWhere LateStopsFit (smallSetup 5) (preemptedOps [7]) = some engine /\
      engine.scheduler.waiting = [1] /\ engine.scheduler.QueuesAgree := by
  have ran : (runWhere LateStopsFit (smallSetup 5) (preemptedOps [7])).map
      (fun engine => engine.scheduler.waiting) = some [1] := by decide +kernel
  obtain ⟨engine, isEngine, waits⟩ := Option.map_eq_some_iff.mp ran
  exact ⟨engine, isEngine, waits,
    queues_agree_of_late_stops_fit (smallSetup 5) (reachable_runWhere isEngine)⟩

/-- If the late output stops the second request and its next input is queued,
the request goes to the waiting queue and the clean-up removes it from there:
it is in no queue any more. -/
theorem late_stop_loses_request :
    ∃ engine : Engine Nat, (system (smallSetup 5)).Reachable engine /\
      engine.scheduler.requests.get? "b" = some 1 /\
      (engine.scheduler.objects 1).isFinished = false /\
      1 ∉ engine.scheduler.running ++ engine.scheduler.waiting ++ engine.scheduler.skippedWaiting /\
      ¬ engine.scheduler.QueuesAgree := by
  have ran : (runFrom (smallSetup 5) (preemptedOps [9])).map (fun engine =>
      (engine.scheduler.requests.get? "b", (engine.scheduler.objects 1).isFinished,
        engine.scheduler.running, engine.scheduler.waiting, engine.scheduler.skippedWaiting)) =
      some (some 1, false, [0], [], []) := by decide +kernel
  obtain ⟨engine, isEngine, facts⟩ := Option.map_eq_some_iff.mp ran
  obtain ⟨found, unfinished, running, waiting, skipped⟩ :
      engine.scheduler.requests.get? "b" = some 1 /\ (engine.scheduler.objects 1).isFinished = false /\
        engine.scheduler.running = [0] /\ engine.scheduler.waiting = [] /\
        engine.scheduler.skippedWaiting = [] := by
    simpa only [Prod.mk.injEq] using facts
  refine ⟨engine, reachable_runFrom isEngine, found, unfinished, ?_, ?_⟩
  · rw [running, waiting, skipped]
    decide
  intro agree
  have once := agree.once "b" 1 found unfinished
  rw [running, waiting, skipped] at once
  exact absurd once (by decide)

end Engine

end Vllm.Sched
