import Vllm.Sched.Schedule

namespace Vllm.Sched

open Foundation RequestQueue
open KVCache (RequestId BlockId)

/-!
# Admitting waiting requests, and the output of a step

A waiting request is looked at in its queue and popped only once its fate is
known.  It is set aside if it is blocked or would use too many adapters, it
ends the loop if it does not fit, and otherwise it is admitted, or starts to
load from a connector.

After both loops the output is built and the counters of the scheduled
requests advance as if the step had been computed.
-/

namespace Scheduler

variable {H : Type} (scheduler : Scheduler H)

/-- A request that waits for something else than its turn. -/
def isBlockedWaitingStatus : RequestStatus -> Bool
  | .waitingForStructuredOutputGrammar => true
  | .waitingForRemoteKvs => true
  | .waitingForStreamingReq => true
  | _ => false

/-- The two queues of requests that do not run. -/
inductive QueueName where
  | waiting
  | skippedWaiting
  deriving DecidableEq

/-- A queue of waiting requests by its name. -/
def queue : QueueName -> List Ref
  | .waiting => scheduler.waiting
  | .skippedWaiting => scheduler.skippedWaiting

def setQueue (name : QueueName) (queue : List Ref) : Scheduler H :=
  match name with
  | .waiting => { scheduler with waiting := queue }
  | .skippedWaiting => { scheduler with skippedWaiting := queue }

/-- The queue whose front is the next to be admitted. -/
def selectWaitingQueueForScheduling : Option QueueName :=
  match scheduler.config.policy with
  | .fcfs =>
    if scheduler.skippedWaiting ≠ [] then some .skippedWaiting
    else if scheduler.waiting ≠ [] then some .waiting
    else none
  | .priority =>
    match peekRequest scheduler.waiting,
        peekRequest scheduler.skippedWaiting with
    | some waitingReq, some skippedReq =>
      if requestLt scheduler.objects waitingReq skippedReq then some .waiting
      else some .skippedWaiting
    | some _, none => some .waiting
    | none, some _ => some .skippedWaiting
    | none, none => none

variable [DecidableEq H]

/-- A load is finished: cache the loaded blocks, or release them if the load
failed from the start.  If all tokens were loaded, the last one is computed
again, to sample from it. -/
def updateWaitingForRemoteKv (ref : Ref) : Except SchedulerError (Scheduler H) :=
  let request := scheduler.objects ref
  andThen (require (scheduler.config.hasConnector = true) .noConnector) (fun _ =>
    andThen
      (if request.requestId ∈ scheduler.failedRecvingKvReqIds then
        andThen
          (if request.numComputedTokens ≠ 0 then
            scheduler.kvCacheBlocks request request.numComputedTokens
          else
            scheduler.kvFree request.requestId)
          (fun scheduler =>
            .ok
              { scheduler with
                failedRecvingKvReqIds :=
                  scheduler.failedRecvingKvReqIds.filter (fun id => id ≠ request.requestId) })
      else
        andThen (scheduler.kvCacheBlocks request request.numComputedTokens) (fun scheduler =>
          if request.numComputedTokens = request.numTokens then
            .ok (scheduler.modify ref (fun request =>
              { request with numComputedTokens := request.numTokens - 1 }))
          else
            .ok scheduler))
      (fun scheduler =>
        .ok
          { scheduler with
            finishedRecvingKvReqIds :=
              scheduler.finishedRecvingKvReqIds.filter (fun id => id ≠ request.requestId) }))

/-- Let a blocked request wait for its turn, if what it waits for has come. -/
def tryPromoteBlockedWaitingRequest (env : ScheduleEnv) (ref : Ref) :
    Except SchedulerError (Bool × Scheduler H) :=
  let request := scheduler.objects ref
  match request.status with
  | .waitingForRemoteKvs =>
    if request.requestId ∉ scheduler.finishedRecvingKvReqIds then .ok (false, scheduler)
    else
      andThen (scheduler.updateWaitingForRemoteKv ref) (fun scheduler =>
        .ok (true, scheduler.modify ref (fun request =>
          { request with
            status := if request.numPreemptions ≠ 0 then .preempted else .waiting })))
  | .waitingForStructuredOutputGrammar =>
    if env.grammarReady ref then
      .ok (true, scheduler.modify ref (fun request => { request with status := .waiting }))
    else
      .ok (false, scheduler)
  | .waitingForStreamingReq =>
    andThen (require (request.streamingQueue.getD [] = []) .streamingQueueNotEmpty) (fun _ =>
      .ok (false, scheduler))
  | status => .error (.unexpectedBlockedStatus status request.requestId)

end Scheduler

/-- What is known to be computed of a waiting request. -/
structure ComputedTokens where
  newComputedBlocks : List (List BlockId)
  numNewLocalComputedTokens : Nat
  numExternalComputedTokens : Nat
  loadKvAsync : Bool
  numComputedTokens : Int

namespace SchedulePass

variable {H : Type} (pass : SchedulePass H)

variable (name : Scheduler.QueueName)

/-- Take the front of a queue. -/
def popFrom : Except SchedulerError (Ref × SchedulePass H) :=
  match popRequest pass.scheduler.config.policy pass.scheduler.objects
      (pass.scheduler.queue name) with
  | none => .error .emptyQueue
  | some (ref, rest) => .ok (ref, pass.withScheduler (pass.scheduler.setQueue name rest))

variable (request : Request H) (ref : Ref)

/-- Put a request aside for the rest of the pass. -/
def setAside : SchedulePass H :=
  { pass with
    stepSkippedWaiting := prependRequest pass.scheduler.config.policy
      pass.scheduler.objects pass.stepSkippedWaiting ref }

/-- Take the front of a queue and put it aside. -/
def skipRequest : Except SchedulerError (SchedulePass H) :=
  andThen (pass.popFrom name) (fun popped => .ok (popped.2.setAside popped.1))

/-- Another adapter would exceed the limit. -/
def exceedsLoras : Bool :=
  match pass.scheduler.config.maxLoras, request.loraIntId with
  | some maxLoras, some lora => pass.scheduledLoras.length = maxLoras /\ lora ∉ pass.scheduledLoras
  | _, _ => false

/-- Drop the references of a request that does not fit to the encoder cache. -/
def untouchEncoder : SchedulePass H :=
  if request.hasEncoderInputs then
    pass.withScheduler
      { pass.scheduler with encoderCacheManager := pass.scheduler.encoderCacheManager.free request }
  else
    pass

variable (numComputedTokens : Int)

/-- The first limit on the tokens of a waiting request.  Without chunked prefill
a request that does not fit into the budget ends the loop. -/
def numNewTokensWaiting : Option Int :=
  let config := pass.scheduler.config
  let numNewTokens : Int := request.numTokens - numComputedTokens
  let numNewTokens :=
    if 0 < config.longPrefillTokenThreshold /\ (config.longPrefillTokenThreshold : Int) < numNewTokens
    then (config.longPrefillTokenThreshold : Int)
    else numNewTokens
  if config.enableChunkedPrefill = false /\ pass.tokenBudget < numNewTokens then none
  else some (min numNewTokens pass.tokenBudget)

/-- The request runs from now on, as a new or as a resumed one. -/
def admitRequest (numNewTokens numComputedTokens : Int) (plan : EncoderPlan) :
    Except SchedulerError (SchedulePass H) :=
  let request := pass.request ref
  let pass := pass.withScheduler { pass.scheduler with running := pass.scheduler.running ++ [ref] }
  andThen
    (match request.status with
      | .waiting => .ok { pass with scheduledNewReqs := pass.scheduledNewReqs ++ [ref] }
      | .preempted => .ok { pass with scheduledResumedReqs := pass.scheduledResumedReqs ++ [ref] }
      | status => .error (.invalidStatus status))
    (fun pass =>
      let pass :=
        { pass with
          scheduledLoras :=
            match pass.scheduler.config.maxLoras, request.loraIntId with
            | some _, some lora =>
              if lora ∈ pass.scheduledLoras then pass.scheduledLoras
              else lora :: pass.scheduledLoras
            | _, _ => pass.scheduledLoras
          reqToNewBlocks := pass.reqToNewBlocks.set request.requestId
            (pass.scheduler.getBlockIds request.requestId)
          numScheduledTokens := pass.numScheduledTokens.set request.requestId numNewTokens
          tokenBudget := pass.tokenBudget - numNewTokens }
      let pass := pass.withScheduler (pass.scheduler.modify ref (fun request =>
        { request with status := .running, numComputedTokens := numComputedTokens }))
      pass.commitEncoder (pass.request ref) plan)

/-- The request waits for its blocks to be loaded. -/
def startLoading : SchedulePass H :=
  let pass := pass.withScheduler (pass.scheduler.modify ref (fun request =>
    { request with status := .waitingForRemoteKvs }))
  let pass := pass.setAside ref
  pass.withScheduler (pass.scheduler.modify ref (fun request =>
    { request with numComputedTokens := numComputedTokens }))

variable [DecidableEq H]

variable (env : ScheduleEnv) (name : Scheduler.QueueName) (ref : Ref)

/-- Look up what is computed of a waiting request.  There is no result if the
connector cannot tell yet. -/
def lookupComputed : Except SchedulerError (Option ComputedTokens) :=
  let request := pass.request ref
  if request.numComputedTokens = 0 then
    andThen (pass.scheduler.getComputedBlocks request) (fun found =>
      let matched :=
        if pass.scheduler.config.hasConnector then env.getNumNewMatchedTokens ref found.2
        else (some 0, false)
      match matched with
      | (none, _) => .ok none
      | (some numExternalComputedTokens, loadKvAsync) =>
        andThen (require (found.2 + numExternalComputedTokens <= request.numTokens)
          .tooManyComputedTokens) (fun _ =>
          .ok (some
            { newComputedBlocks := found.1
              numNewLocalComputedTokens := found.2
              numExternalComputedTokens := numExternalComputedTokens
              loadKvAsync := loadKvAsync
              numComputedTokens := (found.2 + numExternalComputedTokens : Nat) })))
  else
    .ok (some
      { newComputedBlocks := pass.scheduler.emptyKvCacheBlocks
        numNewLocalComputedTokens := 0
        numExternalComputedTokens := 0
        loadKvAsync := false
        numComputedTokens := request.numComputedTokens })

omit [DecidableEq H] in
/-- Decide how many tokens of a waiting request to schedule.  There is no
result if the loop ends here. -/
def planWaiting (request : Request H) (computed : ComputedTokens) :
    Except SchedulerError (Option (Int × EncoderPlan) × SchedulePass H) :=
  andThen
    (if computed.loadKvAsync then
      andThen (require (0 < computed.numExternalComputedTokens) .noExternalTokens) (fun _ =>
        .ok (some (⟨[], 0, pass.encoderComputeBudget, []⟩ : EncoderPlan), pass))
    else
      match pass.numNewTokensWaiting request computed.numComputedTokens with
      | none => .ok (none, pass)
      | some numNewTokens =>
        andThen (require (0 < numNewTokens) .noNewTokens) (fun _ =>
          andThen (pass.planEncoder env request computed.numComputedTokens numNewTokens)
            (fun planned =>
              if request.hasEncoderInputs /\ planned.1.numNewTokens = 0 then .ok (none, planned.2)
              else .ok (some planned.1, planned.2))))
    (fun planned =>
      match planned.1 with
      | none => .ok (none, planned.2)
      | some plan =>
        if planned.2.scheduler.config.needMambaBlockAlignedSplit then
          andThen (mambaBlockAlignedSplit planned.2.scheduler.config request plan.numNewTokens
            computed.numNewLocalComputedTokens computed.numExternalComputedTokens)
            (fun numNewTokens =>
              if numNewTokens = 0 then .ok (none, planned.2)
              else .ok (some (numNewTokens, plan), planned.2))
        else
          .ok (some (plan.numNewTokens, plan), planned.2))

omit [DecidableEq H] in
def slotArgsWaiting (request : Request H) (computed : ComputedTokens) (numNewTokens : Int)
    (plan : EncoderPlan) : Scheduler.SlotArgs :=
  { numNewTokens := numNewTokens
    numNewComputedTokens := computed.numNewLocalComputedTokens
    newComputedBlocks := computed.newComputedBlocks
    numLookaheadTokens :=
      if request.numComputedTokens = 0 then 0 else pass.scheduler.config.numLookaheadTokens
    numExternalComputedTokens := computed.numExternalComputedTokens
    delayCacheBlocks := computed.loadKvAsync
    numEncoderTokens :=
      if pass.scheduler.config.isEncoderDecoder then
        (plan.encoderInputsToSchedule.map (fun inputId => request.getNumEncoderEmbeds inputId)).sum
      else
        0 }

/-- Allocate slots for a waiting request and admit it.  The result says whether
the loop goes on. -/
def placeWaiting (computed : ComputedTokens)
    (numNewTokens : Int) (plan : EncoderPlan) : Except SchedulerError (Bool × SchedulePass H) :=
  let request := pass.request ref
  let args := pass.slotArgsWaiting request computed numNewTokens plan
  andThen
    (if pass.scheduler.config.schedulerReserveFullIsl then
      pass.scheduler.canFitFullSequence request args
    else
      .ok true)
    (fun fits =>
      if fits = false then .ok (false, pass.untouchEncoder request)
      else
        andThen (pass.scheduler.allocateSlots request args) (fun allocated =>
          let pass := pass.withScheduler allocated.2
          match allocated.1 with
          | none => .ok (false, pass.untouchEncoder request)
          | some _ =>
            andThen (pass.popFrom name) (fun popped =>
              if computed.loadKvAsync then
                .ok (true, popped.2.startLoading popped.1 computed.numComputedTokens)
              else
                andThen (popped.2.admitRequest popped.1 numNewTokens computed.numComputedTokens plan)
                  (fun pass => .ok (true, pass)))))

/-- Visit the request at the front of a queue once it is not blocked.  The
result says whether the loop goes on. -/
def visitReady : Except SchedulerError (Bool × SchedulePass H) :=
  if pass.exceedsLoras (pass.request ref) then
    andThen (pass.skipRequest name) (fun pass => .ok (true, pass))
  else
    andThen (pass.lookupComputed env ref) (fun found =>
      match found with
      | none => andThen (pass.skipRequest name) (fun pass => .ok (true, pass))
      | some computed =>
        andThen (pass.planWaiting env (pass.request ref) computed) (fun planned =>
          match planned.1 with
          | none => .ok (false, planned.2)
          | some (numNewTokens, plan) =>
            planned.2.placeWaiting name ref computed numNewTokens plan))

/-- Visit the request at the front of a queue.  The result says whether the loop
goes on. -/
def visitWaiting : Except SchedulerError (Bool × SchedulePass H) :=
  if Scheduler.isBlockedWaitingStatus (pass.request ref).status then
    andThen (pass.scheduler.tryPromoteBlockedWaitingRequest env ref) (fun promoted =>
      let pass := pass.withScheduler promoted.2
      if promoted.1 then pass.visitReady env name ref
      else andThen (pass.skipRequest name) (fun pass => .ok (true, pass)))
  else
    pass.visitReady env name ref

/-- The loop over the waiting requests. -/
def scheduleWaiting (env : ScheduleEnv) : (fuel : Nat) -> SchedulePass H ->
    Except SchedulerError (SchedulePass H)
  | 0, pass => .ok pass
  | fuel + 1, pass =>
    if pass.tokenBudget <= 0 \/
        pass.scheduler.running.length = pass.scheduler.config.maxNumRunningReqs then
      .ok pass
    else
      match pass.scheduler.selectWaitingQueueForScheduling with
      | none => .ok pass
      | some name =>
        match peekRequest (pass.scheduler.queue name) with
        | none => .ok pass
        | some ref =>
          andThen (pass.visitWaiting env name ref) (fun result =>
            if result.1 then scheduleWaiting env fuel result.2 else .ok result.2)

omit [DecidableEq H] in
/-- Put the requests that were set aside to the front of the skipped queue. -/
def requeueSkipped : SchedulePass H :=
  pass.withScheduler
    { pass.scheduler with
      skippedWaiting := prependRequests pass.scheduler.config.policy
        pass.scheduler.objects pass.scheduler.skippedWaiting pass.stepSkippedWaiting }

/-- Visit the waiting requests, unless a request was preempted or new requests
are paused. -/
def admitWaiting : Except SchedulerError (SchedulePass H) :=
  if pass.preemptedReqs = [] /\ pass.scheduler.pauseState = .unpaused then
    andThen
      (scheduleWaiting env
        (pass.scheduler.waiting.length + pass.scheduler.skippedWaiting.length) pass)
      (fun pass => .ok pass.requeueSkipped)
  else
    .ok pass

omit [DecidableEq H]

/-- The final assertions. -/
def checkConstraints : Except SchedulerError Unit :=
  let config := pass.scheduler.config
  andThen (require (pass.numScheduledTokens.values.sum <= config.maxNumScheduledTokens)
    .tooManyScheduledTokens) (fun _ =>
    andThen (require (0 <= pass.tokenBudget) .negativeTokenBudget) (fun _ =>
      andThen (require (pass.scheduler.running.length <= config.maxNumRunningReqs)
        .tooManyRunningRequests) (fun _ =>
        require (pass.scheduledNewReqs.length + pass.scheduledResumedReqs.length +
          pass.scheduledRunningReqs.length <= pass.scheduler.running.length)
          .tooManyScheduledRequests)))

def newRequestData : NewRequestData :=
  let request := pass.request ref
  { reqId := request.requestId
    promptTokenIds := request.promptTokenIds
    blockIds := (pass.reqToNewBlocks.get? request.requestId).getD []
    numComputedTokens := request.numComputedTokens
    prefillTokenIds :=
      if pass.scheduler.config.useV2ModelRunner then some request.allTokenIds else none }

/-- The workers know the tokens of a request that was in the previous step. -/
def cachedRequestData (resumed : Bool) (ref : Ref) : Except SchedulerError CachedRequestData :=
  let request := pass.request ref
  let scheduledInPrevStep := request.requestId ∈ pass.scheduler.prevStepScheduledReqIds
  if resumed /\ scheduledInPrevStep then .error (.resumedInPreviousStep request.requestId)
  else
    .ok
      { reqId := request.requestId
        resumed := resumed
        newBlockIds := (pass.reqToNewBlocks.get? request.requestId).getD []
        allTokenIds := if scheduledInPrevStep then none else some request.allTokenIds
        numComputedTokens := request.numComputedTokens
        numOutputTokens := request.numOutputTokens + request.numOutputPlaceholders }

/-- What the worker is told about requests that it knows. -/
def makeCachedRequestData (resumed : Bool) : List Ref ->
    Except SchedulerError (List CachedRequestData)
  | [] => .ok []
  | ref :: refs =>
    andThen (pass.cachedRequestData resumed ref) (fun data =>
      andThen (makeCachedRequestData resumed refs) (fun others => .ok (data :: others)))

/-- Put the plan of the step together. -/
def makeOutput (stepActiveK : Nat) : Except SchedulerError (SchedulerOutput × Scheduler H) :=
  let newReqs :=
    if pass.scheduler.config.useV2ModelRunner then
      pass.scheduledNewReqs ++ pass.scheduledResumedReqs
    else
      pass.scheduledNewReqs
  let resumedReqs :=
    if pass.scheduler.config.useV2ModelRunner then [] else pass.scheduledResumedReqs
  andThen (pass.makeCachedRequestData false pass.scheduledRunningReqs) (fun running =>
    andThen (pass.makeCachedRequestData true resumedReqs) (fun resumed =>
      let freed := pass.scheduler.encoderCacheManager.getFreedMmHashes
      .ok
        ({ scheduledNewReqs := newReqs.map pass.newRequestData
           scheduledCachedReqs := running ++ resumed
           numScheduledTokens := pass.numScheduledTokens
           scheduledSpecDecodeTokens := pass.scheduledSpecDecodeTokens
           activeNumSpecTokens := stepActiveK
           scheduledEncoderInputs := pass.scheduledEncoderInputs
           preemptedReqIds :=
             (pass.preemptedReqs.map (fun ref => (pass.request ref).requestId)).dedup
           finishedReqIds := pass.scheduler.finishedReqIds
           freeEncoderMmHashes := freed.1
           numInvalidSpecTokens := Dict.empty },
          { pass.scheduler with
            prevStepScheduledReqIds := pass.numScheduledTokens.keys
            encoderCacheManager := freed.2 })))

end SchedulePass

namespace Scheduler

variable {H : Type} (scheduler : Scheduler H)

/-- The scheduled tokens count as computed from now on. -/
def advanceRequest (request : Request H) (numScheduledToken : Int) : Request H :=
  let numComputedTokens := request.numComputedTokens + numScheduledToken
  { request with
    numComputedTokens := numComputedTokens
    isPrefillChunk := decide (numComputedTokens < request.numTokens + request.numOutputPlaceholders) }

/-- With asynchronous scheduling, a request whose prefill is complete expects
one token and all its drafts, and gets placeholders for its next drafts. -/
def expectOutput (numDraftTokens : Nat) (request : Request H) : Request H :=
  if request.isPrefillChunk then request
  else
    { request with
      numOutputPlaceholders := request.numOutputPlaceholders + (1 + numDraftTokens)
      specTokenIds := .shared }

/-- Change each scheduled request. -/
def forScheduled (change : RequestId -> Int -> Request H -> Request H) :
    List (RequestId × Int) -> Scheduler H -> Except SchedulerError (Scheduler H)
  | [], scheduler => .ok scheduler
  | (requestId, numTokens) :: rest, scheduler =>
    match scheduler.requests.get? requestId with
    | none => .error (.missingKey requestId)
    | some ref => forScheduled change rest (scheduler.modify ref (change requestId numTokens))

/-- What happens to the requests when the plan is made.  With asynchronous
scheduling each of them also expects its tokens. -/
def updateAfterSchedule (output : SchedulerOutput) : Except SchedulerError (Scheduler H) :=
  andThen
    (forScheduled (fun _ numTokens request => advanceRequest request numTokens)
      output.numScheduledTokens.entries scheduler)
    (fun scheduler =>
      let scheduler := { scheduler with finishedReqIds := [] }
      if scheduler.config.asyncScheduling then
        forScheduled
          (fun requestId _ request =>
            let draftTokens :=
              match output.scheduledSpecDecodeTokens.get? requestId with
              | none => []
              | some specTokenIds => scheduler.readSpec specTokenIds
            expectOutput draftTokens.length request)
          output.numScheduledTokens.entries scheduler
      else
        .ok scheduler)

variable [DecidableEq H]

/-- Plan the next step. -/
def schedule (env : ScheduleEnv) : Except SchedulerError (SchedulerOutput × Scheduler H) :=
  let stepActiveK := scheduler.activeNumSpecTokens
  andThen
    (SchedulePass.scheduleRunning env stepActiveK (scheduler.running.length + 1)
      (SchedulePass.start scheduler))
    (fun pass =>
      andThen pass.recordLoras (fun pass =>
        andThen (pass.admitWaiting env) (fun pass =>
          andThen pass.checkConstraints (fun _ =>
            andThen (pass.makeOutput stepActiveK) (fun made =>
              andThen (made.2.updateAfterSchedule made.1) (fun scheduler =>
                .ok (made.1, scheduler)))))))

end Scheduler

end Vllm.Sched
