import Vllm.Sched.Admission

namespace Vllm.Sched

open Foundation RequestQueue
open KVCache (RequestId BlockId)

/-!
# Adding, finishing and freeing requests

A request with a known id continues a streaming session.  A session that
stops goes back to a waiting queue, either with its next input or to wait for
it.  A finished request is freed at once unless its blocks are still being
transferred; then it stays in the table of requests until the transfer is
reported.
-/

/-- The answer of the connector when a request is finished: whether its blocks
have to be kept. -/
structure ConnectorEnv where
  delayFreeBlocks : RequestId -> Bool

namespace Scheduler

variable {H : Type} (scheduler : Scheduler H)

/-- Remove a set of items from a list.  A single item is removed once. -/
def removeAll (queue items : List Ref) : List Ref :=
  match items.dedup with
  | [] => queue
  | [item] => queue.erase item
  | _ => queue.filter (fun ref => ref ∉ items)

variable (env : ConnectorEnv) (ref : Ref)

/-- Put a request into the queue for its status. -/
def enqueueWaitingRequest : Scheduler H :=
  if isBlockedWaitingStatus (scheduler.objects ref).status then
    { scheduler with
      skippedWaiting := addRequest scheduler.config.policy scheduler.objects
        scheduler.skippedWaiting ref }
  else
    { scheduler with
      waiting := addRequest scheduler.config.policy scheduler.objects
        scheduler.waiting ref }

def freeBlocks : Except SchedulerError (Scheduler H) :=
  let request := scheduler.objects ref
  andThen (require (request.isFinished = true) .notFinished) (fun _ =>
    andThen (scheduler.kvFree request.requestId) (fun scheduler =>
      if scheduler.requests.contains request.requestId then
        .ok { scheduler with requests := scheduler.requests.erase request.requestId }
      else
        .error (.missingKey request.requestId)))

/-- Tell the connector that a request is finished.  The result says whether the
blocks have to be kept. -/
def connectorFinished (request : Request H) : Except SchedulerError (Bool × Scheduler H) :=
  if scheduler.config.hasConnector = false then .ok (false, scheduler)
  else
    andThen (naturalCount request.requestId request.numComputedTokens) (fun numComputedTokens =>
      andThen (fromKv (scheduler.kvCacheManager.removeSkippedBlocks request.requestId
        numComputedTokens)) (fun manager =>
        andThen (require (scheduler.config.connectorSupportsHma = true \/
          manager.coordinator.config.kvCacheGroups.length = 1) .notOneGroup) (fun _ =>
          .ok (env.delayFreeBlocks request.requestId,
            { scheduler with kvCacheManager := manager }))))

/-- Give up everything that a finished request has, its blocks possibly later. -/
def freeRequest (delayFreeBlocks : Bool) : Except SchedulerError (Scheduler H) :=
  let request := scheduler.objects ref
  andThen (require (request.isFinished = true) .notFinished) (fun _ =>
    andThen (scheduler.connectorFinished env request) (fun connector =>
      let scheduler := connector.2
      let scheduler :=
        { scheduler with
          encoderCacheManager := scheduler.encoderCacheManager.free request
          finishedReqIds :=
            if request.requestId ∈ scheduler.finishedReqIds then scheduler.finishedReqIds
            else scheduler.finishedReqIds ++ [request.requestId] }
      if delayFreeBlocks \/ connector.1 then .ok scheduler else scheduler.freeBlocks ref))

/-- The objects that a finish signal is about: those known and not finished. -/
def validRequests (requestIds : List RequestId) : List Ref :=
  requestIds.filterMap (fun requestId =>
    match scheduler.requests.get? requestId with
    | none => none
    | some ref => if (scheduler.objects ref).isFinished then none else some ref)

/-- The first pass: take the requests out of all queues. -/
def dequeueRequests (refs : List Ref) : Scheduler H :=
  let runningRequests := refs.filter (fun ref => (scheduler.objects ref).status = .running)
  let waitingRequests := refs.filter (fun ref => (scheduler.objects ref).status ≠ .running)
  let numStreaming :=
    (refs.filter (fun ref => (scheduler.objects ref).status = .waitingForStreamingReq)).length
  let scheduler :=
    { scheduler with
      numWaitingForStreamingInput := scheduler.numWaitingForStreamingInput - numStreaming
      running := removeAll scheduler.running runningRequests }
  if waitingRequests = [] then scheduler
  else
    { scheduler with
      waiting := removeRequests scheduler.config.policy scheduler.objects
        scheduler.waiting waitingRequests
      skippedWaiting := removeRequests scheduler.config.policy scheduler.objects
        scheduler.skippedWaiting waitingRequests }

/-- The second pass for one request: set its status and free it.  Blocks that a
connector still writes to are kept. -/
def finishRequest (finishedStatus : RequestStatus) (ref : Ref) :
    Except SchedulerError (Scheduler H) :=
  let request := scheduler.objects ref
  let loading := request.status = .waitingForRemoteKvs
  let delayFreeBlocks := loading /\ request.requestId ∉ scheduler.finishedRecvingKvReqIds
  let scheduler :=
    if loading then
      { scheduler with
        finishedRecvingKvReqIds :=
          scheduler.finishedRecvingKvReqIds.filter (fun id => id ≠ request.requestId)
        failedRecvingKvReqIds :=
          scheduler.failedRecvingKvReqIds.filter (fun id => id ≠ request.requestId) }
    else
      scheduler
  let scheduler := scheduler.modify ref (fun request => { request with status := finishedStatus })
  scheduler.freeRequest env ref delayFreeBlocks

/-- Finish requests one after the other. -/
def finishEach (env : ConnectorEnv) (finishedStatus : RequestStatus) : List Ref -> Scheduler H ->
    Except SchedulerError (Scheduler H)
  | [], scheduler => .ok scheduler
  | ref :: refs, scheduler =>
    andThen (scheduler.finishRequest env finishedStatus ref) (fun scheduler =>
      finishEach env finishedStatus refs scheduler)

/-- Finish requests from outside, for example because they were aborted. -/
def finishRequests (requestIds : Option (List RequestId))
    (finishedStatus : RequestStatus) : Except SchedulerError (Scheduler H) :=
  andThen (require (finishedStatus.isFinished = true) .notFinished) (fun _ =>
    let requestIds :=
      match requestIds with
      | none => scheduler.requests.keys
      | some requestIds => requestIds.dedup
    let refs := scheduler.validRequests requestIds
    finishEach env finishedStatus refs (scheduler.dequeueRequests refs))

/-- Move the items of an update behind the tokens of a session. -/
def shiftFeatures (base : Nat) (features : List MultiModalFeature) : List MultiModalFeature :=
  features.map (fun feature =>
    { feature with
      mmPosition := { feature.mmPosition with offset := feature.mmPosition.offset + base } })

/-- Python's `tokens[:end]` for an end that may be negative. -/
def takeTo (tokenIds : List Token) (stop : Int) : List Token :=
  if 0 <= stop then tokenIds.take stop.toNat else tokenIds.take (tokenIds.length - (-stop).toNat)

/-- Extend a session by its next input.  Only computed output tokens are kept. -/
def continueSession (blockHasher : Request H -> List H) (session : Request H)
    (promptTokenIds : List Token) (update : StreamingUpdate) : Request H :=
  let keptTokenIds := takeTo session.allTokenIds session.numComputedTokens
  let keptOutputTokens := keptTokenIds.drop session.numPromptTokens
  let newTokenIds := update.promptTokenIds.getD []
  let promptTokenIds := promptTokenIds ++ keptOutputTokens ++ newTokenIds
  let session : Request H :=
    { session with
      mmFeatures := session.mmFeatures ++ shiftFeatures keptTokenIds.length update.mmFeatures
      allTokenIds := keptTokenIds ++ newTokenIds
      outputTokenIds := []
      promptTokenIds := some promptTokenIds }
  { session with
    blockHashes := session.blockHashes ++ blockHasher session
    numPromptTokens := promptTokenIds.length
    arrivalTime := update.arrivalTime
    params := update.params
    status := .waiting }

/-- Continue a session with its next input. -/
def updateRequestAsSession (update : StreamingUpdate) : Except SchedulerError (Scheduler H) :=
  let session := scheduler.objects ref
  match session.promptTokenIds with
  | none => .error .missingPromptTokens
  | some promptTokenIds =>
    let scheduler :=
      if session.status = .waitingForStreamingReq then
        { scheduler with
          numWaitingForStreamingInput := scheduler.numWaitingForStreamingInput - 1 }
      else
        scheduler
    .ok (scheduler.modify ref (fun session =>
      continueSession scheduler.config.blockHasher session promptTokenIds update))

/-- What becomes of a stopped request.  The result says whether it is finished. -/
def handleStoppedRequest : Except SchedulerError (Bool × Scheduler H) :=
  let request := scheduler.objects ref
  if request.resumable = false then .ok (true, scheduler)
  else
    match request.streamingQueue.getD [] with
    | none :: rest =>
      .ok (true, scheduler.modify ref (fun request =>
        { request with streamingQueue := some rest }))
    | some update :: rest =>
      andThen
        ((scheduler.modify ref (fun request =>
          { request with streamingQueue := some rest })).updateRequestAsSession ref update)
        (fun scheduler => .ok (false, scheduler.enqueueWaitingRequest ref))
    | [] =>
      let scheduler := scheduler.modify ref (fun request =>
        { request with status := .waitingForStreamingReq })
      let scheduler :=
        { scheduler with
          numWaitingForStreamingInput := scheduler.numWaitingForStreamingInput + 1 }
      .ok (false, scheduler.enqueueWaitingRequest ref)

/-- A new request, or the next input of a session. -/
def addRequest (request : Request H) : Except SchedulerError (Scheduler H) :=
  match scheduler.requests.get? request.requestId with
  | some ref =>
    let existing := scheduler.objects ref
    if existing.status ≠ .waitingForStreamingReq then
      match existing.streamingQueue with
      | none => .error .duplicateRequestId
      | some updates =>
        .ok (scheduler.modify ref (fun existing =>
          { existing with streamingQueue := some (updates ++ [request.streamingUpdate]) }))
    else
      match request.streamingUpdate with
      | some update => scheduler.updateRequestAsSession ref update
      | none => scheduler.finishRequests env (some [request.requestId]) .finishedAborted
  | none =>
    let ref := scheduler.numObjects
    let request :=
      if request.resumable then { request with streamingQueue := some [] } else request
    let scheduler :=
      { scheduler with
        objects := Function.update scheduler.objects ref request
        numObjects := ref + 1 }
    let scheduler := scheduler.enqueueWaitingRequest ref
    .ok { scheduler with requests := scheduler.requests.set request.requestId ref }

/-- Preempt all running requests, the last one first. -/
def preemptAll : (fuel : Nat) -> Scheduler H -> Except SchedulerError (Scheduler H)
  | 0, scheduler => .ok scheduler
  | fuel + 1, scheduler =>
    match scheduler.running.getLast? with
    | none => .ok scheduler
    | some ref =>
      andThen ({ scheduler with running := scheduler.running.dropLast }.preemptRequest ref)
        (fun scheduler =>
          preemptAll fuel (scheduler.modify ref (fun request =>
            { request with numOutputPlaceholders := 0, discardLatestAsyncTokens := true })))

/-- Reset the prefix cache.  The result says whether it was reset.

A forced reset that fails raises, after the running requests were preempted.
The engine answers the call with the exception and goes on with the preempted
requests; the runs of the model end there. -/
def resetPrefixCache (resetRunningRequests : Bool) :
    Except SchedulerError (Bool × Scheduler H) :=
  andThen
    (if resetRunningRequests then
      andThen (preemptAll scheduler.running.length scheduler) (fun scheduler =>
        .ok { scheduler with prevStepScheduledReqIds := [] })
    else
      .ok scheduler)
    (fun scheduler =>
      let result := scheduler.kvCacheManager.resetPrefixCache
      if resetRunningRequests /\ result.1 = false then .error .resetFailed
      else .ok (result.1, { scheduler with kvCacheManager := result.2 }))

def resetEncoderCache : Scheduler H :=
  { scheduler with encoderCacheManager := scheduler.encoderCacheManager.reset }

def setPauseState (pauseState : PauseState) : Scheduler H :=
  { scheduler with pauseState := pauseState }

end Scheduler

end Vllm.Sched
