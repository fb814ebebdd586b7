import Vllm.Sched.Finish

namespace Vllm.Sched

open Foundation
open KVCache (RequestId BlockId)

/-!
# Processing the output of a step

The output of a step arrives after later steps may have been scheduled.  For
each request of the step, rejected draft tokens are taken back from the
counters, the sampled tokens are appended, and a request that stops is
finished or waits for its next input.  Queues are cleaned up after all
requests were visited.

The number of draft tokens of a request is the length that its list in the
scheduled output has now.
-/

/-- What the workers report about transfers of blocks. -/
structure KVConnectorOutput where
  invalidBlockIds : List BlockId
  finishedRecving : List RequestId
  finishedSending : List RequestId

/-- What the workers return for a step, and the answers of the grammars. -/
structure ModelRunnerOutput where
  sampledTokenIds : RequestId -> List Token
  poolerOutput : RequestId -> Bool
  grammarRejects : RequestId -> Bool
  kvConnectorOutput : Option KVConnectorOutput

/-- What is reported for a request after a step. -/
structure EngineCoreOutput where
  requestId : RequestId
  newTokenIds : List Token
  finishReason : Option FinishReason
  stopReason : Option StopReason
  deriving DecidableEq

/-- The local variables of the loop over the blocks of a request. -/
structure BlockScan where
  isAffected : Bool
  truncatedTo : Option Nat
  markedInvalidBlockIds : List BlockId

/-- Visit the computed blocks of a request from position `idx` on.  The first
failed block that no earlier request marked truncates the computed tokens.  A
block that is marked already is shared with an earlier request, which computes
it again. -/
def scanBlocks (invalidBlockIds : List BlockId) : (idx : Nat) -> List BlockId -> BlockScan ->
    BlockScan
  | _, [], scan => scan
  | idx, block :: blocks, scan =>
    if block ∉ invalidBlockIds then scanBlocks invalidBlockIds (idx + 1) blocks scan
    else if block ∈ scan.markedInvalidBlockIds then
      scanBlocks invalidBlockIds (idx + 1) blocks { scan with isAffected := true }
    else
      scanBlocks invalidBlockIds (idx + 1) blocks
        { isAffected := true
          truncatedTo := some (scan.truncatedTo.getD idx)
          markedInvalidBlockIds := block :: scan.markedInvalidBlockIds }

/-- The results of the scan over requests. -/
structure InvalidScan (H : Type) where
  scheduler : Scheduler H
  affectedReqIds : List RequestId
  blocksToEvict : List BlockId
  markedInvalidBlockIds : List BlockId

namespace Scheduler

variable {H : Type} (scheduler : Scheduler H)

/-- Python's `(tokens + size - 1) // size`, as a number of blocks to visit. -/
def numComputedBlocks (numComputedTokens : Int) (blockSize : Nat) : Nat :=
  ((numComputedTokens + blockSize - 1) / blockSize).toNat

/-- Find the failed blocks of one request and take its computed tokens back. -/
def updateRequestWithInvalidBlocks (invalidBlockIds : List BlockId)
    (numScheduledTokens : Dict RequestId Int) (evictBlocks : Bool) (ref : Ref)
    (scan : InvalidScan H) : Except SchedulerError (InvalidScan H) :=
  let scheduler := scan.scheduler
  let request := scheduler.objects ref
  match scheduler.getBlockIds request.requestId with
  | [reqBlockIds] =>
    let reqNumComputedTokens :=
      request.numComputedTokens - (numScheduledTokens.get? request.requestId).getD 0
    let blocks :=
      reqBlockIds.take (numComputedBlocks reqNumComputedTokens scheduler.config.blockSize)
    let found := scanBlocks invalidBlockIds 0 blocks ⟨false, none, scan.markedInvalidBlockIds⟩
    let numComputedTokens : Int :=
      match found.truncatedTo with
      | some idx => (idx * scheduler.config.blockSize : Nat)
      | none => if found.isAffected then reqNumComputedTokens else request.numComputedTokens
    .ok
      { scheduler := scheduler.modify ref (fun request =>
          { request with numComputedTokens := numComputedTokens })
        affectedReqIds :=
          if found.isAffected then scan.affectedReqIds ++ [request.requestId]
          else scan.affectedReqIds
        blocksToEvict :=
          match evictBlocks, found.truncatedTo with
          | true, some idx => scan.blocksToEvict ++ reqBlockIds.drop idx
          | _, _ => scan.blocksToEvict
        markedInvalidBlockIds := found.markedInvalidBlockIds }
  | _ => .error .notOneGroup

/-- Take back the tokens whose blocks could not be loaded. -/
def updateRequestsWithInvalidBlocks (invalidBlockIds : List BlockId)
    (numScheduledTokens : Dict RequestId Int) (evictBlocks : Bool) : List Ref -> InvalidScan H ->
    Except SchedulerError (InvalidScan H)
  | [], scan => .ok scan
  | ref :: refs, scan =>
    andThen (updateRequestWithInvalidBlocks invalidBlockIds numScheduledTokens evictBlocks ref scan)
      (fun scan =>
        updateRequestsWithInvalidBlocks invalidBlockIds numScheduledTokens evictBlocks refs scan)

def iterate (queue : List Ref) : List Ref :=
  match scheduler.config.policy with
  | .fcfs => queue
  | .priority => Heap.drain (requestLt scheduler.objects) queue.length queue

/-- The requests that wait for a load. -/
def asyncLoadReqs : List Ref :=
  (scheduler.iterate scheduler.skippedWaiting).filter (fun ref =>
    (scheduler.objects ref).status = .waitingForRemoteKvs)

variable [DecidableEq H]

/-- Handle failed loads.  The result are the requests whose output is skipped. -/
def handleInvalidBlocks (invalidBlockIds : List BlockId)
    (numScheduledTokens : Dict RequestId Int) :
    Except SchedulerError (List RequestId × Scheduler H) :=
  andThen (updateRequestsWithInvalidBlocks invalidBlockIds numScheduledTokens false
    scheduler.asyncLoadReqs ⟨scheduler, [], [], []⟩) (fun async =>
    andThen (updateRequestsWithInvalidBlocks invalidBlockIds numScheduledTokens true
      async.scheduler.running ⟨async.scheduler, [], [], []⟩) (fun sync =>
      if async.affectedReqIds = [] /\ sync.affectedReqIds = [] then .ok ([], sync.scheduler)
      else if sync.scheduler.config.recomputeKvLoadFailures then
        .ok (sync.affectedReqIds,
          { sync.scheduler with
            failedRecvingKvReqIds :=
              sync.scheduler.failedRecvingKvReqIds ++ async.affectedReqIds })
      else
        andThen
          (if sync.blocksToEvict = [] then .ok sync.scheduler
          else
            andThen (fromKv (sync.scheduler.kvCacheManager.evictBlocks sync.blocksToEvict.dedup))
              (fun manager => .ok { sync.scheduler with kvCacheManager := manager }))
          (fun scheduler => .ok (async.affectedReqIds ++ sync.affectedReqIds, scheduler))))

omit [DecidableEq H] in
/-- Append sampled tokens one after the other until the request stops.  The
results are the tokens that were appended and whether it stopped. -/
def appendTokens (blockHasher : Request H -> List H) (params : SamplingParams) (maxModelLen : Nat) :
    List Token -> Request H -> (List Token × Bool) × Request H
  | [], request => (([], false), request)
  | tokenId :: tokenIds, request =>
    let request := request.appendOutputTokenId blockHasher tokenId
    match checkStop params request maxModelLen with
    | some (status, stopReason) =>
      (([tokenId], true), { request with status := status, stopReason := stopReason })
    | none =>
      let result := appendTokens blockHasher params maxModelLen tokenIds request
      ((tokenId :: result.1.1, result.1.2), result.2)

variable (ref : Ref) (newTokenIds : List Token)

omit [DecidableEq H] in
/-- Append sampled tokens up to the first one that stops the request. -/
def baseUpdateRequestWithOutput : Except SchedulerError ((List Token × Bool) × Scheduler H) :=
  match (scheduler.objects ref).params with
  | .pooling => .error .tokensForPooling
  | .sampling params =>
    let result := appendTokens scheduler.config.blockHasher params scheduler.config.maxModelLen
      newTokenIds (scheduler.objects ref)
    .ok (result.1, scheduler.modify ref (fun _ => result.2))

/-- The asynchronous scheduler may have to discard the tokens, counts
placeholders and caches the new tokens. -/
def updateRequestWithOutput : Except SchedulerError ((List Token × Bool) × Scheduler H) :=
  let request := scheduler.objects ref
  if scheduler.config.asyncScheduling = false then
    scheduler.baseUpdateRequestWithOutput ref newTokenIds
  else if request.discardLatestAsyncTokens then
    .ok (([], false), scheduler.modify ref (fun request =>
      { request with discardLatestAsyncTokens := false }))
  else
    andThen (scheduler.baseUpdateRequestWithOutput ref newTokenIds) (fun result =>
      let scheduler := result.2.modify ref (fun request =>
        { request with
          numOutputPlaceholders := request.numOutputPlaceholders - result.1.1.length })
      let updated := scheduler.objects ref
      andThen (require (0 <= updated.numOutputPlaceholders) .negativePlaceholders) (fun _ =>
        if request.status = .running then
          andThen (scheduler.kvCacheBlocks updated
            (updated.numComputedTokens - updated.numOutputPlaceholders)) (fun scheduler =>
            .ok (result.1, scheduler))
        else
          .ok (result.1, scheduler)))

omit [DecidableEq H] in
/-- Drafts that were rejected do not count as computed. -/
def takeBackRejected (numRejected : Int) (request : Request H) : Request H :=
  { request with
    numComputedTokens :=
      if 0 < request.numComputedTokens then request.numComputedTokens - numRejected
      else request.numComputedTokens
    numOutputPlaceholders :=
      if 0 < request.numOutputPlaceholders then request.numOutputPlaceholders - numRejected
      else request.numOutputPlaceholders }

omit [DecidableEq H] in
def freeEncoderInputs : Scheduler H :=
  let request := scheduler.objects ref
  let covered := (scheduler.encoderCacheManager.getCachedInputIds request).filter (fun inputId =>
    match request.mmFeatures[inputId]? with
    | none => false
    | some feature =>
      (scheduler.config.isEncoderDecoder /\ 0 < request.numComputedTokens) \/
        (feature.mmPosition.offset + feature.mmPosition.length : Int) <= request.numComputedTokens)
  { scheduler with
    encoderCacheManager := covered.foldl
      (fun cache inputId => cache.freeEncoderInput request inputId)
      scheduler.encoderCacheManager }

/-- The local variables of `update_from_output`. -/
structure UpdatePass (H : Type) where
  scheduler : Scheduler H
  stoppedRunningReqs : List Ref
  stoppedPreemptedReqs : List Ref
  stepDraftTokens : Nat
  stepAcceptedTokens : Nat
  outputs : List EngineCoreOutput

namespace UpdatePass

omit [DecidableEq H] in
/-- Count the draft tokens of a request, and take back those that were
rejected. -/
def observeDrafts (output : SchedulerOutput) (requestId : RequestId) (ref : Ref)
    (generatedTokenIds : List Token) (pass : UpdatePass H) : UpdatePass H :=
  let draftTokens :=
    match output.scheduledSpecDecodeTokens.get? requestId with
    | none => []
    | some specTokenIds => pass.scheduler.readSpec specTokenIds
  if draftTokens = [] \/ generatedTokenIds = [] then pass
  else
    let numAccepted := generatedTokenIds.length - 1
    let effectiveDraftTokens :=
      draftTokens.length - (output.numInvalidSpecTokens.get? requestId).getD 0
    { pass with
      stepDraftTokens := pass.stepDraftTokens + effectiveDraftTokens
      stepAcceptedTokens := pass.stepAcceptedTokens + min numAccepted effectiveDraftTokens
      scheduler := pass.scheduler.modify ref
        (takeBackRejected ((draftTokens.length : Int) - numAccepted)) }

variable (modelOutput : ModelRunnerOutput) (requestId : RequestId)

/-- Append the sampled tokens, or note that a pooling request is done.  The
results are the new tokens and whether the request stopped. -/
def takeTokens (ref : Ref)
    (scheduler : Scheduler H) : Except SchedulerError ((List Token × Bool) × Scheduler H) :=
  let newTokenIds := modelOutput.sampledTokenIds requestId
  if newTokenIds ≠ [] then scheduler.updateRequestWithOutput ref newTokenIds
  else if (scheduler.objects ref).params = .pooling /\ modelOutput.poolerOutput requestId then
    .ok (([], true), scheduler.modify ref (fun request =>
      { request with status := .finishedStopped }))
  else
    .ok (([], false), scheduler)

omit [DecidableEq H] in
/-- Terminate a request whose tokens the grammar rejects. -/
def checkGrammar (ref : Ref)
    (taken : (List Token × Bool) × Scheduler H) : (List Token × Bool) × Scheduler H :=
  if taken.1.1 ≠ [] /\ modelOutput.grammarRejects requestId then
    ((taken.1.1, true), taken.2.modify ref (fun request =>
      { request with status := .finishedError, resumable := false }))
  else
    taken

omit [DecidableEq H] in
/-- A stopped request is freed, or continues with its next input if it is a
session. -/
def stopRequest (env : ConnectorEnv) (ref : Ref) (statusBeforeStop : RequestStatus)
    (pass : UpdatePass H) : Except SchedulerError (UpdatePass H) :=
  andThen (pass.scheduler.handleStoppedRequest ref) (fun handled =>
    andThen
      (if handled.1 then handled.2.freeRequest env ref false else .ok handled.2)
      (fun scheduler =>
        if statusBeforeStop = .running then
          .ok
            { pass with
              scheduler := scheduler
              stoppedRunningReqs := pass.stoppedRunningReqs ++ [ref] }
        else
          .ok
            { pass with
              scheduler := scheduler
              stoppedPreemptedReqs := pass.stoppedPreemptedReqs ++ [ref] }))

/-- Process the result of a step for one request. -/
def processRequest (env : ConnectorEnv) (output : SchedulerOutput)
    (modelOutput : ModelRunnerOutput) (requestId : RequestId) (ref : Ref) (pass : UpdatePass H) :
    Except SchedulerError (UpdatePass H) :=
  let pass := observeDrafts output requestId ref (modelOutput.sampledTokenIds requestId) pass
  let pass :=
    if (pass.scheduler.objects ref).hasEncoderInputs then
      { pass with scheduler := pass.scheduler.freeEncoderInputs ref }
    else
      pass
  let statusBeforeStop := (pass.scheduler.objects ref).status
  andThen (takeTokens modelOutput requestId ref pass.scheduler) (fun taken =>
    let taken := checkGrammar modelOutput requestId ref taken
    let newTokenIds := taken.1.1
    let pass := { pass with scheduler := taken.2 }
    if taken.1.2 then
      let finishReason := (pass.scheduler.objects ref).status.getFinishedReason
      andThen (stopRequest env ref statusBeforeStop pass) (fun pass =>
        .ok
          { pass with
            outputs := pass.outputs ++
              [⟨requestId, newTokenIds, finishReason, (pass.scheduler.objects ref).stopReason⟩] })
    else if newTokenIds ≠ [] \/ modelOutput.poolerOutput requestId then
      .ok
        { pass with
          outputs := pass.outputs ++
            [⟨requestId, newTokenIds, none, (pass.scheduler.objects ref).stopReason⟩] }
    else
      .ok pass)

/-- Process the results of all requests of a step. -/
def processAll (env : ConnectorEnv) (output : SchedulerOutput) (modelOutput : ModelRunnerOutput)
    (failedReqIds : List RequestId) : List (RequestId × Int) -> UpdatePass H ->
    Except SchedulerError (UpdatePass H)
  | [], pass => .ok pass
  | (requestId, numTokensScheduled) :: rest, pass =>
    andThen (require (0 < numTokensScheduled) .noScheduledTokens) (fun _ =>
      let skipped := processAll env output modelOutput failedReqIds rest
      if requestId ∈ failedReqIds then skipped pass
      else
        match pass.scheduler.requests.get? requestId with
        | none => skipped pass
        | some ref =>
          if (pass.scheduler.objects ref).isFinished then skipped pass
          else
            andThen (processRequest env output modelOutput requestId ref pass) (fun pass =>
              processAll env output modelOutput failedReqIds rest pass))

variable (pass : UpdatePass H)

omit [DecidableEq H] in
/-- Tell the controller what was accepted in a step. -/
def observeStep : Scheduler H :=
  match pass.scheduler.specTokenController with
  | none => pass.scheduler
  | some controller =>
    let controller := controller.observe pass.stepAcceptedTokens pass.stepDraftTokens
    { pass.scheduler with
      specTokenController := some controller
      activeNumSpecTokens := controller.activeK }

omit [DecidableEq H] in
/-- Remove the stopped requests from the running queue, and those that had been
preempted from the waiting queue. -/
def removeStopped (scheduler : Scheduler H) : Scheduler H :=
  let scheduler :=
    { scheduler with running := removeAll scheduler.running pass.stoppedRunningReqs }
  if pass.stoppedPreemptedReqs = [] then scheduler
  else
    { scheduler with
      waiting := RequestQueue.removeRequests scheduler.config.policy scheduler.objects
        scheduler.waiting pass.stoppedPreemptedReqs }

end UpdatePass

section

omit [DecidableEq H]

def finishRecving : List RequestId -> Scheduler H -> Except SchedulerError (Scheduler H)
  | [], scheduler => .ok scheduler
  | requestId :: rest, scheduler =>
    match scheduler.requests.get? requestId with
    | none => .error (.missingKey requestId)
    | some ref =>
      if (scheduler.objects ref).status = .waitingForRemoteKvs then
        finishRecving rest
          { scheduler with
            finishedRecvingKvReqIds :=
              if requestId ∈ scheduler.finishedRecvingKvReqIds then
                scheduler.finishedRecvingKvReqIds
              else
                scheduler.finishedRecvingKvReqIds ++ [requestId] }
      else
        andThen (scheduler.freeBlocks ref) (fun scheduler => finishRecving rest scheduler)

def finishSending : List RequestId -> Scheduler H -> Except SchedulerError (Scheduler H)
  | [], scheduler => .ok scheduler
  | requestId :: rest, scheduler =>
    match scheduler.requests.get? requestId with
    | none => .error (.missingKey requestId)
    | some ref => andThen (scheduler.freeBlocks ref) (fun scheduler => finishSending rest scheduler)

/-- Note which transfers have finished. -/
def updateFromKvXferFinished (output : KVConnectorOutput) : Except SchedulerError (Scheduler H) :=
  andThen (finishRecving output.finishedRecving scheduler) (fun scheduler =>
    finishSending output.finishedSending scheduler)

end

/-- Process the result of a step. -/
def updateFromOutput (env : ConnectorEnv) (output : SchedulerOutput)
    (modelOutput : ModelRunnerOutput) :
    Except SchedulerError (List EngineCoreOutput × Scheduler H) :=
  let invalidBlockIds :=
    match modelOutput.kvConnectorOutput with
    | none => []
    | some connectorOutput => connectorOutput.invalidBlockIds
  andThen
    (if invalidBlockIds = [] then .ok ([], scheduler)
    else scheduler.handleInvalidBlocks invalidBlockIds output.numScheduledTokens)
    (fun failed =>
      andThen
        (UpdatePass.processAll env output modelOutput failed.1 output.numScheduledTokens.entries
          ⟨failed.2, [], [], 0, 0, []⟩)
        (fun pass =>
          let scheduler := pass.removeStopped pass.observeStep
          andThen
            (if failed.1 ≠ [] /\ scheduler.config.recomputeKvLoadFailures = false then
              scheduler.finishRequests env (some failed.1) .finishedError
            else
              .ok scheduler)
            (fun scheduler =>
              andThen
                (match modelOutput.kvConnectorOutput with
                  | none => .ok scheduler
                  | some connectorOutput => scheduler.updateFromKvXferFinished connectorOutput)
                (fun scheduler => .ok (pass.outputs, scheduler)))))

/-- Draft tokens that the workers propose, and what the grammars leave of them. -/
structure DraftTokenIds where
  draftTokenIds : List (RequestId × List Token)
  validateTokens : RequestId -> List Token -> List Token

omit [DecidableEq H]

variable (drafts : DraftTokenIds)

def updateDraftTokens (requestId : RequestId) (tokenIds : List Token) : Scheduler H :=
  match scheduler.requests.get? requestId with
  | none => scheduler
  | some ref =>
    let request := scheduler.objects ref
    if request.isFinished then scheduler
    else if request.isPrefillChunk then scheduler.clearSpec ref
    else
      let tokenIds := drafts.validateTokens requestId tokenIds
      let tokenIds :=
        if scheduler.specTokenController.isSome then tokenIds.take scheduler.activeNumSpecTokens
        else tokenIds
      scheduler.modify ref (fun request => { request with specTokenIds := .own tokenIds })

/-- Store the drafts that the worker proposes. -/
def updateDraftTokenIds : Scheduler H :=
  drafts.draftTokenIds.foldl
    (fun scheduler entry => scheduler.updateDraftTokens drafts entry.1 entry.2) scheduler

/-- Replace the placeholders of one request in an output by draft tokens, padded
to the same number. -/
def updateDraftTokensInOutput (output : SchedulerOutput)
    (requestId : RequestId) (tokenIds : List Token) : SchedulerOutput :=
  match scheduler.requests.get? requestId with
  | none => output
  | some ref =>
    if (scheduler.objects ref).isFinished then output
    else
      match output.scheduledSpecDecodeTokens.get? requestId with
      | none => output
      | some placeholders =>
        let origNumSpecTokens := (scheduler.readSpec placeholders).length
        if origNumSpecTokens = 0 then output
        else
          let tokenIds := drafts.validateTokens requestId (tokenIds.take origNumSpecTokens)
          let numInvalidTokens := origNumSpecTokens - tokenIds.length
          { output with
            scheduledSpecDecodeTokens := output.scheduledSpecDecodeTokens.set requestId
              (.own (tokenIds ++ List.replicate numInvalidTokens (-1)))
            numInvalidSpecTokens :=
              if numInvalidTokens = 0 then output.numInvalidSpecTokens
              else output.numInvalidSpecTokens.set requestId numInvalidTokens }

/-- Fill in the drafts of a step that is planned already. -/
def updateDraftTokenIdsInOutput (output : SchedulerOutput) : SchedulerOutput :=
  drafts.draftTokenIds.foldl
    (fun output entry => scheduler.updateDraftTokensInOutput drafts output entry.1 entry.2)
    { output with numInvalidSpecTokens := Dict.empty }

end Scheduler

end Vllm.Sched
