import Vllm.Sched.Scheduler

namespace Vllm.Sched

open Foundation
open KVCache (RequestId BlockId)

/-!
# Scheduling a step

`schedule` first visits the running requests and then the waiting ones.  A
running request that gets no blocks preempts others, at last itself.  Waiting
requests are visited only if nothing was preempted; those that cannot be
scheduled yet are set aside and go to the front of the skipped queue at the
end.

The local variables of the method are collected in a pass.  The answers of the
connector, of the grammar compiler and of the encoder cache are parameters.
-/

/-- The answers of other components during a pass. -/
structure ScheduleEnv where
  getNumNewMatchedTokens : Ref -> Nat -> Option Nat × Bool
  grammarReady : Ref -> Bool
  hasCacheItem : String -> Bool

/-- What the worker is told about a request that it does not know. -/
structure NewRequestData where
  reqId : RequestId
  promptTokenIds : Option (List Token)
  blockIds : List (List BlockId)
  numComputedTokens : Int
  prefillTokenIds : Option (List Token)
  deriving DecidableEq

/-- What the worker is told about a request that it knows. -/
structure CachedRequestData where
  reqId : RequestId
  resumed : Bool
  newBlockIds : List (List BlockId)
  allTokenIds : Option (List Token)
  numComputedTokens : Int
  numOutputTokens : Int
  deriving DecidableEq

/-- The plan of a step.  The drafts of a request may be the shared list, which can
change while the step is in flight. -/
structure SchedulerOutput where
  scheduledNewReqs : List NewRequestData
  scheduledCachedReqs : List CachedRequestData
  numScheduledTokens : Dict RequestId Int
  scheduledSpecDecodeTokens : Dict RequestId SpecTokenIds
  activeNumSpecTokens : Nat
  scheduledEncoderInputs : Dict RequestId (List Nat)
  preemptedReqIds : List RequestId
  finishedReqIds : List RequestId
  freeEncoderMmHashes : List String
  numInvalidSpecTokens : Dict RequestId Nat

/-- The local variables of `schedule`. -/
structure SchedulePass (H : Type) where
  scheduler : Scheduler H
  scheduledNewReqs : List Ref
  scheduledResumedReqs : List Ref
  scheduledRunningReqs : List Ref
  preemptedReqs : List Ref
  reqToNewBlocks : Dict RequestId (List (List BlockId))
  numScheduledTokens : Dict RequestId Int
  tokenBudget : Int
  scheduledEncoderInputs : Dict RequestId (List Nat)
  encoderComputeBudget : Int
  scheduledSpecDecodeTokens : Dict RequestId SpecTokenIds
  reqIndex : Nat
  scheduledLoras : List Nat
  stepSkippedWaiting : List Ref

/-- Let prefill chunks end at block boundaries, so that states can be cached. -/
def mambaBlockAlignedSplit {H : Type} (config : SchedulerConfig H) (request : Request H)
    (numNewTokens : Int) (numNewLocalComputedTokens numExternalComputedTokens : Nat) :
    Except SchedulerError Int :=
  andThen (require (numExternalComputedTokens = 0) .externalTokensWithSplit) (fun _ =>
    let numComputedTokens : Int :=
      request.numComputedTokens + numNewLocalComputedTokens + numExternalComputedTokens
    if numComputedTokens < max (request.numPromptTokens : Int) (request.numTokens - 1) then
      let blockSize := config.cacheBlockSize
      let lastCachePosition : Int := request.numTokens - request.numTokens % blockSize
      let lastCachePosition :=
        if config.useEagle then max (lastCachePosition - blockSize) 0 else lastCachePosition
      let numComputedTokensAfterSched := numComputedTokens + numNewTokens
      if numComputedTokensAfterSched < lastCachePosition then
        .ok (numNewTokens / blockSize * blockSize)
      else if numComputedTokens < lastCachePosition /\
          lastCachePosition < numComputedTokensAfterSched then
        .ok (lastCachePosition - numComputedTokens)
      else
        .ok numNewTokens
    else
      .ok numNewTokens)

/-- The encoder inputs that a step computes or loads, and the limits that remain. -/
structure EncoderPlan where
  encoderInputsToSchedule : List Nat
  numNewTokens : Int
  encoderComputeBudget : Int
  externalLoadEncoderInput : List Nat

/-- The local variables of the loop over the items of a request. -/
structure EncoderScan where
  cache : EncoderCache
  plan : EncoderPlan
  mmHashesToSchedule : List String
  numEmbedsToSchedule : Int

section Encoder

variable {H : Type} (config : SchedulerConfig H) (env : ScheduleEnv) (request : Request H)
  (numComputedTokens shiftComputedTokens : Int)

variable (inputId : Nat) (feature : MultiModalFeature)

/-- Whether an item is needed in this step. -/
def needsEmbeddings (numNewTokens : Int) : Bool :=
  let startPos : Int := feature.mmPosition.offset
  let startIdxRel := max 0 (numComputedTokens - startPos)
  let endIdxRel :=
    min (feature.mmPosition.length : Int) (numComputedTokens + numNewTokens - startPos)
  let range := feature.mmPosition.getEmbedsIndicesInRange startIdxRel.toNat endIdxRel.toNat
  range.2 ≠ range.1

variable (scan : EncoderScan)

/-- Take an item for which there is room into the plan. -/
def planEncoderInput : EncoderScan :=
  let numEncoderEmbeds : Int := feature.mmPosition.getNumEmbeds
  if config.hasEcConnector /\ env.hasCacheItem feature.identifier then
    { scan with
      mmHashesToSchedule := feature.identifier :: scan.mmHashesToSchedule
      numEmbedsToSchedule := scan.numEmbedsToSchedule + numEncoderEmbeds
      plan :=
        { scan.plan with
          externalLoadEncoderInput := scan.plan.externalLoadEncoderInput ++ [inputId] } }
  else
    { scan with
      mmHashesToSchedule := feature.identifier :: scan.mmHashesToSchedule
      numEmbedsToSchedule := scan.numEmbedsToSchedule + numEncoderEmbeds
      plan :=
        { scan.plan with
          encoderComputeBudget := scan.plan.encoderComputeBudget - numEncoderEmbeds
          encoderInputsToSchedule := scan.plan.encoderInputsToSchedule ++ [inputId] } }

/-- Replace the number of new tokens of a plan. -/
def EncoderScan.limit (numNewTokens : Int) : EncoderScan :=
  { scan with plan := { scan.plan with numNewTokens := numNewTokens } }

/-- Find room for an item.  The result says whether the loop goes on.  An item
that may not be split and does not fit ends the step before it. -/
def placeEncoderInput : Except SchedulerError (Bool × EncoderScan) :=
  let startPos : Int := feature.mmPosition.offset
  let numEncoderTokens : Int := feature.mmPosition.length
  if config.disableChunkedMmInput /\ numComputedTokens < startPos /\
      numComputedTokens + scan.plan.numNewTokens < startPos + numEncoderTokens then
    .ok (false, scan.limit (max 0 (startPos - (numComputedTokens + shiftComputedTokens))))
  else
    andThen (fromEncoder (scan.cache.canAllocate request inputId scan.plan.encoderComputeBudget
      scan.numEmbedsToSchedule)) (fun result =>
      let scan := { scan with cache := result.2 }
      if result.1 = false then
        if numComputedTokens + shiftComputedTokens < startPos then
          .ok (false, scan.limit (startPos - (numComputedTokens + shiftComputedTokens)))
        else
          .ok (false, scan.limit 0)
      else if needsEmbeddings numComputedTokens feature scan.plan.numNewTokens then
        .ok (true, planEncoderInput config env inputId feature scan)
      else
        .ok (true, scan))

/-- Visit one item.  The result says whether the loop goes on. -/
def visitEncoderInput : Except SchedulerError (Bool × EncoderScan) :=
  let startPos : Int := feature.mmPosition.offset
  if numComputedTokens + scan.plan.numNewTokens + shiftComputedTokens <= startPos then
    .ok (false, scan)
  else if config.isEncoderDecoder /\ 0 < numComputedTokens then
    andThen (require (startPos = 0) .encoderInputNotAtStart) (fun _ => .ok (true, scan))
  else if startPos + feature.mmPosition.length <= numComputedTokens then
    .ok (true, scan)
  else if config.isEncoderDecoder then
    placeEncoderInput config env request numComputedTokens shiftComputedTokens inputId feature scan
  else if feature.identifier ∈ scan.mmHashesToSchedule then
    .ok (true, scan)
  else
    andThen (fromEncoder (scan.cache.checkAndUpdateCache request inputId)) (fun result =>
      let scan := { scan with cache := result.2 }
      if result.1 then .ok (true, scan)
      else
        placeEncoderInput config env request numComputedTokens shiftComputedTokens inputId feature
          scan)

/-- Go through the items of a request and plan which of them to encode. -/
def scanEncoderInputs : (inputId : Nat) -> List MultiModalFeature -> EncoderScan ->
    Except SchedulerError EncoderScan
  | _, [], scan => .ok scan
  | inputId, feature :: features, scan =>
    andThen (visitEncoderInput config env request numComputedTokens shiftComputedTokens inputId
      feature scan) (fun result =>
      if result.1 then scanEncoderInputs (inputId + 1) features result.2 else .ok result.2)

/-- Decide which encoder inputs the step computes, and cut the tokens of the
step before an input that has no room. -/
def tryScheduleEncoderInputs (cache : EncoderCache) (numNewTokens encoderComputeBudget : Int) :
    Except SchedulerError (EncoderPlan × EncoderCache) :=
  let plan : EncoderPlan := ⟨[], numNewTokens, encoderComputeBudget, []⟩
  if numNewTokens = 0 \/ request.hasEncoderInputs = false then .ok (plan, cache)
  else
    andThen (scanEncoderInputs config env request numComputedTokens shiftComputedTokens 0
      request.mmFeatures ⟨cache, plan, [], 0⟩) (fun scan => .ok (scan.plan, scan.cache))

end Encoder

namespace SchedulePass

variable {H : Type}

/-- A pass before anything is scheduled. -/
def start (scheduler : Scheduler H) : SchedulePass H where
  scheduler := { scheduler with kvCacheManager := scheduler.kvCacheManager.newStepStarts }
  scheduledNewReqs := []
  scheduledResumedReqs := []
  scheduledRunningReqs := []
  preemptedReqs := []
  reqToNewBlocks := Dict.empty
  numScheduledTokens := Dict.empty
  tokenBudget := if scheduler.pauseState = .pausedAll then 0 else scheduler.config.maxNumScheduledTokens
  scheduledEncoderInputs := Dict.empty
  encoderComputeBudget := scheduler.config.maxNumEncoderInputTokens
  scheduledSpecDecodeTokens := Dict.empty
  reqIndex := 0
  scheduledLoras := []
  stepSkippedWaiting := []

variable (pass : SchedulePass H)

/-- The object behind a reference. -/
def request (ref : Ref) : Request H := pass.scheduler.objects ref

def withScheduler (scheduler : Scheduler H) : SchedulePass H := { pass with scheduler := scheduler }

/-- Plan the encoder inputs of a request, which may lower its number of new
tokens. -/
def planEncoder (env : ScheduleEnv) (request : Request H) (numComputedTokens numNewTokens : Int) :
    Except SchedulerError (EncoderPlan × SchedulePass H) :=
  if request.hasEncoderInputs then
    andThen (tryScheduleEncoderInputs pass.scheduler.config env request numComputedTokens
      (if pass.scheduler.config.useEagle then 1 else 0) pass.scheduler.encoderCacheManager
      numNewTokens pass.encoderComputeBudget) (fun result =>
      .ok (result.1,
        pass.withScheduler { pass.scheduler with encoderCacheManager := result.2 }))
  else
    .ok (⟨[], numNewTokens, pass.encoderComputeBudget, []⟩, pass)

def allocateEncoder (request : Request H) : List Nat -> SchedulePass H ->
    Except SchedulerError (SchedulePass H)
  | [], pass => .ok pass
  | inputId :: inputIds, pass =>
    andThen (fromEncoder (pass.scheduler.encoderCacheManager.allocate request inputId))
      (fun cache =>
        allocateEncoder request inputIds
          (pass.withScheduler { pass.scheduler with encoderCacheManager := cache }))

/-- Reserve what was planned. -/
def commitEncoder (request : Request H) (plan : EncoderPlan) :
    Except SchedulerError (SchedulePass H) :=
  andThen
    (if plan.encoderInputsToSchedule = [] then .ok pass
      else
        andThen
          (allocateEncoder request plan.encoderInputsToSchedule
            { pass with
              scheduledEncoderInputs := pass.scheduledEncoderInputs.set request.requestId
                plan.encoderInputsToSchedule })
          (fun pass => .ok { pass with encoderComputeBudget := plan.encoderComputeBudget }))
    (fun pass => allocateEncoder request plan.externalLoadEncoderInput pass)

/-- The first running request with the greatest priority value and arrival
time. -/
def lowestPriority (objects : Objects H) : List Ref -> Option Ref
  | [] => none
  | first :: rest =>
    some (rest.foldl (fun best ref =>
      let left := objects best
      let right := objects ref
      if left.priority < right.priority \/
          (left.priority = right.priority /\ left.arrivalTime < right.arrivalTime) then ref
      else best) first)

/-- Take a request out of the step if it was scheduled in it. -/
def unschedule (ref : Ref) : Except SchedulerError (SchedulePass H) :=
  if ref ∈ pass.scheduledRunningReqs then
    let request := pass.request ref
    match pass.numScheduledTokens.get? request.requestId with
    | none => .error (.missingKey request.requestId)
    | some numTokens =>
      let encoderInputs := (pass.scheduledEncoderInputs.get? request.requestId).getD []
      let numEmbedsToRestore : Int :=
        ((encoderInputs.map (fun inputId => request.getNumEncoderEmbeds inputId)).sum : Nat)
      .ok
        { pass with
          scheduledRunningReqs := pass.scheduledRunningReqs.erase ref
          tokenBudget := pass.tokenBudget + numTokens
          numScheduledTokens := pass.numScheduledTokens.erase request.requestId
          reqToNewBlocks := pass.reqToNewBlocks.erase request.requestId
          scheduledSpecDecodeTokens := pass.scheduledSpecDecodeTokens.erase request.requestId
          scheduledEncoderInputs := pass.scheduledEncoderInputs.erase request.requestId
          encoderComputeBudget := pass.encoderComputeBudget + numEmbedsToRestore
          reqIndex := pass.reqIndex - 1 }
  else
    .ok pass

/-- Choose the request to preempt and take it out of the running queue. -/
def takeVictim : Except SchedulerError (Ref × SchedulePass H) :=
  match pass.scheduler.config.policy with
  | .priority =>
    match lowestPriority pass.scheduler.objects pass.scheduler.running with
    | none => .error .noRunningRequest
    | some ref =>
      andThen
        ((pass.withScheduler
          { pass.scheduler with running := pass.scheduler.running.erase ref }).unschedule ref)
        (fun pass => .ok (ref, pass))
  | .fcfs =>
    match pass.scheduler.running.getLast? with
    | none => .error .noRunningRequest
    | some ref =>
      .ok (ref, pass.withScheduler
        { pass.scheduler with running := pass.scheduler.running.dropLast })

/-- Preempt a running request, and take it out of the step if it was scheduled. -/
def preemptOne : Except SchedulerError (Ref × SchedulePass H) :=
  andThen pass.takeVictim (fun taken =>
    andThen (taken.2.scheduler.preemptRequest taken.1) (fun scheduler =>
      .ok (taken.1,
        { taken.2 with
          scheduler := scheduler
          preemptedReqs := taken.2.preemptedReqs ++ [taken.1] })))

variable [DecidableEq H]

omit [DecidableEq H] in
/-- The arguments with which slots of a running request are allocated. -/
def slotArgsRunning (numNewTokens : Int) : Scheduler.SlotArgs :=
  { numNewTokens := numNewTokens
    numNewComputedTokens := 0
    newComputedBlocks := pass.scheduler.emptyKvCacheBlocks
    numLookaheadTokens := pass.scheduler.config.numLookaheadTokens
    numExternalComputedTokens := 0
    delayCacheBlocks := false
    numEncoderTokens := 0 }

/-- Slots for the new tokens of a running request.  As long as there are none,
preempt a request; if it is the request itself, there is no result. -/
def allocateOrPreempt (ref : Ref) (numNewTokens : Int) : (fuel : Nat) -> SchedulePass H ->
    Except SchedulerError (Option (List (List BlockId)) × SchedulePass H)
  | 0, pass => .ok (none, pass)
  | fuel + 1, pass =>
    andThen (pass.scheduler.allocateSlots (pass.request ref) (pass.slotArgsRunning numNewTokens))
      (fun result =>
        match result.1 with
        | some blocks => .ok (some blocks, pass.withScheduler result.2)
        | none =>
          andThen (pass.withScheduler result.2).preemptOne (fun preempted =>
            if preempted.1 = ref then .ok (none, preempted.2)
            else allocateOrPreempt ref numNewTokens fuel preempted.2))

section

omit [DecidableEq H]

variable (ref : Ref)

/-- The number of tokens that a running request still has to compute: its
tokens, its drafts and the tokens that are still on the way, less what is
computed. -/
def numTokensToCompute : Int :=
  let request := pass.request ref
  request.numTokens + (pass.scheduler.specTokenIds ref).length + request.numOutputPlaceholders -
    request.numComputedTokens

/-- The number of tokens that a running request may compute in this step. -/
def numNewTokensRunning : Int :=
  let config := pass.scheduler.config
  let numNewTokens := pass.numTokensToCompute ref
  let numNewTokens :=
    if 0 < config.longPrefillTokenThreshold /\ (config.longPrefillTokenThreshold : Int) < numNewTokens
    then (config.longPrefillTokenThreshold : Int)
    else numNewTokens
  min (min numNewTokens pass.tokenBudget)
    ((config.maxModelLen : Int) - 1 - (pass.request ref).numComputedTokens)

/-- The previous step is sure to reach the last token of the request. -/
def reachedMaxTokens (request : Request H) : Bool :=
  0 < request.numOutputPlaceholders /\
    (request.numPromptTokens + request.maxTokens : Int) <=
      request.numComputedTokens + 2 - request.numOutputPlaceholders

/-- Give the draft tokens of a request to the step, as many as were scheduled. -/
def scheduleSpec (numNewTokens : Int) : SchedulePass H :=
  let request := pass.request ref
  let specTokenIds := pass.scheduler.specTokenIds ref
  if specTokenIds = [] then pass
  else
    let numScheduledSpecTokens :=
      numNewTokens + request.numComputedTokens - request.numTokens - request.numOutputPlaceholders
    let pass :=
      if 0 < numScheduledSpecTokens then
        { pass with
          scheduledSpecDecodeTokens := pass.scheduledSpecDecodeTokens.set request.requestId
            (if numScheduledSpecTokens < specTokenIds.length then
              .own (specTokenIds.take numScheduledSpecTokens.toNat)
            else
              request.specTokenIds) }
      else
        pass
    pass.withScheduler (pass.scheduler.modify ref (fun request =>
      { request with specTokenIds := .own [] }))

/-- Enter a running request into the step. -/
def commitRunning (numNewTokens : Int) (blocks : List (List BlockId))
    (plan : EncoderPlan) : Except SchedulerError (SchedulePass H) :=
  let requestId := (pass.request ref).requestId
  let pass :=
    { pass with
      scheduledRunningReqs := pass.scheduledRunningReqs ++ [ref]
      reqToNewBlocks := pass.reqToNewBlocks.set requestId blocks
      numScheduledTokens := pass.numScheduledTokens.set requestId numNewTokens
      tokenBudget := pass.tokenBudget - numNewTokens
      reqIndex := pass.reqIndex + 1 }
  let pass := pass.scheduleSpec ref numNewTokens
  pass.commitEncoder (pass.request ref) plan

end

/-- Try to schedule one running request.  The result says whether the loop goes
on. -/
def visitRunning (env : ScheduleEnv) (stepActiveK : Nat) (ref : Ref) :
    Except SchedulerError (Bool × SchedulePass H) :=
  let pass := pass.withScheduler (pass.scheduler.truncateSpec ref stepActiveK)
  let request := pass.request ref
  let passed := { pass with reqIndex := pass.reqIndex + 1 }
  if reachedMaxTokens request then .ok (true, passed)
  else
    andThen (pass.planEncoder env request request.numComputedTokens (pass.numNewTokensRunning ref))
      (fun planned =>
        let plan := planned.1
        let pass := planned.2
        andThen
          (if pass.scheduler.config.needMambaBlockAlignedSplit then
            mambaBlockAlignedSplit pass.scheduler.config request plan.numNewTokens 0 0
          else
            .ok plan.numNewTokens)
          (fun numNewTokens =>
            if numNewTokens = 0 then .ok (true, { pass with reqIndex := pass.reqIndex + 1 })
            else
              andThen
                (allocateOrPreempt ref numNewTokens (pass.scheduler.running.length + 1) pass)
                (fun allocated =>
                  match allocated.1 with
                  | none => .ok (false, allocated.2)
                  | some blocks =>
                    andThen (allocated.2.commitRunning ref numNewTokens blocks plan)
                      (fun pass => .ok (true, pass)))))

/-- The loop over the running requests. -/
def scheduleRunning (env : ScheduleEnv) (stepActiveK : Nat) : (fuel : Nat) -> SchedulePass H ->
    Except SchedulerError (SchedulePass H)
  | 0, pass => .ok pass
  | fuel + 1, pass =>
    match pass.scheduler.running[pass.reqIndex]? with
    | none => .ok pass
    | some ref =>
      if 0 < pass.tokenBudget then
        andThen (pass.visitRunning env stepActiveK ref) (fun result =>
          if result.1 then scheduleRunning env stepActiveK fuel result.2 else .ok result.2)
      else
        .ok pass

omit [DecidableEq H] in
/-- Collect the adapters of the requests that are scheduled so far. -/
def recordLoras : Except SchedulerError (SchedulePass H) :=
  match pass.scheduler.config.maxLoras with
  | none => .ok pass
  | some maxLoras =>
    let loras := ((pass.scheduledRunningReqs.filterMap
      (fun ref => (pass.request ref).loraIntId)).filter (fun lora => 0 < lora)).dedup
    andThen (require (loras.length <= maxLoras) .tooManyLoras) (fun _ =>
      .ok { pass with scheduledLoras := loras })

end SchedulePass

end Vllm.Sched
