import Vllm.Foundation.System
import Vllm.Sched.Update

namespace Vllm.Sched

open Foundation System.Reachable
open KVCache (RequestId KVCacheManager CoordinatorConfig)

/-!
# The engine: a scheduler and the steps in flight

The engine calls the scheduler.  Between `schedule` and the matching
`update_from_output` a step is in flight, and more steps may be scheduled in
the meantime.  Outputs are processed in the order in which their steps were
scheduled.

Every call of the scheduler is a labelled step of one transition system.  The
label carries the arguments and the answers of all other components.  A call that
raises an exception has no step.
-/

/-- The arguments from which a request object is created. -/
structure RequestArgs where
  requestId : RequestId
  promptTokenIds : Option (List Token)
  numPromptEmbeds : Nat
  params : RequestParams
  maxTokens : Nat
  arrivalTime : Int
  priority : Int
  mmFeatures : List MultiModalFeature
  loraIntId : Option Nat
  useStructuredOutput : Bool
  skipReadingPrefixCache : Bool
  resumable : Bool

/-- A new request object.  A prompt of embeddings has zeros as its tokens. -/
def Request.init {H : Type} (blockHasher : Request H -> List H) (args : RequestArgs) : Request H :=
  let allTokenIds := args.promptTokenIds.getD (List.replicate args.numPromptEmbeds 0)
  let request : Request H :=
    { requestId := args.requestId
      priority := args.priority
      arrivalTime := args.arrivalTime
      params := args.params
      loraIntId := args.loraIntId
      useStructuredOutput := args.useStructuredOutput
      status :=
        match args.params with
        | .pooling => .waiting
        | .sampling _ =>
          if args.useStructuredOutput then .waitingForStructuredOutputGrammar else .waiting
      stopReason := none
      maxTokens :=
        match args.params with
        | .pooling => 1
        | .sampling _ => args.maxTokens
      promptTokenIds := args.promptTokenIds
      numPromptTokens := allTokenIds.length
      outputTokenIds := []
      allTokenIds := allTokenIds
      numOutputPlaceholders := 0
      discardLatestAsyncTokens := false
      specTokenIds := .own []
      numComputedTokens := 0
      mmFeatures := args.mmFeatures
      isPrefillChunk := false
      numPreemptions := 0
      blockHashes := []
      skipReadingPrefixCache := args.skipReadingPrefixCache
      resumable := args.resumable
      streamingQueue := none }
  { request with blockHashes := blockHasher request }

/-- A scheduler and its steps in flight, the oldest first. -/
structure Engine (H : Type) where
  scheduler : Scheduler H
  inFlight : List SchedulerOutput

/-- The calls of the engine on its scheduler, in any order.  What the connector,
the worker and the clock contribute is part of the call. -/
inductive EngineOp where
  | addRequest (env : ConnectorEnv) (args : RequestArgs)
  | schedule (env : ScheduleEnv)
  | updateFromOutput (env : ConnectorEnv) (modelOutput : ModelRunnerOutput)
  | finishRequests (env : ConnectorEnv) (requestIds : Option (List RequestId))
      (finishedStatus : RequestStatus)
  | resetPrefixCache (resetRunningRequests : Bool)
  | updateDraftTokenIds (drafts : Scheduler.DraftTokenIds)
  | updateDraftTokenIdsInOutput (drafts : Scheduler.DraftTokenIds)
  | resetEncoderCache
  | setPauseState (pauseState : PauseState)

namespace Engine

variable {H : Type} [DecidableEq H] {ops : List EngineOp} {engine : Engine H}

omit [DecidableEq H] in
/-- Change the step that was planned last. -/
def updateLast (change : SchedulerOutput -> SchedulerOutput) :
    List SchedulerOutput -> List SchedulerOutput
  | [] => []
  | [output] => [change output]
  | output :: rest => output :: updateLast change rest

/-- The engine after a call.  Steps are processed in the order in which they were
planned, and any number of them may be in flight. -/
def next (engine : Engine H) : EngineOp -> Except SchedulerError (Engine H)
  | .addRequest env args =>
    andThen (engine.scheduler.addRequest env
      (Request.init engine.scheduler.config.blockHasher args)) (fun scheduler =>
      .ok { engine with scheduler := scheduler })
  | .schedule env =>
    andThen (engine.scheduler.schedule env) (fun result =>
      .ok ⟨result.2, engine.inFlight ++ [result.1]⟩)
  | .updateFromOutput env modelOutput =>
    match engine.inFlight with
    | [] => .error .emptyQueue
    | output :: rest =>
      andThen (engine.scheduler.updateFromOutput env output modelOutput) (fun result =>
        .ok ⟨result.2, rest⟩)
  | .finishRequests env requestIds finishedStatus =>
    andThen (engine.scheduler.finishRequests env requestIds finishedStatus) (fun scheduler =>
      .ok { engine with scheduler := scheduler })
  | .resetPrefixCache resetRunningRequests =>
    andThen (engine.scheduler.resetPrefixCache resetRunningRequests) (fun result =>
      .ok { engine with scheduler := result.2 })
  | .updateDraftTokenIds drafts =>
    .ok { engine with scheduler := engine.scheduler.updateDraftTokenIds drafts }
  | .updateDraftTokenIdsInOutput drafts =>
    .ok
      { engine with
        inFlight := updateLast (engine.scheduler.updateDraftTokenIdsInOutput drafts)
          engine.inFlight }
  | .resetEncoderCache => .ok { engine with scheduler := engine.scheduler.resetEncoderCache }
  | .setPauseState pauseState =>
    .ok { engine with scheduler := engine.scheduler.setPauseState pauseState }

/-- The configuration that an engine starts with. -/
structure Setup (H : Type) where
  config : SchedulerConfig H
  kvCacheConfig : CoordinatorConfig
  numBlocks : Nat
  maxNumBatchedTokens : Nat

variable (setup : Setup H)

omit [DecidableEq H] in
/-- A new engine, if the cache manager can be created. -/
def start : Except SchedulerError (Engine H) :=
  andThen (fromKv (KVCacheManager.init setup.kvCacheConfig setup.numBlocks
    setup.maxNumBatchedTokens setup.config.maxModelLen)) (fun manager =>
    .ok ⟨Scheduler.init setup.config manager, []⟩)

/-- All runs of the engine. -/
def system : System (Engine H) EngineOp where
  initial engine := start setup = .ok engine
  step engine op after := engine.next op = .ok after

/-- Follow a list of calls from a new engine. -/
def runFrom (ops : List EngineOp) : Option (Engine H) :=
  match start setup with
  | .error _ => none
  | .ok engine =>
    System.run (fun engine op =>
      match engine.next op with
      | .error _ => none
      | .ok after => some after) ops engine

theorem reachable_runFrom {setup : Setup H} (ran : runFrom setup ops = some engine) :
    (system setup).Reachable engine := by
  rw [runFrom] at ran
  split at ran
  · cases ran
  case h_2 first started =>
    refine run ?_ (System.Reachable.start started) ran
    intro state op after computed
    split at computed
    · cases computed
    case h_2 stepped =>
      cases computed
      exact stepped

/-- Follow a list of calls from a new engine as long as they meet a
condition. -/
def runWhere (guard : Engine H -> EngineOp -> Prop) [∀ engine op, Decidable (guard engine op)]
    (setup : Setup H) (ops : List EngineOp) : Option (Engine H) :=
  match start setup with
  | .error _ => none
  | .ok engine =>
    System.run (fun engine op =>
      if guard engine op then
        match engine.next op with
        | .error _ => none
        | .ok after => some after
      else
        none) ops engine

/-- What a list of calls that meet a condition computes is reachable by such
calls. -/
theorem reachable_runWhere {guard : Engine H -> EngineOp -> Prop}
    [∀ engine op, Decidable (guard engine op)] {setup : Setup H}
    (ran : runWhere guard setup ops = some engine) :
    ((system setup).restrict guard).Reachable engine := by
  rw [runWhere] at ran
  split at ran
  · cases ran
  case h_2 first started =>
    refine run ?_ (System.Reachable.start started) ran
    intro state op after computed
    split at computed
    case isTrue meets =>
      split at computed
      · cases computed
      case h_2 stepped =>
        cases computed
        exact ⟨meets, stepped⟩
    · cases computed

end Engine

/-- One group of full attention with blocks of two tokens, asynchronous
scheduling and neither drafts nor encoder inputs nor a connector. -/
def smallConfig : SchedulerConfig Nat :=
  { policy := .fcfs, asyncScheduling := true, maxNumRunningReqs := 4, maxNumScheduledTokens := 16
    maxModelLen := 16, longPrefillTokenThreshold := 0, enableChunkedPrefill := true
    disableChunkedMmInput := false, schedulerReserveFullIsl := true, useV2ModelRunner := false
    isEncoderDecoder := false, maxNumEncoderInputTokens := 0, encoderCacheSize := 0, maxLoras := none
    useEagle := false, numSpecTokens := none, numLookaheadTokens := 0
    needMambaBlockAlignedSplit := false, cacheBlockSize := 2, blockSize := 2, hasConnector := false
    connectorSupportsHma := false, hasEcConnector := false, recomputeKvLoadFailures := true
    blockHasher := fun _ => [] }

/-- The small engine with a pool of some size. -/
def smallSetup (numBlocks : Nat) : Engine.Setup Nat :=
  ⟨smallConfig, .noPrefixCache [⟨⟨2, Nat.two_pos, .fullAttention, 0⟩, false⟩] 2, numBlocks, 16⟩

def smallRequest (requestId : RequestId) (promptTokenIds : List Token) (resumable : Bool) :
    RequestArgs :=
  { requestId := requestId, promptTokenIds := some promptTokenIds, numPromptEmbeds := 0
    params := .sampling ⟨0, some 9, [], none⟩, maxTokens := 10, arrivalTime := 0, priority := 0
    mmFeatures := [], loraIntId := none, useStructuredOutput := false
    skipReadingPrefixCache := false, resumable := resumable }

/-- No component has anything to say. -/
def quietSchedule : ScheduleEnv := ⟨fun _ _ => (some 0, false), fun _ => true, fun _ => false⟩

def quietConnector : ConnectorEnv := ⟨fun _ => false⟩

/-- The workers return these tokens. -/
def sampled (tokenIds : List (RequestId × List Token)) : ModelRunnerOutput :=
  ⟨fun requestId => (tokenIds.lookup requestId).getD [], fun _ => false, fun _ => false, none⟩

end Vllm.Sched
