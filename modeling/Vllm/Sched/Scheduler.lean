import Vllm.KVCache.Manager
import Vllm.Sched.EncoderCache
import Vllm.Sched.Queue
import Vllm.Sched.SpecTokenController

namespace Vllm.Sched

open Foundation
open KVCache (RequestId BlockId KVCacheManager ManagerError SlotDemand)

/-!
# The state of the scheduler

A request object lives on while something refers to it, also after its id was
deleted from the table of requests, so the objects are kept apart from the table.

`Scheduler` and `AsyncScheduler` are one type: the configuration says which of
the two classes it is.  The asynchronous one has a list of placeholders that
every request and every output may refer to.
-/

/-- Whether new requests, or all requests, are kept from running. -/
inductive PauseState where
  | unpaused
  | pausedNew
  | pausedAll
  deriving DecidableEq

/-- The settings of the scheduler, those of other components that it reads, and
the function that hashes the blocks of a request. -/
structure SchedulerConfig (H : Type) where
  policy : SchedulingPolicy
  asyncScheduling : Bool
  maxNumRunningReqs : Nat
  maxNumScheduledTokens : Nat
  maxModelLen : Nat
  longPrefillTokenThreshold : Nat
  enableChunkedPrefill : Bool
  disableChunkedMmInput : Bool
  schedulerReserveFullIsl : Bool
  useV2ModelRunner : Bool
  isEncoderDecoder : Bool
  maxNumEncoderInputTokens : Nat
  encoderCacheSize : Nat
  maxLoras : Option Nat
  useEagle : Bool
  numSpecTokens : Option Nat
  numLookaheadTokens : Nat
  needMambaBlockAlignedSplit : Bool
  cacheBlockSize : Nat
  blockSize : Nat
  hasConnector : Bool
  connectorSupportsHma : Bool
  hasEcConnector : Bool
  recomputeKvLoadFailures : Bool
  blockHasher : Request H -> List H

/-- The state of the scheduler.  The queues and the table hold references to
objects. -/
structure Scheduler (H : Type) where
  config : SchedulerConfig H
  objects : Objects H
  numObjects : Nat
  requests : Dict RequestId Ref
  waiting : List Ref
  skippedWaiting : List Ref
  running : List Ref
  finishedReqIds : List RequestId
  prevStepScheduledReqIds : List RequestId
  numWaitingForStreamingInput : Int
  finishedRecvingKvReqIds : List RequestId
  failedRecvingKvReqIds : List RequestId
  encoderCacheManager : EncoderCache
  kvCacheManager : KVCacheManager H
  specTokenController : Option SpecTokenController
  activeNumSpecTokens : Nat
  specTokenPlaceholders : List Token
  pauseState : PauseState

/-- The exceptions and failed assertions of the scheduler. -/
inductive SchedulerError where
  | kv (error : ManagerError)
  | encoder (error : EncoderCacheError)
  | hashesRepeat (requestId : RequestId)
  | negativeCount (requestId : RequestId)
  | onlyRunningPreempted
  | noRunningRequest
  | missingKey (requestId : RequestId)
  | tooManyLoras
  | tooManyComputedTokens
  | noExternalTokens
  | noNewTokens
  | externalTokensWithSplit
  | invalidStatus (status : RequestStatus)
  | emptyQueue
  | tooManyScheduledTokens
  | negativeTokenBudget
  | tooManyRunningRequests
  | tooManyScheduledRequests
  | resumedInPreviousStep (requestId : RequestId)
  | noScheduledTokens
  | tokensForPooling
  | negativePlaceholders
  | notFinished
  | duplicateRequestId
  | missingPromptTokens
  | streamingQueueNotEmpty
  | unexpectedBlockedStatus (status : RequestStatus) (requestId : RequestId)
  | noConnector
  | encoderInputNotAtStart
  | notOneGroup
  | resetFailed
  deriving DecidableEq

/-- The texts of the exceptions that carry one. -/
def SchedulerError.message : SchedulerError -> Option String
  | .kv error => error.message
  | .onlyRunningPreempted => some "Only running requests can be preempted"
  | .externalTokensWithSplit => some "External KV connector is not verified yet"
  | .duplicateRequestId => some "duplicate request id"
  | .encoderInputNotAtStart =>
    some ("Encoder input should be processed at the beginning of " ++
      "the sequence when encoder-decoder models are used.")
  | .resetFailed =>
    some ("Failed to reset KV cache even when all the running requests are " ++
      "preempted and moved to the waiting queue. This is likely due to " ++
      "the presence of running requests waiting for remote KV transfer, " ++
      "which is not supported yet.")
  | _ => none

def fromKv {A : Type} : Except ManagerError A -> Except SchedulerError A
  | .ok value => .ok value
  | .error error => .error (.kv error)

def fromEncoder {A : Type} : Except EncoderCacheError A -> Except SchedulerError A
  | .ok value => .ok value
  | .error error => .error (.encoder error)

/-- Continue with the result of a call that may raise. -/
def andThen {A B : Type} (first : Except SchedulerError A)
    (next : A -> Except SchedulerError B) : Except SchedulerError B :=
  match first with
  | .error error => .error error
  | .ok value => next value

theorem andThen_eq_ok {A B : Type} {first : Except SchedulerError A}
    {next : A -> Except SchedulerError B} {result : B} (returned : andThen first next = .ok result) :
    ∃ value, first = .ok value /\ next value = .ok result := by
  cases first with
  | error error => cases returned
  | ok value => exact ⟨value, rfl, returned⟩

/-- Raise an exception unless a condition holds. -/
def require (condition : Prop) [Decidable condition] (error : SchedulerError) :
    Except SchedulerError Unit :=
  if condition then .ok () else .error error

theorem require_eq_ok {condition : Prop} [Decidable condition] {error : SchedulerError} {result : Unit}
    (returned : require condition error = .ok result) : condition := by
  rw [require] at returned
  split at returned
  · assumption
  · cases returned

namespace Scheduler

variable {H : Type}

/-- A new scheduler.  Only the asynchronous one has placeholders. -/
def init (config : SchedulerConfig H) (kvCacheManager : KVCacheManager H) : Scheduler H where
  config := config
  objects := fun _ => default
  numObjects := 0
  requests := Dict.empty
  waiting := []
  skippedWaiting := []
  running := []
  finishedReqIds := []
  prevStepScheduledReqIds := []
  numWaitingForStreamingInput := 0
  finishedRecvingKvReqIds := []
  failedRecvingKvReqIds := []
  encoderCacheManager := EncoderCache.init config.isEncoderDecoder config.encoderCacheSize
  kvCacheManager := kvCacheManager
  specTokenController := config.numSpecTokens.map SpecTokenController.init
  activeNumSpecTokens := config.numSpecTokens.getD 0
  specTokenPlaceholders :=
    if config.asyncScheduling then List.replicate (config.numSpecTokens.getD 0) (-1) else []
  pauseState := .unpaused

variable (scheduler : Scheduler H)

variable (requestId : RequestId) (ref : Ref)

/-- Change an object. -/
def modify (change : Request H -> Request H) : Scheduler H :=
  { scheduler with
    objects := Function.update scheduler.objects ref (change (scheduler.objects ref)) }

/-- The draft tokens that a list holds now. -/
def readSpec : SpecTokenIds -> List Token
  | .shared => scheduler.specTokenPlaceholders
  | .own tokenIds => tokenIds

def specTokenIds : List Token := scheduler.readSpec (scheduler.objects ref).specTokenIds

/-- Truncate the list that a request refers to, in place. -/
def truncateSpec (length : Nat) : Scheduler H :=
  match (scheduler.objects ref).specTokenIds with
  | .shared =>
    { scheduler with specTokenPlaceholders := scheduler.specTokenPlaceholders.take length }
  | .own tokenIds =>
    scheduler.modify ref (fun request =>
      { request with specTokenIds := .own (tokenIds.take length) })

/-- Let a request have no draft tokens, unless it has none already. -/
def clearSpec : Scheduler H :=
  if scheduler.specTokenIds ref = [] then scheduler
  else scheduler.modify ref (fun request => { request with specTokenIds := .own [] })

/-- The arguments of `allocate_slots` besides the request. -/
structure SlotArgs where
  numNewTokens : Int
  numNewComputedTokens : Nat
  newComputedBlocks : List (List BlockId)
  numLookaheadTokens : Nat
  numExternalComputedTokens : Nat
  delayCacheBlocks : Bool
  numEncoderTokens : Nat

/-- Counts that are not negative, as the cache manager takes them.

The source passes a negative count on.  Here it is an error, so that a run of
the model ends where the code would go on. -/
def naturalCount (count : Int) : Except SchedulerError Nat :=
  if 0 <= count then .ok count.toNat else .error (.negativeCount requestId)

def SlotArgs.toDemand (args : SlotArgs) (numNewTokens : Nat) : SlotDemand :=
  { numNewTokens := numNewTokens
    numNewComputedTokens := args.numNewComputedTokens
    newComputedBlocks := args.newComputedBlocks
    numLookaheadTokens := args.numLookaheadTokens
    numExternalComputedTokens := args.numExternalComputedTokens
    delayCacheBlocks := args.delayCacheBlocks
    numEncoderTokens := args.numEncoderTokens }

def emptyKvCacheBlocks : List (List BlockId) :=
  scheduler.kvCacheManager.coordinator.config.kvCacheGroups.map (fun _ => [])

/-- The tables of a request. -/
def getBlockIds : List (List BlockId) :=
  scheduler.kvCacheManager.coordinator.singleTypeManagers.map
    (fun manager => manager.blocks requestId)

/-- Give up the blocks of a request. -/
def kvFree : Except SchedulerError (Scheduler H) :=
  andThen (fromKv (scheduler.kvCacheManager.free requestId)) (fun manager =>
    .ok { scheduler with kvCacheManager := manager })

variable [DecidableEq H]

variable (request : Request H)

/-- What the cache manager reads of a request.

The hash of a block includes that of the block before it, so the hashes of one
request repeat only if the hash function collides.  The source does not look at
this.  Here a repetition is an error, and a run of the model ends there. -/
def kvRequest : Except SchedulerError (KVCache.Request H) :=
  if distinct : request.blockHashes.Nodup then
    andThen (naturalCount request.requestId request.numComputedTokens) (fun numComputedTokens =>
      .ok
        { requestId := request.requestId
          numTokens := request.numTokens
          numComputedTokens := numComputedTokens
          blockHashes := request.blockHashes
          blockHashes_nodup := distinct
          skipReadingPrefixCache := request.skipReadingPrefixCache })
  else
    .error (.hashesRepeat request.requestId)

def getComputedBlocks : Except SchedulerError (List (List BlockId) × Nat) :=
  andThen (kvRequest request) (fun request =>
    fromKv (scheduler.kvCacheManager.getComputedBlocks request))

variable (args : SlotArgs)

def canFitFullSequence : Except SchedulerError Bool :=
  andThen (kvRequest request) (fun request =>
    fromKv (scheduler.kvCacheManager.canFitFullSequence request (args.toDemand 0)))

/-- Ask the cache manager for slots.  Without enough blocks there are none. -/
def allocateSlots : Except SchedulerError (Option (List (List BlockId)) × Scheduler H) :=
  andThen (kvRequest request) (fun request =>
    andThen (naturalCount request.requestId args.numNewTokens) (fun numNewTokens =>
      andThen (fromKv (scheduler.kvCacheManager.allocateSlots request (args.toDemand numNewTokens)))
        (fun result => .ok (result.1, { scheduler with kvCacheManager := result.2 }))))

def kvCacheBlocks (numComputedTokens : Int) : Except SchedulerError (Scheduler H) :=
  andThen (kvRequest request) (fun request =>
    andThen (naturalCount request.requestId numComputedTokens) (fun numComputedTokens =>
      andThen (fromKv (scheduler.kvCacheManager.cacheBlocks request numComputedTokens))
        (fun manager => .ok { scheduler with kvCacheManager := manager })))

omit [DecidableEq H] in
/-- Put a running request back to the waiting queue.  The caller has taken it
out of the running queue. -/
def preemptRequest (ref : Ref) : Except SchedulerError (Scheduler H) :=
  let request := scheduler.objects ref
  andThen (require (request.status = .running) .onlyRunningPreempted) (fun _ =>
    andThen (scheduler.kvFree request.requestId) (fun scheduler =>
      let scheduler :=
        { scheduler with encoderCacheManager := scheduler.encoderCacheManager.free request }
      let scheduler := scheduler.modify ref (fun request =>
        { request with status := .preempted, numComputedTokens := 0 })
      let scheduler := scheduler.clearSpec ref
      let scheduler := scheduler.modify ref (fun request =>
        { request with numPreemptions := request.numPreemptions + 1 })
      .ok
        { scheduler with
          waiting := RequestQueue.prependRequest scheduler.config.policy scheduler.objects
            scheduler.waiting ref }))

end Scheduler

end Vllm.Sched
