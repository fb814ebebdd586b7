import Vllm.KVCache.SingleType

namespace Vllm.Sched

open KVCache (RequestId)

/-!
# Requests

A request carries its tokens, its sampling limits, and the counters that the
scheduler advances when it schedules a step and corrects when the output of
the step arrives.  The counters are integers: nothing in their updates keeps
them from going below zero.

The draft tokens of a request are a list that may be shared.  The asynchronous
scheduler keeps one list of placeholders and hands it to every request, so a
request says whether it refers to that list or has one of its own.
-/

/-- Token ids.  A placeholder is `-1`. -/
abbrev Token := Int

/-- The status of a request.  All from `finishedStopped` on are final. -/
inductive RequestStatus where
  | waiting
  | waitingForStructuredOutputGrammar
  | waitingForRemoteKvs
  | waitingForStreamingReq
  | running
  | preempted
  | finishedStopped
  | finishedLengthCapped
  | finishedAborted
  | finishedIgnored
  | finishedError
  | finishedRepetition
  deriving DecidableEq

/-- Why a request has finished, as the front end is told. -/
inductive FinishReason where
  | stop
  | length
  | abort
  | error
  | repetition
  deriving DecidableEq

namespace RequestStatus

/-- Everything after `preempted` is a finished status. -/
def isFinished : RequestStatus -> Bool
  | .waiting | .waitingForStructuredOutputGrammar | .waitingForRemoteKvs
  | .waitingForStreamingReq | .running | .preempted => false
  | _ => true

/-- The reason that is reported for a final status. -/
def getFinishedReason : RequestStatus -> Option FinishReason
  | .finishedStopped => some .stop
  | .finishedLengthCapped => some .length
  | .finishedAborted => some .abort
  | .finishedIgnored => some .length
  | .finishedError => some .error
  | .waitingForStreamingReq => some .stop
  | .finishedRepetition => some .repetition
  | _ => none

end RequestStatus

/-- The place of an item in the prompt.  Without a mask every position of it
takes an embedding. -/
structure PlaceholderRange where
  offset : Nat
  length : Nat
  isEmbed : Option (List Bool)
  deriving DecidableEq

namespace PlaceholderRange

def embedsBefore (mask : List Bool) (position : Nat) : Nat := (mask.take position).count true

variable (range : PlaceholderRange)

/-- The number of embeddings of an item. -/
def getNumEmbeds : Nat :=
  match range.isEmbed with
  | none => range.length
  | some mask => embedsBefore mask mask.length

/-- Which embeddings of an item are needed for a range of its placeholder tokens.
-/
def getEmbedsIndicesInRange (startIdx endIdx : Nat) : Nat × Nat :=
  match range.isEmbed with
  | none => (startIdx, endIdx)
  | some mask => (embedsBefore mask startIdx, embedsBefore mask endIdx)

end PlaceholderRange

/-- An item of a request and the range of its placeholder tokens. -/
structure MultiModalFeature where
  identifier : String
  mmPosition : PlaceholderRange
  deriving DecidableEq

/-- When a request is stopped because its output repeats. -/
structure RepetitionDetectionParams where
  maxPatternSize : Int
  minPatternSize : Int
  minCount : Int
  deriving DecidableEq

/-- The sampling parameters that decide when a request stops. -/
structure SamplingParams where
  minTokens : Nat
  eosTokenId : Option Token
  stopTokenIds : List Token
  repetitionDetection : Option RepetitionDetectionParams
  deriving DecidableEq

/-- A request either samples tokens or pools. -/
inductive RequestParams where
  | sampling (params : SamplingParams)
  | pooling
  deriving DecidableEq

/-- What stopped a request besides the end-of-sequence token. -/
inductive StopReason where
  | token (tokenId : Token)
  | repetitionDetected
  deriving DecidableEq

/-- The next input of a streaming session. -/
structure StreamingUpdate where
  mmFeatures : List MultiModalFeature
  promptTokenIds : Option (List Token)
  maxTokens : Nat
  arrivalTime : Int
  params : RequestParams
  deriving DecidableEq

/-- A list of draft tokens: the shared list of placeholders, or one that only
its holder refers to. -/
inductive SpecTokenIds where
  | shared
  | own (tokenIds : List Token)
  deriving DecidableEq

/-- A request object of the scheduler. -/
structure Request (H : Type) where
  requestId : RequestId
  priority : Int
  arrivalTime : Int
  params : RequestParams
  loraIntId : Option Nat
  useStructuredOutput : Bool
  status : RequestStatus
  stopReason : Option StopReason
  maxTokens : Nat
  promptTokenIds : Option (List Token)
  numPromptTokens : Nat
  outputTokenIds : List Token
  allTokenIds : List Token
  numOutputPlaceholders : Int
  discardLatestAsyncTokens : Bool
  specTokenIds : SpecTokenIds
  numComputedTokens : Int
  mmFeatures : List MultiModalFeature
  isPrefillChunk : Bool
  numPreemptions : Nat
  blockHashes : List H
  skipReadingPrefixCache : Bool
  resumable : Bool
  streamingQueue : Option (List (Option StreamingUpdate))
  deriving DecidableEq

instance {H : Type} : Inhabited (Request H) where
  default :=
    { requestId := "", priority := 0, arrivalTime := 0, params := .pooling, loraIntId := none
      useStructuredOutput := false, status := .waiting, stopReason := none, maxTokens := 0
      promptTokenIds := none, numPromptTokens := 0, outputTokenIds := [], allTokenIds := []
      numOutputPlaceholders := 0, discardLatestAsyncTokens := false, specTokenIds := .own []
      numComputedTokens := 0, mmFeatures := [], isPrefillChunk := false, numPreemptions := 0
      blockHashes := [], skipReadingPrefixCache := false, resumable := false
      streamingQueue := none }

namespace Request

variable {H : Type} (request : Request H)

def numTokens : Nat := request.allTokenIds.length

def numOutputTokens : Nat := request.outputTokenIds.length

def hasEncoderInputs : Bool := !request.mmFeatures.isEmpty

def isFinished : Bool := request.status.isFinished

def getNumEncoderEmbeds (inputId : Nat) : Nat :=
  match request.mmFeatures[inputId]? with
  | none => 0
  | some feature => feature.mmPosition.getNumEmbeds

/-- Append one sampled token.  The hasher returns the hashes of the blocks that
became full. -/
def appendOutputTokenId (blockHasher : Request H -> List H) (tokenId : Token) : Request H :=
  let appended : Request H :=
    { request with
      outputTokenIds := request.outputTokenIds ++ [tokenId]
      allTokenIds := request.allTokenIds ++ [tokenId] }
  { appended with blockHashes := appended.blockHashes ++ blockHasher appended }

/-- What a request says to a session with its id: the next input, or nothing
if it ends the session. -/
def streamingUpdate : Option StreamingUpdate :=
  if request.resumable then
    some
      { mmFeatures := request.mmFeatures
        promptTokenIds := request.promptTokenIds
        maxTokens := request.maxTokens
        arrivalTime := request.arrivalTime
        params := request.params }
  else
    none

end Request

variable (tokenIds : List Token)

/-- The last `patternLen` tokens repeat `repetitionMinCount` times. -/
def hasRepeatingPattern (patternLen repetitionMinCount : Nat) : Bool :=
  (List.range patternLen).all (fun back =>
    let target := tokenIds[tokenIds.length - (back + 1)]?
    (List.range (repetitionMinCount - 1)).all (fun round =>
      tokenIds[tokenIds.length - (patternLen * (round + 1) + (back + 1))]? == target))

/-- Try pattern lengths from `patternLen` on, until one is too long. -/
def repetitionFrom (tokenIds : List Token) (minCount : Nat) : (fuel patternLen : Nat) -> Bool
  | 0, _ => false
  | fuel + 1, patternLen =>
    if tokenIds.length < patternLen * minCount then false
    else if hasRepeatingPattern tokenIds patternLen minCount then true
    else repetitionFrom tokenIds minCount fuel (patternLen + 1)

/-- Whether the output ends with a pattern that is repeated often enough. -/
def checkSequenceRepetition (params : RepetitionDetectionParams) : Bool :=
  let minPatternSize := if params.minPatternSize <= 0 then 1 else params.minPatternSize
  if params.maxPatternSize <= 0 \/ params.minCount < 2 \/ params.maxPatternSize < minPatternSize then
    false
  else
    repetitionFrom tokenIds params.minCount.toNat
      (params.maxPatternSize + 1 - minPatternSize).toNat minPatternSize.toNat

/-- The status and stop reason with which a request stops after its last token,
or nothing if it goes on. -/
def checkStop {H : Type} (params : SamplingParams) (request : Request H) (maxModelLen : Nat) :
    Option (RequestStatus × Option StopReason) :=
  if request.numOutputTokens < params.minTokens then none
  else
    match request.outputTokenIds.getLast? with
    | none => none
    | some lastTokenId =>
      if params.eosTokenId = some lastTokenId then
        some (.finishedStopped, request.stopReason)
      else if lastTokenId ∈ params.stopTokenIds then
        some (.finishedStopped, some (.token lastTokenId))
      else if maxModelLen <= request.numTokens \/ request.maxTokens <= request.numOutputTokens then
        some (.finishedLengthCapped, request.stopReason)
      else
        match params.repetitionDetection with
        | none => none
        | some detection =>
          if checkSequenceRepetition request.outputTokenIds detection then
            some (.finishedRepetition, some .repetitionDetected)
          else
            none

end Vllm.Sched
