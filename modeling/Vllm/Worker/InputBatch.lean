import Vllm.Foundation.Rows
import Vllm.Hashing.Model
import Vllm.KVCache.SingleType
import Mathlib.Data.List.Sort
import Mathlib.Data.Rat.Defs

namespace Vllm.Worker

open Foundation Function
open Hashing (TokenId)
open KVCache (RequestId BlockId)

/-!
# The persistent batch of a worker

The worker keeps the requests that it runs in the rows of many parallel arrays,
dictionaries and lists, and changes only what changes from one step to the next.

Floating-point parameters are only stored and compared, so they are rational
numbers.  Arrays are functions from row numbers.  A tensor row that is read is a
view, and an exchange of two such rows is modelled with that meaning.
-/

/-! ## Requests -/

/-- How the next token is chosen. -/
inductive SamplingType where
  | greedy
  | random
  | randomSeed
  deriving DecidableEq

/-- The parameters that the batch stores.  Missing lists are empty, which the
batch does not tell apart. -/
structure SamplingParams where
  temperature : Rat
  seed : Option Int
  topP : Rat
  topK : Int
  frequencyPenalty : Rat
  presencePenalty : Rat
  repetitionPenalty : Rat
  logprobs : Option Int
  logprobTokenIds : Option (List TokenId)
  allowedTokenIds : List Nat
  badWordsTokenIds : List (List TokenId)

def samplingEps : Rat := 1 / 100000

def SamplingParams.samplingType (params : SamplingParams) : SamplingType :=
  if params.temperature < samplingEps then .greedy
  else if params.seed.isSome then .randomSeed
  else .random

/-- The parameter of pooling that the batch reads. -/
structure PoolingParams where
  requiresTokenIds : Bool

/-- An adapter.  Ids below one are refused when it is made. -/
structure LoRARequest where
  loraIntId : Nat
  loraIntId_pos : 0 < loraIntId

/-- The exceptions and failed assertions of the batch. -/
inductive BatchError where
  | promptMissing
  | promptLengths (promptTokenLen promptEmbedsLen : Nat)
  | tooManyRequests
  | removedAfterRead
  | unrecognizedRequest
  | keyMissing
  | indexOutOfRange
  | rowEmpty
  deriving DecidableEq

def BatchError.message : BatchError -> Option String
  | .promptMissing => some "Neither prompt_token_ids nor prompt_embeds were defined."
  | .promptLengths promptTokenLen promptEmbedsLen =>
    some ("Prompt token ids and prompt embeds had different lengths prompt_token_ids=" ++
      toString promptTokenLen ++ " prompt_embeds=" ++ toString promptEmbedsLen)
  | .removedAfterRead =>
    some "Cannot register new removed request after self.removed has been read."
  | .unrecognizedRequest => some "Unrecognized request type"
  | _ => none

/-- The length of a prompt, which is given by tokens, embeddings or both. -/
def lengthFromPromptTokenIdsOrEmbeds {E : Type} :
    Option (List TokenId) -> Option (List E) -> Except BatchError Nat
  | none, none => .error .promptMissing
  | none, some promptEmbeds => .ok promptEmbeds.length
  | some promptTokenIds, none => .ok promptTokenIds.length
  | some promptTokenIds, some promptEmbeds =>
    if promptEmbeds.length ≠ promptTokenIds.length then
      .error (.promptLengths promptTokenIds.length promptEmbeds.length)
    else .ok promptTokenIds.length

/-- What the worker remembers of a request.  The list of output tokens is an
object that the batch refers to, and `outputList` is its identity. -/
structure CachedRequestState (E G : Type) where
  reqId : RequestId
  promptTokenIds : Option (List TokenId)
  promptEmbeds : Option (List E)
  numPromptTokens : Nat
  numPromptTokens_eq : lengthFromPromptTokenIdsOrEmbeds promptTokenIds promptEmbeds =
    .ok numPromptTokens
  samplingParams : Option SamplingParams
  poolingParams : Option PoolingParams
  generator : Option G
  blockIds : List (List BlockId)
  numComputedTokens : Nat
  outputTokenIds : List TokenId
  outputList : Nat
  loraRequest : Option LoRARequest

def CachedRequestState.numTokens {E G : Type} (request : CachedRequestState E G) : Nat :=
  request.numPromptTokens + request.outputTokenIds.length

/-! ## The block table of one cache group -/

/-- Each row has some blocks of the kernel, `blocksPerKvBlock` of them for each
block of the cache manager. -/
structure BlockTable where
  blocksPerKvBlock : Nat
  blockTable : Nat -> Nat -> BlockId
  numBlocksPerRow : Nat -> Nat

open BlockTable

namespace BlockTable

/-- The ids of the smaller blocks that the kernels use. -/
def mapToKernelBlocks (blocksPerKvBlock : Nat) (blockIds : List BlockId) : List BlockId :=
  if blocksPerKvBlock = 1 then blockIds
  else blockIds.flatMap (fun block =>
    (List.range blocksPerKvBlock).map (fun offset => block * blocksPerKvBlock + offset))

variable (table : BlockTable)

variable (blockIds : List BlockId) (row : Nat)

/-- Append blocks to a row. -/
def appendRow : BlockTable :=
  if blockIds = [] then table
  else
    let kernelBlockIds := mapToKernelBlocks table.blocksPerKvBlock blockIds
    let start := table.numBlocksPerRow row
    { table with
      numBlocksPerRow := update table.numBlocksPerRow row (start + kernelBlockIds.length)
      blockTable := update table.blockTable row
        (writeSlice (table.blockTable row) start kernelBlockIds) }

def addRow : BlockTable :=
  { table with numBlocksPerRow := update table.numBlocksPerRow row 0 }.appendRow
    blockIds row

def clearRow : BlockTable :=
  { table with
    blockTable := update table.blockTable row
      (fillSlice (table.blockTable row) 0 (table.numBlocksPerRow row) 0)
    numBlocksPerRow := update table.numBlocksPerRow row 0 }

/-- Copy the used part of a row.  What the target has beyond it stays. -/
def moveRow (source target : Nat) : BlockTable :=
  { table with
    blockTable := update table.blockTable target
      (copyPrefix (table.numBlocksPerRow source) (table.blockTable source)
        (table.blockTable target))
    numBlocksPerRow := Foundation.moveRow table.numBlocksPerRow source target }

/-- Exchange two rows. -/
def swapRow (first second : Nat) : BlockTable :=
  { table with
    blockTable := swapRows table.blockTable first second
    numBlocksPerRow := swapRows table.numBlocksPerRow first second }

def blocks : List BlockId :=
  (List.range (table.numBlocksPerRow row)).map (table.blockTable row)

end BlockTable

/-! ## Rows that were removed -/

/-- The rows that requests were removed from in the current step.  They must not
change after they were sorted, except by taking the lowest one. -/
structure BatchUpdateBuilder where
  removed : List Nat
  isRemovedSorted : Bool

namespace BatchUpdateBuilder

variable (builder : BatchUpdateBuilder)

/-- Sort the freed rows, the largest first. -/
def ensureRemovedSorted : BatchUpdateBuilder :=
  if builder.isRemovedSorted then builder
  else ⟨builder.removed.insertionSort (fun first second => second <= first), true⟩

def removedAppend (row : Nat) : Except BatchError BatchUpdateBuilder :=
  if builder.isRemovedSorted then .error .removedAfterRead
  else .ok { builder with removed := builder.removed ++ [row] }

/-- Take the lowest removed row. -/
def popRemoved : Option Nat × BatchUpdateBuilder :=
  if builder.removed = [] then (none, builder)
  else
    let sorted := builder.ensureRemovedSorted
    (sorted.removed.getLast?, { sorted with removed := sorted.removed.dropLast })

def reset (_builder : BatchUpdateBuilder) : BatchUpdateBuilder := ⟨[], false⟩

end BatchUpdateBuilder

/-! ## The batch -/

/-- The sets of requests that need some part of sampling. -/
inductive RequestSet where
  | greedyReqs
  | randomReqs
  | topPReqs
  | topKReqs
  | frequencyPenaltiesReqs
  | presencePenaltiesReqs
  | repetitionPenaltiesReqs
  | hasAllowedTokenIds
  deriving DecidableEq

/-- The batch of the model runner.  Tensors are functions of the row, and the sets
of requests with some parameter are lists of ids. -/
structure InputBatch (E G : Type) where
  isPoolingModel : Bool
  maxNumReqs : Nat
  vocabSize : Nat
  reqIds : List (Option RequestId)
  reqIdToIndex : Dict RequestId Nat
  reqOutputTokenIds : List (Option Nat)
  specTokenIds : List (List TokenId)
  tokenIdsCpu : Nat -> Nat -> TokenId
  isTokenIds : Nat -> Nat -> Bool
  reqPromptEmbeds : Nat -> Option (List E)
  numTokensNoSpec : Nat -> Nat
  numPromptTokens : Nat -> Nat
  numComputedTokensCpu : Nat -> Nat
  blockTables : List BlockTable
  temperatureCpu : Nat -> Rat
  topPCpu : Nat -> Rat
  topKCpu : Nat -> Int
  frequencyPenaltiesCpu : Nat -> Rat
  presencePenaltiesCpu : Nat -> Rat
  repetitionPenaltiesCpu : Nat -> Rat
  requestSets : RequestSet -> RequestId -> Bool
  numAcceptedTokensCpu : Nat -> Nat
  requestLoraMapping : Nat -> Nat
  loraIdToRequestIds : Nat -> Option (List RequestId)
  loraIdToLoraRequest : Nat -> Option LoRARequest
  generators : Nat -> Option G
  numLogprobs : RequestId -> Option Int
  logprobTokenIds : RequestId -> Option (List TokenId)
  allowedTokenIdsMaskCpuTensor : Option (Nat -> Nat -> Bool)
  badWordsTokenIds : Nat -> Option (List (List TokenId))
  logitsProcessingNeedsTokenIds : Nat -> Bool
  poolingParams : RequestId -> Option PoolingParams
  batchUpdateBuilder : BatchUpdateBuilder

namespace InputBatch

variable {E G : Type}

variable (batch : InputBatch E G)

def numReqs : Nat := batch.reqIdToIndex.entries.length

/-- The sampling arrays are not initialised, so any contents will do. -/
def init (isPoolingModel : Bool) (maxNumReqs vocabSize : Nat) (blocksPerKvBlock : List Nat)
    (memory : Nat -> Rat) (integers : Nat -> Int) : InputBatch E G where
  isPoolingModel := isPoolingModel
  maxNumReqs := maxNumReqs
  vocabSize := vocabSize
  reqIds := []
  reqIdToIndex := Dict.empty
  reqOutputTokenIds := []
  specTokenIds := List.replicate maxNumReqs []
  tokenIdsCpu := fun _ _ => 0
  isTokenIds := fun _ _ => false
  reqPromptEmbeds := fun _ => none
  numTokensNoSpec := fun _ => 0
  numPromptTokens := fun _ => 0
  numComputedTokensCpu := fun _ => 0
  blockTables := blocksPerKvBlock.map (fun perBlock => ⟨perBlock, fun _ _ => 0, fun _ => 0⟩)
  temperatureCpu := memory
  topPCpu := memory
  topKCpu := integers
  frequencyPenaltiesCpu := memory
  presencePenaltiesCpu := memory
  repetitionPenaltiesCpu := memory
  requestSets := fun _ _ => false
  numAcceptedTokensCpu := fun _ => 1
  requestLoraMapping := fun _ => 0
  loraIdToRequestIds := fun _ => none
  loraIdToLoraRequest := fun _ => none
  generators := fun _ => none
  numLogprobs := fun _ => none
  logprobTokenIds := fun _ => none
  allowedTokenIdsMaskCpuTensor := none
  badWordsTokenIds := fun _ => none
  logitsProcessingNeedsTokenIds := fun _ => false
  poolingParams := fun _ => none
  batchUpdateBuilder := ⟨[], false⟩

/-! ### Adding a request -/

/-- The row of a new request: the lowest free one, or one at the end. -/
def nextRow : Nat :=
  batch.batchUpdateBuilder.popRemoved.1.getD batch.numReqs

/-- The row of a new request is no longer free. -/
def registered : InputBatch E G :=
  { batch with batchUpdateBuilder := batch.batchUpdateBuilder.popRemoved.2 }

/-- The row of a new request: the lowest row that was freed, or the next one. -/
def registerAddRequest : Except BatchError (Nat × InputBatch E G) :=
  if batch.nextRow < batch.maxNumReqs then .ok (batch.nextRow, batch.registered)
  else .error .tooManyRequests

variable (request : CachedRequestState E G) (row : Nat)

/-- Enter the request in the lists and in the index. -/
def placeRequest : InputBatch E G :=
  if row = batch.reqIds.length then
    { batch with
      reqIds := batch.reqIds ++ [some request.reqId]
      reqOutputTokenIds := batch.reqOutputTokenIds ++ [some request.outputList]
      specTokenIds := batch.specTokenIds ++ [[]]
      reqIdToIndex := batch.reqIdToIndex.set request.reqId row }
  else
    { batch with
      reqIds := batch.reqIds.set row (some request.reqId)
      reqOutputTokenIds := batch.reqOutputTokenIds.set row (some request.outputList)
      specTokenIds := batch.specTokenIds.set row []
      reqIdToIndex := batch.reqIdToIndex.set request.reqId row }

/-- Copy the tokens, the embeddings and the blocks of the request. -/
def writeTokens : InputBatch E G :=
  let start := request.numPromptTokens
  let stop := start + request.outputTokenIds.length
  let promptTokens := match request.promptTokenIds with
    | some promptTokenIds => writeSlice (batch.tokenIdsCpu row) 0 promptTokenIds
    | none => batch.tokenIdsCpu row
  { batch with
    numPromptTokens := update batch.numPromptTokens row request.numPromptTokens
    tokenIdsCpu := update batch.tokenIdsCpu row
      (writeSlice promptTokens start request.outputTokenIds)
    isTokenIds := update batch.isTokenIds row
      (fillSlice (fillSlice (batch.isTokenIds row) 0 start request.promptTokenIds.isSome)
        start stop true)
    reqPromptEmbeds := storeEntry batch.reqPromptEmbeds row request.promptEmbeds
    numTokensNoSpec := update batch.numTokensNoSpec row request.numTokens
    numComputedTokensCpu := update batch.numComputedTokensCpu row
      request.numComputedTokens
    blockTables := List.zipWith (addRow · · row) batch.blockTables request.blockIds }

variable (params : SamplingParams) (vocabSize : Nat)

def requestSetsOf (params : SamplingParams) : RequestSet -> Bool
  | .greedyReqs => params.samplingType = .greedy
  | .randomReqs => params.samplingType ≠ .greedy
  | .topPReqs => params.topP < 1
  | .topKReqs => 0 < params.topK /\ params.topK < vocabSize
  | .frequencyPenaltiesReqs => params.frequencyPenalty ≠ 0
  | .presencePenaltiesReqs => params.presencePenalty ≠ 0
  | .repetitionPenaltiesReqs => params.repetitionPenalty ≠ 1
  | .hasAllowedTokenIds => params.allowedTokenIds ≠ []

/-- The temperature that is stored, which is zero for greedy sampling. -/
def storedTemperature : Rat :=
  if params.samplingType = .greedy then 0 else params.temperature

def storedTopK (params : SamplingParams) : Int :=
  if 0 < params.topK /\ params.topK < vocabSize then params.topK else vocabSize

/-- An empty list counts as missing. -/
def nonEmpty {A : Type} (items : List A) : Option (List A) :=
  if items.isEmpty then none else some items

def maskOf (allowedTokenIds : List Nat) (token : Nat) : Bool :=
  decide (token ∉ allowedTokenIds)

/-- Store the parameters of a request that generates tokens.  The mask of the
allowed tokens is large and is made when a first request needs it.  In it, a
token that is allowed is `false`. -/
def writeSamplingParams (row : Nat) : InputBatch E G :=
  { batch with
    requestSets := fun set => update (batch.requestSets set) request.reqId
      (batch.requestSets set request.reqId || requestSetsOf batch.vocabSize params set)
    temperatureCpu := update batch.temperatureCpu row (storedTemperature params)
    topPCpu := update batch.topPCpu row params.topP
    topKCpu := update batch.topKCpu row (storedTopK batch.vocabSize params)
    frequencyPenaltiesCpu := update batch.frequencyPenaltiesCpu row
      params.frequencyPenalty
    presencePenaltiesCpu := update batch.presencePenaltiesCpu row params.presencePenalty
    repetitionPenaltiesCpu := update batch.repetitionPenaltiesCpu row
      params.repetitionPenalty
    generators := storeEntry batch.generators row request.generator
    numLogprobs := match params.logprobs with
      | some logprobs => update batch.numLogprobs request.reqId
          (some (if logprobs = -1 then (batch.vocabSize : Int) else logprobs))
      | none => batch.numLogprobs
    logprobTokenIds := match params.logprobTokenIds with
      | some tokenIds => update batch.logprobTokenIds request.reqId (some tokenIds)
      | none => batch.logprobTokenIds
    allowedTokenIdsMaskCpuTensor :=
      if params.allowedTokenIds = [] then batch.allowedTokenIdsMaskCpuTensor
      else some (update (batch.allowedTokenIdsMaskCpuTensor.getD (fun _ _ => false)) row
        (maskOf params.allowedTokenIds))
    badWordsTokenIds := storeEntry batch.badWordsTokenIds row (nonEmpty params.badWordsTokenIds) }

/-- Store the parameters of a pooling request. -/
def writePoolingParams (params : PoolingParams) (row : Nat) : InputBatch E G :=
  { batch with
    poolingParams := update batch.poolingParams request.reqId (some params)
    logitsProcessingNeedsTokenIds := update batch.logitsProcessingNeedsTokenIds row
      params.requiresTokenIds }

def writeParams : Except BatchError (InputBatch E G) :=
  match request.samplingParams, request.poolingParams with
  | some params, _ => .ok (batch.writeSamplingParams request params row)
  | none, some params => .ok (batch.writePoolingParams request params row)
  | none, none => .error .unrecognizedRequest

/-- Store the adapter of a request.  By default one token is accepted. -/
def writeLora : InputBatch E G :=
  let accepted := { batch with
    numAcceptedTokensCpu := update batch.numAcceptedTokensCpu row 1 }
  match request.loraRequest with
  | some loraRequest =>
    let loraId := loraRequest.loraIntId
    { accepted with
      requestLoraMapping := update batch.requestLoraMapping row loraId
      loraIdToRequestIds := update batch.loraIdToRequestIds loraId
        (some (((batch.loraIdToRequestIds loraId).getD []).insert request.reqId))
      loraIdToLoraRequest := update batch.loraIdToLoraRequest loraId
        (some loraRequest) }
  | none =>
    { accepted with requestLoraMapping := update batch.requestLoraMapping row 0 }

/-- Add a request. -/
def addRequest : Except BatchError (InputBatch E G) :=
  match batch.registerAddRequest with
  | .error error => .error error
  | .ok (row, registered) =>
    if request.blockIds.length < batch.blockTables.length then .error .indexOutOfRange
    else
      match ((registered.placeRequest request row).writeTokens request row).writeParams
          request row with
      | .error error => .error error
      | .ok written => .ok (written.writeLora request row)

/-! ### Removing a request -/

variable (reqId : RequestId)

/-- Forget the adapter of a row. -/
def clearLora (row : Nat) : Except BatchError (InputBatch E G) :=
  let loraId := batch.requestLoraMapping row
  if loraId = 0 then .ok batch
  else
    match batch.loraIdToRequestIds loraId with
    | none => .error .keyMissing
    | some reqIds =>
      let others := reqIds.filter (fun other => decide (other ≠ reqId))
      let cleared := { batch with
        requestLoraMapping := update batch.requestLoraMapping row 0 }
      if others = [] then
        .ok { cleared with
          loraIdToRequestIds := update batch.loraIdToRequestIds loraId none
          loraIdToLoraRequest := update batch.loraIdToLoraRequest loraId none }
      else
        .ok { cleared with
          loraIdToRequestIds := update batch.loraIdToRequestIds loraId (some others) }

/-- Forget the parameters of a request.  A pooling model has no sampling
parameters. -/
def clearParams (row : Nat) : InputBatch E G :=
  if batch.isPoolingModel then
    { batch with poolingParams := update batch.poolingParams reqId none }
  else
    { batch with
      requestSets := fun set => update (batch.requestSets set) reqId false
      generators := update batch.generators row none
      numLogprobs := update batch.numLogprobs reqId none
      logprobTokenIds := update batch.logprobTokenIds reqId none
      allowedTokenIdsMaskCpuTensor := batch.allowedTokenIdsMaskCpuTensor.map
        (fun mask => update mask row (fun _ => false))
      badWordsTokenIds := update batch.badWordsTokenIds row none }

/-- Take a request out of the lists, the index and the block tables. -/
def emptyRow (row : Nat) (builder : BatchUpdateBuilder) : InputBatch E G :=
  { batch with
    reqIdToIndex := batch.reqIdToIndex.erase reqId
    batchUpdateBuilder := builder
    reqIds := batch.reqIds.set row none
    reqOutputTokenIds := batch.reqOutputTokenIds.set row none
    specTokenIds := batch.specTokenIds.set row []
    blockTables := batch.blockTables.map (clearRow · row) }

/-- Remove a request.  An unknown request is ignored. -/
def removeRequest : Except BatchError (InputBatch E G) :=
  match batch.reqIdToIndex.get? reqId with
  | none => .ok batch
  | some row =>
    match batch.batchUpdateBuilder.removedAppend row with
    | .error error => .error error
    | .ok builder =>
      match (batch.emptyRow reqId row builder).clearLora reqId row with
      | .error error => .error error
      | .ok cleared => .ok (cleared.clearParams reqId row)

/-! ### Moving rows -/

def specTokenIdsOf : List TokenId :=
  (batch.specTokenIds[row]?).getD []

def getActiveTokenCount : Nat :=
  batch.numTokensNoSpec row + (batch.specTokenIdsOf row).length

variable (source target : Nat)

/-- Move the parameters of sampling, which a pooling model does not have. -/
def moveParams : InputBatch E G :=
  if batch.isPoolingModel then batch
  else
    { batch with
      temperatureCpu := moveRow batch.temperatureCpu source target
      topPCpu := moveRow batch.topPCpu source target
      topKCpu := moveRow batch.topKCpu source target
      frequencyPenaltiesCpu := moveRow batch.frequencyPenaltiesCpu source target
      presencePenaltiesCpu := moveRow batch.presencePenaltiesCpu source target
      repetitionPenaltiesCpu := moveRow batch.repetitionPenaltiesCpu source target
      numAcceptedTokensCpu := moveRow batch.numAcceptedTokensCpu source target
      generators := moveEntry batch.generators source target
      allowedTokenIdsMaskCpuTensor := batch.allowedTokenIdsMaskCpuTensor.map
        (fun mask => moveRow mask source target)
      badWordsTokenIds := moveEntry batch.badWordsTokenIds source target }

/-- Move a request in everything that all models have. -/
def moveColumns : InputBatch E G :=
  let numTokens := batch.getActiveTokenCount source
  { batch with
    reqIds := (batch.reqIds.set target (some reqId)).set source none
    reqOutputTokenIds := (batch.reqOutputTokenIds.set target
      (batch.reqOutputTokenIds[source]?).join).set source none
    reqIdToIndex := batch.reqIdToIndex.set reqId target
    specTokenIds := (batch.specTokenIds.set target (batch.specTokenIdsOf source)).set source []
    tokenIdsCpu := update batch.tokenIdsCpu target
      (copyPrefix numTokens (batch.tokenIdsCpu source) (batch.tokenIdsCpu target))
    isTokenIds := update batch.isTokenIds target
      (copyPrefix numTokens (batch.isTokenIds source) (batch.isTokenIds target))
    reqPromptEmbeds := moveEntry batch.reqPromptEmbeds source target
    numTokensNoSpec := moveRow batch.numTokensNoSpec source target
    numPromptTokens := moveRow batch.numPromptTokens source target
    numComputedTokensCpu := moveRow batch.numComputedTokensCpu source target
    blockTables := batch.blockTables.map (moveRow · source target)
    requestLoraMapping := moveRow batch.requestLoraMapping source target }

/-- One round of `condense`: move the last request down to a free row. -/
def moveRequest : Except BatchError (InputBatch E G) :=
  match (batch.reqIds[source]?).join with
  | none => .error .rowEmpty
  | some reqId => .ok ((batch.moveColumns reqId source target).moveParams source target)

/-- The largest row up to a given one that is not empty. -/
def lastOccupied (emptyReqIndices : List Nat) : Nat -> Nat
  | 0 => 0
  | last + 1 => if last + 1 ∈ emptyReqIndices then lastOccupied emptyReqIndices last else last + 1

/-- The moves of `condense`.  The empty rows come in ascending order. -/
def condenseMoves : List Nat -> Nat -> List (Nat × Nat)
  | [], _ => []
  | emptyIndex :: rest, last =>
    let lastReqIndex := lastOccupied (emptyIndex :: rest) last
    if lastReqIndex <= emptyIndex then []
    else (lastReqIndex, emptyIndex) :: condenseMoves rest (lastReqIndex - 1)

/-- Carry out moves one after the other. -/
def moveRequests : List (Nat × Nat) -> InputBatch E G -> Except BatchError (InputBatch E G)
  | [], batch => .ok batch
  | move :: rest, batch =>
    match batch.moveRequest move.1 move.2 with
    | .error error => .error error
    | .ok moved => moveRequests rest moved

/-- The free rows, in ascending order. -/
def emptyReqIndices : List Nat :=
  batch.batchUpdateBuilder.ensureRemovedSorted.removed.reverse

/-- Slide requests down into the free rows.  Each move takes the lowest free
row. -/
def condense : Except BatchError (InputBatch E G) :=
  let numReqs := batch.numReqs
  let sorted := { batch with
    batchUpdateBuilder := batch.batchUpdateBuilder.ensureRemovedSorted }
  if batch.emptyReqIndices = [] then .ok sorted
  else if numReqs = 0 then
    .ok { sorted with reqIds := [], reqOutputTokenIds := [], specTokenIds := [] }
  else
    let moves := condenseMoves batch.emptyReqIndices
      (numReqs + batch.emptyReqIndices.length - 1)
    match moveRequests moves sorted with
    | .error error => .error error
    | .ok moved => .ok { moved with
        batchUpdateBuilder := ⟨(batch.emptyReqIndices.drop moves.length).reverse, true⟩
        reqIds := moved.reqIds.take numReqs
        reqOutputTokenIds := moved.reqOutputTokenIds.take numReqs
        specTokenIds := moved.specTokenIds.take numReqs }

/-! ### Swapping rows -/

def swapItems {A : Type} (items : List A) (first second : Nat) : List A :=
  match items[first]?, items[second]? with
  | some firstItem, some secondItem => (items.set first secondItem).set second firstItem
  | _, _ => items

variable (first : Nat)

/-- Swap the parameters of sampling, which a pooling model does not have.  The
rows of the mask are views of the tensor. -/
def swapParams (second : Nat) : InputBatch E G :=
  if batch.isPoolingModel then batch
  else
    { batch with
      temperatureCpu := swapRows batch.temperatureCpu first second
      topPCpu := swapRows batch.topPCpu first second
      topKCpu := swapRows batch.topKCpu first second
      frequencyPenaltiesCpu := swapRows batch.frequencyPenaltiesCpu first second
      presencePenaltiesCpu := swapRows batch.presencePenaltiesCpu first second
      repetitionPenaltiesCpu := swapRows batch.repetitionPenaltiesCpu first second
      numAcceptedTokensCpu := swapRows batch.numAcceptedTokensCpu first second
      generators := swapEntries batch.generators first second
      badWordsTokenIds := swapEntries batch.badWordsTokenIds first second
      allowedTokenIdsMaskCpuTensor := batch.allowedTokenIdsMaskCpuTensor.map
        (fun mask => swapRowViews mask first second) }

/-- Exchange the first positions of two rows. -/
def swapTokens {A : Type} (rows : Nat -> Nat -> A) (first second maxActiveTokenCount : Nat) :
    Nat -> Nat -> A :=
  update (update rows first
    (copyPrefix maxActiveTokenCount (rows second) (rows first))) second
    (copyPrefix maxActiveTokenCount (rows first) (rows second))

/-- Swap two requests in everything that all models have.  Only the active tokens
of the two requests are swapped. -/
def swapColumns (firstId secondId : RequestId) (first second : Nat) : InputBatch E G :=
  let maxActiveTokenCount :=
    max (batch.getActiveTokenCount first) (batch.getActiveTokenCount second)
  { batch with
    reqIds := swapItems batch.reqIds first second
    reqOutputTokenIds := swapItems batch.reqOutputTokenIds first second
    specTokenIds := swapItems batch.specTokenIds first second
    reqIdToIndex := (batch.reqIdToIndex.set firstId
      ((batch.reqIdToIndex.get? secondId).getD 0)).set secondId
      ((batch.reqIdToIndex.get? firstId).getD 0)
    numTokensNoSpec := swapRows batch.numTokensNoSpec first second
    numPromptTokens := swapRows batch.numPromptTokens first second
    numComputedTokensCpu := swapRows batch.numComputedTokensCpu first second
    tokenIdsCpu := swapTokens batch.tokenIdsCpu first second maxActiveTokenCount
    isTokenIds := swapTokens batch.isTokenIds first second maxActiveTokenCount
    reqPromptEmbeds := swapEntries batch.reqPromptEmbeds first second
    blockTables := batch.blockTables.map (swapRow · first second)
    requestLoraMapping := swapRows batch.requestLoraMapping first second }

/-- Exchange two requests.  The rows of the mask are exchanged through views, so
that both end with the contents of the second one. -/
def swapStates (second : Nat) : Except BatchError (InputBatch E G) :=
  match batch.reqIds[first]?, batch.reqIds[second]? with
  | some (some firstId), some (some secondId) =>
    .ok ((batch.swapColumns firstId secondId first second).swapParams first second)
  | some _, some _ => .error .rowEmpty
  | _, _ => .error .indexOutOfRange

/-- End a step. -/
def refreshMetadata : InputBatch E G :=
  { batch with batchUpdateBuilder := batch.batchUpdateBuilder.reset }

/-! ### Writes to the row of a request -/

def updateReqSpecTokenIds (specTokenIds : List TokenId) : InputBatch E G :=
  { batch with
    specTokenIds := batch.specTokenIds.set row specTokenIds
    tokenIdsCpu := update batch.tokenIdsCpu row
      (writeSlice (batch.tokenIdsCpu row) (batch.numTokensNoSpec row) specTokenIds) }

/-- What the runner writes to a row while its request runs. -/
inductive RowWrite where
  /-- The draft tokens of a step. -/
  | specTokens (specTokenIds : List TokenId)
  /-- Tokens that were sampled here. -/
  | sampledTokens (sampledIds : List TokenId)
  /-- Tokens that were sampled on the last rank of a pipeline. -/
  | newTokens (start : Nat) (newTokenIds : List TokenId)
  | numTokens (numTokensNoSpec : Nat)
  | numComputedTokens (numComputedTokens : Nat)
  | newBlocks (newBlockIds : List (List BlockId))
  | numAcceptedTokens (numTokens : Nat)

namespace RowWrite

variable (numTokensNoSpec k : Nat)

/-- The write puts a token id at a position.  The first argument is the number of
tokens of the row. -/
def WritesToken : RowWrite -> Prop
  | .specTokens specTokenIds =>
    numTokensNoSpec <= k /\ k < numTokensNoSpec + specTokenIds.length
  | .sampledTokens sampledIds => numTokensNoSpec <= k /\ k < numTokensNoSpec + sampledIds.length
  | .newTokens start newTokenIds => start <= k /\ k < start + newTokenIds.length
  | _ => False

/-- The write marks a position as one of a token.  Draft tokens and the tokens of
another rank are not marked. -/
def WritesFlag : RowWrite -> Prop
  | .sampledTokens sampledIds => numTokensNoSpec <= k /\ k < numTokensNoSpec + sampledIds.length
  | _ => False

end RowWrite

/-- What the model runner writes into the row of a request between the steps. -/
def writeRow : RowWrite -> InputBatch E G
  | .specTokens specTokenIds => batch.updateReqSpecTokenIds row specTokenIds
  | .sampledTokens sampledIds =>
    let start := batch.numTokensNoSpec row
    let stop := start + sampledIds.length
    { batch with
      tokenIdsCpu := update batch.tokenIdsCpu row
        (writeSlice (batch.tokenIdsCpu row) start sampledIds)
      isTokenIds := update batch.isTokenIds row
        (fillSlice (batch.isTokenIds row) start stop true)
      numTokensNoSpec := update batch.numTokensNoSpec row stop }
  | .newTokens start newTokenIds =>
    { batch with
      tokenIdsCpu := update batch.tokenIdsCpu row
        (writeSlice (batch.tokenIdsCpu row) start newTokenIds)
      numTokensNoSpec := update batch.numTokensNoSpec row
        (start + newTokenIds.length) }
  | .numTokens numTokensNoSpec =>
    { batch with
      numTokensNoSpec := update batch.numTokensNoSpec row numTokensNoSpec }
  | .numComputedTokens numComputedTokens =>
    { batch with
      numComputedTokensCpu := update batch.numComputedTokensCpu row numComputedTokens }
  | .newBlocks newBlockIds =>
    { batch with
      blockTables := List.zipWith (appendRow · · row) batch.blockTables newBlockIds }
  | .numAcceptedTokens numTokens =>
    { batch with
      numAcceptedTokensCpu := update batch.numAcceptedTokensCpu row numTokens }

end InputBatch

end Vllm.Worker
