import Vllm.Foundation.System
import Vllm.Worker.InputBatch

namespace Vllm.Worker

open Foundation InputBatch BlockTable
open Hashing (TokenId)
open KVCache (RequestId BlockId)

/-!
# Rows follow their requests

What the batch holds for a request is what was written for it since it was last
added.  The abstract state records this for each request, independently of any
row: adding a request starts a record and every write to the request changes it.

The rows are right when the row of each request holds its record.  All columns
of a row are compared, the long ones at every active position.  An active position
that was not written since the request was added must hold its initial value, so
that nothing of an earlier request is left over there.
-/

/-- The parameters of sampling in a row. -/
@[ext]
structure SamplingRow where
  temperature : Rat
  topP : Rat
  topK : Int
  frequencyPenalty : Rat
  presencePenalty : Rat
  repetitionPenalty : Rat
  deriving DecidableEq

/-- The columns that always have a meaning. -/
@[ext]
structure RowParams (E G : Type) where
  specTokenIds : List TokenId
  outputList : Option Nat
  promptEmbeds : Option (List E)
  numTokensNoSpec : Nat
  numPromptTokens : Nat
  numComputedTokens : Nat
  blocks : List (List BlockId)
  numAcceptedTokens : Nat
  loraId : Nat
  generator : Option G
  badWords : Option (List (List TokenId))
  mask : List Bool
  needsTokenIds : Bool
  deriving DecidableEq

/-- The number of positions that are in use: the tokens and the drafts behind
them. -/
def RowParams.activeTokenCount {E G : Type} (params : RowParams E G) : Nat :=
  params.numTokensNoSpec + params.specTokenIds.length

namespace InputBatch

variable {E G : Type}

variable (batch : InputBatch E G) (row : Nat)

/-- A row of the mask.  No token is masked before there is a tensor. -/
def maskRow : List Bool :=
  (List.range batch.vocabSize).map (batch.allowedTokenIdsMaskCpuTensor.getD (fun _ _ => false) row)

def rowParams : RowParams E G where
  specTokenIds := batch.specTokenIdsOf row
  outputList := (batch.reqOutputTokenIds[row]?).join
  promptEmbeds := batch.reqPromptEmbeds row
  numTokensNoSpec := batch.numTokensNoSpec row
  numPromptTokens := batch.numPromptTokens row
  numComputedTokens := batch.numComputedTokensCpu row
  blocks := batch.blockTables.map (blocks · row)
  numAcceptedTokens := batch.numAcceptedTokensCpu row
  loraId := batch.requestLoraMapping row
  generator := batch.generators row
  badWords := batch.badWordsTokenIds row
  mask := batch.maskRow row
  needsTokenIds := batch.logitsProcessingNeedsTokenIds row

def samplingRow : SamplingRow where
  temperature := batch.temperatureCpu row
  topP := batch.topPCpu row
  topK := batch.topKCpu row
  frequencyPenalty := batch.frequencyPenaltiesCpu row
  presencePenalty := batch.presencePenaltiesCpu row
  repetitionPenalty := batch.repetitionPenaltiesCpu row

end InputBatch

/-- The last value written at each position since the request was added, and the
value of every other column.  A pooling request has no parameters of sampling. -/
structure Written (E G : Type) where
  tokenIds : Nat -> Option TokenId
  isTokenIds : Nat -> Option Bool
  params : RowParams E G
  sampling : Option SamplingRow

namespace Written

variable {E G : Type}

variable (vocabSize : Nat)

/-- What the parameters of a request say about its row. -/
def samplingOf (params : SamplingParams) : SamplingRow where
  temperature := storedTemperature params
  topP := params.topP
  topK := storedTopK vocabSize params
  frequencyPenalty := params.frequencyPenalty
  presencePenalty := params.presencePenalty
  repetitionPenalty := params.repetitionPenalty

def maskFor (allowedTokenIds : List Nat) : List Bool :=
  (List.range vocabSize).map (fun token =>
    decide (allowedTokenIds ≠ [] /\ token ∉ allowedTokenIds))

/-- The record of a request that was just added. -/
def ofRequest (blocksPerKvBlock : List Nat) (request : CachedRequestState E G) : Written E G where
  tokenIds k :=
    if k < request.numPromptTokens then request.promptTokenIds.bind (fun tokens => tokens[k]?)
    else request.outputTokenIds[k - request.numPromptTokens]?
  isTokenIds k :=
    if k < request.numPromptTokens then some request.promptTokenIds.isSome
    else if k < request.numTokens then some true
    else none
  params :=
    { specTokenIds := []
      outputList := some request.outputList
      promptEmbeds := request.promptEmbeds
      numTokensNoSpec := request.numTokens
      numPromptTokens := request.numPromptTokens
      numComputedTokens := request.numComputedTokens
      blocks := List.zipWith mapToKernelBlocks blocksPerKvBlock request.blockIds
      numAcceptedTokens := 1
      loraId := (request.loraRequest.map LoRARequest.loraIntId).getD 0
      generator := if request.samplingParams.isSome then request.generator else none
      badWords := request.samplingParams.bind (fun params =>
        nonEmpty params.badWordsTokenIds)
      mask := maskFor vocabSize ((request.samplingParams.map SamplingParams.allowedTokenIds).getD [])
      needsTokenIds := match request.samplingParams with
        | some _ => false
        | none => (request.poolingParams.map PoolingParams.requiresTokenIds).getD false }
  sampling := request.samplingParams.map (samplingOf vocabSize)

/-- A write to the row of a request changes its record. -/
def write (blocksPerKvBlock : List Nat) (written : Written E G) :
    InputBatch.RowWrite -> Written E G
  | .specTokens specTokenIds =>
    { written with
      tokenIds := writeSlice written.tokenIds written.params.numTokensNoSpec
        (specTokenIds.map some)
      params := { written.params with specTokenIds := specTokenIds } }
  | .sampledTokens sampledIds =>
    let start := written.params.numTokensNoSpec
    let stop := start + sampledIds.length
    { written with
      tokenIds := writeSlice written.tokenIds start (sampledIds.map some)
      isTokenIds := fillSlice written.isTokenIds start stop (some true)
      params := { written.params with numTokensNoSpec := stop } }
  | .newTokens start newTokenIds =>
    { written with
      tokenIds := writeSlice written.tokenIds start (newTokenIds.map some)
      params := { written.params with
        numTokensNoSpec := start + newTokenIds.length } }
  | .numTokens numTokensNoSpec =>
    { written with
      params := { written.params with numTokensNoSpec := numTokensNoSpec } }
  | .numComputedTokens numComputedTokens =>
    { written with params := { written.params with numComputedTokens := numComputedTokens } }
  | .newBlocks newBlockIds =>
    { written with
      params := { written.params with
        blocks := List.zipWith (fun old new => old ++ new) written.params.blocks
          (List.zipWith mapToKernelBlocks blocksPerKvBlock newBlockIds) } }
  | .numAcceptedTokens numTokens =>
    { written with params := { written.params with numAcceptedTokens := numTokens } }

end Written

/-- A row of the batch holds what was written for a request.  Every active position
has the value that was last written there, or its initial value if nothing was
written there for this request. -/
structure RowHolds {E G : Type} (batch : InputBatch E G) (row : Nat) (written : Written E G) :
    Prop where
  tokenIds : ∀ k < written.params.activeTokenCount,
    batch.tokenIdsCpu row k = (written.tokenIds k).getD 0
  isTokenIds : ∀ k < written.params.activeTokenCount,
    batch.isTokenIds row k = (written.isTokenIds k).getD false
  params : batch.rowParams row = written.params
  sampling : ∀ sampling ∈ written.sampling, batch.samplingRow row = sampling

/-- The parts of a step, in their order. -/
inductive StepPhase where
  | removing
  | adding
  | condensed
  deriving DecidableEq

/-- The calls of the model runner on its batch. -/
inductive BatchCall (E G : Type) where
  | removeRequest (reqId : RequestId)
  | addRequest (request : CachedRequestState E G)
  | condense
  | swapStates (first second : Nat)
  | refreshMetadata
  | write (reqId : RequestId) (write : InputBatch.RowWrite)

/-- A batch, the part of the step that it is in, and what was written for each
request that is in it. -/
structure WorkerState (E G : Type) where
  batch : InputBatch E G
  phase : StepPhase
  written : RequestId -> Option (Written E G)

namespace WorkerState

variable {E G : Type}

variable (state : WorkerState E G)

def blocksPerKvBlock : List Nat :=
  state.batch.blockTables.map BlockTable.blocksPerKvBlock

/-- The batch after a call, together with the record of what was written for each
request. -/
def advance : BatchCall E G -> Except BatchError (WorkerState E G)
  | .removeRequest reqId =>
    match state.batch.removeRequest reqId with
    | .error error => .error error
    | .ok batch => .ok ⟨batch, .removing, Function.update state.written reqId none⟩
  | .addRequest request =>
    match state.batch.addRequest request with
    | .error error => .error error
    | .ok batch => .ok ⟨batch, .adding, Function.update state.written request.reqId
        (some (Written.ofRequest batch.vocabSize state.blocksPerKvBlock request))⟩
  | .condense =>
    match state.batch.condense with
    | .error error => .error error
    | .ok batch => .ok ⟨batch, .condensed, state.written⟩
  | .swapStates first second =>
    match state.batch.swapStates first second with
    | .error error => .error error
    | .ok batch => .ok ⟨batch, .condensed, state.written⟩
  | .refreshMetadata => .ok ⟨state.batch.refreshMetadata, .removing, state.written⟩
  | .write reqId write =>
    match state.batch.reqIdToIndex.get? reqId with
    | none => .error .keyMissing
    | some row => .ok ⟨state.batch.writeRow row write, state.phase,
        Function.update state.written reqId ((state.written reqId).map
          (fun written => written.write state.blocksPerKvBlock write))⟩

/-- A request may be added: its id is not live, it is of the kind that the model
serves, and it has a list of blocks for every group. -/
def MayAdd (batch : InputBatch E G) (request : CachedRequestState E G) : Prop :=
  batch.reqIdToIndex.get? request.reqId = none /\
    request.samplingParams.isSome = !batch.isPoolingModel /\
    request.blockIds.length = batch.blockTables.length

/-- The calls of a worker.  A step removes requests first, then adds some,
condenses the batch, swaps rows and ends. -/
def Permitted : BatchCall E G -> Prop
  | .removeRequest _ => state.phase = .removing
  | .addRequest request => state.phase ≠ .condensed /\ MayAdd state.batch request
  | .condense => state.phase ≠ .condensed
  | .swapStates _ _ => state.phase = .condensed
  | .refreshMetadata => state.phase = .condensed
  | .write _ (.newBlocks newBlockIds) => newBlockIds.length = state.batch.blockTables.length
  | .write _ (.numAcceptedTokens _) => state.batch.isPoolingModel = false
  | .write _ _ => True

end WorkerState

/-- All runs of a worker.  An exception ends a run. -/
def workerSystem (E G : Type) : System (WorkerState E G) (BatchCall E G) where
  initial state := (∃ isPoolingModel maxNumReqs vocabSize blocksPerKvBlock memory integers,
      state.batch = init isPoolingModel maxNumReqs vocabSize blocksPerKvBlock memory
        integers) /\
    state.phase = .removing /\ ∀ reqId, state.written reqId = none
  step state call after := state.Permitted call /\ state.advance call = .ok after

end Vllm.Worker
