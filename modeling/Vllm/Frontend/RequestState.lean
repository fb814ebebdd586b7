import Vllm.Frontend.Detokenizer

namespace Vllm.Frontend

open Sched (Token FinishReason)

/-!
# The outputs of a request

A request keeps its tokens, its text and its log probabilities, and makes an
output from them when the engine delivers something.  In delta mode an output
has what is new by three cursors: the offsets of the tokens and of the text that
were sent, and the number of new tokens, by which the log probabilities are cut.

The requests of a fan-out share a parent, which knows the requests that have
not finished and collects the outputs if only the final one is wanted.

Log probabilities are handed out as a list of their own, or as the very list
that the request goes on to append to.  An output says which.
-/

/-- How the outputs of a request are sent: each with everything so far, each with
what is new, or one at the end. -/
inductive RequestOutputKind where
  | cumulative
  | delta
  | finalOnly
  deriving DecidableEq

/-- Why a request stopped: what the engine said, or a stop string. -/
inductive StopReason where
  | engine (reason : Sched.StopReason)
  | string (stopString : Text)
  deriving DecidableEq

/-- A list inside an output: one of its own, or the one that the request with
some index still appends to. -/
inductive Entries (A : Type) where
  | own (items : List A)
  | live (requestIndex : Nat)
  deriving DecidableEq

/-- The part of an output that belongs to one sample of a request.  The list of
log probabilities may be the one that the request goes on to extend. -/
structure CompletionOutput (P : Type) where
  index : Nat
  text : Text
  tokenIds : List Token
  logprobs : Option (Entries P)
  finishReason : Option FinishReason
  stopReason : Option StopReason
  deriving DecidableEq

/-- An output for the consumer.  A position without a completion is a child that
has not finished. -/
structure RequestOutput (P : Type) where
  requestId : String
  promptLogprobs : Option (Entries (Option P))
  outputs : List (Option (CompletionOutput P))
  finished : Bool
  deriving DecidableEq

/-- The output of a pooling request, whose data is left out. -/
structure PoolingRequestOutput where
  requestId : String
  finished : Bool
  deriving DecidableEq

/-- What can wait in a queue of outputs. -/
inductive AnyOutput (P : Type) where
  | request (output : RequestOutput P)
  | pooling (output : PoolingRequestOutput)
  deriving DecidableEq

/-- The exceptions that making and merging outputs can raise. -/
inductive FrontendError where
  | assertion
  | valueError
  | indexError
  | attributeError
  | recursion
  deriving DecidableEq

/-- Python's `items[-count:]`: the last items, but all of them for a count of
zero. -/
def sliceLast {A : Type} (count : Nat) (items : List A) : List A :=
  if count = 0 then items else items.drop (items.length - count)

/-- The positions of the output and of the prompt, if they were asked for.  The
first position of the prompt has none. -/
structure LogprobsProcessor (P : Type) where
  logprobs : Option (List P)
  promptLogprobs : Option (List (Option P))

namespace LogprobsProcessor

variable {P : Type} (processor : LogprobsProcessor P)

/-- A new collector: a list is there exactly if it was asked for. -/
def init (hasLogprobs hasPromptLogprobs : Bool) : LogprobsProcessor P where
  logprobs := if hasLogprobs then some [] else none
  promptLogprobs := if hasPromptLogprobs then some [none] else none

/-- Append the new positions.  Positions that were not asked for are an error. -/
def updateFromOutput (newLogprobs newPromptLogprobs : Option (List P)) :
    Except FrontendError Unit × LogprobsProcessor P :=
  match newLogprobs, processor.logprobs with
  | some _, none => (.error .assertion, processor)
  | _, _ =>
    let processor :=
      { processor with
        logprobs := processor.logprobs.map (fun logprobs => logprobs ++ newLogprobs.getD []) }
    match newPromptLogprobs, processor.promptLogprobs with
    | some _, none => (.error .assertion, processor)
    | _, _ =>
      (.ok (),
        { processor with
          promptLogprobs := processor.promptLogprobs.map (fun promptLogprobs =>
            promptLogprobs ++ (newPromptLogprobs.getD []).map some) })

/-- Hand out the positions of the prompt and forget them.  An empty list is
handed out as it is. -/
def popPromptLogprobs (requestIndex : Nat) :
    Option (Entries (Option P)) × LogprobsProcessor P :=
  match processor.promptLogprobs with
  | none => (none, processor)
  | some [] => (some (.live requestIndex), processor)
  | some (first :: rest) =>
    (some (.own (first :: rest)), { processor with promptLogprobs := some [] })

end LogprobsProcessor

/-- The parent of the samples of one request.  `childRequests` are those that have
not finished, and the aggregator collects outputs that are sent together at the
end. -/
structure ParentRequest (P : Type) where
  requestId : String
  externalReqId : String
  outputKind : RequestOutputKind
  childRequests : List String
  outputAggregator : List (Option (CompletionOutput P))

namespace ParentRequest

variable {P : Type} (parent : ParentRequest P)

/-- The outputs to send when a child has one, and whether all children that are
counted have finished. -/
def getOutputs (childRequestId : String) (completionOutput : CompletionOutput P) :
    Except FrontendError (List (Option (CompletionOutput P)) × Bool) × ParentRequest P :=
  let finishes := completionOutput.finishReason.isSome
  let alreadyFinishedAndReturned := finishes /\ childRequestId ∉ parent.childRequests
  let parent :=
    { parent with
      childRequests :=
        if finishes then parent.childRequests.erase childRequestId else parent.childRequests }
  let finished := decide (parent.childRequests = [])
  if parent.outputKind ≠ .finalOnly then
    (.ok (if alreadyFinishedAndReturned then [] else [some completionOutput], finished), parent)
  else if completionOutput.index < parent.outputAggregator.length then
    let parent :=
      { parent with
        outputAggregator :=
          parent.outputAggregator.set completionOutput.index (some completionOutput) }
    (.ok (if finished then parent.outputAggregator else [], finished), parent)
  else
    (.error .indexError, parent)

end ParentRequest

/-- The next input of a streaming session. -/
structure StreamingUpdate where
  final : Bool
  deriving DecidableEq

/-- The parameters of a request that samples. -/
structure SamplingArgs (D : Type) where
  outputKind : RequestOutputKind
  decoder : Option D
  stop : List Text
  minTokens : Nat
  includeStopStrInOutput : Bool
  hasLogprobs : Bool
  hasPromptLogprobs : Bool

/-- A request samples or pools. -/
inductive RequestParams (D : Type) where
  | sampling (args : SamplingArgs D)
  | pooling (outputKind : RequestOutputKind)

/-- A request as it is handed to the engine. -/
structure EngineCoreRequest (D : Type) where
  requestId : String
  externalReqId : String
  params : RequestParams D
  resumable : Bool

/-- What the engine reports for a request after a step. -/
structure EngineCoreOutput (P : Type) where
  requestId : String
  newTokenIds : List Token
  newLogprobs : Option (List P)
  newPromptLogprobs : Option (List P)
  hasPoolingOutput : Bool
  finishReason : Option FinishReason
  stopReason : Option Sched.StopReason

/-- What the front end keeps for a request.  The detokenizer and the collector of
log probabilities are missing for pooling.  The parent and the queue are
references. -/
structure RequestState (D P : Type) where
  requestId : String
  externalReqId : String
  parentReq : Option Nat
  requestIndex : Nat
  outputKind : RequestOutputKind
  detokenizer : Option (Detokenizer D)
  logprobsProcessor : Option (LogprobsProcessor P)
  queue : Option Nat
  streamInterval : Nat
  sentTokensOffset : Nat
  streamingInput : Bool
  inputChunkQueue : Option (List StreamingUpdate)

namespace RequestState

variable {D P : Type}

/-- The state of a new request.  It has a detokenizer and a collector of log
probabilities if it samples. -/
def fromNewRequest (request : EngineCoreRequest D) (parentReq : Option Nat) (requestIndex : Nat)
    (queue : Option Nat) (streamInterval : Nat) : RequestState D P where
  requestId := request.requestId
  externalReqId := request.externalReqId
  parentReq := parentReq
  requestIndex := requestIndex
  outputKind :=
    match request.params with
    | .sampling args => args.outputKind
    | .pooling outputKind => outputKind
  detokenizer :=
    match request.params with
    | .sampling args =>
      some
        { decoder := args.decoder
          tokenIds := []
          stop := args.stop
          minTokens := args.minTokens
          includeStopStrInOutput := args.includeStopStrInOutput
          lastOutputTextOffset := 0
          outputText := [] }
    | .pooling _ => none
  logprobsProcessor :=
    match request.params with
    | .sampling args => some (.init args.hasLogprobs args.hasPromptLogprobs)
    | .pooling _ => none
  queue := queue
  streamInterval := streamInterval
  sentTokensOffset := 0
  streamingInput := request.resumable
  inputChunkQueue := if request.resumable then some [] else none

variable (state : RequestState D P)

/-- With a stream interval, an output is sent when the request has finished, for
the first token, and when enough tokens have come together. -/
def sendsNow (detokenizer : Detokenizer D) (finished : Bool) : Bool :=
  finished \/ state.sentTokensOffset = 0 \/
    state.sentTokensOffset + state.streamInterval <= detokenizer.numOutputTokens

variable (parent : Option (ParentRequest P)) (newTokenIds : List Token)

/-- The tokens of an output.  With a stream interval these are all that were not
sent yet. -/
def takeNewTokens : List Token × RequestState D P :=
  match state.detokenizer with
  | none => (newTokenIds, state)
  | some detokenizer =>
    if 1 < state.streamInterval /\ state.outputKind = .delta then
      (detokenizer.tokenIds.drop state.sentTokensOffset,
        { state with sentTokensOffset := detokenizer.numOutputTokens })
    else
      (newTokenIds, state)

variable (processor : LogprobsProcessor P)

/-- What a completion output says about log probabilities. -/
def outputLogprobs (tokenIds : List Token) : Option (Entries P) :=
  match processor.logprobs with
  | none => none
  | some logprobs =>
    if state.outputKind = .delta /\ logprobs ≠ [] then
      some (.own (sliceLast tokenIds.length logprobs))
    else
      some (.live state.requestIndex)

/-- Take the text, and in delta mode the tokens and log probabilities, that are
new. -/
def newCompletionOutput (detokenizer : Detokenizer D) (processor : LogprobsProcessor P)
    (tokenIds : List Token) (finishReason : Option FinishReason) (stopReason : Option StopReason) :
    CompletionOutput P × RequestState D P :=
  let finished := finishReason.isSome
  let next := detokenizer.getNextOutputText finished (decide (state.outputKind = .delta))
  let tokenIds := if state.outputKind = .delta then tokenIds else detokenizer.tokenIds
  ({ index := state.requestIndex
     text := next.1
     tokenIds := tokenIds
     logprobs := state.outputLogprobs processor tokenIds
     finishReason := finishReason
     stopReason := if finished then stopReason else none },
    { state with detokenizer := some next.2 })

/-- Wrap completions.  In delta mode the log probabilities of the prompt are
handed out once. -/
def newRequestOutput (externalReqId : String)
    (outputs : List (Option (CompletionOutput P))) (finished : Bool) :
    RequestOutput P × RequestState D P :=
  if state.outputKind = .delta then
    let popped := processor.popPromptLogprobs state.requestIndex
    (⟨externalReqId, popped.1, outputs, finished⟩,
      { state with logprobsProcessor := some popped.2 })
  else
    (⟨externalReqId, processor.promptLogprobs.map (fun _ => .live state.requestIndex), outputs,
      finished⟩, state)

/-- What a call that makes an output leaves behind, with its parent if it has
one. -/
structure Made (D P : Type) where
  result : Except FrontendError (Option (AnyOutput P))
  state : RequestState D P
  parent : Option (ParentRequest P)

/-- Make the output of a request that samples, through its parent if it has one.
-/
def makeCompletion
    (finishReason : Option FinishReason) (stopReason : Option StopReason) : Made D P :=
  match state.detokenizer, state.logprobsProcessor with
  | some detokenizer, some processor =>
    let completion := state.newCompletionOutput detokenizer processor newTokenIds finishReason
      stopReason
    let state := completion.2
    match parent with
    | none =>
      let made := state.newRequestOutput processor state.externalReqId [some completion.1]
        finishReason.isSome
      ⟨.ok (some (.request made.1)), made.2, none⟩
    | some parent =>
      let collected := parent.getOutputs state.requestId completion.1
      match collected.1 with
      | .error error => ⟨.error error, state, some collected.2⟩
      | .ok (outputs, finished) =>
        if outputs = [] then ⟨.ok none, state, some collected.2⟩
        else
          let made := state.newRequestOutput processor parent.externalReqId outputs finished
          ⟨.ok (some (.request made.1)), made.2, some collected.2⟩
  | _, _ => ⟨.error .assertion, state, parent⟩

/-- Make the output of a request, or none if it is held back.  Tokens are held
back until the interval is full, and all of them if only the final output is
wanted. -/
def makeRequestOutput
    (hasPoolingOutput : Bool) (finishReason : Option FinishReason) (stopReason : Option StopReason) :
    Made D P :=
  let finished := finishReason.isSome
  if finished = false /\ state.outputKind = .finalOnly then ⟨.ok none, state, parent⟩
  else
    match decide (1 < state.streamInterval), state.detokenizer with
    | true, none => ⟨.error .assertion, state, parent⟩
    | intervals, detokenizer =>
      if intervals = true /\ ∃ current ∈ detokenizer, state.sendsNow current finished = false then
        ⟨.ok none, state, parent⟩
      else
        let taken := state.takeNewTokens newTokenIds
        let state := taken.2
        if hasPoolingOutput then
          ⟨.ok (some (.pooling ⟨state.externalReqId, finished⟩)), state, parent⟩
        else
          state.makeCompletion parent taken.1 finishReason stopReason

end RequestState

end Vllm.Frontend
