import Vllm.Foundation.System
import Vllm.Frontend.Collector

namespace Vllm.Frontend

open Foundation Function
open Sched (Token FinishReason)

/-!
# The stream of one user request

A user request is one request or a fan-out of several that share a parent and a
collector.  The engine delivers outputs for the requests, the user may abort
them, and the consumer reads the collector whenever it likes until it has read
an output that is marked as finished.

For comparison every request has a twin that gets the same engine outputs in
cumulative mode.  The last output of the twin is what the deltas have to add up
to.
-/

namespace RequestState

variable {D P : Type}

/-- Detokenize new tokens and take the log probabilities.  The result is the stop
string that was found. -/
def takeOutput (decodeNext : D -> Token -> D × Text) (state : RequestState D P)
    (engineCoreOutput : EngineCoreOutput P) :
    Except FrontendError (Option Text) × RequestState D P :=
  match state.detokenizer, state.logprobsProcessor with
  | some detokenizer, some logprobs =>
    let updated := detokenizer.update decodeNext engineCoreOutput.newTokenIds
      (decide (engineCoreOutput.finishReason = some .stop))
    let taken := logprobs.updateFromOutput engineCoreOutput.newLogprobs
      engineCoreOutput.newPromptLogprobs
    let state := { state with detokenizer := some updated.2, logprobsProcessor := some taken.2 }
    (taken.1.map (fun _ => updated.1), state)
  | _, _ => (.error .assertion, state)

variable (state : RequestState D P)

/-- The log probabilities that the request has collected. -/
def logprobList : List P :=
  ((state.logprobsProcessor.bind LogprobsProcessor.logprobs)).getD []

/-- The log probabilities of the prompt that were not handed out yet. -/
def promptLogprobList : List (Option P) :=
  ((state.logprobsProcessor.bind LogprobsProcessor.promptLogprobs)).getD []

def withLogprobs (logprobs : List P) : RequestState D P :=
  { state with
    logprobsProcessor := state.logprobsProcessor.map (fun processor =>
      { processor with logprobs := processor.logprobs.map (fun _ => logprobs) }) }

end RequestState

/-- A completion as a consumer sees it. -/
structure SeenCompletion (P : Type) where
  index : Nat
  tokenIds : List Token
  text : Text
  logprobs : List P
  deriving DecidableEq

/-- An output as a consumer sees it. -/
structure Seen (P : Type) where
  completions : List (SeenCompletion P)
  promptLogprobs : List (Option P)
  finished : Bool
  deriving DecidableEq

/-- One request of a user with its samples, the queue between them and the
consumer, and what the consumer has received.

Beside each sample there is a twin that is never sent anything but one cumulative
output at its end.  What the twins return is the meaning of the stream. -/
structure Stream (D P : Type) where
  decodeNext : D -> Token -> D × Text
  n : Nat
  requests : Nat -> RequestState D P
  isLive : Nat -> Bool
  parent : Option (ParentRequest P)
  output : Option (AnyOutput P)
  received : List (Seen P)
  twins : Nat -> RequestState D P
  finals : Nat -> Option (Seen P)

namespace Stream

variable {D P : Type} (stream : Stream D P)

/-- The lists of log probabilities that outputs may refer to. -/
def logprobLists : Nat -> List P := fun index => (stream.requests index).logprobList

def promptLogprobLists : Nat -> List (Option P) :=
  fun index => (stream.requests index).promptLogprobList

end Stream

/-- What the consumer sees of a completion when it reads it. -/
def CompletionOutput.seen {P : Type} (lists : Nat -> List P) (completion : CompletionOutput P) :
    SeenCompletion P where
  index := completion.index
  tokenIds := completion.tokenIds
  text := completion.text
  logprobs := completion.logprobItems lists

/-- What a consumer sees of an output. -/
def AnyOutput.seen {P : Type} (lists : Nat -> List P) (promptLists : Nat -> List (Option P)) :
    AnyOutput P -> Seen P
  | .request output =>
    { completions := output.outputs.filterMap (Option.map (CompletionOutput.seen lists))
      promptLogprobs := (output.promptLogprobs.map (Entries.items promptLists)).getD []
      finished := output.finished }
  | .pooling output => ⟨[], [], output.finished⟩

namespace Stream

variable {D P : Type} (stream : Stream D P)

/-- The consumer has read an output that is marked as finished. -/
def ended : Bool := stream.received.any Seen.finished

/-- Put an output into the queue.  One that waits there is merged with it. -/
def put (output : AnyOutput P) : Except FrontendError (Stream D P) :=
  match putOutput true stream.logprobLists stream.output output with
  | .error error => .error error
  | .ok (waiting, lists) =>
    .ok { stream with
      output := waiting
      requests := fun index => (stream.requests index).withLogprobs (lists index) }

variable (index : Nat)

/-- The final cumulative output of a twin. -/
def finalOf (twin : RequestState D P) (newTokenIds : List Token)
    (finishReason : FinishReason) (stopReason : Option StopReason) : Option (Seen P) :=
  match (twin.makeRequestOutput none newTokenIds false (some finishReason) stopReason).result with
  | .ok (some output) =>
    some (output.seen (update (fun _ => []) index twin.logprobList)
      (update (fun _ => []) index twin.promptLogprobList))
  | _ => none

variable (newTokenIds : List Token)
  (finishReason : Option FinishReason)
  (stopReason : Option StopReason)

/-- A request that finishes has its final output from its twin. -/
def finalsAfter : Nat -> Option (Seen P) :=
  match finishReason with
  | none => stream.finals
  | some reason =>
    update stream.finals index
      (finalOf index (stream.twins index) newTokenIds reason stopReason)

/-- Let a request make an output, send it, and close the request if it has
finished. -/
def send : Except FrontendError (Stream D P) :=
  let made := (stream.requests index).makeRequestOutput stream.parent newTokenIds false finishReason
    stopReason
  match made.result with
  | .error error => .error error
  | .ok output =>
    let stream :=
      { stream with
        requests := update stream.requests index made.state
        parent := made.parent
        isLive :=
          if finishReason.isSome then update stream.isLive index false
          else stream.isLive
        finals := stream.finalsAfter index newTokenIds finishReason stopReason }
    match output with
    | none => .ok stream
    | some output => stream.put output

/-- An engine output for a live sample: its tokens are taken, it may be stopped by
a stop string, and what is to be sent is put into the queue. -/
def processOutput (engineCoreOutput : EngineCoreOutput P) : Except FrontendError (Stream D P) :=
  let taken := (stream.requests index).takeOutput stream.decodeNext engineCoreOutput
  match taken.1 with
  | .error error => .error error
  | .ok stopString =>
    let twin := ((stream.twins index).takeOutput stream.decodeNext engineCoreOutput).2
    let finishReason :=
      if stopString.isSome then some FinishReason.stop else engineCoreOutput.finishReason
    let stopReason :=
      match stopString with
      | some text => some (StopReason.string text)
      | none => engineCoreOutput.stopReason.map StopReason.engine
    send
      { stream with
        requests := update stream.requests index taken.2
        twins := update stream.twins index twin }
      index engineCoreOutput.newTokenIds finishReason stopReason

/-- What can happen to a stream: the engine reports an output for a sample, a
sample is aborted, or the consumer reads. -/
inductive Event (P : Type) where
  | output (index : Nat) (engineCoreOutput : EngineCoreOutput P)
  | abort (index : Nat)
  | read

/-- What happens next.  Outputs and aborts of requests that are gone are ignored,
and so are reads when there is nothing to read or the consumer has left. -/
def next : Event P -> Except FrontendError (Stream D P)
  | .output index engineCoreOutput =>
    if stream.isLive index then stream.processOutput index engineCoreOutput else .ok stream
  | .abort index =>
    if stream.isLive index then stream.send index [] (some .abort) none else .ok stream
  | .read =>
    match stream.output with
    | none => .ok stream
    | some output =>
      if stream.ended then .ok stream
      else
        .ok { stream with
          output := none
          received := stream.received ++
            [output.seen stream.logprobLists stream.promptLogprobLists] }

/-- The id of a request of the stream: its own, or one that the parent gives it. -/
def childId (requestId : String) (n index : Nat) : String :=
  if n = 1 then requestId else toString index ++ "_" ++ requestId

/-- A request that samples and streams, before anything has happened to it.
Empty stop strings are refused with the parameters.

All the children of the request are there from the start.  The front end adds
them to the output processor one after the other and the engine may answer for
the first ones before the last one is added; runs with outputs at that time are
not covered. -/
structure Starts (args : SamplingArgs D) (requestId externalReqId : String)
    (streamInterval : Nat) : Prop where
  positive : 0 < stream.n
  isDelta : args.outputKind = .delta
  stops : ∀ stopStr ∈ args.stop, stopStr ≠ []
  interval : 0 < streamInterval
  requests : ∀ index, stream.requests index =
    .fromNewRequest ⟨childId requestId stream.n index, externalReqId, .sampling args, false⟩
      (if stream.n = 1 then none else some 0) index (some 0) streamInterval
  isLive : ∀ index, stream.isLive index = decide (index < stream.n)
  parent : stream.parent =
    if stream.n = 1 then none
    else some
      { requestId := requestId
        externalReqId := externalReqId
        outputKind := args.outputKind
        childRequests := (List.range stream.n).map (childId requestId stream.n)
        outputAggregator := [] }
  output : stream.output = none
  received : stream.received = []
  twins : ∀ index, stream.twins index =
    { stream.requests index with outputKind := .cumulative }
  finals : ∀ index, stream.finals index = none

/-- All runs of a stream.  An exception ends a run. -/
def system (D P : Type) : System (Stream D P) (Event P) where
  initial stream := ∃ args requestId externalReqId streamInterval,
    stream.Starts args requestId externalReqId streamInterval
  step stream event after := stream.next event = .ok after

end Stream

end Vllm.Frontend
