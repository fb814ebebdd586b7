import Vllm.Frontend.Waiting

namespace Vllm.Frontend

open Foundation RequestState CompletionOutput Detokenizer Function List Option
open Sched (Token FinishReason)

/-!
# Streamed deltas add up

Between two events, what a consumer has received for a request together with what
waits in the collector is what the request has sent.  When a request has
finished this is everything, and it is the same as the last output of its twin
in cumulative mode.

This needs outputs with tokens in them: an output without tokens sends all log
probabilities once more.
-/

namespace ParentRequest

variable {P : Type} {parent : ParentRequest P} {id : String} {completion : CompletionOutput P}

theorem getOutputs_outputKind :
    (parent.getOutputs id completion).2.outputKind = parent.outputKind := by
  simp only [getOutputs]
  split
  · rfl
  split
  · rfl
  · rfl

/-- A child that finishes is not counted any more. -/
theorem getOutputs_childRequests : (parent.getOutputs id completion).2.childRequests =
      if completion.finishReason.isSome then parent.childRequests.erase id
      else parent.childRequests := by
  simp only [getOutputs]
  split
  · rfl
  split
  · rfl
  · rfl

end ParentRequest

namespace RequestState

variable {D P : Type} {state twin : RequestState D P} {detokenizer : Detokenizer D}
  {processor twinProcessor : LogprobsProcessor P} {decodeNext : D -> Token -> D × Text}
  {sent : Delta P} {count : Nat}

theorem externalReqId_takeNewTokens (newTokenIds : List Token) :
    (state.takeNewTokens newTokenIds).2.externalReqId = state.externalReqId := by
  rw [takeNewTokens]
  split
  · rfl
  case h_2 detokenizer samples =>
    split
    · rfl
    · rfl

/-- A request that finishes makes its last output, whatever the stream interval
is. -/
theorem makeRequestOutput_finishing {parent : Option (ParentRequest P)} {pooling : Bool}
    {newTokenIds : List Token} {reason : Option FinishReason} {stopReason : Option StopReason}
    (finishes : reason.isSome = true)
    (ready : 1 < state.streamInterval -> state.detokenizer.isSome = true) :
    state.makeRequestOutput parent newTokenIds pooling reason stopReason =
      if pooling then
        ⟨.ok (some (.pooling ⟨state.externalReqId, true⟩)),
          (state.takeNewTokens newTokenIds).2, parent⟩
      else
        (state.takeNewTokens newTokenIds).2.makeCompletion parent
          (state.takeNewTokens newTokenIds).1 reason stopReason := by
  have sends : ∀ detokenizer : Detokenizer D, state.sendsNow detokenizer true = true := by
    intro detokenizer
    simp [sendsNow]
  have external := @externalReqId_takeNewTokens D P state newTokenIds
  cases isDetokenizer : state.detokenizer with
  | none =>
    have short : ¬ 1 < state.streamInterval := by
      intro long
      have isSome := ready long
      rw [isDetokenizer] at isSome
      cases isSome
    simp [makeRequestOutput, finishes, isDetokenizer, short, external]
  | some detokenizer =>
    simp [makeRequestOutput, finishes, isDetokenizer, sends, external]

/-- The same request in cumulative mode. -/
structure IsTwin (state twin : RequestState D P) : Prop where
  cumulative : twin.outputKind = .cumulative
  index : twin.requestIndex = state.requestIndex
  detokenizer : twin.detokenizer = state.detokenizer.map (fun own => own.withOffset 0)
  logprobs : twin.logprobsProcessor.map LogprobsProcessor.logprobs =
    state.logprobsProcessor.map LogprobsProcessor.logprobs

theorem finalOf_eq {index : Nat} (isTwin : state.IsTwin twin) (isIndex : state.requestIndex = index)
    (isDetokenizer : state.detokenizer = some detokenizer) (quiet : detokenizer.Quiet)
    (isProcessor : state.logprobsProcessor = some processor)
    (isTwinProcessor : twin.logprobsProcessor = some twinProcessor) (newTokenIds : List Token)
    (reason : FinishReason) (stopReason : Option StopReason) :
    Stream.finalOf index twin newTokenIds reason stopReason = some
        { completions :=
            [⟨index, detokenizer.tokenIds, detokenizer.outputText, processor.logprobs.getD []⟩]
          promptLogprobs := twinProcessor.promptLogprobs.getD []
          finished := true } := by
  have twinDetokenizer : twin.detokenizer = some (detokenizer.withOffset 0) := by
    rw [isTwin.detokenizer, isDetokenizer]
    rfl
  have notDelta : ¬ twin.outputKind = .delta := by
    rw [isTwin.cumulative]
    exact nofun
  have taken : twin.takeNewTokens newTokenIds = (newTokenIds, twin) := by
    simp only [takeNewTokens, twinDetokenizer]
    rw [if_neg (fun both => notDelta both.2)]
  have isMade : twin.makeRequestOutput none newTokenIds false (some reason) stopReason =
      twin.makeCompletion none newTokenIds (some reason) stopReason := by
    rw [makeRequestOutput_finishing rfl (fun _ => by rw [twinDetokenizer]; rfl), taken]
    rfl
  have sameLogprobs : twinProcessor.logprobs = processor.logprobs := by
    have same := isTwin.logprobs
    rw [isTwinProcessor, isProcessor] at same
    exact some_inj.mp same
  have text : ((detokenizer.withOffset 0).getNextOutputText true false).1 =
      detokenizer.outputText := by
    cases isDecoder : detokenizer.decoder with
    | none =>
      simp only [getNextOutputText, withOffset, isDecoder]
      exact (quiet isDecoder).symm
    | some decoder =>
      simp only [getNextOutputText, withOffset, isDecoder, if_true,
        Nat.sub_zero]
      exact take_length
  have logprobs : twin.logprobList = processor.logprobs.getD [] := by
    simp [logprobList, isTwinProcessor, sameLogprobs]
  have promptLogprobs : twin.promptLogprobList = twinProcessor.promptLogprobs.getD [] := by
    simp [promptLogprobList, isTwinProcessor]
  have twinIndex : twin.requestIndex = index := isTwin.index.trans isIndex
  have tokens : (detokenizer.withOffset 0).tokenIds = detokenizer.tokenIds := rfl
  rw [Stream.finalOf, isMade]
  simp only [makeCompletion, twinDetokenizer, isTwinProcessor, newCompletionOutput,
    newRequestOutput, outputLogprobs, notDelta, if_false, decide_false, isSome_some, text,
    twinIndex, logprobs, promptLogprobs, tokens]
  rcases twinProcessor with ⟨_, twinPrompt⟩
  rw [sameLogprobs]
  cases isLogprobs : processor.logprobs with
  | none =>
    cases twinPrompt with
    | none => simp [AnyOutput.seen, seen, logprobItems]
    | some prompt =>
      simp [AnyOutput.seen, seen, logprobItems, Entries.items]
  | some items =>
    cases twinPrompt with
    | none =>
      simp [AnyOutput.seen, seen, logprobItems, Entries.items]
    | some prompt =>
      simp [AnyOutput.seen, seen, logprobItems, Entries.items]

theorem IsTwin.takeOutput (isTwin : state.IsTwin twin)
    (hasSent : state.HasSent detokenizer processor count sent) (holds : detokenizer.Holds)
    {coreOutput : EngineCoreOutput P} (takesWell : state.TakesWell coreOutput)
    (isTwinProcessor : twin.logprobsProcessor = some twinProcessor)
    (promptAsked : twinProcessor.promptLogprobs.isSome = processor.promptLogprobs.isSome) :
    (state.takeOutput decodeNext coreOutput).2.IsTwin (twin.takeOutput decodeNext coreOutput).2 /\
      (twin.takeOutput decodeNext coreOutput).2.logprobsProcessor =
        some (appended twinProcessor coreOutput) := by
  have sameLogprobs : twinProcessor.logprobs = processor.logprobs := by
    have same := isTwin.logprobs
    rw [isTwinProcessor, hasSent.isProcessor] at same
    exact some_inj.mp same
  have twinDetokenizer : twin.detokenizer = some (detokenizer.withOffset 0) := by
    rw [isTwin.detokenizer, hasSent.isDetokenizer]
    rfl
  have twinTakes : (twin.takeOutput decodeNext coreOutput).2 =
      { twin with
        detokenizer := some ((detokenizer.update decodeNext coreOutput.newTokenIds
          (decide (coreOutput.finishReason = some .stop))).2.withOffset 0)
        logprobsProcessor := some (appended twinProcessor coreOutput) } := by
    simp only [RequestState.takeOutput, twinDetokenizer, isTwinProcessor,
      hasSent.updateFromOutput takesWell sameLogprobs promptAsked, update_withOffset]
  rcases takeOutput_spec decodeNext hasSent takesWell holds with ⟨takes, _⟩
  rw [twinTakes, takes]
  refine ⟨⟨isTwin.cumulative, isTwin.index, rfl, ?_⟩, rfl⟩
  simp only [map_some, appended, sameLogprobs]

/-- Sending does not change what is compared with the twin. -/
theorem IsTwin.afterSending (isTwin : state.IsTwin twin)
    (hasSent : state.HasSent detokenizer processor count sent) (finishes : Bool) :
    (state.afterSending detokenizer processor finishes).IsTwin twin := by
  rcases getNextOutputText_spec hasSent.quiet hasSent.within with
    ⟨_, same, _, _, _⟩
  refine ⟨isTwin.cumulative, isTwin.index, ?_, ?_⟩
  · rw [isTwin.detokenizer, hasSent.isDetokenizer]
    simp only [RequestState.afterSending, map_some]
    rw [same]
    rfl
  rw [isTwin.logprobs, hasSent.isProcessor]
  simp only [RequestState.afterSending, map_some, popPromptLogprobs_logprobs]

theorem makeRequestOutput_waits {parent : Option (ParentRequest P)} {newTokenIds : List Token}
    {stopReason : Option StopReason} (hasSent : state.HasSent detokenizer processor count sent)
    (interval : 1 < state.streamInterval) (waits : state.sendsNow detokenizer false = false) :
    state.makeRequestOutput parent newTokenIds false none stopReason =
      ⟨.ok none, state, parent⟩ := by
  have notFinal : ¬ ((none : Option FinishReason).isSome = false /\
      state.outputKind = .finalOnly) := by
    rw [hasSent.isDelta]
    exact fun both => nomatch both.2
  have held : decide (1 < state.streamInterval) = true /\
      ∃ current ∈ some detokenizer,
        state.sendsNow current (none : Option FinishReason).isSome = false :=
    ⟨decide_eq_true interval, detokenizer, rfl, waits⟩
  simp only [makeRequestOutput, hasSent.isDetokenizer]
  rw [if_neg notFinal]
  split
  case h_1 impossible => cases impossible
  · rw [if_pos held]

end RequestState

/-- What a completion that a consumer sees adds. -/
def SeenCompletion.delta {P : Type} (completion : SeenCompletion P) : Delta P :=
  ⟨completion.tokenIds, completion.text, completion.logprobs⟩

namespace Seen

variable {P : Type}

/-- The part of an output that belongs to one request. -/
def part (index : Nat) (seen : Seen P) : Delta P :=
  seen.completions.foldr (fun completion rest =>
    Delta.join (if completion.index = index then completion.delta else .none) rest) .none

theorem part_request (lists : Nat -> List P) (promptLists : Nat -> List (Option P)) (index : Nat)
    (output : RequestOutput P) :
    ((AnyOutput.request output).seen lists promptLists).part index =
      partOf lists index output.outputs := by
  simp only [AnyOutput.seen, part]
  induction output.outputs with
  | nil => rfl
  | cons first rest ih =>
    cases first with
    | none => exact ih
    | some completion =>
      simp only [filterMap_cons, map_some, foldr_cons]
      rw [ih, partOf]
      rfl

end Seen

namespace Stream

variable {D P : Type} (stream : Stream D P)

variable (index : Nat)

/-- What the consumer has received of a sample. -/
def receivedPart : Delta P :=
  stream.received.foldr (fun seen rest => (seen.part index).join rest) .none

/-- What waits in the queue of a sample. -/
def waitingPart : Delta P :=
  match stream.output with
  | some (.request output) => partOf stream.logprobLists index output.outputs
  | _ => .none

/-- What was sent of a sample, received or not. -/
def total : Delta P := (stream.receivedPart index).join (stream.waitingPart index)

/-- The log probabilities of the prompt that were or will be received. -/
def deliveries : List (List (Option P)) :=
  (stream.received.map Seen.promptLogprobs ++ (stream.output.map (fun output =>
    (output.seen stream.logprobLists stream.promptLogprobLists).promptLogprobs)).toList).filter
      (fun promptLogprobs => ¬ promptLogprobs.isEmpty)

/-- Every request has finished. -/
def Closed : Prop := ∀ index < stream.n, stream.isLive index = false

/-- The log probabilities of a completion that waits are not a list that still
grows. -/
def Settled (completion : CompletionOutput P) : Prop :=
  completion.logprobs = none /\ (stream.requests completion.index).asksLogprobs = false \/
  (∃ items, completion.logprobs = some (.own items)) \/
  completion.logprobs = some (.live completion.index) /\ stream.isLive completion.index = false /\
    stream.logprobLists completion.index = []

/-- An output that waits has one completion for each request in it, and is marked
as finished when all requests have finished. -/
structure Waits (output : RequestOutput P) : Prop where
  present : none ∉ output.outputs
  distinct : (indices output.outputs).Nodup
  settled : ∀ completion, some completion ∈ output.outputs -> stream.Settled completion
  finished : output.finished = true <-> stream.Closed

/-- What holds of the requests between two events, apart from what each has sent. -/
structure Frame (requestId : String) : Prop where
  positive : 0 < stream.n
  ids : ∀ index, (stream.requests index).requestId = childId requestId stream.n index
  indexed : ∀ index, (stream.requests index).requestIndex = index
  beyond : ∀ index, stream.isLive index = true -> index < stream.n
  alone : stream.n = 1 -> stream.parent = none
  family : stream.n ≠ 1 -> ∃ parent, stream.parent = some parent /\
    parent.outputKind ≠ .finalOnly /\
    parent.childRequests = ((List.range stream.n).filter stream.isLive).map
      (childId requestId stream.n)
  twins : ∀ index, stream.isLive index = true ->
    (stream.requests index).IsTwin (stream.twins index)
  finished : ∀ index < stream.n, stream.isLive index = false -> ∃ seen ∈ stream.finals index,
    seen.completions.map SeenCompletion.delta = [stream.total index]
  waits : ∀ output ∈ stream.output, ∃ request, output = .request request /\
    stream.Waits request
  ended : stream.ended = true <-> stream.Closed /\ stream.output = none

/-- A request has sent what was received or waits. -/
def Running : Prop :=
  ∃ detokenizer processor, (stream.requests index).HasSent detokenizer processor
    ((stream.requests index).numSent detokenizer) (stream.total index) /\ detokenizer.Holds

variable {stream} {other : Stream D P} {completion : CompletionOutput P}

/-- What is settled does not depend on the lists of live requests. -/
theorem Settled.items (settled : stream.Settled completion)
    (lists : ∀ index, stream.isLive index = false ->
      other.logprobLists index = stream.logprobLists index) :
    completion.logprobItems stream.logprobLists = completion.logprobItems other.logprobLists := by
  rcases settled with ⟨isNone, _⟩ | ⟨_, isOwn⟩ | ⟨isLive, closed, _⟩
  · simp [logprobItems, isNone]
  · simp [logprobItems, isOwn, Entries.items]
  · simp [logprobItems, isLive, Entries.items, lists completion.index closed]

/-- The requests go on, and nothing is sent or received. -/
structure GoesOn (stream other : Stream D P) : Prop where
  n : other.n = stream.n
  isLive : other.isLive = stream.isLive
  parent : other.parent = stream.parent
  output : other.output = stream.output
  received : other.received = stream.received
  finals : other.finals = stream.finals
  ids : ∀ index, (other.requests index).requestId = (stream.requests index).requestId
  indexed : ∀ index, (other.requests index).requestIndex = (stream.requests index).requestIndex
  asks : ∀ index, (other.requests index).asksLogprobs = (stream.requests index).asksLogprobs
  lists : ∀ index, stream.isLive index = false ->
    other.logprobLists index = stream.logprobLists index

theorem GoesOn.total (goesOn : GoesOn stream other)
    (waits : ∀ output ∈ stream.output, ∃ request, output = .request request /\ stream.Waits request)
    (index : Nat) :
    other.total index = stream.total index := by
  have waiting : other.waitingPart index = stream.waitingPart index := by
    simp only [waitingPart, goesOn.output]
    cases isOutput : stream.output with
    | none => rfl
    | some output =>
      rcases waits output isOutput with ⟨request, isRequest, waitsWell⟩
      rw [isRequest]
      exact (partOf_congr (fun completion member =>
        (waitsWell.settled completion member).items goesOn.lists)).symm
  simp only [Stream.total, waiting, receivedPart, goesOn.received]

theorem GoesOn.frame {requestId : String} (goesOn : GoesOn stream other)
    (frame : stream.Frame requestId) (twins : ∀ index, stream.isLive index = true ->
      (other.requests index).IsTwin (other.twins index)) : other.Frame requestId := by
  have closed : other.Closed <-> stream.Closed := by
    rw [Closed, Closed, goesOn.n, goesOn.isLive]
  have total := goesOn.total frame.waits
  constructor
  · rw [goesOn.n]
    exact frame.positive
  · intro index
    rw [goesOn.ids, goesOn.n]
    exact frame.ids index
  · intro index
    rw [goesOn.indexed]
    exact frame.indexed index
  · rw [goesOn.isLive, goesOn.n]
    exact frame.beyond
  · rw [goesOn.n, goesOn.parent]
    exact frame.alone
  · rw [goesOn.n, goesOn.parent, goesOn.isLive]
    exact frame.family
  · rw [goesOn.isLive]
    exact twins
  · rw [goesOn.n, goesOn.isLive, goesOn.finals]
    intro index within isClosed
    rw [total]
    exact frame.finished index within isClosed
  · rw [goesOn.output]
    intro output isOutput
    rcases frame.waits output isOutput with ⟨request, isRequest, waits⟩
    refine ⟨request, isRequest, waits.present, waits.distinct, ?_, waits.finished.trans closed.symm⟩
    intro completion member
    rcases waits.settled completion member with ⟨isNone, notAsked⟩ | isOwn | ⟨isLive, gone, nothing⟩
    · exact Or.inl ⟨isNone, (goesOn.asks _).trans notAsked⟩
    · exact Or.inr (Or.inl isOwn)
    refine Or.inr (Or.inr ⟨isLive, ?_, ?_⟩)
    · rw [goesOn.isLive]
      exact gone
    rw [goesOn.lists _ gone]
    exact nothing
  · rw [closed, goesOn.output, Stream.ended, goesOn.received]
    exact frame.ended

theorem withLogprobs_self (state : RequestState D P) :
    state.withLogprobs state.logprobList = state := by
  cases isProcessor : state.logprobsProcessor with
  | none =>
    simp only [withLogprobs, isProcessor, map_none]
    rw [<- isProcessor]
  | some processor =>
    have same : processor.logprobs.map (fun _ => state.logprobList) = processor.logprobs := by
      cases isLogprobs : processor.logprobs with
      | none => rfl
      | some logprobs => simp [logprobList, isProcessor, isLogprobs]
    simp only [withLogprobs, isProcessor, map_some, same]
    rw [<- isProcessor]

/-- The output that waits, if any, is one that completions can be joined to. -/
def waitingOutputs (stream : Stream D P) : List (Option (CompletionOutput P)) :=
  match stream.output with
  | some (.request request) => request.outputs
  | _ => []

theorem waitingPart_eq :
    stream.waitingPart index = partOf stream.logprobLists index stream.waitingOutputs := by
  simp only [waitingPart, waitingOutputs]
  split <;> rfl

/-- The output that waits after a request has sent a completion. -/
structure Merges (stream : Stream D P) (completion : CompletionOutput P)
    (promptLogprobs : Option (Entries (Option P))) (finished : Bool) (merged : RequestOutput P) :
    Prop where
  parts : ∀ other, partOf stream.logprobLists other merged.outputs =
    (stream.waitingPart other).join
      (if completion.index = other then completion.delta stream.logprobLists else .none)
  present : none ∉ merged.outputs
  distinct : (indices merged.outputs).Nodup
  came : ∀ other, some other ∈ merged.outputs -> CameFrom stream.waitingOutputs completion other
  fresh : stream.output = none -> merged.promptLogprobs = promptLogprobs /\ merged.finished = finished
  joined : ∀ waiting, stream.output = some (.request waiting) ->
    merged.promptLogprobs = waiting.promptLogprobs /\
      merged.finished = (waiting.finished || finished)

theorem put_spec {externalReqId : String} {promptLogprobs : Option (Entries (Option P))}
    {finished : Bool} (requests : ∀ output ∈ stream.output, ∃ request, output = .request request)
    (present : none ∉ stream.waitingOutputs) (distinct : (indices stream.waitingOutputs).Nodup)
    (joins : ∀ waiting, some waiting ∈ stream.waitingOutputs ->
      waiting.index = completion.index -> waiting.Joins stream.logprobLists completion) :
    ∃ merged : RequestOutput P,
      stream.put (.request ⟨externalReqId, promptLogprobs, [some completion], finished⟩) =
        .ok { stream with output := some (.request merged) } /\
      stream.Merges completion promptLogprobs finished merged := by
  rcases addCompletion_spec present distinct joins with
    ⟨outputs, adding, parts, stillPresent, indexes, came⟩
  have stillDistinct : (indices outputs).Nodup := by
    rw [indexes]
    split
    · exact distinct
    case isFalse absent =>
      refine nodup_append.mpr ⟨distinct, nodup_singleton _, ?_⟩
      intro index before other isOther same
      rw [mem_singleton.mp isOther] at same
      rw [same] at before
      exact absent before
  have sameRequests : (fun index => (stream.requests index).withLogprobs
      (stream.logprobLists index)) = stream.requests := by
    funext index
    exact withLogprobs_self _
  have joined : ∀ index, partOf stream.logprobLists index outputs = _ := fun index =>
    (parts index).trans (by rw [<- waitingPart_eq])
  cases isOutput : stream.output with
  | none =>
    have nothing : stream.waitingOutputs = [] := by simp [waitingOutputs, isOutput]
    rw [nothing] at adding
    cases adding
    refine ⟨⟨externalReqId, promptLogprobs, [some completion], finished⟩, ?_, joined, stillPresent,
      stillDistinct, came, fun _ => ⟨rfl, rfl⟩, ?_⟩
    · simp only [put, isOutput, putOutput, sameRequests]
    intro waiting isWaiting
    cases isOutput.symm.trans isWaiting
  | some output =>
    rcases requests output isOutput with ⟨waiting, isRequest⟩
    have isWaiting : stream.waitingOutputs = waiting.outputs := by
      simp [waitingOutputs, isOutput, isRequest]
    rw [isWaiting] at adding
    refine ⟨{ waiting with
        finished := waiting.finished || finished
        outputs := outputs }, ?_, joined, stillPresent, stillDistinct, came, ?_, ?_⟩
    · simp only [put, isOutput, isRequest, putOutput, RequestOutput.add,
        RequestOutput.addCompletions, adding, sameRequests]
    · intro isNone
      cases isOutput.symm.trans isNone
    intro other isOther
    cases (isRequest ▸ isOutput).symm.trans isOther
    exact ⟨rfl, rfl⟩

/-- A request has something to send. -/
structure Ready (stream : Stream D P) (index : Nat) (detokenizer : Detokenizer D)
    (processor : LogprobsProcessor P) (count : Nat) (newTokenIds : List Token) (finishes : Bool) :
    Prop where
  isLive : stream.isLive index = true
  hasSent : (stream.requests index).HasSent detokenizer processor count (stream.total index)
  holds : finishes = false -> detokenizer.Holds
  isNew : ¬ 1 < (stream.requests index).streamInterval ->
    newTokenIds = detokenizer.tokenIds.drop count
  sendsTokens : processor.logprobs.isSome ->
    count < detokenizer.tokenIds.length \/ finishes = true /\ detokenizer.tokenIds = []

/-- The stream after an output of a request was merged into the one that waits. -/
def afterSend (stream : Stream D P) (index : Nat) (detokenizer : Detokenizer D)
    (processor : LogprobsProcessor P) (count : Nat) (newTokenIds : List Token)
    (finishReason : Option FinishReason) (stopReason : Option StopReason)
    (merged : RequestOutput P) : Stream D P :=
  { stream with
    requests := update stream.requests index
      ((stream.requests index).afterSending detokenizer processor finishReason.isSome)
    parent := stream.parent.map (fun known => (known.getOutputs (stream.requests index).requestId
      ((stream.requests index).deltaCompletion detokenizer processor count finishReason
        stopReason)).2)
    isLive :=
      if finishReason.isSome then update stream.isLive index false else stream.isLive
    finals := stream.finalsAfter index newTokenIds finishReason stopReason
    output := some (.request merged) }

variable {index} {detokenizer : Detokenizer D} {processor : LogprobsProcessor P} {count : Nat}
  {newTokenIds : List Token} {reason : Option FinishReason} {stopReason : Option StopReason}
  {requestId : String}

theorem logprobLists_update {state : RequestState D P}
    (same : state.logprobList = (stream.requests index).logprobList) :
    (fun other => (update stream.requests index state other).logprobList) =
      stream.logprobLists := by
  funext other
  by_cases isIndex : other = index
  · rw [isIndex, update_self]
    exact same
  rw [update_of_ne isIndex]
  rfl

theorem logprobList_afterSending (isProcessor :
    (stream.requests index).logprobsProcessor = some processor) (finishes : Bool) :
    ((stream.requests index).afterSending detokenizer processor finishes).logprobList =
      (stream.requests index).logprobList := by
  simp [logprobList, afterSending, isProcessor, popPromptLogprobs_logprobs]

section

variable (frame : stream.Frame requestId)
include frame

theorem Frame.parents (isLive : stream.isLive index = true) :
    ∀ known ∈ stream.parent, known.outputKind ≠ .finalOnly /\
      (stream.requests index).requestId ∈ known.childRequests := by
  intro known isKnown
  have several : stream.n ≠ 1 := by
    intro single
    rw [frame.alone single] at isKnown
    cases isKnown
  rcases frame.family several with ⟨_, isParent, notFinal, children⟩
  rw [isParent] at isKnown
  cases isKnown
  refine ⟨notFinal, ?_⟩
  rw [children, frame.ids]
  refine mem_map_of_mem (mem_filter.mpr ⟨?_, isLive⟩)
  exact mem_range.mpr (frame.beyond index isLive)

/-- What waits has one settled completion for each request in it. -/
theorem Frame.waitingOutputs :
    none ∉ stream.waitingOutputs /\ (indices stream.waitingOutputs).Nodup /\
      ∀ waiting, some waiting ∈ stream.waitingOutputs -> stream.Settled waiting := by
  cases isOutput : stream.output with
  | none => simp [Stream.waitingOutputs, isOutput, indices]
  | some output =>
    rcases frame.waits output isOutput with ⟨request, isRequest, waits⟩
    have isWaiting : stream.waitingOutputs = request.outputs := by
      simp [Stream.waitingOutputs, isOutput, isRequest]
    rw [isWaiting]
    exact ⟨waits.present, waits.distinct, waits.settled⟩

theorem send_delivers
    (ready : stream.Ready index detokenizer processor count newTokenIds reason.isSome)
    (sends : reason.isSome \/ ¬ 1 < (stream.requests index).streamInterval \/
      (stream.requests index).sendsNow detokenizer false = true) :
    ∃ finished merged, stream.send index newTokenIds reason stopReason =
        .ok (stream.afterSend index detokenizer processor count newTokenIds reason stopReason
          merged) /\
      stream.Merges ((stream.requests index).deltaCompletion detokenizer processor count
        reason stopReason) (processor.popPromptLogprobs index).1 finished merged /\
      (stream.parent = none -> finished = reason.isSome) /\
      ∀ known ∈ stream.parent, finished = decide ((known.getOutputs
        (stream.requests index).requestId ((stream.requests index).deltaCompletion detokenizer
          processor count reason stopReason)).2.childRequests = []) := by
  have hasSent := ready.hasSent
  let completion := (stream.requests index).deltaCompletion detokenizer processor count reason
    stopReason
  rcases @makeRequestOutput_sends D P _ _ _ _ _ stream.parent newTokenIds reason
    stopReason hasSent ready.isNew sends
    (fun known isKnown => ⟨(frame.parents ready.isLive known isKnown).1,
      fun _ => (frame.parents ready.isLive known isKnown).2⟩) with
    ⟨externalReqId, finished, isMade, noParent, withParent⟩
  have isIndex := frame.indexed index
  have lists := logprobLists_update
    (@logprobList_afterSending D P stream index detokenizer processor hasSent.isProcessor
      reason.isSome)
  let made : Stream D P :=
    { stream with
      requests := update stream.requests index
        ((stream.requests index).afterSending detokenizer processor reason.isSome)
      parent := stream.parent.map (fun known =>
        (known.getOutputs (stream.requests index).requestId completion).2)
      isLive :=
        if reason.isSome then update stream.isLive index false else stream.isLive
      finals := stream.finalsAfter index newTokenIds reason stopReason }
  have madeLists : made.logprobLists = stream.logprobLists := lists
  rcases frame.waitingOutputs with ⟨wasPresent, wasDistinct, settled⟩
  have joins : ∀ waiting, some waiting ∈ made.waitingOutputs ->
      waiting.index = completion.index -> waiting.Joins made.logprobLists completion := by
    intro waiting member sameIndex
    have isWaiting : waiting.index = index := sameIndex.trans isIndex
    rcases settled waiting member with ⟨isNone, notAsked⟩ | isOwn | ⟨_, closed, _⟩
    · refine Or.inl ⟨isNone, ?_⟩
      rw [isWaiting] at notAsked
      have unasked : processor.logprobs = none := by
        simpa [asksLogprobs, hasSent.isProcessor] using notAsked
      simp [completion, logprobItems, deltaCompletion, outputLogprobs, unasked]
    · exact Or.inr isOwn
    · rw [isWaiting, ready.isLive] at closed
      cases closed
  have requests : ∀ output ∈ made.output, ∃ request, output = .request request := by
    intro output isOutput
    rcases frame.waits output isOutput with ⟨request, isRequest, _⟩
    exact ⟨request, isRequest⟩
  rcases @put_spec D P made completion externalReqId (processor.popPromptLogprobs index).1 finished
    requests wasPresent wasDistinct joins with ⟨merged, putting, merges⟩
  refine ⟨finished, merged, ?_, { merges with parts := ?_ }, noParent, withParent⟩
  · rw [isIndex] at isMade
    simp only [send, isMade]
    exact putting
  intro other
  rw [<- madeLists, merges.parts other, waitingPart_eq, waitingPart_eq, madeLists]
  rfl

end

end Stream

end Vllm.Frontend
