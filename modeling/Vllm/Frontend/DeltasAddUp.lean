import Vllm.Frontend.Delivery

namespace Vllm.Frontend

open Foundation Function RequestState LogprobsProcessor AnyOutput SeenCompletion List
open Sched (Token FinishReason)

/-!
# The deltas of a stream add up

Every event keeps the agreement between what was sent, what waits and what was
received.  At the end of a stream the consumer has what a final cumulative
output has, for every request of the stream.
-/

namespace Stream

variable {D P : Type} {stream : Stream D P} {index : Nat} {detokenizer : Detokenizer D}
  {processor : LogprobsProcessor P} {count : Nat} {newTokenIds : List Token}
  {finishReason : Option FinishReason} {stopReason : Option StopReason} {requestId : String}
  {finished : Bool} {merged : RequestOutput P}

theorem childId_injective {n first second : Nat} (several : n ≠ 1)
    (same : childId requestId n first = childId requestId n second) : first = second := by
  simp only [childId, if_neg several] at same
  have reps := String.append_left_inj _ |>.mp (String.append_left_inj _ |>.mp same)
  change Nat.repr first = Nat.repr second at reps
  rw [Nat.repr_eq_ofList_toDigits, Nat.repr_eq_ofList_toDigits, String.ofList_inj] at reps
  rw [<- @Nat.ofDigitChars_ten_toDigits first, reps, Nat.ofDigitChars_ten_toDigits]

theorem filter_update (isLive : Nat -> Bool) (n index : Nat) :
    (List.range n).filter (update isLive index false) =
      ((List.range n).filter isLive).erase index := by
  have distinct : ((List.range n).filter isLive).Nodup := nodup_range.filter _
  rw [distinct.erase_eq_filter, filter_filter]
  refine filter_congr ?_
  intro other _
  by_cases same : other = index
  · rw [same]
    simp
  · simp [same]

section Sending

variable {after : Stream D P} {other : Nat} {promptLogprobs : Option (Entries (Option P))}
  (isAfter : after = stream.afterSend index detokenizer processor count newTokenIds finishReason
    stopReason merged)

include isAfter

theorem isLive_afterSend : after.isLive other =
    if finishReason.isSome /\ other = index then false else stream.isLive other := by
  simp only [isAfter, afterSend]
  by_cases finishes : finishReason.isSome
  · rw [if_pos finishes]
    by_cases same : other = index
    · rw [same, update_self, if_pos ⟨finishes, rfl⟩]
    · rw [update_of_ne same, if_neg fun both => same both.2]
  · rw [if_neg finishes, if_neg fun both => finishes both.1]

theorem requests_afterSend_of_ne (different : other ≠ index) :
    after.requests other = stream.requests other := by
  rw [isAfter]
  exact update_of_ne different _ _

theorem requests_afterSend_self : after.requests index =
    (stream.requests index).afterSending detokenizer processor finishReason.isSome := by
  rw [isAfter]
  exact update_self index _ _

theorem logprobLists_afterSend
    (isProcessor : (stream.requests index).logprobsProcessor = some processor) :
    after.logprobLists = stream.logprobLists := by
  rw [isAfter]
  exact logprobLists_update (logprobList_afterSending isProcessor _)

theorem children_afterSend (frame : stream.Frame requestId) (several : stream.n ≠ 1)
    {parent : ParentRequest P} (isParent : stream.parent = some parent) :
    ((parent.getOutputs (stream.requests index).requestId ((stream.requests index).deltaCompletion
      detokenizer processor count finishReason stopReason)).2).childRequests =
      ((List.range stream.n).filter after.isLive).map (childId requestId stream.n) := by
  rcases frame.family several with ⟨_, isKnown, _, children⟩
  rw [isParent] at isKnown
  cases isKnown
  rw [ParentRequest.getOutputs_childRequests]
  have reason : ((stream.requests index).deltaCompletion detokenizer processor count finishReason
      stopReason).finishReason = finishReason := rfl
  rw [reason, isAfter]
  by_cases finishes : finishReason.isSome
  · have live : (if finishReason.isSome then update stream.isLive index false
        else stream.isLive) = update stream.isLive index false := if_pos finishes
    rw [if_pos finishes, afterSend, live, filter_update, children, frame.ids, map_erase]
    intro first second same
    exact childId_injective several same
  have live : (if finishReason.isSome then update stream.isLive index false
      else stream.isLive) = stream.isLive := if_neg finishes
  rw [if_neg finishes, afterSend, live, children]

/-- An output is marked as finished when no request is live any more. -/
theorem finished_afterSend (frame : stream.Frame requestId) (isLive : stream.isLive index = true)
    (noParent : stream.parent = none -> finished = finishReason.isSome)
    (withParent : ∀ known ∈ stream.parent, finished = decide ((known.getOutputs
      (stream.requests index).requestId ((stream.requests index).deltaCompletion detokenizer
        processor count finishReason stopReason)).2.childRequests = [])) :
    finished = true <-> after.Closed := by
  have within := frame.beyond index isLive
  have sameN : after.n = stream.n := by
    rw [isAfter]
    rfl
  by_cases single : stream.n = 1
  · have isFirst : index = 0 := by omega
    rw [noParent (frame.alone single)]
    constructor
    · intro finishes other isOther
      have isIndex : other = index := by omega
      rw [isLive_afterSend isAfter, if_pos ⟨finishes, isIndex⟩]
    intro closed
    have gone := closed index (sameN ▸ within)
    rw [isLive_afterSend isAfter] at gone
    by_cases finishes : finishReason.isSome
    · exact finishes
    rw [if_neg (fun both => finishes both.1), isLive] at gone
    cases gone
  rcases frame.family single with ⟨parent, isParent, _, _⟩
  rw [withParent parent isParent, decide_eq_true_iff, children_afterSend isAfter frame single
    isParent, map_eq_nil_iff, filter_eq_nil_iff]
  constructor
  · intro nobody other isOther
    have gone := nobody other (mem_range.mpr (sameN ▸ isOther))
    simpa using gone
  intro closed other isOther
  rw [closed other (sameN ▸ mem_range.mp isOther)]
  simp

variable (frame : stream.Frame requestId)
  (merges : stream.Merges ((stream.requests index).deltaCompletion detokenizer processor count
    finishReason stopReason) promptLogprobs finished merged)

include frame merges

theorem total_afterSend
    (isProcessor : (stream.requests index).logprobsProcessor = some processor) (other : Nat) :
    after.total other = (stream.total other).join (if index = other then
      ((stream.requests index).deltaCompletion detokenizer processor count finishReason
        stopReason).delta stream.logprobLists else .none) := by
  have isIndex := frame.indexed index
  have lists := logprobLists_afterSend isAfter isProcessor
  have waiting : after.waitingPart other = partOf stream.logprobLists other merged.outputs := by
    rw [<- lists, isAfter]
    rfl
  have completionIndex : ((stream.requests index).deltaCompletion detokenizer processor count
      finishReason stopReason).index = index := isIndex
  rw [total, waiting, merges.parts other, completionIndex, total, Delta.join_assoc, isAfter]
  rfl

variable (ready : stream.Ready index detokenizer processor count newTokenIds finishReason.isSome)

include ready

theorem settled_afterSend {other : CompletionOutput P} (member : some other ∈ merged.outputs) :
    after.Settled other := by
  have hasSent := ready.hasSent
  have isIndex := frame.indexed index
  have lists := logprobLists_afterSend isAfter hasSent.isProcessor
  have settled := frame.waitingOutputs.2.2
  have asks : ((stream.requests index).afterSending detokenizer processor
      finishReason.isSome).asksLogprobs = processor.logprobs.isSome := by
    simp [asksLogprobs, afterSending, popPromptLogprobs_logprobs]
  rcases merges.came other member with ⟨before, different⟩ | ⟨same, came⟩
  · have notIndex : other.index ≠ index := fun isSame => different (isSame.trans isIndex.symm)
    rcases settled other before with ⟨isNone, notAsked⟩ | isOwn | ⟨isLive, closed, nothing⟩
    · refine Or.inl ⟨isNone, ?_⟩
      rw [requests_afterSend_of_ne isAfter notIndex]
      exact notAsked
    · exact Or.inr (Or.inl isOwn)
    refine Or.inr (Or.inr ⟨isLive, ?_, ?_⟩)
    · rw [isLive_afterSend isAfter, if_neg fun both => notIndex both.2]
      exact closed
    rw [lists]
    exact nothing
  have otherIndex : other.index = index := same.trans isIndex
  rcases came with isCompletion | ⟨isNone, waiting, isWaiting, sameIndex, wasNone⟩ | isOwn
  · cases isLogprobs : processor.logprobs with
    | none =>
      refine Or.inl ⟨?_, ?_⟩
      · rw [isCompletion]
        simp [deltaCompletion, outputLogprobs, isLogprobs]
      rw [otherIndex, requests_afterSend_self isAfter, asks, isLogprobs]
      rfl
    | some logprobs =>
      by_cases nothing : logprobs = []
      · have long := hasSent.aligned logprobs isLogprobs
        rw [nothing] at long
        have finishes : finishReason.isSome = true := by
          rcases ready.sendsTokens (by rw [isLogprobs]; rfl) with more | ⟨finishes, _⟩
          · rw [<- long] at more
            exact absurd more (Nat.not_lt_zero _)
          · exact finishes
        refine Or.inr (Or.inr ⟨?_, ?_, ?_⟩)
        · rw [isCompletion]
          simp [deltaCompletion, outputLogprobs, isLogprobs, nothing]
        · rw [isLive_afterSend isAfter, if_pos ⟨finishes, otherIndex⟩]
        rw [lists, otherIndex]
        simp [logprobLists, logprobList, hasSent.isProcessor, isLogprobs, nothing]
      · refine Or.inr (Or.inl ⟨sliceLast (detokenizer.tokenIds.drop count).length logprobs, ?_⟩)
        rw [isCompletion]
        simp only [deltaCompletion, outputLogprobs, isLogprobs]
        rw [if_pos ⟨hasSent.isDelta, nothing⟩]
  · refine Or.inl ⟨isNone, ?_⟩
    have isWaitingIndex : waiting.index = index := sameIndex.trans isIndex
    rcases settled waiting isWaiting with ⟨_, notAsked⟩ | ⟨_, isOwn⟩ | ⟨isLive, _⟩
    · rw [isWaitingIndex] at notAsked
      rw [otherIndex, requests_afterSend_self isAfter, asks]
      simpa [asksLogprobs, hasSent.isProcessor] using notAsked
    · rw [wasNone] at isOwn
      cases isOwn
    · rw [wasNone] at isLive
      cases isLive
  · exact Or.inr (Or.inl isOwn)

theorem hasSent_afterSend : ((stream.requests index).afterSending detokenizer processor finishReason.isSome).HasSent
      (detokenizer.getNextOutputText finishReason.isSome true).2
      (processor.popPromptLogprobs (stream.requests index).requestIndex).2
      detokenizer.tokenIds.length (after.total index) := by
  have hasSent := ready.hasSent
  have isIndex := frame.indexed index
  have isList : stream.logprobLists (stream.requests index).requestIndex =
      processor.logprobs.getD [] := by
    rw [isIndex]
    simp [logprobLists, logprobList, hasSent.isProcessor]
  rw [total_afterSend isAfter frame merges hasSent.isProcessor, if_pos rfl]
  refine hasSent.afterSending isList ?_
  intro asked
  rcases ready.sendsTokens asked with more | ⟨_, nothing⟩
  · exact Or.inl more
  · exact Or.inr nothing

variable {twinProcessor : LogprobsProcessor P}

/-- A request that has finished has sent all that its twin has. -/
theorem finals_afterSend {reason : FinishReason} (isReason : finishReason = some reason)
    (isTwinProcessor : (stream.twins index).logprobsProcessor = some twinProcessor) :
    ∃ seen ∈ after.finals index, seen.completions.map delta = [after.total index] /\
      seen.promptLogprobs = twinProcessor.promptLogprobs.getD [] := by
  have hasSent := ready.hasSent
  have isFinal := finalOf_eq (frame.twins index ready.isLive) (frame.indexed index)
    hasSent.isDetokenizer hasSent.quiet hasSent.isProcessor isTwinProcessor newTokenIds reason
    stopReason
  have finals : after.finals index =
      finalOf index (stream.twins index) newTokenIds reason stopReason := by
    simp only [isAfter, afterSend, finalsAfter, isReason]
    exact update_self index _ _
  rw [finals, isFinal]
  refine ⟨_, rfl, ?_, rfl⟩
  have isTotal := (hasSent_afterSend isAfter frame merges ready).sent
  rcases Detokenizer.getNextOutputText_spec hasSent.quiet hasSent.within with
    ⟨_, same, _, everything, _⟩
  rw [isTotal, same, popPromptLogprobs_logprobs]
  have allText := everything (by rw [isReason]; rfl)
  have tokens : (detokenizer.withOffset (detokenizer.getNextOutputText finishReason.isSome
      true).2.lastOutputTextOffset).tokenIds = detokenizer.tokenIds := rfl
  have text : (detokenizer.withOffset (detokenizer.getNextOutputText finishReason.isSome
      true).2.lastOutputTextOffset).outputText = detokenizer.outputText := rfl
  rw [tokens, take_length]
  simp only [map_cons, map_nil, delta]
  refine congrArg (fun part => [part]) (Delta.ext rfl ?_ ?_)
  · exact allText.symm
  cases isLogprobs : processor.logprobs with
  | none => exact (take_nil).symm
  | some logprobs =>
    have long := hasSent.aligned logprobs isLogprobs
    rw [<- long]
    exact (take_length).symm

theorem frame_afterSend (closes : finished = true <-> after.Closed)
    (isTwinProcessor : (stream.twins index).logprobsProcessor = some twinProcessor) :
    after.Frame requestId := by
  have hasSent := ready.hasSent
  have total := total_afterSend isAfter frame merges hasSent.isProcessor
  subst isAfter
  have notClosed : ¬ stream.Closed := by
    intro closed
    have gone := closed index (frame.beyond index ready.isLive)
    rw [ready.isLive] at gone
    cases gone
  constructor
  · exact frame.positive
  · exact (forall_update_iff stream.requests fun other state =>
      state.requestId = childId requestId stream.n other).mpr
        ⟨frame.ids index, fun other _ => frame.ids other⟩
  · exact (forall_update_iff stream.requests fun other state => state.requestIndex = other).mpr
      ⟨frame.indexed index, fun other _ => frame.indexed other⟩
  · intro other isLive
    rw [isLive_afterSend rfl] at isLive
    split at isLive
    · cases isLive
    · exact frame.beyond other isLive
  · intro single
    simp only [afterSend, frame.alone single]
    rfl
  · intro several
    rcases frame.family several with ⟨parent, isParent, notFinal, _⟩
    refine ⟨(parent.getOutputs (stream.requests index).requestId ((stream.requests
      index).deltaCompletion detokenizer processor count finishReason stopReason)).2, ?_, ?_, ?_⟩
    · simp only [afterSend, isParent]
      rfl
    · rw [ParentRequest.getOutputs_outputKind]
      exact notFinal
    · exact children_afterSend rfl frame several isParent
  · intro other isLive
    rw [isLive_afterSend rfl] at isLive
    split at isLive
    · cases isLive
    by_cases same : other = index
    · rw [same, requests_afterSend_self rfl]
      exact (frame.twins index ready.isLive).afterSending hasSent finishReason.isSome
    rw [requests_afterSend_of_ne rfl same]
    exact frame.twins other isLive
  · intro other within gone
    rw [isLive_afterSend rfl] at gone
    by_cases closing : finishReason.isSome /\ other = index
    · rcases Option.isSome_iff_exists.mp closing.1 with ⟨_, isReason⟩
      rw [closing.2]
      rcases finals_afterSend rfl frame merges ready isReason isTwinProcessor with
        ⟨seen, isSeen, parts, _⟩
      exact ⟨seen, isSeen, parts⟩
    rw [if_neg closing] at gone
    have different : other ≠ index := by
      intro same
      rw [same, ready.isLive] at gone
      cases gone
    rcases frame.finished other within gone with ⟨seen, isSeen, parts⟩
    refine ⟨seen, ?_, ?_⟩
    · have kept : stream.finalsAfter index newTokenIds finishReason stopReason other =
          stream.finals other := by
        unfold finalsAfter
        split
        · rfl
        · exact update_of_ne different _ _
      change seen ∈ stream.finalsAfter index newTokenIds finishReason stopReason other
      rw [kept]
      exact isSeen
    · rw [total, if_neg (Ne.symm different), Delta.join_none]
      exact parts
  · intro output isOutput
    cases isOutput
    refine ⟨merged, rfl, merges.present, merges.distinct, ?_, ?_⟩
    · intro completion member
      exact settled_afterSend rfl frame merges ready member
    rw [<- closes]
    cases isWaiting : stream.output with
    | none => rw [(merges.fresh isWaiting).2]
    | some waiting =>
      rcases frame.waits waiting isWaiting with ⟨request, isRequest, waits⟩
      rw [isRequest] at isWaiting
      have notFinished := Bool.eq_false_iff.mpr (mt waits.finished.mp notClosed)
      rw [(merges.joined request isWaiting).2, notFinished, Bool.false_or]
  · constructor
    · intro ended
      exact absurd (frame.ended.mp ended).1 notClosed
    rintro ⟨_, impossible⟩
    cases impossible

/-- Sending keeps what the other requests have sent, and the request itself has
sent all it has. -/
theorem running_afterSend
    (others : ∀ other, other ≠ index -> stream.isLive other = true -> stream.Running other)
    (isLive : after.isLive other = true) : after.Running other := by
  have hasSent := ready.hasSent
  rw [isLive_afterSend isAfter] at isLive
  split at isLive
  · cases isLive
  case isFalse goesOn =>
    by_cases same : other = index
    · have continues := Bool.eq_false_iff.mpr (fun finishes => goesOn ⟨finishes, same⟩)
      have sent := hasSent_afterSend isAfter frame merges ready
      rcases Detokenizer.getNextOutputText_spec hasSent.quiet hasSent.within with
        ⟨_, sameText, _, _, holds⟩
      rw [same]
      refine ⟨_, (processor.popPromptLogprobs (stream.requests index).requestIndex).2, ?_,
        holds continues (ready.holds continues)⟩
      rw [requests_afterSend_self isAfter]
      have numSent : ((stream.requests index).afterSending detokenizer processor
          finishReason.isSome).numSent
            (detokenizer.getNextOutputText finishReason.isSome true).2 =
          detokenizer.tokenIds.length := by
        simp only [numSent, afterSending]
        split
        · rfl
        rw [sameText]
        rfl
      rw [numSent]
      exact sent
    · rcases others other same isLive with ⟨otherDetokenizer, otherProcessor, sent, holds⟩
      refine ⟨otherDetokenizer, otherProcessor, ?_, holds⟩
      rw [requests_afterSend_of_ne isAfter same,
        total_afterSend isAfter frame merges hasSent.isProcessor, if_neg (Ne.symm same), Delta.join_none]
      exact sent

end Sending

/-- A list by itself, unless it is empty. -/
def once {A : Type} (items : List A) : List (List A) := if items.isEmpty then [] else [items]

/-- The prompt of a single request is delivered with its first output. -/
structure Prompted (stream : Stream D P) : Prop where
  live : stream.isLive 0 = true -> ∃ own twin,
    (stream.requests 0).logprobsProcessor = some own /\
    (stream.twins 0).logprobsProcessor = some twin /\
    (own.promptLogprobs = twin.promptLogprobs /\ own.promptLogprobs ≠ some [] /\
        stream.output = none /\ stream.deliveries = [] \/
      own.promptLogprobs.getD [] = [] /\ stream.deliveries = once (twin.promptLogprobs.getD []))
  closed : stream.isLive 0 = false -> ∃ seen ∈ stream.finals 0,
    stream.deliveries = once seen.promptLogprobs

/-- The processors of a request and its twin were asked for the same. -/
def Paired (stream : Stream D P) (index : Nat) : Prop :=
  ∃ own twin, (stream.requests index).logprobsProcessor = some own /\
    (stream.twins index).logprobsProcessor = some twin /\
    twin.promptLogprobs.isSome = own.promptLogprobs.isSome

theorem promptLogprobs_popped (index : Nat) : (processor.popPromptLogprobs index).2.promptLogprobs =
        processor.promptLogprobs.map (fun _ => []) /\
      (processor.popPromptLogprobs index).1 = processor.promptLogprobs.map (fun prompt =>
        if prompt = [] then .live index else .own prompt) := by
  rw [popPromptLogprobs]
  split
  case h_1 isNone => simp [isNone]
  case h_2 isEmpty => simp [isEmpty]
  case h_3 first rest isPrompt => simp [isPrompt]

theorem deliveries_afterSend {after : Stream D P} {own : LogprobsProcessor P}
    (isAfter : after = stream.afterSend 0 detokenizer own count newTokenIds finishReason stopReason
      merged) (isOwn : (stream.requests 0).logprobsProcessor = some own)
    (merges : stream.Merges ((stream.requests 0).deltaCompletion detokenizer own count
      finishReason stopReason) (own.popPromptLogprobs 0).1 finished merged)
    (waits : ∀ output ∈ stream.output, ∃ request, output = .request request) :
    (stream.output = none -> after.deliveries =
      stream.deliveries ++ once (own.promptLogprobs.getD [])) /\
    (own.promptLogprobs.getD [] = [] -> after.deliveries = stream.deliveries) := by
  have popped := @promptLogprobs_popped P own 0
  have nothingLeft : after.promptLogprobLists 0 = [] := by
    have state := requests_afterSend_self isAfter
    have gone := (@promptLogprobs_popped P own (stream.requests 0).requestIndex).1
    simp only [promptLogprobLists, state, promptLogprobList, afterSending, Option.bind_some, gone]
    cases own.promptLogprobs with
    | none => rfl
    | some prompt => rfl
  have fresh : stream.output = none -> after.deliveries =
      stream.deliveries ++ once (own.promptLogprobs.getD []) := by
    intro isNone
    have prompt : ((AnyOutput.request merged).seen after.logprobLists
        after.promptLogprobLists).promptLogprobs = own.promptLogprobs.getD [] := by
      simp only [seen, (merges.fresh isNone).1, popped.2]
      cases isPrompt : own.promptLogprobs with
      | none => rfl
      | some items =>
        by_cases nothing : items = []
        · simp [nothing, Entries.items, nothingLeft]
        · simp [nothing, Entries.items]
    have delivered : after.deliveries = (stream.received.map Seen.promptLogprobs ++
        [own.promptLogprobs.getD []]).filter (fun promptLogprobs => ¬ promptLogprobs.isEmpty) := by
      rw [<- prompt, isAfter]
      rfl
    rw [delivered, deliveries, isNone, filter_append, Option.map_none, Option.toList_none,
      append_nil]
    congr 1
    cases own.promptLogprobs.getD [] with
    | nil => rfl
    | cons first rest => rfl
  refine ⟨fresh, ?_⟩
  intro nothing
  cases isOutput : stream.output with
  | none =>
    rw [fresh isOutput, nothing]
    simp [once]
  | some output =>
    rcases waits output isOutput with ⟨waiting, isRequest⟩
    rw [isRequest] at isOutput
    have promptLists : after.promptLogprobLists = stream.promptLogprobLists := by
      funext other
      by_cases isFirst : other = 0
      · rw [isFirst, nothingLeft]
        simp [promptLogprobLists, promptLogprobList, isOwn, nothing]
      · simp only [promptLogprobLists, requests_afterSend_of_ne isAfter isFirst]
    have prompt : ((AnyOutput.request merged).seen after.logprobLists
        after.promptLogprobLists).promptLogprobs =
        ((AnyOutput.request waiting).seen stream.logprobLists
          stream.promptLogprobLists).promptLogprobs := by
      simp only [seen, (merges.joined waiting isOutput).1, promptLists]
    have delivered : after.deliveries = (stream.received.map Seen.promptLogprobs ++
        [((AnyOutput.request merged).seen after.logprobLists
          after.promptLogprobLists).promptLogprobs]).filter
            (fun promptLogprobs => ¬ promptLogprobs.isEmpty) := by
      rw [isAfter]
      rfl
    rw [delivered, prompt, deliveries, isOutput]
    rfl

theorem prompted_afterSend {after : Stream D P}
    (isAfter : after = stream.afterSend index detokenizer processor count newTokenIds finishReason
      stopReason merged) (frame : stream.Frame requestId)
    (ready : stream.Ready index detokenizer processor count newTokenIds finishReason.isSome)
    (merges : stream.Merges ((stream.requests index).deltaCompletion detokenizer processor count
      finishReason stopReason) (processor.popPromptLogprobs index).1 finished merged)
    (prompted : stream.Prompted) (single : stream.n = 1) : after.Prompted := by
  have hasSent := ready.hasSent
  have isFirst : index = 0 := by
    have within := frame.beyond index ready.isLive
    omega
  subst isFirst
  rcases prompted.live ready.isLive with ⟨_, twin, isOwn, isTwin, state⟩
  cases hasSent.isProcessor.symm.trans isOwn
  have requests : ∀ output ∈ stream.output, ∃ request, output = .request request := by
    intro output isOutput
    rcases frame.waits output isOutput with ⟨request, isRequest, _⟩
    exact ⟨request, isRequest⟩
  have delivered : after.deliveries = once (twin.promptLogprobs.getD []) := by
    rcases deliveries_afterSend isAfter isOwn merges requests with ⟨fresh, unchanged⟩
    rcases state with ⟨sameAsTwin, _, noOutput, nothingYet⟩ | ⟨nothingLeft, already⟩
    · rw [fresh noOutput, nothingYet, sameAsTwin]
      rfl
    · rw [unchanged nothingLeft, already]
  refine ⟨?_, ?_⟩
  · intro _
    refine ⟨(processor.popPromptLogprobs (stream.requests 0).requestIndex).2, twin, ?_, ?_,
      Or.inr ⟨?_, delivered⟩⟩
    · rw [requests_afterSend_self isAfter]
      rfl
    · rw [isAfter]
      exact isTwin
    rw [(promptLogprobs_popped _).1]
    cases processor.promptLogprobs with
    | none => rfl
    | some prompt => rfl
  intro gone
  rw [isLive_afterSend isAfter] at gone
  have finishes : finishReason.isSome = true := by
    by_contra goesOn
    rw [if_neg (fun both => goesOn both.1), ready.isLive] at gone
    cases gone
  rcases Option.isSome_iff_exists.mp finishes with ⟨_, isReason⟩
  rcases finals_afterSend isAfter frame merges ready isReason isTwin with ⟨seen, isSeen, _, prompt⟩
  refine ⟨seen, isSeen, ?_⟩
  rw [prompt]
  exact delivered

/-- What holds between two events. -/
structure Agrees (requestId : String) (stream : Stream D P) : Prop where
  frame : stream.Frame requestId
  running : ∀ index, stream.isLive index = true -> stream.Running index
  paired : ∀ index, stream.isLive index = true -> stream.Paired index
  prompted : stream.n = 1 -> stream.Prompted

/-- An event under which every output has what its consumer expects.

Left out are engine outputs with more or fewer positions of log probabilities
than tokens, prompt log probabilities that come after an output was sent, and
outputs without a token for a request that asked for log probabilities, unless
nothing was or will be sent besides.  Events for requests that are not live
any more are free, and so are the reads of the consumer. -/
def Fits (stream : Stream D P) : Event P -> Prop
  | .output index engineCoreOutput =>
    stream.isLive index = true -> (stream.requests index).TakesWell engineCoreOutput
  | .abort index =>
    stream.isLive index = true -> (stream.requests index).SendsTokens [] true
  | .read => True

theorem sendsTokens_of_guard {state : RequestState D P} {sent : Delta P} {finishes : Bool}
    (hasSent : state.HasSent detokenizer processor (state.numSent detokenizer) sent)
    (guard : state.SendsTokens newTokenIds finishes) (asked : processor.logprobs.isSome) :
    state.numSent detokenizer < (detokenizer.tokenIds ++ newTokenIds).length \/
      finishes = true /\ detokenizer.tokenIds ++ newTokenIds = [] := by
  have asks : state.asksLogprobs = true := by
    simp [asksLogprobs, hasSent.isProcessor, asked]
  have bound := hasSent.bound
  have unsent : state.numUnsent = detokenizer.tokenIds.length - state.numSent detokenizer := by
    simp only [numUnsent, hasSent.isDetokenizer, numSent]
    split
    · rfl
    · omega
  rw [length_append]
  rcases guard asks with some_tokens | ⟨isLast, noTokens⟩
  · left
    omega
  have nothing := noTokens detokenizer hasSent.isDetokenizer
  rw [nothing] at bound ⊢
  cases newTokenIds with
  | nil => exact Or.inr ⟨isLast, rfl⟩
  | cons first rest =>
    left
    simp only [length_nil, length_cons] at bound ⊢
    omega

theorem send_agrees (frame : stream.Frame requestId)
    (ready : stream.Ready index detokenizer processor count newTokenIds finishReason.isSome)
    (others : ∀ other, other ≠ index -> stream.isLive other = true -> stream.Running other)
    (paired : ∀ other, stream.isLive other = true -> stream.Paired other)
    (prompted : stream.n = 1 -> stream.Prompted) :
    ∃ after, stream.send index newTokenIds finishReason stopReason = .ok after /\
      after.Agrees requestId := by
  have hasSent := ready.hasSent
  by_cases sends : finishReason.isSome \/ ¬ 1 < (stream.requests index).streamInterval \/
      (stream.requests index).sendsNow detokenizer false = true
  · rcases @send_delivers D P stream index detokenizer processor count newTokenIds finishReason
      stopReason requestId frame ready sends with
      ⟨_, _, sending, merges, noParent, withParent⟩
    rcases paired index ready.isLive with ⟨_, twin, isOwn, isTwin, promptAsked⟩
    refine ⟨_, sending, frame_afterSend rfl frame merges ready
      (finished_afterSend rfl frame ready.isLive noParent withParent) isTwin, ?_, ?_, ?_⟩
    · intro other isLive
      exact running_afterSend rfl frame merges ready others isLive
    · intro other isLive
      rw [isLive_afterSend rfl] at isLive
      split at isLive
      · cases isLive
      by_cases same : other = index
      · rw [same]
        refine ⟨(processor.popPromptLogprobs (stream.requests index).requestIndex).2, twin, ?_,
          isTwin, ?_⟩
        · rw [requests_afterSend_self rfl]
          rfl
        rw [hasSent.isProcessor] at isOwn
        cases isOwn
        rw [promptAsked, (promptLogprobs_popped _).1, Option.isSome_map]
      rcases paired other isLive with ⟨otherOwn, otherTwin, isOtherOwn, isOtherTwin, same_⟩
      refine ⟨otherOwn, otherTwin, ?_, isOtherTwin, same_⟩
      rw [requests_afterSend_of_ne rfl same]
      exact isOtherOwn
    · intro single
      exact prompted_afterSend rfl frame ready merges (prompted single) single
  have silent := Bool.eq_false_iff.mpr fun finishes => sends (Or.inl finishes)
  have isNone := Option.isSome_eq_false_iff.mp silent
  rw [Option.isNone_iff_eq_none] at isNone
  have interval : 1 < (stream.requests index).streamInterval :=
    not_not.mp fun short => sends (Or.inr (Or.inl short))
  have waits := Bool.eq_false_iff.mpr fun sendsNow => sends (Or.inr (Or.inr sendsNow))
  have sending : stream.send index newTokenIds finishReason stopReason = .ok stream := by
    rw [isNone]
    simp only [send, makeRequestOutput_waits hasSent interval waits, update_eq_self, finalsAfter]
    rfl
  refine ⟨stream, sending, frame, ?_, paired, prompted⟩
  intro other isLive
  by_cases same : other = index
  · rw [same]
    refine ⟨detokenizer, processor, ?_, ready.holds silent⟩
    have numSent : (stream.requests index).numSent detokenizer = count := by
      rw [numSent, if_pos interval]
      exact hasSent.cursor interval
    rw [numSent]
    exact hasSent
  · exact others other same isLive

/-- A stream when a sample and its twin have taken the tokens of an engine output.
-/
def afterTaking (stream : Stream D P) (index : Nat) (engineCoreOutput : EngineCoreOutput P) :
    Stream D P :=
  { stream with
    requests := Function.update stream.requests index
      ((stream.requests index).takeOutput stream.decodeNext engineCoreOutput).2
    twins := Function.update stream.twins index
      ((stream.twins index).takeOutput stream.decodeNext engineCoreOutput).2 }

variable {engineCoreOutput : EngineCoreOutput P} {streamInterval : Nat}

theorem requests_afterTaking_self : (stream.afterTaking index engineCoreOutput).requests index =
      ((stream.requests index).takeOutput stream.decodeNext engineCoreOutput).2 :=
  update_self index _ _

theorem requests_afterTaking_of_ne {other : Nat} (different : other ≠ index) :
    (stream.afterTaking index engineCoreOutput).requests other = stream.requests other :=
  update_of_ne different _ _

theorem twins_afterTaking_self : (stream.afterTaking index engineCoreOutput).twins index =
      ((stream.twins index).takeOutput stream.decodeNext engineCoreOutput).2 :=
  update_self index _ _

theorem twins_afterTaking_of_ne {other : Nat} (different : other ≠ index) :
    (stream.afterTaking index engineCoreOutput).twins other = stream.twins other :=
  update_of_ne different _ _

theorem goesOn_afterTaking (isLive : stream.isLive index = true) (running : stream.Running index)
    (takesWell : (stream.requests index).TakesWell engineCoreOutput) :
    GoesOn stream (stream.afterTaking index engineCoreOutput) := by
  rcases running with ⟨_, _, hasSent, holds⟩
  rcases takeOutput_spec stream.decodeNext hasSent takesWell holds with ⟨takes, _⟩
  have took : (stream.afterTaking index engineCoreOutput).requests index = _ :=
    requests_afterTaking_self.trans (congrArg Prod.snd takes)
  have keeps : ∀ {A : Type} (read : RequestState D P -> A),
      read ((stream.afterTaking index engineCoreOutput).requests index) =
        read (stream.requests index) ->
      ∀ other, read ((stream.afterTaking index engineCoreOutput).requests other) =
        read (stream.requests other) := by
    intro A read same other
    by_cases isIndex : other = index
    · rw [isIndex, same]
    · rw [requests_afterTaking_of_ne isIndex]
  refine ⟨rfl, rfl, rfl, rfl, rfl, rfl, ?_, ?_, ?_, ?_⟩
  · exact keeps requestId (by rw [took])
  · exact keeps requestIndex (by rw [took])
  · exact keeps asksLogprobs (by rw [took]; simp [asksLogprobs, hasSent.isProcessor, appended])
  intro other gone
  have different : other ≠ index := by
    intro same
    rw [same, isLive] at gone
    cases gone
  simp only [logprobLists, requests_afterTaking_of_ne different]

/-- Engine outputs with log probabilities of the prompt come before the first
output. -/
theorem prompted_afterTaking (frame : stream.Frame requestId) (single : stream.n = 1)
    (isLive : stream.isLive index = true) (running : stream.Running index)
    (paired : stream.Paired index) (prompted : stream.Prompted)
    (takesWell : (stream.requests index).TakesWell engineCoreOutput) :
    (stream.afterTaking index engineCoreOutput).Prompted := by
  have isFirst : index = 0 := by
    have within := frame.beyond index isLive
    omega
  subst isFirst
  rcases running with ⟨_, processor, hasSent, holds⟩
  rcases prompted.live isLive with ⟨_, twin, isOwn, isTwin, state⟩
  rcases paired with ⟨_, _, isOwn_, isTwin_, promptAsked⟩
  cases hasSent.isProcessor.symm.trans isOwn
  cases isOwn.symm.trans isOwn_
  cases isTwin.symm.trans isTwin_
  rcases takeOutput_spec stream.decodeNext hasSent takesWell holds with ⟨takes, _⟩
  rcases @IsTwin.takeOutput D P _ _ _ _ twin stream.decodeNext _ _ (frame.twins 0 isLive)
    hasSent holds engineCoreOutput takesWell isTwin promptAsked with ⟨_, twinTakes⟩
  refine ⟨?_, ?_⟩
  · intro _
    rw [<- twins_afterTaking_self] at twinTakes
    refine ⟨appended processor engineCoreOutput, _, ?_, twinTakes, ?_⟩
    · rw [requests_afterTaking_self, takes]
    rcases state with ⟨sameAsTwin, notEmpty, noOutput, nothingYet⟩ | ⟨nothingLeft, already⟩
    · refine Or.inl ⟨?_, ?_, noOutput, ?_⟩
      · rw [appended, appended, sameAsTwin]
      · intro isEmpty
        rcases Option.map_eq_some_iff.mp isEmpty with ⟨_, isBefore, nothing⟩
        rw [isBefore, (append_eq_nil_iff.mp nothing).1] at notEmpty
        exact notEmpty rfl
      · rw [<- nothingYet]
        simp only [deliveries, afterTaking, noOutput, Option.map_none]
    have noPrompt : engineCoreOutput.newPromptLogprobs = none := by
      cases isNew : engineCoreOutput.newPromptLogprobs with
      | none => rfl
      | some new =>
        refine absurd ?_ (takesWell.prompt (by rw [isNew]; rfl))
        simp only [promptLogprobList, isOwn, Option.bind_some]
        exact nothingLeft
    have unchanged (known : LogprobsProcessor P) :
        (appended known engineCoreOutput).promptLogprobs = known.promptLogprobs := by
      rw [appended, noPrompt]
      cases known.promptLogprobs with
      | none => rfl
      | some items => simp
    refine Or.inr ⟨?_, ?_⟩
    · rw [unchanged]
      exact nothingLeft
    rw [unchanged, <- already]
    have promptLists : (stream.afterTaking 0 engineCoreOutput).promptLogprobLists =
        stream.promptLogprobLists := by
      funext other
      by_cases same : other = 0
      · rw [same]
        simp only [promptLogprobLists, requests_afterTaking_self, takes,
          promptLogprobList, Option.bind_some, isOwn, unchanged]
      · simp only [promptLogprobLists, requests_afterTaking_of_ne same]
    have sameOutput : (stream.afterTaking 0 engineCoreOutput).output = stream.output := rfl
    have sameReceived : (stream.afterTaking 0 engineCoreOutput).received = stream.received := rfl
    rw [deliveries, deliveries, sameOutput, sameReceived, promptLists]
    refine congrArg (fun outputs : Option (List (Option P)) =>
      (stream.received.map Seen.promptLogprobs ++ outputs.toList).filter
        fun promptLogprobs => ¬ promptLogprobs.isEmpty) ?_
    cases stream.output with
    | none => rfl
    | some output =>
      cases output with
      | request request => rfl
      | pooling pooling => rfl
  · intro gone
    have live : stream.isLive 0 = false := gone
    rw [isLive] at live
    cases live

theorem processOutput_agrees (agrees : stream.Agrees requestId)
    (isLive : stream.isLive index = true) (takesWell : (stream.requests index).TakesWell engineCoreOutput) :
    ∃ after, stream.processOutput index engineCoreOutput = .ok after /\ after.Agrees requestId := by
  have running := agrees.running index isLive
  have paired := agrees.paired index isLive
  have goesOn := goesOn_afterTaking isLive running takesWell
  have total := goesOn.total agrees.frame.waits
  have prompted : stream.n = 1 -> (stream.afterTaking index engineCoreOutput).Prompted :=
    fun single => prompted_afterTaking agrees.frame single isLive running paired
      (agrees.prompted single) takesWell
  rcases running with ⟨detokenizer, processor, hasSent, holds⟩
  rcases paired with ⟨_, twin, isOwn, isTwin, promptAsked⟩
  cases hasSent.isProcessor.symm.trans isOwn
  rcases takeOutput_spec stream.decodeNext hasSent takesWell holds with ⟨takes, nowSent⟩
  rcases @IsTwin.takeOutput D P _ _ _ _ twin stream.decodeNext _ _ (agrees.frame.twins index isLive)
    hasSent holds engineCoreOutput takesWell isTwin promptAsked with ⟨stillTwin, twinTakes⟩
  rcases @Detokenizer.update_spec D detokenizer stream.decodeNext engineCoreOutput.newTokenIds
    (decide (engineCoreOutput.finishReason = some .stop)) hasSent.stops holds with
    ⟨_, tokens, stillHolds, _, _⟩
  generalize detokenizer.update stream.decodeNext engineCoreOutput.newTokenIds
    (decide (engineCoreOutput.finishReason = some .stop)) = updated
    at takes nowSent tokens stillHolds
  have took : (stream.afterTaking index engineCoreOutput).requests index = _ :=
    requests_afterTaking_self.trans (congrArg Prod.snd takes)
  have frame : (stream.afterTaking index engineCoreOutput).Frame requestId := by
    refine goesOn.frame agrees.frame ?_
    intro other otherLive
    by_cases same : other = index
    · rw [same, requests_afterTaking_self, twins_afterTaking_self]
      exact stillTwin
    rw [requests_afterTaking_of_ne same, twins_afterTaking_of_ne same]
    exact agrees.frame.twins other otherLive
  have ready : (stream.afterTaking index engineCoreOutput).Ready index updated.2
      (appended processor engineCoreOutput) ((stream.requests index).numSent detokenizer)
      engineCoreOutput.newTokenIds (if updated.1.isSome then some FinishReason.stop
        else engineCoreOutput.finishReason).isSome := by
    constructor
    · exact isLive
    · rw [took, total]
      exact nowSent
    · intro goesOn
      refine stillHolds ?_
      cases stop : updated.1 with
      | none => rfl
      | some stopString =>
        rw [stop] at goesOn
        cases goesOn
    · rw [took]
      intro everyToken
      rw [tokens, numSent, if_neg everyToken, drop_left]
    intro asked
    rw [appended, Option.isSome_map] at asked
    rw [tokens]
    rcases sendsTokens_of_guard hasSent takesWell.sends asked with more | ⟨isLast, nothing⟩
    · exact Or.inl more
    refine Or.inr ⟨?_, nothing⟩
    split
    · rfl
    · exact isLast
  have others : ∀ other, other ≠ index ->
      (stream.afterTaking index engineCoreOutput).isLive other = true ->
      (stream.afterTaking index engineCoreOutput).Running other := by
    intro other different otherLive
    rcases agrees.running other otherLive with ⟨theirs, theirProcessor, sent, theyHold⟩
    refine ⟨theirs, theirProcessor, ?_, theyHold⟩
    rw [requests_afterTaking_of_ne different, total]
    exact sent
  have stillPaired : ∀ other, (stream.afterTaking index engineCoreOutput).isLive other = true ->
      (stream.afterTaking index engineCoreOutput).Paired other := by
    intro other otherLive
    by_cases same : other = index
    · rw [same]
      rw [<- twins_afterTaking_self] at twinTakes
      refine ⟨appended processor engineCoreOutput, _, ?_, twinTakes, ?_⟩
      · rw [took]
      · rw [appended, appended, Option.isSome_map, Option.isSome_map, promptAsked]
    rcases agrees.paired other otherLive with ⟨theirs, theirTwin, isTheirs, isTheirTwin, asked⟩
    refine ⟨theirs, theirTwin, ?_, ?_, asked⟩
    · rw [requests_afterTaking_of_ne same]
      exact isTheirs
    rw [twins_afterTaking_of_ne same]
    exact isTheirTwin
  have sends := fun stopReason => @send_agrees D P (stream.afterTaking index engineCoreOutput) index
    updated.2 _ _ engineCoreOutput.newTokenIds _ stopReason requestId frame ready others
    stillPaired prompted
  simp only [afterTaking, takes] at sends
  simp only [processOutput, takes]
  exact sends _

theorem abort_agrees (agrees : stream.Agrees requestId) (isLive : stream.isLive index = true)
    (guard : (stream.requests index).SendsTokens [] true) :
    ∃ after, stream.send index [] (some .abort) none = .ok after /\ after.Agrees requestId := by
  rcases agrees.running index isLive with ⟨_, _, hasSent, holds⟩
  refine send_agrees agrees.frame ⟨isLive, hasSent, fun _ => holds, ?_, ?_⟩
    (fun other _ otherLive => agrees.running other otherLive) agrees.paired agrees.prompted
  · intro everyToken
    rw [numSent, if_neg everyToken, drop_length]
  intro asked
  have sends := sendsTokens_of_guard hasSent guard asked
  rw [append_nil] at sends
  exact sends

/-- A stream when the consumer has read an output. -/
def afterRead (stream : Stream D P) (output : AnyOutput P) : Stream D P :=
  { stream with
    output := none
    received := stream.received ++
      [output.seen stream.logprobLists stream.promptLogprobLists] }

theorem total_afterRead {request : RequestOutput P}
    (isOutput : stream.output = some (.request request)) (other : Nat) :
    (stream.afterRead (.request request)).total other = stream.total other := by
  have appended : ∀ (received : List (Seen P)) (seen : Seen P),
      (received ++ [seen]).foldr (fun seen rest => (seen.part other).join rest) .none =
        Delta.join (received.foldr (fun (seen : Seen P) rest => (seen.part other).join rest) .none)
          (seen.part other) := by
    intro received seen
    induction received with
    | nil => simp
    | cons first rest ih => simp only [cons_append, foldr_cons, ih, Delta.join_assoc]
  have waiting : stream.waitingPart other = partOf stream.logprobLists other request.outputs := by
    simp only [waitingPart, isOutput]
  have nothing : (stream.afterRead (.request request)).waitingPart other = .none := rfl
  rw [total, total, nothing, Delta.join_none, waiting, receivedPart]
  have received := appended stream.received
    ((AnyOutput.request request).seen stream.logprobLists stream.promptLogprobLists)
  rw [Seen.part_request] at received
  exact received

theorem read_agrees (agrees : stream.Agrees requestId) {output : AnyOutput P}
    (isOutput : stream.output = some output) (notEnded : stream.ended = false) :
    (stream.afterRead output).Agrees requestId := by
  have frame := agrees.frame
  rcases frame.waits output isOutput with ⟨request, isRequest, waits⟩
  subst isRequest
  have total := total_afterRead isOutput
  refine ⟨⟨frame.positive, frame.ids, frame.indexed, frame.beyond, frame.alone, frame.family,
    frame.twins, ?_, (nofun), ?_⟩, ?_, agrees.paired, ?_⟩
  · intro index within gone
    rw [total]
    exact frame.finished index within gone
  · have nowEnded : (stream.afterRead (.request request)).ended = request.finished := by
      have before : stream.received.any Seen.finished = false := notEnded
      simp only [ended, afterRead, any_append, before, any_cons, any_nil,
        seen, Bool.or_false, Bool.false_or]
    rw [nowEnded, waits.finished]
    exact ⟨fun closed => ⟨closed, rfl⟩, fun closed => closed.1⟩
  · intro index isLive
    rcases agrees.running index isLive with ⟨detokenizer, processor, hasSent, holds⟩
    refine ⟨detokenizer, processor, ?_, holds⟩
    rw [total]
    exact hasSent
  intro single
  have prompted := agrees.prompted single
  have sameDeliveries : (stream.afterRead (.request request)).deliveries = stream.deliveries := by
    simp only [deliveries, afterRead, isOutput, map_append, map_cons, map_nil,
      Option.map_none, Option.map_some, Option.toList_none, Option.toList_some, append_nil]
  refine ⟨?_, ?_⟩
  · intro isLive
    rcases prompted.live isLive with ⟨own, twin, isOwn, isTwin, state⟩
    refine ⟨own, twin, isOwn, isTwin, ?_⟩
    rw [sameDeliveries]
    rcases state with ⟨_, _, noOutput, _⟩ | sent
    · rw [isOutput] at noOutput
      cases noOutput
    · exact Or.inr sent
  · rw [sameDeliveries]
    exact prompted.closed

section Starts

variable {args : SamplingArgs D} {externalReqId : String}
  (starts : stream.Starts args requestId externalReqId streamInterval)
include starts

theorem Starts.live (within : index < stream.n) : stream.isLive index = true := by
  rw [starts.isLive, decide_eq_true within]

theorem Starts.not_closed : ¬ stream.Closed := by
  intro closed
  have gone := closed 0 starts.positive
  rw [starts.live starts.positive] at gone
  cases gone

theorem Starts.total : stream.total index = .none := by
  simp only [Stream.total, receivedPart, starts.received, waitingPart, starts.output, foldr_nil]
  rfl

theorem Starts.ownProcessor : (stream.requests index).logprobsProcessor =
    some (.init args.hasLogprobs args.hasPromptLogprobs) := by
  rw [starts.requests]
  rfl

theorem Starts.twinProcessor : (stream.twins index).logprobsProcessor =
    some (.init args.hasLogprobs args.hasPromptLogprobs) := by
  rw [starts.twins]
  exact starts.ownProcessor

/-- The parent counts exactly the children that are live, which are all. -/
theorem Starts.frame : stream.Frame requestId := by
  refine ⟨starts.positive, ?_, ?_, ?_, ?_, ?_, ?_, ?_, ?_, ?_⟩
  · intro index
    rw [starts.requests]
    rfl
  · intro index
    rw [starts.requests]
    rfl
  · intro index isLive
    rw [starts.isLive] at isLive
    exact of_decide_eq_true isLive
  · intro single
    rw [starts.parent, if_pos single]
  · intro several
    rw [starts.parent, if_neg several]
    refine ⟨_, rfl, ?_, ?_⟩
    · rw [starts.isDelta]
      intro given
      cases given
    refine congrArg (List.map (childId requestId stream.n)) ?_
    refine (filter_eq_self.mpr ?_).symm
    intro index member
    exact starts.live (mem_range.mp member)
  · intro index _
    rw [starts.twins]
    refine ⟨rfl, rfl, ?_, rfl⟩
    rw [starts.requests]
    rfl
  · intro index within gone
    rw [starts.live within] at gone
    cases gone
  · rw [starts.output]
    intro _ given
    cases given
  · constructor
    · intro ended
      rw [Stream.ended, starts.received] at ended
      cases ended
    rintro ⟨closed, _⟩
    exact absurd closed starts.not_closed

/-- No request has sent anything. -/
theorem Starts.running : stream.Running index := by
  have isState := starts.requests index
  refine ⟨_, _, ⟨by rw [isState]; rfl, starts.ownProcessor, ?_, starts.stops, fun _ => rfl,
    le_rfl, ?_, ?_, ?_, ?_⟩, Nat.zero_le _⟩
  · rw [isState]
    exact starts.isDelta
  · rw [numSent, isState]
    exact (ite_self _).le
  · intro interval
    rw [numSent, if_pos interval]
  · intro logprobs isLogprobs
    simp only [init] at isLogprobs
    split at isLogprobs
    · cases isLogprobs
      rfl
    · cases isLogprobs
  rw [starts.total]
  refine Delta.ext (take_nil).symm (take_nil).symm ?_
  simp only [init]
  split
  · exact (take_nil).symm
  · exact (take_nil).symm

theorem Starts.prompted : stream.Prompted := by
  have nothingDelivered : stream.deliveries = [] := by
    simp [deliveries, starts.received, starts.output]
  refine ⟨?_, ?_⟩
  · intro _
    refine ⟨_, _, starts.ownProcessor, starts.twinProcessor, Or.inl ⟨rfl, ?_, starts.output,
      nothingDelivered⟩⟩
    simp only [init]
    split
    · intro given
      cases given
    intro given
    cases given
  intro gone
  rw [starts.live starts.positive] at gone
  cases gone

/-- Before anything has happened, nothing was sent and nothing waits. -/
theorem agrees_of_starts : stream.Agrees requestId := by
  refine ⟨starts.frame, fun _ _ => starts.running, ?_, fun _ => starts.prompted⟩
  intro index _
  exact ⟨_, _, starts.ownProcessor, starts.twinProcessor, rfl⟩

end Starts

/-- Events for requests that are not live are ignored. -/
theorem agrees_when_live (agrees : stream.Agrees requestId)
    {result : Except FrontendError (Stream D P)}
    (live : stream.isLive index = true -> ∃ after, result = .ok after /\ after.Agrees requestId) :
    ∃ after, (if stream.isLive index then result else .ok stream) = .ok after /\
      after.Agrees requestId := by
  by_cases isLive : stream.isLive index
  · rw [if_pos isLive]
    exact live isLive
  rw [if_neg isLive]
  exact ⟨stream, rfl, agrees⟩

theorem next_agrees (agrees : stream.Agrees requestId) {event : Event P} (fits : stream.Fits event) :
    ∃ after, stream.next event = .ok after /\ after.Agrees requestId := by
  cases event with
  | output index engineCoreOutput =>
    exact agrees_when_live agrees fun isLive => processOutput_agrees agrees isLive (fits isLive)
  | abort index =>
    exact agrees_when_live agrees fun isLive => abort_agrees agrees isLive (fits isLive)
  | read =>
    cases isOutput : stream.output with
    | none => exact ⟨stream, by simp only [next, isOutput], agrees⟩
    | some output =>
      cases ended : stream.ended with
      | true => exact ⟨stream, by simp [next, isOutput, ended], agrees⟩
      | false =>
        refine ⟨stream.afterRead output, ?_, read_agrees agrees isOutput ended⟩
        simp only [next, isOutput, ended]
        rfl

theorem agrees_of_reachable (reachable : ((system D P).restrict Fits).Reachable stream) :
    ∃ requestId, stream.Agrees requestId := by
  refine reachable.invariant (fun stream => ∃ requestId, stream.Agrees requestId) ?_ ?_
  · rintro state ⟨_, requestId, _, _, starts⟩
    exact ⟨requestId, agrees_of_starts starts⟩
  rintro state event after _ ⟨requestId, agrees⟩ ⟨fits, isNext⟩
  rcases next_agrees agrees fits with ⟨made, isMade, stillAgrees⟩
  have same : made = after := Except.ok.inj (isMade.symm.trans isNext)
  rw [<- same]
  exact ⟨requestId, stillAgrees⟩

/-- What was received for each request is what a final cumulative output has. -/
def AddsUp (stream : Stream D P) : Prop :=
  ∀ index < stream.n, ∃ seen ∈ stream.finals index,
    seen.completions.map delta = [stream.receivedPart index]

/-- The log probabilities of the prompt were received once, if there are any. -/
def PromptOnce (stream : Stream D P) : Prop :=
  ∃ seen ∈ stream.finals 0,
    (stream.received.map Seen.promptLogprobs).filter (fun prompt => ¬ prompt.isEmpty) =
      once seen.promptLogprobs

/-- When all requests of a stream have finished and its consumer has read what
waited, the deltas it has received are what a final cumulative output of the
same engine outputs has, for every request of the stream.  The log
probabilities of the prompt of a single request were received once.  No event
fails. -/
theorem deltas_add_up (reachable : ((system D P).restrict Fits).Reachable stream) :
    (∀ event, stream.Fits event -> ∃ after, stream.next event = .ok after) /\
      (stream.ended = true <-> stream.Closed /\ stream.output = none) /\
      (stream.ended = true -> stream.AddsUp /\ (stream.n = 1 -> stream.PromptOnce)) := by
  rcases agrees_of_reachable reachable with ⟨_, agrees⟩
  refine ⟨?_, agrees.frame.ended, ?_⟩
  · intro event fits
    rcases next_agrees agrees fits with ⟨after, isNext, _⟩
    exact ⟨after, isNext⟩
  intro ended
  rcases agrees.frame.ended.mp ended with ⟨closed, noOutput⟩
  refine ⟨?_, ?_⟩
  · intro index within
    rcases agrees.frame.finished index within (closed index within) with ⟨seen, isSeen, parts⟩
    refine ⟨seen, isSeen, ?_⟩
    rw [parts, total, waitingPart, noOutput]
    exact congrArg (fun part => [part]) (Delta.join_none _)
  intro single
  rcases (agrees.prompted single).closed (closed 0 agrees.frame.positive) with
    ⟨seen, isSeen, delivered⟩
  refine ⟨seen, isSeen, ?_⟩
  rw [<- delivered, deliveries, noOutput, Option.map_none, Option.toList_none, append_nil]

variable (state : RequestState D P)

instance (newTokenIds : List Token) (finishes : Bool) :
    Decidable (state.SendsTokens newTokenIds finishes) :=
  inferInstanceAs (Decidable (state.asksLogprobs = true ->
    0 < state.numUnsent + newTokenIds.length \/
      finishes = true /\ ∀ detokenizer ∈ state.detokenizer, detokenizer.tokenIds = []))

instance (engineCoreOutput : EngineCoreOutput P) : Decidable (state.TakesWell engineCoreOutput) :=
  decidable_of_iff
    ((engineCoreOutput.newLogprobs.getD []).length =
        (if state.asksLogprobs then engineCoreOutput.newTokenIds.length else 0) /\
      (engineCoreOutput.newLogprobs.isSome -> state.asksLogprobs = true) /\
      (engineCoreOutput.newPromptLogprobs.isSome -> state.promptLogprobList ≠ []) /\
      state.SendsTokens engineCoreOutput.newTokenIds engineCoreOutput.finishReason.isSome)
    ⟨fun holds => ⟨holds.1, holds.2.1, holds.2.2.1, holds.2.2.2⟩,
      fun holds => ⟨holds.rows, holds.asked, holds.prompt, holds.sends⟩⟩

instance (stream : Stream D P) : (event : Event P) -> Decidable (stream.Fits event)
  | .output index engineCoreOutput =>
    inferInstanceAs (Decidable (stream.isLive index = true ->
      (stream.requests index).TakesWell engineCoreOutput))
  | .abort index =>
    inferInstanceAs (Decidable (stream.isLive index = true ->
      (stream.requests index).SendsTokens [] true))
  | .read => .isTrue trivial

/-- A single request with log probabilities that stops at a letter, before
anything has happened. -/
def fresh (streamInterval : Nat) : Stream Unit Nat where
  decodeNext decoder token := (decoder, [if token = 2 then 'b' else 'a'])
  n := 1
  requests index := .fromNewRequest
    ⟨"r", "x", .sampling ⟨.delta, some (), [['b']], 0, false, true, true⟩, false⟩ none index (some 0)
    streamInterval
  isLive index := decide (index < 1)
  parent := none
  output := none
  received := []
  twins index :=
    { fromNewRequest
        ⟨"r", "x", .sampling ⟨.delta, some (), [['b']], 0, false, true, true⟩, false⟩ none index
        (some 0) streamInterval with
      outputKind := .cumulative }
  finals _ := none

theorem fresh_starts (interval : 0 < streamInterval) :
    (fresh streamInterval).Starts ⟨.delta, some (), [['b']], 0, false, true, true⟩ "r" "x"
      streamInterval :=
  ⟨Nat.one_pos, rfl, by decide, interval, fun _ => rfl, fun _ => rfl, rfl, rfl, rfl, fun _ => rfl,
    fun _ => rfl⟩

/-- One more token with its log probability. -/
def oneToken (token logprob : Nat) (newPromptLogprobs : Option (List Nat)) : Event Nat :=
  .output 0 ⟨"r", [token], some [logprob], newPromptLogprobs, false, none, none⟩

def nextWhere (stream : Stream Unit Nat) (event : Event Nat) : Option (Stream Unit Nat) :=
  if stream.Fits event then (stream.next event).toOption else none

/-- An output of three tokens waits, and then a stop string is found. -/
theorem deltas_add_up_stopString :
    ∃ stream, System.run nextWhere [oneToken 1 10 (some [5]), oneToken 1 11 none,
        oneToken 1 12 none, .read, oneToken 2 13 none, .read] (fresh 2) = some stream /\
      stream.received.length = 2 /\ (stream.receivedPart 0).text = ['a', 'a', 'a'] /\
      (stream.receivedPart 0).logprobs = [10, 11, 12, 13] /\ stream.AddsUp /\ stream.PromptOnce := by
  have ran : (System.run nextWhere [oneToken 1 10 (some [5]), oneToken 1 11 none,
      oneToken 1 12 none, .read, oneToken 2 13 none, .read] (fresh 2)).map (fun stream =>
        (stream.received.length, (stream.receivedPart 0).text, (stream.receivedPart 0).logprobs,
          stream.n, stream.ended)) =
      some (2, ['a', 'a', 'a'], [10, 11, 12, 13], 1, true) := by decide +kernel
  rcases Option.map_eq_some_iff.mp ran with ⟨stream, isStream, facts⟩
  simp only [Prod.mk.injEq] at facts
  rcases facts with ⟨count, text, logprobs, single, ended⟩
  have reachable : ((system Unit Nat).restrict Fits).Reachable stream := by
    refine System.Reachable.run_where ?_ (.start ⟨_, _, _, _, fresh_starts Nat.two_pos⟩) isStream
    exact fun _ _ _ fits isNext => ⟨fits, isNext⟩
  rcases (deltas_add_up reachable).2.2 ended with ⟨addsUp, promptOnce⟩
  exact ⟨stream, isStream, count, text, logprobs, addsUp, promptOnce single⟩

/-- The last output of a request that is aborted has no token and all log
probabilities once more. -/
theorem abort_repeats_logprobs :
    ∃ stream, (system Unit Nat).Reachable stream /\ stream.ended = true /\
      (stream.receivedPart 0).tokenIds = [1] /\ (stream.receivedPart 0).logprobs = [10, 10] /\
      ¬ stream.AddsUp := by
  have ran : (System.run (fun stream event => (stream.next event).toOption)
      [oneToken 1 10 none, .read, .abort 0, .read] (fresh 1)).map (fun stream =>
        ((stream.n, stream.ended), (stream.receivedPart 0).tokenIds,
          (stream.receivedPart 0).logprobs,
          (stream.finals 0).map fun seen => seen.completions.map SeenCompletion.logprobs)) =
      some ((1, true), [1], [10, 10], some [[10]]) := by decide +kernel
  rcases Option.map_eq_some_iff.mp ran with ⟨stream, isStream, facts⟩
  simp only [Prod.mk.injEq] at facts
  rcases facts with ⟨⟨single, ended⟩, tokens, logprobs, finals⟩
  refine ⟨stream, ?_, ended, tokens, logprobs, ?_⟩
  · refine System.Reachable.run ?_ (.start ⟨_, _, _, _, fresh_starts Nat.one_pos⟩) isStream
    exact fun _ _ _ => System.ok_of_toOption
  intro addsUp
  rcases addsUp 0 (by rw [single]; exact Nat.one_pos) with ⟨seen, isSeen, same⟩
  rw [isSeen, Option.map_some, Option.some_inj] at finals
  have lists := congrArg (List.map Delta.logprobs) same
  rw [map_map] at lists
  rw [map_cons, logprobs] at lists
  have seenLists : seen.completions.map (Delta.logprobs ∘ SeenCompletion.delta) = [[10]] := finals
  rw [seenLists] at lists
  exact absurd lists (by decide)

end Stream

end Vllm.Frontend
