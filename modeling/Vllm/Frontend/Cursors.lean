import Vllm.Frontend.Stream

namespace Vllm.Frontend

open CompletionOutput List Option
open Sched (Token FinishReason)

/-!
# The cursors of a stream

What a request in delta mode has sent is a part of what it has: the tokens up to
one cursor, the text up to another, and the log probabilities up to the first
one.  The text that was sent ends before anything that a stop string found
later can cut off.
-/

theorem find_start {text sub : Text} {start : Int} {index : Nat}
    (found : find text sub start = some index) (negative : start < 0) :
    start + text.length <= index := by
  have holds := List.find?_some found
  simp only [Bool.decide_and, Bool.and_eq_true, decide_eq_true_eq, if_pos negative] at holds
  omega

/-- A stop string that is found ends in the text that was not searched before. -/
theorem checkStopStrings_cut {outputText : Text} {newCharCount : Nat} {stop : List Text}
    {includeInOutput : Bool} {stopString : Text} {cut : Option Nat}
    (stops : ∀ stopStr ∈ stop, stopStr ≠ [])
    (found : checkStopStrings outputText newCharCount stop includeInOutput = some (stopString, cut)) :
    stopString ∈ stop /\ newCharCount ≠ 0 /\ ∀ truncateTo ∈ cut,
      outputText.length + 1 <= truncateTo + newCharCount +
        (if includeInOutput then 0 else stopString.length) := by
  rw [checkStopStrings] at found
  split at found
  · cases found
  case isFalse something =>
    rcases exists_of_findSome?_eq_some found with ⟨candidate, isStop, isFound⟩
    split at isFound
    · cases isFound
    case h_2 index isIndex =>
      have nonempty : 0 < candidate.length := length_pos_iff.mpr (stops candidate isStop)
      have count : newCharCount ≠ 0 := fun zero => something (Or.inl zero)
      have position := find_start isIndex (by omega)
      cases includeInOutput with
      | true =>
        simp only [if_true] at isFound ⊢
        split at isFound
        · cases isFound
          exact ⟨isStop, count, nofun⟩
        cases isFound
        refine ⟨isStop, count, ?_⟩
        intro truncateTo isCut
        cases isCut
        omega
      | false =>
        simp only [Bool.false_eq_true, if_false] at isFound ⊢
        cases isFound
        refine ⟨isStop, count, ?_⟩
        intro truncateTo isCut
        cases isCut
        omega

namespace Detokenizer

variable {D : Type} {detokenizer : Detokenizer D} {decodeNext : D -> Token -> D × Text}

theorem decode_loop (minTokens : Nat) (decoded : List Token) (loop : DecodeLoop D) {searched : Nat}
    (offset : searched <= loop.stopCheckOffset) (searchedText : searched <= loop.outputText.length) :
    let after := decoded.foldl (decodeToken decodeNext minTokens) loop
    after.tokenIds = loop.tokenIds ++ decoded /\ searched <= after.stopCheckOffset /\
      ∃ more, after.outputText = loop.outputText ++ more := by
  induction decoded generalizing loop with
  | nil => exact ⟨by simp, offset, [], by simp⟩
  | cons token rest ih =>
    have longer : searched <= (decodeToken decodeNext minTokens loop token).outputText.length := by
      simp only [decodeToken, length_append]
      omega
    have nextOffset : searched <= (decodeToken decodeNext minTokens loop token).stopCheckOffset := by
      simp only [decodeToken]
      split
      · simp only [length_append]
        omega
      · exact offset
    rcases ih _ nextOffset longer with ⟨tokens, stillOffset, more, text⟩
    refine ⟨?_, stillOffset, (decodeNext loop.decoder token).2 ++ more, ?_⟩
    · rw [foldl_cons, tokens]
      simp [decodeToken]
    rw [foldl_cons, text]
    simp only [decodeToken, append_assoc]

/-- The longest stop string is one character longer than the text that is held
back. -/
theorem length_le_stopBufferLength {stopString : Text} (isStop : stopString ∈ detokenizer.stop)
    (excluded : detokenizer.includeStopStrInOutput = false) :
    stopString.length <= detokenizer.stopBufferLength + 1 := by
  have bounded : ∀ (lengths : List Nat) (start : Nat), start <= lengths.foldl max start /\
      ∀ length ∈ lengths, length <= lengths.foldl max start := by
    intro lengths
    induction lengths with
    | nil => exact fun start => ⟨le_rfl, nofun⟩
    | cons first rest ih =>
      intro start
      rcases ih (max start first) with ⟨_, largest⟩
      rw [foldl_cons]
      refine ⟨by omega, ?_⟩
      intro length member
      rcases mem_cons.mp member with same | later
      · omega
      · exact largest length later
  have nonempty : detokenizer.stop ≠ [] := ne_nil_of_mem isStop
  rw [stopBufferLength, if_pos ⟨nonempty, excluded⟩]
  have largest := (bounded (detokenizer.stop.map List.length) 0).2 stopString.length
    (mem_map_of_mem isStop)
  omega

/-- Everything but the text and the tokens stays. -/
structure SameRules (before after : Detokenizer D) : Prop where
  stop : after.stop = before.stop
  includes : after.includeStopStrInOutput = before.includeStopStrInOutput
  offset : after.lastOutputTextOffset = before.lastOutputTextOffset
  decodes : after.decoder.isSome = before.decoder.isSome

theorem SameRules.buffer {before after : Detokenizer D} (same : SameRules before after) :
    after.stopBufferLength = before.stopBufferLength := by
  simp only [stopBufferLength, same.stop, same.includes]

/-- The text that may be sent while a request runs. -/
def Holds (detokenizer : Detokenizer D) : Prop :=
  detokenizer.lastOutputTextOffset <= detokenizer.outputText.length - detokenizer.stopBufferLength

/-- A stop string never cuts text that was sent. -/
theorem evaluateStop_spec {searched stopCheckOffset : Nat}
    (stops : ∀ stopStr ∈ detokenizer.stop, stopStr ≠ []) (offset : searched <= stopCheckOffset)
    (sent : detokenizer.lastOutputTextOffset <= searched - detokenizer.stopBufferLength) :
    let result := detokenizer.evaluateStop stopCheckOffset
    SameRules detokenizer result.2 /\ result.2.tokenIds = detokenizer.tokenIds /\
      (result.1 = none -> result.2.outputText = detokenizer.outputText) /\
      (detokenizer.lastOutputTextOffset <= detokenizer.outputText.length ->
        result.2.outputText.take detokenizer.lastOutputTextOffset =
            detokenizer.outputText.take detokenizer.lastOutputTextOffset /\
          detokenizer.lastOutputTextOffset <= result.2.outputText.length) := by
  simp only [evaluateStop]
  split
  · split
    · exact ⟨⟨rfl, rfl, rfl, rfl⟩, rfl, fun _ => rfl, fun within => ⟨rfl, within⟩⟩
    · exact ⟨⟨rfl, rfl, rfl, rfl⟩, rfl, fun _ => rfl, fun within => ⟨rfl, within⟩⟩
    case h_3 stopString truncateTo found =>
      rcases checkStopStrings_cut stops found with ⟨isStop, _, cuts⟩
      have cut := cuts truncateTo rfl
      have keeps : detokenizer.lastOutputTextOffset <= truncateTo := by
        cases includes : detokenizer.includeStopStrInOutput with
        | true =>
          rw [includes] at cut
          simp only [if_true] at cut
          omega
        | false =>
          rw [includes] at cut
          simp only [Bool.false_eq_true, if_false] at cut
          have long := length_le_stopBufferLength isStop includes
          omega
      refine ⟨⟨rfl, rfl, rfl, rfl⟩, rfl, nofun, ?_⟩
      intro within
      refine ⟨?_, ?_⟩
      · rw [take_take, Nat.min_eq_left keeps]
      rw [length_take]
      omega
  · exact ⟨⟨rfl, rfl, rfl, rfl⟩, rfl, fun _ => rfl, fun within => ⟨rfl, within⟩⟩

/-- New tokens are appended, and the text that was sent stays. -/
theorem update_spec (newTokenIds : List Token) (stopTerminated : Bool)
    (stops : ∀ stopStr ∈ detokenizer.stop, stopStr ≠ []) (holds : detokenizer.Holds) :
    let result := detokenizer.update decodeNext newTokenIds stopTerminated
    SameRules detokenizer result.2 /\ result.2.tokenIds = detokenizer.tokenIds ++ newTokenIds /\
      (result.1 = none -> result.2.Holds) /\
      result.2.outputText.take detokenizer.lastOutputTextOffset =
        detokenizer.outputText.take detokenizer.lastOutputTextOffset /\
      detokenizer.lastOutputTextOffset <= result.2.outputText.length := by
  have within : detokenizer.lastOutputTextOffset <= detokenizer.outputText.length := by
    rw [Holds] at holds
    omega
  cases isDecoder : detokenizer.decoder with
  | none =>
    simp only [update, isDecoder]
    exact ⟨⟨rfl, rfl, rfl, by rw [isDecoder]⟩, trivial, fun _ => holds, trivial, within⟩
  | some decoder =>
    by_cases nothing : newTokenIds = []
    · simp only [update, isDecoder, if_pos nothing]
      exact ⟨⟨rfl, rfl, rfl, by rw [isDecoder]⟩, by rw [nothing, append_nil],
        fun _ => holds, trivial, within⟩
    let skips := stopTerminated /\ detokenizer.includeStopStrInOutput = false
    let decoded := if skips then newTokenIds.dropLast else newTokenIds
    let skipped := if skips then newTokenIds.drop (newTokenIds.length - 1) else []
    let loop := decoded.foldl (decodeToken decodeNext detokenizer.minTokens)
      ⟨decoder, detokenizer.tokenIds, detokenizer.outputText, detokenizer.outputText.length⟩
    have isUpdate : detokenizer.update decodeNext newTokenIds stopTerminated =
        evaluateStop
          { detokenizer with
            decoder := some loop.decoder
            tokenIds := loop.tokenIds ++ skipped
            outputText := loop.outputText } loop.stopCheckOffset := by
      simp only [update, isDecoder, if_neg nothing]
      rfl
    rcases @decode_loop D decodeNext detokenizer.minTokens decoded
      ⟨decoder, detokenizer.tokenIds, detokenizer.outputText, detokenizer.outputText.length⟩
      _ (le_rfl) (le_rfl) with ⟨tokens, offset, more, text⟩
    have allTokens : decoded ++ skipped = newTokenIds := by
      by_cases skipping : skips
      · simp only [decoded, skipped, if_pos skipping, dropLast_eq_take]
        exact take_append_drop _ _
      · simp only [decoded, skipped, if_neg skipping, append_nil]
    have evaluated := @evaluateStop_spec D
      { detokenizer with
        decoder := some loop.decoder
        tokenIds := loop.tokenIds ++ skipped
        outputText := loop.outputText } _ _ stops offset holds
    rw [isUpdate]
    rcases evaluated with ⟨rules, sameTokens, sameText, kept⟩
    have textIs : loop.outputText = detokenizer.outputText ++ more := text
    have longer : detokenizer.lastOutputTextOffset <= loop.outputText.length := by
      rw [textIs, length_append]
      omega
    rcases kept longer with ⟨keeps, stillWithin⟩
    refine ⟨⟨rules.stop, rules.includes, rules.offset, ?_⟩, ?_, ?_, ?_, stillWithin⟩
    · rw [rules.decodes, isDecoder]
      rfl
    · rw [sameTokens]
      change loop.tokenIds ++ skipped = _
      rw [tokens, append_assoc, allTokens]
    · intro noStop
      have buffer := rules.buffer
      rw [Holds, rules.offset, buffer, sameText noStop]
      change detokenizer.lastOutputTextOffset <=
        loop.outputText.length - detokenizer.stopBufferLength
      rw [textIs, length_append]
      rw [Holds] at holds
      omega
    · rw [keeps]
      change loop.outputText.take _ = _
      rw [textIs, take_append_of_le_length within]

/-- A text that nothing is decoded to is empty. -/
def Quiet (detokenizer : Detokenizer D) : Prop :=
  detokenizer.decoder = none -> detokenizer.outputText = []

def withOffset (detokenizer : Detokenizer D) (offset : Nat) : Detokenizer D :=
  { detokenizer with lastOutputTextOffset := offset }

theorem getNextOutputText_spec {finishes : Bool} (quiet : detokenizer.Quiet)
    (within : detokenizer.lastOutputTextOffset <= detokenizer.outputText.length) :
    let next := detokenizer.getNextOutputText finishes true
    detokenizer.outputText.take detokenizer.lastOutputTextOffset ++ next.1 =
        detokenizer.outputText.take next.2.lastOutputTextOffset /\
      next.2 = detokenizer.withOffset next.2.lastOutputTextOffset /\
      next.2.lastOutputTextOffset <= detokenizer.outputText.length /\
      (finishes = true -> detokenizer.outputText.take next.2.lastOutputTextOffset =
        detokenizer.outputText) /\
      (finishes = false -> detokenizer.Holds -> next.2.Holds) := by
  intro next
  have isResult : next = detokenizer.getNextOutputText finishes true := rfl
  cases isDecoder : detokenizer.decoder with
  | none =>
    simp only [getNextOutputText, isDecoder] at isResult
    rw [isResult, quiet isDecoder]
    refine ⟨by simp, rfl, ?_, by simp, fun _ holds => holds⟩
    rwa [quiet isDecoder] at within
  | some decoder =>
    let length := detokenizer.outputText.length -
      if finishes = true then 0 else detokenizer.stopBufferLength
    have isNext : detokenizer.getNextOutputText finishes true =
        if detokenizer.lastOutputTextOffset < length then
          ((detokenizer.outputText.take length).drop detokenizer.lastOutputTextOffset,
            detokenizer.withOffset length)
        else ([], detokenizer) := by
      simp only [getNextOutputText, withOffset, isDecoder, Bool.true_eq_false, if_false]
      rfl
    have everything (isFinished : finishes = true) : length = detokenizer.outputText.length := by
      simp [length, isFinished]
    by_cases more : detokenizer.lastOutputTextOffset < length
    · rw [isNext, if_pos more] at isResult
      rw [isResult]
      refine ⟨?_, rfl, Nat.sub_le _ _, ?_, ?_⟩
      · have whole := take_append_drop detokenizer.lastOutputTextOffset
          (detokenizer.outputText.take length)
        rw [take_take, Nat.min_eq_left more.le] at whole
        exact whole
      · intro isFinished
        rw [withOffset, everything isFinished, take_length]
      intro notFinished _
      have buffered : length = detokenizer.outputText.length - detokenizer.stopBufferLength := by
        simp [length, notFinished]
      exact buffered.le
    rw [isNext, if_neg more] at isResult
    rw [isResult]
    refine ⟨by simp, rfl, within, ?_, fun _ holds => holds⟩
    intro isFinished
    have atEnd := everything isFinished
    rw [take_of_length_le (by dsimp only; omega)]

variable (newTokenIds : List Token) (stopCheckOffset : Nat)

theorem evaluateStop_decoder :
    (detokenizer.evaluateStop stopCheckOffset).2.decoder = detokenizer.decoder := by
  simp only [evaluateStop]
  split
  · split <;> rfl
  · rfl

variable (stopTerminated : Bool)

theorem update_quiet (quiet : detokenizer.Quiet) :
    (detokenizer.update decodeNext newTokenIds stopTerminated).2.Quiet := by
  cases isDecoder : detokenizer.decoder with
  | none =>
    simp only [update, isDecoder]
    exact fun _ => quiet isDecoder
  | some decoder =>
    simp only [update, isDecoder]
    split
    · exact quiet
    intro undecoded
    rw [evaluateStop_decoder] at undecoded
    cases undecoded

theorem evaluateStop_withOffset (offset : Nat) :
    (detokenizer.withOffset offset).evaluateStop stopCheckOffset =
      ((detokenizer.evaluateStop stopCheckOffset).1,
        (detokenizer.evaluateStop stopCheckOffset).2.withOffset offset) := by
  by_cases checks : detokenizer.stop ≠ [] /\ detokenizer.minTokens < detokenizer.numOutputTokens
  · have stillChecks : (detokenizer.withOffset offset).stop ≠ [] /\ (detokenizer.withOffset
        offset).minTokens < (detokenizer.withOffset offset).numOutputTokens := checks
    rw [evaluateStop, evaluateStop, if_pos stillChecks, if_pos checks]
    simp only [withOffset]
    rcases checkStopStrings detokenizer.outputText (detokenizer.outputText.length - stopCheckOffset)
      detokenizer.stop detokenizer.includeStopStrInOutput with _ | ⟨_, _ | _⟩
    · rfl
    · rfl
    · rfl
  have stillNot : ¬ ((detokenizer.withOffset offset).stop ≠ [] /\
      (detokenizer.withOffset offset).minTokens <
        (detokenizer.withOffset offset).numOutputTokens) := checks
  rw [evaluateStop, evaluateStop, if_neg stillNot, if_neg checks]

/-- The offset of what was sent plays no role when tokens are taken. -/
theorem update_withOffset (offset : Nat) :
    (detokenizer.withOffset offset).update decodeNext newTokenIds stopTerminated =
      ((detokenizer.update decodeNext newTokenIds stopTerminated).1,
        (detokenizer.update decodeNext newTokenIds stopTerminated).2.withOffset offset) := by
  cases isDecoder : detokenizer.decoder with
  | none => simp only [update, withOffset, isDecoder]
  | some decoder =>
    have stillDecodes : (detokenizer.withOffset offset).decoder = some decoder := isDecoder
    by_cases nothing : newTokenIds = []
    · simp only [update, stillDecodes, isDecoder, if_pos nothing]
    simp only [update, stillDecodes, isDecoder, if_neg nothing]
    rw [<- evaluateStop_withOffset]
    rfl

end Detokenizer

/-- A part of what a request produces. -/
@[ext] structure Delta (P : Type) where
  tokenIds : List Token
  text : Text
  logprobs : List P

namespace Delta

variable {P : Type}

def none : Delta P := ⟨[], [], []⟩

variable (first second : Delta P)

/-- One delta after another. -/
def join : Delta P :=
  ⟨first.tokenIds ++ second.tokenIds, first.text ++ second.text,
    first.logprobs ++ second.logprobs⟩

variable (part : Delta P)

@[simp] theorem join_none : part.join none = part := by
  simp [join, none]

@[simp] theorem none_join : none.join part = part := by
  simp [join, none]

theorem join_assoc (third : Delta P) :
    (first.join second).join third = first.join (second.join third) := by
  simp [join]

end Delta

/-- What a completion adds. -/
def CompletionOutput.delta {P : Type} (lists : Nat -> List P) (completion : CompletionOutput P) :
    Delta P :=
  ⟨completion.tokenIds, completion.text, completion.logprobItems lists⟩

namespace RequestState

variable {D P : Type}

/-- The request has sent the first tokens, their log probabilities, and the text
up to its offset. -/
structure HasSent (state : RequestState D P) (detokenizer : Detokenizer D)
    (processor : LogprobsProcessor P) (count : Nat) (sent : Delta P) : Prop where
  isDetokenizer : state.detokenizer = some detokenizer
  isProcessor : state.logprobsProcessor = some processor
  isDelta : state.outputKind = .delta
  stops : ∀ stopStr ∈ detokenizer.stop, stopStr ≠ []
  quiet : detokenizer.Quiet
  within : detokenizer.lastOutputTextOffset <= detokenizer.outputText.length
  bound : count <= detokenizer.tokenIds.length
  cursor : 1 < state.streamInterval -> state.sentTokensOffset = count
  aligned : ∀ logprobs ∈ processor.logprobs, logprobs.length = detokenizer.tokenIds.length
  sent : sent = ⟨detokenizer.tokenIds.take count,
    detokenizer.outputText.take detokenizer.lastOutputTextOffset,
    (processor.logprobs.getD []).take count⟩

variable (state : RequestState D P)

/-- How many tokens a request has sent between two engine outputs. -/
def numSent (detokenizer : Detokenizer D) : Nat :=
  if 1 < state.streamInterval then state.sentTokensOffset else detokenizer.tokenIds.length

/-- The number of tokens that wait to be sent with the next ones. -/
def numUnsent : Nat :=
  match state.detokenizer with
  | none => 0
  | some detokenizer =>
    if 1 < state.streamInterval then detokenizer.tokenIds.length - state.sentTokensOffset else 0

/-- Whether log probabilities of the output were asked for. -/
def asksLogprobs : Bool :=
  (state.logprobsProcessor.bind LogprobsProcessor.logprobs).isSome

/-- If log probabilities were asked for, the next output has a token in it, or it
is the only one. -/
def SendsTokens (newTokenIds : List Token) (finishes : Bool) : Prop :=
  state.asksLogprobs = true ->
    0 < state.numUnsent + newTokenIds.length \/
      finishes = true /\ ∀ detokenizer ∈ state.detokenizer, detokenizer.tokenIds = []

/-- An engine output with one position of log probabilities for each token, if
they were asked for, and with those of the prompt only before an output was
sent. -/
structure TakesWell (state : RequestState D P) (engineCoreOutput : EngineCoreOutput P) : Prop where
  rows : (engineCoreOutput.newLogprobs.getD []).length =
    if state.asksLogprobs then engineCoreOutput.newTokenIds.length else 0
  asked : engineCoreOutput.newLogprobs.isSome -> state.asksLogprobs = true
  prompt : engineCoreOutput.newPromptLogprobs.isSome -> state.promptLogprobList ≠ []
  sends : state.SendsTokens engineCoreOutput.newTokenIds engineCoreOutput.finishReason.isSome

variable {state} {detokenizer : Detokenizer D} {processor : LogprobsProcessor P} {count : Nat}
  {sent : Delta P} {decodeNext : D -> Token -> D × Text}

/-- The positions of an engine output are appended to the lists that were asked
for. -/
def appended (processor : LogprobsProcessor P) (coreOutput : EngineCoreOutput P) :
    LogprobsProcessor P where
  logprobs := processor.logprobs.map (fun logprobs => logprobs ++ coreOutput.newLogprobs.getD [])
  promptLogprobs := processor.promptLogprobs.map (fun promptLogprobs =>
    promptLogprobs ++ (coreOutput.newPromptLogprobs.getD []).map some)

theorem updateFromOutput_eq {coreOutput : EngineCoreOutput P}
    (asked : coreOutput.newLogprobs.isSome -> processor.logprobs.isSome)
    (promptAsked : coreOutput.newPromptLogprobs.isSome -> processor.promptLogprobs.isSome) :
    processor.updateFromOutput coreOutput.newLogprobs coreOutput.newPromptLogprobs =
      (.ok (), appended processor coreOutput) := by
  rcases processor with ⟨logprobs, promptLogprobs⟩
  rcases coreOutput with ⟨_, _, newLogprobs, newPromptLogprobs, _⟩
  cases newLogprobs <;> cases newPromptLogprobs <;> cases logprobs <;> cases promptLogprobs <;>
    first
      | rfl
      | exact absurd (asked rfl) Bool.false_ne_true
      | exact absurd (promptAsked rfl) Bool.false_ne_true

section

variable {coreOutput : EngineCoreOutput P}
  (hasSent : state.HasSent detokenizer processor count sent)
  (takesWell : state.TakesWell coreOutput)
include hasSent takesWell

/-- No position comes that was not asked for. -/
theorem HasSent.updateFromOutput {other : LogprobsProcessor P}
    (logprobs : other.logprobs = processor.logprobs)
    (promptAsked : other.promptLogprobs.isSome = processor.promptLogprobs.isSome) :
    other.updateFromOutput coreOutput.newLogprobs coreOutput.newPromptLogprobs =
      (.ok (), appended other coreOutput) := by
  apply updateFromOutput_eq
  · intro isSome
    have asks := takesWell.asked isSome
    simpa [asksLogprobs, hasSent.isProcessor, logprobs] using asks
  intro isSome
  have nonempty := takesWell.prompt isSome
  rw [promptAsked]
  cases isPrompt : processor.promptLogprobs with
  | none => simp [promptLogprobList, hasSent.isProcessor, isPrompt] at nonempty
  | some prompt => rfl

variable (decodeNext) in
/-- New tokens and log probabilities are appended, and nothing is sent. -/
theorem takeOutput_spec (holds : detokenizer.Holds) :
    let updated := detokenizer.update decodeNext coreOutput.newTokenIds
      (decide (coreOutput.finishReason = some .stop))
    let after := { state with
      detokenizer := some updated.2
      logprobsProcessor := some (appended processor coreOutput) }
    state.takeOutput decodeNext coreOutput = (.ok updated.1, after) /\
      after.HasSent updated.2 (appended processor coreOutput) count sent := by
  rcases @Detokenizer.update_spec D detokenizer decodeNext coreOutput.newTokenIds
    (decide (coreOutput.finishReason = some .stop)) hasSent.stops holds with
    ⟨rules, tokens, _, sameText, within⟩
  refine ⟨?_, ?_⟩
  · simp only [takeOutput, hasSent.isDetokenizer, hasSent.isProcessor,
      hasSent.updateFromOutput takesWell rfl rfl]
    rfl
  constructor
  · rfl
  · rfl
  · exact hasSent.isDelta
  · intro stopStr isStop
    rw [rules.stop] at isStop
    exact hasSent.stops stopStr isStop
  · exact Detokenizer.update_quiet _ _ hasSent.quiet
  · rw [rules.offset]
    exact within
  · rw [tokens, length_append]
    exact Nat.le_add_right_of_le hasSent.bound
  · exact hasSent.cursor
  · intro logprobs isLogprobs
    rcases map_eq_some_iff.mp isLogprobs with ⟨before, isBefore, same⟩
    have rows := takesWell.rows
    simp only [asksLogprobs, hasSent.isProcessor, bind_some, isBefore, isSome_some, if_true] at rows
    rw [<- same, length_append, hasSent.aligned before isBefore, rows, tokens, length_append]
  rw [hasSent.sent, rules.offset, sameText, tokens, take_append_of_le_length hasSent.bound]
  refine Delta.ext rfl rfl ?_
  rw [appended]
  cases isLogprobs : processor.logprobs with
  | none => rfl
  | some logprobs =>
    have long := hasSent.aligned logprobs isLogprobs
    have short := hasSent.bound
    simp only [getD_some, map_some]
    rw [take_append_of_le_length (by omega)]

end

/-- The completion of an output in delta mode: everything behind the cursors. -/
def deltaCompletion (state : RequestState D P) (detokenizer : Detokenizer D)
    (processor : LogprobsProcessor P) (count : Nat) (finishReason : Option FinishReason)
    (stopReason : Option StopReason) : CompletionOutput P where
  index := state.requestIndex
  text := (detokenizer.getNextOutputText finishReason.isSome true).1
  tokenIds := detokenizer.tokenIds.drop count
  logprobs := state.outputLogprobs processor (detokenizer.tokenIds.drop count)
  finishReason := finishReason
  stopReason := if finishReason.isSome then stopReason else none

/-- The request after such an output: the cursors are at the end, and the log
probabilities of the prompt were handed out. -/
def afterSending (state : RequestState D P) (detokenizer : Detokenizer D)
    (processor : LogprobsProcessor P) (finishes : Bool) : RequestState D P :=
  { state with
    sentTokensOffset :=
      if 1 < state.streamInterval then detokenizer.tokenIds.length else state.sentTokensOffset
    detokenizer := some (detokenizer.getNextOutputText finishes true).2
    logprobsProcessor := some (processor.popPromptLogprobs state.requestIndex).2 }

variable {parent : Option (ParentRequest P)} {newTokenIds : List Token}
  {reason : Option FinishReason} {stopReason : Option StopReason}

/-- The request when the tokens of an output were taken: the cursor is behind the
last token. -/
def movedCursor (state : RequestState D P) (detokenizer : Detokenizer D) : RequestState D P :=
  { state with
    sentTokensOffset :=
      if 1 < state.streamInterval then detokenizer.tokenIds.length else state.sentTokensOffset }

/-- The request when the text of an output was taken too. -/
def takenText (state : RequestState D P) (detokenizer : Detokenizer D) (finishes : Bool) :
    RequestState D P :=
  { state.movedCursor detokenizer with
    detokenizer := some (detokenizer.getNextOutputText finishes true).2 }

/-- A parent that streams hands the completion of a live child on. -/
theorem getOutputs_streams {known : ParentRequest P} {childRequestId : String}
    {completion : CompletionOutput P} (notFinal : known.outputKind ≠ .finalOnly)
    (counted : completion.finishReason.isSome -> childRequestId ∈ known.childRequests) :
    (known.getOutputs childRequestId completion).1 = .ok ([some completion],
      decide ((known.getOutputs childRequestId completion).2.childRequests = [])) := by
  have notReturned : ¬ (completion.finishReason.isSome /\
      childRequestId ∉ known.childRequests) := by
    rintro ⟨finishes, notCounted⟩
    exact notCounted (counted finishes)
  simp only [ParentRequest.getOutputs, if_pos notFinal, if_neg notReturned]

section Sends

variable (hasSent : state.HasSent detokenizer processor count sent)
include hasSent

theorem HasSent.takeNewTokens
    (isNew : ¬ 1 < state.streamInterval -> newTokenIds = detokenizer.tokenIds.drop count) :
    state.takeNewTokens newTokenIds =
      (detokenizer.tokenIds.drop count, state.movedCursor detokenizer) := by
  rw [RequestState.takeNewTokens]
  split
  case h_1 missing =>
    rw [hasSent.isDetokenizer] at missing
    cases missing
  case h_2 current isCurrent =>
    rw [hasSent.isDetokenizer] at isCurrent
    cases isCurrent
    rw [movedCursor]
    by_cases interval : 1 < state.streamInterval
    · rw [if_pos ⟨interval, hasSent.isDelta⟩, hasSent.cursor interval, if_pos interval]
      rfl
    · rw [if_neg (fun both => interval both.1), if_neg interval, isNew interval]

/-- An output is not held back if the request finishes, if every token is sent at
once, or if the interval is full. -/
theorem HasSent.makeRequestOutput
    (sends : reason.isSome \/ ¬ 1 < state.streamInterval \/
      state.sendsNow detokenizer false = true) :
    state.makeRequestOutput parent newTokenIds false reason stopReason =
      (state.takeNewTokens newTokenIds).2.makeCompletion parent
        (state.takeNewTokens newTokenIds).1 reason stopReason := by
  have notFinal : ¬ (reason.isSome = false /\ state.outputKind = .finalOnly) := by
    rintro ⟨_, isFinal⟩
    rw [hasSent.isDelta] at isFinal
    cases isFinal
  have notHeld : ¬ (decide (1 < state.streamInterval) = true /\
      ∃ current ∈ some detokenizer, state.sendsNow current reason.isSome = false) := by
    rintro ⟨interval, current, isCurrent, holdsBack⟩
    cases isCurrent
    cases finishes : reason.isSome with
    | true =>
      rw [finishes] at holdsBack
      simp [RequestState.sendsNow] at holdsBack
    | false =>
      rw [finishes] at sends holdsBack
      rcases sends with impossible | short | sendsNow
      · cases impossible
      · exact short (of_decide_eq_true interval)
      · rw [sendsNow] at holdsBack
        cases holdsBack
  simp only [RequestState.makeRequestOutput, hasSent.isDetokenizer]
  rw [if_neg notFinal]
  split
  case h_1 impossible => cases impossible
  · rw [if_neg notHeld]
    rfl

theorem HasSent.newCompletionOutput :
    (state.movedCursor detokenizer).newCompletionOutput detokenizer processor
        (detokenizer.tokenIds.drop count) reason stopReason =
      (state.deltaCompletion detokenizer processor count reason stopReason,
        state.takenText detokenizer reason.isSome) := by
  have isDelta : (state.movedCursor detokenizer).outputKind = .delta := hasSent.isDelta
  simp only [RequestState.newCompletionOutput, takenText, isDelta, decide_true, if_true]
  rfl

theorem HasSent.newRequestOutput (externalReqId : String)
    (outputs : List (Option (CompletionOutput P))) (finished : Bool) :
    (state.takenText detokenizer reason.isSome).newRequestOutput processor externalReqId outputs
        finished =
      (⟨externalReqId, (processor.popPromptLogprobs state.requestIndex).1, outputs, finished⟩,
        state.afterSending detokenizer processor reason.isSome) := by
  have isDelta : (state.takenText detokenizer reason.isSome).outputKind = .delta := hasSent.isDelta
  rw [RequestState.newRequestOutput, if_pos isDelta]
  rfl

/-- In delta mode an output has one completion with all that was not sent. -/
theorem makeRequestOutput_sends
    (isNew : ¬ 1 < state.streamInterval -> newTokenIds = detokenizer.tokenIds.drop count)
    (sends : reason.isSome \/ ¬ 1 < state.streamInterval \/ state.sendsNow detokenizer false = true)
    (parents : ∀ known ∈ parent, known.outputKind ≠ .finalOnly /\
      (reason.isSome -> state.requestId ∈ known.childRequests)) :
    ∃ externalReqId finished,
      state.makeRequestOutput parent newTokenIds false reason stopReason =
        ⟨.ok (some (.request ⟨externalReqId, (processor.popPromptLogprobs state.requestIndex).1,
            [some (state.deltaCompletion detokenizer processor count reason stopReason)],
            finished⟩)),
          state.afterSending detokenizer processor reason.isSome,
          parent.map (fun known => (known.getOutputs state.requestId
            (state.deltaCompletion detokenizer processor count reason stopReason)).2)⟩ /\
      (parent = none -> finished = reason.isSome) /\
      ∀ known ∈ parent, finished = decide ((known.getOutputs state.requestId
        (state.deltaCompletion detokenizer processor count reason
          stopReason)).2.childRequests = []) := by
  have isDetokenizer : (state.movedCursor detokenizer).detokenizer = some detokenizer :=
    hasSent.isDetokenizer
  have isProcessor : (state.movedCursor detokenizer).logprobsProcessor = some processor :=
    hasSent.isProcessor
  rw [hasSent.makeRequestOutput sends, hasSent.takeNewTokens isNew]
  simp only [makeCompletion, isDetokenizer, isProcessor, hasSent.newCompletionOutput]
  cases parent with
  | none =>
    simp only [hasSent.newRequestOutput]
    exact ⟨_, _, rfl, fun _ => rfl, nofun⟩
  | some known =>
    rcases parents known rfl with ⟨notFinal, counted⟩
    have isId : (state.takenText detokenizer reason.isSome).requestId = state.requestId := rfl
    have isAnswer := @getOutputs_streams P known state.requestId
      (state.deltaCompletion detokenizer processor count reason stopReason) notFinal counted
    dsimp only
    rw [isId, isAnswer]
    dsimp only
    rw [if_neg (cons_ne_nil _ _)]
    simp only [hasSent.newRequestOutput]
    refine ⟨_, _, rfl, nofun, ?_⟩
    intro other isOther
    cases isOther
    rfl

end Sends

theorem popPromptLogprobs_logprobs (index : Nat) :
    (processor.popPromptLogprobs index).2.logprobs = processor.logprobs := by
  rw [LogprobsProcessor.popPromptLogprobs]
  split <;> rfl

section

variable (hasSent : state.HasSent detokenizer processor count sent) {lists : Nat -> List P}
include hasSent

/-- The log probabilities of a completion are those that were not sent. -/
theorem deltaCompletion_logprobs (isList : lists state.requestIndex = processor.logprobs.getD [])
    (sendsTokens : processor.logprobs.isSome ->
      count < detokenizer.tokenIds.length \/ detokenizer.tokenIds = []) :
    (state.deltaCompletion detokenizer processor count reason stopReason).logprobItems lists =
      (processor.logprobs.getD []).drop count := by
  cases isLogprobs : processor.logprobs with
  | none => simp [logprobItems, deltaCompletion, outputLogprobs, isLogprobs]
  | some logprobs =>
    have long := hasSent.aligned logprobs isLogprobs
    rw [isLogprobs, getD_some] at isList
    by_cases nothing : logprobs = []
    · simp [logprobItems, deltaCompletion, outputLogprobs, isLogprobs, nothing,
        Entries.items, isList]
    have positive : 0 < logprobs.length := length_pos_iff.mpr nothing
    have more : count < detokenizer.tokenIds.length := by
      rcases sendsTokens (by rw [isLogprobs]; rfl) with more | noTokens
      · exact more
      rw [noTokens] at long
      rw [long] at positive
      exact absurd positive (Nat.lt_irrefl 0)
    have sliced : sliceLast (detokenizer.tokenIds.drop count).length logprobs =
        logprobs.drop count := by
      rw [sliceLast, length_drop, if_neg (by omega), long]
      congr 1
      omega
    simp only [logprobItems, deltaCompletion, outputLogprobs, isLogprobs]
    rw [if_pos ⟨hasSent.isDelta, nothing⟩]
    simpa [Entries.items] using sliced

theorem HasSent.afterSending (isList : lists state.requestIndex = processor.logprobs.getD [])
    (sendsTokens : processor.logprobs.isSome ->
      count < detokenizer.tokenIds.length \/ detokenizer.tokenIds = []) :
    (state.afterSending detokenizer processor reason.isSome).HasSent
      (detokenizer.getNextOutputText reason.isSome true).2
      (processor.popPromptLogprobs state.requestIndex).2 detokenizer.tokenIds.length
      (sent.join ((state.deltaCompletion detokenizer processor count reason
        stopReason).delta lists)) := by
  rcases Detokenizer.getNextOutputText_spec hasSent.quiet hasSent.within with
    ⟨follows, same, within, _⟩
  have logprobs := @popPromptLogprobs_logprobs P processor state.requestIndex
  constructor
  · rfl
  · rfl
  · exact hasSent.isDelta
  · rw [same]
    exact hasSent.stops
  · rw [same]
    exact hasSent.quiet
  · rw [same]
    exact within
  · rw [same]
    exact le_rfl
  · intro interval
    exact if_pos interval
  · rw [same, logprobs]
    exact hasSent.aligned
  have isSent := hasSent.sent
  rw [same, logprobs, isSent]
  refine Delta.ext ?_ ?_ ?_
  · change detokenizer.tokenIds.take count ++ detokenizer.tokenIds.drop count =
      detokenizer.tokenIds.take detokenizer.tokenIds.length
    rw [take_append_drop, take_length]
  · exact follows
  change (processor.logprobs.getD []).take count ++ _ = _
  rw [delta, deltaCompletion_logprobs hasSent isList sendsTokens, take_append_drop]
  cases isLogprobs : processor.logprobs with
  | none => simp
  | some items =>
    rw [<- hasSent.aligned items isLogprobs]
    exact (take_length).symm

end

end RequestState

end Vllm.Frontend
