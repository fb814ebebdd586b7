import Vllm.Sched.Request

namespace Vllm.Frontend

open Sched (Token)

/-!
# Incremental detokenization and stop strings

Tokens become text one after the other.  The tokenizer is a parameter: a
function of its own state and the next token.  After each update the new text
is searched for stop strings, and the text is cut where one is found.

A stop string that is not part of the output must not be sent in pieces, so as
long as the request runs the last characters are held back, one less than the
longest stop string has.
-/

/-- Texts are lists of characters. -/
abbrev Text := List Char

/-- Python's `text.find(sub, start)`.  A negative start counts from the end. -/
def find (text sub : Text) (start : Int) : Option Nat :=
  let start := if start < 0 then max (start + text.length) 0 else start
  (List.range (text.length + 1)).find? (fun index =>
    start <= index /\ sub.isPrefixOf (text.drop index))

/-- The stop string found and the length to cut the text to, if it is to be cut. -/
def checkStopStrings (outputText : Text) (newCharCount : Nat) (stop : List Text)
    (includeInOutput : Bool) : Option (Text × Option Nat) :=
  if newCharCount = 0 \/ stop = [] then none
  else
    stop.findSome? (fun stopStr =>
      match find outputText stopStr (1 - newCharCount - stopStr.length) with
      | none => none
      | some stopIndex =>
        if includeInOutput then
          let stopIndex := stopIndex + stopStr.length
          if outputText.length <= stopIndex then some (stopStr, none)
          else some (stopStr, some stopIndex)
        else
          some (stopStr, some stopIndex))

/-- The detokenizer of a request.  Without a tokenizer there is no decoder. -/
structure Detokenizer (D : Type) where
  decoder : Option D
  tokenIds : List Token
  stop : List Text
  minTokens : Nat
  includeStopStrInOutput : Bool
  lastOutputTextOffset : Nat
  outputText : Text

/-- The local variables of the loop over new tokens. -/
structure DecodeLoop (D : Type) where
  decoder : D
  tokenIds : List Token
  outputText : Text
  stopCheckOffset : Nat

section Decode

variable {D : Type} (decodeNext : D -> Token -> D × Text)

/-- Decode one token.  Text of the first tokens is not searched. -/
def decodeToken (minTokens : Nat) (loop : DecodeLoop D) (tokenId : Token) : DecodeLoop D :=
  let next := decodeNext loop.decoder tokenId
  let tokenIds := loop.tokenIds ++ [tokenId]
  let outputText := loop.outputText ++ next.2
  { decoder := next.1
    tokenIds := tokenIds
    outputText := outputText
    stopCheckOffset :=
      if minTokens ≠ 0 /\ tokenIds.length <= minTokens then outputText.length
      else loop.stopCheckOffset }

end Decode

namespace Detokenizer

variable {D : Type} (detokenizer : Detokenizer D)

/-- The number of tokens so far. -/
def numOutputTokens : Nat := detokenizer.tokenIds.length

/-- The number of characters held back while the request runs. -/
def stopBufferLength : Nat :=
  if detokenizer.stop ≠ [] /\ detokenizer.includeStopStrInOutput = false then
    (detokenizer.stop.map List.length).foldl max 0 - 1
  else
    0

/-- Cut the text at a stop string in the part that was not searched yet. -/
def evaluateStop (stopCheckOffset : Nat) : Option Text × Detokenizer D :=
  if detokenizer.stop ≠ [] /\ detokenizer.minTokens < detokenizer.numOutputTokens then
    match checkStopStrings detokenizer.outputText (detokenizer.outputText.length - stopCheckOffset)
        detokenizer.stop detokenizer.includeStopStrInOutput with
    | none => (none, detokenizer)
    | some (stopString, none) => (some stopString, detokenizer)
    | some (stopString, some truncateTo) =>
      (some stopString,
        { detokenizer with outputText := detokenizer.outputText.take truncateTo })
  else
    (none, detokenizer)

/-- Take new tokens.  The result is the stop string that was found.  The token
that stopped the request has no text unless stop strings are output. -/
def update (decodeNext : D -> Token -> D × Text) (newTokenIds : List Token)
    (stopTerminated : Bool) : Option Text × Detokenizer D :=
  match detokenizer.decoder with
  | none => (none, { detokenizer with tokenIds := detokenizer.tokenIds ++ newTokenIds })
  | some decoder =>
    if newTokenIds = [] then (none, detokenizer)
    else
      let skips := stopTerminated /\ detokenizer.includeStopStrInOutput = false
      let decoded := if skips then newTokenIds.dropLast else newTokenIds
      let skipped := if skips then newTokenIds.drop (newTokenIds.length - 1) else []
      let loop := decoded.foldl (decodeToken decodeNext detokenizer.minTokens)
        ⟨decoder, detokenizer.tokenIds, detokenizer.outputText, detokenizer.outputText.length⟩
      evaluateStop
        { detokenizer with
          decoder := some loop.decoder
          tokenIds := loop.tokenIds ++ skipped
          outputText := loop.outputText }
        loop.stopCheckOffset

/-- The text to send: all of it, or what was not sent yet. -/
def getNextOutputText (finished delta : Bool) : Text × Detokenizer D :=
  match detokenizer.decoder with
  | none => ([], detokenizer)
  | some _ =>
    let bufferLength := if finished then 0 else detokenizer.stopBufferLength
    let length := detokenizer.outputText.length - bufferLength
    if delta = false then (detokenizer.outputText.take length, detokenizer)
    else if detokenizer.lastOutputTextOffset < length then
      ((detokenizer.outputText.take length).drop detokenizer.lastOutputTextOffset,
        { detokenizer with lastOutputTextOffset := length })
    else
      ([], detokenizer)

end Detokenizer

end Vllm.Frontend
