import Vllm.Frontend.RequestState

namespace Vllm.Frontend

open Sched (Token FinishReason)

/-!
# The collector of a stream

A collector holds at most one output.  If the producer is ahead of the consumer,
the next output is merged into the one that is there: texts, tokens and log
probabilities of completions with the same index are joined.

The list of log probabilities in the output that is there may be the very list
of a request.  Then joining extends that list too.
-/

/-- The items of a list that an output refers to. -/
def Entries.items {A : Type} (lists : Nat -> List A) : Entries A -> List A
  | .own items => items
  | .live requestIndex => lists requestIndex

namespace CompletionOutput

variable {P : Type}

variable (lists : Nat -> List P)

/-- The log probabilities of a completion; an absent list has none. -/
def logprobItems (completion : CompletionOutput P) : List P :=
  ((completion.logprobs).map (Entries.items lists)).getD []

/-- Append to the log probabilities of a completion. -/
def extendLogprobs (items : List P) :
    Option (Entries P) -> Except FrontendError (Option (Entries P) × (Nat -> List P))
  | none => .error .assertion
  | some (.own own) => .ok (some (.own (own ++ items)), lists)
  | some (.live requestIndex) =>
    .ok (some (.live requestIndex),
      Function.update lists requestIndex (lists requestIndex ++ items))

/-- Join a completion with the next one of the same index. -/
def merge (completion next : CompletionOutput P) :
    Except FrontendError (CompletionOutput P × (Nat -> List P)) :=
  let merged :=
    { completion with
      text := completion.text ++ next.text
      tokenIds := completion.tokenIds ++ next.tokenIds
      finishReason := next.finishReason
      stopReason := next.stopReason }
  if next.logprobItems lists = [] then .ok (merged, lists)
  else
    match extendLogprobs lists (next.logprobItems lists) completion.logprobs with
    | .error error => .error error
    | .ok (logprobs, lists) => .ok ({ merged with logprobs := logprobs }, lists)

end CompletionOutput

namespace RequestOutput

variable {P : Type}

/-- Join or replace the completion with the same index, or append the new one. -/
def addCompletion (aggregate : Bool) (lists : Nat -> List P) (next : CompletionOutput P) :
    List (Option (CompletionOutput P)) ->
      Except FrontendError (List (Option (CompletionOutput P)) × (Nat -> List P))
  | [] => .ok ([some next], lists)
  | none :: _ => .error .attributeError
  | some completion :: rest =>
    if completion.index = next.index then
      if aggregate then
        match completion.merge lists next with
        | .error error => .error error
        | .ok (merged, lists) => .ok (some merged :: rest, lists)
      else
        .ok (some next :: rest, lists)
    else
      match addCompletion aggregate lists next rest with
      | .error error => .error error
      | .ok (rest, lists) => .ok (some completion :: rest, lists)

/-- Merge the completions of a later output into those of an earlier one, by
index. -/
def addCompletions (aggregate : Bool) :
    List (Option (CompletionOutput P)) -> List (Option (CompletionOutput P)) ->
      (Nat -> List P) ->
      Except FrontendError (List (Option (CompletionOutput P)) × (Nat -> List P))
  | [], outputs, lists => .ok (outputs, lists)
  | none :: _, _, _ => .error .attributeError
  | some next :: later, outputs, lists =>
    match addCompletion aggregate lists next outputs with
    | .error error => .error error
    | .ok (outputs, lists) => addCompletions aggregate later outputs lists

/-- Merge a subsequent output into this one.  The log probabilities of the prompt
stay those of the first output. -/
def add (output next : RequestOutput P) (aggregate : Bool) (lists : Nat -> List P) :
    Except FrontendError (RequestOutput P × (Nat -> List P)) :=
  match addCompletions aggregate next.outputs output.outputs lists with
  | .error error => .error error
  | .ok (outputs, lists) =>
    .ok ({ output with finished := output.finished || next.finished, outputs := outputs }, lists)

end RequestOutput

/-- Put an output into a collector.  Outputs of different kinds do not mix. -/
def putOutput {P : Type} (aggregate : Bool) (lists : Nat -> List P) :
    Option (AnyOutput P) -> AnyOutput P ->
      Except FrontendError (Option (AnyOutput P) × (Nat -> List P))
  | none, output => .ok (some output, lists)
  | some (.request waiting), .request output =>
    match waiting.add output aggregate lists with
    | .error error => .error error
    | .ok (merged, lists) => .ok (some (.request merged), lists)
  | some (.pooling _), .pooling output => .ok (some (.pooling output), lists)
  | some waiting, _ => .ok (some waiting, lists)

end Vllm.Frontend
