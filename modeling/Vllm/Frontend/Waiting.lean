import Vllm.Frontend.Cursors

namespace Vllm.Frontend

open CompletionOutput RequestOutput List
open Sched (Token FinishReason)

/-!
# The output that waits in the collector

What waits for a request is joined with the next completion of the same request,
and what waits for the other requests stays.  The lists of log probabilities
that belong to requests are not touched, because the completions that are
joined have lists of their own.
-/

namespace CompletionOutput

variable {P : Type} {lists : Nat -> List P} {completion next : CompletionOutput P}

/-- The next completion can be joined to this one without touching the list of a
request. -/
def Joins (lists : Nat -> List P) (completion next : CompletionOutput P) : Prop :=
  completion.logprobs = none /\ next.logprobItems lists = [] \/
    ∃ items, completion.logprobs = some (.own items)

theorem merge_spec (joins : Joins lists completion next) :
    ∃ merged, completion.merge lists next = .ok (merged, lists) /\
      merged.index = completion.index /\
      merged.delta lists = (completion.delta lists).join (next.delta lists) /\
      (merged.logprobs = none /\ completion.logprobs = none \/
        ∃ items, merged.logprobs = some (.own items)) := by
  by_cases nothing : next.logprobItems lists = []
  · refine ⟨{ completion with
        text := completion.text ++ next.text
        tokenIds := completion.tokenIds ++ next.tokenIds
        finishReason := next.finishReason
        stopReason := next.stopReason }, ?_, rfl, ?_, ?_⟩
    · rw [merge, if_pos nothing]
    · simp only [delta, Delta.join, nothing, append_nil]
      rfl
    rcases joins with ⟨isNone, _⟩ | isOwn
    · exact Or.inl ⟨isNone, isNone⟩
    · exact Or.inr isOwn
  rcases joins with ⟨_, isNothing⟩ | ⟨items, isOwn⟩
  · exact absurd isNothing nothing
  refine ⟨{ completion with
      text := completion.text ++ next.text
      tokenIds := completion.tokenIds ++ next.tokenIds
      finishReason := next.finishReason
      stopReason := next.stopReason
      logprobs := some (.own (items ++ next.logprobItems lists)) }, ?_, rfl, ?_,
    Or.inr ⟨_, rfl⟩⟩
  · rw [merge, if_neg nothing, isOwn]
    rfl
  have own : completion.logprobItems lists = items := by
    simp [logprobItems, isOwn, Entries.items]
  simp only [delta, Delta.join, own]
  rfl

end CompletionOutput

section Waiting

variable {P : Type} {lists : Nat -> List P}

/-- What a list of completions has of a sample. -/
def partOf (lists : Nat -> List P) (index : Nat) : List (Option (CompletionOutput P)) -> Delta P
  | [] => .none
  | none :: rest => partOf lists index rest
  | some completion :: rest =>
    (if completion.index = index then completion.delta lists else .none).join
      (partOf lists index rest)

/-- The requests that completions belong to. -/
def indices : List (Option (CompletionOutput P)) -> List Nat
  | [] => []
  | none :: rest => indices rest
  | some completion :: rest => completion.index :: indices rest

variable {outputs : List (Option (CompletionOutput P))}

theorem mem_indices {completion : CompletionOutput P} (member : some completion ∈ outputs) :
    completion.index ∈ indices outputs := by
  induction outputs with
  | nil => cases member
  | cons output rest ih =>
    rcases mem_cons.mp member with same | later
    · rw [<- same, indices]
      exact mem_cons_self
    cases output with
    | none => exact ih later
    | some other => exact mem_cons_of_mem _ (ih later)

theorem partOf_eq_none {index : Nat} (absent : index ∉ indices outputs) :
    partOf lists index outputs = .none := by
  induction outputs with
  | nil => rfl
  | cons output rest ih =>
    cases output with
    | none => exact ih absent
    | some completion =>
      rw [indices, mem_cons, not_or] at absent
      rw [partOf, if_neg (Ne.symm absent.1), ih absent.2, Delta.none_join]

/-- Only the lists that completions refer to matter. -/
theorem partOf_congr {other : Nat -> List P} {index : Nat}
    (same : ∀ completion, some completion ∈ outputs ->
      completion.logprobItems lists = completion.logprobItems other) :
    partOf lists index outputs = partOf other index outputs := by
  induction outputs with
  | nil => rfl
  | cons output rest ih =>
    have later := ih (fun completion member => same completion (mem_cons_of_mem _ member))
    cases output with
    | none => exact later
    | some completion =>
      rw [partOf, partOf, later, delta, delta, same completion mem_cons_self]

/-- A completion after another one was added. -/
def CameFrom (outputs : List (Option (CompletionOutput P))) (next completion : CompletionOutput P) :
    Prop :=
  some completion ∈ outputs /\ completion.index ≠ next.index \/
    completion.index = next.index /\ (completion = next \/
      completion.logprobs = none /\ (∃ waiting, some waiting ∈ outputs /\
        waiting.index = next.index /\ waiting.logprobs = none) \/
      ∃ items, completion.logprobs = some (.own items))

/-- A completion is joined to the one of the same request, or appended. -/
theorem addCompletion_spec {next : CompletionOutput P} (present : none ∉ outputs)
    (distinct : (indices outputs).Nodup)
    (joins : ∀ completion, some completion ∈ outputs -> completion.index = next.index ->
      completion.Joins lists next) :
    ∃ merged, addCompletion true lists next outputs = .ok (merged, lists) /\
      (∀ index, partOf lists index merged = (partOf lists index outputs).join
        (if next.index = index then next.delta lists else .none)) /\
      none ∉ merged /\
      indices merged = (if next.index ∈ indices outputs then indices outputs
          else indices outputs ++ [next.index]) /\
      ∀ completion, some completion ∈ merged -> CameFrom outputs next completion := by
  induction outputs with
  | nil =>
    refine ⟨[some next], rfl, ?_, by simp, rfl, ?_⟩
    · intro index
      simp [partOf]
    intro completion member
    have same : completion = next := by simpa using member
    exact Or.inr ⟨by rw [same], Or.inl same⟩
  | cons output rest ih =>
    cases output with
    | none => exact absurd mem_cons_self present
    | some completion =>
      rw [indices, nodup_cons] at distinct
      by_cases same : completion.index = next.index
      · rcases merge_spec (joins completion mem_cons_self same) with
          ⟨merged, merging, index, part, own⟩
        refine ⟨some merged :: rest, ?_, ?_, ?_, ?_, ?_⟩
        · rw [addCompletion, if_pos same, if_pos rfl, merging]
        · intro other
          rw [partOf, partOf, index, same]
          by_cases isOther : next.index = other
          · have nothing : partOf lists other rest = .none := by
              refine partOf_eq_none ?_
              rw [<- isOther, <- same]
              exact distinct.1
            rw [if_pos isOther, if_pos isOther, if_pos isOther, part, nothing, Delta.join_none,
              Delta.join_none]
          · rw [if_neg isOther, if_neg isOther, if_neg isOther, Delta.join_none]
        · intro member
          rcases mem_cons.mp member with impossible | later
          · cases impossible
          · exact present (mem_cons_of_mem _ later)
        · rw [indices, indices, index, same, if_pos mem_cons_self]
        intro other member
        rcases mem_cons.mp member with isMerged | later
        · cases isMerged
          refine Or.inr ⟨index.trans same, Or.inr ?_⟩
          rcases own with ⟨isNone, wasNone⟩ | isOwn
          · exact Or.inl ⟨isNone, completion, mem_cons_self, same, wasNone⟩
          · exact Or.inr isOwn
        refine Or.inl ⟨mem_cons_of_mem _ later, ?_⟩
        intro isNext
        refine distinct.1 ?_
        rw [same, <- isNext]
        exact mem_indices later
      have presentLater : none ∉ rest := fun member => present (mem_cons_of_mem _ member)
      rcases ih presentLater distinct.2 (fun other member =>
        joins other (mem_cons_of_mem _ member)) with
        ⟨merged, merging, part, presentMerged, indexes, came⟩
      refine ⟨some completion :: merged, ?_, ?_, ?_, ?_, ?_⟩
      · rw [addCompletion, if_neg same, merging]
      · intro other
        rw [partOf, partOf, part, Delta.join_assoc]
      · intro member
        rcases mem_cons.mp member with impossible | later
        · cases impossible
        · exact presentMerged later
      · have different : ¬ next.index = completion.index := Ne.symm same
        rw [indices, indices, indexes]
        by_cases later : next.index ∈ indices rest
        · rw [if_pos later, if_pos (mem_cons_of_mem _ later)]
        rw [if_neg later, if_neg]
        · rfl
        · simp [different, later]
      intro other member
      rcases mem_cons.mp member with isSame | later
      · cases isSame
        exact Or.inl ⟨mem_cons_self, same⟩
      rcases came other later with ⟨before, different⟩ | isNext
      · exact Or.inl ⟨mem_cons_of_mem _ before, different⟩
      rcases isNext with ⟨sameIndex, isCompletion | ⟨isNone, waiting, before, rest⟩ | isOwn⟩
      · exact Or.inr ⟨sameIndex, Or.inl isCompletion⟩
      · exact Or.inr ⟨sameIndex, Or.inr (Or.inl ⟨isNone, waiting, mem_cons_of_mem _ before, rest⟩)⟩
      · exact Or.inr ⟨sameIndex, Or.inr (Or.inr isOwn)⟩

end Waiting

end Vllm.Frontend
