import Mathlib.Tactic.Common

namespace Vllm.Foundation

/-!
# Transition systems with labelled steps

A system has a set of initial states and a step relation whose label is the input
of the step.  A claim about the runs in which every step meets a condition is a
claim about the reachable states of the system restricted by that condition.
-/

universe u v

/-- Initial states and labelled steps. -/
structure System (S : Type u) (L : Type v) where
  initial : S -> Prop
  step : S -> L -> S -> Prop

namespace System

variable {S : Type u} {L : Type v}

/-- The states that some finite run visits. -/
inductive Reachable (system : System S L) : S -> Prop
  | start {state : S} (initial : system.initial state) : Reachable system state
  | next {state after : S} (label : L) (before : Reachable system state)
      (step : system.step state label after) : Reachable system after

/-- Keep only the steps whose input meets a condition in the state before it. -/
def restrict (system : System S L) (guard : S -> L -> Prop) : System S L where
  initial := system.initial
  step state label after := guard state label /\ system.step state label after

variable {system : System S L} {guard : S -> L -> Prop} {state : S}

/-- What holds initially and is kept by every step holds in every reachable
state.  The step may assume that the state before it is reachable. -/
theorem Reachable.invariant (property : S -> Prop)
    (initially : ∀ state, system.initial state -> property state)
    (preserved : ∀ state label after, system.Reachable state -> property state ->
      system.step state label after -> property after) (reachable : system.Reachable state) :
    property state := by
  induction reachable with
  | start initial => exact initially _ initial
  | next label before step ih => exact preserved _ label _ before ih step

theorem Reachable.of_restrict (reachable : (system.restrict guard).Reachable state) :
    system.Reachable state := by
  induction reachable with
  | start initial => exact .start initial
  | next label _ step ih => exact .next label ih step.2

/-- Follow a partial function along a list of labels. -/
def run (next : S -> L -> Option S) : List L -> S -> Option S
  | [], state => some state
  | label :: rest, state =>
    match next state label with
    | none => none
    | some after => run next rest after

/-- A function that computes steps computes reachable states. -/
theorem Reachable.run {next : S -> L -> Option S}
    (steps : ∀ state label after, next state label = some after -> system.step state label after)
    {labels : List L} {after : S} (reachable : system.Reachable state)
    (ran : System.run next labels state = some after) :
    system.Reachable after := by
  induction labels generalizing state with
  | nil =>
    cases ran
    exact reachable
  | cons label rest ih =>
    rw [System.run] at ran
    split at ran
    · cases ran
    case h_2 middle isNext => exact ih (.next label reachable (steps _ _ _ isNext)) ran

/-- A call that may fail gives a value only by returning it. -/
theorem ok_of_toOption {A E : Type*} {result : Except E A} {value : A}
    (isSome : result.toOption = some value) : result = .ok value := by
  cases result with
  | error error => cases isSome
  | ok other =>
    cases isSome
    rfl

/-- A function that may fail and is called only where a condition holds computes
states that are reachable by steps that meet the condition. -/
theorem Reachable.run_where {E : Type*} [∀ state label, Decidable (guard state label)]
    {next : S -> L -> Except E S}
    (steps : ∀ state label after, guard state label -> next state label = .ok after ->
      system.step state label after) {labels : List L} {after : S}
    (reachable : system.Reachable state)
    (ran : System.run (fun state label =>
      if guard state label then (next state label).toOption else none) labels state = some after) :
    system.Reachable after := by
  refine reachable.run ?_ ran
  intro state label after isAfter
  split at isAfter
  case isTrue meets => exact steps state label after meets (ok_of_toOption isAfter)
  · cases isAfter

end System

end Vllm.Foundation
