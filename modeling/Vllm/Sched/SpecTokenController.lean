import Mathlib.Algebra.GroupWithZero.Nat
import Mathlib.Order.Basic

namespace Vllm.Sched

open List

/-!
# The controller of the number of draft tokens

The scheduler can adapt the number of draft tokens of a step to the rate at which
drafts are accepted.  The controller collects the accepted and the draft tokens of
several steps.  When the window has enough of both it lowers or raises the limit
by two, or leaves it, and begins a new window.

The limit never leaves its bounds, and it cannot flutter: every change uses up a
whole window.
-/

/-- The settings and the counters of the controller.  The rates are fractions. -/
structure SpecTokenController where
  maxK : Nat
  minK : Nat
  lowRate : Nat × Nat
  highRate : Nat × Nat
  intervalSteps : Nat
  minDraftTokens : Nat
  enableControl : Bool
  activeK : Nat
  numSteps : Nat
  numDraftTokens : Nat
  numAcceptedTokens : Nat
  deriving DecidableEq

namespace SpecTokenController

/-- The controller that the scheduler creates: rates of 0.25 and 0.45, and a
decision after at least 8 steps and 128 draft tokens. -/
def init (maxNumSpecTokens : Nat) : SpecTokenController :=
  { maxK := maxNumSpecTokens, minK := 1, lowRate := (1, 4), highRate := (9, 20), intervalSteps := 8
    minDraftTokens := 128, enableControl := true, activeK := maxNumSpecTokens
    numSteps := 0, numDraftTokens := 0, numAcceptedTokens := 0 }

variable (controller : SpecTokenController)

variable (acceptedTokens draftTokens : Nat)

/-- The number of draft tokens after a decision. -/
def decide : Nat :=
  if acceptedTokens * controller.lowRate.2 < controller.lowRate.1 * draftTokens then
    max controller.minK (controller.activeK - 2)
  else if controller.highRate.1 * draftTokens < acceptedTokens * controller.highRate.2 then
    min controller.maxK (controller.activeK + 2)
  else
    controller.activeK

/-- Record one step, and decide when there are enough samples. -/
def observe : SpecTokenController :=
  if draftTokens = 0 \/ controller.enableControl = false then controller
  else
    let acceptedTokens := min acceptedTokens draftTokens
    let controller :=
      { controller with
        numSteps := controller.numSteps + 1
        numDraftTokens := controller.numDraftTokens + draftTokens
        numAcceptedTokens := controller.numAcceptedTokens + acceptedTokens }
    if controller.numSteps < controller.intervalSteps \/
        controller.numDraftTokens < controller.minDraftTokens then
      controller
    else
      { controller with
        activeK := controller.decide controller.numAcceptedTokens controller.numDraftTokens
        numSteps := 0
        numDraftTokens := 0
        numAcceptedTokens := 0 }

/-- The controller after a number of steps with these accepted and draft tokens. -/
def observeAll (steps : List (Nat × Nat)) (controller : SpecTokenController) :
    SpecTokenController :=
  steps.foldl (fun controller step => controller.observe step.1 step.2) controller

/-- How often the limit changes in steps with these accepted and draft tokens. -/
def numChanges : SpecTokenController -> List (Nat × Nat) -> Nat
  | _, [] => 0
  | controller, step :: rest =>
    let after := controller.observe step.1 step.2
    (if after.activeK = controller.activeK then 0 else 1) + after.numChanges rest

section

variable {controller} {after : SpecTokenController}

variable (above : controller.minK <= controller.activeK)
  (below : controller.activeK <= controller.maxK)

include above below

/-- A change of the limit uses up the window. -/
theorem observe_steady (step : Nat × Nat) (observed : controller.observe step.1 step.2 = after) :
    (after.minK = controller.minK /\ after.maxK = controller.maxK /\
      after.intervalSteps = controller.intervalSteps /\
      after.minDraftTokens = controller.minDraftTokens) /\
    (controller.minK <= after.activeK /\ after.activeK <= controller.maxK) /\
    controller.intervalSteps * (if after.activeK = controller.activeK then 0 else 1) +
      after.numSteps <= controller.numSteps + 1 /\
    controller.minDraftTokens * (if after.activeK = controller.activeK then 0 else 1) +
      after.numDraftTokens <= controller.numDraftTokens + step.2 := by
  subst observed
  dsimp only [observe]
  split
  · simp [above, below]
  split
  · simp [above, below]
  case isFalse full =>
    dsimp only [decide] at full ⊢
    refine ⟨⟨rfl, rfl, rfl, rfl⟩, ?_, ?_, ?_⟩ <;> grind

theorem observeAll_steady (steps : List (Nat × Nat)) :
    (controller.minK <= (controller.observeAll steps).activeK /\
        (controller.observeAll steps).activeK <= controller.maxK) /\
      controller.intervalSteps * controller.numChanges steps <= steps.length + controller.numSteps /\
      controller.minDraftTokens * controller.numChanges steps <=
        (steps.map Prod.snd).sum + controller.numDraftTokens := by
  induction steps generalizing controller with
  | nil => exact ⟨⟨above, below⟩, Nat.zero_le _, Nat.zero_le _⟩
  | cons step rest ih =>
    rcases observe_steady above below step rfl with ⟨⟨minK, maxK, interval, drafts⟩, bounds, used⟩
    have next := ih (minK.trans_le bounds.1) (bounds.2.trans_eq maxK.symm)
    rw [minK, maxK, interval, drafts] at next
    rw [numChanges, Nat.mul_add, Nat.mul_add, map_cons, sum_cons, length_cons]
    refine ⟨next.1, ?_, ?_⟩ <;> omega

end

/-- From the start the limit stays between one and the number of draft tokens, and
each of its changes takes eight steps and 128 draft tokens of its own. -/
theorem limit_is_steady {maxNumSpecTokens : Nat} (positive : 0 < maxNumSpecTokens)
    (steps : List (Nat × Nat)) :
    (1 <= ((init maxNumSpecTokens).observeAll steps).activeK /\
        ((init maxNumSpecTokens).observeAll steps).activeK <= maxNumSpecTokens) /\
      8 * (init maxNumSpecTokens).numChanges steps <= steps.length /\
      128 * (init maxNumSpecTokens).numChanges steps <= (steps.map Prod.snd).sum :=
  @observeAll_steady (init maxNumSpecTokens) positive (Nat.le_refl _) steps

theorem limit_is_steady_two : 8 * (init 2).numChanges (.replicate 8 (0, 16)) <= 8 :=
  (limit_is_steady (Nat.succ_pos 1) (.replicate 8 (0, 16))).2.1

end SpecTokenController

end Vllm.Sched
