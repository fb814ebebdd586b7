import Mathlib.Tactic.Common

namespace Vllm.Foundation

/-!
# Sweeps over a list with a shared state

A sweep visits the items of a list in turn.  A visit may replace the item,
changes the shared state, returns an output, and may fail, which ends the
sweep.  There is one rule for sweeps that are known to have succeeded and one that
also shows success.
-/

universe u v w x

variable {I : Type u} {S : Type v} {A : Type w} {E : Type x} {state : S}

/-- Visit the items in order.  Each visit may change its item and the shared
state, and the first failure ends the sweep. -/
def sweep (visit : I -> S -> Except E (A × I × S)) :
    List I -> S -> Except E (List A × List I × S)
  | [], state => .ok ([], [], state)
  | item :: rest, state =>
    match visit item state with
    | .error error => .error error
    | .ok (output, item, state) =>
      match sweep visit rest state with
      | .error error => .error error
      | .ok (outputs, items, state) => .ok (output :: outputs, item :: items, state)

namespace Sweep

variable {visit : I -> S -> Except E (A × I × S)}

theorem cons_eq_ok {item : I} {rest : List I} {result : List A × List I × S}
    (swept : sweep visit (item :: rest) state = .ok result) :
    ∃ output itemAfter middle outputs items stateAfter,
      visit item state = .ok (output, itemAfter, middle) /\
      sweep visit rest middle = .ok (outputs, items, stateAfter) /\
      result = (output :: outputs, itemAfter :: items, stateAfter) := by
  rw [sweep] at swept
  cases visited : visit item state with
  | error error => simp [visited] at swept
  | ok value =>
    rcases value with ⟨output, itemAfter, middle⟩
    cases later : sweep visit rest middle with
    | error error => simp [visited, later] at swept
    | ok value =>
      rcases value with ⟨outputs, items, stateAfter⟩
      simp only [visited, later, Except.ok.injEq] at swept
      exact ⟨output, itemAfter, middle, outputs, items, stateAfter, rfl, later, swept.symm⟩

/-- What every visit keeps holds after a sweep that succeeded. -/
theorem invariant (property : List I -> List I -> S -> Prop)
    (step : ∀ before item rest state output itemAfter stateAfter,
      property before (item :: rest) state ->
      visit item state = .ok (output, itemAfter, stateAfter) ->
      property (before ++ [itemAfter]) rest stateAfter) {items : List I} {outputs : List A}
    {itemsAfter : List I} {stateAfter : S} (start : property [] items state)
    (swept : sweep visit items state = .ok (outputs, itemsAfter, stateAfter)) :
    property itemsAfter [] stateAfter := by
  suffices general : ∀ before, property before items state ->
      property (before ++ itemsAfter) [] stateAfter from general [] start
  clear start
  induction items generalizing state outputs itemsAfter with
  | nil =>
    intro before holds
    cases swept
    simpa using holds
  | cons item rest ih =>
    intro before holds
    rcases cons_eq_ok swept with ⟨output, itemAfter, middle, _, items, _, visited, later,
      result⟩
    cases result
    have after := ih later (before ++ [itemAfter])
      (step before item rest state output itemAfter middle holds visited)
    simpa using after

/-- If every visit succeeds under the invariant, so does the sweep. -/
theorem total (property : List I -> List I -> S -> Prop)
    (step : ∀ before item rest state, property before (item :: rest) state ->
      ∃ output itemAfter stateAfter, visit item state = .ok (output, itemAfter, stateAfter) /\
        property (before ++ [itemAfter]) rest stateAfter) {items : List I}
    (start : property [] items state) :
    ∃ outputs itemsAfter stateAfter,
      sweep visit items state = .ok (outputs, itemsAfter, stateAfter) /\
      property itemsAfter [] stateAfter := by
  suffices general : ∀ before, property before items state ->
      ∃ outputs itemsAfter stateAfter,
        sweep visit items state = .ok (outputs, itemsAfter, stateAfter) /\
        property (before ++ itemsAfter) [] stateAfter from general [] start
  clear start
  induction items generalizing state with
  | nil =>
    intro before holds
    exact ⟨[], [], state, rfl, by simpa using holds⟩
  | cons item rest ih =>
    intro before holds
    rcases step before item rest state holds with ⟨output, itemAfter, _, visited, next⟩
    rcases ih (before ++ [itemAfter]) next with ⟨outputs, items, final, later, after⟩
    refine ⟨output :: outputs, itemAfter :: items, final, ?_, by simpa using after⟩
    rw [sweep]
    simp only [visited, later]

end Sweep

end Vllm.Foundation
