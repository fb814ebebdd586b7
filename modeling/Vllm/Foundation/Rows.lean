import Mathlib.Logic.Equiv.Basic
import Mathlib.Tactic.Common

namespace Vllm.Foundation

open Function

/-!
# Columns of a table whose rows move

A row of a table with parallel columns is moved, or two rows are swapped, by doing
it to every column.  Dense columns, columns with a value in some rows only, and
columns whose rows are long have each their own code for this, with one effect.

An exchange of two rows that are views of the storage is different.  The first
assignment changes what the second one reads.
-/

universe u

variable {A : Type u}

variable (column : Nat -> A)

/-- Copy one row to another. -/
def moveRow (source target : Nat) : Nat -> A :=
  update column target (column source)

variable (entries : Nat -> Option A) (first : Nat)

/-- Exchange two rows, after both values have been read. -/
def swapRows (second : Nat) : Nat -> A :=
  update (update column first (column second)) second (column first)

/-- Exchange two rows through views of them. -/
def swapRowViews (second : Nat) : Nat -> A :=
  let assigned := update column first (column second)
  update assigned second (assigned first)

/-- The row that the contents of a row come from when one row is moved. -/
def movedFrom (source target row : Nat) : Nat := if row = target then source else row

theorem moveRow_apply (source target row : Nat) :
    moveRow column source target row = column (movedFrom source target row) := by
  unfold moveRow movedFrom
  rw [update_apply]
  split <;> rfl

/-- After an exchange each row has what the exchanged row had. -/
theorem swapRows_apply (second row : Nat) :
    swapRows column first second row = column (Equiv.swap first second row) := by
  rw [Equiv.swap_comm]
  exact (congrFun (Equiv.comp_swap_eq_update second first column) row).symm

/-- Through views, both rows end with the value of the second one. -/
theorem swapRowViews_eq (second : Nat) :
    swapRowViews column first second = update column first (column second) := by
  funext row
  unfold swapRowViews
  by_cases isSecond : row = second
  · rw [isSecond, update_self, update_self]
    by_cases same : second = first
    · rw [same, update_self]
    · rw [update_of_ne same]
  · rw [update_of_ne isSecond]

/-- Store an entry in a row of a sparse column.  Without an entry the row is left
alone. -/
def storeEntry (row : Nat) : Option A -> Nat -> Option A
  | some entry => update entries row (some entry)
  | none => entries

/-- Move the entry of a row to another one.  If there is none, the target is left
alone. -/
def moveEntry (source target : Nat) : Nat -> Option A :=
  match entries source with
  | none => entries
  | some entry => update (update entries source none) target (some entry)

/-- Exchange the entries of two rows, either of which may be missing. -/
def swapEntries (second : Nat) : Nat -> Option A :=
  let withSecond := match entries first with
    | some entry => update entries second (some entry)
    | none => update entries second none
  match entries second with
  | some entry => update withSecond first (some entry)
  | none => update withSecond first none

variable {entries}

theorem storeEntry_self {row : Nat} {entry : Option A}
    (clean : entry = none -> entries row = none) :
    storeEntry entries row entry row = entry := by
  cases entry with
  | none => exact clean rfl
  | some entry => exact update_self _ _ _

theorem storeEntry_of_ne {row other : Nat} (entry : Option A)
    (different : other ≠ row) : storeEntry entries row entry other = entries other := by
  cases entry with
  | none => rfl
  | some entry => exact update_of_ne different _ _

theorem moveEntry_source {source target : Nat}
    (different : source ≠ target) : moveEntry entries source target source = none := by
  cases found : entries source with
  | none => simp only [moveEntry, found]
  | some entry =>
    simp only [moveEntry, found]
    rw [update_of_ne different, update_self]

/-- The row that is left behind is the exception. -/
theorem moveEntry_apply {source target row : Nat} (notSource : row ≠ source)
    (clean : entries source = none -> entries target = none) :
    moveEntry entries source target row = entries (movedFrom source target row) := by
  unfold movedFrom
  cases found : entries source with
  | none =>
    simp only [moveEntry, found]
    split
    case isTrue same => rw [same, found, clean found]
    · rfl
  | some entry =>
    simp only [moveEntry, found]
    rw [update_apply, update_of_ne notSource]
    split
    · exact found.symm
    · rfl

theorem swapEntries_apply {first second row : Nat} :
    swapEntries entries first second row = entries (Equiv.swap first second row) := by
  have assigned : swapEntries entries first second =
      update (update entries second (entries first)) first (entries second) := by
    unfold swapEntries
    cases entries first <;> cases entries second <;> rfl
  rw [assigned, Equiv.swap_comm]
  exact swapRows_apply entries second first row

/-- Write values into a row from some position on. -/
def writeSlice (row : Nat -> A) (start : Nat) (values : List A) : Nat -> A :=
  fun k => if start <= k then values[k - start]?.getD (row k) else row k

/-- Write one value into a range of a row. -/
def fillSlice (row : Nat -> A) (start stop : Nat) (value : A) : Nat -> A :=
  fun k => if start <= k /\ k < stop then value else row k

/-- A row that took the first positions of another one. -/
def copyPrefix (length : Nat) (source target : Nat -> A) : Nat -> A :=
  fun k => if k < length then source k else target k

theorem writeSlice_at (row : Nat -> A) (start : Nat) {k : Nat} {values : List A} {value : A}
    (found : values[k]? = some value) : writeSlice row start values (start + k) = value := by
  unfold writeSlice
  rw [if_pos (Nat.le_add_right start k), Nat.add_sub_cancel_left, found, Option.getD_some]

theorem writeSlice_outside (row : Nat -> A) {start k : Nat} {values : List A}
    (outside : k < start \/ start + values.length <= k) : writeSlice row start values k = row k := by
  unfold writeSlice
  split
  · rw [List.getElem?_eq_none (by omega), Option.getD_none]
  · rfl

theorem copyRow_apply (rows : Nat -> Nat -> A) {source target length row k : Nat}
    (inside : row = target -> k < length) :
    update rows target (copyPrefix length (rows source) (rows target)) row k =
      rows (movedFrom source target row) k := by
  unfold movedFrom
  by_cases same : row = target
  · rw [same, update_self, if_pos rfl]
    exact if_pos (inside same)
  · rw [update_of_ne same, if_neg same]

theorem copyPrefix_of_lt {length k : Nat} (source target : Nat -> A) (inside : k < length) :
    copyPrefix length source target k = source k :=
  if_pos inside

end Vllm.Foundation
