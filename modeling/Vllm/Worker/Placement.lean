import Vllm.Worker.BatchRows

namespace Vllm.Worker

open Foundation InputBatch Dict Option
open Hashing (TokenId)
open KVCache (RequestId BlockId)

/-!
# Where the requests of a batch are

The list of request ids and the index from ids to rows are two views of one
placement.  Between the removals of a step and its end some rows are free.  Each
operation says how the free rows change, and after `condense` there are none.
-/

/-- A row has a request. -/
def Occupied (reqIds : List (Option RequestId)) (row : Nat) : Prop :=
  ∃ reqId, reqIds[row]? = some (some reqId)

/-- The lists and the index agree, and the free rows are the given ones.  Rows
without a request have no draft tokens. -/
structure Placed (reqIds : List (Option RequestId)) (index : Dict RequestId Nat)
    (outputs : List (Option Nat)) (specs : List (List TokenId)) (holes : List Nat) : Prop where
  index_iff : ∀ reqId row, index.get? reqId = some row <-> reqIds[row]? = some (some reqId)
  holes_iff : ∀ row, reqIds[row]? = some none <-> row ∈ holes
  nodup : holes.Nodup
  size : reqIds.length = index.entries.length + holes.length
  outputs_length : outputs.length = reqIds.length
  specs_length : reqIds.length <= specs.length
  specs_empty : ∀ row, ¬ Occupied reqIds row -> (specs[row]?).getD [] = []

section Index

variable {K V : Type} [DecidableEq K]

variable (dict : Dict K V) (key : K) (value : V)

theorem length_store {entries : List (K × V)} : (store key value entries).length =
      if (lookup key entries).isSome then entries.length else entries.length + 1 := by
  induction entries with
  | nil => rfl
  | cons entry rest ih =>
    by_cases found : entry.1 = key
    · simp [store, lookup, found]
    simp only [store, lookup, if_neg found, List.length_cons, ih]
    split <;> rfl

theorem length_discard {entries : List (K × V)} : (Dict.discard key entries).length =
      if (lookup key entries).isSome then entries.length - 1 else entries.length := by
  induction entries with
  | nil => rfl
  | cons entry rest ih =>
    by_cases found : entry.1 = key
    · simp [Dict.discard, lookup, found]
    simp only [Dict.discard, lookup, if_neg found, List.length_cons, ih]
    cases present : lookup key rest with
    | none => rfl
    | some value =>
      have nonempty : rest ≠ [] := by
        rintro rfl
        cases present
      have positive := List.length_pos_iff.mpr nonempty
      simp only [isSome_some, if_true]
      omega

theorem length_entries_set : (dict.set key value).entries.length =
      if (dict.get? key).isSome then dict.entries.length else dict.entries.length + 1 :=
  length_store key value

theorem length_entries_erase : (dict.erase key).entries.length =
      if (dict.get? key).isSome then dict.entries.length - 1 else dict.entries.length :=
  length_discard key

end Index

variable {A : Type}

theorem getElem?_set_of_lt {items : List A} {row : Nat} (inside : row < items.length) (item : A)
    (other : Nat) :
    (items.set row item)[other]? = if other = row then some item else items[other]? := by
  rw [List.getElem?_set]
  by_cases same : row = other
  · rw [if_pos same, if_pos inside, if_pos same.symm]
  · rw [if_neg same, if_neg (Ne.symm same)]

theorem getD_append_nil {lists : List (List A)} {row : Nat} :
    ((lists ++ [[]])[row]?).getD [] = (lists[row]?).getD [] := by
  rcases Nat.lt_or_ge row lists.length with inside | outside
  · rw [List.getElem?_append_left inside]
  rw [List.getElem?_append_right outside, List.getElem?_eq_none outside]
  cases row - lists.length <;> rfl

namespace Placed

variable {reqIds : List (Option RequestId)} {index : Dict RequestId Nat}
  {outputs : List (Option Nat)} {specs : List (List TokenId)} {holes : List Nat} {reqId : RequestId}
  {row : Nat}

section

variable (placed : Placed reqIds index outputs specs holes)
include placed

theorem row_lt (found : index.get? reqId = some row) : row < reqIds.length := by
  have isAt := (placed.index_iff reqId row).mp found
  by_contra outside
  rw [List.getElem?_eq_none (Nat.le_of_not_lt outside)] at isAt
  cases isAt

theorem hole_lt (hole : row ∈ holes) : row < reqIds.length := by
  have isAt := (placed.holes_iff row).mpr hole
  by_contra outside
  rw [List.getElem?_eq_none (Nat.le_of_not_lt outside)] at isAt
  cases isAt

theorem cases_row (inside : row < reqIds.length) : row ∈ holes \/ Occupied reqIds row := by
  cases isAt : reqIds[row]? with
  | none => exact absurd inside (Nat.not_lt.mpr (List.getElem?_eq_none_iff.mp isAt))
  | some item =>
    cases item with
    | none => exact Or.inl ((placed.holes_iff row).mp isAt)
    | some reqId => exact Or.inr ⟨reqId, isAt⟩

theorem not_occupied_of_hole (hole : row ∈ holes) : ¬ Occupied reqIds row := by
  rintro ⟨reqId, isAt⟩
  rw [(placed.holes_iff row).mpr hole] at isAt
  cases isAt

theorem occupied_of_index (found : index.get? reqId = some row) : Occupied reqIds row :=
  ⟨reqId, (placed.index_iff reqId row).mp found⟩

variable {first second : RequestId}

theorem row_unique (isFirst : index.get? first = some row) (isSecond : index.get? second = some row) :
    first = second := by
  rw [placed.index_iff] at isFirst isSecond
  rw [isFirst] at isSecond
  exact Option.some.inj (Option.some.inj isSecond)

theorem row_ne {firstRow secondRow : Nat} (different : first ≠ second)
    (isFirst : index.get? first = some firstRow) (isSecond : index.get? second = some secondRow) :
    firstRow ≠ secondRow := by
  rintro rfl
  exact different (placed.row_unique isFirst isSecond)

theorem index_enter (new : index.get? reqId = none) {entered : List (Option RequestId)}
    (isEntered : ∀ other, entered[other]? =
      if other = row then some (some reqId) else reqIds[other]?)
    (free : ¬ Occupied reqIds row) (other : RequestId) (otherRow : Nat) :
    (index.set reqId row).get? other = some otherRow <-> entered[otherRow]? = some (some other) := by
  rw [get?_set, isEntered]
  by_cases isNew : other = reqId
  · rw [if_pos isNew]
    by_cases same : otherRow = row
    · simp [isNew, same]
    have absent : ¬ reqIds[otherRow]? = some (some other) := by
      rw [<- placed.index_iff, isNew, new]
      simp
    simp [same, Ne.symm same, absent]
  rw [if_neg isNew, placed.index_iff]
  by_cases same : otherRow = row
  · have absent : ¬ reqIds[row]? = some (some other) := fun isAt => free ⟨other, isAt⟩
    simp [same, absent, Ne.symm isNew]
  · rw [if_neg same]

/-- A request goes to a free row. -/
theorem fill (new : index.get? reqId = none) (hole : row ∈ holes) (output : Option Nat)
    (spec : List TokenId) :
    Placed (reqIds.set row (some reqId)) (index.set reqId row) (outputs.set row output)
      (specs.set row spec) (holes.erase row) := by
  have inside := placed.hole_lt hole
  have isSet := getElem?_set_of_lt inside (some reqId)
  refine ⟨placed.index_enter new isSet (placed.not_occupied_of_hole hole), ?_,
    placed.nodup.erase row, ?_, ?_, ?_, ?_⟩
  · intro other
    rw [isSet, placed.nodup.mem_erase_iff, <- placed.holes_iff]
    by_cases same : other = row
    · simp [same]
    · simp [same]
  · rw [List.length_set, length_entries_set, new, List.length_erase_of_mem hole, placed.size]
    have positive := List.length_pos_of_mem hole
    simp only [isSome_none, Bool.false_eq_true, if_false]
    omega
  · rw [List.length_set, List.length_set, placed.outputs_length]
  · rw [List.length_set, List.length_set]
    exact placed.specs_length
  intro other free
  have different : other ≠ row := by
    rintro rfl
    exact free ⟨reqId, by rw [isSet, if_pos rfl]⟩
  rw [List.getElem?_set_ne (Ne.symm different)]
  apply placed.specs_empty
  rintro ⟨otherId, isAt⟩
  exact free ⟨otherId, by rw [isSet, if_neg different, isAt]⟩

end

theorem append (placed : Placed reqIds index outputs specs []) (new : index.get? reqId = none)
    (output : Option Nat) :
    Placed (reqIds ++ [some reqId]) (index.set reqId reqIds.length) (outputs ++ [output])
      (specs ++ [[]]) [] := by
  have isAppended : ∀ row, (reqIds ++ [some reqId])[row]? =
      if row = reqIds.length then some (some reqId) else reqIds[row]? := by
    intro row
    rcases Nat.lt_trichotomy row reqIds.length with inside | same | outside
    · rw [List.getElem?_append_left inside, if_neg inside.ne]
    · rw [same, List.getElem?_append_right (le_rfl), if_pos rfl, Nat.sub_self]
      rfl
    rw [if_neg outside.ne', List.getElem?_eq_none (by simp; omega),
      List.getElem?_eq_none (by omega)]
  have free : ¬ Occupied reqIds reqIds.length := by simp [Occupied]
  refine ⟨placed.index_enter new isAppended free, ?_, List.nodup_nil, ?_, ?_, ?_, ?_⟩
  · intro row
    rw [isAppended, <- placed.holes_iff]
    by_cases same : row = reqIds.length
    · simp [same]
    · rw [if_neg same]
  · rw [List.length_append, length_entries_set, new, placed.size]
    simp
  · rw [List.length_append, List.length_append, placed.outputs_length]
    rfl
  · rw [List.length_append, List.length_append]
    exact Nat.add_le_add_right placed.specs_length 1
  intro row isFree
  rw [getD_append_nil]
  apply placed.specs_empty
  rintro ⟨otherId, isAt⟩
  refine isFree ⟨otherId, ?_⟩
  rw [isAppended, if_neg, isAt]
  rintro rfl
  exact free ⟨otherId, isAt⟩

section

variable (placed : Placed reqIds index outputs specs holes)
include placed

theorem empty (found : index.get? reqId = some row) :
    Placed (reqIds.set row none) (index.erase reqId) (outputs.set row none) (specs.set row [])
      (row :: holes) := by
  have inside := placed.row_lt found
  have isAt := (placed.index_iff reqId row).mp found
  have isSet := getElem?_set_of_lt inside (none : Option RequestId)
  refine ⟨?_, ?_, ?_, ?_, ?_, ?_, ?_⟩
  · intro other otherRow
    rw [get?_erase, isSet]
    by_cases isGone : other = reqId
    · rw [if_pos isGone]
      by_cases same : otherRow = row
      · simp [same]
      have absent : ¬ reqIds[otherRow]? = some (some other) := by
        rw [<- placed.index_iff, isGone, found]
        simpa using Ne.symm same
      simp [same, absent]
    rw [if_neg isGone, placed.index_iff]
    by_cases same : otherRow = row
    · simp [same, isAt, Ne.symm isGone]
    · rw [if_neg same]
  · intro other
    rw [isSet, List.mem_cons, <- placed.holes_iff]
    by_cases same : other = row
    · simp [same]
    · simp [same]
  · rw [List.nodup_cons]
    refine ⟨fun hole => ?_, placed.nodup⟩
    exact placed.not_occupied_of_hole hole ⟨reqId, isAt⟩
  · rw [List.length_set, length_entries_erase, found, placed.size, List.length_cons]
    have positive : 0 < index.entries.length := by
      apply List.length_pos_of_mem
      exact (index.get?_eq_some_iff).mp found
    simp only [isSome_some, if_true]
    omega
  · rw [List.length_set, List.length_set, placed.outputs_length]
  · rw [List.length_set, List.length_set]
    exact placed.specs_length
  intro other free
  rw [List.getElem?_set]
  by_cases same : row = other
  · rw [if_pos same]
    split <;> rfl
  rw [if_neg same]
  apply placed.specs_empty
  rintro ⟨otherId, isOther⟩
  exact free ⟨otherId, by rw [isSet, if_neg (Ne.symm same), isOther]⟩

theorem congr_index {other : Dict RequestId Nat}
    (same : ∀ reqId, other.get? reqId = index.get? reqId)
    (length : other.entries.length = index.entries.length) :
    Placed reqIds other outputs specs holes where
  index_iff reqId row := by rw [same, placed.index_iff]
  holes_iff := placed.holes_iff
  nodup := placed.nodup
  size := by rw [length, placed.size]
  outputs_length := placed.outputs_length
  specs_length := placed.specs_length
  specs_empty := placed.specs_empty

/-- A request leaves its row for a free one. -/
theorem move {source target : Nat} (found : index.get? reqId = some source) (hole : target ∈ holes)
    (output : Option Nat) (spec : List TokenId) :
    Placed ((reqIds.set target (some reqId)).set source none) (index.set reqId target)
      ((outputs.set target output).set source none) ((specs.set target spec).set source [])
      (source :: holes.erase target) := by
  have different : target ≠ source := by
    rintro rfl
    exact placed.not_occupied_of_hole hole (placed.occupied_of_index found)
  have moved := (placed.empty found).fill (index.get?_erase_self reqId)
    (List.mem_cons_of_mem source hole) output spec
  rw [List.erase_cons_tail (by simpa using Ne.symm different),
    List.set_comm _ _ (Ne.symm different), List.set_comm _ _ (Ne.symm different),
    List.set_comm _ _ (Ne.symm different)] at moved
  apply moved.congr_index
  · intro other
    rw [get?_set, get?_set, get?_erase]
    by_cases same : other = reqId
    · rw [if_pos same, if_pos same]
    · rw [if_neg same, if_neg same, if_neg same]
  have positive : 0 < index.entries.length := by
    apply List.length_pos_of_mem
    exact (index.get?_eq_some_iff).mp found
  rw [length_entries_set, length_entries_set, length_entries_erase, get?_erase_self, found]
  simp only [isSome_none, isSome_some, Bool.false_eq_true, if_false, if_true]
  omega

variable (above : ∀ row ∈ holes, index.entries.length <= row)
include above

/-- When the free rows are behind as many rows as there are requests, the
requests are in front of them. -/
theorem occupied_lt (occupied : Occupied reqIds row) : row < index.entries.length := by
  by_contra behind
  have notHole : row ∉ holes := fun hole => placed.not_occupied_of_hole hole occupied
  have inside : row < reqIds.length := by
    rcases occupied with ⟨reqId, isAt⟩
    exact placed.row_lt ((placed.index_iff reqId row).mpr isAt)
  have few : (row :: holes).Subperm (List.range' index.entries.length holes.length) := by
    apply List.subperm_of_subset (List.nodup_cons.mpr ⟨notHole, placed.nodup⟩)
    intro other member
    rw [List.mem_range'_1]
    rcases List.mem_cons.mp member with rfl | hole
    · exact ⟨Nat.le_of_not_lt behind, placed.size ▸ inside⟩
    · exact ⟨above other hole, placed.size ▸ placed.hole_lt hole⟩
  have length := few.length_le
  rw [List.length_cons, List.length_range'] at length
  omega

theorem filled (inside : row < index.entries.length) : Occupied reqIds row := by
  have fits : row < reqIds.length := by
    rw [placed.size]
    omega
  rcases placed.cases_row fits with hole | occupied
  · exact absurd (above row hole) (Nat.not_le.mpr inside)
  · exact occupied

/-- Free rows at the end are cut off. -/
theorem trim : Placed (reqIds.take index.entries.length) index (outputs.take index.entries.length)
      (specs.take index.entries.length) [] := by
  have fits : index.entries.length <= reqIds.length := by
    rw [placed.size]
    exact Nat.le_add_right _ _
  have isTaken : ∀ (row : Nat) (reqId : RequestId), (reqIds.take index.entries.length)[row]? = some (some reqId) <->
      reqIds[row]? = some (some reqId) := by
    intro row reqId
    rw [List.getElem?_take]
    constructor
    · intro isAt
      split at isAt
      · exact isAt
      · cases isAt
    intro isAt
    rw [if_pos (placed.occupied_lt above ⟨reqId, isAt⟩), isAt]
  refine ⟨?_, ?_, List.nodup_nil, ?_, ?_, ?_, ?_⟩
  · intro reqId row
    rw [isTaken, placed.index_iff]
  · intro row
    rw [List.getElem?_take]
    constructor
    · intro isAt
      split at isAt
      case isTrue inside =>
        have hole := (placed.holes_iff row).mp isAt
        exact absurd (above row hole) (Nat.not_le.mpr inside)
      case isFalse => cases isAt
    · intro member
      cases member
  · rw [List.length_take, Nat.min_eq_left fits]
    rfl
  · rw [List.length_take, List.length_take, placed.outputs_length]
  · rw [List.length_take, List.length_take, Nat.min_eq_left fits,
      Nat.min_eq_left (fits.trans placed.specs_length)]
  intro row free
  rw [List.getElem?_take]
  split
  case isTrue inside =>
    rcases placed.filled above inside with ⟨reqId, isAt⟩
    exact absurd ⟨reqId, (isTaken row reqId).mpr isAt⟩ free
  case isFalse => rfl

end

end Placed

theorem swapItems_getElem? {items : List A} {first second : Nat}
    (firstInside : first < items.length) (secondInside : second < items.length) (row : Nat) :
    (swapItems items first second)[row]? = items[Equiv.swap first second row]? := by
  unfold swapItems
  rw [List.getElem?_eq_getElem firstInside, List.getElem?_eq_getElem secondInside]
  rw [getElem?_set_of_lt (by rwa [List.length_set]), getElem?_set_of_lt firstInside]
  by_cases isSecond : row = second
  · rw [if_pos isSecond, isSecond, Equiv.swap_apply_right, List.getElem?_eq_getElem firstInside]
  rw [if_neg isSecond]
  by_cases isFirst : row = first
  · rw [if_pos isFirst, isFirst, Equiv.swap_apply_left, List.getElem?_eq_getElem secondInside]
  · rw [if_neg isFirst, Equiv.swap_apply_of_ne_of_ne isFirst isSecond]

theorem swapItems_length (items : List A) (first second : Nat) :
    (swapItems items first second).length = items.length := by
  unfold swapItems
  split
  · rw [List.length_set, List.length_set]
  · rfl

section Swap

variable {reqIds : List (Option RequestId)} {index : Dict RequestId Nat}
  {outputs : List (Option Nat)} {specs : List (List TokenId)} {holes : List Nat}
  {firstId secondId : RequestId} {first second : Nat}

/-- Each request is in the exchanged row. -/
theorem Placed.get?_swap (placed : Placed reqIds index outputs specs holes)
    (firstFound : index.get? firstId = some first)
    (secondFound : index.get? secondId = some second) (reqId : RequestId) :
    ((index.set firstId second).set secondId first).get? reqId =
      (index.get? reqId).map (Equiv.swap first second) := by
  rw [get?_set, get?_set]
  by_cases isSecond : reqId = secondId
  · rw [if_pos isSecond, isSecond, secondFound, map_some, Equiv.swap_apply_right]
  rw [if_neg isSecond]
  by_cases isFirst : reqId = firstId
  · rw [if_pos isFirst, isFirst, firstFound, map_some, Equiv.swap_apply_left]
  rw [if_neg isFirst]
  cases found : index.get? reqId with
  | none => rfl
  | some row =>
    rw [map_some, Equiv.swap_apply_of_ne_of_ne]
    · exact placed.row_ne isFirst found firstFound
    · exact placed.row_ne isSecond found secondFound

theorem Placed.swap (placed : Placed reqIds index outputs specs holes)
    (isFirst : reqIds[first]? = some (some firstId))
    (isSecond : reqIds[second]? = some (some secondId)) :
    Placed (swapItems reqIds first second) ((index.set firstId second).set secondId first)
      (swapItems outputs first second) (swapItems specs first second)
      holes := by
  have firstFound := (placed.index_iff firstId first).mpr isFirst
  have secondFound := (placed.index_iff secondId second).mpr isSecond
  have firstInside := placed.row_lt firstFound
  have secondInside := placed.row_lt secondFound
  have swapped := swapItems_getElem? firstInside secondInside
  refine ⟨?_, ?_, placed.nodup, ?_, ?_, ?_, ?_⟩
  · intro reqId row
    rw [swapped, <- placed.index_iff, placed.get?_swap firstFound secondFound,
      map_eq_some_iff]
    constructor
    · rintro ⟨old, found, rfl⟩
      rw [Equiv.swap_apply_self, found]
    intro found
    exact ⟨_, found, Equiv.swap_apply_self _ _ _⟩
  · intro row
    rw [swapped, placed.holes_iff]
    have notFirst : first ∉ holes := fun hole =>
      placed.not_occupied_of_hole hole ⟨firstId, isFirst⟩
    have notSecond : second ∉ holes := fun hole =>
      placed.not_occupied_of_hole hole ⟨secondId, isSecond⟩
    have same : (first ∈ holes) = (second ∈ holes) := propext (iff_of_false notFirst notSecond)
    exact iff_of_eq (Equiv.apply_swap_eq_self same row)
  · rw [swapItems_length, placed.size, length_entries_set, length_entries_set, get?_set, firstFound]
    split
    · simp
    · simp [secondFound]
  · rw [swapItems_length, swapItems_length, placed.outputs_length]
  · rw [swapItems_length, swapItems_length]
    exact placed.specs_length
  intro row free
  rw [swapItems_getElem? (firstInside.trans_le placed.specs_length)
    (secondInside.trans_le placed.specs_length)]
  apply placed.specs_empty
  rintro ⟨reqId, isAt⟩
  exact free ⟨reqId, by rw [swapped, isAt]⟩

end Swap

end Vllm.Worker
