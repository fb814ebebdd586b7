import Mathlib.Data.List.Nodup
import Mathlib.Algebra.BigOperators.Group.List.Basic
import Mathlib.Algebra.GroupWithZero.Nat

namespace Vllm.Foundation

open List

/-!
# Insertion-ordered dictionaries

A dictionary is an association list whose keys are pairwise different, which is
a field.  A replaced value keeps the position of its key and a new key goes to
the end.  Invariants over a whole dictionary use sums over its values, and each
update changes such a sum by the old and the new value of one key.
-/

universe u v

/-- A finite map with an explicit order of its keys. -/
structure Dict (K : Type u) (V : Type v) where
  entries : List (K × V)
  nodup : (entries.map Prod.fst).Nodup

namespace Dict

variable {K : Type u} {V : Type v} [DecidableEq K]

/-- The first value stored under a key. -/
def lookup (key : K) : List (K × V) -> Option V
  | [] => none
  | entry :: rest => if entry.1 = key then some entry.2 else lookup key rest

/-- Replace the value of a present key in place, or append a new key. -/
def store (key : K) (value : V) : List (K × V) -> List (K × V)
  | [] => [(key, value)]
  | entry :: rest =>
    if entry.1 = key then (key, value) :: rest else entry :: store key value rest

/-- Remove the first entry of a key. -/
def discard (key : K) : List (K × V) -> List (K × V)
  | [] => []
  | entry :: rest => if entry.1 = key then rest else entry :: discard key rest

theorem mem_keys_store {key other : K} (value : V) (entries : List (K × V)) :
    other ∈ (store key value entries).map Prod.fst <->
      other = key \/ other ∈ entries.map Prod.fst := by
  induction entries with
  | nil => simp [store]
  | cons entry rest ih =>
    by_cases same : entry.1 = key
    · simp [store, same]
    simp only [store, if_neg same, map_cons, mem_cons, ih]
    tauto

theorem store_nodup (key : K) (value : V) (entries : List (K × V))
    (nodup : (entries.map Prod.fst).Nodup) :
    ((store key value entries).map Prod.fst).Nodup := by
  induction entries with
  | nil => simp [store]
  | cons entry rest ih =>
    have parts := nodup_cons.mp nodup
    by_cases same : entry.1 = key
    · rw [store, if_pos same]
      simpa [<- same] using nodup
    rw [store, if_neg same, map_cons, nodup_cons]
    refine ⟨?_, ih parts.2⟩
    intro member
    rcases (mem_keys_store value rest).mp member with equal | member
    · exact same equal
    · exact parts.1 member

theorem discard_sublist (key : K) {entries : List (K × V)} :
    (discard key entries).Sublist entries := by
  induction entries with
  | nil => exact List.Sublist.slnil
  | cons entry rest ih =>
    rw [discard]
    split
    · exact sublist_cons_self entry rest
    · exact ih.cons_cons entry

theorem discard_nodup (key : K) (entries : List (K × V)) (nodup : (entries.map Prod.fst).Nodup) :
    ((discard key entries).map Prod.fst).Nodup :=
  nodup.sublist ((discard_sublist key).map Prod.fst)

def empty : Dict K V := ⟨[], nodup_nil⟩

instance : Inhabited (Dict K V) := ⟨empty⟩

def get? (dict : Dict K V) (key : K) : Option V := lookup key dict.entries

/-- A key that is present keeps its place, a new one comes last. -/
def set (dict : Dict K V) (key : K) (value : V) : Dict K V :=
  ⟨store key value dict.entries, store_nodup key value _ dict.nodup⟩

def erase (dict : Dict K V) (key : K) : Dict K V :=
  ⟨discard key dict.entries, discard_nodup key _ dict.nodup⟩

def keys (dict : Dict K V) : List K := dict.entries.map Prod.fst

def values (dict : Dict K V) : List V := dict.entries.map Prod.snd

def contains (dict : Dict K V) (key : K) : Bool := (dict.get? key).isSome

omit [DecidableEq K] in
@[ext] theorem ext {left right : Dict K V} (same : left.entries = right.entries) :
    left = right := by
  cases left
  cases right
  cases same
  rfl

theorem lookup_store {key other : K} (value : V) {entries : List (K × V)} :
    lookup other (store key value entries) =
      if other = key then some value else lookup other entries := by
  induction entries with
  | nil =>
    by_cases same : other = key
    · simp [store, lookup, same]
    · simp [store, lookup, same, Ne.symm same]
  | cons entry rest ih =>
    by_cases stored : entry.1 = key
    · rw [store, if_pos stored, lookup, lookup]
      by_cases same : other = key
      · simp [same]
      have different : ¬ entry.1 = other := fun equal => same (equal.symm.trans stored)
      simp [same, Ne.symm same, different]
    rw [store, if_neg stored, lookup, lookup, ih]
    by_cases found : entry.1 = other
    · have different : ¬ other = key := fun equal => stored (found.trans equal)
      simp [found, different]
    · simp [found]

theorem lookup_eq_none_of_not_mem (key : K) (entries : List (K × V))
    (absent : key ∉ entries.map Prod.fst) : lookup key entries = none := by
  induction entries with
  | nil => rfl
  | cons entry rest ih =>
    rw [map_cons, mem_cons, not_or] at absent
    rw [lookup, if_neg (Ne.symm absent.1)]
    exact ih absent.2

theorem lookup_discard {key other : K} {entries : List (K × V)}
    (nodup : (entries.map Prod.fst).Nodup) :
    lookup other (discard key entries) =
      if other = key then none else lookup other entries := by
  induction entries with
  | nil => simp [discard, lookup]
  | cons entry rest ih =>
    have parts := nodup_cons.mp nodup
    by_cases stored : entry.1 = key
    · rw [discard, if_pos stored, lookup]
      by_cases same : other = key
      · rw [if_pos same]
        apply lookup_eq_none_of_not_mem
        rw [same, <- stored]
        exact parts.1
      have different : ¬ entry.1 = other := fun equal => same (equal.symm.trans stored)
      simp [same, different]
    rw [discard, if_neg stored, lookup, lookup, ih parts.2]
    by_cases found : entry.1 = other
    · have different : ¬ other = key := fun equal => stored (found.trans equal)
      simp [found, different]
    · simp [found]

@[simp] theorem get?_empty (key : K) : (empty : Dict K V).get? key = none := rfl

section

variable (dict : Dict K V)

theorem get?_set (key other : K) (value : V) :
    (dict.set key value).get? other = if other = key then some value else dict.get? other :=
  lookup_store value

@[simp] theorem get?_set_self (key : K) (value : V) :
    (dict.set key value).get? key = some value := by
  rw [get?_set, if_pos rfl]

theorem get?_set_of_ne {key other : K} (value : V) (different : other ≠ key) :
    (dict.set key value).get? other = dict.get? other := by
  rw [get?_set, if_neg different]

theorem get?_erase (key other : K) :
    (dict.erase key).get? other = if other = key then none else dict.get? other :=
  lookup_discard dict.nodup

@[simp] theorem get?_erase_self (key : K) :
    (dict.erase key).get? key = none := by
  rw [get?_erase, if_pos rfl]

theorem get?_erase_of_ne {key other : K} (different : other ≠ key) :
    (dict.erase key).get? other = dict.get? other := by
  rw [get?_erase, if_neg different]

end

theorem lookup_eq_some_iff (key : K) (value : V) {entries : List (K × V)}
    (nodup : (entries.map Prod.fst).Nodup) :
    lookup key entries = some value <-> (key, value) ∈ entries := by
  induction entries with
  | nil => simp [lookup]
  | cons entry rest ih =>
    have parts := nodup_cons.mp nodup
    rw [lookup]
    by_cases found : entry.1 = key
    · rw [if_pos found]
      constructor
      · intro equal
        apply mem_cons.mpr
        exact Or.inl (Prod.ext found.symm (Option.some.inj equal).symm)
      intro member
      rcases mem_cons.mp member with equal | member
      · rw [<- equal]
      · exact False.elim (parts.1 (found ▸ mem_map_of_mem (f := Prod.fst) member))
    rw [if_neg found, ih parts.2, mem_cons]
    constructor
    · exact Or.inr
    rintro (equal | member)
    · exact False.elim (found (congrArg Prod.fst equal).symm)
    · exact member

theorem get?_eq_some_iff (dict : Dict K V) {key : K} {value : V} :
    dict.get? key = some value <-> (key, value) ∈ dict.entries :=
  lookup_eq_some_iff key value dict.nodup

theorem mem_keys_iff (dict : Dict K V) (key : K) :
    key ∈ dict.keys <-> ∃ value, dict.get? key = some value := by
  constructor
  · intro member
    obtain ⟨entry, stored, same⟩ := mem_map.mp member
    exact ⟨entry.2, (dict.get?_eq_some_iff).mpr (by rw [<- same]; exact stored)⟩
  rintro ⟨value, found⟩
  exact mem_map.mpr ⟨(key, value), (dict.get?_eq_some_iff).mp found, rfl⟩

theorem store_store (key : K) (first second : V) (entries : List (K × V)) :
    store key second (store key first entries) = store key second entries := by
  induction entries with
  | nil => simp [store]
  | cons entry rest ih =>
    by_cases found : entry.1 = key
    · simp [store, found]
    · simp [store, found, ih]

/-- Only the last value stored under a key counts. -/
@[simp] theorem set_set {dict : Dict K V} {key : K} (first second : V) :
    (dict.set key first).set key second = dict.set key second := by
  apply Dict.ext
  exact store_store key first second dict.entries

theorem erase_set (dict : Dict K V) (key : K) (value : V) :
    (dict.set key value).erase key = dict.erase key := by
  apply Dict.ext
  change discard key (store key value dict.entries) = discard key dict.entries
  induction dict.entries with
  | nil => simp [store, discard]
  | cons entry rest ih =>
    by_cases found : entry.1 = key
    · simp [store, discard, found]
    · simp [store, discard, found, ih]

/-- The sum of a measure over all values. -/
def total (dict : Dict K V) (measure : V -> Nat) : Nat :=
  (dict.entries.map (fun entry => measure entry.2)).sum

/-- The measure of the value of one key, zero for a missing key. -/
def weigh (dict : Dict K V) (measure : V -> Nat) (key : K) : Nat :=
  ((dict.get? key).map measure).getD 0

theorem sum_discard {measure : V -> Nat} (key : K) {entries : List (K × V)} :
    ((discard key entries).map (fun entry => measure entry.2)).sum +
        ((lookup key entries).map measure).getD 0 =
      (entries.map (fun entry => measure entry.2)).sum := by
  induction entries with
  | nil => simp [discard, lookup]
  | cons entry rest ih =>
    by_cases found : entry.1 = key
    · simp only [discard, lookup, if_pos found, map_cons, sum_cons, Option.map_some,
        Option.getD_some]
      omega
    simp only [discard, lookup, if_neg found, map_cons, sum_cons]
    omega

section

variable (dict : Dict K V)
include dict

variable (measure : V -> Nat)

theorem total_erase (key : K) :
    (dict.erase key).total measure + dict.weigh measure key = dict.total measure :=
  sum_discard key

theorem weigh_of_found {key : K} {value : V}
    (found : dict.get? key = some value) : dict.weigh measure key = measure value := by
  rw [weigh, found, Option.map_some, Option.getD_some]

/-- Storing a value exchanges the old measure of its key for the new one. -/
theorem total_set (key : K) (value : V) :
    (dict.set key value).total measure + dict.weigh measure key =
      dict.total measure + measure value := by
  have before := dict.total_erase measure key
  have after := (dict.set key value).total_erase measure key
  rw [erase_set, weigh_of_found _ _ (dict.get?_set_self key value)] at after
  omega

theorem total_congr {measure other : V -> Nat}
    (same : ∀ key value, dict.get? key = some value -> measure value = other value) :
    dict.total measure = dict.total other := by
  rw [total, total]
  congr 1
  apply map_congr_left
  intro entry member
  exact same entry.1 entry.2 ((dict.get?_eq_some_iff).mpr member)

/-- A measure that changes for the value of one key only changes the sum by
that value. -/
theorem total_change (other : V -> Nat) {key : K} {value : V} (found : dict.get? key = some value)
    (others : ∀ otherKey stored, otherKey ≠ key -> dict.get? otherKey = some stored ->
      other stored = measure stored) :
    dict.total other + measure value = dict.total measure + other value := by
  have before := dict.total_erase measure key
  have after := dict.total_erase other key
  rw [dict.weigh_of_found _ found] at before after
  have rest : (dict.erase key).total other = (dict.erase key).total measure := by
    apply total_congr
    intro otherKey stored inRest
    rw [get?_erase] at inRest
    split at inRest
    · cases inRest
    case isFalse different => exact others otherKey stored different inRest
  omega

omit [DecidableEq K] in
theorem length_filter_values (property : V -> Bool) :
    (dict.values.filter property).length = dict.total (fun value => (property value).toNat) := by
  rw [total, values]
  induction dict.entries with
  | nil => rfl
  | cons entry rest ih =>
    cases holds : property entry.2 with
    | false => simp [holds, ih]
    | true =>
      simp only [map_cons, filter_cons, holds, if_true, length_cons, ih,
        sum_cons, Bool.toNat_true]
      omega

theorem weigh_le_total (key : K) : dict.weigh measure key <= dict.total measure := by
  have sum := dict.total_erase measure key
  omega

end

section MapValues

variable {W : Type v} (change : V -> W)

omit [DecidableEq K] in
theorem keys_map (entries : List (K × V)) :
    (entries.map (fun entry => (entry.1, change entry.2))).map Prod.fst = entries.map Prod.fst := by
  rw [map_map]
  rfl

/-- The same keys with other values. -/
def mapValues (dict : Dict K V) : Dict K W where
  entries := dict.entries.map (fun entry => (entry.1, change entry.2))
  nodup := by
    rw [keys_map]
    exact dict.nodup

omit [DecidableEq K] in
theorem total_mapValues (dict : Dict K V) (measure : W -> Nat) :
    (dict.mapValues change).total measure = dict.total (fun value => measure (change value)) := by
  simp only [total, mapValues, map_map, Function.comp_def]

variable (dict : Dict K V) (key : K)

@[simp] theorem get?_mapValues :
    (dict.mapValues change).get? key = (dict.get? key).map change := by
  change lookup key (dict.entries.map _) = (lookup key dict.entries).map change
  induction dict.entries with
  | nil => rfl
  | cons entry rest ih =>
    by_cases found : entry.1 = key
    · simp only [map_cons, lookup, if_pos found, Option.map_some]
    · simp only [map_cons, lookup, if_neg found, ih]

@[simp] theorem contains_mapValues :
    (dict.mapValues change).contains key = dict.contains key := by
  simp only [contains, get?_mapValues, Option.isSome_map]

theorem mapValues_set (value : V) :
    (dict.set key value).mapValues change = (dict.mapValues change).set key (change value) := by
  refine ext ?_
  change (store key value dict.entries).map _ = store key (change value) (dict.entries.map _)
  induction dict.entries with
  | nil => rfl
  | cons entry rest ih =>
    by_cases found : entry.1 = key
    · simp only [map_cons, store, if_pos found]
    · simp only [map_cons, store, if_neg found, ih]

theorem mapValues_erase :
    (dict.erase key).mapValues change = (dict.mapValues change).erase key := by
  refine ext ?_
  change (discard key dict.entries).map _ = discard key (dict.entries.map _)
  induction dict.entries with
  | nil => rfl
  | cons entry rest ih =>
    by_cases found : entry.1 = key
    · simp only [map_cons, discard, if_pos found]
    · simp only [map_cons, discard, if_neg found, ih]

end MapValues

end Dict

end Vllm.Foundation
