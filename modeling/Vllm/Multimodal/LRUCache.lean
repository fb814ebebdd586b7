import Mathlib.Algebra.Order.BigOperators.Group.List
import Mathlib.Algebra.Order.Group.Nat
import Mathlib.Data.List.Dedup
import Mathlib.Tactic.Common
import Vllm.Foundation.Dict

namespace Vllm.Multimodal

open Foundation Dict Option

/-!
# A cache that removes what was used least recently

The cache keeps its keys in the order of their last use.  A key can be touched
without being stored: then it stands in the order without a value.  Making room
removes keys from the front of the order, and a key without a value at the front
cannot be removed, so that the loop never ends.  What a cache removes depends
only on its order and on the sizes of its values.
-/

/-- How an operation can fail.  One of the failures is a loop that never ends. -/
inductive CacheError where
  | valueTooLarge
  | allPinned
  | neverReturns
  | expectedCachedItem
  deriving DecidableEq

/-- Nothing is ever pinned, so the set of pinned keys is left out. -/
structure LRUCache (K V : Type) where
  maxsize : Nat
  data : Dict K V
  order : List K

namespace LRUCache

variable {K V : Type} [DecidableEq K] (getsizeof : V -> Nat)

variable (cache : LRUCache K V)

/-- The sum of the sizes of the stored values. -/
def currsize : Nat := cache.data.total getsizeof

variable (key : K)

def contains : Bool := cache.data.contains key

/-- Move a key to the end of the order.  A key that is not in the order is
appended. -/
def touch : LRUCache K V :=
  { cache with order := cache.order.erase key ++ [key] }

/-- A value that is found is touched. -/
def get : Option V × LRUCache K V :=
  match cache.data.get? key with
  | some value => (some value, cache.touch key)
  | none => (none, cache)

/-- Remove a key from both maps. -/
def delItem : LRUCache K V :=
  { cache with data := cache.data.erase key, order := cache.order.erase key }

/-- Remove a key if it has a value. -/
def pop : LRUCache K V :=
  if cache.contains key then cache.delItem key else cache

/-- Remove the oldest key.  If it has no value, nothing changes. -/
def popItem : Except CacheError (LRUCache K V) :=
  match cache.order with
  | [] => .error .allPinned
  | key :: _ => .ok (cache.pop key)

/-- Remove keys from the front of the order until an item of this size fits.  A
key without a value stays where it is, so the loop of the source finds it again
in the next round and never returns. -/
def makeRoomIn (size : Nat) : List K -> LRUCache K V -> Except CacheError (LRUCache K V)
  | [], cache =>
    if cache.currsize getsizeof + size <= cache.maxsize then .ok cache else .error .allPinned
  | key :: rest, cache =>
    if cache.currsize getsizeof + size <= cache.maxsize then .ok cache
    else if cache.contains key then makeRoomIn size rest (cache.delItem key)
    else .error .neverReturns

/-- Remove keys until an item of this size fits. -/
def makeRoom (size : Nat) (cache : LRUCache K V) : Except CacheError (LRUCache K V) :=
  makeRoomIn getsizeof size cache.order cache

/-- Store a value as the most recent one. -/
def setItem (value : V) (cache : LRUCache K V) : Except CacheError (LRUCache K V) :=
  let size := getsizeof value
  if cache.maxsize < size then .error .valueTooLarge
  else
    let grows := ∀ old ∈ cache.data.get? key, getsizeof old < size
    match if grows then cache.makeRoom getsizeof size else .ok cache with
    | .error error => .error error
    | .ok cache => .ok ({ cache with data := cache.data.set key value }.touch key)

variable (value : Option V)

/-- Find a value or store one.  The result is the value that was found. -/
def getOrStore (key : K) (cache : LRUCache K V) : Except CacheError (Option V × LRUCache K V) :=
  match cache.get key with
  | (some found, cache) => .ok (some found, cache)
  | (none, cache) =>
    match value with
    | none => .error .expectedCachedItem
    | some value => (cache.setItem getsizeof key value).map (fun cache => (none, cache))

variable (keys : List K)

def touchAll (cache : LRUCache K V) : LRUCache K V := keys.foldl touch cache

/-- Find or store one value after the other. -/
def walk : List (K × Option V) -> LRUCache K V ->
    Except CacheError (List (Option V) × LRUCache K V)
  | [], cache => .ok ([], cache)
  | offer :: rest, cache =>
    match cache.getOrStore getsizeof offer.2 offer.1 with
    | .error error => .error error
    | .ok (found, cache) => (walk rest cache).map (fun result => (found :: result.1, result.2))

theorem makeRoomIn_of_fits {size : Nat} {order : List K} {cache : LRUCache K V}
    (fits : cache.currsize getsizeof + size <= cache.maxsize) :
    makeRoomIn getsizeof size order cache = .ok cache := by
  cases order with
  | nil => rw [makeRoomIn, if_pos fits]
  | cons key rest => rw [makeRoomIn, if_pos fits]

/-- Otherwise it goes on with the cache that `popItem` leaves. -/
theorem makeRoom_of_full {size : Nat} {cache : LRUCache K V} {key : K} {rest : List K}
    (full : ¬ cache.currsize getsizeof + size <= cache.maxsize)
    (order : cache.order = key :: rest) (found : cache.contains key = true) :
    cache.popItem = .ok (cache.delItem key) /\
      cache.makeRoom getsizeof size = (cache.delItem key).makeRoom getsizeof size := by
  refine ⟨?_, ?_⟩
  · rw [popItem, order]
    exact congrArg Except.ok (if_pos found)
  have shorter : (cache.delItem key).order = rest := by
    simp only [delItem, order, List.erase_cons_head]
  rw [makeRoom, makeRoom, order, makeRoomIn, if_neg full, shorter]
  exact if_pos found

/-- The cache with sizes in the place of values. -/
def sizes : LRUCache K Nat :=
  { maxsize := cache.maxsize
    data := cache.data.mapValues getsizeof
    order := cache.order }

variable {getsizeof}

omit [DecidableEq K] in
theorem currsize_sizes : (cache.sizes getsizeof).currsize id = cache.currsize getsizeof :=
  total_mapValues getsizeof cache.data id

theorem contains_sizes : (cache.sizes getsizeof).contains key = cache.contains key :=
  contains_mapValues getsizeof cache.data key

theorem sizes_touchAll (cache : LRUCache K V) :
    (cache.touchAll keys).sizes getsizeof = (cache.sizes getsizeof).touchAll keys := by
  induction keys generalizing cache with
  | nil => rfl
  | cons key rest ih => exact ih (cache.touch key)

theorem sizes_delItem :
    (cache.delItem key).sizes getsizeof = (cache.sizes getsizeof).delItem key := by
  simp only [sizes, delItem, mapValues_erase]

theorem sizes_makeRoomIn (size : Nat) (order : List K) (cache : LRUCache K V) :
    (cache.sizes getsizeof).makeRoomIn id size order =
      (cache.makeRoomIn getsizeof size order).map (sizes getsizeof) := by
  have sameMaxsize : (cache.sizes getsizeof).maxsize = cache.maxsize := rfl
  induction order generalizing cache with
  | nil =>
    rw [makeRoomIn, makeRoomIn, currsize_sizes, sameMaxsize]
    split
    · rfl
    · rfl
  | cons key rest ih =>
    rw [makeRoomIn, makeRoomIn, currsize_sizes, sameMaxsize, contains_sizes, <- sizes_delItem,
      ih _ rfl]
    split
    · rfl
    split
    · rfl
    · rfl

theorem sizes_setItem (value : V) (cache : LRUCache K V) :
    (cache.sizes getsizeof).setItem id key (getsizeof value) =
      (cache.setItem getsizeof key value).map (sizes getsizeof) := by
  have grows : (∀ old ∈ (cache.sizes getsizeof).data.get? key, id old < id (getsizeof value)) <->
      ∀ old ∈ cache.data.get? key, getsizeof old < getsizeof value := by
    simp only [sizes, get?_mapValues, mem_def, map_eq_some_iff, id]
    constructor
    · intro smaller old isOld
      exact smaller _ ⟨old, isOld, rfl⟩
    rintro smaller _ ⟨old, isOld, rfl⟩
    exact smaller old isOld
  have stored : ∀ room : LRUCache K V,
      ({ room.sizes getsizeof with data := (room.sizes getsizeof).data.set key (getsizeof value) } :
        LRUCache K Nat).touch key =
      (({ room with data := room.data.set key value } : LRUCache K V).touch key).sizes
        getsizeof := by
    intro room
    simp only [sizes, touch, mapValues_set]
  rw [setItem, setItem]
  by_cases large : cache.maxsize < getsizeof value
  · have stillLarge : (cache.sizes getsizeof).maxsize < id (getsizeof value) := large
    rw [if_pos stillLarge, if_pos large]
    rfl
  have stillNot : ¬ (cache.sizes getsizeof).maxsize < id (getsizeof value) := large
  rw [if_neg stillNot, if_neg large]
  by_cases growing : ∀ old ∈ cache.data.get? key, getsizeof old < getsizeof value
  · have room := @sizes_makeRoomIn K V _ getsizeof (getsizeof value) cache.order cache
    have sameOrder : (cache.sizes getsizeof).order = cache.order := rfl
    dsimp only
    rw [if_pos growing, if_pos (grows.mpr growing), makeRoom, makeRoom, sameOrder, id, room]
    cases cache.makeRoomIn getsizeof (getsizeof value) cache.order with
    | error error => rfl
    | ok room => exact congrArg Except.ok (stored room)
  dsimp only
  rw [if_neg growing, if_neg (fun smaller => growing (grows.mp smaller))]
  exact congrArg Except.ok (stored cache)

theorem sizes_getOrStore (key : K) (cache : LRUCache K V) :
    (cache.sizes getsizeof).getOrStore id (value.map getsizeof) key =
      (cache.getOrStore getsizeof value key).map (fun result =>
        (result.1.map getsizeof, result.2.sizes getsizeof)) := by
  have look : (cache.sizes getsizeof).data.get? key = (cache.data.get? key).map getsizeof :=
    get?_mapValues getsizeof cache.data key
  cases found : cache.data.get? key with
  | some known =>
    rw [found] at look
    simp only [getOrStore, get, look, found, map_some, Except.map]
    rfl
  | none =>
    rw [found] at look
    cases value with
    | none => simp only [getOrStore, get, look, found, map_none, Except.map]
    | some value =>
      simp only [getOrStore, get, look, found, map_none, map_some, sizes_setItem]
      cases cache.setItem getsizeof key value with
      | error error => rfl
      | ok after => rfl

theorem sizes_walk (offers : List (K × Option V)) (cache : LRUCache K V) :
    (cache.sizes getsizeof).walk id (offers.map (fun offer => (offer.1, offer.2.map getsizeof))) =
      (cache.walk getsizeof offers).map (fun result =>
        (result.1.map (Option.map getsizeof), result.2.sizes getsizeof)) := by
  induction offers generalizing cache with
  | nil => rfl
  | cons offer rest ih =>
    rw [List.map_cons, walk, walk, sizes_getOrStore]
    cases cache.getOrStore getsizeof offer.2 offer.1 with
    | error error => rfl
    | ok result =>
      rcases result with ⟨_, after⟩
      simp only [Except.map]
      rw [ih]
      cases after.walk getsizeof rest with
      | error error => rfl
      | ok result => rfl

theorem walk_cons_eq_ok {offer : K × Option V} {rest : List (K × Option V)}
    {cache after : LRUCache K V} {found : List (Option V)}
    (walked : cache.walk getsizeof (offer :: rest) = .ok (found, after)) :
    ∃ first middle others, cache.getOrStore getsizeof offer.2 offer.1 = .ok (first, middle) /\
      middle.walk getsizeof rest = .ok (others, after) /\ found = first :: others := by
  rw [walk] at walked
  split at walked
  · cases walked
  case h_2 first middle stored =>
    cases later : middle.walk getsizeof rest with
    | error error =>
      rw [later] at walked
      cases walked
    | ok result =>
      rw [later] at walked
      cases walked
      exact ⟨first, middle, result.1, stored, later, rfl⟩

/-- Exactly the keys with a value stand in the order. -/
structure Tidy (cache : LRUCache K V) : Prop where
  distinct : cache.order.Nodup
  listed : ∀ key, key ∈ cache.order <-> cache.contains key = true

/-- Moving a key to the end of a list without duplicates. -/
theorem nodup_move {order : List K} (distinct : order.Nodup) (key : K) :
    (order.erase key ++ [key]).Nodup /\
      ∀ other, other ∈ order.erase key ++ [key] <-> other ∈ order \/ other = key := by
  refine ⟨?_, fun other => ?_⟩
  · rw [List.nodup_append_comm, List.singleton_append, List.nodup_cons]
    exact ⟨distinct.not_mem_erase, distinct.erase key⟩
  rw [List.mem_append, distinct.mem_erase_iff, List.mem_singleton]
  tauto

/-- The cache while some keys are served.  They stand at the end of the order,
and those among them that have a value have the expected one.  All other keys of
the order have a value and can be removed. -/
structure Serving (keys : List K) (weight : K -> Nat) (cache : LRUCache K Nat)
    (old recent : List K) : Prop where
  order : cache.order = old ++ recent
  distinct : (old ++ recent).Nodup
  served : ∀ key, key ∈ recent <-> key ∈ keys
  present : ∀ key ∈ old, cache.contains key = true
  listed : ∀ key, cache.contains key = true -> key ∈ cache.order
  weights : ∀ key ∈ keys, ∀ size ∈ cache.data.get? key, size = weight key

variable {keys} {weight : K -> Nat} {cache : LRUCache K Nat} {old recent : List K} {key}

theorem Serving.touch {more : List K} (serving : cache.Serving keys weight old recent)
    (same : ∀ other, other ∈ more <-> other ∈ keys \/ other = key)
    (weights : ∀ size ∈ cache.data.get? key, size = weight key) :
    (cache.touch key).Serving more weight (old.erase key) (recent.erase key ++ [key]) := by
  rcases List.nodup_append.mp serving.distinct with ⟨oldDistinct, recentDistinct, apart⟩
  have moved := nodup_move recentDistinct key
  have order : (cache.touch key).order = old.erase key ++ (recent.erase key ++ [key]) := by
    simp only [LRUCache.touch, serving.order, List.erase_append]
    split
    case isTrue isOld =>
      have notRecent : key ∉ recent := fun isRecent => apart key isOld key isRecent rfl
      rw [List.erase_of_not_mem notRecent, List.append_assoc]
    case isFalse notOld => rw [List.erase_of_not_mem notOld, List.append_assoc]
  refine ⟨order, ?_, ?_, ?_, ?_, ?_⟩
  · refine List.nodup_append.mpr ⟨oldDistinct.erase key, moved.1, ?_⟩
    intro first isOld second isSecond isSame
    rcases oldDistinct.mem_erase_iff.mp isOld with ⟨different, wasOld⟩
    rcases (moved.2 second).mp isSecond with isRecent | isKey
    · exact apart first wasOld second isRecent isSame
    · exact different (isSame.trans isKey)
  · intro other
    rw [moved.2, same, serving.served]
  · intro other isOld
    exact serving.present other (List.mem_of_mem_erase isOld)
  · intro other found
    have member := serving.listed other found
    rw [serving.order, List.mem_append] at member
    rw [order, List.mem_append, moved.2, oldDistinct.mem_erase_iff]
    tauto
  · intro other isOther size isSize
    rcases (same other).mp isOther with isKey | isSame
    · exact serving.weights other isKey size isSize
    rw [isSame] at isSize ⊢
    exact weights size isSize

theorem contains_eq_isSome (cache : LRUCache K V) (key : K) :
    cache.contains key = (cache.data.get? key).isSome := rfl

theorem contains_of_get? {cache : LRUCache K V} {value : V}
    (found : cache.data.get? key = some value) : cache.contains key = true := by
  rw [contains_eq_isSome, found]
  rfl

theorem Serving.delItem {first : K} (serving : cache.Serving keys weight (first :: old) recent) :
    (cache.delItem first).Serving keys weight old recent /\
      (∀ key ∈ keys, (cache.delItem first).data.get? key = cache.data.get? key) := by
  have distinct := List.nodup_cons.mp serving.distinct
  have others (key : K) (different : key ≠ first) :
      (cache.delItem first).data.get? key = cache.data.get? key :=
    get?_erase_of_ne cache.data different
  have kept : ∀ key ∈ keys, (cache.delItem first).data.get? key = cache.data.get? key := by
    intro key isKey
    have isRecent := List.mem_append_right old ((serving.served key).mpr isKey)
    exact others key (ne_of_mem_of_not_mem isRecent distinct.1)
  have order : (cache.delItem first).order = old ++ recent := by
    simp only [LRUCache.delItem, serving.order, List.cons_append, List.erase_cons_head]
  refine ⟨⟨order, distinct.2, serving.served, ?_, ?_, ?_⟩, kept⟩
  · intro key isOld
    have isKept := ne_of_mem_of_not_mem (List.mem_append_left recent isOld) distinct.1
    rw [contains_eq_isSome, others key isKept]
    exact serving.present key (List.mem_cons_of_mem first isOld)
  · intro key found
    have different : key ≠ first := by
      rintro rfl
      simp [contains_eq_isSome, LRUCache.delItem] at found
    rw [contains_eq_isSome, others key different] at found
    have member := serving.listed key found
    rw [serving.order] at member
    rw [order]
    exact (List.mem_cons.mp member).resolve_left different
  · intro key isKey size isSize
    exact serving.weights key isKey size (kept key isKey ▸ isSize)

theorem Serving.store (serving : cache.Serving keys weight old recent) (isKey : key ∈ keys) :
    ({ cache with data := cache.data.set key (weight key) } : LRUCache K Nat).Serving keys weight old
      recent := by
  refine { serving with present := ?_, listed := ?_, weights := ?_ }
  · intro other isOld
    rw [contains_eq_isSome, get?_set]
    split
    · rfl
    · exact serving.present other isOld
  · intro other isFound
    rw [contains_eq_isSome, get?_set] at isFound
    split at isFound
    case isTrue same =>
      have member := List.mem_append_right old ((serving.served key).mpr isKey)
      rwa [<- serving.order, <- same] at member
    · exact serving.listed other isFound
  intro other isOther size isSize
  rw [get?_set] at isSize
  split at isSize
  case isTrue same =>
    cases isSize
    rw [same]
  · exact serving.weights other isOther size isSize

/-- When only keys that are served are left, the next one fits. -/
theorem Serving.fits (serving : cache.Serving keys weight [] recent) (isKey : key ∈ keys)
    (absent : cache.contains key = false) (room : (keys.dedup.map weight).sum <= cache.maxsize) :
    cache.currsize id + weight key <= cache.maxsize := by
  have served {other : K} {value : Nat} (found : cache.data.get? other = some value) :
      other ∈ keys := by
    have isListed := serving.listed other (contains_of_get? found)
    rw [serving.order, List.nil_append] at isListed
    exact (serving.served other).mp isListed
  have weights : cache.data.entries.map (fun entry => id entry.2) =
      cache.data.keys.map weight := by
    rw [Dict.keys, List.map_map]
    refine List.map_congr_left ?_
    intro entry member
    have found := (cache.data.get?_eq_some_iff).mpr member
    exact serving.weights entry.1 (served found) entry.2 found
  have notStored : key ∉ cache.data.keys := by
    intro stored
    rcases (cache.data.mem_keys_iff key).mp stored with ⟨_, found⟩
    rw [contains_eq_isSome, found] at absent
    cases absent
  have distinct : (key :: cache.data.keys).Nodup := List.nodup_cons.mpr ⟨notStored, cache.data.nodup⟩
  have within : key :: cache.data.keys ⊆ keys.dedup := by
    intro other member
    rw [List.mem_dedup]
    rcases List.mem_cons.mp member with same | stored
    · rw [same]
      exact isKey
    rcases (cache.data.mem_keys_iff other).mp stored with ⟨_, found⟩
    exact served found
  rcases List.subperm_of_subset distinct within with ⟨_, permuted, sublist⟩
  have bounded := (sublist.map weight).sum_le_sum (fun _ _ => Nat.zero_le _)
  rw [(permuted.map weight).sum_eq, List.map_cons, List.sum_cons] at bounded
  rw [currsize, total, weights]
  omega

theorem Serving.makeRoom (serving : cache.Serving keys weight old recent) (isKey : key ∈ keys)
    (absent : cache.contains key = false) (room : (keys.dedup.map weight).sum <= cache.maxsize) :
    ∃ after left, cache.makeRoom id (weight key) = .ok after /\
      after.Serving keys weight left recent /\ after.maxsize = cache.maxsize /\
      ∀ other ∈ keys, after.data.get? other = cache.data.get? other := by
  induction old generalizing cache with
  | nil =>
    exact ⟨cache, [], makeRoomIn_of_fits id (serving.fits isKey absent room), serving, rfl,
      fun _ _ => rfl⟩
  | cons first rest ih =>
    by_cases fits : cache.currsize id + weight key <= cache.maxsize
    · exact ⟨cache, first :: rest, makeRoomIn_of_fits id fits, serving, rfl, fun _ _ => rfl⟩
    have order : cache.order = first :: (rest ++ recent) := serving.order
    have found := serving.present first List.mem_cons_self
    rcases serving.delItem with ⟨smaller, kept⟩
    have stillAbsent : (cache.delItem first).contains key = false := by
      rw [contains_eq_isSome, kept key isKey]
      exact absent
    rcases ih smaller stillAbsent room with ⟨after, left, made, stillServing, sameMaxsize, same⟩
    refine ⟨after, left, ?_, stillServing, sameMaxsize, ?_⟩
    · rw [(makeRoom_of_full id fits order found).2]
      exact made
    intro other isOther
    rw [same other isOther]
    exact kept other isOther

theorem Serving.getOrStore (serving : cache.Serving keys weight old recent) (isKey : key ∈ keys)
    (room : (keys.dedup.map weight).sum <= cache.maxsize) {value : Option Nat}
    (offered : cache.contains key = false -> value = some (weight key)) :
    ∃ found after left last, cache.getOrStore id value key = .ok (found, after) /\
      after.Serving keys weight left last /\ after.maxsize = cache.maxsize /\
      after.contains key = true /\
      ∀ other ∈ keys, cache.contains other = true -> after.contains other = true := by
  have alreadyKey (other : K) : other ∈ keys <-> other ∈ keys \/ other = key :=
    (or_iff_left_of_imp (fun same => same ▸ isKey)).symm
  cases found : cache.data.get? key with
  | some known =>
    refine ⟨some known, cache.touch key, old.erase key, recent.erase key ++ [key], ?_,
      serving.touch alreadyKey (serving.weights key isKey), rfl, ?_, fun _ _ isFound => isFound⟩
    · simp only [LRUCache.getOrStore, get, found]
    · exact contains_of_get? found
  | none =>
    have absent : cache.contains key = false := by
      rw [contains_eq_isSome, found]
      rfl
    rcases serving.makeRoom isKey absent room with
      ⟨after, left, made, stillServing, sameMaxsize, kept⟩
    have isDedup : key ∈ keys.dedup := List.mem_dedup.mpr isKey
    have small : weight key <= cache.maxsize :=
      Nat.le_trans (List.single_le_sum (fun _ _ => Nat.zero_le _) _ (List.mem_map_of_mem isDedup))
        room
    have isStored := stillServing.store isKey
    have grows : ∀ size ∈ (none : Option Nat), id size < id (weight key) :=
      fun _ given => by cases given
    refine ⟨none, _, left.erase key, recent.erase key ++ [key], ?_,
      isStored.touch alreadyKey (isStored.weights key isKey), sameMaxsize, ?_, ?_⟩
    · have notLarge : ¬ cache.maxsize < id (weight key) := Nat.not_lt.mpr small
      simp only [LRUCache.getOrStore, get, found, offered absent, setItem]
      rw [if_neg notLarge, if_pos grows, id, made]
      rfl
    · exact contains_of_get? (get?_set_self after.data key _)
    intro other isOther isFound
    show ((after.data.set key (weight key)).get? other).isSome = true
    rw [get?_set]
    split
    · rfl
    rw [kept other isOther]
    exact isFound

def firstOffer (key : K) (offers : List (K × Option V)) : Option V :=
  (Dict.lookup key offers).bind id

variable {offers : List (K × Option Nat)}

/-- A walk over keys that are served returns, and in the end each of them is
found. -/
theorem Serving.walk (serving : cache.Serving keys weight old recent)
    (within : ∀ offer ∈ offers, offer.1 ∈ keys) (room : (keys.dedup.map weight).sum <= cache.maxsize)
    (offered : ∀ offer ∈ offers, cache.contains offer.1 = false ->
      firstOffer offer.1 offers = some (weight offer.1)) :
    ∃ found after left last, cache.walk id offers = .ok (found, after) /\
      after.Serving keys weight left last /\ after.maxsize = cache.maxsize /\
      (∀ offer ∈ offers, after.contains offer.1 = true) /\
      ∀ other ∈ keys, cache.contains other = true -> after.contains other = true := by
  induction offers generalizing cache old recent with
  | nil =>
    exact ⟨[], cache, old, recent, rfl, serving, rfl, (nofun), fun _ _ isFound => isFound⟩
  | cons offer rest ih =>
    have isKey := within offer List.mem_cons_self
    have isOffer : cache.contains offer.1 = false -> offer.2 = some (weight offer.1) := by
      intro absent
      have first := offered offer List.mem_cons_self absent
      simpa [firstOffer, lookup] using first
    rcases serving.getOrStore isKey room isOffer with
      ⟨found, middle, _, _, stored, stillServing, sameMaxsize, isFound, kept⟩
    have laterOffered : ∀ later ∈ rest, middle.contains later.1 = false ->
        firstOffer later.1 rest = some (weight later.1) := by
      intro later isLater absent
      have different : offer.1 ≠ later.1 := by
        intro same
        rw [<- same, isFound] at absent
        cases absent
      have before : cache.contains later.1 = false := by
        rw [Bool.eq_false_iff]
        intro was
        rw [kept later.1 (within later (List.mem_cons_of_mem offer isLater)) was] at absent
        cases absent
      have first := offered later (List.mem_cons_of_mem offer isLater) before
      simpa [firstOffer, lookup, different] using first
    rcases ih stillServing (fun later isLater => within later (List.mem_cons_of_mem offer isLater))
      (by rw [sameMaxsize]; exact room) laterOffered with
      ⟨others, after, leftAfter, lastAfter, walked, serves, sameAfter, allFound, stillFound⟩
    refine ⟨found :: others, after, leftAfter, lastAfter, ?_, serves, sameAfter.trans sameMaxsize,
      ?_, ?_⟩
    · simp only [LRUCache.walk, stored, walked, Except.map]
    · intro later isLater
      rcases List.mem_cons.mp isLater with same | isRest
      · rw [same]
        exact stillFound offer.1 isKey isFound
      · exact allFound later isRest
    · intro other isOther was
      exact stillFound other isOther (kept other isOther was)

/-- After all keys were touched, they are at the end of the order. -/
theorem Tidy.serving (tidy : cache.Tidy)
    (weights : ∀ key ∈ keys, ∀ size ∈ cache.data.get? key, size = weight key) :
    ∃ old recent, (cache.touchAll keys).Serving keys weight old recent := by
  have touched : ∀ (later earlier : List K) (cache : LRUCache K Nat) (old recent : List K),
      cache.Serving earlier weight old recent ->
      (∀ key ∈ later, ∀ size ∈ cache.data.get? key, size = weight key) ->
      ∃ left last, (cache.touchAll later).Serving (earlier ++ later) weight left last := by
    intro later
    induction later with
    | nil =>
      intro earlier cache old recent serving _
      rw [List.append_nil]
      exact ⟨old, recent, serving⟩
    | cons key rest ih =>
      intro earlier cache old recent serving known
      have next : (cache.touch key).Serving (earlier ++ [key]) weight _ _ :=
        serving.touch (fun other => by rw [List.mem_append, List.mem_singleton])
          (known key List.mem_cons_self)
      rcases ih (earlier ++ [key]) (cache.touch key) _ _ next
        (fun other isOther => known other (List.mem_cons_of_mem key isOther)) with
        ⟨leftAfter, lastAfter, done⟩
      rw [List.append_assoc] at done
      exact ⟨leftAfter, lastAfter, done⟩
  refine touched keys [] cache cache.order [] ⟨?_, ?_, ?_, ?_, ?_, ?_⟩ weights
  · rw [List.append_nil]
  · rw [List.append_nil]
    exact tidy.distinct
  · intro key
    exact Iff.rfl
  · intro key isOld
    exact (tidy.listed key).mp isOld
  · intro key found
    exact (tidy.listed key).mpr found
  · exact nofun

omit [DecidableEq K] in
theorem touchAll_same [DecidableEq K] (keys : List K) (cache : LRUCache K V) :
    (cache.touchAll keys).data = cache.data /\ (cache.touchAll keys).maxsize = cache.maxsize := by
  induction keys generalizing cache with
  | nil => exact ⟨rfl, rfl⟩
  | cons key rest ih => exact ih (cache.touch key)

/-- A walk returns if all its keys fit into the cache together. -/
theorem Tidy.walk (tidy : cache.Tidy)
    (weights : ∀ key ∈ offers.map Prod.fst, ∀ size ∈ cache.data.get? key, size = weight key)
    (room : ((offers.map Prod.fst).dedup.map weight).sum <= cache.maxsize)
    (offered : ∀ offer ∈ offers, cache.contains offer.1 = false ->
      firstOffer offer.1 offers = some (weight offer.1)) :
    ∃ found after, (cache.touchAll (offers.map Prod.fst)).walk id offers = .ok (found, after) /\
      after.Tidy /\ after.maxsize = cache.maxsize := by
  rcases tidy.serving weights with ⟨_, _, serving⟩
  have same := @touchAll_same K Nat _ (offers.map Prod.fst) cache
  have sameContains : ∀ key, (cache.touchAll (offers.map Prod.fst)).contains key =
      cache.contains key := by
    intro key
    rw [contains_eq_isSome, same.1, contains_eq_isSome]
  rcases serving.walk (fun offer isOffer => List.mem_map_of_mem isOffer)
    (by rw [same.2]; exact room)
    (fun offer isOffer absent => offered offer isOffer (by rw [<- sameContains]; exact absent)) with
    ⟨found, after, _, _, walked, serves, sameMaxsize, allFound, _⟩
  refine ⟨found, after, walked, ⟨?_, ?_⟩, sameMaxsize.trans same.2⟩
  · rw [serves.order]
    exact serves.distinct
  intro key
  refine ⟨?_, serves.listed key⟩
  intro member
  rw [serves.order, List.mem_append] at member
  rcases member with isOld | isLast
  · exact serves.present key isOld
  rcases List.mem_map.mp ((serves.served key).mp isLast) with ⟨offer, isOffer, same⟩
  rw [<- same]
  exact allFound offer isOffer

/-- What is left to offer after a walk: nothing that was found. -/
def remaining (offers : List (K × Option V)) (found : List (Option V)) : List (K × Option V) :=
  List.zipWith (fun offer found => (offer.1, if found.isSome then none else offer.2)) offers found

variable {found : List (Option V)}

omit [DecidableEq K] in
theorem length_walk [DecidableEq K] {getsizeof : V -> Nat} {offers : List (K × Option V)}
    {cache after : LRUCache K V} (walked : cache.walk getsizeof offers = .ok (found, after)) :
    found.length = offers.length := by
  induction offers generalizing cache found with
  | nil =>
    cases walked
    rfl
  | cons offer rest ih =>
    rcases walk_cons_eq_ok walked with ⟨_, _, _, -, later, rfl⟩
    rw [List.length_cons, List.length_cons, ih later]

/-- What a walk has found need not be offered by a walk that repeats it. -/
theorem walk_remaining {getsizeof : V -> Nat} {offers : List (K × Option V)}
    {cache after : LRUCache K V} (walked : cache.walk getsizeof offers = .ok (found, after)) :
    cache.walk getsizeof (remaining offers found) = .ok (found, after) := by
  induction offers generalizing cache found with
  | nil =>
    cases walked
    rfl
  | cons offer rest ih =>
    rcases walk_cons_eq_ok walked with ⟨first, middle, _, stored, later, rfl⟩
    have again : cache.getOrStore getsizeof (if first.isSome then none else offer.2) offer.1 =
        .ok (first, middle) := by
      cases first with
      | none => exact stored
      | some known =>
        cases isKnown : cache.data.get? offer.1 with
        | none =>
          simp only [getOrStore, get, isKnown] at stored
          split at stored
          · cases stored
          case h_2 value _ =>
            cases set : cache.setItem getsizeof offer.1 value with
            | error error =>
              rw [set] at stored
              cases stored
            | ok made =>
              rw [set] at stored
              cases stored
        | some value =>
          rw [<- stored]
          simp only [getOrStore, get, isKnown]
    have rest_ := ih later
    simp only [remaining, List.zipWith_cons_cons, walk, again]
    rw [remaining] at rest_
    rw [rest_]
    rfl

/-- What is not offered is in the cache when its turn comes. -/
theorem contains_of_walk {getsizeof : V -> Nat} {before rest : List (K × Option V)}
    {cache after : LRUCache K V}
    (walked : cache.walk getsizeof (before ++ (key, none) :: rest) = .ok (found, after)) :
    ∃ first middle, cache.walk getsizeof before = .ok (first, middle) /\
      middle.contains key = true := by
  induction before generalizing cache found after with
  | nil =>
    refine ⟨[], cache, rfl, ?_⟩
    cases isKnown : cache.data.get? key with
    | none =>
      simp only [List.nil_append, walk, getOrStore, get, isKnown] at walked
      cases walked
    | some value => exact contains_of_get? isKnown
  | cons offer others ih =>
    rw [List.cons_append] at walked
    rcases walk_cons_eq_ok walked with ⟨first, _, _, stored, later, -⟩
    rcases ih later with ⟨seen, last, walkedOthers, isFound⟩
    refine ⟨first :: seen, last, ?_, isFound⟩
    simp only [walk, stored, walkedOthers]
    rfl

end LRUCache

end Vllm.Multimodal
