import Mathlib.Data.Finset.Insert
import Mathlib.Data.Finset.Erase
import Mathlib.Logic.Relation
import Vllm.Foundation.System
import Vllm.Multimodal.LRUCache

namespace Vllm.Multimodal

open Foundation Dict LRUCache List Option Relation

/-!
# Storing a value in a cache with pinned keys

The cache of `utils/cache.py` never removes a pinned key to make room.  `touch`
also accepts a key without a value, and such a key is chosen like any other when
room is made, but nothing is removed then.  As long as only keys with a value are
touched, a value that fits is stored: entries are removed one by one, each time
the one that was used least recently among those that are not pinned, until there
is room, and there may be none left to remove only if all are pinned.

The loops of the source may run for ever, so they take fuel.  A call that runs
out of it has no result.
-/

/-- The cache together with the set of its pinned keys. -/
structure PinnedCache (K V : Type) extends LRUCache K V where
  pinnedItems : Finset K

open PinnedCache

/-- The operations of the cache. -/
inductive CacheCall (K V : Type)
  | get (key : K)
  | put (key : K) (value : V)
  | touch (key : K)
  | pin (key : K)
  | pop (key : K)
  | removeOldest (removePinned : Bool)
  | clear

namespace PinnedCache

variable {K V : Type} [DecidableEq K] (getsizeof : V -> Nat) (cache : PinnedCache K V)

def new (capacity : Nat) : PinnedCache K V := ⟨⟨capacity, .empty, []⟩, ∅⟩

variable (removePinned : Bool) (key : K)

def touch : PinnedCache K V := { cache with toLRUCache := cache.toLRUCache.touch key }

/-- A key that is removed is not pinned any more. -/
def delItem : PinnedCache K V :=
  ⟨cache.toLRUCache.delItem key, cache.pinnedItems.erase key⟩

/-- A key that has no value is left alone. -/
def pop : PinnedCache K V := if cache.contains key then cache.delItem key else cache

/-- The oldest key that may be removed. -/
def lruKey : Option K :=
  cache.order.find? (fun key => removePinned || key ∉ cache.pinnedItems)

/-- There is no result when no key may be removed, which raises an error. -/
def popItem : Option (PinnedCache K V) :=
  (cache.lruKey removePinned).map cache.pop

/-- Remove items until there is room, or until only pinned ones are left.  Each
removal takes one unit of fuel. -/
def makeRoom (size : Nat) : Nat -> PinnedCache K V -> Option (Bool × PinnedCache K V)
  | 0, _ => none
  | fuel + 1, cache =>
    if cache.currsize getsizeof + size <= cache.maxsize then some (true, cache)
    else match cache.popItem false with
      | none => some (false, cache)
      | some next => makeRoom size fuel next

/-- Store a value as the most recent one. -/
def store (value : V) : PinnedCache K V :=
  { cache with data := cache.data.set key value }.touch key

/-- Store a value.  The first part of the result is the error that is raised. -/
def put (fuel : Nat) (key : K) (value : V) : Option (Option CacheError × PinnedCache K V) :=
  let size := getsizeof value
  if cache.maxsize < size then some (some .valueTooLarge, cache)
  else if ∀ old ∈ cache.data.get? key, getsizeof old < size then
    (makeRoom getsizeof size fuel cache).map fun
      | (true, cache) => (none, cache.store key value)
      | (false, cache) => (some .allPinned, cache)
  else some (none, cache.store key value)

/-- Remove the oldest keys, pinned or not, until no value is left. -/
def clear : Nat -> PinnedCache K V -> Option (PinnedCache K V)
  | 0, _ => none
  | fuel + 1, cache =>
    if cache.data.entries = [] then some cache
    else (cache.popItem true).bind (clear fuel)

/-- The cache after a call, also if the call raises an error.  There is none if
the call does not return. -/
def call (fuel : Nat) : CacheCall K V -> Option (PinnedCache K V)
  | .get key => some (if cache.contains key then cache.touch key else cache)
  | .put key value => (cache.put getsizeof fuel key value).map Prod.snd
  | .touch key => some (cache.touch key)
  | .pin key =>
    some (if cache.contains key then { cache with pinnedItems := insert key cache.pinnedItems }
      else cache)
  | .pop key => some (cache.pop key)
  | .removeOldest removePinned =>
    some (if cache.data.entries = [] then cache else (cache.popItem removePinned).getD cache)
  | .clear => clear fuel cache

/-- All sequences of calls on a cache that is empty at first. -/
def system : System (PinnedCache K V) (CacheCall K V) where
  initial cache := ∃ capacity, cache = new capacity
  step cache label after := ∃ fuel, cache.call getsizeof fuel label = some after

/-- The oldest entry that may be removed is gone. -/
def RemovesOldest (after : PinnedCache K V) : Prop :=
  ∃ key, cache.lruKey removePinned = some key /\ cache.contains key = true /\
    after = cache.delItem key

/-- As long as there is no room for a value of some size, the oldest entry that is
not pinned is removed. -/
def Evicts (size : Nat) : PinnedCache K V -> PinnedCache K V -> Prop :=
  ReflTransGen (fun before after =>
    before.maxsize < before.currsize getsizeof + size /\ before.RemovesOldest false after)

/-- Only keys that have a value are touched. -/
def TouchesStored : CacheCall K V -> Prop
  | .touch key => cache.contains key = true
  | _ => True

variable {getsizeof cache} {key}

/-- What every call keeps. -/
structure Sound (getsizeof : V -> Nat) (cache : PinnedCache K V) : Prop where
  tidy : cache.toLRUCache.Tidy
  fits : cache.currsize getsizeof <= cache.maxsize

section

variable (sound : Sound getsizeof cache) {after : PinnedCache K V} {fuel : Nat}
include sound

theorem Sound.touch (found : cache.contains key = true) :
    Sound getsizeof (cache.touch key) := by
  have moved := nodup_move sound.tidy.distinct key
  refine ⟨⟨moved.1, fun other => (moved.2 other).trans ?_⟩, sound.fits⟩
  rw [sound.tidy.listed]
  exact or_iff_left_of_imp (fun same => same ▸ found)

theorem Sound.delItem (key : K) :
    Sound getsizeof (cache.delItem key) := by
  refine ⟨⟨sound.tidy.distinct.erase key, fun other => ?_⟩, ?_⟩
  · refine (sound.tidy.distinct.mem_erase_iff).trans ?_
    rw [sound.tidy.listed]
    show _ <-> ((cache.data.erase key).get? other).isSome = true
    rw [get?_erase]
    split
    case isTrue same => simp [same]
    case isFalse different => exact and_iff_right different
  have total := cache.data.total_erase getsizeof key
  have fits := sound.fits
  unfold currsize at fits ⊢
  show (cache.data.erase key).total getsizeof <= cache.maxsize
  omega

theorem Sound.store {value : V}
    (room : cache.currsize getsizeof + getsizeof value <=
      cache.maxsize + cache.data.weigh getsizeof key) :
    Sound getsizeof (cache.store key value) := by
  have moved := nodup_move sound.tidy.distinct key
  refine ⟨⟨moved.1, fun other => (moved.2 other).trans ?_⟩, ?_⟩
  · rw [sound.tidy.listed]
    show _ <-> ((cache.data.set key value).get? other).isSome = true
    rw [get?_set]
    split
    case isTrue same => simp [same]
    case isFalse different => exact or_iff_left different
  have total := cache.data.total_set getsizeof key value
  unfold currsize at room ⊢
  show (cache.data.set key value).total getsizeof <= cache.maxsize
  omega

theorem Sound.popItem {removePinned : Bool} (popped : cache.popItem removePinned = some after) :
    cache.RemovesOldest removePinned after := by
  rcases map_eq_some_iff.mp popped with ⟨key, isKey, rfl⟩
  have found := (sound.tidy.listed key).mp (mem_of_find?_eq_some isKey)
  exact ⟨key, isKey, found, if_pos found⟩

/-- Every removal makes the order shorter, so the loop ends. -/
theorem Sound.makeRoom (size fuel : Nat) :
    (cache.order.length < fuel -> (makeRoom getsizeof size fuel cache).isSome) /\
    ∀ hasRoom after, makeRoom getsizeof size fuel cache = some (hasRoom, after) ->
      Sound getsizeof after /\ Evicts getsizeof size cache after /\
        after.maxsize = cache.maxsize /\
        if hasRoom then after.currsize getsizeof + size <= after.maxsize
        else after.lruKey false = none := by
  induction fuel generalizing cache with
  | zero => exact ⟨nofun, nofun⟩
  | succ fuel ih =>
    rw [makeRoom]
    split
    case isTrue room =>
      refine ⟨fun _ => rfl, ?_⟩
      rintro _ _ ⟨⟩
      exact ⟨sound, .refl, rfl, room⟩
    case isFalse full =>
      split
      case h_1 stuck =>
        refine ⟨fun _ => rfl, ?_⟩
        rintro _ _ ⟨⟩
        exact ⟨sound, .refl, rfl, map_eq_none_iff.mp stuck⟩
      case h_2 next popped =>
        rcases sound.popItem popped with ⟨key, -, found, rfl⟩
        rcases ih (sound.delItem key) with ⟨returns, outcome⟩
        refine ⟨fun enough => returns ?_, fun hasRoom after made => ?_⟩
        · have listed := (sound.tidy.listed key).mpr found
          have shorter := length_erase_of_mem listed
          have nonempty := length_pos_of_mem listed
          show (cache.order.erase key).length < fuel
          omega
        · rcases outcome hasRoom after made with ⟨afterSound, evicts, sameSize, rest⟩
          refine ⟨afterSound, .head ⟨Nat.not_le.mp full, ?_⟩ evicts, sameSize, rest⟩
          exact sound.popItem popped

/-- What a call of `put` that returns has done. -/
theorem Sound.put {value : V} {error : Option CacheError}
    (isPut : cache.put getsizeof fuel key value = some (error, after)) :
    Sound getsizeof after /\
      ((error = some .valueTooLarge /\ cache.maxsize < getsizeof value) \/
        ∃ left, Evicts getsizeof (getsizeof value) cache left /\ left.maxsize = cache.maxsize /\
          ((error = none /\ after = left.store key value) \/
            (error = some .allPinned /\ after = left /\ after.lruKey false = none))) := by
  unfold PinnedCache.put at isPut
  dsimp only at isPut
  split at isPut
  case isTrue large =>
    cases isPut
    exact ⟨sound, Or.inl ⟨rfl, large⟩⟩
  · split at isPut
    · rcases map_eq_some_iff.mp isPut with ⟨⟨hasRoom, left⟩, made, isAfter⟩
      rcases (sound.makeRoom _ fuel).2 _ _ made with ⟨roomSound, evicts, sameSize, outcome⟩
      cases hasRoom with
      | true =>
        cases isAfter
        exact ⟨roomSound.store (Nat.le_trans outcome (Nat.le_add_right _ _)),
          Or.inr ⟨left, evicts, sameSize, Or.inl ⟨rfl, rfl⟩⟩⟩
      | false =>
        cases isAfter
        exact ⟨roomSound, Or.inr ⟨_, evicts, sameSize, Or.inr ⟨rfl, rfl, outcome⟩⟩⟩
    case isFalse notLarger =>
      cases isPut
      refine ⟨sound.store ?_, Or.inr ⟨cache, .refl, rfl, Or.inl ⟨rfl, rfl⟩⟩⟩
      simp only [mem_def, not_forall, not_lt] at notLarger
      rcases notLarger with ⟨_, isOld, smaller⟩
      rw [weigh_of_found _ _ isOld]
      exact Nat.add_le_add sound.fits smaller

theorem Sound.clear (cleared : clear fuel cache = some after) :
    Sound getsizeof after := by
  induction fuel generalizing cache with
  | zero => cases cleared
  | succ fuel ih =>
    rw [clear] at cleared
    split at cleared
    · cases cleared
      exact sound
    rcases bind_eq_some_iff.mp cleared with ⟨_, popped, rest⟩
    rcases sound.popItem popped with ⟨key, -, -, rfl⟩
    exact ih (sound.delItem key) rest

theorem Sound.call {label : CacheCall K V} (touches : cache.TouchesStored label)
    (called : cache.call getsizeof fuel label = some after) :
    Sound getsizeof after := by
  have popped (key : K) : Sound getsizeof (cache.pop key) := by
    unfold pop
    split
    · exact sound.delItem key
    · exact sound
  cases label with
  | get key =>
    cases called
    split
    case isTrue found => exact sound.touch found
    · exact sound
  | put key value =>
    rcases map_eq_some_iff.mp called with ⟨⟨_, _⟩, isPut, rfl⟩
    exact (sound.put isPut).1
  | touch key =>
    cases called
    exact sound.touch touches
  | pin key =>
    cases called
    split
    · exact ⟨sound.tidy, sound.fits⟩
    · exact sound
  | pop key =>
    cases called
    exact popped key
  | removeOldest removePinned =>
    cases called
    split
    · exact sound
    cases isPopped : cache.popItem removePinned with
    | none => exact sound
    | some next =>
      rcases sound.popItem isPopped with ⟨key, -, -, rfl⟩
      exact sound.delItem key
  | clear => exact sound.clear called

end

/-- A cache for one value in which another key was touched before it was stored. -/
def blocked : PinnedCache Nat Nat := ((new 1).touch 0).store 1 1

end PinnedCache
end Vllm.Multimodal
