import Vllm.Foundation.System
import Vllm.Hashing.Chain

namespace Vllm.Hashing

open Foundation Request List

/-!
# Incremental hashes against fresh ones

A request is hashed once when it is built and again each time its tokens grow.
Hashes that exist are never revised, and in general they are not those that a
computation from block zero would give.  A session update discards tokens that
may already be part of a hashed block, and an incremental pass looks for
multi-modal items from the last one on, although a block that it completes may
contain earlier ones.  Under the condition that neither happens, a run keeps all
hashes fresh.
-/

variable {H E R : Type}

variable (hasher : Hasher H E R) (request : Request H E R)

/-- The hashes that a computation from block zero gives for the current
content of the request. -/
def freshBlockHashes : List H :=
  (requestBlockHasher hasher
    { request with blockHashes := [], promptEmbedsPerBlockHashes := Dict.empty }).1

/-- There are no more hashes than full blocks, and each of them is the one that a
new request with the same data would have. -/
def HashesCurrent : Prop :=
  request.blockHashes.length <= request.numTokens / hasher.blockSize /\
    ∀ i, i < request.blockHashes.length ->
      request.blockHashes[i]? = (freshBlockHashes hasher request)[i]?

/-- The stored hashes are the beginning of the chain of the request. -/
def FollowsChain : Prop :=
  request.blockHashes.length <= fullBlocks hasher request /\
    request.blockHashes =
      (List.range request.blockHashes.length).map (blockHashAt hasher request)

/-- In an incremental pass only the last item may touch a new full block. -/
def LastItemOnly : Prop :=
  0 < request.blockHashes.length -> ∀ feature ∈ request.mmFeatures.dropLast,
    ¬ feature.Touches (request.blockHashes.length * hasher.blockSize)
      (fullBlocks hasher request * hasher.blockSize)

instance : Decidable (LastItemOnly hasher request) :=
  inferInstanceAs (Decidable (_ -> _))

variable {hasher} {request}

theorem getLast?_eq_parentHashAt (follows : FollowsChain hasher request) :
    request.blockHashes.getLast? = parentHashAt hasher request request.blockHashes.length := by
  have chained := follows.2
  generalize request.blockHashes.length = count at chained ⊢
  rw [chained]
  cases count with
  | zero => rfl
  | succ count => simp [range_succ, parentHashAt]

theorem scanClear_start (lastOnly : LastItemOnly hasher request) : ScanClear request.mmFeatures
      (if 0 < request.blockHashes.length * hasher.blockSize then .last else .index 0)
      (request.blockHashes.length * hasher.blockSize)
      (fullBlocks hasher request * hasher.blockSize) := by
  by_cases incremental : 0 < request.blockHashes.length * hasher.blockSize
  · rw [if_pos incremental, ScanClear, MmStart.skipped, <- dropLast_eq_take]
    exact lastOnly (Nat.pos_of_mul_pos_right incremental)
  rw [if_neg incremental]
  intro feature member
  simp [MmStart.skipped] at member

theorem requestBlockHasher_spec (request : Request H E R)
    (ordered : MmOrdered request.mmFeatures) (valid : MemoValid hasher request)
    (follows : FollowsChain hasher request) (lastOnly : LastItemOnly hasher request) :
    ∃ memo, requestBlockHasher hasher request = ((List.range' request.blockHashes.length
            (fullBlocks hasher request - request.blockHashes.length)).map
          (blockHashAt hasher request), request.withMemo memo) /\
      MemoValid hasher (request.withMemo memo) := by
  rw [requestBlockHasher]
  by_cases short : request.numTokens <
      request.blockHashes.length * hasher.blockSize + hasher.blockSize
  · have complete : fullBlocks hasher request <= request.blockHashes.length := by
      rw [<- Nat.succ_mul, <- Nat.div_lt_iff_lt_mul hasher.blockSize_pos] at short
      exact Nat.lt_succ_iff.mp short
    have none_left : fullBlocks hasher request - request.blockHashes.length = 0 := by omega
    simp only [if_pos short, none_left]
    exact ⟨request.promptEmbedsPerBlockHashes, rfl, valid⟩
  simp only [if_neg short, getLast?_eq_parentHashAt follows]
  apply hashLoop_eq hasher _ _ _ _ _ ordered valid (scanClear_start lastOnly)
  exact Nat.le_trans (Nat.div_le_self _ _) (Nat.le_add_left _ _)

/-- A computation from block zero yields the abstract chain. -/
theorem freshBlockHashes_eq (ordered : MmOrdered request.mmFeatures) :
    freshBlockHashes hasher request =
      (List.range (fullBlocks hasher request)).map (blockHashAt hasher request) := by
  obtain ⟨memo, computed, -⟩ := requestBlockHasher_spec
    { request with blockHashes := [], promptEmbedsPerBlockHashes := Dict.empty }
    ordered (fun _ _ _ _ _ stored => by simp at stored) ⟨Nat.zero_le _, rfl⟩
    (fun positive => absurd positive (Nat.lt_irrefl 0))
  rw [freshBlockHashes, computed, range_eq_range']
  rfl

theorem hashesCurrent_of_followsChain (ordered : MmOrdered request.mmFeatures)
    (follows : FollowsChain hasher request) :
    HashesCurrent hasher request := by
  refine ⟨follows.1, fun i bound => ?_⟩
  rw [freshBlockHashes_eq ordered, follows.2]
  simp [bound, Nat.lt_of_lt_of_le bound follows.1]

/-- What every step keeps. -/
structure Consistent (hasher : Hasher H E R) (request : Request H E R) : Prop where
  ordered : MmOrdered request.mmFeatures
  memo : MemoValid hasher request
  follows : FollowsChain hasher request

theorem updateBlockHashes_consistent (before : Consistent hasher request)
    (lastOnly : LastItemOnly hasher request) :
    Consistent hasher (updateBlockHashes hasher request) := by
  obtain ⟨memo, computed, valid⟩ :=
    requestBlockHasher_spec request before.ordered before.memo before.follows lastOnly
  have updated : updateBlockHashes hasher request =
      { request.withMemo memo with
        blockHashes := (List.range (fullBlocks hasher request)).map
          (blockHashAt hasher request) } := by
    have all : request.blockHashes ++
        (List.range' request.blockHashes.length
          (fullBlocks hasher request - request.blockHashes.length)).map
            (blockHashAt hasher request) =
        (List.range (fullBlocks hasher request)).map (blockHashAt hasher request) := by
      have joined : List.range' 0 request.blockHashes.length ++
          List.range' (0 + request.blockHashes.length)
            (fullBlocks hasher request - request.blockHashes.length) = _ :=
        List.range'_append_1
      rw [Nat.zero_add, Nat.add_sub_cancel' before.follows.1] at joined
      conv_lhs => rw [before.follows.2]
      rw [length_map, length_range, <- map_append, range_eq_range',
        range_eq_range', joined]
    simp only [updateBlockHashes, computed]
    rw [<- all]
    rfl
  rw [updated]
  refine ⟨before.ordered, valid, ?_, ?_⟩
  · simp [fullBlocks, numTokens, withMemo]
  simp only [length_map, length_range]
  rfl

theorem hashLoop_mmFeatures (fuel start : Nat) (prev : Option H)
    (currMmIdx : MmStart) :
    (hashLoop hasher fuel start prev currMmIdx request).2.mmFeatures = request.mmFeatures := by
  induction fuel generalizing start prev currMmIdx request with
  | zero => rfl
  | succ fuel ih =>
    rw [hashLoop]
    split
    · rfl
    simp only [ih]
    unfold generateBlockHashExtraKeys genPromptEmbedsExtraHashKeys
    simp only
    split
    · rfl
    · split <;> rfl

theorem updateBlockHashes_mmFeatures (hasher : Hasher H E R) (request : Request H E R) :
    (updateBlockHashes hasher request).mmFeatures = request.mmFeatures := by
  unfold updateBlockHashes requestBlockHasher
  simp only
  split
  · rfl
  · exact hashLoop_mmFeatures _ _ _ _

/-- Blocks that end inside an unchanged beginning of the tokens, and that no
new item touches, keep their hashes. -/
theorem blockHashAt_congr {left right : Request H E R} {i : Nat}
    (tokens : left.allTokenIds.take ((i + 1) * hasher.blockSize) =
      right.allTokenIds.take ((i + 1) * hasher.blockSize))
    (items : ∀ start stop, stop <= (i + 1) * hasher.blockSize ->
      itemKeys (E := E) start stop left.mmFeatures = itemKeys start stop right.mmFeatures)
    (lora : left.loraName = right.loraName) (salt : left.cacheSalt = right.cacheSalt)
    (embeds : left.promptEmbeds = right.promptEmbeds) :
    blockHashAt hasher left i = blockHashAt hasher right i := by
  apply chain_congr
  intro j bound
  have inside : j * hasher.blockSize + hasher.blockSize <= (i + 1) * hasher.blockSize := by
    rw [<- Nat.succ_mul]
    exact Nat.mul_le_mul_right _ (Nat.succ_le_succ bound)
  have block : slice left.allTokenIds (j * hasher.blockSize)
      (j * hasher.blockSize + hasher.blockSize) =
        slice right.allTokenIds (j * hasher.blockSize)
          (j * hasher.blockSize + hasher.blockSize) := by
    have cut := congrArg (List.take (j * hasher.blockSize + hasher.blockSize)) tokens
    rw [take_take, take_take, Nat.min_eq_left inside] at cut
    rw [slice, slice, cut]
  simp only [blockInput, blockKeys, genLoraExtraHashKeys, cacheSaltKeys, embedsKeys, block, lora,
    salt, embeds, items _ _ inside]

/-- Hashes that are carried over to changed tokens and items still follow
the chain when every hashed block lies in the unchanged part. -/
theorem FollowsChain.carry {before after : Request H E R} (follows : FollowsChain hasher before)
    (hashes : after.blockHashes = before.blockHashes)
    (kept : after.allTokenIds.take (before.blockHashes.length * hasher.blockSize) =
      before.allTokenIds.take (before.blockHashes.length * hasher.blockSize))
    (items : ∀ start stop, stop <= before.blockHashes.length * hasher.blockSize ->
      itemKeys (E := E) start stop after.mmFeatures = itemKeys start stop before.mmFeatures)
    (lora : after.loraName = before.loraName) (salt : after.cacheSalt = before.cacheSalt)
    (embeds : after.promptEmbeds = before.promptEmbeds) :
    FollowsChain hasher after := by
  have covered : before.blockHashes.length * hasher.blockSize <= before.numTokens :=
    (Nat.le_div_iff_mul_le hasher.blockSize_pos).mp follows.1
  refine ⟨?_, ?_⟩
  · rw [hashes]
    apply (Nat.le_div_iff_mul_le hasher.blockSize_pos).mpr
    have lengths := congrArg List.length kept
    rw [length_take, length_take] at lengths
    change _ <= after.allTokenIds.length
    change _ <= before.allTokenIds.length at covered
    omega
  rw [hashes]
  conv_lhs => rw [follows.2]
  apply map_congr_left
  intro i member
  have inside : (i + 1) * hasher.blockSize <= before.blockHashes.length * hasher.blockSize :=
    Nat.mul_le_mul_right _ (mem_range.mp member)
  refine (blockHashAt_congr ?_ (fun start stop bound => items start stop
    (Nat.le_trans bound inside)) lora salt embeds).symm
  have cut := congrArg (List.take ((i + 1) * hasher.blockSize)) kept
  rwa [take_take, take_take, Nat.min_eq_left inside] at cut

/-- The inputs that change a request between two looks at its hashes.  The
scheduler moves the count of computed tokens freely. -/
inductive Event where
  | append (tokenIds : List TokenId)
  | session (update : StreamingUpdate)
  | compute (numComputedTokens : Nat)

/-- One event of the life of a request. -/
def handle (hasher : Hasher H E R) (request : Request H E R) :
    Event -> Except RequestError (Request H E R)
  | .append tokenIds => .ok (appendOutputTokenIds hasher tokenIds request)
  | .session update => updateRequestAsSession hasher update request
  | .compute numComputedTokens => .ok { request with numComputedTokens := numComputedTokens }

/-- The life of a request whose items stay sorted and do not overlap. -/
def requestSystem (hasher : Hasher H E R) : System (Request H E R) Event where
  initial request :=
    ∃ init, MmOrdered init.mmFeatures /\ new hasher init = .ok request
  step request event after := handle hasher request event = .ok after /\ MmOrdered after.mmFeatures

/-- The condition on a step: hashed blocks lie inside the tokens that a session
update keeps, and only the last item touches a block that is hashed now. -/
def KeepsHashes (hasher : Hasher H E R) (request : Request H E R) : Event -> Prop
  | .append tokenIds =>
    LastItemOnly hasher { request with allTokenIds := request.allTokenIds ++ tokenIds }
  | .session update =>
    request.blockHashes.length * hasher.blockSize <=
        min request.numComputedTokens request.numTokens /\
      LastItemOnly hasher (extendSession request [] update)
  | .compute _ => True

instance (hasher : Hasher H E R) (request : Request H E R) (event : Event) :
    Decidable (KeepsHashes hasher request event) :=
  match event with
  | .append _ => inferInstanceAs (Decidable (LastItemOnly _ _))
  | .session _ => inferInstanceAs (Decidable (_ /\ _))
  | .compute _ => inferInstanceAs (Decidable True)

theorem new_consistent {init : RequestInit R} (ordered : MmOrdered init.mmFeatures)
    (built : new hasher init = .ok request) :
    Consistent hasher request := by
  unfold new at built
  cases length : lengthFromPromptTokenIdsOrEmbeds init.promptTokenIds init.promptEmbeds with
  | error error =>
    rw [length] at built
    cases built
  | ok numPromptTokens =>
    rw [length] at built
    cases built
    apply updateBlockHashes_consistent
    · exact ⟨ordered, fun _ _ _ _ _ stored => by simp at stored, Nat.zero_le _, rfl⟩
    · exact fun positive => absurd positive (Nat.lt_irrefl 0)

theorem append_consistent (before : Consistent hasher request) {tokenIds : List TokenId}
    (keeps : KeepsHashes hasher request (.append tokenIds)) :
    Consistent hasher (appendOutputTokenIds hasher tokenIds request) := by
  have covered : request.blockHashes.length * hasher.blockSize <= request.allTokenIds.length :=
    (Nat.le_div_iff_mul_le hasher.blockSize_pos).mp before.follows.1
  apply updateBlockHashes_consistent
  · refine ⟨before.ordered, before.memo, before.follows.carry rfl ?_ (fun _ _ _ => rfl) rfl rfl rfl⟩
    exact take_append_of_le_length covered
  · exact keeps

/-- The items of a new chunk start after the kept tokens. -/
theorem itemKeys_shift_eq_nil (base start stop : Nat) (bound : stop <= base)
    (features : List MMFeature) :
    itemKeys (E := E) start stop (features.map (MMFeature.shift base)) = [] := by
  apply itemKeys_eq_nil
  intro feature member touches
  obtain ⟨original, -, rfl⟩ := mem_map.mp member
  have before : original.offset + base < stop := touches.1
  omega

theorem session_consistent {after : Request H E R} (before : Consistent hasher request)
    {update : StreamingUpdate} (keeps : KeepsHashes hasher request (.session update))
    (done : updateRequestAsSession hasher update request = .ok after)
    (ordered : MmOrdered after.mmFeatures) : Consistent hasher after := by
  unfold updateRequestAsSession at done
  cases prompt : request.promptTokenIds with
  | none =>
    rw [prompt] at done
    cases done
  | some promptTokenIds =>
    rw [prompt] at done
    cases done
    have kept : request.blockHashes.length * hasher.blockSize <=
        (request.allTokenIds.take request.numComputedTokens).length := by
      rw [length_take]
      exact keeps.1
    have extended : Consistent hasher (extendSession request promptTokenIds update) := by
      refine ⟨?_, before.memo, before.follows.carry rfl ?_ ?_ rfl rfl rfl⟩
      · rw [updateBlockHashes_mmFeatures] at ordered
        exact ordered
      · change ((request.allTokenIds.take request.numComputedTokens) ++ _).take _ = _
        rw [take_append_of_le_length kept, take_take, Nat.min_eq_left]
        exact Nat.le_trans keeps.1 (Nat.min_le_left _ _)
      intro start stop bound
      change itemKeys start stop (request.mmFeatures ++ _) = _
      rw [itemKeys_append, itemKeys_shift_eq_nil _ _ _ (Nat.le_trans bound kept), append_nil]
    have updated := updateBlockHashes_consistent extended keeps.2
    exact ⟨updated.ordered, updated.memo, updated.follows⟩

theorem reachable_consistent
    (reachable : ((requestSystem hasher).restrict (KeepsHashes hasher)).Reachable request) :
    Consistent hasher request := by
  refine reachable.invariant (Consistent hasher) ?_ ?_
  · rintro state ⟨init, ordered, built⟩
    exact new_consistent ordered built
  rintro state event after - before ⟨keeps, handled, ordered⟩
  cases event with
  | append tokenIds =>
    cases handled
    exact append_consistent before keeps
  | session update => exact session_consistent before keeps handled ordered
  | compute numComputedTokens =>
    cases handled
    exact ⟨before.ordered, before.memo, before.follows⟩

/-- In every run whose steps all keep hashed blocks inside the kept tokens, and
complete no block that holds an item other than the last, all hashes describe
the current content of the request. -/
theorem reachable_hashesCurrent (hasher : Hasher H E R) (request : Request H E R)
    (reachable : ((requestSystem hasher).restrict (KeepsHashes hasher)).Reachable request) :
    HashesCurrent hasher request :=
  have consistent := reachable_consistent reachable
  hashesCurrent_of_followsChain consistent.ordered consistent.follows

/-- Hashes that keep their argument: a hash function without collisions. -/
inductive Digest (E : Type) where
  | none
  | node (parent : Digest E) (tokenIds : List TokenId) (extraKeys : Option (List (ExtraKey E)))
  deriving DecidableEq

/-- The hasher over `Digest` for blocks of four tokens. -/
def symbolicHasher : Hasher (Digest (List Nat)) (List Nat) Nat where
  blockSize := 4
  blockSize_pos := by decide
  cachingHashFn argument := .node argument.1 argument.2.1 argument.2.2
  noneHash := .none
  sha256 rows := rows

/-- A text request over the given tokens with the given items. -/
def plainInit (tokenIds : List TokenId) (mmFeatures : List MMFeature) : RequestInit Nat where
  promptTokenIds := some tokenIds
  promptEmbeds := none
  mmFeatures := mmFeatures
  loraName := none
  cacheSalt := none

/-- The block of the first four tokens is hashed with the sampled token `4`,
which the session update then replaces by `5`. -/
theorem session_update_leaves_stale_hash :
    ∃ request, (requestSystem symbolicHasher).Reachable request /\
      request.allTokenIds = [1, 2, 3, 5] /\
      request.blockHashes = [.node .none [1, 2, 3, 4] none] /\
      freshBlockHashes symbolicHasher request = [.node .none [1, 2, 3, 5] none] /\
      ¬ HashesCurrent symbolicHasher request := by
  refine ⟨_, .next (.session ⟨none, some [5]⟩) (.next (.compute 3) (.next (.append [4])
    (.start ⟨plainInit [1, 2, 3] [], ?_, rfl⟩) ⟨rfl, ?_⟩) ⟨rfl, ?_⟩) ⟨rfl, ?_⟩, ?_, ?_, ?_, ?_⟩
  · exact List.Pairwise.nil
  · exact List.Pairwise.nil
  · exact List.Pairwise.nil
  · exact List.Pairwise.nil
  · decide +kernel
  · decide +kernel
  · decide +kernel
  · intro current
    exact absurd (current.2 0 (by decide +kernel)) (by decide +kernel)

/-- Block one holds two items and is completed by an output token.  The
incremental pass starts at the second item and never sees the first. -/
theorem incremental_pass_misses_item :
    ∃ request, (requestSystem symbolicHasher).Reachable request /\
      request.mmFeatures = [⟨"a", 4, 1, by decide⟩, ⟨"b", 5, 2, by decide⟩] /\
      request.blockHashes = [.node .none [1, 2, 3, 4] none,
        .node (.node .none [1, 2, 3, 4] none) [5, 6, 7, 8] (some [.item "b" 1])] /\
      ¬ HashesCurrent symbolicHasher request := by
  refine ⟨_, .next (.append [8]) (.start ⟨plainInit [1, 2, 3, 4, 5, 6, 7]
    [⟨"a", 4, 1, by decide⟩, ⟨"b", 5, 2, by decide⟩], ?_, rfl⟩) ⟨rfl, ?_⟩, ?_, ?_, ?_⟩
  · decide +kernel
  · decide +kernel
  · decide +kernel
  · decide +kernel
  · intro current
    exact absurd (current.2 1 (by decide +kernel)) (by decide +kernel)

/-- A guarded run: a session whose hashed block survives the update. -/
theorem guarded_session_reachable :
    ∃ request, ((requestSystem symbolicHasher).restrict
        (KeepsHashes symbolicHasher)).Reachable request /\
      request.allTokenIds = [1, 2, 3, 4, 5, 7, 8, 9] /\ request.blockHashes.length = 2 := by
  refine ⟨_, .next (.session ⟨some [⟨"c", 0, 2, by decide⟩], some [7, 8, 9]⟩) (.next (.compute 5)
    (.next (.append [6]) (.start ⟨plainInit [1, 2, 3, 4, 5] [⟨"a", 1, 2, by decide⟩], ?_, rfl⟩)
      ⟨?_, rfl, ?_⟩) ⟨trivial, rfl, ?_⟩) ⟨?_, rfl, ?_⟩, ?_, ?_⟩
  all_goals decide +kernel

theorem guarded_session_hashesCurrent :
    ∃ request, request.allTokenIds = [1, 2, 3, 4, 5, 7, 8, 9] /\
      request.blockHashes.length = 2 /\ HashesCurrent symbolicHasher request := by
  rcases guarded_session_reachable with ⟨request, reachable, tokens, hashed⟩
  exact ⟨request, tokens, hashed, reachable_hashesCurrent symbolicHasher request reachable⟩

end Vllm.Hashing
