import Vllm.Foundation.HashChain
import Vllm.Hashing.Model

namespace Vllm.Hashing

open Foundation List

/-!
# What the hasher computes

The abstract meaning of a block hash is a hash chain: block `i` contributes its
tokens and its extra keys, where the multi-modal part of the keys lists every
item that shares a token with the block.  The hasher carries an index from block
to block and starts an incremental pass at the last item.  When this scan finds
the same items, the hash loop produces the chain.
-/

variable {H E R : Type}

/-- Items are sorted by offset and do not overlap. -/
def MmOrdered (features : List MMFeature) : Prop :=
  features.Pairwise (fun earlier later => earlier.stop <= later.offset)

instance (features : List MMFeature) : Decidable (MmOrdered features) :=
  inferInstanceAs (Decidable (features.Pairwise _))

/-- The item shares a token with the range. -/
def MMFeature.Touches (start stop : Nat) (feature : MMFeature) : Prop :=
  feature.offset < stop /\ start < feature.stop

instance (start stop : Nat) : DecidablePred (MMFeature.Touches start stop) :=
  fun _ => inferInstanceAs (Decidable (_ /\ _))

/-- The key of an item in a block: its identifier and its offset relative to the
block. -/
def itemKey (start : Nat) (feature : MMFeature) : ExtraKey E :=
  .item feature.identifier ((feature.offset : Int) - start)

/-- The keys of all items that share a token with the range. -/
def itemKeys (start stop : Nat) (features : List MMFeature) : List (ExtraKey E) :=
  (features.filter (MMFeature.Touches start stop)).map (itemKey start)

variable (hasher : Hasher H E R) (request : Request H E R)

/-- The keys of the prompt embeddings in a range of tokens. -/
def embedsKeys (start stop : Nat) : List (ExtraKey E) :=
  match request.promptEmbeds with
  | none => []
  | some rows => [.embeds (hasher.sha256 (slice rows start stop))]

/-- All extra keys of a block, computed without a cursor. -/
def blockKeys (start stop : Nat) : Option (List (ExtraKey E)) :=
  tupleOrNone (genLoraExtraHashKeys request ++ itemKeys start stop request.mmFeatures ++
    cacheSaltKeys request start ++ embedsKeys hasher request start stop)

/-- Everything that block `i` adds to the chain. -/
def blockInput (i : Nat) : List TokenId × Option (List (ExtraKey E)) :=
  let start := i * hasher.blockSize
  let stop := start + hasher.blockSize
  (slice request.allTokenIds start stop, blockKeys hasher request start stop)

/-- The hash that block `i` should have. -/
def blockHashAt : Nat -> H :=
  chain hasher.cachingHashFn hasher.noneHash (blockInput hasher request)

variable {features : List MMFeature} {start stop : Nat}

theorem itemKeys_eq_nil (clear : ∀ feature ∈ features, ¬ feature.Touches start stop) :
    itemKeys (E := E) start stop features = [] := by
  rw [itemKeys, filter_eq_nil_iff.mpr (by simpa using clear), map_nil]

theorem itemKeys_append (start stop : Nat) (left right : List MMFeature) :
    itemKeys (E := E) start stop (left ++ right) =
      itemKeys start stop left ++ itemKeys start stop right := by
  simp [itemKeys]

variable {feature lastFeature : MMFeature} {startMmIdx : MmStart}

theorem itemKeys_cons_of_touches (touches : feature.Touches start stop) (rest : List MMFeature) :
    itemKeys (E := E) start stop (feature :: rest) =
      itemKey start feature :: itemKeys start stop rest := by
  simp [itemKeys, touches]

theorem itemKeys_cons_of_not_touches (clear : ¬ feature.Touches start stop) (rest : List MMFeature) :
    itemKeys (E := E) start stop (feature :: rest) = itemKeys start stop rest := by
  simp [itemKeys, clear]

/-- An item that reaches the end of a range hides all later items from it. -/
theorem clear_of_ordered {rest : List MMFeature} (ordered : MmOrdered (feature :: rest))
    (reaches : stop <= feature.stop) :
    ∀ later ∈ rest, ¬ later.Touches start stop := by
  intro later member touches
  have apart := (pairwise_cons.mp ordered).1 later member
  have before := touches.1
  omega

/-- The scan finds every item that touches the block. -/
theorem scanMmFeatures_keys
    (ordered : MmOrdered features) (index : Nat) :
    (scanMmFeatures (E := E) start stop features index).1 = itemKeys start stop features := by
  induction features generalizing index with
  | nil => rfl
  | cons feature rest ih =>
    have restOrdered := (pairwise_cons.mp ordered).2
    rw [scanMmFeatures]
    by_cases reached : feature.offset < stop
    · rw [if_pos reached]
      by_cases passed : feature.stop <= start
      · have clear : ¬ feature.Touches start stop := fun touches =>
          absurd touches.2 (Nat.not_lt.mpr passed)
        rw [if_pos passed, itemKeys_cons_of_not_touches clear]
        exact ih restOrdered (index + 1)
      have touches : feature.Touches start stop := ⟨reached, Nat.lt_of_not_le passed⟩
      rw [if_neg passed, itemKeys_cons_of_touches touches]
      by_cases ends : feature.stop <= stop
      · rw [if_pos ends, <- ih restOrdered (index + 1)]
        rfl
      rw [if_neg ends, itemKeys_eq_nil (clear_of_ordered ordered (Nat.le_of_not_le ends))]
      rfl
    rw [if_neg reached]
    have reaches : stop <= feature.stop :=
      Nat.le_trans (Nat.le_of_not_lt reached) (Nat.le_add_right _ _)
    have clear : ¬ feature.Touches start stop := fun touches => reached touches.1
    rw [itemKeys_cons_of_not_touches clear,
      itemKeys_eq_nil (clear_of_ordered ordered reaches)]

/-- The scan moves its index only over items that end inside the block. -/
theorem scanMmFeatures_index (start stop : Nat) (within : start <= stop)
    (features : List MMFeature) (index : Nat) :
    ∃ moved, (scanMmFeatures (E := E) start stop features index).2 = index + moved /\
      ∀ feature ∈ features.take moved, feature.stop <= stop := by
  induction features generalizing index with
  | nil => exact ⟨0, rfl, by simp⟩
  | cons feature rest ih =>
    obtain ⟨moved, _, ended⟩ := ih (index + 1)
    have advance (ends : feature.stop <= stop) :
        (scanMmFeatures (E := E) start stop rest (index + 1)).2 = index + (moved + 1) /\
          ∀ other ∈ (feature :: rest).take (moved + 1), other.stop <= stop := by
      refine ⟨by omega, fun other member => ?_⟩
      rcases mem_cons.mp member with same | member
      · rw [same]
        exact ends
      · exact ended other member
    rw [scanMmFeatures]
    by_cases reached : feature.offset < stop
    · rw [if_pos reached]
      by_cases passed : feature.stop <= start
      · rw [if_pos passed]
        exact ⟨moved + 1, advance (Nat.le_trans passed within)⟩
      rw [if_neg passed]
      by_cases ends : feature.stop <= stop
      · rw [if_pos ends]
        exact ⟨moved + 1, advance ends⟩
      rw [if_neg ends]
      exact ⟨0, rfl, by simp⟩
    · rw [if_neg reached]
      exact ⟨0, rfl, by simp⟩

def MmStart.skipped (features : List MMFeature) : MmStart -> Nat
  | .index position => position
  | .last => features.length - 1

/-- None of the items that a scan leaves out touches the range. -/
def ScanClear (features : List MMFeature) (start : MmStart) (from_ to_ : Nat) : Prop :=
  ∀ feature ∈ features.take (start.skipped features), ¬ feature.Touches from_ to_

theorem not_touches_of_le {from_ to_ : Nat} (clear : ¬ feature.Touches from_ to_)
    (lower : from_ <= start) (upper : stop <= to_) :
    ¬ feature.Touches start stop := by
  intro touches
  exact clear ⟨Nat.lt_of_lt_of_le touches.1 upper, Nat.lt_of_le_of_lt lower touches.2⟩

theorem stop_le_of_getLast (ordered : MmOrdered features)
    (last : features.getLast? = some lastFeature) :
    ∀ feature ∈ features, feature.stop <= lastFeature.stop := by
  obtain ⟨_, split⟩ := List.getLast?_eq_some_iff.mp last
  intro feature member
  rw [split, mem_append, mem_singleton] at member
  rw [MmOrdered, split, pairwise_append] at ordered
  rcases member with member | same
  · have apart := ordered.2.2 feature member lastFeature (mem_singleton_self _)
    exact Nat.le_trans apart (Nat.le_add_right _ _)
  · exact Nat.le_of_eq (congrArg MMFeature.stop same)

theorem genMmExtraHashKeys_eq (last : features.getLast? = some lastFeature) (start stop : Nat)
    (startMmIdx : MmStart) :
    genMmExtraHashKeys (E := E) features start stop startMmIdx =
      if lastFeature.stop <= start then ([], startMmIdx)
      else
        let found := scanMmFeatures start stop (features.drop (startMmIdx.skipped features))
          (startMmIdx.skipped features)
        (found.1, .index found.2) := by
  unfold genMmExtraHashKeys
  rw [last]
  cases startMmIdx <;> rfl

/-- One call of the key generator on a block whose left-out items are clear:
it returns the abstract keys, and the index it returns is again clear. -/
theorem genMmExtraHashKeys_spec (ordered : MmOrdered features) {limit : Nat}
    (within : start <= stop) (bound : stop <= limit)
    (clear : ScanClear features startMmIdx start limit) :
    (genMmExtraHashKeys (E := E) features start stop startMmIdx).1 = itemKeys start stop features /\
      ScanClear features (genMmExtraHashKeys (E := E) features start stop startMmIdx).2
        stop limit := by
  have keepClear : ScanClear features startMmIdx stop limit := fun feature member =>
    not_touches_of_le (clear feature member) within (Nat.le_refl limit)
  cases last : features.getLast? with
  | none =>
    rw [List.getLast?_eq_none_iff.mp last] at keepClear ⊢
    exact ⟨rfl, keepClear⟩
  | some lastFeature =>
    rw [genMmExtraHashKeys_eq last]
    by_cases passed : lastFeature.stop <= start
    · rw [if_pos passed]
      refine ⟨(itemKeys_eq_nil ?_).symm, keepClear⟩
      intro feature member touches
      have ends := stop_le_of_getLast ordered last feature member
      exact absurd touches.2 (by omega)
    rw [if_neg passed]
    constructor
    · rw [scanMmFeatures_keys (ordered.sublist (drop_sublist _ _))]
      conv_rhs => rw [<- take_append_drop (startMmIdx.skipped features) features]
      have leftOut := itemKeys_eq_nil (E := E) (fun feature member =>
        not_touches_of_le (clear feature member) (Nat.le_refl start) bound)
      rw [itemKeys_append, leftOut, nil_append]
    obtain ⟨moved, index, ended⟩ := scanMmFeatures_index (E := E) start stop within
      (features.drop (startMmIdx.skipped features)) (startMmIdx.skipped features)
    simp only [index]
    intro feature member touches
    change feature ∈ features.take (startMmIdx.skipped features + moved) at member
    rw [take_add, mem_append] at member
    rcases member with member | member
    · exact keepClear feature member touches
    · exact absurd touches.2 (Nat.not_lt.mpr (ended feature member))

/-- Every remembered digest is the digest of its slice. -/
def MemoValid : Prop :=
  ∀ rows, request.promptEmbeds = some rows -> ∀ start stop digest,
    request.promptEmbedsPerBlockHashes.get? (start, stop) = some digest ->
      digest = hasher.sha256 (slice rows start stop)

def Request.withMemo (memo : Dict (Nat × Nat) E) : Request H E R :=
  { request with promptEmbedsPerBlockHashes := memo }

section

include hasher request

/-- The memo changes which digests are computed, not their values. -/
theorem genPromptEmbedsExtraHashKeys_spec (valid : MemoValid hasher request) (start stop : Nat) :
    ∃ memo, genPromptEmbedsExtraHashKeys hasher request start stop =
        (embedsKeys hasher request start stop, request.withMemo memo) /\
      MemoValid hasher (request.withMemo memo) := by
  unfold genPromptEmbedsExtraHashKeys embedsKeys
  cases embeds : request.promptEmbeds with
  | none => exact ⟨request.promptEmbedsPerBlockHashes, rfl, valid⟩
  | some rows =>
    cases known : request.promptEmbedsPerBlockHashes.get? (start, stop) with
    | some digest =>
      refine ⟨request.promptEmbedsPerBlockHashes, ?_, valid⟩
      simp only
      rw [valid rows embeds start stop digest known]
      rfl
    | none =>
      refine ⟨request.promptEmbedsPerBlockHashes.set (start, stop)
        (hasher.sha256 (slice rows start stop)), ?_, ?_⟩
      · simp only [Request.withMemo, embeds]
      intro others sameRows from_ to_ digest stored
      have same : others = rows := Option.some.inj (sameRows.symm.trans embeds)
      change (request.promptEmbedsPerBlockHashes.set (start, stop) _).get? _ = _ at stored
      rw [Dict.get?_set] at stored
      by_cases range : (from_, to_) = (start, stop)
      · rw [if_pos range] at stored
        cases range
        rw [<- Option.some.inj stored, same]
      rw [if_neg range] at stored
      exact valid others sameRows from_ to_ digest stored

theorem generateBlockHashExtraKeys_spec (ordered : MmOrdered request.mmFeatures)
    (valid : MemoValid hasher request) {limit : Nat} (within : start <= stop)
    (bound : stop <= limit) (clear : ScanClear request.mmFeatures startMmIdx start limit) :
    ∃ nextMmIdx memo, generateBlockHashExtraKeys hasher request start stop startMmIdx =
          (blockKeys hasher request start stop, nextMmIdx, request.withMemo memo) /\
        ScanClear request.mmFeatures nextMmIdx stop limit /\
        MemoValid hasher (request.withMemo memo) := by
  obtain ⟨keys, nextClear⟩ := genMmExtraHashKeys_spec (E := E) ordered within bound clear
  obtain ⟨memo, embeds, nextValid⟩ :=
    genPromptEmbedsExtraHashKeys_spec hasher request valid start stop
  refine ⟨_, memo, ?_, nextClear, nextValid⟩
  simp only [generateBlockHashExtraKeys, blockKeys, keys, embeds]

/-- The hash of the block before block `i`, if there is one. -/
def parentHashAt (hasher : Hasher H E R) (request : Request H E R) : Nat -> Option H
  | 0 => none
  | i + 1 => some (blockHashAt hasher request i)

theorem hashBlockTokens_eq (i : Nat) :
    hashBlockTokens hasher (parentHashAt hasher request i)
        (blockInput hasher request i).1 (blockInput hasher request i).2 =
      blockHashAt hasher request i := by
  cases i <;> rfl

end

/-- The number of full blocks of a request. -/
def fullBlocks : Nat :=
  request.numTokens / hasher.blockSize

/-- Started at block `i` with the right parent and a clear scan, the loop
produces the chain up to the last full block and changes only the memo. -/
theorem hashLoop_eq (fuel i : Nat) (request : Request H E R)
    (currMmIdx : MmStart) (enough : fullBlocks hasher request <= i + fuel)
    (ordered : MmOrdered request.mmFeatures) (valid : MemoValid hasher request)
    (clear : ScanClear request.mmFeatures currMmIdx (i * hasher.blockSize)
      (fullBlocks hasher request * hasher.blockSize)) :
    ∃ memo,
      hashLoop hasher fuel (i * hasher.blockSize) (parentHashAt hasher request i) currMmIdx
          request =
        ((List.range' i (fullBlocks hasher request - i)).map (blockHashAt hasher request),
          request.withMemo memo) /\
        MemoValid hasher (request.withMemo memo) := by
  induction fuel generalizing i request currMmIdx with
  | zero =>
    have none_left : fullBlocks hasher request - i = 0 := by omega
    rw [none_left]
    exact ⟨request.promptEmbedsPerBlockHashes, rfl, valid⟩
  | succ fuel ih =>
    have next : i * hasher.blockSize + hasher.blockSize = (i + 1) * hasher.blockSize :=
      (Nat.succ_mul i hasher.blockSize).symm
    have test : request.numTokens < i * hasher.blockSize + hasher.blockSize <->
        fullBlocks hasher request <= i := by
      rw [next, <- Nat.div_lt_iff_lt_mul hasher.blockSize_pos, Nat.lt_succ_iff]
      rfl
    rw [hashLoop]
    by_cases done : fullBlocks hasher request <= i
    · have none_left : fullBlocks hasher request - i = 0 := by omega
      simp only [if_pos (test.mpr done), none_left]
      exact ⟨request.promptEmbedsPerBlockHashes, rfl, valid⟩
    have more : i < fullBlocks hasher request := Nat.lt_of_not_le done
    have bound : i * hasher.blockSize + hasher.blockSize <=
        fullBlocks hasher request * hasher.blockSize := by
      rw [next]
      exact Nat.mul_le_mul_right _ more
    obtain ⟨nextMmIdx, memo, keys, nextClear, nextValid⟩ :=
      generateBlockHashExtraKeys_spec hasher request ordered valid
        (Nat.le_add_right _ _) bound clear
    have remaining : fullBlocks hasher request - i =
        (fullBlocks hasher request - (i + 1)) + 1 := by omega
    rw [next] at nextClear
    obtain ⟨lastMemo, rest, lastValid⟩ := ih (i + 1) (request.withMemo memo) nextMmIdx
      (by change fullBlocks hasher request <= _; omega) ordered nextValid nextClear
    have here := hashBlockTokens_eq hasher request i
    simp only [blockInput] at here
    simp only [if_neg (mt test.mp done), keys, here]
    rw [next]
    refine ⟨lastMemo, ?_, lastValid⟩
    change hashLoop hasher fuel ((i + 1) * hasher.blockSize)
      (some (blockHashAt hasher request i)) nextMmIdx (request.withMemo memo) = _ at rest
    rw [rest, remaining, List.range'_succ, map_cons]
    rfl

end Vllm.Hashing
