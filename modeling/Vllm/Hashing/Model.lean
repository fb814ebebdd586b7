import Vllm.Foundation.Dict

namespace Vllm.Hashing

open Foundation

/-!
# Requests and their block hashes

This is the part of a request that decides its prefix-cache keys: its tokens, its
multi-modal items, its adapter name, its salt and its prompt embeddings, together
with the list of hashes of its full blocks.  Its tokens change when output tokens
are appended and when a streaming session goes on.

The types `H` of block hashes, `E` of embedding digests and `R` of embedding rows
are arbitrary.  A block hash is never an empty byte string, so the only falsy
parent hash is a missing one.
-/

/-- Token ids are Python integers; draft placeholders are negative. -/
abbrev TokenId := Int

/-- A multi-modal item and the range of prompt tokens that stand for it. -/
structure MMFeature where
  identifier : String
  offset : Nat
  length : Nat
  length_pos : 0 < length
  deriving DecidableEq

namespace MMFeature

/-- The first token position after the item. -/
def stop (feature : MMFeature) : Nat := feature.offset + feature.length

/-- The item with its offset counted from a later base position. -/
def shift (base : Nat) (feature : MMFeature) : MMFeature :=
  { feature with offset := feature.offset + base }

end MMFeature

/-- One entry of the untagged tuple of extra keys.  Adapter names and salts
are both plain strings and so share a constructor. -/
inductive ExtraKey (E : Type) where
  | text (value : String)
  | item (identifier : String) (offset : Int)
  | embeds (digest : E)
  deriving DecidableEq

/-- Where a scan over the multi-modal items begins.  `last` is the index `-1`
of the source, its only negative one. -/
inductive MmStart where
  | index (position : Nat)
  | last
  deriving DecidableEq

/-- The hash functions and the granularity of hashing. -/
structure Hasher (H : Type) (E : Type) (R : Type) where
  blockSize : Nat
  blockSize_pos : 0 < blockSize
  cachingHashFn : H × List TokenId × Option (List (ExtraKey E)) -> H
  noneHash : H
  sha256 : List R -> E

/-- The fields of a request that hashing reads or writes. -/
structure Request (H : Type) (E : Type) (R : Type) where
  promptTokenIds : Option (List TokenId)
  promptEmbeds : Option (List R)
  promptEmbedsPerBlockHashes : Dict (Nat × Nat) E
  numPromptTokens : Nat
  outputTokenIds : List TokenId
  allTokenIds : List TokenId
  numComputedTokens : Nat
  mmFeatures : List MMFeature
  loraName : Option String
  cacheSalt : Option String
  blockHashes : List H

/-- The ways in which building or continuing a request can fail. -/
inductive RequestError where
  | promptMissing
  | promptLengthsDiffer (promptTokenLen promptEmbedsLen : Nat)
  | promptTokenIdsMissing
  deriving DecidableEq

/-- The text of the exception.  The failed assertion has none. -/
def RequestError.message : RequestError -> String
  | .promptMissing => "Neither prompt_token_ids nor prompt_embeds were defined."
  | .promptLengthsDiffer promptTokenLen promptEmbedsLen =>
    "Prompt token ids and prompt embeds had different lengths prompt_token_ids=" ++
      toString promptTokenLen ++ " prompt_embeds=" ++ toString promptEmbedsLen
  | .promptTokenIdsMissing => ""

/-- The Python slice `xs[start:stop]` for non-negative bounds. -/
def slice {α : Type} (xs : List α) (start stop : Nat) : List α := (xs.take stop).drop start

variable {H E R : Type}

variable (hasher : Hasher H E R) (request : Request H E R)

def Request.numTokens : Nat := request.allTokenIds.length

/-- The loop over the multi-modal items from the current index on.  An item that
ends before the block is passed.  When an item ends within the block, the block
may also contain the next one. -/
def scanMmFeatures (startTokenIdx endTokenIdx : Nat) :
    List MMFeature -> Nat -> List (ExtraKey E) × Nat
  | [], currMmIdx => ([], currMmIdx)
  | feature :: rest, currMmIdx =>
    if feature.offset < endTokenIdx then
      if feature.stop <= startTokenIdx then
        scanMmFeatures startTokenIdx endTokenIdx rest (currMmIdx + 1)
      else
        let key := .item feature.identifier ((feature.offset : Int) - startTokenIdx)
        if feature.stop <= endTokenIdx then
          let found := scanMmFeatures startTokenIdx endTokenIdx rest (currMmIdx + 1)
          (key :: found.1, found.2)
        else
          ([key], currMmIdx)
    else
      ([], currMmIdx)

/-- The keys of the multi-modal items in a block, and the index from which the
next block goes on. -/
def genMmExtraHashKeys (mmFeatures : List MMFeature) (startTokenIdx endTokenIdx : Nat)
    (startMmIdx : MmStart) : List (ExtraKey E) × MmStart :=
  match mmFeatures.getLast? with
  | none => ([], startMmIdx)
  | some lastFeature =>
    if lastFeature.stop <= startTokenIdx then
      ([], startMmIdx)
    else
      let first :=
        match startMmIdx with
        | .index position => position
        | .last => mmFeatures.length - 1
      let found := scanMmFeatures startTokenIdx endTokenIdx (mmFeatures.drop first) first
      (found.1, .index found.2)

/-- The name of the adapter, if there is one. -/
def genLoraExtraHashKeys : List (ExtraKey E) :=
  match request.loraName with
  | none => []
  | some name => [.text name]

variable (startTokenIdx : Nat)

/-- The salt enters the first block only, and an empty salt counts as none. -/
def cacheSaltKeys : List (ExtraKey E) :=
  match request.cacheSalt with
  | none => []
  | some salt => if startTokenIdx = 0 /\ salt ≠ "" then [.text salt] else []

/-- The digest of the block's embeddings, computed once and kept on the request. -/
def genPromptEmbedsExtraHashKeys (endTokenIdx : Nat) : List (ExtraKey E) × Request H E R :=
  match request.promptEmbeds with
  | none => ([], request)
  | some rows =>
    match request.promptEmbedsPerBlockHashes.get? (startTokenIdx, endTokenIdx) with
    | some digest => ([.embeds digest], request)
    | none =>
      let digest := hasher.sha256 (slice rows startTokenIdx endTokenIdx)
      ([.embeds digest],
        { request with
          promptEmbedsPerBlockHashes :=
            request.promptEmbedsPerBlockHashes.set (startTokenIdx, endTokenIdx) digest })

/-- An empty tuple of extra keys is passed on as `None`. -/
def tupleOrNone (keys : List (ExtraKey E)) : Option (List (ExtraKey E)) :=
  if keys.isEmpty then none else some keys

/-- The extra keys of a block in the order of the source: adapter, items, salt,
prompt embeddings.  They are put into one list without marks. -/
def generateBlockHashExtraKeys (endTokenIdx : Nat) (startMmIdx : MmStart) :
    Option (List (ExtraKey E)) × MmStart × Request H E R :=
  let mm := genMmExtraHashKeys request.mmFeatures startTokenIdx endTokenIdx startMmIdx
  let embeds := genPromptEmbedsExtraHashKeys hasher request startTokenIdx endTokenIdx
  (tupleOrNone (genLoraExtraHashKeys request ++ mm.1 ++ cacheSaltKeys request startTokenIdx ++
    embeds.1), mm.2, embeds.2)

/-- The hash of a block: of the hash before it, its tokens and its extra keys. -/
def hashBlockTokens (parentBlockHash : Option H)
    (currBlockTokenIds : List TokenId) (extraKeys : Option (List (ExtraKey E))) : H :=
  hasher.cachingHashFn (parentBlockHash.getD hasher.noneHash, currBlockTokenIds, extraKeys)

/-- The `while True` loop of the hasher.  Every round consumes a full block, so
a fuel of `numTokens` is never used up; `hashLoop_eq` shows that no full block
is left out.  The loop stops at the first block that is not full. -/
def hashLoop (hasher : Hasher H E R) :
    (fuel startTokenIdx : Nat) -> Option H -> MmStart -> Request H E R ->
      List H × Request H E R
  | 0, _, _, _, request => ([], request)
  | fuel + 1, startTokenIdx, prevBlockHashValue, currMmIdx, request =>
    let endTokenIdx := startTokenIdx + hasher.blockSize
    if request.numTokens < endTokenIdx then
      ([], request)
    else
      let extra :=
        generateBlockHashExtraKeys hasher request startTokenIdx endTokenIdx currMmIdx
      let blockHash := hashBlockTokens hasher prevBlockHashValue
        (slice request.allTokenIds startTokenIdx endTokenIdx) extra.1
      let rest := hashLoop hasher fuel endTokenIdx (some blockHash) extra.2.1 extra.2.2
      (blockHash :: rest.1, rest.2)

/-- The hashes of the full blocks that have none yet. -/
def requestBlockHasher : List H × Request H E R :=
  let startTokenIdx := request.blockHashes.length * hasher.blockSize
  if request.numTokens < startTokenIdx + hasher.blockSize then
    ([], request)
  else
    let currMmIdx := if 0 < startTokenIdx then MmStart.last else MmStart.index 0
    hashLoop hasher request.numTokens startTokenIdx request.blockHashes.getLast? currMmIdx request

/-- Append the hashes of blocks that have become full. -/
def updateBlockHashes : Request H E R :=
  let computed := requestBlockHasher hasher request
  { computed.2 with blockHashes := computed.2.blockHashes ++ computed.1 }

/-- What a caller gives to build a request. -/
structure RequestInit (R : Type) where
  promptTokenIds : Option (List TokenId)
  promptEmbeds : Option (List R)
  mmFeatures : List MMFeature
  loraName : Option String
  cacheSalt : Option String

/-- The length of a prompt of token ids or of embeddings. -/
def lengthFromPromptTokenIdsOrEmbeds (promptTokenIds : Option (List TokenId))
    (promptEmbeds : Option (List R)) : Except RequestError Nat :=
  match promptTokenIds, promptEmbeds with
  | none, none => .error .promptMissing
  | none, some rows => .ok rows.length
  | some tokens, none => .ok tokens.length
  | some tokens, some rows =>
    if rows.length ≠ tokens.length then
      .error (.promptLengthsDiffer tokens.length rows.length)
    else
      .ok tokens.length

/-- Create a request and hash its full blocks. -/
def Request.new (init : RequestInit R) : Except RequestError (Request H E R) := do
  let numPromptTokens <-
    lengthFromPromptTokenIdsOrEmbeds init.promptTokenIds init.promptEmbeds
  return updateBlockHashes hasher
    { promptTokenIds := init.promptTokenIds
      promptEmbeds := init.promptEmbeds
      promptEmbedsPerBlockHashes := Dict.empty
      numPromptTokens := numPromptTokens
      outputTokenIds := []
      allTokenIds := init.promptTokenIds.getD (List.replicate numPromptTokens 0)
      numComputedTokens := 0
      mmFeatures := init.mmFeatures
      loraName := init.loraName
      cacheSalt := init.cacheSalt
      blockHashes := [] }

/-- Append sampled tokens and hash the blocks that they fill. -/
def appendOutputTokenIds (tokenIds : List TokenId) (request : Request H E R) : Request H E R :=
  updateBlockHashes hasher
    { request with
      outputTokenIds := request.outputTokenIds ++ tokenIds
      allTokenIds := request.allTokenIds ++ tokenIds }

/-- The next input chunk of a streaming session. -/
structure StreamingUpdate where
  mmFeatures : Option (List MMFeature)
  promptTokenIds : Option (List TokenId)

/-- The session just before its hashes are brought up to date: everything
after the computed tokens is discarded and the new chunk is appended. -/
def extendSession (session : Request H E R) (promptTokenIds : List TokenId)
    (update : StreamingUpdate) : Request H E R :=
  let keptOutputTokens :=
    slice session.allTokenIds session.numPromptTokens session.numComputedTokens
  let keptTokenIds := session.allTokenIds.take session.numComputedTokens
  let base := keptTokenIds.length
  let chunk := update.promptTokenIds.getD []
  { session with
    outputTokenIds := []
    promptTokenIds := some (promptTokenIds ++ keptOutputTokens ++ chunk)
    mmFeatures := session.mmFeatures ++ (update.mmFeatures.getD []).map (MMFeature.shift base)
    allTokenIds := keptTokenIds ++ chunk }

/-- Continue a session with its next input.  Tokens that were not computed are
dropped, and hashes of blocks that had them are kept. -/
def updateRequestAsSession (update : StreamingUpdate)
    (session : Request H E R) : Except RequestError (Request H E R) :=
  match session.promptTokenIds with
  | none => .error .promptTokenIdsMissing
  | some promptTokenIds =>
    let updated := updateBlockHashes hasher (extendSession session promptTokenIds update)
    .ok { updated with numPromptTokens := (updated.promptTokenIds.getD []).length }

end Vllm.Hashing
