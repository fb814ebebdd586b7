import Mathlib.Data.List.Sort
import Vllm.Foundation.System
import Vllm.Multimodal.LRUCache

namespace Vllm.Multimodal

open Foundation

/-!
# The two caches of multi-modal items

The front end keeps the sizes of the items that it has sent to the engine, and
the engine keeps the items.  An item that the front end finds in its cache is
sent without data.  Both caches are updated once for each request, so that they
remove the same items as long as they see the same requests in the same order.

The front end goes through the items of a request modality by modality, in the
order in which the modalities were hashed.  The engine goes through them in the
order of the prompt: their places are sorted by offset, and two items with the
same offset stay in the order in which the modalities have found their places.
The two orders of the modalities are made in different parts of the processor
and need not agree.

A request may be rejected after the front end has updated its cache.
-/

/-- The change that an item makes to the prompt. -/
structure ResolvedPromptUpdate (U : Type) where
  itemIdx : Nat
  content : U
  deriving DecidableEq

/-- What the sender keeps of an item: its size and its changes to the prompt.  The
data itself is only on the side of the receiver. -/
structure MultiModalProcessorCacheItemMetadata (U : Type) where
  itemSize : Nat
  promptUpdates : List (ResolvedPromptUpdate U)
  deriving DecidableEq

/-- An item of a prompt: its hash, and what the processor makes of its data.  The
data may be left out if the item is expected to be cached. -/
structure MultiModalDataItem (I U : Type) where
  mmHash : String
  data : Option (I × List (ResolvedPromptUpdate U))

/-- The items of a prompt by modality, in the order of their hashes, and by
modality the offsets at which they stand in the prompt.  The second dictionary has
an order of its own.  The name of the adapter is given if the encoder depends on
it. -/
structure ProcessorInputs (I U : Type) where
  mmDataItems : Dict String (List (MultiModalDataItem I U))
  mmPlaceholders : Dict String (List Nat)
  loraName : Option String

/-- One step of the loop over the items of a prompt. -/
structure ItemEntry (I U : Type) where
  modality : String
  itemIdx : Nat
  item : MultiModalDataItem I U

/-- An item on its way to the engine.  The data is missing if the receiver should
have it in its cache. -/
structure MultiModalFeatureSpec (I : Type) where
  data : Option I
  modality : String
  identifier : String
  mmHash : String
  deriving DecidableEq

/-- The places of the items in the order of their offsets.  The sort is stable: of
two items with one offset, the one whose modality or index comes first stays
first. -/
def argsortMmPositions (mmPositions : Dict String (List Nat)) : List (String × Nat) :=
  ((mmPositions.entries.flatMap (fun group => group.2.zipIdx.map (fun item =>
    ((group.1, item.2), item.1)))).insertionSort (fun first second =>
      first.2 <= second.2)).map Prod.fst

namespace ItemEntry

variable {I U : Type}

/-- The modality of an item and its index within the modality. -/
def place (entry : ItemEntry I U) : String × Nat := (entry.modality, entry.itemIdx)

end ItemEntry

namespace ProcessorInputs

variable {I U : Type} (inputs : ProcessorInputs I U)

/-- The items in the order of the front end. -/
def entries : List (ItemEntry I U) :=
  inputs.mmDataItems.entries.flatMap (fun group => group.2.zipIdx.map (fun item =>
    ⟨group.1, item.2, item.1⟩))

/-- The identifier of an item: its hash, with the name of the adapter in front if
there is one. -/
def getMmIdentifier (mmHash : String) : String :=
  match inputs.loraName with
  | none => mmHash
  | some loraName => loraName ++ ":" ++ mmHash

/-- The features of a request in the order of the prompt.  The hash and the data of
a place are looked up by its modality and index, and there is no result if there
are none. -/
def mmFeatures (kwargs : List (Option I)) : Option (List (MultiModalFeatureSpec I)) :=
  (argsortMmPositions inputs.mmPlaceholders).mapM (fun place =>
    ((inputs.entries.zip kwargs).find? (fun result => result.1.place = place)).map (fun result =>
      { data := result.2
        modality := result.1.modality
        identifier := inputs.getMmIdentifier result.1.item.mmHash
        mmHash := result.1.item.mmHash }))

end ProcessorInputs

/-- The cache of the process that prepares the requests. -/
abbrev MultiModalProcessorSenderCache (U : Type) : Type :=
  LRUCache String (MultiModalProcessorCacheItemMetadata U)

namespace MultiModalProcessorSenderCache

variable {I U : Type} (itemSize : I -> Nat)

/-- What is stored for an item. -/
def metadata (mmItem : I × List (ResolvedPromptUpdate U)) :
    MultiModalProcessorCacheItemMetadata U where
  itemSize := itemSize mmItem.1
  promptUpdates := mmItem.2

/-- What the front end sends for an item. -/
def answer (mmItem : Option (I × List (ResolvedPromptUpdate U))) :
    Option (MultiModalProcessorCacheItemMetadata U) -> Option I × List (ResolvedPromptUpdate U)
  | some cachedItem => (none, cachedItem.promptUpdates)
  | none => (mmItem.map Prod.fst, (mmItem.map Prod.snd).getD [])

def getAndUpdateItem (mmItem : Option (I × List (ResolvedPromptUpdate U))) (mmHash : String)
    (cache : MultiModalProcessorSenderCache U) :
    Except CacheError ((Option I × List (ResolvedPromptUpdate U)) ×
      MultiModalProcessorSenderCache U) :=
  (cache.getOrStore MultiModalProcessorCacheItemMetadata.itemSize (mmItem.map (metadata itemSize))
    mmHash).map (fun result => (answer mmItem result.1, result.2))

variable (entries : List (ItemEntry I U))

/-- Which items are cached.  There is no result if one that is not cached has no
data. -/
def getCacheMissingItems (cache : MultiModalProcessorSenderCache U) : Option (List Bool) :=
  if ∀ entry ∈ entries, cache.contains entry.item.mmHash = true \/ entry.item.data.isSome then
    some (entries.map (fun entry => cache.contains entry.item.mmHash))
  else
    none

/-- Update one item after the other.  Those that were cached bring no data. -/
def mergeItems : List (ItemEntry I U × Bool) -> MultiModalProcessorSenderCache U ->
    Except CacheError (List (Option I × List (ResolvedPromptUpdate U)) ×
      MultiModalProcessorSenderCache U)
  | [], cache => .ok ([], cache)
  | (entry, isCached) :: rest, cache =>
    let item := if isCached then none else entry.item.data
    match getAndUpdateItem itemSize item entry.item.mmHash cache with
    | .error error => .error error
    | .ok ((kwargs, updates), cache) =>
      (mergeItems rest cache).map (fun merged =>
        ((kwargs, updates.map (fun update => { update with itemIdx := entry.itemIdx })) ::
          merged.1, merged.2))

/-- All items are touched first, so that no update removes one of them. -/
def mergeMmKwargs (mmIsCached : List Bool) (cache : MultiModalProcessorSenderCache U) :
    Except CacheError (List (Option I × List (ResolvedPromptUpdate U)) ×
      MultiModalProcessorSenderCache U) :=
  mergeItems itemSize (entries.zip mmIsCached)
    (cache.touchAll (entries.map (fun entry => entry.item.mmHash)))

end MultiModalProcessorSenderCache

namespace MultiModalFeatureSpec

variable {I : Type} (feature : MultiModalFeatureSpec I)

/-- The key of an item on the side of the receiver. -/
def cacheKey : String := if feature.mmHash = "" then feature.identifier else feature.mmHash

end MultiModalFeatureSpec

/-- The cache of the engine, which holds the data of the items. -/
abbrev MultiModalReceiverCache (I : Type) : Type := LRUCache String I

namespace MultiModalReceiverCache

variable {I : Type} (itemSize : I -> Nat)

def getAndUpdateItem (mmItem : Option I) (mmHash : String) (cache : MultiModalReceiverCache I) :
    Except CacheError (Option I × MultiModalReceiverCache I) :=
  (cache.getOrStore itemSize mmItem mmHash).map (fun result => (result.1.or mmItem, result.2))

/-- Look up or store the items one after the other. -/
def updateFeatures : List (MultiModalFeatureSpec I) -> MultiModalReceiverCache I ->
    Except CacheError (List (MultiModalFeatureSpec I) × MultiModalReceiverCache I)
  | [], cache => .ok ([], cache)
  | feature :: rest, cache =>
    match getAndUpdateItem itemSize feature.data feature.cacheKey cache with
    | .error error => .error error
    | .ok (data, cache) =>
      (updateFeatures rest cache).map (fun updated =>
        ({ feature with data := data } :: updated.1, updated.2))

/-- Touch all items first, so that none of them is removed for another one, then
look them up or store them. -/
def getAndUpdateFeatures (mmFeatures : List (MultiModalFeatureSpec I))
    (cache : MultiModalReceiverCache I) :
    Except CacheError (List (MultiModalFeatureSpec I) × MultiModalReceiverCache I) :=
  updateFeatures itemSize mmFeatures
    (cache.touchAll (mmFeatures.map MultiModalFeatureSpec.cacheKey))

end MultiModalReceiverCache

/-- The two caches and the requests on their way between them. -/
structure CachePair (I U : Type) where
  sender : MultiModalProcessorSenderCache U
  channel : List (List (MultiModalFeatureSpec I))
  receiver : MultiModalReceiverCache I

namespace CachePair

variable {I U : Type} (itemSize : I -> Nat) (pair : CachePair I U)

/-- A request is prepared and then sent or rejected, or the engine takes the next
request from the channel. -/
inductive Event (I U : Type) where
  | submit (inputs : ProcessorInputs I U) (accepted : Bool)
  | receive

/-- The front end processes a request and forwards it if it is accepted, or the
engine processes the next one.  A request that lacks data is refused before
anything is changed.  One that is rejected later, or that has a place without an
item, has changed the cache of the front end and is not forwarded. -/
def next : Event I U -> Except CacheError (CachePair I U)
  | .submit inputs accepted =>
    match MultiModalProcessorSenderCache.getCacheMissingItems inputs.entries pair.sender with
    | none => .ok pair
    | some mmIsCached =>
      match MultiModalProcessorSenderCache.mergeMmKwargs itemSize inputs.entries mmIsCached
          pair.sender with
      | .error error => .error error
      | .ok (merged, sender) =>
        .ok { pair with
          sender := sender
          channel :=
            if accepted then pair.channel ++ (inputs.mmFeatures (merged.map Prod.fst)).toList
            else pair.channel }
  | .receive =>
    match pair.channel with
    | [] => .ok pair
    | mmFeatures :: rest =>
      match MultiModalReceiverCache.getAndUpdateFeatures itemSize mmFeatures pair.receiver with
      | .error error => .error error
      | .ok (_, receiver) => .ok { pair with channel := rest, receiver := receiver }

/-- Both caches are empty and have the same capacity. -/
structure Starts : Prop where
  capacity : pair.sender.maxsize = pair.receiver.maxsize
  senderData : pair.sender.data = Dict.empty
  senderOrder : pair.sender.order = []
  channel : pair.channel = []
  receiverData : pair.receiver.data = Dict.empty
  receiverOrder : pair.receiver.order = []

/-- All runs of the two caches with the channel between them. -/
def system : System (CachePair I U) (Event I U) where
  initial := Starts
  step pair event after := pair.next itemSize event = .ok after

end CachePair

end Vllm.Multimodal
