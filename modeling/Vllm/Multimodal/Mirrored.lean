import Vllm.Multimodal.Caches

namespace Vllm.Multimodal

open Foundation MultiModalProcessorSenderCache MultiModalFeatureSpec List
open MultiModalProcessorCacheItemMetadata renaming itemSize → cachedSize
open LRUCache (firstOffer remaining sizes walk)

/-!
# The two caches stay mirrored

With sizes in the place of values, the cache of the front end is what the cache
of the engine becomes when it has processed the requests on their way.  So the
engine finds whatever the front end has found, and stores what the front end has
stored.

This needs requests whose items stand in the prompt in the order in which the
front end goes through them, that are not rejected afterwards, and that fit into
the cache as a whole.
-/

namespace MultiModalProcessorSenderCache

variable {I U : Type} (itemSize : I -> Nat)

variable (pair : ItemEntry I U × Bool)

/-- The data of an item that is not forwarded from the cache. -/
def offer : Option (I × List (ResolvedPromptUpdate U)) :=
  if pair.2 then none else pair.1.item.data

def mergedItem (found : Option (MultiModalProcessorCacheItemMetadata U)) :
    Option I × List (ResolvedPromptUpdate U) :=
  ((answer (offer pair) found).1, (answer (offer pair) found).2.map (fun update =>
    { update with itemIdx := pair.1.itemIdx }))

/-- The loop of the front end is a walk through its cache. -/
theorem mergeItems_eq (pairs : List (ItemEntry I U × Bool))
    (cache : MultiModalProcessorSenderCache U) :
    mergeItems itemSize pairs cache =
      (cache.walk cachedSize (pairs.map (fun pair => (pair.1.item.mmHash,
        (offer pair).map (metadata itemSize))))).map (fun result =>
          (List.zipWith mergedItem pairs result.1, result.2)) := by
  induction pairs generalizing cache with
  | nil => rfl
  | cons pair rest ih =>
    rcases pair with ⟨entry, isCached⟩
    have head : (if isCached then none else entry.item.data) = offer (entry, isCached) := rfl
    rw [mergeItems, map_cons, walk]
    simp only [getAndUpdateItem, head]
    cases stored : cache.getOrStore cachedSize ((offer (entry, isCached)).map (metadata itemSize))
        entry.item.mmHash with
    | error error => rfl
    | ok result =>
      rcases result with ⟨_, after⟩
      simp only [Except.map]
      rw [ih]
      cases after.walk cachedSize (rest.map fun pair =>
        (pair.1.item.mmHash, (offer pair).map (metadata itemSize))) with
      | error error => rfl
      | ok result => rfl

end MultiModalProcessorSenderCache

namespace MultiModalReceiverCache

variable {I : Type} (itemSize : I -> Nat)

theorem updateFeatures_eq (features : List (MultiModalFeatureSpec I))
    (cache : MultiModalReceiverCache I) :
    updateFeatures itemSize features cache =
      (cache.walk itemSize (features.map (fun feature => (feature.cacheKey, feature.data)))).map
        (fun result => (List.zipWith (fun (feature : MultiModalFeatureSpec I) found =>
          { feature with data := found.or feature.data }) features result.1, result.2)) := by
  induction features generalizing cache with
  | nil => rfl
  | cons feature rest ih =>
    rw [updateFeatures, map_cons, walk, getAndUpdateItem]
    cases stored : cache.getOrStore itemSize feature.data feature.cacheKey with
    | error error => rfl
    | ok result =>
      rcases result with ⟨found, after⟩
      simp only [Except.map]
      rw [ih]
      cases after.walk itemSize (rest.map fun feature =>
        (feature.cacheKey, feature.data)) with
      | error error => rfl
      | ok result => rfl

end MultiModalReceiverCache

namespace CachePair

variable {I U : Type} {itemSize : I -> Nat} {pair : CachePair I U} {inputs : ProcessorInputs I U}

/-- What an item adds to the size of the cache. -/
def itemCost (itemSize : I -> Nat) (cache : MultiModalProcessorSenderCache U)
    (entries : List (ItemEntry I U)) (mmHash : String) : Nat :=
  match cache.data.get? mmHash with
  | some cachedItem => cachedItem.itemSize
  | none =>
    (firstOffer mmHash (entries.map (fun entry =>
      (entry.item.mmHash, entry.item.data.map (fun data => itemSize data.1))))).getD 0

/-- A request that both caches process in the same way.  The order in which the
engine finds its items, which is that of their sorted places, is the order in which
the front end goes through them.  Together they fit into the cache.  The request is
not rejected afterwards, unless it has no items.

This leaves out requests with several modalities that are mixed in the prompt, those
with two items at one offset whose places are listed in the other order, those that
a later check of the front end rejects, and those with more items than fit into the
cache. -/
structure Mirrors (itemSize : I -> Nat) (cache : MultiModalProcessorSenderCache U)
    (inputs : ProcessorInputs I U) (accepted : Bool) : Prop where
  kept : accepted = true \/ inputs.entries = []
  inOrder : argsortMmPositions inputs.mmPlaceholders = inputs.entries.map ItemEntry.place
  named : ∀ entry ∈ inputs.entries, entry.item.mmHash ≠ "" \/ inputs.loraName = none
  fits : (((inputs.entries.map (fun entry => entry.item.mmHash)).dedup).map
    (itemCost itemSize cache inputs.entries)).sum <= cache.maxsize

/-- An event that keeps the caches mirrored.  Requests that lack data are refused
and need no condition. -/
def Fits (itemSize : I -> Nat) (pair : CachePair I U) : Event I U -> Prop
  | .submit inputs accepted =>
    (∀ entry ∈ inputs.entries, pair.sender.contains entry.item.mmHash = true \/
      entry.item.data.isSome) -> Mirrors itemSize pair.sender inputs accepted
  | .receive => True

def sizeOffers (itemSize : I -> Nat) (features : List (MultiModalFeatureSpec I)) :
    List (String × Option Nat) :=
  features.map (fun feature => (feature.cacheKey, feature.data.map itemSize))

/-- What the engine does to its cache of sizes for one request after the other. -/
def follow (itemSize : I -> Nat) :
    List (List (MultiModalFeatureSpec I)) -> LRUCache String Nat ->
      Except CacheError (LRUCache String Nat)
  | [], cache => .ok cache
  | features :: rest, cache =>
    match (cache.touchAll (features.map MultiModalFeatureSpec.cacheKey)).walk id
        (sizeOffers itemSize features) with
    | .error error => .error error
    | .ok (_, cache) => follow itemSize rest cache

/-- The engine gets to the cache of the front end when it has processed the
requests on their way. -/
structure Mirrored (itemSize : I -> Nat) (pair : CachePair I U) : Prop where
  follows : follow itemSize pair.channel (pair.receiver.sizes itemSize) =
    .ok (pair.sender.sizes MultiModalProcessorCacheItemMetadata.itemSize)
  tidy : (pair.sender.sizes MultiModalProcessorCacheItemMetadata.itemSize).Tidy

variable {features : List (MultiModalFeatureSpec I)} {found : List (Option Nat)}

theorem follow_append {first : List (List (MultiModalFeatureSpec I))}
    {cache middle after : LRUCache String Nat} (followed : follow itemSize first cache = .ok middle)
    (walked : (middle.touchAll (features.map cacheKey)).walk id
      (sizeOffers itemSize features) = .ok (found, after)) :
    follow itemSize (first ++ [features]) cache = .ok after := by
  induction first generalizing cache with
  | nil =>
    cases followed
    rw [nil_append, follow, walked]
    rfl
  | cons other rest ih =>
    rw [follow] at followed
    rw [cons_append, follow]
    split at followed
    · cases followed
    · exact ih followed

/-- Looking up the keys of a table one after the other gives its rows, if no two rows
have the same key. -/
theorem mapM_find_map {R K F : Type} [DecidableEq K] {key : R -> K} {table : List R}
    (nodup : (table.map key).Nodup) (make : R -> F) :
    (table.map key).mapM (fun wanted =>
      (table.find? (fun row => key row = wanted)).map make) = some (table.map make) := by
  have lookup : ∀ row ∈ table, table.find? (fun other => key other = key row) = some row := by
    intro row isRow
    cases found : table.find? (fun other => key other = key row) with
    | none => exact absurd (decide_eq_true rfl) (find?_eq_none.mp found row isRow)
    | some other =>
      have sameKey : key other = key row := by simpa using find?_some found
      rw [inj_on_of_nodup_map nodup (mem_of_find?_eq_some found) isRow sameKey]
  have rows : ∀ rows : List R, rows ⊆ table -> (rows.map key).mapM (fun wanted =>
      (table.find? (fun row => key row = wanted)).map make) = some (rows.map make) := by
    intro rows
    induction rows with
    | nil => exact fun _ => rfl
    | cons row rest ih =>
      intro within
      have head := lookup row (within mem_cons_self)
      have later := ih (fun other isOther => within (mem_cons_of_mem row isOther))
      rw [map_cons, mapM_cons, head, later]
      rfl
  exact rows table (Subset.refl table)

/-- What the engine is told about an item. -/
def feature (inputs : ProcessorInputs I U) (result : ItemEntry I U × Option I) :
    MultiModalFeatureSpec I where
  data := result.2
  modality := result.1.modality
  identifier := inputs.getMmIdentifier result.1.item.mmHash
  mmHash := result.1.item.mmHash

/-- No two items have the same modality and index. -/
theorem places_nodup (inputs : ProcessorInputs I U) :
    (inputs.entries.map ItemEntry.place).Nodup := by
  rw [ProcessorInputs.entries, map_flatMap, nodup_flatMap]
  refine ⟨?_, ?_⟩
  · intro group _
    refine Nodup.of_map Prod.snd ?_
    have indices : ((group.2.zipIdx.map (fun item =>
        (⟨group.1, item.2, item.1⟩ : ItemEntry I U))).map ItemEntry.place).map Prod.snd =
          group.2.zipIdx.map Prod.snd := by
      simp only [map_map]
      rfl
    rw [indices, zipIdx_map_snd]
    exact nodup_range'
  refine (pairwise_map.mp inputs.mmDataItems.nodup).imp ?_
  intro first second different place isFirst isSecond
  simp only [map_map, mem_map] at isFirst isSecond
  rcases isFirst with ⟨_, _, rfl⟩
  rcases isSecond with ⟨_, _, same⟩
  exact different (congrArg Prod.fst same).symm

/-- If the places are those of the items in their order, the lookups give the items
in their order. -/
theorem mmFeatures_of_inOrder {kwargs : List (Option I)}
    (inOrder : argsortMmPositions inputs.mmPlaceholders = inputs.entries.map ItemEntry.place)
    (same : inputs.entries.length = kwargs.length) :
    inputs.mmFeatures kwargs = some ((inputs.entries.zip kwargs).map (feature inputs)) := by
  have places : (inputs.entries.zip kwargs).map (fun result => result.1.place) =
      inputs.entries.map ItemEntry.place := by
    conv_rhs => rw [<- map_fst_zip (Nat.le_of_eq same)]
    rw [map_map]
    rfl
  have nodup : ((inputs.entries.zip kwargs).map (fun result => result.1.place)).Nodup := by
    rw [places]
    exact places_nodup inputs
  rw [ProcessorInputs.mmFeatures, inOrder, <- places]
  exact mapM_find_map nodup (feature inputs)

theorem cacheKey_eq {entry : ItemEntry I U} {data : Option I}
    (named : entry.item.mmHash ≠ "" \/ inputs.loraName = none) :
    (feature inputs (entry, data)).cacheKey = entry.item.mmHash := by
  rw [cacheKey, feature]
  split
  case isTrue unnamed =>
    rcases named with isNamed | noAdapter
    · exact absurd unnamed isNamed
    · rw [ProcessorInputs.getMmIdentifier, noAdapter]
  · rfl

def entryOffers (itemSize : I -> Nat) (isCached : ItemEntry I U -> Bool)
    (entries : List (ItemEntry I U)) : List (String × Option Nat) :=
  entries.map (fun entry => (entry.item.mmHash,
    if isCached entry then none else entry.item.data.map (fun data => itemSize data.1)))

/-- What the front end sends is what is left to offer after its walk. -/
theorem sizeOffers_features (isCached : ItemEntry I U -> Bool) (entries : List (ItemEntry I U))
    (found : List (Option (MultiModalProcessorCacheItemMetadata U)))
    (named : ∀ entry ∈ entries, entry.item.mmHash ≠ "" \/ inputs.loraName = none) :
    sizeOffers itemSize ((entries.zip ((List.zipWith mergedItem
        (entries.map (fun entry => (entry, isCached entry))) found).map Prod.fst)).map
          (feature inputs)) =
      remaining (entryOffers itemSize isCached entries)
        (found.map (Option.map cachedSize)) := by
  induction entries generalizing found with
  | nil => rfl
  | cons entry rest ih =>
    cases found with
    | nil => rfl
    | cons first others =>
      have later := ih others fun other isOther =>
        named other (mem_cons_of_mem entry isOther)
      simp only [remaining, entryOffers, sizeOffers] at later ⊢
      simp only [map_cons, zipWith_cons_cons, zip_cons_cons, later,
        cacheKey_eq (named entry mem_cons_self)]
      refine congrArg (fun head => head :: _) (Prod.ext rfl ?_)
      cases first with
      | some cachedItem => rfl
      | none =>
        simp only [feature, mergedItem, answer, offer]
        cases isCached entry with
        | true => rfl
        | false =>
          cases entry.item.data with
          | none => rfl
          | some data => rfl

theorem keys_remaining {offers : List (String × Option Nat)} (same : found.length = offers.length) :
    (remaining offers found).map Prod.fst = offers.map Prod.fst := by
  induction offers generalizing found with
  | nil => rfl
  | cons offer rest ih =>
    cases found with
    | nil => cases same
    | cons first others =>
      simp only [remaining, zipWith_cons_cons, map_cons]
      exact congrArg (fun keys => offer.1 :: keys) (ih (Nat.succ.inj same))

theorem firstOffer_entryOffers {cache : MultiModalProcessorSenderCache U}
    {entries : List (ItemEntry I U)} {mmHash : String}
    (complete : ∀ entry ∈ entries, cache.contains entry.item.mmHash = true \/ entry.item.data.isSome)
    (member : mmHash ∈ entries.map (fun entry => entry.item.mmHash))
    (absent : cache.contains mmHash = false) :
    firstOffer mmHash (entryOffers itemSize (fun entry =>
        cache.contains entry.item.mmHash) entries) =
      some (itemCost itemSize cache entries mmHash) := by
  have notFound : cache.data.get? mmHash = none := by
    cases found : cache.data.get? mmHash with
    | none => rfl
    | some cachedItem =>
      rw [LRUCache.contains_eq_isSome, found] at absent
      cases absent
  rw [itemCost, notFound]
  induction entries with
  | nil => cases member
  | cons entry rest ih =>
    by_cases same : entry.item.mmHash = mmHash
    · have notCached : cache.contains entry.item.mmHash = false := by
        rw [same]
        exact absent
      have hasData : entry.item.data.isSome := by
        rcases complete entry mem_cons_self with isCached | hasData
        · rw [notCached] at isCached
          cases isCached
        · exact hasData
      rcases Option.isSome_iff_exists.mp hasData with ⟨_, isData⟩
      simp only [firstOffer, entryOffers, map_cons, Dict.lookup, if_pos same,
        notCached, isData, Bool.false_eq_true, if_false]
      rfl
    have isLater : mmHash ∈ rest.map (fun entry => entry.item.mmHash) := by
      rcases mem_cons.mp member with isFirst | isLater
      · exact absurd isFirst.symm same
      · exact isLater
    have later := ih (fun other isOther => complete other (mem_cons_of_mem entry isOther))
      isLater
    simp only [firstOffer, entryOffers, map_cons, Dict.lookup, if_neg same] at later ⊢
    exact later

section Submit

variable {cache : MultiModalProcessorSenderCache U} {accepted : Bool}

/-- The sizes that the front end offers for the items that it has not cached. -/
def senderOffers (itemSize : I -> Nat) (cache : MultiModalProcessorSenderCache U)
    (entries : List (ItemEntry I U)) : List (String × Option Nat) :=
  entryOffers itemSize (fun entry => cache.contains entry.item.mmHash) entries

theorem keys_senderOffers (entries : List (ItemEntry I U)) :
    (senderOffers itemSize cache entries).map Prod.fst =
      entries.map (fun entry => entry.item.mmHash) := by
  rw [senderOffers, entryOffers, map_map]
  rfl

/-- The items of a request that fits can be stored one after the other. -/
theorem sizes_walk_of_mirrors (tidy : (cache.sizes cachedSize).Tidy)
    (complete : ∀ entry ∈ inputs.entries, cache.contains entry.item.mmHash = true \/
      entry.item.data.isSome) (mirrors : Mirrors itemSize cache inputs accepted) :
    ∃ found after, ((cache.sizes cachedSize).touchAll
          (inputs.entries.map (fun entry => entry.item.mmHash))).walk id
        (senderOffers itemSize cache inputs.entries) = .ok (found, after) /\ after.Tidy := by
  have keys := @keys_senderOffers I U itemSize cache inputs.entries
  have weights : ∀ mmHash ∈ (senderOffers itemSize cache inputs.entries).map Prod.fst,
      ∀ size ∈ (cache.sizes cachedSize).data.get? mmHash,
        size = itemCost itemSize cache inputs.entries mmHash := by
    intro mmHash _ size isSize
    have look : (cache.sizes cachedSize).data.get? mmHash =
        (cache.data.get? mmHash).map cachedSize := Dict.get?_mapValues _ cache.data mmHash
    rw [look] at isSize
    rcases Option.map_eq_some_iff.mp isSize with ⟨_, found, same⟩
    rw [itemCost, found]
    exact same.symm
  have offered : ∀ offer ∈ senderOffers itemSize cache inputs.entries,
      (cache.sizes cachedSize).contains offer.1 = false ->
      firstOffer offer.1 (senderOffers itemSize cache inputs.entries) =
        some (itemCost itemSize cache inputs.entries offer.1) := by
    intro offer isOffer absent
    have member : offer.1 ∈ inputs.entries.map (fun entry => entry.item.mmHash) := by
      rw [<- keys]
      exact mem_map_of_mem isOffer
    rw [LRUCache.contains_sizes] at absent
    exact firstOffer_entryOffers complete member absent
  rcases tidy.walk weights (by rw [keys]; exact mirrors.fits) offered with
    ⟨found, after, walked, stillTidy, _⟩
  rw [keys] at walked
  exact ⟨found, after, walked, stillTidy⟩

/-- What the front end merges for each item, by what it has found. -/
def mergedItems (cache : MultiModalProcessorSenderCache U) (entries : List (ItemEntry I U))
    (found : List (Option (MultiModalProcessorCacheItemMetadata U))) :
    List (Option I × List (ResolvedPromptUpdate U)) :=
  List.zipWith mergedItem
    (entries.map (fun entry => (entry, cache.contains entry.item.mmHash))) found

/-- The walk through the sizes is the walk of the front end. -/
theorem mergeMmKwargs_of_sizes_walk {entries : List (ItemEntry I U)}
    {after : LRUCache String Nat}
    (walked : ((cache.sizes cachedSize).touchAll
        (entries.map (fun entry => entry.item.mmHash))).walk id
      (senderOffers itemSize cache entries) = .ok (found, after)) :
    ∃ foundItems sender, mergeMmKwargs itemSize entries
          (entries.map (fun entry => cache.contains entry.item.mmHash)) cache =
        .ok (mergedItems cache entries foundItems, sender) /\
      foundItems.map (Option.map cachedSize) = found /\ sender.sizes cachedSize = after := by
  let pairs := entries.map (fun entry => (entry, cache.contains entry.item.mmHash))
  let touched := cache.touchAll (entries.map fun entry => entry.item.mmHash)
  let offers := pairs.map fun pair =>
    (pair.1.item.mmHash, (offer pair).map (metadata itemSize))
  have sameOffers : offers.map (fun offer => (offer.1, offer.2.map cachedSize)) =
      senderOffers itemSize cache entries := by
    simp only [offers, pairs, senderOffers, entryOffers, map_map]
    refine map_congr_left ?_
    intro entry _
    simp only [Function.comp_def, offer]
    split
    · rfl
    · exact congrArg (Prod.mk _) (Option.map_map _ _ _)
  have sizesWalk := @LRUCache.sizes_walk String _ _ cachedSize offers touched
  rw [sameOffers, LRUCache.sizes_touchAll] at sizesWalk
  have isWalked := sizesWalk.symm.trans walked
  have merging := mergeItems_eq itemSize pairs touched
  change _ = (touched.walk _ offers).map _ at merging
  cases walkedSender : touched.walk cachedSize offers with
  | error error =>
    rw [walkedSender] at isWalked
    cases isWalked
  | ok result =>
    rcases result with ⟨foundItems, sender⟩
    rw [walkedSender] at isWalked merging
    simp only [Except.map, Except.ok.injEq, Prod.mk.injEq] at isWalked
    refine ⟨foundItems, sender, ?_, isWalked⟩
    rw [mergeMmKwargs, <- map_prod_left_eq_zip]
    exact merging

/-- What the front end sends makes the engine repeat the walk of the front end. -/
theorem features_repeat_walk
    {foundItems : List (Option (MultiModalProcessorCacheItemMetadata U))}
    {sizes after : LRUCache String Nat}
    (inOrder : argsortMmPositions inputs.mmPlaceholders = inputs.entries.map ItemEntry.place)
    (named : ∀ entry ∈ inputs.entries, entry.item.mmHash ≠ "" \/ inputs.loraName = none)
    (walked : (sizes.touchAll (inputs.entries.map (fun entry => entry.item.mmHash))).walk id
      (senderOffers itemSize cache inputs.entries) =
        .ok (foundItems.map (Option.map cachedSize), after)) :
    ∃ features, inputs.mmFeatures
          ((mergedItems cache inputs.entries foundItems).map Prod.fst) = some features /\
      (sizes.touchAll (features.map cacheKey)).walk id (sizeOffers itemSize features) =
        .ok (foundItems.map (Option.map cachedSize), after) := by
  have isLong := LRUCache.length_walk walked
  have sameLength : inputs.entries.length =
      ((mergedItems cache inputs.entries foundItems).map Prod.fst).length := by
    simp only [senderOffers, entryOffers, length_map] at isLong
    simp only [mergedItems, length_map, length_zipWith, isLong, Nat.min_self]
  refine ⟨_, mmFeatures_of_inOrder inOrder sameLength, ?_⟩
  have offers := @sizeOffers_features I U itemSize inputs
    (fun entry => cache.contains entry.item.mmHash) inputs.entries foundItems named
  change sizeOffers itemSize ((inputs.entries.zip ((mergedItems cache inputs.entries
    foundItems).map Prod.fst)).map (feature inputs)) =
      remaining (senderOffers itemSize cache inputs.entries) _ at offers
  have keys : ((inputs.entries.zip ((mergedItems cache inputs.entries
      foundItems).map Prod.fst)).map (feature inputs)).map cacheKey =
        inputs.entries.map (fun entry => entry.item.mmHash) := by
    rw [<- @keys_senderOffers I U itemSize cache, <- keys_remaining isLong, <- offers, sizeOffers]
    simp only [map_map]
    rfl
  rw [offers, keys]
  exact LRUCache.walk_remaining walked

/-- Without items the front end leaves its cache as it is. -/
theorem mergeMmKwargs_nil {merged : List (Option I × List (ResolvedPromptUpdate U))}
    {sender : MultiModalProcessorSenderCache U}
    (merging : mergeMmKwargs itemSize [] [] cache = .ok (merged, sender)) : sender = cache :=
  (congrArg Prod.snd (Except.ok.inj merging)).symm

/-- A request that fits is processed by the front end, and the engine will do the
same. -/
theorem submit_mirrored (mirrored : pair.Mirrored itemSize)
    (complete : ∀ entry ∈ inputs.entries, pair.sender.contains entry.item.mmHash = true \/
      entry.item.data.isSome) (mirrors : Mirrors itemSize pair.sender inputs accepted) :
    ∃ merged sender, mergeMmKwargs itemSize inputs.entries
          (inputs.entries.map (fun entry => pair.sender.contains entry.item.mmHash)) pair.sender =
        .ok (merged, sender) /\
      Mirrored itemSize
        { pair with
          sender := sender
          channel :=
            if accepted then pair.channel ++ (inputs.mmFeatures (merged.map Prod.fst)).toList
            else pair.channel } := by
  rcases sizes_walk_of_mirrors mirrored.tidy complete mirrors with ⟨found, after, walked, tidy⟩
  rcases mergeMmKwargs_of_sizes_walk walked with ⟨foundItems, sender, merging, rfl, rfl⟩
  refine ⟨_, sender, merging, ?_, tidy⟩
  cases accepted with
  | true =>
    rcases features_repeat_walk mirrors.inOrder mirrors.named walked with
      ⟨features, isFeatures, repeated⟩
    rw [if_pos rfl, isFeatures]
    exact follow_append mirrored.follows repeated
  | false =>
    have noItems : inputs.entries = [] := mirrors.kept.resolve_left Bool.false_ne_true
    rw [noItems] at merging
    rw [mergeMmKwargs_nil merging]
    exact mirrored.follows

end Submit

theorem receiver_walks (mirrored : pair.Mirrored itemSize)
    {rest : List (List (MultiModalFeatureSpec I))} (isNext : pair.channel = features :: rest) :
    ∃ found receiver, (pair.receiver.touchAll (features.map cacheKey)).walk itemSize
          (features.map (fun feature => (feature.cacheKey, feature.data))) =
        .ok (found, receiver) /\
      follow itemSize rest (receiver.sizes itemSize) = .ok (pair.sender.sizes cachedSize) := by
  have follows := mirrored.follows
  have walks := @LRUCache.sizes_walk String _ _ itemSize
    (features.map fun feature => (feature.cacheKey, feature.data))
    (pair.receiver.touchAll (features.map cacheKey))
  have sameOffers : (features.map fun feature => (feature.cacheKey, feature.data)).map
      (fun offer => (offer.1, offer.2.map itemSize)) = sizeOffers itemSize features := by
    rw [sizeOffers, map_map]
    rfl
  rw [sameOffers, LRUCache.sizes_touchAll] at walks
  rw [isNext, follow, walks] at follows
  cases walked : (pair.receiver.touchAll (features.map cacheKey)).walk
      itemSize (features.map fun feature => (feature.cacheKey, feature.data)) with
  | error error =>
    rw [walked] at follows
    cases follows
  | ok result =>
    rw [walked] at follows
    exact ⟨result.1, result.2, rfl, follows⟩

theorem next_mirrored (mirrored : pair.Mirrored itemSize) {event : Event I U}
    (fits : pair.Fits itemSize event) :
    ∃ after, pair.next itemSize event = .ok after /\ after.Mirrored itemSize := by
  cases event with
  | submit inputs accepted =>
    by_cases complete : ∀ entry ∈ inputs.entries,
        pair.sender.contains entry.item.mmHash = true \/ entry.item.data.isSome
    · rcases submit_mirrored mirrored complete (fits complete) with
        ⟨_, _, merging, stillMirrored⟩
      refine ⟨_, ?_, stillMirrored⟩
      simp only [next, getCacheMissingItems, if_pos complete, merging]
    · refine ⟨pair, ?_, mirrored⟩
      simp only [next, getCacheMissingItems, if_neg complete]
  | receive =>
    cases isNext : pair.channel with
    | nil =>
      refine ⟨pair, ?_, mirrored⟩
      simp only [next, isNext]
    | cons features rest =>
      rcases receiver_walks mirrored isNext with ⟨_, receiver, walked, follows⟩
      refine ⟨{ pair with channel := rest, receiver := receiver }, ?_, follows, mirrored.tidy⟩
      simp only [next, isNext, MultiModalReceiverCache.getAndUpdateFeatures,
        MultiModalReceiverCache.updateFeatures_eq, walked, Except.map]

theorem mirrored_of_reachable
    (reachable : ((system itemSize).restrict (Fits itemSize)).Reachable pair) :
    pair.Mirrored itemSize := by
  refine reachable.invariant (Mirrored itemSize) ?_ ?_
  · intro state starts
    have sameSizes : state.receiver.sizes itemSize = state.sender.sizes cachedSize := by
      simp only [sizes, starts.senderData, starts.senderOrder, starts.receiverData,
        starts.receiverOrder, starts.capacity]
      rfl
    refine ⟨?_, ⟨?_, ?_⟩⟩
    · rw [starts.channel, sameSizes]
      rfl
    · simp only [sizes, starts.senderOrder, nodup_nil]
    intro key
    rw [LRUCache.contains_sizes, LRUCache.contains_eq_isSome, starts.senderData]
    simp [sizes, starts.senderOrder]
  rintro state event after _ mirrored ⟨fits, isNext⟩
  rcases next_mirrored mirrored fits with ⟨made, isMade, stillMirrored⟩
  have same : made = after := Except.ok.inj (isMade.symm.trans isNext)
  rw [<- same]
  exact stillMirrored

/-- In every run whose requests fit, no update of an item fails, neither in the
front end nor in the engine, and an item that was sent without data is in the
cache of the engine when its turn comes. -/
theorem caches_mirrored (reachable : ((system itemSize).restrict (Fits itemSize)).Reachable pair) :
    (∀ event, pair.Fits itemSize event -> ∃ after, pair.next itemSize event = .ok after) /\
      ∀ features rest, pair.channel = features :: rest ->
        ∀ before feature later, features = before ++ feature :: later -> feature.data = none ->
          ∃ updated cache, MultiModalReceiverCache.updateFeatures itemSize before
                (pair.receiver.touchAll (features.map MultiModalFeatureSpec.cacheKey)) =
              .ok (updated, cache) /\ cache.contains feature.cacheKey = true := by
  have mirrored := mirrored_of_reachable reachable
  refine ⟨?_, ?_⟩
  · intro event fits
    rcases next_mirrored mirrored fits with ⟨after, isNext, _⟩
    exact ⟨after, isNext⟩
  intro features rest isNext before feature later isSplit noData
  rcases receiver_walks mirrored isNext with ⟨_, _, walked, _⟩
  have split : features.map (fun feature => (feature.cacheKey, feature.data)) =
      before.map (fun feature => (feature.cacheKey, feature.data)) ++
        (feature.cacheKey, none) ::
          later.map (fun feature => (feature.cacheKey, feature.data)) := by
    rw [isSplit, map_append, map_cons, noData]
  rw [split] at walked
  rcases LRUCache.contains_of_walk walked with ⟨_, middle, walkedBefore, isFound⟩
  have updating := MultiModalReceiverCache.updateFeatures_eq itemSize before
    (pair.receiver.touchAll (features.map cacheKey))
  rw [walkedBefore] at updating
  exact ⟨_, middle, updating, isFound⟩

instance (cache : MultiModalProcessorSenderCache U) (inputs : ProcessorInputs I U)
    (accepted : Bool) : Decidable (Mirrors itemSize cache inputs accepted) :=
  decidable_of_iff
    ((accepted = true \/ inputs.entries.isEmpty = true) /\
      argsortMmPositions inputs.mmPlaceholders = inputs.entries.map ItemEntry.place /\
      (∀ entry ∈ inputs.entries, entry.item.mmHash ≠ "" \/ inputs.loraName = none) /\
      (((inputs.entries.map (fun entry => entry.item.mmHash)).dedup).map
        (itemCost itemSize cache inputs.entries)).sum <= cache.maxsize)
    ⟨fun holds => ⟨holds.1.imp id isEmpty_iff.mp, holds.2.1, holds.2.2.1, holds.2.2.2⟩,
      fun holds => ⟨holds.kept.imp id isEmpty_iff.mpr, holds.inOrder, holds.named,
        holds.fits⟩⟩

instance (pair : CachePair I U) : (event : Event I U) -> Decidable (pair.Fits itemSize event)
  | .submit inputs accepted =>
    inferInstanceAs (Decidable ((∀ entry ∈ inputs.entries,
      pair.sender.contains entry.item.mmHash = true \/ entry.item.data.isSome) ->
        Mirrors itemSize pair.sender inputs accepted))
  | .receive => .isTrue trivial

variable (maxsize : Nat)

/-- Two empty caches with room for items of some total size. -/
def fresh : CachePair Nat Unit where
  sender := ⟨maxsize, Dict.empty, []⟩
  channel := []
  receiver := ⟨maxsize, Dict.empty, []⟩

theorem fresh_starts : (fresh maxsize).Starts := ⟨rfl, rfl, rfl, rfl, rfl, rfl⟩

/-- Items of size one that are named by their hashes. -/
def unitItems (items : List (String × Nat)) : List (MultiModalDataItem Nat Unit) :=
  items.map (fun item => ⟨item.1, some (1, [])⟩)

/-- A dictionary with an entry for images and then one for sounds. -/
def byModality {V : Type} (images sounds : V) : Dict String V :=
  (Dict.empty.set "image" images).set "audio" sounds

/-- A request with images and sounds at some places of its prompt. -/
def imagesAndSounds (images sounds : List (String × Nat)) : Event Nat Unit :=
  .submit ⟨byModality (unitItems images) (unitItems sounds),
    byModality (images.map Prod.snd) (sounds.map Prod.snd), none⟩ true

def nextWhere (pair : CachePair Nat Unit) (event : Event Nat Unit) : Option (CachePair Nat Unit) :=
  if pair.Fits id event then (pair.next id event).toOption else none

/-- The sound is sent without data while the image before it is replaced, and the
engine finds it although it is one request behind. -/
theorem caches_mirrored_sound :
    ∃ pair, System.run nextWhere [imagesAndSounds [("a", 1)] [("b", 5)], .receive,
        imagesAndSounds [("c", 1)] [], imagesAndSounds [] [("b", 1)], .receive] (fresh 2) =
          some pair /\
      pair.channel.map (List.map MultiModalFeatureSpec.data) = [[none]] /\
      ∃ after, pair.next id .receive = .ok after := by
  have ran : (System.run nextWhere [imagesAndSounds [("a", 1)] [("b", 5)], .receive,
      imagesAndSounds [("c", 1)] [], imagesAndSounds [] [("b", 1)], .receive] (fresh 2)).map
        (fun pair => pair.channel.map (List.map data)) = some [[none]] := by
    decide +kernel
  rcases Option.map_eq_some_iff.mp ran with ⟨pair, isPair, channel⟩
  have reachable : ((system id).restrict (Fits id)).Reachable pair := by
    refine System.Reachable.run_where ?_ (.start (fresh_starts 2)) isPair
    exact fun _ _ _ fits isNext => ⟨fits, isNext⟩
  exact ⟨pair, isPair, channel, (caches_mirrored reachable).1 .receive trivial⟩

/-- The sound stands before the image in the prompt, so that the engine touches
them in the other order and removes the other one. -/
theorem interleaved_items_diverge :
    ∃ pair, (system (U := Unit) id).Reachable pair /\
      pair.channel.map (List.map MultiModalFeatureSpec.data) = [[none]] /\
      pair.next id .receive = .error .expectedCachedItem := by
  have ran : (System.run (fun pair event => (CachePair.next id pair event).toOption)
      [imagesAndSounds [("a", 5)] [("b", 1)], .receive, imagesAndSounds [("c", 1)] [], .receive,
        imagesAndSounds [] [("b", 1)]] (fresh 2)).map (fun pair =>
          (pair.channel.map (List.map data),
            match pair.next id .receive with
            | .error error => some error
            | .ok _ => none)) = some ([[none]], some .expectedCachedItem) := by
    decide +kernel
  rcases Option.map_eq_some_iff.mp ran with ⟨pair, isPair, facts⟩
  rcases Prod.mk.inj facts with ⟨channel, fails⟩
  refine ⟨pair, ?_, channel, ?_⟩
  · refine System.Reachable.run ?_ (.start (fresh_starts 2)) isPair
    exact fun _ _ _ => System.ok_of_toOption
  cases isNext : pair.next id .receive with
  | error error =>
    rw [isNext] at fails
    exact congrArg Except.error (Option.some_inj.mp fails)
  | ok after =>
    rw [isNext] at fails
    cases fails

end CachePair

end Vllm.Multimodal
