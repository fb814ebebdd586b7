import Vllm.Sched.Request

namespace Vllm.Sched

open Foundation
open KVCache (RequestId)

/-!
# The encoder cache as the scheduler sees it

Encoder outputs of multi-modal items are cached by the identifier of the item.
The scheduler keeps track of which requests refer to an entry.  An entry that
no request refers to stays cached, is listed as freeable, and is evicted only
when space is needed.  Evicted identifiers are reported to the workers with
the next step.

For encoder-decoder models nothing is shared between requests, and another
manager only counts slots.
-/

/-- The exceptions of the encoder cache managers. -/
inductive EncoderCacheError where
  | missingKey (mmHash : String)
  | emptyFreeable
  | notEnoughSlots
  deriving DecidableEq

def Request.mmHash {H : Type} (request : Request H) (inputId : Nat) : String :=
  match request.mmFeatures[inputId]? with
  | none => ""
  | some feature => feature.identifier

/-- The manager of the outputs of the encoder.  An entry without a request stays
until its slots are needed. -/
structure EncoderCacheManager where
  cacheSize : Int
  numFreeSlots : Int
  numFreeableSlots : Int
  cached : Dict String (List RequestId)
  freeable : Dict String Nat
  freed : List String

namespace EncoderCacheManager

variable {H : Type}

def init (cacheSize : Int) : EncoderCacheManager :=
  { cacheSize := cacheSize, numFreeSlots := cacheSize, numFreeableSlots := cacheSize
    cached := Dict.empty, freeable := Dict.empty, freed := [] }

variable (manager : EncoderCacheManager)

def reset : EncoderCacheManager := init manager.cacheSize

def addReference (mmHash : String) (requestId : RequestId) : EncoderCacheManager :=
  let references := (manager.cached.get? mmHash).getD []
  { manager with
    cached := manager.cached.set mmHash
      (if requestId ∈ references then references else references ++ [requestId]) }

/-- Whether an item is cached.  If so the request refers to it from now on. -/
def checkAndUpdateCache (request : Request H) (inputId : Nat) :
    Except EncoderCacheError (Bool × EncoderCacheManager) :=
  let mmHash := request.mmHash inputId
  match manager.cached.get? mmHash with
  | none => .ok (false, manager)
  | some [] =>
    match manager.freeable.get? mmHash with
    | none => .error (.missingKey mmHash)
    | some numEncoderEmbeds =>
      let manager :=
        { manager with
          freeable := manager.freeable.erase mmHash
          numFreeableSlots := manager.numFreeableSlots - numEncoderEmbeds }
      .ok (true, manager.addReference mmHash request.requestId)
  | some (_ :: _) => .ok (true, manager.addReference mmHash request.requestId)

/-- Remove entries without a request, the oldest first, until there is room. -/
def evictUntil (numEmbeds : Int) : (fuel : Nat) -> EncoderCacheManager ->
    Except EncoderCacheError EncoderCacheManager
  | 0, manager => .ok manager
  | fuel + 1, manager =>
    if manager.numFreeSlots < numEmbeds then
      match manager.freeable.entries with
      | [] => .error .emptyFreeable
      | (mmHash, numFreeEmbeds) :: _ =>
        evictUntil numEmbeds fuel
          { manager with
            freeable := manager.freeable.erase mmHash
            cached := manager.cached.erase mmHash
            freed := manager.freed ++ [mmHash]
            numFreeSlots := manager.numFreeSlots + numFreeEmbeds }
    else
      .ok manager

/-- Whether there is room for an item, possibly after evictions. -/
def canAllocate (request : Request H) (inputId : Nat)
    (encoderComputeBudget numEmbedsToSchedule : Int) :
    Except EncoderCacheError (Bool × EncoderCacheManager) :=
  let numEmbeds : Int := request.getNumEncoderEmbeds inputId
  if encoderComputeBudget < numEmbeds then .ok (false, manager)
  else
    let numEmbeds := numEmbeds + numEmbedsToSchedule
    if numEmbeds <= manager.numFreeSlots then .ok (true, manager)
    else if manager.numFreeableSlots < numEmbeds then .ok (false, manager)
    else
      match evictUntil numEmbeds (manager.freeable.entries.length + 1) manager with
      | .error error => .error error
      | .ok manager => .ok (true, manager)

/-- Reserve slots for an input that is about to be encoded. -/
def allocate (request : Request H) (inputId : Nat) :
    Except EncoderCacheError EncoderCacheManager :=
  let numEncoderEmbeds : Int := request.getNumEncoderEmbeds inputId
  if manager.numFreeSlots < numEncoderEmbeds \/ manager.numFreeableSlots < numEncoderEmbeds then
    .error .notEnoughSlots
  else
    let manager := manager.addReference (request.mmHash inputId) request.requestId
    .ok
      { manager with
        numFreeSlots := manager.numFreeSlots - numEncoderEmbeds
        numFreeableSlots := manager.numFreeableSlots - numEncoderEmbeds }

/-- The items of a request that are cached, whether or not it refers to them. -/
def getCachedInputIds (request : Request H) : List Nat :=
  (List.range request.mmFeatures.length).filter (fun inputId =>
    manager.cached.contains (request.mmHash inputId))

/-- Drop the reference of a request to an item. -/
def freeEncoderInput (request : Request H) (inputId : Nat) : EncoderCacheManager :=
  let mmHash := request.mmHash inputId
  match manager.cached.get? mmHash with
  | none => manager
  | some [] => manager
  | some (first :: others) =>
    let references := (first :: others).filter (fun reference => reference ≠ request.requestId)
    let manager := { manager with cached := manager.cached.set mmHash references }
    if references = [] then
      let numEncoderEmbeds := request.getNumEncoderEmbeds inputId
      { manager with
        freeable := manager.freeable.set mmHash numEncoderEmbeds
        numFreeableSlots := manager.numFreeableSlots + numEncoderEmbeds }
    else
      manager

def free (request : Request H) : EncoderCacheManager :=
  (manager.getCachedInputIds request).foldl
    (fun manager inputId => manager.freeEncoderInput request inputId) manager

def getFreedMmHashes : List String × EncoderCacheManager :=
  (manager.freed, { manager with freed := [] })

end EncoderCacheManager

/-- The manager for encoder-decoder models. -/
structure EncoderDecoderCacheManager where
  cacheSize : Int
  numFreeSlots : Int
  allocated : List String
  toFree : List String

namespace EncoderDecoderCacheManager

variable {H : Type}

def init (cacheSize : Int) : EncoderDecoderCacheManager :=
  { cacheSize := cacheSize, numFreeSlots := cacheSize, allocated := [], toFree := [] }

variable (manager : EncoderDecoderCacheManager)

def reset : EncoderDecoderCacheManager := init manager.cacheSize

def canAllocate (request : Request H) (inputId : Nat)
    (encoderComputeBudget numEmbedsToSchedule : Int) : Bool :=
  let numEncoderEmbeds : Int := request.getNumEncoderEmbeds inputId
  if encoderComputeBudget < numEncoderEmbeds then false
  else decide (numEncoderEmbeds + numEmbedsToSchedule <= manager.numFreeSlots)

def allocate (request : Request H) (inputId : Nat) : EncoderDecoderCacheManager :=
  { manager with
    numFreeSlots := manager.numFreeSlots - request.getNumEncoderEmbeds inputId
    allocated := manager.allocated ++ [request.mmHash inputId] }

def freeEncoderInput (request : Request H) (inputId : Nat) : EncoderDecoderCacheManager :=
  { manager with numFreeSlots := manager.numFreeSlots + request.getNumEncoderEmbeds inputId }

def free (request : Request H) : EncoderDecoderCacheManager :=
  (List.range request.mmFeatures.length).foldl
    (fun manager inputId => manager.freeEncoderInput request inputId) manager

/-- What was allocated in a step is freed in the step after the next one. -/
def getFreedMmHashes : List String × EncoderDecoderCacheManager :=
  (manager.toFree, { manager with toFree := manager.allocated, allocated := [] })

end EncoderDecoderCacheManager

/-- The manager that a scheduler holds. -/
inductive EncoderCache where
  | decoderOnly (manager : EncoderCacheManager)
  | encoderDecoder (manager : EncoderDecoderCacheManager)

namespace EncoderCache

variable {H : Type}

def init (isEncoderDecoder : Bool) (cacheSize : Int) : EncoderCache :=
  if isEncoderDecoder then .encoderDecoder (EncoderDecoderCacheManager.init cacheSize)
  else .decoderOnly (EncoderCacheManager.init cacheSize)

variable (cache : EncoderCache)

def reset : EncoderCache :=
  match cache with
  | .decoderOnly manager => .decoderOnly manager.reset
  | .encoderDecoder manager => .encoderDecoder manager.reset

def checkAndUpdateCache (request : Request H) (inputId : Nat) :
    Except EncoderCacheError (Bool × EncoderCache) :=
  match cache with
  | .decoderOnly manager =>
    match manager.checkAndUpdateCache request inputId with
    | .error error => .error error
    | .ok (found, manager) => .ok (found, .decoderOnly manager)
  | .encoderDecoder manager => .ok (false, .encoderDecoder manager)

def canAllocate (request : Request H) (inputId : Nat)
    (encoderComputeBudget numEmbedsToSchedule : Int) :
    Except EncoderCacheError (Bool × EncoderCache) :=
  match cache with
  | .decoderOnly manager =>
    match manager.canAllocate request inputId encoderComputeBudget numEmbedsToSchedule with
    | .error error => .error error
    | .ok (fits, manager) => .ok (fits, .decoderOnly manager)
  | .encoderDecoder manager =>
    .ok (manager.canAllocate request inputId encoderComputeBudget numEmbedsToSchedule,
      .encoderDecoder manager)

def allocate (request : Request H) (inputId : Nat) : Except EncoderCacheError EncoderCache :=
  match cache with
  | .decoderOnly manager =>
    match manager.allocate request inputId with
    | .error error => .error error
    | .ok manager => .ok (.decoderOnly manager)
  | .encoderDecoder manager => .ok (.encoderDecoder (manager.allocate request inputId))

def getCachedInputIds (request : Request H) : List Nat :=
  match cache with
  | .decoderOnly manager => manager.getCachedInputIds request
  | .encoderDecoder _ => List.range request.mmFeatures.length

def freeEncoderInput (request : Request H) (inputId : Nat) : EncoderCache :=
  match cache with
  | .decoderOnly manager => .decoderOnly (manager.freeEncoderInput request inputId)
  | .encoderDecoder manager => .encoderDecoder (manager.freeEncoderInput request inputId)

def free (request : Request H) : EncoderCache :=
  match cache with
  | .decoderOnly manager => .decoderOnly (manager.free request)
  | .encoderDecoder manager => .encoderDecoder (manager.free request)

def getFreedMmHashes : List String × EncoderCache :=
  match cache with
  | .decoderOnly manager =>
    (manager.getFreedMmHashes.1, .decoderOnly manager.getFreedMmHashes.2)
  | .encoderDecoder manager =>
    (manager.getFreedMmHashes.1, .encoderDecoder manager.getFreedMmHashes.2)

end EncoderCache

end Vllm.Sched
