import Vllm.Sched.PassSteps

namespace Vllm.Sched

open Foundation Function
open KVCache (RequestId)

/-!
# Where the requests are

A census is what can be said about the places of requests without looking at
tokens or blocks: the table of requests, the status of each object, and how
often an object occurs among the running and among the waiting requests.  It
is sound if every unfinished request of the table has exactly one place, the
one that its status names, and nothing else has a place.

Moving a request of the table to another place, registering a new one, and
forgetting a finished one keep a census sound.
-/

/-- What is asked of one object. -/
structure PlacedAt (registered : Prop) (status : RequestStatus) (inRunning inWaiting : Nat) :
    Prop where
  known : inRunning + inWaiting ≠ 0 -> registered
  unfinished : inRunning + inWaiting ≠ 0 -> status.isFinished = false
  once : registered -> status.isFinished = false -> inRunning + inWaiting = 1
  running : registered -> (inRunning ≠ 0 <-> status = .running)

namespace PlacedAt

variable {registered : Prop} {status : RequestStatus} {inRunning inWaiting : Nat}

section

variable (placed : PlacedAt registered status inRunning inWaiting)
include placed

/-- A running request is in the running queue, and only there. -/
theorem of_running (isRegistered : registered) (isRunning : status = .running) :
    inRunning = 1 /\ inWaiting = 0 := by
  have once := placed.once isRegistered (by rw [isRunning]; rfl)
  have running := (placed.running isRegistered).mpr isRunning
  omega

/-- An unfinished request that does not run is among the waiting ones. -/
theorem of_waiting (isRegistered : registered) (unfinished : status.isFinished = false)
    (notRunning : status ≠ .running) : inRunning = 0 /\ inWaiting = 1 := by
  have once := placed.once isRegistered unfinished
  have running := mt (placed.running isRegistered).mp notRunning
  omega

/-- What has a place among the waiting requests is registered and does not
run. -/
theorem waits (present : inWaiting ≠ 0) :
    registered /\ status.isFinished = false /\ status ≠ .running /\ inRunning = 0 /\ inWaiting = 1 := by
  have somewhere : inRunning + inWaiting ≠ 0 := by omega
  have isRegistered := placed.known somewhere
  have unfinished := placed.unfinished somewhere
  have once := placed.once isRegistered unfinished
  have notRunning : inRunning = 0 := by omega
  refine ⟨isRegistered, unfinished, ?_, notRunning, by omega⟩
  intro isRunning
  exact (placed.running isRegistered).mpr isRunning notRunning

theorem runs (present : inRunning ≠ 0) :
    registered /\ status = .running /\ inRunning = 1 /\ inWaiting = 0 := by
  have isRegistered := placed.known (by omega)
  have isRunning := (placed.running isRegistered).mp present
  exact ⟨isRegistered, isRunning, placed.of_running isRegistered isRunning⟩

end

theorem inRunningQueue : PlacedAt True .running 1 0 where
  known _ := trivial
  unfinished _ := rfl
  once _ _ := rfl
  running _ := ⟨fun _ => rfl, fun _ => Nat.one_ne_zero⟩

theorem inWaitingQueue (unfinished : status.isFinished = false) (notRunning : status ≠ .running) :
    PlacedAt True status 0 1 where
  known _ := trivial
  unfinished _ := unfinished
  once _ _ := rfl
  running _ := ⟨fun impossible => absurd rfl impossible, fun impossible => absurd impossible notRunning⟩

theorem nowhere (finished : status.isFinished = true) : PlacedAt registered status 0 0 where
  known impossible := absurd rfl impossible
  unfinished impossible := absurd rfl impossible
  once _ unfinished := by rw [finished] at unfinished; cases unfinished
  running _ := by
    refine ⟨fun impossible => absurd rfl impossible, ?_⟩
    intro isRunning
    rw [isRunning] at finished
    cases finished

end PlacedAt

/-- What the agreement of the queues depends on.  For each object it is counted
how often it stands in the running queue and in the queues of waiting requests. -/
@[ext] structure Census where
  requestId : Ref -> RequestId
  status : Ref -> RequestStatus
  requests : Dict RequestId Ref
  numObjects : Nat
  numStreaming : Int
  inRunning : Ref -> Nat
  inWaiting : Ref -> Nat

namespace Census

/-- One for a request that waits for its next input. -/
def streams (status : RequestStatus) : Nat := (decide (status = .waitingForStreamingReq)).toNat

variable {status : RequestStatus}

theorem streams_of_ne (different : status ≠ .waitingForStreamingReq) : streams status = 0 := by
  rw [streams, decide_eq_false different]
  rfl

theorem streams_of_finished (finished : status.isFinished = true) : streams status = 0 := by
  apply streams_of_ne
  rintro rfl
  cases finished

variable {census : Census}

/-- The object is the one that the table has for its id. -/
def Registered (census : Census) (ref : Ref) : Prop :=
  census.requests.get? (census.requestId ref) = some ref

/-- The table has the objects under their own ids, each registered request is in
the queue of its status exactly once and no other object is in a queue, and the
count of sessions that wait for input is right. -/
structure Sound (census : Census) : Prop where
  known : ∀ id ref, census.requests.get? id = some ref ->
    census.requestId ref = id /\ ref < census.numObjects
  placed : ∀ ref, PlacedAt (census.Registered ref) (census.status ref) (census.inRunning ref)
    (census.inWaiting ref)
  streaming : census.numStreaming =
    (census.requests.total (fun ref => streams (census.status ref)) : Nat)

theorem Sound.registered (sound : census.Sound) {id : RequestId} {ref : Ref}
    (found : census.requests.get? id = some ref) : census.Registered ref := by
  rw [Registered, (sound.known id ref found).1]
  exact found

/-- Give a request a status and a place. -/
def place (census : Census) (ref : Ref) (status : RequestStatus) (inRunning inWaiting : Nat) :
    Census :=
  { census with
    status := update census.status ref status
    numStreaming := census.numStreaming + streams status - streams (census.status ref)
    inRunning := update census.inRunning ref inRunning
    inWaiting := update census.inWaiting ref inWaiting }

variable {inRunning inWaiting : Nat}

/-- When a census differs from another by the place of one request. -/
theorem eq_place {before after : Census} {ref : Ref} (ids : after.requestId = before.requestId)
    (requests : after.requests = before.requests)
    (numObjects : after.numObjects = before.numObjects)
    (statuses : after.status = update before.status ref status)
    (numStreaming : after.numStreaming = before.numStreaming + streams status -
      streams (before.status ref)) (running : after.inRunning ref = inRunning)
    (waiting : after.inWaiting ref = inWaiting)
    (others : ∀ other, other ≠ ref -> after.inRunning other = before.inRunning other /\
      after.inWaiting other = before.inWaiting other) :
    after = before.place ref status inRunning inWaiting := by
  apply Census.ext
  · exact ids
  · exact statuses
  · exact requests
  · exact numObjects
  · exact numStreaming
  · exact eq_update_iff.mpr ⟨running, fun other different => (others other different).1⟩
  · exact eq_update_iff.mpr ⟨waiting, fun other different => (others other different).2⟩

section

variable (sound : census.Sound)
include sound

theorem Sound.place {ref : Ref} (registered : census.Registered ref)
    (placed : PlacedAt True status inRunning inWaiting) :
    (census.place ref status inRunning inWaiting).Sound where
  known := sound.known
  placed other := by
    by_cases same : other = ref
    · subst same
      simp only [Census.place, update_self]
      exact ⟨fun _ => registered, placed.unfinished, fun _ => placed.once trivial,
        fun _ => placed.running trivial⟩
    simp only [Census.place, update_of_ne same]
    exact sound.placed other
  streaming := by
    have changed := census.requests.total_change (fun other => streams (census.status other))
      (fun other => streams (update census.status ref status other)) registered
      (fun otherKey stored different found => by
        have notRef : stored ≠ ref := by
          intro isRef
          rw [<- (sound.known otherKey stored found).1, isRef] at different
          exact different rfl
        simp only [update_of_ne notRef])
    have before := sound.streaming
    simp only [update_self] at changed
    simp only [Census.place]
    omega

/-- Enter a new object into the table. -/
def register (census : Census) (id : RequestId) (status : RequestStatus) : Census :=
  { census with
    requestId := update census.requestId census.numObjects id
    status := update census.status census.numObjects status
    requests := census.requests.set id census.numObjects
    numObjects := census.numObjects + 1
    inWaiting := update census.inWaiting census.numObjects 1 }

theorem Sound.fresh :
    census.inRunning census.numObjects = 0 /\ census.inWaiting census.numObjects = 0 := by
  have placed := sound.placed census.numObjects
  by_contra somewhere
  have registered := placed.known (by omega)
  exact Nat.lt_irrefl _ (sound.known _ _ registered).2

theorem Sound.register {id : RequestId} (unknown : census.requests.get? id = none)
    (unfinished : status.isFinished = false) (notRunning : status ≠ .running)
    (notStreaming : status ≠ .waitingForStreamingReq) :
    (census.register id status).Sound := by
  have old : ∀ otherId ref, census.requests.get? otherId = some ref ->
      otherId ≠ id /\ ref ≠ census.numObjects := by
    intro otherId ref found
    refine ⟨?_, Nat.ne_of_lt (sound.known otherId ref found).2⟩
    intro same
    rw [same, unknown] at found
    cases found
  constructor
  · intro otherId ref found
    simp only [Census.register, Dict.get?_set] at found ⊢
    split at found
    case isTrue same =>
      cases found
      rw [update_self]
      exact ⟨same.symm, Nat.lt_succ_self _⟩
    case isFalse different =>
      have before := sound.known otherId ref found
      rw [update_of_ne (old otherId ref found).2]
      exact ⟨before.1, Nat.lt_succ_of_lt before.2⟩
  · intro ref
    by_cases same : ref = census.numObjects
    · subst same
      have registered : (census.register id status).Registered census.numObjects := by
        simp only [Registered, Census.register, update_self, Dict.get?_set_self]
      simp only [Census.register, update_self, sound.fresh.1]
      exact ⟨fun _ => registered, fun _ => unfinished, fun _ _ => rfl,
        fun _ => ⟨fun impossible => absurd rfl impossible,
          fun impossible => absurd impossible notRunning⟩⟩
    have placed := sound.placed ref
    have registeredBefore : (census.register id status).Registered ref ->
        census.Registered ref := by
      intro registered
      simp only [Registered, Census.register, update_of_ne same, Dict.get?_set]
        at registered
      split at registered
      · exact absurd (Option.some.inj registered).symm same
      · exact registered
    have registeredAfter : census.Registered ref ->
        (census.register id status).Registered ref := by
      intro registered
      simp only [Registered, Census.register, update_of_ne same]
      rw [Dict.get?_set_of_ne _ _ (old _ ref registered).1]
      exact registered
    simp only [Census.register, update_of_ne same]
    exact ⟨fun present => registeredAfter (placed.known present), placed.unfinished,
      fun registered => placed.once (registeredBefore registered),
      fun registered => placed.running (registeredBefore registered)⟩
  have added := census.requests.total_set
    (fun ref => streams (update census.status census.numObjects status ref)) id
    census.numObjects
  have rest : census.requests.total
      (fun ref => streams (update census.status census.numObjects status ref)) =
        census.requests.total (fun ref => streams (census.status ref)) := by
    apply Dict.total_congr
    intro otherId ref found
    rw [update_of_ne (old otherId ref found).2]
  have nothing : census.requests.weigh
      (fun ref => streams (update census.status census.numObjects status ref)) id = 0 := by
    rw [Dict.weigh, unknown]
    rfl
  simp only [update_self, streams_of_ne notStreaming] at added
  have before := sound.streaming
  simp only [Census.register]
  omega

/-- Take a request out of the table. -/
def forget (census : Census) (ref : Ref) : Census :=
  { census with requests := census.requests.erase (census.requestId ref) }

theorem Sound.forget {ref : Ref} (registered : census.Registered ref)
    (finished : (census.status ref).isFinished = true) :
    (census.forget ref).Sound := by
  constructor
  · intro id other found
    simp only [Census.forget, Dict.get?_erase] at found
    split at found
    · cases found
    · exact sound.known id other found
  · intro other
    have placed := sound.placed other
    have sameId : census.requestId other = census.requestId ref -> census.Registered other ->
        other = ref := by
      intro same stored
      rw [Registered, same, registered] at stored
      exact (Option.some.inj stored).symm
    have registeredBefore : (census.forget ref).Registered other -> census.Registered other := by
      intro stored
      simp only [Registered, Census.forget, Dict.get?_erase] at stored
      split at stored
      · cases stored
      · exact stored
    refine ⟨?_, placed.unfinished, fun stored => placed.once (registeredBefore stored),
      fun stored => placed.running (registeredBefore stored)⟩
    intro present
    have stored := placed.known present
    have unfinished := placed.unfinished present
    simp only [Registered, Census.forget, Dict.get?_erase]
    split
    case isTrue same =>
      rw [sameId same stored, finished] at unfinished
      cases unfinished
    · exact stored
  have removed := census.requests.total_erase (fun other => streams (census.status other))
    (census.requestId ref)
  rw [census.requests.weigh_of_found _ registered] at removed
  rw [streams_of_finished finished] at removed
  have before := sound.streaming
  simp only [Census.forget]
  omega

end

end Census

end Vllm.Sched
