import Vllm.Foundation.Heap
import Vllm.Sched.Request

namespace Vllm.Sched

open Foundation Heap

/-!
# Queues of requests

A queue holds references to request objects.  With the FCFS policy it is a
double-ended queue; with the PRIORITY policy it is a heap ordered by priority,
arrival time and id.  The heap compares the fields that the objects have at
the time of a comparison, which may have changed since an object was added.
-/

/-- A reference to a request object. -/
abbrev Ref := Nat

/-- The order in which waiting requests are admitted. -/
inductive SchedulingPolicy where
  | fcfs
  | priority
  deriving DecidableEq

/-- The state of all request objects. -/
abbrev Objects (H : Type) := Ref -> Request H

/-- The order of requests: priority, arrival time, id, and the identity of the
object at last. -/
def requestLt {H : Type} (objects : Objects H) (left right : Ref) : Bool :=
  let first := objects left
  let second := objects right
  if first.priority ≠ second.priority then decide (first.priority < second.priority)
  else if first.arrivalTime ≠ second.arrivalTime then
    decide (first.arrivalTime < second.arrivalTime)
  else if first.requestId ≠ second.requestId then decide (first.requestId < second.requestId)
  else decide (left < right)

namespace RequestQueue

variable {H : Type} (policy : SchedulingPolicy) (objects : Objects H)

variable (queue requests : List Ref) (request : Ref)

/-- Add a request, in the order of arrival or of priority. -/
def addRequest : List Ref :=
  match policy with
  | .fcfs => queue ++ [request]
  | .priority => push (requestLt objects) request queue

/-- Take the first request. -/
def popRequest : Option (Ref × List Ref) :=
  match policy with
  | .fcfs =>
    match queue with
    | [] => none
    | request :: rest => some (request, rest)
  | .priority => pop (requestLt objects) queue

def peekRequest : Option Ref := queue.head?

/-- A heap has no front to prepend to. -/
def prependRequest : List Ref :=
  match policy with
  | .fcfs => request :: queue
  | .priority => push (requestLt objects) request queue

/-- The requests of another queue go to the front one after the other, so that
their order is reversed. -/
def prependRequests : List Ref :=
  match policy with
  | .fcfs => requests.foldl (fun queue request => request :: queue) queue
  | .priority =>
    (drain (requestLt objects) requests.length requests).foldl
      (fun queue request => push (requestLt objects) request queue) queue

/-- Remove requests from anywhere in the queue. -/
def removeRequests : List Ref :=
  match policy with
  | .fcfs => queue.filter (fun request => request ∉ requests)
  | .priority =>
    heapify (requestLt objects) (queue.filter (fun request => request ∉ requests))

theorem addRequest_perm : (addRequest policy objects queue request).Perm (request :: queue) := by
  cases policy with
  | fcfs => exact List.perm_append_singleton request queue
  | priority => exact push_perm _

theorem prependRequest_perm :
    (prependRequest policy objects queue request).Perm (request :: queue) := by
  cases policy with
  | fcfs => exact List.Perm.refl _
  | priority => exact push_perm _

theorem popRequest_eq_some {queue rest : List Ref} {request : Ref}
    (popped : popRequest policy objects queue = some (request, rest)) :
    peekRequest queue = some request /\ queue.Perm (request :: rest) := by
  cases policy with
  | fcfs =>
    cases queue with
    | nil => cases popped
    | cons first others =>
      cases popped
      exact ⟨rfl, List.Perm.refl _⟩
  | priority =>
    refine ⟨?_, pop_perm _ popped⟩
    exact pop_head _ popped

theorem foldl_add_perm {insert : List Ref -> Ref -> List Ref}
    (inserted : ∀ queue request, (insert queue request).Perm (request :: queue))
    (requests queue : List Ref) : (requests.foldl insert queue).Perm (requests ++ queue) := by
  induction requests generalizing queue with
  | nil => exact List.Perm.refl queue
  | cons request requests ih =>
    rw [List.foldl_cons]
    refine (ih (insert queue request)).trans ?_
    refine (List.Perm.append_left requests (inserted queue request)).trans ?_
    exact List.perm_middle

theorem prependRequests_perm :
    (prependRequests policy objects queue requests).Perm (requests ++ queue) := by
  cases policy with
  | fcfs => exact foldl_add_perm (fun _ _ => List.Perm.refl _) requests queue
  | priority =>
    refine (foldl_add_perm (fun queue request => push_perm _) _ queue).trans ?_
    exact (drain_perm _ requests (Nat.le_refl _)).append_right queue

theorem removeRequests_perm : (removeRequests policy objects queue requests).Perm
      (queue.filter (fun request => request ∉ requests)) := by
  cases policy with
  | fcfs => exact List.Perm.refl _
  | priority => exact heapify_perm _ _

end RequestQueue

end Vllm.Sched
