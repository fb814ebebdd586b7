import Mathlib.Data.List.Perm.Basic

namespace Vllm.Foundation

open List
namespace Heap

/-!
# Binary heaps in a list

A priority queue keeps its items in a list in which the children of position
`i` are at `2 * i + 1` and `2 * i + 2`.  The keys of stored items may change
behind the back of the queue, so nothing here assumes that the list is ordered:
each result is a permutation of what went in.  The fuel of a loop is its number
of rounds, which the length of the list bounds.
-/

universe u

variable {A : Type u}

def swapAt (heap : List A) (i j : Nat) : List A :=
  match heap[i]?, heap[j]? with
  | some first, some second => (heap.set i second).set j first
  | _, _ => heap

variable (lt : A -> A -> Bool)

/-- Move the item at `pos` towards the root while it is smaller than its
parent, but not past `startPos`. -/
def siftDown (startPos : Nat) : (fuel pos : Nat) -> List A -> List A
  | 0, _, heap => heap
  | fuel + 1, pos, heap =>
    if startPos < pos then
      let parentPos := (pos - 1) / 2
      match heap[pos]?, heap[parentPos]? with
      | some item, some parent =>
        if lt item parent then siftDown startPos fuel parentPos (swapAt heap pos parentPos)
        else heap
      | _, _ => heap
    else
      heap

/-- The smaller child of a position whose left child is `childPos`. -/
def smallerChild (heap : List A) (childPos : Nat) : Nat :=
  match heap[childPos]?, heap[childPos + 1]? with
  | some left, some right => if lt left right then childPos else childPos + 1
  | _, _ => childPos

/-- Move the item at `pos` down to a leaf, each time to its smaller child. -/
def sinkToLeaf : (fuel pos : Nat) -> List A -> Nat × List A
  | 0, pos, heap => (pos, heap)
  | fuel + 1, pos, heap =>
    if 2 * pos + 1 < heap.length then
      let childPos := smallerChild lt heap (2 * pos + 1)
      sinkToLeaf fuel childPos (swapAt heap pos childPos)
    else
      (pos, heap)

/-- Bring the item at `pos` to its place among its descendants. -/
def siftUp (pos : Nat) (heap : List A) : List A :=
  let sunk := sinkToLeaf lt heap.length pos heap
  siftDown lt pos sunk.1 sunk.1 sunk.2

/-- Append an item and let it rise. -/
def push (item : A) (heap : List A) : List A :=
  siftDown lt 0 heap.length heap.length (heap ++ [item])

/-- Take the first item.  The last item replaces it and is moved down. -/
def pop (heap : List A) : Option (A × List A) :=
  match heap.getLast? with
  | none => none
  | some last =>
    match heap.dropLast with
    | [] => some (last, [])
    | first :: rest => some (first, siftUp lt 0 (last :: rest))

/-- Make a heap of any list by letting the inner nodes sink, the last one first.
-/
def heapify (heap : List A) : List A :=
  (List.range (heap.length / 2)).reverse.foldl (fun heap pos => siftUp lt pos heap) heap

/-- The items in the order in which they would be popped. -/
def drain : (fuel : Nat) -> List A -> List A
  | 0, _ => []
  | fuel + 1, heap =>
    match pop lt heap with
    | none => []
    | some (item, rest) => item :: drain fuel rest

theorem swapAt_perm (heap : List A) (i j : Nat) : (swapAt heap i j).Perm heap := by
  rw [swapAt]
  split
  case h_1 first second foundFirst foundSecond =>
    obtain ⟨inFirst, rfl⟩ := List.getElem?_eq_some_iff.mp foundFirst
    obtain ⟨inSecond, rfl⟩ := List.getElem?_eq_some_iff.mp foundSecond
    exact set_set_perm inFirst inSecond
  · exact List.Perm.refl heap

theorem siftDown_perm (startPos fuel pos : Nat) (heap : List A) :
    (siftDown lt startPos fuel pos heap).Perm heap := by
  induction fuel generalizing pos heap with
  | zero => exact List.Perm.refl heap
  | succ fuel ih =>
    rw [siftDown]
    split
    · dsimp only
      split
      · split
        · exact (ih _ _).trans (swapAt_perm heap _ _)
        · exact List.Perm.refl heap
      · exact List.Perm.refl heap
    · exact List.Perm.refl heap

theorem sinkToLeaf_perm (fuel pos : Nat) (heap : List A) :
    (sinkToLeaf lt fuel pos heap).2.Perm heap := by
  induction fuel generalizing pos heap with
  | zero => exact List.Perm.refl heap
  | succ fuel ih =>
    rw [sinkToLeaf]
    split
    · exact (ih _ _).trans (swapAt_perm heap _ _)
    · exact List.Perm.refl heap

theorem siftUp_perm (pos : Nat) (heap : List A) : (siftUp lt pos heap).Perm heap :=
  (siftDown_perm lt _ _ _ _).trans (sinkToLeaf_perm lt _ _ heap)

theorem push_perm {item : A} {heap : List A} : (push lt item heap).Perm (item :: heap) := by
  have moved := siftDown_perm lt 0 heap.length heap.length (heap ++ [item])
  exact moved.trans (perm_append_singleton item heap)

theorem pop_eq_some {heap rest : List A} {item : A} (popped : pop lt heap = some (item, rest)) :
    (heap = [item] /\ rest = []) \/
      ∃ last others, heap = item :: others ++ [last] /\ rest = siftUp lt 0 (last :: others) := by
  rw [pop] at popped
  split at popped
  · cases popped
  case h_2 last isLast =>
    have parts : heap.dropLast ++ [last] = heap :=
      dropLast_append_getLast? last (Option.mem_def.mpr isLast)
    split at popped
    case h_1 onlyOne =>
      cases popped
      exact Or.inl ⟨by rw [<- parts, onlyOne]; rfl, rfl⟩
    case h_2 first others starts =>
      cases popped
      exact Or.inr ⟨last, others, by rw [<- parts, starts], rfl⟩

theorem pop_perm {heap rest : List A} {item : A} (popped : pop lt heap = some (item, rest)) :
    heap.Perm (item :: rest) := by
  rcases pop_eq_some lt popped with ⟨rfl, rfl⟩ | ⟨last, others, rfl, rfl⟩
  · exact List.Perm.refl _
  have sifted := siftUp_perm lt 0 (last :: others)
  have moved : (others ++ [last]).Perm (last :: others) := perm_append_singleton last others
  exact List.Perm.cons item (moved.trans sifted.symm)

theorem pop_head {heap rest : List A} {item : A} (popped : pop lt heap = some (item, rest)) :
    heap.head? = some item := by
  rcases pop_eq_some lt popped with ⟨rfl, rfl⟩ | ⟨last, others, rfl, rfl⟩
  · rfl
  · rfl

theorem pop_isSome (heap : List A) (nonempty : heap ≠ []) : (pop lt heap).isSome := by
  rw [pop, List.getLast?_eq_some_getLast nonempty]
  dsimp only
  split <;> rfl

theorem heapify_perm (heap : List A) : (heapify lt heap).Perm heap := by
  have steps : ∀ (positions : List Nat) (current : List A),
      (positions.foldl (fun heap pos => siftUp lt pos heap) current).Perm current := by
    intro positions
    induction positions with
    | nil => intro current; exact List.Perm.refl current
    | cons pos positions ih =>
      intro current
      rw [foldl_cons]
      exact (ih _).trans (siftUp_perm lt pos current)
  exact steps _ heap

theorem drain_perm {fuel : Nat} (heap : List A) (enough : heap.length <= fuel) :
    (drain lt fuel heap).Perm heap := by
  induction fuel generalizing heap with
  | zero =>
    rw [eq_nil_of_length_eq_zero (Nat.le_zero.mp enough)]
    exact List.Perm.refl []
  | succ fuel ih =>
    rw [drain]
    split
    case h_1 isEmpty =>
      by_cases nonempty : heap = []
      · rw [nonempty]
      have found := pop_isSome lt heap nonempty
      rw [isEmpty] at found
      cases found
    case h_2 item rest popped =>
      have parts := pop_perm lt popped
      have size := parts.length_eq
      rw [length_cons] at size
      exact (List.Perm.cons item (ih rest (by omega))).trans parts.symm

end Heap
end Vllm.Foundation
