import Mathlib.Data.List.Chain
import Mathlib.Data.List.Nodup

namespace Vllm.Foundation

open Function List

/-!
# Doubly linked nodes

Nodes carry a link to the node before and to the node after them.  A list of
nodes is chained when each two neighbours refer to each other.  Joining two
nodes and detaching one are the writes, and the lemmas say when they keep a chain.
-/

universe u

variable {N : Type u} {others nodes : List N}

/-- The links of all nodes; `none` is a missing neighbour. -/
structure Links (N : Type u) where
  prev : N -> Option N
  next : N -> Option N

namespace Links

/-- Two nodes are neighbours in both directions. -/
def Joined (links : Links N) (left right : N) : Prop :=
  links.next left = some right /\ links.prev right = some left

variable [DecidableEq N]

/-- Make two nodes refer to each other. -/
def join (links : Links N) (left right : N) : Links N where
  prev := update links.prev right (some left)
  next := update links.next left (some right)

/-- Forget the links of a node, but not those of its neighbours to it. -/
def detach (links : Links N) (node : N) : Links N where
  prev := update links.prev node none
  next := update links.next node none

omit [DecidableEq N] in
/-- A chain reads the next link of all nodes but the last and the previous
link of all nodes but the first. -/
theorem chain_congr {links others : Links N} (chain : nodes.IsChain links.Joined)
    (next : ∀ node ∈ nodes.dropLast, others.next node = links.next node)
    (prev : ∀ node ∈ nodes.tail, others.prev node = links.prev node) :
    nodes.IsChain others.Joined := by
  induction nodes with
  | nil => exact isChain_nil
  | cons first rest ih =>
    cases rest with
    | nil => exact isChain_singleton first
    | cons second rest =>
      rw [isChain_cons_cons] at chain ⊢
      constructor
      · constructor
        · rw [next first (by simp)]
          exact chain.1.1
        rw [prev second (by simp)]
        exact chain.1.2
      apply ih chain.2
      · intro node member
        exact next node (by rw [dropLast_cons_cons]; exact mem_cons_of_mem _ member)
      intro node member
      exact prev node (by simpa using Or.inr member)

variable {links : Links N}

/-- Joining the end of one chain to the start of another gives one chain. -/
theorem chain_join {before after : List N} {left right : N}
    (beforeChain : before.IsChain links.Joined) (afterChain : after.IsChain links.Joined)
    (last : before.getLast? = some left) (first : after.head? = some right)
    (nodup : (before ++ after).Nodup) :
    (before ++ after).IsChain (links.join left right).Joined := by
  rcases List.getLast?_eq_some_iff.mp last with ⟨front, rfl⟩
  rcases List.head?_eq_some_iff.mp first with ⟨back, rfl⟩
  have apart := nodup_append.mp nodup
  have frontApart := (nodup_append.mp apart.1).2.2
  have rightApart := (nodup_cons.mp apart.2.1).1
  apply isChain_append.mpr
  refine ⟨?_, ?_, ?_⟩
  · apply chain_congr beforeChain
    · intro node member
      rw [dropLast_concat] at member
      exact update_of_ne (frontApart node member left (by simp)) _ _
    intro node member
    exact update_of_ne (apart.2.2 node (mem_of_mem_tail member) right (by simp)) _ _
  · apply chain_congr afterChain
    · intro node member
      have different := apart.2.2 left (by simp) node ((dropLast_sublist _).subset member)
      exact update_of_ne different.symm _ _
    intro node member
    have different : node ≠ right := fun same => rightApart (same ▸ member)
    exact update_of_ne different _ _
  · intro node atEnd other atStart
    rw [List.getLast?_concat, Option.mem_some_iff] at atEnd
    rw [List.head?_cons, Option.mem_some_iff] at atStart
    rw [<- atEnd, <- atStart]
    exact ⟨update_self _ _ _, update_self _ _ _⟩

theorem chain_detach {node : N} (chain : nodes.IsChain links.Joined) (outside : node ∉ nodes) :
    nodes.IsChain (links.detach node).Joined := by
  apply chain_congr chain
  · intro other member
    have different : other ≠ node := fun same => outside (same ▸ (dropLast_sublist _).subset member)
    exact update_of_ne different _ _
  intro other member
  have different : other ≠ node := fun same => outside (same ▸ mem_of_mem_tail member)
  exact update_of_ne different _ _

variable {left right node : N}

theorem join_next_of_ne (different : node ≠ left) :
    (links.join left right).next node = links.next node :=
  update_of_ne different _ _

theorem join_prev_of_ne (different : node ≠ right) :
    (links.join left right).prev node = links.prev node :=
  update_of_ne different _ _

theorem detach_of_ne {other : N} (different : other ≠ node) :
    (links.detach node).next other = links.next other /\
      (links.detach node).prev other = links.prev other :=
  ⟨update_of_ne different _ _, update_of_ne different _ _⟩

@[simp] theorem detach_self :
    (links.detach node).next node = none /\ (links.detach node).prev node = none :=
  ⟨update_self _ _ _, update_self _ _ _⟩

/-- A detached node and two joined ones do not interfere. -/
theorem detach_join (notLeft : node ≠ left) (notRight : node ≠ right) :
    (links.join left right).detach node = (links.detach node).join left right := by
  unfold join detach
  rw [update_comm notLeft, update_comm notRight]

def detachAll (links : Links N) : List N -> Links N
  | [] => links
  | node :: rest => detachAll (links.detach node) rest

theorem detachAll_of_not_mem (links : Links N) (outside : node ∉ others) :
    (links.detachAll others).next node = links.next node /\
      (links.detachAll others).prev node = links.prev node := by
  induction others generalizing links with
  | nil => exact ⟨rfl, rfl⟩
  | cons other rest ih =>
    rw [mem_cons, not_or] at outside
    rw [detachAll, (ih _ outside.2).1, (ih _ outside.2).2]
    exact detach_of_ne outside.1

theorem detachAll_of_mem (links : Links N) (member : node ∈ others) :
    (links.detachAll others).next node = none /\ (links.detachAll others).prev node = none := by
  induction others generalizing links with
  | nil => simp at member
  | cons other rest ih =>
    rw [detachAll]
    by_cases later : node ∈ rest
    · exact ih _ later
    rcases mem_cons.mp member with same | member
    · rw [(detachAll_of_not_mem _ later).1, (detachAll_of_not_mem _ later).2, same]
      exact detach_self
    · exact absurd member later

theorem chain_detachAll (chain : nodes.IsChain links.Joined) (apart : ∀ node ∈ nodes, node ∉ others) :
    nodes.IsChain (links.detachAll others).Joined := by
  apply chain_congr chain
  · intro node member
    exact (detachAll_of_not_mem _ (apart node ((dropLast_sublist _).subset member))).1
  intro node member
  exact (detachAll_of_not_mem _ (apart node (mem_of_mem_tail member))).2

end Links

end Vllm.Foundation
