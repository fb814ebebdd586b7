import Vllm.Foundation.Links
import Vllm.Foundation.System

namespace Vllm.KVCache

open Foundation Links

/-!
# The queue of free blocks

The free blocks form a doubly linked list through link fields of the blocks
themselves, between a fake head and a fake tail.  The operations write the links
in the order of the source.  `Represents queue blocks` says that the links from
the fake head visit exactly `blocks` and end at the fake tail, that the stored
count is the length of the list, and that no other block has a link.
-/

/-- A block is named by its position in the pool. -/
abbrev BlockId := Nat

/-- The real blocks and the two sentinels of the list. -/
inductive Node where
  | fakeHead
  | fakeTail
  | block (blockId : BlockId)
  deriving DecidableEq

open Node

/-- The exceptions and failed assertions of the queue. -/
inductive QueueError where
  | outOfSync (numFreeBlocks : Int)
  | noFreeBlocks
  | invalidBlock
  | tailMissing
  deriving DecidableEq

/-- The queue of free blocks: the links of the blocks and of two sentinels, and a
count. The count can become negative or wrong if the queue is misused. -/
structure FreeKVCacheBlockQueue where
  links : Links Node
  numFreeBlocks : Int

namespace FreeKVCacheBlockQueue

/-- Append blocks one after the other.  The result has the last of them. -/
def joinAll (links : Links Node) (lastBlock : Node) : List BlockId -> Links Node × Node
  | [] => (links, lastBlock)
  | blockId :: rest => joinAll (links.join lastBlock (.block blockId)) (.block blockId) rest

/-- Freshly created blocks have no links. -/
def noLinks : Links Node := ⟨fun _ => none, fun _ => none⟩

variable (queue : FreeKVCacheBlockQueue) (blocks : List BlockId)

/-- The queue over the given blocks, in their order. -/
def init : FreeKVCacheBlockQueue :=
  let joined := joinAll noLinks .fakeHead blocks
  { links := joined.1.join joined.2 .fakeTail
    numFreeBlocks := blocks.length }

/-- Pop the first block.  The errors are the two exceptions of the source. -/
def popleft : Except QueueError (BlockId × FreeKVCacheBlockQueue) :=
  match queue.links.next .fakeHead with
  | some (.block firstBlock) =>
    match queue.links.next (.block firstBlock) with
    | none => .error .invalidBlock
    | some second =>
      .ok (firstBlock,
        { links := (queue.links.join .fakeHead second).detach (.block firstBlock)
          numFreeBlocks := queue.numFreeBlocks - 1 })
  | _ =>
    if queue.numFreeBlocks = 0 then .error .noFreeBlocks
    else .error (.outOfSync queue.numFreeBlocks)

/-- The loop of `popleftN`: collect blocks from the current node on and clear
their links.

A sentinel in the place of a block is reported as an error.  The source would
return the fake tail like a block, and fail only in the round after it.  The
difference does not show as long as the count of free blocks is the length of
the list, since `popleftN` tests the count first. -/
def popLoop : Nat -> Option Node -> Links Node ->
    Except QueueError (List BlockId × Option Node × Links Node)
  | 0, currBlock, links => .ok ([], currBlock, links)
  | n + 1, some (.block blockId), links =>
    match popLoop n (links.next (.block blockId)) (links.detach (.block blockId)) with
    | .error error => .error error
    | .ok (popped, currBlock, links) => .ok (blockId :: popped, currBlock, links)
  | _ + 1, _, _ => .error .invalidBlock

/-- Pop the first `n` blocks.  For a negative `n` the source pops nothing but
still subtracts `n` from the count. -/
def popleftN (n : Int) : Except QueueError (List BlockId × FreeKVCacheBlockQueue) :=
  if n = 0 then .ok ([], queue)
  else if queue.numFreeBlocks < n then .error (.outOfSync queue.numFreeBlocks)
  else
    match popLoop n.toNat (queue.links.next .fakeHead) queue.links with
    | .error error => .error error
    | .ok (popped, currBlock, links) =>
      .ok (popped,
        { links :=
            match currBlock with
            | none => links
            | some node => links.join .fakeHead node
          numFreeBlocks := queue.numFreeBlocks - n })

/-- Take a block out of the middle of the queue. -/
def remove (blockId : BlockId) : Except QueueError FreeKVCacheBlockQueue :=
  match queue.links.prev (.block blockId), queue.links.next (.block blockId) with
  | some before, some after =>
    .ok
      { links := (queue.links.join before after).detach (.block blockId)
        numFreeBlocks := queue.numFreeBlocks - 1 }
  | _, _ => .error .invalidBlock

/-- Put blocks at the end of the queue, in this order. -/
def appendN : Except QueueError FreeKVCacheBlockQueue :=
  if blocks.isEmpty then .ok queue
  else
    match queue.links.prev .fakeTail with
    | none => .error .tailMissing
    | some lastBlock =>
      let joined := joinAll queue.links lastBlock blocks
      .ok
        { links := joined.1.join joined.2 .fakeTail
          numFreeBlocks := queue.numFreeBlocks + blocks.length }

/-- Follow the links until a node has no successor, which is the fake tail. -/
def walk (links : Links Node) : (fuel : Nat) -> Node -> List BlockId
  | 0, _ => []
  | fuel + 1, currBlock =>
    match currBlock, links.next currBlock with
    | .block blockId, some next => blockId :: walk links fuel next
    | _, _ => []

/-- The blocks of the queue in order.

The loop of the source has no counter: it stops at the node without a
successor, which is the fake tail.  The walk here makes as many rounds as the
count of free blocks says.  `walk_eq` shows that this is no difference as long as
the count is not too small: more rounds than there are blocks read the same. -/
def getAllFreeBlocks : List BlockId :=
  match queue.links.next .fakeHead with
  | none => []
  | some first => walk queue.links queue.numFreeBlocks.toNat first

/-- The nodes of a queue over the given blocks, sentinels included. -/
def nodes : List Node :=
  .fakeHead :: (blocks.map block ++ [.fakeTail])

/-- The queue is a well-formed doubly linked list of exactly these blocks. -/
structure Represents (queue : FreeKVCacheBlockQueue) (blocks : List BlockId) : Prop where
  nodup : blocks.Nodup
  count : queue.numFreeBlocks = blocks.length
  linked : (nodes blocks).IsChain queue.links.Joined
  ends : queue.links.prev .fakeHead = none /\ queue.links.next .fakeTail = none
  outside : ∀ blockId, blockId ∉ blocks ->
    queue.links.prev (.block blockId) = none /\ queue.links.next (.block blockId) = none

open List

theorem block_injective : Function.Injective block := fun _ _ same => by
  injection same

variable {blocks} {links : Links Node} {queue} {lastBlock node : Node} {blockId : BlockId}

theorem map_block_nodup (nodup : blocks.Nodup) : (blocks.map block).Nodup :=
  nodup.map block_injective

theorem nodes_nodup (nodup : blocks.Nodup) : (nodes blocks).Nodup := by
  rw [nodes, nodup_cons]
  refine ⟨by simp, ?_⟩
  refine nodup_append.mpr ⟨map_block_nodup nodup, nodup_singleton _, ?_⟩
  intro node member other last
  rcases mem_map.mp member with ⟨blockId, -, rfl⟩
  rw [mem_singleton.mp last]
  exact Node.noConfusion

/-- Joining blocks one after another extends the chain by all of them. -/
theorem joinAll_chain {before : List Node} (chain : before.IsChain links.Joined)
    (last : before.getLast? = some lastBlock) (nodup : (before ++ blocks.map block).Nodup) :
    (before ++ blocks.map block).IsChain (joinAll links lastBlock blocks).1.Joined /\
      (before ++ blocks.map block).getLast? = some (joinAll links lastBlock blocks).2 := by
  induction blocks generalizing links before lastBlock with
  | nil =>
    rw [map_nil, append_nil]
    exact ⟨chain, last⟩
  | cons blockId rest ih =>
    have shape : before ++ (blockId :: rest).map block =
        (before ++ [block blockId]) ++ rest.map block := by simp
    rw [shape] at nodup ⊢
    have joined : (before ++ [block blockId]).IsChain
        (links.join lastBlock (.block blockId)).Joined :=
      chain_join chain (isChain_singleton _) last rfl (nodup_append.mp nodup).1
    exact ih joined List.getLast?_concat nodup

/-- Nodes that take no part in the joining keep their links. -/
theorem joinAll_frame (links : Links Node) (notLast : node ≠ lastBlock)
    (notBlock : node ∉ blocks.map block) :
    (joinAll links lastBlock blocks).1.next node = links.next node /\
      (joinAll links lastBlock blocks).1.prev node = links.prev node := by
  induction blocks generalizing links lastBlock with
  | nil => exact ⟨rfl, rfl⟩
  | cons blockId rest ih =>
    rw [map_cons, mem_cons, not_or] at notBlock
    have later := ih (links.join lastBlock (.block blockId)) notBlock.1 notBlock.2
    rw [joinAll, later.1, later.2]
    exact ⟨join_next_of_ne notLast, join_prev_of_ne notBlock.1⟩

/-- The previous link of a node that is not joined is kept, even at the start. -/
theorem joinAll_prev (notBlock : node ∉ blocks.map block) :
    (joinAll links lastBlock blocks).1.prev node = links.prev node := by
  induction blocks generalizing links lastBlock with
  | nil => rfl
  | cons blockId rest ih =>
    rw [map_cons, mem_cons, not_or] at notBlock
    rw [joinAll, ih notBlock.2]
    exact join_prev_of_ne notBlock.1

theorem init_represents (nodup : blocks.Nodup) : Represents (init blocks) blocks := by
  have headNodup : ([fakeHead] ++ blocks.map block).Nodup := by
    rw [singleton_append, nodup_cons]
    exact ⟨by simp, map_block_nodup nodup⟩
  have joined : ([fakeHead] ++ blocks.map block).IsChain
      (joinAll noLinks .fakeHead blocks).1.Joined /\ _ :=
    joinAll_chain (isChain_singleton fakeHead) rfl headNodup
  have lastNode := mem_of_getLast? joined.2
  have lastIsNode : ∀ node, node ∉ [fakeHead] ++ blocks.map block ->
      node ≠ (joinAll noLinks .fakeHead blocks).2 := by
    intro node absent same
    exact absent (same ▸ lastNode)
  refine ⟨nodup, rfl, ?_, ⟨?_, ?_⟩, ?_⟩
  · change (fakeHead :: (blocks.map block ++ [fakeTail])).IsChain _
    rw [<- cons_append]
    apply chain_join joined.1 (isChain_singleton fakeTail) joined.2 rfl
    exact nodes_nodup nodup
  · change ((joinAll noLinks .fakeHead blocks).1.join _ _).prev _ = _
    rw [join_prev_of_ne (by decide), joinAll_prev (by simp)]
    rfl
  · change ((joinAll noLinks .fakeHead blocks).1.join _ _).next _ = _
    rw [join_next_of_ne (lastIsNode _ (by simp)), (joinAll_frame _ (by decide) (by simp)).1]
    rfl
  intro blockId absent
  have notBlock : block blockId ∉ blocks.map block := by simpa using absent
  constructor
  · change ((joinAll noLinks .fakeHead blocks).1.join _ _).prev _ = _
    rw [join_prev_of_ne (by simp), joinAll_prev notBlock]
    rfl
  change ((joinAll noLinks .fakeHead blocks).1.join _ _).next _ = _
  rw [join_next_of_ne (lastIsNode _ (by simpa using absent)),
    (joinAll_frame _ (by simp) notBlock).1]
  rfl

/-- What the links of a represented queue say about the first nodes. -/
theorem Represents.next_head (represents : Represents queue blocks) :
    queue.links.next .fakeHead = (blocks.map block ++ [fakeTail]).head? := by
  have linked := represents.linked
  rw [nodes] at linked
  cases blocks with
  | nil => exact (isChain_cons_cons.mp linked).1.1
  | cons first rest => exact (isChain_cons_cons.mp linked).1.1

theorem Represents.prev_tail (represents : Represents queue blocks) :
    queue.links.prev .fakeTail = (fakeHead :: blocks.map block).getLast? := by
  have linked := represents.linked
  rw [nodes, <- cons_append, isChain_append] at linked
  rcases exists_last : (fakeHead :: blocks.map block).getLast? with _ | last
  · simp at exists_last
  · exact (linked.2.2 last exists_last .fakeTail rfl).2

theorem Represents.around {before after : List BlockId}
    (represents : Represents queue (before ++ blockId :: after)) :
    queue.links.prev (.block blockId) = (fakeHead :: before.map block).getLast? /\
      queue.links.next (.block blockId) = (after.map block ++ [fakeTail]).head? := by
  have linked := represents.linked
  have shape : nodes (before ++ blockId :: after) =
      (fakeHead :: before.map block) ++
        (block blockId :: (after.map block ++ [.fakeTail])) := by
    simp [nodes]
  rw [shape, isChain_append] at linked
  constructor
  · rcases exists_last : (fakeHead :: before.map block).getLast? with _ | last
    · simp at exists_last
    · exact (linked.2.2 last exists_last _ rfl).2
  cases after with
  | nil => exact (isChain_cons_cons.mp linked.2.1).1.1
  | cons first rest => exact (isChain_cons_cons.mp linked.2.1).1.1

/-- Cutting a stretch of blocks out and joining its neighbours leaves a queue
of the remaining blocks. -/
theorem Represents.splice {before middle after : List BlockId}
    (represents : Represents queue (before ++ middle ++ after)) {left right : Node}
    (last : (fakeHead :: before.map block).getLast? = some left)
    (first : (after.map block ++ [fakeTail]).head? = some right) :
    Represents
      { links := (queue.links.detachAll (middle.map block)).join left right
        numFreeBlocks := queue.numFreeBlocks - middle.length }
      (before ++ after) := by
  have nodup := represents.nodup
  have parts := nodup_append.mp nodup
  have beforeMiddle := (nodup_append.mp parts.1).2.2
  have kept : (before ++ after).Nodup := by
    refine nodup_append.mpr ⟨(nodup_append.mp parts.1).1, parts.2.1, ?_⟩
    intro blockId early other late
    exact parts.2.2 blockId (mem_append_left _ early) other late
  have linked := represents.linked
  have shape : nodes (before ++ middle ++ after) =
      (fakeHead :: before.map block) ++ middle.map block ++
        (after.map block ++ [.fakeTail]) := by
    simp [nodes]
  rw [shape] at linked
  have leftMember := mem_of_getLast? last
  have rightMember := mem_of_head? first
  have beforeApart : ∀ node ∈ fakeHead :: before.map block,
      node ∉ middle.map block := by
    intro node member inside
    rcases mem_map.mp inside with ⟨blockId, inMiddle, rfl⟩
    simp only [mem_cons, reduceCtorEq, mem_map, block.injEq, exists_eq_right,
      false_or] at member
    exact beforeMiddle blockId member blockId inMiddle rfl
  have afterApart : ∀ node ∈ after.map block ++ [fakeTail],
      node ∉ middle.map block := by
    intro node member inside
    rcases mem_map.mp inside with ⟨blockId, inMiddle, rfl⟩
    simp only [mem_append, mem_map, block.injEq, exists_eq_right, mem_cons,
      reduceCtorEq, not_mem_nil, or_false] at member
    exact parts.2.2 blockId (mem_append_right _ inMiddle) blockId member rfl
  refine ⟨kept, ?_, ?_, ⟨?_, ?_⟩, ?_⟩
  · rw [represents.count]
    simp only [length_append]
    omega
  · have joined := chain_join
      (chain_detachAll linked.left_of_append.left_of_append beforeApart)
      (chain_detachAll linked.right_of_append afterApart) last first
      (by simpa [nodes] using nodes_nodup kept)
    simpa [nodes] using joined
  · have notRight : fakeHead ≠ right := by
      intro same
      rw [<- same] at rightMember
      simp at rightMember
    rw [join_prev_of_ne notRight, (detachAll_of_not_mem _ (by simp)).2]
    exact represents.ends.1
  · have notLeft : fakeTail ≠ left := by
      intro same
      rw [<- same] at leftMember
      simp at leftMember
    rw [join_next_of_ne notLeft, (detachAll_of_not_mem _ (by simp)).1]
    exact represents.ends.2
  intro blockId absent
  rw [mem_append, not_or] at absent
  have notRight : block blockId ≠ right := by
    intro same
    rw [<- same] at rightMember
    simp [absent.2] at rightMember
  have notLeft : block blockId ≠ left := by
    intro same
    rw [<- same] at leftMember
    simp [absent.1] at leftMember
  rw [join_prev_of_ne notRight, join_next_of_ne notLeft]
  by_cases cut : blockId ∈ middle
  · have detached := detachAll_of_mem queue.links
      (mem_map_of_mem (f := block) cut)
    exact ⟨detached.2, detached.1⟩
  have untouched := detachAll_of_not_mem queue.links
    (show block blockId ∉ middle.map block by simpa using cut)
  rw [untouched.1, untouched.2]
  exact represents.outside blockId (by simp [absent, cut])

theorem remove_represents (represents : Represents queue blocks) (member : blockId ∈ blocks) :
    ∃ after, queue.remove blockId = .ok after /\ Represents after (blocks.erase blockId) := by
  rcases append_of_mem member with ⟨before, after, rfl⟩
  have nodup := represents.nodup
  have absent : blockId ∉ before := fun early =>
    (nodup_append.mp nodup).2.2 blockId early blockId (mem_cons_self) rfl
  have erased : (before ++ blockId :: after).erase blockId = before ++ after := by
    rw [erase_append_right _ absent, erase_cons_head]
  have links := represents.around
  rcases last : (fakeHead :: before.map block).getLast? with _ | left
  · simp at last
  rcases first : (after.map block ++ [fakeTail]).head? with _ | right
  · simp at first
  rw [last, first] at links
  have middle : Represents queue (before ++ [blockId] ++ after) := by simpa using represents
  have spliced := middle.splice last first
  have notLeft : block blockId ≠ left := by
    intro same
    have inside := mem_of_getLast? last
    rw [<- same] at inside
    simp [absent] at inside
  have notRight : block blockId ≠ right := by
    intro same
    have inside := mem_of_head? first
    rw [<- same] at inside
    have later := (nodup_cons.mp (nodup_append.mp nodup).2.1).1
    simp [later] at inside
  refine ⟨_, by rw [remove, links.1, links.2], ?_⟩
  rw [erased]
  simpa [detach_join notLeft notRight, detachAll] using spliced

theorem popleft_represents {first : BlockId} (represents : Represents queue (first :: blocks)) :
    ∃ after, queue.popleft = .ok (first, after) /\ Represents after blocks := by
  have head : queue.links.next .fakeHead = some (.block first) := represents.next_head
  have middle : Represents queue ([] ++ [first] ++ blocks) := represents
  have around : queue.links.prev (.block first) = some .fakeHead /\ _ :=
    Represents.around (show Represents queue ([] ++ first :: blocks) from represents)
  rcases start : (blocks.map block ++ [fakeTail]).head? with _ | second
  · simp at start
  rw [start] at around
  have spliced := middle.splice (show [fakeHead].getLast? = some .fakeHead from rfl) start
  have notSecond : block first ≠ second := by
    intro same
    have inside := mem_of_head? start
    rw [<- same] at inside
    simp [(nodup_cons.mp represents.nodup).1] at inside
  refine ⟨⟨(queue.links.join .fakeHead second).detach (.block first), queue.numFreeBlocks - 1⟩,
    ?_, ?_⟩
  · simp only [popleft, head, around.2]
  simpa [detach_join (show block first ≠ .fakeHead by simp) notSecond,
    detachAll] using spliced

/-- The loop collects the first blocks and stops at the node after them. -/
theorem popLoop_eq {rest : List Node} (chain : (blocks.map block ++ rest).IsChain links.Joined)
    (nodup : (blocks.map block ++ rest).Nodup) (nonempty : rest ≠ []) :
    popLoop blocks.length (blocks.map block ++ rest).head? links =
      .ok (blocks, rest.head?, links.detachAll (blocks.map block)) := by
  induction blocks generalizing links with
  | nil => rfl
  | cons blockId blocks ih =>
    rw [map_cons, cons_append] at chain nodup ⊢
    have parts := nodup_cons.mp nodup
    have later : links.next (.block blockId) = (blocks.map block ++ rest).head? := by
      cases start : blocks.map block ++ rest with
      | nil => simp [nonempty] at start
      | cons second others =>
        rw [start] at chain
        exact (isChain_cons_cons.mp chain).1.1
    have step := ih (chain_detach chain.tail parts.1) parts.2
    rw [List.head?_cons, length_cons, popLoop, later, step]
    rfl

theorem popleftN_represents {popped : List BlockId}
    (represents : Represents queue (popped ++ blocks)) :
    ∃ after, queue.popleftN popped.length = .ok (popped, after) /\ Represents after blocks := by
  by_cases none_popped : popped = []
  · subst none_popped
    exact ⟨queue, by simp [popleftN], represents⟩
  have positive : 0 < popped.length := length_pos_iff.mpr none_popped
  have enough : ¬ queue.numFreeBlocks < (popped.length : Int) := by
    rw [represents.count, length_append]
    omega
  have linked := represents.linked
  have allNodes : nodes (popped ++ blocks) =
      .fakeHead :: (popped.map block ++ (blocks.map block ++ [.fakeTail])) := by
    simp [nodes]
  have nodup := nodes_nodup represents.nodup
  rw [allNodes] at linked nodup
  have head : queue.links.next .fakeHead =
      (popped.map block ++ (blocks.map block ++ [fakeTail])).head? := by
    rw [represents.next_head]
    simp
  rcases start : (blocks.map block ++ [fakeTail]).head? with _ | second
  · simp at start
  have loop := popLoop_eq linked.tail (nodup_cons.mp nodup).2 (by simp)
  have middle : Represents queue ([] ++ popped ++ blocks) := represents
  have spliced := middle.splice (show [fakeHead].getLast? = some .fakeHead from rfl) start
  refine ⟨_, ?_, spliced⟩
  have different : ¬ (popped.length : Int) = 0 := by omega
  rw [popleftN, if_neg different, if_neg enough, head, Int.toNat_natCast, loop, start]

theorem appendN_represents {added : List BlockId} (represents : Represents queue blocks)
    (nodup : (blocks ++ added).Nodup) :
    ∃ after, queue.appendN added = .ok after /\ Represents after (blocks ++ added) := by
  by_cases none_added : added = []
  · subst none_added
    exact ⟨queue, by simp [appendN], by simpa using represents⟩
  have linked := represents.linked
  rw [nodes, <- cons_append] at linked
  have tail := represents.prev_tail
  rcases last : (fakeHead :: blocks.map block).getLast? with _ | lastBlock
  · simp at last
  rw [last] at tail
  have allNodup := nodes_nodup nodup
  have shape : nodes (blocks ++ added) =
      ((fakeHead :: blocks.map block) ++ added.map block) ++ [.fakeTail] := by
    simp [nodes]
  rw [shape] at allNodup
  have joined := joinAll_chain linked.left_of_append last (nodup_append.mp allNodup).1
  have lastNode := mem_of_getLast? joined.2
  have oldLast := mem_of_getLast? last
  have notTail : fakeTail ≠ (joinAll queue.links lastBlock added).2 := by
    intro same
    rw [<- same] at lastNode
    simp at lastNode
  refine ⟨_, by rw [appendN, if_neg (by simpa using none_added), tail], nodup, ?_, ?_, ⟨?_, ?_⟩, ?_⟩
  · simp [represents.count]
  · rw [shape]
    exact chain_join joined.1 (isChain_singleton _) joined.2 rfl allNodup
  · rw [join_prev_of_ne (by decide), joinAll_prev (by simp)]
    exact represents.ends.1
  · have oldNotTail : fakeTail ≠ lastBlock := by
      intro same
      rw [<- same] at oldLast
      simp at oldLast
    rw [join_next_of_ne notTail, (joinAll_frame _ oldNotTail (by simp)).1]
    exact represents.ends.2
  intro blockId absent
  rw [mem_append, not_or] at absent
  have notAdded : block blockId ∉ added.map block := by simpa using absent.2
  have notLast : block blockId ≠ (joinAll queue.links lastBlock added).2 := by
    intro same
    rw [<- same] at lastNode
    simp [absent] at lastNode
  have notOldLast : block blockId ≠ lastBlock := by
    intro same
    rw [<- same] at oldLast
    simp [absent.1] at oldLast
  have framed := joinAll_frame queue.links notOldLast notAdded
  rw [join_prev_of_ne (by simp), join_next_of_ne notLast, framed.1, framed.2]
  exact represents.outside blockId absent.1

theorem walk_fakeTail (links : Links Node) (fuel : Nat) : walk links fuel .fakeTail = [] := by
  cases fuel with
  | zero => rfl
  | succ fuel => rfl

/-- A walk over linked blocks reads all of them and stops at the fake tail,
whatever number of rounds is left then. -/
theorem walk_eq (chain : (blocks.map block ++ [fakeTail]).IsChain links.Joined)
    {first : Node} (isFirst : (blocks.map block ++ [fakeTail]).head? = some first)
    {fuel : Nat} (enough : blocks.length <= fuel) :
    walk links fuel first = blocks := by
  induction blocks generalizing first fuel with
  | nil =>
    cases isFirst
    exact walk_fakeTail links fuel
  | cons blockId blocks ih =>
    have same : first = block blockId := by simpa using isFirst.symm
    subst same
    rcases Nat.exists_eq_add_of_lt (Nat.lt_of_lt_of_le (Nat.succ_pos _) enough) with ⟨rounds, rfl⟩
    rw [Nat.zero_add] at enough ⊢
    cases start : blocks.map block ++ [fakeTail] with
    | nil => simp at start
    | cons second others =>
      rw [map_cons, cons_append, start] at chain
      have parts := isChain_cons_cons.mp chain
      have next : links.next (.block blockId) = some second := parts.1.1
      simp only [walk, next]
      rw [ih (start ▸ parts.2) (by rw [start]; rfl) (Nat.le_of_succ_le_succ enough)]

/-- Reading the queue gives the list that it stands for. -/
theorem getAllFreeBlocks_eq (represents : Represents queue blocks) :
    queue.getAllFreeBlocks = blocks := by
  have linked : (blocks.map block ++ [fakeTail]).IsChain queue.links.Joined :=
    represents.linked.tail
  unfold getAllFreeBlocks
  rw [represents.next_head, represents.count, Int.toNat_natCast]
  cases isFirst : (blocks.map block ++ [fakeTail]).head? with
  | none => simp at isFirst
  | some first => exact walk_eq linked isFirst (Nat.le_refl _)

/-- The calls that change the queue. -/
inductive QueueCall where
  | popleft
  | popleftN (n : Nat)
  | remove (blockId : BlockId)
  | appendN (blocks : List BlockId)

/-- A call, with the blocks that it returns. -/
def call (queue : FreeKVCacheBlockQueue) :
    QueueCall -> Except QueueError (List BlockId × FreeKVCacheBlockQueue)
  | .popleft => queue.popleft.map (fun result => ([result.1], result.2))
  | .popleftN n => queue.popleftN n
  | .remove blockId => (queue.remove blockId).map (fun after => ([], after))
  | .appendN blocks => (queue.appendN blocks).map (fun after => ([], after))

/-- The same call on a plain list, if the list has what is asked for. -/
def callList (blocks : List BlockId) : QueueCall -> Option (List BlockId × List BlockId)
  | .popleft => if blocks = [] then none else some (blocks.take 1, blocks.drop 1)
  | .popleftN n => if n <= blocks.length then some (blocks.take n, blocks.drop n) else none
  | .remove blockId => if blockId ∈ blocks then some ([], blocks.erase blockId) else none
  | .appendN added => if (blocks ++ added).Nodup then some ([], blocks ++ added) else none

theorem call_represents {label : QueueCall} {popped rest : List BlockId}
    (represents : Represents queue blocks) (called : callList blocks label = some (popped, rest)) :
    ∃ after, queue.call label = .ok (popped, after) /\ Represents after rest := by
  cases label with
  | popleft =>
    cases blocks with
    | nil => cases called
    | cons first others =>
      cases called
      rcases popleft_represents represents with ⟨after, isPop, afterRepresents⟩
      exact ⟨after, by rw [call, isPop]; rfl, afterRepresents⟩
  | popleftN n =>
    rcases Option.ite_none_right_eq_some.mp called with ⟨enough, result⟩
    cases result
    rw [<- take_append_drop n blocks] at represents
    have result := popleftN_represents represents
    rwa [length_take_of_le enough] at result
  | remove blockId =>
    rcases Option.ite_none_right_eq_some.mp called with ⟨member, result⟩
    cases result
    rcases remove_represents represents member with ⟨after, removed, afterRepresents⟩
    exact ⟨after, by rw [call, removed]; rfl, afterRepresents⟩
  | appendN added =>
    rcases Option.ite_none_right_eq_some.mp called with ⟨distinct, result⟩
    cases result
    rcases appendN_represents represents distinct with ⟨after, appended, afterRepresents⟩
    exact ⟨after, by rw [call, appended]; rfl, afterRepresents⟩

/-- A queue and a plain list side by side, with all calls that the list allows. -/
def besideList : System (FreeKVCacheBlockQueue × List BlockId) QueueCall where
  initial state := ∃ blocks, blocks.Nodup /\ state = (init blocks, blocks)
  step state label after := ∃ popped returned, callList state.2 label = some (popped, after.2) /\
    state.1.call label = .ok (returned, after.1)

/-- In every run the queue holds the blocks of the list in its order.  The count
of free blocks is the length of the list, the links of neighbours agree in both
directions from one sentinel to the other, and each call that the list allows
succeeds and returns what the list does. -/
theorem queue_refines_list {state : FreeKVCacheBlockQueue × List BlockId}
    (reachable : besideList.Reachable state) :
    state.1.getAllFreeBlocks = state.2 /\ state.1.numFreeBlocks = state.2.length /\
      (nodes state.2).IsChain state.1.links.Joined /\
      ∀ label popped rest, callList state.2 label = some (popped, rest) ->
        ∃ after, state.1.call label = .ok (popped, after) := by
  have represents : Represents state.1 state.2 := by
    refine reachable.invariant (fun state => Represents state.1 state.2) ?_ ?_
    · rintro _ ⟨_, distinct, rfl⟩
      exact init_represents distinct
    rintro _ _ _ - represents ⟨_, _, called, isCall⟩
    rcases call_represents represents called with ⟨_, isNext, nextRepresents⟩
    cases isCall.symm.trans isNext
    exact nextRepresents
  refine ⟨getAllFreeBlocks_eq represents, represents.count, represents.linked, ?_⟩
  intro label popped rest called
  exact (call_represents represents called).imp fun _ => And.left

theorem reachable_of_calls {after : FreeKVCacheBlockQueue} {popped rest : List BlockId}
    (reachable : besideList.Reachable (queue, blocks)) (label : QueueCall)
    (called : callList blocks label = some (popped, rest))
    (isCall : queue.call label = .ok (popped, after)) : besideList.Reachable (after, rest) :=
  reachable.next label ⟨popped, popped, called, isCall⟩

/-- Four blocks are queued.  The first is popped, one is taken out of the middle
of the queue and put back at the end with a new one, and two are popped. -/
theorem exists_beside_four_calls : ∃ state, besideList.Reachable state /\ state.2 = [1, 3] := by
  have start : besideList.Reachable (init [2, 0, 1, 4], [2, 0, 1, 4]) := .start ⟨_, by decide, rfl⟩
  have popped := reachable_of_calls start .popleft rfl rfl
  have removed := reachable_of_calls popped (.remove 1) rfl rfl
  have appended := reachable_of_calls removed (.appendN [1, 3]) rfl rfl
  exact ⟨_, reachable_of_calls appended (.popleftN 2) rfl rfl, rfl⟩

theorem four_calls_beside_list : ∃ state, besideList.Reachable state /\ state.2 = [1, 3] /\
    state.1.getAllFreeBlocks = [1, 3] /\ state.1.numFreeBlocks = 2 := by
  rcases exists_beside_four_calls with ⟨state, reachable, blocks⟩
  have refines := queue_refines_list reachable
  rw [blocks] at refines
  exact ⟨state, reachable, blocks, refines.1, refines.2.1⟩

end FreeKVCacheBlockQueue

end Vllm.KVCache
