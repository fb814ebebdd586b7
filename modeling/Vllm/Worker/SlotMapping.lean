import Mathlib.Tactic.Linarith
import Mathlib.Tactic.Ring
import Vllm.Worker.InputBatch

namespace Vllm.Worker

open KVCache (BlockId)
open BlockTable

/-!
# Where a token is stored when ranks share a request

Context parallelism deals the tokens of a request out to the ranks in runs of
`interleaveSize`.  The kernel that writes them deals anew in each block of all
ranks together, while attention reads the tokens of a rank densely in the order
of the sequence.  The two agree when no run is cut by the end of a kernel block.
What is validated is only that no run is cut by the end of a block of memory,
which is several kernel blocks if the kernel wants smaller ones.

The module has the sizes and the request as data that carry what was validated.
The arithmetic of dealing out comes first, then the slots of the writer and of the
reader, and last the two directions of the equivalence.
-/

/-- The sizes, as `BlockTable` and `validate_block_size` accept them. -/
structure SlotConfig where
  kvBlockSize : Nat
  blockSize : Nat
  cpWorldSize : Nat
  interleaveSize : Nat
  positive : 0 < kvBlockSize /\ 0 < cpWorldSize /\ 0 < interleaveSize
  divides : blockSize ∣ kvBlockSize
  valid : 1 < cpWorldSize -> interleaveSize ∣ kvBlockSize

/-- A request with enough blocks for its tokens. -/
structure StoredRequest (config : SlotConfig) where
  blockIds : List BlockId
  distinct : blockIds.Nodup
  seqLen : Nat
  enough : seqLen <= blockIds.length * config.kvBlockSize * config.cpWorldSize

/-- The number of tokens that a rank is said to have.  Subtraction of natural
numbers stops at zero, which is the lower bound of `torch.clip`. -/
def getDcpLocalSeqLens (seqLen dcpSize rank interleaveSize : Nat) : Nat :=
  let base := seqLen / interleaveSize / dcpSize * interleaveSize
  let remainder := seqLen - base * dcpSize
  base + min (remainder - rank * interleaveSize) interleaveSize

variable {config : SlotConfig} (request : StoredRequest config)

namespace StoredRequest

/-- The row of the block table: the ids of the kernel blocks. -/
def kernelBlocks : List BlockId :=
  mapToKernelBlocks (config.kvBlockSize / config.blockSize) request.blockIds

/-- The slot of a position on one rank.  There is none where the kernel writes
`PAD_ID`. -/
def computeSlot (rank pos : Nat) : Option Nat :=
  let virtualBlockSize := config.blockSize * config.cpWorldSize
  let blockIndex := pos / virtualBlockSize
  let virtualBlockOffset := pos - blockIndex * virtualBlockSize
  if virtualBlockOffset / config.interleaveSize % config.cpWorldSize = rank then
    let localBlockOffset :=
      virtualBlockOffset / (config.cpWorldSize * config.interleaveSize) * config.interleaveSize +
        virtualBlockOffset % config.interleaveSize
    request.kernelBlocks[blockIndex]?.map (· * config.blockSize + localBlockOffset)
  else none

/-- The positions that a rank stores, in order. -/
def positions (rank : Nat) : List Nat :=
  (List.range request.seqLen).filter (fun pos => (request.computeSlot rank pos).isSome)

/-- Where attention reads the `j`-th token of a rank. -/
def readSlot (j : Nat) : Option Nat :=
  request.kernelBlocks[j / config.blockSize]?.map (· * config.blockSize + j % config.blockSize)

/-- Each token is stored once, in the memory of the request, and read where it
is stored. -/
structure ReadsWhatIsWritten : Prop where
  stored : ∀ pos < request.seqLen,
    ∃! rank, rank < config.cpWorldSize /\ (request.computeSlot rank pos).isSome
  distinct : ∀ rank < config.cpWorldSize, ∀ pos < request.seqLen, ∀ other < request.seqLen,
    ∀ slot, request.computeSlot rank pos = some slot ->
      request.computeSlot rank other = some slot -> pos = other
  own : ∀ rank < config.cpWorldSize, ∀ pos < request.seqLen,
    ∀ slot ∈ request.computeSlot rank pos, ∃ block ∈ request.blockIds,
      slot / config.kvBlockSize = block
  length : ∀ rank < config.cpWorldSize, (request.positions rank).length =
    getDcpLocalSeqLens request.seqLen config.cpWorldSize rank config.interleaveSize
  read : ∀ rank < config.cpWorldSize, ∀ j pos, (request.positions rank)[j]? = some pos ->
    request.computeSlot rank pos = request.readSlot j

end StoredRequest

/-! ## Dealing out in runs -/

theorem mul_add_parts {I c : Nat} (below : c < I) (a : Nat) :
    (a * I + c) / I = a /\ (a * I + c) % I = c := by
  rw [Nat.add_comm, Nat.add_mul_div_right _ _ (by omega), Nat.div_eq_of_lt below, Nat.zero_add,
    Nat.add_mul_mod_self_right, Nat.mod_eq_of_lt below]
  exact ⟨rfl, rfl⟩

/-- The place of a position among those that its rank gets. -/
def localIndex (W I p : Nat) : Nat := p / (W * I) * I + p % I

section Runs

variable {W I s c : Nat} (isRank : s < W) (isOffset : c < I)
include isRank isOffset

theorem owner_run (a : Nat) : ((a * W + s) * I + c) / I % W = s := by
  rw [(mul_add_parts isOffset _).1, (mul_add_parts isRank a).2]

theorem localIndex_run (a : Nat) : localIndex W I ((a * W + s) * I + c) = a * I + c := by
  rw [localIndex, Nat.mul_comm W, <- Nat.div_div_eq_div_mul, (mul_add_parts isOffset _).1,
    (mul_add_parts isOffset _).2, (mul_add_parts isRank a).1]

theorem getDcpLocalSeqLens_run (a r : Nat) :
    getDcpLocalSeqLens ((a * W + s) * I + c) W r I =
      a * I + if r < s then I else if r = s then c else 0 := by
  have rest : (a * W + s) * I + c - a * I * W = s * I + c := by
    rw [Nat.add_mul, Nat.mul_right_comm]
    omega
  unfold getDcpLocalSeqLens
  dsimp only
  rw [(mul_add_parts isOffset _).1, (mul_add_parts isRank a).1, rest, Nat.add_left_cancel_iff]
  rcases Nat.lt_trichotomy r s with less | rfl | more
  · have whole := Nat.mul_le_mul_right I (Nat.succ_le_of_lt less)
    rw [Nat.succ_mul] at whole
    rw [if_pos less]
    omega
  · rw [if_neg (Nat.lt_irrefl r), if_pos rfl]
    omega
  · have whole := Nat.mul_le_mul_right I (Nat.succ_le_of_lt more)
    rw [Nat.succ_mul] at whole
    rw [if_neg (by omega), if_neg (by omega)]
    omega

end Runs

section Dealt

variable {W I : Nat} (positive : 0 < W /\ 0 < I)

omit positive in
theorem eq_run (W I p : Nat) : p = (p / (W * I) * W + p / I % W) * I + p % I := by
  rw [Nat.mul_comm W, <- Nat.div_div_eq_div_mul, Nat.mul_comm _ W, Nat.div_add_mod,
    Nat.mul_comm _ I, Nat.div_add_mod]

include positive

theorem localIndex_inj {p q : Nat} (owner : p / I % W = q / I % W)
    (same : localIndex W I p = localIndex W I q) : p = q := by
  have left := mul_add_parts (Nat.mod_lt p positive.2) (p / (W * I))
  have right := mul_add_parts (Nat.mod_lt q positive.2) (q / (W * I))
  unfold localIndex at same
  rw [same] at left
  rw [eq_run W I p, eq_run W I q, owner, left.1.symm.trans right.1, left.2.symm.trans right.2]

/-- One more token goes to its owner, and is the last one there. -/
theorem getDcpLocalSeqLens_succ {r : Nat} (isRank : r < W) (p : Nat) :
    getDcpLocalSeqLens (p + 1) W r I =
        getDcpLocalSeqLens p W r I + (if p / I % W = r then 1 else 0) /\
      (p / I % W = r -> getDcpLocalSeqLens p W r I = localIndex W I p) := by
  have below := Nat.mod_lt (p / I) positive.1
  have inside := Nat.mod_lt p positive.2
  have parts := eq_run W I p
  generalize p / (W * I) = a at parts
  generalize p / I % W = s at *
  generalize p % I = c at *
  subst parts
  rw [getDcpLocalSeqLens_run below inside, localIndex_run below inside]
  refine ⟨?_, fun same => by rw [same, if_neg (Nat.lt_irrefl r), if_pos rfl]⟩
  by_cases more : c + 1 < I
  · rw [Nat.add_assoc, getDcpLocalSeqLens_run below more]
    split_ifs <;> omega
  · have full : (a * W + s) * I + c + 1 = (a * W + s + 1) * I + 0 := by
      rw [Nat.succ_mul]
      omega
    rw [full]
    by_cases another : s + 1 < W
    · rw [Nat.add_assoc (a * W), getDcpLocalSeqLens_run another positive.2]
      split_ifs <;> omega
    · have round : a * W + s + 1 = (a + 1) * W + 0 := by
        rw [Nat.succ_mul]
        omega
      rw [round, getDcpLocalSeqLens_run positive.1 positive.2, Nat.succ_mul]
      split_ifs <;> omega

theorem positions_spec {r : Nat} (isRank : r < W) (length : Nat) :
    ((List.range length).filter (· / I % W = r)).length = getDcpLocalSeqLens length W r I /\
      ∀ j p, ((List.range length).filter (· / I % W = r))[j]? = some p ->
        p < length /\ p / I % W = r /\ localIndex W I p = j := by
  induction length with
  | zero => simp [getDcpLocalSeqLens]
  | succ length ih =>
    have step := getDcpLocalSeqLens_succ positive isRank length
    have earlier (j p : Nat) (isAt : ((List.range length).filter (· / I % W = r))[j]? = some p) :
        p < length + 1 /\ p / I % W = r /\ localIndex W I p = j :=
      (ih.2 j p isAt).imp_left Nat.lt_succ_of_lt
    rw [List.range_succ, List.filter_append, step.1, List.filter_singleton]
    by_cases owned : length / I % W = r
    · rw [decide_eq_true owned, if_pos owned, cond_true, List.length_append, ih.1]
      refine ⟨rfl, fun j p isAt => ?_⟩
      rw [List.getElem?_append] at isAt
      split at isAt
      · exact earlier j p isAt
      case isFalse beyond =>
        rw [List.getElem?_singleton, ih.1] at isAt
        rw [ih.1] at beyond
        split at isAt
        · cases isAt
          exact ⟨Nat.lt_succ_self _, owned, by have := step.2 owned; omega⟩
        · cases isAt
    · rw [decide_eq_false owned, if_neg owned, cond_false, List.append_nil]
      exact ⟨ih.1, earlier⟩

omit positive in
theorem localIndex_one (I p : Nat) : localIndex 1 I p = p := by
  have parts := eq_run 1 I p
  rw [Nat.mod_one, Nat.add_zero, Nat.mul_one] at parts
  rw [localIndex, <- parts]

theorem localIndex_lt {p size : Nat} (divides : W = 1 \/ I ∣ size) (below : p < size * W) :
    localIndex W I p < size := by
  rcases divides with rfl | ⟨runs, rfl⟩
  · rw [localIndex_one]
    omega
  · have quotient : p / (W * I) < runs := by
      rw [Nat.div_lt_iff_lt_mul (Nat.mul_pos positive.1 positive.2)]
      linarith
    have whole := Nat.mul_le_mul_right I (Nat.succ_le_of_lt quotient)
    have offset := Nat.mod_lt p positive.2
    rw [localIndex]
    linarith

/-- Whole blocks of all ranks together change neither the owner nor the place. -/
theorem run_add_blocks {size : Nat} (divides : W = 1 \/ I ∣ size) (block offset : Nat) :
    (size * W * block + offset) / I % W = offset / I % W /\
      localIndex W I (size * W * block + offset) = block * size + localIndex W I offset := by
  rcases divides with rfl | ⟨runs, rfl⟩
  · rw [localIndex_one, localIndex_one, Nat.mod_one, Nat.mod_one]
    exact ⟨rfl, by ring⟩
  · have isRank := Nat.mod_lt (offset / I) positive.1
    have isOffset := Nat.mod_lt offset positive.2
    have parts := eq_run W I offset
    generalize offset / (W * I) = a at parts
    generalize offset / I % W = s at *
    generalize offset % I = c at *
    have whole : I * runs * W * block + offset = ((block * runs + a) * W + s) * I + c := by
      rw [parts]
      ring
    rw [whole, owner_run isRank isOffset, localIndex_run isRank isOffset, parts,
      localIndex_run isRank isOffset]
    exact ⟨rfl, by ring⟩

end Dealt

/-! ## Reading and writing -/

theorem mapToKernelBlocks_getElem? {count : Nat} (positive : 0 < count) (blockIds : List BlockId)
    (j : Nat) : (mapToKernelBlocks count blockIds)[j]? =
      blockIds[j / count]?.map (· * count + j % count) := by
  unfold mapToKernelBlocks
  split
  case isTrue one => simp [one, Nat.mod_one]
  · induction blockIds generalizing j with
    | nil => simp
    | cons block rest ih =>
      rw [List.flatMap_cons, List.getElem?_append, List.length_map, List.length_range]
      split
      case isTrue first =>
        simp [Nat.div_eq_of_lt first, Nat.mod_eq_of_lt first, first]
      case isFalse later =>
        rw [ih, Nat.div_eq_sub_div positive (Nat.le_of_not_lt later), List.getElem?_cons_succ,
          Nat.mod_eq_sub_mod (Nat.le_of_not_lt later)]

namespace StoredRequest

/-- Kernel blocks of one block of memory follow each other. -/
theorem readSlot_eq (j : Nat) : request.readSlot j =
    request.blockIds[j / config.kvBlockSize]?.map
      (· * config.kvBlockSize + j % config.kvBlockSize) := by
  rcases config.divides with ⟨count, isCount⟩
  have positive := config.positive.1
  rw [isCount] at positive
  rw [readSlot, kernelBlocks, isCount, Nat.mul_div_cancel_left _ (Nat.pos_of_mul_pos_right positive),
    mapToKernelBlocks_getElem? (Nat.pos_of_mul_pos_left positive), Nat.div_div_eq_div_mul, Option.map_map]
  congr 1
  funext block
  rw [Nat.mod_mul]
  simp only [Function.comp]
  ring

variable {request}

theorem kernelBlocks_zero (offset : Nat) :
    request.kernelBlocks[0]?.map (· * config.blockSize + offset) =
      request.blockIds[0]?.map (· * config.kvBlockSize + offset) := by
  have start := request.readSlot_eq 0
  rw [readSlot, Nat.zero_div, Nat.zero_mod, Nat.zero_div, Nat.zero_mod] at start
  have shifted := congrArg (Option.map (· + offset)) start
  simpa only [Option.map_map, Function.comp_def, Nat.add_zero] using shifted

/-- The sizes for which no run is cut, and the requests that end before the first cut. -/
def Uncut (request : StoredRequest config) : Prop :=
  config.cpWorldSize = 1 \/ config.interleaveSize ∣ config.blockSize \/
    request.seqLen <= config.blockSize * config.cpWorldSize

/-- In the first kernel block of all ranks together the writer counts the tokens of
a rank as the reader does. -/
theorem computeSlot_first (rank : Nat) {pos : Nat}
    (first : pos < config.blockSize * config.cpWorldSize) :
    request.computeSlot rank pos =
      if pos / config.interleaveSize % config.cpWorldSize = rank then
        request.blockIds[0]?.map
          (· * config.kvBlockSize + localIndex config.cpWorldSize config.interleaveSize pos)
      else none := by
  unfold computeSlot
  dsimp only
  rw [Nat.div_eq_of_lt first, Nat.zero_mul, Nat.sub_zero, kernelBlocks_zero]
  rfl

/-- Without a cut run the writer deals as the reader expects it, in every block. -/
theorem computeSlot_eq (uncut : request.Uncut) (rank : Nat) {pos : Nat}
    (below : pos < request.seqLen) :
    request.computeSlot rank pos =
      if pos / config.interleaveSize % config.cpWorldSize = rank then
        request.readSlot (localIndex config.cpWorldSize config.interleaveSize pos)
      else none := by
  have positive := config.positive
  have kernel := Nat.pos_of_dvd_of_pos config.divides positive.1
  by_cases aligned : config.cpWorldSize = 1 \/ config.interleaveSize ∣ config.blockSize
  · have isPos := Nat.div_add_mod pos (config.blockSize * config.cpWorldSize)
    have inside := Nat.mod_lt pos (Nat.mul_pos kernel positive.2.1)
    unfold computeSlot
    dsimp only
    rw [<- Nat.mod_eq_sub_div_mul]
    generalize pos / (config.blockSize * config.cpWorldSize) = block at *
    generalize pos % (config.blockSize * config.cpWorldSize) = offset at *
    have run := run_add_blocks positive.2 aligned block offset
    have parts := mul_add_parts (localIndex_lt positive.2 aligned inside) block
    rw [<- isPos, run.1, run.2, readSlot, parts.1, parts.2]
    rfl
  · rw [not_or] at aligned
    have first : pos < config.blockSize * config.cpWorldSize :=
      Nat.lt_of_lt_of_le below ((uncut.resolve_left aligned.1).resolve_left aligned.2)
    have small : localIndex config.cpWorldSize config.interleaveSize pos < config.kvBlockSize := by
      apply localIndex_lt positive.2 (Or.inr (config.valid (by omega)))
      exact Nat.lt_of_lt_of_le first
        (Nat.mul_le_mul_right _ (Nat.le_of_dvd positive.1 config.divides))
    rw [computeSlot_first rank first, readSlot_eq, Nat.div_eq_of_lt small, Nat.mod_eq_of_lt small]

/-! ## A cut run overwrites a token -/

/-- Of the run that the end of a kernel block cuts, rank 0 stores the first token
behind the cut where the first token of the next kernel block comes. -/
theorem overwritten_of_cut (several : 1 < config.cpWorldSize)
    (notAligned : ¬ config.interleaveSize ∣ config.blockSize)
    (long : config.blockSize * config.cpWorldSize < request.seqLen) :
    ∃ pos < config.blockSize * config.cpWorldSize, ∃ slot,
      request.computeSlot 0 pos = some slot /\
      request.computeSlot 0 (config.blockSize * config.cpWorldSize) = some slot := by
  have positive := config.positive
  have kernel := Nat.pos_of_dvd_of_pos config.divides positive.1
  have smaller : config.blockSize < config.kvBlockSize := by
    refine Nat.lt_of_le_of_ne (Nat.le_of_dvd positive.1 config.divides) (fun same => ?_)
    exact notAligned (same ▸ config.valid several)
  have isOffset := Nat.mod_lt config.blockSize positive.2.2
  have rest := Nat.pos_of_ne_zero (mt Nat.dvd_of_mod_eq_zero notAligned)
  have parts := Nat.div_add_mod config.blockSize config.interleaveSize
  generalize config.blockSize / config.interleaveSize = a at parts
  generalize config.blockSize % config.interleaveSize = c at *
  have early : (a * config.cpWorldSize + 0) * config.interleaveSize + c <
      config.blockSize * config.cpWorldSize := by
    have more : c * 1 < c * config.cpWorldSize := Nat.mul_lt_mul_of_pos_left several rest
    rw [<- parts, Nat.add_zero, Nat.add_mul]
    linarith [Nat.mul_right_comm a config.cpWorldSize config.interleaveSize,
      Nat.mul_comm a config.interleaveSize]
  have place := localIndex_run positive.2.1 isOffset a
  rw [Nat.mul_comm a config.interleaveSize, parts] at place
  have again : request.computeSlot 0 (config.blockSize * config.cpWorldSize) =
      request.readSlot config.blockSize := by
    unfold computeSlot readSlot
    dsimp only
    rw [Nat.div_self (Nat.mul_pos kernel positive.2.1), Nat.one_mul, Nat.sub_self, Nat.zero_div,
      Nat.zero_mod, if_pos rfl, Nat.div_self kernel, Nat.mod_self, Nat.zero_div, Nat.zero_mod,
      Nat.zero_mul]
  have some : 0 < request.blockIds.length := by
    apply Nat.pos_of_ne_zero
    intro none
    have enough := request.enough
    rw [none, Nat.zero_mul, Nat.zero_mul] at enough
    omega
  refine ⟨_, early, request.blockIds[0] * config.kvBlockSize + config.blockSize, ?_, ?_⟩
  · rw [computeSlot_first 0 early, if_pos (owner_run positive.2.1 isOffset a), place,
      List.getElem?_eq_getElem some]
    rfl
  · rw [again, readSlot_eq, Nat.div_eq_of_lt smaller, Nat.mod_eq_of_lt smaller,
      List.getElem?_eq_getElem some]
    rfl

/-! ## Without a cut run every token is read back -/

/-- The place of a token is in the memory of a block of the request. -/
theorem readSlot_localIndex {pos : Nat} (below : pos < request.seqLen) :
    ∃ block, request.blockIds[localIndex config.cpWorldSize config.interleaveSize pos /
        config.kvBlockSize]? = some block /\
      request.readSlot (localIndex config.cpWorldSize config.interleaveSize pos) =
        some (block * config.kvBlockSize +
          localIndex config.cpWorldSize config.interleaveSize pos % config.kvBlockSize) := by
  have positive := config.positive
  have divides : config.cpWorldSize = 1 \/
      config.interleaveSize ∣ request.blockIds.length * config.kvBlockSize := by
    by_cases one : config.cpWorldSize = 1
    · exact Or.inl one
    · exact Or.inr (Dvd.dvd.mul_left (config.valid (by omega)) _)
  have small := localIndex_lt positive.2 divides (Nat.lt_of_lt_of_le below request.enough)
  have isBlock := List.getElem?_eq_getElem ((Nat.div_lt_iff_lt_mul positive.1).mpr small)
  exact ⟨_, isBlock, by rw [readSlot_eq, isBlock, Option.map_some]⟩

/-- Different places have different slots, since the blocks are different. -/
theorem readSlot_inj {first second slot : Nat} (left : request.readSlot first = some slot)
    (right : request.readSlot second = some slot) : first = second := by
  rw [readSlot_eq] at left right
  rcases Option.map_eq_some_iff.mp left with ⟨block, isBlock, isSlot⟩
  rcases Option.map_eq_some_iff.mp right with ⟨other, isOther, isSame⟩
  have positive := config.positive.1
  have parts := mul_add_parts (Nat.mod_lt first positive) block
  have otherParts := mul_add_parts (Nat.mod_lt second positive) other
  rw [isSlot, <- isSame] at parts
  have sameBlock := parts.1.symm.trans otherParts.1
  rw [sameBlock] at isBlock
  have inside := (List.getElem?_eq_some_iff.mp isBlock).1
  have sameIndex := (List.getElem?_inj inside request.distinct).mp (isBlock.trans isOther.symm)
  rw [<- Nat.div_add_mod first config.kvBlockSize, sameIndex, parts.2.symm.trans otherParts.2,
    Nat.div_add_mod]

section Uncut

variable (uncut : request.Uncut)
include uncut

theorem owner_of_computeSlot {rank pos slot : Nat} (below : pos < request.seqLen)
    (isSlot : request.computeSlot rank pos = some slot) :
    pos / config.interleaveSize % config.cpWorldSize = rank /\
      request.readSlot (localIndex config.cpWorldSize config.interleaveSize pos) = some slot := by
  rw [computeSlot_eq uncut rank below] at isSlot
  split at isSlot
  case isTrue owned => exact ⟨owned, isSlot⟩
  · cases isSlot

theorem computeSlot_isSome {rank pos : Nat} (below : pos < request.seqLen) :
    (request.computeSlot rank pos).isSome <->
      pos / config.interleaveSize % config.cpWorldSize = rank := by
  rcases readSlot_localIndex below with ⟨block, -, isSome⟩
  rw [computeSlot_eq uncut rank below, isSome]
  split
  case isTrue owned => exact iff_of_true rfl owned
  case isFalse other => exact iff_of_false Bool.false_ne_true other

theorem positions_eq (rank : Nat) : request.positions rank = (List.range request.seqLen).filter
    (· / config.interleaveSize % config.cpWorldSize = rank) := by
  refine List.filter_congr (fun pos member => ?_)
  rw [Bool.eq_iff_iff, computeSlot_isSome uncut (List.mem_range.mp member), decide_eq_true_iff]

theorem readsWhatIsWritten_of_uncut : request.ReadsWhatIsWritten := by
  have positive := config.positive
  constructor
  case stored =>
    intro pos below
    refine ⟨pos / config.interleaveSize % config.cpWorldSize,
      ⟨Nat.mod_lt _ positive.2.1, (computeSlot_isSome uncut below).mpr rfl⟩, ?_⟩
    rintro rank ⟨-, hasSlot⟩
    exact ((computeSlot_isSome uncut below).mp hasSlot).symm
  case distinct =>
    intro rank _ pos below other otherBelow slot isSlot otherSlot
    rcases owner_of_computeSlot uncut below isSlot with ⟨owned, read⟩
    rcases owner_of_computeSlot uncut otherBelow otherSlot with ⟨otherOwned, otherRead⟩
    exact localIndex_inj positive.2 (owned.trans otherOwned.symm) (readSlot_inj read otherRead)
  case own =>
    intro rank _ pos below slot isSlot
    rcases readSlot_localIndex below with ⟨block, isBlock, isSome⟩
    cases (owner_of_computeSlot uncut below isSlot).2.symm.trans isSome
    exact ⟨block, List.mem_of_getElem? isBlock, (mul_add_parts (Nat.mod_lt _ positive.1) _).1⟩
  case length =>
    intro rank isRank
    rw [positions_eq uncut]
    exact (positions_spec positive.2 isRank _).1
  case read =>
    intro rank isRank j pos isAt
    rw [positions_eq uncut] at isAt
    rcases (positions_spec positive.2 isRank _).2 j pos isAt with ⟨below, owned, isIndex⟩
    rw [computeSlot_eq uncut rank below, if_pos owned, isIndex]

end Uncut

/-- The ranks read what was written exactly if no run of tokens is cut by the end of
a kernel block, or the request ends before the first cut. -/
theorem readsWhatIsWritten_iff (request : StoredRequest config) :
    request.ReadsWhatIsWritten <-> request.Uncut := by
  refine ⟨fun reads => ?_, readsWhatIsWritten_of_uncut⟩
  by_contra cut
  simp only [Uncut, not_or, not_le] at cut
  rcases cut with ⟨notOne, notAligned, long⟩
  have positive := config.positive.2.1
  rcases overwritten_of_cut (by omega) notAligned long with ⟨pos, early, slot, isSlot, again⟩
  have same := reads.distinct 0 positive pos (Nat.lt_trans early long) _ long slot isSlot again
  exact Nat.ne_of_lt early same

/-- Blocks of 32 tokens are split in two for the kernel, and runs are as long as a
block. -/
def longRuns : SlotConfig where
  kvBlockSize := 32
  blockSize := 16
  cpWorldSize := 2
  interleaveSize := 32
  positive := ⟨Nat.succ_pos 31, Nat.succ_pos 1, Nat.succ_pos 31⟩
  divides := ⟨2, rfl⟩
  valid := fun _ => ⟨1, rfl⟩

/-- The same sizes with shorter runs. -/
def shortRuns : SlotConfig :=
  { longRuns with
    interleaveSize := 16
    positive := ⟨Nat.succ_pos 31, Nat.succ_pos 1, Nat.succ_pos 15⟩
    valid := fun _ => ⟨2, rfl⟩ }

/-- The tokens at 16 and 32 are stored in the same slot. -/
theorem long_runs_overwrite :
    ¬ (⟨[0], List.nodup_singleton 0, 33, Nat.le_of_ble_eq_true rfl⟩ :
      StoredRequest longRuns).ReadsWhatIsWritten :=
  fun reads => absurd (reads.distinct 0 (by decide) 16 (by decide) 32 (by decide) 16 rfl rfl)
    (by decide)

/-- With runs as long as a kernel block the same request is read back. -/
theorem short_runs_read_back :
    (⟨[0], List.nodup_singleton 0, 33, Nat.le_of_ble_eq_true rfl⟩ :
      StoredRequest shortRuns).ReadsWhatIsWritten :=
  (readsWhatIsWritten_iff _).mpr (Or.inr (Or.inl (Nat.dvd_refl 16)))

end StoredRequest

end Vllm.Worker
