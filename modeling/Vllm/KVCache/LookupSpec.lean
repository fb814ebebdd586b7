import Mathlib.Order.Bounds.Basic
import Vllm.KVCache.Lookup

namespace Vllm.KVCache

open List

/-!
# What the lookups find

Each lookup without the eagle rule returns the greatest aligned number of
blocks that its kind of group accepts.  Full attention accepts a length when
all blocks up to it are cached, a sliding window when the blocks that hold the
last `window - 1` tokens are, or the last block if there are no such tokens, and
Mamba when the last block is.

A lookup with the eagle rule drops its last block, so it stays below the limit
by a whole block.  Mamba has no such rule.
-/

section Scan

variable (cached : Nat -> Option Row) (blockSize alignmentTokens : Nat)

variable (count : Nat)

/-- Numbers of blocks whose tokens are a multiple of the alignment. -/
def Aligned : Prop := alignmentTokens ∣ count * blockSize

/-- The test of the source, negated: equal sizes are always aligned. -/
theorem aligned_of_not {count : Nat}
    (stop : ¬ (blockSize ≠ alignmentTokens /\ count * blockSize % alignmentTokens ≠ 0)) :
    Aligned blockSize alignmentTokens count := by
  by_cases same : blockSize = alignmentTokens
  · rw [<- same]
    exact Dvd.intro_left _ rfl
  · exact Nat.dvd_of_mod_eq_zero (by_contra fun misaligned => stop ⟨same, misaligned⟩)

theorem popUntilAligned_eq_take {fuel : Nat} (rows : List Row) :
    popUntilAligned blockSize alignmentTokens fuel rows =
      rows.take (popUntilAligned blockSize alignmentTokens fuel rows).length := by
  refine prefix_iff_eq_take.mp ?_
  induction fuel generalizing rows with
  | zero => exact prefix_rfl
  | succ fuel ih =>
    rw [popUntilAligned]
    split
    · exact (ih rows.dropLast).trans (List.dropLast_prefix rows)
    · exact prefix_rfl

theorem popUntilAligned_greatest {fuel : Nat} (rows : List Row) (enough : rows.length <= fuel) :
    IsGreatest {count | count <= rows.length /\ Aligned blockSize alignmentTokens count}
      (popUntilAligned blockSize alignmentTokens fuel rows).length := by
  induction fuel generalizing rows with
  | zero =>
    have empty : rows.length = 0 := Nat.le_zero.mp enough
    refine ⟨⟨le_rfl, ?_⟩, fun count bound => ?_⟩
    · change alignmentTokens ∣ rows.length * blockSize
      rw [empty, Nat.zero_mul]
      exact ⟨0, rfl⟩
    · exact bound.1
  | succ fuel ih =>
    rw [popUntilAligned]
    split
    case isTrue misaligned =>
      have smaller := ih rows.dropLast (by rw [length_dropLast]; omega)
      rw [length_dropLast] at smaller
      refine ⟨⟨smaller.1.1.trans (Nat.sub_le _ _), smaller.1.2⟩, fun count bound => ?_⟩
      apply smaller.2
      refine ⟨?_, bound.2⟩
      have different : count ≠ rows.length := by
        intro same
        have aligned := bound.2
        rw [same] at aligned
        exact misaligned.2 (Nat.mod_eq_zero_of_dvd aligned)
      have within := bound.1
      omega
    case isFalse stop =>
      exact ⟨⟨le_rfl, aligned_of_not blockSize alignmentTokens stop⟩, fun count bound => bound.1⟩

theorem alignRows_greatest (rows : List Row) :
    IsGreatest {count | count <= rows.length /\ Aligned blockSize alignmentTokens count}
      (alignRows blockSize alignmentTokens rows).length :=
  popUntilAligned_greatest blockSize alignmentTokens rows (le_rfl)

theorem alignRows_eq_take (rows : List Row) : alignRows blockSize alignmentTokens rows =
      rows.take (alignRows blockSize alignmentTokens rows).length :=
  popUntilAligned_eq_take blockSize alignmentTokens rows

theorem alignRows_length_le (rows : List Row) :
    (alignRows blockSize alignmentTokens rows).length <= rows.length :=
  (alignRows_greatest blockSize alignmentTokens rows).1.1

theorem alignRows_aligned (rows : List Row) :
    Aligned blockSize alignmentTokens (alignRows blockSize alignmentTokens rows).length :=
  (alignRows_greatest blockSize alignmentTokens rows).1.2

theorem alignRows_of_aligned {rows : List Row}
    (aligned : Aligned blockSize alignmentTokens rows.length) :
    alignRows blockSize alignmentTokens rows = rows := by
  have whole : rows.length <= (alignRows blockSize alignmentTokens rows).length :=
    (alignRows_greatest blockSize alignmentTokens rows).2 ⟨le_rfl, aligned⟩
  rw [alignRows_eq_take, take_of_length_le whole]

/-- The first blocks are all cached. -/
def PrefixCached : Prop := ∀ j, j < count -> (cached j).isSome

theorem takeCached_length_le (index : Nat) : (takeCached cached count index).length <= count := by
  induction count generalizing index with
  | zero => exact Nat.le_refl 0
  | succ count ih =>
    rw [takeCached]
    split
    · exact Nat.succ_le_succ (ih (index + 1))
    · exact Nat.zero_le _

theorem takeCached_getElem? (index j : Nat) (found : j < (takeCached cached count index).length) :
    (takeCached cached count index)[j]? = cached (index + j) := by
  induction count generalizing index j with
  | zero => simp [takeCached] at found
  | succ count ih =>
    rw [takeCached] at found ⊢
    cases row : cached index with
    | none => simp [row] at found
    | some row =>
      simp only [row] at found ⊢
      cases j with
      | zero => rw [List.getElem?_cons_zero, Nat.add_zero]; exact row.symm
      | succ j =>
        rw [List.getElem?_cons_succ, ih (index + 1) j (by simpa using found)]
        congr 1
        omega

theorem takeCached_maximal (index k : Nat) (bound : k <= count)
    (all : ∀ j, j < k -> (cached (index + j)).isSome) :
    k <= (takeCached cached count index).length := by
  induction count generalizing index k with
  | zero => omega
  | succ count ih =>
    cases k with
    | zero => exact Nat.zero_le _
    | succ k =>
      rw [takeCached]
      rcases Option.isSome_iff_exists.mp (all 0 (Nat.zero_lt_succ k)) with ⟨row, present⟩
      rw [Nat.add_zero] at present
      simp only [present, length_cons, Nat.succ_le_succ_iff]
      apply ih (index + 1) k (by omega)
      intro j inside
      have later := all (j + 1) (by omega)
      rwa [show index + 1 + j = index + (j + 1) by omega]

variable (nullRow : Row) (maxNumBlocks : Nat)

theorem fullAttentionHit_greatest :
    IsGreatest {count | count <= maxNumBlocks /\ Aligned blockSize alignmentTokens count /\
        PrefixCached cached count}
      (fullAttentionHit cached blockSize alignmentTokens false maxNumBlocks).length := by
  have greatest := alignRows_greatest blockSize alignmentTokens (takeCached cached maxNumBlocks 0)
  refine ⟨⟨?_, greatest.1.2, ?_⟩, ?_⟩
  · exact greatest.1.1.trans (takeCached_length_le cached maxNumBlocks 0)
  · intro j inside
    have found := inside.trans_le greatest.1.1
    have row := takeCached_getElem? cached maxNumBlocks 0 j found
    rw [Nat.zero_add, List.getElem?_eq_getElem found] at row
    rw [<- row]
    rfl
  rintro count ⟨bound, aligned, all⟩
  refine greatest.2 ⟨takeCached_maximal cached maxNumBlocks 0 count bound ?_, aligned⟩
  intro j inside
  rw [Nat.zero_add]
  exact all j inside

theorem fullAttentionHit_getElem? (j : Nat)
    (inside : j < (fullAttentionHit cached blockSize alignmentTokens false maxNumBlocks).length) :
    (fullAttentionHit cached blockSize alignmentTokens false maxNumBlocks)[j]? = cached j := by
  have whole := alignRows_length_le blockSize alignmentTokens (takeCached cached maxNumBlocks 0)
  have row := takeCached_getElem? cached maxNumBlocks 0 j (inside.trans_le whole)
  rw [Nat.zero_add] at row
  rw [<- row]
  change j < (alignRows blockSize alignmentTokens (takeCached cached maxNumBlocks 0)).length at inside
  change (alignRows blockSize alignmentTokens (takeCached cached maxNumBlocks 0))[j]? = _
  rw [alignRows_eq_take, List.getElem?_take_of_lt inside]

/-- With the eagle rule the last found block is dropped. -/
theorem fullAttentionHit_eagle :
    (fullAttentionHit cached blockSize alignmentTokens true maxNumBlocks).length <=
        maxNumBlocks - 1 /\
      Aligned blockSize alignmentTokens
        (fullAttentionHit cached blockSize alignmentTokens true maxNumBlocks).length := by
  have greatest := alignRows_greatest blockSize alignmentTokens
    (takeCached cached maxNumBlocks 0).dropLast
  refine ⟨Nat.le_trans greatest.1.1 ?_, greatest.1.2⟩
  rw [length_dropLast]
  exact Nat.sub_le_sub_right (takeCached_length_le cached maxNumBlocks 0) 1

/-- Only the state after the last block is needed. -/
def LastCached : Prop := count = 0 \/ (cached (count - 1)).isSome

theorem mambaHit_greatest :
    IsGreatest {count | count <= maxNumBlocks /\ Aligned blockSize alignmentTokens count /\
        LastCached cached count}
      (mambaHit cached blockSize alignmentTokens nullRow maxNumBlocks).length := by
  induction maxNumBlocks with
  | zero =>
    refine ⟨⟨Nat.le_refl 0, ⟨0, by simp [mambaHit]⟩, Or.inl rfl⟩, fun count bound => bound.1⟩
  | succ i ih =>
    have skip (rejected : ¬ (Aligned blockSize alignmentTokens (i + 1) /\
        LastCached cached (i + 1))) :
        IsGreatest {count | count <= i + 1 /\ Aligned blockSize alignmentTokens count /\
            LastCached cached count}
          (mambaHit cached blockSize alignmentTokens nullRow i).length := by
      refine ⟨⟨Nat.le_succ_of_le ih.1.1, ih.1.2⟩, fun count bound => ih.2 ⟨?_, bound.2⟩⟩
      rcases Nat.le_succ_iff.mp bound.1 with smaller | same
      · exact smaller
      have accepted := bound.2
      rw [same] at accepted
      exact absurd accepted rejected
    rw [mambaHit]
    cases row : cached i with
    | none =>
      apply skip
      rintro ⟨-, zero | present⟩
      · exact absurd zero (Nat.succ_ne_zero i)
      · simp [row] at present
    | some found =>
      simp only
      split
      case isTrue misaligned =>
        apply skip
        rintro ⟨aligned, -⟩
        exact misaligned.2 (Nat.mod_eq_zero_of_dvd aligned)
      case isFalse stop =>
        have size : (List.replicate i nullRow ++ [found]).length = i + 1 := by simp
        rw [size]
        refine ⟨⟨le_rfl, ?_, Or.inr (by simp [row])⟩, fun count bound => bound.1⟩
        exact aligned_of_not blockSize alignmentTokens stop

theorem mambaHit_getLast (count : Nat)
    (size : (mambaHit cached blockSize alignmentTokens nullRow maxNumBlocks).length = count + 1) :
    (mambaHit cached blockSize alignmentTokens nullRow maxNumBlocks)[count]? = cached count := by
  induction maxNumBlocks with
  | zero => simp [mambaHit] at size
  | succ i ih =>
    rw [mambaHit] at size ⊢
    cases row : cached i with
    | none =>
      simp only [row] at size ⊢
      exact ih size
    | some found =>
      simp only [row] at size ⊢
      split at size
      case isTrue misaligned =>
        rw [if_pos misaligned]
        exact ih size
      case isFalse stop =>
        have same : i = count := by simpa using size
        rw [if_neg stop, <- same, row]
        simp

/-- The last `contiguousBlocks` blocks are cached, or all of them if there are
fewer. -/
def WindowCached (contiguousBlocks count : Nat) : Prop :=
  ∀ j, count - contiguousBlocks <= j -> j < count -> (cached j).isSome

/-- What the scan knows when it is about to look at the block before `i`: a run
of cached rows starts at `i`, its end is aligned, and no longer length is
acceptable. -/
structure ScanInvariant (contiguousBlocks maxNumBlocks i : Nat) (computedBlocks : List Row)
    (numContiguousBlocks : Nat) : Prop where
  size : computedBlocks.length = maxNumBlocks
  within : i + numContiguousBlocks <= maxNumBlocks
  run : ∀ j, i <= j -> j < i + numContiguousBlocks ->
    (cached j).isSome /\ computedBlocks[j]? = cached j
  aligned : 0 < numContiguousBlocks -> Aligned blockSize alignmentTokens (i + numContiguousBlocks)
  short : numContiguousBlocks < contiguousBlocks
  maximal : ∀ count, count <= maxNumBlocks ->
    Aligned blockSize alignmentTokens count -> WindowCached cached contiguousBlocks count ->
      count <= i + numContiguousBlocks

/-- What a finished scan returns. -/
structure ScanResult (contiguousBlocks maxNumBlocks : Nat) (rows : List Row) : Prop where
  within : rows.length <= maxNumBlocks
  aligned : Aligned blockSize alignmentTokens rows.length
  accepted : WindowCached cached contiguousBlocks rows.length
  found : ∀ j, rows.length - contiguousBlocks <= j -> j < rows.length -> rows[j]? = cached j
  maximal : ∀ count, count <= maxNumBlocks ->
    Aligned blockSize alignmentTokens count -> WindowCached cached contiguousBlocks count ->
      count <= rows.length

/-- A run of cached rows that ends at an aligned length, or a block behind it
with the eagle rule, such that no acceptable length is above its end. -/
structure ScanRun (useEagle : Bool) (contiguousBlocks maxNumBlocks start stop : Nat)
    (computedBlocks : List Row) : Prop where
  size : computedBlocks.length = maxNumBlocks
  within : stop <= maxNumBlocks
  run : ∀ j, start <= j -> j < stop -> (cached j).isSome /\ computedBlocks[j]? = cached j
  aligned : start < stop -> Aligned blockSize alignmentTokens (stop - useEagle.toNat)
  maximal : ∀ count, count + useEagle.toNat <= maxNumBlocks ->
    Aligned blockSize alignmentTokens count ->
    WindowCached cached contiguousBlocks (count + useEagle.toNat) ->
      count + useEagle.toNat <= stop

section Run

variable {cached blockSize alignmentTokens} {useEagle : Bool} {computedBlocks : List Row}
  {maxNumBlocks} {contiguousBlocks i numContiguousBlocks : Nat}

section

variable
  (held : ScanRun cached blockSize alignmentTokens useEagle contiguousBlocks maxNumBlocks (i + 1)
      (i + 1 + numContiguousBlocks) computedBlocks)
include held

/-- A run that ends without a hit leaves only shorter lengths. -/
theorem ScanRun.reset
    (rejected : ∀ count, i < count + useEagle.toNat ->
      count + useEagle.toNat <= i + 1 + numContiguousBlocks ->
      Aligned blockSize alignmentTokens count ->
        ¬ WindowCached cached contiguousBlocks (count + useEagle.toNat)) :
    ScanRun cached blockSize alignmentTokens useEagle contiguousBlocks maxNumBlocks i (i + 0)
      computedBlocks := by
  have within := held.within
  refine ⟨held.size, by omega, fun j lower upper => by omega, fun longer => by omega, ?_⟩
  intro count bound aligned accepted
  by_contra longer
  have upper := held.maximal count bound aligned accepted
  exact rejected count (by omega) upper aligned accepted

theorem ScanRun.grow {row : Row} (present : cached i = some row)
    (start : numContiguousBlocks = 0 -> Aligned blockSize alignmentTokens (i + 1 - useEagle.toNat)) :
    ScanRun cached blockSize alignmentTokens useEagle contiguousBlocks maxNumBlocks i
      (i + (numContiguousBlocks + 1)) (computedBlocks.set i row) := by
  have within := held.within
  have size := held.size
  rw [show i + (numContiguousBlocks + 1) = i + 1 + numContiguousBlocks by omega]
  refine ⟨by rw [length_set, size], within, ?_, fun _ => ?_, held.maximal⟩
  · intro j lower upper
    by_cases here : j = i
    · rw [here, List.getElem?_set_self (by omega), present]
      exact ⟨rfl, rfl⟩
    rw [List.getElem?_set_ne (Ne.symm here)]
    exact held.run j (by omega) upper
  by_cases first : numContiguousBlocks = 0
  · rw [first]
    exact start first
  · exact held.aligned (by omega)

end

/-- The scan ends with the longest run.  A run that is too short is aligned once
more. -/
theorem slidingWindowScan_run
    (held : ScanRun cached blockSize alignmentTokens useEagle contiguousBlocks maxNumBlocks i
      (i + numContiguousBlocks) computedBlocks) (short : numContiguousBlocks < contiguousBlocks) :
    ∃ stop rows, ScanRun cached blockSize alignmentTokens useEagle contiguousBlocks
        maxNumBlocks (stop - contiguousBlocks) stop rows /\
      slidingWindowScan cached blockSize alignmentTokens useEagle contiguousBlocks i
          computedBlocks numContiguousBlocks =
        if contiguousBlocks <= stop then rows.take stop
        else alignRows blockSize alignmentTokens (rows.take stop) := by
  induction i generalizing computedBlocks numContiguousBlocks with
  | zero =>
    rw [Nat.zero_add] at held
    refine ⟨numContiguousBlocks, computedBlocks, ?_, ?_⟩
    · rwa [Nat.sub_eq_zero_of_le short.le]
    · rw [slidingWindowScan, if_neg (Nat.not_le.mpr short)]
  | succ i ih =>
    have postPop : (if useEagle = true then i else i + 1) = i + 1 - useEagle.toNat := by
      cases useEagle <;> rfl
    rw [slidingWindowScan]
    cases present : cached i with
    | none =>
      refine ih (held.reset (fun count lower upper _ accepted => ?_)) (by omega)
      have isSome := accepted i (by omega) lower
      rw [present] at isSome
      exact Bool.noConfusion isSome
    | some row =>
      simp only [postPop]
      split
      case isTrue misaligned =>
        rcases misaligned with ⟨first, different, misaligned⟩
        subst first
        refine ih (held.reset (fun count lower upper aligned _ => ?_)) short
        have isNext : count = i + 1 - useEagle.toNat := by omega
        exact misaligned (Nat.mod_eq_zero_of_dvd (isNext ▸ aligned))
      case isFalse started =>
        have longer := held.grow present (fun first =>
          aligned_of_not blockSize alignmentTokens (fun misaligned => started ⟨first, misaligned⟩))
        split
        case isTrue enough =>
          refine ⟨i + (numContiguousBlocks + 1), computedBlocks.set i row, ?_, ?_⟩
          · rwa [show i + (numContiguousBlocks + 1) - contiguousBlocks = i by omega]
          · rw [if_pos (by omega)]
        case isFalse more => exact ih longer (by omega)

theorem slidingWindowScan_spec
    (invariant : ScanInvariant cached blockSize alignmentTokens contiguousBlocks maxNumBlocks i
      computedBlocks numContiguousBlocks) :
    ScanResult cached blockSize alignmentTokens contiguousBlocks maxNumBlocks
      (slidingWindowScan cached blockSize alignmentTokens false contiguousBlocks i computedBlocks
        numContiguousBlocks) := by
  have held : ScanRun cached blockSize alignmentTokens false contiguousBlocks maxNumBlocks i
      (i + numContiguousBlocks) computedBlocks :=
    ⟨invariant.size, invariant.within, invariant.run, fun longer => invariant.aligned (by omega),
      invariant.maximal⟩
  have short := invariant.short
  rcases slidingWindowScan_run held short with ⟨stop, rows, last, found⟩
  have length : (rows.take stop).length = stop := by
    rw [length_take, last.size]
    exact Nat.min_eq_left last.within
  have aligned : Aligned blockSize alignmentTokens stop := by
    cases stop with
    | zero => exact ⟨0, by simp⟩
    | succ stop => exact last.aligned (by omega)
  rw [alignRows_of_aligned _ _ (by rwa [length]), ite_self] at found
  rw [found]
  refine ⟨?_, ?_, ?_, ?_, ?_⟩ <;> rw [length]
  · exact last.within
  · exact aligned
  · exact fun j lower upper => (last.run j lower upper).1
  · intro j lower upper
    rw [List.getElem?_take_of_lt upper]
    exact (last.run j lower upper).2
  · exact last.maximal

end Run

/-- The scan stops at a cached block at the earliest, so a window that needs no
block is treated like one that needs a single block. -/
theorem slidingWindowScan_zero {useEagle : Bool} (i : Nat) (computedBlocks : List Row)
    (numContiguousBlocks : Nat) :
    slidingWindowScan cached blockSize alignmentTokens useEagle 0 i computedBlocks
        numContiguousBlocks =
      slidingWindowScan cached blockSize alignmentTokens useEagle 1 i computedBlocks
        numContiguousBlocks := by
  induction i generalizing computedBlocks numContiguousBlocks with
  | zero => rfl
  | succ i ih =>
    rw [slidingWindowScan, slidingWindowScan]
    cases cached i with
    | none => exact ih computedBlocks 0
    | some row => simp [ih]

/-- The number of blocks that a hit of a window has to end with.  It is at least
one. -/
def windowBlocks (slidingWindow blockSize : Nat) : Nat :=
  max 1 (cdiv (slidingWindow - 1) blockSize)

theorem slidingWindowScan_windowBlocks (useEagle : Bool) (slidingWindow i : Nat)
    (computedBlocks : List Row) (numContiguousBlocks : Nat) :
    slidingWindowScan cached blockSize alignmentTokens useEagle
        (cdiv (slidingWindow - 1) blockSize) i computedBlocks numContiguousBlocks =
      slidingWindowScan cached blockSize alignmentTokens useEagle
        (windowBlocks slidingWindow blockSize) i computedBlocks numContiguousBlocks := by
  rw [windowBlocks]
  cases cdiv (slidingWindow - 1) blockSize with
  | zero => exact slidingWindowScan_zero cached blockSize alignmentTokens i _ _
  | succ blocks => rw [Nat.max_eq_right (Nat.succ_pos blocks)]

theorem slidingWindowHit_spec (slidingWindow maxNumBlocks : Nat) :
    ScanResult cached blockSize alignmentTokens (windowBlocks slidingWindow blockSize) maxNumBlocks
      (slidingWindowHit cached blockSize alignmentTokens false nullRow slidingWindow
        maxNumBlocks) := by
  have initially : ScanInvariant cached blockSize alignmentTokens
      (windowBlocks slidingWindow blockSize) maxNumBlocks maxNumBlocks
      (List.replicate maxNumBlocks nullRow) 0 := by
    refine ⟨length_replicate, le_rfl, fun j lower upper => by omega,
      fun positive => absurd positive (Nat.lt_irrefl 0), Nat.le_max_left _ _, ?_⟩
    intro count bound aligned accepted
    exact bound
  have result := slidingWindowScan_spec initially
  rw [<- slidingWindowScan_windowBlocks] at result
  simpa [slidingWindowHit] using result

theorem slidingWindowScan_length_le (useEagle : Bool) (contiguousBlocks i : Nat)
    (computedBlocks : List Row) (numContiguousBlocks : Nat) :
    (slidingWindowScan cached blockSize alignmentTokens useEagle contiguousBlocks i computedBlocks
      numContiguousBlocks).length <= computedBlocks.length := by
  induction i generalizing computedBlocks numContiguousBlocks with
  | zero =>
    exact (alignRows_length_le _ _ _).trans (length_take_le' _ _)
  | succ i ih =>
    rw [slidingWindowScan]
    cases cached i with
    | none => exact ih computedBlocks 0
    | some row =>
      simp only
      generalize (if useEagle = true then i else i + 1) = postPopBlocks
      split
      · exact ih computedBlocks numContiguousBlocks
      split
      · exact (length_take_le' _ _).trans length_set.le
      · exact (ih _ _).trans length_set.le

theorem slidingWindowHit_eagle_eq (slidingWindow maxNumBlocks : Nat) :
    slidingWindowHit cached blockSize alignmentTokens true nullRow slidingWindow maxNumBlocks =
      alignRows blockSize alignmentTokens (slidingWindowScan cached blockSize alignmentTokens true
        (cdiv (slidingWindow - 1) blockSize + 1) maxNumBlocks
        (List.replicate maxNumBlocks nullRow) 0).dropLast := by
  simp only [slidingWindowHit, if_true, true_and]
  split
  case isTrue nonempty => rfl
  case isFalse empty =>
    rw [not_not.mp empty]
    rfl

/-- With the eagle rule the last matched block is dropped. -/
theorem slidingWindowHit_eagle (slidingWindow maxNumBlocks : Nat) :
    (slidingWindowHit cached blockSize alignmentTokens true nullRow slidingWindow
        maxNumBlocks).length <= maxNumBlocks - 1 /\
      Aligned blockSize alignmentTokens
        (slidingWindowHit cached blockSize alignmentTokens true nullRow slidingWindow
          maxNumBlocks).length := by
  have size := slidingWindowScan_length_le cached blockSize alignmentTokens true
    (cdiv (slidingWindow - 1) blockSize + 1) maxNumBlocks (List.replicate maxNumBlocks nullRow) 0
  rw [length_replicate] at size
  rw [slidingWindowHit_eagle_eq]
  refine ⟨Nat.le_trans (alignRows_length_le _ _ _) ?_, alignRows_aligned _ _ _⟩
  rw [length_dropLast]
  exact Nat.sub_le_sub_right size 1

end Scan

/-- The kinds of group that a hybrid lookup combines here. -/
def KVCacheSpec.Combinable (spec : KVCacheSpec) : Prop :=
  match spec.kind with
  | .fullAttention => True
  | .slidingWindow _ => True
  | .mamba _ _ => True
  | _ => False

def KVCacheSpec.IsMamba (spec : KVCacheSpec) : Prop :=
  match spec.kind with
  | .mamba _ _ => True
  | _ => False

instance : (spec : KVCacheSpec) -> Decidable spec.Combinable
  | ⟨_, _, .fullAttention, _⟩ => isTrue trivial
  | ⟨_, _, .slidingWindow _, _⟩ => isTrue trivial
  | ⟨_, _, .mamba _ _, _⟩ => isTrue trivial
  | ⟨_, _, .chunkedLocalAttention _, _⟩ => isFalse id
  | ⟨_, _, .crossAttention, _⟩ => isFalse id

instance : (spec : KVCacheSpec) -> Decidable spec.IsMamba
  | ⟨_, _, .mamba _ _, _⟩ => isTrue trivial
  | ⟨_, _, .fullAttention, _⟩ => isFalse id
  | ⟨_, _, .slidingWindow _, _⟩ => isFalse id
  | ⟨_, _, .chunkedLocalAttention _, _⟩ => isFalse id
  | ⟨_, _, .crossAttention, _⟩ => isFalse id

/-- The rule by which the lookup of a group accepts a number of blocks. -/
def KVCacheSpec.Accepts (spec : KVCacheSpec) (cached : Nat -> Option Row) (count : Nat) : Prop :=
  match spec.kind with
  | .fullAttention => PrefixCached cached count
  | .slidingWindow slidingWindow =>
    WindowCached cached (windowBlocks slidingWindow spec.blockSize) count
  | .mamba _ _ => LastCached cached count
  | _ => False

/-- The positions that this rule looks at for a length of `count` blocks. -/
def KVCacheSpec.LooksAt (spec : KVCacheSpec) (count j : Nat) : Prop :=
  j < count /\
    match spec.kind with
    | .fullAttention => True
    | .slidingWindow slidingWindow => count - windowBlocks slidingWindow spec.blockSize <= j
    | .mamba _ _ => count = j + 1
    | _ => False

variable {H : Type}

section

variable (pool : BlockPool H) (blockHashes : List H) (maxLength : Nat) (groupIds : List Nat)
    (spec : KVCacheSpec) (alignmentTokens : Nat) (combinable : spec.Combinable)
include pool blockHashes maxLength groupIds spec alignmentTokens combinable

theorem findLongestCacheHit_plain :
    ∃ rows, findLongestCacheHit pool blockHashes maxLength groupIds spec false
        alignmentTokens = some rows /\
      IsGreatest {count | count <= maxLength / spec.blockSize /\
        Aligned spec.blockSize alignmentTokens count /\
        spec.Accepts (cachedRow pool blockHashes groupIds spec) count} rows.length /\
      ∀ j, spec.LooksAt rows.length j ->
        rows[j]? = cachedRow pool blockHashes groupIds spec j := by
  unfold KVCacheSpec.Combinable at combinable
  unfold findLongestCacheHit KVCacheSpec.Accepts KVCacheSpec.LooksAt
  cases kind : spec.kind with
  | fullAttention =>
    exact ⟨_, rfl, fullAttentionHit_greatest _ _ _ _,
      fun j needed => fullAttentionHit_getElem? _ _ _ _ j needed.1⟩
  | slidingWindow slidingWindow =>
    have result := slidingWindowHit_spec (cachedRow pool blockHashes groupIds spec)
      spec.blockSize alignmentTokens
      (List.replicate groupIds.length pool.nullBlock) slidingWindow (maxLength / spec.blockSize)
    refine ⟨_, rfl, ?_, fun j needed => result.found j needed.2 needed.1⟩
    exact ⟨⟨result.within, result.aligned, result.accepted⟩,
      fun count bound => result.maximal count bound.1 bound.2.1 bound.2.2⟩
  | mamba mambaCacheMode numSpeculativeBlocks =>
    exact ⟨_, rfl, mambaHit_greatest _ _ _ _ _,
      fun j needed => mambaHit_getLast _ _ _ _ _ j needed.2⟩
  | chunkedLocalAttention attentionChunkSize => simp [kind] at combinable
  | crossAttention => simp [kind] at combinable

/-- A lookup with the eagle rule stays a block below its limit, except that
Mamba ignores the rule. -/
theorem findLongestCacheHit_eagle :
    ∃ rows, findLongestCacheHit pool blockHashes maxLength groupIds spec true
        alignmentTokens = some rows /\
      rows.length <= maxLength / spec.blockSize /\
      (¬ spec.IsMamba -> rows.length <= maxLength / spec.blockSize - 1) /\
      Aligned spec.blockSize alignmentTokens rows.length := by
  unfold KVCacheSpec.Combinable at combinable
  unfold findLongestCacheHit KVCacheSpec.IsMamba
  cases kind : spec.kind with
  | fullAttention =>
    have result := fullAttentionHit_eagle (cachedRow pool blockHashes groupIds spec)
      spec.blockSize alignmentTokens (maxLength / spec.blockSize)
    exact ⟨_, rfl, result.1.trans (Nat.sub_le _ _), fun _ => result.1, result.2⟩
  | slidingWindow slidingWindow =>
    have result := slidingWindowHit_eagle (cachedRow pool blockHashes groupIds spec)
      spec.blockSize alignmentTokens
      (List.replicate groupIds.length pool.nullBlock) slidingWindow (maxLength / spec.blockSize)
    exact ⟨_, rfl, result.1.trans (Nat.sub_le _ _), fun _ => result.1, result.2⟩
  | mamba mambaCacheMode numSpeculativeBlocks =>
    have greatest := mambaHit_greatest (cachedRow pool blockHashes groupIds spec) spec.blockSize
      alignmentTokens (List.replicate groupIds.length pool.nullBlock) (maxLength / spec.blockSize)
    exact ⟨_, rfl, greatest.1.1, fun other => absurd trivial other, greatest.1.2.1⟩
  | chunkedLocalAttention attentionChunkSize => simp [kind] at combinable
  | crossAttention => simp [kind] at combinable

end

end Vllm.KVCache
