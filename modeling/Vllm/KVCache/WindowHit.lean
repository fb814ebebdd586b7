import Mathlib.Order.Lattice.Nat
import Vllm.KVCache.GreatestHit

namespace Vllm.KVCache

open KVCacheSpec List

/-!
# The lookup of a window, with the eagle rule too

With the eagle rule the scan looks for a run that ends one block behind an
aligned length, and the last block of the run is dropped again.  A run that
reaches the first block before it is long enough is aligned a second time,
before the drop: unless every length is aligned it then loses more than the last
block.  Without the rule the only difference to the blocks that the window needs
is that a window without any such block still asks for one.
-/

/-- A run that is too short loses another alignment. -/
theorem alignRows_short {blockSize alignmentTokens n : Nat} (rows : List Row)
    (divides : blockSize ∣ alignmentTokens) (different : blockSize ≠ alignmentTokens)
    (aligned : Aligned blockSize alignmentTokens n) :
    (alignRows blockSize alignmentTokens (rows.take (n + 1))).length <= n := by
  have bound := alignRows_length_le blockSize alignmentTokens (rows.take (n + 1))
  have longer := alignRows_aligned blockSize alignmentTokens (rows.take (n + 1))
  rw [length_take] at bound
  by_contra more
  rw [show (alignRows blockSize alignmentTokens (rows.take (n + 1))).length = n + 1 by omega,
    Aligned, Nat.succ_mul] at longer
  exact different (Nat.dvd_antisymm divides ((Nat.dvd_add_right aligned).mp longer))

section Longest

variable (spec : KVCacheSpec) (cached : Nat -> Option Row) (maxLength : Nat) (useEagle : Bool)
  (alignmentTokens : Nat)

/-- The numbers of blocks after which the window can continue.  With the eagle
rule the block behind them is needed as well. -/
def windowHits : Set Nat :=
  {count | count + useEagle.toNat <= maxLength / spec.blockSize /\
    Aligned spec.blockSize alignmentTokens count /\
    (∀ j, spec.NeedsBlock (count * spec.blockSize) j -> (cached j).isSome) /\
    (useEagle = true -> (cached count).isSome)}

/-- The rows of the longest such length, or none if there is no such length. -/
def LongestWindowHit (rows : List Row) : Prop :=
  (IsGreatest (windowHits spec cached maxLength useEagle alignmentTokens) rows.length \/
      rows = [] /\ windowHits spec cached maxLength useEagle alignmentTokens = ∅) /\
    ∀ j, spec.NeedsBlock (rows.length * spec.blockSize) j -> rows[j]? = cached j

/-- With the eagle rule the longest length fills the window or every length is
aligned; without it, the block before its end is cached. -/
def WindowFilled (slidingWindow : Nat) : Prop :=
  ∀ count, IsGreatest (windowHits spec cached maxLength useEagle alignmentTokens) count ->
    count = 0 \/
      if useEagle then
        spec.blockSize = alignmentTokens \/ slidingWindow - 1 <= count * spec.blockSize
      else (cached (count - 1)).isSome

variable {spec cached maxLength useEagle alignmentTokens} {slidingWindow : Nat}
  (kind : spec.kind = .slidingWindow slidingWindow)
include kind

theorem needsBlock_window_iff (count j : Nat) :
    spec.NeedsBlock (count * spec.blockSize) j <->
      j < count /\ count - cdiv (slidingWindow - 1) spec.blockSize <= j := by
  rw [<- window_token_iff spec.blockSize_pos]
  simp only [NeedsBlock, kind]

/-- In blocks, the eagle rule moves the end of the window by one. -/
theorem mem_windowHits_iff (count : Nat) :
    count ∈ windowHits spec cached maxLength useEagle alignmentTokens <->
      count + useEagle.toNat <= maxLength / spec.blockSize /\
        Aligned spec.blockSize alignmentTokens count /\
        WindowCached cached (cdiv (slidingWindow - 1) spec.blockSize + useEagle.toNat)
          (count + useEagle.toNat) := by
  simp only [windowHits, Set.mem_ofPred_eq, needsBlock_window_iff kind, WindowCached]
  refine and_congr_right fun _ => and_congr_right fun _ => ?_
  cases useEagle with
  | false =>
    simp only [Bool.toNat_false, Nat.add_zero, Bool.false_eq_true, false_implies, and_true]
    exact ⟨fun accepted j lower upper => accepted j ⟨upper, lower⟩,
      fun accepted j looked => accepted j looked.2 looked.1⟩
  | true =>
    simp only [Bool.toNat_true, Nat.add_sub_add_right, true_implies]
    constructor
    · rintro ⟨accepted, next⟩ j lower upper
      rcases Nat.lt_succ_iff_lt_or_eq.mp upper with inside | rfl
      · exact accepted j ⟨inside, lower⟩
      · exact next
    intro accepted
    exact ⟨fun j looked => accepted j looked.2 (Nat.lt_succ_of_lt looked.1),
      accepted count (Nat.sub_le _ _) (Nat.lt_succ_self count)⟩

theorem slidingWindowHit_plain_iff (nullRow : Row) :
    LongestWindowHit spec cached maxLength false alignmentTokens
        (slidingWindowHit cached spec.blockSize alignmentTokens false nullRow slidingWindow
          (maxLength / spec.blockSize)) <->
      WindowFilled spec cached maxLength false alignmentTokens slidingWindow := by
  have result := slidingWindowHit_spec cached spec.blockSize alignmentTokens nullRow slidingWindow
    (maxLength / spec.blockSize)
  have isHit := @mem_windowHits_iff spec cached maxLength false alignmentTokens _ kind
  have isNeeded := needsBlock_window_iff kind
  unfold LongestWindowHit WindowFilled
  generalize slidingWindowHit cached spec.blockSize alignmentTokens false nullRow slidingWindow
    (maxLength / spec.blockSize) = rows at result ⊢
  generalize windowHits spec cached maxLength false alignmentTokens = hits at isHit ⊢
  rcases result with ⟨within, aligned, accepted, found, maximal⟩
  simp only [windowBlocks] at accepted maximal found
  generalize cdiv (slidingWindow - 1) spec.blockSize = needed at *
  have asked (count : Nat) : WindowCached cached (max 1 needed) count <->
      WindowCached cached needed count /\ (count = 0 \/ (cached (count - 1)).isSome) := by
    simp only [WindowCached]
    constructor
    · intro cachedAll
      refine ⟨fun j lower upper => cachedAll j (by omega) upper, ?_⟩
      by_cases empty : count = 0
      · exact Or.inl empty
      · exact Or.inr (cachedAll _ (by omega) (by omega))
    rintro ⟨cachedAll, _ | _⟩ j lower upper
    · omega
    by_cases inside : count - needed <= j
    · exact cachedAll j inside upper
    · rwa [show j = count - 1 by omega]
  rw [asked] at accepted
  have mem : rows.length ∈ hits := (isHit _).mpr ⟨within, aligned, accepted.1⟩
  constructor
  · rintro ⟨greatest | ⟨-, nothing⟩, -⟩ count isGreatest
    · rw [isGreatest.unique greatest]
      exact accepted.2
    · exact absurd (nothing ▸ mem) (Set.notMem_empty _)
  intro filled
  have bounded : BddAbove hits := ⟨_, fun count hit => ((isHit count).mp hit).1⟩
  have longest := Nat.sSup_mem ⟨_, mem⟩ bounded
  have last := filled _ ⟨longest, fun count hit => le_csSup bounded hit⟩
  rcases (isHit _).mp longest with ⟨below, isAligned, cachedAll⟩
  have upper := maximal _ below isAligned ((asked _).mpr ⟨cachedAll, last⟩)
  refine ⟨Or.inl ⟨mem, fun count hit => (le_csSup bounded hit).trans upper⟩, ?_⟩
  intro j isLooked
  rcases (isNeeded _ _).mp isLooked with ⟨inside, _⟩
  exact found j (by omega) inside

theorem slidingWindowHit_eagle_iff (divides : spec.blockSize ∣ alignmentTokens) (nullRow : Row) :
    LongestWindowHit spec cached maxLength true alignmentTokens
        (slidingWindowHit cached spec.blockSize alignmentTokens true nullRow slidingWindow
          (maxLength / spec.blockSize)) <->
      WindowFilled spec cached maxLength true alignmentTokens slidingWindow := by
  have isHit := @mem_windowHits_iff spec cached maxLength true alignmentTokens _ kind
  have isNeeded := needsBlock_window_iff kind
  have fills (n : Nat) : slidingWindow - 1 <= n * spec.blockSize <->
      cdiv (slidingWindow - 1) spec.blockSize <= n := by
    rw [<- Nat.not_lt, <- Nat.not_lt, lt_cdiv_iff spec.blockSize_pos]
  unfold LongestWindowHit WindowFilled
  rw [slidingWindowHit_eagle_eq]
  simp only [fills, if_true]
  generalize windowHits spec cached maxLength true alignmentTokens = hits at isHit ⊢
  generalize cdiv (slidingWindow - 1) spec.blockSize = needed at *
  generalize maxLength / spec.blockSize = maxNumBlocks at *
  have initially : ScanRun cached spec.blockSize alignmentTokens true (needed + 1) maxNumBlocks
      maxNumBlocks (maxNumBlocks + 0) (List.replicate maxNumBlocks nullRow) :=
    ⟨length_replicate, le_rfl, fun j lower upper => by omega, fun longer => by omega,
      fun count bound _ _ => bound⟩
  rcases slidingWindowScan_run initially (Nat.succ_pos _) with ⟨stop, rows, held, found⟩
  have upper (count : Nat) (hit : count ∈ hits) : count < stop := by
    rcases (isHit count).mp hit with ⟨within, aligned, accepted⟩
    exact held.maximal count within aligned accepted
  rw [found]
  cases stop with
  | zero =>
    refine ⟨fun _ count greatest => absurd (upper count greatest.1) (Nat.not_lt_zero count),
      fun _ => ⟨Or.inr ⟨rfl, ?_⟩, fun j isLooked => ?_⟩⟩
    · exact Set.eq_empty_of_forall_notMem fun count hit => Nat.not_lt_zero count (upper count hit)
    · exact absurd ((isNeeded 0 j).mp isLooked).1 (Nat.not_lt_zero j)
  | succ n =>
    have within := held.within
    have aligned : Aligned spec.blockSize alignmentTokens n := held.aligned (by omega)
    have greatest : IsGreatest hits n :=
      ⟨(isHit n).mpr ⟨within, aligned, fun j lower inside => (held.run j lower inside).1⟩,
        fun count hit => Nat.le_of_lt_succ (upper count hit)⟩
    have size : (rows.take n).length = n := by
      rw [length_take, held.size]
      omega
    have dropped : (rows.take (n + 1)).dropLast = rows.take n := by
      rw [dropLast_eq_take, length_take, take_take, held.size]
      congr 1
      omega
    by_cases enough : n = 0 \/ spec.blockSize = alignmentTokens \/ needed <= n
    · have kept : (if needed + 1 <= n + 1 then rows.take (n + 1)
          else alignRows spec.blockSize alignmentTokens (rows.take (n + 1))).dropLast =
            rows.take n := by
        split
        · exact dropped
        case isFalse short =>
          rcases enough with rfl | same | fits
          · have single := alignRows_length_le spec.blockSize alignmentTokens (rows.take (0 + 1))
            apply eq_nil_of_length_eq_zero
            rw [length_dropLast]
            rw [length_take] at single
            omega
          · rw [alignRows_of_aligned, dropped]
            rw [same]
            exact Dvd.intro_left _ rfl
          · omega
      rw [kept, alignRows_of_aligned _ _ (by rwa [size]), size]
      refine ⟨fun _ count isGreatest => by rwa [isGreatest.unique greatest],
        fun _ => ⟨Or.inl greatest, fun j isLooked => ?_⟩⟩
      rcases (isNeeded n j).mp isLooked with ⟨inside, _⟩
      rw [List.getElem?_take_of_lt inside]
      exact (held.run j (by omega) (by omega)).2
    refine ⟨?_, fun filled => absurd (filled n greatest) enough⟩
    rw [not_or, not_or] at enough
    rw [if_neg (by omega)]
    have short := alignRows_short rows divides enough.2.1 aligned
    rintro ⟨isGreatest | ⟨-, nothing⟩, -⟩
    · have same := isGreatest.unique greatest
      have bound := alignRows_length_le spec.blockSize alignmentTokens
        (alignRows spec.blockSize alignmentTokens (rows.take (n + 1))).dropLast
      rw [length_dropLast] at bound
      omega
    · exact absurd (nothing ▸ greatest.1) (Set.notMem_empty n)

end Longest

variable {H : Type} (pool : BlockPool H) (blockHashes : List H) (maxLength : Nat)
  (groupIds : List Nat) (spec : KVCacheSpec) (useEagle : Bool) (alignmentTokens : Nat)

/-- The lookup of a window returns the longest hit. -/
def FindsLongestHit : Prop :=
  ∃ rows, findLongestCacheHit pool blockHashes maxLength groupIds spec useEagle
      alignmentTokens = some rows /\
    LongestWindowHit spec (cachedRow pool blockHashes groupIds spec) maxLength useEagle
      alignmentTokens rows

/-- It does so exactly when the longest length fills the window, or when its
last block is cached. -/
theorem findLongestCacheHit_window_iff (slidingWindow : Nat)
    (kind : spec.kind = .slidingWindow slidingWindow)
    (divides : spec.blockSize ∣ alignmentTokens) :
    FindsLongestHit pool blockHashes maxLength groupIds spec useEagle alignmentTokens <->
      WindowFilled spec (cachedRow pool blockHashes groupIds spec) maxLength useEagle
        alignmentTokens slidingWindow := by
  simp only [FindsLongestHit, findLongestCacheHit, kind, Option.some.injEq, exists_eq_left']
  cases useEagle with
  | false => exact slidingWindowHit_plain_iff kind _
  | true => exact slidingWindowHit_eagle_iff kind divides _

def windowSpec (slidingWindow : Nat) : KVCacheSpec := ⟨16, zero_lt_sixteen, .slidingWindow slidingWindow, 0⟩

/-- Three cached blocks in a window of 17 tokens: two of them are found, and the
block behind them is dropped. -/
theorem window_of_two_blocks_found :
    FindsLongestHit (poolCaching 16 [[1, 2, 3]]) [0, 1, 2] 48 [0] (windowSpec 17) true 32 := by
  refine (findLongestCacheHit_window_iff _ _ _ _ _ true 32 17 rfl (by decide)).mpr ?_
  intro count _
  cases count with
  | zero => exact Or.inl rfl
  | succ count => exact Or.inr (Or.inr (Nat.le_mul_of_pos_left _ (Nat.succ_pos count)))

/-- The same blocks in a window of 100 tokens: 32 tokens can be used, but the
lookup returns none. -/
theorem wide_window_loses_hit :
    ¬ FindsLongestHit (poolCaching 16 [[1, 2, 3]]) [0, 1, 2] 48 [0] (windowSpec 100) true 32 := by
  have lost : findLongestCacheHit (poolCaching 16 [[1, 2, 3]]) [0, 1, 2] 48 [0] (windowSpec 100)
      true 32 = some [] := by
    decide +kernel
  have cachedBelow : ∀ j < 3,
      (cachedRow (poolCaching 16 [[1, 2, 3]]) [0, 1, 2] [0] (windowSpec 100) j).isSome := by
    decide +kernel
  have usable : 2 ∈ windowHits (windowSpec 100)
      (cachedRow (poolCaching 16 [[1, 2, 3]]) [0, 1, 2] [0] (windowSpec 100)) 48 true 32 :=
    (mem_windowHits_iff rfl 2).mpr ⟨by decide, ⟨1, rfl⟩, fun j _ upper => cachedBelow j upper⟩
  rintro ⟨_, found, greatest | ⟨-, nothing⟩, -⟩
  · cases lost.symm.trans found
    exact absurd (greatest.2 usable) (by decide)
  · exact absurd (nothing ▸ usable) (Set.notMem_empty 2)

end Vllm.KVCache
