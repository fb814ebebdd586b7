import Mathlib.Algebra.CharP.Defs
import Mathlib.Algebra.GroupWithZero.Nat
import Mathlib.Algebra.Order.BigOperators.Group.List
import Mathlib.Algebra.Order.Group.Nat
import Mathlib.Algebra.Order.Group.Unbundled.Abs
import Mathlib.Algebra.Order.Sub.Basic
import Mathlib.Algebra.Ring.Int.Defs
import Mathlib.Data.Nat.Count
import Mathlib.Tactic.Common

namespace Vllm.Worker.Ubatch

open List

/-!
# Splitting a batch into micro-batches

The tokens of a batch are cut at multiples of a split point.  A request can be
cut at its start, at its end or at both, and then the metadata of each part is
adjusted so that every query token sees what it saw in the whole batch.
-/

/-- A half-open range. -/
structure Slice where
  start : Nat
  stop : Nat
  deriving DecidableEq

/-- The requests and the tokens of a microbatch. -/
structure UBatchSlice where
  requestSlice : Slice
  tokenSlice : Slice
  deriving DecidableEq

def UBatchSlice.isEmpty (part : UBatchSlice) : Bool :=
  part.requestSlice.start = part.requestSlice.stop \/ part.tokenSlice.start = part.tokenSlice.stop

def UBatchSlice.numTokens (part : UBatchSlice) : Int :=
  part.tokenSlice.stop - part.tokenSlice.start

/-- Whether the last microbatch has padding only. -/
def isLastUbatchEmpty (origNumTokens paddedNumTokens numUbatches : Nat) : Bool :=
  origNumTokens <= paddedNumTokens / numUbatches * (numUbatches - 1)

/-- Let the last slice take the padding. -/
def padOutUbatchSlices (ubatchSlices : List UBatchSlice) (numTotalTokens numReqsPadded : Nat) :
    List UBatchSlice :=
  ubatchSlices.dropLast ++ ubatchSlices.getLast?.toList.map fun last =>
    ⟨⟨last.requestSlice.start, numReqsPadded⟩, ⟨last.tokenSlice.start, numTotalTokens⟩⟩

/-- Entry `k` of the sums of `np.cumsum` behind a zero. -/
def cuNumTokens (numScheduledTokens : List Nat) (k : Nat) : Nat :=
  (numScheduledTokens.take k).sum

/-- The loop over the split points.  In a sorted array `np.searchsorted` counts the
smaller entries, and with `side="right"` also the equal ones. -/
def createUbatchSlices (cu : Nat -> Nat) (numReqs startToken : Nat) : List Nat -> List UBatchSlice
  | [] => []
  | endToken :: points =>
    ⟨⟨Nat.count (cu · <= startToken) (numReqs + 1) - 1, Nat.count (cu · < endToken) (numReqs + 1)⟩,
      ⟨startToken, endToken⟩⟩ :: createUbatchSlices cu numReqs endToken points

/-- The multiples of the split point. -/
def tokenSplitPoints (splitPoint numUbatches : Nat) : List Nat :=
  (range' 1 (numUbatches - 1)).map (splitPoint * ·)

/-- The slices without and with padding; `none` where the assertion fails. -/
def maybeCreateUbatchSlices (shouldUbatch : Bool) (numScheduledTokens : List Nat)
    (numTokensPadded numReqsPadded numUbatches : Nat) (splitPoint : Option Nat) :
    Option (Option (List UBatchSlice × List UBatchSlice)) :=
  if shouldUbatch then
    let splitPoint := splitPoint.getD (numTokensPadded / numUbatches)
    let cu := cuNumTokens numScheduledTokens
    let numReqs := numScheduledTokens.length
    let slices := createUbatchSlices cu numReqs 0
      (tokenSplitPoints splitPoint numUbatches ++ [cu numReqs])
    let padded := padOutUbatchSlices slices numTokensPadded numReqsPadded
    if (padded.map (·.numTokens)).sum = numTokensPadded then some (some (slices, padded)) else none
  else some none

/-- A tensor is a function of the index.  There are `numReqs` entries, one more for the
start locations.  The two last fields are private in the source. -/
structure CommonAttentionMetadata (B S : Type) where
  queryStartLoc : Nat -> Int
  queryStartLocCpu : Nat -> Int
  seqLens : Nat -> Int
  numReqs : Nat
  numActualTokens : Int
  maxQueryLen : Int
  maxSeqLen : Int
  blockTableTensor : Nat -> B
  slotMapping : Nat -> S
  seqLensCpuUpperBound : Option (Nat -> Int)
  ownSeqLensCpu : Option (Nat -> Int)
  ownNumComputedTokensCpu : Option (Nat -> Int)

variable {B S : Type}

def queryLens (queryStartLoc : Nat -> Int) : Nat -> Int :=
  fun k => queryStartLoc (k + 1) - queryStartLoc k

def CommonAttentionMetadata.numComputedTokensCpu (metadata : CommonAttentionMetadata B S) :
    Nat -> Int :=
  metadata.ownNumComputedTokensCpu.getD fun k =>
    metadata.ownSeqLensCpu.getD metadata.seqLens k - queryLens metadata.queryStartLocCpu k

/-- The start locations of the requests of a slice, from zero on. -/
def sliceQueryStartLocs (queryStartLoc : Nat -> Int) (requestSlice : Slice) : Nat -> Int :=
  fun k => queryStartLoc (requestSlice.start + k) - queryStartLoc requestSlice.start

/-- The first request began in an earlier slice, if it did. -/
def skipFirst (firstTok firstLoc : Int) (tensor : Nat -> Int) : Nat -> Int :=
  fun k => if firstLoc < firstTok /\ 1 <= k then tensor k - (firstTok - firstLoc) else tensor k

/-- The last request goes on in a later slice, if it does. -/
def skipLast (stop lastLoc : Int) (last : Nat) (tensor : Nat -> Int) : Nat -> Int :=
  fun k => if stop - 1 < lastLoc - 1 /\ k = last then tensor k - (lastLoc - stop) else tensor k

def maxEntry (length : Nat) (tensor : Nat -> Int) : Int :=
  (range length).foldl (fun greatest k => max greatest (tensor k)) (tensor 0)

/-- `none` where an assertion fails or an index is out of range. -/
def makeMetadataWithSlice (ubatchSlice : UBatchSlice) (metadata : CommonAttentionMetadata B S) :
    Option (CommonAttentionMetadata B S) :=
  let ⟨⟨first, last⟩, ⟨start, stop⟩⟩ := ubatchSlice
  let startLocs := metadata.queryStartLocCpu
  if ubatchSlice.isEmpty = false /\ first < last /\ last <= metadata.numReqs /\
      startLocs first <= start /\ start < startLocs (first + 1) then
    let skipLast := skipLast stop (startLocs last)
    let adjust := fun locs => skipLast (last - first)
      (skipFirst start (startLocs first) (sliceQueryStartLocs locs ⟨first, last⟩))
    let lens := fun tensor => skipLast (last - first - 1) fun k => tensor (first + k)
    let maxQueryLen := maxEntry (last - first) fun k => |queryLens (adjust startLocs) k|
    metadata.seqLensCpuUpperBound.map fun bound => {
      queryStartLoc := adjust metadata.queryStartLoc
      queryStartLocCpu := adjust startLocs
      seqLens := lens metadata.seqLens
      numReqs := last - first
      numActualTokens := stop - start
      maxQueryLen := if maxQueryLen = 0 then metadata.maxQueryLen else maxQueryLen
      maxSeqLen := maxEntry (last - first) (lens bound)
      blockTableTensor := fun k => metadata.blockTableTensor (first + k)
      slotMapping := fun k => metadata.slotMapping (start + k)
      seqLensCpuUpperBound := some (lens bound)
      ownSeqLensCpu := metadata.ownSeqLensCpu.map lens
      ownNumComputedTokensCpu := metadata.ownNumComputedTokensCpu.map fun tensor k =>
        tensor (first + k) }
  else none

/-- In a sorted array the entries that satisfy a condition come first. -/
theorem lt_count_iff {p : Nat -> Prop} [DecidablePred p] {m : Nat}
    (sorted : ∀ i k, i <= k -> p k -> p i) (past : ¬ p m) (k : Nat) :
    p k <-> k < Nat.count p (m + 1) := by
  constructor
  · intro holds
    have below : k < m := not_le.mp fun le => past (sorted m k le holds)
    have all : Nat.count p (k + 1) = k + 1 :=
      Nat.count_iff_forall.mpr fun i _ => sorted i k (by omega) holds
    exact all.ge.trans (Nat.count_monotone p (by omega))
  · intro below
    by_contra fails
    have behind : Nat.count (fun i => p (k + i)) (m + 1 - k) = 0 :=
      Nat.count_iff_forall_not.mpr fun i _ holds => fails (sorted k _ (by omega) holds)
    have parts := Nat.count_add p k (m + 1 - k)
    have whole := @Nat.count_le p _ (m + 1)
    have before := @Nat.count_le p _ k
    rw [behind, show k + (m + 1 - k) = m + 1 by omega] at parts
    omega

/-- The requests `first <= k < last` are those with a token `start <= t < stop`. -/
structure Spans (cu : Nat -> Nat) (numReqs first last start stop : Nat) : Prop where
  tokens : start < stop
  inside : last <= numReqs
  first : ∀ k, cu k <= start <-> k <= first
  last : ∀ k, cu k < stop <-> k < last

section Slices

variable {cu : Nat -> Nat} {points : List Nat} {numReqs start : Nat}

theorem createUbatchSlices_starts : (createUbatchSlices cu numReqs start points).map
    (·.tokenSlice.start) = (start :: points).dropLast := by
  induction points generalizing start with
  | nil => rfl
  | cons stop points ih => exact congrArg (start :: ·) ih

def UBatchSlice.tokens (part : UBatchSlice) : List Nat :=
  range' part.tokenSlice.start (part.tokenSlice.stop - part.tokenSlice.start)

theorem createUbatchSlices_tokens (chain : (start :: points).IsChain (· < ·)) :
    (createUbatchSlices cu numReqs start points).flatMap UBatchSlice.tokens =
        range' start (points.getLastD start - start) /\ start <= points.getLastD start := by
  induction points generalizing start with
  | nil => simp [createUbatchSlices]
  | cons stop points ih =>
    rw [isChain_cons_cons] at chain
    rcases ih chain.2 with ⟨tokens, le⟩
    rw [createUbatchSlices, flatMap_cons, tokens, getLastD_cons]
    have joined := @range'_append_1 start (stop - start) (points.getLastD stop - stop)
    rw [show start + (stop - start) = stop by omega,
      show stop - start + (points.getLastD stop - stop) = points.getLastD stop - start by omega]
      at joined
    exact ⟨joined, by omega⟩

theorem createUbatchSlices_spans (sorted : Monotone cu) (zero : cu 0 = 0)
    (chain : (start :: points).IsChain (· < ·)) (ends : points.getLastD start <= cu numReqs) :
    ∀ part ∈ createUbatchSlices cu numReqs start points, Spans cu numReqs part.requestSlice.start
      part.requestSlice.stop part.tokenSlice.start part.tokenSlice.stop := by
  induction points generalizing start with
  | nil => exact fun _ member => absurd member not_mem_nil
  | cons stop points ih =>
    rw [isChain_cons_cons] at chain
    rw [getLastD_cons] at ends
    refine forall_mem_cons.mpr ⟨?_, ih chain.2 ends⟩
    have le := (@createUbatchSlices_tokens cu _ numReqs _ chain.2).2
    have first := @lt_count_iff (cu · <= start) _ numReqs
      (fun _ _ le holds => (sorted le).trans holds) (by omega)
    have last := @lt_count_iff (cu · < stop) _ numReqs
      (fun _ _ le holds => (sorted le).trans_lt holds) (by omega)
    have hasFirst := first 0
    have hasLast := last numReqs
    refine ⟨chain.1, ?_, fun k => (first k).trans ?_, last⟩
    · change Nat.count (cu · < stop) (numReqs + 1) <= numReqs
      omega
    · change _ <-> k <= Nat.count (cu · <= start) (numReqs + 1) - 1
      omega

/-- Padding only moves the end. -/
theorem padOutUbatchSlices_numTokens {numTotalTokens numReqsPadded : Nat} (nonempty : points ≠ []) :
    ((padOutUbatchSlices (createUbatchSlices cu numReqs start points) numTotalTokens
      numReqsPadded).map (·.numTokens)).sum = numTotalTokens - start := by
  induction points generalizing start with
  | nil => exact absurd rfl nonempty
  | cons stop points ih =>
    cases points with
    | nil => simp [createUbatchSlices, padOutUbatchSlices, UBatchSlice.numTokens]
    | cons later points =>
      have rest := @ih stop (cons_ne_nil _ _)
      simp only [createUbatchSlices, padOutUbatchSlices, dropLast_cons_cons, getLast?_cons_cons,
        cons_append, map_cons, sum_cons, UBatchSlice.numTokens] at rest ⊢
      rw [rest]
      omega

end Slices

/-- The metadata of requests whose query tokens start at `cu`. -/
structure Describes (cu : Nat -> Nat) (metadata : CommonAttentionMetadata B S) : Prop where
  locs : ∀ k < metadata.numReqs + 1, metadata.queryStartLoc k = cu k
  locsCpu : metadata.queryStartLocCpu = metadata.queryStartLoc
  ownSeqLens : ∀ lens ∈ metadata.ownSeqLensCpu, lens = metadata.seqLens
  computed : ∀ tokens ∈ metadata.ownNumComputedTokensCpu, ∀ k < metadata.numReqs,
    tokens k = metadata.seqLens k - queryLens metadata.queryStartLoc k

/-- The row, the slot and the last key position of query token `t`, if it is one of
request `r`. -/
def attends (metadata : CommonAttentionMetadata B S) (r t : Nat) : Option (B × S × Int) :=
  if r < metadata.numReqs /\ metadata.queryStartLoc r <= t /\ t < metadata.queryStartLoc (r + 1) then
    some (metadata.blockTableTensor r, metadata.slotMapping t,
      metadata.seqLens r - (metadata.queryStartLoc (r + 1) - t))
  else none

/-- Each query is cut to the tokens of the slice, and a sequence ends with its query. -/
structure Cut (cu : Nat -> Nat) (first last start stop : Nat)
    (metadata sliced : CommonAttentionMetadata B S) : Prop where
  reqs : sliced.numReqs = last - first
  locs : ∀ k < last - first + 1, sliced.queryStartLoc k =
    (min (max (cu (first + k)) start) stop - start : Nat)
  locsCpu : sliced.queryStartLocCpu = sliced.queryStartLoc
  seqLens : ∀ k < last - first, sliced.seqLens k =
    metadata.seqLens (first + k) - (cu (first + k + 1) - stop : Nat)
  ownSeqLens : ∀ lens ∈ sliced.ownSeqLensCpu, lens = sliced.seqLens
  computed : sliced.ownNumComputedTokensCpu =
    metadata.ownNumComputedTokensCpu.map fun tokens k => tokens (first + k)
  rows : ∀ k, sliced.blockTableTensor k = metadata.blockTableTensor (first + k)
  slots : ∀ k, sliced.slotMapping k = metadata.slotMapping (start + k)

section Metadata

variable {cu : Nat -> Nat} {first last start stop : Nat}
  {metadata sliced : CommonAttentionMetadata B S}
  (spans : Spans cu metadata.numReqs first last start stop)
include spans

/-- Where the first two requests begin and the last one ends. -/
theorem Spans.bounds : first < last /\ cu first <= start /\ start < cu (first + 1) /\
    stop <= cu last := by
  have tokens := spans.tokens
  have own := spans.first first
  have next := spans.first (first + 1)
  have touched := spans.last first
  have ending := spans.last last
  omega

theorem Spans.nonempty : UBatchSlice.isEmpty ⟨⟨first, last⟩, ⟨start, stop⟩⟩ = false := by
  have requests := spans.bounds.1
  have tokens := spans.tokens
  simp only [UBatchSlice.isEmpty, decide_eq_false_iff_not]
  omega

/-- The two adjustments cut a query to the tokens of the slice. -/
theorem skip_locs {locs : Nat -> Int} (same : ∀ k < metadata.numReqs + 1, locs k = cu k) (k : Nat)
    (within : k < last - first + 1) : skipLast stop (cu last) (last - first)
      (skipFirst start (cu first) (sliceQueryStartLocs locs ⟨first, last⟩)) k =
        (min (max (cu (first + k)) start) stop - start : Nat) := by
  rcases spans.bounds with ⟨requests, own, next, ending⟩
  have inside := spans.inside
  have tokens := spans.tokens
  have begins := spans.first (first + k)
  have ends := spans.last (first + k)
  simp only [skipLast, skipFirst, sliceQueryStartLocs, same (first + k) (by omega),
    same first (by omega)]
  by_cases isFirst : k = 0
  · rw [isFirst, add_zero]
    split <;> split <;> omega
  by_cases isLast : first + k = last
  · rw [isLast] at begins ⊢
    split <;> split <;> omega
  · split <;> split <;> omega

theorem skip_lens {lens : Nat -> Int} {k : Nat} (within : k < last - first) :
    skipLast stop (cu last) (last - first - 1) (fun k => lens (first + k)) k =
      lens (first + k) - (cu (first + k + 1) - stop : Nat) := by
  have ends := spans.last (first + k + 1)
  simp only [skipLast]
  by_cases isLast : first + k + 1 = last
  · rw [isLast] at ends ⊢
    split <;> omega
  · rw [if_neg (by omega)]
    omega

variable (describes : Describes cu metadata)
include describes

/-- Only the bound on the sequence lengths can be missing. -/
theorem makeMetadataWithSlice_cut : ∃ sliced,
    makeMetadataWithSlice ⟨⟨first, last⟩, ⟨start, stop⟩⟩ metadata =
      metadata.seqLensCpuUpperBound.map sliced /\
        ∀ bound, Cut cu first last start stop metadata (sliced bound) := by
  rcases spans.bounds with ⟨requests, own, next, ending⟩
  have inside := spans.inside
  simp only [makeMetadataWithSlice, spans.nonempty, describes.locsCpu, describes.locs last (by omega),
    describes.locs first (by omega), describes.locs (first + 1) (by omega)]
  refine ⟨_, if_pos ⟨trivial, by omega⟩, fun bound => ⟨rfl, skip_locs spans describes.locs, rfl,
    fun k => skip_lens spans, ?_, rfl, fun _ => rfl, fun _ => rfl⟩⟩
  intro lens copied
  rcases Option.map_eq_some_iff.mp copied with ⟨seqLens, isOwn, rfl⟩
  rw [describes.ownSeqLens seqLens isOwn]

/-- A query token is in the slice under its own request, with what it had. -/
theorem Cut.attends_iff (cut : Cut cu first last start stop metadata sliced) {r j : Nat}
    {seen : B × S × Int} (token : start + j < stop) :
    attends metadata r (start + j) = some seen <->
      ∃ k, r = first + k /\ attends sliced k j = some seen := by
  have inside := spans.inside
  have same : ∀ k < last - first, attends metadata (first + k) (start + j) = attends sliced k j := by
    intro k below
    simp only [attends, cut.reqs, cut.rows, cut.slots, describes.locs (first + k) (by omega),
      describes.locs (first + k + 1) (by omega), cut.locs k (by omega),
      cut.locs (k + 1) (by omega), cut.seqLens k below, <- add_assoc]
    by_cases visible : cu (first + k) <= start + j /\ start + j < cu (first + k + 1)
    · rw [if_pos (by omega), if_pos (by omega)]
      simp only [Option.some.injEq, Prod.mk.injEq, true_and]
      omega
    · rw [if_neg (by omega), if_neg (by omega)]
  constructor
  · intro found
    have within := (ite_ne_right_iff.mp (ne_of_eq_of_ne found (Option.some_ne_none _))).1
    rw [describes.locs r (by omega), describes.locs (r + 1) (by omega)] at within
    have own := spans.last r
    have next := spans.first (r + 1)
    refine ⟨r - first, by omega, ?_⟩
    rw [<- same _ (by omega), show first + (r - first) = r by omega]
    exact found
  · rintro ⟨k, rfl, found⟩
    have within := (ite_ne_right_iff.mp (ne_of_eq_of_ne found (Option.some_ne_none _))).1
    rw [same k (cut.reqs ▸ within.1)]
    exact found

/-- The count of computed tokens is copied, so it is the one of the slice only if the
slice starts with a request. -/
theorem Cut.computed_iff (cut : Cut cu first last start stop metadata sliced) :
    (∀ k < sliced.numReqs, sliced.numComputedTokensCpu k =
        sliced.seqLens k - queryLens sliced.queryStartLoc k) <->
      metadata.ownNumComputedTokensCpu = none \/ cu first = start := by
  rcases spans.bounds with ⟨requests, own, next, ending⟩
  have inside := spans.inside
  rw [CommonAttentionMetadata.numComputedTokensCpu, cut.computed, cut.reqs]
  cases found : metadata.ownNumComputedTokensCpu with
  | none =>
    have lens : sliced.ownSeqLensCpu.getD sliced.seqLens = sliced.seqLens := by
      cases isOwn : sliced.ownSeqLensCpu with
      | none => rfl
      | some lens => exact cut.ownSeqLens lens isOwn
    rw [lens, cut.locsCpu]
    exact iff_of_true (fun _ _ => rfl) (Or.inl rfl)
  | some computed =>
    have entry : ∀ k < last - first, computed (first + k) =
        sliced.seqLens k - queryLens sliced.queryStartLoc k <-> start <= cu (first + k) := by
      intro k below
      have begins := spans.first (first + k + 1)
      have ends := spans.last (first + k)
      rw [describes.computed computed found _ (by omega), queryLens, queryLens, cut.seqLens k below,
        cut.locs k (by omega), cut.locs (k + 1) (by omega), describes.locs _ (by omega),
        describes.locs _ (by omega), <- add_assoc]
      omega
    constructor
    · intro same
      exact Or.inr (own.antisymm ((entry 0 (by omega)).mp (same 0 (by omega))))
    · rintro (impossible | aligned) k below
      · cases impossible
      apply (entry k below).mpr
      have begins := spans.first (first + k)
      by_cases isFirst : k = 0
      · rw [isFirst]
        exact aligned.ge
      · omega

/-- What the metadata of a slice has to keep. -/
structure Preserves (part : UBatchSlice) (metadata sliced : CommonAttentionMetadata B S) :
    Prop where
  attends : ∀ r j seen, part.tokenSlice.start + j < part.tokenSlice.stop ->
    (attends metadata r (part.tokenSlice.start + j) = some seen <->
      ∃ k, r = part.requestSlice.start + k /\ attends sliced k j = some seen)
  computed : ∀ k < sliced.numReqs, sliced.numComputedTokensCpu k =
    sliced.seqLens k - queryLens sliced.queryStartLoc k

theorem preserves_iff (sorted : Monotone cu) :
    (∃ sliced, makeMetadataWithSlice ⟨⟨first, last⟩, ⟨start, stop⟩⟩ metadata = some sliced /\
        Preserves ⟨⟨first, last⟩, ⟨start, stop⟩⟩ metadata sliced) <->
      metadata.seqLensCpuUpperBound.isSome /\
        (metadata.ownNumComputedTokensCpu = none \/ start ∈ Set.range cu) := by
  have aligned : cu first = start <-> start ∈ Set.range cu := by
    constructor
    · exact fun isStart => ⟨first, isStart⟩
    · rintro ⟨k, rfl⟩
      exact spans.bounds.2.1.antisymm (sorted ((spans.first k).mp le_rfl))
  rcases makeMetadataWithSlice_cut spans describes with ⟨sliced, made, cut⟩
  rw [made, <- aligned]
  cases metadata.seqLensCpuUpperBound with
  | none => simp
  | some bound =>
    rw [<- (cut bound).computed_iff spans describes]
    constructor
    · rintro ⟨_, same, preserves⟩
      cases same
      exact ⟨rfl, preserves.computed⟩
    · intro computed
      exact ⟨_, rfl, fun _ _ _ => (cut bound).attends_iff spans describes, computed.2⟩

end Metadata

/-- The slices cover the scheduled tokens once and in order, none is empty, and the
metadata of each keeps what it has to. -/
def SplitPreserves (scheduled : List Nat) (padded numReqsPadded n : Nat)
    (metadata : CommonAttentionMetadata B S) : Prop :=
  ∃ slices slicesPadded, maybeCreateUbatchSlices true scheduled padded numReqsPadded n none =
      some (some (slices, slicesPadded)) /\
    slices.flatMap UBatchSlice.tokens = range scheduled.sum /\
    ∀ part ∈ slices, part.isEmpty = false /\
      ∃ sliced, makeMetadataWithSlice part metadata = some sliced /\
        Preserves part metadata sliced

section Batches

variable {scheduled : List Nat} {padded n : Nat}

theorem cuNumTokens_mono : Monotone (cuNumTokens scheduled) := by
  intro i k le
  exact (take_sublist_take_left le).sum_le_sum fun _ _ => Nat.zero_le _

theorem tokenSplitPoints_eq (two : 2 <= n) {splitPoint : Nat} :
    0 :: tokenSplitPoints splitPoint n = (range n).map (splitPoint * ·) := by
  rcases Nat.exists_eq_add_of_le' two with ⟨m, rfl⟩
  rw [range_eq_range', range'_succ, map_cons, mul_zero]
  rfl

section Split

variable (two : 2 <= n) (enough : n <= padded)
  (nonempty : isLastUbatchEmpty scheduled.sum padded n = false)
include two enough nonempty

/-- The split points grow up to the end of the batch. -/
theorem tokenSplitPoints_sorted :
    (0 :: (tokenSplitPoints (padded / n) n ++ [scheduled.sum])).Pairwise (· < ·) := by
  have positive : 0 < padded / n := Nat.div_pos enough (by omega)
  rw [<- cons_append, tokenSplitPoints_eq two, pairwise_append, pairwise_map]
  refine ⟨pairwise_lt_range.imp fun lt => Nat.mul_lt_mul_of_pos_left lt positive,
    pairwise_singleton _ _, fun point member total isTotal => ?_⟩
  rcases mem_map.mp member with ⟨i, below, rfl⟩
  rw [mem_range] at below
  rw [mem_singleton.mp isTotal]
  exact (Nat.mul_le_mul_left _ (show i <= n - 1 by omega)).trans_lt
    (not_le.mp (of_decide_eq_false nonempty))

/-- Each query token keeps what it attends to.  The counts of computed tokens are right
unless a split point lies inside a request of a batch that brings its own. -/
theorem splitPreserves_iff {numReqsPadded : Nat} {metadata : CommonAttentionMetadata B S}
    (reqs : metadata.numReqs = scheduled.length)
    (describes : Describes (cuNumTokens scheduled) metadata) :
    SplitPreserves scheduled padded numReqsPadded n metadata <->
      metadata.seqLensCpuUpperBound.isSome /\ ∀ i < n, metadata.ownNumComputedTokensCpu = none \/
        padded / n * i ∈ Set.range (cuNumTokens scheduled) := by
  have sorted := tokenSplitPoints_sorted two enough nonempty
  have total : cuNumTokens scheduled metadata.numReqs = scheduled.sum := by
    rw [reqs, cuNumTokens, take_length]
  have made : ∃ slicesPadded, maybeCreateUbatchSlices true scheduled padded numReqsPadded n none =
      some (some (createUbatchSlices (cuNumTokens scheduled) metadata.numReqs 0
        (tokenSplitPoints (padded / n) n ++ [scheduled.sum]), slicesPadded)) := by
    simp only [maybeCreateUbatchSlices, if_true, Option.getD_none, <- reqs, total]
    refine ⟨_, if_pos ?_⟩
    rw [padOutUbatchSlices_numTokens (by simp)]
    simp
  rcases made with ⟨slicesPadded, made⟩
  have spans := createUbatchSlices_spans (@cuNumTokens_mono scheduled) rfl sorted.isChain
    (by rw [getLastD_concat, total])
  have starts := @createUbatchSlices_starts (cuNumTokens scheduled)
    (tokenSplitPoints (padded / n) n ++ [scheduled.sum]) metadata.numReqs 0
  rw [<- cons_append, dropLast_concat, tokenSplitPoints_eq two] at starts
  have condition : (metadata.seqLensCpuUpperBound.isSome /\ ∀ i < n,
      metadata.ownNumComputedTokensCpu = none \/
        padded / n * i ∈ Set.range (cuNumTokens scheduled)) <->
      ∀ start ∈ (range n).map (padded / n * ·), metadata.seqLensCpuUpperBound.isSome /\
        (metadata.ownNumComputedTokensCpu = none \/ start ∈ Set.range (cuNumTokens scheduled)) := by
    simp only [forall_mem_map, mem_range]
    constructor
    · exact fun all i below => ⟨all.1, all.2 i below⟩
    · exact fun all => ⟨(all 0 (by omega)).1, fun i below => (all i below).2⟩
  rw [condition, <- starts, forall_mem_map]
  constructor
  · rintro ⟨slices, _, same, _, all⟩ part member
    rw [made, Option.some_inj, Option.some_inj, Prod.mk.injEq] at same
    rw [same.1] at member
    exact (preserves_iff (spans part (same.1 ▸ member)) describes cuNumTokens_mono).mp
      (all part member).2
  · intro all
    refine ⟨_, slicesPadded, made, ?_, fun part member => ?_⟩
    · rw [(createUbatchSlices_tokens sorted.isChain).1, getLastD_concat, range_eq_range']
      rfl
    · exact ⟨(spans part member).nonempty,
        (preserves_iff (spans part member) describes cuNumTokens_mono).mpr (all part member)⟩

end Split

end Batches

/-- A prompt of four tokens in one request. -/
def prompt (computed : Option (Nat -> Int)) : CommonAttentionMetadata Nat Nat :=
  ⟨(4 * ·), (4 * ·), fun _ => 4, 1, 4, 4, 4, id, id, some fun _ => 4, none, computed⟩

theorem prompt_describes {computed : Option (Nat -> Int)}
    (counts : ∀ tokens ∈ computed, tokens 0 = 0) :
    Describes (cuNumTokens [4]) (prompt computed) := by
  have locs : ∀ k : Nat, k < 2 -> 4 * (k : Int) = cuNumTokens [4] k := by decide
  refine ⟨locs, rfl, fun _ impossible => absurd impossible (Option.not_mem_none _), ?_⟩
  intro tokens own k below
  rw [Nat.lt_one_iff.mp below]
  exact counts tokens own

theorem prompt_splitPreserves : SplitPreserves [4] 4 1 2 (prompt none) :=
  (splitPreserves_iff (by decide) (by decide) (by decide) rfl
    (prompt_describes (by simp))).mpr ⟨rfl, fun _ _ => Or.inl rfl⟩

/-- The second half of the prompt has two tokens behind two others, and its count of
computed tokens is still zero. -/
theorem prompt_not_splitPreserves :
    Describes (cuNumTokens [4]) (prompt (some fun _ => 0)) /\
      isLastUbatchEmpty [4].sum 4 2 = false /\
      ¬ SplitPreserves [4] 4 1 2 (prompt (some fun _ => 0)) := by
  refine ⟨prompt_describes (by simp), by decide, ?_⟩
  rintro ⟨slices, _, made, _, all⟩
  have isSlices : [⟨⟨0, 1⟩, ⟨0, 2⟩⟩, ⟨⟨0, 1⟩, ⟨2, 4⟩⟩] = slices :=
    congrArg Prod.fst (Option.some.inj (Option.some.inj made))
  rw [<- isSlices] at all
  rcases (all ⟨⟨0, 1⟩, ⟨2, 4⟩⟩ (by simp)).2 with ⟨_, isSliced, preserves⟩
  cases isSliced
  exact absurd (preserves.computed 0 (by decide)) (by decide)

end Vllm.Worker.Ubatch
