import Mathlib.Algebra.BigOperators.Group.Finset.Piecewise
import Mathlib.Algebra.Field.Rat
import Mathlib.Algebra.Order.BigOperators.Group.Finset
import Mathlib.Algebra.Order.Field.Basic
import Mathlib.Algebra.Order.Ring.Rat
import Mathlib.Data.Nat.SuccPred
import Mathlib.Tactic.FieldSimp
import Mathlib.Tactic.Linarith
import Mathlib.Tactic.Positivity
import Mathlib.Tactic.Ring

namespace Vllm.Sample

/-!
The two kernels that sample from a target distribution with the help of drafts.
`sampleRecoveredTokensKernel` picks a replacement for every draft token, and
`rejectionRandomSampleKernel` walks over the drafts of one request and stores the
replacement at the first one it rejects.  Probabilities are exact numbers of an
ordered field.
-/

section

variable (K : Type) [Field K] [LinearOrder K]

/-- A row of probabilities over the token ids below `vocabSize`. -/
structure Row (vocabSize : Nat) where
  prob : Nat -> K
  nonneg : ∀ token, 0 <= prob token
  total : ∑ token ∈ Finset.range vocabSize, prob token = 1

/-- What the kernels read.  Without `draftProbs` the drafts come from an n-gram
lookup; `syntheticConditionalRates` are given in synthetic mode only. -/
structure Batch where
  vocabSize : Nat
  cuNumDraftTokens : Nat -> Nat
  draftTokenIds : Nat -> Nat
  draftProbs : Option (Nat -> Row K vocabSize)
  targetProbs : Nat -> Row K vocabSize
  bonusTokenIds : Nat -> Nat
  isGreedy : Nat -> Bool
  uniformProbs : Nat -> K
  q : Nat -> Nat -> K
  syntheticConditionalRates : Option (Nat -> K)
  draft_lt : ∀ index, draftTokenIds index < vocabSize
  draft_pos : ∀ rows, draftProbs = some rows ->
    ∀ index, 0 < (rows index).prob (draftTokenIds index)
  uniform_nonneg : ∀ index, 0 <= uniformProbs index
  uniform_lt_one : ∀ index, uniformProbs index < 1
  q_pos : ∀ reqIdx token, 0 < q reqIdx token

end

section

variable {K : Type} [LinearOrder K]

/-- The leftmost of the largest scores of the lanes `0, ..., last`. -/
def tileArgmax (score : Nat -> K) : Nat -> Nat
  | 0 => 0
  | last + 1 =>
      if score (tileArgmax score last) < score (last + 1) then last + 1
      else tileArgmax score last

/-- `BLOCK_SIZE` of `sample_recovered_tokens`. -/
def blockSize : Nat := 8192

variable (score : Nat -> K)

/-- One tile: its best lane replaces the best so far if its score is larger. -/
def visitTile (best : WithBot K × Nat) (tile : Nat) : WithBot K × Nat :=
  let v := tile * blockSize
  let localId := tileArgmax (fun lane => score (v + lane)) (blockSize - 1)
  if best.1 < (score (v + localId) : WithBot K) then (score (v + localId), v + localId) else best

/-- `best` is the leftmost maximum of the scores below `bound`. -/
def IsLeftmostMax (bound best : Nat) : Prop :=
  best < bound /\ ∀ offset, offset < bound ->
    score offset <= score best /\ (offset < best -> score offset < score best)

theorem isLeftmostMax_one : IsLeftmostMax score 1 0 := by
  refine ⟨Nat.one_pos, fun offset below => ?_⟩
  rw [Nat.lt_one_iff.mp below]
  exact ⟨le_refl _, fun less => absurd less (Nat.lt_irrefl 0)⟩

theorem IsLeftmostMax.extend {score : Nat -> K} {bound best width next : Nat}
    (before : IsLeftmostMax score bound best)
    (after : IsLeftmostMax (fun lane => score (bound + lane)) width next) :
    IsLeftmostMax score (bound + width)
      (if score best < score (bound + next) then bound + next else best) := by
  rcases before with ⟨_, bestMax⟩
  rcases after with ⟨_, nextMax⟩
  refine ⟨by split <;> omega, fun offset below => ?_⟩
  rcases Nat.lt_or_ge offset bound with early | late
  · have top := bestMax offset early
    split
    next larger =>
      have less := lt_of_le_of_lt top.1 larger
      exact ⟨less.le, fun _ => less⟩
    next => exact top
  rcases Nat.exists_eq_add_of_le late with ⟨lane, rfl⟩
  have top := nextMax lane (by omega)
  split
  next => exact ⟨top.1, fun less => top.2 (by omega)⟩
  next notLarger =>
    exact ⟨top.1.trans (not_lt.mp notLarger), fun less => absurd less (by omega)⟩

theorem tileArgmax_spec (score : Nat -> K) (last : Nat) :
    IsLeftmostMax score (last + 1) (tileArgmax score last) := by
  induction last with
  | zero => exact isLeftmostMax_one score
  | succ last ih => exact ih.extend (isLeftmostMax_one _)

/-- The running best after the scores below `bound`. -/
def IsBest (bound : Nat) (best : WithBot K × Nat) : Prop :=
  bound = 0 /\ best = (⊥, 0) \/ IsLeftmostMax score bound best.2 /\ best.1 = score best.2

theorem visitTile_isBest {score : Nat -> K} {tile : Nat} {best : WithBot K × Nat}
    (isBest : IsBest score (tile * blockSize) best) :
    IsBest score ((tile + 1) * blockSize) (visitTile score best tile) := by
  have lanes := tileArgmax_spec (fun lane => score (tile * blockSize + lane)) (blockSize - 1)
  rw [Nat.add_mul, Nat.one_mul]
  right
  unfold visitTile
  rcases isBest with ⟨start, rfl⟩ | ⟨isMax, top⟩
  · simp only [start, Nat.zero_add] at lanes ⊢
    simp only [WithBot.bot_lt_coe, if_true]
    exact ⟨lanes, trivial⟩
  have next := isMax.extend lanes
  rw [top]
  simp only [WithBot.coe_lt_coe]
  split at next <;> rename_i larger
  · simp only [larger, if_true]
    exact ⟨next, trivial⟩
  simp only [larger, if_false]
  exact ⟨next, top⟩

theorem foldl_visitTile (tiles : Nat) :
    IsBest score (tiles * blockSize) ((List.range tiles).foldl (visitTile score) (⊥, 0)) := by
  induction tiles with
  | zero => exact Or.inl ⟨Nat.zero_mul _, rfl⟩
  | succ tiles ih =>
      rw [List.range_succ, List.foldl_append]
      exact visitTile_isBest ih

end

namespace Batch

variable {K : Type} [Field K] [LinearOrder K] (batch : Batch K)

variable (reqIdx : Nat)

/-- The index of the first draft of a request. -/
def startIdx : Nat :=
  if reqIdx = 0 then 0 else batch.cuNumDraftTokens (reqIdx - 1)

def numDraftTokens : Nat := batch.cuNumDraftTokens reqIdx - batch.startIdx reqIdx

variable (tokenIdx : Nat)

variable (offset : Nat)

/-- The weight of a replacement.  Masked lanes load zero. -/
def prob : K :=
  if batch.vocabSize <= offset then 0
  else match batch.draftProbs with
    | none =>
        if offset = batch.draftTokenIds tokenIdx then 0
        else (batch.targetProbs tokenIdx).prob offset
    | some rows => max ((batch.targetProbs tokenIdx).prob offset - (rows tokenIdx).prob offset) 0

/-- The weight of a token when a rejected draft is replaced. -/
def score : K :=
  batch.prob tokenIdx offset *
    if batch.vocabSize <= offset then 0 else (batch.q reqIdx offset)⁻¹

variable (pos : Nat)

/-- The token with the largest score.  The vocabulary is searched in tiles. -/
def sampleRecoveredTokensKernel : Nat :=
  ((List.range ((batch.vocabSize + blockSize - 1) / blockSize)).foldl
    (visitTile (batch.score reqIdx (batch.startIdx reqIdx + pos))) (⊥, 0)).2

/-- Whether a draft is accepted. -/
def accepted : Bool :=
  let tokenIdx := batch.startIdx reqIdx + pos
  let draftTokenId := batch.draftTokenIds tokenIdx
  let uniformProb := batch.uniformProbs tokenIdx
  match batch.syntheticConditionalRates with
  | some rate => uniformProb < rate pos
  | none =>
      let draftProb := match batch.draftProbs with
        | none => 1
        | some rows => (rows tokenIdx).prob draftTokenId
      let targetProb := (batch.targetProbs tokenIdx).prob draftTokenId
      0 < draftProb /\ uniformProb <= targetProb / draftProb

/-- The iterations from `pos` on and the bonus token.  Once a draft is rejected, the
remaining iterations store nothing. -/
def storeFrom (reqIdx : Nat) : Nat -> Nat -> List Nat
  | _, 0 => [batch.bonusTokenIds reqIdx]
  | pos, remaining + 1 =>
      if batch.accepted reqIdx pos then
        batch.draftTokenIds (batch.startIdx reqIdx + pos) :: storeFrom reqIdx (pos + 1) remaining
      else [batch.sampleRecoveredTokensKernel reqIdx pos]

/-- What the kernel stores in the row of a request, from the first position on. -/
def rejectionRandomSampleKernel : List Nat :=
  if batch.isGreedy reqIdx then [] else batch.storeFrom reqIdx 0 (batch.numDraftTokens reqIdx)

/-- The token stored at a position that the loop reaches. -/
def tokenAt : Nat :=
  if batch.accepted reqIdx pos then batch.draftTokenIds (batch.startIdx reqIdx + pos)
  else batch.sampleRecoveredTokensKernel reqIdx pos

theorem getElem?_storeFrom (reqIdx : Nat) {token : Nat} (remaining pos offset : Nat)
    (below : offset < remaining) :
    (batch.storeFrom reqIdx pos remaining)[offset]? = some token <->
      (∀ earlier, earlier < offset -> batch.accepted reqIdx (pos + earlier) = true) /\
        batch.tokenAt reqIdx (pos + offset) = token := by
  induction remaining generalizing pos offset with
  | zero => exact absurd below (Nat.not_lt_zero _)
  | succ remaining ih =>
      unfold storeFrom
      cases offset with
      | zero =>
          unfold tokenAt
          split <;> simp_all
      | succ offset =>
          split
          next accepts =>
            rw [List.getElem?_cons_succ, ih _ _ (Nat.lt_of_succ_lt_succ below), Nat.forall_lt_succ_left]
            simp only [Nat.add_assoc, Nat.add_comm 1, Nat.add_zero, accepts, true_and]
          next rejects =>
            simp only [List.getElem?_cons_succ, List.getElem?_nil]
            constructor
            · exact fun none => nomatch none
            · exact fun reached => absurd (reached.1 0 (Nat.succ_pos _)) rejects

/-- The distribution that a draft token was drawn from: an n-gram draft is certain. -/
def draftRow : K :=
  match batch.draftProbs with
  | none => if offset = batch.draftTokenIds tokenIdx then 1 else 0
  | some rows => (rows tokenIdx).prob offset

/-- A token of the vocabulary with positive target probability. -/
def Supported (token : Nat) : Prop :=
  token < batch.vocabSize /\ 0 < (batch.targetProbs tokenIdx).prob token

/-- The condition on the draws at a position. -/
def SafeAt : Prop :=
  let tokenIdx := batch.startIdx reqIdx + pos
  let draftSupported := 0 < (batch.targetProbs tokenIdx).prob (batch.draftTokenIds tokenIdx)
  match batch.syntheticConditionalRates with
  | none => 0 < batch.uniformProbs tokenIdx \/ draftSupported
  | some rate =>
      (batch.uniformProbs tokenIdx < rate pos -> draftSupported) /\
        (rate pos <= batch.uniformProbs tokenIdx ->
          (∃ offset, 0 < batch.prob tokenIdx offset) \/
            0 < (batch.targetProbs tokenIdx).prob 0)

theorem vocabSize_pos : 0 < batch.vocabSize := Nat.zero_lt_of_lt (batch.draft_lt 0)

theorem prob_nonneg : 0 <= batch.prob tokenIdx offset := by
  have nonneg := (batch.targetProbs tokenIdx).nonneg offset
  unfold prob
  split
  · exact le_refl _
  split
  · split
    · exact le_refl _
    · exact nonneg
  · exact le_max_right _ _

theorem recovered_isLeftmostMax : ∃ bound, batch.vocabSize <= bound /\
    IsLeftmostMax (batch.score reqIdx (batch.startIdx reqIdx + pos)) bound
      (batch.sampleRecoveredTokensKernel reqIdx pos) := by
  have positive := batch.vocabSize_pos
  have covers : batch.vocabSize <= (batch.vocabSize + blockSize - 1) / blockSize * blockSize := by
    unfold blockSize
    omega
  rcases foldl_visitTile (batch.score reqIdx (batch.startIdx reqIdx + pos))
    ((batch.vocabSize + blockSize - 1) / blockSize) with ⟨_, -⟩ | ⟨isMax, -⟩
  · omega
  · exact ⟨_, covers, isMax⟩

variable [IsStrictOrderedRing K]

theorem supported_of_prob_pos {tokenIdx offset : Nat} (positive : 0 < batch.prob tokenIdx offset) :
    batch.Supported tokenIdx offset := by
  unfold prob at positive
  split at positive
  · exact absurd positive (lt_irrefl _)
  next below =>
    refine ⟨not_le.mp below, ?_⟩
    split at positive
    · split at positive
      · exact absurd positive (lt_irrefl _)
      · exact positive
    next rows some =>
      rcases lt_max_iff.mp positive with gap | zero
      · exact lt_of_le_of_lt ((rows tokenIdx).nonneg offset) (sub_pos.mp gap)
      · exact absurd zero (lt_irrefl _)

theorem score_pos_iff {reqIdx tokenIdx offset : Nat} :
    0 < batch.score reqIdx tokenIdx offset <-> 0 < batch.prob tokenIdx offset := by
  unfold score
  split
  next outside =>
    have zero : batch.prob tokenIdx offset = 0 := if_pos outside
    rw [zero, mul_zero]
  · exact mul_pos_iff_of_pos_right (inv_pos.mpr (batch.q_pos reqIdx offset))

/-- The replacement is in the support if some token has weight left, or if token `0` is
in the support: with no weight anywhere the first token is stored. -/
theorem recovered_supported_iff (reqIdx pos : Nat) :
    batch.Supported (batch.startIdx reqIdx + pos) (batch.sampleRecoveredTokensKernel reqIdx pos) <->
      (∃ offset, 0 < batch.prob (batch.startIdx reqIdx + pos) offset) \/
        0 < (batch.targetProbs (batch.startIdx reqIdx + pos)).prob 0 := by
  rcases batch.recovered_isLeftmostMax reqIdx pos with ⟨_, covers, -, isMax⟩
  by_cases weight : ∃ offset, 0 < batch.prob (batch.startIdx reqIdx + pos) offset
  · refine ⟨fun _ => Or.inl weight, fun _ => ?_⟩
    rcases weight with ⟨offset, positive⟩
    have below := (batch.supported_of_prob_pos positive).1
    have top := (isMax offset (below.trans_le covers)).1
    have larger := lt_of_lt_of_le ((batch.score_pos_iff).mpr positive) top
    exact batch.supported_of_prob_pos ((batch.score_pos_iff).mp larger)
  have flat : batch.sampleRecoveredTokensKernel reqIdx pos = 0 := by
    rcases Nat.eq_zero_or_pos (batch.sampleRecoveredTokensKernel reqIdx pos) with zero | later
    · exact zero
    have less := (isMax 0 (batch.vocabSize_pos.trans_le covers)).2 later
    have first : 0 <= batch.score reqIdx (batch.startIdx reqIdx + pos) 0 := by
      unfold score
      rw [if_neg (not_le.mpr batch.vocabSize_pos)]
      exact mul_nonneg (batch.prob_nonneg _ _) (inv_nonneg.mpr (batch.q_pos reqIdx 0).le)
    exact absurd ⟨_, (batch.score_pos_iff).mp (lt_of_le_of_lt first less)⟩ weight
  rw [flat]
  simp only [Supported, batch.vocabSize_pos, true_and, weight, false_or]

/-- A draft that is rejected by its ratio leaves weight for a replacement. -/
theorem exists_prob_pos {tokenIdx : Nat}
    (less : (batch.targetProbs tokenIdx).prob (batch.draftTokenIds tokenIdx) <
      batch.draftRow tokenIdx (batch.draftTokenIds tokenIdx)) :
    ∃ offset, 0 < batch.prob tokenIdx offset := by
  by_contra none
  have covered : ∀ offset ∈ Finset.range batch.vocabSize,
      (batch.targetProbs tokenIdx).prob offset <= batch.draftRow tokenIdx offset := by
    intro offset below
    have flat := not_lt.mp (not_exists.mp none offset)
    by_cases draft : offset = batch.draftTokenIds tokenIdx
    · exact draft ▸ less.le
    rw [prob, if_neg (not_le.mpr (Finset.mem_range.mp below))] at flat
    unfold draftRow
    cases rows : batch.draftProbs with
    | none => simpa [rows, draft] using flat
    | some rows' => simpa [rows] using flat
  have sums := Finset.sum_lt_sum covered ⟨_, Finset.mem_range.mpr (batch.draft_lt tokenIdx), less⟩
  have total : ∑ offset ∈ Finset.range batch.vocabSize, batch.draftRow tokenIdx offset = 1 := by
    unfold draftRow
    split
    · rw [Finset.sum_ite_eq', if_pos (Finset.mem_range.mpr (batch.draft_lt tokenIdx))]
    next rows some => exact (rows tokenIdx).total
  rw [(batch.targetProbs tokenIdx).total, total] at sums
  exact lt_irrefl _ sums

theorem draftRow_pos (tokenIdx : Nat) :
    0 < batch.draftRow tokenIdx (batch.draftTokenIds tokenIdx) := by
  unfold draftRow
  split
  · rw [if_pos rfl]
    exact one_pos
  next rows given => exact batch.draft_pos rows given tokenIdx

theorem accepted_iff (standard : batch.syntheticConditionalRates = none) (reqIdx pos : Nat) :
    batch.accepted reqIdx pos = true <->
      let tokenIdx := batch.startIdx reqIdx + pos
      let draft := batch.draftTokenIds tokenIdx
      batch.uniformProbs tokenIdx <=
        (batch.targetProbs tokenIdx).prob draft / batch.draftRow tokenIdx draft := by
  have positive := batch.draftRow_pos (batch.startIdx reqIdx + pos)
  unfold draftRow at positive ⊢
  simp only [accepted, standard, decide_eq_true_eq]
  cases rows : batch.draftProbs <;> simp_all

theorem tokenAt_supported_iff (reqIdx pos : Nat) :
    batch.Supported (batch.startIdx reqIdx + pos) (batch.tokenAt reqIdx pos) <->
      batch.SafeAt reqIdx pos := by
  have draftBelow := batch.draft_lt (batch.startIdx reqIdx + pos)
  unfold tokenAt SafeAt
  cases rates : batch.syntheticConditionalRates with
  | some rate =>
      simp only [accepted, rates, decide_eq_true_eq]
      split <;> rename_i decision
      · simp [Supported, draftBelow, decision]
      · simp [recovered_supported_iff, decision, not_lt.mp decision]
  | none =>
      simp only [batch.accepted_iff rates]
      have positive := batch.draftRow_pos (batch.startIdx reqIdx + pos)
      split <;> rename_i decision
      · refine ⟨fun supported => Or.inr supported.2, fun safe => ⟨draftBelow, ?_⟩⟩
        rcases safe with draw | draft
        · exact (div_pos_iff_of_pos_right positive).mp (lt_of_lt_of_le draw decision)
        · exact draft
      have draw := not_le.mp decision
      have ratio := div_nonneg ((batch.targetProbs (batch.startIdx reqIdx + pos)).nonneg
        (batch.draftTokenIds (batch.startIdx reqIdx + pos))) positive.le
      have less := (div_lt_one positive).mp (draw.trans (batch.uniform_lt_one _))
      rw [recovered_supported_iff]
      exact ⟨fun _ => Or.inl (lt_of_le_of_lt ratio draw),
        fun _ => Or.inl (batch.exists_prob_pos less)⟩

/-- Every token stored at a draft position is in the support of its target row exactly
if at every position that the loop reaches the draw is positive or the draft is in the
support; in synthetic mode, where the draw alone decides, if what it decides is in the
support. -/
theorem stored_supported_iff (reqIdx : Nat) :
    (∀ pos token, pos < batch.numDraftTokens reqIdx ->
      (batch.rejectionRandomSampleKernel reqIdx)[pos]? = some token ->
        batch.Supported (batch.startIdx reqIdx + pos) token) <->
    (batch.isGreedy reqIdx = false -> ∀ pos, pos < batch.numDraftTokens reqIdx ->
      (∀ earlier, earlier < pos -> batch.accepted reqIdx earlier = true) ->
        batch.SafeAt reqIdx pos) := by
  unfold rejectionRandomSampleKernel
  constructor
  · intro stored sampled pos below reached
    rw [sampled] at stored
    rw [<- tokenAt_supported_iff]
    apply stored pos _ below
    rw [if_neg Bool.false_ne_true, getElem?_storeFrom _ _ _ _ _ below]
    simpa using reached
  intro safe pos token below stored
  split at stored
  next => exact absurd stored (by simp)
  next sampled =>
    rw [getElem?_storeFrom _ _ _ _ _ below] at stored
    simp only [Nat.zero_add] at stored
    rw [<- stored.2, tokenAt_supported_iff]
    exact safe (Bool.eq_false_iff.mpr sampled) pos below stored.1

def zeroDraw : Batch Rat where
  vocabSize := 2
  cuNumDraftTokens := fun _ => 1
  draftTokenIds := fun _ => 0
  draftProbs := none
  targetProbs := fun _ =>
    { prob := fun token => if token = 1 then 1 else 0
      nonneg := fun token => by split <;> simp
      total := by decide +kernel }
  bonusTokenIds := fun _ => 1
  isGreedy := fun _ => false
  uniformProbs := fun _ => 0
  q := fun _ _ => 1
  syntheticConditionalRates := none
  draft_lt := fun _ => by decide
  draft_pos := fun _ given => nomatch given
  uniform_nonneg := fun _ => le_refl _
  uniform_lt_one := fun _ => by decide
  q_pos := fun _ _ => by decide

/-- The draft is accepted although its target probability is zero. -/
theorem zeroDraw_stores_unsupported :
    0 < zeroDraw.numDraftTokens 0 /\ (zeroDraw.rejectionRandomSampleKernel 0)[0]? = some 0 /\
      (zeroDraw.targetProbs (zeroDraw.startIdx 0 + 0)).prob 0 = 0 := by
  decide +kernel

/-- With the same batch and a positive draw the certain token is stored. -/
theorem positiveDraw_stores_supported :
    let batch : Batch Rat :=
      { zeroDraw with
        uniformProbs := fun _ => 1 / 2
        uniform_nonneg := fun _ => by decide +kernel
        uniform_lt_one := fun _ => by decide +kernel }
    ∀ pos token, pos < batch.numDraftTokens 0 ->
      (batch.rejectionRandomSampleKernel 0)[pos]? = some token ->
        batch.Supported (batch.startIdx 0 + pos) token := by
  intro batch
  have positive : (0 : Rat) < 1 / 2 := by decide +kernel
  exact (batch.stored_supported_iff 0).mpr fun _ _ _ _ => Or.inl positive

end Batch

end Vllm.Sample
