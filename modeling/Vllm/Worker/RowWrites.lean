import Vllm.Worker.Placement

namespace Vllm.Worker

open Foundation Function Written BlockTable List Option
open Hashing (TokenId)
open KVCache (RequestId BlockId)

/-!
# What each operation does to the rows

Adding a request and writing to it change one row.  Removing a request changes
one row, which is free afterwards.  Moving and swapping rows carry the contents
of all columns along, except for the mask of allowed tokens, the prompt
embeddings and the flag of pooling requests, which need a condition.
-/

namespace BlockTable

section

variable (table : BlockTable)
include table

variable (blockIds : List BlockId)

theorem blocks_appendRow (row : Nat) : (table.appendRow blockIds row).blocks row =
      table.blocks row ++ mapToKernelBlocks table.blocksPerKvBlock blockIds := by
  unfold appendRow
  split
  case isTrue nothing =>
    have noBlocks : mapToKernelBlocks table.blocksPerKvBlock blockIds = [] := by
      rw [nothing]
      unfold mapToKernelBlocks
      split <;> rfl
    rw [noBlocks, append_nil]
  case isFalse =>
    generalize mapToKernelBlocks table.blocksPerKvBlock blockIds = kernelBlockIds
    unfold blocks
    dsimp only
    rw [update_self, update_self]
    apply ext_getElem?
    intro k
    rw [List.getElem?_map]
    rcases Nat.lt_or_ge k (table.numBlocksPerRow row) with old | new
    · rw [List.getElem?_range (by omega), List.getElem?_append_left (by simpa using old),
        List.getElem?_map, List.getElem?_range old, map_some, map_some,
        writeSlice_outside _ (Or.inl old)]
    obtain ⟨j, rfl⟩ := Nat.exists_eq_add_of_le new
    rw [List.getElem?_append_right (by simp), length_map, length_range, Nat.add_sub_cancel_left]
    rcases Nat.lt_or_ge j kernelBlockIds.length with inside | outside
    · rw [List.getElem?_range (by omega), map_some,
        writeSlice_at _ _ (List.getElem?_eq_getElem inside), List.getElem?_eq_getElem inside]
    · rw [List.getElem?_eq_none (by simp; omega), List.getElem?_eq_none outside, map_none]

variable {row other : Nat}

theorem blocks_appendRow_of_ne (different : other ≠ row) :
    (table.appendRow blockIds row).blocks other = table.blocks other := by
  unfold appendRow
  split
  · rfl
  unfold blocks
  dsimp only
  rw [update_of_ne different, update_of_ne different]

theorem blocks_addRow (row : Nat) :
    (table.addRow blockIds row).blocks row = mapToKernelBlocks table.blocksPerKvBlock blockIds := by
  unfold addRow
  rw [blocks_appendRow]
  unfold blocks
  dsimp only
  rw [update_self]
  rfl

theorem blocks_addRow_of_ne (different : other ≠ row) :
    (table.addRow blockIds row).blocks other = table.blocks other := by
  unfold addRow
  rw [blocks_appendRow_of_ne _ _ different]
  unfold blocks
  dsimp only
  rw [update_of_ne different]

theorem blocks_clearRow_of_ne (different : other ≠ row) :
    (table.clearRow row).blocks other = table.blocks other := by
  unfold clearRow blocks
  dsimp only
  rw [update_of_ne different, update_of_ne different]

theorem blocks_moveRow (source target row : Nat) :
    (table.moveRow source target).blocks row = table.blocks (movedFrom source target row) := by
  unfold moveRow blocks
  dsimp only
  rw [moveRow_apply]
  apply map_congr_left
  intro k member
  refine copyRow_apply _ (fun same => ?_)
  rwa [mem_range, same, movedFrom, if_pos rfl] at member

theorem blocks_swapRow (first second row : Nat) :
    (table.swapRow first second).blocks row = table.blocks (Equiv.swap first second row) := by
  unfold swapRow blocks
  dsimp only
  rw [swapRows_apply, swapRows_apply]

end

end BlockTable

namespace InputBatch

variable {E G : Type}

theorem blocks_zipWith_appendRow (tables : List BlockTable) (blockIds : List (List BlockId))
    (row : Nat) :
    (List.zipWith (appendRow · · row) tables blockIds).map (blocks · row) =
      List.zipWith (fun old new => old ++ new) (tables.map (blocks · row))
        (List.zipWith mapToKernelBlocks (tables.map blocksPerKvBlock) blockIds) := by
  induction tables generalizing blockIds with
  | nil => rfl
  | cons table rest ih =>
    cases blockIds with
    | nil => rfl
    | cons ids others =>
      simp only [zipWith_cons_cons, map_cons, blocks_appendRow, ih]

theorem blocks_zipWith_of_ne {change : BlockTable -> List BlockId -> BlockTable} {row : Nat}
    (keeps : ∀ table ids, (change table ids).blocks row = table.blocks row)
    {tables : List BlockTable} {blockIds : List (List BlockId)}
    (groups : blockIds.length = tables.length) :
    (List.zipWith change tables blockIds).map (blocks · row) = tables.map (blocks · row) := by
  induction tables generalizing blockIds with
  | nil => rfl
  | cons table rest ih =>
    cases blockIds with
    | nil => cases groups
    | cons ids others =>
      rw [zipWith_cons_cons, map_cons, map_cons, keeps, ih (Nat.succ.inj groups)]

end InputBatch

section Carried

variable {E G : Type}

/-- A row of one batch has the contents that a row of another batch had, up to
the active tokens.  A pooling model has no parameters of sampling. -/
structure Carries (before after : InputBatch E G) (source target : Nat) : Prop where
  model : after.isPoolingModel = before.isPoolingModel
  tokenIds : ∀ k < (before.rowParams source).activeTokenCount,
    after.tokenIdsCpu target k = before.tokenIdsCpu source k
  isTokenIds : ∀ k < (before.rowParams source).activeTokenCount,
    after.isTokenIds target k = before.isTokenIds source k
  params : after.rowParams target = before.rowParams source
  sampling : before.isPoolingModel = false -> after.samplingRow target = before.samplingRow source

theorem Carries.trans {first second third : InputBatch E G} {source middle target : Nat}
    (earlier : Carries first second source middle) (later : Carries second third middle target) :
    Carries first third source target := by
  have active : (second.rowParams middle).activeTokenCount =
      (first.rowParams source).activeTokenCount := by rw [earlier.params]
  refine ⟨later.model.trans earlier.model, fun k inside => ?_, fun k inside => ?_,
    later.params.trans earlier.params, fun generates => ?_⟩
  · rw [later.tokenIds k (active ▸ inside), earlier.tokenIds k inside]
  · rw [later.isTokenIds k (active ▸ inside), earlier.isTokenIds k inside]
  · rw [later.sampling (earlier.model.trans generates), earlier.sampling generates]

theorem RowHolds.carry {before after : InputBatch E G} {source target : Nat}
    {written : Written E G} (holds : RowHolds before source written)
    (kind : before.isPoolingModel = true -> written.sampling = none)
    (carries : Carries before after source target) : RowHolds after target written := by
  have active : (before.rowParams source).activeTokenCount =
      written.params.activeTokenCount := by rw [holds.params]
  refine ⟨?_, ?_, carries.params.trans holds.params, ?_⟩
  · intro k inside
    rw [carries.tokenIds k (active ▸ inside)]
    exact holds.tokenIds k inside
  · intro k inside
    rw [carries.isTokenIds k (active ▸ inside)]
    exact holds.isTokenIds k inside
  intro sampling member
  cases model : before.isPoolingModel with
  | true =>
    rw [kind model] at member
    cases member
  | false =>
    rw [carries.sampling model]
    exact holds.sampling sampling member

end Carried

namespace InputBatch

variable {E G : Type}

variable {row other : Nat} {batch after : InputBatch E G} {request : CachedRequestState E G}

section

variable (batch : InputBatch E G) (request : CachedRequestState E G)

theorem placeRequest_carries
    (different : other ≠ row) (outputs : batch.reqOutputTokenIds.length = batch.reqIds.length) :
    Carries batch (batch.placeRequest request row) other other := by
  unfold placeRequest
  split
  case isTrue atEnd =>
    refine ⟨rfl, fun _ _ => rfl, fun _ _ => rfl, ?_, fun _ => rfl⟩
    apply RowParams.ext
    case specTokenIds =>
      exact getD_append_nil
    case outputList =>
      show ((batch.reqOutputTokenIds ++ [some request.outputList])[other]?).join =
        (batch.reqOutputTokenIds[other]?).join
      rcases Nat.lt_or_ge other batch.reqOutputTokenIds.length with inside | outside
      · rw [List.getElem?_append_left inside]
      rw [List.getElem?_append_right outside, List.getElem?_eq_none outside,
        List.getElem?_eq_none (by simp only [length_singleton]; omega)]
    all_goals rfl
  case isFalse =>
    refine ⟨rfl, fun _ _ => rfl, fun _ _ => rfl, ?_, fun _ => rfl⟩
    apply RowParams.ext
    case specTokenIds =>
      show ((batch.specTokenIds.set row [])[other]?).getD [] = (batch.specTokenIds[other]?).getD []
      rw [List.getElem?_set_ne (Ne.symm different)]
    case outputList =>
      show ((batch.reqOutputTokenIds.set row (some request.outputList))[other]?).join =
        (batch.reqOutputTokenIds[other]?).join
      rw [List.getElem?_set_ne (Ne.symm different)]
    all_goals rfl

theorem writeTokens_carries
    (different : other ≠ row) (groups : request.blockIds.length = batch.blockTables.length) :
    Carries batch (batch.writeTokens request row) other other := by
  refine ⟨rfl, fun k _ => ?_, fun k _ => ?_, ?_, fun _ => rfl⟩
  · exact congrFun (update_of_ne different _ _) k
  · exact congrFun (update_of_ne different _ _) k
  apply RowParams.ext
  case promptEmbeds => exact storeEntry_of_ne _ different
  case blocks =>
    exact blocks_zipWith_of_ne (fun table ids => table.blocks_addRow_of_ne ids different) groups
  case numTokensNoSpec => exact update_of_ne different _ _
  case numPromptTokens => exact update_of_ne different _ _
  case numComputedTokens => exact update_of_ne different _ _
  all_goals rfl

theorem writeSamplingParams_carries (params : SamplingParams) (different : other ≠ row) :
    Carries batch (batch.writeSamplingParams request params row) other other := by
  refine ⟨rfl, fun _ _ => rfl, fun _ _ => rfl, ?_, fun _ => ?_⟩
  · apply RowParams.ext
    case generator => exact storeEntry_of_ne _ different
    case badWords => exact storeEntry_of_ne _ different
    case mask =>
      unfold rowParams maskRow writeSamplingParams
      dsimp only
      split
      · rfl
      · rw [getD_some, update_of_ne different]
    all_goals rfl
  · apply SamplingRow.ext
    all_goals exact update_of_ne different _ _

theorem writePoolingParams_carries (params : PoolingParams) (different : other ≠ row) :
    Carries batch (batch.writePoolingParams request params row) other other := by
  refine ⟨rfl, fun _ _ => rfl, fun _ _ => rfl, ?_, fun _ => rfl⟩
  apply RowParams.ext
  case needsTokenIds => exact update_of_ne different _ _
  all_goals rfl

theorem writeLora_carries (different : other ≠ row) :
    Carries batch (batch.writeLora request row) other other := by
  unfold writeLora
  split
  all_goals
    refine ⟨rfl, fun _ _ => rfl, fun _ _ => rfl, ?_, fun _ => rfl⟩
    apply RowParams.ext
    case numAcceptedTokens => exact update_of_ne different _ _
    case loraId => exact update_of_ne different _ _
    all_goals rfl

end

theorem addRequest_eq_ok (added : batch.addRequest request = .ok after) :
    ∃ written, ((batch.registered.placeRequest request batch.nextRow).writeTokens request
        batch.nextRow).writeParams request batch.nextRow = .ok written /\
      after = written.writeLora request batch.nextRow := by
  unfold addRequest registerAddRequest at added
  split at added
  · cases added
  case h_2 row registered isRow =>
    split at isRow
    case isFalse => cases isRow
    case isTrue =>
      cases isRow
      split at added
      · cases added
      split at added
      · cases added
      case h_2 written isWritten =>
        cases added
        exact ⟨written, isWritten, rfl⟩

theorem addRequest_carries (added : batch.addRequest request = .ok after)
    (different : other ≠ batch.nextRow)
    (groups : request.blockIds.length = batch.blockTables.length)
    (outputs : batch.reqOutputTokenIds.length = batch.reqIds.length) :
    Carries batch after other other := by
  rcases addRequest_eq_ok added with ⟨written, isWritten, rfl⟩
  refine Carries.trans ?_ (writeLora_carries written request different)
  have registered : Carries batch batch.registered other other :=
    ⟨rfl, fun _ _ => rfl, fun _ _ => rfl, rfl, fun _ => rfl⟩
  have placed := registered.trans (placeRequest_carries _ request different outputs)
  have tokens := placed.trans (writeTokens_carries _ request different (by
    unfold placeRequest
    split <;> exact groups))
  unfold writeParams at isWritten
  split at isWritten
  · cases isWritten
    exact tokens.trans (writeSamplingParams_carries _ request _ different)
  · cases isWritten
    exact tokens.trans (writePoolingParams_carries _ request _ different)
  · cases isWritten

section

variable (batch : InputBatch E G) (request : CachedRequestState E G)

theorem rowParams_placeRequest (place : row <= batch.reqIds.length)
    (specs : row = batch.reqIds.length -> batch.specTokenIdsOf row = [])
    (specsLength : batch.reqIds.length <= batch.specTokenIds.length)
    (outputs : batch.reqOutputTokenIds.length = batch.reqIds.length) :
    (batch.placeRequest request row).rowParams row =
      { batch.rowParams row with specTokenIds := [], outputList := some request.outputList } := by
  unfold placeRequest
  split
  case isTrue atEnd =>
    apply RowParams.ext
    case specTokenIds =>
      exact (getD_append_nil).trans (specs atEnd)
    case outputList =>
      show ((batch.reqOutputTokenIds ++ [some request.outputList])[row]?).join =
        some request.outputList
      rw [atEnd, <- outputs, List.getElem?_append_right (le_rfl), Nat.sub_self]
      rfl
    all_goals rfl
  case isFalse notEnd =>
    have inside : row < batch.reqIds.length := Nat.lt_of_le_of_ne place notEnd
    apply RowParams.ext
    case specTokenIds =>
      show ((batch.specTokenIds.set row [])[row]?).getD [] = []
      rw [List.getElem?_set_self (inside.trans_le specsLength)]
      rfl
    case outputList =>
      show ((batch.reqOutputTokenIds.set row (some request.outputList))[row]?).join =
        some request.outputList
      rw [List.getElem?_set_self (outputs ▸ inside)]
      rfl
    all_goals rfl

theorem rowParams_writeTokens
    (embeds : request.promptEmbeds = none -> batch.reqPromptEmbeds row = none) :
    (batch.writeTokens request row).rowParams row =
      { batch.rowParams row with
        promptEmbeds := request.promptEmbeds
        numTokensNoSpec := request.numTokens
        numPromptTokens := request.numPromptTokens
        numComputedTokens := request.numComputedTokens
        blocks := List.zipWith mapToKernelBlocks
          (batch.blockTables.map blocksPerKvBlock) request.blockIds } := by
  apply RowParams.ext
  case promptEmbeds => exact storeEntry_self embeds
  case blocks =>
    show (List.zipWith (addRow · · row) batch.blockTables request.blockIds).map
      (blocks · row) = _
    rw [map_zipWith, zipWith_map_left]
    simp only [blocks_addRow]
  case numTokensNoSpec => exact update_self _ _ _
  case numPromptTokens => exact update_self _ _ _
  case numComputedTokens => exact update_self _ _ _
  all_goals rfl

theorem rowParams_writeSamplingParams (params : SamplingParams)
    (generator : batch.generators row = none) (badWords : batch.badWordsTokenIds row = none)
    (mask : params.allowedTokenIds = [] -> ∀ masked ∈ batch.maskRow row, masked = false) :
    (batch.writeSamplingParams request params row).rowParams row =
      { batch.rowParams row with
        generator := request.generator
        badWords := nonEmpty params.badWordsTokenIds
        mask := maskFor batch.vocabSize params.allowedTokenIds } := by
  apply RowParams.ext
  case generator => exact storeEntry_self (fun _ => generator)
  case badWords => exact storeEntry_self (fun _ => badWords)
  case mask =>
    unfold rowParams writeSamplingParams maskFor
    by_cases all : params.allowedTokenIds = []
    · apply map_congr_left
      intro token member
      simp only [all, ne_eq, not_true_eq_false, false_and, decide_false]
      exact mask all _ (mem_map_of_mem member)
    apply map_congr_left
    intro token _
    unfold maskOf
    simp [all]
  all_goals rfl

theorem rowParams_writePoolingParams (params : PoolingParams) (row : Nat) :
    (batch.writePoolingParams request params row).rowParams row =
      { batch.rowParams row with needsTokenIds := params.requiresTokenIds } := by
  apply RowParams.ext
  case needsTokenIds => exact update_self _ _ _
  all_goals rfl

theorem rowParams_writeLora (row : Nat) : (batch.writeLora request row).rowParams row =
      { batch.rowParams row with
        numAcceptedTokens := 1
        loraId := (request.loraRequest.map LoRARequest.loraIntId).getD 0 } := by
  unfold writeLora
  cases request.loraRequest
  all_goals
    apply RowParams.ext
    case numAcceptedTokens => exact update_self _ _ _
    case loraId => exact update_self _ _ _
    all_goals rfl

@[simp] theorem writeLora_tokenIdsCpu (row : Nat) :
    (batch.writeLora request row).tokenIdsCpu = batch.tokenIdsCpu := by
  unfold writeLora
  cases request.loraRequest <;> rfl

@[simp] theorem writeLora_isTokenIds (row : Nat) :
    (batch.writeLora request row).isTokenIds = batch.isTokenIds := by
  unfold writeLora
  cases request.loraRequest <;> rfl

@[simp] theorem writeLora_samplingRow (row other : Nat) :
    (batch.writeLora request row).samplingRow other = batch.samplingRow other := by
  unfold writeLora
  cases request.loraRequest <;> rfl

end

theorem writeParams_tokens {written : InputBatch E G}
    (isWritten : batch.writeParams request row = .ok written) :
    written.tokenIdsCpu = batch.tokenIdsCpu /\ written.isTokenIds = batch.isTokenIds := by
  unfold writeParams at isWritten
  split at isWritten <;> cases isWritten <;> exact ⟨rfl, rfl⟩

theorem length_of_promptTokenIds {promptTokenIds : List TokenId}
    (given : request.promptTokenIds = some promptTokenIds) :
    promptTokenIds.length = request.numPromptTokens := by
  have isLength := request.numPromptTokens_eq
  rw [given] at isLength
  cases embeds : request.promptEmbeds with
  | none =>
    rw [embeds] at isLength
    exact Except.ok.inj isLength
  | some promptEmbeds =>
    rw [embeds, lengthFromPromptTokenIdsOrEmbeds] at isLength
    split at isLength
    · cases isLength
    · exact Except.ok.inj isLength

section

variable (batch : InputBatch E G) (request : CachedRequestState E G) (row vocabSize : Nat)
  (blocksPerKvBlock : List Nat) (k : Nat)

/-- A prompt of tokens is written as a whole, and so are the output tokens.  A prompt
of embeddings leaves the token ids of its positions as they are. -/
theorem writeTokens_tokenIds (inside : k < request.numTokens)
    (unwritten : request.promptTokenIds = none ->
      ∀ k < request.numPromptTokens, batch.tokenIdsCpu row k = 0) :
    (batch.writeTokens request row).tokenIdsCpu row k =
      ((ofRequest vocabSize blocksPerKvBlock request).tokenIds k).getD 0 := by
  show update batch.tokenIdsCpu row _ row k = _
  rw [update_self]
  unfold ofRequest
  dsimp only
  by_cases inPrompt : k < request.numPromptTokens
  · rw [if_pos inPrompt, writeSlice_outside _ (Or.inl inPrompt)]
    cases given : request.promptTokenIds with
    | none => exact unwritten given k inPrompt
    | some tokens =>
      have isLong := length_of_promptTokenIds given
      have isToken : tokens[k]? = some (tokens[k]) := List.getElem?_eq_getElem (isLong ▸ inPrompt)
      have written := writeSlice_at (batch.tokenIdsCpu row) 0 isToken
      rw [Nat.zero_add] at written
      rw [bind_some, isToken, getD_some]
      exact written
  · have inOutputs : k - request.numPromptTokens < request.outputTokenIds.length := by
      unfold CachedRequestState.numTokens at inside
      omega
    have isToken := List.getElem?_eq_getElem inOutputs
    have written (old : Nat -> TokenId) := writeSlice_at old request.numPromptTokens isToken
    rw [Nat.add_sub_cancel' (Nat.le_of_not_lt inPrompt)] at written
    rw [if_neg inPrompt, isToken, getD_some]
    exact written _

theorem writeTokens_isTokenIds (inside : k < request.numTokens) :
    (batch.writeTokens request row).isTokenIds row k =
      ((ofRequest vocabSize blocksPerKvBlock request).isTokenIds k).getD false := by
  show update batch.isTokenIds row _ row k = _
  rw [update_self]
  unfold ofRequest
  dsimp only
  unfold fillSlice
  rw [if_pos inside]
  split
  case isTrue inOutput =>
    rw [if_neg (Nat.not_lt.mpr inOutput.1)]
    rfl
  case isFalse outside =>
    have inPrompt : k < request.numPromptTokens := by
      unfold CachedRequestState.numTokens at inside
      omega
    rw [if_pos ⟨Nat.zero_le k, inPrompt⟩, if_pos inPrompt]
    rfl

end

/-- The columns that entering a request in the lists of the batch leaves alone. -/
theorem placeRequest_keeps (batch : InputBatch E G) (request : CachedRequestState E G)
    (row : Nat) : ∃ reqIds outputs specs index, batch.placeRequest request row =
      { batch with
        reqIds := reqIds
        reqOutputTokenIds := outputs
        specTokenIds := specs
        reqIdToIndex := index } := by
  unfold placeRequest
  split
  · exact ⟨_, _, _, _, rfl⟩
  · exact ⟨_, _, _, _, rfl⟩

/-- The row of a request has what writing its tokens puts there. -/
def FilledBy (batch : InputBatch E G) (request : CachedRequestState E G)
    (blocksPerKvBlock : List Nat) (row : Nat) : Prop :=
  batch.rowParams row =
    { batch.rowParams row with
      specTokenIds := []
      outputList := some request.outputList
      promptEmbeds := request.promptEmbeds
      numTokensNoSpec := request.numTokens
      numPromptTokens := request.numPromptTokens
      numComputedTokens := request.numComputedTokens
      blocks := List.zipWith mapToKernelBlocks blocksPerKvBlock request.blockIds }

theorem writeTokens_filled (place : row <= batch.reqIds.length)
    (specs : row = batch.reqIds.length -> batch.specTokenIdsOf row = [])
    (specsLength : batch.reqIds.length <= batch.specTokenIds.length)
    (outputs : batch.reqOutputTokenIds.length = batch.reqIds.length)
    (embeds : request.promptEmbeds = none -> batch.reqPromptEmbeds row = none) :
    FilledBy ((batch.placeRequest request row).writeTokens request row) request
      (batch.blockTables.map blocksPerKvBlock) row := by
  have placed := rowParams_placeRequest batch request place specs specsLength outputs
  rcases placeRequest_keeps batch request row with ⟨_, _, _, _, same⟩
  have sameEmbeds : (batch.placeRequest request row).reqPromptEmbeds = batch.reqPromptEmbeds := by
    rw [same]
  have sameTables : (batch.placeRequest request row).blockTables = batch.blockTables := by
    rw [same]
  rw [FilledBy, rowParams_writeTokens _ request (sameEmbeds ▸ embeds), placed, sameTables]

section

variable {middle : InputBatch E G} {blocksPerKvBlock : List Nat}
  (filled : FilledBy middle request blocksPerKvBlock row)
  (generator : middle.generators row = none) (badWords : middle.badWordsTokenIds row = none)
include filled generator badWords

/-- The columns of a request that generates, after all its parameters were written. -/
theorem rowParams_sampling {params : SamplingParams}
    (isSampling : request.samplingParams = some params)
    (mask : params.allowedTokenIds = [] -> ∀ masked ∈ middle.maskRow row, masked = false)
    (needs : middle.logitsProcessingNeedsTokenIds row = false) :
    ((middle.writeSamplingParams request params row).writeLora request row).rowParams row =
      (ofRequest middle.vocabSize blocksPerKvBlock request).params := by
  have samplingParams := rowParams_writeSamplingParams middle request params generator badWords
    mask
  rw [filled] at samplingParams
  rw [rowParams_writeLora, samplingParams]
  apply RowParams.ext
  case generator => simp only [ofRequest, isSampling, isSome_some, if_true]
  case badWords => simp only [ofRequest, isSampling, bind_some]
  case mask => simp only [ofRequest, isSampling, map_some, getD_some]
  case needsTokenIds =>
    simp only [ofRequest, isSampling]
    exact needs
  all_goals rfl

/-- The columns of a pooling request, which has no mask. -/
theorem rowParams_pooling {params : PoolingParams} (isPooling : request.samplingParams = none)
    (isParams : request.poolingParams = some params)
    (mask : ∀ masked ∈ middle.maskRow row, masked = false) :
    ((middle.writePoolingParams request params row).writeLora request row).rowParams row =
      (ofRequest middle.vocabSize blocksPerKvBlock request).params := by
  have poolingParams := rowParams_writePoolingParams middle request params row
  rw [filled] at poolingParams
  rw [rowParams_writeLora, poolingParams]
  apply RowParams.ext
  case generator =>
    simp only [ofRequest, isPooling]
    exact generator
  case badWords =>
    simp only [ofRequest, isPooling]
    exact badWords
  case mask =>
    simp only [ofRequest, isPooling, map_none, getD_none]
    show (List.range middle.vocabSize).map _ = (List.range middle.vocabSize).map _
    apply map_congr_left
    intro token member
    simp only [ne_eq, not_true_eq_false, false_and, decide_false]
    exact mask _ (mem_map_of_mem member)
  case needsTokenIds => simp only [ofRequest, isPooling, isParams, map_some, getD_some]
  all_goals rfl

end

/-- The row of a new request holds what the request says.  What the row held
before must not show through. -/
theorem addRequest_holds (added : batch.addRequest request = .ok after)
    (embeds : request.promptEmbeds = none -> batch.reqPromptEmbeds batch.nextRow = none)
    (unwritten : request.promptTokenIds = none ->
      ∀ k < request.numPromptTokens, batch.tokenIdsCpu batch.nextRow k = 0)
    (generator : batch.generators batch.nextRow = none)
    (badWords : batch.badWordsTokenIds batch.nextRow = none)
    (mask : (∀ params ∈ request.samplingParams, params.allowedTokenIds = []) ->
      ∀ masked ∈ batch.maskRow batch.nextRow, masked = false)
    (needs : request.samplingParams.isSome = true ->
      batch.logitsProcessingNeedsTokenIds batch.nextRow = false)
    (place : batch.nextRow <= batch.reqIds.length)
    (specs : batch.nextRow = batch.reqIds.length -> batch.specTokenIdsOf batch.nextRow = [])
    (specsLength : batch.reqIds.length <= batch.specTokenIds.length)
    (outputs : batch.reqOutputTokenIds.length = batch.reqIds.length) :
    RowHolds after batch.nextRow (ofRequest batch.vocabSize
      (batch.blockTables.map blocksPerKvBlock) request) := by
  rcases addRequest_eq_ok added with ⟨written, isWritten, rfl⟩
  generalize batch.nextRow = row at *
  have filled := @writeTokens_filled E G row batch.registered request place specs specsLength
    outputs embeds
  rcases placeRequest_keeps batch.registered request row with ⟨_, _, _, _, same⟩
  rw [same] at isWritten filled
  generalize isMiddle : writeTokens _ request row = middle at isWritten filled
  have tokenIds : ∀ k < request.numTokens, (written.writeLora request row).tokenIdsCpu row k =
      ((ofRequest batch.vocabSize (batch.blockTables.map blocksPerKvBlock)
        request).tokenIds k).getD 0 := by
    intro k inside
    rw [writeLora_tokenIdsCpu, (writeParams_tokens isWritten).1, <- isMiddle]
    exact writeTokens_tokenIds _ request row _ _ k inside unwritten
  have isTokenIds : ∀ k < request.numTokens, (written.writeLora request row).isTokenIds row k =
      ((ofRequest batch.vocabSize (batch.blockTables.map blocksPerKvBlock)
        request).isTokenIds k).getD false := by
    intro k inside
    rw [writeLora_isTokenIds, (writeParams_tokens isWritten).2, <- isMiddle]
    exact writeTokens_isTokenIds _ request row _ _ k inside
  unfold writeParams at isWritten
  split at isWritten
  case h_1 params isSampling =>
    cases isWritten
    subst isMiddle
    refine ⟨tokenIds, isTokenIds, ?_, ?_⟩
    · refine rowParams_sampling filled generator badWords isSampling (fun all => ?_)
        (needs (by rw [isSampling]; rfl))
      refine mask (fun other isOther => ?_)
      rw [isSampling, mem_some_iff] at isOther
      rw [<- isOther, all]
    intro sampling member
    change sampling ∈ request.samplingParams.map (samplingOf batch.vocabSize) at member
    rw [isSampling, map_some, mem_some_iff] at member
    rw [<- member, writeLora_samplingRow]
    apply SamplingRow.ext
    all_goals exact update_self _ _ _
  case h_2 params isPooling isParams =>
    cases isWritten
    subst isMiddle
    refine ⟨tokenIds, isTokenIds, ?_, ?_⟩
    · refine rowParams_pooling filled generator badWords isPooling isParams
        (mask (fun other isOther => ?_))
      rw [isPooling] at isOther
      cases isOther
    · intro sampling member
      change sampling ∈ request.samplingParams.map (samplingOf batch.vocabSize) at member
      rw [isPooling] at member
      cases member
  case h_3 => cases isWritten

end InputBatch

end Vllm.Worker
