import Vllm.Worker.RowWrites

namespace Vllm.Worker

open Foundation Function Written BlockTable RowHolds List
open Hashing (TokenId)
open KVCache (RequestId BlockId)

/-!
# Removing, moving, swapping and writing rows

A move or a swap carries the contents of a row along.  Three columns need a
condition for this.  The prompt embeddings of a row stay when its request is
removed, so a request without embeddings must not be moved over them.  The flag
of pooling requests is neither moved nor swapped.  The rows of the mask are
exchanged through views, which is right only if they are equal.
-/

variable {A : Type}

namespace InputBatch

variable {E G : Type}

variable {reqId : RequestId}

theorem removeRequest_eq_ok {batch after : InputBatch E G} {row : Nat}
    (removed : batch.removeRequest reqId = .ok after)
    (found : batch.reqIdToIndex.get? reqId = some row) :
    ∃ builder cleared, batch.batchUpdateBuilder.removedAppend row = .ok builder /\
      (batch.emptyRow reqId row builder).clearLora reqId row = .ok cleared /\
      after = cleared.clearParams reqId row := by
  unfold removeRequest at removed
  rw [found] at removed
  dsimp only at removed
  split at removed
  · cases removed
  case h_2 builder isBuilder =>
    split at removed
    · cases removed
    case h_2 cleared isCleared =>
      cases removed
      exact ⟨builder, cleared, isBuilder, isCleared, rfl⟩

variable {row other : Nat} {batch : InputBatch E G} {first second : Nat}

theorem emptyRow_carries {builder : BatchUpdateBuilder}
    (different : other ≠ row) :
    Carries batch (batch.emptyRow reqId row builder) other other := by
  refine ⟨rfl, fun _ _ => rfl, fun _ _ => rfl, ?_, fun _ => rfl⟩
  apply RowParams.ext
  case specTokenIds =>
    show ((batch.specTokenIds.set row [])[other]?).getD [] = _
    rw [List.getElem?_set_ne (Ne.symm different)]
    rfl
  case outputList =>
    show ((batch.reqOutputTokenIds.set row none)[other]?).join = _
    rw [List.getElem?_set_ne (Ne.symm different)]
    rfl
  case blocks =>
    show (batch.blockTables.map (clearRow · row)).map _ = _
    rw [map_map]
    apply map_congr_left
    intro table _
    exact table.blocks_clearRow_of_ne different
  all_goals rfl

variable {cleared : InputBatch E G}

theorem clearLora_eq_ok (isCleared : batch.clearLora reqId row = .ok cleared) :
    ∃ mapping reqIds loraRequests,
      (∀ other, other ≠ row -> mapping other = batch.requestLoraMapping other) /\
      cleared =
        { batch with
          requestLoraMapping := mapping
          loraIdToRequestIds := reqIds
          loraIdToLoraRequest := loraRequests } := by
  unfold clearLora at isCleared
  dsimp only at isCleared
  split at isCleared
  · cases isCleared
    exact ⟨_, _, _, fun _ _ => rfl, rfl⟩
  split at isCleared
  · cases isCleared
  split at isCleared <;> cases isCleared <;>
    exact ⟨_, _, _, fun _ different => update_of_ne different _ _, rfl⟩

theorem clearLora_carries (isCleared : batch.clearLora reqId row = .ok cleared)
    (different : other ≠ row) :
    Carries batch cleared other other := by
  rcases clearLora_eq_ok isCleared with ⟨_, _, _, others, rfl⟩
  refine ⟨rfl, fun _ _ => rfl, fun _ _ => rfl, ?_, fun _ => rfl⟩
  apply RowParams.ext
  case loraId => exact others other different
  all_goals rfl

theorem clearParams_carries (different : other ≠ row) :
    Carries batch (batch.clearParams reqId row) other other := by
  unfold clearParams
  split
  · exact ⟨rfl, fun _ _ => rfl, fun _ _ => rfl, rfl, fun _ => rfl⟩
  refine ⟨rfl, fun _ _ => rfl, fun _ _ => rfl, ?_, fun _ => rfl⟩
  apply RowParams.ext
  case generator => exact update_of_ne different _ _
  case badWords => exact update_of_ne different _ _
  case mask =>
    unfold rowParams maskRow
    cases batch.allowedTokenIdsMaskCpuTensor with
    | none => rfl
    | some mask => rw [Option.map_some, Option.getD_some, update_of_ne different]; rfl
  all_goals rfl

theorem removeRequest_carries {after : InputBatch E G}
    (removed : batch.removeRequest reqId = .ok after)
    (found : batch.reqIdToIndex.get? reqId = some row) (different : other ≠ row) :
    Carries batch after other other := by
  rcases removeRequest_eq_ok removed found with ⟨builder, cleared, -, isCleared, rfl⟩
  exact ((emptyRow_carries different).trans
    (clearLora_carries isCleared different)).trans (clearParams_carries different)

/-- Nothing of the row that a request is moved to shows through. -/
def MoveClean (batch : InputBatch E G) (source target : Nat) : Prop :=
  (batch.reqPromptEmbeds source = none -> batch.reqPromptEmbeds target = none) /\
    batch.logitsProcessingNeedsTokenIds source = batch.logitsProcessingNeedsTokenIds target

variable {source target : Nat}

theorem rowParams_moveColumns (notSource : row ≠ source)
    (specs : target < batch.specTokenIds.length) (outputs : target < batch.reqOutputTokenIds.length)
    (embeds : batch.reqPromptEmbeds source = none -> batch.reqPromptEmbeds target = none) :
    (batch.moveColumns reqId source target).rowParams row =
      { batch.rowParams (movedFrom source target row) with
        numAcceptedTokens := batch.numAcceptedTokensCpu row
        generator := batch.generators row
        badWords := batch.badWordsTokenIds row
        mask := batch.maskRow row
        needsTokenIds := batch.logitsProcessingNeedsTokenIds row } := by
  apply RowParams.ext
  case specTokenIds =>
    show (((batch.specTokenIds.set target _).set source [])[row]?).getD [] =
      (batch.specTokenIds[if row = target then source else row]?).getD []
    rw [List.getElem?_set_ne (Ne.symm notSource), getElem?_set_of_lt specs]
    split <;> rfl
  case outputList =>
    show (((batch.reqOutputTokenIds.set target _).set source none)[row]?).join =
      (batch.reqOutputTokenIds[if row = target then source else row]?).join
    rw [List.getElem?_set_ne (Ne.symm notSource), getElem?_set_of_lt outputs]
    split <;> rfl
  case promptEmbeds => exact moveEntry_apply notSource embeds
  case blocks =>
    show (batch.blockTables.map (BlockTable.moveRow · source target)).map _ = _
    rw [map_map]
    apply map_congr_left
    intro table _
    exact table.blocks_moveRow source target row
  all_goals first | exact moveRow_apply _ _ _ _ | rfl

theorem rowParams_moveParams (generates : batch.isPoolingModel = false)
    (notSource : row ≠ source) (generator : batch.generators target = none)
    (badWords : batch.badWordsTokenIds target = none) :
    (batch.moveParams source target).rowParams row =
      { batch.rowParams row with
        numAcceptedTokens := batch.numAcceptedTokensCpu (movedFrom source target row)
        generator := batch.generators (movedFrom source target row)
        badWords := batch.badWordsTokenIds (movedFrom source target row)
        mask := batch.maskRow (movedFrom source target row) } := by
  unfold moveParams
  rw [if_neg (by rw [generates]; decide)]
  apply RowParams.ext
  case numAcceptedTokens => exact moveRow_apply _ _ _ _
  case generator => exact moveEntry_apply notSource (fun _ => generator)
  case badWords => exact moveEntry_apply notSource (fun _ => badWords)
  case mask =>
    unfold rowParams maskRow
    cases batch.allowedTokenIdsMaskCpuTensor with
    | none => rfl
    | some mask => rw [Option.map_some, Option.getD_some, moveRow_apply, Option.getD_some]
  all_goals rfl

/-- The columns that a model does not use keep their initial values, and a row
without a request has neither a generator nor bad words. -/
structure Columns (batch : InputBatch E G) : Prop where
  generators : batch.isPoolingModel = true -> ∀ row, batch.generators row = none
  badWords : batch.isPoolingModel = true -> ∀ row, batch.badWordsTokenIds row = none
  accepted : batch.isPoolingModel = true -> ∀ row, batch.numAcceptedTokensCpu row = 1
  mask : batch.isPoolingModel = true -> batch.allowedTokenIdsMaskCpuTensor = none
  needs : batch.isPoolingModel = false ->
    ∀ row, batch.logitsProcessingNeedsTokenIds row = false
  freeGenerators : ∀ row, ¬ Occupied batch.reqIds row -> batch.generators row = none
  freeBadWords : ∀ row, ¬ Occupied batch.reqIds row -> batch.badWordsTokenIds row = none

/-- What `Columns` says of one row. -/
structure Spare (isPoolingModel : Bool) (occupied : Prop) (params : RowParams E G) : Prop where
  generator : isPoolingModel = true \/ ¬ occupied -> params.generator = none
  badWords : isPoolingModel = true \/ ¬ occupied -> params.badWords = none
  accepted : isPoolingModel = true -> params.numAcceptedTokens = 1
  needs : isPoolingModel = false -> params.needsTokenIds = false

theorem Columns.spare (columns : batch.Columns) (row : Nat) :
    Spare batch.isPoolingModel (Occupied batch.reqIds row) (batch.rowParams row) where
  generator unused := unused.elim (columns.generators · row) (columns.freeGenerators row)
  badWords unused := unused.elim (columns.badWords · row) (columns.freeBadWords row)
  accepted pooling := columns.accepted pooling row
  needs generates := columns.needs generates row

theorem columns_of_spare
    (mask : batch.isPoolingModel = true -> batch.allowedTokenIdsMaskCpuTensor = none)
    (spare : ∀ row, Spare batch.isPoolingModel (Occupied batch.reqIds row) (batch.rowParams row)) :
    batch.Columns where
  generators pooling row := (spare row).generator (Or.inl pooling)
  badWords pooling row := (spare row).badWords (Or.inl pooling)
  accepted pooling row := (spare row).accepted pooling
  mask := mask
  needs generates row := (spare row).needs generates
  freeGenerators row free := (spare row).generator (Or.inr free)
  freeBadWords row free := (spare row).badWords (Or.inr free)

section

variable (columns : batch.Columns)
include columns

/-- A row that is carried along and becomes free only if it was. -/
theorem Columns.carry {after : InputBatch E G} (carries : Carries batch after source target)
    (free : ¬ Occupied after.reqIds target -> ¬ Occupied batch.reqIds source) :
    Spare after.isPoolingModel (Occupied after.reqIds target) (after.rowParams target) := by
  have spare := columns.spare source
  rw [carries.model, carries.params]
  exact
    { spare with
      generator := fun unused => spare.generator (unused.imp_right free)
      badWords := fun unused => spare.badWords (unused.imp_right free) }

/-- In a pooling model, these columns are the same in all rows. -/
theorem Columns.unused (pooling : batch.isPoolingModel = true) (first second : Nat) :
    batch.numAcceptedTokensCpu first = batch.numAcceptedTokensCpu second /\
      batch.generators first = batch.generators second /\
      batch.badWordsTokenIds first = batch.badWordsTokenIds second /\
      batch.maskRow first = batch.maskRow second := by
  refine ⟨?_, ?_, ?_, ?_⟩
  · rw [columns.accepted pooling, columns.accepted pooling]
  · rw [columns.generators pooling, columns.generators pooling]
  · rw [columns.badWords pooling, columns.badWords pooling]
  unfold maskRow
  rw [columns.mask pooling]
  rfl

/-- Rows are carried along when first the columns of all models are changed, and
then those that only models with sampling use. -/
theorem Carries.of_parts {middle after : InputBatch E G}
    (model : after.isPoolingModel = batch.isPoolingModel)
    (tokenIds : ∀ k < (batch.rowParams source).activeTokenCount,
      after.tokenIdsCpu row k = batch.tokenIdsCpu source k)
    (isTokenIds : ∀ k < (batch.rowParams source).activeTokenCount,
      after.isTokenIds row k = batch.isTokenIds source k)
    (needs : batch.logitsProcessingNeedsTokenIds source = batch.logitsProcessingNeedsTokenIds row)
    (params : middle.rowParams row = { batch.rowParams source with
      numAcceptedTokens := batch.numAcceptedTokensCpu row
      generator := batch.generators row
      badWords := batch.badWordsTokenIds row
      mask := batch.maskRow row
      needsTokenIds := batch.logitsProcessingNeedsTokenIds row })
    (pooling : batch.isPoolingModel = true -> after.rowParams row = middle.rowParams row)
    (generates : batch.isPoolingModel = false ->
      after.samplingRow row = batch.samplingRow source /\
      after.rowParams row = { middle.rowParams row with
        numAcceptedTokens := batch.numAcceptedTokensCpu source
        generator := batch.generators source
        badWords := batch.badWordsTokenIds source
        mask := batch.maskRow source }) : Carries batch after source row := by
  refine ⟨model, tokenIds, isTokenIds, ?_, fun isModel => (generates isModel).1⟩
  cases isModel : batch.isPoolingModel with
  | true =>
    have same := columns.unused isModel row source
    rw [pooling isModel, params, same.1, same.2.1, same.2.2.1, same.2.2.2, <- needs]
    rfl
  | false =>
    rw [(generates isModel).2, params, <- needs]
    rfl

theorem move_carries (reqId : RequestId) (notSource : row ≠ source)
    (free : ¬ Occupied batch.reqIds target) (specs : target < batch.specTokenIds.length)
    (outputs : target < batch.reqOutputTokenIds.length) (clean : batch.MoveClean source target) :
    Carries batch ((batch.moveColumns reqId source target).moveParams source target)
      (movedFrom source target row) row := by
  have active (k : Nat) (inside : k < (batch.rowParams (movedFrom source target row)).activeTokenCount)
      (same : row = target) : k < batch.getActiveTokenCount source := by
    rwa [same, movedFrom, if_pos rfl] at inside
  have needs : batch.logitsProcessingNeedsTokenIds (movedFrom source target row) =
      batch.logitsProcessingNeedsTokenIds row := by
    unfold movedFrom
    split
    case isTrue same => rw [same, clean.2]
    · rfl
  refine Carries.of_parts columns ?_ (fun k inside => ?_) (fun k inside => ?_) needs
    (rowParams_moveColumns notSource specs outputs clean.1) (fun model => ?_)
    (fun model => ⟨?_, rowParams_moveParams model notSource (columns.freeGenerators target free)
      (columns.freeBadWords target free)⟩)
  · unfold moveParams
    split <;> rfl
  · unfold moveParams
    split <;> exact copyRow_apply _ (active k inside)
  · unfold moveParams
    split <;> exact copyRow_apply _ (active k inside)
  · unfold moveParams
    rw [if_pos (by exact model)]
  unfold moveParams
  rw [if_neg (by exact ne_true_of_eq_false model)]
  apply SamplingRow.ext
  all_goals exact moveRow_apply _ _ _ _

end

/-- The two requests agree in what is not swapped correctly. -/
def SwapClean (batch : InputBatch E G) (first second : Nat) : Prop :=
  batch.maskRow first = batch.maskRow second /\
    batch.logitsProcessingNeedsTokenIds first = batch.logitsProcessingNeedsTokenIds second

theorem swapTokens_apply (rows : Nat -> Nat -> A) {count k : Nat}
    (inside : row = first \/ row = second -> k < count) :
    swapTokens rows first second count row k = rows (Equiv.swap first second row) k := by
  unfold swapTokens
  by_cases isSecond : row = second
  · rw [isSecond, update_self, Equiv.swap_apply_right]
    exact copyPrefix_of_lt _ _ (inside (Or.inr isSecond))
  rw [update_of_ne isSecond]
  by_cases isFirst : row = first
  · rw [isFirst, update_self, Equiv.swap_apply_left]
    exact copyPrefix_of_lt _ _ (inside (Or.inl isFirst))
  · rw [update_of_ne isFirst, Equiv.swap_apply_of_ne_of_ne isFirst isSecond]

theorem rowParams_swapColumns {firstId secondId : RequestId}
    (firstSpecs : first < batch.specTokenIds.length)
    (secondSpecs : second < batch.specTokenIds.length)
    (firstOutputs : first < batch.reqOutputTokenIds.length)
    (secondOutputs : second < batch.reqOutputTokenIds.length) :
    (batch.swapColumns firstId secondId first second).rowParams row =
      { batch.rowParams (Equiv.swap first second row) with
        numAcceptedTokens := batch.numAcceptedTokensCpu row
        generator := batch.generators row
        badWords := batch.badWordsTokenIds row
        mask := batch.maskRow row
        needsTokenIds := batch.logitsProcessingNeedsTokenIds row } := by
  apply RowParams.ext
  case specTokenIds =>
    show ((swapItems batch.specTokenIds first second)[row]?).getD [] = _
    rw [swapItems_getElem? firstSpecs secondSpecs]
    rfl
  case outputList =>
    show ((swapItems batch.reqOutputTokenIds first second)[row]?).join = _
    rw [swapItems_getElem? firstOutputs secondOutputs]
    rfl
  case promptEmbeds => exact swapEntries_apply
  case blocks =>
    show (batch.blockTables.map (swapRow · first second)).map _ = _
    rw [map_map]
    apply map_congr_left
    intro table _
    exact table.blocks_swapRow first second row
  case numTokensNoSpec => exact swapRows_apply _ _ _ _
  case numPromptTokens => exact swapRows_apply _ _ _ _
  case numComputedTokens => exact swapRows_apply _ _ _ _
  case loraId => exact swapRows_apply _ _ _ _
  all_goals rfl

theorem maskRow_swapParams (same : batch.maskRow first = batch.maskRow second) (row : Nat) :
    (batch.swapParams first second).maskRow row = batch.maskRow (Equiv.swap first second row) := by
  rw [Equiv.apply_swap_eq_self same]
  unfold swapParams
  split
  · rfl
  unfold maskRow at same ⊢
  cases tensor : batch.allowedTokenIdsMaskCpuTensor with
  | none => rfl
  | some mask =>
    rw [tensor, Option.getD_some] at same
    rw [Option.map_some, Option.getD_some, Option.getD_some, swapRowViews_eq]
    by_cases isFirst : row = first
    · rw [isFirst, update_self, same]
    · rw [update_of_ne isFirst]

theorem rowParams_swapParams (generates : batch.isPoolingModel = false)
    (mask : batch.maskRow first = batch.maskRow second) :
    (batch.swapParams first second).rowParams row =
      { batch.rowParams row with
        numAcceptedTokens := batch.numAcceptedTokensCpu (Equiv.swap first second row)
        generator := batch.generators (Equiv.swap first second row)
        badWords := batch.badWordsTokenIds (Equiv.swap first second row)
        mask := batch.maskRow (Equiv.swap first second row) } := by
  have masked := maskRow_swapParams mask row
  unfold swapParams at masked ⊢
  rw [if_neg (ne_true_of_eq_false generates)] at masked ⊢
  apply RowParams.ext
  case numAcceptedTokens => exact swapRows_apply _ _ _ _
  case generator => exact swapEntries_apply
  case badWords => exact swapEntries_apply
  case mask => exact masked
  all_goals rfl

theorem swap_carries (columns : batch.Columns) {firstId secondId : RequestId}
    (firstSpecs : first < batch.specTokenIds.length)
    (secondSpecs : second < batch.specTokenIds.length)
    (firstOutputs : first < batch.reqOutputTokenIds.length)
    (secondOutputs : second < batch.reqOutputTokenIds.length) (clean : batch.SwapClean first second) :
    Carries batch ((batch.swapColumns firstId secondId first second).swapParams first second)
      (Equiv.swap first second row) row := by
  have needs := Equiv.apply_swap_eq_self clean.2 row
  have inside : ∀ k, k < (batch.rowParams (Equiv.swap first second row)).activeTokenCount ->
      row = first \/ row = second ->
      k < max (batch.getActiveTokenCount first) (batch.getActiveTokenCount second) := by
    rintro k active (rfl | rfl)
    · rw [Equiv.swap_apply_left] at active
      exact active.trans_le (Nat.le_max_right _ _)
    rw [Equiv.swap_apply_right] at active
    exact active.trans_le (Nat.le_max_left _ _)
  refine Carries.of_parts columns ?_ (fun k active => ?_) (fun k active => ?_) needs
    (rowParams_swapColumns firstSpecs secondSpecs firstOutputs secondOutputs) (fun model => ?_) (fun
    model => ⟨?_, rowParams_swapParams model clean.1⟩)
  · unfold swapParams
    split <;> rfl
  · unfold swapParams
    split <;> exact swapTokens_apply _ (inside k active)
  · unfold swapParams
    split <;> exact swapTokens_apply _ (inside k active)
  · unfold swapParams
    rw [if_pos (by exact model)]
  unfold swapParams
  rw [if_neg (by exact ne_true_of_eq_false model)]
  apply SamplingRow.ext
  all_goals exact swapRows_apply _ _ _ _

theorem writeRow_carries (write : RowWrite) (different : other ≠ row)
    (groups : ∀ newBlockIds, write = .newBlocks newBlockIds ->
      newBlockIds.length = batch.blockTables.length) :
    Carries batch (batch.writeRow row write) other other := by
  cases write
  case specTokens specTokenIds =>
    refine ⟨rfl, fun k _ => ?_, fun _ _ => rfl, ?_, fun _ => rfl⟩
    · exact congrFun (update_of_ne different _ _) k
    apply RowParams.ext
    case specTokenIds =>
      show ((batch.specTokenIds.set row specTokenIds)[other]?).getD [] = _
      rw [List.getElem?_set_ne (Ne.symm different)]
      rfl
    all_goals rfl
  case newBlocks newBlockIds =>
    refine ⟨rfl, fun _ _ => rfl, fun _ _ => rfl, ?_, fun _ => rfl⟩
    apply RowParams.ext
    case blocks =>
      exact blocks_zipWith_of_ne
        (fun table ids => table.blocks_appendRow_of_ne ids different) (groups newBlockIds rfl)
    all_goals rfl
  all_goals
    refine ⟨rfl, fun k _ => ?_, fun k _ => ?_, RowParams.ext ?_ ?_ ?_ ?_ ?_ ?_ ?_ ?_ ?_ ?_ ?_ ?_ ?_,
      fun _ => rfl⟩
    all_goals first | rfl | exact update_of_ne different _ _ |
      exact congrFun (update_of_ne different _ _) k

end InputBatch

section Records

variable {E G : Type}

/-- A slice of a row and the same slice of its record agree, if they agreed where the
slice does not reach. -/
theorem writeSlice_getD {row : Nat -> A} {record : Nat -> Option A} {initial : A} {start k : Nat}
    {values : List A} (agrees : (start <= k /\ k < start + values.length) \/
      row k = (record k).getD initial) :
    writeSlice row start values k =
      (writeSlice record start (values.map some) k).getD initial := by
  unfold writeSlice
  by_cases inside : start <= k
  · rw [if_pos inside, if_pos inside, List.getElem?_map]
    cases found : values[k - start]? with
    | some written => rfl
    | none =>
      have outside := List.getElem?_eq_none_iff.mp found
      exact agrees.resolve_left (by omega)
  · rw [if_neg inside, if_neg inside]
    exact agrees.resolve_left (fun within => inside within.1)

theorem fillSlice_getD {row : Nat -> A} {record : Nat -> Option A} {initial : A}
    {start stop k : Nat} (filled : A) (agrees : (start <= k /\ k < stop) \/
      row k = (record k).getD initial) :
    fillSlice row start stop filled k =
      (fillSlice record start stop (some filled) k).getD initial := by
  unfold fillSlice
  by_cases inside : start <= k /\ k < stop
  · rw [if_pos inside, if_pos inside]
    rfl
  · rw [if_neg inside, if_neg inside]
    exact agrees.resolve_left inside

variable {written : Written E G} {batch : InputBatch E G}

theorem Written.write_sampling (blocksPerKvBlock : List Nat) (written : Written E G)
    (write : InputBatch.RowWrite) :
    (written.write blocksPerKvBlock write).sampling = written.sampling := by
  cases write <;> rfl

/-- A write to the row of a request lets nothing of another request show through.
It may make positions active that were not active before.  Each of them is written
by it, or still holds what was last written there for this request, or its initial
value if nothing was. -/
def WriteClean (batch : InputBatch E G) (row : Nat) (written : Written E G)
    (write : InputBatch.RowWrite) : Prop :=
  ∀ k < (written.write (batch.blockTables.map blocksPerKvBlock) write).params.activeTokenCount,
    written.params.activeTokenCount <= k ->
      (write.WritesToken written.params.numTokensNoSpec k \/
        batch.tokenIdsCpu row k = (written.tokenIds k).getD 0) /\
      (write.WritesFlag written.params.numTokensNoSpec k \/
        batch.isTokenIds row k = (written.isTokenIds k).getD false)

/-- Each position that is active after a write is written by it, or holds what was
last written for the request: it was active before, or the condition speaks about
it. -/
theorem RowHolds.written_or_kept {row k : Nat} (holds : RowHolds batch row written)
    {write : InputBatch.RowWrite} (clean : WriteClean batch row written write)
    (active : k < (written.write (batch.blockTables.map blocksPerKvBlock)
      write).params.activeTokenCount) :
    (write.WritesToken written.params.numTokensNoSpec k \/
        batch.tokenIdsCpu row k = (written.tokenIds k).getD 0) /\
      (write.WritesFlag written.params.numTokensNoSpec k \/
        batch.isTokenIds row k = (written.isTokenIds k).getD false) := by
  rcases Nat.lt_or_ge k written.params.activeTokenCount with before | new
  · exact ⟨Or.inr (holds.tokenIds k before), Or.inr (holds.isTokenIds k before)⟩
  · exact clean k active new

/-- A row that was written to holds the record that was written to. -/
theorem RowHolds.write {row : Nat} (holds : RowHolds batch row written)
    {write : InputBatch.RowWrite} (clean : WriteClean batch row written write)
    (inside : row < batch.specTokenIds.length) :
    RowHolds (batch.writeRow row write) row
      (written.write (batch.blockTables.map blocksPerKvBlock) write) := by
  have start : written.params.numTokensNoSpec = batch.numTokensNoSpec row := by
    rw [<- holds.params]
    rfl
  have kept := fun k active => @written_or_kept _ _ _ _ row k holds write clean active
  have sliced (first : Nat) (values : List TokenId) (k : Nat)
      (agrees : (first <= k /\ k < first + values.length) \/
        batch.tokenIdsCpu row k = (written.tokenIds k).getD 0) :
      update batch.tokenIdsCpu row (writeSlice (batch.tokenIdsCpu row) first values) row k =
        (writeSlice written.tokenIds first (values.map some) k).getD 0 := by
    rw [update_self]
    exact writeSlice_getD agrees
  cases write with
  | specTokens specTokenIds =>
    refine ⟨?_, fun k active => (kept k active).2.resolve_left id, ?_, holds.sampling⟩
    · intro k active
      have written := sliced _ specTokenIds k (kept k active).1
      rw [start] at written
      exact written.trans (by rw [<- start]; rfl)
    unfold Written.write
    rw [<- holds.params]
    apply RowParams.ext
    case specTokenIds =>
      show ((batch.specTokenIds.set row specTokenIds)[row]?).getD [] = specTokenIds
      rw [List.getElem?_set_self inside]
      rfl
    all_goals rfl
  | sampledTokens sampledIds =>
    refine ⟨?_, ?_, ?_, holds.sampling⟩
    · intro k active
      have written := sliced _ sampledIds k (kept k active).1
      rw [start] at written
      exact written.trans (by rw [<- start]; rfl)
    · intro k active
      show update batch.isTokenIds row _ row k = _
      rw [update_self, <- start]
      exact fillSlice_getD true (kept k active).2
    unfold Written.write
    rw [<- holds.params]
    apply RowParams.ext
    case numTokensNoSpec => exact update_self _ _ _
    all_goals rfl
  | newTokens first newTokenIds =>
    refine ⟨fun k active => sliced first newTokenIds k (kept k active).1,
      fun k active => (kept k active).2.resolve_left id, ?_, holds.sampling⟩
    unfold Written.write
    rw [<- holds.params]
    apply RowParams.ext
    case numTokensNoSpec => exact update_self _ _ _
    all_goals rfl
  | numTokens numTokensNoSpec =>
    refine ⟨fun k active => (kept k active).1.resolve_left id,
      fun k active => (kept k active).2.resolve_left id, ?_, holds.sampling⟩
    unfold Written.write
    rw [<- holds.params]
    apply RowParams.ext
    case numTokensNoSpec => exact update_self _ _ _
    all_goals rfl
  | newBlocks newBlockIds =>
    refine ⟨holds.tokenIds, holds.isTokenIds, ?_, holds.sampling⟩
    unfold Written.write
    rw [<- holds.params]
    apply RowParams.ext
    case blocks => exact InputBatch.blocks_zipWith_appendRow _ _ _
    all_goals rfl
  | numComputedTokens _ | numAcceptedTokens _ =>
    refine ⟨holds.tokenIds, holds.isTokenIds, ?_, holds.sampling⟩
    unfold Written.write
    rw [<- holds.params]
    apply RowParams.ext
    all_goals first | rfl | exact update_self _ _ _

end Records

end Vllm.Worker
