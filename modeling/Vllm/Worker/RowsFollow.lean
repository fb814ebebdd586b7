import Vllm.Worker.RowMoves

namespace Vllm.Worker

open Foundation Function InputBatch BatchUpdateBuilder Written List Option
open Hashing (TokenId)
open KVCache (RequestId BlockId)

/-!
# Every row holds what was written for its request

In a run the requests are placed consistently, with the removed rows free, the
columns that a model does not use keep their initial values, and the row of each
request holds its record.
-/

section Invariant

variable {E G : Type}

/-- The row of each request holds its record. -/
def Held (batch : InputBatch E G) (written : RequestId -> Option (Written E G)) : Prop :=
  ∀ reqId row, batch.reqIdToIndex.get? reqId = some row ->
    ∃ record ∈ written reqId, RowHolds batch row record /\
      (batch.isPoolingModel = true -> record.sampling = none)

/-- The placement of a batch with some free rows. -/
abbrev InputBatch.PlacedWith (batch : InputBatch E G) (holes : List Nat) : Prop :=
  Placed batch.reqIds batch.reqIdToIndex batch.reqOutputTokenIds batch.specTokenIds holes

/-- The free rows of a batch, which only exist before it is condensed. -/
def WorkerState.holes (state : WorkerState E G) : List Nat :=
  if state.phase = .condensed then [] else state.batch.batchUpdateBuilder.removed

/-- What every call keeps: who is in which row, the order of the freed rows, the
lengths of the columns, and that each row holds the record of its request. -/
structure Sound (state : WorkerState E G) : Prop where
  placed : state.batch.PlacedWith state.holes
  sorted : state.batch.batchUpdateBuilder.isRemovedSorted = true ->
    state.batch.batchUpdateBuilder.removed.Pairwise (fun first second => second <= first)
  columns : state.batch.Columns
  held : Held state.batch state.written

section

variable {before after : InputBatch E G} {written : RequestId -> Option (Written E G)}
  (held : Held before written)
include held

/-- A request whose row is carried along keeps its record. -/
theorem Held.row {reqId : RequestId} {source row : Nat}
    (isSource : before.reqIdToIndex.get? reqId = some source)
    (carries : Carries before after source row) :
    ∃ record ∈ written reqId, RowHolds after row record /\
      (after.isPoolingModel = true -> record.sampling = none) := by
  rcases held reqId source isSource with ⟨record, isRecord, holds, kind⟩
  refine ⟨record, isRecord, holds.carry kind carries, fun pooling => ?_⟩
  exact kind (carries.model ▸ pooling)

theorem Held.carry (carried : ∀ reqId row, after.reqIdToIndex.get? reqId = some row ->
      ∃ source, before.reqIdToIndex.get? reqId = some source /\
        Carries before after source row) : Held after written := by
  intro reqId row found
  rcases carried reqId row found with ⟨source, isSource, carries⟩
  exact held.row isSource carries

end

theorem Placed.perm {reqIds : List (Option RequestId)} {index : Dict RequestId Nat}
    {outputs : List (Option Nat)} {specs : List (List TokenId)} {holes others : List Nat}
    (placed : Placed reqIds index outputs specs holes) (same : holes.Perm others) :
    Placed reqIds index outputs specs others where
  index_iff := placed.index_iff
  holes_iff row := (placed.holes_iff row).trans same.mem_iff
  nodup := same.nodup_iff.mp placed.nodup
  size := by rw [<- same.length_eq, placed.size]
  outputs_length := placed.outputs_length
  specs_length := placed.specs_length
  specs_empty := placed.specs_empty

theorem ensureRemovedSorted_perm (builder : BatchUpdateBuilder) :
    builder.ensureRemovedSorted.removed.Perm builder.removed := by
  unfold ensureRemovedSorted
  split
  · exact List.Perm.refl _
  · exact perm_insertionSort _ _

variable {builder : BatchUpdateBuilder}

section

variable
  (sorted : builder.isRemovedSorted = true -> builder.removed.Pairwise (fun first second => second <= first))
include sorted

theorem ensureRemovedSorted_sorted :
    builder.ensureRemovedSorted.removed.Pairwise (fun first second => second <= first) := by
  unfold ensureRemovedSorted
  split
  case isTrue isSorted => exact sorted isSorted
  case isFalse => exact pairwise_insertionSort _ _

/-- The next request gets a free row, or the row at the end if there is none. -/
theorem popRemoved_cases : (builder.removed = [] /\ builder.popRemoved = (none, builder)) \/
      ∃ row, builder.popRemoved.1 = some row /\ row ∈ builder.removed /\
        (builder.removed.erase row).Perm builder.popRemoved.2.removed /\
        builder.popRemoved.2.removed.Pairwise (fun first second => second <= first) := by
  unfold popRemoved
  split
  case isTrue nothing => exact Or.inl ⟨nothing, rfl⟩
  case isFalse something =>
    right
    have same := ensureRemovedSorted_perm builder
    have isSorted := ensureRemovedSorted_sorted sorted
    dsimp only
    generalize builder.ensureRemovedSorted.removed = rows at same isSorted ⊢
    have nonempty : rows ≠ [] := by
      rintro rfl
      exact something same.nil_eq.symm
    refine ⟨rows.getLast nonempty, List.getLast?_eq_some_getLast nonempty,
      same.mem_iff.mp (getLast_mem nonempty), ?_, isSorted.sublist (dropLast_sublist _)⟩
    have parts : rows.Perm (rows.getLast nonempty :: rows.dropLast) := by
      have appended := perm_append_singleton (rows.getLast nonempty) rows.dropLast
      rwa [dropLast_append_getLast nonempty] at appended
    have erased := (same.symm.trans parts).erase (rows.getLast nonempty)
    rwa [erase_cons_head] at erased

end

variable {state : WorkerState E G} {batch after : InputBatch E G} {request : CachedRequestState E G}
  {reqId : RequestId}

theorem removeRequest_place {row : Nat} (found : batch.reqIdToIndex.get? reqId = some row)
    (removed : batch.removeRequest reqId = .ok after) :
    after.reqIds = batch.reqIds.set row none /\ after.reqIdToIndex = batch.reqIdToIndex.erase reqId /\
      after.reqOutputTokenIds = batch.reqOutputTokenIds.set row none /\
      after.specTokenIds = batch.specTokenIds.set row [] /\
      after.batchUpdateBuilder.removed = batch.batchUpdateBuilder.removed ++ [row] /\
      after.batchUpdateBuilder.isRemovedSorted = false := by
  rcases removeRequest_eq_ok removed found with
    ⟨_, _, appended, isCleared, rfl⟩
  rcases clearLora_eq_ok isCleared with ⟨_, _, _, _, rfl⟩
  unfold removedAppend at appended
  split at appended
  · cases appended
  case isFalse unsorted =>
    cases appended
    unfold clearParams
    split <;> exact ⟨rfl, rfl, rfl, rfl, rfl, Bool.eq_false_iff.mpr unsorted⟩

theorem removeRequest_columns (columns : batch.Columns) {row : Nat}
    (found : batch.reqIdToIndex.get? reqId = some row)
    (removed : batch.removeRequest reqId = .ok after) : after.Columns := by
  have free : ∀ other, other ≠ row -> ¬ Occupied (batch.reqIds.set row none) other ->
      ¬ Occupied batch.reqIds other := by
    rintro other different free ⟨otherId, isAt⟩
    exact free ⟨otherId, by rw [List.getElem?_set_ne (Ne.symm different), isAt]⟩
  rcases removeRequest_eq_ok removed found with ⟨_, _, -, isCleared, rfl⟩
  rcases clearLora_eq_ok isCleared with ⟨_, _, _, _, rfl⟩
  unfold clearParams
  split
  case isTrue pooling =>
    exact ⟨columns.generators, columns.badWords, columns.accepted, columns.mask, columns.needs,
      fun other _ => columns.generators pooling other, fun other _ => columns.badWords pooling other⟩
  case isFalse generates =>
    refine ⟨(absurd · generates), (absurd · generates), (absurd · generates),
      (absurd · generates), columns.needs, fun other isFree => ?_, fun other isFree => ?_⟩
    all_goals
      by_cases same : other = row
      · rw [same]
        exact update_self _ _ _
    · exact (update_of_ne same _ _).trans (columns.freeGenerators other (free other same isFree))
    · exact (update_of_ne same _ _).trans (columns.freeBadWords other (free other same isFree))

theorem removeRequest_sound (sound : Sound state) {after : WorkerState E G}
    (phase : state.phase = .removing) (done : state.advance (.removeRequest reqId) = .ok after) :
    Sound after := by
  simp only [WorkerState.advance] at done
  split at done
  · cases done
  case h_2 batch removed =>
    cases done
    have holes : state.holes = state.batch.batchUpdateBuilder.removed :=
      if_neg (by rw [phase]; decide)
    have placed := sound.placed
    rw [holes] at placed
    cases found : state.batch.reqIdToIndex.get? reqId with
    | none =>
      unfold removeRequest at removed
      rw [found] at removed
      cases removed
      refine ⟨placed, sound.sorted, sound.columns, fun other row isRow => ?_⟩
      have different : other ≠ reqId := by
        rintro rfl
        rw [found] at isRow
        cases isRow
      dsimp only
      rw [update_of_ne different]
      exact sound.held other row isRow
    | some row =>
      rcases removeRequest_place found removed with
        ⟨reqIds, index, outputs, specs, isRemoved, unsorted⟩
      refine ⟨?_, ?_, removeRequest_columns sound.columns found removed, ?_⟩
      · unfold PlacedWith WorkerState.holes
        dsimp only
        rw [reqIds, index, outputs, specs, isRemoved]
        exact (placed.empty found).perm (perm_append_singleton _ _).symm
      · intro isSorted
        rw [unsorted] at isSorted
        cases isSorted
      have others : Held batch (update state.written reqId none) := by
        intro other otherRow isRow
        rw [index, Dict.get?_erase] at isRow
        split at isRow
        · cases isRow
        case isFalse different =>
          rw [update_of_ne different]
          exact sound.held.row isRow (removeRequest_carries removed found
            (placed.row_ne different isRow found))
      exact others

theorem addRequest_place (added : batch.addRequest request = .ok after) :
    after.reqIds = (batch.registered.placeRequest request batch.nextRow).reqIds /\
      after.reqIdToIndex = batch.reqIdToIndex.set request.reqId batch.nextRow /\
      after.reqOutputTokenIds =
        (batch.registered.placeRequest request batch.nextRow).reqOutputTokenIds /\
      after.specTokenIds = (batch.registered.placeRequest request batch.nextRow).specTokenIds /\
      after.batchUpdateBuilder = batch.batchUpdateBuilder.popRemoved.2 /\
      after.vocabSize = batch.vocabSize := by
  rcases addRequest_eq_ok added with ⟨_, isWritten, rfl⟩
  generalize batch.nextRow = row at *
  have index : (batch.registered.placeRequest request row).reqIdToIndex =
        batch.reqIdToIndex.set request.reqId row /\
      (batch.registered.placeRequest request row).batchUpdateBuilder =
        batch.batchUpdateBuilder.popRemoved.2 /\
      (batch.registered.placeRequest request row).vocabSize = batch.vocabSize := by
    unfold placeRequest
    split <;> exact ⟨rfl, rfl, rfl⟩
  generalize batch.registered.placeRequest request row = placed at *
  unfold writeParams at isWritten
  unfold writeLora
  split at isWritten
  case h_3 => cases isWritten
  all_goals
    cases isWritten
    cases request.loraRequest <;> exact ⟨rfl, index.1, rfl, rfl, index.2.1, index.2.2⟩

theorem addRequest_mask (added : batch.addRequest request = .ok after)
    (pooling : request.samplingParams = none) :
    after.allowedTokenIdsMaskCpuTensor = batch.allowedTokenIdsMaskCpuTensor := by
  rcases addRequest_eq_ok added with ⟨_, isWritten, rfl⟩
  have placed : (batch.registered.placeRequest request
      batch.nextRow).allowedTokenIdsMaskCpuTensor = batch.allowedTokenIdsMaskCpuTensor := by
    unfold placeRequest
    split <;> rfl
  unfold writeParams at isWritten
  rw [pooling] at isWritten
  unfold writeLora
  split at isWritten
  case h_1 impossible => cases impossible
  case h_3 => cases isWritten
  case h_2 =>
    cases isWritten
    cases request.loraRequest <;> exact placed

/-- A request fills the columns that its model uses. -/
theorem Written.ofRequest_spare (vocabSize : Nat) (blocksPerKvBlock : List Nat)
    {isPoolingModel : Bool} {occupied : Prop} (isOccupied : occupied)
    (kind : request.samplingParams.isSome = !isPoolingModel) :
    Spare isPoolingModel occupied
      (ofRequest vocabSize blocksPerKvBlock request).params := by
  cases isPoolingModel with
  | true =>
    have missing : request.samplingParams = none := not_isSome_iff_eq_none.mp (by simp [kind])
    constructor
    · simp [ofRequest, missing]
    · simp [ofRequest, missing]
    · exact fun _ => rfl
    intro given
    cases given
  | false =>
    rcases isSome_iff_exists.mp kind with ⟨_, isSampling⟩
    refine ⟨?_, ?_, (fun given => by cases given), ?_⟩
    · exact fun unused => (unused.elim (fun given => by cases given) (fun free => free isOccupied)).elim
    · exact fun unused => (unused.elim (fun given => by cases given) (fun free => free isOccupied)).elim
    · simp [ofRequest, isSampling]

/-- Nothing of the row that a request gets shows through.  If the request has no
prompt embeddings, the row has none left over.  If its prompt has no token ids, the
row has no token ids in the range of the prompt.  If it allows all tokens, the row
masks none. -/
def AddClean (batch : InputBatch E G) (request : CachedRequestState E G) : Prop :=
  (request.promptEmbeds = none -> batch.reqPromptEmbeds batch.nextRow = none) /\
    (request.promptTokenIds = none ->
      ∀ k < request.numPromptTokens, batch.tokenIdsCpu batch.nextRow k = 0) /\
    ((∀ params ∈ request.samplingParams, params.allowedTokenIds = []) ->
      ∀ masked ∈ batch.maskRow batch.nextRow, masked = false)

theorem addRequest_placed {holes : List Nat} (placed : batch.PlacedWith holes)
    (isHoles : holes.Perm batch.batchUpdateBuilder.removed)
    (sorted : batch.batchUpdateBuilder.isRemovedSorted = true ->
      batch.batchUpdateBuilder.removed.Pairwise (fun first second => second <= first))
    (new : batch.reqIdToIndex.get? request.reqId = none)
    (added : batch.addRequest request = .ok after) :
    after.PlacedWith after.batchUpdateBuilder.removed /\
      (after.batchUpdateBuilder.isRemovedSorted = true ->
        after.batchUpdateBuilder.removed.Pairwise (fun first second => second <= first)) /\
      batch.nextRow <= batch.reqIds.length /\
      ¬ Occupied batch.reqIds batch.nextRow /\
      (∀ row, Occupied batch.reqIds row -> Occupied after.reqIds row) := by
  rcases addRequest_place added with ⟨reqIds, index, outputs, specs, builder, -⟩
  unfold PlacedWith
  rw [reqIds, index, outputs, specs, builder]
  rcases popRemoved_cases sorted with ⟨nothing, popped⟩ | ⟨row, isRow, member, erased, isSorted⟩
  · have isNil : holes = [] := by
      rw [nothing] at isHoles
      exact isHoles.eq_nil
    rw [isNil] at placed
    have atEnd : batch.nextRow = batch.reqIds.length := by
      have size := placed.size
      unfold nextRow numReqs
      rw [popped]
      simpa using size.symm
    have entered : batch.registered.placeRequest request batch.nextRow = { batch.registered with
        reqIds := batch.reqIds ++ [some request.reqId]
        reqOutputTokenIds := batch.reqOutputTokenIds ++ [some request.outputList]
        specTokenIds := batch.specTokenIds ++ [[]]
        reqIdToIndex := batch.reqIdToIndex.set request.reqId batch.nextRow } :=
      if_pos atEnd
    rw [entered, popped, nothing, atEnd]
    refine ⟨placed.append new _, fun _ => List.Pairwise.nil, le_rfl, ?_, ?_⟩
    · rintro ⟨other, isAt⟩
      rw [List.getElem?_eq_none (le_rfl)] at isAt
      cases isAt
    rintro other ⟨otherId, isAt⟩
    have inside := placed.row_lt ((placed.index_iff otherId other).mpr isAt)
    exact ⟨otherId, by rw [List.getElem?_append_left inside, isAt]⟩
  have isNext : batch.nextRow = row := by
    unfold nextRow
    rw [isRow]
    rfl
  have hole : row ∈ holes := isHoles.mem_iff.mpr member
  have inside := placed.hole_lt hole
  have entered : batch.registered.placeRequest request batch.nextRow = { batch.registered with
      reqIds := batch.reqIds.set batch.nextRow (some request.reqId)
      reqOutputTokenIds := batch.reqOutputTokenIds.set batch.nextRow (some request.outputList)
      specTokenIds := batch.specTokenIds.set batch.nextRow []
      reqIdToIndex := batch.reqIdToIndex.set request.reqId batch.nextRow } :=
    if_neg (by rw [isNext]; exact inside.ne)
  rw [entered, isNext]
  refine ⟨?_, fun _ => isSorted, inside.le, placed.not_occupied_of_hole hole, ?_⟩
  · exact (placed.fill new hole _ []).perm ((isHoles.erase row).trans erased)
  rintro other ⟨otherId, isAt⟩
  have different : other ≠ row := by
    rintro rfl
    exact placed.not_occupied_of_hole hole ⟨otherId, isAt⟩
  exact ⟨otherId, by rw [List.getElem?_set_ne (Ne.symm different), isAt]⟩

theorem addRequest_sound (sound : Sound state) {after : WorkerState E G}
    (phase : state.phase ≠ .condensed) (may : WorkerState.MayAdd state.batch request)
    (clean : AddClean state.batch request)
    (done : state.advance (.addRequest request) = .ok after) : Sound after := by
  simp only [WorkerState.advance] at done
  split at done
  · cases done
  case h_2 batch added =>
    cases done
    rcases may with ⟨new, kind, groups⟩
    have placed := sound.placed
    rw [show state.holes = state.batch.batchUpdateBuilder.removed from if_neg phase] at placed
    rcases addRequest_placed placed (List.Perm.refl _) sound.sorted new added with
      ⟨placedAfter, sorted, place, free, others⟩
    rcases addRequest_place added with ⟨_, index, _, _, _, vocab⟩
    have found : batch.reqIdToIndex.get? request.reqId = some state.batch.nextRow := by
      rw [index, Dict.get?_set_self]
    have carries : ∀ row, row ≠ state.batch.nextRow -> Carries state.batch batch row row :=
      fun row different =>
        addRequest_carries added different groups placed.outputs_length
    have needs : request.samplingParams.isSome = true ->
        state.batch.logitsProcessingNeedsTokenIds state.batch.nextRow = false := by
      intro isSampling
      rw [isSampling] at kind
      exact sound.columns.needs (by simpa using kind.symm) _
    have holds := addRequest_holds added clean.1 clean.2.1
      (sound.columns.freeGenerators _ free) (sound.columns.freeBadWords _ free) clean.2.2 needs place
      (fun _ => placed.specs_empty _ free) placed.specs_length placed.outputs_length
    have model : batch.isPoolingModel = state.batch.isPoolingModel :=
      (carries (state.batch.nextRow + 1) (Nat.succ_ne_self _)).model
    refine ⟨placedAfter, sorted, ?_, ?_⟩
    · refine columns_of_spare (fun pooling => ?_) (fun row => ?_)
      · have isPooling := model.symm.trans pooling
        rw [addRequest_mask added (by simpa [isPooling] using kind), sound.columns.mask isPooling]
      by_cases same : row = state.batch.nextRow
      · rw [same, holds.params]
        exact ofRequest_spare _ _ (placedAfter.occupied_of_index found) (model ▸ kind)
      · exact sound.columns.carry (carries row same) (mt (others row))
    intro reqId row isRow
    dsimp only at isRow ⊢
    by_cases same : reqId = request.reqId
    · rw [same, found, Option.some.injEq] at isRow
      rw [same, update_self, vocab]
      refine ⟨_, rfl, isRow ▸ holds, fun pooling => ?_⟩
      show request.samplingParams.map _ = none
      rw [model] at pooling
      rw [pooling, Bool.not_true, isSome_eq_false_iff, isNone_iff_eq_none] at kind
      rw [kind]
      rfl
    rw [index, Dict.get?_set_of_ne _ _ same] at isRow
    rw [update_of_ne same]
    have different : row ≠ state.batch.nextRow := by
      rintro rfl
      exact free (placed.occupied_of_index isRow)
    exact sound.held.row isRow (carries row different)

end Invariant

end Vllm.Worker
