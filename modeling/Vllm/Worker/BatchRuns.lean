import Vllm.Worker.Condense

namespace Vllm.Worker

open Foundation InputBatch WorkerState Option
open Hashing (TokenId)
open KVCache (RequestId BlockId)

/-!
# Runs of the persistent batch

In every run whose calls let nothing of another request show through, the
requests fill the first rows after each step, and each row holds what was written
for its request.

Six kinds of calls do let something through.  Prompt embeddings stay in the row of a
removed request, the mask of a moved request stays in its old row, two masks are not
exchanged when their rows are, and the flag of a pooling request does not move.  The
token ids of a removed request stay in its row, where a prompt of embeddings does not
overwrite them, and so do the marks of its tokens, which drafts do not overwrite.
-/

variable {reqId : RequestId}

section Runs

variable {E G : Type}

/-- Nothing of another request shows through.  This leaves out what the calls do let
through: a request is added to a row that still has prompt embeddings, token ids or
a mask which the request does not overwrite; condensing moves a request over prompt
embeddings, or to a row with another flag; rows with different masks or flags are
swapped; a write makes a position active that it does not write itself and that holds
something else than what the request has last written there. -/
def CallClean (state : WorkerState E G) : BatchCall E G -> Prop
  | .addRequest request => AddClean state.batch request
  | .condense => ∀ move ∈ InputBatch.condenseMoves state.batch.emptyReqIndices
      (state.batch.numReqs + state.batch.emptyReqIndices.length - 1),
      state.batch.MoveClean move.1 move.2
  | .swapStates first second => state.batch.SwapClean first second
  | .write reqId write => ∀ row ∈ state.batch.reqIdToIndex.get? reqId,
      ∀ record ∈ state.written reqId, WriteClean state.batch row record write
  | .removeRequest _ | .refreshMetadata => True

variable {state after : WorkerState E G}

theorem swapStates_eq_ok {batch swapped : InputBatch E G} {first second : Nat}
    (done : batch.swapStates first second = .ok swapped) :
    ∃ firstId secondId, batch.reqIds[first]? = some (some firstId) /\
      batch.reqIds[second]? = some (some secondId) /\
      swapped = (batch.swapColumns firstId secondId first second).swapParams first second := by
  unfold swapStates at done
  split at done
  case h_1 firstId secondId isFirst isSecond =>
    cases done
    exact ⟨firstId, secondId, isFirst, isSecond, rfl⟩
  · cases done
  · cases done

theorem swapStates_sound (sound : Sound state) {first second : Nat}
    (phase : state.phase = .condensed) (clean : state.batch.SwapClean first second)
    (done : state.advance (.swapStates first second) = .ok after) : Sound after := by
  simp only [advance] at done
  split at done
  · cases done
  case h_2 batch swapped =>
    cases done
    have placed := sound.placed
    rw [show state.holes = [] from if_pos phase] at placed
    rcases swapStates_eq_ok swapped with ⟨firstId, secondId, isFirst, isSecond, isSwapped⟩
    have firstFound := (placed.index_iff firstId first).mpr isFirst
    have secondFound := (placed.index_iff secondId second).mpr isSecond
    have firstInside := placed.row_lt firstFound
    have secondInside := placed.row_lt secondFound
    have kept : batch.reqIds = swapItems state.batch.reqIds first second /\
        batch.reqIdToIndex = (state.batch.reqIdToIndex.set firstId second).set secondId first /\
        batch.reqOutputTokenIds =
          swapItems state.batch.reqOutputTokenIds first second /\
        batch.specTokenIds = swapItems state.batch.specTokenIds first second /\
        batch.batchUpdateBuilder = state.batch.batchUpdateBuilder := by
      have index : (state.batch.swapColumns firstId secondId first second).reqIdToIndex =
          (state.batch.reqIdToIndex.set firstId second).set secondId first := by
        show (state.batch.reqIdToIndex.set firstId
          ((state.batch.reqIdToIndex.get? secondId).getD 0)).set secondId
            ((state.batch.reqIdToIndex.get? firstId).getD 0) = _
        rw [firstFound, secondFound, getD_some, getD_some]
      rw [isSwapped]
      unfold swapParams
      split <;> exact ⟨rfl, index, rfl, rfl, rfl⟩
    rcases kept with ⟨reqIds, index, outputs, specs, builder⟩
    have carries : ∀ row, Carries state.batch batch (Equiv.swap first second row) row := by
      intro row
      rw [isSwapped]
      exact swap_carries sound.columns
        (firstInside.trans_le placed.specs_length)
        (secondInside.trans_le placed.specs_length)
        (placed.outputs_length ▸ firstInside) (placed.outputs_length ▸ secondInside) clean
    have placedAfter : batch.PlacedWith [] := by
      unfold PlacedWith
      rw [reqIds, index, outputs, specs]
      exact placed.swap isFirst isSecond
    refine ⟨placedAfter, ?_, ?_, ?_⟩
    · dsimp only
      rw [builder]
      exact sound.sorted
    · refine columns_of_spare ?_ (fun row => ?_)
      · dsimp only
        rw [isSwapped]
        unfold swapParams
        split
        · exact sound.columns.mask
        case isFalse generates => exact (absurd · generates)
      apply sound.columns.carry (carries row)
      rintro free ⟨reqId, isAt⟩
      exact free ⟨reqId, by rw [reqIds, swapItems_getElem? firstInside secondInside, isAt]⟩
    apply sound.held.carry
    intro reqId row found
    rw [index, placed.get?_swap firstFound secondFound] at found
    rcases map_eq_some_iff.mp found with ⟨source, isSource, rfl⟩
    have carried := carries (Equiv.swap first second source)
    rw [Equiv.swap_apply_self] at carried
    exact ⟨source, isSource, carried⟩

theorem refreshMetadata_sound (sound : Sound state) (phase : state.phase = .condensed)
    (done : state.advance .refreshMetadata = .ok after) : Sound after := by
  cases done
  have placed := sound.placed
  rw [show state.holes = [] from if_pos phase] at placed
  refine ⟨placed, nofun, { sound.columns with }, ?_⟩
  apply sound.held.carry
  intro reqId row found
  exact ⟨row, found, rfl, fun _ _ => rfl, fun _ _ => rfl, rfl, fun _ => rfl⟩

theorem writeRow_placed {batch : InputBatch E G} {holes : List Nat}
    (placed : batch.PlacedWith holes) {row : Nat} (found : batch.reqIdToIndex.get? reqId = some row)
    (write : RowWrite) :
    (batch.writeRow row write).PlacedWith holes := by
  cases write with
  | specTokens specTokenIds =>
    refine ⟨placed.index_iff, placed.holes_iff, placed.nodup, placed.size,
      placed.outputs_length, ?_, ?_⟩
    · show batch.reqIds.length <= (batch.specTokenIds.set row specTokenIds).length
      rw [List.length_set]
      exact placed.specs_length
    intro other free
    have different : row ≠ other := by
      rintro rfl
      exact free (placed.occupied_of_index found)
    show ((batch.specTokenIds.set row specTokenIds)[other]?).getD [] = []
    rw [List.getElem?_set_ne different]
    exact placed.specs_empty other free
  | _ => exact placed

theorem writeRow_columns {batch : InputBatch E G} (columns : batch.Columns) (row : Nat)
    {write : RowWrite}
    (generates : ∀ numTokens, write = .numAcceptedTokens numTokens -> batch.isPoolingModel = false) :
    (batch.writeRow row write).Columns := by
  cases write
  case numAcceptedTokens numTokens =>
    exact
      { columns with
        accepted := fun pooling => absurd (pooling.symm.trans (generates numTokens rfl)) (by decide) }
  all_goals exact { columns with }

theorem write_sound (sound : Sound state) {write : RowWrite}
    (permitted : state.Permitted (.write reqId write))
    (clean : CallClean state (.write reqId write))
    (done : state.advance (.write reqId write) = .ok after) : Sound after := by
  simp only [advance] at done
  split at done
  · cases done
  case h_2 row found =>
    cases done
    have inside := sound.placed.row_lt found
    have groups : ∀ newBlockIds, write = .newBlocks newBlockIds ->
        newBlockIds.length = state.batch.blockTables.length := by
      rintro newBlockIds rfl
      exact permitted
    have kept : (state.batch.writeRow row write).reqIdToIndex = state.batch.reqIdToIndex /\
        (state.batch.writeRow row write).isPoolingModel = state.batch.isPoolingModel /\
        (state.batch.writeRow row write).batchUpdateBuilder = state.batch.batchUpdateBuilder := by
      cases write <;> exact ⟨rfl, rfl, rfl⟩
    rcases kept with ⟨index, model, builder⟩
    have sameHoles : holes ⟨state.batch.writeRow row write, state.phase,
        Function.update state.written reqId ((state.written reqId).map (fun written =>
          written.write state.blocksPerKvBlock write))⟩ = state.holes := by
      unfold holes
      dsimp only
      rw [builder]
    refine ⟨?_, ?_, ?_, ?_⟩
    · rw [sameHoles]
      exact writeRow_placed sound.placed found write
    · dsimp only
      rw [builder]
      exact sound.sorted
    · apply writeRow_columns sound.columns row
      rintro numTokens rfl
      exact permitted
    intro other otherRow isRow
    dsimp only at isRow ⊢
    rw [index] at isRow
    by_cases same : other = reqId
    · rcases sound.held other otherRow isRow with ⟨record, isRecord, holds, kind⟩
      rw [same, found, Option.some.injEq] at isRow
      rw [same] at isRecord ⊢
      rw [<- isRow] at holds ⊢
      rw [Function.update_self, mem_def.mp isRecord]
      refine ⟨_, rfl, holds.write (clean row found record isRecord)
        (inside.trans_le sound.placed.specs_length), fun pooling => ?_⟩
      rw [Written.write_sampling]
      exact kind (model ▸ pooling)
    rw [Function.update_of_ne same]
    exact Held.row sound.held isRow (writeRow_carries write
      (sound.placed.row_ne same isRow found) groups)

theorem init_sound (initial : (workerSystem E G).initial state) : Sound state := by
  rcases initial with ⟨⟨_, maxNumReqs, _, _, _, _, isInit⟩, phase, -⟩
  have placed : state.batch.PlacedWith [] := by
    rw [isInit]
    refine ⟨?_, ?_, List.nodup_nil, rfl, rfl, Nat.zero_le _, ?_⟩
    · exact fun reqId row => ⟨nofun, nofun⟩
    · exact fun row => ⟨nofun, nofun⟩
    intro row _
    show ((List.replicate maxNumReqs [])[row]?).getD [] = []
    rw [List.getElem?_replicate]
    split <;> rfl
  refine ⟨?_, ?_, ?_, ?_⟩
  · have holes : state.holes = [] := by
      unfold holes
      rw [phase, isInit]
      rfl
    rw [holes]
    exact placed
  · rw [isInit]
    exact nofun
  · rw [isInit]
    exact ⟨fun _ _ => rfl, fun _ _ => rfl, fun _ _ => rfl, fun _ => rfl, fun _ _ => rfl,
      fun _ _ => rfl, fun _ _ => rfl⟩
  intro reqId row found
  rw [isInit] at found
  cases found

theorem advance_sound (sound : Sound state) {call : BatchCall E G} (clean : CallClean state call)
    (permitted : state.Permitted call) (done : state.advance call = .ok after) : Sound after := by
  cases call with
  | removeRequest reqId => exact removeRequest_sound sound permitted done
  | addRequest request => exact addRequest_sound sound permitted.1 permitted.2 clean done
  | condense => exact condense_sound sound permitted clean done
  | swapStates first second => exact swapStates_sound sound permitted clean done
  | refreshMetadata => exact refreshMetadata_sound sound permitted done
  | write reqId write => exact write_sound sound permitted clean done

theorem reachable_sound (reachable : ((workerSystem E G).restrict CallClean).Reachable state) :
    Sound state := by
  apply reachable.invariant Sound
  · exact fun start initial => init_sound initial
  rintro before call later - sound ⟨clean, permitted, done⟩
  exact advance_sound sound clean permitted done

end Runs

section Evaluation

variable {E G : Type}

variable (batch : InputBatch E G)

variable (condition : WorkerState E G -> BatchCall E G -> Prop) (request : CachedRequestState E G)

instance : Decidable (WorkerState.MayAdd batch request) :=
  inferInstanceAs (Decidable (_ /\ _ /\ _))

variable (state : WorkerState E G)

instance : (call : BatchCall E G) -> Decidable (state.Permitted call)
  | .removeRequest _ => inferInstanceAs (Decidable (state.phase = .removing))
  | .addRequest request => inferInstanceAs (Decidable
      (state.phase ≠ .condensed /\ WorkerState.MayAdd state.batch request))
  | .condense => inferInstanceAs (Decidable (state.phase ≠ .condensed))
  | .swapStates _ _ => inferInstanceAs (Decidable (state.phase = .condensed))
  | .refreshMetadata => inferInstanceAs (Decidable (state.phase = .condensed))
  | .write _ (.newBlocks newBlockIds) => inferInstanceAs (Decidable
      (newBlockIds.length = state.batch.blockTables.length))
  | .write _ (.numAcceptedTokens _) => inferInstanceAs (Decidable
      (state.batch.isPoolingModel = false))
  | .write _ (.specTokens _) => isTrue trivial
  | .write _ (.sampledTokens _) => isTrue trivial
  | .write _ (.newTokens _ _) => isTrue trivial
  | .write _ (.numTokens _) => isTrue trivial
  | .write _ (.numComputedTokens _) => isTrue trivial

instance (source target : Nat) : Decidable (batch.MoveClean source target) :=
  inferInstanceAs (Decidable ((_ = none -> _ = none) /\ _ = _))

instance (first second : Nat) : Decidable (batch.SwapClean first second) :=
  inferInstanceAs (Decidable (_ = _ /\ _ = _))

instance : Decidable (AddClean batch request) :=
  inferInstanceAs (Decidable ((_ = none -> _ = none) /\
    (_ = none -> ∀ k < request.numPromptTokens, batch.tokenIdsCpu batch.nextRow k = 0) /\
    ((∀ params ∈ request.samplingParams, params.allowedTokenIds = []) ->
      ∀ masked ∈ batch.maskRow batch.nextRow, masked = false)))

instance (numTokensNoSpec k : Nat) :
    (write : InputBatch.RowWrite) -> Decidable (write.WritesToken numTokensNoSpec k)
  | .specTokens _ => inferInstanceAs (Decidable (_ /\ _))
  | .sampledTokens _ => inferInstanceAs (Decidable (_ /\ _))
  | .newTokens _ _ => inferInstanceAs (Decidable (_ /\ _))
  | .numTokens _ => isFalse id
  | .numComputedTokens _ => isFalse id
  | .newBlocks _ => isFalse id
  | .numAcceptedTokens _ => isFalse id

instance (numTokensNoSpec k : Nat) :
    (write : InputBatch.RowWrite) -> Decidable (write.WritesFlag numTokensNoSpec k)
  | .specTokens _ => isFalse id
  | .sampledTokens _ => inferInstanceAs (Decidable (_ /\ _))
  | .newTokens _ _ => isFalse id
  | .numTokens _ => isFalse id
  | .numComputedTokens _ => isFalse id
  | .newBlocks _ => isFalse id
  | .numAcceptedTokens _ => isFalse id

instance (row : Nat) (written : Written E G) (write : InputBatch.RowWrite) :
    Decidable (WriteClean batch row written write) := by
  unfold WriteClean
  infer_instance

instance : (call : BatchCall E G) -> Decidable (CallClean state call)
  | .addRequest request => inferInstanceAs (Decidable (AddClean state.batch request))
  | .condense => inferInstanceAs (Decidable (∀ move ∈ InputBatch.condenseMoves _ _, _))
  | .swapStates first second => inferInstanceAs (Decidable (state.batch.SwapClean first second))
  | .write _ _ => inferInstanceAs (Decidable (∀ row ∈ _, ∀ record ∈ _, WriteClean _ row record _))
  | .removeRequest _ => isTrue trivial
  | .refreshMetadata => isTrue trivial

/-- One call, if the worker makes it and it meets a condition. -/
def WorkerState.next [∀ state call, Decidable (condition state call)] (state : WorkerState E G)
    (call : BatchCall E G) : Option (WorkerState E G) :=
  if condition state call /\ state.Permitted call then (state.advance call).toOption else none

def afterBatchCalls [∀ state call, Decidable (condition state call)] (isPoolingModel : Bool)
    (calls : List (BatchCall E G)) : Option (WorkerState E G) :=
  System.run (next condition) calls
    ⟨InputBatch.init isPoolingModel 4 3 [1] (fun _ => 0) (fun _ => 0), .removing, fun _ => none⟩

theorem exists_afterBatchCalls {condition : WorkerState E G -> BatchCall E G -> Prop}
    [∀ state call, Decidable (condition state call)] (isPoolingModel : Bool)
    (calls : List (BatchCall E G)) {property : WorkerState E G -> Prop} [DecidablePred property]
    (holds : (afterBatchCalls condition isPoolingModel calls).map
      (fun state => decide (property state)) = some true) :
    ∃ state, ((workerSystem E G).restrict condition).Reachable state /\ property state := by
  rcases map_eq_some_iff.mp holds with ⟨state, ran, isTrue⟩
  refine ⟨state, ?_, of_decide_eq_true isTrue⟩
  have initial : ((workerSystem E G).restrict condition).initial
      ⟨init isPoolingModel 4 3 [1] (fun _ => 0) (fun _ => 0), .removing,
        fun _ => none⟩ :=
    ⟨⟨isPoolingModel, 4, 3, [1], _, _, rfl⟩, rfl, fun _ => rfl⟩
  refine System.Reachable.run_where ?_ (.start initial) ran
  exact fun _ _ _ allowed isNext => ⟨allowed.1, allowed.2, isNext⟩

end Evaluation

/-- A request that generates tokens, with a prompt of one token. -/
def generation (reqId : RequestId) (promptEmbeds : Option (List Nat)) (allowedTokenIds : List Nat) :
    CachedRequestState Nat Nat where
  reqId := reqId
  promptTokenIds := if promptEmbeds.isSome then none else some [7]
  promptEmbeds := promptEmbeds
  numPromptTokens := (promptEmbeds.map List.length).getD 1
  numPromptTokens_eq := by cases promptEmbeds <;> rfl
  samplingParams := some ⟨1, none, 1, 0, 0, 0, 1, none, none, allowedTokenIds, []⟩
  poolingParams := none
  generator := none
  blockIds := [[5]]
  numComputedTokens := 0
  outputTokenIds := []
  outputList := 0
  loraRequest := none

/-- A request for a pooling model. -/
def pooling (reqId : RequestId) (requiresTokenIds : Bool) : CachedRequestState Nat Nat where
  reqId := reqId
  promptTokenIds := some [7]
  promptEmbeds := none
  numPromptTokens := 1
  numPromptTokens_eq := rfl
  samplingParams := none
  poolingParams := some ⟨requiresTokenIds⟩
  generator := none
  blockIds := [[5]]
  numComputedTokens := 0
  outputTokenIds := []
  outputList := 0
  loraRequest := none

variable (state : WorkerState Nat Nat)

/-- The row of a request does not hold what was written for it. -/
def RowDiffers (reqId : RequestId) : Prop :=
  ∃ row record, state.batch.reqIdToIndex.get? reqId = some row /\
    state.written reqId = some record /\ ¬ RowHolds state.batch row record

/-- A column of a row, or one of its active positions, is not what was written. -/
def contentsDiffer (reqId : RequestId) : Bool :=
  match state.batch.reqIdToIndex.get? reqId, state.written reqId with
  | some row, some record =>
    decide (state.batch.rowParams row ≠ record.params) ||
      (List.range record.params.activeTokenCount).any (fun k =>
        state.batch.tokenIdsCpu row k ≠ (record.tokenIds k).getD 0 ||
          state.batch.isTokenIds row k ≠ (record.isTokenIds k).getD false)
  | _, _ => false

theorem rowDiffers_of_contentsDiffer {state : WorkerState Nat Nat}
    (differ : contentsDiffer state reqId = true) : RowDiffers state reqId := by
  unfold contentsDiffer at differ
  split at differ
  case h_1 row record found isRecord =>
    refine ⟨row, record, found, isRecord, fun holds => ?_⟩
    rcases Bool.or_eq_true_iff.mp differ with params | position
    · exact of_decide_eq_true params holds.params
    rcases List.any_eq_true.mp position with ⟨k, inside, notHeld⟩
    rw [List.mem_range] at inside
    simp [holds.tokenIds k inside, holds.isTokenIds k inside] at notHeld
  case h_2 => cases differ

theorem exists_rowDiffers (isPoolingModel : Bool) (calls : List (BatchCall Nat Nat))
    (reqId : RequestId)
    (holds : (afterBatchCalls (fun _ _ => True) isPoolingModel calls).map (fun state =>
      decide (state.phase = .condensed /\ contentsDiffer state reqId = true)) = some true) :
    ∃ state, (workerSystem Nat Nat).Reachable state /\ state.phase = .condensed /\
      RowDiffers state reqId := by
  rcases exists_afterBatchCalls isPoolingModel calls holds with
    ⟨state, reachable, phase, differ⟩
  exact ⟨state, reachable.of_restrict, phase, rowDiffers_of_contentsDiffer differ⟩

/-- A request gets the row of a removed one, and its prompt embeddings with it. -/
theorem prompt_embeds_stay :
    ∃ state : WorkerState Nat Nat, (workerSystem Nat Nat).Reachable state /\
      state.phase = .condensed /\ RowDiffers state "second" := by
  apply exists_rowDiffers false [.addRequest (generation "first" (some [3]) []), .condense,
    .refreshMetadata, .removeRequest "first", .addRequest (generation "second" none []), .condense]
  decide +kernel

/-- A request is moved down, and the next request in its old row gets its mask. -/
theorem mask_stays_in_old_row :
    ∃ state : WorkerState Nat Nat, (workerSystem Nat Nat).Reachable state /\
      state.phase = .condensed /\ RowDiffers state "third" := by
  apply exists_rowDiffers false
    [.addRequest (generation "first" none []), .addRequest (generation "second" none [1]),
      .condense, .refreshMetadata, .removeRequest "first", .condense, .refreshMetadata,
      .addRequest (generation "third" none []), .condense]
  decide +kernel

/-- A pooling request is moved down without its flag. -/
theorem flag_is_not_moved :
    ∃ state : WorkerState Nat Nat, (workerSystem Nat Nat).Reachable state /\
      state.phase = .condensed /\ RowDiffers state "second" := by
  apply exists_rowDiffers true
    [.addRequest (pooling "first" false), .addRequest (pooling "second" true), .condense,
      .refreshMetadata, .removeRequest "first", .condense]
  decide +kernel

/-- A request with prompt embeddings gets the row of a removed one, and the token ids
of the removed one stay in the range of its prompt. -/
theorem token_ids_stay_under_embeds :
    ∃ state : WorkerState Nat Nat, (workerSystem Nat Nat).Reachable state /\
      state.phase = .condensed /\ RowDiffers state "second" := by
  apply exists_rowDiffers false [.addRequest (generation "first" none []), .condense,
    .refreshMetadata, .removeRequest "first", .addRequest (generation "second" (some [3]) []),
    .condense]
  decide +kernel

/-- A request has sampled two tokens and is removed.  The drafts of the next request
in its row count as marked tokens, although nothing has marked them. -/
theorem marks_stay_under_drafts :
    ∃ state : WorkerState Nat Nat, (workerSystem Nat Nat).Reachable state /\
      state.phase = .condensed /\ RowDiffers state "second" := by
  apply exists_rowDiffers false [.addRequest (generation "first" none []), .condense,
    .write "first" (.sampledTokens [8, 9]), .refreshMetadata, .removeRequest "first",
    .addRequest (generation "second" none []), .condense, .write "second" (.specTokens [4, 5])]
  decide +kernel

end Vllm.Worker
