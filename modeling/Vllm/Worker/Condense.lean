import Vllm.Worker.RowsFollow

namespace Vllm.Worker

open Foundation InputBatch List
open Hashing (TokenId)
open KVCache (RequestId BlockId)

/-!
# Condensing a batch

`condense` moves the last requests down into the free rows, lowest row first.
All rows behind the last request that was moved are free, so in the end the
requests fill the first rows.  A later move never touches the rows of an earlier
one, and what a move needs of the two rows can be read off the batch before the
first move.
-/

section Condensing

variable {E G : Type}

theorem lastOccupied_spec (empties : List Nat) (last : Nat) : lastOccupied empties last <= last /\
      (∀ row, lastOccupied empties last < row -> row <= last -> row ∈ empties) /\
      (lastOccupied empties last ∉ empties \/ lastOccupied empties last = 0) := by
  induction last with
  | zero => exact ⟨Nat.le_refl 0, fun row above below => by omega, Or.inr rfl⟩
  | succ last ih =>
    rw [lastOccupied]
    split
    case isTrue isEmpty =>
      refine ⟨Nat.le_succ_of_le ih.1, fun row above below => ?_, ih.2.2⟩
      rcases Nat.lt_or_ge last row with beyond | within
      · rw [show row = last + 1 by omega]
        exact isEmpty
      · exact ih.2.1 row above within
    case isFalse occupied =>
      exact ⟨le_rfl, fun row above below => by omega, Or.inl occupied⟩

variable {batch : InputBatch E G} {holes empties : List Nat}
  {written : RequestId -> Option (Written E G)}

theorem moveRequest_columns (columns : batch.Columns) {reqId : RequestId} {source target : Nat}
    (different : source ≠ target) (inside : target < batch.reqIds.length)
    (carries : ∀ row ≠ source, Carries batch
      ((batch.moveColumns reqId source target).moveParams source target)
      (movedFrom source target row) row) :
    ((batch.moveColumns reqId source target).moveParams source target).Columns := by
  have reqIds : ((batch.moveColumns reqId source target).moveParams source target).reqIds =
      (batch.reqIds.set target (some reqId)).set source none := by
    unfold moveParams
    split <;> rfl
  refine columns_of_spare ?_ (fun row => ?_)
  · unfold moveParams
    split
    · exact columns.mask
    case isFalse generates => exact (absurd · generates)
  by_cases isSource : row = source
  · have spare := columns.spare source
    rw [isSource]
    unfold moveParams
    split
    case isTrue pooling =>
      exact ⟨fun _ => spare.generator (Or.inl pooling), fun _ => spare.badWords (Or.inl pooling),
        spare.accepted, spare.needs⟩
    case isFalse generates =>
      exact ⟨fun _ => moveEntry_source different, fun _ => moveEntry_source different,
        (absurd · generates), spare.needs⟩
  have isAt : ((batch.moveColumns reqId source target).moveParams source target).reqIds[row]? =
      if row = target then some (some reqId) else batch.reqIds[row]? := by
    rw [reqIds, List.getElem?_set_ne (Ne.symm isSource), getElem?_set_of_lt inside]
  refine columns.carry (carries row isSource) (fun free => ?_)
  rintro ⟨other, isOther⟩
  unfold movedFrom at isOther
  split at isOther
  case isTrue isTarget => exact free ⟨reqId, by rw [isAt, if_pos isTarget]⟩
  case isFalse notTarget => exact free ⟨other, by rw [isAt, if_neg notTarget, isOther]⟩

/-- What holds before, between and after the moves of `condense`. -/
structure Condensing (batch : InputBatch E G) (written : RequestId -> Option (Written E G))
    (holes : List Nat) : Prop where
  placed : batch.PlacedWith holes
  columns : batch.Columns
  held : Held batch written

theorem moveRequest_condensing (condensing : Condensing batch written holes) {source target : Nat}
    (occupied : Occupied batch.reqIds source) (hole : target ∈ holes)
    (clean : batch.MoveClean source target) :
    ∃ after, batch.moveRequest source target = .ok after /\
      Condensing after written (source :: holes.erase target) /\
      after.reqIdToIndex.entries.length = batch.reqIdToIndex.entries.length /\
      after.reqIds.length = batch.reqIds.length /\
      (∀ row, row ≠ source -> row ≠ target ->
        after.reqPromptEmbeds row = batch.reqPromptEmbeds row) /\
      after.logitsProcessingNeedsTokenIds = batch.logitsProcessingNeedsTokenIds /\
      after.batchUpdateBuilder = batch.batchUpdateBuilder := by
  rcases condensing with ⟨placed, columns, held⟩
  rcases occupied with ⟨reqId, isAt⟩
  have found := (placed.index_iff reqId source).mpr isAt
  have different : source ≠ target := by
    rintro rfl
    exact placed.not_occupied_of_hole hole (placed.occupied_of_index found)
  have inside := placed.hole_lt hole
  have carries (row : Nat) (notSource : row ≠ source) := move_carries columns reqId notSource
    (placed.not_occupied_of_hole hole) (inside.trans_le placed.specs_length)
    (placed.outputs_length ▸ inside) clean
  refine ⟨(batch.moveColumns reqId source target).moveParams source target, ?_, ?_, ?_⟩
  · unfold moveRequest
    rw [isAt]
    rfl
  · refine ⟨?_, moveRequest_columns columns different inside carries, ?_⟩
    · have moved := placed.move found hole (batch.reqOutputTokenIds[source]?).join
        (batch.specTokenIdsOf source)
      unfold moveParams
      split <;> exact moved
    apply held.carry
    intro other row isRow
    have index : ((batch.moveColumns reqId source target).moveParams source
        target).reqIdToIndex = batch.reqIdToIndex.set reqId target := by
      unfold moveParams
      split <;> rfl
    rw [index, Dict.get?_set] at isRow
    split at isRow
    case isTrue same =>
      cases isRow
      have carried := carries target (Ne.symm different)
      rw [movedFrom, if_pos rfl] at carried
      exact ⟨source, by rw [same, found], carried⟩
    case isFalse other =>
      have notSource : row ≠ source := placed.row_ne other isRow found
      have notTarget : row ≠ target := by
        rintro rfl
        exact placed.not_occupied_of_hole hole (placed.occupied_of_index isRow)
      have carried := carries row notSource
      rw [movedFrom, if_neg notTarget] at carried
      exact ⟨row, isRow, carried⟩
  have kept : ∀ after, (batch.moveColumns reqId source target).moveParams source target =
      after -> after.reqIdToIndex = batch.reqIdToIndex.set reqId target /\
      after.reqIds = (batch.reqIds.set target (some reqId)).set source none /\
      after.reqPromptEmbeds = moveEntry batch.reqPromptEmbeds source target /\
      after.logitsProcessingNeedsTokenIds = batch.logitsProcessingNeedsTokenIds /\
      after.batchUpdateBuilder = batch.batchUpdateBuilder := by
    rintro after rfl
    unfold moveParams
    split <;> exact ⟨rfl, rfl, rfl, rfl, rfl⟩
  rcases kept _ rfl with ⟨index, reqIds, embeds, needs, builder⟩
  refine ⟨?_, ?_, ?_, needs, builder⟩
  · rw [index, length_entries_set, found]
    rfl
  · rw [reqIds, length_set, length_set]
  intro row notSource notTarget
  rw [embeds, moveEntry_apply notSource clean.1, movedFrom, if_neg notTarget]

theorem condenseMoves_mem {last : Nat} {move : Nat × Nat}
    (member : move ∈ condenseMoves empties last) :
    move.2 ∈ empties /\ move.2 < move.1 /\ move.1 <= last := by
  induction empties generalizing last with
  | nil => cases member
  | cons emptyIndex rest ih =>
    rw [condenseMoves] at member
    have bound := (lastOccupied_spec (emptyIndex :: rest) last).1
    split at member
    · cases member
    case isFalse above =>
      rcases mem_cons.mp member with rfl | later
      · exact ⟨mem_cons_self, Nat.lt_of_not_le above, bound⟩
      rcases ih later with ⟨isEmpty, below, _⟩
      exact ⟨mem_cons_of_mem _ isEmpty, below, by omega⟩

section Behind

variable {reqIds : List (Option RequestId)} {index : Dict RequestId Nat}
  {outputs : List (Option Nat)} {specs : List (List TokenId)}

/-- When the free rows are those from some row on, the requests fill the rows in
front of it. -/
theorem Placed.length_of_behind (placed : Placed reqIds index outputs specs holes) (first : Nat)
    (isHole : ∀ row < reqIds.length, row ∈ holes <-> first <= row)
    (within : first <= reqIds.length) : index.entries.length = first := by
  have same : holes.Perm (List.range' first (reqIds.length - first)) := by
    apply (perm_ext_iff_of_nodup placed.nodup nodup_range').mpr
    intro row
    rw [mem_range'_1]
    constructor
    · intro hole
      have inside := placed.hole_lt hole
      have behind := (isHole row inside).mp hole
      omega
    intro bounds
    exact (isHole row (by omega)).mpr bounds.1
  have length := same.length_eq
  have size := placed.size
  rw [length_range'] at length
  omega

/-- When the last row with a request is in front of all empty rows, the free rows
are behind the requests. -/
theorem Placed.holes_behind (placed : Placed reqIds index outputs specs holes) {last source : Nat}
    (within : last < reqIds.length)
    (isHole : ∀ row < reqIds.length, row ∈ holes <-> row ∈ empties \/ last < row)
    (some : 0 < index.entries.length) (bound : source <= last)
    (skipped : ∀ row, source < row -> row <= last -> row ∈ empties)
    (occupied : source ∉ empties \/ source = 0) (high : ∀ row ∈ empties, source <= row) :
    ∀ row ∈ holes, index.entries.length <= row := by
  have isBehind : ∀ row, row ∈ empties \/ last < row <->
      source < row \/ (row = source /\ source ∈ empties) := by
    intro row
    constructor
    · rintro (member | behind)
      · rcases Nat.lt_or_eq_of_le (high row member) with above | same
        · exact Or.inl above
        · exact Or.inr ⟨same.symm, same ▸ member⟩
      · exact Or.inl (bound.trans_lt behind)
    rintro (above | ⟨rfl, member⟩)
    · rcases Nat.lt_or_ge last row with behind | inFront
      · exact Or.inr behind
      · exact Or.inl (skipped row above inFront)
    · exact Or.inl member
  by_cases member : source ∈ empties
  · have zero : source = 0 := occupied.resolve_left (fun absent => absent member)
    have size := placed.length_of_behind 0 (by
      intro row inside
      rw [isHole row inside, isBehind]
      constructor
      · exact fun _ => Nat.zero_le row
      intro _
      rcases Nat.eq_zero_or_pos row with isZero | positive
      · exact Or.inr ⟨isZero.trans zero.symm, member⟩
      · exact Or.inl (zero ▸ positive)) (Nat.zero_le _)
    omega
  have size := placed.length_of_behind (source + 1) (by
    intro row inside
    rw [isHole row inside, isBehind, Nat.succ_le_iff]
    exact or_iff_left (fun both => member both.2)) (by omega)
  intro row hole
  rcases (isBehind row).mp ((isHole row (placed.hole_lt hole)).mp hole) with above | impossible
  · omega
  · exact absurd impossible.2 member

end Behind

/-- All moves together leave the free rows behind the requests.  The induction is
over the empty rows; the rows behind `last` are free already. -/
theorem moveRequests_condensing (last : Nat)
    (condensing : Condensing batch written holes) (within : last < batch.reqIds.length)
    (isHole : ∀ row < batch.reqIds.length, row ∈ holes <-> row ∈ empties \/ last < row)
    (ascending : empties.Pairwise (fun first second => first < second))
    (some : 0 < batch.reqIdToIndex.entries.length)
    (clean : ∀ move ∈ condenseMoves empties last, batch.MoveClean move.1 move.2) :
    ∃ after holesAfter, moveRequests (condenseMoves empties last) batch =
        .ok after /\ Condensing after written holesAfter /\
      after.reqIdToIndex.entries.length = batch.reqIdToIndex.entries.length /\
      ∀ row ∈ holesAfter, after.reqIdToIndex.entries.length <= row := by
  induction empties generalizing batch holes last with
  | nil =>
    refine ⟨batch, holes, rfl, condensing, rfl, ?_⟩
    apply condensing.placed.holes_behind within isHole some (le_rfl)
    · intro row above below
      omega
    · exact Or.inl not_mem_nil
    intro row member
    cases member
  | cons emptyIndex rest ih =>
    rcases lastOccupied_spec (emptyIndex :: rest) last with ⟨bound, skipped, occupied⟩
    have least := pairwise_cons.mp ascending
    rw [condenseMoves]
    rw [condenseMoves] at clean
    generalize lastOccupied (emptyIndex :: rest) last = source at *
    split
    case isTrue below =>
      refine ⟨batch, holes, rfl, condensing, rfl, ?_⟩
      apply condensing.placed.holes_behind within isHole some bound skipped occupied
      intro row member
      rcases mem_cons.mp member with rfl | later
      · exact below
      · exact (Nat.lt_of_le_of_lt below (least.1 row later)).le
    case isFalse above =>
      rw [if_neg above] at clean
      have notEmpty : source ∉ emptyIndex :: rest :=
        occupied.resolve_right (fun zero => above (zero ▸ Nat.zero_le _))
      have inside : source < batch.reqIds.length := bound.trans_lt within
      have sourceOccupied : Occupied batch.reqIds source := by
        rcases condensing.placed.cases_row inside with hole | found
        · rcases (isHole source inside).mp hole with member | behind
          · exact absurd member notEmpty
          · omega
        · exact found
      have target : emptyIndex ∈ holes :=
        (isHole emptyIndex (by omega)).mpr (Or.inl mem_cons_self)
      rcases moveRequest_condensing condensing sourceOccupied target
        (clean _ mem_cons_self) with
        ⟨moved, isMoved, condensingMoved, sizeMoved, lengthMoved, embeds, needs, -⟩
      have isHoleMoved : ∀ row < moved.reqIds.length,
          row ∈ source :: holes.erase emptyIndex <-> row ∈ rest \/ source - 1 < row := by
        intro row isRow
        rw [lengthMoved] at isRow
        rw [mem_cons, condensing.placed.nodup.mem_erase_iff, isHole row isRow, mem_cons]
        constructor
        · rintro (rfl | ⟨notFirst, (isFirst | later) | behind⟩)
          · exact Or.inr (by omega)
          · exact absurd isFirst notFirst
          · exact Or.inl later
          · exact Or.inr (by omega)
        rintro (later | behind)
        · have different := least.1 row later
          exact Or.inr ⟨by omega, Or.inl (Or.inr later)⟩
        by_cases isSource : row = source
        · exact Or.inl isSource
        refine Or.inr ⟨by omega, ?_⟩
        rcases Nat.lt_or_ge last row with beyond | inFront
        · exact Or.inr beyond
        · exact Or.inl (mem_cons.mp (skipped row (by omega) inFront))
      have cleanMoved : ∀ move ∈ condenseMoves rest (source - 1),
          moved.MoveClean move.1 move.2 := by
        intro move member
        rcases condenseMoves_mem member with ⟨later, below, inFront⟩
        have apart := least.1 move.2 later
        unfold MoveClean
        rw [embeds move.1 (by omega) (by omega), embeds move.2 (by omega) (by omega), needs]
        exact clean move (mem_cons_of_mem _ member)
      rcases ih (source - 1) condensingMoved (by omega) isHoleMoved least.2 (by omega) cleanMoved with
        ⟨after, holesAfter, done, condensingAfter, sizeAfter, behind⟩
      refine ⟨after, holesAfter, ?_, condensingAfter, sizeAfter.trans sizeMoved, behind⟩
      rw [moveRequests]
      simp only [isMoved]
      exact done

theorem emptyReqIndices_ascending (sorted : batch.batchUpdateBuilder.isRemovedSorted = true ->
      batch.batchUpdateBuilder.removed.Pairwise (fun first second => second <= first))
    (nodup : batch.batchUpdateBuilder.removed.Nodup) :
    batch.emptyReqIndices.Pairwise (fun first second => first < second) := by
  have isNodup := (ensureRemovedSorted_perm batch.batchUpdateBuilder).nodup_iff.mpr nodup
  unfold emptyReqIndices
  rw [pairwise_reverse]
  apply ((ensureRemovedSorted_sorted sorted).and isNodup).imp
  intro first second ordered
  exact Nat.lt_of_le_of_ne ordered.1 (Ne.symm ordered.2)

theorem mem_emptyReqIndices {row : Nat} :
    row ∈ batch.emptyReqIndices <-> row ∈ batch.batchUpdateBuilder.removed := by
  unfold emptyReqIndices
  rw [mem_reverse, (ensureRemovedSorted_perm batch.batchUpdateBuilder).mem_iff]

theorem length_emptyReqIndices (batch : InputBatch E G) :
    batch.emptyReqIndices.length = batch.batchUpdateBuilder.removed.length := by
  unfold emptyReqIndices
  rw [length_reverse, (ensureRemovedSorted_perm batch.batchUpdateBuilder).length_eq]

/-- Cutting off the free rows at the end changes no row of a request. -/
theorem Condensing.trim (condensing : Condensing batch written holes)
    (behind : ∀ row ∈ holes, batch.reqIdToIndex.entries.length <= row) (builder : BatchUpdateBuilder)
    :
    Condensing { batch with
      batchUpdateBuilder := builder
      reqIds := batch.reqIds.take batch.reqIdToIndex.entries.length
      reqOutputTokenIds := batch.reqOutputTokenIds.take batch.reqIdToIndex.entries.length
      specTokenIds := batch.specTokenIds.take batch.reqIdToIndex.entries.length } written [] := by
  rcases condensing with ⟨placed, columns, held⟩
  have free : ∀ row,
      ¬ Occupied (batch.reqIds.take batch.reqIdToIndex.entries.length) row ->
      ¬ Occupied batch.reqIds row := by
    rintro row isFree ⟨reqId, isAt⟩
    refine isFree ⟨reqId, ?_⟩
    rw [List.getElem?_take, if_pos (placed.occupied_lt behind ⟨reqId, isAt⟩), isAt]
  refine ⟨placed.trim behind, ?_, ?_⟩
  · exact
      { columns with
        freeGenerators := fun row isFree => columns.freeGenerators row (free row isFree)
        freeBadWords := fun row isFree => columns.freeBadWords row (free row isFree) }
  apply held.carry
  intro reqId row found
  have inside := placed.occupied_lt behind (placed.occupied_of_index found)
  refine ⟨row, found, rfl, fun _ _ => rfl, fun _ _ => rfl, ?_, fun _ => rfl⟩
  apply RowParams.ext
  case specTokenIds =>
    show ((batch.specTokenIds.take _)[row]?).getD [] = _
    rw [List.getElem?_take, if_pos inside]
    rfl
  case outputList =>
    show ((batch.reqOutputTokenIds.take _)[row]?).join = _
    rw [List.getElem?_take, if_pos inside]
    rfl
  all_goals rfl

theorem Condensing.clear (condensing : Condensing batch written holes)
    (zero : batch.reqIdToIndex.entries.length = 0) (builder : BatchUpdateBuilder) :
    Condensing { batch with
      batchUpdateBuilder := builder
      reqIds := []
      reqOutputTokenIds := []
      specTokenIds := [] } written [] := by
  have trimmed := condensing.trim (fun row _ => by rw [zero]; exact Nat.zero_le row) builder
  rw [zero] at trimmed
  exact trimmed

/-- The batch after `condense` has no free rows. -/
theorem condense_sound {state : WorkerState E G} (sound : Sound state) {after : WorkerState E G}
    (phase : state.phase ≠ .condensed)
    (clean : ∀ move ∈ condenseMoves state.batch.emptyReqIndices
      (state.batch.numReqs + state.batch.emptyReqIndices.length - 1),
      state.batch.MoveClean move.1 move.2)
    (done : state.advance .condense = .ok after) : Sound after := by
  have placed := sound.placed
  rw [show state.holes = state.batch.batchUpdateBuilder.removed from if_neg phase] at placed
  have sorted := ensureRemovedSorted_sorted sound.sorted
  have ascending := emptyReqIndices_ascending sound.sorted placed.nodup
  have condensing : Condensing { state.batch with
      batchUpdateBuilder := state.batch.batchUpdateBuilder.ensureRemovedSorted } state.written
      state.batch.batchUpdateBuilder.removed := by
    refine ⟨placed, { sound.columns with }, ?_⟩
    apply sound.held.carry
    intro reqId row found
    exact ⟨row, found, rfl, fun _ _ => rfl, fun _ _ => rfl, rfl, fun _ => rfl⟩
  simp only [WorkerState.advance] at done
  split at done
  · cases done
  case h_2 batch condensed =>
    cases done
    unfold condense at condensed
    dsimp only at condensed
    split at condensed
    case isTrue nothing =>
      cases condensed
      have isNil : state.batch.batchUpdateBuilder.removed = [] := by
        rw [<- length_eq_zero_iff, <- length_emptyReqIndices, nothing]
        rfl
      rw [isNil] at condensing
      exact ⟨condensing.placed, fun _ => sorted, condensing.columns, condensing.held⟩
    case isFalse something =>
      split at condensed
      case isTrue zero =>
        cases condensed
        have cleared := condensing.clear zero state.batch.batchUpdateBuilder.ensureRemovedSorted
        exact ⟨cleared.placed, fun _ => sorted, cleared.columns, cleared.held⟩
      case isFalse nonzero =>
        have size : state.batch.reqIds.length =
            state.batch.numReqs + state.batch.emptyReqIndices.length := by
          rw [length_emptyReqIndices]
          exact placed.size
        have positive : 0 < state.batch.numReqs := Nat.pos_of_ne_zero nonzero
        have moves := moveRequests_condensing
          (state.batch.numReqs + state.batch.emptyReqIndices.length - 1) condensing
          (by show _ < state.batch.reqIds.length; omega) (by
            intro row inside
            change row < state.batch.reqIds.length at inside
            rw [mem_emptyReqIndices]
            constructor
            · exact Or.inl
            rintro (member | behind)
            · exact member
            · omega) ascending positive clean
        rcases moves with ⟨_, _, isMoved, condensingMoved, sizeMoved, behind⟩
        rw [isMoved] at condensed
        cases condensed
        have trimmed := condensingMoved.trim behind ⟨(state.batch.emptyReqIndices.drop
          (condenseMoves state.batch.emptyReqIndices (state.batch.numReqs +
            state.batch.emptyReqIndices.length - 1)).length).reverse, true⟩
        rw [sizeMoved] at trimmed
        refine ⟨trimmed.placed, fun _ => ?_, trimmed.columns, trimmed.held⟩
        rw [pairwise_reverse]
        exact (ascending.sublist (drop_sublist _ _)).imp Nat.le_of_lt

end Condensing

end Vllm.Worker
