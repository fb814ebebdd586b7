import Vllm.KVCache.HybridSpec

namespace Vllm.KVCache

open List Option

/-!
# The common hit is well formed

The search ends and returns one length for all groups: it does not exceed the
limit, every block size divides it, and each group gets exactly the blocks that
it takes.  This needs two conditions on the configuration.

The eagle rule lets a group look one block further on the understanding that it
drops that block.  The Mamba lookup does not drop it, so a Mamba eagle group
whose blocks are as large as the alignment can raise the length again.  And the
tables of full attention, which are looked up once, are cut to the final length
in the first attention group only.
-/

variable (config : HybridConfig)

/-- The result that a caller relies on. -/
def WellFormedHit (maxCacheHitLength : Nat) (result : Option (List (List BlockId) × Nat)) : Prop :=
  ∃ tables hitLength, result = some (tables, hitLength) /\ hitLength <= maxCacheHitLength /\
    ∀ groupId spec, config.specOf groupId = some spec ->
      spec.blockSize ∣ hitLength /\
        ∃ blocks, tables[groupId]? = some blocks /\
          blocks.length = hitLength / spec.blockSize

def HybridConfig.numFullAttention : Nat :=
  (config.attentionGroups.filter (fun group => group.spec.isFullAttention)).length

/-- No eagle group is a Mamba group with blocks as large as the alignment, and
later full-attention groups have nothing that shrinks after them. -/
structure HybridConfig.Consistent (config : HybridConfig) : Prop where
  eagleRule : ∀ group ∈ config.attentionGroups, EagleRuleKept config group
  fullAttention : config.numFullAttention <= 1 \/ config.attentionGroups.length = 2

open HybridConfig

/-- All groups are of a kind that the search combines. -/
def HybridConfig.Combinable : Prop :=
  ∀ group ∈ config.kvCacheGroups, group.kvCacheSpec.Combinable

instance (group : AttentionGroup) : Decidable (EagleRuleKept config group) :=
  inferInstanceAs (Decidable (¬ _))

instance : Decidable config.Combinable :=
  inferInstanceAs (Decidable (∀ _ ∈ _, _))

variable {state after final : PassState} {groupId fuel idx : Nat}

section Search

variable {H : Type} {config} {maxLength : Nat}

theorem attentionGroups_visitable (combinable : config.Combinable)
    (eagleRule : ∀ group ∈ config.attentionGroups, EagleRuleKept config group) :
    Visitable config config.attentionGroups := by
  have grouped := config.attentionGroups_grouped
  exact ⟨fun group member => config.spec_of_mem KVCacheSpec.Combinable combinable member, eagleRule,
    fun group member => config.blockSize_dvd_lcm member, grouped.nonempty, grouped.nodup⟩

/-- The state of the search between two passes.  The single pass of a simple
hybrid starts with nothing looked up. -/
structure BetweenPasses (config : HybridConfig) (maxCacheHitLength : Nat) (state : PassState) :
    Prop where
  candidate : Candidate config maxCacheHitLength state
  seen : ∀ group ∈ config.attentionGroups, Stored state group \/ Unseen state group
  simple : config.isSimpleHybrid = true -> ∀ groupId, state.hitBlocksByGroup groupId = none

theorem start_betweenPasses :
    BetweenPasses config maxLength ⟨maxLength, fun _ => none, []⟩ :=
  ⟨⟨le_rfl, Or.inr ⟨rfl, fun _ => rfl⟩⟩, fun _ _ => Or.inr (fun _ _ => rfl), fun _ _ => rfl⟩

/-- The state at the end of the search.  Tables are long enough.  They are not
longer unless they belong to full attention and either wait for the final cut or
were looked up in an earlier pass. -/
structure Settled (config : HybridConfig) (maxCacheHitLength : Nat) (final : PassState) : Prop where
  bound : final.currHitLength <= maxCacheHitLength
  aligned : config.lcmBlockSize ∣ final.currHitLength
  stored : ∀ group ∈ config.attentionGroups, Stored final group
  short : ∀ group ∈ config.attentionGroups,
    (group.spec.isFullAttention = true ->
      config.isSimpleHybrid = true /\ group ∈ config.attentionGroups.tail) ->
      ∀ groupId ∈ group.groupIds, ∀ blocks, final.hitBlocksByGroup groupId = some blocks ->
        blocks.length * group.spec.blockSize <= final.currHitLength

/-- In the sorted list, a full-attention group that is not the first one comes
after another full-attention group. -/
theorem fullAttentionFirst_full_tail {groups rest : List AttentionGroup}
    {first group : AttentionGroup} (sorted : fullAttentionFirst groups = first :: rest)
    (full : group.spec.isFullAttention = true) (later : group ∈ rest) :
    first.spec.isFullAttention = true /\
      2 <= ((fullAttentionFirst groups).filter (fun group => group.spec.isFullAttention)).length := by
  have firstFull : first.spec.isFullAttention = true := by
    cases front : groups.filter (fun group => group.spec.isFullAttention) with
    | nil =>
      rw [fullAttentionFirst, front, nil_append] at sorted
      have inside : group ∈ groups.filter (fun group => !group.spec.isFullAttention) := by
        rw [sorted]
        exact mem_cons_of_mem _ later
      simp [full] at inside
    | cons head tail =>
      rw [fullAttentionFirst, front, cons_append] at sorted
      have head_mem : head ∈ groups.filter (fun group => group.spec.isFullAttention) := by
        rw [front]
        exact mem_cons_self
      rw [<- (List.cons.inj sorted).1]
      exact (mem_filter.mp head_mem).2
  refine ⟨firstFull, ?_⟩
  rw [sorted, filter_cons, if_pos firstFull, length_cons]
  have one : 0 < (rest.filter (fun group => group.spec.isFullAttention)).length :=
    length_pos_of_mem (mem_filter.mpr ⟨later, full⟩)
  omega

variable {group : AttentionGroup}

theorem simple_of_full_tail (consistent : config.Consistent)
    (full : group.spec.isFullAttention = true) (later : group ∈ config.attentionGroups.tail) :
    config.isSimpleHybrid = true := by
  cases sorted : config.attentionGroups with
  | nil => simp [sorted] at later
  | cons first rest =>
    rw [sorted, tail_cons] at later
    rcases fullAttentionFirst_full_tail sorted full later with ⟨firstFull, several⟩
    have two : config.attentionGroups.length = 2 := by
      rcases consistent.fullAttention with few | two
      · exact absurd (several.trans few) (by decide)
      · exact two
    rw [isSimpleHybrid, two, sorted, Bool.and_eq_true]
    exact ⟨rfl, firstFull⟩

theorem simple_groups (simple : config.isSimpleHybrid = true) :
    ∃ first second, config.attentionGroups = [first, second] /\
      first.spec.isFullAttention = true := by
  rw [isSimpleHybrid, Bool.and_eq_true, beq_iff_eq] at simple
  rcases simple with ⟨two, full⟩
  rcases length_eq_two.mp two with ⟨first, second, groups⟩
  rw [groups] at full
  exact ⟨first, second, groups, full⟩

section

variable (between : BetweenPasses config maxLength state)
  (result : PassResult config config.attentionGroups state after)
include between result

/-- A pass that does not lower the length ends the search. -/
theorem PassResult.settled_of_unchanged (unchanged : state.currHitLength <= after.currHitLength) :
    Settled config maxLength { after with currHitLength := state.currHitLength } := by
  have same : after.currHitLength = state.currHitLength := result.shrinks.antisymm unchanged
  have nonempty : config.attentionGroups ≠ [] :=
    ne_nil_of_length_pos (Nat.zero_lt_one.trans config.attentionGroups_length)
  refine ⟨between.candidate.bound, same ▸ result.aligned nonempty, ?_, ?_⟩
  · intro group member groupId inside
    rcases result.stored group member groupId inside with ⟨blocks, present, long⟩
    exact ⟨blocks, present, same ▸ long⟩
  intro group member position
  apply result.short group member
  intro full groupId _
  exact between.simple (position full).1 groupId

/-- The only pass of a simple hybrid ends the search: its second group was
looked up last. -/
theorem PassResult.settled_of_simple
    (simple : config.isSimpleHybrid = true) : Settled config maxLength after := by
  rcases simple_groups simple with ⟨_, second, groups, full⟩
  have exactLast : ∀ groupId ∈ second.groupIds, ∀ blocks,
      after.hitBlocksByGroup groupId = some blocks ->
        blocks.length * second.spec.blockSize = after.currHitLength :=
    result.last second (by rw [groups]; rfl) (fun _ groupId _ => between.simple simple groupId)
  refine ⟨result.shrinks.trans between.candidate.bound,
    result.aligned (by rw [groups]; exact cons_ne_nil _ _), result.stored, ?_⟩
  intro group member position groupId inside blocks present
  have isSecond : group = second := by
    rw [groups, mem_cons, mem_singleton] at member
    rcases member with here | here
    · have inTail := (position (here ▸ full)).2
      rw [groups, tail_cons, mem_singleton] at inTail
      exact inTail
    · exact here
  subst isSecond
  exact (exactLast groupId inside blocks present).le

end

theorem searchLoop_settled {pool : BlockPool H} {blockHashes : List H}
    (combinable : config.Combinable)
    (eagleRule : ∀ group ∈ config.attentionGroups, EagleRuleKept config group)
    (between : BetweenPasses config maxLength state) (enough : state.currHitLength < fuel) :
    ∃ final, searchLoop config pool blockHashes maxLength fuel state = some final /\
      Settled config maxLength final := by
  induction fuel generalizing state with
  | zero => omega
  | succ fuel ih =>
    rcases visitGroups_spec pool blockHashes 0 (attentionGroups_visitable combinable eagleRule)
      between.candidate between.seen with ⟨after, visited, result⟩
    rw [searchLoop, visited]
    by_cases unchanged : state.currHitLength <= after.currHitLength
    · exact ⟨_, if_pos unchanged, result.settled_of_unchanged between unchanged⟩
    by_cases simple : config.isSimpleHybrid = true
    · refine ⟨after, ?_, result.settled_of_simple between simple⟩
      simp only [unchanged, if_false, simple, if_true]
    have nonempty : config.attentionGroups ≠ [] :=
      ne_nil_of_length_pos (Nat.zero_lt_one.trans config.attentionGroups_length)
    have next : BetweenPasses config maxLength after :=
      ⟨⟨result.shrinks.trans between.candidate.bound, Or.inl (result.aligned nonempty)⟩,
        fun group member => Or.inl (result.stored group member),
        fun isSimple => absurd isSimple simple⟩
    rcases ih next (by omega) with ⟨final, found, settled⟩
    refine ⟨final, ?_, settled⟩
    simp only [unchanged, if_false, simple]
    exact found

/-- The cut applies to a table, or the table is not one of full attention in the
first attention group. -/
theorem truncateFirst_cases (member : group ∈ config.attentionGroups)
    (inside : groupId ∈ group.groupIds) {hitLength : Nat} {hitBlocks : Nat -> Option (List BlockId)} :
    truncateFirst config hitLength hitBlocks groupId =
        (hitBlocks groupId).map (fun blocks => blocks.take (hitLength / group.spec.blockSize)) \/
      truncateFirst config hitLength hitBlocks groupId = hitBlocks groupId /\
        (group.spec.isFullAttention = true -> group ∈ config.attentionGroups.tail) := by
  have grouped := config.attentionGroups_grouped
  rw [truncateFirst]
  cases sorted : config.attentionGroups with
  | nil => simp [sorted] at member
  | cons first rest =>
    rw [sorted] at grouped member
    have later (other : group ≠ first) : group ∈ rest := (mem_cons.mp member).resolve_left other
    by_cases full : first.spec.isFullAttention = true
    · simp only [full, if_true, contains_iff_mem]
      by_cases cut : groupId ∈ first.groupIds
      · have firstSpec := grouped.spec first mem_cons_self groupId cut
        have groupSpec := grouped.spec group member groupId inside
        rw [if_pos cut, Option.some.inj (firstSpec.symm.trans groupSpec)]
        exact Or.inl rfl
      rw [if_neg cut]
      exact Or.inr ⟨rfl, fun _ => later (fun same => cut (same ▸ inside))⟩
    · simp only [full]
      exact Or.inr ⟨rfl, fun isFull => later (fun same => full (same ▸ isFull))⟩

/-- Every stored table has at least the blocks of the length. -/
theorem Settled.fits (settled : Settled config maxLength final)
    (member : group ∈ config.attentionGroups) (inside : groupId ∈ group.groupIds) :
    ∃ blocks, final.hitBlocksByGroup groupId = some blocks /\
      final.currHitLength / group.spec.blockSize <= blocks.length := by
  rcases settled.stored group member groupId inside with ⟨blocks, present, long⟩
  refine ⟨blocks, present, (Nat.div_le_div_right long).trans_eq ?_⟩
  exact Nat.mul_div_cancel _ group.spec.blockSize_pos

/-- After the cut every stored table has exactly the blocks of the length. -/
theorem Settled.truncateFirst_length (consistent : config.Consistent)
    (settled : Settled config maxLength final) (member : group ∈ config.attentionGroups)
    (inside : groupId ∈ group.groupIds) :
    ∃ blocks,
      truncateFirst config final.currHitLength final.hitBlocksByGroup groupId = some blocks /\
        blocks.length = final.currHitLength / group.spec.blockSize := by
  rcases settled.fits member inside with ⟨blocks, present, enough⟩
  rcases truncateFirst_cases member inside with
    cut | ⟨uncut, position⟩
  · refine ⟨_, by rw [cut, present]; rfl, ?_⟩
    rw [length_take, Nat.min_eq_left enough]
  refine ⟨blocks, by rw [uncut, present], Nat.le_antisymm ?_ enough⟩
  refine (Nat.le_div_iff_mul_le group.spec.blockSize_pos).mpr ?_
  refine settled.short group member (fun full => ?_) groupId inside blocks present
  exact ⟨simple_of_full_tail consistent full (position full), position full⟩

end Search

theorem findLongestCommonHit_wellFormed {H : Type} (config : HybridConfig) (pool : BlockPool H)
    (blockHashes : List H) (maxLength : Nat) (combinable : config.Combinable)
    (consistent : config.Consistent) :
    WellFormedHit config maxLength (findLongestCommonHit config pool blockHashes maxLength) := by
  rcases searchLoop_settled combinable consistent.eagleRule
    (start_betweenPasses) (Nat.lt_succ_self maxLength) with
    ⟨final, found, settled⟩
  refine ⟨_, final.currHitLength, by rw [findLongestCommonHit, found], settled.bound, ?_⟩
  intro groupId spec isSpec
  rcases config.exists_attentionGroup isSpec with ⟨inRange, _, member, inside, rfl⟩
  refine ⟨(config.blockSize_dvd_lcm member).trans settled.aligned, ?_⟩
  rcases settled.truncateFirst_length consistent member inside with ⟨blocks, cut, length⟩
  refine ⟨blocks, ?_, length⟩
  rw [List.getElem?_map, List.getElem?_range inRange, map_some, cut, getD_some]

section Found

variable {H : Type} {config} {pool : BlockPool H} {blockHashes : List H} {maxLength : Nat}
  {groups : List AttentionGroup} {last : AttentionGroup}

theorem visitGroups_invariant (property : PassState -> Prop)
    (step : ∀ group ∈ groups, ∀ idx state after, property state ->
      visitGroup config pool blockHashes maxLength idx group state = some after -> property after)
    (start : property state)
    (visited : visitGroups config pool blockHashes maxLength idx groups state = some after) :
    property after := by
  induction groups generalizing idx state with
  | nil =>
    cases visited
    exact start
  | cons group rest ih =>
    rw [visitGroups] at visited
    split at visited
    · cases visited
    case h_2 middle first =>
      exact ih (fun other later => step other (mem_cons_of_mem _ later))
        (step group mem_cons_self idx state middle start first) visited

/-- A search that succeeded ended with a pass, and what every pass keeps held
before it. -/
theorem searchLoop_invariant {property : PassState -> Prop}
    (step : ∀ state after, property state -> visitGroups config pool blockHashes maxLength 0
      config.attentionGroups state = some after -> property after) (start : property state)
    (searched : searchLoop config pool blockHashes maxLength fuel state = some final) :
    ∃ before after, property before /\
      visitGroups config pool blockHashes maxLength 0 config.attentionGroups before = some after /\
      (before.currHitLength <= after.currHitLength /\
        final = { after with currHitLength := before.currHitLength } \/ final = after) := by
  induction fuel generalizing state with
  | zero => cases searched
  | succ fuel ih =>
    rw [searchLoop] at searched
    split at searched
    · cases searched
    case h_2 after pass =>
      split at searched
      case isTrue unchanged =>
        cases searched
        exact ⟨state, after, start, pass, Or.inl ⟨unchanged, rfl⟩⟩
      case isFalse =>
        split at searched
        · cases searched
          exact ⟨state, _, start, pass, Or.inr rfl⟩
        · exact ih (step state after start pass) searched

section

variable (notFull : last.spec.isFullAttention = false) (nodup : last.groupIds.Nodup)
include notFull nodup

/-- The last group of a pass is looked up, unless it is full attention. -/
theorem visitGroups_last
    (visited : visitGroups config pool blockHashes maxLength idx (groups ++ [last]) state =
      some after) :
    ∀ groupId ∈ last.groupIds, ∃ blocks, after.hitBlocksByGroup groupId = some blocks /\
      after.currHitLength = blocks.length * last.spec.blockSize := by
  induction groups generalizing idx state with
  | nil =>
    rw [nil_append, visitGroups] at visited
    split at visited
    · cases visited
    case h_2 middle visit =>
      cases visited
      simp only [visitGroup, notFull, Bool.false_and, Bool.false_eq_true, if_false] at visit
      split at visit
      · cases visit
      case h_2 rows _ =>
        cases visit
        intro groupId member
        rcases recordHits_of_mem pool.nullBlock rows nodup member with ⟨_, -, stored⟩
        exact ⟨_, stored, by rw [column_length]⟩
  | cons group rest ih =>
    rw [cons_append, visitGroups] at visited
    split at visited
    · cases visited
    · exact ih visited

theorem searchLoop_last (isLast : config.attentionGroups = groups ++ [last])
    (searched : searchLoop config pool blockHashes maxLength fuel state = some final) :
    Stored final last := by
  rcases searchLoop_invariant (fun _ _ _ _ => trivial) trivial searched with
    ⟨_, _, -, visited, ending⟩
  rw [isLast] at visited
  intro groupId member
  rcases visitGroups_last notFull nodup visited groupId member with ⟨blocks, present, length⟩
  rcases ending with ⟨unchanged, rfl⟩ | rfl
  · exact ⟨blocks, present, unchanged.trans length.le⟩
  · exact ⟨blocks, present, length.le⟩

end

section

variable (isLast : config.attentionGroups = groups ++ [last])
include isLast

theorem all_full_of_last (full : last.spec.isFullAttention = true) :
    ∀ group ∈ config.attentionGroups, group.spec.isFullAttention = true := by
  intro group member
  by_contra notFull
  unfold attentionGroups fullAttentionFirst at isLast member
  generalize collectGroups 0 config.kvCacheGroups [] = collected at isLast member
  have inBack : group ∈ collected.filter (fun group => !group.spec.isFullAttention) := by
    rcases mem_append.mp member with front | back
    · exact absurd (mem_filter.mp front).2 notFull
    · exact back
  rcases eq_nil_or_concat (collected.filter (fun group => !group.spec.isFullAttention)) with
    empty | ⟨_, other, isBack⟩
  · rw [empty] at inBack
    exact absurd inBack not_mem_nil
  rw [isBack, concat_eq_append, <- append_assoc] at isLast
  have same : other = last := (append_inj' isLast rfl).2 |> singleton_inj.mp
  have listed : other ∈ collected.filter (fun group => !group.spec.isFullAttention) := by
    rw [isBack, concat_eq_append]
    exact mem_append_right _ mem_cons_self
  rw [same, mem_filter] at listed
  simp [full] at listed

theorem searchLoop_last_stored
    (searched : searchLoop config pool blockHashes maxLength (maxLength + 1)
      ⟨maxLength, fun _ => none, []⟩ = some final) : Stored final last := by
  have member : last ∈ config.attentionGroups := by
    rw [isLast]
    exact mem_append_right _ mem_cons_self
  cases full : last.spec.isFullAttention with
  | false =>
    have nodup := (nodup_flatMap.mp config.attentionGroups_grouped.nodup).1 last member
    exact searchLoop_last full nodup isLast searched
  | true =>
    have kind {group : AttentionGroup} (inside : group ∈ config.attentionGroups) :
        group.spec.kind = .fullAttention := by
      have isFull := all_full_of_last isLast full group inside
      unfold KVCacheSpec.isFullAttention at isFull
      split at isFull
      case h_1 kind => exact kind
      case h_2 => cases isFull
    have combinable : config.Combinable := by
      intro entry listed
      rcases List.getElem?_of_mem listed with ⟨groupId, present⟩
      have isSpec : config.specOf groupId = some entry.kvCacheSpec := by
        rw [specOf, present, map_some]
      rcases (config.exists_attentionGroup isSpec).2 with ⟨group, inside, -, same⟩
      rw [<- same, KVCacheSpec.Combinable, kind inside]
      trivial
    have eagleRule : ∀ group ∈ config.attentionGroups, EagleRuleKept config group := by
      rintro group inside ⟨-, isMamba, -⟩
      rw [KVCacheSpec.IsMamba, kind inside] at isMamba
      exact isMamba
    rcases searchLoop_settled combinable eagleRule
      (start_betweenPasses) (Nat.lt_succ_self _) with
      ⟨_, found, settled⟩
    rw [searched, Option.some.injEq] at found
    rw [found]
    exact settled.stored last member

theorem truncateFirst_last (inside : groupId ∈ last.groupIds) (hitLength : Nat)
    (hitBlocks : Nat -> Option (List BlockId)) :
    truncateFirst config hitLength hitBlocks groupId = hitBlocks groupId := by
  have several := config.attentionGroups_length
  have nodup := config.attentionGroups_grouped.nodup
  rw [isLast] at several nodup
  rw [truncateFirst, isLast]
  cases groups with
  | nil => simp at several
  | cons first rest =>
    rw [cons_append, flatMap_cons, nodup_append] at nodup
    have notFirst : groupId ∉ first.groupIds := by
      intro early
      exact nodup.2.2 groupId early groupId
        (mem_flatMap.mpr ⟨last, mem_append_right _ mem_cons_self, inside⟩) rfl
    dsimp only [cons_append]
    split
    · exact if_neg (by simpa using notFirst)
    · rfl

end

/-- A lookup that finds tokens finds blocks, for every configuration. -/
theorem findLongestCommonHit_found {hits : List (List BlockId)} {hitLength : Nat}
    (result : findLongestCommonHit config pool blockHashes maxLength = some (hits, hitLength))
    (positive : 0 < hitLength) : ∃ blocks ∈ hits, blocks ≠ [] := by
  rw [findLongestCommonHit] at result
  split at result
  · cases result
  case h_2 final searched =>
    cases result
    rcases eq_nil_or_concat config.attentionGroups with empty | ⟨_, last, isLast⟩
    · have several := config.attentionGroups_length
      rw [empty] at several
      cases several
    rw [concat_eq_append] at isLast
    have stored := searchLoop_last_stored isLast searched
    have grouped := config.attentionGroups_grouped
    have member : last ∈ config.attentionGroups := by
      rw [isLast]
      exact mem_append_right _ mem_cons_self
    rcases exists_mem_of_ne_nil _ (grouped.nonempty last member) with ⟨groupId, inside⟩
    rcases stored groupId inside with ⟨blocks, present, long⟩
    have inRange := (grouped.mem_iff groupId).mp (mem_flatMap.mpr ⟨last, member, inside⟩)
    refine ⟨_, mem_map.mpr ⟨groupId, mem_range.mpr inRange, rfl⟩, ?_⟩
    rw [truncateFirst_last isLast inside, present]
    rintro rfl
    rw [length_nil, Nat.zero_mul] at long
    omega

end Found

/-- A pool after its requests were freed.  For each group id it caches the given
blocks, under the hashes `0`, `1`, and so on. -/
def poolCaching (hashBlockSize : Nat) (cached : List (List BlockId)) : BlockPool Nat where
  numGpuBlocks := 8
  enableCaching := true
  hashBlockSize := hashBlockSize
  refCnt := fun _ => 0
  blockHash := fun block =>
    (List.range cached.length).findSome? (fun groupId =>
      ((cached.getD groupId []).idxOf? block).map (fun hash => ⟨[hash], groupId⟩))
  freeBlockQueue := FreeKVCacheBlockQueue.init (List.range' 1 7)
  cachedBlockHashToBlock := fun key =>
    match key.blockHash with
    | [hash] => ((cached.getD key.groupId [])[hash]?).map .single
    | _ => none
  nullBlock := 0

/-- Full attention and Mamba with the same block size, both used for drafting. -/
def draftedMambaConfig : HybridConfig where
  kvCacheGroups := [⟨⟨16, zero_lt_sixteen, .fullAttention, 0⟩, true⟩,
    ⟨⟨16, zero_lt_sixteen, .mamba .all 0, 0⟩, true⟩]
  hashBlockSize := 16
  hashBlockSize_pos := zero_lt_sixteen
  useEagle := true
  divisible := by decide
  several := by decide

/-- Two blocks are cached in each group.  Full attention drops one and offers
16 tokens, Mamba looks one block further and raises the length to 32 again, and
the single pass of a simple hybrid ends there. -/
theorem mamba_raises_hit :
    ¬ WellFormedHit draftedMambaConfig 47 (findLongestCommonHit draftedMambaConfig
      (poolCaching 16 [[1, 2], [3, 4]]) [0, 1, 2] 47) := by
  have run : findLongestCommonHit draftedMambaConfig (poolCaching 16 [[1, 2], [3, 4]])
      [0, 1, 2] 47 = some ([[1], [0, 4]], 32) := by
    decide +kernel
  rintro ⟨_, _, result, -, groups⟩
  rw [run] at result
  cases result
  rcases (groups 0 ⟨16, by decide, .fullAttention, 0⟩ (by decide +kernel)).2 with
    ⟨_, present, length⟩
  cases present
  exact absurd length (by decide)

def twoLayoutsConfig : HybridConfig where
  kvCacheGroups := [⟨⟨16, zero_lt_sixteen, .fullAttention, 0⟩, false⟩,
    ⟨⟨16, zero_lt_sixteen, .fullAttention, 1⟩, false⟩, ⟨⟨16, zero_lt_sixteen, .slidingWindow 17, 0⟩, false⟩]
  hashBlockSize := 16
  hashBlockSize_pos := zero_lt_sixteen
  useEagle := false
  divisible := by decide
  several := by decide

/-- The window misses its second block, which shortens the hit to 16 tokens.
Only the first layout of full attention is cut. -/
theorem second_full_attention_stays_long :
    ¬ WellFormedHit twoLayoutsConfig 47 (findLongestCommonHit twoLayoutsConfig
      (poolCaching 16 [[1, 2], [3, 4], [5]]) [0, 1, 2] 47) := by
  have run : findLongestCommonHit twoLayoutsConfig (poolCaching 16 [[1, 2], [3, 4], [5]])
      [0, 1, 2] 47 = some ([[1], [3, 4], [5]], 16) := by
    decide +kernel
  rintro ⟨_, _, result, -, groups⟩
  rw [run] at result
  cases result
  rcases (groups 1 ⟨16, by decide, .fullAttention, 1⟩ (by decide +kernel)).2 with
    ⟨_, present, length⟩
  cases present
  exact absurd length (by decide)

def smallMambaConfig : HybridConfig where
  kvCacheGroups := [⟨⟨32, by decide, .fullAttention, 0⟩, true⟩,
    ⟨⟨16, zero_lt_sixteen, .mamba .all 0, 0⟩, true⟩]
  hashBlockSize := 16
  hashBlockSize_pos := zero_lt_sixteen
  useEagle := true
  divisible := by decide
  several := by decide

theorem small_mamba_hit_wellFormed : smallMambaConfig.Combinable /\ smallMambaConfig.Consistent /\
      WellFormedHit smallMambaConfig 47 (findLongestCommonHit smallMambaConfig
        (poolCaching 16 [[], [3, 4]]) [0, 1, 2] 47) := by
  have combinable : smallMambaConfig.Combinable := by decide +kernel
  have consistent : smallMambaConfig.Consistent := ⟨by decide +kernel, by decide +kernel⟩
  exact ⟨combinable, consistent, findLongestCommonHit_wellFormed _ _ _ _ combinable consistent⟩

end Vllm.KVCache
