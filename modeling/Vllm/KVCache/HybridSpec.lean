import Vllm.KVCache.HybridLookup
import Vllm.KVCache.LookupSpec

namespace Vllm.KVCache

open AttentionGroup List

/-!
# Passes of the hybrid search

Two facts about the configuration come first: every group id belongs to exactly
one attention group, which has its specification, and every block size divides
the alignment.  Then follows what one visit of an attention group can do, and
what a pass over all of them does.
-/

/-- The ids below `count`, each in one group that has its specification. -/
structure Grouped (specOf : Nat -> Option KVCacheSpec) (groups : List AttentionGroup)
    (count : Nat) : Prop where
  nodup : (groups.flatMap groupIds).Nodup
  mem_iff : ∀ groupId, groupId ∈ groups.flatMap groupIds <-> groupId < count
  spec : ∀ group ∈ groups, ∀ groupId ∈ group.groupIds, specOf groupId = some group.spec
  nonempty : ∀ group ∈ groups, group.groupIds ≠ []

theorem addGroup_ids_perm (groupId : Nat) (spec : KVCacheSpec) (groups : List AttentionGroup) :
    ((addGroup groupId spec groups).flatMap groupIds).Perm
      (groupId :: groups.flatMap groupIds) := by
  induction groups with
  | nil => exact List.Perm.refl _
  | cons group rest ih =>
    rw [addGroup]
    split
    · rw [flatMap_cons, flatMap_cons, append_assoc, singleton_append]
      exact perm_middle
    rw [flatMap_cons, flatMap_cons]
    exact (ih.append_left group.groupIds).trans perm_middle

variable {group : AttentionGroup} {groups : List AttentionGroup} {groupId : Nat}
  {spec : KVCacheSpec}

theorem mem_addGroup (member : group ∈ addGroup groupId spec groups) :
    group ∈ groups \/ group.spec = spec /\
      (group.groupIds = [groupId] \/ ∃ old ∈ groups, old.spec = spec /\
        group.groupIds = old.groupIds ++ [groupId]) := by
  induction groups with
  | nil =>
    rw [addGroup, mem_singleton] at member
    rw [member]
    exact Or.inr ⟨rfl, Or.inl rfl⟩
  | cons first rest ih =>
    rw [addGroup] at member
    split at member
    case isTrue same =>
      rcases mem_cons.mp member with here | later
      · rw [here]
        exact Or.inr ⟨same, Or.inr ⟨first, mem_cons_self, same, rfl⟩⟩
      · exact Or.inl (mem_cons_of_mem _ later)
    case isFalse different =>
      rcases mem_cons.mp member with here | later
      · rw [here]
        exact Or.inl mem_cons_self
      rcases ih later with old | ⟨same, single | ⟨old, present, oldSpec, ids⟩⟩
      · exact Or.inl (mem_cons_of_mem _ old)
      · exact Or.inr ⟨same, Or.inl single⟩
      · exact Or.inr ⟨same, Or.inr ⟨old, mem_cons_of_mem _ present, oldSpec, ids⟩⟩

variable {count : Nat} {values : List Nat}

theorem addGroup_grouped {specOf : Nat -> Option KVCacheSpec}
    (grouped : Grouped specOf groups count) (here : specOf count = some spec) :
    Grouped specOf (addGroup count spec groups) (count + 1) := by
  have perm := addGroup_ids_perm count spec groups
  refine ⟨?_, ?_, ?_, ?_⟩
  · rw [perm.nodup_iff, nodup_cons]
    exact ⟨fun member => absurd ((grouped.mem_iff count).mp member) (Nat.lt_irrefl count),
      grouped.nodup⟩
  · intro groupId
    rw [perm.mem_iff, mem_cons, grouped.mem_iff]
    omega
  · intro group member groupId inside
    rcases mem_addGroup member with old | ⟨same, single | ⟨old, present, oldSpec, ids⟩⟩
    · exact grouped.spec group old groupId inside
    · rw [single, mem_singleton] at inside
      rw [inside, same]
      exact here
    rw [ids, mem_append, mem_singleton] at inside
    rcases inside with inside | inside
    · rw [same, <- oldSpec]
      exact grouped.spec old present groupId inside
    rw [inside, same]
    exact here
  intro group member
  rcases mem_addGroup member with old | ⟨-, single | ⟨old, -, -, ids⟩⟩
  · exact grouped.nonempty group old
  · rw [single]
    exact cons_ne_nil _ _
  rw [ids]
  exact append_ne_nil_of_right_ne_nil _ (cons_ne_nil _ _)

theorem collectGroups_grouped {specOf : Nat -> Option KVCacheSpec} {rest : List KVCacheGroupSpec}
    (grouped : Grouped specOf groups count)
    (specs : ∀ j, j < rest.length -> specOf (count + j) = rest[j]?.map KVCacheGroupSpec.kvCacheSpec) :
    Grouped specOf (collectGroups count rest groups) (count + rest.length) := by
  induction rest generalizing groups count with
  | nil => exact grouped
  | cons group rest ih =>
    rw [collectGroups, length_cons, show count + (rest.length + 1) =
      count + 1 + rest.length by omega]
    apply ih (addGroup_grouped grouped (by simpa using specs 0 (by simp)))
    intro j inside
    have later := specs (j + 1) (by simpa using inside)
    rw [show count + (j + 1) = count + 1 + j by omega] at later
    simpa using later

theorem Grouped.perm {specOf : Nat -> Option KVCacheSpec} {others : List AttentionGroup}
    (grouped : Grouped specOf groups count) (perm : others.Perm groups) :
    Grouped specOf others count := by
  have ids : (others.flatMap groupIds).Perm (groups.flatMap groupIds) := perm.flatMap_right _
  refine ⟨ids.nodup_iff.mpr grouped.nodup, ?_, ?_, ?_⟩
  · intro groupId
    rw [ids.mem_iff]
    exact grouped.mem_iff groupId
  · intro group member
    exact grouped.spec group (perm.mem_iff.mp member)
  · intro group member
    exact grouped.nonempty group (perm.mem_iff.mp member)

theorem fullAttentionFirst_perm :
    (fullAttentionFirst groups).Perm groups :=
  filter_append_perm _ groups

namespace HybridConfig

variable (config : HybridConfig)

/-- The specification of a group. -/
def specOf (groupId : Nat) : Option KVCacheSpec :=
  config.kvCacheGroups[groupId]?.map KVCacheGroupSpec.kvCacheSpec

theorem attentionGroups_grouped :
    Grouped config.specOf config.attentionGroups config.kvCacheGroups.length := by
  have initially : Grouped config.specOf [] 0 :=
    ⟨nodup_nil, by simp, by simp, by simp⟩
  have collected := collectGroups_grouped initially (by
    intro j inside
    rw [Nat.zero_add]
    rfl)
  rw [Nat.zero_add] at collected
  exact collected.perm (fullAttentionFirst_perm)

theorem exists_attentionGroup (isSpec : config.specOf groupId = some spec) :
    groupId < config.kvCacheGroups.length /\
      ∃ group ∈ config.attentionGroups, groupId ∈ group.groupIds /\ group.spec = spec := by
  have grouped := config.attentionGroups_grouped
  have inRange : groupId < config.kvCacheGroups.length := by
    rcases Option.map_eq_some_iff.mp isSpec with ⟨_, present, -⟩
    exact (List.getElem?_eq_some_iff.mp present).1
  rcases mem_flatMap.mp ((grouped.mem_iff groupId).mpr inRange) with ⟨group, member, inside⟩
  refine ⟨inRange, group, member, inside, ?_⟩
  exact Option.some.inj ((grouped.spec group member groupId inside).symm.trans isSpec)

/-- What holds of all specifications holds of those of the attention groups. -/
theorem spec_of_mem (property : KVCacheSpec -> Prop)
    (all : ∀ group ∈ config.kvCacheGroups, property group.kvCacheSpec)
    (member : group ∈ config.attentionGroups) : property group.spec := by
  have grouped := config.attentionGroups_grouped
  rcases exists_mem_of_ne_nil _ (grouped.nonempty group member) with ⟨groupId, inside⟩
  rcases Option.map_eq_some_iff.mp (grouped.spec group member groupId inside) with
    ⟨entry, present, same⟩
  rw [<- same]
  exact all entry (mem_of_getElem? present)

theorem attentionGroups_length : 1 < config.attentionGroups.length := by
  rw [attentionGroups, (fullAttentionFirst_perm).length_eq]
  exact config.several

theorem dvd_foldr_lcm {value : Nat} (member : value ∈ values) :
    value ∣ values.foldr Nat.lcm 1 := by
  induction values with
  | nil => simp at member
  | cons first rest ih =>
    rw [foldr_cons]
    rcases mem_cons.mp member with here | later
    · rw [here]
      exact Nat.dvd_lcm_left _ _
    · exact (ih later).trans (Nat.dvd_lcm_right _ _)

theorem foldr_lcm_ne_zero (positive : ∀ value ∈ values, value ≠ 0) :
    values.foldr Nat.lcm 1 ≠ 0 := by
  induction values with
  | nil => decide
  | cons first rest ih =>
    rw [foldr_cons]
    exact Nat.lcm_ne_zero (positive first mem_cons_self)
      (ih (fun value member => positive value (mem_cons_of_mem _ member)))

theorem lcmBlockSize_pos : 0 < config.lcmBlockSize := by
  apply Nat.pos_of_ne_zero
  apply foldr_lcm_ne_zero
  intro value member
  rcases mem_map.mp member with ⟨group, -, rfl⟩
  exact Nat.pos_iff_ne_zero.mp group.spec.blockSize_pos

theorem blockSize_dvd_lcm (member : group ∈ config.attentionGroups) :
    group.spec.blockSize ∣ config.lcmBlockSize := by
  apply dvd_foldr_lcm
  exact mem_map_of_mem ((fullAttentionFirst_perm).mem_iff.mp member)

theorem hashBlockSize_dvd (member : group ∈ config.attentionGroups) :
    config.hashBlockSize ∣ group.spec.blockSize :=
  config.spec_of_mem (fun spec => config.hashBlockSize ∣ spec.blockSize) config.divisible member

end HybridConfig

section

variable (nullBlock : BlockId) (rows : List Row)

variable (k : Nat)

theorem recordHits_of_not_mem
    {groupIds : List Nat} (hitBlocks : Nat -> Option (List BlockId)) (absent : groupId ∉ groupIds) :
    recordHits nullBlock rows k groupIds hitBlocks groupId = hitBlocks groupId := by
  induction groupIds generalizing k hitBlocks with
  | nil => rfl
  | cons first rest ih =>
    rw [mem_cons, not_or] at absent
    rw [recordHits, ih _ _ absent.2, Function.update_of_ne absent.1]

theorem recordHits_getElem? (groupIds : List Nat)
    (hitBlocks : Nat -> Option (List BlockId)) (nodup : groupIds.Nodup) {position : Nat}
    (here : groupIds[position]? = some groupId) :
    recordHits nullBlock rows k groupIds hitBlocks groupId =
      some (column nullBlock rows (k + position)) := by
  induction groupIds generalizing k hitBlocks position with
  | nil => simp at here
  | cons first rest ih =>
    have parts := nodup_cons.mp nodup
    rw [recordHits]
    cases position with
    | zero =>
      have same : first = groupId := by simpa using here
      rw [recordHits_of_not_mem _ _ _ _ (same ▸ parts.1), same, Function.update_self,
        Nat.add_zero]
    | succ position =>
      rw [ih _ _ parts.2 (by simpa using here)]
      congr 2
      omega

theorem recordHits_of_mem {groupIds : List Nat} {hitBlocks : Nat -> Option (List BlockId)}
    (nodup : groupIds.Nodup) (member : groupId ∈ groupIds) :
    ∃ k, groupIds[k]? = some groupId /\
      recordHits nullBlock rows 0 groupIds hitBlocks groupId = some (column nullBlock rows k) := by
  rcases List.getElem?_of_mem member with ⟨k, here⟩
  refine ⟨k, here, ?_⟩
  rw [recordHits_getElem? nullBlock rows 0 groupIds hitBlocks nodup here, Nat.zero_add]

@[simp] theorem column_length : (column nullBlock rows k).length = rows.length :=
  length_map _

end

section Visit

variable {H : Type} {config : HybridConfig} {maxLength : Nat}

variable (state : PassState)

/-- The table of a group is stored and is at least as long as the current length. -/
def Stored (group : AttentionGroup) : Prop :=
  ∀ groupId ∈ group.groupIds, ∃ blocks, state.hitBlocksByGroup groupId = some blocks /\
    state.currHitLength <= blocks.length * group.spec.blockSize

/-- No table of a group is stored yet. -/
def Unseen (group : AttentionGroup) : Prop :=
  ∀ groupId ∈ group.groupIds, state.hitBlocksByGroup groupId = none

/-- A candidate length is either aligned, or it is the limit itself and no
group was looked up yet. -/
structure Candidate (config : HybridConfig) (maxCacheHitLength : Nat) (state : PassState) :
    Prop where
  bound : state.currHitLength <= maxCacheHitLength
  aligned : config.lcmBlockSize ∣ state.currHitLength \/
    state.currHitLength = maxCacheHitLength /\ ∀ groupId, state.hitBlocksByGroup groupId = none

/-- The eagle rule is not applied to a Mamba group whose blocks are as large as
the alignment. -/
def EagleRuleKept (config : HybridConfig) (group : AttentionGroup) : Prop :=
  ¬ (config.isEagle group = true /\ group.spec.IsMamba /\
    group.spec.blockSize = config.lcmBlockSize)

/-- A multiple of `modulus` below a multiple plus `modulus` is not above it. -/
theorem le_of_dvd_of_lt_add {modulus left right : Nat} (leftAligned : modulus ∣ left)
    (rightAligned : modulus ∣ right) (near : left < right + modulus) : left <= right := by
  rcases leftAligned with ⟨a, rfl⟩
  rcases rightAligned with ⟨b, rfl⟩
  rw [<- Nat.mul_succ] at near
  have smaller : a < b + 1 := Nat.lt_of_mul_lt_mul_left near
  exact Nat.mul_le_mul_left _ (Nat.lt_succ_iff.mp smaller)

variable {state}

variable (pool : BlockPool H) (blockHashes : List H)

/-- The length that a lookup returns is aligned and not above the candidate. -/
theorem lookup_length_le (combinable : group.spec.Combinable) (kept : EagleRuleKept config group)
    (divides : group.spec.blockSize ∣ config.lcmBlockSize)
    (candidate : Candidate config maxLength state) {useEagle : Bool}
    (eagle : useEagle = true -> config.isEagle group = true) :
    ∃ rows, findLongestCacheHit pool blockHashes
        (if useEagle = true then min (state.currHitLength + group.spec.blockSize) maxLength
          else state.currHitLength) group.groupIds group.spec useEagle config.lcmBlockSize =
        some rows /\
      rows.length * group.spec.blockSize <= state.currHitLength /\
      config.lcmBlockSize ∣ rows.length * group.spec.blockSize := by
  have positive := group.spec.blockSize_pos
  cases useEagle with
  | false =>
    rcases findLongestCacheHit_plain pool blockHashes state.currHitLength group.groupIds group.spec
      config.lcmBlockSize combinable with ⟨rows, found, greatest, -⟩
    exact ⟨rows, found, (Nat.le_div_iff_mul_le positive).mp greatest.1.1, greatest.1.2.1⟩
  | true =>
    rcases findLongestCacheHit_eagle pool blockHashes
      (min (state.currHitLength + group.spec.blockSize) maxLength) group.groupIds group.spec
      config.lcmBlockSize combinable with ⟨rows, found, bound, dropped, aligned⟩
    have total := (Nat.le_div_iff_mul_le positive).mp bound
    refine ⟨rows, found, ?_, aligned⟩
    by_cases mamba : group.spec.IsMamba
    · rcases candidate.aligned with multiple | ⟨_, -⟩
      · have smaller : group.spec.blockSize < config.lcmBlockSize := by
          refine Nat.lt_of_le_of_ne (Nat.le_of_dvd config.lcmBlockSize_pos divides) ?_
          exact fun same => kept ⟨eagle rfl, mamba, same⟩
        exact le_of_dvd_of_lt_add aligned multiple (by omega)
      · omega
    have below := dropped mamba
    have limit : min (state.currHitLength + group.spec.blockSize) maxLength /
        group.spec.blockSize <= state.currHitLength / group.spec.blockSize + 1 := by
      refine Nat.le_trans (Nat.div_le_div_right (Nat.min_le_left _ _)) ?_
      rw [Nat.add_div_right _ positive]
    exact (Nat.le_div_iff_mul_le positive).mp (below.trans (Nat.sub_le_of_le_add limit))

theorem stored_of_head (nonempty : group.groupIds ≠ [])
    (seen : Stored state group \/ Unseen state group)
    (present : (state.hitBlocksByGroup (group.groupIds.headD 0)).isSome = true) :
    Stored state group := by
  rcases seen with stored | unseen
  · exact stored
  cases ids : group.groupIds with
  | nil => exact absurd ids nonempty
  | cons first rest =>
    rw [ids, headD_cons, unseen first (by rw [ids]; exact mem_cons_self)] at present
    exact Bool.noConfusion present

/-- The tables of all groups of a lookup are as long as its rows. -/
theorem recorded_length (state : PassState) (rows : List Row) (nodup : group.groupIds.Nodup) :
    ∀ groupId ∈ group.groupIds, ∃ blocks,
      recordHits pool.nullBlock rows 0 group.groupIds state.hitBlocksByGroup groupId =
          some blocks /\ blocks.length = rows.length := by
  intro groupId member
  rcases recordHits_of_mem pool.nullBlock rows nodup member with
    ⟨_, -, stored⟩
  exact ⟨_, stored, column_length _ _ _⟩

variable (idx : Nat)

theorem visitGroup_spec (combinable : group.spec.Combinable) (kept : EagleRuleKept config group)
    (divides : group.spec.blockSize ∣ config.lcmBlockSize) (nodup : group.groupIds.Nodup)
    (nonempty : group.groupIds ≠ []) (candidate : Candidate config maxLength state)
    (seen : Stored state group \/ Unseen state group) :
    ∃ after, visitGroup config pool blockHashes maxLength idx group state = some after /\
      after.currHitLength <= state.currHitLength /\
      config.lcmBlockSize ∣ after.currHitLength /\
      (∀ groupId, groupId ∉ group.groupIds ->
        after.hitBlocksByGroup groupId = state.hitBlocksByGroup groupId) /\
      Stored after group /\
      ((group.spec.isFullAttention = true -> Unseen state group) -> ∀ groupId ∈ group.groupIds,
        ∃ blocks, after.hitBlocksByGroup groupId = some blocks /\
          blocks.length * group.spec.blockSize = after.currHitLength) := by
  rw [visitGroup]
  by_cases skipped : group.spec.isFullAttention &&
      (state.hitBlocksByGroup (group.groupIds.headD 0)).isSome
  · simp only [skipped, if_true]
    rw [Bool.and_eq_true] at skipped
    have stored := stored_of_head nonempty seen skipped.2
    have aligned : config.lcmBlockSize ∣ state.currHitLength := by
      rcases candidate.aligned with aligned | ⟨-, fresh⟩
      · exact aligned
      rw [fresh] at skipped
      exact Bool.noConfusion skipped.2
    have same : state.currHitLength / group.spec.blockSize * group.spec.blockSize =
        state.currHitLength := Nat.div_mul_cancel (divides.trans aligned)
    rw [same]
    refine ⟨_, rfl, le_rfl, aligned, fun _ _ => rfl, stored, ?_⟩
    intro first
    cases ids : group.groupIds with
    | nil => exact absurd ids nonempty
    | cons head rest =>
      have missing := first skipped.1 head (by rw [ids]; exact mem_cons_self)
      rw [ids, headD_cons, missing] at skipped
      exact Bool.noConfusion skipped.2
  simp only [skipped, if_false, Bool.false_eq_true]
  rcases lookup_length_le pool blockHashes combinable kept divides candidate
    (fun used => (Bool.and_eq_true_iff.mp used).1) with ⟨rows, found, bound, aligned⟩
  rw [found]
  have lengths := recorded_length pool state rows nodup
  refine ⟨_, rfl, bound, aligned, ?_, ?_, ?_⟩
  · intro groupId absent
    exact recordHits_of_not_mem _ _ _ _ absent
  · intro groupId member
    rcases lengths groupId member with ⟨blocks, stored, length⟩
    exact ⟨blocks, stored, Nat.le_of_eq (by rw [length])⟩
  intro _ groupId member
  rcases lengths groupId member with ⟨blocks, stored, length⟩
  exact ⟨blocks, stored, by rw [length]⟩

/-- The groups of a pass, with what every visit needs to know about them. -/
structure Visitable (config : HybridConfig) (groups : List AttentionGroup) : Prop where
  combinable : ∀ group ∈ groups, group.spec.Combinable
  kept : ∀ group ∈ groups, EagleRuleKept config group
  divides : ∀ group ∈ groups, group.spec.blockSize ∣ config.lcmBlockSize
  nonempty : ∀ group ∈ groups, group.groupIds ≠ []
  nodup : (groups.flatMap groupIds).Nodup

variable {rest : List AttentionGroup}

theorem Visitable.tail (visitable : Visitable config (group :: rest)) : Visitable config rest := by
  have nodup := visitable.nodup
  rw [flatMap_cons] at nodup
  exact ⟨fun other member => visitable.combinable other (mem_cons_of_mem _ member),
    fun other member => visitable.kept other (mem_cons_of_mem _ member),
    fun other member => visitable.divides other (mem_cons_of_mem _ member),
    fun other member => visitable.nonempty other (mem_cons_of_mem _ member),
    (nodup_append.mp nodup).2.1⟩

/-- Ids of the first group do not occur in later groups. -/
theorem Visitable.apart (visitable : Visitable config (group :: rest))
    (member : groupId ∈ group.groupIds) : groupId ∉ rest.flatMap groupIds := by
  have nodup := visitable.nodup
  rw [flatMap_cons] at nodup
  exact fun later => (nodup_append.mp nodup).2.2 groupId member groupId later rfl

theorem Visitable.ids_nodup (visitable : Visitable config groups) (member : group ∈ groups) :
    group.groupIds.Nodup :=
  (nodup_flatMap.mp visitable.nodup).1 group member

theorem Visitable.unique (visitable : Visitable config groups) {other : AttentionGroup}
    (member : group ∈ groups) (otherMember : other ∈ groups) (inside : groupId ∈ group.groupIds)
    (otherInside : groupId ∈ other.groupIds) :
    group = other := by
  by_contra different
  have symmetric : Std.Symm (Function.onFun List.Disjoint groupIds) :=
    ⟨fun _ _ disjoint _ second first => disjoint first second⟩
  exact (nodup_flatMap.mp visitable.nodup).2.forall member otherMember different inside otherInside

/-- What a pass does.  Groups that are looked up in it get tables no longer
than the length before the pass, and the last one exactly the final length. -/
structure PassResult (config : HybridConfig) (groups : List AttentionGroup)
    (state after : PassState) : Prop where
  shrinks : after.currHitLength <= state.currHitLength
  aligned : groups ≠ [] -> config.lcmBlockSize ∣ after.currHitLength
  frame : ∀ groupId, groupId ∉ groups.flatMap groupIds ->
    after.hitBlocksByGroup groupId = state.hitBlocksByGroup groupId
  stored : ∀ group ∈ groups, Stored after group
  short : ∀ group ∈ groups, (group.spec.isFullAttention = true -> Unseen state group) ->
    ∀ groupId ∈ group.groupIds, ∀ blocks, after.hitBlocksByGroup groupId = some blocks ->
      blocks.length * group.spec.blockSize <= state.currHitLength
  last : ∀ group, groups.getLast? = some group ->
    (group.spec.isFullAttention = true -> Unseen state group) ->
      ∀ groupId ∈ group.groupIds, ∀ blocks, after.hitBlocksByGroup groupId = some blocks ->
        blocks.length * group.spec.blockSize = after.currHitLength

theorem visitGroups_spec
    (visitable : Visitable config groups) (candidate : Candidate config maxLength state)
    (seen : ∀ group ∈ groups, Stored state group \/ Unseen state group) :
    ∃ after, visitGroups config pool blockHashes maxLength idx groups state =
      some after /\ PassResult config groups state after := by
  induction groups generalizing idx state with
  | nil =>
    exact ⟨state, rfl, le_rfl, fun nonempty => absurd rfl nonempty, fun _ _ => rfl,
      by simp, by simp, by simp⟩
  | cons group rest ih =>
    rcases visitGroup_spec pool blockHashes idx (visitable.combinable group mem_cons_self)
      (visitable.kept group mem_cons_self) (visitable.divides group mem_cons_self)
      (visitable.ids_nodup mem_cons_self) (visitable.nonempty group mem_cons_self) candidate (seen
      group mem_cons_self) with ⟨middle, visited, shrinks, aligned, frame, stored, exact_tables⟩
    have untouched : ∀ other ∈ rest, ∀ groupId ∈ other.groupIds,
        middle.hitBlocksByGroup groupId = state.hitBlocksByGroup groupId := by
      intro other member groupId inside
      apply frame
      intro here
      exact visitable.apart here (mem_flatMap.mpr ⟨other, member, inside⟩)
    have stillUnseen : ∀ other ∈ rest, Unseen state other -> Unseen middle other := by
      intro other member unseen groupId inside
      rw [untouched other member groupId inside]
      exact unseen groupId inside
    have middleSeen : ∀ other ∈ rest, Stored middle other \/ Unseen middle other := by
      intro other member
      rcases seen other (mem_cons_of_mem _ member) with stored | unseen
      · refine Or.inl (fun groupId inside => ?_)
        rcases stored groupId inside with ⟨blocks, present, long⟩
        exact ⟨blocks, by rw [untouched other member groupId inside]; exact present,
          shrinks.trans long⟩
      · exact Or.inr (stillUnseen other member unseen)
    rcases ih (idx + 1) visitable.tail
      ⟨shrinks.trans candidate.bound, Or.inl aligned⟩ middleSeen with
      ⟨after, restVisited, result⟩
    have kept : ∀ groupId ∈ group.groupIds,
        after.hitBlocksByGroup groupId = middle.hitBlocksByGroup groupId :=
      fun groupId inside => result.frame groupId (visitable.apart inside)
    refine ⟨after, by rw [visitGroups, visited]; exact restVisited,
      result.shrinks.trans shrinks, ?_, ?_, ?_, ?_, ?_⟩
    · intro _
      cases rest with
      | nil =>
        cases restVisited
        exact aligned
      | cons other others => exact result.aligned (cons_ne_nil _ _)
    · intro groupId absent
      rw [flatMap_cons, mem_append, not_or] at absent
      rw [result.frame groupId absent.2, frame groupId absent.1]
    · intro other member
      rcases mem_cons.mp member with here | later
      · subst here
        intro groupId inside
        rcases stored groupId inside with ⟨blocks, present, long⟩
        exact ⟨blocks, by rw [kept groupId inside]; exact present, result.shrinks.trans long⟩
      · exact result.stored other later
    · intro other member looked groupId inside blocks present
      rcases mem_cons.mp member with here | later
      · subst here
        rcases exact_tables looked groupId inside with ⟨_, stored, _⟩
        rw [kept groupId inside, stored] at present
        cases present
        omega
      · exact (result.short other later (fun full =>
          stillUnseen other later (looked full)) groupId inside blocks present).trans shrinks
    intro other final looked groupId inside blocks present
    cases rest with
    | nil =>
      have here : group = other := by simpa using final
      subst here
      cases restVisited
      rcases exact_tables looked groupId inside with ⟨_, stored, length⟩
      rw [stored] at present
      cases present
      exact length
    | cons next others =>
      rw [List.getLast?_cons_cons] at final
      have later := mem_of_getLast? final
      exact result.last other final (fun full => stillUnseen other later (looked full))
        groupId inside blocks present

end Visit

end Vllm.KVCache
