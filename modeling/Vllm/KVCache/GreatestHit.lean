import Vllm.KVCache.WellFormedHit

namespace Vllm.KVCache

open KVCacheSpec BlockPool List

/-!
# The common hit is the longest one

Without eagle groups the search returns the greatest aligned length that all
groups accept.  Two invariants carry this through the passes: every stored table
holds the cached blocks at the positions its group looks at, and no acceptable
length is above the current one.

What a group needs is stated here in tokens.  The lookup of a window asks for at
least one block, so it agrees with the tokens only for windows that look back at
another token.
-/

/-- The positions whose blocks a group needs to continue after `length` tokens. -/
def KVCacheSpec.NeedsBlock (spec : KVCacheSpec) (length j : Nat) : Prop :=
  match spec.kind with
  | .fullAttention => j < length / spec.blockSize
  | .slidingWindow slidingWindow =>
    ∃ token, length - (slidingWindow - 1) <= token /\ token < length /\
      token / spec.blockSize = j
  | .mamba _ _ => j + 1 = length / spec.blockSize
  | _ => False

/-- A window of at least two tokens looks at a token before the current one. -/
def KVCacheSpec.WindowLooksBack (spec : KVCacheSpec) : Prop :=
  match spec.kind with
  | .slidingWindow slidingWindow => 2 <= slidingWindow
  | _ => True

theorem lt_cdiv_iff {k a b : Nat} (positive : 0 < b) : k < cdiv a b <-> k * b < a := by
  rw [cdiv, <- Nat.succ_le_iff, Nat.le_div_iff_mul_le positive, Nat.succ_mul]
  omega

theorem windowBlocks_of_looksBack {slidingWindow blockSize : Nat} (positive : 0 < blockSize)
    (looksBack : 2 <= slidingWindow) :
    windowBlocks slidingWindow blockSize = cdiv (slidingWindow - 1) blockSize := by
  apply Nat.max_eq_right
  apply (lt_cdiv_iff positive).mpr
  omega

theorem window_token_iff {slidingWindow blockSize count j : Nat} (positive : 0 < blockSize) :
    (∃ token, count * blockSize - (slidingWindow - 1) <= token /\ token < count * blockSize /\
        token / blockSize = j) <->
      j < count /\ count - cdiv (slidingWindow - 1) blockSize <= j := by
  have starts : j < count -> (count - cdiv (slidingWindow - 1) blockSize <= j <->
      count * blockSize - (slidingWindow - 1) < (j + 1) * blockSize) := by
    intro inside
    have split : count * blockSize = (count - (j + 1)) * blockSize + (j + 1) * blockSize := by
      rw [<- Nat.add_mul, Nat.sub_add_cancel inside]
    have size : 0 < (j + 1) * blockSize := Nat.mul_pos (Nat.succ_pos j) positive
    have near := lt_cdiv_iff (k := count - (j + 1)) (a := slidingWindow - 1) positive
    omega
  constructor
  · rintro ⟨token, lower, upper, rfl⟩
    have inside : token / blockSize < count := (Nat.div_lt_iff_lt_mul positive).mpr upper
    refine ⟨inside, (starts inside).mpr ?_⟩
    exact lower.trans_lt (Nat.lt_mul_of_div_lt (Nat.lt_succ_self _) positive)
  rintro ⟨inside, lower⟩
  have start := (starts inside).mp lower
  have later : (j + 1) * blockSize <= count * blockSize := Nat.mul_le_mul_right _ inside
  rw [Nat.succ_mul] at start later
  refine ⟨max (j * blockSize) (count * blockSize - (slidingWindow - 1)), Nat.le_max_right _ _,
    by omega, ?_⟩
  apply Nat.div_eq_of_lt_le
  · exact Nat.le_max_left _ _
  rw [Nat.succ_mul]
  omega

variable {spec : KVCacheSpec} {groupId length idx : Nat} {blocks : List BlockId}
  {groupIds : List Nat}

theorem looksAt_iff_needsBlock (looksBack : spec.WindowLooksBack)
    (aligned : spec.blockSize ∣ length) (j : Nat) :
    spec.LooksAt (length / spec.blockSize) j <-> spec.NeedsBlock length j := by
  unfold LooksAt NeedsBlock
  unfold WindowLooksBack at looksBack
  cases kind : spec.kind with
  | fullAttention => simp
  | slidingWindow slidingWindow =>
    rw [kind] at looksBack
    simp only
    rw [windowBlocks_of_looksBack spec.blockSize_pos looksBack,
      <- window_token_iff spec.blockSize_pos, Nat.div_mul_cancel aligned]
  | mamba mambaCacheMode numSpeculativeBlocks =>
    simp only
    omega
  | chunkedLocalAttention attentionChunkSize => simp
  | crossAttention => simp

theorem accepts_iff (combinable : spec.Combinable) (cached : Nat -> Option Row) (count : Nat) :
    spec.Accepts cached count <-> ∀ j, spec.LooksAt count j -> (cached j).isSome := by
  unfold Accepts LooksAt
  unfold Combinable at combinable
  cases kind : spec.kind with
  | fullAttention => simp [PrefixCached]
  | slidingWindow slidingWindow =>
    simp only [WindowCached]
    exact ⟨fun accepted j looked => accepted j looked.2 looked.1,
      fun accepted j lower upper => accepted j ⟨upper, lower⟩⟩
  | mamba mambaCacheMode numSpeculativeBlocks =>
    simp only [LastCached]
    constructor
    · rintro (empty | last) j ⟨_, here⟩
      · omega
      · rwa [here] at last
    intro accepted
    cases count with
    | zero => exact Or.inl rfl
    | succ count => exact Or.inr (accepted count ⟨Nat.lt_succ_self count, rfl⟩)
  | chunkedLocalAttention attentionChunkSize => simp [kind] at combinable
  | crossAttention => simp [kind] at combinable

section Rows

variable {H : Type} (pool : BlockPool H) (blockHashes : List H)

/-- The block that the pool has cached for position `j` of a group. -/
def cachedBlockAt (spec : KVCacheSpec) (groupId j : Nat) : Option BlockId :=
  match blockHashAt pool.hashBlockSize spec.blockSize blockHashes j with
  | none => none
  | some blockHash => pool.cachedBlockHashToBlock.getOneBlock ⟨blockHash, groupId⟩

theorem getCachedBlock_isSome_iff {blockHash : BlockHash H} :
    (pool.getCachedBlock blockHash groupIds).isSome <-> ∀ groupId ∈ groupIds,
        (pool.cachedBlockHashToBlock.getOneBlock ⟨blockHash, groupId⟩).isSome := by
  induction groupIds with
  | nil => simp [getCachedBlock]
  | cons groupId rest ih =>
    rw [getCachedBlock, forall_mem_cons, <- ih]
    cases pool.cachedBlockHashToBlock.getOneBlock ⟨blockHash, groupId⟩ with
    | none => simp
    | some block => cases pool.getCachedBlock blockHash rest <;> simp

theorem getCachedBlock_getElem? {blockHash : BlockHash H} {row : Row}
    (found : pool.getCachedBlock blockHash groupIds = some row) {k : Nat}
    (here : groupIds[k]? = some groupId) :
    row[k]? = pool.cachedBlockHashToBlock.getOneBlock ⟨blockHash, groupId⟩ := by
  induction groupIds generalizing row k with
  | nil => simp at here
  | cons first rest ih =>
    rw [getCachedBlock] at found
    cases firstBlock : pool.cachedBlockHashToBlock.getOneBlock ⟨blockHash, first⟩ with
    | none => simp [firstBlock] at found
    | some block =>
      cases others : pool.getCachedBlock blockHash rest with
      | none => simp [firstBlock, others] at found
      | some blocks =>
        simp only [firstBlock, others, Option.some.injEq] at found
        subst found
        cases k with
        | zero =>
          have same : first = groupId := by simpa using here
          rw [List.getElem?_cons_zero, <- same]
          exact firstBlock.symm
        | succ k =>
          rw [List.getElem?_cons_succ]
          exact ih others (by simpa using here)

theorem cachedRow_isSome_iff (nonempty : groupIds ≠ [])
    (j : Nat) : (cachedRow pool blockHashes groupIds spec j).isSome <->
      ∀ groupId ∈ groupIds, (cachedBlockAt pool blockHashes spec groupId j).isSome := by
  unfold cachedRow cachedBlockAt
  cases blockHashAt pool.hashBlockSize spec.blockSize blockHashes j with
  | none =>
    rcases exists_mem_of_ne_nil groupIds nonempty with ⟨groupId, member⟩
    simp only [Option.isSome_none, Bool.false_eq_true, false_iff]
    exact fun all => all groupId member
  | some blockHash => exact getCachedBlock_isSome_iff pool

theorem cachedRow_getElem? {j : Nat} {row : Row}
    (found : cachedRow pool blockHashes groupIds spec j = some row) {k : Nat}
    (here : groupIds[k]? = some groupId) :
    row[k]? = cachedBlockAt pool blockHashes spec groupId j := by
  unfold cachedRow at found
  unfold cachedBlockAt
  cases hash : blockHashAt pool.hashBlockSize spec.blockSize blockHashes j with
  | none => simp [hash] at found
  | some blockHash =>
    simp only [hash] at found
    exact getCachedBlock_getElem? pool found here

end Rows

section Invariant

variable {H : Type} (config : HybridConfig) (pool : BlockPool H) (blockHashes : List H)
  (maxCacheHitLength : Nat)

/-- The stored tables of a group are hits: its lookup accepts their length, and
they hold the cached blocks at the positions that matter. -/
def Genuine (state : PassState) (group : AttentionGroup) : Prop :=
  ∀ groupId ∈ group.groupIds, ∀ blocks, state.hitBlocksByGroup groupId = some blocks ->
    group.spec.Accepts (cachedRow pool blockHashes group.groupIds group.spec) blocks.length /\
      ∀ j, group.spec.LooksAt blocks.length j ->
        blocks[j]? = cachedBlockAt pool blockHashes group.spec groupId j

/-- An aligned length that the lookups of all groups accept. -/
structure Acceptable (length : Nat) : Prop where
  aligned : config.lcmBlockSize ∣ length
  accepted : ∀ group ∈ config.attentionGroups,
    group.spec.Accepts (cachedRow pool blockHashes group.groupIds group.spec)
      (length / group.spec.blockSize)

/-- What a search without eagle groups keeps. -/
structure Tracks (state : PassState) : Prop where
  genuine : ∀ group ∈ config.attentionGroups, Genuine pool blockHashes state group
  above : ∀ length, length <= maxCacheHitLength -> Acceptable config pool blockHashes length ->
    length <= state.currHitLength

variable {config pool blockHashes maxLength} {group : AttentionGroup}
  {state after final : PassState}

/-- A visit either rounds the length down or stores the result of a lookup. -/
theorem visitGroup_cases (noEagle : config.isEagle group = false)
    (visited : visitGroup config pool blockHashes maxLength idx group state = some after) :
    (after.currHitLength = state.currHitLength / group.spec.blockSize * group.spec.blockSize /\
        after.hitBlocksByGroup = state.hitBlocksByGroup) \/
      ∃ rows, findLongestCacheHit pool blockHashes state.currHitLength group.groupIds
            group.spec false config.lcmBlockSize = some rows /\
        after.currHitLength = rows.length * group.spec.blockSize /\
        after.hitBlocksByGroup =
          recordHits pool.nullBlock rows 0 group.groupIds state.hitBlocksByGroup := by
  rw [visitGroup] at visited
  by_cases skipped : group.spec.isFullAttention &&
      (state.hitBlocksByGroup (group.groupIds.headD 0)).isSome
  · simp only [skipped, if_true, Option.some.injEq] at visited
    subst visited
    exact Or.inl ⟨rfl, rfl⟩
  simp only [skipped, if_false, Bool.false_eq_true, noEagle, Bool.false_and] at visited
  cases found : findLongestCacheHit pool blockHashes state.currHitLength group.groupIds group.spec
      false config.lcmBlockSize with
  | none => simp [found] at visited
  | some rows =>
    simp only [found, Option.some.injEq] at visited
    subst visited
    exact Or.inr ⟨rows, rfl, rfl, rfl⟩

theorem recordHits_genuine {rows : List Row} (combinable : group.spec.Combinable)
    (nodup : group.groupIds.Nodup)
    (accepted : group.spec.Accepts (cachedRow pool blockHashes group.groupIds group.spec)
      rows.length) (found : ∀ j, group.spec.LooksAt rows.length j ->
      rows[j]? = cachedRow pool blockHashes group.groupIds group.spec j)
    (recorded : after.hitBlocksByGroup =
      recordHits pool.nullBlock rows 0 group.groupIds state.hitBlocksByGroup) :
    Genuine pool blockHashes after group := by
  intro groupId member blocks present
  rcases recordHits_of_mem pool.nullBlock rows nodup member
    with ⟨_, here, stored⟩
  rw [recorded, stored, Option.some.injEq] at present
  subst present
  rw [column_length]
  refine ⟨accepted, fun j looked => ?_⟩
  rcases Option.isSome_iff_exists.mp ((accepts_iff combinable _ _).mp accepted j looked) with
    ⟨row, cached⟩
  have entry := cachedRow_getElem? pool blockHashes cached here
  rw [column, List.getElem?_map, found j looked, cached, Option.map_some, <- entry]
  have present : (cachedBlockAt pool blockHashes group.spec groupId j).isSome :=
    (cachedRow_isSome_iff pool blockHashes (ne_nil_of_mem member)
      j).mp (by rw [cached]; rfl) groupId member
  rw [<- entry] at present
  rcases Option.isSome_iff_exists.mp present with ⟨_, isBlock⟩
  rw [getD_eq_getElem?_getD, isBlock, Option.getD_some]

section

variable (visitable : Visitable config config.attentionGroups)
include visitable

theorem visitGroup_tracks (noEagle : config.isEagle group = false)
    (member : group ∈ config.attentionGroups)
    (visited : visitGroup config pool blockHashes maxLength idx group state = some after)
    (tracks : Tracks config pool blockHashes maxLength state) :
    Tracks config pool blockHashes maxLength after := by
  have positive := group.spec.blockSize_pos
  have divides := visitable.divides group member
  rcases visitGroup_cases noEagle visited with ⟨rounded, same⟩ | ⟨_, lookup, length, recorded⟩
  · refine ⟨?_, ?_⟩
    · intro other inside groupId ofOther blocks present
      rw [same] at present
      exact tracks.genuine other inside groupId ofOther blocks present
    intro common bound acceptable
    have below := tracks.above common bound acceptable
    rw [rounded, <- Nat.div_mul_cancel (divides.trans acceptable.aligned)]
    exact Nat.mul_le_mul_right _ (Nat.div_le_div_right below)
  rcases findLongestCacheHit_plain pool blockHashes state.currHitLength group.groupIds group.spec
    config.lcmBlockSize (visitable.combinable group member) with ⟨_, result, greatest, found⟩
  rw [lookup, Option.some.injEq] at result
  subst result
  refine ⟨?_, ?_⟩
  · intro other inside
    by_cases here : other = group
    · subst here
      exact recordHits_genuine (visitable.combinable other member)
        (visitable.ids_nodup member) greatest.1.2.2 found recorded
    intro groupId ofOther blocks present
    have apart : groupId ∉ group.groupIds := fun ofGroup =>
      here (visitable.unique inside member ofOther ofGroup)
    rw [recorded, recordHits_of_not_mem _ _ _ _ apart] at present
    exact tracks.genuine other inside groupId ofOther blocks present
  intro common bound acceptable
  have below := tracks.above common bound acceptable
  have multiple := Nat.div_mul_cancel (divides.trans acceptable.aligned)
  rw [length, <- multiple]
  apply Nat.mul_le_mul_right
  apply greatest.2
  refine ⟨Nat.div_le_div_right below, ?_, acceptable.accepted group member⟩
  rw [Aligned, multiple]
  exact acceptable.aligned

theorem searchLoop_tracks {fuel : Nat}
    (noEagle : ∀ group ∈ config.attentionGroups, config.isEagle group = false)
    (searched : searchLoop config pool blockHashes maxLength fuel state = some final)
    (tracks : Tracks config pool blockHashes maxLength state) :
    Tracks config pool blockHashes maxLength final := by
  have pass : ∀ state after, Tracks config pool blockHashes maxLength state ->
      visitGroups config pool blockHashes maxLength 0 config.attentionGroups state = some after ->
      Tracks config pool blockHashes maxLength after := fun _ _ =>
    visitGroups_invariant _ (fun group member _ _ _ tracks visited =>
      visitGroup_tracks visitable (noEagle group member) member visited tracks)
  rcases searchLoop_invariant pass tracks searched with
    ⟨before, after, tracksBefore, visited, ⟨-, rfl⟩ | rfl⟩
  · exact ⟨(pass before after tracksBefore visited).genuine, tracksBefore.above⟩
  · exact pass before final tracksBefore visited

end

theorem truncateFirst_getElem? (member : group ∈ config.attentionGroups)
    (inside : groupId ∈ group.groupIds) {hitLength : Nat} {hitBlocks : Nat -> Option (List BlockId)}
    (present : hitBlocks groupId = some blocks) :
    ∃ cut, truncateFirst config hitLength hitBlocks groupId = some cut /\
      ∀ j, j < hitLength / group.spec.blockSize -> cut[j]? = blocks[j]? := by
  rcases truncateFirst_cases member inside with cut | ⟨uncut, -⟩
  · exact ⟨_, by rw [cut, present]; rfl, fun j small => List.getElem?_take_of_lt small⟩
  · exact ⟨blocks, by rw [uncut, present], fun _ _ => rfl⟩

theorem Genuine.shorten (genuine : Genuine pool blockHashes state group)
    (inside : groupId ∈ group.groupIds) (present : state.hitBlocksByGroup groupId = some blocks)
    {count : Nat} (fits : count <= blocks.length)
    (exactly : group.spec.isFullAttention = false -> count = blocks.length) :
    group.spec.Accepts (cachedRow pool blockHashes group.groupIds group.spec) count /\
      ∀ j, group.spec.LooksAt count j ->
        blocks[j]? = cachedBlockAt pool blockHashes group.spec groupId j := by
  rcases genuine groupId inside blocks present with ⟨accepted, found⟩
  by_cases same : count = blocks.length
  · rw [same]
    exact ⟨accepted, found⟩
  unfold isFullAttention at exactly
  unfold Accepts at accepted ⊢
  unfold LooksAt at found ⊢
  cases kind : group.spec.kind with
  | fullAttention =>
    simp only [kind, PrefixCached] at accepted found ⊢
    exact ⟨fun j small => accepted j (by omega), fun j looked => found j ⟨by omega, trivial⟩⟩
  | slidingWindow _ => exact absurd (exactly (by rw [kind])) same
  | mamba _ _ => exact absurd (exactly (by rw [kind])) same
  | chunkedLocalAttention _ => exact absurd (exactly (by rw [kind])) same
  | crossAttention => exact absurd (exactly (by rw [kind])) same

/-- At the end every group accepts the length, and its table holds the blocks. -/
theorem Settled.hit (settled : Settled config maxLength final)
    (tracks : Tracks config pool blockHashes maxLength final)
    (member : group ∈ config.attentionGroups) (inside : groupId ∈ group.groupIds) :
    group.spec.Accepts (cachedRow pool blockHashes group.groupIds group.spec)
        (final.currHitLength / group.spec.blockSize) /\
      ∃ cut, truncateFirst config final.currHitLength final.hitBlocksByGroup groupId =
          some cut /\
        ∀ j, group.spec.LooksAt (final.currHitLength / group.spec.blockSize) j ->
          cut[j]? = cachedBlockAt pool blockHashes group.spec groupId j := by
  rcases settled.fits member inside with ⟨blocks, present, fits⟩
  have exactly : group.spec.isFullAttention = false ->
      final.currHitLength / group.spec.blockSize = blocks.length := by
    intro other
    refine fits.antisymm ((Nat.le_div_iff_mul_le group.spec.blockSize_pos).mpr ?_)
    refine settled.short group member (fun full => ?_) groupId inside blocks present
    rw [other] at full
    exact Bool.noConfusion full
  rcases (tracks.genuine group member).shorten inside present fits exactly with ⟨accepted, found⟩
  rcases truncateFirst_getElem? member inside present with ⟨cut, isCut, kept⟩
  refine ⟨accepted, cut, isCut, fun j looked => ?_⟩
  rw [kept j looked.1]
  exact found j looked

end Invariant

section Longest

variable {H : Type} (config : HybridConfig) (pool : BlockPool H) (blockHashes : List H)
  (maxCacheHitLength : Nat)

/-- An aligned length after which every group has the blocks that it needs. -/
structure CommonLength (length : Nat) : Prop where
  aligned : config.lcmBlockSize ∣ length
  cached : ∀ groupId spec, config.specOf groupId = some spec ->
    ∀ j, spec.NeedsBlock length j -> (cachedBlockAt pool blockHashes spec groupId j).isSome

/-- The greatest common length up to the limit, with tables that hold the cached
block at every needed position. -/
def LongestCommonHit (result : Option (List (List BlockId) × Nat)) : Prop :=
  ∃ tables hitLength, result = some (tables, hitLength) /\
    IsGreatest {length | length <= maxCacheHitLength /\
      CommonLength config pool blockHashes length} hitLength /\
    ∀ groupId spec, config.specOf groupId = some spec ->
      ∃ blocks, tables[groupId]? = some blocks /\
        ∀ j, spec.NeedsBlock hitLength j ->
          blocks[j]? = cachedBlockAt pool blockHashes spec groupId j

/-- Every sliding window of the configuration looks back. -/
def HybridConfig.WindowsLookBack : Prop :=
  ∀ group ∈ config.kvCacheGroups, group.kvCacheSpec.WindowLooksBack

variable {config pool blockHashes maxLength}

theorem isEagle_eq_false (noEagle : config.eagleGroupIds = []) (group : AttentionGroup) :
    config.isEagle group = false := by
  rw [HybridConfig.isEagle, noEagle, any_eq_false]
  intro groupId _
  exact Bool.false_ne_true

variable (pool : BlockPool H) (blockHashes : List H)

/-- Without eagle groups the search ends in a settled state that tracks the
acceptable lengths. -/
theorem findLongestCommonHit_settled {maxLength : Nat} (combinable : config.Combinable)
    (noEagle : config.eagleGroupIds = []) :
    ∃ tables final, findLongestCommonHit config pool blockHashes maxLength =
        some (tables, final.currHitLength) /\
      (∀ groupId, groupId < config.kvCacheGroups.length -> tables[groupId]? =
        some ((truncateFirst config final.currHitLength final.hitBlocksByGroup groupId).getD [])) /\
      Settled config maxLength final /\
      Tracks config pool blockHashes maxLength final := by
  have eagleRule : ∀ group ∈ config.attentionGroups, EagleRuleKept config group := by
    rintro group - ⟨eagle, -⟩
    rw [isEagle_eq_false noEagle] at eagle
    exact Bool.noConfusion eagle
  rcases searchLoop_settled combinable eagleRule
    (start_betweenPasses) (Nat.lt_succ_self maxLength) with
    ⟨final, found, settled⟩
  have start : Tracks config pool blockHashes maxLength
      ⟨maxLength, fun _ => none, []⟩ := by
    refine ⟨?_, fun length bound _ => bound⟩
    intro group member groupId inside blocks present
    cases present
  refine ⟨_, final, by rw [findLongestCommonHit, found], ?_, settled, ?_⟩
  · intro groupId inRange
    rw [List.getElem?_map, List.getElem?_range inRange, Option.map_some]
  exact searchLoop_tracks (attentionGroups_visitable combinable eagleRule)
    (fun group _ => isEagle_eq_false noEagle group) found start

/-- Group by group, the lookups accept the lengths that have the needed blocks. -/
theorem acceptable_iff_commonLength (combinable : config.Combinable)
    (lookBack : config.WindowsLookBack) (length : Nat) :
    Acceptable config pool blockHashes length <-> CommonLength config pool blockHashes length := by
  have grouped := config.attentionGroups_grouped
  have rule : config.lcmBlockSize ∣ length -> ∀ group ∈ config.attentionGroups,
      (group.spec.Accepts (cachedRow pool blockHashes group.groupIds group.spec)
          (length / group.spec.blockSize) <->
        ∀ j, group.spec.NeedsBlock length j -> ∀ groupId ∈ group.groupIds,
          (cachedBlockAt pool blockHashes group.spec groupId j).isSome) := by
    intro aligned group member
    rw [accepts_iff (config.spec_of_mem Combinable combinable member)]
    apply forall_congr'
    intro j
    rw [looksAt_iff_needsBlock (config.spec_of_mem WindowLooksBack lookBack member)
        ((config.blockSize_dvd_lcm member).trans aligned),
      cachedRow_isSome_iff pool blockHashes (grouped.nonempty group member)]
  constructor
  · intro acceptable
    refine ⟨acceptable.aligned, ?_⟩
    intro groupId spec isSpec j needed
    rcases config.exists_attentionGroup isSpec with ⟨-, group, member, inside, rfl⟩
    exact (rule acceptable.aligned group member).mp (acceptable.accepted group member) j needed
      groupId inside
  intro common
  refine ⟨common.aligned, fun group member => ?_⟩
  refine (rule common.aligned group member).mpr (fun j needed groupId inside => ?_)
  exact common.cached groupId group.spec (grouped.spec group member groupId inside) j needed

theorem longestCommonHit_of_lookBack {maxLength : Nat} (combinable : config.Combinable)
    (noEagle : config.eagleGroupIds = []) (lookBack : config.WindowsLookBack) :
    LongestCommonHit config pool blockHashes maxLength
      (findLongestCommonHit config pool blockHashes maxLength) := by
  rcases findLongestCommonHit_settled pool blockHashes combinable noEagle with
    ⟨tables, final, result, isTable, settled, tracks⟩
  have hits {groupId : Nat} {group : AttentionGroup} :=
    @Settled.hit groupId H config pool blockHashes maxLength group final settled tracks
  have acceptable : Acceptable config pool blockHashes final.currHitLength := by
    refine ⟨settled.aligned, fun group member => ?_⟩
    rcases exists_mem_of_ne_nil _ (config.attentionGroups_grouped.nonempty group member) with
      ⟨_, inside⟩
    exact (hits member inside).1
  have greatest := acceptable_iff_commonLength pool blockHashes combinable lookBack
  refine ⟨tables, final.currHitLength, result, ⟨⟨settled.bound, (greatest _).mp acceptable⟩, ?_⟩, ?_⟩
  · rintro length ⟨bound, common⟩
    exact tracks.above length bound ((greatest length).mpr common)
  intro groupId spec isSpec
  rcases config.exists_attentionGroup isSpec with ⟨inRange, _, member, inside, rfl⟩
  rcases (hits member inside).2 with ⟨cut, isCut, found⟩
  refine ⟨cut, by rw [isTable groupId inRange, isCut, Option.getD_some], fun j needed => ?_⟩
  apply found
  exact (looksAt_iff_needsBlock (config.spec_of_mem WindowLooksBack lookBack member)
    ((config.blockSize_dvd_lcm member).trans settled.aligned) j).mpr needed

end Longest

def poolMissing (hashBlockSize missing : Nat) : BlockPool Unit where
  numGpuBlocks := 2
  enableCaching := true
  hashBlockSize := hashBlockSize
  refCnt := fun _ => 0
  blockHash := fun _ => none
  freeBlockQueue := FreeKVCacheBlockQueue.init [1]
  cachedBlockHashToBlock := fun key => if key.groupId = missing then none else some (.single 1)
  nullBlock := 0

section

variable (blind : ¬ spec.WindowLooksBack)
include blind

theorem window_of_blind :
    ∃ slidingWindow, spec.kind = .slidingWindow slidingWindow /\ slidingWindow < 2 := by
  unfold WindowLooksBack at blind
  split at blind
  · exact ⟨_, by assumption, Nat.not_le.mp blind⟩
  · exact absurd trivial blind

/-- A window of at most one token needs no block. -/
theorem not_needsBlock_of_blind {j : Nat} :
    ¬ spec.NeedsBlock length j := by
  rcases window_of_blind blind with ⟨_, kind, _⟩
  simp only [NeedsBlock, kind]
  rintro ⟨_, _, _, -⟩
  omega

/-- Its lookup nevertheless asks for the last block. -/
theorem looksAt_last_of_blind {count : Nat} (positive : 0 < count) :
    spec.LooksAt count (count - 1) := by
  rcases window_of_blind blind with ⟨slidingWindow, kind, _⟩
  have one : 1 <= windowBlocks slidingWindow spec.blockSize := Nat.le_max_left _ _
  simp only [LooksAt, kind]
  omega

end

theorem needsBlock_lt {j : Nat} (aligned : spec.blockSize ∣ length)
    (needed : spec.NeedsBlock length j) : j < length / spec.blockSize := by
  by_cases looksBack : spec.WindowLooksBack
  · exact ((looksAt_iff_needsBlock looksBack aligned j).mpr needed).1
  · exact absurd needed (not_needsBlock_of_blind looksBack)

theorem blockHashAt_isSome {H : Type} {hashBlockSize blockSize j : Nat} {blockHashes : List H}
    (divides : hashBlockSize ∣ blockSize) (positive : 0 < hashBlockSize)
    (covered : length <= blockHashes.length * hashBlockSize) (inside : j < length / blockSize) :
    (blockHashAt hashBlockSize blockSize blockHashes j).isSome := by
  rcases divides with ⟨scale, rfl⟩
  have reaches : (j * scale + scale) * hashBlockSize <= blockHashes.length * hashBlockSize := by
    calc
      (j * scale + scale) * hashBlockSize = (j + 1) * (hashBlockSize * scale) := by
        rw [<- Nat.succ_mul, Nat.mul_assoc, Nat.mul_comm scale]
      _ <= length / (hashBlockSize * scale) * (hashBlockSize * scale) :=
          Nat.mul_le_mul_right _ inside
      _ <= length := Nat.div_mul_le_self _ _
      _ <= blockHashes.length * hashBlockSize := covered
  rw [blockHashAt, Nat.mul_div_cancel_left _ positive,
    if_pos (Nat.le_of_mul_le_mul_right reaches positive)]
  rfl

/-- Where only the group of such a window has no cached block, the search stops
at zero, although every other group accepts the whole length. -/
theorem not_longestCommonHit_of_blind (config : HybridConfig) (missing : Nat)
    (blockHashes : List Unit) (combinable : config.Combinable) (noEagle : config.eagleGroupIds = [])
    (isSpec : config.specOf missing = some spec) (blind : ¬ spec.WindowLooksBack)
    (covered : config.lcmBlockSize <= blockHashes.length * config.hashBlockSize) :
    ¬ LongestCommonHit config (poolMissing config.hashBlockSize missing) blockHashes
      config.lcmBlockSize (findLongestCommonHit config
        (poolMissing config.hashBlockSize missing) blockHashes config.lcmBlockSize) := by
  rintro ⟨_, _, result, greatest, -⟩
  rcases findLongestCommonHit_settled (poolMissing config.hashBlockSize missing) blockHashes combinable noEagle with ⟨_, final, found, -, settled, tracks⟩
  rw [found] at result
  cases result
  have common : CommonLength config (poolMissing config.hashBlockSize missing) blockHashes
      config.lcmBlockSize := by
    refine ⟨Nat.dvd_refl _, ?_⟩
    intro groupId other isOther j needed
    rcases config.exists_attentionGroup isOther with ⟨-, _, member, -, rfl⟩
    have different : groupId ≠ missing := by
      rintro rfl
      rw [isSpec, Option.some.injEq] at isOther
      exact not_needsBlock_of_blind (isOther ▸ blind) needed
    have inside := needsBlock_lt (config.blockSize_dvd_lcm member) needed
    rcases Option.isSome_iff_exists.mp (blockHashAt_isSome
      (config.hashBlockSize_dvd member) config.hashBlockSize_pos covered inside) with ⟨_, isHash⟩
    unfold cachedBlockAt
    simp [poolMissing, isHash, BlockHashToBlockMap.getOneBlock, different]
  have whole : config.lcmBlockSize <= final.currHitLength := greatest.2 ⟨le_rfl, common⟩
  rcases config.exists_attentionGroup isSpec with ⟨-, group, member, inside, rfl⟩
  have accepted := (settled.hit tracks member inside).1
  rw [accepts_iff (config.spec_of_mem Combinable combinable member)] at accepted
  have positive : 0 < final.currHitLength / group.spec.blockSize :=
    Nat.div_pos ((Nat.le_of_dvd config.lcmBlockSize_pos
      (config.blockSize_dvd_lcm member)).trans whole) group.spec.blockSize_pos
  have last := accepted _ (looksAt_last_of_blind blind positive)
  rw [cachedRow_isSome_iff _ _ (ne_nil_of_mem inside)] at last
  have absent := last missing inside
  unfold cachedBlockAt at absent
  split at absent
  · exact Bool.noConfusion absent
  · simp [poolMissing, BlockHashToBlockMap.getOneBlock] at absent

/-- The search returns the longest common hit for every pool, list of hashes and
limit exactly when every window looks back. -/
theorem findLongestCommonHit_longest_iff (config : HybridConfig) (combinable : config.Combinable)
    (noEagle : config.eagleGroupIds = []) :
    (∀ (H : Type) (pool : BlockPool H) (blockHashes : List H) (maxLength : Nat),
        pool.hashBlockSize = config.hashBlockSize ->
        maxLength <= blockHashes.length * config.hashBlockSize ->
          LongestCommonHit config pool blockHashes maxLength
            (findLongestCommonHit config pool blockHashes maxLength)) <->
      config.WindowsLookBack := by
  constructor
  · intro always group member
    by_contra blind
    rcases List.getElem?_of_mem member with ⟨missing, present⟩
    have isSpec : config.specOf missing = some group.kvCacheSpec := by
      rw [HybridConfig.specOf, present, Option.map_some]
    have covered : config.lcmBlockSize <=
        (List.replicate config.lcmBlockSize ()).length * config.hashBlockSize := by
      rw [length_replicate]
      exact Nat.le_mul_of_pos_right _ config.hashBlockSize_pos
    exact not_longestCommonHit_of_blind config missing _ combinable noEagle isSpec blind covered
      (always Unit _ _ _ rfl covered)
  · intro lookBack H pool blockHashes maxLength _ _
    exact longestCommonHit_of_lookBack pool blockHashes combinable noEagle lookBack

def windowConfig (slidingWindow : Nat) : HybridConfig where
  kvCacheGroups := [⟨⟨16, zero_lt_sixteen, .fullAttention, 0⟩, false⟩,
    ⟨⟨16, zero_lt_sixteen, .slidingWindow slidingWindow, 0⟩, false⟩]
  hashBlockSize := 16
  hashBlockSize_pos := zero_lt_sixteen
  useEagle := false
  divisible := by simp
  several := by simp [collectGroups, addGroup]

theorem window_hit_longest : (windowConfig 17).Combinable /\ (windowConfig 17).eagleGroupIds = [] /\
      LongestCommonHit (windowConfig 17) (poolCaching 16 [[1, 2], [3, 4]]) [0, 1, 2] 47
        (findLongestCommonHit (windowConfig 17) (poolCaching 16 [[1, 2], [3, 4]]) [0, 1, 2] 47) := by
  have combinable : (windowConfig 17).Combinable := by decide +kernel
  have noEagle : (windowConfig 17).eagleGroupIds = [] := by decide +kernel
  have lookBack : (windowConfig 17).WindowsLookBack := by
    intro group member
    simp only [windowConfig, mem_cons, not_mem_nil, or_false] at member
    rcases member with rfl | rfl
    · exact trivial
    · exact (by decide : 2 <= 17)
  exact ⟨combinable, noEagle, (findLongestCommonHit_longest_iff _ combinable noEagle).mpr lookBack
    Nat _ _ _ rfl (by decide)⟩

/-- A window of one token accepts any length, and full attention has 16 tokens
cached, but the search returns zero. -/
theorem one_token_window_hit_lost :
    findLongestCommonHit (windowConfig 1) (poolMissing 16 1) [()] 16 = some ([[], []], 0) /\
      ¬ LongestCommonHit (windowConfig 1) (poolMissing 16 1) [()] 16
        (findLongestCommonHit (windowConfig 1) (poolMissing 16 1) [()] 16) := by
  refine ⟨by decide +kernel, ?_⟩
  have blind : ¬ WindowLooksBack ⟨16, by decide, .slidingWindow 1, 0⟩ :=
    (by decide : ¬ 2 <= 1)
  have lcm : (windowConfig 1).lcmBlockSize = 16 := by decide +kernel
  have lost := not_longestCommonHit_of_blind (windowConfig 1) 1 [()] (by decide +kernel)
    (by decide +kernel) rfl blind (by decide +kernel)
  rw [lcm] at lost
  exact lost

end Vllm.KVCache
