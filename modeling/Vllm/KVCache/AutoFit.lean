import Mathlib.Algebra.GroupWithZero.Nat
import Mathlib.Algebra.Order.Group.Nat
import Mathlib.Data.List.Dedup
import Mathlib.Order.Bounds.Defs
import Mathlib.Tactic.Common
import Vllm.KVCache.Spec

namespace Vllm.KVCache

/-!
# The greatest model length that fits

The search for the greatest model length bisects on `max_model_len` in the
configuration itself.  It is right because, for every kind of layer and every
layout of the groups, the memory grows with the length, and because whether an
assertion fails on the way does not depend on the length.
-/

/-- The fields of the configuration that the memory of a layer depends on. -/
structure VllmConfig where
  maxModelLen : Nat
  maxNumBatchedTokens : Nat
  maxNumEncoderInputTokens : Nat
  decodeContextParallelSize : Nat
  prefillContextParallelSize : Nat
  mambaCacheMode : MambaCacheMode

variable (config : VllmConfig)

/-- The configuration with another maximal length. -/
def VllmConfig.setMaxModelLen (modelLen : Nat) : VllmConfig :=
  { config with maxModelLen := modelLen }

/-- The kinds of layers with the data that their memory depends on. -/
inductive LayerKind where
  | fullAttention
  | chunkedLocalAttention (attentionChunkSize : Nat)
  | slidingWindow (slidingWindow : Nat)
  | mamba (numSpeculativeBlocks : Nat)
  | encoderOnlyAttention
  | crossAttention

/-- The specification of a layer, with the bytes that one of its blocks takes. -/
structure LayerSpec where
  kind : LayerKind
  blockSize : Nat
  pageSizeBytes : Nat
  blockSize_pos : 0 < blockSize
  pageSizeBytes_pos : 0 < pageSizeBytes

/-- The bytes that one request can take; `none` if an assertion fails. -/
def LayerSpec.maxMemoryUsageBytes (spec : LayerSpec) : Option Nat :=
  match spec.kind with
  | .fullAttention =>
    let worldSize := config.decodeContextParallelSize * config.prefillContextParallelSize
    let maxModelLen :=
      if 1 < worldSize then cdiv config.maxModelLen worldSize else config.maxModelLen
    some (cdiv maxModelLen spec.blockSize * spec.pageSizeBytes)
  | .chunkedLocalAttention attentionChunkSize =>
    let numTokens := min (attentionChunkSize + config.maxNumBatchedTokens) config.maxModelLen
    some (cdiv numTokens spec.blockSize * spec.pageSizeBytes)
  | .slidingWindow slidingWindow =>
    if config.decodeContextParallelSize = 1 then
      let numTokens := min (slidingWindow + config.maxNumBatchedTokens - 1) config.maxModelLen
      some ((cdiv numTokens spec.blockSize + 1) * spec.pageSizeBytes)
    else none
  | .mamba numSpeculativeBlocks =>
    match config.mambaCacheMode with
    | .all => some (cdiv config.maxModelLen spec.blockSize * spec.pageSizeBytes)
    | .align => some (spec.pageSizeBytes * (2 + numSpeculativeBlocks))
    | .none => some (spec.pageSizeBytes * (1 + numSpeculativeBlocks))
  | .encoderOnlyAttention => some 0
  | .crossAttention =>
    some (cdiv config.maxNumEncoderInputTokens spec.blockSize * spec.pageSizeBytes)

/-- What the elements use, put together by a sum or a maximum. -/
def reduce (op : Nat -> Nat -> Nat) (usage : A -> Option Nat) : List A -> Option Nat
  | [] => some 0
  | element :: rest =>
    (usage element).bind fun head => (reduce op usage rest).map (op head)

/-- The maximum of an empty sequence raises. -/
def maximum (usage : A -> Option Nat) (elements : List A) : Option Nat :=
  if elements.isEmpty then none else reduce max usage elements

variable (kvCacheSpecs : List LayerSpec)

/-- The pages of `UniformTypeKVCacheSpecs`, which holds one specification a layer. -/
def maxMemoryUsagePages : Option Nat :=
  maximum (fun spec => (spec.maxMemoryUsageBytes config).map (cdiv · spec.pageSizeBytes))
    kvCacheSpecs

/-- The different page sizes of the layers. -/
def getPageSizes : List Nat :=
  (kvCacheSpecs.map LayerSpec.pageSizeBytes).dedup

/-- How often the most common page size occurs. -/
def getNumLayerTuples : Option Nat :=
  maximum (fun spec => some ((kvCacheSpecs.map LayerSpec.pageSizeBytes).count spec.pageSizeBytes))
    kvCacheSpecs

/-- The specification of a group: one for all of its layers, or one for each of
them if they differ in size only. -/
inductive GroupSpec where
  | layer (spec : LayerSpec)
  | uniformType (kvCacheSpecs : List LayerSpec)

namespace GroupSpec

/-- The specifications of `UniformTypeKVCacheSpecs`. -/
def kvCacheSpecs? : GroupSpec -> Option (List LayerSpec)
  | .layer _ => none
  | .uniformType kvCacheSpecs => some kvCacheSpecs

def pageSizeBytes : GroupSpec -> Nat
  | .layer spec => spec.pageSizeBytes
  | .uniformType kvCacheSpecs => (kvCacheSpecs.map LayerSpec.pageSizeBytes).sum

/-- The memory that one request of maximal length needs in a group. -/
def maxMemoryUsageBytes (config : VllmConfig) : GroupSpec -> Option Nat
  | .layer spec => spec.maxMemoryUsageBytes config
  | .uniformType kvCacheSpecs =>
    (maxMemoryUsagePages config kvCacheSpecs).map
      (· * (kvCacheSpecs.map LayerSpec.pageSizeBytes).sum)

end GroupSpec

/-- A group of layers that share their block tables. -/
structure LayerGroup where
  layerNames : List String
  kvCacheSpec : GroupSpec

/-- Groups of `UniformTypeKVCacheSpecs` share a layout of layer tuples. -/
def layerTupleBytes (first : List LayerSpec) (groups : List (List LayerSpec)) : Option Nat :=
  (maximum getNumLayerTuples groups).bind fun numLayerTuples =>
    reduce (· + ·) (fun kvCacheSpecs => (maxMemoryUsagePages config kvCacheSpecs).map
      (numLayerTuples * · * (getPageSizes first).sum)) groups

/-- In the general case groups are padded to the same number of layers; `none` if their
page sizes differ. -/
def paddedBytes (groups : List LayerGroup) : Option Nat :=
  let groupSize := (groups.map fun group => group.layerNames.length).foldr max 0
  match (groups.map fun group => group.kvCacheSpec.pageSizeBytes).dedup with
  | [pageSize] =>
    (reduce (· + ·) (fun group => (group.kvCacheSpec.maxMemoryUsageBytes config).map
      (cdiv · pageSize)) groups).map (groupSize * pageSize * ·)
  | _ => none

/-- The memory that one request of maximal length needs in all groups together. -/
def maxMemoryUsageBytesFromGroups (groups : List LayerGroup) : Option Nat :=
  match groups.mapM fun group => group.kvCacheSpec.kvCacheSpecs? with
  | some [] => some 0
  | some [kvCacheSpecs] => reduce (· + ·) (LayerSpec.maxMemoryUsageBytes config) kvCacheSpecs
  | some (first :: rest) => layerTupleBytes config first (first :: rest)
  | none => paddedBytes config groups

section Search

variable (groups : List LayerGroup) (availableMemory : Int)

/-- The test, which leaves the length it tried in the configuration. -/
def fits (config : VllmConfig) (modelLen : Nat) : Option Bool × VllmConfig :=
  let config := config.setMaxModelLen modelLen
  ((maxMemoryUsageBytesFromGroups config groups).map fun bytes =>
    decide ((bytes : Int) <= availableMemory), config)

/-- The loop; the number of lengths between the bounds is enough fuel. -/
def bisect : Nat -> VllmConfig -> Nat -> Nat -> Nat -> Option Nat × VllmConfig
  | 0, config, _, _, result => (some result, config)
  | fuel + 1, config, left, right, result =>
    if left <= right then
      let mid := (left + right) / 2
      match fits groups availableMemory config mid with
      | (none, config) => (none, config)
      | (some true, config) => bisect fuel config (mid + 1) right mid
      | (some false, config) => bisect fuel config left (mid - 1) result
    else (some result, config)

/-- `_estimate_max_model_len_from_groups`, with the configuration afterwards.
The last line is the `finally` clause, which sets the length back. -/
def estimateMaxModelLenFromGroups (config : VllmConfig) : Option Nat × VllmConfig :=
  let originalMax := config.maxModelLen
  let (result, config) :=
    match fits groups availableMemory config 1 with
    | (none, config) => (none, config)
    | (some false, config) => (some 0, config)
    | (some true, config) => bisect groups availableMemory originalMax config 1 originalMax 1
  (result, config.setMaxModelLen originalMax)

end Search

/-- Either the computation fails at every length, or the bytes grow with the length. -/
def Grows (usage : Nat -> Option Nat) : Prop :=
  (∀ len, usage len = none) \/
    ∃ bytes, Monotone bytes /\ ∀ len, usage len = some (bytes len)

namespace Grows

theorem of_monotone {bytes : Nat -> Nat} (monotone : Monotone bytes) :
    Grows fun len => some (bytes len) :=
  Or.inr ⟨bytes, monotone, fun _ => rfl⟩

theorem const {usage : Option Nat} : Grows fun _ => usage := by
  cases usage with
  | none => exact Or.inl fun _ => rfl
  | some bytes => exact of_monotone monotone_const

theorem map {usage : Nat -> Option Nat} {f : Nat -> Nat} (monotone : Monotone f)
    (grows : Grows usage) : Grows fun len => (usage len).map f := by
  rcases grows with fails | ⟨_, increasing, usage_eq⟩
  · exact Or.inl fun len => by simp [fails len]
  · exact Or.inr ⟨_, monotone.comp increasing, fun len => by simp [usage_eq len]⟩

variable {usage : Nat -> A -> Option Nat} {elements : List A}

theorem reduce {op : Nat -> Nat -> Nat}
    (monotone : ∀ {a b c d}, a <= b -> c <= d -> op a c <= op b d)
    (grows : ∀ element, Grows fun len => usage len element) :
    Grows fun len => KVCache.reduce op (usage len) elements := by
  induction elements with
  | nil => exact const
  | cons element rest ih =>
      rcases grows element with fails | ⟨head, headMono, head_eq⟩
      · exact Or.inl fun len => by simp [KVCache.reduce, fails len]
      rcases ih with fails | ⟨tail, tailMono, tail_eq⟩
      · exact Or.inl fun len => by simp [KVCache.reduce, fails len, head_eq len]
      refine Or.inr ⟨fun len => op (head len) (tail len), ?_, fun len => ?_⟩
      · exact fun _ _ shorter => monotone (headMono shorter) (tailMono shorter)
      · simp [KVCache.reduce, head_eq len, tail_eq len]

theorem sum (grows : ∀ element, Grows fun len => usage len element) :
    Grows fun len => KVCache.reduce (· + ·) (usage len) elements :=
  reduce Nat.add_le_add grows

theorem maximum (grows : ∀ element, Grows fun len => usage len element) :
    Grows fun len => KVCache.maximum (usage len) elements := by
  unfold KVCache.maximum
  split
  · exact const
  · exact reduce max_le_max grows

end Grows

theorem cdiv_monotone {b : Nat} : Monotone (cdiv · b) :=
  fun _ _ le => Nat.div_le_div_right (Nat.sub_le_sub_right (Nat.add_le_add_right le b) 1)

section Memory

variable (config : VllmConfig)

theorem LayerSpec.maxMemoryUsageBytes_grows (spec : LayerSpec) :
    Grows fun len => spec.maxMemoryUsageBytes (config.setMaxModelLen len) := by
  have blocks {numTokens : Nat -> Nat} (monotone : Monotone numTokens) :
      Monotone fun len => cdiv (numTokens len) spec.blockSize :=
    (cdiv_monotone).comp monotone
  have capped (limit : Nat) : Monotone (min limit) := fun _ _ => min_le_min_left limit
  cases kind : spec.kind <;> simp only [maxMemoryUsageBytes, kind, VllmConfig.setMaxModelLen]
  case fullAttention =>
    refine Grows.of_monotone ((blocks ?_).mul_const' _)
    by_cases parallel : 1 < config.decodeContextParallelSize * config.prefillContextParallelSize
    · simpa only [parallel, if_true] using cdiv_monotone
    simp only [parallel, if_false]
    exact monotone_id
  case chunkedLocalAttention =>
    exact Grows.of_monotone ((blocks (capped _)).mul_const' _)
  case slidingWindow =>
    by_cases single : config.decodeContextParallelSize = 1
    · simp only [single, if_true]
      exact Grows.of_monotone (((blocks (capped _)).add_const 1).mul_const' _)
    · simp only [single, if_false, Grows.const]
  case mamba =>
    split
    · exact Grows.of_monotone ((blocks monotone_id).mul_const' _)
    · exact Grows.const
    · exact Grows.const
  all_goals exact Grows.const

theorem maxMemoryUsagePages_grows {kvCacheSpecs : List LayerSpec} :
    Grows fun len => maxMemoryUsagePages (config.setMaxModelLen len) kvCacheSpecs :=
  Grows.maximum fun spec =>
    (spec.maxMemoryUsageBytes_grows config).map (cdiv_monotone)

theorem GroupSpec.maxMemoryUsageBytes_grows (spec : GroupSpec) :
    Grows fun len => spec.maxMemoryUsageBytes (config.setMaxModelLen len) := by
  cases spec with
  | layer spec => exact spec.maxMemoryUsageBytes_grows config
  | uniformType kvCacheSpecs =>
      exact (maxMemoryUsagePages_grows config).map (monotone_id.mul_const' _)

theorem maxMemoryUsageBytesFromGroups_grows (groups : List LayerGroup) :
    Grows fun len => maxMemoryUsageBytesFromGroups (config.setMaxModelLen len) groups := by
  unfold maxMemoryUsageBytesFromGroups
  split
  · exact Grows.const
  · exact Grows.sum fun spec => spec.maxMemoryUsageBytes_grows config
  · unfold layerTupleBytes
    cases maximum getNumLayerTuples _ with
    | none => exact Grows.const
    | some numLayerTuples =>
        exact Grows.sum fun kvCacheSpecs => (maxMemoryUsagePages_grows config).map
          ((monotone_id.const_mul' _).mul_const' _)
  unfold paddedBytes
  split
  · refine Grows.map (monotone_id.const_mul' _) (Grows.sum fun group => ?_)
    exact (group.kvCacheSpec.maxMemoryUsageBytes_grows config).map (cdiv_monotone)
  · exact Grows.const

end Memory

section Greatest

variable {groups : List LayerGroup} {availableMemory : Int} {bytes : Nat -> Nat}
  {originalMax left right result : Nat}

/-- The lengths up to `originalMax` that fit. -/
def fitting (bytes : Nat -> Nat) (availableMemory : Int) (originalMax : Nat) : Set Nat :=
  { len | 1 <= len /\ len <= originalMax /\ (bytes len : Int) <= availableMemory }

/-- What the loop keeps: `result` fits, lies between the bounds or just below them, and
nothing above `right` fits. -/
structure Bracketed (bytes : Nat -> Nat) (availableMemory : Int)
    (originalMax left right result : Nat) : Prop where
  left_pos : 1 <= left
  result_pos : 1 <= result
  left_le : left <= result + 1
  result_le : result <= right
  right_le : right <= originalMax
  result_fits : (bytes result : Int) <= availableMemory
  above : ∀ len, right < len -> len <= originalMax -> availableMemory < bytes len

theorem Bracketed.greatest
    (bracketed : Bracketed bytes availableMemory originalMax left right result)
    (crossed : right < left) : IsGreatest (fitting bytes availableMemory originalMax) result := by
  rcases bracketed with
    ⟨_, result_pos, _, _, _, result_fits, above⟩
  refine ⟨⟨result_pos, by omega, result_fits⟩, fun len member => ?_⟩
  by_contra longer
  exact absurd member.2.2 (not_le.mpr (above len (by omega) member.2.1))

theorem fits_eq {config : VllmConfig} (usage_eq : ∀ len,
      maxMemoryUsageBytesFromGroups (config.setMaxModelLen len) groups = some (bytes len))
    (modelLen : Nat) : fits groups availableMemory config modelLen =
      (some (decide ((bytes modelLen : Int) <= availableMemory)),
        config.setMaxModelLen modelLen) := by
  simp [fits, usage_eq modelLen]

theorem bisect_greatest (monotone : Monotone bytes) {fuel : Nat} (config : VllmConfig)
    (usage_eq : ∀ len,
      maxMemoryUsageBytesFromGroups (config.setMaxModelLen len) groups = some (bytes len))
    (enough : right + 1 <= left + fuel)
    (bracketed : Bracketed bytes availableMemory originalMax left right result) :
    ∃ best len, bisect groups availableMemory fuel config left right result =
        (some best, config.setMaxModelLen len) /\
      IsGreatest (fitting bytes availableMemory originalMax) best := by
  induction fuel generalizing config left right result with
  | zero => exact ⟨result, config.maxModelLen, rfl, bracketed.greatest (by omega)⟩
  | succ fuel ih =>
      unfold bisect
      split
      next nonempty =>
        rcases bracketed with
    ⟨left_pos, result_pos, left_le, _, right_le, result_fits, above⟩
        simp only [fits_eq usage_eq]
        by_cases mid_fits : (bytes ((left + right) / 2) : Int) <= availableMemory
        · simp only [mid_fits, decide_true]
          refine ih (config.setMaxModelLen ((left + right) / 2)) usage_eq (by omega) ?_
          exact ⟨by omega, by omega, le_refl _, by omega, right_le, mid_fits, above⟩
        simp only [mid_fits, decide_false]
        have shorter : result < (left + right) / 2 := by
          by_contra longer
          have le : bytes ((left + right) / 2) <= bytes result := monotone (not_lt.mp longer)
          omega
        refine ih (config.setMaxModelLen ((left + right) / 2)) usage_eq (by omega) ?_
        refine ⟨left_pos, result_pos, left_le, by omega, by omega, result_fits, fun len longer _ => ?_⟩
        have le : bytes ((left + right) / 2) <= bytes len := monotone (by omega)
        omega
      next crossed =>
        exact ⟨result, config.maxModelLen, rfl, bracketed.greatest (not_le.mp crossed)⟩

/-- The estimate fails only if the memory cannot be computed at any length.  Otherwise
it is the greatest length that fits, or zero if a length of one does not; in all cases the
configuration is as it was. -/
theorem estimateMaxModelLenFromGroups_greatest (groups : List LayerGroup) (availableMemory : Int)
    (config : VllmConfig) (positive : 0 < config.maxModelLen) :
    let usage := fun len => maxMemoryUsageBytesFromGroups (config.setMaxModelLen len) groups
    let estimate := estimateMaxModelLenFromGroups groups availableMemory config
    estimate.2 = config /\
      ((estimate.1 = none /\ ∀ len, usage len = none) \/
        ∃ bytes best, (∀ len, usage len = some (bytes len)) /\ estimate.1 = some best /\
          if (bytes 1 : Int) <= availableMemory then
            IsGreatest (fitting bytes availableMemory config.maxModelLen) best
          else best = 0) := by
  intro usage estimate
  rcases maxMemoryUsageBytesFromGroups_grows config groups with fails | ⟨bytes, monotone, usage_eq⟩
  · have tested : fits groups availableMemory config 1 = (none, config.setMaxModelLen 1) := by
      simp [fits, fails 1]
    have estimated : estimate = (none, config) := by
      simp only [estimate, estimateMaxModelLenFromGroups, tested]
      rfl
    rw [estimated]
    exact ⟨rfl, Or.inl ⟨rfl, fails⟩⟩
  suffices ∃ best, estimate = (some best, config) /\
      if (bytes 1 : Int) <= availableMemory then
        IsGreatest (fitting bytes availableMemory config.maxModelLen) best
      else best = 0 by
    rcases this with ⟨best, estimated, greatest⟩
    rw [estimated]
    exact ⟨rfl, Or.inr ⟨bytes, best, usage_eq, rfl, greatest⟩⟩
  simp only [estimate, estimateMaxModelLenFromGroups, fits_eq usage_eq]
  split_ifs with one_fits
  · rcases bisect_greatest monotone (config.setMaxModelLen 1) usage_eq
        (Nat.le_of_eq (Nat.add_comm _ 1)) ⟨le_refl 1, le_refl 1, by omega, positive, le_refl _,
          one_fits, fun len longer within => by omega⟩ with ⟨best, len, searched, greatest⟩
    refine ⟨best, ?_, greatest⟩
    simp only [one_fits, decide_true, searched]
    rfl
  refine ⟨0, ?_, rfl⟩
  simp only [one_fits, decide_false]
  rfl

/-- One layer of full attention and memory for two pages of it. -/
theorem estimateMaxModelLenFromGroups_greatest_two_pages :
    let spec : LayerSpec := ⟨.fullAttention, 16, 100, by decide, by decide⟩
    let config : VllmConfig := ⟨64, 8, 0, 1, 1, .none⟩
    let estimate := estimateMaxModelLenFromGroups [⟨["layer"], .layer spec⟩] 250 config
    estimate.1 = some 32 /\ estimate.2 = config :=
  ⟨by decide +kernel, (estimateMaxModelLenFromGroups_greatest _ 250 ⟨64, 8, 0, 1, 1, .none⟩
    (by decide)).1⟩

end Greatest

end Vllm.KVCache
