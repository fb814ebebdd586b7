import Mathlib.Tactic.Common

namespace Vllm.KVCache

/-!
# Cache groups and their specifications

Layers that share a block table form a cache group.  The specification of a
group says how many tokens a block holds and which kind of layer uses it.
Context parallelism is one, so the block size of the specification is also the
one that managers work with.
-/

/-- How Mamba states are cached. -/
inductive MambaCacheMode where
  | none
  | all
  | align
  deriving DecidableEq

/-- The kinds of specification, by the manager that serves them.  The plain, the
MLA and the TQ variants of full attention share one manager, and so do the two
variants of sliding-window attention.  The sink variant of full attention is not
one of the kinds: its manager takes the blocks of the sink off the free queue
when it is created, without counting a reference to them, and such blocks belong
to no request.  Every result about a cache manager is therefore about
configurations without sink groups. -/
inductive SpecKind where
  | fullAttention
  | slidingWindow (slidingWindow : Nat)
  | chunkedLocalAttention (attentionChunkSize : Nat)
  | mamba (mambaCacheMode : MambaCacheMode) (numSpeculativeBlocks : Nat)
  | crossAttention
  deriving DecidableEq

/-- A specification.  `layout` stands for the fields that only the comparison
of specifications looks at: heads, sizes and data types. -/
structure KVCacheSpec where
  blockSize : Nat
  blockSize_pos : 0 < blockSize
  kind : SpecKind
  layout : Nat

theorem zero_lt_sixteen : 0 < 16 := by
  decide

instance : DecidableEq KVCacheSpec := fun spec other =>
  decidable_of_iff (spec.blockSize = other.blockSize /\ spec.kind = other.kind /\
    spec.layout = other.layout) (by rw [KVCacheSpec.mk.injEq])

/-- The test `isinstance(spec, FullAttentionSpec)`. -/
def KVCacheSpec.isFullAttention (spec : KVCacheSpec) : Bool :=
  match spec.kind with
  | .fullAttention => true
  | _ => false

/-- A cache group: its specification, and whether it belongs to a draft model that
drops the last block of a hit. -/
structure KVCacheGroupSpec where
  kvCacheSpec : KVCacheSpec
  isEagleGroup : Bool

/-- Division that rounds up. -/
def cdiv (a b : Nat) : Nat := (a + b - 1) / b

/-- The most blocks that a request is expected to hold at once, for kinds that
recycle blocks. -/
def KVCacheSpec.maxAdmissionBlocksPerRequest (spec : KVCacheSpec)
    (maxNumBatchedTokens maxModelLen : Nat) : Option Nat :=
  match spec.kind with
  | .slidingWindow slidingWindow =>
    some (cdiv (min (slidingWindow + maxNumBatchedTokens - 1) maxModelLen) spec.blockSize + 1)
  | .chunkedLocalAttention attentionChunkSize =>
    some (cdiv (min (attentionChunkSize + maxNumBatchedTokens) maxModelLen) spec.blockSize)
  | _ => none

end Vllm.KVCache
