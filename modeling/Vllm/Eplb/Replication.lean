import Mathlib.Algebra.BigOperators.Group.Finset.Piecewise
import Mathlib.Algebra.Field.Rat
import Mathlib.Algebra.Order.BigOperators.Group.Finset
import Mathlib.Algebra.Order.Ring.Rat
import Mathlib.Data.Fin.VecNotation
import Mathlib.Tactic.FieldSimp
import Mathlib.Tactic.Linarith
import Mathlib.Tactic.Positivity
import Mathlib.Tactic.Ring

namespace Vllm.Eplb

open List

/-!
# Replicating the experts of a layer

Every logical expert has one replica at first.  Each further replica goes to an
expert whose replicas carry the largest load, so that no expert has a replica
that another one needs more.
-/

variable {K : Type} [Field K] [LinearOrder K] {numLog : Nat}

/-- A row of `phy2log` and of `logcnt`. -/
structure Replication (numLog : Nat) where
  phy2log : List Nat
  logcnt : Fin numLog -> Nat

variable (weight : Fin numLog -> K)

/-- `argmax` takes the first of the largest loads, and raises on an empty row. -/
def addReplica (row : Replication numLog) (i : Nat) : Option (Replication numLog) :=
  ((List.finRange numLog).argmax fun e => weight e / row.logcnt e).map fun redundant : Fin _ =>
    ⟨row.phy2log.set i redundant, row.logcnt + Pi.single redundant 1⟩

/-- One row of `replicate_experts`; `none` where it raises. -/
def replicateExperts (numPhy : Nat) : Option (Replication numLog) :=
  if numLog <= numPhy then
    (List.range' numLog (numPhy - numLog)).foldlM (addReplica weight)
      ⟨List.range numPhy, fun _ => 1⟩
  else none

/-- The numbers of replicas that a layer of `numPhy` slots can have. -/
def ReplicaCounts (numLog numPhy : Nat) : Set (Fin numLog -> Nat) :=
  {count | (∀ e, 1 <= count e) /\ ∑ e, count e = numPhy}

/-- The load of the most loaded replica, if an expert's weight is shared by its
replicas. -/
def largestLoad (count : Fin numLog -> Nat) : WithBot K :=
  Finset.univ.sup fun e => ↑(weight e / count e)

variable {weight} {numPhy i : Nat} {row : Replication numLog}

/-- The row before slot `i` is filled.  No load is larger than the one that an
expert would have without its last replica. -/
structure Sound (weight : Fin numLog -> K) (numPhy i : Nat) (row : Replication numLog) : Prop where
  start : numLog <= i
  unfilled : ∀ k, i <= k -> k < numPhy -> row.phy2log[k]? = some k
  counted : ∀ e : Fin numLog, row.phy2log.count e.val = row.logcnt e
  size : row.phy2log.length = numPhy
  counts : row.logcnt ∈ ReplicaCounts numLog i
  greedy : ∀ d e, 2 <= row.logcnt e ->
    weight d / row.logcnt d <= weight e / (row.logcnt e - 1 : Nat)

theorem sound_init (enough : numLog <= numPhy) :
    Sound weight numPhy numLog ⟨List.range numPhy, fun _ => 1⟩ where
  start := le_rfl
  unfilled k _ inside := List.getElem?_range inside
  counted e := count_eq_one_of_mem nodup_range (mem_range.mpr (by omega))
  size := length_range
  counts := ⟨fun _ => Nat.le_refl 1, by simp⟩
  greedy _ _ two := absurd two (Nat.not_succ_le_self 1)

variable [IsStrictOrderedRing K] (nonneg : ∀ e, 0 <= weight e)
include nonneg

theorem load_anti (e : Fin numLog) {few many : Nat} (positive : 1 <= few) (more : few <= many) :
    weight e / many <= weight e / few :=
  div_le_div_of_nonneg_left (nonneg e) (by exact_mod_cast positive) (by exact_mod_cast more)

theorem Sound.addReplica (sound : Sound weight numPhy i row) (room : i < numPhy)
    (present : 0 < numLog) :
    ∃ next, addReplica weight row i = some next /\ Sound weight numPhy (i + 1) next := by
  rcases sound with ⟨start, unfilled, counted, size, ⟨positive, total⟩, greedy⟩
  cases found : (List.finRange numLog).argmax fun e => weight e / row.logcnt e with
  | none =>
    have empty := congrArg List.length (argmax_eq_none.mp found)
    rw [length_finRange, length_nil] at empty
    omega
  | some redundant =>
    have maximal (d : Fin numLog) := le_of_mem_argmax (mem_finRange d) found
    refine ⟨⟨row.phy2log.set i redundant, row.logcnt + Pi.single redundant 1⟩, ?_, ?_⟩
    · rw [Eplb.addReplica, found, Option.map_some]
    constructor
    case start => omega
    case unfilled =>
      intro k later inside
      rw [List.getElem?_set_ne (by omega)]
      exact unfilled k (by omega) inside
    case counted =>
      intro e
      rcases List.getElem?_eq_some_iff.mp (unfilled i (le_rfl) room) with ⟨inside, own⟩
      rw [count_set inside, own, counted]
      have differs : i ≠ e.val := by omega
      simp [differs, Pi.single_apply, Fin.val_inj, @eq_comm _ redundant]
    case size => rw [length_set, size]
    case counts =>
      refine ⟨fun e => Nat.le_add_right_of_le (positive e), ?_⟩
      simp [Finset.sum_add_distrib, total]
    case greedy =>
      intro d e two
      have lighter := load_anti nonneg d (positive d)
        (Nat.le_add_right _ ((Pi.single redundant 1 : Fin numLog -> Nat) d))
      simp only [Pi.add_apply] at two ⊢
      refine lighter.trans ?_
      by_cases same : e = redundant
      · rw [same, Pi.single_eq_same, Nat.add_sub_cancel]
        exact maximal d
      rw [Pi.single_eq_of_ne same, Nat.add_zero] at two ⊢
      exact greedy d e two

theorem sound_run (present : numLog = 0 -> numPhy = 0) (n : Nat) (sound : Sound weight numPhy i row)
    (left : i + n = numPhy) :
    ∃ result, (List.range' i n).foldlM (Eplb.addReplica weight) row = some result /\
      Sound weight numPhy numPhy result := by
  induction n generalizing i row with
  | zero =>
    rw [Nat.add_zero] at left
    exact ⟨row, rfl, left ▸ sound⟩
  | succ n ih =>
    rcases sound.addReplica nonneg (by omega) (by omega) with ⟨next, added, kept⟩
    rcases ih kept (by omega) with ⟨result, ran, done⟩
    refine ⟨result, ?_, done⟩
    rw [List.range'_succ, foldlM_cons, added]
    exact ran

/-- Counts that are greedy have the smallest of the largest loads. -/
theorem Sound.minimal (sound : Sound weight numPhy numPhy row) {other : Fin numLog -> Nat}
    (possible : other ∈ ReplicaCounts numLog numPhy) :
    largestLoad weight row.logcnt <= largestLoad weight other := by
  refine Finset.sup_le fun d _ => ?_
  suffices better : ∃ e, weight d / row.logcnt d <= weight e / other e by
    rcases better with ⟨e, le⟩
    exact (WithBot.coe_le_coe.mpr le).trans
      (Finset.le_sup (f := fun e => ((weight e / other e : K) : WithBot K)) (Finset.mem_univ e))
  by_cases fewer : other d <= row.logcnt d
  · exact ⟨d, load_anti nonneg d (possible.1 d) fewer⟩
  have surplus : ∃ e, other e < row.logcnt e := by
    by_contra none
    have less := Finset.sum_lt_sum (fun e _ => Nat.le_of_not_lt fun more => none ⟨e, more⟩)
      ⟨d, Finset.mem_univ d, Nat.lt_of_not_le fewer⟩
    rw [sound.counts.2, possible.2] at less
    exact Nat.lt_irrefl _ less
  rcases surplus with ⟨e, more⟩
  have one := possible.1 e
  exact ⟨e, (sound.greedy d e (by omega)).trans (load_anti nonneg e one (by omega))⟩

/-- `replicate_experts` returns counts of the replicas in `phy2log`, and no other
counts have a smaller largest load. -/
theorem replicateExperts_optimal (enough : numLog <= numPhy) (present : numLog = 0 -> numPhy = 0) :
    ∃ row, replicateExperts weight numPhy = some row /\
      row.phy2log.length = numPhy /\ (∀ e : Fin numLog, row.phy2log.count e.val = row.logcnt e) /\
      row.logcnt ∈ ReplicaCounts numLog numPhy /\
      ∀ other ∈ ReplicaCounts numLog numPhy,
        largestLoad weight row.logcnt <= largestLoad weight other := by
  rcases sound_run nonneg present (numPhy - numLog) (sound_init enough) (by omega) with
    ⟨row, ran, sound⟩
  rw [replicateExperts, if_pos enough]
  exact ⟨row, ran, sound.size, sound.counted, sound.counts, fun _ => sound.minimal nonneg⟩

omit nonneg in
/-- Two experts on three slots. -/
theorem heavy_expert_replicated :
    ∃ row, replicateExperts (![3, 1] : Fin 2 -> ℚ) 3 = some row /\
      largestLoad (![3, 1] : Fin 2 -> ℚ) row.logcnt <= largestLoad (![3, 1] : Fin 2 -> ℚ) ![1, 2] := by
  rcases @replicateExperts_optimal ℚ _ _ 2 ![3, 1] 3 _ (by decide) (by decide) (by decide) with
    ⟨row, returned, -, -, -, minimal⟩
  exact ⟨row, returned, minimal _ ⟨by decide, by decide⟩⟩

end Vllm.Eplb
