import Mathlib.Order.Bounds.Basic
import Mathlib.Tactic.Common

namespace Vllm.Foundation

/-!
# Borders of prefixes

A border of a prefix of a text is a shorter prefix that it also ends with.  The
borders of a prefix form a chain in which each one is a border of the next, so a
table of the longest borders leads to all of them.
-/

variable {A : Type*} {text : Nat -> A} {length longer shorter : Nat}

/-- A prefix of length `length` ends with the prefix of length `border`, which is
shorter. -/
def Border (text : Nat -> A) (length border : Nat) : Prop :=
  border < length /\ ∀ k < border, text k = text (length - border + k)

/-- The longest border of a prefix. -/
def LongestBorder (text : Nat -> A) (length border : Nat) : Prop :=
  IsGreatest {other | Border text length other} border

theorem border_zero (positive : 0 < length) : Border text length 0 :=
  ⟨positive, fun _ below => absurd below (Nat.not_lt_zero _)⟩

/-- A border grows by one entry when the text goes on as the border does. -/
theorem border_succ_iff :
    Border text (length + 1) (shorter + 1) <->
      Border text length shorter /\ text shorter = text length := by
  unfold Border
  rw [Nat.add_lt_add_iff_right, Nat.forall_lt_succ_right, Nat.add_sub_add_right, and_assoc]
  refine and_congr_right (fun below => and_congr_right (fun _ => ?_))
  rw [Nat.sub_add_cancel (Nat.le_of_lt below)]

/-- Borders of borders are borders. -/
theorem Border.trans (outer : Border text length longer) (inner : Border text longer shorter) :
    Border text length shorter := by
  refine ⟨Nat.lt_trans inner.1 outer.1, fun k below => ?_⟩
  have bounds := And.intro inner.1 outer.1
  rw [inner.2 k below, outer.2 _ (by omega)]
  congr 1
  omega

/-- Of two borders the shorter one is a border of the longer one. -/
theorem Border.of_lt (outer : Border text length longer) (other : Border text length shorter)
    (less : shorter < longer) : Border text longer shorter := by
  refine ⟨less, fun k below => ?_⟩
  have bound := outer.1
  rw [other.2 k below, outer.2 (longer - shorter + k) (by omega)]
  congr 1
  omega

/-- The border to try next is the longest border of the one that failed. -/
theorem LongestBorder.next (longest : LongestBorder text longer shorter)
    (outer : Border text length longer) :
    Border text length shorter /\
      ∀ other, Border text length other -> other < longer -> other <= shorter :=
  ⟨outer.trans longest.1, fun _ isBorder less => longest.2 (outer.of_lt isBorder less)⟩

end Vllm.Foundation
