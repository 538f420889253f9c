import Mathlib.Algebra.BigOperators.Group.List.Basic
import Mathlib.Algebra.Order.BigOperators.Group.List
import Mathlib.Algebra.Ring.Nat
import Mathlib.Data.Nat.Notation
import Mathlib.Tactic.Common

/-!
# Blocks packed one after another

Blocks of the given sizes lie side by side from position 0 on, so a block begins where those before
it end.  Every position below the end of a block is in exactly one block.
-/

namespace Graphflow.Lib

/-- Where a block begins. -/
def offsetOf (sizes : List ℕ) (i : ℕ) : ℕ := (sizes.take i).sum

variable {sizes : List ℕ} {i j k l n m p : ℕ}

theorem offsetOf_succ (hi : sizes[i]? = some n) :
    offsetOf sizes (i + 1) = offsetOf sizes i + n := by
  obtain ⟨hlt, rfl⟩ := List.getElem?_eq_some_iff.mp hi
  rw [offsetOf, List.take_succ_eq_append_getElem hlt, List.sum_append, List.sum_singleton]
  rfl

theorem offsetOf_succ_of_none (hi : sizes[i]? = none) :
    offsetOf sizes (i + 1) = offsetOf sizes i := by
  have hle : sizes.length ≤ i := List.getElem?_eq_none_iff.mp hi
  rw [offsetOf, offsetOf, List.take_of_length_le hle, List.take_of_length_le (hle.trans i.le_succ)]

theorem offsetOf_mono (sizes : List ℕ) : Monotone (offsetOf sizes) := by
  refine monotone_nat_of_le_succ fun i ↦ ?_
  cases hi : sizes[i]? with
  | none => exact (offsetOf_succ_of_none hi).ge
  | some n => exact (offsetOf_succ hi).symm ▸ Nat.le_add_right _ n

/-- A block ends where a later one begins, or before. -/
theorem offsetOf_add_le (hi : sizes[i]? = some n) (hij : i < j) :
    offsetOf sizes i + n ≤ offsetOf sizes j := by
  rw [← offsetOf_succ hi]
  exact offsetOf_mono sizes hij

/-- A position is in one block only. -/
theorem eq_of_offsetOf_add_eq (hi : sizes[i]? = some n) (hj : sizes[j]? = some m) (hk : k < n)
    (hl : l < m) (heq : offsetOf sizes i + k = offsetOf sizes j + l) : i = j ∧ k = l := by
  rcases Nat.lt_trichotomy i j with hlt | rfl | hgt
  · have hend := offsetOf_add_le hi hlt
    omega
  · exact ⟨rfl, Nat.add_left_cancel heq⟩
  · have hend := offsetOf_add_le hj hgt
    omega

/-- A position before the beginning of a block is in an earlier one. -/
theorem exists_offsetOf_add_eq (hp : p < offsetOf sizes j) :
    ∃ i n k, i < j ∧ sizes[i]? = some n ∧ k < n ∧ offsetOf sizes i + k = p := by
  induction j with
  | zero => exact absurd hp (Nat.not_lt_zero p)
  | succ j ih =>
      by_cases hbefore : p < offsetOf sizes j
      · obtain ⟨i, n, k, hij, hi, hk, heq⟩ := ih hbefore
        exact ⟨i, n, k, hij.trans j.lt_succ_self, hi, hk, heq⟩
      · have hge : offsetOf sizes j ≤ p := Nat.le_of_not_lt hbefore
        cases hj : sizes[j]? with
        | none =>
            rw [offsetOf_succ_of_none hj] at hp
            exact absurd hp hbefore
        | some n =>
            rw [offsetOf_succ hj] at hp
            exact ⟨j, n, p - offsetOf sizes j, j.lt_succ_self, hj, by omega, by omega⟩

end Graphflow.Lib
