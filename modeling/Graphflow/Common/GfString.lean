import Graphflow.Common.Configs
import Graphflow.Lib.Lexicographic

/-!
# Comparing strings

The operators of `gf_string_t` on the characters of the strings: `==` and `>` look at the first
four characters before they look at all of them, and the other operators are made of these two.
-/

namespace Graphflow.GfString

open Lib

def eq (lhs rhs : List UInt8) : Bool :=
  if lhs.length = rhs.length ∧
      lhs.take (min lhs.length prefixLength) = rhs.take (min lhs.length prefixLength) then
    lhs.take lhs.length == rhs.take lhs.length
  else false

def gt (lhs rhs : List UInt8) : Bool :=
  let sharedLen := min lhs.length rhs.length
  let numBytes := if sharedLen ≤ prefixLength then sharedLen else prefixLength
  let prefixResult := compare (lhs.take numBytes) (rhs.take numBytes)
  let memcmpResult := if prefixResult = .eq ∧ prefixLength < lhs.length then
      compare (lhs.take sharedLen) (rhs.take sharedLen)
    else prefixResult
  if memcmpResult = .eq then rhs.length < lhs.length else memcmpResult = .gt

def ge (lhs rhs : List UInt8) : Bool := gt lhs rhs || eq lhs rhs

def lt (lhs rhs : List UInt8) : Bool := !ge lhs rhs

variable {l r : List UInt8}

theorem eq_iff : eq l r ↔ l = r := by
  rw [eq]
  constructor
  · intro h
    split_ifs at h with hlength
    rw [beq_iff_eq, List.take_length, hlength.1, List.take_length] at h
    exact h
  · rintro rfl
    rw [if_pos ⟨rfl, rfl⟩, beq_self_eq_true]

/-- Two strings compare by the characters up to the length of the shorter one, then by length. -/
theorem compare_eq_then_length (l r : List UInt8) : compare l r =
    (compare (l.take (min l.length r.length)) (r.take (min l.length r.length))).then
      (compare l.length r.length) := by
  induction l generalizing r with
  | nil => cases r <;> rfl
  | cons x l ih =>
      cases r with
      | nil => rfl
      | cons y r =>
          have hlength : compare (x :: l).length (y :: r).length = compare l.length r.length := by
            simp only [List.length_cons, Nat.compare_eq_ite_lt, Nat.add_lt_add_iff_right]
          rw [List.compare_cons_cons, ih r, hlength, List.length_cons, List.length_cons,
            Nat.add_min_add_right, List.take_succ_cons, List.take_succ_cons, List.compare_cons_cons,
            Ordering.then_assoc]

theorem compare_take_of_le {m n : ℕ} (hmn : m ≤ n) (h : compare (l.take m) (r.take m) ≠ .eq)
    (hl : m ≤ l.length) (hr : m ≤ r.length) :
    compare (l.take n) (r.take n) = compare (l.take m) (r.take m) := by
  obtain ⟨k, rfl⟩ := Nat.exists_eq_add_of_le hmn
  rw [List.take_add, List.take_add, compare_append
    (by rw [List.length_take, List.length_take]; omega)]
  cases hcompare : compare (l.take m) (r.take m) with
  | lt => rfl
  | eq => exact absurd hcompare h
  | gt => rfl

theorem gt_iff : gt l r ↔ compare l r = .gt := by
  have hn : (if min l.length r.length ≤ prefixLength then min l.length r.length else prefixLength) =
      min (min l.length r.length) prefixLength := by
    split_ifs <;> omega
  simp only [gt, hn]
  rw [compare_eq_then_length l r]
  set shared := min l.length r.length with hshared
  set n := min shared prefixLength with hnDef
  by_cases hfirst : compare (l.take n) (r.take n) = .eq
  · have hresult : (if compare (l.take n) (r.take n) = .eq ∧ prefixLength < l.length then
        compare (l.take shared) (r.take shared) else compare (l.take n) (r.take n)) =
        compare (l.take shared) (r.take shared) := by
      split_ifs with hlong
      · rfl
      · have hall : n = shared := by
          have hle : l.length ≤ prefixLength := by
            rw [not_and] at hlong
            exact Nat.le_of_not_lt (hlong hfirst)
          omega
        rw [hall]
    rw [hresult]
    cases hcompare : compare (l.take shared) (r.take shared) with
    | lt => simp
    | eq => simp [Nat.compare_eq_gt]
    | gt => simp
  · have hshared : compare (l.take shared) (r.take shared) = compare (l.take n) (r.take n) :=
      compare_take_of_le (by omega) hfirst (by omega) (by omega)
    simp only [hfirst, false_and, if_false, hshared, decide_eq_true_eq]
    cases hcompare : compare (l.take n) (r.take n) with
    | lt => simp
    | eq => exact absurd hcompare hfirst
    | gt => simp

theorem ge_iff : ge l r ↔ (compare l r).isGE := by
  rw [ge, Bool.or_eq_true, gt_iff, eq_iff, ← Std.LawfulEqOrd.compare_eq_iff_eq (a := l)]
  cases compare l r <;> simp

theorem lt_iff : lt l r ↔ compare l r = .lt := by
  rw [lt, Bool.not_eq_true', ← Bool.not_eq_true, ge_iff]
  cases compare l r <;> simp

end Graphflow.GfString
