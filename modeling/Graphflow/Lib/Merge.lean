import Mathlib.Data.List.Basic
import Mathlib.Tactic.Common

/-!
# Merging two lists in pieces

Two lists that are cut in such a way that nothing before the cut belongs behind something after it
are merged by merging the pieces.
-/

namespace Graphflow.Lib

variable {α : Type*} {le : α → α → Bool} {a b : α} {xs xs₁ xs₂ ys ys₁ ys₂ : List α}

theorem merge_cons_of_le (h : le a b = true) :
    (a :: xs).merge (b :: ys) le = a :: xs.merge (b :: ys) le := by
  rw [List.cons_merge_cons, if_pos h]

theorem merge_cons_of_not_le (h : le a b = false) :
    (a :: xs).merge (b :: ys) le = b :: (a :: xs).merge ys le := by
  rw [List.cons_merge_cons, if_neg (Bool.eq_false_iff.mp h)]

/-- What stands before everything in the other list comes first. -/
theorem append_merge (h : ∀ a ∈ xs₁, ∀ b ∈ ys, le a b = true) :
    (xs₁ ++ xs₂).merge ys le = xs₁ ++ xs₂.merge ys le := by
  induction xs₁ with
  | nil => rfl
  | cons a xs₁ ih =>
      cases ys with
      | nil => simp
      | cons b ys =>
          rw [List.cons_append, merge_cons_of_le (h a List.mem_cons_self b List.mem_cons_self),
            ih fun a' ha' ↦ h a' (List.mem_cons_of_mem a ha'), List.cons_append]

theorem merge_append (h : ∀ b ∈ ys₁, ∀ a ∈ xs, le a b = false) :
    xs.merge (ys₁ ++ ys₂) le = ys₁ ++ xs.merge ys₂ le := by
  induction ys₁ with
  | nil => rfl
  | cons b ys₁ ih =>
      cases xs with
      | nil => simp
      | cons a xs =>
          rw [List.cons_append, merge_cons_of_not_le (h b List.mem_cons_self a List.mem_cons_self),
            ih fun b' hb' ↦ h b' (List.mem_cons_of_mem b hb'), List.cons_append]

theorem append_merge_append (hxs : ∀ a ∈ xs₁, ∀ b ∈ ys₂, le a b = true)
    (hys : ∀ b ∈ ys₁, ∀ a ∈ xs₂, le a b = false) :
    (xs₁ ++ xs₂).merge (ys₁ ++ ys₂) le = xs₁.merge ys₁ le ++ xs₂.merge ys₂ le := by
  induction xs₁ generalizing ys₁ with
  | nil =>
      rw [List.nil_append, merge_append hys, List.nil_merge]
  | cons a xs₁ ih =>
      have hxs₁ : ∀ a' ∈ xs₁, ∀ b ∈ ys₂, le a' b = true :=
        fun a' ha' ↦ hxs a' (List.mem_cons_of_mem a ha')
      induction ys₁ with
      | nil =>
          rw [List.nil_append, append_merge hxs, List.merge_right]
      | cons b ys₁ ihys =>
          rw [List.cons_append, List.cons_append]
          cases hle : le a b with
          | true =>
              rw [merge_cons_of_le hle, merge_cons_of_le hle, ← List.cons_append, ih hxs₁ hys,
                List.cons_append]
          | false =>
              rw [merge_cons_of_not_le hle, merge_cons_of_not_le hle, ← List.cons_append,
                ihys fun b' hb' ↦ hys b' (List.mem_cons_of_mem b hb'), List.cons_append]

end Graphflow.Lib
