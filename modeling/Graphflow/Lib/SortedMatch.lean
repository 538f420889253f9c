import Mathlib.Data.List.Sort
import Mathlib.Order.Defs.LinearOrder
import Mathlib.Tactic.Common

/-!
# Matching two sorted lists

Two lists that are sorted by a key are gone through side by side, and an element of the first list
is kept for each pair of elements with the same key that are met.  Of the elements with a key there
are kept as many as both lists have.
-/

namespace Graphflow.Lib

variable {α β K : Type*} [LinearOrder K]

instance totalKey (key : α → K) : Std.Total fun a b ↦ key a ≤ key b :=
  ⟨fun a b ↦ le_total (key a) (key b)⟩

instance isTransKey (key : α → K) : IsTrans α fun a b ↦ key a ≤ key b :=
  ⟨fun _ _ _ ↦ le_trans⟩

/-- A way to sort by keys.  It does not say in which order elements with the same key come. -/
structure KeySort (α K : Type*) [LinearOrder K] where
  sort : (α → K) → List α → List α
  perm : ∀ key l, (sort key l).Perm l
  sorted : ∀ key l, (sort key l).Pairwise fun a b ↦ key a ≤ key b

namespace KeySort

/-- Elements with the same key stay in their order. -/
def stable : KeySort α K where
  sort key l := l.insertionSort fun a b ↦ key a ≤ key b
  perm _ l := List.perm_insertionSort _ l
  sorted _ l := List.pairwise_insertionSort _ l

/-- One list is sorted in an order of one's choice. -/
theorem exists_eq {key : α → K} {l l' : List α} (hperm : l'.Perm l)
    (hsorted : l'.Pairwise fun a b ↦ key a ≤ key b) : ∃ s : KeySort α K, s.sort key l = l' := by
  classical
  refine ⟨{ sort := fun f xs ↦ if f = key ∧ xs = l then l' else stable.sort f xs
            perm := fun f xs ↦ ?_
            sorted := fun f xs ↦ ?_ }, if_pos ⟨rfl, rfl⟩⟩
  · split_ifs with h
    · rw [h.2]
      exact hperm
    · exact stable.perm f xs
  · split_ifs with h
    · rw [h.1]
      exact hsorted
    · exact stable.sorted f xs

/-- The elements with one key come in an order of one's choice. -/
theorem exists_filter_eq {key : α → K} {l c : List α} {v : K}
    (hperm : c.Perm (l.filter fun a ↦ decide (key a = v))) :
    ∃ s : KeySort α K, (s.sort key l).filter (fun a ↦ decide (key a = v)) = c := by
  have hkey : ∀ a ∈ c, key a = v := fun a ha ↦
    of_decide_eq_true (List.mem_filter.mp (hperm.subset ha)).2
  let others := l.filter fun a ↦ !decide (key a = v)
  have hsplit : (c ++ others).Perm l :=
    (hperm.append_right others).trans (List.filter_append_perm _ l)
  obtain ⟨s, hs⟩ := exists_eq ((stable.perm key (c ++ others)).trans hsplit)
    (stable.sorted key (c ++ others))
  refine ⟨s, ?_⟩
  rw [hs]
  have hsublist : c.Sublist (stable.sort key (c ++ others)) := by
    apply List.sublist_insertionSort _ (List.sublist_append_left c others)
    exact List.pairwise_of_forall_mem_list fun a ha b hb ↦ ((hkey a ha).trans (hkey b hb).symm).le
  have hfilter := hsublist.filter fun a ↦ decide (key a = v)
  rw [List.filter_eq_self.mpr fun a ha ↦ decide_eq_true (hkey a ha)] at hfilter
  apply (hfilter.eq_of_length _).symm
  have hall := ((stable.perm key (c ++ others)).trans hsplit).filter fun a ↦ decide (key a = v)
  rw [hall.length_eq, hperm.length_eq]

end KeySort

/-- The elements of the first list that are met with one of the second list. -/
def matchSorted (f : α → K) (g : β → K) : List α → List β → List α
  | [], _ => []
  | _ :: _, [] => []
  | x :: xs, y :: ys =>
      if g y < f x then matchSorted f g (x :: xs) ys
      else if f x < g y then matchSorted f g xs (y :: ys)
      else x :: matchSorted f g xs ys
  termination_by xs ys => xs.length + ys.length

variable {f : α → K} {g : β → K} {xs : List α} {ys : List β} {v : K}

theorem filter_eq_nil_of_lt (hxs : xs.Pairwise fun a b ↦ f a ≤ f b)
    (hlt : ∀ x ∈ xs.head?, v < f x) :
    xs.filter (fun x ↦ decide (f x = v)) = [] := by
  cases xs with
  | nil => rfl
  | cons x xs =>
      have hx : v < f x := hlt x rfl
      apply List.filter_eq_nil_iff.mpr
      intro a ha
      have hle : f x ≤ f a := by
        rcases List.mem_cons.mp ha with rfl | ha
        · exact le_rfl
        · exact List.rel_of_pairwise_cons hxs ha
      simpa using (hx.trans_le hle).ne'

/-- Of the elements with a key the first ones are kept, as many as both lists have. -/
theorem filter_matchSorted (hxs : xs.Pairwise fun a b ↦ f a ≤ f b)
    (hys : ys.Pairwise fun a b ↦ g a ≤ g b) (v : K) :
    (matchSorted f g xs ys).filter (fun x ↦ decide (f x = v)) =
      (xs.filter fun x ↦ decide (f x = v)).take (ys.filter fun y ↦ decide (g y = v)).length := by
  fun_induction matchSorted f g xs ys with
  | case1 ys => simp
  | case2 x xs => simp
  | case3 x xs y ys hlt ih =>
      rw [ih hxs hys.tail, List.filter_cons (x := y)]
      split_ifs with hy
      · have hnil : (x :: xs).filter (fun x ↦ decide (f x = v)) = [] := by
          apply filter_eq_nil_of_lt hxs
          rintro _ ⟨⟩
          exact (of_decide_eq_true hy).symm.trans_lt hlt
        rw [hnil, List.take_nil, List.take_nil]
      · rfl
  | case4 x xs y ys hnot hlt ih =>
      rw [ih hxs.tail hys, List.filter_cons (x := x)]
      split_ifs with hx
      · have hnil : (y :: ys).filter (fun y ↦ decide (g y = v)) = [] := by
          apply filter_eq_nil_of_lt hys
          rintro _ ⟨⟩
          exact (of_decide_eq_true hx).symm.trans_lt hlt
        rw [hnil, List.length_nil, List.take_zero, List.take_zero]
      · rfl
  | case5 x xs y ys hnot hnot' ih =>
      have heq : f x = g y := le_antisymm (not_lt.mp hnot) (not_lt.mp hnot')
      rw [List.filter_cons, List.filter_cons, List.filter_cons, ih hxs.tail hys.tail, ← heq]
      split_ifs with hv
      · rw [List.length_cons, List.take_succ_cons]
      · rfl

end Graphflow.Lib
