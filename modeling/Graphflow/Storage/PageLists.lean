import Graphflow.Lib.Except
import Graphflow.Storage.UnstructuredPropertyLists

/-!
# Page lists

The page groups in the array of page lists form one chain for each chunk and each large list.  A
layout says which groups and pages belong to which owner; no group and no page belongs to two.
-/

namespace Graphflow.Storage

open Lib

/-- Whose lists a page holds. -/
inductive PageOwner
  | chunk (chunkIdx : ℕ)
  | largeList (largeListIdx : ℕ)
  deriving DecidableEq

structure ListsLayout where
  /-- Where the page groups begin. -/
  groups : PageOwner → List ℕ
  pages : PageOwner → List ℕ

namespace ListsLayout

variable {L L' L'' : ListsLayout} {o o' : PageOwner} {pl : List (Option ℕ)} {numPages k g r idx : ℕ}

/-- No number stands at two places. -/
def Distinct (entries : PageOwner → List ℕ) : Prop :=
  ∀ (o : PageOwner) (i : ℕ) (o' : PageOwner) (i' x : ℕ), (entries o)[i]? = some x →
    (entries o')[i']? = some x → o = o' ∧ i = i'

/-- The array of page lists has the chains of the layout. -/
structure Describes (L : ListsLayout) (pl : List (Option ℕ)) (numPages : ℕ) : Prop where
  slots : ∀ (o : PageOwner) (k g r : ℕ), (L.groups o)[k]? = some g → r < pageListGroupSize →
    pl[g + r]? = some (L.pages o)[pageListGroupSize * k + r]?
  next : ∀ (o : PageOwner) (k g : ℕ), (L.groups o)[k]? = some g →
    pl[g + pageListGroupSize]? = some (L.groups o)[k + 1]?
  fits : ∀ o, (L.pages o).length ≤ pageListGroupSize * (L.groups o).length
  aligned : ∀ o, ∀ g ∈ L.groups o, g % pageListGroupWithNextPtrSize = 0
  length : pl.length % pageListGroupWithNextPtrSize = 0
  groups_distinct : Distinct L.groups
  pages_distinct : Distinct L.pages
  pages_lt : ∀ o, ∀ p ∈ L.pages o, p < numPages

namespace Describes

variable (h : L.Describes pl numPages)
include h

theorem lt_length (hg : (L.groups o)[k]? = some g) : g + pageListGroupSize < pl.length :=
  (List.getElem?_eq_some_iff.mp (h.next o k g hg)).1

theorem group_lt_length (hg : g ∈ L.groups o) : g + pageListGroupSize < pl.length := by
  obtain ⟨k, hk⟩ := List.mem_iff_getElem?.mp hg
  exact h.lt_length hk

end Describes

end ListsLayout

namespace UnstructuredPropertyLists

variable {lists : UnstructuredPropertyLists} {L : ListsLayout} {o : PageOwner} {k n idx : ℕ}
  {α : Type}

theorem read_eq_ok {a : ArrayVersions α} {name : ListsArray} {slack val : α}
    (hval : a.committed[idx]? = some val) : a.read name slack idx = .ok val := by
  have hlt := (List.getElem?_eq_some_iff.mp hval).1
  have hpage : idx / 1024 < (a.committed.length + 1023) / 1024 := by omega
  rw [ArrayVersions.read, if_pos hpage, List.getD_eq_getElem?_getD, hval]
  rfl

/-- An array of the given length has an array page for the index. -/
def OnArrayPage (length idx : ℕ) : Prop :=
  idx / 1024 < (length + 1023) / 1024

theorem onArrayPage_of_lt {length : ℕ} (hlt : idx < length) : OnArrayPage length idx := by
  unfold OnArrayPage
  omega

theorem read_of_onArrayPage {a : ArrayVersions α} {name : ListsArray} {slack : α}
    (h : OnArrayPage a.committed.length idx) :
    a.read name slack idx = .ok (a.committed.getD idx slack) :=
  if_pos h

/-! ## Reading -/

section Reading

variable (h : L.Describes lists.pageLists.committed lists.numPages)
include h

theorem followPageGroups_eq_ok (hk : k + n < (L.groups o).length) :
    lists.followPageGroups n (L.groups o)[k]? = .ok (L.groups o)[k + n]? := by
  induction n generalizing k with
  | zero => rfl
  | succ n ih =>
      have hlt : k < (L.groups o).length := by omega
      have hnext := h.next o k _ (List.getElem?_eq_getElem hlt)
      have hrest : k + 1 + n = k + (n + 1) := by omega
      rw [List.getElem?_eq_getElem hlt, followPageGroups, read_eq_ok hnext, ok_bind,
        ih (by omega), hrest]

theorem getPageIdxFromAPageList_eq_ok {p : ℕ} (hp : (L.pages o)[idx]? = some p) :
    lists.getPageIdxFromAPageList (L.groups o).head? idx = .ok (some p) := by
  have hlt := (List.getElem?_eq_some_iff.mp hp).1
  have hfits := h.fits o
  have hgroup : idx / pageListGroupSize < (L.groups o).length := by
    simp only [pageListGroupSize] at *
    omega
  have hslot := h.slots o _ _ (idx % pageListGroupSize) (List.getElem?_eq_getElem hgroup)
    (Nat.mod_lt _ (by decide))
  rw [Nat.div_add_mod, hp] at hslot
  have hfollow := followPageGroups_eq_ok (k := 0) (o := o) (n := idx / pageListGroupSize) h
    (by omega)
  rw [Nat.zero_add, List.getElem?_eq_getElem hgroup] at hfollow
  rw [getPageIdxFromAPageList, List.head?_eq_getElem?, hfollow, ok_bind]
  exact read_eq_ok hslot

end Reading

end UnstructuredPropertyLists

end Graphflow.Storage
