import Graphflow.Lib.Packing
import Graphflow.Storage.InMemLists
import Graphflow.Storage.PageLists
import Mathlib.Data.List.Nodup

/-!
# The page lists of copied lists

The task that allocates the pages of copied lists leaves a layout: each chunk and each large list
has a page list of its own, with as many pages as its elements need.
-/

namespace Graphflow.Storage

open Lib

/-! ## One page list -/

namespace ListsMetadataBuilder

variable {numGroups head numPages start k r : ℕ}

theorem length_pageListGroups (numGroups head numPages start : ℕ) :
    (pageListGroups numGroups head numPages start).length =
      pageListGroupWithNextPtrSize * numGroups := by
  induction numGroups generalizing head numPages start with
  | zero => rfl
  | succ numGroups ih =>
      simp only [pageListGroups, List.length_append, List.length_map, List.length_range,
        List.length_replicate, List.length_singleton, ih]
      simp only [pageListGroupSize, pageListGroupWithNextPtrSize]
      omega

theorem getElem?_pageListGroups (hk : k < numGroups) (hr : r < pageListGroupSize) :
    (pageListGroups numGroups head numPages start)[pageListGroupWithNextPtrSize * k + r]? =
      some (if pageListGroupSize * k + r < numPages then
        toUInt32 (start + (pageListGroupSize * k + r)) else none) := by
  induction numGroups generalizing head numPages start k with
  | zero => exact absurd hk (Nat.not_lt_zero k)
  | succ numGroups ih =>
      obtain ⟨m, hm⟩ : ∃ m, m = min pageListGroupSize numPages := ⟨_, rfl⟩
      simp only [pageListGroups, ← hm]
      cases k with
      | zero =>
          rw [List.append_assoc, List.append_assoc, Nat.mul_zero, Nat.zero_add, Nat.mul_zero,
            Nat.zero_add]
          by_cases hlt : r < numPages
          · have hrm : r < m := by omega
            rw [List.getElem?_append_left (by simpa using hrm), if_pos hlt]
            simp [hrm]
          · have hrm : m ≤ r := by omega
            rw [List.getElem?_append_right (by simpa using hrm), List.length_map, List.length_range,
              List.getElem?_append_left (by rw [List.length_replicate]; omega), if_neg hlt,
              List.getElem?_replicate, if_pos (by omega)]
      | succ k =>
          have hlength : ((List.range m).map (fun j ↦ toUInt32 (start + j)) ++
              List.replicate (pageListGroupSize - m) none ++
              [if numPages - m = 0 then none else toUInt32 (head + pageListGroupSize + 1)]).length =
                pageListGroupWithNextPtrSize := by
            simp only [List.length_append, List.length_map, List.length_range,
              List.length_replicate, List.length_singleton, pageListGroupWithNextPtrSize]
            omega
          have hidx : pageListGroupWithNextPtrSize * (k + 1) + r =
              pageListGroupWithNextPtrSize + (pageListGroupWithNextPtrSize * k + r) := by
            rw [Nat.mul_succ]
            omega
          rw [hidx, List.getElem?_append_right (by omega), hlength, Nat.add_sub_cancel_left,
            ih (by omega)]
          by_cases hfull : pageListGroupSize ≤ numPages
          · obtain rfl : m = pageListGroupSize := by omega
            have hpos : start + pageListGroupSize + (pageListGroupSize * k + r) =
                start + (pageListGroupSize * (k + 1) + r) := by
              rw [Nat.mul_succ]
              omega
            have hiff : pageListGroupSize * k + r < numPages - pageListGroupSize ↔
                pageListGroupSize * (k + 1) + r < numPages := by
              rw [Nat.mul_succ]
              omega
            simp only [hpos, hiff]
          · have hleft : ¬pageListGroupSize * k + r < numPages - m := by omega
            have hright : ¬pageListGroupSize * (k + 1) + r < numPages := by
              rw [Nat.mul_succ]
              omega
            rw [if_neg hleft, if_neg hright]

theorem getElem?_pageListGroups_next (hk : k < numGroups) :
    (pageListGroups numGroups head numPages start)[
        pageListGroupWithNextPtrSize * k + pageListGroupSize]? =
      some (if numPages ≤ pageListGroupSize * (k + 1) then none else
        toUInt32 (head + pageListGroupWithNextPtrSize * (k + 1))) := by
  induction numGroups generalizing head numPages start k with
  | zero => exact absurd hk (Nat.not_lt_zero k)
  | succ numGroups ih =>
      obtain ⟨m, hm⟩ : ∃ m, m = min pageListGroupSize numPages := ⟨_, rfl⟩
      simp only [pageListGroups, ← hm]
      have hlength : ((List.range m).map (fun j ↦ toUInt32 (start + j)) ++
          List.replicate (pageListGroupSize - m) none).length = pageListGroupSize := by
        simp only [List.length_append, List.length_map, List.length_range, List.length_replicate]
        omega
      rw [List.append_assoc]
      cases k with
      | zero =>
          have hiff : numPages - m = 0 ↔ numPages ≤ pageListGroupSize := by omega
          rw [List.getElem?_append_right (by omega), hlength]
          simp only [Nat.mul_zero, Nat.zero_add, Nat.sub_self, List.singleton_append,
            List.getElem?_cons_zero, Nat.mul_one, hiff]
          rfl
      | succ k =>
          have hidx : pageListGroupWithNextPtrSize * (k + 1) + pageListGroupSize -
              pageListGroupSize =
              pageListGroupWithNextPtrSize * k + pageListGroupSize + 1 := by
            simp only [pageListGroupWithNextPtrSize, pageListGroupSize]
            omega
          rw [List.getElem?_append_right (by omega), hlength, hidx, List.singleton_append,
            List.getElem?_cons_succ, ih (by omega)]
          have hhead : head + pageListGroupSize + 1 + pageListGroupWithNextPtrSize * (k + 1) =
              head + pageListGroupWithNextPtrSize * (k + 1 + 1) := by
            simp only [pageListGroupWithNextPtrSize, pageListGroupSize]
            omega
          have hiff : numPages - m ≤ pageListGroupSize * (k + 1) ↔
              numPages ≤ pageListGroupSize * (k + 1 + 1) := by
            rw [Nat.mul_succ _ (k + 1)]
            simp only [pageListGroupSize] at *
            omega
          simp only [hhead, hiff]

theorem getNumPageListGroups_eq (numPages : ℕ) :
    getNumPageListGroups numPages = (numPages + 2) / 3 := by
  rw [getNumPageListGroups]
  by_cases hrest : numPages % pageListGroupSize ≠ 0
  · rw [if_pos hrest]
    simp only [pageListGroupSize] at *
    omega
  · rw [if_neg hrest]
    simp only [pageListGroupSize] at *
    omega

end ListsMetadataBuilder

namespace ListsLayout

open ListsMetadataBuilder

variable {L : ListsLayout} {o o' : PageOwner} {pl : List (Option ℕ)} {start numPages : ℕ}

theorem Distinct.update {entries : PageOwner → List ℕ} (h : Distinct entries) {xs : List ℕ}
    (hnodup : xs.Nodup) (hnew : ∀ x ∈ xs, ∀ o', x ∉ entries o') (o : PageOwner) :
    Distinct (Function.update entries o xs) := by
  intro o₁ i₁ o₂ i₂ x h₁ h₂
  by_cases ho₁ : o₁ = o <;> by_cases ho₂ : o₂ = o
  · subst ho₁
    subst ho₂
    rw [Function.update_self] at h₁ h₂
    have hlt := (List.getElem?_eq_some_iff.mp h₁).1
    exact ⟨rfl, (List.getElem?_inj hlt hnodup).mp (h₁.trans h₂.symm)⟩
  · subst ho₁
    rw [Function.update_self] at h₁
    rw [Function.update_of_ne ho₂] at h₂
    exact absurd (List.mem_of_getElem? h₂) (hnew x (List.mem_of_getElem? h₁) o₂)
  · subst ho₂
    rw [Function.update_self] at h₂
    rw [Function.update_of_ne ho₁] at h₁
    exact absurd (List.mem_of_getElem? h₁) (hnew x (List.mem_of_getElem? h₂) o₁)
  · rw [Function.update_of_ne ho₁] at h₁
    rw [Function.update_of_ne ho₂] at h₂
    exact h o₁ i₁ o₂ i₂ x h₁ h₂

/-- The owner gets a page list of consecutive groups with consecutive pages. -/
def addPageList (L : ListsLayout) (o : PageOwner) (head start numPages : ℕ) : ListsLayout where
  groups := Function.update L.groups o ((List.range (getNumPageListGroups numPages)).map fun k ↦
    head + pageListGroupWithNextPtrSize * k)
  pages := Function.update L.pages o (List.range' start numPages)

theorem groups_addPageList_of_ne (hne : o' ≠ o) (head start numPages : ℕ) :
    (L.addPageList o head start numPages).groups o' = L.groups o' :=
  Function.update_of_ne hne ..

theorem pages_addPageList_of_ne (hne : o' ≠ o) (head start numPages : ℕ) :
    (L.addPageList o head start numPages).pages o' = L.pages o' :=
  Function.update_of_ne hne ..

@[simp] theorem pages_addPageList (head start numPages : ℕ) :
    (L.addPageList o head start numPages).pages o = List.range' start numPages :=
  Function.update_self ..

theorem groups_addPageList (head start numPages : ℕ) :
    (L.addPageList o head start numPages).groups o =
      (List.range (getNumPageListGroups numPages)).map fun k ↦
        head + pageListGroupWithNextPtrSize * k :=
  Function.update_self ..

theorem getElem?_groups_addPageList (head start numPages k : ℕ) :
    ((L.addPageList o head start numPages).groups o)[k]? =
      if k < getNumPageListGroups numPages then some (head + pageListGroupWithNextPtrSize * k)
      else none := by
  rw [groups_addPageList, List.getElem?_map]
  split
  next hlt => rw [List.getElem?_range hlt, Option.map_some]
  next hge =>
    rw [List.getElem?_eq_none (by rw [List.length_range]; omega), Option.map_none]

theorem head?_groups_addPageList (hpos : 0 < numPages) (head start : ℕ) :
    ((L.addPageList o head start numPages).groups o).head? = some head := by
  have hgroups : 0 < getNumPageListGroups numPages := by
    rw [getNumPageListGroups_eq]
    omega
  rw [List.head?_eq_getElem?, getElem?_groups_addPageList, if_pos hgroups]
  rfl

/-- A page list behind the others, on new pages. -/
theorem Describes.addPageList (h : L.Describes pl start)
    (hlists : pl.length + pageListGroupWithNextPtrSize * getNumPageListGroups numPages ≤ 2 ^ 32)
    (hpages : start + numPages < 2 ^ 32) :
    (L.addPageList o pl.length start numPages).Describes
      (pl ++ pageListGroups (getNumPageListGroups numPages) pl.length numPages start)
      (start + numPages) := by
  have hgroups := getNumPageListGroups_eq numPages
  obtain ⟨numGroups, hnum⟩ : ∃ numGroups, numGroups = getNumPageListGroups numPages := ⟨_, rfl⟩
  rw [← hnum] at hlists hgroups ⊢
  -- A group is a new one or one that another owner had.
  have hcases : ∀ o' k g, ((L.addPageList o pl.length start numPages).groups o')[k]? = some g →
      (o' ≠ o ∧ (L.groups o')[k]? = some g) ∨
        (o' = o ∧ k < numGroups ∧ g = pl.length + pageListGroupWithNextPtrSize * k) := by
    intro o' k g hg
    by_cases ho : o' = o
    · subst ho
      rw [getElem?_groups_addPageList, ← hnum] at hg
      split at hg
      next hlt => exact .inr ⟨rfl, hlt, (Option.some.inj hg).symm⟩
      next => cases hg
    · rw [groups_addPageList_of_ne ho] at hg
      exact .inl ⟨ho, hg⟩
  have hold : ∀ i < pl.length, (pl ++ pageListGroups numGroups pl.length numPages start)[i]? =
      pl[i]? := fun i hi ↦ List.getElem?_append_left hi
  have hnew : ∀ i, (pl ++ pageListGroups numGroups pl.length numPages start)[pl.length + i]? =
      (pageListGroups numGroups pl.length numPages start)[i]? := by
    intro i
    rw [List.getElem?_append_right (by omega), Nat.add_sub_cancel_left]
  refine {
    slots := ?_
    next := ?_
    fits := ?_
    aligned := ?_
    length := ?_
    groups_distinct := ?_
    pages_distinct := ?_
    pages_lt := ?_ }
  · intro o' k g r hg hr
    rcases hcases o' k g hg with ⟨ho, hg⟩ | ⟨rfl, hk, rfl⟩
    · have hlt := h.lt_length hg
      rw [hold _ (by omega), pages_addPageList_of_ne ho]
      exact h.slots o' k g r hg hr
    · rw [Nat.add_assoc, hnew, getElem?_pageListGroups hk hr, pages_addPageList]
      split
      next hlt =>
        rw [toUInt32_of_lt (by omega), List.getElem?_range' hlt, Nat.one_mul]
      next hge => rw [List.getElem?_eq_none (by rw [List.length_range']; omega)]
  · intro o' k g hg
    rcases hcases o' k g hg with ⟨ho, hg⟩ | ⟨rfl, hk, rfl⟩
    · rw [hold _ (h.lt_length hg), groups_addPageList_of_ne ho]
      exact h.next o' k g hg
    · have hiff : numPages ≤ pageListGroupSize * (k + 1) ↔ ¬k + 1 < numGroups := by
        simp only [pageListGroupSize]
        omega
      rw [Nat.add_assoc, hnew, getElem?_pageListGroups_next hk, getElem?_groups_addPageList, ← hnum]
      by_cases hlast : k + 1 < numGroups
      · have hhead : pl.length + pageListGroupWithNextPtrSize * (k + 1) < 2 ^ 32 - 1 := by
          simp only [pageListGroupWithNextPtrSize, pageListGroupSize] at *
          omega
        rw [if_neg (fun hle ↦ hiff.mp hle hlast), if_pos hlast, toUInt32_of_lt hhead]
      · rw [if_pos (hiff.mpr hlast), if_neg hlast]
  · intro o'
    by_cases ho : o' = o
    · subst ho
      rw [pages_addPageList, List.length_range', groups_addPageList, List.length_map,
        List.length_range, ← hnum]
      simp only [pageListGroupSize]
      omega
    · rw [pages_addPageList_of_ne ho, groups_addPageList_of_ne ho]
      exact h.fits o'
  · intro o' g hg
    obtain ⟨k, hk⟩ := List.mem_iff_getElem?.mp hg
    rcases hcases o' k g hk with ⟨-, hk⟩ | ⟨-, -, rfl⟩
    · exact h.aligned o' g (List.mem_of_getElem? hk)
    · rw [Nat.add_mul_mod_self_left]
      exact h.length
  · rw [List.length_append, length_pageListGroups, Nat.add_mul_mod_self_left]
    exact h.length
  · refine h.groups_distinct.update ?_ (fun x hx o' hmem ↦ ?_) o
    · refine List.Nodup.map (fun k k' heq ↦ ?_) List.nodup_range
      simp only [pageListGroupWithNextPtrSize, pageListGroupSize] at heq
      omega
    · obtain ⟨k, -, rfl⟩ := List.mem_map.mp hx
      have := h.group_lt_length hmem
      omega
  · refine h.pages_distinct.update List.nodup_range' (fun x hx o' hmem ↦ ?_) o
    have hlt := h.pages_lt o' x hmem
    have hle := (List.mem_range'_1.mp hx).1
    omega
  · intro o' p hp
    by_cases ho : o' = o
    · subst ho
      rw [pages_addPageList] at hp
      exact (List.mem_range'_1.mp hp).2
    · rw [pages_addPageList_of_ne ho] at hp
      exact (h.pages_lt o' p hp).trans_le (Nat.le_add_right _ _)

end ListsLayout

/-! ## Filling the pages of a chunk -/

/-- The number of pages that hold some elements. -/
def numPagesFor (numPerPage numElements : ℕ) : ℕ := (numElements + numPerPage - 1) / numPerPage

section Filling

variable {numPerPage total numElements numPages offsetInPage fuel : ℕ}

theorem numPagesFor_mul_add (hle : offsetInPage ≤ numPerPage) (hpos : 0 < offsetInPage) :
    numPagesFor numPerPage (numPages * numPerPage + offsetInPage) = numPages + 1 := by
  have hone : (offsetInPage + numPerPage - 1) / numPerPage = 1 :=
    Nat.div_eq_of_lt_le (by omega) (by omega)
  have hsum : numPages * numPerPage + offsetInPage + numPerPage - 1 =
      offsetInPage + numPerPage - 1 + numPages * numPerPage := by omega
  rw [numPagesFor, hsum, Nat.add_mul_div_right _ _ (hpos.trans_le hle), hone, Nat.add_comm]

theorem numPagesFor_zero (hpos : 0 < numPerPage) : numPagesFor numPerPage 0 = 0 :=
  Nat.div_eq_of_lt (by omega)

/-- The number of pages of a large list. -/
theorem ite_mod_ne_zero_eq_numPagesFor (hpos : 0 < numPerPage) (numElements : ℕ) :
    (if numElements % numPerPage ≠ 0 then numElements / numPerPage + 1
      else numElements / numPerPage) = numPagesFor numPerPage numElements := by
  have hdiv : numElements / numPerPage * numPerPage + numElements % numPerPage = numElements :=
    Nat.div_add_mod' _ _
  have hlt := Nat.mod_lt numElements hpos
  by_cases hrest : numElements % numPerPage ≠ 0
  · rw [if_pos hrest, ← numPagesFor_mul_add hlt.le (Nat.pos_of_ne_zero hrest), hdiv]
  · rw [if_neg hrest, numPagesFor]
    rw [not_not.mp hrest, Nat.add_zero] at hdiv
    have hsum : numElements + numPerPage - 1 =
        numPerPage - 1 + numElements / numPerPage * numPerPage := by omega
    have hzero : (numPerPage - 1) / numPerPage = 0 := Nat.div_eq_of_lt (by omega)
    rw [hsum, Nat.add_mul_div_right _ _ hpos, hzero, Nat.zero_add]

theorem le_numPagesFor_mul (hpos : 0 < numPerPage) (numElements : ℕ) :
    numElements ≤ numPagesFor numPerPage numElements * numPerPage := by
  have hdiv := Nat.div_add_mod' (numElements + numPerPage - 1) numPerPage
  have hlt := Nat.mod_lt (numElements + numPerPage - 1) hpos
  rw [numPagesFor]
  omega

theorem numPagesFor_pos (hpos : 0 < numPerPage) (hne : 0 < numElements) :
    0 < numPagesFor numPerPage numElements :=
  Nat.div_pos (by omega) hpos

/-- The elements fill some pages and a part of one more. -/
structure Filled (numPerPage total numPages offsetInPage : ℕ) : Prop where
  total_eq : numPages * numPerPage + offsetInPage = total
  le : offsetInPage ≤ numPerPage
  pos : 0 < total → 0 < offsetInPage

theorem filled_zero (numPerPage : ℕ) : Filled numPerPage 0 0 0 :=
  ⟨by simp, Nat.zero_le _, id⟩

theorem Filled.ite_eq (h : Filled numPerPage total numPages offsetInPage) (hpos : 0 < numPerPage) :
    (if offsetInPage ≠ 0 then numPages + 1 else numPages) = numPagesFor numPerPage total := by
  have htotal := h.total_eq
  by_cases hoffset : offsetInPage ≠ 0
  · rw [if_pos hoffset, ← htotal, numPagesFor_mul_add h.le (Nat.pos_of_ne_zero hoffset)]
  · have hzero : total = 0 := by
      by_contra hne
      exact hoffset (h.pos (Nat.pos_of_ne_zero hne)).ne'
    have hnone : numPages = 0 := by
      rw [hzero, Nat.add_eq_zero_iff] at htotal
      exact (Nat.mul_eq_zero.mp htotal.1).resolve_right hpos.ne'
    rw [if_neg hoffset, hzero, numPagesFor_zero hpos, hnone]

theorem filled_fillPages (hpos : 0 < numPerPage)
    (htotal : numPages * numPerPage + offsetInPage = total) (hle : offsetInPage ≤ numPerPage)
    (hne : 0 < total + numElements → 0 < offsetInPage + numElements)
    (hfuel : numElements + offsetInPage ≤ fuel) :
    Filled numPerPage (total + numElements)
      (InMemStructuresCSVCopier.fillPages numPerPage fuel numElements numPages offsetInPage).1
      (InMemStructuresCSVCopier.fillPages numPerPage fuel numElements numPages offsetInPage).2 := by
  induction fuel generalizing numElements numPages offsetInPage total with
  | zero =>
      simp only [InMemStructuresCSVCopier.fillPages]
      exact ⟨by omega, by omega, hne⟩
  | succ fuel ih =>
      simp only [InMemStructuresCSVCopier.fillPages]
      split
      next hmore =>
        have hsum : total + numElements =
            total + (numPerPage - offsetInPage) + (numElements - (numPerPage - offsetInPage)) := by
          omega
        have hpage : (numPages + 1) * numPerPage + 0 = total + (numPerPage - offsetInPage) := by
          rw [Nat.succ_mul]
          omega
        rw [hsum]
        exact ih hpage (Nat.zero_le _) (fun _ ↦ by omega) (by omega)
      next hlast =>
        refine ⟨?_, ?_, hne⟩
        · show numPages * numPerPage + (offsetInPage + numElements) = total + numElements
          omega
        · show offsetInPage + numElements ≤ numPerPage
          omega

end Filling

end Graphflow.Storage
