import Mathlib.Data.Finset.Basic
import Mathlib.Logic.Function.Basic
import Mathlib.Tactic.Common

/-!
# Versioned file handles

`VersionedFileHandle` keeps, for each page of a file, the index of the page's version in the WAL
file.  The source stores these indices in groups of 64 pages; a group exists for the first
`⌈numPages / 64⌉` groups only, so truncating the file forgets whole groups and nothing inside the
last group that survives.
-/

namespace Graphflow.Storage

/-- `MULTI_VERSION_FILE_PAGE_GROUP_SIZE`. -/
def pageGroupSize : ℕ := 64

/-- The entry `pageVersions p` is the entry of page `p` in the vector of page groups, with
`UINT32_MAX` read as `none`.  Entries of groups that are empty or do not exist are `none`. -/
structure VersionedFileHandle where
  numPages : ℕ
  pageVersions : ℕ → Option ℕ

/-- The number of page groups of a file with the given number of pages, `⌈numPages / 64⌉`. -/
def numPageGroups (numPages : ℕ) : ℕ := (numPages + (pageGroupSize - 1)) / pageGroupSize

namespace VersionedFileHandle

variable {fh : VersionedFileHandle} {p q w n : ℕ}

def hasWALPageVersion (fh : VersionedFileHandle) (pageIdx : ℕ) : Bool :=
  (fh.pageVersions pageIdx).isSome

def setWALPageVersion (fh : VersionedFileHandle) (originalPageIdx pageIdxInWAL : ℕ) :
    VersionedFileHandle :=
  { fh with pageVersions := Function.update fh.pageVersions originalPageIdx (some pageIdxInWAL) }

def clearWALPageVersionIfNecessary (fh : VersionedFileHandle) (pageIdx : ℕ) :
    VersionedFileHandle :=
  if fh.numPages ≤ pageIdx then fh
  else { fh with pageVersions := Function.update fh.pageVersions pageIdx none }

/-- `resizePageGroupLocksAndPageVersionsToNumPageGroupsWithoutLock`. -/
def resizePageVersions (fh : VersionedFileHandle) : VersionedFileHandle :=
  { fh with
    pageVersions := fun p ↦
      if p / pageGroupSize < numPageGroups fh.numPages then fh.pageVersions p else none }

/-- The new handle; the index of the added page is the old number of pages. -/
def addNewPage (fh : VersionedFileHandle) : VersionedFileHandle :=
  { fh with numPages := fh.numPages + 1 }.resizePageVersions

def removePageIdxAndTruncateIfNecessary (fh : VersionedFileHandle) (pageIdxToRemove : ℕ) :
    VersionedFileHandle :=
  if fh.numPages ≤ pageIdxToRemove then fh.resizePageVersions
  else { fh with numPages := pageIdxToRemove }.resizePageVersions

/-- No page index at or behind the end of the file has a version. -/
def Fresh (fh : VersionedFileHandle) : Prop := ∀ p, fh.numPages ≤ p → fh.pageVersions p = none

/-! ## Page groups -/

theorem div_lt_numPageGroups (hp : p < n) : p / pageGroupSize < numPageGroups n := by
  unfold numPageGroups pageGroupSize
  omega

theorem numPageGroups_mono (hpq : p ≤ q) : numPageGroups p ≤ numPageGroups q := by
  unfold numPageGroups pageGroupSize
  omega

/-! ## The operations, field by field -/

@[simp] theorem setWALPageVersion_numPages : (fh.setWALPageVersion p w).numPages = fh.numPages :=
  rfl

@[simp] theorem setWALPageVersion_pageVersions :
    (fh.setWALPageVersion p w).pageVersions = Function.update fh.pageVersions p (some w) := rfl

@[simp] theorem clear_numPages :
    (fh.clearWALPageVersionIfNecessary p).numPages = fh.numPages := by
  unfold clearWALPageVersionIfNecessary
  split <;> rfl

theorem clear_pageVersions_of_lt (hp : p < fh.numPages) :
    (fh.clearWALPageVersionIfNecessary p).pageVersions =
      Function.update fh.pageVersions p none := by
  simp [clearWALPageVersionIfNecessary, Nat.not_le.mpr hp]

theorem clear_of_le (hp : fh.numPages ≤ p) : fh.clearWALPageVersionIfNecessary p = fh := by
  simp [clearWALPageVersionIfNecessary, hp]

theorem clear_pageVersions_of_ne (hqp : q ≠ p) :
    (fh.clearWALPageVersionIfNecessary p).pageVersions q = fh.pageVersions q := by
  rcases Nat.lt_or_ge p fh.numPages with hp | hp
  · rw [clear_pageVersions_of_lt hp, Function.update_of_ne hqp]
  · rw [clear_of_le hp]

@[simp] theorem resizePageVersions_numPages : fh.resizePageVersions.numPages = fh.numPages := rfl

@[simp] theorem addNewPage_numPages : fh.addNewPage.numPages = fh.numPages + 1 := rfl

theorem removePage_numPages :
    (fh.removePageIdxAndTruncateIfNecessary p).numPages = min fh.numPages p := by
  unfold removePageIdxAndTruncateIfNecessary
  split <;> simp <;> omega

theorem removePage_pageVersions :
    (fh.removePageIdxAndTruncateIfNecessary p).pageVersions q =
      if q / pageGroupSize < numPageGroups (min fh.numPages p) then fh.pageVersions q
        else none := by
  unfold removePageIdxAndTruncateIfNecessary
  split
  next hle => simp [resizePageVersions, Nat.min_eq_left hle]
  next hlt => simp [resizePageVersions, Nat.min_eq_right (Nat.le_of_not_le hlt)]

/-! ## Versions only disappear when clearing and truncating -/

theorem clear_eq_none (hq : fh.pageVersions q = none) :
    (fh.clearWALPageVersionIfNecessary p).pageVersions q = none := by
  by_cases hqp : q = p
  · subst hqp
    rcases Nat.lt_or_ge q fh.numPages with hp | hp
    · simp [clear_pageVersions_of_lt hp]
    · rwa [clear_of_le hp]
  · rwa [clear_pageVersions_of_ne hqp]

theorem removePage_eq_none (hq : fh.pageVersions q = none) :
    (fh.removePageIdxAndTruncateIfNecessary p).pageVersions q = none := by
  rw [removePage_pageVersions]
  split
  · exact hq
  · rfl

theorem removePage_eq_none_of_group (hq : numPageGroups p ≤ q / pageGroupSize) :
    (fh.removePageIdxAndTruncateIfNecessary p).pageVersions q = none := by
  rw [removePage_pageVersions, if_neg]
  have hmono := numPageGroups_mono (Nat.min_le_right fh.numPages p)
  omega

/-! ## Fresh pages -/

theorem addNewPage_pageVersions (hfresh : fh.Fresh) :
    fh.addNewPage.pageVersions = fh.pageVersions := by
  funext p
  simp only [addNewPage, resizePageVersions]
  split
  · rfl
  next hgroup =>
    refine (hfresh p ?_).symm
    by_contra hlt
    exact hgroup (div_lt_numPageGroups (by omega))

theorem Fresh.addNewPage (hfresh : fh.Fresh) : fh.addNewPage.Fresh := by
  intro p hp
  rw [addNewPage_pageVersions hfresh]
  exact hfresh p (by simp at hp; omega)

theorem Fresh.setWALPageVersion (hfresh : fh.Fresh) (hp : p < fh.numPages) :
    (fh.setWALPageVersion p w).Fresh := by
  intro q hq
  have hqp : q ≠ p := by
    rintro rfl
    simp at hq
    omega
  simpa [Function.update_of_ne hqp] using hfresh q hq

end VersionedFileHandle

end Graphflow.Storage
