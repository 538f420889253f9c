import Graphflow.Storage.DiskArrayRefinement
import Graphflow.Storage.SharedArrays

/-!
# Rolling back lists metadata

`ListsMetadata` keeps three disk arrays in one file and rolls them back one after the other.  Each
rollback truncates the file to the first array page that its own array has added, so pages of the
arrays behind it may be gone when their turn comes: a missing PIP is dereferenced, and a missing
array page is not cleared.
-/

namespace Graphflow.Storage

/-- The arrays of a lists metadata file. -/
inductive ListsMetadataArray
  | chunkToPageListHeadIdxMap
  | largeListIdxToPageListHeadIdxMap
  | pageLists
  deriving DecidableEq

namespace ListsMetadataArray

def headerPageIdx : ListsMetadataArray → ℕ
  | chunkToPageListHeadIdxMap => 0
  | largeListIdxToPageListHeadIdxMap => 1
  | pageLists => 2

/-- The order in which the arrays are rolled back. -/
def order : List ListsMetadataArray :=
  [chunkToPageListHeadIdxMap, largeListIdxToPageListHeadIdxMap, pageLists]

theorem nodup_order : order.Nodup := by decide

theorem mem_order (i : ListsMetadataArray) : i ∈ order := by cases i <;> decide

end ListsMetadataArray

/-- The array pages that the transaction has added. -/
def InMemDiskArray.newAPPageIdxs (a : InMemDiskArray) (f : PagedFile) : List ℕ :=
  match a.getNumAPs f .write with
  | .ok newNumAPs => (List.range' a.header.numAPs (newNumAPs - a.header.numAPs)).filterMap
      fun apIdx ↦ (a.getAPPageIdx f apIdx .write).toOption
  | .error _ => []

abbrev ListsMetadata := SharedArrays ListsMetadataArray

namespace ListsMetadata

open InMemDiskArray

variable {f : PagedFile} {s s₀ : ListsMetadata} {n₀ : ℕ}
  {pips aps newAPs xs working : ListsMetadataArray → List ℕ}

def load (f : PagedFile) : Except Fault ListsMetadata := do
  let chunkToPageListHeadIdxMap ←
    InMemDiskArray.load f ListsMetadataArray.chunkToPageListHeadIdxMap.headerPageIdx
  let largeListIdxToPageListHeadIdxMap ←
    InMemDiskArray.load f ListsMetadataArray.largeListIdxToPageListHeadIdxMap.headerPageIdx
  let pageLists ← InMemDiskArray.load f ListsMetadataArray.pageLists.headerPageIdx
  let arrays
    | .chunkToPageListHeadIdxMap => chunkToPageListHeadIdxMap
    | .largeListIdxToPageListHeadIdxMap => largeListIdxToPageListHeadIdxMap
    | .pageLists => pageLists
  return ⟨arrays, f⟩

def rollbackInMemoryIfNecessary (s : ListsMetadata) : Except Fault ListsMetadata :=
  s.rollbackAll ListsMetadataArray.order

/-- The rollback raises no fault and brings back the arrays, the number of pages and the page
versions of the file. -/
def RollbackRestores (s₀ s : ListsMetadata) : Prop :=
  ∃ s', rollbackInMemoryIfNecessary s = .ok s' ∧ s'.arrays = s₀.arrays ∧
    s'.file.pages = s₀.file.pages ∧ s'.file.numPages = s₀.file.numPages ∧
    ∀ p, s'.file.version p = none

/-- The number of pages that are left when it is the turn of array `i`. -/
def limit (s : ListsMetadata) (i : ListsMetadataArray) : ℕ :=
  SharedArrays.limit (fun j ↦ (s.arrays j).newAPPageIdxs s.file) ListsMetadataArray.order
    s.file.numPages i

/-- The pages that an array has added are left by the arrays rolled back before it.  Array pages
may also be gone if they lie in page groups that the file with `n₀` pages does not have. -/
def RollbackSafe (n₀ : ℕ) (s : ListsMetadata) : Prop :=
  ∀ i ∈ ListsMetadataArray.order,
    (∀ q ∈ (s.arrays i).pipPageIdxsOfInsertedPIPs, q < limit s i) ∧
    ∀ p ∈ (s.arrays i).newAPPageIdxs s.file,
      p < limit s i ∨ numPageGroups n₀ ≤ p / pageGroupSize

instance : Decidable (RollbackSafe n₀ s) :=
  inferInstanceAs (Decidable (∀ i ∈ ListsMetadataArray.order,
    (∀ q ∈ (s.arrays i).pipPageIdxsOfInsertedPIPs, q < limit s i) ∧
    ∀ p ∈ (s.arrays i).newAPPageIdxs s.file,
      p < limit s i ∨ numPageGroups n₀ ≤ p / pageGroupSize))

/-- The file holds three arrays on pages of their own, and no transaction is under way. -/
structure Holds (f : PagedFile) (pips aps xs : ListsMetadataArray → List ℕ) : Prop where
  layout : ∀ i, Layout f.pages i.headerPageIdx (pips i) (aps i) (xs i)
  lt_numPages : ∀ i, ∀ p ∈ i.headerPageIdx :: (pips i ++ aps i), p < f.numPages
  disjoint : ∀ i j p, p ∈ i.headerPageIdx :: (pips i ++ aps i) →
    p ∈ j.headerPageIdx :: (pips j ++ aps j) → i = j
  version : ∀ p, f.version p = none
  records : f.records = []

theorem Holds.load_eq_ok (h : Holds f pips aps xs) :
    load f = .ok ⟨fun i ↦ ofLayout f i.headerPageIdx (pips i) (aps i), f⟩ := by
  have hload := fun i ↦ InMemDiskArray.load_eq_ok (h.layout i) (h.lt_numPages i)
  simp only [load, hload, Lib.ok_bind, Lib.pure_eq_ok]
  congr
  funext i
  cases i <;> rfl

theorem Holds.shares (h : Holds f pips aps xs) :
    SharedArrays.Shares ⟨fun i ↦ ofLayout f i.headerPageIdx (pips i) (aps i), f⟩ f.numPages pips
      aps (fun _ ↦ []) xs xs where
  wellLogged := PagedFile.wellLogged_of_no_version h.version h.records
  represents i := represents_ofLayout (h.layout i) (h.lt_numPages i) fun p _ ↦ h.version p
  disjoint i j p hi hj := by
    simp only [SharedArrays.ownPages, oldPages, newPages, ofLayout, List.append_nil] at hi hj
    exact h.disjoint i j p hi hj
  versioned p hver := absurd (h.version p) hver
  added p hle hlt := absurd hlt (Nat.not_lt.mpr hle)

/-! ## When the rollback restores the file -/

theorem newAPPageIdxs_eq (h : s.Shares n₀ pips aps newAPs xs working) (i : ListsMetadataArray) :
    (s.arrays i).newAPPageIdxs s.file = newAPs i := by
  have hr := h.represents i
  have hnumAPs : (s.arrays i).header.numAPs = (aps i).length := by rw [hr.header_eq]
  simp only [newAPPageIdxs, hr.getNumAPs_write h.wellLogged, hnumAPs, List.length_append,
    Nat.add_sub_cancel_left]
  have hread : ∀ apIdx ∈ List.range' (aps i).length (newAPs i).length,
      ((s.arrays i).getAPPageIdx s.file apIdx .write).toOption =
        some ((newAPs i).getD (apIdx - (aps i).length) 0) := by
    intro apIdx hmem
    obtain ⟨hle, hlt⟩ := List.mem_range'_1.mp hmem
    have hlt' : apIdx - (aps i).length < (newAPs i).length := by omega
    rw [hr.getAPPageIdx_write h.wellLogged (p := (newAPs i)[apIdx - (aps i).length])]
    · simp [Except.toOption, hlt']
    · rw [List.getElem?_append_right hle, List.getElem?_eq_getElem hlt']
  rw [List.filterMap_congr hread, List.filterMap_eq_map']
  refine List.ext_getElem (by simp) fun k hk _ ↦ ?_
  simp only [List.length_map, List.length_range'] at hk
  simp [hk]

theorem limit_eq (h : s.Shares n₀ pips aps newAPs xs working) (i : ListsMetadataArray) :
    limit s i = SharedArrays.limit newAPs ListsMetadataArray.order s.file.numPages i := by
  rw [limit, funext (newAPPageIdxs_eq h)]

/-- The first page added by the transaction is an array page of one of the arrays, so the last
rollback that adds pages truncates the file to its old length. -/
theorem numPages_after_rollback (h : s.Shares n₀ pips aps newAPs xs working) :
    (ListsMetadataArray.order.flatMap newAPs).foldl min s.file.numPages = n₀ := by
  have hle := (h.represents .pageLists).le_numPages
  apply le_antisymm
  · rcases Nat.eq_or_lt_of_le hle with heq | hlt
    · exact (foldl_min_le _ _).trans heq.ge
    · obtain ⟨i, hi⟩ := h.added n₀ le_rfl hlt
      refine foldl_min_le_of_mem _ (List.mem_flatMap.mpr ⟨i, i.mem_order, ?_⟩)
      exact (h.represents i).mem_newAPs hi
  · refine le_foldl_min hle fun p hp ↦ ?_
    obtain ⟨i, -, hi⟩ := List.mem_flatMap.mp hp
    exact (h.represents i).le_new p (List.mem_append_right _ hi)

/-- After a rollback without fault exactly those array pages keep their versions that were gone at
the turn of their array and lie in a page group that is left. -/
theorem version_after_rollback (h : s.Shares n₀ pips aps newAPs xs working)
    (hpips : ∀ i, ∀ q ∈ (s.arrays i).pipPageIdxsOfInsertedPIPs, q < limit s i) :
    ∃ s', rollbackInMemoryIfNecessary s = .ok s' ∧ s'.file.pages = s.file.pages ∧
      s'.file.numPages = n₀ ∧ (∀ i, s'.arrays i = (s.arrays i).rolledBack) ∧
      ∀ p, s'.file.version p ≠ none ↔ p / pageGroupSize < numPageGroups n₀ ∧
        ∃ i, p ∈ newAPs i ∧ limit s i ≤ p := by
  have hlimit := limit_eq h
  obtain ⟨s', hrollback, hpages, hnum, harrays, hversion⟩ :=
    h.rollbackAll_eq_ok (t := s) ListsMetadataArray.nodup_order (h.partly _) (fun _ _ ↦ rfl)
       (fun i _ q hq ↦ by rw [← hlimit]; exact hpips i q hq)
  rw [numPages_after_rollback h] at hnum
  refine ⟨s', hrollback, hpages, hnum, fun i ↦ by rw [harrays, if_pos i.mem_order], fun p ↦ ?_⟩
  rw [hversion, hnum]
  simp only [← hlimit]
  constructor
  · intro hver
    split at hver
    next hkept =>
      obtain ⟨hgroup, hnot⟩ := hkept
      obtain ⟨i, hi⟩ := h.versioned p hver
      have hge : limit s i ≤ p := by
        by_contra hlt
        exact hnot ⟨i, i.mem_order, hi, Nat.lt_of_not_le hlt⟩
      refine ⟨hgroup, i, ?_, hge⟩
      -- Old pages are never truncated away, and no new PIP is.
      have hn₀ : n₀ ≤ limit s i := by
        rw [hlimit]
        exact SharedArrays.le_limit (h.represents i).le_numPages
          (fun j p hp ↦ (h.represents j).le_new p (List.mem_append_right _ hp)) i
      rcases List.mem_append.mp hi with hold | hnew
      · have := (h.represents i).old_lt p hold
        omega
      · rcases List.mem_append.mp hnew with hpip | hap
        · have := hpips i p hpip
          omega
        · exact hap
    next => exact absurd rfl hver
  · rintro ⟨hgroup, i, hi, hge⟩
    have hmem : p ∈ s.ownPages pips aps newAPs i :=
      List.mem_append_right _ (List.mem_append_right _ hi)
    rw [if_pos]
    · exact (h.represents i).new_version p (List.mem_append_right _ hi)
    · refine ⟨hgroup, ?_⟩
      rintro ⟨j, -, hj, hlt⟩
      obtain rfl := h.disjoint i j p hmem hj
      omega

theorem rollbackSafe_iff (h : s.Shares n₀ pips aps newAPs xs working) :
    RollbackSafe n₀ s ↔
      (∀ i, ∀ q ∈ (s.arrays i).pipPageIdxsOfInsertedPIPs, q < limit s i) ∧
      ∀ i, ∀ p ∈ newAPs i, p < limit s i ∨ numPageGroups n₀ ≤ p / pageGroupSize := by
  simp only [RollbackSafe, newAPPageIdxs_eq h, ListsMetadataArray.mem_order, forall_const]
  exact forall_and

/-- The rollback of any interleaving of calls restores the file exactly when no rollback truncates
away what another one still has to visit. -/
theorem rollback_restores_iff (h : Holds f pips aps xs)
    (ops : List (SharedOp ListsMetadataArray)) :
    ∃ s₀, load f = .ok s₀ ∧
      (RollbackRestores s₀ (ops.foldl SharedArrays.perform s₀) ↔
        RollbackSafe f.numPages (ops.foldl SharedArrays.perform s₀)) := by
  refine ⟨_, h.load_eq_ok, ?_⟩
  obtain ⟨⟨hpages, hheader⟩, newAPs, working, hs⟩ := h.shares.run ops
  generalize ops.foldl SharedArrays.perform _ = s at hpages hheader hs ⊢
  rw [rollbackSafe_iff hs]
  constructor
  · rintro ⟨s', hrollback, -, -, -, hnone⟩
    have hpips : ∀ i, ∀ q ∈ (s.arrays i).pipPageIdxsOfInsertedPIPs, q < limit s i := by
      intro i q hq
      by_contra hlost
      rw [limit_eq hs] at hlost
      exact hs.rollbackAll_ne_ok ListsMetadataArray.nodup_order (hs.partly _) (fun _ _ ↦ rfl)
        i.mem_order hq (Nat.le_of_not_lt hlost) s' hrollback
    refine ⟨hpips, fun i p hp ↦ ?_⟩
    obtain ⟨s'', hrollback', -, -, -, hversion⟩ := version_after_rollback hs hpips
    obtain rfl : s' = s'' := Except.ok.inj (hrollback.symm.trans hrollback')
    by_contra hnot
    simp only [not_or, not_lt, not_le] at hnot
    exact (hversion p).mpr ⟨hnot.2, i, hp, hnot.1⟩ (hnone p)
  · rintro ⟨hpips, haps⟩
    obtain ⟨s', hrollback, hpages', hnum, harrays, hversion⟩ := version_after_rollback hs hpips
    refine ⟨s', hrollback, ?_, hpages'.trans hpages, hnum, fun p ↦ ?_⟩
    · funext i
      have hheader' : (s.arrays i).headerPageIdx = i.headerPageIdx := hheader i
      have hpages'' : s.file.pages = f.pages := hpages
      rw [harrays, (hs.represents i).rolledBack_eq, hheader']
      simp [ofLayout, hpages'']
    · by_contra hver
      obtain ⟨hgroup, i, hi, hge⟩ := (hversion p).mp hver
      rcases haps i p hi with hlt | hle
      · omega
      · omega

/-- A file of three empty arrays. -/
def emptyListsFile : PagedFile where
  fileHandle := ⟨3, fun _ ↦ none⟩
  records := []
  walNumPages := 1
  pages _ := .header {}
  walPages _ := .array fun _ ↦ 0

theorem holds_emptyListsFile :
    Holds emptyListsFile (fun _ ↦ []) (fun _ ↦ []) (fun _ ↦ []) where
  layout i := by
    refine ⟨rfl, rfl, rfl, ?_, ?_, ?_, by simp⟩
    · intro k p hk
      simp at hk
    · intro i p hi
      simp at hi
    · intro j x hj
      simp at hj
  lt_numPages i := by cases i <;> decide
  disjoint i j p hi hj := by
    simp only [List.append_nil, List.mem_singleton] at hi hj
    subst hi
    cases i <;> cases j <;> simp_all [ListsMetadataArray.headerPageIdx]
  version _ := rfl
  records := rfl

/-- One element is appended to each of two arrays. -/
def appendToBoth (first second : ListsMetadataArray) : List (SharedOp ListsMetadataArray) :=
  [.pushBack first 7 fun _ ↦ .array fun _ ↦ 0, .pushBack second 8 fun _ ↦ .array fun _ ↦ 0]

/-- The array that is rolled back first has added its pages last. -/
theorem rollback_restores_iff_lastFirst :
    ∃ s₀, load emptyListsFile = .ok s₀ ∧ RollbackRestores s₀
      ((appendToBoth .pageLists .chunkToPageListHeadIdxMap).foldl SharedArrays.perform s₀) := by
  obtain ⟨s₀, hload, hiff⟩ := rollback_restores_iff holds_emptyListsFile
    (appendToBoth .pageLists .chunkToPageListHeadIdxMap)
  obtain rfl := Except.ok.inj (hload.symm.trans holds_emptyListsFile.load_eq_ok)
  exact ⟨_, hload, hiff.mpr (by decide)⟩

/-- The rollback of the first array truncates the PIP of the last one away. -/
theorem rollback_fails_firstFirst :
    ∃ s₀, load emptyListsFile = .ok s₀ ∧ ¬RollbackRestores s₀
      ((appendToBoth .chunkToPageListHeadIdxMap .pageLists).foldl SharedArrays.perform s₀) := by
  refine ⟨_, holds_emptyListsFile.load_eq_ok, ?_⟩
  rintro ⟨s', hrollback, -⟩
  have hfault : rollbackInMemoryIfNecessary
      ((appendToBoth .chunkToPageListHeadIdxMap .pageLists).foldl SharedArrays.perform
        ⟨fun i ↦ ofLayout emptyListsFile i.headerPageIdx [] [], emptyListsFile⟩) =
          .error .invalidAccess := rfl
  rw [hfault] at hrollback
  cases hrollback

end ListsMetadata

end Graphflow.Storage
