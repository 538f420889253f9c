import Graphflow.Lib.Transition
import Graphflow.Storage.VersionedFile

/-!
# Replaying page records over a versioned file handle

A transaction adds pages to a file and creates WAL versions of pages; every version comes with a
page record in the log.  The transaction ends with a replay of its page records in log order, which
clears the versions and, when rolling back, truncates the file at every inserted page.  This file
is about the handles that the replayer itself cleans up: those of columns, overflow files and base
lists.
-/

namespace Graphflow.Storage

/-- A `PageUpdateOrInsertRecord` of the file. -/
structure PageRecord where
  pageIdxInOriginalFile : ℕ
  pageIdxInWAL : ℕ
  isInsert : Bool
  deriving DecidableEq, Repr

/-- A file under transactional updates: the page records logged since the WAL was last cleared and
the number of pages of the WAL file. -/
structure LoggedFile where
  fileHandle : VersionedFileHandle
  records : List PageRecord
  walNumPages : ℕ

namespace LoggedFile

open VersionedFileHandle

variable {s s' : LoggedFile} {r : PageRecord} {p q n : ℕ} {fh fh' : VersionedFileHandle}
  {records : List PageRecord}

/-- `addNewPageToFileHandle` of `StorageStructure`. -/
def addNewPageToFileHandle (s : LoggedFile) : LoggedFile where
  fileHandle := s.fileHandle.addNewPage.setWALPageVersion s.fileHandle.numPages s.walNumPages
  records := s.records ++ [⟨s.fileHandle.numPages, s.walNumPages, true⟩]
  walNumPages := s.walNumPages + 1

/-- `createWALVersionIfNecessaryAndPinPage` of `StorageStructureUtils`; the page must exist. -/
def createWALVersionIfNecessary (s : LoggedFile) (pageIdx : ℕ) : Option LoggedFile :=
  if s.fileHandle.numPages ≤ pageIdx then none
  else if s.fileHandle.hasWALPageVersion pageIdx then some s
  else some {
    fileHandle := s.fileHandle.setWALPageVersion pageIdx s.walNumPages
    records := s.records ++ [⟨pageIdx, s.walNumPages, false⟩]
    walNumPages := s.walNumPages + 1 }

def truncateFileIfInsertion (fh : VersionedFileHandle) (r : PageRecord) : VersionedFileHandle :=
  if r.isInsert then fh.removePageIdxAndTruncateIfNecessary r.pageIdxInOriginalFile else fh

/-- The part of `checkpointOrRollbackVersionedFileHandleAndBufferManager` that concerns the file
handle. -/
def checkpointOrRollbackVersionedFileHandle (isCheckpoint : Bool) (fh : VersionedFileHandle)
    (r : PageRecord) : VersionedFileHandle :=
  let fh := fh.clearWALPageVersionIfNecessary r.pageIdxInOriginalFile
  if isCheckpoint then fh else truncateFileIfInsertion fh r

/-- Replaying all page records and clearing the WAL. -/
def replay (isCheckpoint : Bool) (s : LoggedFile) : LoggedFile where
  fileHandle := s.records.foldl (checkpointOrRollbackVersionedFileHandle isCheckpoint) s.fileHandle
  records := []
  walNumPages := 1

/-- What a transaction does to one file.  Base lists add pages to the handle first and create their
versions afterwards, so a page may be added without a record. -/
inductive Action
  | addNewPage
  | addNewPageToFileHandle
  | createWALVersion (pageIdx : ℕ)
  | replay (isCheckpoint : Bool)
  deriving DecidableEq, Repr

def step (s : LoggedFile) : Action → Option LoggedFile
  | .addNewPage => some { s with fileHandle := s.fileHandle.addNewPage }
  | .addNewPageToFileHandle => some s.addNewPageToFileHandle
  | .createWALVersion pageIdx => s.createWALVersionIfNecessary pageIdx
  | .replay isCheckpoint => some (s.replay isCheckpoint)

/-- A file that was just opened. -/
def opened (numPages : ℕ) : LoggedFile where
  fileHandle := ⟨numPages, fun _ ↦ none⟩
  records := []
  walNumPages := 1

/-- The page of the first insertion in the log. -/
def firstInsertedPage (records : List PageRecord) : Option ℕ :=
  (records.find? PageRecord.isInsert).map PageRecord.pageIdxInOriginalFile

/-- A rollback forgets all versions: behind the first inserted page, versions exist only in page
groups that the truncation to that page removes. -/
def TruncationRemovesVersions (s : LoggedFile) : Action → Prop
  | .replay false =>
      ∀ first, firstInsertedPage s.records = some first →
        ∀ p, first < p → s.fileHandle.pageVersions p ≠ none →
          numPageGroups first ≤ p / pageGroupSize
  | _ => True

/-- What holds between replays. -/
structure Inv (s : LoggedFile) : Prop where
  fresh : s.fileHandle.Fresh
  /-- Every version has a record. -/
  recorded : ∀ p, s.fileHandle.pageVersions p ≠ none →
    ∃ r ∈ s.records, r.pageIdxInOriginalFile = p
  /-- Every record is about a page of the file. -/
  inFile : ∀ r ∈ s.records, r.pageIdxInOriginalFile < s.fileHandle.numPages
  /-- Records that follow an insertion in the log are about other pages, and later insertions about
  later pages. -/
  inserts : s.records.Pairwise fun r r' ↦ r'.isInsert → r.pageIdxInOriginalFile <
    r'.pageIdxInOriginalFile

/-! ## Replaying one record -/

theorem checkpointOrRollback_eq_none {isCheckpoint : Bool} (hq : fh.pageVersions q = none) :
    (checkpointOrRollbackVersionedFileHandle isCheckpoint fh r).pageVersions q = none := by
  have hclear := clear_eq_none (p := r.pageIdxInOriginalFile) hq
  cases isCheckpoint with
  | true => exact hclear
  | false =>
      simp only [checkpointOrRollbackVersionedFileHandle, truncateFileIfInsertion]
      cases r.isInsert with
      | true => exact removePage_eq_none hclear
      | false => exact hclear

theorem checkpointOrRollback_clears {isCheckpoint : Bool}
    (hp : r.pageIdxInOriginalFile < fh.numPages) :
    (checkpointOrRollbackVersionedFileHandle isCheckpoint fh r).pageVersions
      r.pageIdxInOriginalFile = none := by
  have hclear : (fh.clearWALPageVersionIfNecessary r.pageIdxInOriginalFile).pageVersions
      r.pageIdxInOriginalFile = none := by
    simp [clear_pageVersions_of_lt hp]
  cases isCheckpoint with
  | true => exact hclear
  | false =>
      simp only [checkpointOrRollbackVersionedFileHandle, truncateFileIfInsertion]
      cases r.isInsert with
      | true => exact removePage_eq_none hclear
      | false => exact hclear

theorem checkpointOrRollback_numPages_of_not_insert {isCheckpoint : Bool}
    (hr : isCheckpoint = false → r.isInsert = false) :
    (checkpointOrRollbackVersionedFileHandle isCheckpoint fh r).numPages = fh.numPages := by
  cases isCheckpoint with
  | true => simp [checkpointOrRollbackVersionedFileHandle]
  | false => simp [checkpointOrRollbackVersionedFileHandle, truncateFileIfInsertion, hr rfl]

theorem checkpointOrRollback_numPages_le {isCheckpoint : Bool} :
    (checkpointOrRollbackVersionedFileHandle isCheckpoint fh r).numPages ≤ fh.numPages := by
  cases isCheckpoint with
  | true => simp [checkpointOrRollbackVersionedFileHandle]
  | false =>
      cases hins : r.isInsert with
      | true =>
          simp only [checkpointOrRollbackVersionedFileHandle, truncateFileIfInsertion, hins,
            Bool.false_eq_true, if_false, if_true, removePage_numPages, clear_numPages]
          exact Nat.min_le_left _ _
      | false => simp [checkpointOrRollbackVersionedFileHandle, truncateFileIfInsertion, hins]

theorem le_checkpointOrRollback_numPages {isCheckpoint : Bool} (hn : n ≤ fh.numPages)
    (hr : isCheckpoint = false → r.isInsert → n ≤ r.pageIdxInOriginalFile) :
    n ≤ (checkpointOrRollbackVersionedFileHandle isCheckpoint fh r).numPages := by
  cases isCheckpoint with
  | true => simpa [checkpointOrRollbackVersionedFileHandle] using hn
  | false =>
      cases hins : r.isInsert with
      | true =>
          simp only [checkpointOrRollbackVersionedFileHandle, truncateFileIfInsertion, hins,
            Bool.false_eq_true, if_false, if_true, removePage_numPages, clear_numPages]
          exact Nat.le_min.mpr ⟨hn, hr rfl hins⟩
      | false =>
          simpa [checkpointOrRollbackVersionedFileHandle, truncateFileIfInsertion, hins] using hn

/-! ## Replaying a list of records -/

theorem replay_eq_none {isCheckpoint : Bool} (hq : fh.pageVersions q = none) :
    (records.foldl (checkpointOrRollbackVersionedFileHandle isCheckpoint) fh).pageVersions q =
      none := by
  induction records generalizing fh with
  | nil => exact hq
  | cons r records ih => exact ih (checkpointOrRollback_eq_none hq)

/-- A page with a record loses its version, as long as no truncation goes below it. -/
theorem replay_clears {isCheckpoint : Bool} (hn : n ≤ fh.numPages)
    (hinserts : isCheckpoint = false →
      ∀ r ∈ records, r.isInsert → n ≤ r.pageIdxInOriginalFile)
    (hq : q < n) (hrecord : ∃ r ∈ records, r.pageIdxInOriginalFile = q) :
    (records.foldl (checkpointOrRollbackVersionedFileHandle isCheckpoint) fh).pageVersions q =
      none := by
  induction records generalizing fh with
  | nil => simp at hrecord
  | cons r records ih =>
      obtain ⟨r', hmem, hpage⟩ := hrecord
      rcases List.mem_cons.mp hmem with rfl | hmem
      · rw [List.foldl_cons]
        apply replay_eq_none
        rw [← hpage]
        exact checkpointOrRollback_clears (by omega)
      · refine ih ?_ ?_ ⟨r', hmem, hpage⟩
        · exact le_checkpointOrRollback_numPages hn fun hck ↦
            hinserts hck r List.mem_cons_self
        · exact fun hck r hr ↦ hinserts hck r (List.mem_cons_of_mem _ hr)

theorem replay_numPages_of_no_insert (hinserts : ∀ r ∈ records, r.isInsert = false) :
    (records.foldl (checkpointOrRollbackVersionedFileHandle false) fh).numPages =
      fh.numPages := by
  induction records generalizing fh with
  | nil => rfl
  | cons r records ih =>
      rw [List.foldl_cons, ih fun r hr ↦ hinserts r (List.mem_cons_of_mem _ hr)]
      exact checkpointOrRollback_numPages_of_not_insert fun _ ↦ hinserts r List.mem_cons_self

theorem le_replay_numPages {isCheckpoint : Bool} (hn : n ≤ fh.numPages)
    (hinserts : isCheckpoint = false →
      ∀ r ∈ records, r.isInsert → n ≤ r.pageIdxInOriginalFile) :
    n ≤ (records.foldl (checkpointOrRollbackVersionedFileHandle isCheckpoint) fh).numPages := by
  induction records generalizing fh with
  | nil => exact hn
  | cons r records ih =>
      refine ih (le_checkpointOrRollback_numPages hn fun hck ↦ hinserts hck r List.mem_cons_self) ?_
      exact fun hck r hr ↦ hinserts hck r (List.mem_cons_of_mem _ hr)

theorem replay_numPages_le {isCheckpoint : Bool} :
    (records.foldl (checkpointOrRollbackVersionedFileHandle isCheckpoint) fh).numPages ≤
      fh.numPages := by
  induction records generalizing fh with
  | nil => exact le_rfl
  | cons r records ih => exact ih.trans checkpointOrRollback_numPages_le

theorem rollback_numPages_le (hr : r ∈ records) (hinsert : r.isInsert) :
    (records.foldl (checkpointOrRollbackVersionedFileHandle false) fh).numPages ≤
      r.pageIdxInOriginalFile := by
  induction records generalizing fh with
  | nil => simp at hr
  | cons r' records ih =>
      rcases List.mem_cons.mp hr with rfl | hr
      · rw [List.foldl_cons]
        refine replay_numPages_le.trans ?_
        simp only [checkpointOrRollbackVersionedFileHandle, truncateFileIfInsertion, hinsert,
          Bool.false_eq_true, if_false, if_true, removePage_numPages]
        exact Nat.min_le_right _ _
      · exact ih hr

/-- Rolling back the first insertion forgets the inserted page and every group behind it. -/
theorem rollback_first_insert {pre post : List PageRecord}
    (hpre : ∀ r ∈ pre, r.isInsert = false) (hr : r.isInsert = true)
    (hpage : r.pageIdxInOriginalFile < fh.numPages)
    (hq : q = r.pageIdxInOriginalFile ∨
      numPageGroups r.pageIdxInOriginalFile ≤ q / pageGroupSize) :
    ((pre ++ r :: post).foldl (checkpointOrRollbackVersionedFileHandle false) fh).pageVersions q =
      none := by
  rw [List.foldl_append, List.foldl_cons]
  apply replay_eq_none
  have hnum : (pre.foldl (checkpointOrRollbackVersionedFileHandle false) fh).numPages =
      fh.numPages := replay_numPages_of_no_insert hpre
  rcases hq with rfl | hq
  · exact checkpointOrRollback_clears (by omega)
  · simp only [checkpointOrRollbackVersionedFileHandle, truncateFileIfInsertion, hr, if_true,
      Bool.false_eq_true, if_false]
    exact removePage_eq_none_of_group hq

/-! ## Replays forget every version -/

theorem Inv.checkpoint_forgets (hs : Inv s) (p : ℕ) :
    (s.replay true).fileHandle.pageVersions p = none := by
  cases hver : s.fileHandle.pageVersions p with
  | none => exact replay_eq_none hver
  | some w =>
      obtain ⟨r, hr, rfl⟩ := hs.recorded p (by simp [hver])
      exact replay_clears le_rfl (by simp) (hs.inFile r hr) ⟨r, hr, rfl⟩

theorem Inv.rollback_forgets (hs : Inv s) (hremoves : TruncationRemovesVersions s (.replay false))
    (p : ℕ) : (s.replay false).fileHandle.pageVersions p = none := by
  cases hver : s.fileHandle.pageVersions p with
  | none => exact replay_eq_none hver
  | some w =>
      obtain ⟨r, hr, hrp⟩ := hs.recorded p (by simp [hver])
      have hp : p < s.fileHandle.numPages := hrp ▸ hs.inFile r hr
      cases hfirst : s.records.find? PageRecord.isInsert with
      | none =>
          have hno : ∀ r ∈ s.records, ¬ r.isInsert := List.find?_eq_none.mp hfirst
          exact replay_clears le_rfl (fun _ r hr hins ↦ absurd hins (hno r hr)) hp ⟨r, hr, hrp⟩
      | some r₀ =>
          obtain ⟨hins, pre, post, hsplit, hpre⟩ := List.find?_eq_some_iff_append.mp hfirst
          have hr₀ : r₀ ∈ s.records := List.mem_of_find?_eq_some hfirst
          rcases Nat.lt_or_ge p r₀.pageIdxInOriginalFile with hlt | hge
          · refine replay_clears (hs.inFile r₀ hr₀).le ?_ hlt ⟨r, hr, hrp⟩
            intro _ r' hr' hins'
            have hpair := hs.inserts
            rw [hsplit] at hr' hpair
            rcases List.mem_append.mp hr' with hmem | hmem
            · have hno := hpre r' hmem
              simp [hins'] at hno
            · rcases List.mem_cons.mp hmem with rfl | hmem
              · exact le_rfl
              · have hcons := (List.pairwise_append.mp hpair).2.1
                exact ((List.pairwise_cons.mp hcons).1 r' hmem hins').le
          · have hgroup : p = r₀.pageIdxInOriginalFile ∨
                numPageGroups r₀.pageIdxInOriginalFile ≤ p / pageGroupSize := by
              rcases Nat.eq_or_lt_of_le hge with heq | hlt
              · exact .inl heq.symm
              · exact .inr (hremoves _ (by simp [firstInsertedPage, hfirst]) p hlt (by simp [hver]))
            rw [replay, hsplit]
            exact rollback_first_insert (by simpa using hpre) hins (hs.inFile r₀ hr₀) hgroup

/-! ## Runs -/

theorem inv_opened (numPages : ℕ) : Inv (opened numPages) := by
  constructor <;> simp [opened, Fresh]

theorem Inv.addNewPage (hs : Inv s) : Inv { s with fileHandle := s.fileHandle.addNewPage } := by
  refine ⟨hs.fresh.addNewPage, ?_, ?_, hs.inserts⟩
  · simpa [addNewPage_pageVersions hs.fresh] using hs.recorded
  · intro r hr
    have hlt := hs.inFile r hr
    simp only [addNewPage_numPages]
    omega

/-- Adding a record for a page without a version, together with the version. -/
theorem Inv.record (hs : Inv s) (hr : r.pageIdxInOriginalFile < s.fileHandle.numPages)
    (hinsert : r.isInsert → ∀ r' ∈ s.records, r'.pageIdxInOriginalFile < r.pageIdxInOriginalFile) :
    Inv {
      fileHandle := s.fileHandle.setWALPageVersion r.pageIdxInOriginalFile r.pageIdxInWAL
      records := s.records ++ [r]
      walNumPages := n } := by
  refine ⟨hs.fresh.setWALPageVersion hr, ?_, ?_, ?_⟩
  · intro p hp
    by_cases hpr : p = r.pageIdxInOriginalFile
    · exact ⟨r, by simp, hpr.symm⟩
    · simp only [setWALPageVersion_pageVersions, Function.update_of_ne hpr] at hp
      obtain ⟨r', hr', hpage⟩ := hs.recorded p hp
      exact ⟨r', List.mem_append_left _ hr', hpage⟩
  · intro r' hr'
    rcases List.mem_append.mp hr' with hmem | hmem
    · exact hs.inFile r' hmem
    · obtain rfl : r' = r := by simpa using hmem
      exact hr
  · refine List.pairwise_append.mpr ⟨hs.inserts, by simp, ?_⟩
    intro r' hr' r'' hmem hins
    obtain rfl : r'' = r := by simpa using hmem
    exact hinsert hins r' hr'

theorem Inv.of_forgets (hforgets : ∀ p, fh.pageVersions p = none) :
    Inv { fileHandle := fh, records := [], walNumPages := n } := by
  constructor
  · exact fun p _ ↦ hforgets p
  · exact fun p hp ↦ absurd (hforgets p) hp
  · simp
  · simp

theorem Inv.step {a : Action} (hs : Inv s) (hremoves : TruncationRemovesVersions s a)
    (hstep : step s a = some s') : Inv s' := by
  cases a with
  | addNewPage =>
      obtain rfl : _ = s' := by simpa [LoggedFile.step] using hstep
      exact hs.addNewPage
  | addNewPageToFileHandle =>
      obtain rfl : _ = s' := by simpa [LoggedFile.step] using hstep
      exact hs.addNewPage.record (r := ⟨s.fileHandle.numPages, s.walNumPages, true⟩) (by simp)
        fun _ r hr ↦ hs.inFile r hr
  | createWALVersion pageIdx =>
      simp only [LoggedFile.step, createWALVersionIfNecessary] at hstep
      split at hstep
      · simp at hstep
      next hpage =>
        split at hstep
        · obtain rfl : s = s' := by simpa using hstep
          exact hs
        · obtain rfl : _ = s' := by simpa using hstep
          exact hs.record (r := ⟨pageIdx, s.walNumPages, false⟩) (by simpa using hpage) (by simp)
  | replay isCheckpoint =>
      obtain rfl : _ = s' := by simpa [LoggedFile.step] using hstep
      cases isCheckpoint with
      | true => exact .of_forgets hs.checkpoint_forgets
      | false => exact .of_forgets (hs.rollback_forgets hremoves)

/-- In runs whose rollbacks forget all versions, a page index at or behind the end of the file
never has a version, and neither has a page that is newly added. -/
theorem newPage_has_no_version (numPages : ℕ) (actions : List Action)
    (hremoves : Lib.MeetsAlong step TruncationRemovesVersions (opened numPages) actions)
    (hrun : Lib.run step (opened numPages) actions = some s) :
    (∀ p, s.fileHandle.numPages ≤ p → s.fileHandle.hasWALPageVersion p = false) ∧
      s.fileHandle.addNewPage.hasWALPageVersion s.fileHandle.numPages = false := by
  have hs : Inv s :=
    Lib.run_invariant_of_meets (fun _ _ _ hs hremoves hstep ↦ hs.step hremoves hstep)
      (inv_opened numPages) hremoves hrun
  refine ⟨fun p hp ↦ ?_, ?_⟩
  · simp [hasWALPageVersion, hs.fresh p hp]
  · simp [hasWALPageVersion, addNewPage_pageVersions hs.fresh, hs.fresh _ le_rfl]

/-- Two insertions that end exactly at a group boundary are rolled back without a trace. -/
def insertTwoAtGroupEnd : List Action :=
  [.addNewPageToFileHandle, .createWALVersion 3, .addNewPageToFileHandle, .replay false]

theorem newPage_has_no_version_insertTwoAtGroupEnd :
    ∃ s, Lib.run step (opened 63) insertTwoAtGroupEnd = some s ∧ s.fileHandle.numPages = 63 ∧
      (∀ p, s.fileHandle.numPages ≤ p → s.fileHandle.hasWALPageVersion p = false) ∧
      s.fileHandle.addNewPage.hasWALPageVersion s.fileHandle.numPages = false := by
  refine ⟨_, rfl, rfl, newPage_has_no_version 63 insertTwoAtGroupEnd ?_ rfl⟩
  refine Lib.meetsAlong_cons_of_eq_some trivial rfl <| Lib.meetsAlong_cons_of_eq_some trivial rfl <|
    Lib.meetsAlong_cons_of_eq_some trivial rfl <| Lib.meetsAlong_cons_of_eq_some ?_ rfl trivial
  intro first hfirst p hp _
  obtain rfl : 63 = first := Option.some.inj hfirst
  unfold numPageGroups pageGroupSize
  omega

/-- Pages 5 and 6 are inserted by a transaction that rolls back.  The version of page 6 survives,
and a later transaction is handed page 6 with it. -/
theorem staleVersion_after_rollback :
    ¬ ∀ numPages actions s, Lib.run step (opened numPages) actions = some s →
      (∀ p, s.fileHandle.numPages ≤ p → s.fileHandle.hasWALPageVersion p = false) ∧
        s.fileHandle.addNewPage.hasWALPageVersion s.fileHandle.numPages = false := by
  intro h
  have hstale := h 5 [.addNewPageToFileHandle, .addNewPageToFileHandle, .replay false,
    .addNewPage] _ rfl
  exact absurd hstale.2 (by decide)

end LoggedFile

end Graphflow.Storage
