import Graphflow.Lib.Except
import Graphflow.Storage.PageReplay

/-!
# Pages with WAL versions

The contents of a file and of the WAL pages that hold newer versions of its pages, with the
operations of `storage_structure_utils.cpp`.  `walPages` is what one finds on the WAL pages, whether
they are in frames or not; here nothing that is written to a frame is lost.  A write transaction
sees the WAL version of a page where there is one and the original page elsewhere; this is the
`view` of the file.
-/

namespace Graphflow.Storage

/-- How a call can fail: it throws a `RuntimeException`, or it dereferences a page lock, a page
version or a vector entry that does not exist. -/
inductive Fault
  | exception (message : String)
  | invalidAccess
  deriving DecidableEq, Repr

/-- What `%d` prints: the low 32 bits of the argument, with a sign. -/
def formatD (n : ℕ) : String := toString (BitVec.ofNat 32 n).toInt

structure DiskArrayHeader where
  firstPIPPageIdx : Option ℕ := none
  numElements : ℕ := 0
  numAPs : ℕ := 0
  deriving DecidableEq, Repr

/-- A page of page indices.  `NULL_PAGE_IDX` is `none`. -/
structure PIP where
  nextPipPageIdx : Option ℕ := none
  pageIdxs : ℕ → ℕ := fun _ ↦ 0

/-- The contents of a page, by what was last written to it. -/
inductive Page
  | header (h : DiskArrayHeader)
  | pip (contents : PIP)
  | array (elements : ℕ → ℕ)

namespace Page

/-- Reading a page as something else than what was written to it gives an arbitrary value. -/
def asHeader : Page → DiskArrayHeader
  | .header h => h
  | _ => {}

def asPIP : Page → PIP
  | .pip contents => contents
  | _ => {}

def asArray : Page → ℕ → ℕ
  | .array elements => elements
  | _ => fun _ ↦ 0

def writeElement (page : Page) (offset val : ℕ) : Page :=
  .array (Function.update page.asArray offset val)

def setNextPipPageIdx (page : Page) (nextPipPageIdx : Option ℕ) : Page :=
  .pip { page.asPIP with nextPipPageIdx := nextPipPageIdx }

def setPageIdx (page : Page) (offset pageIdx : ℕ) : Page :=
  .pip { page.asPIP with pageIdxs := Function.update page.asPIP.pageIdxs offset pageIdx }

end Page

/-- A file under transactional updates together with the contents of its pages and of the pages of
the WAL file. -/
structure PagedFile extends LoggedFile where
  pages : ℕ → Page
  walPages : ℕ → Page

namespace PagedFile

open VersionedFileHandle

variable {f f' : PagedFile} {p q w : ℕ} {page : Page}

def numPages (f : PagedFile) : ℕ := f.fileHandle.numPages

def version (f : PagedFile) (p : ℕ) : Option ℕ := f.fileHandle.pageVersions p

/-- What the write transaction sees. -/
def view (f : PagedFile) (p : ℕ) : Page :=
  match f.version p with
  | some w => f.walPages w
  | none => f.pages p

def addNewPage (f : PagedFile) : PagedFile := { f with fileHandle := f.fileHandle.addNewPage }

/-- The index of the WAL page of the version is returned in place of the pinned frame.  A page that
is being inserted is not read from the file, so its version starts with the arbitrary contents
`junk` of the frame. -/
def createWALVersionIfNecessaryAndPinPage (f : PagedFile) (originalPageIdx : ℕ)
    (insertingNewPage : Bool) (junk : Page) : Except Fault (PagedFile × ℕ) :=
  if f.numPages ≤ originalPageIdx then .error .invalidAccess
  else match f.version originalPageIdx with
    | some pageIdxInWAL => .ok (f, pageIdxInWAL)
    | none =>
        .ok ({
          fileHandle := f.fileHandle.setWALPageVersion originalPageIdx f.walNumPages
          records := f.records ++ [⟨originalPageIdx, f.walNumPages, false⟩]
          walNumPages := f.walNumPages + 1
          pages := f.pages
          walPages := Function.update f.walPages f.walNumPages
            (if insertingNewPage then junk else f.pages originalPageIdx) }, f.walNumPages)

def writeWALPage (f : PagedFile) (pageIdxInWAL : ℕ) (page : Page) : PagedFile :=
  { f with walPages := Function.update f.walPages pageIdxInWAL page }

def updatePage (f : PagedFile) (originalPageIdx : ℕ) (isInsertingNewPage : Bool) (junk : Page)
    (updateOp : Page → Page) : Except Fault PagedFile := do
  let (f, pageIdxInWAL) ←
    f.createWALVersionIfNecessaryAndPinPage originalPageIdx isInsertingNewPage junk
  return f.writeWALPage pageIdxInWAL (updateOp (f.walPages pageIdxInWAL))

def readWALVersionOfPage (f : PagedFile) (originalPageIdx : ℕ) : Except Fault Page :=
  if f.numPages ≤ originalPageIdx then .error .invalidAccess
  else match f.version originalPageIdx with
    | some pageIdxInWAL => .ok (f.walPages pageIdxInWAL)
    | none => .error .invalidAccess

/-- `clearWALPageVersionAndRemovePageFromFrameIfNecessary` of `BaseDiskArray`. -/
def clearWALPageVersion (f : PagedFile) (pageIdx : ℕ) : PagedFile :=
  { f with fileHandle := f.fileHandle.clearWALPageVersionIfNecessary pageIdx }

def removePageIdxAndTruncateIfNecessary (f : PagedFile) (pageIdx : ℕ) : PagedFile :=
  { f with fileHandle := f.fileHandle.removePageIdxAndTruncateIfNecessary pageIdx }

/-- The replayer copies the logged WAL pages over their original pages. -/
def replayPages (f : PagedFile) : PagedFile :=
  { f with
    pages := f.records.foldl
      (fun pages r ↦ Function.update pages r.pageIdxInOriginalFile (f.walPages r.pageIdxInWAL))
      f.pages }

def clearWAL (f : PagedFile) : PagedFile := { f with records := [], walNumPages := 1 }

/-- The bookkeeping that holds whenever no array is being checkpointed or rolled back: versions
are only on existing pages, lie on distinct WAL pages, and are exactly what the log records. -/
structure WellLogged (f : PagedFile) : Prop where
  fresh : f.fileHandle.Fresh
  version_lt : ∀ p w, f.version p = some w → w < f.walNumPages
  version_inj : ∀ p q w, f.version p = some w → f.version q = some w → p = q
  recorded : ∀ p w, f.version p = some w → ∃ r ∈ f.records, r.pageIdxInOriginalFile = p
  record_version : ∀ r ∈ f.records, f.version r.pageIdxInOriginalFile = some r.pageIdxInWAL

/-- `f'` is `f` after the write transaction has written `page` to page `p`. -/
structure Writes (f f' : PagedFile) (p : ℕ) (page : Page) : Prop where
  wellLogged : f'.WellLogged
  view_eq : f'.view = Function.update f.view p page
  pages_eq : f'.pages = f.pages
  numPages_eq : f'.numPages = f.numPages
  version_self : f'.version p ≠ none
  version_of_ne : ∀ q, q ≠ p → f'.version q = f.version q

/-! ## Reading and adding pages -/

theorem view_of_version (hw : f.version p = some w) : f.view p = f.walPages w := by
  simp [view, hw]

theorem view_of_version_none (hp : f.version p = none) : f.view p = f.pages p := by
  simp [view, hp]

theorem WellLogged.lt_numPages (hf : f.WellLogged) (hp : f.version p ≠ none) :
    p < f.numPages := by
  by_contra hle
  exact hp (hf.fresh p (Nat.le_of_not_lt hle))

theorem readWALVersionOfPage_eq (hf : f.WellLogged) (hp : f.version p ≠ none) :
    f.readWALVersionOfPage p = .ok (f.view p) := by
  have hlt := hf.lt_numPages hp
  obtain ⟨w, hw⟩ := Option.ne_none_iff_exists'.mp hp
  simp [readWALVersionOfPage, Nat.not_le.mpr hlt, hw, view_of_version hw]

@[simp] theorem addNewPage_numPages : f.addNewPage.numPages = f.numPages + 1 := rfl

@[simp] theorem addNewPage_pages : f.addNewPage.pages = f.pages := rfl

theorem addNewPage_version (hf : f.WellLogged) : f.addNewPage.version = f.version :=
  addNewPage_pageVersions hf.fresh

theorem addNewPage_view (hf : f.WellLogged) : f.addNewPage.view = f.view := by
  funext p
  simp only [view, addNewPage_version hf]
  rfl

@[simp] theorem addNewPage_walNumPages : f.addNewPage.walNumPages = f.walNumPages := rfl

@[simp] theorem addNewPage_records : f.addNewPage.records = f.records := rfl

theorem WellLogged.addNewPage (hf : f.WellLogged) : f.addNewPage.WellLogged := by
  have hversion := addNewPage_version hf
  refine ⟨hf.fresh.addNewPage, ?_, ?_, ?_, ?_⟩
  · simpa [hversion] using hf.version_lt
  · simpa [hversion] using hf.version_inj
  · simpa [hversion] using hf.recorded
  · simpa [hversion] using hf.record_version

/-! ## Writing pages -/

@[simp] theorem writeWALPage_version : (f.writeWALPage w page).version = f.version := rfl

@[simp] theorem writeWALPage_pages : (f.writeWALPage w page).pages = f.pages := rfl

@[simp] theorem writeWALPage_walPages :
    (f.writeWALPage w page).walPages = Function.update f.walPages w page := rfl

theorem writes_writeWALPage (hf : f.WellLogged) (hw : f.version p = some w) :
    Writes f (f.writeWALPage w page) p page where
  wellLogged := ⟨hf.fresh, hf.version_lt, hf.version_inj, hf.recorded, hf.record_version⟩
  view_eq := by
    funext q
    by_cases hqp : q = p
    · subst hqp
      simp [view, hw]
    · rw [Function.update_of_ne hqp]
      cases hq : f.version q with
      | none => simp [view, hq]
      | some w' =>
          have hww : w' ≠ w := by
            rintro rfl
            exact hqp (hf.version_inj q p w' hq hw)
          simp [view, hq, hww]
  pages_eq := rfl
  numPages_eq := rfl
  version_self := by simp [hw]
  version_of_ne := fun _ _ ↦ rfl

/-- The handle after logging a first version of page `p`. -/
theorem WellLogged.createVersion (hf : f.WellLogged) (hp : p < f.numPages)
    (hnone : f.version p = none) :
    WellLogged {
      fileHandle := f.fileHandle.setWALPageVersion p f.walNumPages
      records := f.records ++ [⟨p, f.walNumPages, false⟩]
      walNumPages := f.walNumPages + 1
      pages := f.pages
      walPages := Function.update f.walPages f.walNumPages page } := by
  have hversion : ∀ q v, Function.update f.version p (some f.walNumPages) q = some v →
      q = p ∧ v = f.walNumPages ∨ q ≠ p ∧ f.version q = some v := by
    intro q v hv
    by_cases hqp : q = p
    · subst hqp
      exact .inl ⟨rfl, by simpa using hv.symm⟩
    · rw [Function.update_of_ne hqp] at hv
      exact .inr ⟨hqp, hv⟩
  refine ⟨hf.fresh.setWALPageVersion hp, ?_, ?_, ?_, ?_⟩
  · intro q v hv
    rcases hversion q v hv with ⟨-, rfl⟩ | ⟨-, hv⟩
    · exact Nat.lt_succ_self _
    · exact Nat.lt_succ_of_lt (hf.version_lt q v hv)
  · intro q q' v hq hq'
    rcases hversion q v hq with ⟨rfl, rfl⟩ | ⟨-, hv⟩ <;>
      rcases hversion q' _ hq' with ⟨rfl, hv'⟩ | ⟨-, hv'⟩
    · rfl
    · exact absurd (hf.version_lt q' _ hv') (Nat.lt_irrefl _)
    · exact absurd (hf.version_lt q _ hv) (by simp [hv'])
    · exact hf.version_inj q q' v hv hv'
  · intro q v hv
    rcases hversion q v hv with ⟨rfl, -⟩ | ⟨-, hv⟩
    · exact ⟨_, List.mem_append_right _ (List.mem_singleton.mpr rfl), rfl⟩
    · obtain ⟨r, hr, hrq⟩ := hf.recorded q v hv
      exact ⟨r, List.mem_append_left _ hr, hrq⟩
  · intro r hr
    rcases List.mem_append.mp hr with hr | hr
    · have hv := hf.record_version r hr
      have hne : r.pageIdxInOriginalFile ≠ p := by
        rintro heq
        rw [heq, hnone] at hv
        simp at hv
      simpa [version, Function.update_of_ne hne] using hv
    · obtain rfl := List.mem_singleton.mp hr
      simp [version]

/-- Creating a version of an existing page. -/
theorem createWALVersion_eq_ok (hf : f.WellLogged) (hp : p < f.numPages) (insertingNewPage : Bool)
    (junk : Page) :
    ∃ f' w, f.createWALVersionIfNecessaryAndPinPage p insertingNewPage junk = .ok (f', w) ∧
      f'.version p = some w ∧
      Writes f f' p (if f.version p = none ∧ insertingNewPage then junk else f.view p) := by
  cases hver : f.version p with
  | some w =>
      refine ⟨f, w, by simp [createWALVersionIfNecessaryAndPinPage, Nat.not_le.mpr hp, hver], hver,
        hf, ?_, rfl, rfl, by simp [hver], fun _ _ ↦ rfl⟩
      simp
  | none =>
      refine ⟨_, f.walNumPages,
        by simp [createWALVersionIfNecessaryAndPinPage, Nat.not_le.mpr hp, hver]; rfl, ?_,
        hf.createVersion hp hver, ?_, rfl, rfl, ?_, ?_⟩
      · simp [version]
      · funext q
        by_cases hqp : q = p
        · subst hqp
          simp [view, version] at hver ⊢
          simp [hver]
        · rw [Function.update_of_ne hqp]
          cases hq : f.version q with
          | none =>
              simp only [view, version] at hq ⊢
              simp [Function.update_of_ne hqp, hq]
          | some v =>
              have hlt := hf.version_lt q v hq
              have hne : v ≠ f.walNumPages := by omega
              simp only [view, version] at hq ⊢
              simp [Function.update_of_ne hqp, hq, hne]
      · simp [version]
      · intro q hqp
        simp [version, Function.update_of_ne hqp]

theorem Writes.version_ne_none_iff (h : Writes f f' p page) :
    f'.version q ≠ none ↔ f.version q ≠ none ∨ q = p := by
  by_cases hqp : q = p
  · subst hqp
    simp [h.version_self]
  · simp [h.version_of_ne q hqp, hqp]

theorem Writes.trans {f'' : PagedFile} {page' : Page} (h : Writes f f' p page)
    (h' : Writes f' f'' p page') : Writes f f'' p page' where
  wellLogged := h'.wellLogged
  view_eq := by rw [h'.view_eq, h.view_eq, Function.update_idem]
  pages_eq := h'.pages_eq.trans h.pages_eq
  numPages_eq := h'.numPages_eq.trans h.numPages_eq
  version_self := h'.version_self
  version_of_ne := fun q hq ↦ (h'.version_of_ne q hq).trans (h.version_of_ne q hq)

/-- `updatePage` on an existing page. -/
theorem updatePage_eq_ok (hf : f.WellLogged) (hp : p < f.numPages) (isInsertingNewPage : Bool)
    (junk : Page) (updateOp : Page → Page) :
    ∃ f', f.updatePage p isInsertingNewPage junk updateOp = .ok f' ∧
      Writes f f' p
        (updateOp (if f.version p = none ∧ isInsertingNewPage then junk else f.view p)) := by
  obtain ⟨f₁, w, hcreate, hw, hwrites⟩ := createWALVersion_eq_ok hf hp isInsertingNewPage junk
  refine ⟨f₁.writeWALPage w (updateOp (f₁.walPages w)), by simp [updatePage, hcreate], ?_⟩
  have hpage : f₁.walPages w =
      if f.version p = none ∧ isInsertingNewPage then junk else f.view p := by
    rw [← view_of_version hw, hwrites.view_eq, Function.update_self]
  rw [hpage]
  exact hwrites.trans (writes_writeWALPage hwrites.wellLogged hw)

end PagedFile

end Graphflow.Storage
