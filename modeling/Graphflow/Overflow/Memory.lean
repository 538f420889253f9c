import Graphflow.Overflow.File

/-!
# Overflow files as one memory

The write transaction sees the pages of an overflow file, in their newest versions, as one memory
with an address for every byte.  What is appended goes to addresses behind the cursor.
-/

namespace Graphflow

open Wal Storage Lib

def OverflowPtr.address (ptr : OverflowPtr) : ℕ := ptr.pageIdx * defaultPageSize + ptr.pagePos

/-- Pages one after the other. -/
def pagesMemory (pages : ℕ → BytePage) : Memory := fun a ↦
  pages (a / defaultPageSize) (a % defaultPageSize)

/-- Reading on a page is reading in memory. -/
theorem readAt_page (pages : ℕ → BytePage) {ptr : OverflowPtr} {n : ℕ}
    (h : ptr.pagePos + n ≤ defaultPageSize) :
    readAt (pages ptr.pageIdx) ptr.pagePos n = readAt (pagesMemory pages) ptr.address n := by
  apply List.map_congr_left
  intro i hi
  rw [List.mem_range] at hi
  have hdiv : (ptr.address + i) / defaultPageSize = ptr.pageIdx := by
    simp only [OverflowPtr.address, defaultPageSize] at h ⊢
    omega
  have hmod : (ptr.address + i) % defaultPageSize = ptr.pagePos + i := by
    simp only [OverflowPtr.address, defaultPageSize] at h ⊢
    omega
  simp only [pagesMemory, hdiv, hmod]

/-- Writing on a page is writing in memory. -/
theorem pagesMemory_update (pages : ℕ → BytePage) (ptr : OverflowPtr) {bytes : List UInt8}
    (h : ptr.pagePos + bytes.length ≤ defaultPageSize) :
    pagesMemory (Function.update pages ptr.pageIdx
      (overwrite (pages ptr.pageIdx) ptr.pagePos bytes)) =
      overwrite (pagesMemory pages) ptr.address bytes := by
  funext a
  by_cases ha : a / defaultPageSize = ptr.pageIdx
  · have hsum : ptr.pageIdx * defaultPageSize + a % defaultPageSize = a := by
      rw [← ha]
      exact Nat.div_add_mod' a _
    have hle : ptr.pagePos ≤ a % defaultPageSize ↔ ptr.address ≤ a := by
      rw [OverflowPtr.address]
      omega
    have hsub : a % defaultPageSize - ptr.pagePos = a - ptr.address := by
      rw [OverflowPtr.address]
      omega
    simp only [pagesMemory, ha, Function.update_self, overwrite, hle, hsub]
  · have houtside : a < ptr.address ∨ ptr.address + bytes.length ≤ a := by
      simp only [OverflowPtr.address, defaultPageSize] at ha h ⊢
      omega
    rw [overwrite_of_outside houtside, pagesMemory, pagesMemory, Function.update_of_ne ha]

/-- The part of the state that decides where something is appended. -/
structure Cursor where
  numPages : ℕ
  pos : ℕ

namespace Cursor

variable {c : Cursor} {n : ℕ}

def NeedsPage (c : Cursor) (n : ℕ) : Prop :=
  c.pos % defaultPageSize = 0 ∨ c.pos % defaultPageSize + n - 1 > defaultPageSize

instance (c : Cursor) (n : ℕ) : Decidable (c.NeedsPage n) := inferInstanceAs (Decidable (_ ∨ _))

/-- Where the next bytes are copied to. -/
def start (c : Cursor) (n : ℕ) : ℕ := if c.NeedsPage n then c.numPages * defaultPageSize else c.pos

def advance (c : Cursor) (n : ℕ) : Cursor where
  numPages := if c.NeedsPage n then c.numPages + 1 else c.numPages
  pos := c.start n + n

theorem numPages_le_advance (c : Cursor) (n : ℕ) : c.numPages ≤ (c.advance n).numPages := by
  simp only [advance]
  split_ifs
  · exact Nat.le_succ _
  · exact Nat.le_refl _

/-- The bytes do not end one byte behind the end of the page. -/
def Fits (c : Cursor) (n : ℕ) : Prop :=
  c.pos % defaultPageSize = 0 ∨ c.pos % defaultPageSize + n ≠ defaultPageSize + 1

instance (c : Cursor) (n : ℕ) : Decidable (c.Fits n) := inferInstanceAs (Decidable (_ ∨ _))

/-- The cursor is at most at the end of the last page. -/
def InFile (c : Cursor) : Prop := c.pos ≤ c.numPages * defaultPageSize

theorem InFile.le_start (h : c.InFile) (n : ℕ) : c.pos ≤ c.start n := by
  rw [start]
  split_ifs
  · exact h
  · exact Nat.le_refl _

theorem start_lt (h : c.InFile) : c.start n / defaultPageSize < (c.advance n).numPages := by
  rw [InFile] at h
  simp only [start, advance]
  split_ifs with hneeds
  · rw [Nat.mul_div_cancel _ (by decide)]
    exact Nat.lt_succ_self _
  · rw [NeedsPage, not_or] at hneeds
    simp only [defaultPageSize] at h hneeds ⊢
    omega

theorem start_add_le (hn : n ≤ defaultPageSize) (hfits : c.Fits n) :
    c.start n % defaultPageSize + n ≤ defaultPageSize := by
  rw [start]
  split_ifs with hneeds
  · rw [Nat.mul_mod_left, Nat.zero_add]
    exact hn
  · rw [NeedsPage, not_or] at hneeds
    rw [Fits] at hfits
    omega

end Cursor

namespace OverflowFile

variable {f f' f'' : OverflowFile} {p q w : ℕ} {page : BytePage} {bytes : List UInt8}
  {ptr dst : OverflowPtr}

def cursor (f : OverflowFile) : Cursor := ⟨f.numPages, f.nextBytePosToWriteTo⟩

def version (f : OverflowFile) (p : ℕ) : Option ℕ := f.file.fileHandle.pageVersions p

/-- The newest version of a page. -/
def pageView (f : OverflowFile) (p : ℕ) : BytePage :=
  match f.version p with
  | some w => f.wal.pages w
  | none => f.file.pages p

def memory (f : OverflowFile) : Memory := fun a ↦
  f.pageView (a / defaultPageSize) (a % defaultPageSize)

/-- The versions of the pages are in the WAL, each on a page of its own, and the cursor is in the
file. -/
structure WellFormed (f : OverflowFile) : Prop where
  version_lt : ∀ p w, p < f.numPages → f.version p = some w → w < f.wal.numPages
  version_inj : ∀ p q w, p < f.numPages → q < f.numPages → f.version p = some w →
    f.version q = some w → p = q
  cursor : f.cursor.InFile

theorem writeView_eq (hp : p < f.numPages) : f.writeView p = some (f.pageView p) := by
  have hp' : p < f.file.numPages := hp
  simp only [writeView, StructureFile.writeView, hp', if_true, pageView, version]
  cases f.file.fileHandle.pageVersions p <;> rfl

/-! ## Pages -/

/-- A page that has a version in the WAL keeps it. -/
def KeepsVersions (f f' : OverflowFile) : Prop :=
  ∀ p < f.numPages, ∀ w, f.version p = some w → f'.version p = some w

theorem KeepsVersions.refl (f : OverflowFile) : KeepsVersions f f := fun _ _ _ hw ↦ hw

theorem KeepsVersions.trans (h : KeepsVersions f f') (hle : f.numPages ≤ f'.numPages)
    (h' : KeepsVersions f' f'') : KeepsVersions f f'' :=
  fun p hp w hw ↦ h' p (hp.trans_le hle) w (h p hp w hw)

/-- A page has been given new contents. -/
structure Updated (f f' : OverflowFile) (p : ℕ) (page : BytePage) : Prop where
  wellFormed : f'.WellFormed
  numPages : f'.numPages = f.numPages
  view_self : f'.pageView p = page
  view_of_ne : ∀ q < f.numPages, q ≠ p → f'.pageView q = f.pageView q
  versions : KeepsVersions f f'
  exists_version : ∃ w, f'.version p = some w
  position : f'.position = f.position
  regions : f'.regions = f.regions
  pages : f'.file.pages = f.file.pages
  id : f'.id = f.id

/-- A version is written again. -/
def setVersion (f : OverflowFile) (w : ℕ) (page : BytePage) (access : FrameAccess BytePage) :
    OverflowFile :=
  { f with
    wal := { f.wal with pages := Function.update f.wal.pages w page }
    accesses := f.accesses ++ [access] }

/-- A version is made of a page that has none. -/
def newVersion (f : OverflowFile) (p : ℕ) (page : BytePage) (access : FrameAccess BytePage) :
    OverflowFile :=
  { f with
    file := { f.file with fileHandle := f.file.fileHandle.setWALPageVersion p f.wal.numPages }
    wal := { f.wal with
      records := f.wal.records ++ [.pageUpdateOrInsert f.id p f.wal.numPages false]
      numPages := f.wal.numPages + 1
      pages := Function.update f.wal.pages f.wal.numPages page }
    accesses := f.accesses ++ [access] }

theorem updated_setVersion (hf : f.WellFormed) (hp : p < f.numPages) (hw : f.version p = some w)
    (page : BytePage) (access : FrameAccess BytePage) :
    Updated f (f.setVersion w page access) p page where
  wellFormed := ⟨hf.version_lt, hf.version_inj, hf.cursor⟩
  numPages := rfl
  view_self := by
    have hw' : (f.setVersion w page access).version p = some w := hw
    simp only [pageView, hw']
    exact Function.update_self _ _ _
  view_of_ne := by
    intro q hq hqp
    have hversion : (f.setVersion w page access).version q = f.version q := rfl
    simp only [pageView, hversion]
    cases hq' : f.version q with
    | none => rfl
    | some w' =>
        have hne : w' ≠ w := by
          rintro rfl
          exact hqp (hf.version_inj q p w' hq hp hq' hw)
        exact Function.update_of_ne hne _ _
  versions := KeepsVersions.refl f
  exists_version := ⟨w, hw⟩
  position := rfl
  regions := rfl
  pages := rfl
  id := rfl

theorem version_newVersion (f : OverflowFile) (p : ℕ) (page : BytePage)
    (access : FrameAccess BytePage) :
    (f.newVersion p page access).version = Function.update f.version p (some f.wal.numPages) := rfl

theorem updated_newVersion (hf : f.WellFormed) (hnone : f.version p = none) (page : BytePage)
    (access : FrameAccess BytePage) : Updated f (f.newVersion p page access) p page where
  wellFormed := by
    refine ⟨?_, ?_, hf.cursor⟩
    · intro q w hq hw
      rw [version_newVersion] at hw
      show w < f.wal.numPages + 1
      by_cases hqp : q = p
      · rw [hqp, Function.update_self, Option.some.injEq] at hw
        omega
      · rw [Function.update_of_ne hqp] at hw
        exact Nat.lt_succ_of_lt (hf.version_lt q w hq hw)
    · intro q q' w hq hq' hw hw'
      rw [version_newVersion] at hw hw'
      by_cases hqp : q = p <;> by_cases hqp' : q' = p
      · rw [hqp, hqp']
      · rw [hqp, Function.update_self, Option.some.injEq] at hw
        rw [Function.update_of_ne hqp'] at hw'
        exact absurd (hf.version_lt q' w hq' hw') (by omega)
      · rw [hqp', Function.update_self, Option.some.injEq] at hw'
        rw [Function.update_of_ne hqp] at hw
        exact absurd (hf.version_lt q w hq hw) (by omega)
      · rw [Function.update_of_ne hqp] at hw
        rw [Function.update_of_ne hqp'] at hw'
        exact hf.version_inj q q' w hq hq' hw hw'
  numPages := rfl
  view_self := by
    simp only [pageView, version_newVersion, Function.update_self]
    exact Function.update_self _ _ _
  view_of_ne := by
    intro q hq hqp
    simp only [pageView, version_newVersion, Function.update_of_ne hqp]
    cases hq' : f.version q with
    | none => rfl
    | some w => exact Function.update_of_ne (hf.version_lt q w hq hq').ne _ _
  versions := by
    intro q _ w hw
    have hqp : q ≠ p := by
      rintro rfl
      exact Option.some_ne_none w (hw.symm.trans hnone)
    rw [version_newVersion, Function.update_of_ne hqp, hw]
  exists_version := ⟨f.wal.numPages, Function.update_self _ _ _⟩
  position := rfl
  regions := rfl
  pages := rfl
  id := rfl

theorem exists_updatePage (hf : f.WellFormed) (hp : p < f.numPages)
    (updateOp : BytePage → BytePage) :
    ∃ f', f.updatePage p updateOp = .ok f' ∧ Updated f f' p (updateOp (f.pageView p)) := by
  have hne : p ≠ f.numPages := Nat.ne_of_lt hp
  have hle : ¬ f.file.numPages ≤ p := Nat.not_le.mpr hp
  cases hversion : f.file.fileHandle.pageVersions p with
  | some w =>
      have hview : f.pageView p = f.wal.pages w := by simp only [pageView, version, hversion]
      refine ⟨_, ?_, updated_setVersion hf hp hversion (updateOp (f.pageView p))
        (f.frameAccess p updateOp)⟩
      simp only [updatePage, hne, if_false, StructureFile.updatePage, hle, hversion, Lib.ok_bind,
        Lib.pure_eq_ok, setVersion, hview]
  | none =>
      have hview : f.pageView p = f.file.pages p := by simp only [pageView, version, hversion]
      refine ⟨_, ?_, updated_newVersion hf hversion (updateOp (f.pageView p))
        (f.frameAccess p updateOp)⟩
      simp only [updatePage, hne, if_false, StructureFile.updatePage, hle, hversion, Lib.ok_bind,
        Lib.pure_eq_ok, newVersion, hview]

/-- A page has been added, with a version of its own. -/
structure PageAdded (f f' : OverflowFile) : Prop where
  wellFormed : f'.WellFormed
  numPages : f'.numPages = f.numPages + 1
  view : ∀ q < f.numPages, f'.pageView q = f.pageView q
  versions : KeepsVersions f f'
  position : f'.position = f.position
  regions : f'.regions = f.regions
  pages : f'.file.pages = f.file.pages
  id : f'.id = f.id

theorem pageAdded (hf : f.WellFormed) : PageAdded f f.addNewPageToFileHandle := by
  have hnum : f.addNewPageToFileHandle.numPages = f.numPages + 1 := rfl
  have hself : f.addNewPageToFileHandle.version f.numPages = some f.wal.numPages :=
    Function.update_self _ _ _
  have hversion : ∀ q < f.numPages, f.addNewPageToFileHandle.version q = f.version q := by
    intro q hq
    have hgroup : q / pageGroupSize < numPageGroups (f.file.fileHandle.numPages + 1) :=
      VersionedFileHandle.div_lt_numPageGroups (Nat.lt_succ_of_lt hq)
    have hne : q ≠ f.file.numPages := Nat.ne_of_lt hq
    show Function.update f.file.fileHandle.addNewPage.pageVersions f.file.numPages _ q = _
    rw [Function.update_of_ne hne]
    simp only [VersionedFileHandle.addNewPage, VersionedFileHandle.resizePageVersions, hgroup,
      if_true]
    rfl
  have hlt : ∀ q w, q < f.numPages + 1 → f.addNewPageToFileHandle.version q = some w →
      w < f.wal.numPages + 1 := by
    intro q w hq hw
    rcases Nat.lt_succ_iff_lt_or_eq.mp hq with hq | rfl
    · rw [hversion q hq] at hw
      exact Nat.lt_succ_of_lt (hf.version_lt q w hq hw)
    · rw [hself, Option.some.injEq] at hw
      omega
  refine ⟨⟨hlt, ?_, ?_⟩, hnum, ?_, ?_, rfl, rfl, rfl, rfl⟩
  · intro q q' w hq hq' hw hw'
    rw [hnum] at hq hq'
    rcases Nat.lt_succ_iff_lt_or_eq.mp hq with hq | rfl <;>
      rcases Nat.lt_succ_iff_lt_or_eq.mp hq' with hq' | rfl
    · rw [hversion q hq] at hw
      rw [hversion q' hq'] at hw'
      exact hf.version_inj q q' w hq hq' hw hw'
    · rw [hversion q hq] at hw
      rw [hself, Option.some.injEq] at hw'
      exact absurd (hf.version_lt q w hq hw) (by omega)
    · rw [hversion q' hq'] at hw'
      rw [hself, Option.some.injEq] at hw
      exact absurd (hf.version_lt q' w hq' hw') (by omega)
    · rfl
  · have hcursor : f.nextBytePosToWriteTo ≤ f.numPages * defaultPageSize := hf.cursor
    show f.nextBytePosToWriteTo ≤ (f.numPages + 1) * defaultPageSize
    rw [Nat.add_one_mul]
    omega
  · intro q hq
    simp only [pageView, hversion q hq]
    cases hw : f.version q with
    | none => rfl
    | some w => exact Function.update_of_ne (hf.version_lt q w hq hw).ne _ _
  · intro q hq w hw
    rw [hversion q hq, hw]

/-! ## Addresses -/

/-- Writing on a page is writing in memory. -/
theorem Updated.memory (h : Updated f f' ptr.pageIdx
      (overwrite (f.pageView ptr.pageIdx) ptr.pagePos bytes))
    (hinside : ptr.pagePos + bytes.length ≤ defaultPageSize) {a : ℕ}
    (ha : a < f.numPages * defaultPageSize) :
    f'.memory a = overwrite f.memory ptr.address bytes a := by
  have hq : a / defaultPageSize < f.numPages := by
    simp only [defaultPageSize] at ha ⊢
    omega
  by_cases hpage : a / defaultPageSize = ptr.pageIdx
  · have haddress : ptr.address + a % defaultPageSize = a + ptr.pagePos := by
      simp only [OverflowPtr.address, defaultPageSize] at hpage ⊢
      omega
    simp only [OverflowFile.memory, hpage, h.view_self, overwrite]
    have hle : ptr.pagePos ≤ a % defaultPageSize ↔ ptr.address ≤ a := by omega
    have hsub : a % defaultPageSize - ptr.pagePos = a - ptr.address := by omega
    simp only [hle, hsub]
  · have houtside : a < ptr.address ∨ ptr.address + bytes.length ≤ a := by
      simp only [OverflowPtr.address, defaultPageSize] at hpage hinside ⊢
      omega
    rw [overwrite_of_outside houtside]
    simp only [OverflowFile.memory, h.view_of_ne _ hq hpage]

/-! ## Appending -/

/-- The bytes have been appended at `ptr`. -/
structure Appended (f f' : OverflowFile) (bytes : List UInt8) (ptr : OverflowPtr) : Prop where
  wellFormed : f'.WellFormed
  cursor : f'.cursor = f.cursor.advance bytes.length
  address : ptr.address = f.cursor.start bytes.length
  page_lt : ptr.pageIdx < f'.numPages
  inside : ptr.pagePos + bytes.length ≤ defaultPageSize
  frame : ∀ a < f.nextBytePosToWriteTo, f'.memory a = f.memory a
  holds : readAt f'.memory ptr.address bytes.length = bytes
  versions : KeepsVersions f f'
  exists_version : ∃ w, f'.version ptr.pageIdx = some w
  regions : f'.regions = f.regions ++ [(ptr, bytes.length)]
  pages : f'.file.pages = f.file.pages
  id : f'.id = f.id

theorem WellFormed.setNextBytePosToWriteTo {pos : ℕ} (hf : f.WellFormed)
    (hpos : pos ≤ f.numPages * defaultPageSize) : (f.setNextBytePosToWriteTo pos).WellFormed :=
  ⟨hf.version_lt, hf.version_inj, hpos⟩

/-- The cursor is put where there is room. -/
structure Room (f f' : OverflowFile) (n : ℕ) : Prop where
  wellFormed : f'.WellFormed
  numPages : f'.numPages = (f.cursor.advance n).numPages
  pos : f'.nextBytePosToWriteTo = f.cursor.start n
  frame : ∀ a < f.nextBytePosToWriteTo, f'.memory a = f.memory a
  versions : KeepsVersions f f'
  regions : f'.regions = f.regions
  pages : f'.file.pages = f.file.pages
  id : f'.id = f.id

theorem room_addNewPageIfNecessary (hf : f.WellFormed) (n : ℕ) :
    Room f (f.addNewPageIfNecessary n) n := by
  have hcursor : f.nextBytePosToWriteTo ≤ f.numPages * defaultPageSize := hf.cursor
  by_cases hneeds : f.cursor.NeedsPage n
  · have hneeds' : f.nextBytePosToWriteTo % defaultPageSize = 0 ∨
        f.nextBytePosToWriteTo % defaultPageSize + n - 1 > defaultPageSize := hneeds
    have hadded := pageAdded (hf.setNextBytePosToWriteTo (Nat.le_refl _))
    simp only [addNewPageIfNecessary, hneeds', if_true]
    refine ⟨hadded.wellFormed, ?_, ?_, ?_, hadded.versions, hadded.regions, hadded.pages,
      hadded.id⟩
    · simp only [Cursor.advance, hneeds, if_true]
      rfl
    · simp only [Cursor.start, hneeds, if_true]
      exact congrArg OverflowPosition.nextBytePosToWriteTo hadded.position
    · intro a ha
      have hq : a / defaultPageSize < f.numPages := by
        simp only [defaultPageSize] at hcursor ⊢
        omega
      exact congrFun (hadded.view _ hq) _
  · have hneeds' : ¬ (f.nextBytePosToWriteTo % defaultPageSize = 0 ∨
        f.nextBytePosToWriteTo % defaultPageSize + n - 1 > defaultPageSize) := hneeds
    simp only [addNewPageIfNecessary, hneeds', if_false]
    refine ⟨hf, ?_, ?_, fun _ _ ↦ rfl, KeepsVersions.refl f, rfl, rfl, rfl⟩
    · simp only [Cursor.advance, hneeds, if_false]
      rfl
    · simp only [Cursor.start, hneeds, if_false]
      rfl

/-- The bytes are copied to a place that has room for them. -/
theorem appended_of_updated (hf : f.WellFormed) {f₁ f₂ : OverflowFile}
    (hroom : Room f f₁ bytes.length) (haddress : ptr.address = f₁.nextBytePosToWriteTo)
    (hinside : ptr.pagePos + bytes.length ≤ defaultPageSize) (hlt : ptr.pageIdx < f₁.numPages)
    (hupdated : Updated f₁ f₂ ptr.pageIdx (overwrite (f₁.pageView ptr.pageIdx) ptr.pagePos bytes)) :
    Appended f { f₂.setNextBytePosToWriteTo (f₂.nextBytePosToWriteTo + bytes.length) with
      regions := f₂.regions ++ [(ptr, bytes.length)] } bytes ptr := by
  have hpos : f₂.nextBytePosToWriteTo = ptr.address := by
    rw [haddress, nextBytePosToWriteTo, hupdated.position]
    rfl
  have hend : ptr.address + bytes.length ≤ f₁.numPages * defaultPageSize := by
    simp only [OverflowPtr.address, defaultPageSize] at hinside ⊢
    omega
  have hle : f.nextBytePosToWriteTo ≤ ptr.address := by
    rw [haddress, hroom.pos]
    exact hf.cursor.le_start _
  have hend₂ : f₂.nextBytePosToWriteTo + bytes.length ≤ f₂.numPages * defaultPageSize := by
    rw [hpos, hupdated.numPages]
    exact hend
  have hwf := hupdated.wellFormed.setNextBytePosToWriteTo hend₂
  have hmemory : ∀ a < f₁.numPages * defaultPageSize,
      f₂.memory a = overwrite f₁.memory ptr.address bytes a := fun a ha ↦
    hupdated.memory hinside ha
  have hversions : KeepsVersions f f₂ := by
    refine hroom.versions.trans ?_ hupdated.versions
    rw [hroom.numPages]
    exact Cursor.numPages_le_advance f.cursor _
  refine ⟨⟨hwf.version_lt, hwf.version_inj, hwf.cursor⟩, ?_, ?_, ?_, hinside, ?_, ?_, hversions,
    hupdated.exists_version, ?_, ?_, ?_⟩
  · have hnum : f₂.numPages = (f.cursor.advance bytes.length).numPages :=
      hupdated.numPages.trans hroom.numPages
    have hnext : f₂.nextBytePosToWriteTo + bytes.length = (f.cursor.advance bytes.length).pos := by
      rw [hpos, haddress, hroom.pos]
      rfl
    show Cursor.mk f₂.numPages (f₂.nextBytePosToWriteTo + bytes.length) = _
    rw [hnum, hnext]
  · rw [haddress, hroom.pos]
  · exact hupdated.numPages ▸ hlt
  · intro a ha
    have ha₁ : a < f₁.numPages * defaultPageSize := by omega
    have hcopy := hmemory a ha₁
    rw [overwrite_of_lt (by omega), hroom.frame a ha] at hcopy
    exact hcopy
  · have hread : readAt f₂.memory ptr.address bytes.length =
        readAt (overwrite f₁.memory ptr.address bytes) ptr.address bytes.length :=
      readAt_congr fun b _ hb ↦ hmemory b (by omega)
    rw [readAt_overwrite] at hread
    exact hread
  · show f₂.regions ++ _ = _
    rw [hupdated.regions, hroom.regions]
  · exact hupdated.pages.trans hroom.pages
  · exact hupdated.id.trans hroom.id

theorem exists_append (hf : f.WellFormed) (hn : bytes.length ≤ defaultPageSize)
    (hfits : f.cursor.Fits bytes.length) :
    ∃ f' ptr, f.append bytes = .ok (f', ptr) ∧ Appended f f' bytes ptr := by
  have hroom := room_addNewPageIfNecessary hf bytes.length
  have hinside := Cursor.start_add_le hn hfits
  have hlt := Cursor.start_lt (n := bytes.length) hf.cursor
  rw [← hroom.pos] at hinside hlt
  rw [← hroom.numPages] at hlt
  obtain ⟨f₂, hupdate, hupdated⟩ := exists_updatePage hroom.wellFormed hlt fun page ↦
    overwrite page ((f.addNewPageIfNecessary bytes.length).nextBytePosToWriteTo % defaultPageSize)
      bytes
  have happended : Appended f _ bytes ⟨_ / defaultPageSize, _ % defaultPageSize⟩ :=
    appended_of_updated hf hroom (Nat.div_add_mod' _ _) hinside hlt hupdated
  refine ⟨_, _, ?_, happended⟩
  simp only [append, Nat.not_lt.mpr hinside, if_false, hupdate, Lib.ok_bind, Lib.pure_eq_ok]
  rfl

/-! ## Pointers in elements -/

/-- The pointer of an element has been replaced. -/
structure PtrStored (f f' : OverflowFile) (dst ptr : OverflowPtr) : Prop where
  wellFormed : f'.WellFormed
  cursor : f'.cursor = f.cursor
  memory : ∀ a < f.numPages * defaultPageSize, f'.memory a =
    overwrite f.memory (dst.address + 8)
      (littleEndian 4 ptr.pageIdx ++ littleEndian 2 ptr.pagePos) a
  versions : KeepsVersions f f'
  regions : f'.regions = f.regions
  pages : f'.file.pages = f.file.pages
  id : f'.id = f.id

theorem exists_storeOverflowPtr (hf : f.WellFormed) (hlt : dst.pageIdx < f.numPages)
    (hw : f.version dst.pageIdx = some w) (hinside : dst.pagePos + 16 ≤ defaultPageSize)
    (pinnedAt : ℕ) (ptr : OverflowPtr) :
    ∃ f', f.storeOverflowPtr pinnedAt dst ptr = .ok f' ∧ PtrStored f f' dst ptr := by
  have hversion : f.file.fileHandle.pageVersions dst.pageIdx = some w := hw
  have hview : f.pageView dst.pageIdx = f.wal.pages w := by simp only [pageView, hw]
  obtain ⟨f', hstore, hupdated⟩ : ∃ f', f.storeOverflowPtr pinnedAt dst ptr = .ok f' ∧
      Updated f f' dst.pageIdx (overwrite (f.pageView dst.pageIdx) (dst.pagePos + 8)
        (littleEndian 4 ptr.pageIdx ++ littleEndian 2 ptr.pagePos)) := by
    refine ⟨_, ?_, updated_setVersion hf hlt hw _ (.unpinned pinnedAt w fun page ↦
      overwrite page (dst.pagePos + 8)
        (littleEndian 4 ptr.pageIdx ++ littleEndian 2 ptr.pagePos))⟩
    simp only [storeOverflowPtr, hversion, setVersion, hview]
  have haddress : OverflowPtr.address ⟨dst.pageIdx, dst.pagePos + 8⟩ = dst.address + 8 := by
    simp only [OverflowPtr.address]
    omega
  refine ⟨f', hstore, hupdated.wellFormed, ?_, ?_, hupdated.versions, hupdated.regions,
    hupdated.pages, hupdated.id⟩
  · simp only [OverflowFile.cursor, hupdated.numPages, nextBytePosToWriteTo, hupdated.position]
  · intro a ha
    rw [← haddress]
    have hupdated' : Updated f f' (OverflowPtr.mk dst.pageIdx (dst.pagePos + 8)).pageIdx
        (overwrite (f.pageView dst.pageIdx) (OverflowPtr.mk dst.pageIdx (dst.pagePos + 8)).pagePos
          (littleEndian 4 ptr.pageIdx ++ littleEndian 2 ptr.pagePos)) := hupdated
    apply hupdated'.memory _ ha
    simp only [List.length_append, length_littleEndian]
    omega

end OverflowFile

end Graphflow
