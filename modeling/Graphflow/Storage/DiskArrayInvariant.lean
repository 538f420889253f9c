import Graphflow.Storage.DiskArrayLayout

/-!
# What an array in memory represents

`Represents` relates an `InMemDiskArray` and its file to two arrays: the committed one, which the
pages on disk and the copies in memory hold, and the working one, which the write transaction sees
through the WAL versions.  Every operation of the write transaction is shown to keep the relation,
to touch no other page of the file, and to use up the pages it adds.
-/

namespace Graphflow.Storage

namespace InMemDiskArray

variable {a a' : InMemDiskArray} {f f' : PagedFile} {n₀ idx v : ℕ}
  {pips aps newAPs committed working : List ℕ}

/-- The pages of the array that existed when the transaction began. -/
def oldPages (a : InMemDiskArray) (pips aps : List ℕ) : List ℕ :=
  a.headerPageIdx :: (pips ++ aps)

/-- The pages that the transaction has added to the array. -/
def newPages (a : InMemDiskArray) (newAPs : List ℕ) : List ℕ :=
  a.pipPageIdxsOfInsertedPIPs ++ newAPs

/-- The array and the file represent the committed and the working array.  The file had `n₀` pages
when the transaction began; `pips` and `aps` are the array's PIPs and array pages at that time and
`newAPs` the array pages added since. -/
structure Represents (a : InMemDiskArray) (f : PagedFile) (n₀ : ℕ)
    (pips aps newAPs committed working : List ℕ) : Prop where
  disk : Layout f.pages a.headerPageIdx pips aps committed
  seen : Layout f.view a.headerPageIdx (pips ++ a.pipPageIdxsOfInsertedPIPs) (aps ++ newAPs)
    working
  header_eq : a.header = ⟨pips.head?, committed.length, aps.length⟩
  pips_eq : a.pips = pips.map fun p ↦ ⟨p, (f.pages p).asPIP⟩
  inMemArrayPages_eq : a.inMemArrayPages = aps.map fun p ↦ (f.pages p).asArray
  old_lt : ∀ p ∈ a.oldPages pips aps, p < n₀
  le_numPages : n₀ ≤ f.numPages
  le_new : ∀ p ∈ a.newPages newAPs, n₀ ≤ p
  new_version : ∀ p ∈ a.newPages newAPs, f.version p ≠ none
  updated_iff : ∀ k p, pips[k]? = some p → (k ∈ a.updatedPipIdxs ↔ f.version p ≠ none)
  updated_lt : ∀ k ∈ a.updatedPipIdxs, k < pips.length
  clean : a.hasTransactionalUpdates = false →
    a.newPages newAPs = [] ∧ (∀ p ∈ a.oldPages pips aps, f.version p = none) ∧ working = committed
  /-- The PIPs added by a transaction lie at least a page group apart. -/
  spaced : a.pipPageIdxsOfInsertedPIPs.Pairwise fun p q ↦ p + pageGroupSize ≤ q
  /-- Since the last PIP was added, the file has grown by the array pages entered in it. -/
  last_add_le : ∀ q, a.pipPageIdxsOfInsertedPIPs.getLast? = some q →
    q + (aps ++ newAPs).length ≤
      f.numPages + 1023 * ((pips ++ a.pipPageIdxsOfInsertedPIPs).length - 1)
  /-- A PIP is only added together with, and behind, an array page. -/
  exists_lt : ∀ q ∈ a.pipPageIdxsOfInsertedPIPs, ∃ p ∈ newAPs, p < q

/-- `f'` arises from `f` by writes to the listed pages and to pages from `n` on. -/
structure Touches (n : ℕ) (own : List ℕ) (f f' : PagedFile) : Prop where
  wellLogged : f'.WellLogged
  pages_eq : f'.pages = f.pages
  numPages_le : f.numPages ≤ f'.numPages
  version_mono : ∀ p, f.version p ≠ none → f'.version p ≠ none
  version_eq : ∀ p < n, p ∉ own → f'.version p = f.version p
  view_eq : ∀ p < n, p ∉ own → f'.view p = f.view p

/-! ## Reading the structure of the working array -/

theorem Represents.readHeader_write (h : Represents a f n₀ pips aps newAPs committed working)
    (hf : f.WellLogged) :
    a.readHeader f .write = .ok ⟨(pips ++ a.pipPageIdxsOfInsertedPIPs).head?, working.length,
      (aps ++ newAPs).length⟩ := by
  have hseen := h.seen.header
  by_cases hver : f.version a.headerPageIdx = none
  · have hdisk := h.disk.header
    rw [PagedFile.view_of_version_none hver] at hseen
    simp only [readHeader, hver, or_true, if_true, h.header_eq]
    rw [← hseen, hdisk]
  · simp [readHeader, hver, PagedFile.readWALVersionOfPage_eq hf hver, hseen]

theorem Represents.getNumElements_write
    (h : Represents a f n₀ pips aps newAPs committed working) (hf : f.WellLogged) :
    a.getNumElements f .write = .ok working.length := by
  simp [getNumElements, h.readHeader_write hf]

theorem Represents.getNumAPs_write (h : Represents a f n₀ pips aps newAPs committed working)
    (hf : f.WellLogged) : a.getNumAPs f .write = .ok (aps ++ newAPs).length := by
  simp [getNumAPs, h.readHeader_write hf]

theorem Represents.length_pips (h : Represents a f n₀ pips aps newAPs committed working) :
    a.pips.length = pips.length := by
  simp [h.pips_eq]

theorem Represents.pips_getElem? (h : Represents a f n₀ pips aps newAPs committed working)
    {k p : ℕ} (hk : pips[k]? = some p) : a.pips[k]? = some ⟨p, (f.pages p).asPIP⟩ := by
  simp [h.pips_eq, hk]

theorem Represents.getUpdatedPageIdxOfPip_eq
    (h : Represents a f n₀ pips aps newAPs committed working) {k q : ℕ}
    (hk : (pips ++ a.pipPageIdxsOfInsertedPIPs)[k]? = some q) :
    a.getUpdatedPageIdxOfPip k = .ok q := by
  rcases Nat.lt_or_ge k pips.length with hlt | hge
  · rw [List.getElem?_append_left hlt] at hk
    simp [getUpdatedPageIdxOfPip, h.pips_getElem? hk]
  · rw [List.getElem?_append_right hge] at hk
    have hnone : a.pips[k]? = none := List.getElem?_eq_none (by rw [h.length_pips]; exact hge)
    simp [getUpdatedPageIdxOfPip, hnone, h.length_pips, hk]

/-- A PIP is read from its WAL version exactly when it has one. -/
theorem Represents.hasPIPUpdates_iff (h : Represents a f n₀ pips aps newAPs committed working)
    {k q : ℕ} (hk : (pips ++ a.pipPageIdxsOfInsertedPIPs)[k]? = some q) :
    a.hasPIPUpdates k = true ↔ f.version q ≠ none := by
  rcases Nat.lt_or_ge k pips.length with hlt | hge
  · rw [List.getElem?_append_left hlt] at hk
    simp only [hasPIPUpdates, h.length_pips, decide_eq_true_eq, Nat.not_le.mpr hlt, false_or]
    exact h.updated_iff k q hk
  · rw [List.getElem?_append_right hge] at hk
    have hver := h.new_version q (List.mem_append_left _ (List.mem_of_getElem? hk))
    simp [hasPIPUpdates, h.length_pips, hge, hver]

theorem Represents.getAPPageIdx_write (h : Represents a f n₀ pips aps newAPs committed working)
    (hf : f.WellLogged) {i p : ℕ} (hi : (aps ++ newAPs)[i]? = some p) :
    a.getAPPageIdx f i .write = .ok p := by
  obtain ⟨q, hq, hentry⟩ := h.seen.entries i p hi
  have hupdates := h.hasPIPUpdates_iff hq
  by_cases hver : f.version q = none
  · have hno : a.hasPIPUpdates (i / 1023) = false := by
      simpa [hver] using hupdates
    have hlt : i / 1023 < pips.length := by
      by_contra hge
      simp [hasPIPUpdates, h.length_pips, Nat.le_of_not_lt hge] at hno
    rw [List.getElem?_append_left hlt] at hq
    rw [PagedFile.view_of_version_none hver] at hentry
    simp [getAPPageIdx, numPageIdxsPerPIP, hno, h.pips_getElem? hq, hentry]
  · have hyes : a.hasPIPUpdates (i / 1023) = true := hupdates.mpr hver
    simp [getAPPageIdx, numPageIdxsPerPIP, hyes, h.getUpdatedPageIdxOfPip_eq hq,
      PagedFile.readWALVersionOfPage_eq hf hver, hentry]

theorem Represents.getAPPageIdx_readOnly
    (h : Represents a f n₀ pips aps newAPs committed working) {i p : ℕ} (hi : aps[i]? = some p) :
    a.getAPPageIdx f i .readOnly = .ok p := by
  obtain ⟨q, hq, hentry⟩ := h.disk.entries i p hi
  simp [getAPPageIdx, numPageIdxsPerPIP, h.pips_getElem? hq, hentry]

/-! ## Sequences of writes -/

theorem Touches.refl (hf : f.WellLogged) (n : ℕ) (own : List ℕ) : Touches n own f f :=
  ⟨hf, rfl, le_rfl, fun _ h ↦ h, fun _ _ _ ↦ rfl, fun _ _ _ ↦ rfl⟩

theorem Touches.write {g : PagedFile} {n p : ℕ} {own : List ℕ} {page : Page}
    (h : Touches n own f f') (hw : PagedFile.Writes f' g p page) (hp : p ∈ own ∨ n ≤ p) :
    Touches n own f g := by
  have hne : ∀ q < n, q ∉ own → q ≠ p := by
    rintro q hq hown rfl
    rcases hp with hp | hp
    · exact hown hp
    · omega
  refine ⟨hw.wellLogged, hw.pages_eq.trans h.pages_eq, hw.numPages_eq ▸ h.numPages_le, ?_, ?_, ?_⟩
  · exact fun q hq ↦ hw.version_ne_none_iff.mpr (.inl (h.version_mono q hq))
  · exact fun q hq hown ↦ (hw.version_of_ne q (hne q hq hown)).trans (h.version_eq q hq hown)
  · intro q hq hown
    rw [hw.view_eq, Function.update_of_ne (hne q hq hown)]
    exact h.view_eq q hq hown

theorem Touches.trans {g : PagedFile} {n : ℕ} {own : List ℕ} (h : Touches n own f f')
    (h' : Touches n own f' g) : Touches n own f g where
  wellLogged := h'.wellLogged
  pages_eq := h'.pages_eq.trans h.pages_eq
  numPages_le := h.numPages_le.trans h'.numPages_le
  version_mono := fun p hp ↦ h'.version_mono p (h.version_mono p hp)
  version_eq := fun p hp hown ↦ (h'.version_eq p hp hown).trans (h.version_eq p hp hown)
  view_eq := fun p hp hown ↦ (h'.view_eq p hp hown).trans (h.view_eq p hp hown)

theorem Touches.addNewPage {n : ℕ} {own : List ℕ} (h : Touches n own f f') :
    Touches n own f f'.addNewPage := by
  have hversion := PagedFile.addNewPage_version h.wellLogged
  have hview := PagedFile.addNewPage_view h.wellLogged
  refine ⟨h.wellLogged.addNewPage, h.pages_eq, ?_, ?_, ?_, ?_⟩
  · exact h.numPages_le.trans (Nat.le_succ _)
  · simpa [hversion] using h.version_mono
  · simpa [hversion] using h.version_eq
  · simpa [hview] using h.view_eq

/-! ## Reading and updating elements -/

theorem Represents.header_lt (h : Represents a f n₀ pips aps newAPs committed working) :
    a.headerPageIdx < f.numPages :=
  Nat.lt_of_lt_of_le (h.old_lt _ List.mem_cons_self) h.le_numPages

theorem Represents.ap_lt (h : Represents a f n₀ pips aps newAPs committed working)
    (hf : f.WellLogged) {p : ℕ} (hp : p ∈ aps ++ newAPs) : p < f.numPages := by
  rcases List.mem_append.mp hp with hp | hp
  · exact Nat.lt_of_lt_of_le (h.old_lt p (by simp [oldPages, hp])) h.le_numPages
  · exact hf.lt_numPages (h.new_version p (by simp [newPages, hp]))

theorem Represents.pip_lt (h : Represents a f n₀ pips aps newAPs committed working)
    (hf : f.WellLogged) {p : ℕ} (hp : p ∈ pips ++ a.pipPageIdxsOfInsertedPIPs) :
    p < f.numPages := by
  rcases List.mem_append.mp hp with hp | hp
  · exact Nat.lt_of_lt_of_le (h.old_lt p (by simp [oldPages, hp])) h.le_numPages
  · exact hf.lt_numPages (h.new_version p (by simp [newPages, hp]))

theorem Represents.get_readOnly (h : Represents a f n₀ pips aps newAPs committed working)
    (hidx : idx < committed.length) : a.get f idx .readOnly = .ok committed[idx] := by
  obtain ⟨p, hp, hval⟩ := h.disk.exists_ap hidx
  simp [get, h.header_eq, h.inMemArrayPages_eq, shiftRight_numElementsPerPageLog2,
    and_elementPageOffsetMask, Nat.not_le.mpr hidx, hp, hval]

theorem Represents.get_readOnly_out_of_range
    (h : Represents a f n₀ pips aps newAPs committed working) (hidx : committed.length ≤ idx) :
    a.get f idx .readOnly =
      .error (.exception (getOutOfRangeMessage idx committed.length .readOnly)) := by
  simp [get, h.header_eq, hidx]

theorem Represents.get_write (h : Represents a f n₀ pips aps newAPs committed working)
    (hf : f.WellLogged) (hidx : idx < working.length) :
    a.get f idx .write = .ok working[idx] := by
  obtain ⟨p, hp, hval⟩ := h.seen.exists_ap hidx
  simp only [get, h.getNumElements_write hf, Lib.ok_bind, ge_iff_le, Nat.not_le.mpr hidx, if_false,
    shiftRight_numElementsPerPageLog2, h.getAPPageIdx_write hf hp, and_elementPageOffsetMask]
  by_cases hver : f.version p = none
  · -- A page without a version is one of the old array pages.
    have hlt : idx / 1024 < aps.length := by
      by_contra hge
      rw [List.getElem?_append_right (Nat.le_of_not_lt hge)] at hp
      exact h.new_version p (by simp [newPages, List.mem_of_getElem? hp]) hver
    rw [List.getElem?_append_left hlt] at hp
    rw [PagedFile.view_of_version_none hver] at hval
    simp [hver, h.inMemArrayPages_eq, hp, hval]
  · simp [hver, PagedFile.readWALVersionOfPage_eq hf hver, hval]

theorem Represents.get_write_out_of_range
    (h : Represents a f n₀ pips aps newAPs committed working) (hf : f.WellLogged)
    (hidx : working.length ≤ idx) :
    a.get f idx .write =
      .error (.exception (getOutOfRangeMessage idx committed.length .write)) := by
  simp [get, h.getNumElements_write hf, h.header_eq, hidx]

/-- The array after the flag for transactional updates has been set. -/
def touched (a : InMemDiskArray) : InMemDiskArray := { a with hasTransactionalUpdates := true }

theorem Represents.touched (h : Represents a f n₀ pips aps newAPs committed working) :
    Represents a.touched f n₀ pips aps newAPs committed working :=
  ⟨h.disk, h.seen, h.header_eq, h.pips_eq, h.inMemArrayPages_eq, h.old_lt, h.le_numPages, h.le_new,
    h.new_version, h.updated_iff, h.updated_lt, fun hflag ↦ by
      simp [InMemDiskArray.touched] at hflag,
    h.spaced, h.last_add_le, h.exists_lt⟩

/-- Writes that touch no PIP and leave the structure of the array as it is. -/
theorem Represents.rewrite {own : List ℕ} {n : ℕ} {working' : List ℕ}
    (h : Represents a f n₀ pips aps newAPs committed working)
    (hflag : a.hasTransactionalUpdates = true) (ht : Touches n own f f')
    (hpips : ∀ p ∈ pips, f'.version p = f.version p)
    (hseen : Layout f'.view a.headerPageIdx (pips ++ a.pipPageIdxsOfInsertedPIPs) (aps ++ newAPs)
      working') :
    Represents a f' n₀ pips aps newAPs committed working' where
  disk := ht.pages_eq ▸ h.disk
  seen := hseen
  header_eq := h.header_eq
  pips_eq := ht.pages_eq ▸ h.pips_eq
  inMemArrayPages_eq := ht.pages_eq ▸ h.inMemArrayPages_eq
  old_lt := h.old_lt
  le_numPages := h.le_numPages.trans ht.numPages_le
  le_new := h.le_new
  new_version := fun p hp ↦ ht.version_mono p (h.new_version p hp)
  updated_iff := fun k p hk ↦ by
    rw [hpips p (List.mem_of_getElem? hk)]
    exact h.updated_iff k p hk
  updated_lt := h.updated_lt
  clean := fun hclean ↦ by simp [hflag] at hclean
  spaced := h.spaced
  last_add_le := fun q hq ↦ (h.last_add_le q hq).trans (Nat.add_le_add_right ht.numPages_le _)
  exists_lt := h.exists_lt

theorem Represents.update_eq_ok (h : Represents a f n₀ pips aps newAPs committed working)
    (hf : f.WellLogged) (hidx : idx < working.length) :
    ∃ f', a.update f idx v = (.ok (), a.touched, f') ∧
      Represents a.touched f' n₀ pips aps newAPs committed (working.set idx v) ∧
      Touches f.numPages (a.oldPages pips aps ++ a.newPages newAPs) f f' ∧
      f'.numPages = f.numPages := by
  have ht := h.touched
  obtain ⟨p, hp, -⟩ := h.seen.exists_ap hidx
  have hmem := List.mem_of_getElem? hp
  obtain ⟨f', hupdate, hwrites⟩ := PagedFile.updatePage_eq_ok hf (h.ap_lt hf hmem) false
    (.array fun _ ↦ 0) (·.writeElement (idx % 1024) v)
  have hown : p ∈ a.oldPages pips aps ++ a.newPages newAPs := by
    rcases List.mem_append.mp hmem with hmem | hmem <;> simp [oldPages, newPages, hmem]
  have htouches := (Touches.refl hf f.numPages _).write hwrites (.inl hown)
  refine ⟨f', ?_, ?_, htouches, hwrites.numPages_eq⟩
  · have helement : a.touched.updateElement f idx v = .ok f' := by
      simp [updateElement, ht.getNumElements_write hf, Nat.not_le.mpr hidx,
        shiftRight_numElementsPerPageLog2, and_elementPageOffsetMask,
        ht.getAPPageIdx_write hf hp, hupdate]
    simp only [update]
    rw [show { a with hasTransactionalUpdates := true } = a.touched from rfl, helement]
  · refine ht.rewrite rfl htouches ?_ ?_
    · intro q hq
      refine hwrites.version_of_ne q ?_
      rintro rfl
      exact h.seen.not_mem_pips_of_mem_aps hmem (List.mem_append_left _ hq)
    · rw [hwrites.view_eq]
      simpa using ht.seen.set hp

theorem Represents.update_out_of_range
    (h : Represents a f n₀ pips aps newAPs committed working) (hf : f.WellLogged)
    (hidx : working.length ≤ idx) :
    a.update f idx v =
      (.error (.exception (updateOutOfRangeMessage idx working.length)), a.touched, f) := by
  have helement : a.touched.updateElement f idx v =
      .error (.exception (updateOutOfRangeMessage idx working.length)) := by
    simp [updateElement, h.touched.getNumElements_write hf, hidx]
  simp only [update]
  rw [show { a with hasTransactionalUpdates := true } = a.touched from rfl, helement]

/-! ## Appending an element -/

/-- The header page is pinned with its version before anything else changes. -/
theorem Represents.pin_header (h : Represents a f n₀ pips aps newAPs committed working)
    (hf : f.WellLogged) (hflag : a.hasTransactionalUpdates = true) (junk : Page) :
    ∃ f₁ w, f.createWALVersionIfNecessaryAndPinPage a.headerPageIdx false junk = .ok (f₁, w) ∧
      f₁.version a.headerPageIdx = some w ∧ f₁.numPages = f.numPages ∧
      Represents a f₁ n₀ pips aps newAPs committed working ∧
      Touches f.numPages (a.oldPages pips aps ++ a.newPages newAPs) f f₁ := by
  obtain ⟨f₁, w, hcreate, hw, hwrites⟩ :=
    PagedFile.createWALVersion_eq_ok hf h.header_lt false junk
  have htouches := (Touches.refl hf f.numPages (a.oldPages pips aps ++ a.newPages newAPs)).write
    hwrites (.inl (by simp [oldPages]))
  refine ⟨f₁, w, hcreate, hw, hwrites.numPages_eq, h.rewrite hflag htouches ?_ ?_, htouches⟩
  · intro q hq
    refine hwrites.version_of_ne q ?_
    rintro rfl
    exact h.disk.header_not_mem_pips hq
  · rw [hwrites.view_eq]
    simpa using h.seen

/-- The last two writes of `pushBack`: the element and the header. -/
theorem push_tail {p w : ℕ} (hf : f.WellLogged) (hp : p < f.numPages)
    (hw : f.version a.headerPageIdx = some w) (hne : a.headerPageIdx ≠ p) (isNew : Bool)
    (junk : Page) (offset : ℕ) (header : DiskArrayHeader) :
    ∃ f₁ page, f.updatePage p isNew junk (·.writeElement offset v) = .ok f₁ ∧
      PagedFile.Writes f f₁ p (page.writeElement offset v) ∧
      (isNew = false → page = f.view p) ∧
      PagedFile.Writes f₁ (f₁.writeWALPage w (.header header)) a.headerPageIdx
        (.header header) := by
  obtain ⟨f₁, hupdate, hwrites⟩ :=
    PagedFile.updatePage_eq_ok hf hp isNew junk (·.writeElement offset v)
  refine ⟨f₁, _, hupdate, hwrites, by simp +contextual, ?_⟩
  exact PagedFile.writes_writeWALPage hwrites.wellLogged
    ((hwrites.version_of_ne _ hne).trans hw)

/-- `pushBack` into the last array page. -/
theorem Represents.push_element (h : Represents a f n₀ pips aps newAPs committed working)
    (hf : f.WellLogged) (hflag : a.hasTransactionalUpdates = true) {w p : ℕ}
    (hw : f.version a.headerPageIdx = some w)
    (hp : (aps ++ newAPs)[working.length / 1024]? = some p) (junk : Page) :
    ∃ f₁, f.updatePage p false junk (·.writeElement (working.length % 1024) v) = .ok f₁ ∧
      ∃ f₂, f₂ = f₁.writeWALPage w (.header ⟨(pips ++ a.pipPageIdxsOfInsertedPIPs).head?,
          working.length + 1, (aps ++ newAPs).length⟩) ∧
        Represents a f₂ n₀ pips aps newAPs committed (working ++ [v]) ∧
        Touches f.numPages (a.oldPages pips aps ++ a.newPages newAPs) f f₂ ∧
        f₂.numPages = f.numPages := by
  have hmem := List.mem_of_getElem? hp
  have hne : a.headerPageIdx ≠ p := by
    rintro heq
    exact h.seen.header_not_mem_aps (heq ▸ hmem)
  obtain ⟨f₁, page, hupdate, hwrites, hpage, hwrites'⟩ := push_tail (v := v) hf (h.ap_lt hf hmem) hw
    hne false junk (working.length % 1024) ⟨(pips ++ a.pipPageIdxsOfInsertedPIPs).head?,
      working.length + 1, (aps ++ newAPs).length⟩
  have hown : p ∈ a.oldPages pips aps ++ a.newPages newAPs := by
    rcases List.mem_append.mp hmem with hmem | hmem <;> simp [oldPages, newPages, hmem]
  have htouches := ((Touches.refl hf f.numPages _).write hwrites (.inl hown)).write hwrites'
    (.inl (by simp [oldPages]))
  refine ⟨f₁, hupdate, _, rfl, h.rewrite hflag htouches ?_ ?_, htouches,
    hwrites'.numPages_eq.trans hwrites.numPages_eq⟩
  · intro q hq
    have hqp : q ≠ p := by
      rintro rfl
      exact h.seen.not_mem_pips_of_mem_aps hmem (List.mem_append_left _ hq)
    have hqh : q ≠ a.headerPageIdx := by
      rintro rfl
      exact h.disk.header_not_mem_pips hq
    rw [hwrites'.version_of_ne q hqh, hwrites.version_of_ne q hqp]
  · rw [hwrites'.view_eq, hwrites.view_eq, hpage rfl]
    exact h.seen.push_element hp

/-- The page that a file adds next belongs to nobody. -/
theorem Represents.numPages_not_mem (h : Represents a f n₀ pips aps newAPs committed working)
    (hf : f.WellLogged) {p : ℕ} (hp : f.numPages ≤ p) :
    p ∉ a.headerPageIdx :: (pips ++ a.pipPageIdxsOfInsertedPIPs ++ (aps ++ newAPs)) := by
  intro hmem
  rw [List.mem_cons, List.mem_append] at hmem
  rcases hmem with rfl | hmem | hmem
  · exact absurd h.header_lt (Nat.not_lt.mpr hp)
  · exact absurd (h.pip_lt hf hmem) (Nat.not_lt.mpr hp)
  · exact absurd (h.ap_lt hf hmem) (Nat.not_lt.mpr hp)

/-- An existing PIP takes the new array page. -/
theorem Represents.getPIPForNewAP_existing {g : PagedFile} {k q : ℕ}
    (h : Represents a f n₀ pips aps newAPs committed working) (header : DiskArrayHeader)
    (hk : (pips ++ a.pipPageIdxsOfInsertedPIPs)[k]? = some q) :
    ∃ updated, a.getPIPForNewAP g header k =
        .ok ({ a with updatedPipIdxs := updated }, g, header, q, false) ∧
      ∀ j, j ∈ updated ↔ j ∈ a.updatedPipIdxs ∨ j = k ∧ k < pips.length := by
  rcases Nat.lt_or_ge k pips.length with hlt | hge
  · rw [List.getElem?_append_left hlt] at hk
    refine ⟨a.updatedPipIdxs.insert k, by simp [getPIPForNewAP, h.pips_getElem? hk], fun j ↦ ?_⟩
    simp [List.mem_insert_iff, hlt, or_comm]
  · rw [List.getElem?_append_right hge] at hk
    have hnone : a.pips[k]? = none := List.getElem?_eq_none (by rw [h.length_pips]; exact hge)
    refine ⟨a.updatedPipIdxs, by simp [getPIPForNewAP, hnone, h.length_pips, hk], fun j ↦ ?_⟩
    simp [Nat.not_lt.mpr hge]

/-- `pushBack` with a new array page that is entered in an existing PIP. -/
theorem Represents.push_ap (h : Represents a f n₀ pips aps newAPs committed working)
    (hf : f.WellLogged) (hflag : a.hasTransactionalUpdates = true) {w q : ℕ}
    (hw : f.version a.headerPageIdx = some w)
    (hfull : (aps ++ newAPs).length ≤ working.length / 1024)
    (hq : (pips ++ a.pipPageIdxsOfInsertedPIPs)[(aps ++ newAPs).length / 1023]? = some q)
    {updated : List ℕ} (hupdated : ∀ j, j ∈ updated ↔
      j ∈ a.updatedPipIdxs ∨ j = (aps ++ newAPs).length / 1023 ∧
        (aps ++ newAPs).length / 1023 < pips.length) (junk junk' : Page) :
    ∃ f₁ f₂, f.addNewPage.updatePage q false junk'
        (·.setPageIdx ((aps ++ newAPs).length % 1023) f.numPages) = .ok f₁ ∧
      f₁.updatePage f.numPages true junk (·.writeElement (working.length % 1024) v) = .ok f₂ ∧
      ∃ f₃, f₃ = f₂.writeWALPage w (.header ⟨(pips ++ a.pipPageIdxsOfInsertedPIPs).head?,
          working.length + 1, (aps ++ newAPs).length + 1⟩) ∧
        Represents { a with updatedPipIdxs := updated } f₃ n₀ pips aps (newAPs ++ [f.numPages])
          committed (working ++ [v]) ∧
        Touches f.numPages (a.oldPages pips aps ++ a.newPages newAPs) f f₃ ∧
        f₃.numPages = f.numPages + 1 := by
  have hqmem := List.mem_of_getElem? hq
  have hfresh := h.numPages_not_mem hf le_rfl
  have hadd := hf.addNewPage
  have hversion := PagedFile.addNewPage_version hf
  have hview := PagedFile.addNewPage_view hf
  have hqlt := h.pip_lt hf hqmem
  obtain ⟨f₁, hupdate₁, hwrites₁⟩ := PagedFile.updatePage_eq_ok hadd
    (show q < f.addNewPage.numPages by simp; omega) false junk'
    (·.setPageIdx ((aps ++ newAPs).length % 1023) f.numPages)
  simp only [Bool.false_eq_true, and_false, if_false, hview] at hwrites₁
  have hqh : a.headerPageIdx ≠ q := by
    rintro heq
    exact h.seen.header_not_mem_pips (heq ▸ hqmem)
  obtain ⟨f₂, page, hupdate₂, hwrites₂, -, hwrites₃⟩ := push_tail (a := a) (v := v)
    hwrites₁.wellLogged (p := f.numPages) (w := w)
    (by rw [hwrites₁.numPages_eq, PagedFile.addNewPage_numPages]; omega)
    (by rw [hwrites₁.version_of_ne _ hqh, hversion, hw]) (by have := h.header_lt; omega) true junk
    (working.length % 1024) ⟨(pips ++ a.pipPageIdxsOfInsertedPIPs).head?, working.length + 1,
      (aps ++ newAPs).length + 1⟩
  have hownq : q ∈ a.oldPages pips aps ++ a.newPages newAPs := by
    rcases List.mem_append.mp hqmem with hmem | hmem <;> simp [oldPages, newPages, hmem]
  have htouches := (((Touches.refl hf f.numPages _).addNewPage.write hwrites₁ (.inl hownq)).write
    hwrites₂ (.inr le_rfl)).write hwrites₃ (.inl (by simp [oldPages]))
  have hnum : (f₂.writeWALPage w (.header ⟨(pips ++ a.pipPageIdxsOfInsertedPIPs).head?,
      working.length + 1, (aps ++ newAPs).length + 1⟩)).numPages = f.numPages + 1 := by
    rw [hwrites₃.numPages_eq, hwrites₂.numPages_eq, hwrites₁.numPages_eq,
      PagedFile.addNewPage_numPages]
  refine ⟨f₁, f₂, hupdate₁, hupdate₂, _, rfl, ?_, htouches, hnum⟩
  have hseen := Layout.push_ap (v := v) page h.seen hfull hq hfresh
  refine ⟨htouches.pages_eq ▸ h.disk, ?_, h.header_eq, htouches.pages_eq ▸ h.pips_eq,
    htouches.pages_eq ▸ h.inMemArrayPages_eq, h.old_lt, h.le_numPages.trans htouches.numPages_le,
    ?_, ?_, ?_, ?_, by simp [hflag], h.spaced, ?_, ?_⟩
  · rw [hwrites₃.view_eq, hwrites₂.view_eq, hwrites₁.view_eq, hview, ← List.append_assoc]
    simpa using hseen
  · intro p hp
    simp only [newPages, ← List.append_assoc, List.mem_append, List.mem_singleton] at hp
    rcases hp with hp | rfl
    · exact h.le_new p (by simpa [newPages] using hp)
    · exact h.le_numPages
  · intro p hp
    simp only [newPages, ← List.append_assoc, List.mem_append, List.mem_singleton] at hp
    rcases hp with hp | rfl
    · exact htouches.version_mono p (h.new_version p (by simpa [newPages] using hp))
    · rw [hwrites₃.version_ne_none_iff]
      exact .inl hwrites₂.version_self
  · intro k p hk
    have hmem := List.mem_of_getElem? hk
    have hplt := h.pip_lt hf (List.mem_append_left _ hmem)
    have hph : p ≠ a.headerPageIdx := by
      rintro rfl
      exact h.disk.header_not_mem_pips hmem
    have hpn : p ≠ f.numPages := by omega
    obtain ⟨hklt, -⟩ := List.getElem?_eq_some_iff.mp hk
    have hkq : p = q ↔ k = (aps ++ newAPs).length / 1023 ∧
        (aps ++ newAPs).length / 1023 < pips.length := by
      have hk' : (pips ++ a.pipPageIdxsOfInsertedPIPs)[k]? = some p := by
        rw [List.getElem?_append_left hklt, hk]
      constructor
      · rintro rfl
        have hidx := (List.getElem?_inj (by simp; omega) h.seen.nodup_pips).mp (hk'.trans hq.symm)
        exact ⟨hidx, by omega⟩
      · rintro ⟨rfl, -⟩
        exact Option.some.inj (hk'.symm.trans hq)
    rw [hwrites₃.version_ne_none_iff, hwrites₂.version_ne_none_iff, hwrites₁.version_ne_none_iff,
      hversion, hupdated, h.updated_iff k p hk]
    simp only [hph, hpn, or_false, hkq]
  · intro k hk
    rcases (hupdated k).mp hk with hmem | ⟨rfl, hlt⟩
    · exact h.updated_lt k hmem
    · exact hlt
  · intro r hr
    have hlast := h.last_add_le r hr
    rw [hnum]
    simp only [← List.append_assoc, List.length_append, List.length_singleton] at hlast ⊢
    omega
  · intro r hr
    obtain ⟨p, hp, hlt⟩ := h.exists_lt r hr
    exact ⟨p, List.mem_append_left _ hp, hlt⟩

/-- A new PIP is added and linked to the last one. -/
theorem Represents.getPIPForNewAP_new {g : PagedFile} {header : DiskArrayHeader} {k : ℕ}
    (h : Represents a f n₀ pips aps newAPs committed working) (hg : g.WellLogged)
    (hk : k = (pips ++ a.pipPageIdxsOfInsertedPIPs).length)
    (hlt : ∀ p ∈ pips ++ a.pipPageIdxsOfInsertedPIPs, p < g.numPages)
    (hfirst : header.firstPIPPageIdx = (pips ++ a.pipPageIdxsOfInsertedPIPs).head?) :
    ∃ updated g', a.getPIPForNewAP g header k =
        .ok ({ a with
            updatedPipIdxs := updated
            pipPageIdxsOfInsertedPIPs := a.pipPageIdxsOfInsertedPIPs ++ [g.numPages] }, g',
          { header with
            firstPIPPageIdx := (pips ++ a.pipPageIdxsOfInsertedPIPs ++ [g.numPages]).head? },
          g.numPages, true) ∧
      g'.WellLogged ∧ g'.pages = g.pages ∧ g'.numPages = g.numPages + 1 ∧
      g'.view = linkLastPIP g.view (pips ++ a.pipPageIdxsOfInsertedPIPs) g.numPages ∧
      (∀ p, (pips ++ a.pipPageIdxsOfInsertedPIPs).getLast? ≠ some p →
        g'.version p = g.version p) ∧
      (∀ p, (pips ++ a.pipPageIdxsOfInsertedPIPs).getLast? = some p → g'.version p ≠ none) ∧
      ∀ j, j ∈ updated ↔ j ∈ a.updatedPipIdxs ∨ j + 1 = k ∧ j < pips.length := by
  have hnone : a.pips[k]? = none := List.getElem?_eq_none (by rw [h.length_pips, hk]; simp)
  have hnone' : a.pipPageIdxsOfInsertedPIPs[k - pips.length]? = none :=
    List.getElem?_eq_none (by rw [hk]; simp)
  rcases List.eq_nil_or_concat (pips ++ a.pipPageIdxsOfInsertedPIPs) with hnil | ⟨init, last, hlast⟩
  · -- The first PIP of the array: the header points to it.
    refine ⟨a.updatedPipIdxs, g.addNewPage, ?_, hg.addNewPage, rfl, rfl, ?_, ?_, ?_, ?_⟩
    · have hprev : (if k = 0 then none else some (k - 1)) = none := by simp [hk, hnil]
      simp [getPIPForNewAP, hnone, h.length_pips, hnone', hprev, setNextPIPPageIDxOfPIP, hnil]
    · simp [PagedFile.addNewPage_view hg, linkLastPIP, hnil]
    · simp [PagedFile.addNewPage_version hg]
    · simp [hnil]
    · simp [hk, hnil]
  · rw [List.concat_eq_append] at hlast
    have hlen : (pips ++ a.pipPageIdxsOfInsertedPIPs).length = init.length + 1 := by simp [hlast]
    rw [hlen] at hk
    have hget : (pips ++ a.pipPageIdxsOfInsertedPIPs)[init.length]? = some last := by simp [hlast]
    have hgetLast : (pips ++ a.pipPageIdxsOfInsertedPIPs).getLast? = some last := by simp [hlast]
    have hlastlt := hlt last (List.mem_of_getElem? hget)
    obtain ⟨g', hupdate, hwrites⟩ := PagedFile.updatePage_eq_ok hg.addNewPage
      (show last < g.addNewPage.numPages by simp; omega) false (.array fun _ ↦ 0)
      (·.setNextPipPageIdx (some g.numPages))
    simp only [Bool.false_eq_true, and_false, if_false, PagedFile.addNewPage_view hg] at hwrites
    have hpip : getUpdatedPageIdxOfPip { a with
        pipPageIdxsOfInsertedPIPs := a.pipPageIdxsOfInsertedPIPs ++ [g.numPages] } init.length =
          .ok last := by
      rcases Nat.lt_or_ge init.length pips.length with hlt' | hge'
      · rw [List.getElem?_append_left hlt'] at hget
        simp [getUpdatedPageIdxOfPip, h.pips_getElem? hget]
      · have hnone'' : a.pips[init.length]? = none :=
          List.getElem?_eq_none (by rw [h.length_pips]; exact hge')
        have hlt'' : init.length - pips.length < a.pipPageIdxsOfInsertedPIPs.length := by
          simp only [List.length_append] at hlen
          omega
        rw [List.getElem?_append_right hge'] at hget
        simp [getUpdatedPageIdxOfPip, hnone'', h.length_pips, List.getElem?_append_left hlt'', hget]
    have hhead : (pips ++ a.pipPageIdxsOfInsertedPIPs ++ [g.numPages]).head? =
        (pips ++ a.pipPageIdxsOfInsertedPIPs).head? := by
      rw [hlast]
      cases init <;> simp
    refine ⟨if init.length < pips.length then a.updatedPipIdxs.insert init.length
      else a.updatedPipIdxs, g', ?_, hwrites.wellLogged, hwrites.pages_eq, hwrites.numPages_eq,
      ?_, ?_, ?_, ?_⟩
    · have hk0 : k ≠ 0 := by omega
      have hk1 : k - 1 = init.length := by omega
      simp only [getPIPForNewAP, hnone, hnone', setNextPIPPageIDxOfPIP, hk0, if_false, hk1, hpip,
        hupdate, Lib.ok_bind, h.length_pips, Lib.pure_eq_ok, hhead, ← hfirst]
      split <;> rfl
    · simp [hwrites.view_eq, linkLastPIP, hgetLast, PagedFile.addNewPage_view hg]
    · intro p hp
      have hne : p ≠ last := by
        rintro rfl
        exact hp hgetLast
      rw [hwrites.version_of_ne p hne, PagedFile.addNewPage_version hg]
    · intro p hp
      obtain rfl : last = p := Option.some.inj (hgetLast.symm.trans hp)
      exact hwrites.version_self
    · intro j
      rw [hk]
      split
      next hlt' =>
        simp only [List.mem_insert_iff, Nat.add_right_cancel_iff]
        constructor
        · rintro (rfl | hj)
          · exact .inr ⟨rfl, hlt'⟩
          · exact .inl hj
        · rintro (hj | ⟨rfl, -⟩)
          · exact .inr hj
          · exact .inl rfl
      next hge' =>
        constructor
        · exact .inl
        · rintro (hj | ⟨hj, hj'⟩)
          · exact hj
          · omega

theorem Represents.le_of_inserted (h : Represents a f n₀ pips aps newAPs committed working)
    (hfull : (pips ++ a.pipPageIdxsOfInsertedPIPs).length ≤ (aps ++ newAPs).length / 1023) {q : ℕ}
    (hq : q ∈ a.pipPageIdxsOfInsertedPIPs) : q + pageGroupSize ≤ f.numPages := by
  have hlength := h.seen.length_pips
  rcases List.eq_nil_or_concat a.pipPageIdxsOfInsertedPIPs with hnil | ⟨init, last, hlast⟩
  · simp [hnil] at hq
  · rw [List.concat_eq_append] at hlast
    have hle := h.last_add_le last (by simp [hlast])
    have hpos : 0 < (pips ++ a.pipPageIdxsOfInsertedPIPs).length := by
      rw [hlast, ← List.append_assoc, List.length_append]
      exact Nat.succ_pos _
    have hlastle : last + pageGroupSize ≤ f.numPages := by
      simp only [pageGroupSize]
      omega
    rw [hlast, List.mem_append, List.mem_singleton] at hq
    rcases hq with hq | rfl
    · have hspaced := h.spaced
      rw [hlast, List.pairwise_append] at hspaced
      have := hspaced.2.2 q hq last (by simp)
      omega
    · exact hlastle

/-- `pushBack` with a new array page and a new PIP. -/
theorem Represents.push_pip (h : Represents a f n₀ pips aps newAPs committed working)
    (hf : f.WellLogged) (hflag : a.hasTransactionalUpdates = true) {w : ℕ}
    (hw : f.version a.headerPageIdx = some w)
    (hfull : (aps ++ newAPs).length ≤ working.length / 1024)
    (hpips : (pips ++ a.pipPageIdxsOfInsertedPIPs).length ≤ (aps ++ newAPs).length / 1023)
    (header : DiskArrayHeader)
    (hfirst : header.firstPIPPageIdx = (pips ++ a.pipPageIdxsOfInsertedPIPs).head?)
    (junk junk' : Page) :
    ∃ updated f₀ f₁ f₂, a.getPIPForNewAP f.addNewPage header ((aps ++ newAPs).length / 1023) =
        .ok ({ a with
            updatedPipIdxs := updated
            pipPageIdxsOfInsertedPIPs := a.pipPageIdxsOfInsertedPIPs ++ [f.numPages + 1] }, f₀,
          { header with firstPIPPageIdx :=
            (pips ++ a.pipPageIdxsOfInsertedPIPs ++ [f.numPages + 1]).head? },
          f.numPages + 1, true) ∧
      f₀.updatePage (f.numPages + 1) true junk' (fun page ↦ (page.setNextPipPageIdx none).setPageIdx
        ((aps ++ newAPs).length % 1023) f.numPages) = .ok f₁ ∧
      f₁.updatePage f.numPages true junk (·.writeElement (working.length % 1024) v) = .ok f₂ ∧
      ∃ f₃, f₃ = f₂.writeWALPage w (.header
          ⟨(pips ++ a.pipPageIdxsOfInsertedPIPs ++ [f.numPages + 1]).head?,
            working.length + 1, (aps ++ newAPs).length + 1⟩) ∧
        Represents { a with
            updatedPipIdxs := updated
            pipPageIdxsOfInsertedPIPs := a.pipPageIdxsOfInsertedPIPs ++ [f.numPages + 1] } f₃ n₀
          pips aps (newAPs ++ [f.numPages]) committed (working ++ [v]) ∧
        Touches f.numPages (a.oldPages pips aps ++ a.newPages newAPs) f f₃ ∧
        f₃.numPages = f.numPages + 2 := by
  have hlength := h.seen.length_pips
  have hP : (aps ++ newAPs).length / 1023 = (pips ++ a.pipPageIdxsOfInsertedPIPs).length := by omega
  have hadd := hf.addNewPage
  have hversion := PagedFile.addNewPage_version hf
  have hview := PagedFile.addNewPage_view hf
  have hheader := h.header_lt
  obtain ⟨updated, f₀, hpip, hf₀, hpages₀, hnum₀, hview₀, hver₀, hlast₀, hupdated⟩ :=
    h.getPIPForNewAP_new (g := f.addNewPage) hadd hP
      (fun p hp ↦ by have := h.pip_lt hf hp; simp; omega) hfirst
  simp only [PagedFile.addNewPage_numPages, hview, hversion, PagedFile.addNewPage_pages] at *
  obtain ⟨f₁, hupdate₁, hwrites₁⟩ := PagedFile.updatePage_eq_ok hf₀
    (show f.numPages + 1 < f₀.numPages by omega) true junk' (fun page ↦
      (page.setNextPipPageIdx none).setPageIdx ((aps ++ newAPs).length % 1023) f.numPages)
  have hheadLast : (pips ++ a.pipPageIdxsOfInsertedPIPs).getLast? ≠ some a.headerPageIdx :=
    fun hlast ↦ h.seen.header_not_mem_pips (List.mem_of_getLast? hlast)
  obtain ⟨f₂, page, hupdate₂, hwrites₂, -, hwrites₃⟩ := push_tail (a := a) (v := v)
    hwrites₁.wellLogged (p := f.numPages) (w := w) (by rw [hwrites₁.numPages_eq]; omega)
    (by rw [hwrites₁.version_of_ne _ (by omega), hver₀ _ hheadLast, hw]) (by omega) true junk
    (working.length % 1024) ⟨(pips ++ a.pipPageIdxsOfInsertedPIPs ++ [f.numPages + 1]).head?,
      working.length + 1, (aps ++ newAPs).length + 1⟩
  have hnum : (f₂.writeWALPage w (.header
      ⟨(pips ++ a.pipPageIdxsOfInsertedPIPs ++ [f.numPages + 1]).head?,
        working.length + 1, (aps ++ newAPs).length + 1⟩)).numPages = f.numPages + 2 := by
    rw [hwrites₃.numPages_eq, hwrites₂.numPages_eq, hwrites₁.numPages_eq, hnum₀]
  have htouches₀ : Touches f.numPages (a.oldPages pips aps ++ a.newPages newAPs) f f₀ := by
    have hnot : ∀ p, p ∉ a.oldPages pips aps ++ a.newPages newAPs →
        (pips ++ a.pipPageIdxsOfInsertedPIPs).getLast? ≠ some p := by
      intro p hp hlast
      have hmem := List.mem_of_getLast? hlast
      rcases List.mem_append.mp hmem with hmem | hmem <;> simp [oldPages, newPages, hmem] at hp
    refine ⟨hf₀, hpages₀, by omega, ?_, ?_, ?_⟩
    · intro p hp
      by_cases hlast : (pips ++ a.pipPageIdxsOfInsertedPIPs).getLast? = some p
      · exact hlast₀ p hlast
      · rw [hver₀ p hlast]
        exact hp
    · exact fun p _ hp ↦ hver₀ p (hnot p hp)
    · intro p _ hp
      rw [hview₀]
      exact linkLastPIP_of_ne_last (hnot p hp)
  have htouches := ((htouches₀.write hwrites₁ (.inr (Nat.le_succ _))).write hwrites₂
    (.inr le_rfl)).write hwrites₃ (.inl (by simp [oldPages]))
  refine ⟨updated, f₀, f₁, f₂, hpip, hupdate₁, hupdate₂, _, rfl, ?_, htouches, hnum⟩
  obtain ⟨page', hpage'⟩ : ∃ page', page' = if f₀.version (f.numPages + 1) = none ∧ true then junk'
    else f₀.view (f.numPages + 1) := ⟨_, rfl⟩
  rw [← hpage'] at hwrites₁
  have hseen := Layout.push_pip (v := v) page page' h.seen hfull hpips
    (h.numPages_not_mem hf le_rfl) (h.numPages_not_mem hf (Nat.le_succ _)) (Nat.lt_succ_self _).ne
  refine ⟨htouches.pages_eq ▸ h.disk, ?_, h.header_eq, htouches.pages_eq ▸ h.pips_eq,
    htouches.pages_eq ▸ h.inMemArrayPages_eq, h.old_lt, h.le_numPages.trans htouches.numPages_le,
    ?_, ?_, ?_, ?_, by simp [hflag], ?_, ?_, ?_⟩
  · rw [hwrites₃.view_eq, hwrites₂.view_eq, hwrites₁.view_eq, hview₀, ← List.append_assoc,
      ← List.append_assoc]
    exact hseen
  · intro p hp
    simp only [newPages, List.mem_append, List.mem_singleton] at hp
    have hle := h.le_numPages
    rcases hp with (hp | rfl) | hp | rfl
    · exact h.le_new p (by simp [newPages, hp])
    · omega
    · exact h.le_new p (by simp [newPages, hp])
    · exact hle
  · intro p hp
    simp only [newPages, List.mem_append, List.mem_singleton] at hp
    rcases hp with (hp | rfl) | hp | rfl
    · exact htouches.version_mono p (h.new_version p (by simp [newPages, hp]))
    · rw [hwrites₃.version_ne_none_iff, hwrites₂.version_ne_none_iff]
      exact .inl (.inl hwrites₁.version_self)
    · exact htouches.version_mono p (h.new_version p (by simp [newPages, hp]))
    · rw [hwrites₃.version_ne_none_iff]
      exact .inl hwrites₂.version_self
  · intro k p hk
    have hmem := List.mem_of_getElem? hk
    have hplt := h.pip_lt hf (List.mem_append_left _ hmem)
    have hph : p ≠ a.headerPageIdx := by
      rintro rfl
      exact h.disk.header_not_mem_pips hmem
    obtain ⟨hklt, -⟩ := List.getElem?_eq_some_iff.mp hk
    rw [hwrites₃.version_ne_none_iff, hwrites₂.version_ne_none_iff, hwrites₁.version_ne_none_iff,
      hupdated, hP]
    have hne : p ≠ f.numPages := by omega
    have hne' : p ≠ f.numPages + 1 := by omega
    simp only [hph, hne, hne', or_false, hklt, and_true]
    have hk' : (pips ++ a.pipPageIdxsOfInsertedPIPs)[k]? = some p := by
      rw [List.getElem?_append_left hklt, hk]
    by_cases hlast : (pips ++ a.pipPageIdxsOfInsertedPIPs).getLast? = some p
    · have hidx : k + 1 = (pips ++ a.pipPageIdxsOfInsertedPIPs).length := by
        rw [List.getLast?_eq_getElem?] at hlast
        have hidx := (List.getElem?_inj (by simp; omega) h.seen.nodup_pips).mp
          (hk'.trans hlast.symm)
        simp only [List.length_append] at hidx ⊢
        omega
      simp [hidx, hlast₀ p hlast]
    · have hidx : k + 1 ≠ (pips ++ a.pipPageIdxsOfInsertedPIPs).length := by
        intro hidx
        rw [List.getLast?_eq_getElem?, ← hidx, Nat.add_sub_cancel] at hlast
        exact hlast hk'
      simp only [hidx, or_false, hver₀ p hlast]
      exact h.updated_iff k p hk
  · intro k hk
    rcases (hupdated k).mp hk with hmem | ⟨-, hlt⟩
    · exact h.updated_lt k hmem
    · exact hlt
  · rw [List.pairwise_append]
    refine ⟨h.spaced, List.pairwise_singleton _ _, fun p hp q hq ↦ ?_⟩
    rw [List.mem_singleton.mp hq]
    exact (h.le_of_inserted hpips hp).trans (Nat.le_succ _)
  · intro q hq
    obtain rfl : f.numPages + 1 = q := by simpa using hq
    rw [hnum]
    simp only [← List.append_assoc, List.length_append, List.length_singleton] at hlength hP ⊢
    omega
  · intro q hq
    rcases List.mem_append.mp hq with hq | hq
    · obtain ⟨p, hp, hlt⟩ := h.exists_lt q hq
      exact ⟨p, List.mem_append_left _ hp, hlt⟩
    · rw [List.mem_singleton.mp hq]
      exact ⟨f.numPages, by simp, Nat.lt_succ_self _⟩

/-- `pushBack` appends an element, and every page it adds to the file is a new page of the array. -/
theorem Represents.pushBack_eq_ok (h : Represents a f n₀ pips aps newAPs committed working)
    (hf : f.WellLogged) (v : ℕ) (junk : ℕ → Page) :
    ∃ a' f' newAPs', a.pushBack f v junk = .ok (a', f') ∧
      Represents a' f' n₀ pips aps newAPs' committed (working ++ [v]) ∧
      Touches f.numPages (a.oldPages pips aps ++ a.newPages newAPs) f f' ∧
      a'.headerPageIdx = a.headerPageIdx ∧ a'.hasTransactionalUpdates = true ∧
      ∀ p, p ∈ a'.newPages newAPs' ↔
        p ∈ a.newPages newAPs ∨ f.numPages ≤ p ∧ p < f'.numPages := by
  obtain ⟨f₁, w, hpin, hw, hnum, h₁, htouches₁⟩ :=
    h.touched.pin_header hf rfl (junk a.headerPageIdx)
  have hf₁ := htouches₁.wellLogged
  have hheader : (f₁.walPages w).asHeader = ⟨(pips ++ a.pipPageIdxsOfInsertedPIPs).head?,
      working.length, (aps ++ newAPs).length⟩ := by
    rw [← PagedFile.view_of_version hw]
    exact h₁.seen.header
  have hpin' : f.createWALVersionIfNecessaryAndPinPage a.headerPageIdx false
      (junk a.headerPageIdx) = .ok (f₁, w) := hpin
  have hlengthAPs := h₁.seen.length_aps
  have hlengthPips := h₁.seen.length_pips
  rcases Nat.lt_or_ge (working.length / 1024) (aps ++ newAPs).length with hlt | hfull
  · have hp := List.getElem?_eq_getElem hlt
    obtain ⟨f₂, hupdate, f₃, rfl, h₃, htouches₃, hnum₃⟩ := h₁.push_element (v := v) hf₁ rfl hw hp
      (junk (aps ++ newAPs)[working.length / 1024])
    rw [hnum] at htouches₃ hnum₃
    refine ⟨a.touched, _, newAPs, ?_, h₃, htouches₁.trans htouches₃, rfl, rfl, ?_⟩
    · have hap : a.touched.getAPPageIdx f₁ (working.length / 1024) .write =
          .ok (aps ++ newAPs)[working.length / 1024] := h₁.getAPPageIdx_write hf₁ hp
      simp only [pushBack, hpin', Lib.ok_bind, hheader, shiftRight_numElementsPerPageLog2,
        and_elementPageOffsetMask, getAPPageIdxAndAddAPToPIPIfNecessary, hlt, if_true]
      rw [show { a with hasTransactionalUpdates := true } = a.touched from rfl, hap]
      simp only [Lib.ok_bind, Lib.pure_eq_ok, hupdate]
      rfl
    · intro p
      have hnew : p ∉ a.newPages newAPs → ¬(f.numPages ≤ p ∧ p < f.numPages) := by omega
      rw [hnum₃, show a.touched.newPages newAPs = a.newPages newAPs from rfl]
      tauto
  · have hidx : working.length / 1024 = (aps ++ newAPs).length := by omega
    rcases Nat.lt_or_ge ((aps ++ newAPs).length / 1023)
      (pips ++ a.pipPageIdxsOfInsertedPIPs).length with hlt | hpips
    · have hq := List.getElem?_eq_getElem hlt
      obtain ⟨updated, hpip, hupdated⟩ := h₁.getPIPForNewAP_existing (g := f₁.addNewPage)
        ⟨(pips ++ a.pipPageIdxsOfInsertedPIPs).head?, working.length,
          (aps ++ newAPs).length + 1⟩ hq
      obtain ⟨f₂, f₃, hupdate₂, hupdate₃, f₄, rfl, h₄, htouches₄, hnum₄⟩ := h₁.push_ap (v := v) hf₁
        rfl hw hfull hq hupdated (junk f₁.numPages)
        (junk (pips ++ a.pipPageIdxsOfInsertedPIPs)[(aps ++ newAPs).length / 1023])
      rw [hnum] at htouches₄ hnum₄ h₄
      refine ⟨_, _, _, ?_, h₄, htouches₁.trans htouches₄, rfl, rfl, ?_⟩
      · simp only [pushBack, hpin', Lib.ok_bind, hheader, shiftRight_numElementsPerPageLog2,
          and_elementPageOffsetMask, getAPPageIdxAndAddAPToPIPIfNecessary, hidx, lt_irrefl,
          if_false, numPageIdxsPerPIP]
        rw [show { a with hasTransactionalUpdates := true } = a.touched from rfl, hpip]
        simp only [Lib.ok_bind, Bool.false_eq_true, if_false, hupdate₂, Lib.pure_eq_ok, hupdate₃]
        rfl
      · intro p
        have hnew : f.numPages ≤ p ∧ p < f.numPages + 1 ↔ p = f.numPages := by omega
        rw [hnum₄, hnew]
        simp only [newPages, InMemDiskArray.touched, List.mem_append, List.mem_singleton]
        tauto
    · obtain ⟨updated, f₀, f₂, f₃, hpip, hupdate₂, hupdate₃, f₄, rfl, h₄, htouches₄, hnum₄⟩ :=
        h₁.push_pip (v := v) hf₁ rfl hw hfull hpips ⟨(pips ++ a.pipPageIdxsOfInsertedPIPs).head?,
          working.length, (aps ++ newAPs).length + 1⟩ rfl (junk f₁.numPages)
          (junk (f₁.numPages + 1))
      rw [hnum] at htouches₄ hnum₄ h₄
      refine ⟨_, _, _, ?_, h₄, htouches₁.trans htouches₄, rfl, rfl, ?_⟩
      · simp only [pushBack, hpin', Lib.ok_bind, hheader, shiftRight_numElementsPerPageLog2,
          and_elementPageOffsetMask, getAPPageIdxAndAddAPToPIPIfNecessary, hidx, lt_irrefl,
          if_false, numPageIdxsPerPIP]
        rw [show { a with hasTransactionalUpdates := true } = a.touched from rfl, hpip]
        simp only [Lib.ok_bind, if_true, hupdate₂, Lib.pure_eq_ok, hupdate₃]
        rw [hnum]
      · intro p
        have hnew : f.numPages ≤ p ∧ p < f.numPages + 2 ↔ p = f.numPages + 1 ∨ p = f.numPages := by
          omega
        rw [hnum₄, hnew]
        simp only [newPages, InMemDiskArray.touched, List.mem_append, List.mem_singleton]
        tauto

/-! ## Other users of the file -/

theorem Represents.ownPages_lt {p : ℕ} (h : Represents a f n₀ pips aps newAPs committed working)
    (hf : f.WellLogged) (hp : p ∈ a.oldPages pips aps ++ a.newPages newAPs) : p < f.numPages := by
  rcases List.mem_append.mp hp with hold | hnew
  · exact Nat.lt_of_lt_of_le (h.old_lt p hold) h.le_numPages
  · exact hf.lt_numPages (h.new_version p hnew)

/-- An array does not notice writes to other pages. -/
theorem Represents.frame {other : List ℕ}
    (h : Represents a f n₀ pips aps newAPs committed working) (hf : f.WellLogged)
    (ht : Touches f.numPages other f f')
    (hother : ∀ p ∈ a.oldPages pips aps ++ a.newPages newAPs, p ∉ other) :
    Represents a f' n₀ pips aps newAPs committed working := by
  have hlt : ∀ p ∈ a.oldPages pips aps ++ a.newPages newAPs, p < f.numPages :=
    fun p hp ↦ h.ownPages_lt hf hp
  have hversion : ∀ p ∈ a.oldPages pips aps ++ a.newPages newAPs, f'.version p = f.version p :=
    fun p hp ↦ ht.version_eq p (hlt p hp) (hother p hp)
  refine ⟨ht.pages_eq ▸ h.disk, ?_, h.header_eq, ht.pages_eq ▸ h.pips_eq,
    ht.pages_eq ▸ h.inMemArrayPages_eq, h.old_lt, h.le_numPages.trans ht.numPages_le, h.le_new, ?_,
    ?_, h.updated_lt, ?_, h.spaced, ?_, h.exists_lt⟩
  · refine h.seen.congr fun p hp ↦ ?_
    have hmem : p ∈ a.oldPages pips aps ++ a.newPages newAPs := by
      simp only [oldPages, newPages, List.mem_cons, List.mem_append] at hp ⊢
      tauto
    exact ht.view_eq p (hlt p hmem) (hother p hmem)
  · exact fun p hp ↦ ht.version_mono p (h.new_version p hp)
  · intro k p hk
    have hmem : p ∈ a.oldPages pips aps ++ a.newPages newAPs := by
      simp [oldPages, List.mem_of_getElem? hk]
    rw [hversion p hmem]
    exact h.updated_iff k p hk
  · intro hflag
    obtain ⟨hnew, hold, heq⟩ := h.clean hflag
    refine ⟨hnew, fun p hp ↦ ?_, heq⟩
    rw [hversion p (List.mem_append_left _ hp), hold p hp]
  · exact fun q hq ↦ (h.last_add_le q hq).trans (Nat.add_le_add_right ht.numPages_le _)

end InMemDiskArray

end Graphflow.Storage
