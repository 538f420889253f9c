import Graphflow.Storage.DiskArrayBuilder
import Mathlib.Data.List.Nodup

/-!
# Saving a disk array and opening it

A built array is a number of elements and a value for each index.  The builder keeps it through
every history of resizing and assigning as long as the pages that it takes fit into the file, and
from what it saves `BaseDiskArray` and `InMemDiskArray` read it back.
-/

namespace Graphflow.ArrayFile

open Lib

/-! ## Histories -/

/-- An element keeps its value while the array is too short for it. -/
structure BuiltArray where
  numElements : UInt64
  elements : ℕ → List UInt8

inductive BuildStep
  | resize (newNumElements : UInt64)
  | assign (idx : UInt64) (val : List UInt8)

namespace BuiltArray

def new (elementSize : ℕ) (numElements : UInt64) : BuiltArray :=
  ⟨numElements, fun _ ↦ List.replicate elementSize 0⟩

def step (built : BuiltArray) : BuildStep → BuiltArray
  | .resize newNumElements => { built with numElements := newNumElements }
  | .assign idx val => { built with elements := Function.update built.elements idx.toNat val }

def run (built : BuiltArray) (steps : List BuildStep) : BuiltArray := steps.foldl step built

/-- What is assigned are elements of the array. -/
def Admits (elementSize : ℕ) (built : BuiltArray) : BuildStep → Prop
  | .resize _ => True
  | .assign idx val => idx < built.numElements ∧ val.length = elementSize

def AdmitsAll (elementSize : ℕ) (built : BuiltArray) : List BuildStep → Prop
  | [] => True
  | step :: steps => built.Admits elementSize step ∧ (built.step step).AdmitsAll elementSize steps

end BuiltArray

/-- The numbers of elements that an array is given. -/
def newLengths : List BuildStep → List UInt64
  | [] => []
  | .resize newNumElements :: steps => newNumElements :: newLengths steps
  | .assign _ _ :: steps => newLengths steps

/-- The number of pages that are added to the file for an array with some array pages and PIPs
while it is given numbers of array pages.  Pages are not given back. -/
def pagesTaken : ℕ → ℕ → List ℕ → ℕ
  | _, _, [] => 0
  | numAPs, numPIPs, newNumAPs :: rest =>
      (newNumAPs - numAPs) + (numPIPsAfter numPIPs newNumAPs - numPIPs) +
        pagesTaken newNumAPs (numPIPsAfter numPIPs newNumAPs) rest

/-- The pages for some numbers of elements can be counted with an `int` and have indices. -/
structure FitsFile (elementSize numPages numAPs numPIPs : ℕ) (lengths : List UInt64) : Prop where
  small : ∀ n ∈ lengths, pagesFor elementSize n.toNat < 2 ^ 31
  indices : numPages + pagesTaken numAPs numPIPs (lengths.map (pagesFor elementSize ·.toNat)) <
    2 ^ 32

namespace InMemDiskArrayBuilder

def takeStep (garbage : Garbage) (elementSize : ℕ) (s : BaseInMemDiskArray × FileHandle) :
    BuildStep → Except ArrayFault (BaseInMemDiskArray × FileHandle)
  | .resize newNumElements =>
      setNewNumElementsAndIncreaseCapacityIfNeeded garbage newNumElements s.1 s.2
  | .assign idx val => do
      let a ← assign elementSize idx val s.1
      return (a, s.2)

/-- An array is built by its constructor and steps. -/
def build (garbage : Garbage) (elementSize : ℕ) (fileHandle : FileHandle) (headerPageIdx : UInt32)
    (numElements : UInt64) (steps : List BuildStep) :
    Except ArrayFault (BaseInMemDiskArray × FileHandle) := do
  let s ← new garbage elementSize fileHandle headerPageIdx numElements
  steps.foldlM (takeStep garbage elementSize) s

end InMemDiskArrayBuilder

/-! ## What the builder keeps -/

/-- The builder has the array in memory and has places for its pages. -/
structure Builds (elementSize log2 : ℕ) (built : BuiltArray) (s : BaseInMemDiskArray × FileHandle) :
    Prop where
  placed : Placed s.1.toBaseDiskArray s.2
  geometry : Geometry elementSize s.1.header log2
  numElements : s.1.header.numElements = built.numElements
  numAPs : s.1.header.numAPs.toNat = pagesFor elementSize built.numElements.toNat
  small : pagesFor elementSize built.numElements.toNat < 2 ^ 31
  numAPs_le : s.1.header.numAPs.toNat ≤ s.1.inMemArrayPages.length
  content : contentAt elementSize log2 s.1.inMemArrayPages = built.elements

section Building

variable {elementSize log2 k : ℕ} {pages : List Memory} {built : BuiltArray}
  {s : BaseInMemDiskArray × FileHandle} {garbage : InMemDiskArrayBuilder.Garbage}
  {newNumElements idx : UInt64} {val : List UInt8}

theorem readAt_const_zero (a n : ℕ) : readAt (fun _ ↦ 0) a n = List.replicate n 0 := by
  rw [readAt, List.map_const', List.length_range]

theorem contentAt_append_zero (elementSize log2 k : ℕ) (pages : List Memory) :
    contentAt elementSize log2 (pages ++ List.replicate k fun _ ↦ 0) =
      contentAt elementSize log2 pages := by
  funext i
  rw [contentAt, contentAt, List.getElem?_append]
  split_ifs with hi
  · rfl
  · rw [List.getElem?_replicate, List.getElem?_eq_none (Nat.le_of_not_lt hi)]
    split_ifs
    · simp only [BaseInMemDiskArray.elementOn, readAt_const_zero]
    · rfl

/-- Writing an element changes this one only. -/
theorem contentAt_set {i : ℕ} {page : Memory} (hpage : pages[i / 2 ^ log2]? = some page)
    (hval : val.length = elementSize) :
    contentAt elementSize log2
        (pages.set (i / 2 ^ log2) (overwrite page (i % 2 ^ log2 * elementSize) val)) =
      Function.update (contentAt elementSize log2 pages) i val := by
  funext j
  rw [contentAt, Function.update_apply, List.getElem?_set]
  by_cases hsamePage : i / 2 ^ log2 = j / 2 ^ log2
  · obtain ⟨hlt, -⟩ := List.getElem?_eq_some_iff.mp hpage
    rw [if_pos hsamePage, if_pos hlt]
    simp only [BaseInMemDiskArray.elementOn]
    split_ifs with hij
    · rw [hij, ← hval, readAt_overwrite]
    · have hoffset : j % 2 ^ log2 ≠ i % 2 ^ log2 := by
        intro hmod
        apply hij
        rw [← Nat.div_add_mod j (2 ^ log2), ← Nat.div_add_mod i (2 ^ log2), hsamePage, hmod]
      have hdisjoint := FileBytes.disjoint_of_ne hoffset (Nat.le_of_eq hval) (Nat.le_of_eq hval)
      rw [hval] at hdisjoint
      rw [contentAt, ← hsamePage, hpage, readAt_overwrite_of_disjoint (by rwa [hval])]
      rfl
  · have hij : j ≠ i := by
      rintro rfl
      exact hsamePage rfl
    rw [if_neg hsamePage, if_neg hij]
    rfl

/-! ## The steps of the builder -/

theorem addInMemoryArrayPage_append (k : ℕ) (pages : List Memory) :
    InMemDiskArrayBuilder.addInMemoryArrayPage (pages ++ List.replicate k fun _ ↦ 0) =
      pages ++ List.replicate (k + 1) fun _ ↦ 0 := by
  rw [InMemDiskArrayBuilder.addInMemoryArrayPage, List.append_assoc, List.replicate_succ']

theorem forInt_addInMemoryArrayPage (first : UInt64) {bound : UInt64}
    (hbound : bound.toNat < 2 ^ 31) (pages : List Memory) :
    forInt first bound (fun pages ↦ .ok (InMemDiskArrayBuilder.addInMemoryArrayPage pages)) pages =
      .ok (pages ++ List.replicate (bound.toNat - first.toNat) fun _ ↦ 0) := by
  have hturn : ∀ k pages', pages' = pages ++ (List.replicate k fun _ ↦ 0) →
      ∃ pages'', (.ok (InMemDiskArrayBuilder.addInMemoryArrayPage pages') :
        Except ArrayFault (List Memory)) = .ok pages'' ∧
        pages'' = pages ++ List.replicate (k + 1) fun _ ↦ 0 := by
    rintro k _ rfl
    exact ⟨_, rfl, addInMemoryArrayPage_append k _⟩
  obtain ⟨pages', hadd, rfl⟩ := exists_forInt_eq_ok
    (fun k pages' ↦ pages' = pages ++ List.replicate k fun _ ↦ 0) hbound
    (List.append_nil pages).symm fun k _ ↦ hturn k
  exact hadd

/-- An array without array pages that has its header page. -/
theorem placed_new (elementSize : ℕ) {fileHandle : FileHandle} {headerPageIdx : UInt32}
    (hheader : headerPageIdx.toNat < fileHandle.numPages.toNat) :
    Placed ⟨.ofElementSize (UInt64.ofNat elementSize), headerPageIdx, []⟩ fileHandle where
  linked := ⟨rfl, fun i pip hpip ↦ by simp at hpip⟩
  room := Nat.zero_le _
  nodup := List.nodup_singleton _
  below p hp := by
    obtain rfl := List.mem_singleton.mp hp
    exact hheader

theorem exists_new (garbage : InMemDiskArrayBuilder.Garbage) {fileHandle : FileHandle}
    {headerPageIdx : UInt32}
    (hgeometry : Geometry elementSize (.ofElementSize (UInt64.ofNat elementSize)) log2)
    (hheader : headerPageIdx.toNat < fileHandle.numPages.toNat)
    (hsmall : pagesFor elementSize newNumElements.toNat < 2 ^ 31)
    (hpages : fileHandle.numPages.toNat + pagesFor elementSize newNumElements.toNat +
      numPIPsAfter 0 (pagesFor elementSize newNumElements.toNat) < 2 ^ 32) :
    ∃ s', InMemDiskArrayBuilder.new garbage elementSize fileHandle headerPageIdx newNumElements =
        .ok s' ∧ Builds elementSize log2 (.new elementSize newNumElements) s' ∧
      Resized elementSize log2 ⟨.ofElementSize (UInt64.ofNat elementSize), headerPageIdx, []⟩
        fileHandle newNumElements (s'.1.toBaseDiskArray, s'.2) := by
  obtain ⟨s, hset, hresized⟩ := (placed_new elementSize hheader).exists_setNumElements garbage
    hgeometry hsmall (by
      simpa [DiskArrayHeader.ofElementSize] using hpages)
  have hzero : ∀ n, (List.range n).foldl
      (fun pages _ ↦ InMemDiskArrayBuilder.addInMemoryArrayPage pages) [] =
        List.replicate n fun _ ↦ 0 := by
    intro n
    induction n with
    | zero => rfl
    | succ n ih =>
        rw [List.range_succ, List.foldl_append, ih]
        exact addInMemoryArrayPage_append n []
  rw [InMemDiskArrayBuilder.new]
  simp only [hset, ok_bind, pure_eq_ok, hzero]
  exact ⟨_, rfl, {
    placed := hresized.placed
    geometry := hresized.geometry
    numElements := hresized.numElements
    numAPs := hresized.numAPs
    small := hsmall
    numAPs_le := by simp
    content := contentAt_append_zero elementSize log2 _ [] }, hresized⟩

theorem Builds.exists_resize (h : Builds elementSize log2 built s)
    (garbage : InMemDiskArrayBuilder.Garbage)
    (hsmall : pagesFor elementSize newNumElements.toNat < 2 ^ 31)
    (hpages : s.2.numPages.toNat +
        (pagesFor elementSize newNumElements.toNat - s.1.header.numAPs.toNat) +
        numPIPsAfter s.1.pips.length (pagesFor elementSize newNumElements.toNat) <
      2 ^ 32 + s.1.pips.length) :
    ∃ s', InMemDiskArrayBuilder.takeStep garbage elementSize s (.resize newNumElements) = .ok s' ∧
      Builds elementSize log2 (built.step (.resize newNumElements)) s' ∧
      Resized elementSize log2 s.1.toBaseDiskArray s.2 newNumElements
        (s'.1.toBaseDiskArray, s'.2) := by
  obtain ⟨base, hset, hresized⟩ :=
    h.placed.exists_setNumElements garbage h.geometry hsmall hpages
  have hadd := forInt_addInMemoryArrayPage s.1.header.numAPs (hresized.numAPs ▸ hsmall)
    s.1.inMemArrayPages
  rw [InMemDiskArrayBuilder.takeStep,
    InMemDiskArrayBuilder.setNewNumElementsAndIncreaseCapacityIfNeeded]
  simp only [hset, hadd, ok_bind, pure_eq_ok]
  exact ⟨_, rfl, {
    placed := hresized.placed
    geometry := hresized.geometry
    numElements := hresized.numElements
    numAPs := hresized.numAPs
    small := hsmall
    numAPs_le := by
      have hle := h.numAPs_le
      simp only [List.length_append, List.length_replicate]
      omega
    content := (contentAt_append_zero elementSize log2 _ _).trans h.content }, hresized⟩

/-- An assignment needs no page. -/
theorem Builds.exists_assign (h : Builds elementSize log2 built s)
    (garbage : InMemDiskArrayBuilder.Garbage) (hidx : idx < built.numElements)
    (hval : val.length = elementSize) :
    ∃ a, InMemDiskArrayBuilder.takeStep garbage elementSize s (.assign idx val) = .ok (a, s.2) ∧
      Builds elementSize log2 (built.step (.assign idx val)) (a, s.2) ∧
      a.toBaseDiskArray = s.1.toBaseDiskArray := by
  have hap : idx.toNat / 2 ^ log2 < pagesFor elementSize built.numElements.toNat :=
    h.geometry.div_lt_pagesFor (UInt64.lt_iff_toNat_lt.mp hidx)
  have hsmall := h.small
  have hnumAPs := h.numAPs
  have hlength := h.numAPs_le
  have hlt : idx.toNat / 2 ^ log2 < 2 ^ 32 := by omega
  obtain ⟨hapIdx, hoffset⟩ := h.geometry.position_eq hlt
  have hpage : s.1.inMemArrayPages[idx.toNat / 2 ^ log2]? =
      some s.1.inMemArrayPages[idx.toNat / 2 ^ log2] := List.getElem?_eq_getElem _
  have hassert : ¬s.1.header.numAPs ≤ (s.1.position idx).1.toUInt64 := by
    rw [UInt64.le_iff_toNat_le, UInt32.toNat_toUInt64, hapIdx]
    omega
  rw [InMemDiskArrayBuilder.takeStep, InMemDiskArrayBuilder.assign]
  simp only [hassert, if_false, hapIdx, hoffset, hpage, ok_bind, pure_eq_ok]
  exact ⟨_, rfl, {
    placed := h.placed
    geometry := h.geometry
    numElements := h.numElements
    numAPs := h.numAPs
    small := h.small
    numAPs_le := by
      rw [List.length_set]
      exact h.numAPs_le
    content := by
      rw [contentAt_set hpage hval, h.content]
      rfl }, rfl⟩

/-! ## Whole histories -/

/-- What is left for the other lengths when there have been pages for the first one. -/
theorem FitsFile.tail {numPages numPages' numAPs numPIPs : ℕ} {lengths : List UInt64}
    (h : FitsFile elementSize numPages numAPs numPIPs (newNumElements :: lengths))
    (hnumPages : numPages' + numPIPs = numPages +
      (pagesFor elementSize newNumElements.toNat - numAPs) +
      numPIPsAfter numPIPs (pagesFor elementSize newNumElements.toNat)) :
    FitsFile elementSize numPages' (pagesFor elementSize newNumElements.toNat)
      (numPIPsAfter numPIPs (pagesFor elementSize newNumElements.toNat)) lengths where
  small n hn := h.small n (List.mem_cons_of_mem _ hn)
  indices := by
    have hindices := h.indices
    have hle : numPIPs ≤ numPIPsAfter numPIPs (pagesFor elementSize newNumElements.toNat) :=
      Nat.le_max_left _ _
    rw [List.map_cons, pagesTaken] at hindices
    omega

theorem FitsFile.head {numPages numAPs numPIPs : ℕ} {lengths : List UInt64}
    (h : FitsFile elementSize numPages numAPs numPIPs (newNumElements :: lengths)) :
    pagesFor elementSize newNumElements.toNat < 2 ^ 31 ∧
      numPages + (pagesFor elementSize newNumElements.toNat - numAPs) +
        numPIPsAfter numPIPs (pagesFor elementSize newNumElements.toNat) < 2 ^ 32 + numPIPs := by
  have hindices := h.indices
  have hle : numPIPs ≤ numPIPsAfter numPIPs (pagesFor elementSize newNumElements.toNat) :=
    Nat.le_max_left _ _
  rw [List.map_cons, pagesTaken] at hindices
  exact ⟨h.small newNumElements List.mem_cons_self, by omega⟩

theorem Resized.fitsFile {a : BaseDiskArray} {fileHandle : FileHandle} {lengths : List UInt64}
    {s' : BaseDiskArray × FileHandle}
    (h : Resized elementSize log2 a fileHandle newNumElements s')
    (hfits : FitsFile elementSize fileHandle.numPages.toNat a.header.numAPs.toNat a.pips.length
      (newNumElements :: lengths)) :
    FitsFile elementSize s'.2.numPages.toNat s'.1.header.numAPs.toNat s'.1.pips.length lengths := by
  have hnumPages := h.numPages
  rw [h.numPIPs] at hnumPages
  rw [h.numAPs, h.numPIPs]
  exact hfits.tail hnumPages

/-- Every history whose pages fit into the file is gone through. -/
theorem Builds.exists_run {steps : List BuildStep} (h : Builds elementSize log2 built s)
    (garbage : InMemDiskArrayBuilder.Garbage) (hadmits : built.AdmitsAll elementSize steps)
    (hfits : FitsFile elementSize s.2.numPages.toNat s.1.header.numAPs.toNat s.1.pips.length
      (newLengths steps)) :
    ∃ s', steps.foldlM (InMemDiskArrayBuilder.takeStep garbage elementSize) s = .ok s' ∧
      Builds elementSize log2 (built.run steps) s' ∧ s'.1.headerPageIdx = s.1.headerPageIdx := by
  induction steps generalizing built s with
  | nil => exact ⟨s, rfl, h, rfl⟩
  | cons step steps ih =>
      obtain ⟨hstep, hsteps⟩ := hadmits
      rw [List.foldlM_cons]
      cases step with
      | resize newNumElements =>
          rw [newLengths] at hfits
          obtain ⟨hsmall, hpages⟩ := hfits.head
          obtain ⟨s', htake, hbuilds, hresized⟩ :=
            h.exists_resize garbage hsmall hpages
          obtain ⟨s'', hrun, hbuilds', hheader⟩ := ih hbuilds hsteps (hresized.fitsFile hfits)
          refine ⟨s'', ?_, hbuilds', hheader.trans hresized.headerPageIdx⟩
          rw [htake, ok_bind, hrun]
      | assign idx val =>
          obtain ⟨a, htake, hbuilds, hbase⟩ := h.exists_assign garbage hstep.1 hstep.2
          obtain ⟨s'', hrun, hbuilds', hheader⟩ := ih hbuilds hsteps (hbase ▸ hfits)
          refine ⟨s'', ?_, hbuilds', hheader.trans (congrArg _ hbase)⟩
          rw [htake, ok_bind, hrun]

theorem exists_build (garbage : InMemDiskArrayBuilder.Garbage) {fileHandle : FileHandle}
    {headerPageIdx : UInt32} {numElements : UInt64}
    {steps : List BuildStep} (hsize : elementSize ∣ defaultPageSize)
    (hheader : headerPageIdx.toNat < fileHandle.numPages.toNat)
    (hadmits : (BuiltArray.new elementSize numElements).AdmitsAll elementSize steps)
    (hfits : FitsFile elementSize fileHandle.numPages.toNat 0 0 (numElements :: newLengths steps)) :
    ∃ log2 s, InMemDiskArrayBuilder.build garbage elementSize fileHandle headerPageIdx numElements
        steps = .ok s ∧
      Builds elementSize log2 ((BuiltArray.new elementSize numElements).run steps) s ∧
      s.1.headerPageIdx = headerPageIdx := by
  obtain ⟨log2, hgeometry⟩ := exists_geometry hsize
  obtain ⟨hsmall, hpages⟩ := hfits.head
  obtain ⟨s, hnew, hbuilds, hresized⟩ := exists_new garbage hgeometry hheader hsmall
    hpages
  obtain ⟨s', hrun, hbuilds', hheader'⟩ := hbuilds.exists_run garbage hadmits
    (hresized.fitsFile hfits)
  refine ⟨log2, s', ?_, hbuilds', hheader'.trans hresized.headerPageIdx⟩
  rw [InMemDiskArrayBuilder.build, hnew, ok_bind, hrun]

end Building

/-! ## What is saved -/

/-- What is written to a page. -/
def PIPWrapper.image (pip : PIPWrapper) : ℕ × List UInt8 :=
  (pip.pipPageIdx.toNat, pip.pipContents.toBytes)

def arrayPageImage (a : BaseInMemDiskArray) (apIdx : ℕ) : ℕ × List UInt8 :=
  ((a.apPageIdx apIdx).toNat,
    readAt (a.inMemArrayPages.getD apIdx fun _ ↦ 0) 0 defaultPageSize)

/-- All pages of an array. -/
def images (a : BaseInMemDiskArray) : List (ℕ × List UInt8) :=
  (a.headerPageIdx.toNat, a.header.toBytes) ::
    (a.pips.map PIPWrapper.image ++ (List.range a.header.numAPs.toNat).map (arrayPageImage a))

section Saving

variable {elementSize log2 : ℕ} {built : BuiltArray} {s : BaseInMemDiskArray × FileHandle}
  {a : BaseInMemDiskArray} {fileHandle : FileHandle} {w : ℕ × List UInt8}

/-- The array is written to its own pages. -/
theorem map_fst_images (a : BaseInMemDiskArray) :
    (images a).map Prod.fst = a.ownPages.map UInt32.toNat := by
  simp [images, BaseDiskArray.ownPages, Function.comp_def, PIPWrapper.image, arrayPageImage]

theorem length_of_mem_images (hmem : w ∈ images a) :
    w.2 ≠ [] ∧ w.2.length ≤ defaultPageSize := by
  have hlength : w.2.length = DiskArrayHeader.numBytes ∨ w.2.length = defaultPageSize := by
    rw [images, List.mem_cons, List.mem_append, List.mem_map, List.mem_map] at hmem
    rcases hmem with rfl | ⟨pip, -, rfl⟩ | ⟨apIdx, -, rfl⟩
    · exact .inl a.header.length_toBytes
    · exact .inr pip.pipContents.length_toBytes
    · exact .inr (by rw [arrayPageImage, length_readAt])
  have hsizes : 0 < DiskArrayHeader.numBytes ∧ DiskArrayHeader.numBytes ≤ defaultPageSize := by
    decide
  exact ⟨List.ne_nil_of_length_pos (by omega), by omega⟩

theorem writePage_eq_ok {buffer : Memory} {pageIdx : UInt32} {bufferSize : ℕ}
    (hsize : bufferSize = defaultPageSize) :
    fileHandle.writePage bufferSize buffer pageIdx = .ok (fileHandle.writeToFile
      (readAt buffer 0 defaultPageSize) (pageIdx.toNat * defaultPageSize)) := by
  rw [FileHandle.writePage, if_neg (by omega)]

/-- A loop that writes pages. -/
theorem foldlM_writePages {α : Type} {turn : FileHandle → α → Except ArrayFault FileHandle}
    {xs : List α} (f : α → ℕ × List UInt8)
    (hturn : ∀ x ∈ xs, ∀ fileHandle : FileHandle, turn fileHandle x =
      .ok (fileHandle.writeToFile (f x).2 ((f x).1 * defaultPageSize))) :
    xs.foldlM turn fileHandle = .ok { fileHandle with
      contents := .writePages defaultPageSize fileHandle.contents (xs.map f) } := by
  induction xs generalizing fileHandle with
  | nil => rfl
  | cons x xs ih =>
      rw [List.foldlM_cons, hturn x List.mem_cons_self, ok_bind,
        ih fun y hy ↦ hturn y (List.mem_cons_of_mem _ hy)]
      rfl

theorem Builds.saveToDisk_eq_ok (h : Builds elementSize log2 built s) :
    InMemDiskArrayBuilder.saveToDisk elementSize s.1 s.2 = .ok { s.2 with
      contents := .writePages defaultPageSize s.2.contents (images s.1) } := by
  have hpips : ∀ pip ∈ s.1.pips, ∀ fileHandle : FileHandle,
      fileHandle.writePage defaultPageSize (overwrite (fun _ ↦ 0) 0 pip.pipContents.toBytes)
          pip.pipPageIdx =
        .ok (fileHandle.writeToFile pip.image.2 (pip.image.1 * defaultPageSize)) := by
    intro pip _ fileHandle
    have hbytes := readAt_overwrite (fun _ ↦ 0) 0 pip.pipContents.toBytes
    rw [pip.pipContents.length_toBytes] at hbytes
    rw [writePage_eq_ok rfl, hbytes, PIPWrapper.image]
  have hpages : ∀ apIdx ∈ List.range s.1.header.numAPs.toNat, ∀ fileHandle : FileHandle,
      InMemDiskArrayBuilder.saveArrayPage elementSize s.1 fileHandle apIdx =
        .ok (fileHandle.writeToFile (arrayPageImage s.1 apIdx).2
          ((arrayPageImage s.1 apIdx).1 * defaultPageSize)) := by
    intro apIdx hmem fileHandle
    have hapIdx := List.mem_range.mp hmem
    have hpage := List.getElem?_eq_getElem (hapIdx.trans_le h.numAPs_le)
    rw [InMemDiskArrayBuilder.saveArrayPage, h.placed.getAPPageIdx hapIdx, ok_bind, hpage]
    simp only [writePage_eq_ok h.geometry.bufferSize_eq, arrayPageImage,
      List.getD_eq_getElem?_getD, hpage, Option.getD_some]
  rw [InMemDiskArrayBuilder.saveToDisk, images]
  simp only [foldlM_writePages PIPWrapper.image hpips, ok_bind,
    foldlM_writePages (arrayPageImage s.1) hpages]
  rw [FileBytes.writePages, FileBytes.writePages, FileBytes.writePages, List.foldl_cons,
    List.foldl_append]
  rfl

theorem Builds.onDisk (h : Builds elementSize log2 built s) (f : FileBytes) :
    BaseOnDisk s.1.toBaseDiskArray (f.writePages defaultPageSize (images s.1)) ∧
      ArrayPagesOnDisk s.1 (f.writePages defaultPageSize (images s.1)) := by
  have hnodup : ((images s.1).map Prod.fst).Nodup := by
    rw [map_fst_images]
    exact h.placed.nodup.map fun _ _ ↦ UInt32.toNat_inj.mp
  have hholds : ∀ image ∈ images s.1, (f.writePages defaultPageSize (images s.1)).Holds
      (image.1 * defaultPageSize) image.2 :=
    fun image hmem ↦ FileBytes.holds_writePages hnodup (fun w ↦ length_of_mem_images) hmem
  refine ⟨⟨hholds (s.1.headerPageIdx.toNat, s.1.header.toBytes) List.mem_cons_self,
    fun pip hpip ↦ ?_⟩, fun apIdx hapIdx ↦ ?_⟩
  · exact hholds pip.image
      (List.mem_cons_of_mem _ (List.mem_append_left _ (List.mem_map_of_mem hpip)))
  · have hpage := List.getElem?_eq_getElem (hapIdx.trans_le h.numAPs_le)
    have hheld := hholds (arrayPageImage s.1 apIdx) (List.mem_cons_of_mem _
      (List.mem_append_right _ (List.mem_map_of_mem (List.mem_range.mpr hapIdx))))
    simp only [arrayPageImage, List.getD_eq_getElem?_getD, hpage, Option.getD_some] at hheld
    exact ⟨_, _, h.placed.getAPPageIdx hapIdx, hpage, hheld⟩

end Saving

/-! ## Opening the array -/

/-- An array in memory has the elements of a built one. -/
structure HasElements (elementSize : ℕ) (built : BuiltArray) (a : BaseInMemDiskArray) : Prop where
  numElements : a.getNumElements = built.numElements
  elements : ∀ idx, idx < built.numElements →
    a.get elementSize idx = .ok (built.elements idx.toNat)

/-- Both ways of opening an array give the elements of a built one. -/
structure Opens (elementSize fuel : ℕ) (built : BuiltArray) (fileHandle : FileHandle)
    (headerPageIdx : UInt32) : Prop where
  base : ∃ a, BaseDiskArray.load fuel fileHandle headerPageIdx = .ok a ∧
    a.getNumElements = built.numElements ∧ ∀ idx, idx < built.numElements →
      BaseInMemDiskArray.elementInFile elementSize a fileHandle idx =
        .ok (built.elements idx.toNat)
  inMem : ∃ a, BaseInMemDiskArray.load elementSize fuel fileHandle headerPageIdx = .ok a ∧
    HasElements elementSize built a

/-- A history can be gone through, and what is saved after it can be opened again from every file
with these contents. -/
def ReadsBack (garbage : InMemDiskArrayBuilder.Garbage) (elementSize : ℕ) (fileHandle : FileHandle)
    (headerPageIdx : UInt32) (numElements : UInt64) (steps : List BuildStep) : Prop :=
  ∃ a final saved,
    InMemDiskArrayBuilder.build garbage elementSize fileHandle headerPageIdx numElements steps =
      .ok (a, final) ∧
    HasElements elementSize ((BuiltArray.new elementSize numElements).run steps) a ∧
    InMemDiskArrayBuilder.saveToDisk elementSize a final = .ok saved ∧
    ∀ opened : FileHandle, opened.contents = saved.contents → ∃ n, ∀ fuel, n ≤ fuel →
      Opens elementSize fuel ((BuiltArray.new elementSize numElements).run steps) opened
        headerPageIdx

section Opening

variable {elementSize log2 fuel : ℕ} {built : BuiltArray} {s : BaseInMemDiskArray × FileHandle}
  {opened : FileHandle} {idx : UInt64}

theorem Builds.div_lt (h : Builds elementSize log2 built s) (hidx : idx < built.numElements) :
    idx.toNat / 2 ^ log2 < s.1.header.numAPs.toNat := by
  rw [h.numAPs]
  exact h.geometry.div_lt_pagesFor (UInt64.lt_iff_toNat_lt.mp hidx)

theorem Builds.div_lt_two_pow (h : Builds elementSize log2 built s)
    (hidx : idx < built.numElements) : idx.toNat / 2 ^ log2 < 2 ^ 32 := by
  have hlt := h.div_lt hidx
  have hnumAPs := h.numAPs
  have hsmall := h.small
  omega

theorem Builds.hasElements (h : Builds elementSize log2 built s) :
    HasElements elementSize built s.1 where
  numElements := h.numElements
  elements idx hidx := by
    rw [get_eq_ok h.geometry (h.numElements ▸ hidx) (h.div_lt_two_pow hidx)
      ((h.div_lt hidx).trans_le h.numAPs_le), h.content]

theorem Builds.opens (h : Builds elementSize log2 built s) {f : FileBytes}
    (hopened : opened.contents = f.writePages defaultPageSize (images s.1))
    (hfuel : s.1.pips.length ≤ fuel) :
    Opens elementSize fuel built opened s.1.headerPageIdx := by
  obtain ⟨hbase, hpages⟩ := h.onDisk f
  rw [← hopened] at hbase hpages
  refine ⟨⟨_, load_eq_ok hbase h.placed.linked hfuel, h.numElements, fun idx hidx ↦ ?_⟩,
    ⟨_, loadInMem_eq_ok h.geometry hbase hpages h.placed.linked hfuel, h.numElements,
      fun idx hidx ↦ ?_⟩⟩
  · rw [elementInFile_eq_ok h.geometry hpages (h.div_lt_two_pow hidx) (h.div_lt hidx)
      ((h.div_lt hidx).trans_le h.numAPs_le), h.content]
  · have hloaded : idx.toNat / 2 ^ log2 < (loadedPages s.1).length := by
      simpa [loadedPages] using h.div_lt hidx
    rw [get_eq_ok (a := { s.1 with inMemArrayPages := loadedPages s.1 }) h.geometry
      (h.numElements ▸ hidx) (h.div_lt_two_pow hidx) hloaded,
      contentAt_loadedPages h.geometry (h.div_lt hidx) ((h.div_lt hidx).trans_le h.numAPs_le),
      h.content]

end Opening

/-- A file without contents that has a number of pages. -/
def emptyFile (numPages : UInt32) : FileHandle :=
  ⟨"lists.metadata", 3, ⟨0, fun _ ↦ 0, fun _ _ ↦ rfl⟩, numPages, numPages, Nat.le_refl _⟩

/-- An array is read back as it was built if its pages fit into the file. -/
theorem readsBack_of_fitsFile (garbage : InMemDiskArrayBuilder.Garbage) (elementSize : ℕ)
    (fileHandle : FileHandle) (headerPageIdx : UInt32) (numElements : UInt64)
    (steps : List BuildStep) (hsize : elementSize ∣ defaultPageSize)
    (hheader : headerPageIdx.toNat < fileHandle.numPages.toNat)
    (hadmits : (BuiltArray.new elementSize numElements).AdmitsAll elementSize steps)
    (hfits : FitsFile elementSize fileHandle.numPages.toNat 0 0 (numElements :: newLengths steps)) :
    ReadsBack garbage elementSize fileHandle headerPageIdx numElements steps := by
  obtain ⟨log2, s, hbuild, hbuilds, hheaderPage⟩ :=
    exists_build garbage hsize hheader hadmits hfits
  refine ⟨s.1, s.2, _, hbuild, hbuilds.hasElements, hbuilds.saveToDisk_eq_ok,
    fun opened hopened ↦ ⟨s.1.pips.length, fun fuel hfuel ↦ ?_⟩⟩
  rw [← hheaderPage]
  exact hbuilds.opens hopened hfuel

/-- A full array page to which another one is added, with the last element of each assigned. -/
theorem readsBack_twoPages : ReadsBack (fun _ _ ↦ 0) 4 (emptyFile 1) 0 1024
    [.assign 1023 [1, 2, 3, 4], .resize 1025, .assign 1024 [5, 6, 7, 8]] :=
  readsBack_of_fitsFile _ 4 (emptyFile 1) 0 1024 _ (by decide) (by decide)
    ⟨⟨by decide, rfl⟩, trivial, ⟨by decide, rfl⟩, trivial⟩
    ⟨List.forall_mem_cons.mpr ⟨by decide, List.forall_mem_singleton.mpr (by decide)⟩, by decide⟩

/-- With an index left for the array page but none for its PIP an element is too much. -/
theorem not_readsBack_almostFull : 4 ∣ defaultPageSize ∧
    (0 : UInt32).toNat < (emptyFile 4294967294).numPages.toNat ∧
    (BuiltArray.new 4 1).AdmitsAll 4 [] ∧
    ¬ReadsBack (fun _ _ ↦ 0) 4 (emptyFile 4294967294) 0 1 [] := by
  refine ⟨by decide, by decide, trivial, ?_⟩
  rintro ⟨a, final, saved, hbuild, -⟩
  have herror : InMemDiskArrayBuilder.build (fun _ _ ↦ 0) 4 (emptyFile 4294967294) 0 1 [] =
      .error .invalidAccess := by rfl
  rw [herror] at hbuild
  cases hbuild

end Graphflow.ArrayFile
