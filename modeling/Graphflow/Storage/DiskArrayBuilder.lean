import Graphflow.Lib.WhileLoop
import Graphflow.Storage.DiskArrayFile
import Mathlib.Data.List.GetD

/-!
# Building disk arrays

`InMemDiskArrayBuilder` gives an array a number of elements, for which it adds pages to the file and
enters them in PIPs, and writes everything to disk at the end.  The pages of an array are different
pages of the file, and the chain of PIPs goes through all that have been added.
-/

namespace Graphflow.ArrayFile

open Lib

/-- A loop `for (int i = first; i < bound; ++i)` whose turns do not use the counter, which starts
below `2 ^ 31`.  After the turn for `INT_MAX` the counter overflows. -/
def forInt {σ : Type} (first bound : UInt64) (turn : σ → Except ArrayFault σ) (s : σ) :
    Except ArrayFault σ := do
  let s ← (List.range (min bound.toNat (2 ^ 31) - first.toNat)).foldlM (fun s _ ↦ turn s) s
  if first < bound ∧ 2 ^ 31 ≤ bound.toNat then throw .signedOverflow
  return s

namespace BaseDiskArray

/-- A PIP is appended to the chain. -/
def addPIP (a : BaseDiskArray) (pipPageIdx : UInt32) (garbage : Fin numPageIdxsPerPIP → UInt32) :
    BaseDiskArray :=
  let pipIdx := a.pips.length
  let pips := a.pips ++ [⟨pipPageIdx, .new garbage⟩]
  if pipIdx = 0 then
    { a with header := { a.header with firstPIPPageIdx := pipPageIdx.toUInt64 }, pips }
  else
    { a with
      pips := pips.modify (pipIdx - 1)
        (PIPWrapper.modifyContents (·.setNextPipPageIdx pipPageIdx)) }

/-- An array page is entered in its PIP. -/
def enterArrayPage (a : BaseDiskArray) (apIdx : ℕ) (arrayPageIdx : UInt32) : BaseDiskArray :=
  { a with
    header := { a.header with numAPs := a.header.numAPs + 1 }
    pips := a.pips.modify (apIdx / numPageIdxsPerPIP)
      (PIPWrapper.modifyContents (·.setPageIdx (offsetInPIP apIdx) arrayPageIdx)) }

end BaseDiskArray

namespace InMemDiskArrayBuilder

/-- What the memory of a PIP holds before it is used may depend on its page. -/
abbrev Garbage := UInt32 → Fin numPageIdxsPerPIP → UInt32

def getNumArrayPagesNeededForElements (header : DiskArrayHeader) (numElements : UInt64) : UInt64 :=
  (numElements >>> header.numElementsPerPageLog2) +
    if numElements &&& header.elementPageOffsetMask > 0 then 1 else 0

/-- The page of the array page is added before that of a new PIP. -/
def addNewArrayPageForBuilding (garbage : Garbage) (s : BaseDiskArray × FileHandle) :
    Except ArrayFault (BaseDiskArray × FileHandle) := do
  let (a, fileHandle) := s
  let (arrayPageIdx, fileHandle) ← fileHandle.addNewPage
  let apIdx := a.header.numAPs.toNat
  let pipIdx := apIdx / numPageIdxsPerPIP
  let (a, fileHandle) ←
    if pipIdx = a.pips.length then do
      let (pipPageIdx, fileHandle) ← fileHandle.addNewPage
      pure (a.addPIP pipPageIdx (garbage pipPageIdx), fileHandle)
    else pure (a, fileHandle)
  if a.pips.length ≤ pipIdx then throw .invalidAccess
  return (a.enterArrayPage apIdx arrayPageIdx, fileHandle)

def setNumElementsAndAllocateDiskAPsForBuilding (garbage : Garbage) (newNumElements : UInt64)
    (a : BaseDiskArray) (fileHandle : FileHandle) :
    Except ArrayFault (BaseDiskArray × FileHandle) := do
  let oldNumArrayPages := a.header.numAPs
  let newNumArrayPages := getNumArrayPagesNeededForElements a.header newNumElements
  let (a, fileHandle) ← forInt oldNumArrayPages newNumArrayPages
    (addNewArrayPageForBuilding garbage) (a, fileHandle)
  return ({ a with
    header := { a.header with numElements := newNumElements, numAPs := newNumArrayPages } },
    fileHandle)

/-- The elements of a new array page are zero. -/
def addInMemoryArrayPage (pages : List Memory) : List Memory := pages ++ [fun _ ↦ 0]

/-- The constructor. -/
def new (garbage : Garbage) (elementSize : ℕ) (fileHandle : FileHandle) (headerPageIdx : UInt32)
    (numElements : UInt64) : Except ArrayFault (BaseInMemDiskArray × FileHandle) := do
  let (a, fileHandle) ← setNumElementsAndAllocateDiskAPsForBuilding garbage numElements
    ⟨.ofElementSize (UInt64.ofNat elementSize), headerPageIdx, []⟩ fileHandle
  let inMemArrayPages :=
    (List.range a.header.numAPs.toNat).foldl (fun pages _ ↦ addInMemoryArrayPage pages) []
  return ({ a with inMemArrayPages }, fileHandle)

def setNewNumElementsAndIncreaseCapacityIfNeeded (garbage : Garbage) (newNumElements : UInt64)
    (a : BaseInMemDiskArray) (fileHandle : FileHandle) :
    Except ArrayFault (BaseInMemDiskArray × FileHandle) := do
  let oldNumAPs := a.header.numAPs
  let (base, fileHandle) ← setNumElementsAndAllocateDiskAPsForBuilding garbage newNumElements
    a.toBaseDiskArray fileHandle
  let inMemArrayPages ← forInt oldNumAPs base.header.numAPs
    (fun pages ↦ .ok (addInMemoryArrayPage pages)) a.inMemArrayPages
  return ({ base with inMemArrayPages }, fileHandle)

/-- An assignment to `operator[]`. -/
def assign (elementSize : ℕ) (idx : UInt64) (val : List UInt8) (a : BaseInMemDiskArray) :
    Except ArrayFault BaseInMemDiskArray :=
  let (apIdx, offsetInArrayPage) := a.position idx
  if a.header.numAPs ≤ apIdx.toUInt64 then .error .assertionFailed
  else match a.inMemArrayPages[apIdx.toNat]? with
    | some page =>
        .ok { a with
          inMemArrayPages := a.inMemArrayPages.set apIdx.toNat
            (overwrite page (offsetInArrayPage.toNat * elementSize) val) }
    | none => .error .invalidAccess

/-- Saving an array page. -/
def saveArrayPage (elementSize : ℕ) (a : BaseInMemDiskArray) (fileHandle : FileHandle)
    (apIdx : ℕ) : Except ArrayFault FileHandle := do
  let apPageIdx ← a.getAPPageIdx apIdx
  match a.inMemArrayPages[apIdx]? with
  | some page =>
      fileHandle.writePage (BaseInMemDiskArray.bufferSize elementSize a.header) page apPageIdx
  | none => throw .invalidAccess

def saveToDisk (elementSize : ℕ) (a : BaseInMemDiskArray) (fileHandle : FileHandle) :
    Except ArrayFault FileHandle := do
  let fileHandle := a.header.saveToDisk fileHandle a.headerPageIdx
  let fileHandle ← a.pips.foldlM (fun fileHandle pip ↦ fileHandle.writePage defaultPageSize
    (overwrite (fun _ ↦ 0) 0 pip.pipContents.toBytes) pip.pipPageIdx) fileHandle
  (List.range a.header.numAPs.toNat).foldlM (saveArrayPage elementSize a) fileHandle

end InMemDiskArrayBuilder

/-! ## The pages of an array -/

namespace BaseDiskArray

/-- The page of an array page, which is entered in a PIP. -/
def apPageIdx (a : BaseDiskArray) (apIdx : ℕ) : UInt32 :=
  match a.pips[apIdx / numPageIdxsPerPIP]? with
  | some pip => pip.pipContents.pageIdxs (offsetInPIP apIdx)
  | none => nullPageIdx

/-- All pages of the file that belong to the array. -/
def ownPages (a : BaseDiskArray) : List UInt32 :=
  a.headerPageIdx :: (a.pips.map PIPWrapper.pipPageIdx ++
    (List.range a.header.numAPs.toNat).map a.apPageIdx)

end BaseDiskArray

/-- The pages of the array are different pages that the file has handed out, the PIPs form a chain
and have entries for all array pages. -/
structure Placed (a : BaseDiskArray) (fileHandle : FileHandle) : Prop where
  linked : Linked a
  room : a.header.numAPs.toNat ≤ numPageIdxsPerPIP * a.pips.length
  nodup : a.ownPages.Nodup
  below : ∀ p ∈ a.ownPages, p.toNat < fileHandle.numPages.toNat

section Places

variable {a : BaseDiskArray} {fileHandle fileHandle' : FileHandle} {pageIdx : UInt32}
  {garbage : Fin numPageIdxsPerPIP → UInt32} {pips : List PIPWrapper} {i j : ℕ} {f : PIP → PIP}

theorem numPageIdxsPerPIP_eq : numPageIdxsPerPIP = 1023 := rfl

theorem Placed.getAPPageIdx (h : Placed a fileHandle) (hj : j < a.header.numAPs.toNat) :
    a.getAPPageIdx j = .ok (a.apPageIdx j) := by
  have hroom := h.room
  have hpip : j / numPageIdxsPerPIP < a.pips.length := by
    rw [numPageIdxsPerPIP_eq] at *
    omega
  rw [BaseDiskArray.getAPPageIdx, BaseDiskArray.apPageIdx, List.getElem?_eq_getElem hpip]

theorem Placed.mono (h : Placed a fileHandle)
    (hle : fileHandle.numPages.toNat ≤ fileHandle'.numPages.toNat) : Placed a fileHandle' :=
  { h with below := fun p hp ↦ (h.below p hp).trans_le hle }

/-- A page that has not been handed out yet is none of the array. -/
theorem Placed.notMem (h : Placed a fileHandle)
    (hle : fileHandle.numPages.toNat ≤ pageIdx.toNat) : pageIdx ∉ a.ownPages :=
  fun hmem ↦ absurd (h.below pageIdx hmem) (Nat.not_lt.mpr hle)

theorem ne_nullPageIdx (hlt : pageIdx.toNat < fileHandle.numPages.toNat) :
    pageIdx ≠ nullPageIdx := by
  rintro rfl
  have hnumPages := fileHandle.numPages.toNat_lt
  have hnull : nullPageIdx.toNat = 2 ^ 32 - 1 := rfl
  omega

/-! Changing what is in a PIP changes no page. -/

theorem map_pipPageIdx_modify (pips : List PIPWrapper) (i : ℕ) (f : PIP → PIP) :
    (pips.modify i (PIPWrapper.modifyContents f)).map PIPWrapper.pipPageIdx =
      pips.map PIPWrapper.pipPageIdx := by
  apply List.ext_getElem?
  intro j
  rw [List.getElem?_map, List.getElem?_map, List.getElem?_modify]
  by_cases hij : i = j <;> cases pips[j]? <;> simp [hij, PIPWrapper.modifyContents]

theorem pipPageIdxAt_eq (a : BaseDiskArray) (i : ℕ) :
    a.pipPageIdxAt i = (a.pips.map PIPWrapper.pipPageIdx).getD i nullPageIdx := by
  rw [BaseDiskArray.pipPageIdxAt, List.getD_eq_getElem?_getD, List.getElem?_map]
  cases a.pips[i]? <;> rfl

theorem apPageIdx_eq (a : BaseDiskArray) (j : ℕ) : a.apPageIdx j =
    (a.pips[j / numPageIdxsPerPIP]?.map (·.pipContents.pageIdxs (offsetInPIP j))).getD
      nullPageIdx := by
  rw [BaseDiskArray.apPageIdx]
  cases a.pips[j / numPageIdxsPerPIP]? <;> rfl

/-! ## Adding a PIP -/

/-- The link of the last PIP is set to the new one. -/
theorem pips_addPIP (a : BaseDiskArray) (pageIdx : UInt32)
    (garbage : Fin numPageIdxsPerPIP → UInt32) : (a.addPIP pageIdx garbage).pips =
      a.pips.modify (a.pips.length - 1) (PIPWrapper.modifyContents (·.setNextPipPageIdx pageIdx)) ++
        [⟨pageIdx, .new garbage⟩] := by
  rw [BaseDiskArray.addPIP]
  by_cases hnil : a.pips.length = 0
  · simp [List.length_eq_zero_iff.mp hnil]
  · simp only [if_neg hnil]
    apply List.ext_getElem?
    intro i
    rw [List.getElem?_modify, List.getElem?_append, List.getElem?_append, List.length_modify,
      List.getElem?_modify]
    by_cases hi : i < a.pips.length
    · simp [hi]
    · simp [hi, show ¬a.pips.length - 1 = i by omega]

theorem length_pips_addPIP : (a.addPIP pageIdx garbage).pips.length = a.pips.length + 1 := by
  simp [pips_addPIP]

theorem map_pipPageIdx_addPIP : (a.addPIP pageIdx garbage).pips.map PIPWrapper.pipPageIdx =
    a.pips.map PIPWrapper.pipPageIdx ++ [pageIdx] := by
  simp [pips_addPIP, map_pipPageIdx_modify]

@[simp] theorem numAPs_addPIP : (a.addPIP pageIdx garbage).header.numAPs = a.header.numAPs := by
  rw [BaseDiskArray.addPIP]
  split_ifs <;> rfl

/-- What is entered for an array page does not depend on the link of its PIP. -/
theorem apPageIdx_addPIP (hj : j / numPageIdxsPerPIP < a.pips.length) :
    (a.addPIP pageIdx garbage).apPageIdx j = a.apPageIdx j := by
  rw [apPageIdx_eq, apPageIdx_eq, pips_addPIP, List.getElem?_append_left (by simpa using hj),
    List.getElem?_modify, List.getElem?_eq_getElem hj]
  by_cases hlast : a.pips.length - 1 = j / numPageIdxsPerPIP <;>
    simp [hlast, PIPWrapper.modifyContents, PIP.setNextPipPageIdx]

theorem Placed.div_lt (h : Placed a fileHandle) (hj : j < a.header.numAPs.toNat) :
    j / numPageIdxsPerPIP < a.pips.length :=
  Nat.div_lt_of_lt_mul (hj.trans_le h.room)

theorem Placed.ownPages_addPIP (h : Placed a fileHandle) :
    (a.addPIP pageIdx garbage).ownPages.Perm (pageIdx :: a.ownPages) := by
  have hheader : (a.addPIP pageIdx garbage).headerPageIdx = a.headerPageIdx := by
    rw [BaseDiskArray.addPIP]
    split_ifs <;> rfl
  have harrayPages : (List.range a.header.numAPs.toNat).map
        (a.addPIP pageIdx garbage).apPageIdx =
      (List.range a.header.numAPs.toNat).map a.apPageIdx :=
    List.map_congr_left fun j hj ↦ apPageIdx_addPIP (h.div_lt (List.mem_range.mp hj))
  rw [BaseDiskArray.ownPages, BaseDiskArray.ownPages, numAPs_addPIP, hheader, harrayPages,
    map_pipPageIdx_addPIP, List.append_assoc]
  exact (List.perm_middle.cons _).trans (.swap _ _ _)

theorem Placed.linked_addPIP (h : Placed a fileHandle) (hne : pageIdx ≠ nullPageIdx) :
    Linked (a.addPIP pageIdx garbage) where
  first := by
    rw [pipPageIdxAt_eq, map_pipPageIdx_addPIP, BaseDiskArray.addPIP]
    by_cases hnil : a.pips.length = 0
    · simp [List.length_eq_zero_iff.mp hnil]
    · have hfirst := h.linked.first
      rw [pipPageIdxAt_eq] at hfirst
      simp only [if_neg hnil]
      rw [hfirst, List.getD_append _ _ _ _ (by simpa using Nat.pos_of_ne_zero hnil)]
  next i pip hpip := by
    rw [pipPageIdxAt_eq, map_pipPageIdx_addPIP]
    rw [pips_addPIP, List.getElem?_append, List.length_modify] at hpip
    split_ifs at hpip with hi
    · -- a PIP that was there
      rw [List.getElem?_modify, List.getElem?_eq_getElem hi] at hpip
      obtain ⟨hne', hnext⟩ := h.linked.next i _ (List.getElem?_eq_getElem hi)
      rw [pipPageIdxAt_eq] at hnext
      by_cases hlast : a.pips.length - 1 = i
      · obtain rfl : PIPWrapper.modifyContents (·.setNextPipPageIdx pageIdx) a.pips[i] = pip := by
          simpa [hlast] using hpip
        refine ⟨hne', ?_⟩
        rw [List.getD_append_right _ _ _ _ (by rw [List.length_map]; omega), List.length_map,
          show i + 1 - a.pips.length = 0 by omega]
        rfl
      · obtain rfl : a.pips[i] = pip := by simpa [hlast] using hpip
        refine ⟨hne', ?_⟩
        rw [List.getD_append _ _ _ _ (by rw [List.length_map]; omega), hnext]
    · -- the new one
      obtain ⟨hi', rfl⟩ := List.getElem?_eq_some_iff.mp hpip
      have hi' : i = a.pips.length := by
        rw [List.length_singleton] at hi'
        omega
      subst hi'
      refine ⟨by simpa using hne, ?_⟩
      rw [List.getD_eq_default _ _ (by simp)]
      simp [PIP.new]

/-- An array that has got a page which it did not have. -/
theorem Placed.of_perm {a' : BaseDiskArray} (h : Placed a fileHandle) (hlinked : Linked a')
    (hroom : a'.header.numAPs.toNat ≤ numPageIdxsPerPIP * a'.pips.length)
    (hpages : a'.ownPages.Perm (pageIdx :: a.ownPages)) (hnew : pageIdx ∉ a.ownPages)
    (hlt : pageIdx.toNat < fileHandle.numPages.toNat) : Placed a' fileHandle where
  linked := hlinked
  room := hroom
  nodup := hpages.nodup_iff.mpr (List.nodup_cons.mpr ⟨hnew, h.nodup⟩)
  below p hp := by
    rcases List.mem_cons.mp (hpages.mem_iff.mp hp) with rfl | hp
    · exact hlt
    · exact h.below p hp

theorem Placed.addPIP (h : Placed a fileHandle) (hnew : pageIdx ∉ a.ownPages)
    (hlt : pageIdx.toNat < fileHandle.numPages.toNat) :
    Placed (a.addPIP pageIdx garbage) fileHandle := by
  refine h.of_perm (h.linked_addPIP (ne_nullPageIdx hlt)) ?_ h.ownPages_addPIP hnew hlt
  rw [numAPs_addPIP, length_pips_addPIP]
  exact h.room.trans (Nat.mul_le_mul_left _ (Nat.le_succ _))

/-! ## Entering an array page -/

theorem map_pipPageIdx_enterArrayPage : (a.enterArrayPage j pageIdx).pips.map
    PIPWrapper.pipPageIdx = a.pips.map PIPWrapper.pipPageIdx :=
  map_pipPageIdx_modify _ _ _

theorem length_pips_enterArrayPage :
    (a.enterArrayPage j pageIdx).pips.length = a.pips.length :=
  List.length_modify _ _ _

theorem numAPs_enterArrayPage (hlt : a.header.numAPs.toNat + 1 < 2 ^ 64) :
    (a.enterArrayPage j pageIdx).header.numAPs.toNat = a.header.numAPs.toNat + 1 := by
  rw [BaseDiskArray.enterArrayPage, UInt64.toNat_add, UInt64.toNat_one, Nat.mod_eq_of_lt hlt]

theorem linked_enterArrayPage (h : Linked a) : Linked (a.enterArrayPage j pageIdx) where
  first := by
    have hfirst := h.first
    rwa [pipPageIdxAt_eq, ← map_pipPageIdx_enterArrayPage, ← pipPageIdxAt_eq] at hfirst
  next i pip hpip := by
    rw [BaseDiskArray.enterArrayPage, List.getElem?_modify] at hpip
    obtain ⟨pip', hpip', rfl⟩ := Option.map_eq_some_iff.mp hpip
    have hnext := h.next i pip' hpip'
    rw [pipPageIdxAt_eq] at hnext
    rw [pipPageIdxAt_eq, map_pipPageIdx_enterArrayPage]
    by_cases hi : j / numPageIdxsPerPIP = i <;>
      simpa [hi, PIPWrapper.modifyContents, PIP.setPageIdx] using hnext

/-- An entry is read back, and those of other array pages stay as they are. -/
theorem apPageIdx_enterArrayPage (hi : i / numPageIdxsPerPIP < a.pips.length) :
    (a.enterArrayPage j pageIdx).apPageIdx i = if i = j then pageIdx else a.apPageIdx i := by
  rw [apPageIdx_eq, apPageIdx_eq, BaseDiskArray.enterArrayPage, List.getElem?_modify,
    List.getElem?_eq_getElem hi]
  by_cases hpip : j / numPageIdxsPerPIP = i / numPageIdxsPerPIP
  · have hoffset : offsetInPIP i = offsetInPIP j ↔ i = j := by
      have hi' := Nat.div_add_mod i numPageIdxsPerPIP
      have hj' := Nat.div_add_mod j numPageIdxsPerPIP
      rw [offsetInPIP, offsetInPIP, Fin.mk.injEq]
      constructor
      · intro hmod
        rw [← hi', ← hj', hpip, hmod]
      · rintro rfl
        rfl
    simp [hpip, PIPWrapper.modifyContents, PIP.setPageIdx, Function.update_apply, hoffset]
  · have hne : i ≠ j := by
      rintro rfl
      exact hpip rfl
    simp [hpip, hne]

theorem Placed.ownPages_enterArrayPage (h : Placed a fileHandle) (pageIdx : UInt32)
    (hroom : a.header.numAPs.toNat < numPageIdxsPerPIP * a.pips.length)
    (hlt : a.header.numAPs.toNat + 1 < 2 ^ 64) :
    (a.enterArrayPage a.header.numAPs.toNat pageIdx).ownPages = a.ownPages ++ [pageIdx] := by
  have holdPages : (List.range a.header.numAPs.toNat).map
        (a.enterArrayPage a.header.numAPs.toNat pageIdx).apPageIdx =
      (List.range a.header.numAPs.toNat).map a.apPageIdx := by
    apply List.map_congr_left
    intro j hj
    have hj := List.mem_range.mp hj
    rw [apPageIdx_enterArrayPage (h.div_lt hj), if_neg hj.ne]
  have hnewPage : (a.enterArrayPage a.header.numAPs.toNat pageIdx).apPageIdx
      a.header.numAPs.toNat = pageIdx := by
    rw [apPageIdx_enterArrayPage (Nat.div_lt_of_lt_mul hroom), if_pos rfl]
  rw [BaseDiskArray.ownPages, numAPs_enterArrayPage hlt, List.range_succ, List.map_append,
    holdPages, map_pipPageIdx_enterArrayPage, List.map_singleton, hnewPage,
    BaseDiskArray.ownPages]
  simp [BaseDiskArray.enterArrayPage]

theorem Placed.enterArrayPage (h : Placed a fileHandle)
    (hroom : a.header.numAPs.toNat < numPageIdxsPerPIP * a.pips.length)
    (hlt : a.header.numAPs.toNat + 1 < 2 ^ 64) (hnew : pageIdx ∉ a.ownPages)
    (hpage : pageIdx.toNat < fileHandle.numPages.toNat) :
    Placed (a.enterArrayPage a.header.numAPs.toNat pageIdx) fileHandle := by
  have hpages := h.ownPages_enterArrayPage pageIdx hroom hlt
  refine h.of_perm (linked_enterArrayPage h.linked) ?_ ?_ hnew hpage
  · rw [length_pips_enterArrayPage, numAPs_enterArrayPage hlt]
    exact hroom
  · rw [hpages]
    exact List.perm_append_singleton _ _

end Places

/-! ## Adding array pages -/

/-- So many PIPs are there for an array that had some and has grown to a number of array pages. -/
def numPIPsAfter (numPIPs numAPs : ℕ) : ℕ :=
  max numPIPs ((numAPs + (numPageIdxsPerPIP - 1)) / numPageIdxsPerPIP)

/-- What has become of an array and its file when a number of array pages has been added. -/
structure Grown (a : BaseDiskArray) (fileHandle : FileHandle) (k : ℕ)
    (s : BaseDiskArray × FileHandle) : Prop where
  placed : Placed s.1 s.2
  numAPs : s.1.header.numAPs.toNat = a.header.numAPs.toNat + k
  numPIPs : s.1.pips.length = numPIPsAfter a.pips.length (a.header.numAPs.toNat + k)
  numPages : s.2.numPages.toNat + a.pips.length =
    fileHandle.numPages.toNat + k + s.1.pips.length
  contents : s.2.contents = fileHandle.contents
  headerPageIdx : s.1.headerPageIdx = a.headerPageIdx
  header : s.1.header = { a.header with
    firstPIPPageIdx := s.1.header.firstPIPPageIdx, numAPs := s.1.header.numAPs }

section Growing

variable {a : BaseDiskArray} {fileHandle : FileHandle} {s s' : BaseDiskArray × FileHandle}
  {garbage : InMemDiskArrayBuilder.Garbage} {k l : ℕ}

theorem Placed.grown_zero (h : Placed a fileHandle) : Grown a fileHandle 0 (a, fileHandle) where
  placed := h
  numAPs := rfl
  numPIPs := by
    have hroom := h.room
    simp only [numPIPsAfter, numPageIdxsPerPIP_eq] at *
    omega
  numPages := rfl
  contents := rfl
  headerPageIdx := rfl
  header := rfl

theorem Grown.trans (h : Grown a fileHandle k s) (h' : Grown s.1 s.2 l s') :
    Grown a fileHandle (k + l) s' where
  placed := h'.placed
  numAPs := by rw [h'.numAPs, h.numAPs, Nat.add_assoc]
  numPIPs := by
    have hnumPIPs := h.numPIPs
    have hnumPIPs' := h'.numPIPs
    simp only [h.numAPs, numPIPsAfter, numPageIdxsPerPIP_eq] at *
    omega
  numPages := by
    have hnumPages := h.numPages
    have hnumPages' := h'.numPages
    omega
  contents := h'.contents.trans h.contents
  headerPageIdx := h'.headerPageIdx.trans h.headerPageIdx
  header := by rw [h'.header, h.header]

/-- An array page is added, with a PIP if the array has none with room for it. -/
theorem Placed.exists_addNewArrayPage (h : Placed a fileHandle)
    (garbage : InMemDiskArrayBuilder.Garbage) (hlt : a.header.numAPs.toNat + 1 < 2 ^ 64)
    (hpages : fileHandle.numPages.toNat + 1 +
      numPIPsAfter a.pips.length (a.header.numAPs.toNat + 1) < 2 ^ 32 + a.pips.length) :
    ∃ s', InMemDiskArrayBuilder.addNewArrayPageForBuilding garbage (a, fileHandle) = .ok s' ∧
      Grown a fileHandle 1 s' := by
  have hroom := h.room
  have hPIPs : a.pips.length ≤ numPIPsAfter a.pips.length (a.header.numAPs.toNat + 1) :=
    Nat.le_max_left _ _
  obtain ⟨fileHandle₁, hadd₁, hnum₁, hcontents₁⟩ :=
    fileHandle.exists_addNewPage (by omega)
  have h₁ : Placed a fileHandle₁ := h.mono (by omega)
  have hnew : fileHandle.numPages ∉ a.ownPages := h.notMem (Nat.le_refl _)
  rw [InMemDiskArrayBuilder.addNewArrayPageForBuilding]
  simp only [hadd₁, ok_bind]
  by_cases hpip : a.header.numAPs.toNat / numPageIdxsPerPIP = a.pips.length
  · -- the PIP is added behind the array page
    have hfull : a.header.numAPs.toNat = numPageIdxsPerPIP * a.pips.length := by
      rw [← hpip] at hroom ⊢
      exact Nat.le_antisymm hroom (Nat.mul_div_le _ _)
    have hnumPIPs : numPIPsAfter a.pips.length (a.header.numAPs.toNat + 1) = a.pips.length + 1 := by
      simp only [numPIPsAfter, numPageIdxsPerPIP_eq] at *
      omega
    obtain ⟨fileHandle₂, hadd₂, hnum₂, hcontents₂⟩ := fileHandle₁.exists_addNewPage (by omega)
    have hnewPIP : fileHandle₁.numPages ∉ a.ownPages := h.notMem (by omega)
    have hadded : Placed (a.addPIP fileHandle₁.numPages (garbage fileHandle₁.numPages))
        fileHandle₂ := (h₁.mono (by omega)).addPIP hnewPIP (by omega)
    have hnew' : fileHandle.numPages ∉
        (a.addPIP fileHandle₁.numPages (garbage fileHandle₁.numPages)).ownPages := by
      rw [h₁.ownPages_addPIP.mem_iff, List.mem_cons, not_or, ← UInt32.toNat_inj]
      exact ⟨by omega, hnew⟩
    have hentered := hadded.enterArrayPage (by
      rw [numAPs_addPIP, length_pips_addPIP, hfull]
      exact Nat.mul_lt_mul_of_pos_left (Nat.lt_succ_self _) (by decide)) (by simpa using hlt)
      hnew' (by omega)
    have hpresent : ¬a.pips.length + 1 ≤ a.pips.length := Nat.not_succ_le_self _
    simp only [hadd₂, ok_bind, pure_eq_ok, hpip, if_true, length_pips_addPIP, if_neg hpresent]
    refine ⟨_, rfl, ?_⟩
    rw [numAPs_addPIP] at hentered
    exact {
      placed := hentered
      numAPs := by
        rw [numAPs_enterArrayPage (by simpa using hlt), numAPs_addPIP]
      numPIPs := by rw [length_pips_enterArrayPage, length_pips_addPIP, hnumPIPs]
      numPages := by
        rw [length_pips_enterArrayPage, length_pips_addPIP, hnum₂, hnum₁]
        omega
      contents := hcontents₂.trans hcontents₁
      headerPageIdx := by
        rw [BaseDiskArray.addPIP]
        split_ifs <;> rfl
      header := by
        rw [BaseDiskArray.addPIP]
        split_ifs <;> rfl }
  · have hpresent : ¬a.pips.length ≤ a.header.numAPs.toNat / numPageIdxsPerPIP := by
      simp only [numPageIdxsPerPIP_eq] at *
      omega
    have hentered := h₁.enterArrayPage (by
      simp only [numPageIdxsPerPIP_eq] at *
      omega) hlt hnew (by omega)
    simp only [if_neg hpip, if_neg hpresent, ok_bind, pure_eq_ok]
    refine ⟨_, rfl, ?_⟩
    exact {
      placed := hentered
      numAPs := numAPs_enterArrayPage hlt
      numPIPs := by
        simp only [length_pips_enterArrayPage, numPIPsAfter, numPageIdxsPerPIP_eq] at *
        omega
      numPages := by
        simp only [length_pips_enterArrayPage, hnum₁]
      contents := hcontents₁
      headerPageIdx := rfl
      header := rfl }

/-- The rule for a loop that counts with an `int`. -/
theorem exists_forInt_eq_ok {σ : Type} {first bound : UInt64} {turn : σ → Except ArrayFault σ}
    {s : σ} (Inv : ℕ → σ → Prop) (hbound : bound.toNat < 2 ^ 31) (hs : Inv 0 s)
    (hturn : ∀ k < bound.toNat - first.toNat, ∀ s, Inv k s →
      ∃ s', turn s = .ok s' ∧ Inv (k + 1) s') :
    ∃ s', forInt first bound turn s = .ok s' ∧ Inv (bound.toNat - first.toNat) s' := by
  have hmin : min bound.toNat (2 ^ 31) - first.toNat = bound.toNat - first.toNat := by omega
  obtain ⟨s', hloop, hs'⟩ := exists_foldlM_range_eq_ok Inv hs hturn
  refine ⟨s', ?_, hs'⟩
  rw [forInt, hmin, hloop, ok_bind, if_neg (fun h ↦ absurd h.2 (Nat.not_le.mpr hbound))]
  rfl

theorem Placed.exists_addArrayPages (h : Placed a fileHandle)
    (garbage : InMemDiskArrayBuilder.Garbage) {numAPs : UInt64}
    (hsmall : numAPs.toNat < 2 ^ 31)
    (hpages : fileHandle.numPages.toNat + (numAPs.toNat - a.header.numAPs.toNat) +
      numPIPsAfter a.pips.length numAPs.toNat < 2 ^ 32 + a.pips.length) :
    ∃ s', forInt a.header.numAPs numAPs (InMemDiskArrayBuilder.addNewArrayPageForBuilding garbage)
        (a, fileHandle) = .ok s' ∧
      Grown a fileHandle (numAPs.toNat - a.header.numAPs.toNat) s' := by
  refine exists_forInt_eq_ok (Grown a fileHandle) hsmall h.grown_zero fun k hk s hs ↦ ?_
  have hroom : s.2.numPages.toNat + 1 +
      numPIPsAfter s.1.pips.length (s.1.header.numAPs.toNat + 1) < 2 ^ 32 + s.1.pips.length := by
    have hnumPages := hs.numPages
    have hnumPIPs := hs.numPIPs
    simp only [hs.numAPs, numPIPsAfter, numPageIdxsPerPIP_eq] at *
    omega
  obtain ⟨s', hs', hgrown⟩ := hs.placed.exists_addNewArrayPage garbage
    (by rw [hs.numAPs]; omega) hroom
  exact ⟨s', hs', hs.trans hgrown⟩

end Growing

/-! ## Changing the number of elements -/

/-- The number of array pages for a number of elements. -/
def pagesFor (elementSize numElements : ℕ) : ℕ :=
  (numElements + (defaultPageSize / elementSize - 1)) / (defaultPageSize / elementSize)

/-- What has become of an array and its file when the number of elements has been set. -/
structure Resized (elementSize log2 : ℕ) (a : BaseDiskArray) (fileHandle : FileHandle)
    (newNumElements : UInt64) (s : BaseDiskArray × FileHandle) : Prop where
  placed : Placed s.1 s.2
  geometry : Geometry elementSize s.1.header log2
  numElements : s.1.header.numElements = newNumElements
  numAPs : s.1.header.numAPs.toNat = pagesFor elementSize newNumElements.toNat
  numPIPs : s.1.pips.length = numPIPsAfter a.pips.length (pagesFor elementSize newNumElements.toNat)
  numPages : s.2.numPages.toNat + a.pips.length = fileHandle.numPages.toNat +
    (pagesFor elementSize newNumElements.toNat - a.header.numAPs.toNat) + s.1.pips.length
  contents : s.2.contents = fileHandle.contents
  headerPageIdx : s.1.headerPageIdx = a.headerPageIdx

section Resizing

variable {a : BaseDiskArray} {fileHandle : FileHandle} {elementSize log2 i n : ℕ}
  {header : DiskArrayHeader} {numElements numAPs : UInt64} {garbage : InMemDiskArrayBuilder.Garbage}

theorem Geometry.div_eq (h : Geometry elementSize header log2) :
    defaultPageSize / elementSize = 2 ^ log2 := by
  have hpos : 0 < elementSize := by
    rcases Nat.eq_zero_or_pos elementSize with rfl | hpos
    · have hfills := h.fills
      rw [Nat.zero_mul] at hfills
      exact absurd hfills (by decide)
    · exact hpos
  rw [← h.fills, Nat.mul_div_cancel_left _ hpos]

/-- Each element has an array page. -/
theorem Geometry.div_lt_pagesFor (h : Geometry elementSize header log2) (hi : i < n) :
    i / 2 ^ log2 < pagesFor elementSize n := by
  have hpos := Nat.two_pow_pos log2
  rw [pagesFor, h.div_eq, Nat.lt_div_iff_mul_lt hpos]
  have hle := Nat.div_mul_le_self i (2 ^ log2)
  omega

theorem Geometry.getNumArrayPagesNeededForElements_eq (h : Geometry elementSize header log2) :
    (InMemDiskArrayBuilder.getNumArrayPagesNeededForElements header numElements).toNat =
      pagesFor elementSize numElements.toNat := by
  have hpos := Nat.two_pow_pos log2
  have hlt := numElements.toNat_lt
  have hdiv := Nat.div_add_mod numElements.toNat (2 ^ log2)
  have hmod := Nat.mod_lt numElements.toNat hpos
  have hshift : (numElements >>> header.numElementsPerPageLog2).toNat =
      numElements.toNat / 2 ^ log2 := by
    have hle := h.le
    rw [UInt64.toNat_shiftRight, h.numElementsPerPageLog2, Nat.mod_eq_of_lt (by omega : log2 < 64),
      Nat.shiftRight_eq_div_pow]
  have hrest : (numElements &&& header.elementPageOffsetMask).toNat =
      numElements.toNat % 2 ^ log2 := by
    rw [UInt64.toNat_and, h.elementPageOffsetMask, Nat.and_two_pow_sub_one_eq_mod]
  have hle : numElements.toNat / 2 ^ log2 ≤ 2 ^ log2 * (numElements.toNat / 2 ^ log2) :=
    Nat.le_mul_of_pos_left _ hpos
  rw [InMemDiskArrayBuilder.getNumArrayPagesNeededForElements, pagesFor, h.div_eq,
    Nat.add_div hpos, Nat.div_eq_of_lt (by omega : 2 ^ log2 - 1 < 2 ^ log2),
    Nat.mod_eq_of_lt (by omega : 2 ^ log2 - 1 < 2 ^ log2), UInt64.toNat_add, hshift]
  have hrest_pos : numElements &&& header.elementPageOffsetMask > 0 ↔
      0 < numElements.toNat % 2 ^ log2 := by
    rw [gt_iff_lt, UInt64.lt_iff_toNat_lt, hrest, UInt64.toNat_zero]
  by_cases hrest0 : 0 < numElements.toNat % 2 ^ log2
  · rw [if_pos (hrest_pos.mpr hrest0), if_pos (by omega), UInt64.toNat_one,
      Nat.mod_eq_of_lt (by omega), Nat.add_zero]
  · rw [if_neg (mt hrest_pos.mp hrest0), if_neg (by omega), UInt64.toNat_zero,
      Nat.mod_eq_of_lt (by omega), Nat.add_zero]

theorem Placed.truncate (h : Placed a fileHandle)
    (hle : numAPs.toNat ≤ a.header.numAPs.toNat) :
    Placed { a with header := { a.header with numElements, numAPs } } fileHandle := by
  have hsublist : ({ a with header := { a.header with numElements, numAPs } } :
      BaseDiskArray).ownPages.Sublist a.ownPages :=
    (((List.range_sublist.mpr hle).map a.apPageIdx).append_left _).cons_cons _
  exact {
    linked := ⟨h.linked.first, h.linked.next⟩
    room := hle.trans h.room
    nodup := h.nodup.sublist hsublist
    below := fun p hp ↦ h.below p (hsublist.subset hp) }

theorem Placed.exists_setNumElements (h : Placed a fileHandle)
    (garbage : InMemDiskArrayBuilder.Garbage) (hgeometry : Geometry elementSize a.header log2)
    (hsmall : pagesFor elementSize numElements.toNat < 2 ^ 31)
    (hpages : fileHandle.numPages.toNat +
        (pagesFor elementSize numElements.toNat - a.header.numAPs.toNat) +
        numPIPsAfter a.pips.length (pagesFor elementSize numElements.toNat) <
      2 ^ 32 + a.pips.length) :
    ∃ s', InMemDiskArrayBuilder.setNumElementsAndAllocateDiskAPsForBuilding garbage numElements a
        fileHandle = .ok s' ∧ Resized elementSize log2 a fileHandle numElements s' := by
  rw [← hgeometry.getNumArrayPagesNeededForElements_eq] at hsmall hpages
  obtain ⟨s, hloop, hgrown⟩ := h.exists_addArrayPages garbage hsmall hpages
  rw [InMemDiskArrayBuilder.setNumElementsAndAllocateDiskAPsForBuilding]
  simp only [hloop, ok_bind, pure_eq_ok]
  refine ⟨_, rfl, ?_⟩
  have hroom := h.room
  have hnumPIPs := hgrown.numPIPs
  have hnumPages := hgrown.numPages
  have hheader := hgrown.header
  rw [hgeometry.getNumArrayPagesNeededForElements_eq] at *
  exact {
    placed := hgrown.placed.truncate (by
      rw [hgeometry.getNumArrayPagesNeededForElements_eq, hgrown.numAPs]
      omega)
    geometry := by
      have hlog2 := congrArg DiskArrayHeader.numElementsPerPageLog2 hheader
      have hmask := congrArg DiskArrayHeader.elementPageOffsetMask hheader
      exact ⟨hlog2 ▸ hgeometry.numElementsPerPageLog2, hmask ▸ hgeometry.elementPageOffsetMask,
        hgeometry.fills⟩
    numElements := rfl
    numAPs := hgeometry.getNumArrayPagesNeededForElements_eq
    numPIPs := by
      simp only [numPIPsAfter, numPageIdxsPerPIP_eq] at *
      omega
    numPages := hnumPages
    contents := hgrown.contents
    headerPageIdx := hgrown.headerPageIdx }

end Resizing

end Graphflow.ArrayFile
