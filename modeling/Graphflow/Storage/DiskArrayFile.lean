import Graphflow.Common.Configs
import Graphflow.Lib.Except
import Graphflow.Lib.PageFile
import Mathlib.Data.Nat.Prime.Basic

/-!
# Disk arrays in a file

The header page, the page indices pages (PIPs) and the array pages of a disk array as bytes of a
file, and the constructors of `BaseDiskArray` and `BaseInMemDiskArray` that read them.  Elements are
the byte strings of a given size that a type of this size has in memory.
-/

namespace Graphflow.ArrayFile

open Lib

/-- `NUM_PAGE_IDXS_PER_PIP`. -/
def numPageIdxsPerPIP : ℕ := (defaultPageSize - 4) / 4

/-- A loop whose counter is an `int` overflows where it would have to count further. -/
inductive ArrayFault
  | exception (message : String)
  | assertionFailed
  | invalidAccess
  | signedOverflow
  | diverges
  deriving DecidableEq, Repr

/-! ## File handles -/

/-- Of the vectors of page locks and frames only the size is kept, which is the page capacity. -/
structure FileHandle where
  path : String
  fd : ℕ
  contents : FileBytes
  numPages : UInt32
  pageCapacity : UInt32
  numPages_le : numPages.toNat ≤ pageCapacity.toNat

namespace FileHandle

/-- A product that does not fit into 32 bits is no value that the conversion is defined for; it is
taken to wrap around. -/
def resizedCapacity (pageCapacity : UInt32) : UInt32 :=
  UInt32.ofNat (max (pageCapacity + 1).toNat (pageCapacity.toNat * 12 / 10 % 2 ^ 32))

/-- The lock and the frame of the new page are stored at its index, which must be less than the
capacity. -/
def addNewPage (fileHandle : FileHandle) : Except ArrayFault (UInt32 × FileHandle) :=
  let pageCapacity :=
    if fileHandle.numPages = fileHandle.pageCapacity then resizedCapacity fileHandle.pageCapacity
    else fileHandle.pageCapacity
  if h : fileHandle.numPages.toNat < pageCapacity.toNat then
    .ok (fileHandle.numPages, {
      fileHandle with
      numPages := fileHandle.numPages + 1
      pageCapacity
      numPages_le := by
        have hlt := pageCapacity.toNat_lt
        rw [UInt32.toNat_add, UInt32.toNat_one]
        omega })
  else .error .invalidAccess

def writeToFile (fileHandle : FileHandle) (buffer : List UInt8) (offset : ℕ) : FileHandle :=
  { fileHandle with contents := fileHandle.contents.write offset buffer }

def cannotReadMessage (fileHandle : FileHandle) (numBytesRead numBytes position : ℕ) : String :=
  "Cannot read from file: " ++ fileHandle.path ++ " fileDescriptor: " ++ toString fileHandle.fd ++
    " numBytesRead: " ++ toString numBytesRead ++ " numBytesToRead: " ++ toString numBytes ++
    " position: " ++ toString position

/-- What is read up to the end of the file is accepted even if it is less than asked for. -/
def readFromFile (fileHandle : FileHandle) (buffer : Memory) (numBytes position : ℕ) :
    Except ArrayFault Memory :=
  let numBytesRead := min numBytes (fileHandle.contents.size - position)
  if numBytesRead ≠ numBytes ∧ fileHandle.contents.size ≠ position + numBytesRead then
    .error (.exception (fileHandle.cannotReadMessage numBytesRead numBytes position))
  else .ok (overwrite buffer 0 (readAt fileHandle.contents.bytes position numBytesRead))

/-- A page is written from the beginning of a buffer of the given size. -/
def writePage (fileHandle : FileHandle) (bufferSize : ℕ) (buffer : Memory) (pageIdx : UInt32) :
    Except ArrayFault FileHandle :=
  if bufferSize < defaultPageSize then .error .invalidAccess
  else .ok (fileHandle.writeToFile (readAt buffer 0 defaultPageSize)
    (pageIdx.toNat * defaultPageSize))

def readPage (fileHandle : FileHandle) (bufferSize : ℕ) (buffer : Memory) (pageIdx : UInt32) :
    Except ArrayFault Memory :=
  if bufferSize < defaultPageSize then .error .invalidAccess
  else fileHandle.readFromFile buffer defaultPageSize (pageIdx.toNat * defaultPageSize)

end FileHandle

/-! ## What is on the pages -/

structure DiskArrayHeader where
  elementSize : UInt64
  numElementsPerPageLog2 : UInt64
  elementPageOffsetMask : UInt64
  firstPIPPageIdx : UInt64
  numElements : UInt64
  numAPs : UInt64

/-- `BitmaskUtils::all1sMaskForLeastSignificantBits`. -/
def all1sMaskForLeastSignificantBits (numBits : UInt64) : UInt64 :=
  if numBits = 64 then 18446744073709551615 else (1 <<< numBits) - 1

/-- A number as it stands in memory. -/
def numberAt (m : Memory) (width i : ℕ) : ℕ := ofLittleEndian (readAt m (i * width) width)

namespace DiskArrayHeader

/-- The constructor. -/
def ofElementSize (elementSize : UInt64) : DiskArrayHeader :=
  let numElementsPerPageLog2 := UInt64.ofNat (Nat.log2 (defaultPageSize / elementSize.toNat))
  { elementSize
    numElementsPerPageLog2
    elementPageOffsetMask := all1sMaskForLeastSignificantBits numElementsPerPageLog2
    firstPIPPageIdx := nullPageIdx.toUInt64
    numElements := 0
    numAPs := 0 }

/-- The fields as they stand in memory. -/
def fields (header : DiskArrayHeader) : List UInt64 :=
  [header.elementSize, header.numElementsPerPageLog2, header.elementPageOffsetMask,
    header.firstPIPPageIdx, header.numElements, header.numAPs]

def toBytes (header : DiskArrayHeader) : List UInt8 :=
  header.fields.flatMap fun field ↦ littleEndian 8 field.toNat

def ofMemory (m : Memory) : DiskArrayHeader where
  elementSize := UInt64.ofNat (numberAt m 8 0)
  numElementsPerPageLog2 := UInt64.ofNat (numberAt m 8 1)
  elementPageOffsetMask := UInt64.ofNat (numberAt m 8 2)
  firstPIPPageIdx := UInt64.ofNat (numberAt m 8 3)
  numElements := UInt64.ofNat (numberAt m 8 4)
  numAPs := UInt64.ofNat (numberAt m 8 5)

/-- `sizeof(DiskArrayHeader)`. -/
def numBytes : ℕ := 48

def saveToDisk (header : DiskArrayHeader) (fileHandle : FileHandle) (headerPageIdx : UInt32) :
    FileHandle :=
  fileHandle.writeToFile header.toBytes (headerPageIdx.toNat * defaultPageSize)

/-- The default constructor is that for elements of one byte. -/
def readFromFile (fileHandle : FileHandle) (headerPageIdx : UInt32) :
    Except ArrayFault DiskArrayHeader := do
  let m ← fileHandle.readFromFile (overwrite (fun _ ↦ 0) 0 (ofElementSize 1).toBytes) numBytes
    (headerPageIdx.toNat * defaultPageSize)
  return ofMemory m

end DiskArrayHeader

structure PIP where
  nextPipPageIdx : UInt32
  pageIdxs : Fin numPageIdxsPerPIP → UInt32

namespace PIP

/-- The constructor sets the link only, so the entries are those that the memory holds. -/
def new (garbage : Fin numPageIdxsPerPIP → UInt32) : PIP := ⟨nullPageIdx, garbage⟩

def fields (pip : PIP) : List UInt32 := pip.nextPipPageIdx :: List.ofFn pip.pageIdxs

def toBytes (pip : PIP) : List UInt8 := pip.fields.flatMap fun field ↦ littleEndian 4 field.toNat

def ofMemory (m : Memory) : PIP where
  nextPipPageIdx := UInt32.ofNat (numberAt m 4 0)
  pageIdxs i := UInt32.ofNat (numberAt m 4 (i + 1))

def setNextPipPageIdx (pip : PIP) (pageIdx : UInt32) : PIP := { pip with nextPipPageIdx := pageIdx }

def setPageIdx (pip : PIP) (offset : Fin numPageIdxsPerPIP) (pageIdx : UInt32) : PIP :=
  { pip with pageIdxs := Function.update pip.pageIdxs offset pageIdx }

end PIP

structure PIPWrapper where
  pipPageIdx : UInt32
  pipContents : PIP

namespace PIPWrapper

def readFromFile (fileHandle : FileHandle) (pipPageIdx : UInt32) :
    Except ArrayFault PIPWrapper := do
  let m ← fileHandle.readPage defaultPageSize (fun _ ↦ 0) pipPageIdx
  return ⟨pipPageIdx, .ofMemory m⟩

def modifyContents (f : PIP → PIP) (pip : PIPWrapper) : PIPWrapper :=
  { pip with pipContents := f pip.pipContents }

end PIPWrapper

/-! ## Arrays -/

structure BaseDiskArray where
  header : DiskArrayHeader
  headerPageIdx : UInt32
  pips : List PIPWrapper

/-- The array pages are buffers of so many elements as the header says. -/
structure BaseInMemDiskArray extends BaseDiskArray where
  inMemArrayPages : List Memory

/-- Where an entry of an array page is: the PIP and the offset in it. -/
def offsetInPIP (apIdx : ℕ) : Fin numPageIdxsPerPIP :=
  ⟨apIdx % numPageIdxsPerPIP, Nat.mod_lt _ (by decide)⟩

namespace BaseDiskArray

/-- `getAPPageIdxNoLock` of a read-only transaction. -/
def getAPPageIdx (a : BaseDiskArray) (apIdx : ℕ) : Except ArrayFault UInt32 :=
  match a.pips[apIdx / numPageIdxsPerPIP]? with
  | some pip => .ok (pip.pipContents.pageIdxs (offsetInPIP apIdx))
  | none => .error .invalidAccess

def getNumElements (a : BaseDiskArray) : UInt64 := a.header.numElements

/-- The position of an element: its array page, whose index has 32 bits, and its offset there. -/
def position (a : BaseDiskArray) (idx : UInt64) : UInt32 × UInt64 :=
  ((idx >>> a.header.numElementsPerPageLog2).toUInt32, idx &&& a.header.elementPageOffsetMask)

/-- The chain of PIPs from a page on.  The fuel bounds its length. -/
def readPIPs (fileHandle : FileHandle) : ℕ → UInt32 → Except ArrayFault (List PIPWrapper)
  | 0, _ => .error .diverges
  | fuel + 1, pipPageIdx => do
      let pip ← PIPWrapper.readFromFile fileHandle pipPageIdx
      if pip.pipContents.nextPipPageIdx ≠ nullPageIdx then
        let pips ← readPIPs fileHandle fuel pip.pipContents.nextPipPageIdx
        return pip :: pips
      else return [pip]

/-- The constructor that is used when loading from a file. -/
def load (fuel : ℕ) (fileHandle : FileHandle) (headerPageIdx : UInt32) :
    Except ArrayFault BaseDiskArray := do
  let header ← DiskArrayHeader.readFromFile fileHandle headerPageIdx
  if header.firstPIPPageIdx ≠ nullPageIdx.toUInt64 then
    let pips ← readPIPs fileHandle fuel header.firstPIPPageIdx.toUInt32
    return ⟨header, headerPageIdx, pips⟩
  else return ⟨header, headerPageIdx, []⟩

end BaseDiskArray

namespace BaseInMemDiskArray

/-- The number of bytes of an array page in memory. -/
def bufferSize (elementSize : ℕ) (header : DiskArrayHeader) : ℕ :=
  elementSize <<< header.numElementsPerPageLog2.toNat

/-- `addInMemoryArrayPageAndReadFromFile`: a new buffer, whose elements are zero, is filled. -/
def readArrayPageFromFile (elementSize : ℕ) (a : BaseDiskArray) (fileHandle : FileHandle)
    (apIdx : ℕ) : Except ArrayFault Memory := do
  let apPageIdx ← a.getAPPageIdx apIdx
  fileHandle.readPage (bufferSize elementSize a.header) (fun _ ↦ 0) apPageIdx

/-- The constructor that is used when loading from a file. -/
def load (elementSize fuel : ℕ) (fileHandle : FileHandle) (headerPageIdx : UInt32) :
    Except ArrayFault BaseInMemDiskArray := do
  let a ← BaseDiskArray.load fuel fileHandle headerPageIdx
  let inMemArrayPages ← (List.range a.header.numAPs.toNat).mapM
    (readArrayPageFromFile elementSize a fileHandle)
  return { a with inMemArrayPages }

def readOutOfRangeMessage (idx numElements : UInt64) : String :=
  "idx: " ++ toString idx.toNat ++
    " of the element in DiskArray is >= this->header.numElements: " ++
    toString numElements.toNat ++ " for read trx."

/-- An element of an array page. -/
def elementOn (elementSize : ℕ) (page : Memory) (offset : ℕ) : List UInt8 :=
  readAt page (offset * elementSize) elementSize

/-- An element on its page of the file. -/
def elementInFile (elementSize : ℕ) (a : BaseDiskArray) (fileHandle : FileHandle) (idx : UInt64) :
    Except ArrayFault (List UInt8) := do
  let (apIdx, offsetInAP) := a.position idx
  let page ← readArrayPageFromFile elementSize a fileHandle apIdx.toNat
  return elementOn elementSize page offsetInAP.toNat

/-- `get` for a read-only transaction. -/
def get (elementSize : ℕ) (a : BaseInMemDiskArray) (idx : UInt64) :
    Except ArrayFault (List UInt8) :=
  let (apIdx, offsetInAP) := a.position idx
  if idx ≥ a.header.numElements then
    .error (.exception (readOutOfRangeMessage idx a.header.numElements))
  else match a.inMemArrayPages[apIdx.toNat]? with
    | some page => .ok (elementOn elementSize page offsetInAP.toNat)
    | none => .error .invalidAccess

end BaseInMemDiskArray

/-! ## File handles: what the operations do -/

namespace FileHandle

variable {fileHandle : FileHandle} {buffer : Memory} {data : List UInt8} {a bufferSize : ℕ}
  {pageIdx : UInt32}

/-- Page indices are handed out in ascending order, up to the one before `UINT32_MAX`. -/
theorem exists_addNewPage (hroom : fileHandle.numPages.toNat < 2 ^ 32 - 1) :
    ∃ fileHandle', fileHandle.addNewPage = .ok (fileHandle.numPages, fileHandle') ∧
      fileHandle'.numPages.toNat = fileHandle.numPages.toNat + 1 ∧
      fileHandle'.contents = fileHandle.contents := by
  have hle := fileHandle.numPages_le
  have hnext : (fileHandle.numPages + 1).toNat = fileHandle.numPages.toNat + 1 := by
    rw [UInt32.toNat_add, UInt32.toNat_one]
    omega
  have hlt : fileHandle.numPages.toNat < (if fileHandle.numPages = fileHandle.pageCapacity then
      resizedCapacity fileHandle.pageCapacity else fileHandle.pageCapacity).toNat := by
    split_ifs with heq
    · rw [resizedCapacity, ← heq, hnext, UInt32.toNat_ofNat_of_lt' (by
        rw [UInt32.size]
        omega)]
      omega
    · have hne : fileHandle.numPages.toNat ≠ fileHandle.pageCapacity.toNat :=
        fun h ↦ heq (UInt32.toNat_inj.mp h)
      omega
  rw [addNewPage, dif_pos hlt]
  exact ⟨_, rfl, hnext, rfl⟩

theorem readFromFile_eq_ok (h : fileHandle.contents.Holds a data) :
    fileHandle.readFromFile buffer data.length a = .ok (overwrite buffer 0 data) := by
  have hle := h.le_size
  have hmin : min data.length (fileHandle.contents.size - a) = data.length :=
    Nat.min_eq_left (by omega)
  rw [readFromFile, hmin, if_neg (fun h ↦ h.1 rfl), h.readAt_eq]

theorem readPage_eq_ok (hsize : bufferSize = defaultPageSize)
    (hdata : data.length = defaultPageSize)
    (h : fileHandle.contents.Holds (pageIdx.toNat * defaultPageSize) data) :
    fileHandle.readPage bufferSize buffer pageIdx = .ok (overwrite buffer 0 data) := by
  rw [readPage, if_neg (by omega), ← hdata]
  exact readFromFile_eq_ok (hdata ▸ h)

end FileHandle

/-! ## Structures in memory -/

section Images

variable {m : Memory} {α : Type} {value : α → ℕ} {xs : List α} {width i : ℕ}

theorem numberAt_eq (hlt : ∀ x, value x < 256 ^ width)
    (h : readAt m 0 (xs.length * width) = xs.flatMap fun x ↦ littleEndian width (value x))
    (hi : i < xs.length) : numberAt m width i = value xs[i] := by
  have hread := readAt_of_readAt_flatMap (fun x _ ↦ length_littleEndian width (value x)) h i hi
  rw [Nat.zero_add] at hread
  rw [numberAt, hread, ofLittleEndian_littleEndian (hlt _)]

namespace DiskArrayHeader

variable {header : DiskArrayHeader}

theorem length_toBytes (header : DiskArrayHeader) : header.toBytes.length = numBytes := by
  rw [toBytes, length_flatMap_of_forall (fun x _ ↦ length_littleEndian 8 _)]
  rfl

theorem ofMemory_eq (h : readAt m 0 numBytes = header.toBytes) : ofMemory m = header := by
  have hfield : ∀ i (hi : i < header.fields.length),
      UInt64.ofNat (numberAt m 8 i) = header.fields[i] := by
    intro i hi
    rw [numberAt_eq (fun x : UInt64 ↦ x.toNat_lt) h hi, UInt64.ofNat_toNat]
  cases header
  simp only [ofMemory, hfield 0 (by decide : 0 < 6), hfield 1 (by decide : 1 < 6),
    hfield 2 (by decide : 2 < 6), hfield 3 (by decide : 3 < 6), hfield 4 (by decide : 4 < 6),
    hfield 5 (by decide : 5 < 6)]
  rfl

end DiskArrayHeader

namespace PIP

variable {pip : PIP}

theorem length_fields (pip : PIP) : pip.fields.length = numPageIdxsPerPIP + 1 := by
  rw [fields, List.length_cons, List.length_ofFn]

theorem succ_lt_length_fields (i : Fin numPageIdxsPerPIP) : (i : ℕ) + 1 < pip.fields.length := by
  rw [length_fields]
  exact Nat.succ_lt_succ i.isLt

theorem getElem_fields {i : Fin numPageIdxsPerPIP} (h : (i : ℕ) + 1 < pip.fields.length) :
    pip.fields[(i : ℕ) + 1] = pip.pageIdxs i := by
  have hlt : (i : ℕ) < (List.ofFn pip.pageIdxs).length := by simp
  calc pip.fields[(i : ℕ) + 1] = (List.ofFn pip.pageIdxs)[(i : ℕ)] :=
        List.getElem_cons_succ _ _ _ _
    _ = pip.pageIdxs i := List.getElem_ofFn _

theorem length_toBytes (pip : PIP) : pip.toBytes.length = defaultPageSize := by
  rw [toBytes, length_flatMap_of_forall (fun x _ ↦ length_littleEndian 4 _), length_fields]
  rfl

theorem ofMemory_eq (h : readAt m 0 defaultPageSize = pip.toBytes) : ofMemory m = pip := by
  have hsize : defaultPageSize = pip.fields.length * 4 := by
    rw [length_fields]
    rfl
  have hfield : ∀ i (hi : i < pip.fields.length),
      UInt32.ofNat (numberAt m 4 i) = pip.fields[i] := by
    intro i hi
    rw [hsize] at h
    rw [numberAt_eq (fun x : UInt32 ↦ x.toNat_lt) h hi, UInt32.ofNat_toNat]
  have hnext : UInt32.ofNat (numberAt m 4 0) = pip.nextPipPageIdx := by
    rw [hfield 0 (by rw [length_fields]; omega)]
    simp [fields]
  have hentries : ∀ i : Fin numPageIdxsPerPIP, UInt32.ofNat (numberAt m 4 (i + 1)) =
      pip.pageIdxs i := fun i ↦ (hfield _ (succ_lt_length_fields i)).trans (getElem_fields _)
  obtain ⟨next, pageIdxs⟩ := pip
  simp only [ofMemory, hnext, hentries]

end PIP

end Images

/-! ## Reading what is on the pages -/

/-- The page of a PIP; behind the last one there is none. -/
def BaseDiskArray.pipPageIdxAt (a : BaseDiskArray) (i : ℕ) : UInt32 :=
  match a.pips[i]? with
  | some pip => pip.pipPageIdx
  | none => nullPageIdx

/-- The header leads to the first PIP, and each PIP to the next one; the last one leads nowhere. -/
structure Linked (a : BaseDiskArray) : Prop where
  first : a.header.firstPIPPageIdx = (a.pipPageIdxAt 0).toUInt64
  next : ∀ i pip, a.pips[i]? = some pip → pip.pipPageIdx ≠ nullPageIdx ∧
    pip.pipContents.nextPipPageIdx = a.pipPageIdxAt (i + 1)

/-- The file has the header and the PIPs on their pages. -/
structure BaseOnDisk (a : BaseDiskArray) (f : FileBytes) : Prop where
  header : f.Holds (a.headerPageIdx.toNat * defaultPageSize) a.header.toBytes
  pips : ∀ pip ∈ a.pips, f.Holds (pip.pipPageIdx.toNat * defaultPageSize) pip.pipContents.toBytes

/-- The file has the array pages where the entries of the PIPs say. -/
def ArrayPagesOnDisk (a : BaseInMemDiskArray) (f : FileBytes) : Prop :=
  ∀ apIdx < a.header.numAPs.toNat, ∃ apPageIdx page, a.getAPPageIdx apIdx = .ok apPageIdx ∧
    a.inMemArrayPages[apIdx]? = some page ∧
    f.Holds (apPageIdx.toNat * defaultPageSize) (readAt page 0 defaultPageSize)

section Loading

variable {a : BaseDiskArray} {fileHandle : FileHandle} {elementSize fuel i : ℕ} {pip : PIPWrapper}

theorem readHeader_eq_ok (h : BaseOnDisk a fileHandle.contents) :
    DiskArrayHeader.readFromFile fileHandle a.headerPageIdx = .ok a.header := by
  have hlength := a.header.length_toBytes
  rw [DiskArrayHeader.readFromFile, ← hlength, FileHandle.readFromFile_eq_ok h.header, ok_bind,
    DiskArrayHeader.ofMemory_eq (hlength ▸ readAt_overwrite _ 0 a.header.toBytes), pure_eq_ok]

theorem readPIP_eq_ok (h : BaseOnDisk a fileHandle.contents) (hpip : pip ∈ a.pips) :
    PIPWrapper.readFromFile fileHandle pip.pipPageIdx = .ok pip := by
  have hlength := pip.pipContents.length_toBytes
  rw [PIPWrapper.readFromFile, FileHandle.readPage_eq_ok rfl hlength (h.pips pip hpip), ok_bind,
    PIP.ofMemory_eq (hlength ▸ readAt_overwrite _ 0 pip.pipContents.toBytes), pure_eq_ok]

/-- From each PIP on the chain is read to its end. -/
theorem readPIPs_eq_ok (h : BaseOnDisk a fileHandle.contents) (hlinked : Linked a)
    (hi : i < a.pips.length) (hfuel : a.pips.length ≤ fuel + i) :
    BaseDiskArray.readPIPs fileHandle fuel (a.pipPageIdxAt i) = .ok (a.pips.drop i) := by
  induction fuel generalizing i with
  | zero => omega
  | succ fuel ih =>
      have hpip : a.pips[i]? = some a.pips[i] := List.getElem?_eq_getElem hi
      have hpageIdx : a.pipPageIdxAt i = a.pips[i].pipPageIdx := by
        rw [BaseDiskArray.pipPageIdxAt, hpip]
      obtain ⟨-, hnext⟩ := hlinked.next i _ hpip
      rw [hpageIdx, BaseDiskArray.readPIPs, readPIP_eq_ok h (List.getElem_mem hi), ok_bind, hnext,
        List.drop_eq_getElem_cons hi]
      by_cases hlast : i + 1 < a.pips.length
      · have hne : a.pipPageIdxAt (i + 1) ≠ nullPageIdx := by
          have hpip' := List.getElem?_eq_getElem hlast
          rw [BaseDiskArray.pipPageIdxAt, hpip']
          exact (hlinked.next _ _ hpip').1
        rw [if_pos hne, ih hlast (by omega), ok_bind, pure_eq_ok]
      · have hend : a.pips[i + 1]? = none := List.getElem?_eq_none (by omega)
        rw [BaseDiskArray.pipPageIdxAt, hend, if_neg (fun h ↦ h rfl),
          List.drop_eq_nil_of_le (by omega), pure_eq_ok]

theorem load_eq_ok (h : BaseOnDisk a fileHandle.contents) (hlinked : Linked a)
    (hfuel : a.pips.length ≤ fuel) :
    BaseDiskArray.load fuel fileHandle a.headerPageIdx = .ok a := by
  rw [BaseDiskArray.load, readHeader_eq_ok h, ok_bind, hlinked.first]
  cases hpips : a.pips with
  | nil =>
      have hnone : a.pipPageIdxAt 0 = nullPageIdx := by
        rw [BaseDiskArray.pipPageIdxAt, hpips]
        rfl
      rw [hnone, if_neg (fun h ↦ h rfl), pure_eq_ok, ← hpips]
  | cons pip pips =>
      have hpos : 0 < a.pips.length := by
        rw [hpips]
        exact Nat.succ_pos _
      have hne : (a.pipPageIdxAt 0).toUInt64 ≠ nullPageIdx.toUInt64 := by
        have hfirst := List.getElem?_eq_getElem hpos
        rw [BaseDiskArray.pipPageIdxAt, hfirst]
        intro heq
        exact (hlinked.next 0 _ hfirst).1 (UInt32.toUInt64_inj.mp heq)
      rw [if_pos hne, UInt32.toUInt32_toUInt64, readPIPs_eq_ok h hlinked hpos (by omega), ok_bind,
        pure_eq_ok, List.drop_zero]

end Loading

/-! ## Elements -/

/-- Elements of the size that the header describes fill a page. -/
structure Geometry (elementSize : ℕ) (header : DiskArrayHeader) (log2 : ℕ) : Prop where
  numElementsPerPageLog2 : header.numElementsPerPageLog2.toNat = log2
  elementPageOffsetMask : header.elementPageOffsetMask.toNat = 2 ^ log2 - 1
  fills : elementSize * 2 ^ log2 = defaultPageSize

/-- The elements in memory, of which those without an array page are zero. -/
def contentAt (elementSize log2 : ℕ) (pages : List Memory) (idx : ℕ) : List UInt8 :=
  match pages[idx / 2 ^ log2]? with
  | some page => BaseInMemDiskArray.elementOn elementSize page (idx % 2 ^ log2)
  | none => List.replicate elementSize 0

section Elements

variable {elementSize log2 fuel apIdx : ℕ} {header : DiskArrayHeader} {a : BaseInMemDiskArray}
  {fileHandle : FileHandle} {page page' : Memory} {idx : UInt64}

/-- An element size that divides a page is a power of two. -/
theorem exists_geometry (hsize : elementSize ∣ defaultPageSize) :
    ∃ log2, Geometry elementSize (.ofElementSize (UInt64.ofNat elementSize)) log2 := by
  obtain ⟨j, hj, rfl⟩ := (Nat.dvd_prime_pow Nat.prime_two).mp (show elementSize ∣ 2 ^ 12 from hsize)
  refine ⟨12 - j, ?_⟩
  have hall : ∀ j < 13, (DiskArrayHeader.ofElementSize
        (UInt64.ofNat (2 ^ j))).numElementsPerPageLog2.toNat = 12 - j ∧
      (DiskArrayHeader.ofElementSize (UInt64.ofNat (2 ^ j))).elementPageOffsetMask.toNat =
        2 ^ (12 - j) - 1 ∧ 2 ^ j * 2 ^ (12 - j) = defaultPageSize := by
    decide +kernel
  obtain ⟨hlog2, hmask, hfills⟩ := hall j (Nat.lt_succ_of_le hj)
  exact ⟨hlog2, hmask, hfills⟩

theorem Geometry.le (h : Geometry elementSize header log2) : log2 ≤ 12 := by
  have hpos : 0 < elementSize := by
    have hfills := h.fills
    rcases Nat.eq_zero_or_pos elementSize with rfl | hpos
    · rw [Nat.zero_mul] at hfills
      exact absurd hfills (by decide)
    · exact hpos
  have hle : 2 ^ log2 ≤ 2 ^ 12 := by
    calc 2 ^ log2 ≤ elementSize * 2 ^ log2 := Nat.le_mul_of_pos_left _ hpos
      _ = 2 ^ 12 := h.fills
  exact (Nat.pow_le_pow_iff_right (by decide)).mp hle

theorem Geometry.bufferSize_eq (h : Geometry elementSize header log2) :
    BaseInMemDiskArray.bufferSize elementSize header = defaultPageSize := by
  rw [BaseInMemDiskArray.bufferSize, h.numElementsPerPageLog2, Nat.shiftLeft_eq, h.fills]

/-- Where an element is, if its array page has an index of 32 bits. -/
theorem Geometry.position_eq {a : BaseDiskArray} (h : Geometry elementSize a.header log2)
    (hlt : idx.toNat / 2 ^ log2 < 2 ^ 32) :
    (a.position idx).1.toNat = idx.toNat / 2 ^ log2 ∧
      (a.position idx).2.toNat = idx.toNat % 2 ^ log2 := by
  have hle := h.le
  constructor
  · rw [BaseDiskArray.position, UInt64.toNat_toUInt32, UInt64.toNat_shiftRight,
      h.numElementsPerPageLog2, Nat.mod_eq_of_lt (by omega : log2 < 64), Nat.shiftRight_eq_div_pow,
      Nat.mod_eq_of_lt hlt]
  · rw [BaseDiskArray.position, UInt64.toNat_and, h.elementPageOffsetMask,
      Nat.and_two_pow_sub_one_eq_mod]

/-- An element lies within its page. -/
theorem Geometry.elementOn_eq (h : Geometry elementSize header log2) (i : ℕ) :
    BaseInMemDiskArray.elementOn elementSize page (i % 2 ^ log2) =
      ((readAt page 0 defaultPageSize).drop (i % 2 ^ log2 * elementSize)).take elementSize := by
  have hlt : i % 2 ^ log2 + 1 ≤ 2 ^ log2 := Nat.mod_lt _ (Nat.two_pow_pos log2)
  have hinside : i % 2 ^ log2 * elementSize + elementSize ≤ defaultPageSize := by
    rw [← Nat.succ_mul, ← h.fills, Nat.mul_comm elementSize]
    exact Nat.mul_le_mul_right _ hlt
  rw [drop_readAt, take_readAt (by omega), Nat.zero_add]
  rfl

theorem get_eq_ok (h : Geometry elementSize a.header log2) (hidx : idx < a.header.numElements)
    (hlt : idx.toNat / 2 ^ log2 < 2 ^ 32)
    (hpage : idx.toNat / 2 ^ log2 < a.inMemArrayPages.length) :
    a.get elementSize idx = .ok (contentAt elementSize log2 a.inMemArrayPages idx.toNat) := by
  obtain ⟨hapIdx, hoffset⟩ := h.position_eq hlt
  have hsome := List.getElem?_eq_getElem hpage
  have hnot : ¬idx ≥ a.header.numElements := UInt64.not_le.mpr hidx
  rw [BaseInMemDiskArray.get, contentAt, hsome]
  simp only [hnot, if_false, hapIdx, hoffset, hsome]

/-- An array page as it is read. -/
def loadedPage (a : BaseInMemDiskArray) (apIdx : ℕ) : Memory :=
  overwrite (fun _ ↦ 0) 0 (readAt (a.inMemArrayPages.getD apIdx fun _ ↦ 0) 0 defaultPageSize)

def loadedPages (a : BaseInMemDiskArray) : List Memory :=
  (List.range a.header.numAPs.toNat).map (loadedPage a)

theorem readArrayPageFromFile_eq_ok (h : Geometry elementSize a.header log2)
    (hpages : ArrayPagesOnDisk a fileHandle.contents) (hapIdx : apIdx < a.header.numAPs.toNat) :
    BaseInMemDiskArray.readArrayPageFromFile elementSize a.toBaseDiskArray fileHandle apIdx =
      .ok (loadedPage a apIdx) := by
  obtain ⟨apPageIdx, page, hap, hpage, hholds⟩ := hpages apIdx hapIdx
  rw [BaseInMemDiskArray.readArrayPageFromFile, hap, ok_bind,
    FileHandle.readPage_eq_ok h.bufferSize_eq (length_readAt _ _ _) hholds, loadedPage,
    List.getD_eq_getElem?_getD, hpage, Option.getD_some]

theorem loadInMem_eq_ok (h : Geometry elementSize a.header log2)
    (hbase : BaseOnDisk a.toBaseDiskArray fileHandle.contents)
    (hpages : ArrayPagesOnDisk a fileHandle.contents) (hlinked : Linked a.toBaseDiskArray)
    (hfuel : a.pips.length ≤ fuel) :
    BaseInMemDiskArray.load elementSize fuel fileHandle a.headerPageIdx =
      .ok { a with inMemArrayPages := loadedPages a } := by
  have hread : ∀ apIdx ∈ List.range a.header.numAPs.toNat,
      BaseInMemDiskArray.readArrayPageFromFile elementSize a.toBaseDiskArray fileHandle apIdx =
        .ok (loadedPage a apIdx) :=
    fun apIdx hmem ↦ readArrayPageFromFile_eq_ok h hpages (List.mem_range.mp hmem)
  rw [BaseInMemDiskArray.load, load_eq_ok hbase hlinked hfuel, ok_bind, mapM_eq_ok hread, ok_bind,
    pure_eq_ok]
  rfl

/-- The elements on an array page are read as they are in memory. -/
theorem elementOn_loadedPage (h : Geometry elementSize a.header log2) {i : ℕ}
    (hpage : i / 2 ^ log2 < a.inMemArrayPages.length) :
    BaseInMemDiskArray.elementOn elementSize (loadedPage a (i / 2 ^ log2)) (i % 2 ^ log2) =
      contentAt elementSize log2 a.inMemArrayPages i := by
  have hsome := List.getElem?_eq_getElem hpage
  have hsame : readAt (loadedPage a (i / 2 ^ log2)) 0 defaultPageSize =
      readAt a.inMemArrayPages[i / 2 ^ log2] 0 defaultPageSize := by
    have hwritten := readAt_overwrite (fun _ ↦ 0) 0
      (readAt a.inMemArrayPages[i / 2 ^ log2] 0 defaultPageSize)
    rw [length_readAt] at hwritten
    rw [loadedPage, List.getD_eq_getElem?_getD, hsome, Option.getD_some, hwritten]
  rw [contentAt, hsome]
  simp only [h.elementOn_eq, hsame]

theorem elementInFile_eq_ok (h : Geometry elementSize a.header log2)
    (hpages : ArrayPagesOnDisk a fileHandle.contents) (hlt : idx.toNat / 2 ^ log2 < 2 ^ 32)
    (hap : idx.toNat / 2 ^ log2 < a.header.numAPs.toNat)
    (hpage : idx.toNat / 2 ^ log2 < a.inMemArrayPages.length) :
    BaseInMemDiskArray.elementInFile elementSize a.toBaseDiskArray fileHandle idx =
      .ok (contentAt elementSize log2 a.inMemArrayPages idx.toNat) := by
  obtain ⟨hapIdx, hoffset⟩ := h.position_eq hlt
  rw [BaseInMemDiskArray.elementInFile]
  simp only [hapIdx, hoffset, readArrayPageFromFile_eq_ok h hpages hap, ok_bind, pure_eq_ok,
    elementOn_loadedPage h hpage]

theorem contentAt_loadedPages (h : Geometry elementSize a.header log2) {i : ℕ}
    (hi : i / 2 ^ log2 < a.header.numAPs.toNat)
    (hpage : i / 2 ^ log2 < a.inMemArrayPages.length) :
    contentAt elementSize log2 (loadedPages a) i =
      contentAt elementSize log2 a.inMemArrayPages i := by
  have hloaded : (loadedPages a)[i / 2 ^ log2]? = some (loadedPage a (i / 2 ^ log2)) := by
    rw [loadedPages, List.getElem?_map, List.getElem?_range hi, Option.map_some]
  rw [contentAt, hloaded]
  exact elementOn_loadedPage h hpage

end Elements

end Graphflow.ArrayFile
