import Graphflow.Database.State
import Graphflow.Lib.Bytes
import Graphflow.Lib.WriteBack

/-!
# Overflow files

`overflow_file.cpp` on the level of bytes.  Strings that are too long for their `gf_string_t` and
the elements of lists are appended at one cursor, each on one page; the value that refers to them
keeps the page and the position in the page.  A copy that leaves the frame of its page is
`Fault.invalidAccess`, and so is a pointer that does not point anywhere.
-/

namespace Graphflow

open Wal Storage Lib

/-! ## Values -/

namespace DataTypeID

/-- `Types::getDataTypeSize`; the types that have no size throw. -/
def getDataTypeSize : DataTypeID → Except Fault ℕ
  | .nodeID => .ok 16
  | .bool => .ok 1
  | .int64 => .ok 8
  | .double => .ok 8
  | .date => .ok 4
  | .timestamp => .ok 8
  | .interval => .ok 16
  | .string => .ok 16
  | .unstructured => .ok 32
  | .list => .ok 16
  | .any => .error (.exception "Cannot infer the size of dataTypeID: ANY.")
  | .node => .error (.exception "Cannot infer the size of dataTypeID: NODE.")
  | .rel => .error (.exception "Cannot infer the size of dataTypeID: REL.")

end DataTypeID

/-- A value: the characters of a string, the bytes of a value of another type of fixed size, or the
elements of a list. -/
def Literal : DataType → Type
  | .scalar _ => List UInt8
  | .list childType => List (Literal childType)

/-- A value in the memory of the caller.  The second component are the bytes that the memory has
where the characters of a string do not reach, or where the pointer of a long string or of a list
stands. -/
def InMemory : DataType → Type
  | .scalar _ => List UInt8 × (Fin 12 → UInt8)
  | .list childType => List (InMemory childType) × (Fin 8 → UInt8)

namespace InMemory

def literal : (dataType : DataType) → InMemory dataType → Literal dataType
  | .scalar _, value => value.1
  | .list childType, value => value.1.map (literal childType)

/-- `gf_string_t`: the length, a part of the characters, and in a long string a pointer. -/
def stringBytes (chars : List UInt8) (memory : Fin 12 → UInt8) : List UInt8 :=
  littleEndian 4 chars.length ++
    if chars.length ≤ shortStrLength then chars ++ (List.ofFn memory).drop chars.length
    else chars.take 4 ++ (List.ofFn memory).drop 4

/-- The bytes of the value itself, without what it points to. -/
def bytes : (dataType : DataType) → InMemory dataType → List UInt8
  | .scalar .string, value => stringBytes value.1 value.2
  | .scalar _, value => value.1
  | .list _, value => littleEndian 8 value.1.length ++ List.ofFn value.2

end InMemory

/-- `PageByteCursor`, as an overflow pointer has it. -/
structure OverflowPtr where
  pageIdx : ℕ
  pagePos : ℕ
  deriving DecidableEq, Repr

/-- The last two of the eight bytes stay as they are. -/
def encodeOverflowPtr (pointer : List UInt8) (ptr : OverflowPtr) : List UInt8 :=
  littleEndian 4 ptr.pageIdx ++ littleEndian 2 ptr.pagePos ++ pointer.drop 6

def decodeOverflowPtr (pointer : List UInt8) : OverflowPtr where
  pageIdx := ofLittleEndian (pointer.take 4)
  pagePos := ofLittleEndian ((pointer.drop 4).take 2)

/-- The pointer of a `gf_string_t` or `gf_list_t` stands in its last eight bytes. -/
def setOverflowPtr (bytes : List UInt8) (ptr : OverflowPtr) : List UInt8 :=
  bytes.take 8 ++ encodeOverflowPtr (bytes.drop 8) ptr

/-! ## The file -/

/-- A page of an overflow file; only the first 4096 addresses exist. -/
abbrev BytePage := Memory

structure OverflowFile where
  id : StorageStructureID
  file : StructureFile BytePage
  wal : Graphflow.WAL BytePage
  position : OverflowPosition
  /-- The contents of the frames that new pages get. -/
  junk : ℕ → BytePage
  /-- Where strings and elements of lists have been written, with their lengths. -/
  regions : List (OverflowPtr × ℕ) := []
  /-- The accesses to frames of WAL pages that the current call has made.  The pages of `wal` are
  what one finds there if no change of a frame is lost. -/
  accesses : List (FrameAccess BytePage) := []

/-- `memcpy` from a frame. -/
def copyFromFrame (page : BytePage) (pagePos numBytes : ℕ) : Except Fault (List UInt8) :=
  if pagePos + numBytes ≤ defaultPageSize then .ok (readAt page pagePos numBytes)
  else .error .invalidAccess

namespace OverflowFile

def numPages (f : OverflowFile) : ℕ := f.file.numPages

def nextBytePosToWriteTo (f : OverflowFile) : ℕ := f.position.nextBytePosToWriteTo

def setNextBytePosToWriteTo (f : OverflowFile) (pos : ℕ) : OverflowFile :=
  { f with position := { f.position with nextBytePosToWriteTo := pos } }

/-- `logNewOverflowFileNextBytePosRecordIfNecessaryWithoutLock`. -/
def logNewOverflowFileNextBytePosRecordIfNecessary (f : OverflowFile) : OverflowFile :=
  if f.position.loggedNewOverflowFileNextBytePosRecord then f
  else { f with
    position := { f.position with loggedNewOverflowFileNextBytePosRecord := true }
    wal := f.wal.log (.overflowFileNextBytePos f.id f.nextBytePosToWriteTo) }

def addNewPageToFileHandle (f : OverflowFile) : OverflowFile :=
  let page := f.junk f.numPages
  let (file, wal) := f.file.addNewPageToFileHandle f.id page f.wal
  { f with file := file, wal := wal, accesses := f.accesses ++ [.create f.wal.numPages page] }

/-- `addNewPageIfNecessaryWithoutLock`. -/
def addNewPageIfNecessary (f : OverflowFile) (numBytesToAppend : ℕ) : OverflowFile :=
  let posInPage := f.nextBytePosToWriteTo % defaultPageSize
  if posInPage = 0 ∨ posInPage + numBytesToAppend - 1 > defaultPageSize then
    (f.setNextBytePosToWriteTo (f.numPages * defaultPageSize)).addNewPageToFileHandle
  else f

/-- `createWALVersionIfNecessaryAndPinPage` marks the frame only if it makes the version. -/
def frameAccess (f : OverflowFile) (pageIdx : ℕ) (updateOp : BytePage → BytePage) :
    FrameAccess BytePage :=
  match f.file.fileHandle.pageVersions pageIdx with
  | some w => .update w updateOp
  | none => .create f.wal.numPages (updateOp (f.file.pages pageIdx))

/-- The update of the frame of `createWALVersionOfPageIfNecessaryForElement`. -/
def updatePage (f : OverflowFile) (pageIdx : ℕ) (updateOp : BytePage → BytePage) :
    Except Fault OverflowFile := do
  let f := if pageIdx = f.numPages then f.addNewPageToFileHandle else f
  let (file, wal) ← f.file.updatePage f.id pageIdx updateOp f.wal
  return { f with
    file := file
    wal := wal
    accesses := f.accesses ++ [f.frameAccess pageIdx updateOp] }

/-- What the write transaction finds on a page. -/
def writeView (f : OverflowFile) (pageIdx : ℕ) : Option BytePage := f.file.writeView f.wal pageIdx

/-- The part that strings and lists have in common: the bytes are copied to the cursor. -/
def append (f : OverflowFile) (bytes : List UInt8) : Except Fault (OverflowFile × OverflowPtr) := do
  let f := f.addNewPageIfNecessary bytes.length
  let ptr : OverflowPtr :=
    ⟨f.nextBytePosToWriteTo / defaultPageSize, f.nextBytePosToWriteTo % defaultPageSize⟩
  if ptr.pagePos + bytes.length > defaultPageSize then
    throw .invalidAccess
  let f ← f.updatePage ptr.pageIdx fun page ↦ overwrite page ptr.pagePos bytes
  let f := f.setNextBytePosToWriteTo (f.nextBytePosToWriteTo + bytes.length)
  return ({ f with regions := f.regions ++ [(ptr, bytes.length)] }, ptr)

/-- `TypeUtils::encodeOverflowPtr` for an element of a list, whose bytes are at `dst` in the frame
that the access number `pinnedAt` has pinned.  The frame has been unpinned since. -/
def storeOverflowPtr (f : OverflowFile) (pinnedAt : ℕ) (dst ptr : OverflowPtr) :
    Except Fault OverflowFile :=
  let updateOp : BytePage → BytePage := fun page ↦ overwrite page (dst.pagePos + 8)
    (littleEndian 4 ptr.pageIdx ++ littleEndian 2 ptr.pagePos)
  match f.file.fileHandle.pageVersions dst.pageIdx with
  | none => .error .invalidAccess
  | some w => .ok { f with
      wal := { f.wal with pages := Function.update f.wal.pages w (updateOp (f.wal.pages w)) }
      accesses := f.accesses ++ [.unpinned pinnedAt w updateOp] }

/-! ## Writing -/

def longStringErrorMessage (chars : List UInt8) : String :=
  "Maximum length of strings is " ++ toString defaultPageSize ++ ". Input string's length is " ++
    toString (chars.takeWhile (· ≠ 0)).length ++ "."

def longListErrorMessage (numBytes : ℕ) : String :=
  "Maximum num bytes of a LIST is " ++ toString defaultPageSize ++
    ". Input list's num bytes is " ++ formatD numBytes ++ "."

/-- `setStringOverflowWithoutLock`.  A string of up to `SHORT_STR_LENGTH` characters has characters
where others have the pointer that is followed here. -/
def setStringOverflow (f : OverflowFile) (chars : List UInt8) :
    Except Fault (OverflowFile × Option OverflowPtr) := do
  if chars.length < shortStrLength then
    return (f, none)
  else if chars.length > defaultPageSize then
    throw (.exception (longStringErrorMessage chars))
  else if chars.length ≤ shortStrLength then
    throw .invalidAccess
  else
    let (f, ptr) ← f.append chars
    return (f, some ptr)

/-- The first half of `setListRecursiveIfNestedWithoutLock`, which copies the elements without what
they point to. -/
def copyElements (childType : DataType) (f : OverflowFile) (elements : List (InMemory childType)) :
    Except Fault (OverflowFile × OverflowPtr) := do
  let elementSize ← childType.typeID.getDataTypeSize
  if elements.length * elementSize > defaultPageSize then
    throw (.exception (longListErrorMessage (elements.length * elementSize)))
  f.append (elements.flatMap (InMemory.bytes childType))

/-- A loop over the elements of a list that has been copied to `ptr`. -/
def forEachElement {α : Type} (set : OverflowFile → OverflowPtr → α → Except Fault OverflowFile)
    (elementSize : ℕ) (ptr : OverflowPtr) (f : OverflowFile) (elements : List α) :
    Except Fault OverflowFile :=
  elements.zipIdx.foldlM
    (fun f element ↦ set f ⟨ptr.pageIdx, ptr.pagePos + element.2 * elementSize⟩ element.1) f

/-- `setStringOverflowWithoutLock` for an element of a list; other scalars have no overflow. -/
def setScalar (typeID : DataTypeID) (pinnedAt : ℕ) (f : OverflowFile) (dst : OverflowPtr)
    (value : List UInt8) : Except Fault OverflowFile := do
  match typeID with
  | .string =>
      match ← f.setStringOverflow value with
      | (f, some ptr) => f.storeOverflowPtr pinnedAt dst ptr
      | (f, none) => return f
  | _ => return f

/-- The number of the last access, which has pinned the frame of the elements that it has copied. -/
def lastAccess (f : OverflowFile) : ℕ := f.accesses.length - 1

/-- What is done for an element whose bytes have been copied to `dst`. -/
def setElement : (dataType : DataType) → (pinnedAt : ℕ) → OverflowFile → OverflowPtr →
    InMemory dataType → Except Fault OverflowFile
  | .scalar typeID, pinnedAt, f, dst, value => setScalar typeID pinnedAt f dst value.1
  | .list childType, pinnedAt, f, dst, value => do
      let elementSize ← childType.typeID.getDataTypeSize
      let (f, ptr) ← copyElements childType f value.1
      let pinnedAtElements := f.lastAccess
      let f ← f.storeOverflowPtr pinnedAt dst ptr
      forEachElement (setElement childType pinnedAtElements) elementSize ptr f value.1

/-- The bytes of the string are those of the caller with the pointer replaced. -/
def writeStringOverflowAndUpdateOverflowPtr (f : OverflowFile)
    (value : InMemory (.scalar .string)) : Except Fault (OverflowFile × List UInt8) := do
  let f := f.logNewOverflowFileNextBytePosRecordIfNecessary
  match ← f.setStringOverflow value.1 with
  | (f, some ptr) => return (f, setOverflowPtr (InMemory.bytes (.scalar .string) value) ptr)
  | (f, none) => return (f, InMemory.bytes (.scalar .string) value)

def writeListOverflowAndUpdateOverflowPtr (childType : DataType) (f : OverflowFile)
    (value : InMemory (.list childType)) : Except Fault (OverflowFile × List UInt8) := do
  let f := f.logNewOverflowFileNextBytePosRecordIfNecessary
  let elementSize ← childType.typeID.getDataTypeSize
  let (f, ptr) ← copyElements childType f value.1
  let f ← forEachElement (setElement childType f.lastAccess) elementSize ptr f value.1
  return (f, setOverflowPtr (InMemory.bytes (.list childType) value) ptr)

/-! ## Reading -/

/-- `readString` and `readStringToVector`, with the pages that the transaction pins. -/
def readString (pin : ℕ → Option BytePage) (bytes : List UInt8) : Except Fault (List UInt8) :=
  let len := ofLittleEndian (bytes.take 4)
  if len ≤ shortStrLength then .ok ((bytes.drop 4).take len)
  else
    let ptr := decodeOverflowPtr (bytes.drop 8)
    match pin ptr.pageIdx with
    | some page => copyFromFrame page ptr.pagePos len
    | none => .error .invalidAccess

def readScalar (pin : ℕ → Option BytePage) (typeID : DataTypeID) (bytes : List UInt8) :
    Except Fault (List UInt8) :=
  match typeID with
  | .string => readString pin bytes
  | _ => .ok bytes

/-- The elements are copied from their page, and then read one after the other. -/
def readElements {α : Type} (pin : ℕ → Option BytePage) (read : List UInt8 → Except Fault α)
    (childType : DataType) (bytes : List UInt8) : Except Fault (List α) := do
  let size := ofLittleEndian (bytes.take 8)
  let ptr := decodeOverflowPtr (bytes.drop 8)
  let elementSize ← childType.typeID.getDataTypeSize
  match pin ptr.pageIdx with
  | none => throw .invalidAccess
  | some page =>
      let elements ← copyFromFrame page ptr.pagePos (size * elementSize)
      (List.range size).mapM fun i ↦ read ((elements.drop (i * elementSize)).take elementSize)

/-- `readListToVector`, and what it does with its elements. -/
def readValue (pin : ℕ → Option BytePage) :
    (dataType : DataType) → List UInt8 → Except Fault (Literal dataType)
  | .scalar typeID, bytes => readScalar pin typeID bytes
  | .list childType, bytes => readElements pin (readValue pin childType) childType bytes

/-- In a write transaction. -/
def readStringToVector (f : OverflowFile) (bytes : List UInt8) : Except Fault (List UInt8) :=
  readString f.writeView bytes

/-- The pages are those of the file in every transaction, and the strings are read as in a read-only
one. -/
def readListToVector (childType : DataType) (f : OverflowFile) (bytes : List UInt8) :
    Except Fault (Literal (.list childType)) :=
  readValue f.file.readView (.list childType) bytes

end OverflowFile

end Graphflow
