import Graphflow.Overflow.InMemFile

/-!
# Copying values with cursors

`copyString` and `copyList` of `in_mem_file.cpp`, for which every thread has a cursor on a page of
its own, and `readList` of `overflow_file.cpp`.
-/

namespace Graphflow

open Storage Lib

/-- `PageByteCursor`; `UINT32_MAX` is `none`. -/
structure PageByteCursor where
  pageIdx : Option ℕ := none
  offsetInPage : ℕ := 2 ^ 16 - 1
  deriving DecidableEq

/-- The elements whose bytes `copyList` copies as they are. -/
def DataTypeID.isFixedSized : DataTypeID → Bool
  | .int64 | .double | .bool | .date | .timestamp | .interval => true
  | _ => false

namespace InMemOverflowFile

/-! ## Writing -/

/-- The allocation that `copyList` and `copyStringOverflow` make for a number of bytes. -/
def allocatePageIfNecessary (f : InMemOverflowFile) (cursor : PageByteCursor) (numBytes : ℕ) :
    InMemOverflowFile × PageByteCursor :=
  if cursor.offsetInPage + numBytes ≥ defaultPageSize ∨ cursor.pageIdx = none then
    (f.addANewPage, ⟨some f.numPages, 0⟩)
  else (f, cursor)

def copyStringOverflow (f : InMemOverflowFile) (cursor : PageByteCursor)
    (srcOverflow : List UInt8) : Except Fault (InMemOverflowFile × PageByteCursor × OverflowPtr) :=
  match f.allocatePageIfNecessary cursor srcOverflow.length with
  | (f, ⟨some pageIdx, offsetInPage⟩) => do
      let f ← f.write pageIdx offsetInPage srcOverflow
      return (f, ⟨some pageIdx, offsetInPage + srcOverflow.length⟩, ⟨pageIdx, offsetInPage⟩)
  | (_, ⟨none, _⟩) => .error .invalidAccess

def copyString (f : InMemOverflowFile) (cursor : PageByteCursor) (rawString : List UInt8) :
    Except Fault (InMemOverflowFile × PageByteCursor × List UInt8) := do
  if rawString.length ≤ shortStrLength then
    return (f, cursor, makeString rawString)
  else
    let (f, cursor, ptr) ← f.copyStringOverflow cursor rawString
    return (f, cursor, setOverflowPtr (makeString rawString) ptr)

/-- The loops of `copyFixedSizedValuesToPages` and `copyVarSizedValuesToPages` that write the
elements one behind the other. -/
def writeElements (f : InMemOverflowFile) (pageIdx numBytesOfListElement : ℕ) :
    ℕ → List (List UInt8) → Except Fault InMemOverflowFile
  | _, [] => .ok f
  | offsetInPage, element :: elements => do
      let f ← f.write pageIdx offsetInPage element
      writeElements f pageIdx numBytesOfListElement (offsetInPage + numBytesOfListElement) elements

/-- The loop of `copyVarSizedValuesToPages` that copies what the elements point to. -/
def copyEach {α : Type} (copy : InMemOverflowFile → PageByteCursor → α →
    Except Fault (InMemOverflowFile × PageByteCursor × List UInt8)) :
    InMemOverflowFile → PageByteCursor → List α →
      Except Fault (InMemOverflowFile × PageByteCursor × List (List UInt8))
  | f, cursor, [] => .ok (f, cursor, [])
  | f, cursor, value :: values => do
      let (f, cursor, element) ← copy f cursor value
      let (f, cursor, elements) ← copyEach copy f cursor values
      return (f, cursor, element :: elements)

/-- The elements are reserved at the cursor, which moves on while they are copied; then they are
written to the page that the cursor has come to. -/
def copyVarSizedValuesToPages {α : Type} (copy : InMemOverflowFile → PageByteCursor → α →
      Except Fault (InMemOverflowFile × PageByteCursor × List UInt8))
    (f : InMemOverflowFile) (cursor : PageByteCursor) (numBytesOfListElement : ℕ)
    (values : List α) : Except Fault (InMemOverflowFile × PageByteCursor) := do
  let overflowPageOffset := cursor.offsetInPage
  let (f, cursor, elements) ← copyEach copy f
    { cursor with
      offsetInPage := overflowPageOffset + values.length * numBytesOfListElement } values
  match cursor.pageIdx with
  | some pageIdx =>
      let f ← f.writeElements pageIdx numBytesOfListElement overflowPageOffset elements
      return (f, cursor)
  | none => throw .invalidAccess

def copyFixedSizedValuesToPages (f : InMemOverflowFile) (cursor : PageByteCursor)
    (numBytesOfListElement : ℕ) (values : List (List UInt8)) :
    Except Fault (InMemOverflowFile × PageByteCursor) := do
  match cursor.pageIdx with
  | some pageIdx =>
      let f ← f.writeElements pageIdx numBytesOfListElement cursor.offsetInPage values
      return (f, { cursor with
        offsetInPage := cursor.offsetInPage + values.length * numBytesOfListElement })
  | none => throw .invalidAccess

/-- `gf_list_t` without its pointer. -/
def makeList (size : ℕ) : List UInt8 := littleEndian 8 size ++ List.ofFn fun _ : Fin 8 ↦ 0

/-- `copyList`, whose elements are copied by `copyElements`.  An empty list has no first element. -/
def copyListWith {α : Type} (copyElements : InMemOverflowFile → PageByteCursor → ℕ → List α →
      Except Fault (InMemOverflowFile × PageByteCursor))
    (childType : DataType) (f : InMemOverflowFile) (cursor : PageByteCursor) (values : List α) :
    Except Fault (InMemOverflowFile × PageByteCursor × List UInt8) := do
  if values.isEmpty then
    throw .invalidAccess
  let numBytesOfListElement ← childType.typeID.getDataTypeSize
  let (f, cursor) := f.allocatePageIfNecessary cursor (values.length * numBytesOfListElement)
  match cursor.pageIdx with
  | some pageIdx =>
      let ptr : OverflowPtr := ⟨pageIdx, cursor.offsetInPage⟩
      let (f, cursor) ← copyElements f cursor numBytesOfListElement values
      return (f, cursor, setOverflowPtr (makeList values.length) ptr)
  | none => throw .invalidAccess

def copyScalars (typeID : DataTypeID) (f : InMemOverflowFile) (cursor : PageByteCursor)
    (numBytesOfListElement : ℕ) (values : List (List UInt8)) :
    Except Fault (InMemOverflowFile × PageByteCursor) :=
  match typeID with
  | .string => copyVarSizedValuesToPages copyString f cursor numBytesOfListElement values
  | _ =>
      if typeID.isFixedSized then copyFixedSizedValuesToPages f cursor numBytesOfListElement values
      else .error (.exception "Unsupported data type inside LIST.")

/-- `copyList` for the type of the elements. -/
def copyList : (childType : DataType) → InMemOverflowFile → PageByteCursor →
    List (Literal childType) → Except Fault (InMemOverflowFile × PageByteCursor × List UInt8)
  | .scalar typeID, f, cursor, values =>
      copyListWith (copyScalars typeID) (.scalar typeID) f cursor values
  | .list childType, f, cursor, values =>
      copyListWith (copyVarSizedValuesToPages (copyList childType))
        (.list childType) f cursor values

end InMemOverflowFile

/-! ## Reading -/

namespace OverflowFile

/-- `readString`, or `Literal::Literal` for the bytes of a value. -/
def readLiteral (pin : ℕ → Option BytePage) (typeID : DataTypeID) (bytes : List UInt8) :
    Except Fault (List UInt8) :=
  match typeID with
  | .string => readString pin bytes
  | .bool | .int64 | .double | .nodeID | .date | .timestamp | .interval => .ok bytes
  | _ => .error .invalidAccess

def readListWith {α : Type} (pin : ℕ → Option BytePage) (read : List UInt8 → Except Fault α)
    (childType : DataType) (bytes : List UInt8) : Except Fault (List α) := do
  let ptr := decodeOverflowPtr (bytes.drop 8)
  match pin ptr.pageIdx with
  | none => throw .invalidAccess
  | some frame =>
      let numBytesOfSingleValue ← childType.typeID.getDataTypeSize
      let numValuesInList := ofLittleEndian (bytes.take 8)
      (List.range numValuesInList).mapM fun i ↦ do
        read (← copyFromFrame frame (ptr.pagePos + i * numBytesOfSingleValue) numBytesOfSingleValue)

/-- `readList`, and what it does with its elements. -/
def readLiterals (pin : ℕ → Option BytePage) :
    (dataType : DataType) → List UInt8 → Except Fault (Literal dataType)
  | .scalar typeID, bytes => readLiteral pin typeID bytes
  | .list childType, bytes => readListWith pin (readLiterals pin childType) childType bytes

end OverflowFile

/-! ## What is written where -/

/-- A number of bytes at a pointer. -/
abbrev Region := OverflowPtr × ℕ

/-- The bytes that reading a value visits. -/
def regionsOf (m : Memory) : DataType → List UInt8 → List Region
  | .scalar .string, bytes =>
      if ofLittleEndian (bytes.take 4) ≤ shortStrLength then []
      else [(decodeOverflowPtr (bytes.drop 8), ofLittleEndian (bytes.take 4))]
  | .scalar _, _ => []
  | .list childType, bytes =>
      let ptr := decodeOverflowPtr (bytes.drop 8)
      let size := ofLittleEndian (bytes.take 8)
      match childType.typeID.getDataTypeSize with
      | .ok elementSize =>
          (ptr, size * elementSize) :: (List.range size).flatMap fun i ↦
            regionsOf m childType (readAt m (ptr.address + i * elementSize) elementSize)
      | .error _ => []

namespace Literal

/-- What the reader of the CSV file lets pass: strings of up to a page, and lists whose elements
take less than a page. -/
def Admitted : (dataType : DataType) → Literal dataType → Prop
  | .scalar typeID => fun (value : List UInt8) ↦
      if typeID = .string then 0 ∉ value ∧ value.length ≤ defaultPageSize
      else typeID.isFixedSized = true ∧ typeID.getDataTypeSize = .ok value.length
  | .list childType => fun (values : List (Literal childType)) ↦
      (∃ elementSize, childType.typeID.getDataTypeSize = .ok elementSize ∧
        values.length * elementSize < defaultPageSize) ∧ ∀ value ∈ values, Admitted childType value

/-- No list in the value is empty. -/
def NoEmptyList : (dataType : DataType) → Literal dataType → Prop
  | .scalar _ => fun _ ↦ True
  | .list childType => fun (values : List (Literal childType)) ↦
      values ≠ [] ∧ ∀ value ∈ values, NoEmptyList childType value

/-- The bytes that are copied to pages for a value. -/
def numBytesOfOverflow : (dataType : DataType) → Literal dataType → ℕ
  | .scalar typeID => fun (value : List UInt8) ↦
      if typeID = .string ∧ shortStrLength < value.length then value.length else 0
  | .list childType => fun (values : List (Literal childType)) ↦
      values.length * childType.typeID.getDataTypeSize.toOption.getD 0 +
        (values.map (numBytesOfOverflow childType)).sum

end Literal

end Graphflow
