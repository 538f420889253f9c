import Graphflow.Common.Configs
import Graphflow.Lib.Bytes
import Graphflow.OrderBy.KeyColumn
import Graphflow.Storage.PagedFile

/-!
# Encoding sort keys

`order_by_key_encoder.cpp` on the level of bytes.  Each row becomes one tuple of a key block: the
encodings of its key columns and eight bytes that say where the factorized table holds the row.
-/

namespace Graphflow.OrderBy

open Lib Storage

/-! ## Values -/

namespace KeyType

def getDataTypeSize : KeyType → ℕ
  | .bool => 1
  | .int64 => 8
  | .double => 8
  | .string => 16
  | .date => 4
  | .timestamp => 8
  | .interval => 16
  | .unstructured => 32

/-- One more byte for the null flag, and for a string one that says whether it is long. -/
def getEncodingSize : KeyType → ℕ
  | .unstructured => 2
  | .string => 2 + shortStrLength
  | dataType => 1 + dataType.getDataTypeSize

end KeyType

def isLittleEndian : Bool := (littleEndian 4 1).head? = some 1

def bswap64 (x : BitVec 64) : BitVec 64 :=
  (x &&& 0xff00000000000000) >>> 56 ||| (x &&& 0x00ff000000000000) >>> 40 |||
    (x &&& 0x0000ff0000000000) >>> 24 ||| (x &&& 0x000000ff00000000) >>> 8 |||
    (x &&& 0x00000000ff000000) <<< 8 ||| (x &&& 0x0000000000ff0000) <<< 24 |||
    (x &&& 0x000000000000ff00) <<< 40 ||| (x &&& 0x00000000000000ff) <<< 56

def bswap32 (x : BitVec 32) : BitVec 32 :=
  (x &&& 0xff000000) >>> 24 ||| (x &&& 0x00ff0000) >>> 8 ||| (x &&& 0x0000ff00) <<< 8 |||
    (x &&& 0x000000ff) <<< 24

def flipSign (keyByte : UInt8) : UInt8 := keyByte ^^^ 128

def encodeInt32 (swapBytes : Bool) (data : Int32) : List UInt8 :=
  let bits := if swapBytes then bswap32 data.toBitVec else data.toBitVec
  (littleEndian 4 bits.toNat).modifyHead flipSign

def encodeInt64 (swapBytes : Bool) (data : Int64) : List UInt8 :=
  let bits := if swapBytes then bswap64 data.toBitVec else data.toBitVec
  (littleEndian 8 bits.toNat).modifyHead flipSign

/-- Whether `data < 0` holds of the `double` with these bits: zeros and NaNs are not less. -/
def isNegativeDouble (data : UInt64) : Bool :=
  2 ^ 63 < data.toNat && data.toNat ≤ 2 ^ 63 + 0x7ff0000000000000

def encodeDouble (swapBytes : Bool) (data : UInt64) : List UInt8 :=
  let bits := if swapBytes then bswap64 data.toBitVec else data.toBitVec
  if isNegativeDouble data then (littleEndian 8 bits.toNat).map (~~~·)
  else (littleEndian 8 bits.toNat).modifyHead flipSign

/-- The first characters, filled up with zeros, and a byte that marks a long string. -/
def encodeString (data : List UInt8) : List UInt8 :=
  data.take (min shortStrLength data.length) ++
    if data.length ≤ shortStrLength then List.replicate (shortStrLength + 1 - data.length) 0
    else [255]

def encodeInterval (swapBytes : Bool) (data : Interval) : List UInt8 :=
  let entries := data.normalizeIntervalEntries
  encodeInt32 swapBytes (Int32.ofInt entries.months) ++
    encodeInt32 swapBytes (Int32.ofInt entries.days) ++
    encodeInt64 swapBytes (Int64.ofInt entries.micros)

variable {V : Type}

/-- All unstructured values are encoded as 0: a tie for the whole column. -/
def encodeData (swapBytes : Bool) : (dataType : KeyType) → dataType.Data V → List UInt8
  | .bool, data => [bif data then 1 else 0]
  | .int64, data => encodeInt64 swapBytes data
  | .double, data => encodeDouble swapBytes data
  | .string, data => encodeString data
  | .date, data => encodeInt32 swapBytes data
  | .timestamp, data => encodeInt64 swapBytes data
  | .interval, data => encodeInterval swapBytes data
  | .unstructured, _ => [0]

/-! ## Vectors -/

/-- `none` are the incremental positions of a vector without a filter. -/
structure SelectionVector where
  selectedPositions : Option (ℕ → ℕ)
  selectedSize : ℕ

def SelectionVector.isUnfiltered (selVector : SelectionVector) : Bool :=
  selVector.selectedPositions.isNone

def SelectionVector.position (selVector : SelectionVector) (i : ℕ) : ℕ :=
  selVector.selectedPositions.elim i (· i)

/-- The current index of an unflat chunk, which is -1, is `none`. -/
structure DataChunkState where
  currIdx : Option ℕ
  selVector : SelectionVector

def DataChunkState.isFlat (state : DataChunkState) : Bool := state.currIdx.isSome

/-- Without the mark that there may be nulls no bit is set. -/
structure NullMask where
  isNull : ℕ → Bool
  mayContainNulls : Bool
  isNull_eq_false : mayContainNulls = false → ∀ pos, isNull pos = false

structure ValueVector (V : Type) (dataType : KeyType) where
  values : ℕ → dataType.Data V
  nullMask : NullMask
  state : DataChunkState

def KeyVectors (V : Type) : List KeyColumn → Type
  | [] => Unit
  | column :: columns => ValueVector V column.dataType × KeyVectors V columns

/-! ## Tuples -/

def numBytesOfKeys (columns : List KeyColumn) : ℕ :=
  (columns.map fun column ↦ column.dataType.getEncodingSize).sum

def numBytesPerTuple (columns : List KeyColumn) : ℕ := numBytesOfKeys columns + 8

def maxNumTuplesPerBlock (columns : List KeyColumn) : ℕ :=
  largePageSize / numBytesPerTuple columns

section Encode

variable (swapBytes : Bool) (numBytesPerTuple : ℕ) (column : KeyColumn)

def encodeNull (dataType : KeyType) : List UInt8 := List.replicate dataType.getEncodingSize 255

def encodeNonNull (dataType : KeyType) (value : dataType.Data V) : List UInt8 :=
  0 :: encodeData swapBytes dataType value

/-- A loop that writes one entry into each of the next tuples. -/
def writeEntries (m : Memory) (tuplePtr : ℕ) (entry : ℕ → List UInt8) (n : ℕ) : Memory :=
  (List.range n).foldl (fun m i ↦ overwrite m (tuplePtr + i * numBytesPerTuple) (entry i)) m

def encodeFlatVector {dataType : KeyType} (vector : ValueVector V dataType) (m : Memory)
    (tuplePtr currIdx : ℕ) : Memory :=
  let pos := vector.state.selVector.position currIdx
  overwrite m tuplePtr
    (if vector.nullMask.isNull pos then encodeNull dataType
      else encodeNonNull swapBytes dataType (vector.values pos))

def encodeUnflatVector {dataType : KeyType} (vector : ValueVector V dataType) (m : Memory)
    (tuplePtr encodedTuples numEntriesToEncode : ℕ) : Memory :=
  let encodeValue pos := encodeNonNull swapBytes dataType (vector.values pos)
  let selectedPositions := vector.state.selVector.position
  if vector.state.selVector.isUnfiltered then
    if !vector.nullMask.mayContainNulls then
      writeEntries numBytesPerTuple m tuplePtr (fun i ↦ encodeValue (encodedTuples + i))
        numEntriesToEncode
    else
      writeEntries numBytesPerTuple m tuplePtr (fun i ↦
        if vector.nullMask.isNull (encodedTuples + i) then encodeNull dataType
        else encodeValue (encodedTuples + i)) numEntriesToEncode
  else if !vector.nullMask.mayContainNulls then
    writeEntries numBytesPerTuple m tuplePtr
      (fun i ↦ encodeValue (selectedPositions (i + encodedTuples))) numEntriesToEncode
  else
    writeEntries numBytesPerTuple m tuplePtr (fun i ↦
      if vector.nullMask.isNull (selectedPositions (i + encodedTuples)) then encodeNull dataType
      else encodeValue (selectedPositions (i + encodedTuples))) numEntriesToEncode

/-- The loop runs over all tuples, also behind a flat vector. -/
def flipBytesIfNecessary (m : Memory) (tuplePtr numEntriesToEncode : ℕ) : Memory :=
  if !column.isAscOrder then
    (List.range numEntriesToEncode).foldl (fun m i ↦
      let ptr := tuplePtr + i * numBytesPerTuple
      overwrite m ptr ((readAt m ptr column.dataType.getEncodingSize).map (~~~·))) m
  else m

def encodeVector (vector : ValueVector V column.dataType) (m : Memory)
    (tuplePtr encodedTuples numEntriesToEncode : ℕ) : Memory :=
  let encoded := match vector.state.currIdx with
    | some currIdx => encodeFlatVector swapBytes vector m tuplePtr currIdx
    | none => encodeUnflatVector swapBytes numBytesPerTuple vector m tuplePtr encodedTuples
        numEntriesToEncode
  flipBytesIfNecessary numBytesPerTuple column encoded tuplePtr numEntriesToEncode

/-- The vectors one after the other, each behind what the previous one has written. -/
def encodeVectors : (columns : List KeyColumn) → KeyVectors V columns → Memory → ℕ → ℕ → ℕ → Memory
  | [], _, m, _, _, _ => m
  | column :: columns, vectors, m, tuplePtr, encodedTuples, numEntriesToEncode =>
      encodeVectors columns vectors.2
        (encodeVector swapBytes numBytesPerTuple column vectors.1 m tuplePtr encodedTuples
          numEntriesToEncode)
        (tuplePtr + column.dataType.getEncodingSize) encodedTuples numEntriesToEncode

end Encode

/-! ## Key blocks -/

structure DataBlock where
  numTuples : ℕ := 0
  data : Memory := fun _ ↦ 0

/-- The last key block is kept apart from the ones before it. -/
structure OrderByKeyEncoder where
  keyBlocks : List DataBlock := []
  back : DataBlock := {}
  ftBlockIdx : ℕ := 0
  ftBlockOffset : ℕ := 0
  ftIdx : UInt8
  numTuplesPerBlockInFT : ℕ
  swapBytes : Bool := isLittleEndian

def maxFTBlockOffset : ℕ := 2 ^ 24 - 1

namespace OrderByKeyEncoder

def create (columns : List KeyColumn) (ftIdx : UInt8) (numTuplesPerBlockInFT : ℕ) :
    Except Fault OrderByKeyEncoder :=
  let tupleSize := numBytesPerTuple columns
  if maxFTBlockOffset < numTuplesPerBlockInFT then
    .error (.exception
      "The number of tuples per block of factorizedTable exceeds the maximum blockOffset!")
  else if maxNumTuplesPerBlock columns = 0 then
    .error (.exception
      s!"TupleSize({tupleSize} bytes) is larger than the LARGE_PAGE_SIZE({largePageSize} bytes)")
  else .ok { ftIdx, numTuplesPerBlockInFT }

def getKeyBlocks (e : OrderByKeyEncoder) : List DataBlock := e.keyBlocks ++ [e.back]

def allocateMemoryIfFull (columns : List KeyColumn) (e : OrderByKeyEncoder) : OrderByKeyEncoder :=
  if e.back.numTuples = maxNumTuplesPerBlock columns then
    { e with keyBlocks := e.keyBlocks ++ [e.back], back := {} }
  else e

/-- The eight bytes of a tuple: the index of the table is written over the last byte of the offset
in the block. -/
def tupleInfo (ftIdx : UInt8) (ftBlockIdx ftBlockOffset : ℕ) : List UInt8 :=
  littleEndian 4 ftBlockIdx ++ (littleEndian 4 ftBlockOffset).set 3 ftIdx

/-- In each turn the tuples that fit into the current block of the factorized table. -/
def encodeFTIdx (numBytesPerTuple : ℕ) (e : OrderByKeyEncoder) (m : Memory)
    (tupleInfoPtr numEntriesToEncode : ℕ) : Memory × OrderByKeyEncoder :=
  let nextBatchOfEntries := min numEntriesToEncode (e.numTuplesPerBlockInFT - e.ftBlockOffset)
  if 0 < nextBatchOfEntries then
    let written := writeEntries numBytesPerTuple m tupleInfoPtr
      (fun i ↦ tupleInfo e.ftIdx e.ftBlockIdx (e.ftBlockOffset + i)) nextBatchOfEntries
    let ftBlockOffset := e.ftBlockOffset + nextBatchOfEntries
    let moved := if ftBlockOffset = e.numTuplesPerBlockInFT then
        { e with ftBlockIdx := e.ftBlockIdx + 1, ftBlockOffset := 0 }
      else { e with ftBlockOffset }
    encodeFTIdx numBytesPerTuple moved written
      (tupleInfoPtr + nextBatchOfEntries * numBytesPerTuple)
      (numEntriesToEncode - nextBatchOfEntries)
  else (m, e)
termination_by numEntriesToEncode
decreasing_by omega

/-- The number of entries that the vectors of a call hold. -/
def numEntries : (columns : List KeyColumn) → KeyVectors V columns → ℕ
  | [], _ => 0
  | _ :: _, vectors =>
      if vectors.1.state.isFlat then 1 else vectors.1.state.selVector.selectedSize

/-- One turn of the loop: as many entries as fit into the last key block. -/
def encodeBatch (columns : List KeyColumn) (vectors : KeyVectors V columns)
    (e : OrderByKeyEncoder) (encodedTuples numEntriesToEncode : ℕ) : OrderByKeyEncoder :=
  let tuplePtr := e.back.numTuples * numBytesPerTuple columns
  let keys := encodeVectors e.swapBytes (numBytesPerTuple columns) columns vectors e.back.data
    tuplePtr encodedTuples numEntriesToEncode
  let (data, moved) := encodeFTIdx (numBytesPerTuple columns) e keys
    (tuplePtr + numBytesOfKeys columns) numEntriesToEncode
  { moved with back := ⟨e.back.numTuples + numEntriesToEncode, data⟩ }

def encodeLoop (columns : List KeyColumn) (vectors : KeyVectors V columns) (e : OrderByKeyEncoder)
    (encodedTuples numEntries : ℕ) : OrderByKeyEncoder :=
  if 0 < numEntries then
    let allocated := allocateMemoryIfFull columns e
    let numEntriesToEncode :=
      min numEntries (maxNumTuplesPerBlock columns - allocated.back.numTuples)
    if 0 < numEntriesToEncode then
      encodeLoop columns vectors (encodeBatch columns vectors allocated encodedTuples
          numEntriesToEncode)
        (encodedTuples + numEntriesToEncode) (numEntries - numEntriesToEncode)
    else allocated
  else e
termination_by numEntries
decreasing_by exact Nat.sub_lt ‹_› ‹_›

def encodeKeys (columns : List KeyColumn) (e : OrderByKeyEncoder) (vectors : KeyVectors V columns) :
    OrderByKeyEncoder :=
  encodeLoop columns vectors e 0 (numEntries columns vectors)

end OrderByKeyEncoder

end Graphflow.OrderBy
