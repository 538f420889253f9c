import Graphflow.Common.Configs
import Graphflow.Function.VectorData
import Graphflow.Lib.Bytes

/-!
# The memory of factorized tables

Tables take blocks of memory from one memory manager.  Values are stored as bytes, and the
characters of long strings in blocks of an overflow buffer.
-/

namespace Graphflow.Result

open Lib Processor

/-! ## The memory manager -/

/-- The large pages are pinned one after the other. -/
structure MemoryManager where
  memory : Memory
  numBlocks : ℕ
  maxNumBlocks : ℕ
  numBlocks_le : numBlocks ≤ maxNumBlocks
  maxNumBlocks_lt : maxNumBlocks < 2 ^ 32

namespace MemoryManager

variable (manager : MemoryManager)

def write (address : ℕ) (bytes : List UInt8) : MemoryManager :=
  { manager with memory := overwrite manager.memory address bytes }

/-- No block is at the null pointer. -/
def nextBlock : ℕ := (manager.numBlocks + 1) * largePageSize

def outOfFrames : ExecutionFault := .exception "Cannot find a frame to evict from."

def allocateBlock (initializeToZero : Bool) : Except ExecutionFault (ℕ × MemoryManager) :=
  if hlt : manager.numBlocks < manager.maxNumBlocks then
    let data := manager.nextBlock
    .ok (data, { manager with
      numBlocks := manager.numBlocks + 1
      numBlocks_le := hlt
      memory := fun a ↦
        if initializeToZero ∧ data ≤ a ∧ a < data + largePageSize then 0 else manager.memory a })
  else .error outOfFrames

end MemoryManager

/-! ## Overflow buffers -/

structure BufferBlock where
  data : ℕ
  currentOffset : ℕ := 0
  deriving DecidableEq, Repr

/-- The current block is one of the blocks. -/
structure OverflowBuffer where
  blocks : List BufferBlock := []
  currentBlock : Option ℕ := none
  deriving DecidableEq, Repr

namespace OverflowBuffer

variable (buffer : OverflowBuffer)

def requireNewBlock (sizeToAllocate : ℕ) : Except ExecutionFault Bool :=
  if largePageSize < sizeToAllocate then
    .error (.exception ("Require size " ++ toString sizeToAllocate ++
      " greater than single block size " ++ toString largePageSize ++ "."))
  else
    match buffer.currentBlock with
    | none => .ok true
    | some i =>
        match buffer.blocks[i]? with
        | some block => .ok (largePageSize < block.currentOffset + sizeToAllocate)
        | none => .error .invalidAccess

def allocateNewBlock (manager : MemoryManager) :
    Except ExecutionFault (MemoryManager × OverflowBuffer) := do
  let (data, manager) ← manager.allocateBlock false
  return (manager,
    { blocks := buffer.blocks ++ [{ data := data }], currentBlock := some buffer.blocks.length })

def ensureSpace (manager : MemoryManager) (size : ℕ) :
    Except ExecutionFault (MemoryManager × OverflowBuffer) := do
  if ← buffer.requireNewBlock size then buffer.allocateNewBlock manager
  else return (manager, buffer)

/-- The block has given out more. -/
def take (i : ℕ) (block : BufferBlock) (size : ℕ) : OverflowBuffer :=
  { buffer with
    blocks := buffer.blocks.set i { block with currentOffset := block.currentOffset + size } }

def takeSpace (size : ℕ) : Except ExecutionFault (ℕ × OverflowBuffer) :=
  match buffer.currentBlock with
  | none => .error .invalidAccess
  | some i =>
      match buffer.blocks[i]? with
      | none => .error .invalidAccess
      | some block =>
          .ok (block.data + block.currentOffset, buffer.take i block size)

def allocateSpace (manager : MemoryManager) (size : ℕ) :
    Except ExecutionFault (ℕ × MemoryManager × OverflowBuffer) := do
  let (manager, buffer) ← buffer.ensureSpace manager size
  let (data, buffer) ← buffer.takeSpace size
  return (data, manager, buffer)

end OverflowBuffer

/-! ## Values -/

/-- Structured types other than lists. -/
inductive DataType
  | nodeID
  | bool
  | int64
  | double
  | date
  | timestamp
  | interval
  | string
  deriving DecidableEq, Repr

def DataType.getDataTypeSize : DataType → ℕ
  | nodeID | interval | string => 16
  | int64 | double | timestamp => 8
  | date => 4
  | bool => 1

/-- The bytes of a value, or the characters of a string that fits into a block. -/
def DataType.Holds : DataType → List UInt8 → Prop
  | string, value => value.length ≤ largePageSize
  | type, value => value.length = type.getDataTypeSize

/-- `copyString`: a `gf_string_t` has its length, a prefix, and more characters or a pointer. -/
def copyString (manager : MemoryManager) (buffer : OverflowBuffer) (src : List UInt8) (dst : ℕ) :
    Except ExecutionFault (MemoryManager × OverflowBuffer) :=
  if src.length ≤ shortStrLength then
    .ok ((manager.write dst (littleEndian 4 src.length)).write (dst + 4) src, buffer)
  else do
    let (overflowPtr, manager, buffer) ← buffer.allocateSpace manager src.length
    let manager := manager.write (dst + 8) (littleEndian 8 overflowPtr)
    let manager := manager.write dst (littleEndian 4 src.length)
    let manager := manager.write (dst + 4) (src.take prefixLength)
    return (manager.write overflowPtr src, buffer)

def readString (m : Memory) (a : ℕ) : List UInt8 :=
  let len := ofLittleEndian (readAt m a 4)
  if len ≤ shortStrLength then readAt m (a + 4) len
  else readAt m (ofLittleEndian (readAt m (a + 8) 8)) len

/-- What `copyNonNullDataWithSameTypeIntoPos` takes to a vector. -/
def readValue (type : DataType) (m : Memory) (a : ℕ) : List UInt8 :=
  match type with
  | .string => readString m a
  | type => readAt m a type.getDataTypeSize

end Graphflow.Result
