import Graphflow.Common.GfString
import Graphflow.OrderBy.KeyEncoder

/-!
# Comparing tuples of different key blocks

`KeyBlockMerger::compareTuplePtr`.  Where there are columns of strings or of unstructured values the
encoded keys do not decide; then the values are read from the factorized tables.
-/

namespace Graphflow.OrderBy

open Lib Storage

/-- What the comparisons of `comparison_operations.h` do with two unstructured values; they throw
when the types of the two do not compare. -/
structure ValueComparison (V : Type) where
  equals : V → V → Except Fault Bool
  notEquals : V → V → Except Fault Bool
  lessThan : V → V → Except Fault Bool
  greaterThan : V → V → Except Fault Bool

/-- What `getData` reads from a block, at an offset in it and in a column. -/
structure FactorizedTable (V : Type) where
  getString : ℕ → ℕ → ℕ → List UInt8
  getValue : ℕ → ℕ → ℕ → V

/-! ## Reading a tuple -/

def getEncodedFTBlockIdx (tupleInfo : List UInt8) : ℕ := ofLittleEndian (tupleInfo.take 4)

/-- Four bytes are read, of which the last belongs to the index of the table. -/
def getEncodedFTBlockOffset (tupleInfo : List UInt8) : ℕ :=
  ofLittleEndian ((tupleInfo.drop 4).take 4) &&& 0x00ffffff

def getEncodedFTIdx (tupleInfo : List UInt8) : UInt8 := tupleInfo.getD 7 0

def isNullVal (column : List UInt8) (isAscOrder : Bool) : Bool :=
  column.getD 0 0 == bif isAscOrder then 255 else 0

def isLongStr (column : List UInt8) (isAsc : Bool) : Bool :=
  column.getD 13 0 == bif isAsc then 255 else 0

/-! ## Columns to look up -/

structure StringAndUnstructuredKeyColInfo where
  colOffsetInFT : ℕ
  colOffsetInEncodedKeyBlock : ℕ
  isAscOrder : Bool
  isStrCol : Bool
  deriving DecidableEq, Repr

def StringAndUnstructuredKeyColInfo.getEncodingSize (info : StringAndUnstructuredKeyColInfo) : ℕ :=
  bif info.isStrCol then KeyType.string.getEncodingSize else KeyType.unstructured.getEncodingSize

/-- The loop of `OrderBy::init` over the key columns, where `colOffsetInFT` says where the
factorized table has the column with an index. -/
def stringAndUnstructuredKeyColInfo (colOffsetInFT : ℕ → ℕ) :
    List KeyColumn → ℕ → ℕ → List StringAndUnstructuredKeyColInfo
  | [], _, _ => []
  | column :: columns, i, encodedKeyBlockColOffset =>
      let rest := stringAndUnstructuredKeyColInfo colOffsetInFT columns (i + 1)
        (encodedKeyBlockColOffset + column.dataType.getEncodingSize)
      if column.dataType = .string ∨ column.dataType = .unstructured then
        ⟨colOffsetInFT i, encodedKeyBlockColOffset, column.isAscOrder,
          column.dataType = .string⟩ :: rest
      else rest

/-! ## The merger -/

structure KeyBlockMerger (V : Type) where
  comparison : ValueComparison V
  factorizedTables : UInt8 → FactorizedTable V
  stringAndUnstructuredKeyColInfo : List StringAndUnstructuredKeyColInfo
  numBytesPerTuple : ℕ

namespace KeyBlockMerger

variable {V : Type}

def numBytesToCompare (merger : KeyBlockMerger V) : ℕ := merger.numBytesPerTuple - 8

def tableOf (merger : KeyBlockMerger V) (tuple : List UInt8) : FactorizedTable V :=
  merger.factorizedTables (getEncodedFTIdx (tuple.drop merger.numBytesToCompare))

def getString (merger : KeyBlockMerger V) (tuple : List UInt8) (colOffsetInFT : ℕ) : List UInt8 :=
  let tupleInfo := tuple.drop merger.numBytesToCompare
  (merger.tableOf tuple).getString (getEncodedFTBlockIdx tupleInfo)
    (getEncodedFTBlockOffset tupleInfo) colOffsetInFT

def getValue (merger : KeyBlockMerger V) (tuple : List UInt8) (colOffsetInFT : ℕ) : V :=
  let tupleInfo := tuple.drop merger.numBytesToCompare
  (merger.tableOf tuple).getValue (getEncodedFTBlockIdx tupleInfo)
    (getEncodedFTBlockOffset tupleInfo) colOffsetInFT

/-- The loop over the columns to look up; a `continue` goes on with the next one.  Two short strings
that tie leave `lastComparedBytes` where it was. -/
def compareInfos (merger : KeyBlockMerger V) (left right : List UInt8) :
    List StringAndUnstructuredKeyColInfo → ℕ → Except Fault Bool
  | [], _ => .ok false
  | info :: infos, lastComparedBytes =>
      let offset := info.colOffsetInEncodedKeyBlock
      let numBytes := offset - lastComparedBytes + info.getEncodingSize
      let result := compare ((left.drop lastComparedBytes).take numBytes)
        ((right.drop lastComparedBytes).take numBytes)
      if isNullVal (left.drop offset) info.isAscOrder &&
          isNullVal (right.drop offset) info.isAscOrder then
        compareInfos merger left right infos (offset + info.getEncodingSize)
      else if result = .eq then
        if info.isStrCol then
          match isLongStr (left.drop offset) info.isAscOrder,
            isLongStr (right.drop offset) info.isAscOrder with
          | false, false => compareInfos merger left right infos lastComparedBytes
          | true, false => .ok info.isAscOrder
          | false, true => .ok (!info.isAscOrder)
          | true, true =>
              let leftStr := merger.getString left info.colOffsetInFT
              let rightStr := merger.getString right info.colOffsetInFT
              if GfString.eq leftStr rightStr then
                compareInfos merger left right infos (offset + info.getEncodingSize)
              else .ok (info.isAscOrder == GfString.gt leftStr rightStr)
        else do
          let leftUnstr := merger.getValue left info.colOffsetInFT
          let rightUnstr := merger.getValue right info.colOffsetInFT
          if ← merger.comparison.equals leftUnstr rightUnstr then
            compareInfos merger left right infos (offset + info.getEncodingSize)
          else
            return info.isAscOrder == (← merger.comparison.greaterThan leftUnstr rightUnstr)
      else .ok (result = .gt)

def compareTuplePtrWithStringAndUnstructuredCol (merger : KeyBlockMerger V)
    (left right : List UInt8) : Except Fault Bool :=
  merger.compareInfos left right merger.stringAndUnstructuredKeyColInfo 0

/-- Whether the left tuple is larger than the right one. -/
def compareTuplePtr (merger : KeyBlockMerger V) (left right : List UInt8) : Except Fault Bool :=
  if !merger.stringAndUnstructuredKeyColInfo.isEmpty then
    merger.compareTuplePtrWithStringAndUnstructuredCol left right
  else
    .ok (compare (left.take merger.numBytesToCompare) (right.take merger.numBytesToCompare) = .gt)

end KeyBlockMerger

end Graphflow.OrderBy
