import Graphflow.Common.Interval
import Graphflow.Lib.Lexicographic

/-!
# The columns of an `ORDER BY`

The key columns with their types and sorting orders, the values they hold and the order the clause
specifies: columns from left to right, nulls last in an ascending and first in a descending column.
-/

namespace Graphflow.OrderBy

open Lib

/-- The types that `getEncodingFunction` knows. -/
inductive KeyType
  | bool
  | int64
  | double
  | string
  | date
  | timestamp
  | interval
  | unstructured
  deriving DecidableEq, Repr

/-- What a vector of the type holds: for a `double` its bits, for a `gf_string_t` the characters.
The values of an unstructured column are of the type `V`. -/
def KeyType.Data (V : Type) : KeyType → Type
  | .bool => Bool
  | .int64 => Int64
  | .double => UInt64
  | .string => List UInt8
  | .date => Int32
  | .timestamp => Int64
  | .interval => Interval
  | .unstructured => V

structure KeyColumn where
  dataType : KeyType
  isAscOrder : Bool
  deriving DecidableEq, Repr

variable {V : Type}

/-- The number whose order is the order of the `double`s that are numbers. -/
def doubleRank (data : UInt64) : ℤ :=
  if data.toNat < 2 ^ 63 then data.toNat else -(data.toNat - 2 ^ 63 : ℕ)

def Interval.compareEntries (left right : Interval) : Ordering :=
  let l := left.normalizeIntervalEntries
  let r := right.normalizeIntervalEntries
  lexicographic [compare l.months r.months, compare l.days r.days, compare l.micros r.micros]

/-- How two values of a column compare, where `compareUnstructured` says it for those of an
unstructured column. -/
def compareData (compareUnstructured : V → V → Ordering) :
    (dataType : KeyType) → dataType.Data V → dataType.Data V → Ordering
  | .bool, l, r => compare l.toNat r.toNat
  | .int64, l, r => compare l.toInt r.toInt
  | .double, l, r => compare (doubleRank l) (doubleRank r)
  | .string, l, r => @compare (List UInt8) _ l r
  | .date, l, r => compare l.toInt r.toInt
  | .timestamp, l, r => compare l.toInt r.toInt
  | .interval, l, r => Interval.compareEntries l r
  | .unstructured, l, r => compareUnstructured l r

/-- Ordered upwards, a null comes after every value. -/
def compareNullable {α : Type} (compareValues : α → α → Ordering) :
    Option α → Option α → Ordering
  | none, none => .eq
  | none, some _ => .gt
  | some _, none => .lt
  | some l, some r => compareValues l r

/-- A descending column turns the order around, nulls included. -/
def KeyColumn.direct (column : KeyColumn) (o : Ordering) : Ordering :=
  if column.isAscOrder then o else o.swap

@[simp] theorem KeyColumn.direct_eq (column : KeyColumn) : column.direct .eq = .eq := by
  rw [KeyColumn.direct]
  split_ifs <;> rfl

def compareColumn (compareUnstructured : V → V → Ordering) (column : KeyColumn)
    (l r : Option (column.dataType.Data V)) : Ordering :=
  column.direct (compareNullable (compareData compareUnstructured column.dataType) l r)

/-- The values of the key columns in one row. -/
def KeyRow (V : Type) : List KeyColumn → Type
  | [] => Unit
  | column :: columns => Option (column.dataType.Data V) × KeyRow V columns

/-- How two rows compare in each column. -/
def compareColumns (compareUnstructured : V → V → Ordering) :
    (columns : List KeyColumn) → KeyRow V columns → KeyRow V columns → List Ordering
  | [], _, _ => []
  | column :: columns, l, r =>
      compareColumn compareUnstructured column l.1 r.1 ::
        compareColumns compareUnstructured columns l.2 r.2

/-- The order of the rows that the clause specifies. -/
def compareRows (compareUnstructured : V → V → Ordering) (columns : List KeyColumn)
    (l r : KeyRow V columns) : Ordering :=
  lexicographic (compareColumns compareUnstructured columns l r)

end Graphflow.OrderBy
