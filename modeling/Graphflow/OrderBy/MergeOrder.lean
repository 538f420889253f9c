import Graphflow.OrderBy.EncodedOrder
import Graphflow.OrderBy.KeyBlockMerger

/-!
# The order of the merge

The order by which a single key block is sorted, and which columns `compareTuplePtr` leaves out when
it compares two tuples.  The merger puts one tuple after another by the columns that are left.
-/

namespace Graphflow.OrderBy

open Lib Storage

variable {V : Type}

/-! ## The order of a sorted block -/

section Entries

variable {column : KeyColumn} {l r : Option (column.dataType.Data V)} {bytes bytes' : List UInt8}

theorem getEncodingSize_pos (dataType : KeyType) : 0 < dataType.getEncodingSize := by
  cases dataType <;> decide

theorem isNullVal_encodeEntry (value : Option (column.dataType.Data V)) :
    isNullVal (encodeEntry true column value ++ bytes) column.isAscOrder = value.isNone := by
  obtain ⟨dataType, isAscOrder⟩ := column
  obtain ⟨size, hsize⟩ := Nat.exists_eq_succ_of_ne_zero (getEncodingSize_pos dataType).ne'
  cases value with
  | none =>
      have hbytes : encodeNullable (V := V) true (none : Option (dataType.Data V)) =
          255 :: List.replicate size 255 := by
        rw [encodeNullable, encodeNull, hsize, List.replicate_succ]
      cases isAscOrder <;> rw [encodeEntry, hbytes] <;> rfl
  | some value => cases isAscOrder <;> rfl

theorem getElem?_padded (n : ℕ) (data : List UInt8) :
    (padded n data)[n]? = some (if data.length ≤ n then 0 else 255) := by
  induction n generalizing data with
  | zero => cases data <;> rfl
  | succ n ih =>
      cases data with
      | nil => simp [padded_nil]
      | cons x data =>
          rw [padded_cons, List.getElem?_cons_succ, ih]
          simp only [List.length_cons, Nat.add_le_add_iff_right]

theorem isLongStr_encodeEntry (isAscOrder : Bool) (value : List UInt8) :
    isLongStr (encodeEntry (V := V) true ⟨.string, isAscOrder⟩ (some value) ++ bytes) isAscOrder =
      decide (shortStrLength < value.length) := by
  have hget : (encodeString value)[12]? =
      some (if value.length ≤ shortStrLength then 0 else 255) :=
        getElem?_padded shortStrLength value
  have hlength : (encodeString value).length = 13 := length_padded shortStrLength value
  cases isAscOrder with
  | true =>
      have hbyte : (0 :: encodeString value ++ bytes)[13]? =
          some (if value.length ≤ shortStrLength then 0 else 255) := by
        rw [List.cons_append, List.getElem?_cons_succ, List.getElem?_append_left (by omega), hget]
      rw [isLongStr, List.getD_eq_getElem?_getD]
      refine (congrArg (fun byte : Option UInt8 ↦ byte.getD 0 == 255) hbyte).trans ?_
      split_ifs with hshort
      · rw [decide_eq_false hshort.not_gt]
        rfl
      · rw [decide_eq_true (Nat.lt_of_not_le hshort)]
        rfl
  | false =>
      have hbyte : ((0 :: encodeString value).map (~~~·) ++ bytes)[13]? =
          some (if value.length ≤ shortStrLength then 255 else 0) := by
        rw [List.getElem?_append_left (by simp [hlength]), List.getElem?_map,
          List.getElem?_cons_succ, hget]
        split_ifs <;> rfl
      rw [isLongStr, List.getD_eq_getElem?_getD]
      refine (congrArg (fun byte : Option UInt8 ↦ byte.getD 0 == 0) hbyte).trans ?_
      split_ifs with hshort
      · rw [decide_eq_false hshort.not_gt]
        rfl
      · rw [decide_eq_true (Nat.lt_of_not_le hshort)]
        rfl

/-- Equal encodings are both null or both not. -/
theorem isNone_eq_of_encodeEntry_eq (h : encodeEntry true column l = encodeEntry true column r) :
    l.isNone = r.isNone := by
  have hl := @isNullVal_encodeEntry V column [] l
  have hr := @isNullVal_encodeEntry V column [] r
  rw [← hl, ← hr, h]

/-- The encodings of two strings are equal only if both are long or both are not. -/
theorem isLong_eq_of_encodeEntry_eq {isAscOrder : Bool} {a b : List UInt8}
    (h : encodeEntry (V := V) true ⟨.string, isAscOrder⟩ (some a) =
      encodeEntry (V := V) true ⟨.string, isAscOrder⟩ (some b)) :
    decide (shortStrLength < a.length) = decide (shortStrLength < b.length) := by
  have ha := @isLongStr_encodeEntry V [] isAscOrder a
  have hb := @isLongStr_encodeEntry V [] isAscOrder b
  rw [← ha, ← hb, h]

end Entries

/-! ## Tuples -/

/-- The factorized table has the value of a column at a place. -/
def DataAt (table : FactorizedTable V) (ftBlockIdx ftBlockOffset colOffsetInFT : ℕ) :
    (dataType : KeyType) → Option (dataType.Data V) → Prop
  | .string, some value => table.getString ftBlockIdx ftBlockOffset colOffsetInFT = value
  | .unstructured, some value => table.getValue ftBlockIdx ftBlockOffset colOffsetInFT = value
  | _, _ => True

def RowAt (table : FactorizedTable V) (ftBlockIdx ftBlockOffset : ℕ) (colOffsetInFT : ℕ → ℕ) :
    (columns : List KeyColumn) → ℕ → KeyRow V columns → Prop
  | [], _, _ => True
  | column :: columns, i, row =>
      DataAt table ftBlockIdx ftBlockOffset (colOffsetInFT i) column.dataType row.1 ∧
        RowAt table ftBlockIdx ftBlockOffset colOffsetInFT columns (i + 1) row.2

theorem zero_lt_numFTBlocks : 0 < 2 ^ 32 := Nat.two_pow_pos 32

/-- A row that a thread has encoded, and where the thread's factorized table has it. -/
structure EncodedRow (tables : UInt8 → FactorizedTable V) (colOffsetInFT : ℕ → ℕ)
    (columns : List KeyColumn) where
  row : KeyRow V columns
  ftIdx : UInt8
  ftBlockIdx : ℕ
  ftBlockOffset : ℕ
  ftBlockIdx_lt : ftBlockIdx < 2 ^ 32
  ftBlockOffset_le : ftBlockOffset ≤ maxFTBlockOffset
  rowAt : RowAt (tables ftIdx) ftBlockIdx ftBlockOffset colOffsetInFT columns 0 row

/-- The tuple of the row in a key block. -/
def EncodedRow.tuple {tables : UInt8 → FactorizedTable V} {colOffsetInFT : ℕ → ℕ}
    {columns : List KeyColumn} (encoded : EncodedRow tables colOffsetInFT columns) : List UInt8 :=
  encodeRow true columns encoded.row ++
    OrderByKeyEncoder.tupleInfo encoded.ftIdx encoded.ftBlockIdx encoded.ftBlockOffset

/-- The merger for the tables of some threads. -/
def KeyBlockMerger.ofColumns (comparison : ValueComparison V) (tables : UInt8 → FactorizedTable V)
    (colOffsetInFT : ℕ → ℕ) (columns : List KeyColumn) : KeyBlockMerger V :=
  ⟨comparison, tables, OrderBy.stringAndUnstructuredKeyColInfo colOffsetInFT columns 0 0,
    OrderBy.numBytesPerTuple columns⟩

theorem getEncodedFTBlockIdx_tupleInfo {ftIdx : UInt8} {ftBlockIdx ftBlockOffset : ℕ}
    (h : ftBlockIdx < 2 ^ 32) :
    getEncodedFTBlockIdx (OrderByKeyEncoder.tupleInfo ftIdx ftBlockIdx ftBlockOffset) =
      ftBlockIdx := by
  rw [getEncodedFTBlockIdx, OrderByKeyEncoder.tupleInfo,
    List.take_append_of_le_length (length_littleEndian _ _).ge,
    List.take_of_length_le (length_littleEndian _ _).le,
    ofLittleEndian_littleEndian (h.trans_eq (by norm_num))]

theorem getEncodedFTIdx_tupleInfo {ftIdx : UInt8} {ftBlockIdx ftBlockOffset : ℕ} :
    getEncodedFTIdx (OrderByKeyEncoder.tupleInfo ftIdx ftBlockIdx ftBlockOffset) = ftIdx := by
  rfl

theorem getEncodedFTBlockOffset_tupleInfo {ftIdx : UInt8} {ftBlockIdx ftBlockOffset : ℕ}
    (h : ftBlockOffset ≤ maxFTBlockOffset) :
    getEncodedFTBlockOffset (OrderByKeyEncoder.tupleInfo ftIdx ftBlockIdx ftBlockOffset) =
      ftBlockOffset := by
  have hbytes : ((OrderByKeyEncoder.tupleInfo ftIdx ftBlockIdx ftBlockOffset).drop 4).take 4 =
      littleEndian 3 ftBlockOffset ++ [ftIdx] := rfl
  have hsum : ofLittleEndian (littleEndian 3 ftBlockOffset ++ [ftIdx]) =
      ftBlockOffset + 2 ^ 24 * ftIdx.toNat := by
    have hlt : ftBlockOffset < 256 ^ 3 := by
      rw [maxFTBlockOffset] at h
      omega
    rw [ofLittleEndian_append, ofLittleEndian_littleEndian hlt, length_littleEndian]
    rfl
  have hmask : (0x00ffffff : ℕ) = 2 ^ 24 - 1 := by norm_num
  rw [getEncodedFTBlockOffset, hbytes, hsum, hmask, Nat.and_two_pow_sub_one_eq_mod,
    Nat.add_mul_mod_self_left]
  exact Nat.mod_eq_of_lt (by rw [maxFTBlockOffset] at h; omega)

/-! ## The loop of the merger -/

/-- What the merger reads of a tuple: at an offset the encodings of the columns that follow, and
from the factorized table their values. -/
structure Reads (merger : KeyBlockMerger V) (colOffsetInFT : ℕ → ℕ) (tuple : List UInt8)
    (offset i : ℕ) (columns : List KeyColumn) (row : KeyRow V columns) : Prop where
  key : ∃ bytes, tuple.drop offset = encodeRow true columns row ++ bytes
  values : RowAt ⟨fun _ _ ↦ merger.getString tuple, fun _ _ ↦ merger.getValue tuple⟩ 0 0
    colOffsetInFT columns i row

section Loop

variable {merger : KeyBlockMerger V} {colOffsetInFT : ℕ → ℕ} {left right : List UInt8}
  {offset i last : ℕ} {column : KeyColumn} {columns all : List KeyColumn}

theorem Reads.tail {row : KeyRow V (column :: columns)}
    (h : Reads merger colOffsetInFT left offset i (column :: columns) row) :
    Reads merger colOffsetInFT left (offset + column.dataType.getEncodingSize) (i + 1) columns
      row.2 := by
  obtain ⟨⟨bytes, hkey⟩, hvalues⟩ := h
  refine ⟨⟨bytes, ?_⟩, hvalues.2⟩
  rw [← List.drop_drop, hkey, encodeRow, List.append_assoc,
    List.drop_append_of_le_length (length_encodeEntry _ _ _).ge,
    List.drop_eq_nil_of_le (length_encodeEntry _ _ _).le, List.nil_append]

theorem Reads.take {row : KeyRow V (column :: columns)}
    (h : Reads merger colOffsetInFT left offset i (column :: columns) row) :
    (left.drop offset).take column.dataType.getEncodingSize = encodeEntry true column row.1 := by
  obtain ⟨⟨bytes, hkey⟩, -⟩ := h
  rw [hkey, encodeRow, List.append_assoc,
    List.take_append_of_le_length (length_encodeEntry _ _ _).ge,
    List.take_of_length_le (length_encodeEntry _ _ _).le]

theorem Reads.isNullVal {row : KeyRow V (column :: columns)}
    (h : Reads merger colOffsetInFT left offset i (column :: columns) row) :
    isNullVal (left.drop offset) column.isAscOrder = row.1.isNone := by
  obtain ⟨⟨bytes, hkey⟩, -⟩ := h
  rw [hkey, encodeRow, List.append_assoc, isNullVal_encodeEntry]

theorem Reads.isLongStr {isAscOrder : Bool} {a : List UInt8}
    {row : KeyRow V (⟨.string, isAscOrder⟩ :: columns)} (hrow : row.1 = some a)
    (h : Reads merger colOffsetInFT left offset i (⟨.string, isAscOrder⟩ :: columns) row) :
    isLongStr (left.drop offset) isAscOrder = decide (shortStrLength < a.length) := by
  obtain ⟨⟨bytes, hkey⟩, -⟩ := h
  rw [hkey, encodeRow, List.append_assoc, hrow]
  exact isLongStr_encodeEntry isAscOrder a

theorem Reads.getString {isAscOrder : Bool} {a : List UInt8}
    {row : KeyRow V (⟨.string, isAscOrder⟩ :: columns)} (hrow : row.1 = some a)
    (h : Reads merger colOffsetInFT left offset i (⟨.string, isAscOrder⟩ :: columns) row) :
    merger.getString left (colOffsetInFT i) = a := by
  have hvalue := h.values.1
  rw [hrow] at hvalue
  exact hvalue

theorem Reads.getValue {isAscOrder : Bool} {a : V}
    {row : KeyRow V (⟨.unstructured, isAscOrder⟩ :: columns)} (hrow : row.1 = some a)
    (h : Reads merger colOffsetInFT left offset i (⟨.unstructured, isAscOrder⟩ :: columns) row) :
    merger.getValue left (colOffsetInFT i) = a := by
  have hvalue := h.values.1
  rw [hrow] at hvalue
  exact hvalue

/-- How the bytes compare that have not been compared yet. -/
def pending (left right : List UInt8) (last offset : ℕ) : Ordering :=
  compare ((left.drop last).take (offset - last)) ((right.drop last).take (offset - last))

end Loop

/-! ## Comparing two encoded rows -/

section Compare

variable {comparison : ValueComparison V} {tables : UInt8 → FactorizedTable V}
  {colOffsetInFT : ℕ → ℕ} {columns : List KeyColumn}

theorem RowAt.congr {table table' : FactorizedTable V} {b o b' o' : ℕ}
    (hstring : ∀ c, table'.getString b' o' c = table.getString b o c)
    (hvalue : ∀ c, table'.getValue b' o' c = table.getValue b o c) {i : ℕ} {row : KeyRow V columns}
    (h : RowAt table b o colOffsetInFT columns i row) :
    RowAt table' b' o' colOffsetInFT columns i row := by
  induction columns generalizing i with
  | nil => trivial
  | cons column columns ih =>
      refine ⟨?_, ih h.2⟩
      obtain ⟨hdata, -⟩ := h
      obtain ⟨dataType, isAscOrder⟩ := column
      obtain ⟨value, row⟩ := row
      cases dataType <;> cases value <;> first | trivial | exact (hstring _).trans hdata |
        exact (hvalue _).trans hdata

theorem EncodedRow.drop_tuple (encoded : EncodedRow tables colOffsetInFT columns) :
    encoded.tuple.drop (numBytesOfKeys columns) =
      OrderByKeyEncoder.tupleInfo encoded.ftIdx encoded.ftBlockIdx encoded.ftBlockOffset := by
  rw [EncodedRow.tuple, List.drop_append_of_le_length (length_encodeRow _ _).ge,
    List.drop_eq_nil_of_le (length_encodeRow _ _).le, List.nil_append]

theorem EncodedRow.reads (encoded : EncodedRow tables colOffsetInFT columns) :
    Reads (KeyBlockMerger.ofColumns comparison tables colOffsetInFT columns) colOffsetInFT
      encoded.tuple 0 0 columns encoded.row := by
  have hinfo : encoded.tuple.drop
      (KeyBlockMerger.ofColumns comparison tables colOffsetInFT columns).numBytesToCompare =
      OrderByKeyEncoder.tupleInfo encoded.ftIdx encoded.ftBlockIdx encoded.ftBlockOffset :=
    encoded.drop_tuple
  refine ⟨⟨_, rfl⟩, encoded.rowAt.congr ?_ ?_⟩
  · intro c
    simp only [KeyBlockMerger.getString, KeyBlockMerger.tableOf, hinfo, getEncodedFTIdx_tupleInfo,
      getEncodedFTBlockIdx_tupleInfo encoded.ftBlockIdx_lt,
      getEncodedFTBlockOffset_tupleInfo encoded.ftBlockOffset_le]
    rfl
  · intro c
    simp only [KeyBlockMerger.getValue, KeyBlockMerger.tableOf, hinfo, getEncodedFTIdx_tupleInfo,
      getEncodedFTBlockIdx_tupleInfo encoded.ftBlockIdx_lt,
      getEncodedFTBlockOffset_tupleInfo encoded.ftBlockOffset_le]
    rfl

end Compare

def constantTables (string : List UInt8) : UInt8 → FactorizedTable Unit :=
  fun _ ↦ ⟨fun _ _ _ ↦ string, fun _ _ _ ↦ ()⟩

/-- Values that are all equal. -/
def noComparison : ValueComparison Unit :=
  ⟨fun _ _ ↦ .ok true, fun _ _ ↦ .ok false, fun _ _ ↦ .ok false, fun _ _ ↦ .ok false⟩

end Graphflow.OrderBy
