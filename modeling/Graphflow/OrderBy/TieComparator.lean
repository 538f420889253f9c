import Graphflow.Lib.SortContract
import Graphflow.OrderBy.MergeOrder

/-!
# Solving ties

The comparator of `RadixSort::solveStringAndUnstructuredTies`, by which `std::sort` sorts tuples
that agree up to the end of a column of strings or of unstructured values.  The descending order is
made by comparing the result for the ascending order with `isAscOrder`.
-/

namespace Graphflow.OrderBy

open Lib Storage

variable {V : Type}

/-- What a sort of one key block reads. -/
structure RadixSort (V : Type) where
  comparison : ValueComparison V
  factorizedTable : FactorizedTable V
  numBytesPerTuple : ℕ

namespace RadixSort

def numBytesToRadixSort (sort : RadixSort V) : ℕ := sort.numBytesPerTuple - 8

def getString (sort : RadixSort V) (tuple : List UInt8) (colOffsetInFT : ℕ) : List UInt8 :=
  let tupleInfo := tuple.drop sort.numBytesToRadixSort
  sort.factorizedTable.getString (getEncodedFTBlockIdx tupleInfo)
    (getEncodedFTBlockOffset tupleInfo) colOffsetInFT

def getValue (sort : RadixSort V) (tuple : List UInt8) (colOffsetInFT : ℕ) : V :=
  let tupleInfo := tuple.drop sort.numBytesToRadixSort
  sort.factorizedTable.getValue (getEncodedFTBlockIdx tupleInfo)
    (getEncodedFTBlockOffset tupleInfo) colOffsetInFT

/-- The comparator; it throws if unstructured values do not compare. -/
def tieLess (sort : RadixSort V) (keyColInfo : StringAndUnstructuredKeyColInfo)
    (left right : List UInt8) : Except Fault Bool :=
  let offset := keyColInfo.colOffsetInEncodedKeyBlock
  let isAscOrder := keyColInfo.isAscOrder
  if isNullVal (right.drop offset) isAscOrder then .ok isAscOrder
  else if isNullVal (left.drop offset) isAscOrder then .ok (!isAscOrder)
  else if keyColInfo.isStrCol then
    match isLongStr (left.drop offset) isAscOrder, isLongStr (right.drop offset) isAscOrder with
    | false, false => .ok false
    | true, false => .ok (!isAscOrder)
    | false, true => .ok isAscOrder
    | true, true =>
        .ok (isAscOrder == GfString.lt (sort.getString left keyColInfo.colOffsetInFT)
          (sort.getString right keyColInfo.colOffsetInFT))
  else do
    let result ← sort.comparison.lessThan (sort.getValue left keyColInfo.colOffsetInFT)
      (sort.getValue right keyColInfo.colOffsetInFT)
    return isAscOrder == result

end RadixSort

/-! ## A column between others -/

section Column

variable {before after : List KeyColumn} {column : KeyColumn}

/-- The value of a row in the column behind some others. -/
def valueBehind : (before : List KeyColumn) → KeyRow V (before ++ column :: after) →
    Option (column.dataType.Data V)
  | [], row => row.1
  | _ :: before, row => valueBehind before row.2

def keyColInfoBehind (before : List KeyColumn) (column : KeyColumn) (colOffsetInFT : ℕ → ℕ) :
    StringAndUnstructuredKeyColInfo :=
  ⟨colOffsetInFT before.length, numBytesOfKeys before, column.isAscOrder,
    column.dataType = .string⟩

theorem drop_encodeRow (row : KeyRow V (before ++ column :: after)) : ∃ bytes,
    (encodeRow true (before ++ column :: after) row).drop (numBytesOfKeys before) =
      encodeEntry true column (valueBehind before row) ++ bytes := by
  induction before with
  | nil => exact ⟨encodeRow true after row.2, rfl⟩
  | cons first before ih =>
      obtain ⟨bytes, hbytes⟩ := ih row.2
      refine ⟨bytes, ?_⟩
      have hsize : numBytesOfKeys (first :: before) =
          first.dataType.getEncodingSize + numBytesOfKeys before := rfl
      have hrow : encodeRow true (first :: before ++ column :: after) row =
          encodeEntry true first row.1 ++ encodeRow true (before ++ column :: after) row.2 := rfl
      rw [hrow, hsize, ← List.drop_drop,
        List.drop_append_of_le_length (length_encodeEntry _ _ _).ge,
        List.drop_eq_nil_of_le (length_encodeEntry _ _ _).le, List.nil_append]
      exact hbytes

theorem dataAt_valueBehind {table : FactorizedTable V} {ftBlockIdx ftBlockOffset : ℕ}
    {colOffsetInFT : ℕ → ℕ} {row : KeyRow V (before ++ column :: after)} {i : ℕ}
    (h : RowAt table ftBlockIdx ftBlockOffset colOffsetInFT (before ++ column :: after) i row) :
    DataAt table ftBlockIdx ftBlockOffset (colOffsetInFT (i + before.length)) column.dataType
      (valueBehind before row) := by
  induction before generalizing i with
  | nil => exact h.1
  | cons first before ih =>
      have hindex : i + (first :: before).length = i + 1 + before.length := by
        rw [List.length_cons]
        omega
      rw [hindex]
      exact ih h.2

end Column

/-! ## A tuple of a tie -/

section Tie

variable {sort : RadixSort V} {info : StringAndUnstructuredKeyColInfo} {column : KeyColumn}
  {left right : List UInt8} {l r : Option (column.dataType.Data V)}

/-- What the comparator reads of a tuple. -/
structure HasValue (sort : RadixSort V) (info : StringAndUnstructuredKeyColInfo)
    (column : KeyColumn) (tuple : List UInt8) (value : Option (column.dataType.Data V)) : Prop where
  key : ∃ bytes, tuple.drop info.colOffsetInEncodedKeyBlock = encodeEntry true column value ++ bytes
  value : DataAt ⟨fun _ _ ↦ sort.getString tuple, fun _ _ ↦ sort.getValue tuple⟩ 0 0
    info.colOffsetInFT column.dataType value
  isAscOrder : info.isAscOrder = column.isAscOrder
  isStrCol : info.isStrCol = decide (column.dataType = .string)

theorem HasValue.isNullVal (h : HasValue sort info column left l) :
    isNullVal (left.drop info.colOffsetInEncodedKeyBlock) column.isAscOrder = l.isNone := by
  obtain ⟨bytes, hkey⟩ := h.key
  rw [hkey, isNullVal_encodeEntry]

theorem tieLess_of_null (hr : HasValue sort info column right none) :
    sort.tieLess info left right = .ok column.isAscOrder := by
  have hnull := hr.isNullVal
  simp only [RadixSort.tieLess, hr.isAscOrder, hnull, Option.isNone_none, if_true]

variable {isAscOrder : Bool}

theorem HasValue.isLongStr {a : List UInt8}
    (h : HasValue sort info ⟨.string, isAscOrder⟩ left (some a)) :
    isLongStr (left.drop info.colOffsetInEncodedKeyBlock) isAscOrder =
      decide (shortStrLength < a.length) := by
  obtain ⟨bytes, hkey⟩ := h.key
  rw [hkey, isLongStr_encodeEntry]

/-- Of two strings that tie, both are long or both are short. -/
theorem tieLess_of_strings {a b : List UInt8}
    (hl : HasValue sort info ⟨.string, isAscOrder⟩ left (some a))
    (hr : HasValue sort info ⟨.string, isAscOrder⟩ right (some b))
    (htie : decide (shortStrLength < a.length) = decide (shortStrLength < b.length)) :
    sort.tieLess info left right = .ok (decide (shortStrLength < a.length) &&
      (isAscOrder == GfString.lt a b)) := by
  have hlnull := hl.isNullVal
  have hrnull := hr.isNullVal
  have hllong := hl.isLongStr
  have hrlong := hr.isLongStr
  have ha : sort.getString left info.colOffsetInFT = a := hl.value
  have hb : sort.getString right info.colOffsetInFT = b := hr.value
  have hasc : info.isAscOrder = isAscOrder := hl.isAscOrder
  simp only [RadixSort.tieLess, hasc, hlnull, hrnull, hllong, hrlong, ← htie, ha, hb, hl.isStrCol,
    decide_true, if_true]
  cases decide (shortStrLength < a.length) <;> rfl

theorem tieLess_of_values {a b : V}
    (hl : HasValue sort info ⟨.unstructured, isAscOrder⟩ left (some a))
    (hr : HasValue sort info ⟨.unstructured, isAscOrder⟩ right (some b)) {result : Bool}
    (hless : sort.comparison.lessThan a b = .ok result) :
    sort.tieLess info left right = .ok (isAscOrder == result) := by
  have hlnull := hl.isNullVal
  have hrnull := hr.isNullVal
  have ha : sort.getValue left info.colOffsetInFT = a := hl.value
  have hb : sort.getValue right info.colOffsetInFT = b := hr.value
  have hasc : info.isAscOrder = isAscOrder := hl.isAscOrder
  have hcolumn : decide (KeyType.unstructured = KeyType.string) = false := by decide
  simp only [RadixSort.tieLess, hasc, hlnull, hrnull, ha, hb, hl.isStrCol, hcolumn,
    Bool.false_eq_true, if_false, hless]
  rfl

end Tie

/-! ## Ties of a key block -/

section TieRange

variable {table : FactorizedTable V} {colOffsetInFT : ℕ → ℕ} {before after : List KeyColumn}
  {column : KeyColumn} {comparison : ValueComparison V}

/-- The sort of a thread, whose tuples have their rows in its factorized table. -/
def RadixSort.ofColumns (comparison : ValueComparison V) (table : FactorizedTable V)
    (columns : List KeyColumn) : RadixSort V :=
  ⟨comparison, table, OrderBy.numBytesPerTuple columns⟩

abbrev EncodedIn (table : FactorizedTable V) (colOffsetInFT : ℕ → ℕ) (columns : List KeyColumn) :=
  EncodedRow (fun _ ↦ table) colOffsetInFT columns

def EncodedRow.valueBehind (before : List KeyColumn)
    (encoded : EncodedIn table colOffsetInFT (before ++ column :: after)) :
    Option (column.dataType.Data V) :=
  OrderBy.valueBehind before encoded.row

theorem EncodedRow.drop_key
    (encoded : EncodedIn table colOffsetInFT (before ++ column :: after)) : ∃ bytes,
      encoded.tuple.drop (numBytesOfKeys before) =
        encodeEntry true column (encoded.valueBehind before) ++ bytes := by
  obtain ⟨bytes, hbytes⟩ := drop_encodeRow encoded.row
  have hlength : numBytesOfKeys before ≤
      (encodeRow true (before ++ column :: after) encoded.row).length := by
    rw [length_encodeRow, numBytesOfKeys, numBytesOfKeys, List.map_append, List.sum_append]
    exact Nat.le_add_right _ _
  refine ⟨bytes ++ OrderByKeyEncoder.tupleInfo encoded.ftIdx encoded.ftBlockIdx
    encoded.ftBlockOffset, ?_⟩
  rw [EncodedRow.tuple, List.drop_append_of_le_length hlength, hbytes, List.append_assoc]
  rfl

theorem EncodedRow.hasValue
    (encoded : EncodedIn table colOffsetInFT (before ++ column :: after)) :
    HasValue (RadixSort.ofColumns comparison table (before ++ column :: after))
      (keyColInfoBehind before column colOffsetInFT) column encoded.tuple
      (encoded.valueBehind before) := by
  have hinfo : encoded.tuple.drop (RadixSort.ofColumns comparison table
      (before ++ column :: after)).numBytesToRadixSort =
      OrderByKeyEncoder.tupleInfo encoded.ftIdx encoded.ftBlockIdx encoded.ftBlockOffset :=
    encoded.drop_tuple
  refine ⟨encoded.drop_key, ?_, rfl, rfl⟩
  have hrow : RowAt ⟨fun _ _ ↦ (RadixSort.ofColumns comparison table
      (before ++ column :: after)).getString encoded.tuple,
      fun _ _ ↦ (RadixSort.ofColumns comparison table (before ++ column :: after)).getValue
        encoded.tuple⟩ 0 0 colOffsetInFT (before ++ column :: after) 0 encoded.row := by
    refine encoded.rowAt.congr ?_ ?_
    · intro c
      simp only [RadixSort.getString, hinfo,
        getEncodedFTBlockIdx_tupleInfo encoded.ftBlockIdx_lt,
        getEncodedFTBlockOffset_tupleInfo encoded.ftBlockOffset_le]
      rfl
    · intro c
      simp only [RadixSort.getValue, hinfo,
        getEncodedFTBlockIdx_tupleInfo encoded.ftBlockIdx_lt,
        getEncodedFTBlockOffset_tupleInfo encoded.ftBlockOffset_le]
      rfl
  have hdata := dataAt_valueBehind hrow
  rw [Nat.zero_add] at hdata
  exact hdata

/-- The tuples of a range agree up to the end of the column. -/
def IsTie (range : List (EncodedIn table colOffsetInFT (before ++ column :: after))) : Prop :=
  ∀ s ∈ range, ∀ t ∈ range,
    s.tuple.take (numBytesOfKeys before + column.dataType.getEncodingSize) =
      t.tuple.take (numBytesOfKeys before + column.dataType.getEncodingSize)

theorem IsTie.encodeEntry_eq
    {range : List (EncodedIn table colOffsetInFT (before ++ column :: after))} (h : IsTie range)
    {s t : EncodedIn table colOffsetInFT (before ++ column :: after)} (hs : s ∈ range)
    (ht : t ∈ range) : encodeEntry true column (s.valueBehind before) =
      encodeEntry true column (t.valueBehind before) := by
  have hentry (u : EncodedIn table colOffsetInFT (before ++ column :: after)) :
      (u.tuple.take (numBytesOfKeys before + column.dataType.getEncodingSize)).drop
        (numBytesOfKeys before) = encodeEntry true column (u.valueBehind before) := by
    obtain ⟨bytes, hbytes⟩ := u.drop_key
    rw [List.drop_take, Nat.add_sub_cancel_left, hbytes,
      List.take_append_of_le_length (length_encodeEntry _ _ _).ge,
      List.take_of_length_le (length_encodeEntry _ _ _).le]
  rw [← hentry s, ← hentry t, h s hs t ht]

/-- The comparator on the tuples of a range. -/
def TieLess (comparison : ValueComparison V)
    (s t : EncodedIn table colOffsetInFT (before ++ column :: after)) : Prop :=
  (RadixSort.ofColumns comparison table (before ++ column :: after)).tieLess
    (keyColInfoBehind before column colOffsetInFT) s.tuple t.tuple = .ok true

/-- The order of two tuples in the column. -/
def InColumnOrder (compareUnstructured : V → V → Ordering)
    (s t : EncodedIn table colOffsetInFT (before ++ column :: after)) : Prop :=
  compareColumn compareUnstructured column (s.valueBehind before) (t.valueBehind before) ≠ .gt

/-- The comparator is a strict order as `std::sort` asks for, and the range is sorted by it into the
order of the column. -/
structure SolvesTie (comparison : ValueComparison V) (compareUnstructured : V → V → Ordering)
    (range : List (EncodedIn table colOffsetInFT (before ++ column :: after))) : Prop where
  strict : StrictOn (TieLess comparison) range
  sorts : SortsInto (TieLess comparison) (InColumnOrder compareUnstructured) range

/-- The values of an unstructured column compare without an exception, in an order. -/
def MutuallyComparable (comparison : ValueComparison V) (compareUnstructured : V → V → Ordering) :
    (dataType : KeyType) → List (Option (dataType.Data V)) → Prop
  | .unstructured, values => ∀ a b, some a ∈ values → some b ∈ values →
      comparison.lessThan a b = .ok (compareUnstructured a b = .lt)
  | _, _ => True

/-- Nulls of a descending column, values of an ascending one, and short strings that are equal. -/
def TellsApart (isAscOrder : Bool) :
    (dataType : KeyType) → List (Option (dataType.Data V)) → Option (dataType.Data V) → Prop
  | _, _, none => isAscOrder = false
  | .string, values, some a =>
      if @List.length UInt8 a ≤ shortStrLength then ∀ value ∈ values, value = some a
      else isAscOrder = true
  | _, _, some _ => isAscOrder = true

def Solvable (range : List (EncodedIn table colOffsetInFT (before ++ column :: after))) : Prop :=
  ∀ t ∈ range, TellsApart column.isAscOrder column.dataType
    (range.map (EncodedRow.valueBehind before)) (t.valueBehind before)

end TieRange

section Solving

variable {table : FactorizedTable V} {colOffsetInFT : ℕ → ℕ} {before after : List KeyColumn}
  {column : KeyColumn} {comparison : ValueComparison V} {compareUnstructured : V → V → Ordering}
  {range : List (EncodedIn table colOffsetInFT (before ++ column :: after))}
  {s t : EncodedIn table colOffsetInFT (before ++ column :: after)}

theorem tieLess_iff_of_none (ht : t.valueBehind before = none) :
    TieLess comparison s t ↔ column.isAscOrder = true := by
  have hvalue := @EncodedRow.hasValue _ _ _ _ _ _ comparison t
  rw [ht] at hvalue
  rw [TieLess, tieLess_of_null hvalue, Except.ok.injEq]

/-- In a tie all values are null or none is. -/
theorem IsTie.isNone_eq (h : IsTie range) (hs : s ∈ range) (ht : t ∈ range) :
    (s.valueBehind before).isNone = (t.valueBehind before).isNone :=
  isNone_eq_of_encodeEntry_eq (h.encodeEntry_eq hs ht)

theorem IsTie.none_of_none (h : IsTie range) (hs : s ∈ range) (ht : t ∈ range)
    (hnone : s.valueBehind before = none) : t.valueBehind before = none := by
  have hsame := h.isNone_eq hs ht
  rw [hnone] at hsame
  exact Option.isNone_iff_eq_none.mp hsame.symm

theorem IsTie.exists_some (h : IsTie range) (hs : s ∈ range) (ht : t ∈ range)
    {a : column.dataType.Data V} (ha : s.valueBehind before = some a) :
    ∃ b, t.valueBehind before = some b := by
  cases hvalue : t.valueBehind before with
  | none => exact absurd (h.none_of_none ht hs hvalue) (by rw [ha]; exact Option.some_ne_none a)
  | some b => exact ⟨b, rfl⟩

/-- Nulls are a tie for the column; the comparator of an ascending column says that each of them is
less than each. -/
theorem solvesTie_iff_of_none (h : IsTie range) (hs : s ∈ range)
    (hnone : s.valueBehind before = none) :
    SolvesTie comparison compareUnstructured range ↔ column.isAscOrder = false := by
  constructor
  · intro hsolves
    have hirrefl := hsolves.strict.irreflexive s hs
    rwa [tieLess_iff_of_none hnone, Bool.not_eq_true] at hirrefl
  · intro hdesc
    refine ⟨StrictOn.of_never fun t ht u hu hless ↦ ?_, SortsInto.of_le fun t ht u hu _ ↦ ?_⟩
    · rw [tieLess_iff_of_none (h.none_of_none hs hu hnone), hdesc] at hless
      cases hless
    · rw [InColumnOrder, h.none_of_none hs ht hnone, h.none_of_none hs hu hnone, compareColumn,
        compareNullable, KeyColumn.direct_eq]
      exact Ordering.noConfusion

theorem solvesTie_nil : SolvesTie comparison compareUnstructured
    ([] : List (EncodedIn table colOffsetInFT (before ++ column :: after))) :=
  ⟨StrictOn.nil _, SortsInto.of_le fun _ hs ↦ absurd hs List.not_mem_nil⟩

end Solving

section Claim

variable {table : FactorizedTable V} {colOffsetInFT : ℕ → ℕ} {before after : List KeyColumn}
  {comparison : ValueComparison V} {compareUnstructured : V → V → Ordering} {isAscOrder : Bool}

section Strings

variable {range : List (EncodedIn table colOffsetInFT (before ++ ⟨.string, isAscOrder⟩ :: after))}
  {s t : EncodedIn table colOffsetInFT (before ++ ⟨.string, isAscOrder⟩ :: after)}

theorem IsTie.isLong_eq (h : IsTie range) (hs : s ∈ range) (ht : t ∈ range) {a b : List UInt8}
    (ha : s.valueBehind before = some a) (hb : t.valueBehind before = some b) :
    decide (shortStrLength < a.length) = decide (shortStrLength < b.length) := by
  have hentry := h.encodeEntry_eq hs ht
  rw [ha, hb] at hentry
  exact isLong_eq_of_encodeEntry_eq hentry

theorem IsTie.tieLess_iff (h : IsTie range) (hs : s ∈ range) (ht : t ∈ range) {a b : List UInt8}
    (ha : s.valueBehind before = some a) (hb : t.valueBehind before = some b) :
    TieLess comparison s t ↔
      shortStrLength < a.length ∧ (isAscOrder = true ↔ compare a b = .lt) := by
  have hsvalue := @EncodedRow.hasValue _ _ _ _ _ _ comparison s
  have htvalue := @EncodedRow.hasValue _ _ _ _ _ _ comparison t
  rw [ha] at hsvalue
  rw [hb] at htvalue
  rw [TieLess, tieLess_of_strings hsvalue htvalue (h.isLong_eq hs ht ha hb), Except.ok.injEq,
    Bool.and_eq_true, decide_eq_true_eq, beq_iff_eq, Bool.eq_iff_iff, GfString.lt_iff]

theorem IsTie.exists_string (h : IsTie range) (hs : s ∈ range) (ht : t ∈ range) {a : List UInt8}
    (ha : s.valueBehind before = some a) : ∃ b : List UInt8, t.valueBehind before = some b :=
  h.exists_some hs ht ha

theorem inColumnOrder_iff {a b : List UInt8} (ha : s.valueBehind before = some a)
    (hb : t.valueBehind before = some b) : InColumnOrder compareUnstructured s t ↔
      if isAscOrder = true then compare a b ≠ .gt else compare b a ≠ .gt := by
  have hswap : (compare a b).swap = compare b a := Std.OrientedCmp.eq_swap.symm
  rw [InColumnOrder, ha, hb, ← hswap]
  change (KeyColumn.direct ⟨.string, isAscOrder⟩ (compare a b)) ≠ .gt ↔ _
  cases isAscOrder <;> rfl

/-- Short strings that tie are not told apart. -/
theorem IsTie.eq_of_short (h : IsTie range) (hs : s ∈ range) {a : List UInt8}
    (ha : s.valueBehind before = some a) (hshort : a.length ≤ shortStrLength)
    (hsorts : SortsInto (TieLess comparison) (InColumnOrder compareUnstructured) range)
    (ht : t ∈ range) : t.valueBehind before = some a := by
  have hnever : ∀ u ∈ range, ∀ v ∈ range, ¬TieLess comparison u v := by
    intro u hu v hv hless
    obtain ⟨b, hb⟩ := h.exists_string hs hu ha
    obtain ⟨c, hc⟩ := h.exists_string hs hv ha
    have hlong := h.isLong_eq hs hu ha hb
    rw [decide_eq_false hshort.not_gt, eq_comm, decide_eq_false_iff_not] at hlong
    exact hlong ((h.tieLess_iff hu hv hb hc).mp hless).1
  have hrefl : ∀ u ∈ range, InColumnOrder compareUnstructured u u := by
    intro u hu
    obtain ⟨b, hb⟩ := h.exists_string hs hu ha
    have hself : compare b b = .eq := Std.ReflCmp.compare_self
    rw [inColumnOrder_iff hb hb, hself, ite_self]
    exact Ordering.noConfusion
  have horder := hsorts.order_of_never hnever hrefl
  obtain ⟨b, hb⟩ := h.exists_string hs ht ha
  have hst := (inColumnOrder_iff ha hb).mp (horder s hs t ht)
  have hts := (inColumnOrder_iff hb ha).mp (horder t ht s hs)
  have hboth : compare a b ≠ .gt ∧ compare b a ≠ .gt := by
    split_ifs at hst hts
    · exact ⟨hst, hts⟩
    · exact ⟨hts, hst⟩
  have heq : compare a b = .eq := by
    cases hcompare : compare a b with
    | lt => exact absurd (Std.OrientedCmp.gt_of_lt hcompare) hboth.2
    | eq => rfl
    | gt => exact absurd hcompare hboth.1
  rw [hb, Std.LawfulEqOrd.compare_eq_iff_eq.mp heq]

/-- Long strings of an ascending column are compared as a whole. -/
theorem IsTie.solvesTie_of_long (h : IsTie range) (hs : s ∈ range) {a : List UInt8}
    (ha : s.valueBehind before = some a) (hlong : shortStrLength < a.length)
    (hasc : isAscOrder = true) : SolvesTie comparison compareUnstructured range := by
  have hless : ∀ u ∈ range, ∀ v ∈ range, ∀ b c : List UInt8, u.valueBehind before = some b →
      v.valueBehind before = some c → (TieLess comparison u v ↔ compare b c = .lt) := by
    intro u hu v hv b c hb hc
    have hsame := h.isLong_eq hs hu ha hb
    rw [decide_eq_true hlong, eq_comm, decide_eq_true_eq] at hsame
    rw [h.tieLess_iff hu hv hb hc, and_iff_right hsame]
    exact ⟨fun hiff ↦ hiff.mp hasc, fun hlt ↦ iff_of_true hasc hlt⟩
  constructor
  · let key (u : EncodedIn table colOffsetInFT (before ++ ⟨.string, isAscOrder⟩ :: after)) :
        List UInt8 := (u.valueBehind before).getD a
    apply StrictOn.of_compare compare key
    intro u hu v hv
    obtain ⟨b, hb⟩ := h.exists_string hs hu ha
    obtain ⟨c, hc⟩ := h.exists_string hs hv ha
    have hkey : key u = b ∧ key v = c := by
      simp only [key, hb, hc]
      exact ⟨rfl, rfl⟩
    rw [hkey.1, hkey.2]
    exact hless u hu v hv b c hb hc
  · apply SortsInto.of_le
    intro u hu v hv hnot
    obtain ⟨b, hb⟩ := h.exists_string hs hu ha
    obtain ⟨c, hc⟩ := h.exists_string hs hv ha
    rw [hless v hv u hu c b hc hb] at hnot
    rw [inColumnOrder_iff hb hc, if_pos hasc]
    exact fun hgt ↦ hnot (Std.OrientedCmp.lt_of_gt hgt)

theorem IsTie.solvesTie_of_equal (h : IsTie range) {a : List UInt8}
    (hshort : a.length ≤ shortStrLength) (hall : ∀ t ∈ range, t.valueBehind before = some a) :
    SolvesTie comparison compareUnstructured range := by
  have hself : compare a a = .eq := Std.ReflCmp.compare_self
  refine ⟨StrictOn.of_never fun t ht u hu hless ↦ ?_, SortsInto.of_le fun t ht u hu _ ↦ ?_⟩
  · exact hshort.not_gt ((h.tieLess_iff ht hu (hall t ht) (hall u hu)).mp hless).1
  · rw [inColumnOrder_iff (hall t ht) (hall u hu), hself, ite_self]
    exact Ordering.noConfusion

theorem solvesTie_iff_of_strings (htie : IsTie range) :
    SolvesTie comparison compareUnstructured range ↔ Solvable range := by
  constructor
  · intro hsolves t ht
    cases hvalue : t.valueBehind before with
    | none => exact (solvesTie_iff_of_none htie ht hvalue).mp hsolves
    | some a =>
        rw [TellsApart]
        split_ifs with hshort
        · intro value hmem
          obtain ⟨u, hu, rfl⟩ := List.mem_map.mp hmem
          exact htie.eq_of_short ht hvalue hshort hsolves.sorts hu
        · have hirrefl := hsolves.strict.irreflexive t ht
          have hself (b : List UInt8) : compare b b ≠ .lt := by
            have heq : compare b b = .eq := Std.ReflCmp.compare_self
            rw [heq]
            exact Ordering.noConfusion
          by_contra hdesc
          apply hirrefl
          apply (htie.tieLess_iff ht ht hvalue hvalue).mpr
          exact ⟨not_le.mp hshort, iff_of_false hdesc (hself a)⟩
  · intro hsolvable
    cases hrange : range with
    | nil => exact solvesTie_nil
    | cons t rest =>
        have ht : t ∈ range := by
          rw [hrange]
          exact List.mem_cons_self
        rw [← hrange]
        have hsolved := hsolvable t ht
        cases hvalue : t.valueBehind before with
        | none =>
            rw [hvalue] at hsolved
            exact (solvesTie_iff_of_none htie ht hvalue).mpr hsolved
        | some a =>
            rw [hvalue, TellsApart] at hsolved
            split_ifs at hsolved with hshort
            · exact htie.solvesTie_of_equal hshort fun u hu ↦
                hsolved _ (List.mem_map_of_mem hu)
            · exact htie.solvesTie_of_long ht hvalue (not_le.mp hshort) hsolved

end Strings

section Unstructured

variable
  {range : List (EncodedIn table colOffsetInFT (before ++ ⟨.unstructured, isAscOrder⟩ :: after))}
  {s t : EncodedIn table colOffsetInFT (before ++ ⟨.unstructured, isAscOrder⟩ :: after)}

theorem tieLess_iff_of_values (hcomparable : MutuallyComparable comparison compareUnstructured
      .unstructured (range.map (EncodedRow.valueBehind before))) (hs : s ∈ range) (ht : t ∈ range)
    {a b : V} (ha : s.valueBehind before = some a) (hb : t.valueBehind before = some b) :
    TieLess comparison s t ↔ (isAscOrder = true ↔ compareUnstructured a b = .lt) := by
  have hless := hcomparable a b (ha ▸ List.mem_map_of_mem hs) (hb ▸ List.mem_map_of_mem ht)
  have hsvalue := @EncodedRow.hasValue _ _ _ _ _ _ comparison s
  have htvalue := @EncodedRow.hasValue _ _ _ _ _ _ comparison t
  rw [ha] at hsvalue
  rw [hb] at htvalue
  rw [TieLess, tieLess_of_values hsvalue htvalue hless, Except.ok.injEq, beq_iff_eq,
    Bool.eq_iff_iff, decide_eq_true_eq]

theorem IsTie.solvesTie_of_ascending [Std.TransCmp compareUnstructured] (htie : IsTie range)
    (hcomparable : MutuallyComparable comparison compareUnstructured
      .unstructured (range.map (EncodedRow.valueBehind before))) (hs : s ∈ range) {a : V}
    (ha : s.valueBehind before = some a) (hasc : isAscOrder = true) :
    SolvesTie comparison compareUnstructured range := by
  have hless : ∀ u ∈ range, ∀ v ∈ range, ∀ b c : V, u.valueBehind before = some b →
      v.valueBehind before = some c → (TieLess comparison u v ↔ compareUnstructured b c = .lt) := by
    intro u hu v hv b c hb hc
    rw [tieLess_iff_of_values hcomparable hu hv hb hc]
    exact ⟨fun hiff ↦ hiff.mp hasc, fun hlt ↦ iff_of_true hasc hlt⟩
  have hvalue (u : EncodedIn table colOffsetInFT (before ++ ⟨.unstructured, isAscOrder⟩ :: after))
      (hu : u ∈ range) : ∃ b : V, u.valueBehind before = some b :=
    htie.exists_some hs hu ha
  constructor
  · let key (u : EncodedIn table colOffsetInFT (before ++ ⟨.unstructured, isAscOrder⟩ :: after)) :
        V := (u.valueBehind before).getD a
    apply StrictOn.of_compare compareUnstructured key
    intro u hu v hv
    obtain ⟨b, hb⟩ := hvalue u hu
    obtain ⟨c, hc⟩ := hvalue v hv
    have hkey : key u = b ∧ key v = c := by
      simp only [key, hb, hc]
      exact ⟨rfl, rfl⟩
    rw [hkey.1, hkey.2]
    exact hless u hu v hv b c hb hc
  · apply SortsInto.of_le
    intro u hu v hv hnot
    obtain ⟨b, hb⟩ := hvalue u hu
    obtain ⟨c, hc⟩ := hvalue v hv
    rw [hless v hv u hu c b hc hb] at hnot
    rw [InColumnOrder, hb, hc, hasc]
    change compareUnstructured b c ≠ .gt
    exact fun hgt ↦ hnot (Std.OrientedCmp.lt_of_gt hgt)

theorem solvesTie_iff_of_unstructured [Std.TransCmp compareUnstructured] (htie : IsTie range)
    (hcomparable : MutuallyComparable comparison compareUnstructured
      .unstructured (range.map (EncodedRow.valueBehind before))) :
    SolvesTie comparison compareUnstructured range ↔ Solvable range := by
  constructor
  · intro hsolves t ht
    cases hvalue : t.valueBehind before with
    | none => exact (solvesTie_iff_of_none htie ht hvalue).mp hsolves
    | some a =>
        have hirrefl := hsolves.strict.irreflexive t ht
        have hself (b : V) : compareUnstructured b b ≠ .lt := by
          have heq : compareUnstructured b b = .eq := Std.ReflCmp.compare_self
          rw [heq]
          exact Ordering.noConfusion
        rw [tieLess_iff_of_values hcomparable ht ht hvalue hvalue] at hirrefl
        change isAscOrder = true
        by_contra hdesc
        exact hirrefl (iff_of_false hdesc (hself a))
  · intro hsolvable
    cases hrange : range with
    | nil => exact solvesTie_nil
    | cons t rest =>
        have ht : t ∈ range := by
          rw [hrange]
          exact List.mem_cons_self
        rw [← hrange]
        have hsolved := hsolvable t ht
        cases hvalue : t.valueBehind before with
        | none =>
            rw [hvalue] at hsolved
            exact (solvesTie_iff_of_none htie ht hvalue).mpr hsolved
        | some a =>
            rw [hvalue] at hsolved
            exact htie.solvesTie_of_ascending hcomparable ht hvalue hsolved

end Unstructured

/-- A range of tuples that tie up to a column of strings or of unstructured values is sorted into
the order of the column by a strict order exactly if it is one of nulls of a descending column, of
long strings or unstructured values of an ascending column, or of one short string again and
again. -/
theorem solvesTie_iff_solvable {column : KeyColumn} [Std.TransCmp compareUnstructured]
    (hcolumn : column.dataType = .string ∨ column.dataType = .unstructured)
    {range : List (EncodedIn table colOffsetInFT (before ++ column :: after))}
    (htie : IsTie range) (hcomparable : MutuallyComparable comparison compareUnstructured
      column.dataType (range.map (EncodedRow.valueBehind before))) :
    SolvesTie comparison compareUnstructured range ↔ Solvable range := by
  obtain ⟨dataType, isAscOrder⟩ := column
  rcases hcolumn with rfl | rfl
  · exact solvesTie_iff_of_strings htie
  · exact solvesTie_iff_of_unstructured htie hcomparable

end Claim

/-- A tuple whose key is one string. -/
def encodedString (isAscOrder : Bool) (string : Option (List UInt8)) (ftBlockOffset : ℕ)
    (hle : ftBlockOffset ≤ maxFTBlockOffset) :
    @EncodedIn Unit ⟨fun _ _ _ ↦ string.getD [], fun _ _ _ ↦ ()⟩ id
      ([] ++ ⟨.string, isAscOrder⟩ :: []) where
  row := (string, ())
  ftIdx := 0
  ftBlockIdx := 0
  ftBlockOffset := ftBlockOffset
  ftBlockIdx_lt := zero_lt_numFTBlocks
  ftBlockOffset_le := hle
  rowAt := by
    cases string with
    | none => exact ⟨trivial, trivial⟩
    | some string => exact ⟨rfl, trivial⟩

def neverCompare : Unit → Unit → Ordering := fun _ _ ↦ .eq

instance : Std.TransCmp neverCompare where
  eq_swap := rfl
  isLE_trans _ _ := rfl

/-- Two rows with the same key. -/
def twice (isAscOrder : Bool) (string : Option (List UInt8)) :=
  [encodedString isAscOrder string 0 (by decide), encodedString isAscOrder string 1 (by decide)]

theorem isTie_twice (isAscOrder : Bool) (string : Option (List UInt8)) :
    IsTie (twice isAscOrder string) := by
  have hkey : ∀ t ∈ twice isAscOrder string,
      t.tuple.take (numBytesOfKeys [] + KeyType.string.getEncodingSize) =
        @encodeRow Unit true [⟨.string, isAscOrder⟩] (string, ()) := by
    intro t ht
    have hrow : t.row = (string, ()) := by
      rcases List.mem_pair.mp ht with rfl | rfl <;> rfl
    have hlength := @length_encodeRow Unit true [⟨.string, isAscOrder⟩] (string, ())
    have hsize : numBytesOfKeys [] + KeyType.string.getEncodingSize =
        numBytesOfKeys [⟨.string, isAscOrder⟩] := rfl
    have htuple : t.tuple = @encodeRow Unit true [⟨.string, isAscOrder⟩] (string, ()) ++
        OrderByKeyEncoder.tupleInfo t.ftIdx t.ftBlockIdx t.ftBlockOffset := by
      rw [EncodedRow.tuple, hrow]
      rfl
    rw [htuple, hsize, ← hlength, List.take_left]
  intro s hs t ht
  exact (hkey s hs).trans (hkey t ht).symm

/-- Of two rows with the same long string in a descending column each is less than the other, and so
is each of two nulls of an ascending column. -/
theorem not_solvesTie_twice :
    (IsTie (twice false (some (List.replicate 13 97))) ∧
      ¬SolvesTie noComparison neverCompare (twice false (some (List.replicate 13 97)))) ∧
    IsTie (twice true none) ∧ ¬SolvesTie noComparison neverCompare (twice true none) := by
  refine ⟨⟨isTie_twice _ _, fun h ↦ ?_⟩, isTie_twice _ _, fun h ↦ ?_⟩
  · refine h.strict.asymmetric _ List.mem_cons_self _ (List.mem_cons_of_mem _ List.mem_cons_self)
      ?_ ?_
    · unfold TieLess
      decide +kernel
    · unfold TieLess
      decide +kernel
  · refine h.strict.asymmetric _ List.mem_cons_self _ (List.mem_cons_of_mem _ List.mem_cons_self)
      ?_ ?_
    · unfold TieLess
      decide +kernel
    · unfold TieLess
      decide +kernel

theorem solvesTie_iff_solvable_twice :
    SolvesTie noComparison neverCompare (twice true (some (List.replicate 13 97))) ↔
      Solvable (twice true (some (List.replicate 13 97))) :=
  solvesTie_iff_solvable (.inl rfl) (isTie_twice _ _) trivial

end Graphflow.OrderBy
