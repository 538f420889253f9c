import Graphflow.OrderBy.KeyEncoder
import Mathlib.Data.Int.ModEq

/-!
# The order of encoded keys

`memcmp` of two encodings gives the order of the values.  The bytes of a number stand with the most
significant one first and with the sign bit turned over, which adds half of the range to the number.
-/

namespace Graphflow.OrderBy

open Lib

/-! ## Swapping bytes -/

theorem getElem?_littleEndian {width n i : ℕ} (hi : i < width) :
    (littleEndian width n)[i]? = some (UInt8.ofNat (n / 256 ^ i)) := by
  induction width generalizing n i with
  | zero => exact absurd hi (Nat.not_lt_zero i)
  | succ width ih =>
      cases i with
      | zero => rw [Nat.pow_zero, Nat.div_one]; rfl
      | succ i =>
          have hnext := ih (n := n / 256) (Nat.lt_of_succ_lt_succ hi)
          rw [Nat.div_div_eq_div_mul, ← Nat.pow_succ'] at hnext
          exact hnext

theorem ofNat_div_eq_extract {w : ℕ} (x : BitVec w) (i : ℕ) :
    UInt8.ofNat (x.toNat / 256 ^ i) = UInt8.ofBitVec (x.extractLsb' (8 * i) 8) := by
  apply UInt8.toNat_inj.mp
  rw [UInt8.toNat_ofNat', UInt8.toNat_ofBitVec, BitVec.extractLsb'_toNat, Nat.shiftRight_eq_div_pow,
    Nat.pow_mul]

theorem extract_bswap64 (x : BitVec 64) {i : ℕ} (hi : i < 8) :
    (bswap64 x).extractLsb' (8 * i) 8 = x.extractLsb' (8 * (7 - i)) 8 := by
  apply BitVec.eq_of_getLsbD_eq
  intro j hj
  interval_cases i <;> interval_cases j <;> simp [bswap64]

theorem extract_bswap32 (x : BitVec 32) {i : ℕ} (hi : i < 4) :
    (bswap32 x).extractLsb' (8 * i) 8 = x.extractLsb' (8 * (3 - i)) 8 := by
  apply BitVec.eq_of_getLsbD_eq
  intro j hj
  interval_cases i <;> interval_cases j <;> simp [bswap32]

theorem littleEndian_eq_bigEndian_of_extract {w width : ℕ} {x y : BitVec w}
    (h : ∀ i < width, y.extractLsb' (8 * i) 8 = x.extractLsb' (8 * (width - 1 - i)) 8) :
    littleEndian width y.toNat = bigEndian width x.toNat := by
  apply List.ext_getElem?
  intro i
  by_cases hi : i < width
  · rw [getElem?_littleEndian hi, ofNat_div_eq_extract, h i hi, bigEndian,
      List.getElem?_reverse (by rwa [length_littleEndian]), length_littleEndian,
      getElem?_littleEndian (by omega), ofNat_div_eq_extract]
  · rw [List.getElem?_eq_none (by simp; omega), List.getElem?_eq_none (by simp; omega)]

theorem littleEndian_bswap64 (x : BitVec 64) :
    littleEndian 8 (bswap64 x).toNat = bigEndian 8 x.toNat :=
  littleEndian_eq_bigEndian_of_extract fun _ hi ↦ extract_bswap64 x hi

theorem littleEndian_bswap32 (x : BitVec 32) :
    littleEndian 4 (bswap32 x).toNat = bigEndian 4 x.toNat :=
  littleEndian_eq_bigEndian_of_extract fun _ hi ↦ extract_bswap32 x hi

/-! ## Numbers -/

/-- Turning the sign bit over adds half of the range to a signed number. -/
theorem modifyHead_flipSign {width n : ℕ} {z : ℤ}
    (hmod : (n : ℤ) ≡ z [ZMOD (256 ^ (width + 1) : ℕ)])
    (hz : 0 ≤ z + 128 * 256 ^ width) :
    (bigEndian (width + 1) n).modifyHead flipSign =
      bigEndian (width + 1) (z + 128 * 256 ^ width).toNat := by
  have hflip : (fun byte : UInt8 ↦ byte ^^^ 128) = flipSign := rfl
  have hmods : (n + 128 * 256 ^ width) % 256 ^ (width + 1) =
      (z + 128 * 256 ^ width).toNat % 256 ^ (width + 1) := by
    apply Int.natCast_inj.mp
    rw [Int.natCast_mod, Int.natCast_mod, Int.toNat_of_nonneg hz]
    push_cast at hmod ⊢
    exact hmod.add_right _
  rw [← hflip, modifyHead_bigEndian, ← bigEndian_mod, hmods, bigEndian_mod]

theorem encodeInt64_eq (data : Int64) :
    encodeInt64 true data = bigEndian 8 (data.toInt + 2 ^ 63).toNat := by
  have hmod : (data.toBitVec.toNat : ℤ) ≡ data.toInt [ZMOD (256 ^ (7 + 1) : ℕ)] := by
    rw [Int64.toInt, BitVec.toInt_eq_toNat_bmod]
    exact Int.bmod_emod.symm
  have hle := data.le_toInt
  rw [encodeInt64, if_pos rfl, littleEndian_bswap64, modifyHead_flipSign hmod (by omega)]
  rfl

theorem encodeInt32_eq (data : Int32) :
    encodeInt32 true data = bigEndian 4 (data.toInt + 2 ^ 31).toNat := by
  have hmod : (data.toBitVec.toNat : ℤ) ≡ data.toInt [ZMOD (256 ^ (3 + 1) : ℕ)] := by
    rw [Int32.toInt, BitVec.toInt_eq_toNat_bmod]
    exact Int.bmod_emod.symm
  have hle := data.le_toInt
  rw [encodeInt32, if_pos rfl, littleEndian_bswap32, modifyHead_flipSign hmod (by omega)]
  rfl

theorem compare_toNat {x y : ℤ} (hx : 0 ≤ x) (hy : 0 ≤ y) :
    compare x.toNat y.toNat = compare x y := by
  rcases Int.lt_trichotomy x y with hlt | rfl | hgt
  · rw [Nat.compare_eq_lt.mpr (by omega), compare_lt_iff_lt.mpr hlt]
  · rw [compare_eq_iff_eq.mpr rfl, compare_eq_iff_eq.mpr rfl]
  · rw [Nat.compare_eq_gt.mpr (by omega), compare_gt_iff_gt.mpr hgt]

theorem compare_add_right (x y z : ℤ) : compare (x + z) (y + z) = compare x y := by
  rcases Int.lt_trichotomy x y with hlt | rfl | hgt
  · rw [compare_lt_iff_lt.mpr hlt, compare_lt_iff_lt.mpr (by omega)]
  · rw [compare_eq_iff_eq.mpr rfl, compare_eq_iff_eq.mpr rfl]
  · rw [compare_gt_iff_gt.mpr hgt, compare_gt_iff_gt.mpr (by omega)]

theorem compare_encodeInt64 (l r : Int64) :
    compare (encodeInt64 true l) (encodeInt64 true r) = compare l.toInt r.toInt := by
  have hl := l.le_toInt
  have hl' := l.toInt_lt
  have hr := r.le_toInt
  have hr' := r.toInt_lt
  rw [encodeInt64_eq, encodeInt64_eq, compare_bigEndian (by omega) (by omega),
    compare_toNat (by omega) (by omega), compare_add_right]

theorem compare_encodeInt32 (l r : Int32) :
    compare (encodeInt32 true l) (encodeInt32 true r) = compare l.toInt r.toInt := by
  have hl := l.le_toInt
  have hl' := l.toInt_lt
  have hr := r.le_toInt
  have hr' := r.toInt_lt
  rw [encodeInt32_eq, encodeInt32_eq, compare_bigEndian (by omega) (by omega),
    compare_toNat (by omega) (by omega), compare_add_right]

@[simp] theorem length_encodeInt64 (swapBytes : Bool) (data : Int64) :
    (encodeInt64 swapBytes data).length = 8 := by
  rw [encodeInt64, List.length_modifyHead, length_littleEndian]

@[simp] theorem length_encodeInt32 (swapBytes : Bool) (data : Int32) :
    (encodeInt32 swapBytes data).length = 4 := by
  rw [encodeInt32, List.length_modifyHead, length_littleEndian]

/-! ## Intervals -/

/-- The normalised months fit in 32 bits; the days and the microseconds always fit. -/
def EntriesFit (data : Interval) : Prop :=
  -2 ^ 31 ≤ data.normalizeIntervalEntries.months ∧ data.normalizeIntervalEntries.months < 2 ^ 31

theorem compare_encodeInterval {l r : Interval} (hl : EntriesFit l) (hr : EntriesFit r) :
    compare (encodeInterval true l) (encodeInterval true r) = Interval.compareEntries l r := by
  obtain ⟨-, -, -, -, hldays, hldays', hlmicros, hlmicros'⟩ := l.inRange
  obtain ⟨-, -, -, -, hrdays, hrdays', hrmicros, hrmicros'⟩ := r.inRange
  have hday : Interval.microsPerDay = 86400000000 := rfl
  rw [hday] at hlmicros hlmicros' hrmicros hrmicros'
  have hlmonths := Int32.toInt_ofInt_of_le hl.1 hl.2
  have hrmonths := Int32.toInt_ofInt_of_le hr.1 hr.2
  rw [encodeInterval, encodeInterval, compare_append (by simp), compare_append (by simp),
    compare_encodeInt32, compare_encodeInt32, compare_encodeInt64, hlmonths, hrmonths,
    Int32.toInt_ofInt_of_le (by omega) (by omega), Int32.toInt_ofInt_of_le (by omega) (by omega),
    Int64.toInt_ofInt_of_le (by omega) (by omega), Int64.toInt_ofInt_of_le (by omega) (by omega)]
  simp only [Interval.compareEntries, lexicographic_cons, lexicographic_nil, Ordering.then_eq,
    Ordering.then_assoc]

/-! ## Strings -/

/-- The first `n` characters, filled up with zeros, and the flag behind them. -/
def padded (n : ℕ) (data : List UInt8) : List UInt8 :=
  data.take (min n data.length) ++
    if data.length ≤ n then List.replicate (n + 1 - data.length) 0 else [255]

theorem length_padded (n : ℕ) (data : List UInt8) : (padded n data).length = n + 1 := by
  rw [padded, List.length_append, List.length_take]
  split_ifs with hshort
  · rw [List.length_replicate]
    omega
  · rw [List.length_singleton]
    omega

theorem padded_cons (n : ℕ) (x : UInt8) (data : List UInt8) :
    padded (n + 1) (x :: data) = x :: padded n data := by
  rw [padded, padded, List.length_cons, Nat.add_min_add_right, List.take_succ_cons,
    List.cons_append, Nat.add_sub_add_right]
  simp only [Nat.add_le_add_iff_right]

theorem padded_nil (n : ℕ) : padded n [] = List.replicate (n + 1) 0 := by
  rw [padded, List.take_nil, List.nil_append, List.length_nil, if_pos (Nat.zero_le n), Nat.sub_zero]

/-- Two strings that are cut off behind the same `n` characters. -/
def CutAlike (n : ℕ) (l r : List UInt8) : Prop :=
  n < l.length ∧ n < r.length ∧ l.take n = r.take n

instance (n : ℕ) (l r : List UInt8) : Decidable (CutAlike n l r) :=
  inferInstanceAs (Decidable (_ ∧ _ ∧ _))

theorem cutAlike_cons {n : ℕ} {x y : UInt8} {l r : List UInt8} :
    CutAlike (n + 1) (x :: l) (y :: r) ↔ x = y ∧ CutAlike n l r := by
  simp only [CutAlike, List.length_cons, Nat.add_lt_add_iff_right, List.take_succ_cons,
    List.cons.injEq]
  tauto

theorem compare_zero_of_ne {x : UInt8} (hx : x ≠ 0) : compare 0 x = .lt := by
  have hpos : 0 < x := by
    rw [UInt8.lt_iff_toNat_lt]
    have hne : x.toNat ≠ (0 : UInt8).toNat := fun h ↦ hx (UInt8.toNat_inj.mp h)
    exact Nat.pos_of_ne_zero hne
  simp only [compare, compareOfLessAndEq, hpos, if_true]

theorem compare_padded_nil_cons {n : ℕ} {y : UInt8} (r : List UInt8) (hy : y ≠ 0) :
    compare (padded n []) (padded n (y :: r)) = .lt := by
  cases n with
  | zero => rfl
  | succ n =>
      rw [padded_nil, padded_cons, List.replicate_succ, List.compare_cons_cons,
        compare_zero_of_ne hy, Ordering.lt_then]

/-- Without zeros among the characters, an encoded string compares as the string does. -/
theorem compare_padded {n : ℕ} {l r : List UInt8} (hl : 0 ∉ l) (hr : 0 ∉ r) :
    compare (padded n l) (padded n r) = if CutAlike n l r then .eq else compare l r := by
  induction n generalizing l r with
  | zero =>
      cases l with
      | nil =>
          cases r with
          | nil => rfl
          | cons y r => rfl
      | cons x l =>
          cases r with
          | nil => rfl
          | cons y r => rw [if_pos ⟨Nat.succ_pos _, Nat.succ_pos _, rfl⟩]; rfl
  | succ n ih =>
      cases l with
      | nil =>
          rw [if_neg fun h ↦ absurd h.1 (Nat.not_lt_zero _)]
          cases r with
          | nil => rw [compare_self_list, List.compare_nil_nil]
          | cons y r =>
              rw [compare_padded_nil_cons r (List.ne_of_not_mem_cons hr).symm,
                List.compare_nil_cons]
      | cons x l =>
          cases r with
          | nil =>
              rw [if_neg fun h ↦ absurd h.2.1 (Nat.not_lt_zero _), Std.OrientedOrd.eq_swap,
                compare_padded_nil_cons l (List.ne_of_not_mem_cons hl).symm, List.compare_cons_nil]
              rfl
          | cons y r =>
              have hnext := ih (List.not_mem_of_not_mem_cons hl) (List.not_mem_of_not_mem_cons hr)
              rw [padded_cons, padded_cons, List.compare_cons_cons, List.compare_cons_cons, hnext]
              by_cases hxy : x = y
              · simp only [cutAlike_cons, hxy, true_and, Std.LawfulEqOrd.compare_eq_iff_eq.mpr,
                  Ordering.eq_then]
              · have hne : compare x y ≠ .eq := fun h ↦ hxy (Std.LawfulEqOrd.compare_eq_iff_eq.mp h)
                simp only [cutAlike_cons, hxy, false_and, if_false]
                cases hcompare : compare x y with
                | lt => rfl
                | eq => exact absurd hcompare hne
                | gt => rfl

/-! ## Columns -/

variable {V : Type} {compareUnstructured : V → V → Ordering}

/-- Whether the encoder keeps the order of the values of a type. -/
def Encodable : (dataType : KeyType) → dataType.Data V → Prop
  | .double, _ => False
  | .string, data => ∀ c ∈ (show List UInt8 from data), c ≠ 0
  | .interval, data => EntriesFit data
  | .unstructured, _ => False
  | _, _ => True

/-- Two long strings with the same twelve first characters. -/
def LongTie : (dataType : KeyType) → dataType.Data V → dataType.Data V → Prop
  | .string, l, r => CutAlike shortStrLength l r
  | _, _, _ => False

theorem length_encodeData (swapBytes : Bool) {dataType : KeyType} (data : dataType.Data V) :
    (encodeData swapBytes dataType data).length + 1 = dataType.getEncodingSize := by
  cases dataType with
  | bool => rfl
  | int64 => exact congrArg (· + 1) (length_encodeInt64 swapBytes data)
  | double =>
      have hlength : (encodeDouble swapBytes data).length = 8 := by
        simp only [encodeDouble]
        split_ifs <;> simp
      exact congrArg (· + 1) hlength
  | string => exact congrArg (· + 1) (length_padded shortStrLength data)
  | date => exact congrArg (· + 1) (length_encodeInt32 swapBytes data)
  | timestamp => exact congrArg (· + 1) (length_encodeInt64 swapBytes data)
  | interval =>
      have hlength : (encodeInterval swapBytes data).length = 16 := by simp [encodeInterval]
      exact congrArg (· + 1) hlength
  | unstructured => rfl

theorem compare_encodeData {dataType : KeyType} {l r : dataType.Data V}
    (hl : Encodable dataType l) (hr : Encodable dataType r) (hne : ¬ LongTie dataType l r) :
    compare (encodeData true dataType l) (encodeData true dataType r) =
      compareData compareUnstructured dataType l r := by
  cases dataType with
  | bool =>
      have hbool : ∀ l r : Bool, compare [bif l then (1 : UInt8) else 0] [bif r then 1 else 0] =
          compare l.toNat r.toNat := by decide
      exact hbool l r
  | int64 => exact compare_encodeInt64 l r
  | double => exact hl.elim
  | string =>
      have hcompare := compare_padded (n := shortStrLength) (l := l) (r := r)
        (fun h ↦ hl 0 h rfl) (fun h ↦ hr 0 h rfl)
      exact hcompare.trans (if_neg hne)
  | date => exact compare_encodeInt32 l r
  | timestamp => exact compare_encodeInt64 l r
  | interval => exact compare_encodeInterval hl hr
  | unstructured => exact hl.elim

theorem encodeData_eq_of_longTie {swapBytes : Bool} {dataType : KeyType} {l r : dataType.Data V}
    (h : LongTie dataType l r) :
    encodeData swapBytes dataType l = encodeData swapBytes dataType r := by
  cases dataType with
  | string =>
      obtain ⟨hl, hr, htake⟩ : CutAlike shortStrLength l r := h
      have hpadded : ∀ data : List UInt8, shortStrLength < data.length →
          encodeString data = data.take shortStrLength ++ [255] := by
        intro data hlong
        rw [encodeString, if_neg hlong.not_ge, Nat.min_eq_left hlong.le]
      exact (hpadded l hl).trans (htake ▸ (hpadded r hr).symm)
  | _ => exact h.elim

def encodeNullable (swapBytes : Bool) {dataType : KeyType} : Option (dataType.Data V) → List UInt8
  | none => encodeNull dataType
  | some value => encodeNonNull swapBytes dataType value

/-- What the encoder writes into a column of a tuple. -/
def encodeEntry (swapBytes : Bool) (column : KeyColumn) (value : Option (column.dataType.Data V)) :
    List UInt8 :=
  let bytes := encodeNullable swapBytes value
  if column.isAscOrder then bytes else bytes.map (~~~·)

/-- The key of a row. -/
def encodeRow (swapBytes : Bool) : (columns : List KeyColumn) → KeyRow V columns → List UInt8
  | [], _ => []
  | column :: columns, row =>
      encodeEntry swapBytes column row.1 ++ encodeRow swapBytes columns row.2

theorem length_encodeNull (dataType : KeyType) :
    (encodeNull dataType).length = dataType.getEncodingSize := List.length_replicate

theorem length_encodeNonNull (swapBytes : Bool) {dataType : KeyType} (value : dataType.Data V) :
    (encodeNonNull swapBytes dataType value).length = dataType.getEncodingSize :=
  length_encodeData swapBytes value

theorem length_encodeNullable (swapBytes : Bool) {dataType : KeyType}
    (value : Option (dataType.Data V)) :
    (encodeNullable swapBytes value).length = dataType.getEncodingSize := by
  cases value with
  | none => exact length_encodeNull dataType
  | some value => exact length_encodeNonNull swapBytes value

theorem length_encodeEntry (swapBytes : Bool) (column : KeyColumn)
    (value : Option (column.dataType.Data V)) :
    (encodeEntry swapBytes column value).length = column.dataType.getEncodingSize := by
  simp only [encodeEntry]
  split_ifs <;> simp only [List.length_map, length_encodeNullable]

theorem length_encodeRow (swapBytes : Bool) {columns : List KeyColumn} (row : KeyRow V columns) :
    (encodeRow swapBytes columns row).length = numBytesOfKeys columns := by
  induction columns with
  | nil => rfl
  | cons column columns ih =>
      rw [encodeRow, List.length_append, length_encodeEntry, ih]
      rfl

/-- The bytes of a null compare as a null does. -/
theorem compare_encodeNull_cons {dataType : KeyType} {bytes : List UInt8} :
    compare (encodeNull dataType) (0 :: bytes) = .gt := by
  cases dataType <;> rfl

section Direct

variable {column : KeyColumn} {l r : Option (column.dataType.Data V)}

/-- The two directions of a column: complementing all bytes turns their order around. -/
theorem compare_direct {a b : List UInt8} (hlength : a.length = b.length) :
    compare (if column.isAscOrder then a else a.map (~~~·))
      (if column.isAscOrder then b else b.map (~~~·)) = column.direct (compare a b) := by
  rw [KeyColumn.direct]
  split_ifs with hasc
  · rfl
  · exact compare_map_complement hlength

/-- Two entries of a column that are cut off alike. -/
def EntriesTie (column : KeyColumn) : (l r : Option (column.dataType.Data V)) → Prop
  | some l, some r => LongTie column.dataType l r
  | _, _ => False

theorem compare_encodeEntry (hl : ∀ value ∈ l, Encodable column.dataType value)
    (hr : ∀ value ∈ r, Encodable column.dataType value) (hne : ¬ EntriesTie column l r) :
    compare (encodeEntry true column l) (encodeEntry true column r) =
      compareColumn compareUnstructured column l r := by
  simp only [encodeEntry]
  rw [compare_direct (by rw [length_encodeNullable, length_encodeNullable]), compareColumn]
  congr 1
  cases l with
  | none =>
      cases r with
      | none => exact compare_self_list _
      | some r => exact compare_encodeNull_cons
  | some l =>
      cases r with
      | none =>
          rw [Std.OrientedOrd.eq_swap]
          exact congrArg Ordering.swap compare_encodeNull_cons
      | some r =>
          rw [encodeNullable, encodeNullable, encodeNonNull, encodeNonNull, List.compare_cons_cons,
            Std.LawfulEqOrd.compare_eq_iff_eq.mpr rfl, Ordering.eq_then,
            compare_encodeData (hl l rfl) (hr r rfl) hne]
          rfl

theorem encodeEntry_eq_of_entriesTie {swapBytes : Bool} (h : EntriesTie column l r) :
    encodeEntry swapBytes column l = encodeEntry swapBytes column r := by
  cases l with
  | none => exact h.elim
  | some l =>
      cases r with
      | none => exact h.elim
      | some r =>
          have hdata : encodeData swapBytes column.dataType l =
            encodeData swapBytes column.dataType r := encodeData_eq_of_longTie h
          simp only [encodeEntry, encodeNullable, encodeNonNull, hdata]

/-- The encodings of a column are equal when the values are, or are long strings cut off alike. -/
theorem encodeEntry_eq_iff (hl : ∀ value ∈ l, Encodable column.dataType value)
    (hr : ∀ value ∈ r, Encodable column.dataType value) :
    encodeEntry true column l = encodeEntry true column r ↔
      compareColumn compareUnstructured column l r = .eq ∨ EntriesTie column l r := by
  by_cases htie : EntriesTie column l r
  · exact iff_of_true (encodeEntry_eq_of_entriesTie htie) (Or.inr htie)
  · rw [or_iff_left htie, ← compare_encodeEntry hl hr htie, Std.LawfulEqOrd.compare_eq_iff_eq]

end Direct

/-! ## Rows -/

variable {columns : List KeyColumn}

/-- Every value of the row has an encoding that keeps its order. -/
def RowEncodable : (columns : List KeyColumn) → KeyRow V columns → Prop
  | [], _ => True
  | column :: columns, row =>
      (∀ value ∈ row.1, Encodable column.dataType value) ∧ RowEncodable columns row.2

/-- The rows differ on some column, and no two long strings are cut off alike in it or before. -/
def DifferBeforeTie (compareUnstructured : V → V → Ordering) :
    (columns : List KeyColumn) → KeyRow V columns → KeyRow V columns → Prop
  | [], _, _ => False
  | column :: columns, l, r => ¬ EntriesTie column l.1 r.1 ∧
      (compareColumn compareUnstructured column l.1 r.1 ≠ .eq ∨
        DifferBeforeTie compareUnstructured columns l.2 r.2)

theorem compare_encodeRow {l r : KeyRow V columns} (hl : RowEncodable columns l)
    (hr : RowEncodable columns r) (hdiffer : DifferBeforeTie compareUnstructured columns l r) :
    compare (encodeRow true columns l) (encodeRow true columns r) =
      compareRows compareUnstructured columns l r := by
  induction columns with
  | nil => exact hdiffer.elim
  | cons column columns ih =>
      rw [encodeRow, encodeRow, compare_append (by rw [length_encodeEntry, length_encodeEntry]),
        compare_encodeEntry hl.1 hr.1 hdiffer.1, compareRows, compareColumns, lexicographic_cons]
      rcases hdiffer.2 with hne | hrest
      · cases hcompare : compareColumn compareUnstructured column l.1 r.1 with
        | lt => rfl
        | eq => exact absurd hcompare hne
        | gt => rfl
      · rw [ih hl.2 hr.2 hrest]
        rfl

end Graphflow.OrderBy
