import Graphflow.Aggregate.Batch
import Graphflow.Common.GfString
import Graphflow.Common.Interval
import Graphflow.Common.Timestamp
import Graphflow.Index.Key

/-!
# Comparing and hashing values

A `Value` brings its own data type.  `CompareValues` looks at the types of both operands, `Hash` at
the type of its one operand; a key of type UNSTRUCTURED is looked for by its hash and then compared.
-/

namespace Graphflow

open Lib

/-! ## Dates and timestamps -/

namespace Date

def eqTimestamp (lhs : Date) (rhs : Timestamp) : Except DateError Bool := do
  let midnight ← Timestamp.fromDatetime lhs ⟨0⟩
  return midnight.value == rhs.value

def ltTimestamp (lhs : Date) (rhs : Timestamp) : Except DateError Bool := do
  let midnight ← Timestamp.fromDatetime lhs ⟨0⟩
  return midnight.value < rhs.value

/-- The second operand of `||` is not evaluated if the first one holds. -/
def leTimestamp (lhs : Date) (rhs : Timestamp) : Except DateError Bool := do
  if ← lhs.ltTimestamp rhs then return true
  lhs.eqTimestamp rhs

def gtTimestamp (lhs : Date) (rhs : Timestamp) : Except DateError Bool := do
  return !(← lhs.leTimestamp rhs)

end Date

namespace Timestamp

def eqDate (lhs : Timestamp) (rhs : Date) : Except DateError Bool := rhs.eqTimestamp lhs

def ltDate (lhs : Timestamp) (rhs : Date) : Except DateError Bool := rhs.gtTimestamp lhs

def gtDate (lhs : Timestamp) (rhs : Date) : Except DateError Bool := rhs.ltTimestamp lhs

end Timestamp

/-! ## Values -/

/-- The values that `Hash` and the comparisons accept, apart from those of type DOUBLE. -/
inductive Value
  | nodeID (offset tableID : UInt64)
  | bool (booleanVal : Bool)
  | int64 (int64Val : Int64)
  | string (strVal : List UInt8)
  | date (dateVal : Date)
  | timestamp (timestampVal : Timestamp)
  | interval (intervalVal : Interval)
  deriving DecidableEq, Repr

inductive ComparisonFault
  | date (error : DateError)
  | runtimeException (message : String)
  | assertion
  deriving DecidableEq, Repr

namespace Value

/-- `Types::dataTypeToString` of the type of a value. -/
def dataTypeToString : Value → String
  | nodeID .. => "NODE_ID"
  | bool _ => "BOOL"
  | int64 _ => "INT64"
  | string _ => "STRING"
  | date _ => "DATE"
  | timestamp _ => "TIMESTAMP"
  | interval _ => "INTERVAL"

end Value

/-- The overloads of one comparison, with the name that stands in its exception. -/
structure Comparison where
  comparisonOpStr : String
  bool : Bool → Bool → Bool
  int64 : Int64 → Int64 → Bool
  string : List UInt8 → List UInt8 → Bool
  date : Date → Date → Bool
  timestamp : Timestamp → Timestamp → Bool
  interval : Interval → Interval → Bool
  dateTimestamp : Date → Timestamp → Except DateError Bool
  timestampDate : Timestamp → Date → Except DateError Bool

/-- Two node IDs reach the assertion of the `default` branch. -/
def CompareValues.operation (func : Comparison) (left right : Value) :
    Except ComparisonFault Bool :=
  match left, right with
  | .bool l, .bool r => .ok (func.bool l r)
  | .int64 l, .int64 r => .ok (func.int64 l r)
  | .string l, .string r => .ok (func.string l r)
  | .date l, .date r => .ok (func.date l r)
  | .timestamp l, .timestamp r => .ok (func.timestamp l r)
  | .interval l, .interval r => .ok (func.interval l r)
  | .nodeID .., .nodeID .. => .error .assertion
  | .date l, .timestamp r => (func.dateTimestamp l r).mapError .date
  | .timestamp l, .date r => (func.timestampDate l r).mapError .date
  | left, right => .error (.runtimeException ("Cannot " ++ func.comparisonOpStr ++ " `" ++
      left.dataTypeToString ++ "` and `" ++ right.dataTypeToString ++ "`"))

def Comparison.equals : Comparison where
  comparisonOpStr := "equals"
  bool l r := l == r
  int64 l r := l == r
  string := GfString.eq
  date l r := l.days == r.days
  timestamp l r := l.value == r.value
  interval := Interval.eq
  dateTimestamp := Date.eqTimestamp
  timestampDate := Timestamp.eqDate

def Comparison.greaterThan : Comparison where
  comparisonOpStr := "greater_than"
  bool l r := l && !r
  int64 l r := l > r
  string := GfString.gt
  date l r := l.days > r.days
  timestamp l r := l.value > r.value
  interval := Interval.gt
  dateTimestamp := Date.gtTimestamp
  timestampDate := Timestamp.gtDate

def Comparison.lessThan : Comparison where
  comparisonOpStr := "less_than"
  bool l r := !l && r
  int64 l r := l < r
  string := GfString.lt
  date l r := l.days < r.days
  timestamp l r := l.value < r.value
  interval := Interval.lt
  dateTimestamp := Date.ltTimestamp
  timestampDate := Timestamp.ltDate

namespace Value

def equals : Value → Value → Except ComparisonFault Bool := CompareValues.operation .equals

def greaterThan : Value → Value → Except ComparisonFault Bool :=
  CompareValues.operation .greaterThan

def lessThan : Value → Value → Except ComparisonFault Bool := CompareValues.operation .lessThan

/-- Numbers are extended to 64 bits with their signs.  `stdHash` is the hash of the standard
library. -/
def hash (stdHash : List UInt8 → UInt64) : Value → UInt64
  | nodeID offset tableID => murmurhash64 offset ^^^ murmurhash64 tableID
  | bool booleanVal => murmurhash64 booleanVal.toUInt64
  | int64 int64Val => murmurhash64 int64Val.toUInt64
  | string strVal => stdHash strVal
  | date dateVal => murmurhash64 dateVal.days.toInt64.toUInt64
  | timestamp timestampVal => murmurhash64 timestampVal.value.toUInt64
  | interval { months, days, micros } =>
      Aggregate.combineHashScalar (murmurhash64 months.toInt64.toUInt64)
        (Aggregate.combineHashScalar (murmurhash64 days.toInt64.toUInt64)
          (murmurhash64 micros.toUInt64))

/-- An entry of a hash table is compared with a key only if it has the hash of the key. -/
def matchesEntry (stdHash : List UInt8 → UInt64) (key entry : Value) :
    Except ComparisonFault Bool :=
  if key.hash stdHash = entry.hash stdHash then key.equals entry else .ok false

end Value

/-! ## What grouping needs -/

/-- The value of the first moment of a date; it wraps around. -/
def Date.midnight (d : Date) : Int64 := d.days.toInt64 * 86400000000

namespace Value

/-- Values of one type, and dates with timestamps. -/
inductive Comparable : Value → Value → Prop
  | nodeID (offset tableID offset' tableID' : UInt64) :
      Comparable (.nodeID offset tableID) (.nodeID offset' tableID')
  | bool (l r : Bool) : Comparable (.bool l) (.bool r)
  | int64 (l r : Int64) : Comparable (.int64 l) (.int64 r)
  | string (l r : List UInt8) : Comparable (.string l) (.string r)
  | date (l r : Date) : Comparable (.date l) (.date r)
  | timestamp (l r : Timestamp) : Comparable (.timestamp l) (.timestamp r)
  | interval (l r : Interval) : Comparable (.interval l) (.interval r)
  | dateTimestamp (l : Date) (r : Timestamp) : Comparable (.date l) (.timestamp r)
  | timestampDate (l : Timestamp) (r : Date) : Comparable (.timestamp l) (.date r)

/-- Two values: equality is reflexive and symmetric, exactly one of the three comparisons holds, and
the values are put into one group if they are equal and not otherwise. -/
structure GroupsByEquality (stdHash : List UInt8 → UInt64) (a b : Value) : Prop where
  refl_left : a.equals a = .ok true
  refl_right : b.equals b = .ok true
  trichotomy : ∃ lt eq gt, a.lessThan b = .ok lt ∧ a.equals b = .ok eq ∧ a.greaterThan b = .ok gt ∧
    [lt, eq, gt].count true = 1
  symm : a.equals b = b.equals a
  hash_eq : a.equals b = .ok true → a.hash stdHash = b.hash stdHash
  matches_eq : a.matchesEntry stdHash b = a.equals b

/-- Three values. -/
structure IsGroupingEquality (stdHash : List UInt8 → UInt64) (a b c : Value) : Prop where
  left : GroupsByEquality stdHash a b
  right : GroupsByEquality stdHash b c
  outer : GroupsByEquality stdHash a c
  trans : a.equals b = .ok true → b.equals c = .ok true → a.equals c = .ok true

/-- The date is one that `fromDatetime` accepts, and the timestamp is not its midnight, except on
the first day. -/
def ApartFromMidnight (d : Date) (ts : Timestamp) : Prop :=
  Timestamp.ValidDate d ∧ (d.days = 0 ∨ d.midnight ≠ ts.value)

/-- There are no node IDs, and no timestamp is the midnight of a date. -/
def Groupable : Value → Value → Prop
  | .nodeID .., _ | _, .nodeID .. => False
  | .date d, .timestamp ts | .timestamp ts, .date d => ApartFromMidnight d ts
  | _, _ => True

end Value

/-! ## Dates with timestamps -/

namespace Date

variable {d e : Date} {ts : Timestamp}

/-- What is a multiple of a power of two stays one without an odd factor, and it is zero if it is
small. -/
theorem eq_zero_of_mul_eq {n k c : ℤ} (hodd : Int.gcd (2 ^ 51) c = 1) (h : n * c = 2 ^ 51 * k)
    (hle : -2 ^ 51 < n) (hlt : n < 2 ^ 51) : n = 0 := by
  obtain ⟨m, rfl⟩ := Int.dvd_of_dvd_mul_left_of_gcd_one (Dvd.intro k h.symm) hodd
  omega

theorem eq_of_bmod_eq {m n : ℤ} (hm : -2 ^ 31 ≤ m) (hm' : m < 2 ^ 31) (hn : -2 ^ 31 ≤ n)
    (hn' : n < 2 ^ 31) :
    (m * 86400000000).bmod (2 ^ 64) = (n * 86400000000).bmod (2 ^ 64) → m = n := by
  have hle : -2 ^ 51 < m - n := by omega
  have hlt : m - n < 2 ^ 51 := by omega
  intro h
  rw [Int.bmod_eq_bmod_iff_bmod_sub_eq_zero, ← Int.sub_mul] at h
  obtain ⟨k, hk⟩ := Int.dvd_of_bmod_eq_zero h
  have hodd : (m - n) * 10546875 = 2 ^ 51 * k := by
    apply Int.eq_of_mul_eq_mul_left (a := 2 ^ 13) (by decide)
    exact (Int.mul_left_comm _ _ _).trans (hk.trans (Int.mul_assoc (2 ^ 13) (2 ^ 51) k))
  exact Int.sub_eq_zero.mp (eq_zero_of_mul_eq rfl hodd hle hlt)

theorem eq_zero_of_eq_bmod {n : ℤ} (hle : -2 ^ 31 ≤ n) (hlt : n < 2 ^ 31)
    (h : n = (n * 86400000000).bmod (2 ^ 64)) : n = 0 := by
  obtain ⟨k, hk⟩ := Int.dvd_self_sub_of_bmod_eq h.symm
  have hodd : n * 86399999999 = 2 ^ 51 * (2 ^ 13 * k) := by
    rw [← Int.mul_assoc]
    exact (Int.mul_sub n 86400000000 1).trans (by rwa [Int.mul_one])
  exact eq_zero_of_mul_eq rfl hodd (Int.lt_of_lt_of_le (by decide) hle) (hlt.trans (by decide))

theorem toInt_midnight (d : Date) :
    d.midnight.toInt = (d.days.toInt * 86400000000).bmod (2 ^ 64) := by
  rw [midnight, Int64.toInt_mul, Int32.toInt_toInt64]
  rfl

theorem midnight_injective (h : d.midnight = e.midnight) : d = e := by
  have hvalues := congrArg Int64.toInt h
  rw [toInt_midnight, toInt_midnight] at hvalues
  apply Date.ext
  apply Int32.toInt_inj.mp
  exact eq_of_bmod_eq d.days.le_toInt d.days.toInt_lt e.days.le_toInt e.days.toInt_lt hvalues

/-- The hash of a date is that of its number of days. -/
theorem days_eq_zero (h : d.days.toInt64 = d.midnight) : d.days = 0 := by
  have hvalues := congrArg Int64.toInt h
  rw [toInt_midnight, Int32.toInt_toInt64] at hvalues
  apply Int32.toInt_inj.mp
  exact eq_zero_of_eq_bmod d.days.le_toInt d.days.toInt_lt hvalues

theorem fromDatetime_midnight (h : Timestamp.ValidDate d) :
    Timestamp.fromDatetime d ⟨0⟩ = .ok ⟨d.midnight⟩ := by
  rw [Timestamp.fromDatetime_of_valid h (by decide), Int64.add_zero]
  rfl

theorem validDate_of_fromDatetime {t : Time} (h : Timestamp.fromDatetime d t = .ok ts) :
    Timestamp.ValidDate d := by
  obtain ⟨c, hconvert, hrest⟩ := bind_eq_ok_iff.mp h
  obtain ⟨isValid, hvalid, hrest⟩ := bind_eq_ok_iff.mp hrest
  refine ⟨c, hconvert, ?_⟩
  cases isValid with
  | true => exact hvalid
  | false => cases hrest

theorem eqTimestamp_of_valid (h : Timestamp.ValidDate d) :
    d.eqTimestamp ts = .ok (d.midnight == ts.value) := by
  rw [eqTimestamp, fromDatetime_midnight h]
  rfl

theorem ltTimestamp_of_valid (h : Timestamp.ValidDate d) :
    d.ltTimestamp ts = .ok (d.midnight < ts.value) := by
  rw [ltTimestamp, fromDatetime_midnight h]
  rfl

theorem gtTimestamp_of_valid (h : Timestamp.ValidDate d) :
    d.gtTimestamp ts = .ok !(d.midnight < ts.value || d.midnight == ts.value) := by
  rw [gtTimestamp, leTimestamp, ltTimestamp_of_valid h, eqTimestamp_of_valid h, ok_bind]
  generalize d.midnight = midnight
  by_cases hlt : midnight < ts.value
  · simp only [hlt, decide_true, if_true, ok_bind, pure_eq_ok, Bool.true_or, Bool.not_true]
  · simp only [hlt, decide_false, Bool.false_eq_true, if_false, ok_bind, pure_eq_ok, Bool.false_or]

end Date

/-- The factor is odd. -/
theorem murmurhash64_injective {x y : UInt64} (h : murmurhash64 x = murmurhash64 y) : x = y := by
  have hinverse : ∀ z : UInt64, murmurhash64 z * 0x96de1b173f119089 = z := by
    intro z
    rw [murmurhash64, UInt64.mul_assoc]
    exact UInt64.mul_one z
  rw [← hinverse x, h, hinverse]

/-! ## Comparable values -/

namespace Value

variable {stdHash : List UInt8 → UInt64} {a b c : Value}

/-- What equality sees: a date is its midnight. -/
def canon : Value → Value
  | date d => timestamp ⟨d.midnight⟩
  | v => v

theorem Comparable.symm (h : Comparable a b) : Comparable b a := by
  cases h <;> constructor

theorem Comparable.trans (h : Comparable a b) (h' : Comparable b c) : Comparable a c := by
  cases h <;> cases h' <;> constructor

theorem Groupable.symm (h : Groupable a b) : Groupable b a := by
  cases a <;> cases b <;> exact h

theorem equals_date_timestamp {d : Date} {ts : Timestamp} (h : Timestamp.ValidDate d) :
    (date d).equals (timestamp ts) = .ok (d.midnight == ts.value) ∧
      (timestamp ts).equals (date d) = .ok (d.midnight == ts.value) := by
  have heq := @Date.eqTimestamp_of_valid d ts h
  constructor
  · exact congrArg (Except.mapError ComparisonFault.date) heq
  · exact congrArg (Except.mapError ComparisonFault.date) heq

theorem ok_eq_ok_decide {ε : Type} {r : Bool} {P : Prop} [Decidable P] (h : r = true ↔ P) :
    (Except.ok r : Except ε Bool) = .ok (decide P) := by
  rw [Bool.eq_iff_iff.mpr (h.trans decide_eq_true_iff.symm)]

theorem Groupable.equals_eq (hcomparable : Comparable a b) (h : Groupable a b) :
    a.equals b = .ok (decide (a.canon = b.canon)) := by
  cases hcomparable with
  | nodeID => cases h
  | bool l r => exact ok_eq_ok_decide (beq_iff_eq.trans ⟨congrArg _, Value.bool.inj⟩)
  | int64 l r => exact ok_eq_ok_decide (beq_iff_eq.trans ⟨congrArg _, Value.int64.inj⟩)
  | string l r => exact ok_eq_ok_decide (GfString.eq_iff.trans ⟨congrArg _, Value.string.inj⟩)
  | date l r =>
      apply ok_eq_ok_decide
      constructor
      · intro heq
        rw [Date.ext (beq_iff_eq.mp heq)]
      · intro hcanon
        have hmidnight := Timestamp.mk.inj (Value.timestamp.inj hcanon)
        exact beq_iff_eq.mpr (congrArg Date.days (Date.midnight_injective hmidnight))
  | timestamp l r =>
      apply ok_eq_ok_decide
      apply beq_iff_eq.trans
      exact ⟨fun heq ↦ congrArg Value.timestamp (Timestamp.ext heq),
        fun heq ↦ congrArg Timestamp.value (Value.timestamp.inj heq)⟩
  | interval l r => exact ok_eq_ok_decide (Interval.eq_iff.trans ⟨congrArg _, Value.interval.inj⟩)
  | dateTimestamp l r =>
      apply (equals_date_timestamp h.1).1.trans
      apply ok_eq_ok_decide
      apply beq_iff_eq.trans
      exact ⟨fun heq ↦ congrArg Value.timestamp (Timestamp.ext heq),
        fun heq ↦ congrArg Timestamp.value (Value.timestamp.inj heq)⟩
  | timestampDate l r =>
      apply (equals_date_timestamp h.1).2.trans
      apply ok_eq_ok_decide
      apply beq_iff_eq.trans
      exact ⟨fun heq ↦ congrArg Value.timestamp (Timestamp.ext heq.symm),
        fun heq ↦ congrArg Timestamp.value (Value.timestamp.inj heq).symm⟩

theorem count_of_linear {α : Type*} [LinearOrder α] {x y : α} {lt eq gt : Bool}
    (hlt : lt = true ↔ x < y) (heq : eq = true ↔ x = y) (hgt : gt = true ↔ y < x) :
    [lt, eq, gt].count true = 1 := by
  rcases lt_trichotomy x y with h | h | h
  · rw [hlt.mpr h, Bool.eq_false_iff.mpr (mt heq.mp h.ne),
      Bool.eq_false_iff.mpr (mt hgt.mp h.not_gt)]
    rfl
  · rw [heq.mpr h, Bool.eq_false_iff.mpr (mt hlt.mp h.not_lt),
      Bool.eq_false_iff.mpr (mt hgt.mp h.not_gt)]
    rfl
  · rw [hgt.mpr h, Bool.eq_false_iff.mpr (mt heq.mp h.ne'),
      Bool.eq_false_iff.mpr (mt hlt.mp h.not_gt)]
    rfl

/-- Exactly one of the three comparisons holds.  Of strings and intervals `<` is what the other two
leave, of a date with a timestamp `>` is. -/
theorem Groupable.exists_trichotomy (hcomparable : Comparable a b) (h : Groupable a b) :
    ∃ lt eq gt, a.lessThan b = .ok lt ∧ a.equals b = .ok eq ∧ a.greaterThan b = .ok gt ∧
      [lt, eq, gt].count true = 1 := by
  have hleft : ∀ x y : Bool, ¬(x = true ∧ y = true) → [!(x || y), y, x].count true = 1 := by decide
  have hright : ∀ x y : Bool, ¬(x = true ∧ y = true) → [x, y, !(x || y)].count true = 1 := by decide
  have hapart : ∀ {d : Date} {ts : Timestamp},
      ¬((decide (d.midnight < ts.value)) = true ∧ (d.midnight == ts.value) = true) := by
    rintro d ts ⟨hlt, heq⟩
    rw [decide_eq_true_iff, beq_iff_eq.mp heq] at hlt
    exact Int64.lt_irrefl hlt
  cases hcomparable with
  | nodeID => cases h
  | bool l r =>
      refine ⟨_, _, _, rfl, rfl, rfl, ?_⟩
      cases l <;> cases r <;> rfl
  | int64 l r =>
      refine ⟨_, _, _, rfl, rfl, rfl, ?_⟩
      exact count_of_linear (decide_eq_true_iff.trans Int64.lt_iff_toInt_lt)
        (beq_iff_eq.trans Int64.toInt_inj.symm) (decide_eq_true_iff.trans Int64.lt_iff_toInt_lt)
  | string l r =>
      refine ⟨_, _, _, rfl, rfl, rfl, hleft _ _ ?_⟩
      rintro ⟨hgt, heq⟩
      rw [GfString.gt_iff, GfString.eq_iff.mp heq] at hgt
      simp at hgt
  | date l r =>
      refine ⟨_, _, _, rfl, rfl, rfl, ?_⟩
      exact count_of_linear (decide_eq_true_iff.trans Int32.lt_iff_toInt_lt)
        (beq_iff_eq.trans Int32.toInt_inj.symm) (decide_eq_true_iff.trans Int32.lt_iff_toInt_lt)
  | timestamp l r =>
      refine ⟨_, _, _, rfl, rfl, rfl, ?_⟩
      exact count_of_linear (decide_eq_true_iff.trans Int64.lt_iff_toInt_lt)
        (beq_iff_eq.trans Int64.toInt_inj.symm) (decide_eq_true_iff.trans Int64.lt_iff_toInt_lt)
  | interval l r =>
      refine ⟨_, _, _, rfl, rfl, rfl, hleft _ _ ?_⟩
      rintro ⟨hgt, heq⟩
      rw [Interval.gt_iff, Interval.eq_iff.mp heq] at hgt
      exact lt_irrefl _ hgt
  | dateTimestamp l r =>
      refine ⟨_, _, _, ?_, (equals_date_timestamp h.1).1, ?_, hright _ _ hapart⟩
      · exact congrArg (Except.mapError ComparisonFault.date) (Date.ltTimestamp_of_valid h.1)
      · exact congrArg (Except.mapError ComparisonFault.date) (Date.gtTimestamp_of_valid h.1)
  | timestampDate l r =>
      refine ⟨_, _, _, ?_, (equals_date_timestamp h.1).2, ?_, hleft _ _ hapart⟩
      · exact congrArg (Except.mapError ComparisonFault.date) (Date.gtTimestamp_of_valid h.1)
      · exact congrArg (Except.mapError ComparisonFault.date) (Date.ltTimestamp_of_valid h.1)

/-- A timestamp that is the midnight of a date has the hash of the date on the first day only. -/
theorem hash_midnight_iff {d : Date} : (date d).hash stdHash =
    (timestamp ⟨d.midnight⟩).hash stdHash ↔ d.days = 0 := by
  constructor
  · intro h
    exact Date.days_eq_zero (congrArg UInt64.toInt64 (murmurhash64_injective h))
  · intro hzero
    rw [hash, hash, Date.midnight, hzero]
    rfl

/-- Equal values have one hash. -/
theorem Groupable.hash_eq (hcomparable : Comparable a b) (h : Groupable a b)
    (hcanon : a.canon = b.canon) : a.hash stdHash = b.hash stdHash := by
  cases hcomparable with
  | nodeID => cases h
  | bool l r => exact congrArg (hash stdHash) hcanon
  | int64 l r => exact congrArg (hash stdHash) hcanon
  | string l r => exact congrArg (hash stdHash) hcanon
  | timestamp l r => exact congrArg (hash stdHash) hcanon
  | interval l r => exact congrArg (hash stdHash) hcanon
  | date l r =>
      have hmidnight := Timestamp.mk.inj (Value.timestamp.inj hcanon)
      rw [Date.midnight_injective hmidnight]
  | dateTimestamp l r =>
      have hmidnight := Value.timestamp.inj hcanon
      rw [← hmidnight]
      apply hash_midnight_iff.mpr
      exact h.2.resolve_right (not_not_intro (congrArg Timestamp.value hmidnight))
  | timestampDate l r =>
      have hmidnight := Value.timestamp.inj hcanon
      rw [hmidnight]
      apply Eq.symm
      apply hash_midnight_iff.mpr
      exact h.2.resolve_right (not_not_intro (congrArg Timestamp.value hmidnight.symm))

/-! ## Grouping -/

theorem Groupable.self (hcomparable : Comparable a b) (h : Groupable a b) : Groupable a a := by
  cases hcomparable <;> first | exact trivial | exact h

theorem Groupable.groupsByEquality (hcomparable : Comparable a b) (h : Groupable a b) :
    GroupsByEquality stdHash a b := by
  have hsymm := hcomparable.symm
  have heq := h.equals_eq hcomparable
  have hhash : a.equals b = .ok true → a.hash stdHash = b.hash stdHash := by
    intro htrue
    rw [heq] at htrue
    exact h.hash_eq hcomparable (of_decide_eq_true (Except.ok.inj htrue))
  refine ⟨?_, ?_, h.exists_trichotomy hcomparable, ?_, hhash, ?_⟩
  · apply ((h.self hcomparable).equals_eq (hcomparable.trans hsymm)).trans
    rw [decide_eq_true rfl]
  · apply ((h.symm.self hsymm).equals_eq (hsymm.trans hcomparable)).trans
    rw [decide_eq_true rfl]
  · rw [heq, h.symm.equals_eq hsymm]
    simp only [eq_comm]
  · rw [matchesEntry]
    by_cases hcanon : a.canon = b.canon
    · rw [if_pos (h.hash_eq hcomparable hcanon)]
    · rw [heq, decide_eq_false hcanon, ite_self]

theorem apartFromMidnight_of {d : Date} {ts : Timestamp}
    (hequals : ∃ r, (date d).equals (timestamp ts) = .ok r)
    (hhash : (date d).equals (timestamp ts) = .ok true →
      (date d).hash stdHash = (timestamp ts).hash stdHash) : ApartFromMidnight d ts := by
  obtain ⟨r, hequals⟩ := hequals
  have hvalid : Timestamp.ValidDate d := by
    cases hmidnight : Timestamp.fromDatetime d ⟨0⟩ with
    | ok ts => exact Date.validDate_of_fromDatetime hmidnight
    | error e =>
        have hfails : (date d).equals (timestamp ts) = .error (.date e) := by
          change (Date.eqTimestamp d ts).mapError ComparisonFault.date = _
          rw [Date.eqTimestamp, hmidnight]
          rfl
        cases hfails.symm.trans hequals
  refine ⟨hvalid, or_iff_not_imp_right.mpr fun hmidnight ↦ ?_⟩
  rw [not_not] at hmidnight
  obtain rfl : ts = ⟨d.midnight⟩ := Timestamp.ext hmidnight.symm
  apply hash_midnight_iff.mp
  apply hhash
  rw [(equals_date_timestamp hvalid).1, beq_self_eq_true]

theorem groupsByEquality_iff (hcomparable : Comparable a b) :
    GroupsByEquality stdHash a b ↔ Groupable a b := by
  refine ⟨fun h ↦ ?_, Groupable.groupsByEquality hcomparable⟩
  obtain ⟨-, eq, -, -, hequals, -⟩ := h.trichotomy
  cases hcomparable with
  | nodeID => cases hequals
  | dateTimestamp d ts => exact apartFromMidnight_of ⟨eq, hequals⟩ h.hash_eq
  | timestampDate ts d =>
      refine @apartFromMidnight_of stdHash _ _ ⟨eq, h.symm.symm.trans hequals⟩ fun htrue ↦ ?_
      exact (h.hash_eq (h.symm.trans htrue)).symm
  | bool | int64 | string | date | timestamp | interval => trivial

/-- Comparing and hashing agree on three values unless there are node IDs, which cannot be compared,
or a date and its midnight, which are equal but have different hashes. -/
theorem isGroupingEquality_iff (stdHash : List UInt8 → UInt64) (a b c : Value)
    (hab : Comparable a b) (hbc : Comparable b c) :
    IsGroupingEquality stdHash a b c ↔ Groupable a b ∧ Groupable b c ∧ Groupable a c := by
  constructor
  · intro h
    refine ⟨(groupsByEquality_iff hab).mp h.left, (groupsByEquality_iff hbc).mp h.right, ?_⟩
    exact (groupsByEquality_iff (hab.trans hbc)).mp h.outer
  · rintro ⟨hleft, hright, houter⟩
    refine ⟨hleft.groupsByEquality hab, hright.groupsByEquality hbc,
      houter.groupsByEquality (hab.trans hbc), fun hequals hequals' ↦ ?_⟩
    rw [hleft.equals_eq hab] at hequals
    rw [hright.equals_eq hbc] at hequals'
    rw [houter.equals_eq (hab.trans hbc)]
    have hcanon := of_decide_eq_true (Except.ok.inj hequals)
    have hcanon' := of_decide_eq_true (Except.ok.inj hequals')
    rw [decide_eq_true (hcanon.trans hcanon')]

theorem isGroupingEquality_firstDays : Comparable (date ⟨0⟩) (timestamp ⟨0⟩) ∧
    Comparable (timestamp ⟨0⟩) (date ⟨1⟩) ∧
      IsGroupingEquality (fun _ ↦ 0) (date ⟨0⟩) (timestamp ⟨0⟩) (date ⟨1⟩) := by
  have hfirst : Timestamp.ValidDate ⟨0⟩ := ⟨⟨1970, 1, 1⟩, by decide +kernel, by decide +kernel⟩
  have hsecond : Timestamp.ValidDate ⟨1⟩ := ⟨⟨1970, 1, 2⟩, by decide +kernel, by decide +kernel⟩
  refine ⟨.dateTimestamp .., .timestampDate .., ?_⟩
  apply (isGroupingEquality_iff _ _ _ _ (.dateTimestamp ..) (.timestampDate ..)).mpr
  exact ⟨⟨hfirst, .inl rfl⟩, ⟨hsecond, .inr (by decide)⟩, trivial⟩

/-- The second day and its midnight. -/
theorem not_isGroupingEquality_secondDay : ¬∀ (stdHash : List UInt8 → UInt64) (a b c : Value),
    Comparable a b → Comparable b c → IsGroupingEquality stdHash a b c := by
  intro h
  have hpair := (h (fun _ ↦ 0) (date ⟨1⟩) (timestamp ⟨86400000000⟩) (date ⟨1⟩) (.dateTimestamp ..)
    (.timestampDate ..)).left
  have hhash := hpair.hash_eq (by decide +kernel)
  revert hhash
  decide +kernel

end Value

end Graphflow
