import Graphflow.Common.Interval
import Graphflow.Lib.UnsignedDivision

/-!
# Division

`Divide` and `Modulo` of two integers, and of an interval by an integer.  The interval operator
takes its divisor without a sign: each of the three dividends is converted to `uint64_t` before it
is divided, and what comes out is cut to the field.
-/

namespace Graphflow

open Lib

/-- A division that has no result stops the program; none of the operators raises an exception. -/
inductive ArithmeticFault
  | trap
  | runtimeException
  deriving DecidableEq

/-- `INT64_MIN / -1` does not fit. -/
def divisionTraps (left right : Int64) : Bool :=
  right == 0 || left == Int64.minValue && right == -1

def Divide.operation (left right : Int64) : Except ArithmeticFault Int64 :=
  if divisionTraps left right then .error .trap else .ok (left / right)

def Modulo.operation (left right : Int64) : Except ArithmeticFault Int64 :=
  if divisionTraps left right then .error .trap else .ok (left % right)

namespace Interval

/-- `operator/`.  The sums have 64 bits and wrap around. -/
def dividedBy (i : Interval) (rhs : UInt64) : Except ArithmeticFault Interval :=
  if rhs = 0 then .error .trap
  else
    let monthsRemainder := Int32.ofInt (i.months.toInt64.toUInt64 % rhs).toNat
    let days := i.days.toInt64 + monthsRemainder.toInt64 * 30
    let daysRemainder := Int32.ofInt (days.toUInt64 % rhs).toNat
    let micros := i.micros + daysRemainder.toInt64 * 86400000000
    .ok { months := Int32.ofInt (i.months.toInt64.toUInt64 / rhs).toNat
          days := Int32.ofInt (days.toUInt64 / rhs).toNat
          micros := Int64.ofInt (micros.toUInt64 / rhs).toNat }

end Interval

/-- `Divide` of an interval converts its right operand. -/
def Divide.intervalOperation (left : Interval) (right : Int64) : Except ArithmeticFault Interval :=
  left.dividedBy right.toUInt64

/-! ## What the operators are to do -/

def Divide.IsExact (left right : Int64) : Prop :=
  match Divide.operation left right with
  | .ok result => result.toInt = left.toInt.tdiv right.toInt
  | .error fault => fault = .runtimeException

def Modulo.IsExact (left right : Int64) : Prop :=
  match Modulo.operation left right with
  | .ok result => result.toInt = left.toInt.tmod right.toInt
  | .error fault => fault = .runtimeException

namespace Interval

/-- The days to be divided, with what is left of the months. -/
def daysDividend (i : Interval) (d : ℤ) : ℤ :=
  i.days.toInt + i.months.toInt.tmod d * daysPerMonth

/-- The microseconds to be divided, with what is left of the days. -/
def microsDividend (i : Interval) (d : ℤ) : ℤ :=
  i.micros.toInt + (i.daysDividend d).tmod d * microsPerDay

/-- Each field is divided, rounding to zero, and the remainder is carried into the next one. -/
structure IsQuotient (i : Interval) (d : ℤ) (q : Interval) : Prop where
  months : q.months.toInt = i.months.toInt.tdiv d
  days : q.days.toInt = (i.daysDividend d).tdiv d
  micros : q.micros.toInt = (i.microsDividend d).tdiv d

def DividesExactly (i : Interval) (d : Int64) : Prop :=
  match Divide.intervalOperation i d with
  | .ok q => i.IsQuotient d.toInt q
  | .error fault => fault = .runtimeException

end Interval

/-! ## Integers -/

section Integers

variable {left right : Int64}

theorem divisionTraps_iff :
    divisionTraps left right = true ↔ right = 0 ∨ left = Int64.minValue ∧ right = -1 := by
  simp [divisionTraps]

theorem Divide.isExact_iff :
    Divide.IsExact left right ↔ right ≠ 0 ∧ ¬(left = Int64.minValue ∧ right = -1) := by
  rw [← not_or, ← divisionTraps_iff, Divide.IsExact, Divide.operation]
  by_cases htrap : divisionTraps left right = true
  · rw [if_pos htrap]
    exact iff_of_false (fun h ↦ by cases h) (not_not.mpr htrap)
  · rw [if_neg htrap]
    refine iff_of_true ?_ htrap
    by_cases hmin : left = Int64.minValue
    · apply Int64.toInt_div_of_ne_right
      exact fun hone ↦ htrap (divisionTraps_iff.mpr (.inr ⟨hmin, hone⟩))
    · exact Int64.toInt_div_of_ne_left _ _ hmin

theorem Modulo.isExact_iff :
    Modulo.IsExact left right ↔ right ≠ 0 ∧ ¬(left = Int64.minValue ∧ right = -1) := by
  rw [← not_or, ← divisionTraps_iff, Modulo.IsExact, Modulo.operation]
  by_cases htrap : divisionTraps left right = true
  · rw [if_pos htrap]
    exact iff_of_false (fun h ↦ by cases h) (not_not.mpr htrap)
  · rw [if_neg htrap]
    exact iff_of_true (Int64.toInt_mod ..) htrap

end Integers

/-! ## Intervals -/

namespace Interval

variable {i : Interval} {d : Int64} {x : ℤ}

theorem toNat_toUInt64 (a : Int64) : (a.toUInt64.toNat : ℤ) = a.toInt % 2 ^ 64 := by
  have hlt := a.toUInt64.toNat_lt
  have hint : a.toInt = (a.toUInt64.toNat : ℤ).bmod (2 ^ 64) := BitVec.toInt_eq_toNat_bmod _
  rw [hint, Int.bmod_def]
  push_cast
  split <;> omega

theorem toNat_div (a d : Int64) :
    ((a.toUInt64 / d.toUInt64).toNat : ℤ) = unsignedDiv a.toInt d.toInt := by
  rw [UInt64.toNat_div, unsignedDiv, ← toNat_toUInt64, ← toNat_toUInt64]
  rfl

theorem toNat_mod (a d : Int64) :
    ((a.toUInt64 % d.toUInt64).toNat : ℤ) = unsignedMod a.toInt d.toInt := by
  rw [UInt64.toNat_mod, unsignedMod, ← toNat_toUInt64, ← toNat_toUInt64]
  rfl

/-- The remainders that the operator carries. -/
def carriedMonths (i : Interval) (d : ℤ) : ℤ := (unsignedMod i.months.toInt d).bmod (2 ^ 32)

def carriedDays (i : Interval) (d : ℤ) : ℤ :=
  (unsignedMod (i.days.toInt + i.carriedMonths d * daysPerMonth) d).bmod (2 ^ 32)

theorem unsigned_add_mul (a b : Int64) (c k : ℤ) (hb : b.toInt = c) (hk : (Int64.ofInt k).toInt = k)
    (d : ℤ) : unsignedDiv (a + b * Int64.ofInt k).toInt d = unsignedDiv (a.toInt + c * k) d ∧
      unsignedMod (a + b * Int64.ofInt k).toInt d = unsignedMod (a.toInt + c * k) d := by
  apply unsignedDiv_congr
  rw [Int64.toInt_add, Int64.toInt_mul, hb, hk]
  have hinner : ((c * k).bmod (2 ^ 64)) % 2 ^ 64 = (c * k) % 2 ^ 64 := Int.bmod_emod
  have houter : ((a.toInt + (c * k).bmod (2 ^ 64)).bmod (2 ^ 64)) % 2 ^ 64 =
      (a.toInt + (c * k).bmod (2 ^ 64)) % 2 ^ 64 := Int.bmod_emod
  rw [houter, Int.add_emod, hinner, ← Int.add_emod]

/-- The fields of the result. -/
theorem exists_intervalOperation (i : Interval) (hd : d ≠ 0) :
    ∃ q, Divide.intervalOperation i d = .ok q ∧
      q.months.toInt = (unsignedDiv i.months.toInt d.toInt).bmod (2 ^ 32) ∧
      q.days.toInt = (unsignedDiv (i.days.toInt + i.carriedMonths d.toInt * daysPerMonth)
        d.toInt).bmod (2 ^ 32) ∧
      q.micros.toInt = (unsignedDiv (i.micros.toInt + i.carriedDays d.toInt * microsPerDay)
        d.toInt).bmod (2 ^ 64) := by
  have hrhs : ¬d.toUInt64 = 0 := by
    intro hzero
    have hcut := toNat_toUInt64 d
    rw [hzero] at hcut
    apply hd
    rw [← Int64.toInt_inj]
    have hmin := Int64.le_toInt d
    have hmax := Int64.toInt_lt d
    have hzero' : ((0 : UInt64).toNat : ℤ) = 0 := rfl
    have hzero'' : (0 : Int64).toInt = 0 := rfl
    omega
  have hmonths : (Int32.ofInt (i.months.toInt64.toUInt64 % d.toUInt64).toNat).toInt64.toInt =
      i.carriedMonths d.toInt := by
    rw [Int32.toInt_toInt64, Int32.toInt_ofInt, toNat_mod, Int32.toInt_toInt64, carriedMonths]
    rfl
  have hdays := unsigned_add_mul i.days.toInt64 _ _ 30 hmonths rfl d.toInt
  rw [Int32.toInt_toInt64] at hdays
  have hcarried : (Int32.ofInt ((i.days.toInt64 + (Int32.ofInt
      (i.months.toInt64.toUInt64 % d.toUInt64).toNat).toInt64 * Int64.ofInt 30).toUInt64 %
        d.toUInt64).toNat).toInt64.toInt = i.carriedDays d.toInt := by
    rw [Int32.toInt_toInt64, Int32.toInt_ofInt, toNat_mod, hdays.2, carriedDays]
    rfl
  have hmicros := unsigned_add_mul i.micros _ _ 86400000000 hcarried rfl d.toInt
  refine ⟨_, if_neg hrhs, ?_, ?_, ?_⟩
  · rw [Int32.toInt_ofInt, toNat_div, Int32.toInt_toInt64]
    rfl
  · rw [Int32.toInt_ofInt, toNat_div]
    exact congrArg (Int.bmod · _) hdays.1
  · rw [Int64.toInt_ofInt, toNat_div]
    exact congrArg (Int.bmod · _) hmicros.1

/-- The dividends for which the converted division is right. -/
def DividendsExact (i : Interval) (d : ℤ) : Prop :=
  ExactIn32 i.months.toInt d ∧ ExactIn32 (i.daysDividend d) d ∧ ExactIn64 (i.microsDividend d) d

instance (i : Interval) (d : ℤ) : Decidable (i.DividendsExact d) :=
  inferInstanceAs (Decidable (ExactIn32 i.months.toInt d ∧ ExactIn32 (i.daysDividend d) d ∧
    ExactIn64 (i.microsDividend d) d))

/-! ## Ranges -/

section Ranges

variable {n : ℤ}

theorem tdiv_bounds (hn : 0 < n) (hmin : -2 ^ 31 * n ≤ x) (hmax : x < 2 ^ 31 * n) :
    -2 ^ 31 ≤ x.tdiv n ∧ x.tdiv n < 2 ^ 31 := by
  by_cases hx : 0 ≤ x
  · rw [Int.tdiv_eq_ediv_of_nonneg hx]
    have hquot := Int.ediv_nonneg hx hn.le
    have hlt : x / n < 2 ^ 31 := Int.ediv_lt_of_lt_mul hn (by omega)
    omega
  · rw [(tdiv_of_neg_left (by omega)).1]
    have hquot := Int.ediv_nonneg (by omega : 0 ≤ -x) hn.le
    have hle : -x / n ≤ 2 ^ 31 := Int.ediv_le_of_le_mul hn (by omega)
    omega

/-- A remainder lies between zero and the dividend. -/
theorem tmod_cases (hn : n ≠ 0) : 0 ≤ x ∧ 0 ≤ x.tmod n ∧ x.tmod n ≤ x ∨
    x ≤ 0 ∧ x ≤ x.tmod n ∧ x.tmod n ≤ 0 := by
  have habs : (x.tmod n).natAbs ≤ x.natAbs := by
    rw [Int.natAbs_tmod]
    exact Nat.mod_le ..
  by_cases hx : 0 ≤ x
  · have hnonneg : 0 ≤ x.tmod n := Int.tmod_nonneg n hx
    omega
  · have hrest := (@tdiv_of_neg_left x n (by omega)).2
    have hnonneg := Int.emod_nonneg (-x) hn
    omega

theorem bmod_of_int32 (hmin : -2 ^ 31 ≤ x) (hmax : x < 2 ^ 31) : x.bmod (2 ^ 32) = x :=
  (bmod32_eq_iff hmin hmax).mpr (by rw [sub_self]; rfl)

theorem daysDividend_range (i : Interval) (hn : n ≠ 0) :
    -2 ^ 37 ≤ i.daysDividend n ∧ i.daysDividend n < 2 ^ 37 := by
  have hrest := @tmod_cases i.months.toInt n hn
  have hmonths := i.months.le_toInt
  have hmonths' := i.months.toInt_lt
  have hdays := i.days.le_toInt
  have hdays' := i.days.toInt_lt
  rw [daysDividend, daysPerMonth]
  omega

/-- The quotient of the days fits. -/
theorem daysDividend_fits (i : Interval) (hn : 0 < n) :
    -2 ^ 31 ≤ (i.daysDividend n).tdiv n ∧ (i.daysDividend n).tdiv n < 2 ^ 31 := by
  have hlow := Int.lt_tmod_of_pos i.months.toInt hn
  have hhigh := Int.tmod_lt_of_pos i.months.toInt hn
  have hdays := i.days.le_toInt
  have hdays' := i.days.toInt_lt
  apply tdiv_bounds hn <;> rw [daysDividend, daysPerMonth] <;> omega

end Ranges

/-- The operator is right for those dividends and for no others. -/
theorem dividesExactly_iff (i : Interval) (d : Int64) :
    i.DividesExactly d ↔ d ≠ 0 ∧ i.DividendsExact d.toInt := by
  by_cases hd : d = 0
  · subst hd
    exact iff_of_false (fun h ↦ by cases h) fun h ↦ h.1 rfl
  obtain ⟨q, hrun, hmonths, hdays, hmicros⟩ := exists_intervalOperation i hd
  obtain ⟨n, hn⟩ : ∃ n, n = d.toInt := ⟨_, rfl⟩
  have hne : n ≠ 0 := by
    rw [hn]
    exact fun hzero ↦ hd (Int64.toInt_inj.mp hzero)
  have hmin : -2 ^ 63 ≤ n := hn ▸ d.le_toInt
  have hmax : n < 2 ^ 63 := hn ▸ d.toInt_lt
  have hm := i.months.le_toInt
  have hm' := i.months.toInt_lt
  have hiff : i.DividesExactly d ↔ i.IsQuotient n q := by rw [DividesExactly, hrun, hn]
  rw [hiff, and_iff_right hd, ← hn, DividendsExact]
  rw [← hn] at hmonths hdays hmicros
  have hmonthsIff := exactIn32_iff hne hmin hmax (by omega : -2 ^ 63 ≤ i.months.toInt) (by omega)
    fun hpos ↦ tdiv_bounds hpos (by omega) (by omega)
  by_cases hexact : ExactIn32 i.months.toInt n
  swap
  · exact iff_of_false (fun h ↦ hexact (hmonthsIff.mp (hmonths.symm.trans h.months)))
      fun h ↦ hexact h.1
  -- The months are divided rightly, so the right remainder is carried.
  have hcarried : i.carriedMonths n = i.months.toInt.tmod n := by
    have hrest := @tmod_cases i.months.toInt n hne
    rw [carriedMonths, unsignedMod_bmod_eq hmin hmax (by omega) (by omega) hexact]
    exact bmod_of_int32 (by omega) (by omega)
  obtain ⟨hlow, hhigh⟩ := i.daysDividend_range hne
  rw [hcarried, ← daysDividend] at hdays
  have hdaysIff := exactIn32_iff hne hmin hmax (by omega : -2 ^ 63 ≤ i.daysDividend n) (by omega)
    fun hpos ↦ i.daysDividend_fits hpos
  by_cases hexact₂ : ExactIn32 (i.daysDividend n) n
  swap
  · exact iff_of_false (fun h ↦ hexact₂ (hdaysIff.mp (hdays.symm.trans h.days)))
      fun h ↦ hexact₂ h.2.1
  have hcarried₂ : i.carriedDays n = ((i.daysDividend n).tmod n).bmod (2 ^ 32) := by
    rw [carriedDays, hcarried, ← daysDividend]
    exact unsignedMod_bmod_eq hmin hmax (by omega) (by omega) hexact₂
  have hmicrosLow := i.micros.le_toInt
  have hmicrosHigh := i.micros.toInt_lt
  have hquotient : i.IsQuotient n q ↔ q.micros.toInt = (i.microsDividend n).tdiv n :=
    ⟨fun h ↦ h.micros, fun h ↦ ⟨hmonths.trans (hmonthsIff.mpr hexact),
      hdays.trans (hdaysIff.mpr hexact₂), h⟩⟩
  rw [hquotient, and_iff_right hexact, and_iff_right hexact₂, hmicros]
  by_cases hfits : -2 ^ 31 ≤ (i.daysDividend n).tmod n ∧ (i.daysDividend n).tmod n < 2 ^ 31
  · rw [hcarried₂, bmod_of_int32 hfits.1 hfits.2, ← microsDividend]
    apply exactIn64_iff hne hmin hmax
    intro hone
    rw [microsDividend, hone, Int.tmod_one, zero_mul, add_zero]
    exact ⟨hmicrosLow, hmicrosHigh⟩
  · -- A remainder that does not fit makes the microseconds too large for 64 bits.
    have hone : n ≠ 1 := by
      rintro hone
      rw [hone, Int.tmod_one] at hfits
      exact hfits (by decide)
    have hlarge : i.microsDividend n ≤ -2 ^ 65 ∨ 2 ^ 65 ≤ i.microsDividend n := by
      rw [microsDividend, microsPerDay]
      omega
    refine iff_of_false (unsignedDiv_bmod_ne hne hone hmin hmax hlarge _) ?_
    rintro (⟨-, h⟩ | ⟨-, h⟩)
    · omega
    · omega

end Interval

/-- When integer division, remainders and the division of intervals do what they are to do. -/
theorem division_iff (left right : Int64) (i : Interval) (d : Int64) :
    (Divide.IsExact left right ↔ right ≠ 0 ∧ ¬(left = Int64.minValue ∧ right = -1)) ∧
    (Modulo.IsExact left right ↔ right ≠ 0 ∧ ¬(left = Int64.minValue ∧ right = -1)) ∧
    (i.DividesExactly d ↔ d ≠ 0 ∧ i.DividendsExact d.toInt) :=
  ⟨Divide.isExact_iff, Modulo.isExact_iff, Interval.dividesExactly_iff i d⟩

/-- Dividing by zero traps, and a third of a negative month is a huge number of months. -/
theorem not_exact_zero_and_negative :
    ¬Divide.IsExact 1 0 ∧ ¬Modulo.IsExact Int64.minValue (-1) ∧
      ¬(⟨-1, 0, 0⟩ : Interval).DividesExactly 3 := by
  rw [Divide.isExact_iff, Modulo.isExact_iff, Interval.dividesExactly_iff]
  decide +kernel

end Graphflow
