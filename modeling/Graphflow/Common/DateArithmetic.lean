import Graphflow.Common.Interval
import Graphflow.Common.Timestamp
import Mathlib.Tactic.LinearCombination
import Mathlib.Tactic.Ring

/-!
# Dates, timestamps and intervals

The operators `+` and `-` of `date_t` and `timestamp_t`.  An interval is added in three parts: the
months through the calendar, then the days, then the whole days of the microseconds; a timestamp
adds what is left of the microseconds to its time.  Division rounds to zero.
-/

namespace Graphflow

open Lib

def Interval.monthsPerYear : ℤ := 12

/-- The fields of `inverseRight`; negating wraps around. -/
def Interval.inverse (interval : Interval) : Interval :=
  { months := -interval.months, days := -interval.days, micros := -interval.micros }

namespace Date

def monthDays (year month : ℤ) : Except DateError ℤ := do
  gfAssert (1 ≤ month ∧ month ≤ 12) "month >= 1 && month <= 12"
  entry (if isLeapYear year then leapDays else normalDays) month

/-- The year and the month after `months` have been added to them. -/
def shiftMonth (year month months : ℤ) : ℤ × ℤ :=
  let yearDiff := months.tdiv Interval.monthsPerYear
  let year := year + yearDiff
  let month := month + (months - yearDiff * Interval.monthsPerYear)
  if Interval.monthsPerYear < month then (year + 1, month - Interval.monthsPerYear)
  else if month ≤ 0 then (year - 1, month + Interval.monthsPerYear)
  else (year, month)

/-- The first `if` of `operator+`. -/
def plusMonths (d : Date) (months : Int32) : Except DateError Date :=
  if months ≠ 0 then do
    let { year, month, day } ← d.convert
    let (year, month) := shiftMonth year month months.toInt
    let maxDayInMonth ← monthDays year month
    let day := if maxDayInMonth < day then maxDayInMonth else day
    fromDate year month day
  else pure d

/-- `operator+` of a date and an interval; `int32_t` wraps around. -/
def plus (d : Date) (interval : Interval) : Except DateError Date := do
  let result ← d.plusMonths interval.months
  let days := if interval.days ≠ 0 then result.days + interval.days else result.days
  if interval.micros ≠ 0 then
    pure ⟨days + Int32.ofInt (interval.micros.toInt.tdiv microsPerDay)⟩
  else pure ⟨days⟩

def minus (d : Date) (interval : Interval) : Except DateError Date := d.plus interval.inverse

end Date

namespace Timestamp

/-- The end of `operator+`; the time and the rest of the microseconds are each less than a day. -/
def carryDay (date : Date) (micros : ℤ) : Except DateError Timestamp :=
  if microsPerDay ≤ micros then
    fromDatetime ⟨date.days + 1⟩ ⟨Int64.ofInt (micros - microsPerDay)⟩
  else if micros < 0 then
    fromDatetime ⟨date.days - 1⟩ ⟨Int64.ofInt (micros + microsPerDay)⟩
  else fromDatetime date ⟨Int64.ofInt micros⟩

def plus (ts : Timestamp) (interval : Interval) : Except DateError Timestamp := do
  let (date, time) := ts.convert
  let resultDate ← date.plus interval
  let micros := interval.micros.toInt
  let diff := micros - micros.tdiv microsPerDay * microsPerDay
  carryDay resultDate (time.micros.toInt + diff)

def minusInterval (ts : Timestamp) (interval : Interval) : Except DateError Timestamp :=
  ts.plus interval.inverse

def minus (ts rhs : Timestamp) : Interval :=
  let diff : ℤ := (ts.value - rhs.value).toInt.natAbs
  let days := Int32.ofInt (diff / microsPerDay)
  let micros := Int64.ofInt (diff % microsPerDay)
  if ts.value < rhs.value then { months := 0, days := -days, micros := -micros }
  else { months := 0, days, micros }

end Timestamp

/-! ## Adding to dates -/

namespace Date

variable {d e m n : Date} {c : Civil} {i : Interval} {year month day months : ℤ}

theorem monthDays_eq (h₁ : 1 ≤ month) (h₁₂ : month ≤ 12) :
    monthDays year month = .ok (monthLength year month) := by
  have hrange : 1 ≤ month ∧ month ≤ 12 := ⟨h₁, h₁₂⟩
  rw [monthDays, gfAssert_of (decide_eq_true hrange)]
  exact entry_monthDays h₁ h₁₂

/-- One carry is enough, whatever the signs are. -/
theorem shiftMonth_eq (h₁ : 1 ≤ month) (h₁₂ : month ≤ 12) (day months : ℤ) :
    shiftMonth year month months = ((Civil.addMonths ⟨year, month, day⟩ months).year,
      (Civil.addMonths ⟨year, month, day⟩ months).month) := by
  have hquot := tdiv_cases months (show 0 < Interval.monthsPerYear by decide)
  have hyear : Interval.monthsPerYear = 12 := rfl
  simp only [shiftMonth, Civil.addMonths]
  by_cases hover : Interval.monthsPerYear <
      month + (months - months.tdiv Interval.monthsPerYear * Interval.monthsPerYear)
  · rw [if_pos hover, Prod.mk.injEq]
    rw [hyear] at hquot hover ⊢
    omega
  by_cases hunder :
      month + (months - months.tdiv Interval.monthsPerYear * Interval.monthsPerYear) ≤ 0
  · rw [if_neg hover, if_pos hunder, Prod.mk.injEq]
    rw [hyear] at hquot hunder ⊢
    omega
  · rw [if_neg hover, if_neg hunder, Prod.mk.injEq]
    rw [hyear] at hquot hover hunder ⊢
    omega

/-- Adding months to a date is adding them in the calendar. -/
theorem plusMonths_eq {months : Int32} (hne : months ≠ 0) (hc : d.convert = .ok c) :
    d.plusMonths months = fromDate (c.addMonths months.toInt).year (c.addMonths months.toInt).month
      (c.addMonths months.toInt).day := by
  have hvalid := (convert_eq_ok_iff.mp hc).1
  obtain ⟨h₁, h₁₂, -⟩ := hvalid.addMonths months.toInt
  have hshift := @shiftMonth_eq c.year c.month hvalid.1 hvalid.2.1 c.day months.toInt
  rw [plusMonths, if_pos hne, hc, ok_bind]
  simp only [hshift, monthDays_eq h₁ h₁₂, ok_bind]
  congr 1
  simp only [Civil.addMonths, min_def]
  split_ifs <;> omega

theorem plusMonths_zero (d : Date) : d.plusMonths 0 = .ok d := rfl

theorem convert_plusMonths {months : Int32} (hc : d.convert = .ok c)
    (hm : d.plusMonths months = .ok m) : m.convert = .ok (c.addMonths months.toInt) := by
  by_cases hne : months = 0
  · subst hne
    obtain rfl := Except.ok.inj ((plusMonths_zero d).symm.trans hm)
    have hvalid := (convert_eq_ok_iff.mp hc).1
    have hsame : c.addMonths (0 : Int32).toInt = c := by
      obtain ⟨h₁, h₁₂, -, hday⟩ := hvalid
      have hzero : (0 : Int32).toInt = 0 := rfl
      have hyear : (12 * c.year + (c.month - 1) + 0) / 12 = c.year := by omega
      have hmonth : (12 * c.year + (c.month - 1) + 0) % 12 + 1 = c.month := by omega
      rw [hzero]
      apply Civil.ext
      · exact hyear
      · exact hmonth
      · simp only [Civil.addMonths, hyear, hmonth]
        exact min_eq_left hday
    rw [hsame]
    exact hc
  · rw [plusMonths_eq hne hc] at hm
    exact convert_of_fromDate hm

theorem days_le_iff (hc : d.convert = .ok c) {c' : Civil} (hc' : e.convert = .ok c') :
    d.days ≤ e.days ↔ c ≤ c' := by
  obtain ⟨hvalid, hnumber⟩ := convert_eq_ok_iff.mp hc
  obtain ⟨hvalid', hnumber'⟩ := convert_eq_ok_iff.mp hc'
  rw [← not_lt, ← hvalid'.dayNumber_lt_iff hvalid, hnumber, hnumber', Int32.le_iff_toInt_le,
    days_eq_sub, days_eq_sub]
  omega

theorem plusMonths_le {months : Int32} (h : d.days ≤ e.days) (hm : d.plusMonths months = .ok m)
    (hn : e.plusMonths months = .ok n) : m.days ≤ n.days := by
  obtain ⟨c, hc, hvalid, -⟩ := exists_convert d
  obtain ⟨c', hc', hvalid', -⟩ := exists_convert e
  apply (days_le_iff (convert_plusMonths hc hm) (convert_plusMonths hc' hn)).mpr
  exact hvalid.addMonths_le hvalid' ((days_le_iff hc hc').mp h) months.toInt

/-- The months lead to a valid date, and no addition to its days leaves `int32_t`. -/
def NoOverflow (d : Date) (i : Interval) : Prop :=
  ∃ m, d.plusMonths i.months = .ok m ∧
    (-2 ^ 31 ≤ m.days.toInt + i.days.toInt ∧ m.days.toInt + i.days.toInt < 2 ^ 31) ∧
    -2 ^ 31 ≤ m.days.toInt + i.days.toInt + i.micros.toInt.tdiv microsPerDay ∧
    m.days.toInt + i.days.toInt + i.micros.toInt.tdiv microsPerDay < 2 ^ 31

/-- The two tests for zero make no difference. -/
theorem plus_eq (hm : d.plusMonths i.months = .ok m) : d.plus i =
    .ok ⟨m.days + i.days + Int32.ofInt (i.micros.toInt.tdiv microsPerDay)⟩ := by
  have hdays : (if i.days ≠ 0 then m.days + i.days else m.days) = m.days + i.days := by
    by_cases hne : i.days = 0
    · rw [if_neg (not_not.mpr hne), hne, Int32.add_zero]
    · rw [if_pos hne]
  rw [plus, hm, ok_bind]
  simp only [hdays]
  by_cases hne : i.micros = 0
  · have hzero : Int32.ofInt ((0 : Int64).toInt.tdiv microsPerDay) = 0 := by decide +kernel
    rw [if_neg (not_not.mpr hne), hne, hzero, Int32.add_zero]
    rfl
  · rw [if_pos hne]
    rfl

theorem exists_plus (hm : d.plusMonths i.months = .ok m) (h : d.NoOverflow i) :
    ∃ r, d.plus i = .ok r ∧
      r.days.toInt = m.days.toInt + i.days.toInt + i.micros.toInt.tdiv microsPerDay := by
  obtain ⟨m', hm', hdays, hsum⟩ := h
  obtain rfl := Except.ok.inj (hm.symm.trans hm')
  refine ⟨_, plus_eq hm, ?_⟩
  have hquot := tdiv_cases i.micros.toInt (show 0 < microsPerDay by decide)
  have hmin := i.micros.le_toInt
  have hmax := i.micros.toInt_lt
  have hwhole : (Int32.ofInt (i.micros.toInt.tdiv microsPerDay)).toInt =
      i.micros.toInt.tdiv microsPerDay := by
    rw [Time.microsPerDay_eq] at *
    exact Int32.toInt_ofInt_of_le (by omega) (by omega)
  have hfirst : (m.days + i.days).toInt = m.days.toInt + i.days.toInt := by
    rw [Int32.toInt_add]
    apply Int.bmod_eq_of_le <;> omega
  rw [Int32.toInt_add, hwhole, hfirst]
  apply Int.bmod_eq_of_le <;> omega

/-- Earlier dates stay earlier or become equal. -/
theorem exists_plus_le (h : d.days ≤ e.days) (hd : d.NoOverflow i) (he : e.NoOverflow i) :
    ∃ r s, d.plus i = .ok r ∧ e.plus i = .ok s ∧ r.days ≤ s.days := by
  obtain ⟨m, hm, -⟩ := id hd
  obtain ⟨n, hn, -⟩ := id he
  obtain ⟨r, hr, hrdays⟩ := exists_plus hm hd
  obtain ⟨s, hs, hsdays⟩ := exists_plus hn he
  have hmn := Int32.le_iff_toInt_le.mp (plusMonths_le h hm hn)
  refine ⟨r, s, hr, hs, Int32.le_iff_toInt_le.mpr ?_⟩
  omega

/-- Without days and microseconds only the months are added. -/
theorem plus_of_months (hdays : i.days = 0) (hmicros : i.micros = 0)
    (hm : d.plusMonths i.months = .ok m) : d.plus i = .ok m := by
  rw [plus_eq hm, hdays, hmicros, Int32.add_zero]
  have hzero : Int32.ofInt ((0 : Int64).toInt.tdiv microsPerDay) = 0 := by decide +kernel
  rw [hzero, Int32.add_zero]

end Date

/-! ## Adding to timestamps -/

namespace Timestamp

variable {a b ts : Timestamp} {d : Date} {i : Interval}

/-- `IsValid` looks at the year only, as `Convert` returns a day that exists. -/
theorem validDate_of_days (hmin : -106751981 ≤ d.days.toInt) (hmax : d.days.toInt ≤ 106752346) :
    ValidDate d := by
  obtain ⟨c, hc, hvalid, hnumber⟩ := Date.exists_convert d
  refine ⟨c, hc, Date.isValid_of_accepted ⟨hvalid, ?_⟩⟩
  have hle := hvalid.daysBeforeYear_le
  have hlt := hvalid.dayNumber_lt_year
  rw [hnumber, Date.dayNumber, Date.epochDay_eq] at hle hlt
  simp only [daysBeforeYear, Date.minYear, Date.maxYear] at *
  omega

/-- The microseconds of the sum from the beginning of the day on, to which the whole days lead. -/
def timeOfSum (ts : Timestamp) (i : Interval) : ℤ :=
  ts.getTime.micros.toInt + i.micros.toInt.tmod microsPerDay

/-- No addition of `operator+` leaves its type, and the date of the sum is valid. -/
def NoOverflow (ts : Timestamp) (i : Interval) : Prop :=
  ts.getDate.NoOverflow i ∧ ∃ d e : Date, ts.getDate.plus i = .ok d ∧
    e.days.toInt = d.days.toInt + ts.timeOfSum i / microsPerDay ∧ ValidDate e ∧
    -2 ^ 63 ≤ d.days.toInt * microsPerDay + ts.timeOfSum i ∧
    d.days.toInt * microsPerDay + ts.timeOfSum i < 2 ^ 63

theorem timeOfSum_bounds (ts : Timestamp) (i : Interval) :
    -microsPerDay < ts.timeOfSum i ∧ ts.timeOfSum i < 2 * microsPerDay := by
  have hpos : 0 < microsPerDay := by decide
  have hmin := Int.emod_nonneg ts.value.toInt hpos.ne'
  have hmax := Int.emod_lt_of_pos ts.value.toInt hpos
  have hrest := Int.lt_tmod_of_pos i.micros.toInt hpos
  have hrest' := Int.tmod_lt_of_pos i.micros.toInt hpos
  rw [timeOfSum, toInt_micros_getTime]
  omega

theorem days_add_one_eq {e : Date} (h : e.days.toInt = d.days.toInt + 1) : e.days = d.days + 1 := by
  have hmin := e.days.le_toInt
  have hmax := e.days.toInt_lt
  have hone : (1 : Int32).toInt = 1 := rfl
  rw [← Int32.toInt_inj, Int32.toInt_add, hone, ← h]
  exact (Int.bmod_eq_of_le (by omega) (by omega)).symm

/-- At most one day is carried, in either direction. -/
theorem plus_eq (hd : ts.getDate.plus i = .ok d) {e : Date}
    (he : e.days.toInt = d.days.toInt + ts.timeOfSum i / microsPerDay) :
    ts.plus i = fromDatetime e ⟨Int64.ofInt (ts.timeOfSum i % microsPerDay)⟩ := by
  have hsum : ts.getTime.micros.toInt +
      (i.micros.toInt - i.micros.toInt.tdiv microsPerDay * microsPerDay) = ts.timeOfSum i := by
    rw [timeOfSum, Int.tmod_def, Int.mul_comm]
  obtain ⟨hmin, hmax⟩ := ts.timeOfSum_bounds i
  rw [plus, convert]
  dsimp only
  rw [hd, ok_bind, hsum, carryDay]
  have hpos : 0 < microsPerDay := by decide
  generalize ts.timeOfSum i = micros at *
  by_cases hover : microsPerDay ≤ micros
  · obtain ⟨hone, hrest⟩ : micros / microsPerDay = 1 ∧
        micros % microsPerDay = micros - microsPerDay :=
      (Int.ediv_emod_unique hpos).mpr (by omega)
    rw [hone] at he
    rw [if_pos hover, hrest, ← days_add_one_eq he]
  by_cases hunder : micros < 0
  · obtain ⟨hone, hrest⟩ : micros / microsPerDay = -1 ∧
        micros % microsPerDay = micros + microsPerDay :=
      (Int.ediv_emod_unique hpos).mpr (by omega)
    rw [hone] at he
    have hbefore : d.days = e.days + 1 := days_add_one_eq (by omega)
    have hback : d.days - 1 = e.days := by rw [hbefore, Int32.add_sub_cancel]
    rw [if_neg hover, if_pos hunder, hrest, hback]
  · obtain ⟨hzero, hrest⟩ : micros / microsPerDay = 0 ∧ micros % microsPerDay = micros :=
      (Int.ediv_emod_unique hpos).mpr (by omega)
    rw [hzero, Int.add_zero] at he
    rw [if_neg hover, if_neg hunder, hrest, Date.ext (Int32.toInt_inj.mp he)]

/-- The sum is exact. -/
theorem exists_plus (h : ts.NoOverflow i) : ∃ d r, ts.getDate.plus i = .ok d ∧
    ts.plus i = .ok r ∧ r.value.toInt = d.days.toInt * microsPerDay + ts.timeOfSum i := by
  obtain ⟨-, d, e, hd, he, hvalid, hmin, hmax⟩ := h
  have hday := Time.microsPerDay_eq
  have hpos : 0 < microsPerDay := by decide
  have hrest := Int.emod_nonneg (ts.timeOfSum i) hpos.ne'
  have hrest' := Int.emod_lt_of_pos (ts.timeOfSum i) hpos
  have htime : (Int64.ofInt (ts.timeOfSum i % microsPerDay)).toInt =
      ts.timeOfSum i % microsPerDay :=
    Int64.toInt_ofInt_of_le (by omega) (by omega)
  have hinDay : ValidTime ⟨Int64.ofInt (ts.timeOfSum i % microsPerDay)⟩ := by
    apply Time.isValid_convert_iff.mpr
    rw [Time.InDay, htime]
    exact ⟨hrest, hrest'⟩
  refine ⟨d, _, hd, (plus_eq hd he).trans (fromDatetime_of_valid hvalid hinDay), ?_⟩
  have hexact : exactValue e ⟨Int64.ofInt (ts.timeOfSum i % microsPerDay)⟩ =
      d.days.toInt * microsPerDay + ts.timeOfSum i := by
    have hsplit := Int.mul_ediv_add_emod (ts.timeOfSum i) microsPerDay
    rw [exactValue, he, htime, Int.add_mul]
    rw [Int.mul_comm] at hsplit
    omega
  rw [toInt_fromDatetime, hexact]
  apply Int.bmod_eq_of_le <;> omega

theorem value_eq (ts : Timestamp) :
    ts.value.toInt = ts.getDate.days.toInt * microsPerDay + ts.getTime.micros.toInt := by
  rw [toInt_days_getDate, toInt_micros_getTime, Int.mul_comm, Int.mul_ediv_add_emod]

/-- Without months, the numbers are added. -/
theorem exists_plus_of_months (hmonths : i.months = 0) (h : ts.NoOverflow i) :
    ∃ r, ts.plus i = .ok r ∧
      r.value.toInt = ts.value.toInt + i.days.toInt * microsPerDay + i.micros.toInt := by
  obtain ⟨d, r, hd, hr, hvalue⟩ := exists_plus h
  obtain ⟨d', hd', hdays⟩ := Date.exists_plus (m := ts.getDate)
    (by rw [hmonths]; exact Date.plusMonths_zero _) h.1
  obtain rfl := Except.ok.inj (hd.symm.trans hd')
  refine ⟨r, hr, ?_⟩
  have hsplit := Int.mul_tdiv_add_tmod i.micros.toInt microsPerDay
  calc
    r.value.toInt = d.days.toInt * microsPerDay + ts.timeOfSum i := hvalue
    _ = ts.getDate.days.toInt * microsPerDay + ts.getTime.micros.toInt +
        i.days.toInt * microsPerDay +
        (microsPerDay * i.micros.toInt.tdiv microsPerDay + i.micros.toInt.tmod microsPerDay) := by
      rw [hdays, timeOfSum]
      ring
    _ = ts.value.toInt + i.days.toInt * microsPerDay + i.micros.toInt := by
      rw [hsplit, ← value_eq]

theorem getDate_bounds (ts : Timestamp) :
    -106751992 ≤ ts.getDate.days.toInt ∧ ts.getDate.days.toInt ≤ 106751991 := by
  have hmin := ts.value.le_toInt
  have hmax := ts.value.toInt_lt
  rw [toInt_days_getDate, Time.microsPerDay_eq]
  omega

theorem tdiv_microsPerDay_bounds (micros : Int64) :
    -106751991 ≤ micros.toInt.tdiv microsPerDay ∧ micros.toInt.tdiv microsPerDay ≤ 106751991 := by
  have hquot := tdiv_cases micros.toInt (show 0 < microsPerDay by decide)
  have hmin := micros.le_toInt
  have hmax := micros.toInt_lt
  rw [Time.microsPerDay_eq] at *
  omega

theorem carry_bounds (ts : Timestamp) (i : Interval) :
    -1 ≤ ts.timeOfSum i / microsPerDay ∧ ts.timeOfSum i / microsPerDay ≤ 1 := by
  obtain ⟨hmin, hmax⟩ := ts.timeOfSum_bounds i
  rw [Time.microsPerDay_eq] at *
  omega

/-- Without months, all the sums are in range if the last one is. -/
theorem noOverflow_of_value (hmonths : i.months = 0) {r : Timestamp} (hvalid : ValidDate r.getDate)
    (hr : r.value.toInt = ts.value.toInt + i.days.toInt * microsPerDay + i.micros.toInt) :
    ts.NoOverflow i := by
  have hsplit := Int.mul_tdiv_add_tmod i.micros.toInt microsPerDay
  have hvalue : r.value.toInt = ts.timeOfSum i + (ts.getDate.days.toInt + i.days.toInt +
      i.micros.toInt.tdiv microsPerDay) * microsPerDay := by
    rw [hr, ts.value_eq, timeOfSum]
    linear_combination -hsplit
  have hdate : r.getDate.days.toInt = ts.timeOfSum i / microsPerDay + (ts.getDate.days.toInt +
      i.days.toInt + i.micros.toInt.tdiv microsPerDay) := by
    rw [toInt_days_getDate, hvalue, Int.add_mul_ediv_right _ _ (by decide)]
  obtain ⟨hmin, hmax⟩ := ts.getDate_bounds
  obtain ⟨hrmin, hrmax⟩ := r.getDate_bounds
  obtain ⟨hwhole, hwhole'⟩ := tdiv_microsPerDay_bounds i.micros
  obtain ⟨hcarry, hcarry'⟩ := ts.carry_bounds i
  have hdateFits : ts.getDate.NoOverflow i := by
    refine ⟨ts.getDate, by rw [hmonths]; rfl, ⟨?_, ?_⟩, ?_, ?_⟩ <;> omega
  obtain ⟨d, hd, hdays⟩ := Date.exists_plus (m := ts.getDate)
    (by rw [hmonths]; exact Date.plusMonths_zero _) hdateFits
  have hexact : d.days.toInt * microsPerDay + ts.timeOfSum i = r.value.toInt := by
    rw [hdays, hvalue, Int.add_comm]
  refine ⟨hdateFits, d, r.getDate, hd, by omega, hvalid, ?_, ?_⟩
  · rw [hexact]
    exact r.value.le_toInt
  · rw [hexact]
    exact r.value.toInt_lt

theorem plus_of_value (hmonths : i.months = 0) {r : Timestamp} (hvalid : ValidDate r.getDate)
    (hr : r.value.toInt = ts.value.toInt + i.days.toInt * microsPerDay + i.micros.toInt) :
    ts.plus i = .ok r := by
  obtain ⟨s, hs, hvalue⟩ := exists_plus_of_months hmonths (noOverflow_of_value hmonths hvalid hr)
  rw [hs, Timestamp.ext (Int64.toInt_inj.mp (hvalue.trans hr.symm))]

theorem toInt_minus (hmin : -2 ^ 63 < a.value.toInt - b.value.toInt)
    (hmax : a.value.toInt - b.value.toInt < 2 ^ 63) : (a.minus b).months = 0 ∧
      (a.minus b).days.toInt * microsPerDay + (a.minus b).micros.toInt =
        a.value.toInt - b.value.toInt := by
  have hday := Time.microsPerDay_eq
  have hsub : (a.value - b.value).toInt = a.value.toInt - b.value.toInt := by
    rw [Int64.toInt_sub]
    apply Int.bmod_eq_of_le <;> omega
  rw [minus, hsub]
  generalize hdiff : ((a.value.toInt - b.value.toInt).natAbs : ℤ) = diff
  have hdays : (Int32.ofInt (diff / microsPerDay)).toInt = diff / microsPerDay := by
    rw [hday]
    exact Int32.toInt_ofInt_of_le (by omega) (by omega)
  have hmicros : (Int64.ofInt (diff % microsPerDay)).toInt = diff % microsPerDay := by
    rw [hday]
    exact Int64.toInt_ofInt_of_le (by omega) (by omega)
  have hsplit := Int.mul_ediv_add_emod diff microsPerDay
  by_cases hlt : a.value < b.value
  · rw [if_pos hlt]
    refine ⟨rfl, ?_⟩
    rw [Int64.lt_iff_toInt_lt] at hlt
    have hnegDays : (-Int32.ofInt (diff / microsPerDay)).toInt = -(diff / microsPerDay) := by
      rw [Int32.toInt_neg, hdays, hday]
      apply Int.bmod_eq_of_le <;> omega
    have hnegMicros : (-Int64.ofInt (diff % microsPerDay)).toInt = -(diff % microsPerDay) := by
      rw [Int64.toInt_neg, hmicros, hday]
      apply Int.bmod_eq_of_le <;> omega
    dsimp only
    rw [hnegDays, hnegMicros, Int.neg_mul, Int.mul_comm]
    omega
  · rw [if_neg hlt]
    refine ⟨rfl, ?_⟩
    rw [Int64.lt_iff_toInt_lt] at hlt
    dsimp only
    rw [hdays, hmicros, Int.mul_comm]
    omega

/-- The laws of the operators, where the numbers stay in range.  The difference of two timestamps
leads back from the one to the other; without months, the numbers are added; adding an interval
keeps the order of dates; adding months keeps the day of the month, unless the month is too
short. -/
theorem arithmetic_laws :
    (∀ a b : Timestamp, -2 ^ 63 < a.value.toInt - b.value.toInt →
      a.value.toInt - b.value.toInt < 2 ^ 63 → ValidDate a.getDate →
      b.plus (a.minus b) = .ok a) ∧
    (∀ (a : Timestamp) (i : Interval), i.months = 0 → a.NoOverflow i → ∃ r, a.plus i = .ok r ∧
      r.value.toInt = a.value.toInt + i.days.toInt * microsPerDay + i.micros.toInt) ∧
    (∀ (d e : Date) (i : Interval), d.days ≤ e.days → d.NoOverflow i → e.NoOverflow i →
      ∃ r s, d.plus i = .ok r ∧ e.plus i = .ok s ∧ r.days ≤ s.days) ∧
    ∀ (d : Date) (i : Interval), i.days = 0 → i.micros = 0 → d.NoOverflow i →
      ∃ (c c' : Civil) (r : Date), d.convert = .ok c ∧ d.plus i = .ok r ∧ r.convert = .ok c' ∧
        12 * c'.year + c'.month = 12 * c.year + c.month + i.months.toInt ∧
        1 ≤ c'.month ∧ c'.month ≤ 12 ∧ c'.day = min c.day (monthLength c'.year c'.month) := by
  refine ⟨fun a b hmin hmax hvalid ↦ ?_, fun a i hmonths h ↦ exists_plus_of_months hmonths h,
    fun d e i hle hd he ↦ Date.exists_plus_le hle hd he, fun d i hdays hmicros h ↦ ?_⟩
  · obtain ⟨hmonths, hdiff⟩ := toInt_minus hmin hmax
    apply plus_of_value hmonths hvalid
    omega
  · obtain ⟨m, hm, -⟩ := h
    obtain ⟨c, hc, hvalid, -⟩ := Date.exists_convert d
    obtain ⟨h₁, h₁₂, -⟩ := hvalid.addMonths i.months.toInt
    refine ⟨c, c.addMonths i.months.toInt, m, hc, Date.plus_of_months hdays hmicros hm,
      Date.convert_plusMonths hc hm, ?_, h₁, h₁₂, rfl⟩
    simp only [Civil.addMonths]
    omega

theorem noOverflow_january (d : Date) (h : d.days = 18291 ∨ d.days = 18292) :
    d.NoOverflow ⟨1, 0, 0⟩ := by
  obtain ⟨days⟩ := d
  refine ⟨⟨18321⟩, ?_, by decide +kernel, by decide +kernel⟩
  rcases h with rfl | rfl
  · decide +kernel
  · decide +kernel

/-- A month after 30 and 31 January 2020 is 29 February. -/
theorem arithmetic_laws_january :
    (⟨1⟩ : Timestamp).plus ((⟨-1⟩ : Timestamp).minus ⟨1⟩) = .ok ⟨-1⟩ ∧
    (∃ r, (⟨0⟩ : Timestamp).plus ⟨0, -1, -1⟩ = .ok r ∧ r.value.toInt = -86400000001) ∧
    (∃ r s, (⟨18291⟩ : Date).plus ⟨1, 0, 0⟩ = .ok r ∧ (⟨18292⟩ : Date).plus ⟨1, 0, 0⟩ = .ok s ∧
      r.days ≤ s.days) ∧
    ∃ (c c' : Civil) (r : Date), (⟨18292⟩ : Date).convert = .ok c ∧
      (⟨18292⟩ : Date).plus ⟨1, 0, 0⟩ = .ok r ∧ r.convert = .ok c' ∧
      12 * c'.year + c'.month = 12 * c.year + c.month + 1 ∧
      1 ≤ c'.month ∧ c'.month ≤ 12 ∧ c'.day = min c.day (monthLength c'.year c'.month) := by
  obtain ⟨hback, hadd, hmono, hmonths⟩ := arithmetic_laws
  have hvalid : ValidDate (getDate ⟨-1⟩) :=
    validDate_of_days (by decide +kernel) (by decide +kernel)
  have hvalid' : ValidDate (getDate ⟨-86400000001⟩) :=
    validDate_of_days (by decide +kernel) (by decide +kernel)
  refine ⟨hback ⟨-1⟩ ⟨1⟩ (by decide +kernel) (by decide +kernel) hvalid, ?_,
    hmono ⟨18291⟩ ⟨18292⟩ ⟨1, 0, 0⟩ (by decide) (noOverflow_january _ (.inl rfl))
      (noOverflow_january _ (.inr rfl)),
    hmonths ⟨18292⟩ ⟨1, 0, 0⟩ rfl rfl (noOverflow_january _ (.inr rfl))⟩
  obtain ⟨r, hr, hvalue⟩ := hadd ⟨0⟩ ⟨0, -1, -1⟩ rfl
    (noOverflow_of_value rfl hvalid' (by decide +kernel))
  exact ⟨r, hr, hvalue.trans (by decide +kernel)⟩

end Timestamp

end Graphflow
