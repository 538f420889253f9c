import Graphflow.Common.Date

/-!
# Parts of dates

`Date::getDatePart` and `Date::trunc` take the date by reference, and `ExtractYearOffset` stores the
day within the 400 years in it.
-/

namespace Graphflow

open Lib

inductive DatePartSpecifier
  | year | month | day | decade | century | millennium | quarter
  | microsecond | millisecond | second | minute | hour
  deriving DecidableEq, Repr

namespace Date

/-- The result, and what the argument is afterwards. -/
def getDatePart (specifier : DatePartSpecifier) (date : Date) : Except DateError ℤ × Date :=
  match convert date with
  | .error e => (.error e, date)
  | .ok { year, month, day } =>
      match specifier with
      | .year =>
          match extractYearOffset date.days.toInt with
          | .error e => (.error e, date)
          | .ok { n, year, .. } => (.ok year, ⟨Int32.ofInt n⟩)
      | .month => (.ok month, date)
      | .day => (.ok day, date)
      | .decade => (.ok (year.tdiv 10), date)
      | .century =>
          (.ok (if 0 < year then (year - 1).tdiv 100 + 1 else year.tdiv 100 - 1), date)
      | .millennium =>
          (.ok (if 0 < year then (year - 1).tdiv 1000 + 1 else year.tdiv 1000 - 1), date)
      | .quarter => (.ok ((month - 1).tdiv 3 + 1), date)
      | _ => (.ok 0, date)

/-- The branches of `trunc` that return the beginning of a number of years. -/
def truncYears (years : ℤ) (date : Date) : Except DateError Date × Date :=
  let (year, date) := getDatePart .year date
  (do fromDate ((← year).tdiv years * years) 1 1, date)

/-- The arguments of the call for months may be evaluated in any order, see
`getDatePart_month_cycleDate`. -/
def trunc (specifier : DatePartSpecifier) (date : Date) : Except DateError Date × Date :=
  match specifier with
  | .year =>
      let (year, date) := getDatePart .year date
      (do fromDate (← year) 1 1, date)
  | .month =>
      let (year, date) := getDatePart .year date
      let (month, date) := getDatePart .month date
      (do fromDate (← year) (← month) 1, date)
  | .day => (.ok date, date)
  | .decade => truncYears 10 date
  | .century => truncYears 100 date
  | .millennium => truncYears 1000 date
  | .quarter =>
      (do
        let { year, month, .. } ← convert date
        fromDate year (1 + (month - 1).tdiv 3 * 3) 1, date)
  | _ => (.ok date, date)

/-! ## What the functions return -/

variable {d t : Date} {c : Civil} {s : DatePartSpecifier}

/-- The same day of the year in the 400 years from 1970 on. -/
def cycleDate (d : Date) : Date := ⟨Int32.ofInt (d.days.toInt % 146097)⟩

/-- The dates that `ExtractYearOffset` leaves as they are. -/
def InCycle (d : Date) : Prop := 0 ≤ d.days.toInt ∧ d.days.toInt < 146097

instance (d : Date) : Decidable d.InCycle :=
  inferInstanceAs (Decidable (0 ≤ d.days.toInt ∧ d.days.toInt < 146097))

theorem toInt_days_cycleDate (d : Date) : d.cycleDate.days.toInt = d.days.toInt % 146097 := by
  have hmin := Int.emod_nonneg d.days.toInt (show (146097 : ℤ) ≠ 0 by decide)
  have hmax := Int.emod_lt_of_pos d.days.toInt (show (0 : ℤ) < 146097 by decide)
  exact Int32.toInt_ofInt_of_le (by omega) (by omega)

theorem cycleDate_eq_iff : d.cycleDate = d ↔ d.InCycle := by
  rw [Date.ext_iff, ← Int32.toInt_inj, toInt_days_cycleDate, InCycle]
  omega

/-- A day lies in one year only. -/
theorem eq_year_of_dayNumber (hc : c.Valid) {year : ℤ} (hle : daysBeforeYear year ≤ c.dayNumber)
    (hlt : c.dayNumber < daysBeforeYear (year + 1)) : year = c.year := by
  rcases lt_trichotomy year c.year with h | h | h
  · exact absurd (hlt.trans_le (daysBeforeYear_mono h)) hc.daysBeforeYear_le.not_gt
  · exact h
  · exact absurd (hc.dayNumber_lt_year.trans_le (daysBeforeYear_mono h)) hle.not_gt

theorem exists_extractYearOffset_of_convert (h : convert d = .ok c) : ∃ yearOffset,
    extractYearOffset d.days.toInt =
      .ok { n := d.days.toInt % 146097, year := c.year, yearOffset := yearOffset } := by
  obtain ⟨i, -, -, hoffset, hle, hlt⟩ := exists_extractYearOffset d.days.toInt
  obtain ⟨hvalid, hnumber⟩ := convert_eq_ok_iff.mp h
  have hyear : (1970 : ℤ) + 400 * (d.days.toInt / 146097) + i = c.year := by
    have hshift := daysBeforeYear_add (1970 + i) (d.days.toInt / 146097)
    have hshift' := daysBeforeYear_add (1970 + i + 1) (d.days.toInt / 146097)
    have hcycle := Int.emod_add_mul_ediv d.days.toInt 146097
    have hstart : (1970 : ℤ) + 400 * (d.days.toInt / 146097) + i =
        1970 + i + 400 * (d.days.toInt / 146097) := by omega
    have hend : (1970 : ℤ) + 400 * (d.days.toInt / 146097) + i + 1 =
        1970 + i + 1 + 400 * (d.days.toInt / 146097) := by omega
    apply eq_year_of_dayNumber hvalid
    · rw [hstart, hshift, hnumber, dayNumber]
      omega
    · rw [hend, hshift', hnumber, dayNumber]
      omega
  exact ⟨i, by rw [hoffset, hyear]⟩

/-- What `getDatePart` returns for a day of the calendar. -/
def partOf (s : DatePartSpecifier) (c : Civil) : ℤ :=
  match s with
  | .year => c.year
  | .month => c.month
  | .day => c.day
  | .decade => c.year.tdiv 10
  | .century => if 0 < c.year then (c.year - 1).tdiv 100 + 1 else c.year.tdiv 100 - 1
  | .millennium => if 0 < c.year then (c.year - 1).tdiv 1000 + 1 else c.year.tdiv 1000 - 1
  | .quarter => (c.month - 1).tdiv 3 + 1
  | _ => 0

theorem getDatePart_eq (h : convert d = .ok c) (s : DatePartSpecifier) :
    getDatePart s d = (.ok (partOf s c), if s = .year then d.cycleDate else d) := by
  obtain ⟨yearOffset, hoffset⟩ := exists_extractYearOffset_of_convert h
  rw [getDatePart, h]
  cases s with
  | year => simp only [hoffset, partOf, if_true, cycleDate]
  | _ => rfl

theorem dayNumber_shift (c : Civil) (k : ℤ) :
    Civil.dayNumber ⟨c.year + 400 * k, c.month, c.day⟩ = c.dayNumber + 146097 * k := by
  have hmonth : daysBeforeMonth (c.year + 400 * k) c.month = daysBeforeMonth c.year c.month :=
    daysBeforeMonth_congr (isLeap_add _ _)
  simp only [Civil.dayNumber, daysBeforeYear_add, hmonth]
  omega

theorem valid_shift (h : c.Valid) (k : ℤ) : Civil.Valid ⟨c.year + 400 * k, c.month, c.day⟩ := by
  obtain ⟨h₁, h₁₂, hday, hday'⟩ := h
  refine ⟨h₁, h₁₂, hday, hday'.trans_eq ?_⟩
  exact monthLength_congr (isLeap_add _ _).symm

theorem getDatePart_month_cycleDate (h : convert d = .ok c) :
    getDatePart .month d.cycleDate = (.ok c.month, d.cycleDate) := by
  obtain ⟨hvalid, hnumber⟩ := convert_eq_ok_iff.mp h
  have hconvert : convert d.cycleDate =
      .ok ⟨c.year + 400 * -(d.days.toInt / 146097), c.month, c.day⟩ := by
    rw [convert_eq_ok_iff, dayNumber_shift, hnumber, dayNumber, dayNumber, toInt_days_cycleDate]
    have hcycle := Int.emod_add_mul_ediv d.days.toInt 146097
    exact ⟨valid_shift hvalid _, by omega⟩
  exact getDatePart_eq hconvert .month

/-- The first day of the part of the calendar in which a day lies. -/
def truncOf (s : DatePartSpecifier) (c : Civil) : Civil :=
  match s with
  | .year => ⟨c.year, 1, 1⟩
  | .month => ⟨c.year, c.month, 1⟩
  | .decade => ⟨c.year.tdiv 10 * 10, 1, 1⟩
  | .century => ⟨c.year.tdiv 100 * 100, 1, 1⟩
  | .millennium => ⟨c.year.tdiv 1000 * 1000, 1, 1⟩
  | .quarter => ⟨c.year, 1 + (c.month - 1).tdiv 3 * 3, 1⟩
  | _ => c

/-- `trunc` makes a new date. -/
def Truncates (s : DatePartSpecifier) : Prop :=
  s = .year ∨ s = .month ∨ s = .decade ∨ s = .century ∨ s = .millennium ∨ s = .quarter

instance (s : DatePartSpecifier) : Decidable (Truncates s) :=
  inferInstanceAs (Decidable (s = .year ∨ s = .month ∨ s = .decade ∨ s = .century ∨
    s = .millennium ∨ s = .quarter))

theorem trunc_of_not_truncates (h : ¬Truncates s) : trunc s d = (.ok d, d) := by
  cases s with
  | day => rfl
  | microsecond => rfl
  | millisecond => rfl
  | second => rfl
  | minute => rfl
  | hour => rfl
  | _ => exact absurd (by decide) h

theorem trunc_of_truncates (h : convert d = .ok c) (hs : Truncates s) : trunc s d =
    (fromDate (truncOf s c).year (truncOf s c).month (truncOf s c).day,
      if s = .quarter then d else d.cycleDate) := by
  have hyear := getDatePart_eq h .year
  rw [if_pos rfl] at hyear
  cases s with
  | year => simp only [trunc, hyear, ok_bind, partOf, truncOf, reduceCtorEq, if_false]
  | month =>
      simp only [trunc, hyear, getDatePart_month_cycleDate h, ok_bind, partOf, truncOf,
        reduceCtorEq, if_false]
  | decade => simp only [trunc, truncYears, hyear, ok_bind, partOf, truncOf, reduceCtorEq, if_false]
  | century =>
      simp only [trunc, truncYears, hyear, ok_bind, partOf, truncOf, reduceCtorEq, if_false]
  | millennium =>
      simp only [trunc, truncYears, hyear, ok_bind, partOf, truncOf, reduceCtorEq, if_false]
  | quarter => simp only [trunc, h, ok_bind, truncOf, if_true]
  | _ => exact absurd hs (by decide)

/-! ## Where the functions agree -/

/-- Both functions leave the date as it is, and the date that `trunc` returns is the first one of
the same part. -/
structure Agrees (s : DatePartSpecifier) (d : Date) : Prop where
  getDatePart_snd : (getDatePart s d).2 = d
  trunc_snd : (trunc s d).2 = d
  le : ∀ t, (trunc s d).1 = .ok t → t.days ≤ d.days
  trunc_trunc : ∀ t, (trunc s d).1 = .ok t → (trunc s t).1 = .ok t
  getDatePart_trunc : ∀ t, (trunc s d).1 = .ok t → (getDatePart s t).1 = (getDatePart s d).1

/-- The dates whose year is not to be moved, and for centuries and millennia those of the years
that end one. -/
def AgreesWhen (s : DatePartSpecifier) (d : Date) : Prop :=
  match s with
  | .year | .month | .decade => d.InCycle
  | .century => d.InCycle ∧ ∃ c, convert d = .ok c ∧ 100 ∣ c.year
  | .millennium => d.InCycle ∧ ∃ c, convert d = .ok c ∧ 1000 ∣ c.year
  | _ => True

theorem agrees_of_not_truncates (h : ¬Truncates s) : Agrees s d := by
  have hs : s ≠ .year := by
    rintro rfl
    exact h (by decide)
  obtain ⟨c, hc, -⟩ := exists_convert d
  have htrunc := @trunc_of_not_truncates d s h
  refine ⟨?_, by rw [htrunc], ?_, ?_, ?_⟩
  · rw [getDatePart_eq hc, if_neg hs]
  all_goals
    intro t ht
    rw [htrunc, Except.ok.injEq] at ht
    subst ht
  · exact Int32.le_refl _
  · rw [htrunc]
  · rfl

theorem days_le_iff_dayNumber_le : t.days ≤ d.days ↔ t.dayNumber ≤ d.dayNumber := by
  rw [Int32.le_iff_toInt_le, dayNumber, dayNumber]
  omega

/-- A date that is truncated agrees as its day of the calendar does. -/
theorem agrees_iff_of_truncates (h : convert d = .ok c) (hs : Truncates s) : Agrees s d ↔
    (s = .quarter ∨ d.InCycle) ∧ (Accepted (truncOf s c) →
      (truncOf s c).dayNumber ≤ c.dayNumber ∧ truncOf s (truncOf s c) = truncOf s c ∧
        partOf s (truncOf s c) = partOf s c) := by
  obtain ⟨hvalid, hnumber⟩ := convert_eq_ok_iff.mp h
  have htrunc := trunc_of_truncates h hs
  have hpart := getDatePart_eq h s
  have hsnd : (trunc s d).2 = d ↔ s = .quarter ∨ d.InCycle := by
    rw [htrunc]
    by_cases hquarter : s = .quarter
    · rw [if_pos hquarter]
      exact iff_of_true rfl (.inl hquarter)
    · rw [if_neg hquarter, cycleDate_eq_iff, or_iff_right hquarter]
  constructor
  · intro hagrees
    refine ⟨hsnd.mp hagrees.trunc_snd, fun haccepted ↦ ?_⟩
    obtain ⟨t, ht⟩ := exists_fromDate haccepted
    have hfst : (trunc s d).1 = .ok t := by rw [htrunc, ht]
    have htnumber := (fromDate_civil_eq_ok_iff.mp ht).2
    have htconvert := convert_of_fromDate ht
    refine ⟨?_, ?_, ?_⟩
    · rw [htnumber, hnumber]
      exact days_le_iff_dayNumber_le.mp (hagrees.le t hfst)
    · have htwice := hagrees.trunc_trunc t hfst
      rw [trunc_of_truncates htconvert hs] at htwice
      exact Except.ok.inj ((convert_of_fromDate htwice).symm.trans htconvert)
    · have hparts := hagrees.getDatePart_trunc t hfst
      rw [getDatePart_eq htconvert, hpart] at hparts
      exact Except.ok.inj hparts
  · rintro ⟨hcycle, hcivil⟩
    have hfst (t : Date) (ht : (trunc s d).1 = .ok t) : convert t = .ok (truncOf s c) ∧
        Accepted (truncOf s c) ∧ (truncOf s c).dayNumber = t.dayNumber ∧
        fromDate (truncOf s c).year (truncOf s c).month (truncOf s c).day = .ok t := by
      rw [htrunc] at ht
      exact ⟨convert_of_fromDate ht, (fromDate_civil_eq_ok_iff.mp ht).1,
        (fromDate_civil_eq_ok_iff.mp ht).2, ht⟩
    refine ⟨?_, hsnd.mpr hcycle, fun t ht ↦ ?_, fun t ht ↦ ?_, fun t ht ↦ ?_⟩
    · rw [hpart]
      split_ifs with hyear
      · exact cycleDate_eq_iff.mpr (hcycle.resolve_left (by rw [hyear]; decide))
      · rfl
    · obtain ⟨-, haccepted, htnumber, -⟩ := hfst t ht
      rw [days_le_iff_dayNumber_le, ← htnumber, ← hnumber]
      exact (hcivil haccepted).1
    · obtain ⟨htconvert, haccepted, -, htdate⟩ := hfst t ht
      rw [trunc_of_truncates htconvert hs, (hcivil haccepted).2.1]
      exact htdate
    · obtain ⟨htconvert, haccepted, -, -⟩ := hfst t ht
      rw [getDatePart_eq htconvert, hpart, (hcivil haccepted).2.2]

/-- The 400 years from 1970 on. -/
theorem InCycle.year_bounds (hd : d.InCycle) (h : convert d = .ok c) :
    1970 ≤ c.year ∧ c.year < 2370 := by
  obtain ⟨hvalid, hnumber⟩ := convert_eq_ok_iff.mp h
  obtain ⟨hmin, hmax⟩ := hd
  have hle := hvalid.daysBeforeYear_le
  have hlt := hvalid.dayNumber_lt_year
  rw [hnumber, dayNumber, epochDay_eq] at hle hlt
  constructor
  · by_contra hyear
    have hmono : daysBeforeYear (c.year + 1) ≤ 719162 :=
      daysBeforeYear_mono (show c.year + 1 ≤ 1970 by omega)
    omega
  · by_contra hyear
    have hmono : 865259 ≤ daysBeforeYear c.year :=
      daysBeforeYear_mono (show 2370 ≤ c.year by omega)
    omega

/-- The first day of a year does not come after a day of that or a later one. -/
theorem dayNumber_first_le (h : c.Valid) {year : ℤ} (hyear : year ≤ c.year) :
    Civil.dayNumber ⟨year, 1, 1⟩ ≤ c.dayNumber := by
  have hle := daysBeforeYear_mono hyear
  have hyear := h.daysBeforeYear_le
  simp only [Civil.dayNumber, daysBeforeMonth_one] at *
  omega

theorem dayNumber_first_month_le (h : c.Valid) {month : ℤ} (hmonth : month ≤ c.month) :
    Civil.dayNumber ⟨c.year, month, 1⟩ ≤ c.dayNumber := by
  have hle := @daysBeforeMonth_mono c.year _ _ hmonth
  have hmonth := h.daysBeforeMonth_le
  simp only [Civil.dayNumber] at *
  omega

theorem accepted_first {year : ℤ} (hpos : 0 < year) (hle : year < 2370) :
    Accepted ⟨year, 1, 1⟩ := by
  refine ⟨⟨le_refl _, by simp only; decide, le_refl _, monthLength_pos _ _⟩, ?_, ?_⟩
  · simp only [minYear]
    omega
  · simp only [maxYear]
    omega

/-- The beginning of the `n` years around a year. -/
theorem tdiv_mul_spec {n y : ℤ} (hn : 0 < n) (hy : n ≤ y) :
    0 < y.tdiv n * n ∧ y.tdiv n * n ≤ y ∧ (y.tdiv n * n).tdiv n = y.tdiv n ∧
      ((y.tdiv n * n - 1).tdiv n = (y - 1).tdiv n ↔ n ∣ y) := by
  have hquot : 1 ≤ y / n := Int.le_ediv_of_mul_le hn (by rwa [one_mul])
  have hle : n ≤ y / n * n := le_mul_of_one_le_left hn.le hquot
  have hdiv : y.tdiv n = y / n := Int.tdiv_eq_ediv_of_nonneg (by omega)
  have hlast : (y / n * n - 1).tdiv n = y / n - 1 := by
    rw [Int.tdiv_eq_ediv_of_nonneg (by omega), Int.ediv_eq_iff_of_pos hn, Int.sub_mul, one_mul]
    omega
  have hmul : y / n * n ≤ y := Int.ediv_mul_le y hn.ne'
  rw [hdiv]
  refine ⟨by omega, hmul, ?_, ?_⟩
  · rw [Int.tdiv_eq_ediv_of_nonneg (by omega), Int.mul_ediv_cancel _ hn.ne']
  · rw [hlast, Int.tdiv_eq_ediv_of_nonneg (by omega), eq_comm, Int.ediv_eq_iff_of_pos hn,
      Int.sub_mul, one_mul]
    constructor
    · intro hbounds
      exact ⟨y / n, by rw [mul_comm]; omega⟩
    · intro hdvd
      rw [Int.ediv_mul_cancel hdvd]
      omega

/-- Truncating agrees with the parts for the dates of `AgreesWhen`, and only for them. -/
theorem agrees_iff_agreesWhen (s : DatePartSpecifier) (d : Date) : Agrees s d ↔ AgreesWhen s d := by
  obtain ⟨c, hc, hvalid, -⟩ := exists_convert d
  have hmonth := hvalid.1
  have hyears (n : ℤ) : (∃ c', convert d = .ok c' ∧ n ∣ c'.year) ↔ n ∣ c.year := by
    constructor
    · rintro ⟨c', hc', hdvd⟩
      obtain rfl : c = c' := Except.ok.inj (hc.symm.trans hc')
      exact hdvd
    · exact fun hdvd ↦ ⟨c, hc, hdvd⟩
  cases s with
  | year =>
      rw [agrees_iff_of_truncates hc (by decide), or_iff_right (by decide), AgreesWhen]
      exact and_iff_left fun _ ↦ ⟨dayNumber_first_le hvalid (le_refl _), rfl, rfl⟩
  | month =>
      rw [agrees_iff_of_truncates hc (by decide), or_iff_right (by decide), AgreesWhen]
      exact and_iff_left fun _ ↦ ⟨dayNumber_first_month_le hvalid (le_refl _), rfl, rfl⟩
  | decade =>
      rw [agrees_iff_of_truncates hc (by decide), or_iff_right (by decide), AgreesWhen]
      refine and_iff_left_of_imp fun hcycle _ ↦ ?_
      obtain ⟨hmin, hmax⟩ := hcycle.year_bounds hc
      have hdiv : c.year.tdiv 10 = c.year / 10 := Int.tdiv_eq_ediv_of_nonneg (by omega)
      have hdiv' : (c.year / 10 * 10).tdiv 10 = c.year / 10 := by
        rw [Int.tdiv_eq_ediv_of_nonneg (by omega)]
        omega
      simp only [truncOf, partOf, hdiv, hdiv', and_true]
      exact dayNumber_first_le hvalid (by omega)
  | century =>
      rw [agrees_iff_of_truncates hc (by decide), or_iff_right (by decide), AgreesWhen, hyears]
      refine and_congr_right fun hcycle ↦ ?_
      simp only [truncOf]
      obtain ⟨hmin, hmax⟩ := hcycle.year_bounds hc
      obtain ⟨hpos, hle, htwice, hlast⟩ := @tdiv_mul_spec 100 c.year (by decide) (by omega)
      rw [imp_iff_right (accepted_first hpos (by omega)), ← hlast]
      simp only [partOf, htwice, if_pos hpos, if_pos (show 0 < c.year by omega)]
      rw [and_iff_right (dayNumber_first_le hvalid hle), and_iff_right trivial]
      omega
  | millennium =>
      rw [agrees_iff_of_truncates hc (by decide), or_iff_right (by decide), AgreesWhen, hyears]
      refine and_congr_right fun hcycle ↦ ?_
      simp only [truncOf]
      obtain ⟨hmin, hmax⟩ := hcycle.year_bounds hc
      obtain ⟨hpos, hle, htwice, hlast⟩ := @tdiv_mul_spec 1000 c.year (by decide) (by omega)
      rw [imp_iff_right (accepted_first hpos (by omega)), ← hlast]
      simp only [partOf, htwice, if_pos hpos, if_pos (show 0 < c.year by omega)]
      rw [and_iff_right (dayNumber_first_le hvalid hle), and_iff_right trivial]
      omega
  | quarter =>
      rw [agrees_iff_of_truncates hc (by decide)]
      refine iff_of_true ⟨.inl rfl, fun _ ↦ ?_⟩ trivial
      have hdiv : (c.month - 1).tdiv 3 = (c.month - 1) / 3 :=
        Int.tdiv_eq_ediv_of_nonneg (by omega)
      have hdiv' : (1 + (c.month - 1) / 3 * 3 - 1).tdiv 3 = (c.month - 1) / 3 := by
        rw [Int.tdiv_eq_ediv_of_nonneg (by omega)]
        omega
      simp only [truncOf, partOf, hdiv, hdiv', and_true]
      exact dayNumber_first_month_le hvalid (by omega)
  | _ => exact iff_of_true (agrees_of_not_truncates (by decide)) trivial

/-- The year of 1969-12-31 is 1969, and afterwards the date is 2369-12-31. -/
theorem not_agrees_lastDay : ¬∀ (s : DatePartSpecifier) (d : Date), Agrees s d := by
  intro h
  exact absurd (h .year ⟨-1⟩).getDatePart_snd (by decide +kernel)

end Date

end Graphflow
