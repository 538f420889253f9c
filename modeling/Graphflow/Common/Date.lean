import Graphflow.Lib.Calendar
import Graphflow.Lib.Except

/-!
# Dates

`Date::FromDate` and `Date::Convert` turn years, months and days into the number of days since
1970-01-01 and back.  Both move the year into the 400 years from 1970 on and look the rest up in
tables.
-/

namespace Graphflow

open Lib

/-- `date_t`: the days since 1970-01-01. -/
@[ext]
structure Date where
  days : Int32
  deriving DecidableEq, Repr

/-- What the functions on dates and times throw; `outOfBounds` is a read behind a table. -/
inductive DateError
  | conversionException (message : String)
  | internalException (condition : String)
  | exception (message : String)
  | outOfBounds
  deriving DecidableEq, Repr

namespace Date

def minYear : ℤ := -290307

def maxYear : ℤ := 294247

def epochYear : ℤ := 1970

def yearInterval : ℤ := 400

def daysPerYearInterval : ℤ := 146097

/-! ## The tables -/

def normalDays : List ℤ :=
  [0, 31, 28, 31, 30, 31, 30, 31, 31, 30, 31, 30, 31]

def leapDays : List ℤ :=
  [0, 31, 29, 31, 30, 31, 30, 31, 31, 30, 31, 30, 31]

def cumulativeLeapDays : List ℤ :=
  [0, 31, 60, 91, 121, 152, 182, 213, 244, 274, 305, 335, 366]

def cumulativeDays : List ℤ :=
  [0, 31, 59, 90, 120, 151, 181, 212, 243, 273, 304, 334, 365]

def monthPerDayOfYear : List ℤ :=
  [1, 1, 1, 1, 1, 1, 1, 1, 1, 1, 1, 1, 1, 1, 1, 1, 1, 1, 1, 1, 1, 1, 1, 1, 1, 1, 1, 1, 1, 1, 1, 2,
    2, 2, 2, 2, 2, 2, 2, 2, 2, 2, 2, 2, 2, 2, 2, 2, 2, 2, 2, 2, 2, 2, 2, 2, 2, 2, 2, 3, 3, 3, 3, 3,
    3, 3, 3, 3, 3, 3, 3, 3, 3, 3, 3, 3, 3, 3, 3, 3, 3, 3, 3, 3, 3, 3, 3, 3, 3, 3, 4, 4, 4, 4, 4, 4,
    4, 4, 4, 4, 4, 4, 4, 4, 4, 4, 4, 4, 4, 4, 4, 4, 4, 4, 4, 4, 4, 4, 4, 4, 5, 5, 5, 5, 5, 5, 5, 5,
    5, 5, 5, 5, 5, 5, 5, 5, 5, 5, 5, 5, 5, 5, 5, 5, 5, 5, 5, 5, 5, 5, 5, 6, 6, 6, 6, 6, 6, 6, 6, 6,
    6, 6, 6, 6, 6, 6, 6, 6, 6, 6, 6, 6, 6, 6, 6, 6, 6, 6, 6, 6, 6, 7, 7, 7, 7, 7, 7, 7, 7, 7, 7, 7,
    7, 7, 7, 7, 7, 7, 7, 7, 7, 7, 7, 7, 7, 7, 7, 7, 7, 7, 7, 7, 8, 8, 8, 8, 8, 8, 8, 8, 8, 8, 8, 8,
    8, 8, 8, 8, 8, 8, 8, 8, 8, 8, 8, 8, 8, 8, 8, 8, 8, 8, 8, 9, 9, 9, 9, 9, 9, 9, 9, 9, 9, 9, 9, 9,
    9, 9, 9, 9, 9, 9, 9, 9, 9, 9, 9, 9, 9, 9, 9, 9, 9, 10, 10, 10, 10, 10, 10, 10, 10, 10, 10, 10,
    10, 10, 10, 10, 10, 10, 10, 10, 10, 10, 10, 10, 10, 10, 10, 10, 10, 10, 10, 10, 11, 11, 11, 11,
    11, 11, 11, 11, 11, 11, 11, 11, 11, 11, 11, 11, 11, 11, 11, 11, 11, 11, 11, 11, 11, 11, 11, 11,
    11, 11, 12, 12, 12, 12, 12, 12, 12, 12, 12, 12, 12, 12, 12, 12, 12, 12, 12, 12, 12, 12, 12, 12,
    12, 12, 12, 12, 12, 12, 12, 12, 12]

def leapMonthPerDayOfYear : List ℤ :=
  [1, 1, 1, 1, 1, 1, 1, 1, 1, 1, 1, 1, 1, 1, 1, 1, 1, 1, 1, 1, 1, 1, 1, 1, 1, 1, 1, 1, 1, 1, 1, 2,
    2, 2, 2, 2, 2, 2, 2, 2, 2, 2, 2, 2, 2, 2, 2, 2, 2, 2, 2, 2, 2, 2, 2, 2, 2, 2, 2, 2, 3, 3, 3, 3,
    3, 3, 3, 3, 3, 3, 3, 3, 3, 3, 3, 3, 3, 3, 3, 3, 3, 3, 3, 3, 3, 3, 3, 3, 3, 3, 3, 4, 4, 4, 4, 4,
    4, 4, 4, 4, 4, 4, 4, 4, 4, 4, 4, 4, 4, 4, 4, 4, 4, 4, 4, 4, 4, 4, 4, 4, 4, 5, 5, 5, 5, 5, 5, 5,
    5, 5, 5, 5, 5, 5, 5, 5, 5, 5, 5, 5, 5, 5, 5, 5, 5, 5, 5, 5, 5, 5, 5, 5, 6, 6, 6, 6, 6, 6, 6, 6,
    6, 6, 6, 6, 6, 6, 6, 6, 6, 6, 6, 6, 6, 6, 6, 6, 6, 6, 6, 6, 6, 6, 7, 7, 7, 7, 7, 7, 7, 7, 7, 7,
    7, 7, 7, 7, 7, 7, 7, 7, 7, 7, 7, 7, 7, 7, 7, 7, 7, 7, 7, 7, 7, 8, 8, 8, 8, 8, 8, 8, 8, 8, 8, 8,
    8, 8, 8, 8, 8, 8, 8, 8, 8, 8, 8, 8, 8, 8, 8, 8, 8, 8, 8, 8, 9, 9, 9, 9, 9, 9, 9, 9, 9, 9, 9, 9,
    9, 9, 9, 9, 9, 9, 9, 9, 9, 9, 9, 9, 9, 9, 9, 9, 9, 9, 10, 10, 10, 10, 10, 10, 10, 10, 10, 10,
    10, 10, 10, 10, 10, 10, 10, 10, 10, 10, 10, 10, 10, 10, 10, 10, 10, 10, 10, 10, 10, 11, 11, 11,
    11, 11, 11, 11, 11, 11, 11, 11, 11, 11, 11, 11, 11, 11, 11, 11, 11, 11, 11, 11, 11, 11, 11, 11,
    11, 11, 11, 12, 12, 12, 12, 12, 12, 12, 12, 12, 12, 12, 12, 12, 12, 12, 12, 12, 12, 12, 12, 12,
    12, 12, 12, 12, 12, 12, 12, 12, 12, 12]

def cumulativeYearDays : List ℤ :=
  [0, 365, 730, 1096, 1461, 1826, 2191, 2557, 2922, 3287, 3652, 4018, 4383, 4748, 5113, 5479, 5844,
    6209, 6574, 6940, 7305, 7670, 8035, 8401, 8766, 9131, 9496, 9862, 10227, 10592, 10957, 11323,
    11688, 12053, 12418, 12784, 13149, 13514, 13879, 14245, 14610, 14975, 15340, 15706, 16071,
    16436, 16801, 17167, 17532, 17897, 18262, 18628, 18993, 19358, 19723, 20089, 20454, 20819,
    21184, 21550, 21915, 22280, 22645, 23011, 23376, 23741, 24106, 24472, 24837, 25202, 25567,
    25933, 26298, 26663, 27028, 27394, 27759, 28124, 28489, 28855, 29220, 29585, 29950, 30316,
    30681, 31046, 31411, 31777, 32142, 32507, 32872, 33238, 33603, 33968, 34333, 34699, 35064,
    35429, 35794, 36160, 36525, 36890, 37255, 37621, 37986, 38351, 38716, 39082, 39447, 39812,
    40177, 40543, 40908, 41273, 41638, 42004, 42369, 42734, 43099, 43465, 43830, 44195, 44560,
    44926, 45291, 45656, 46021, 46387, 46752, 47117, 47482, 47847, 48212, 48577, 48942, 49308,
    49673, 50038, 50403, 50769, 51134, 51499, 51864, 52230, 52595, 52960, 53325, 53691, 54056,
    54421, 54786, 55152, 55517, 55882, 56247, 56613, 56978, 57343, 57708, 58074, 58439, 58804,
    59169, 59535, 59900, 60265, 60630, 60996, 61361, 61726, 62091, 62457, 62822, 63187, 63552,
    63918, 64283, 64648, 65013, 65379, 65744, 66109, 66474, 66840, 67205, 67570, 67935, 68301,
    68666, 69031, 69396, 69762, 70127, 70492, 70857, 71223, 71588, 71953, 72318, 72684, 73049,
    73414, 73779, 74145, 74510, 74875, 75240, 75606, 75971, 76336, 76701, 77067, 77432, 77797,
    78162, 78528, 78893, 79258, 79623, 79989, 80354, 80719, 81084, 81450, 81815, 82180, 82545,
    82911, 83276, 83641, 84006, 84371, 84736, 85101, 85466, 85832, 86197, 86562, 86927, 87293,
    87658, 88023, 88388, 88754, 89119, 89484, 89849, 90215, 90580, 90945, 91310, 91676, 92041,
    92406, 92771, 93137, 93502, 93867, 94232, 94598, 94963, 95328, 95693, 96059, 96424, 96789,
    97154, 97520, 97885, 98250, 98615, 98981, 99346, 99711, 100076, 100442, 100807, 101172, 101537,
    101903, 102268, 102633, 102998, 103364, 103729, 104094, 104459, 104825, 105190, 105555, 105920,
    106286, 106651, 107016, 107381, 107747, 108112, 108477, 108842, 109208, 109573, 109938, 110303,
    110669, 111034, 111399, 111764, 112130, 112495, 112860, 113225, 113591, 113956, 114321, 114686,
    115052, 115417, 115782, 116147, 116513, 116878, 117243, 117608, 117974, 118339, 118704, 119069,
    119435, 119800, 120165, 120530, 120895, 121260, 121625, 121990, 122356, 122721, 123086, 123451,
    123817, 124182, 124547, 124912, 125278, 125643, 126008, 126373, 126739, 127104, 127469, 127834,
    128200, 128565, 128930, 129295, 129661, 130026, 130391, 130756, 131122, 131487, 131852, 132217,
    132583, 132948, 133313, 133678, 134044, 134409, 134774, 135139, 135505, 135870, 136235, 136600,
    136966, 137331, 137696, 138061, 138427, 138792, 139157, 139522, 139888, 140253, 140618, 140983,
    141349, 141714, 142079, 142444, 142810, 143175, 143540, 143905, 144271, 144636, 145001, 145366,
    145732, 146097]

def entry (table : List ℤ) (i : ℤ) : Except DateError ℤ :=
  if i < 0 then throw .outOfBounds
  else
    match table[i.toNat]? with
    | some x => pure x
    | none => throw .outOfBounds

/-- `GF_ASSERT` -/
def gfAssert (condition : Bool) (name : String) : Except DateError Unit :=
  if condition then pure () else throw (.internalException name)

/-! ## From days to dates

The numbers are those of the code. -/

/-- The first loop of `ExtractYearOffset`. -/
def addYearIntervals (n year : ℤ) : ℤ × ℤ :=
  if n < 0 then addYearIntervals (n + daysPerYearInterval) (year - yearInterval) else (n, year)
termination_by (-n).toNat
decreasing_by
  simp only [daysPerYearInterval]
  omega

/-- The second loop of `ExtractYearOffset`. -/
def subYearIntervals (n year : ℤ) : ℤ × ℤ :=
  if daysPerYearInterval ≤ n then
    subYearIntervals (n - daysPerYearInterval) (year + yearInterval)
  else (n, year)
termination_by n.toNat
decreasing_by
  simp only [daysPerYearInterval] at *
  omega

/-- The third loop of `ExtractYearOffset`, which decrements `year_offset` until the year has begun
on day `n`. -/
def decrementYearOffset (n : ℤ) : ℕ → Except DateError ℤ
  | 0 => do
      if n < (← entry cumulativeYearDays 0) then throw (.internalException "year_offset >= 0")
      else pure 0
  | yearOffset + 1 => do
      if n < (← entry cumulativeYearDays (yearOffset + 1)) then decrementYearOffset n yearOffset
      else pure (yearOffset + 1)

/-- The three arguments of `ExtractYearOffset` are references: the day within the 400 years, the
year, and the year within the 400 years. -/
structure YearOffset where
  n : ℤ
  year : ℤ
  yearOffset : ℤ
  deriving DecidableEq, Repr

def extractYearOffset (n : ℤ) : Except DateError YearOffset := do
  let (n, year) := addYearIntervals n epochYear
  let (n, year) := subYearIntervals n year
  let yearOffset ← decrementYearOffset n (n / 365).toNat
  let start ← entry cumulativeYearDays yearOffset
  gfAssert (start ≤ n) "n >= Date::CUMULATIVE_YEAR_DAYS[year_offset]"
  pure { n, year := year + yearOffset, yearOffset }

/-- The branches of `Convert` for the two kinds of years, up to `day++`. -/
def monthAndDay (isLeapYear : Bool) (day : ℤ) : Except DateError (ℤ × ℤ) := do
  let month ← entry (if isLeapYear then leapMonthPerDayOfYear else monthPerDayOfYear) day
  let before ← entry (if isLeapYear then cumulativeLeapDays else cumulativeDays) (month - 1)
  pure (month, day - before + 1)

def convert (d : Date) : Except DateError Civil := do
  let { n, year, yearOffset } ← extractYearOffset d.days.toInt
  let start ← entry cumulativeYearDays yearOffset
  let day := n - start
  gfAssert (0 ≤ day ∧ day ≤ 365) "day >= 0 && day <= 365"
  let nextStart ← entry cumulativeYearDays (yearOffset + 1)
  let isLeapYear : Bool := nextStart - start = 366
  let (month, day) ← monthAndDay isLeapYear day
  let monthDays ← entry (if isLeapYear then leapDays else normalDays) month
  gfAssert (0 < day ∧ day ≤ monthDays)
    "day > 0 && day <= (is_leap_year ? Date::LEAP_DAYS[month] : Date::NORMAL_DAYS[month])"
  gfAssert (0 < month ∧ month ≤ 12) "month > 0 && month <= 12"
  pure { year, month, day }

/-! ## From dates to days -/

def isLeapYear (year : ℤ) : Bool :=
  year.tmod 4 = 0 ∧ (year.tmod 100 ≠ 0 ∨ year.tmod 400 = 0)

def isValid (year month day : ℤ) : Except DateError Bool :=
  if month < 1 ∨ 12 < month then pure false
  else if year < minYear ∨ maxYear < year then pure false
  else if day < 1 then pure false
  else do
    let monthDays ← entry (if isLeapYear year then leapDays else normalDays) month
    pure (day ≤ monthDays)

/-- The first loop of `FromDate`. -/
def addYears (year n : ℤ) : ℤ × ℤ :=
  if year < 1970 then addYears (year + yearInterval) (n - daysPerYearInterval) else (year, n)
termination_by (1970 - year).toNat
decreasing_by
  simp only [yearInterval]
  omega

/-- The second loop of `FromDate`. -/
def subYears (year n : ℤ) : ℤ × ℤ :=
  if 2370 ≤ year then subYears (year - yearInterval) (n + daysPerYearInterval) else (year, n)
termination_by (year - 1970).toNat
decreasing_by
  simp only [yearInterval] at *
  omega

def outOfRange (year month day : ℤ) : DateError :=
  .conversionException s!"Date out of range: {year}-{month}-{day}"

/-- `FromDate` after the check. -/
def daysOf (year month day : ℤ) : Except DateError ℤ := do
  let (year, n) := addYears year 0
  let (year, n) := subYears year n
  let yearDays ← entry cumulativeYearDays (year - 1970)
  let monthDays ← entry (if isLeapYear year then cumulativeLeapDays else cumulativeDays) (month - 1)
  pure (n + yearDays + monthDays + (day - 1))

def fromDate (year month day : ℤ) : Except DateError Date := do
  if ← isValid year month day then
    pure ⟨Int32.ofInt (← daysOf year month day)⟩
  else throw (outOfRange year month day)

/-! ## What the tables say -/

variable {year month day i n x : ℤ} {table : List ℤ}

theorem isLeapYear_iff : isLeapYear year ↔ IsLeap year := by
  simp only [isLeapYear, IsLeap, decide_eq_true_eq, Int.dvd_iff_tmod_eq_zero]

theorem entry_eq_ok (h₀ : 0 ≤ i) (h : table[i.toNat]? = some x) : entry table i = .ok x := by
  rw [entry, if_neg h₀.not_gt, h]
  rfl

theorem gfAssert_of {condition : Bool} {name : String} (h : condition = true) :
    gfAssert condition name = .ok () := by
  rw [gfAssert, if_pos h]
  rfl

theorem cumulativeYearDays_eq : cumulativeYearDays =
    (List.range 401).map fun i : ℕ ↦ daysBeforeYear (1970 + i) - daysBeforeYear 1970 := by
  decide +kernel

theorem entry_cumulativeYearDays (h₀ : 0 ≤ i) (h : i ≤ 400) : entry cumulativeYearDays i =
    .ok (daysBeforeYear (1970 + i) - daysBeforeYear 1970) := by
  apply entry_eq_ok h₀
  have hlt : i.toNat < 401 := by omega
  rw [cumulativeYearDays_eq, List.getElem?_map, List.getElem?_range hlt, Option.map_some,
    Int.toNat_of_nonneg h₀]

/-- The tables are for two kinds of years; 2000 and 2001 stand for them. -/
theorem isLeap_iff_example (year : ℤ) :
    (isLeapYear year ∧ (IsLeap year ↔ IsLeap 2000)) ∨
      (¬isLeapYear year ∧ (IsLeap year ↔ IsLeap 2001)) := by
  by_cases h : IsLeap year
  · exact .inl ⟨isLeapYear_iff.mpr h, iff_of_true h (by decide)⟩
  · exact .inr ⟨mt isLeapYear_iff.mp h, iff_of_false h (by decide)⟩

theorem monthDays_getElem? : ∀ i : ℕ, i < 12 →
    leapDays[i + 1]? = some (monthLength 2000 (i + 1)) ∧
      normalDays[i + 1]? = some (monthLength 2001 (i + 1)) := by
  decide +kernel

theorem entry_monthDays (h₁ : 1 ≤ month) (h₁₂ : month ≤ 12) :
    entry (if isLeapYear year then leapDays else normalDays) month =
      .ok (monthLength year month) := by
  apply entry_eq_ok (by omega)
  obtain ⟨i, hi, rfl⟩ : ∃ i : ℕ, i < 12 ∧ month = i + 1 := ⟨(month - 1).toNat, by omega, by omega⟩
  have htables := monthDays_getElem? i hi
  have hindex : ((i : ℤ) + 1).toNat = i + 1 := by omega
  rw [hindex]
  rcases isLeap_iff_example year with ⟨hyear, hexample⟩ | ⟨hyear, hexample⟩
  · rw [if_pos hyear, htables.1, monthLength_congr hexample]
  · rw [if_neg hyear, htables.2, monthLength_congr hexample]

theorem cumulativeMonthDays_getElem? : ∀ i : ℕ, i < 12 →
    cumulativeLeapDays[i]? = some (daysBeforeMonth 2000 (i + 1)) ∧
      cumulativeDays[i]? = some (daysBeforeMonth 2001 (i + 1)) := by
  decide +kernel

theorem entry_cumulativeMonthDays (h₁ : 1 ≤ month) (h₁₂ : month ≤ 12) :
    entry (if isLeapYear year then cumulativeLeapDays else cumulativeDays) (month - 1) =
      .ok (daysBeforeMonth year month) := by
  apply entry_eq_ok (by omega)
  obtain ⟨i, hi, rfl⟩ : ∃ i : ℕ, i < 12 ∧ month = i + 1 := ⟨(month - 1).toNat, by omega, by omega⟩
  have htables := cumulativeMonthDays_getElem? i hi
  rw [Int.add_sub_cancel, Int.toNat_natCast]
  rcases isLeap_iff_example year with ⟨hyear, hexample⟩ | ⟨hyear, hexample⟩
  · rw [if_pos hyear, htables.1, daysBeforeMonth_congr hexample]
  · rw [if_neg hyear, htables.2, daysBeforeMonth_congr hexample]

/-- The entry of a day is the month in which it lies. -/
theorem mem_monthPerDayOfYear : ∀ p ∈ monthPerDayOfYear.zipIdx, 1 ≤ p.1 ∧ p.1 ≤ 12 ∧
    daysBeforeMonth 2001 p.1 ≤ p.2 ∧ p.2 < daysBeforeMonth 2001 (p.1 + 1) := by
  decide +kernel

theorem mem_leapMonthPerDayOfYear : ∀ p ∈ leapMonthPerDayOfYear.zipIdx, 1 ≤ p.1 ∧ p.1 ≤ 12 ∧
    daysBeforeMonth 2000 p.1 ≤ p.2 ∧ p.2 < daysBeforeMonth 2000 (p.1 + 1) := by
  decide +kernel

theorem length_monthPerDayOfYear : monthPerDayOfYear.length = 365 := by decide +kernel

theorem length_leapMonthPerDayOfYear : leapMonthPerDayOfYear.length = 366 := by decide +kernel

theorem exists_entry_monthPerDay (h₀ : 0 ≤ i) (h : i < yearLength year) :
    ∃ month, entry (if isLeapYear year then leapMonthPerDayOfYear else monthPerDayOfYear) i =
      .ok month ∧ 1 ≤ month ∧ month ≤ 12 ∧ daysBeforeMonth year month ≤ i ∧
        i < daysBeforeMonth year (month + 1) := by
  obtain ⟨i, rfl⟩ := Int.eq_ofNat_of_zero_le h₀
  rcases isLeap_iff_example year with ⟨hyear, hexample⟩ | ⟨hyear, hexample⟩
  · rw [yearLength, if_pos (isLeapYear_iff.mp hyear)] at h
    have hlength : i < leapMonthPerDayOfYear.length := by
      rw [length_leapMonthPerDayOfYear]
      omega
    have hget := List.getElem?_eq_getElem hlength
    have hmonth := mem_leapMonthPerDayOfYear (_, i) (List.mem_zipIdx_iff_getElem?.mpr hget)
    refine ⟨leapMonthPerDayOfYear[i], ?_, ?_⟩
    · rw [if_pos hyear]
      exact entry_eq_ok h₀ hget
    · rwa [daysBeforeMonth_congr hexample, daysBeforeMonth_congr hexample]
  · rw [yearLength, if_neg (mt isLeapYear_iff.mpr hyear)] at h
    have hlength : i < monthPerDayOfYear.length := by
      rw [length_monthPerDayOfYear]
      omega
    have hget := List.getElem?_eq_getElem hlength
    have hmonth := mem_monthPerDayOfYear (_, i) (List.mem_zipIdx_iff_getElem?.mpr hget)
    refine ⟨monthPerDayOfYear[i], ?_, ?_⟩
    · rw [if_neg hyear]
      exact entry_eq_ok h₀ hget
    · rwa [daysBeforeMonth_congr hexample, daysBeforeMonth_congr hexample]

/-! ## The loops -/

/-- The two loops over `n` move it into the 400 years from 1970 on. -/
theorem subYearIntervals_addYearIntervals (n year : ℤ) :
    subYearIntervals (addYearIntervals n year).1 (addYearIntervals n year).2 =
      (n % 146097, year + 400 * (n / 146097)) := by
  have hsub (n year : ℤ) (h : 0 ≤ n) :
      subYearIntervals n year = (n % 146097, year + 400 * (n / 146097)) := by
    fun_induction subYearIntervals n year with
    | case1 n year hlt ih =>
        simp only [daysPerYearInterval, yearInterval] at *
        rw [ih (by omega), Prod.mk.injEq]
        omega
    | case2 n year hlt =>
        simp only [daysPerYearInterval] at hlt
        rw [Prod.mk.injEq]
        omega
  fun_induction addYearIntervals n year with
  | case1 n year hlt ih =>
      simp only [daysPerYearInterval, yearInterval] at *
      rw [ih, Prod.mk.injEq]
      omega
  | case2 n year hlt => exact hsub n year (by omega)

/-- The two loops over the year move it between 1970 and 2369. -/
theorem subYears_addYears (year n : ℤ) : subYears (addYears year n).1 (addYears year n).2 =
    (1970 + (year - 1970) % 400, n + 146097 * ((year - 1970) / 400)) := by
  have hsub (year n : ℤ) (h : 1970 ≤ year) : subYears year n =
      (1970 + (year - 1970) % 400, n + 146097 * ((year - 1970) / 400)) := by
    fun_induction subYears year n with
    | case1 year n hlt ih =>
        simp only [daysPerYearInterval, yearInterval] at *
        rw [ih (by omega), Prod.mk.injEq]
        omega
    | case2 year n hlt =>
        rw [Prod.mk.injEq]
        omega
  fun_induction addYears year n with
  | case1 year n hlt ih =>
      simp only [daysPerYearInterval, yearInterval] at *
      rw [ih, Prod.mk.injEq]
      omega
  | case2 year n hlt => exact hsub year n (by omega)

/-- The guess is never too small, and the loop stops in the year of the day. -/
theorem exists_decrementYearOffset (hn : 0 ≤ n) {k : ℕ} (hk : k ≤ 400)
    (hlt : n < daysBeforeYear (1970 + k + 1) - daysBeforeYear 1970) :
    ∃ i, decrementYearOffset n k = .ok i ∧ 0 ≤ i ∧ i ≤ k ∧
      daysBeforeYear (1970 + i) - daysBeforeYear 1970 ≤ n ∧
      n < daysBeforeYear (1970 + i + 1) - daysBeforeYear 1970 := by
  induction k with
  | zero =>
      refine ⟨0, ?_, le_refl _, le_refl _, by simpa using hn, hlt⟩
      rw [decrementYearOffset, entry_cumulativeYearDays (le_refl _) (by decide), ok_bind,
        if_neg (by simpa using hn)]
      rfl
  | succ k ih =>
      have hentry : entry cumulativeYearDays (k + 1) = _ :=
        entry_cumulativeYearDays (by omega) (by omega)
      rw [decrementYearOffset, hentry, ok_bind]
      split_ifs with hbefore
      · obtain ⟨i, hloop, h₀, hle, hbounds⟩ := ih (by omega) (by
          rw [Int.add_assoc]
          exact hbefore)
        exact ⟨i, hloop, h₀, by omega, hbounds⟩
      · exact ⟨k + 1, rfl, by omega, by omega, not_lt.mp hbefore, hlt⟩

/-! ## The number of a day -/

/-- The number of 1970-01-01 in the calendar. -/
def epochDay : ℤ := daysBeforeYear 1970

theorem epochDay_eq : epochDay = 719162 := rfl

/-- The number of the day in the calendar. -/
def dayNumber (d : Date) : ℤ := d.days.toInt + epochDay

/-- The loops end, and no assertion fails. -/
theorem exists_extractYearOffset (n : ℤ) : ∃ i, 0 ≤ i ∧ i < 400 ∧
    extractYearOffset n = .ok
      { n := n % 146097, year := 1970 + 400 * (n / 146097) + i, yearOffset := i } ∧
    daysBeforeYear (1970 + i) - epochDay ≤ n % 146097 ∧
    n % 146097 < daysBeforeYear (1970 + i + 1) - epochDay := by
  have hn : 0 ≤ n % 146097 := Int.emod_nonneg n (by decide)
  have hn' : n % 146097 < 146097 := Int.emod_lt_of_pos n (by decide)
  obtain ⟨i, hloop, h₀, hi, hle, hlt⟩ := exists_decrementYearOffset
    (k := (n % 146097 / 365).toNat) hn (by omega) (by
      simp only [daysBeforeYear]
      omega)
  have hi' : i < 400 := by
    simp only [daysBeforeYear] at hle
    omega
  refine ⟨i, h₀, hi', ?_, hle, hlt⟩
  have hloops := subYearIntervals_addYearIntervals n epochYear
  simp only [extractYearOffset, hloops, hloop, ok_bind, entry_cumulativeYearDays h₀ hi'.le,
    gfAssert_of (decide_eq_true hle)]
  rfl

theorem exists_monthAndDay (h₀ : 0 ≤ i) (h : i < yearLength year) :
    ∃ month day, 1 ≤ month ∧ month ≤ 12 ∧ 1 ≤ day ∧ day ≤ monthLength year month ∧
      i = daysBeforeMonth year month + (day - 1) ∧
      monthAndDay (isLeapYear year) i = .ok (month, day) := by
  obtain ⟨month, hmonth, h₁, h₁₂, hle, hlt⟩ := exists_entry_monthPerDay h₀ h
  have hbefore := @entry_cumulativeMonthDays year month h₁ h₁₂
  rw [daysBeforeMonth_succ h₁] at hlt
  refine ⟨month, i - daysBeforeMonth year month + 1, h₁, h₁₂, by omega, by omega, by omega, ?_⟩
  rw [monthAndDay, hmonth, ok_bind, hbefore]
  rfl

/-- `Convert` returns the day with the number. -/
theorem exists_convert (d : Date) :
    ∃ c : Civil, convert d = .ok c ∧ c.Valid ∧ c.dayNumber = d.dayNumber := by
  obtain ⟨i, h₀, hi, hoffset, hle, hlt⟩ := exists_extractYearOffset d.days.toInt
  generalize hyear : (1970 : ℤ) + 400 * (d.days.toInt / 146097) + i = year at hoffset
  have hleap : IsLeap (1970 + i) ↔ IsLeap year := by
    rw [← hyear, ← isLeap_add (1970 + i) (d.days.toInt / 146097)]
    apply iff_of_eq
    congr 1
    omega
  have hstart : daysBeforeYear year =
      daysBeforeYear (1970 + i) + 146097 * (d.days.toInt / 146097) := by
    rw [← hyear, ← daysBeforeYear_add]
    congr 1
    omega
  have hlength : yearLength (1970 + i) = yearLength year := by
    simp only [yearLength, hleap]
  have hnext : daysBeforeYear (1970 + (i + 1)) =
      daysBeforeYear (1970 + i) + yearLength year := by
    rw [← hlength, ← daysBeforeYear_succ, Int.add_assoc]
  have hend : daysBeforeYear (1970 + i + 1) = daysBeforeYear (1970 + i) + yearLength year := by
    rw [daysBeforeYear_succ, hlength]
  have hquot := Int.emod_add_mul_ediv d.days.toInt 146097
  generalize hn : d.days.toInt % 146097 = n at *
  obtain ⟨month, day, h₁, h₁₂, hday, hday', hsum, hmonth⟩ := @exists_monthAndDay
    year (n - (daysBeforeYear (1970 + i) - daysBeforeYear 1970))
    (by rw [epochDay] at hle; omega) (by rw [epochDay, hend] at hlt; omega)
  refine ⟨⟨year, month, day⟩, ?_, ⟨h₁, h₁₂, hday, hday'⟩, ?_⟩
  · have hleapYear : decide (daysBeforeYear (1970 + (i + 1)) - daysBeforeYear 1970 -
        (daysBeforeYear (1970 + i) - daysBeforeYear 1970) = 366) = isLeapYear year := by
      rw [Bool.eq_iff_iff, decide_eq_true_eq, isLeapYear_iff, hnext, yearLength]
      split_ifs with hyear
      · exact iff_of_true (by omega) hyear
      · exact iff_of_false (by omega) hyear
    have hrange : (0 : ℤ) ≤ n - (daysBeforeYear (1970 + i) - daysBeforeYear 1970) ∧
        n - (daysBeforeYear (1970 + i) - daysBeforeYear 1970) ≤ 365 := by
      rw [epochDay] at hle hlt
      have := yearLength_le year
      omega
    have hstartEntry := entry_cumulativeYearDays h₀ hi.le
    have hnextEntry := entry_cumulativeYearDays (show 0 ≤ i + 1 by omega) (by omega)
    have hdayRange : 0 < day ∧ day ≤ monthLength year month := ⟨hday, hday'⟩
    have hmonthRange : 0 < month ∧ month ≤ 12 := ⟨h₁, h₁₂⟩
    simp only [convert, hoffset, ok_bind, hstartEntry, hnextEntry, hleapYear, hmonth,
      entry_monthDays h₁ h₁₂, gfAssert_of (decide_eq_true hrange),
      gfAssert_of (decide_eq_true hdayRange), gfAssert_of (decide_eq_true hmonthRange)]
    rfl
  · simp only [Civil.dayNumber, dayNumber, hstart, epochDay]
    omega

theorem dayNumber_injective {d e : Date} (h : d.dayNumber = e.dayNumber) : d = e := by
  rw [dayNumber, dayNumber] at h
  exact Date.ext (Int32.toInt_inj.mp (by omega))

theorem convert_eq_ok_iff {d : Date} {c : Civil} :
    convert d = .ok c ↔ c.Valid ∧ c.dayNumber = d.dayNumber := by
  obtain ⟨c', hconvert, hvalid, hnumber⟩ := exists_convert d
  rw [hconvert, Except.ok.injEq]
  constructor
  · rintro rfl
    exact ⟨hvalid, hnumber⟩
  · rintro ⟨hc, hcd⟩
    exact hvalid.eq_of_dayNumber_eq hc (hnumber.trans hcd.symm)

/-- The days that `IsValid` accepts. -/
def Accepted (c : Civil) : Prop := c.Valid ∧ minYear ≤ c.year ∧ c.year ≤ maxYear

instance (c : Civil) : Decidable (Accepted c) :=
  inferInstanceAs (Decidable (c.Valid ∧ minYear ≤ c.year ∧ c.year ≤ maxYear))

theorem accepted_iff : Accepted ⟨year, month, day⟩ ↔ (1 ≤ month ∧ month ≤ 12) ∧
    (minYear ≤ year ∧ year ≤ maxYear) ∧ 1 ≤ day ∧ day ≤ monthLength year month := by
  constructor
  · rintro ⟨⟨h₁, h₁₂, hday⟩, hyear⟩
    exact ⟨⟨h₁, h₁₂⟩, hyear, hday⟩
  · rintro ⟨⟨h₁, h₁₂⟩, hyear, hday⟩
    exact ⟨⟨h₁, h₁₂, hday⟩, hyear⟩

theorem isValid_eq (year month day : ℤ) :
    isValid year month day = .ok (decide (Accepted ⟨year, month, day⟩)) := by
  simp only [accepted_iff]
  by_cases hmonth : month < 1 ∨ 12 < month
  · rw [isValid, if_pos hmonth, decide_eq_false (by omega)]
    rfl
  by_cases hyear : year < minYear ∨ maxYear < year
  · rw [isValid, if_neg hmonth, if_pos hyear, decide_eq_false (by omega)]
    rfl
  by_cases hday : day < 1
  · rw [isValid, if_neg hmonth, if_neg hyear, if_pos hday, decide_eq_false (by omega)]
    rfl
  rw [isValid, if_neg hmonth, if_neg hyear, if_neg hday, entry_monthDays (by omega) (by omega),
    ok_bind]
  apply congrArg Except.ok
  rw [decide_eq_decide]
  omega

theorem daysOf_eq (h : Civil.Valid ⟨year, month, day⟩) :
    daysOf year month day = .ok (Civil.dayNumber ⟨year, month, day⟩ - epochDay) := by
  have hloops := subYears_addYears year 0
  have hyear : year = 1970 + (year - 1970) % 400 + 400 * ((year - 1970) / 400) := by omega
  generalize hcycle : 1970 + (year - 1970) % 400 = cycleYear at hloops hyear
  have hentry := entry_cumulativeYearDays (show 0 ≤ cycleYear - 1970 by omega) (by omega)
  have hbefore := @entry_cumulativeMonthDays cycleYear month h.1 h.2.1
  have hstart : daysBeforeYear year = daysBeforeYear cycleYear +
      146097 * ((year - 1970) / 400) := by
    rw [← daysBeforeYear_add, ← hyear]
  have hmonth : daysBeforeMonth cycleYear month = daysBeforeMonth year month := by
    apply daysBeforeMonth_congr
    rw [hyear, isLeap_add]
  simp only [daysOf, hloops, hentry, ok_bind, hbefore, pure_eq_ok]
  apply congrArg Except.ok
  have hstart' : (1970 : ℤ) + (cycleYear - 1970) = cycleYear := by omega
  simp only [Civil.dayNumber, hstart, hmonth, epochDay, hstart']
  omega

theorem fromDate_of_not_accepted (h : ¬Accepted ⟨year, month, day⟩) :
    fromDate year month day = .error (outOfRange year month day) := by
  rw [fromDate, isValid_eq, ok_bind, decide_eq_false h]
  rfl

/-- The accepted days are numbered within the range of `int32_t`. -/
theorem Accepted.dayNumber_bounds {c : Civil} (h : Accepted c) :
    -106751981 ≤ c.dayNumber - epochDay ∧ c.dayNumber - epochDay ≤ 106752346 := by
  obtain ⟨hvalid, hmin, hmax⟩ := h
  have hle := hvalid.daysBeforeYear_le
  have hlt := hvalid.dayNumber_lt_year
  simp only [daysBeforeYear, minYear, maxYear, epochDay_eq] at *
  omega

theorem fromDate_of_accepted (h : Accepted ⟨year, month, day⟩) : fromDate year month day =
    .ok ⟨Int32.ofInt (Civil.dayNumber ⟨year, month, day⟩ - epochDay)⟩ := by
  rw [fromDate, isValid_eq, ok_bind, decide_eq_true h, if_pos rfl, daysOf_eq h.1]
  rfl

/-- `FromDate` returns the date with the number of the day. -/
theorem fromDate_eq_ok_iff {d : Date} : fromDate year month day = .ok d ↔
    Accepted ⟨year, month, day⟩ ∧ Civil.dayNumber ⟨year, month, day⟩ = d.dayNumber := by
  by_cases h : Accepted ⟨year, month, day⟩
  · obtain ⟨hmin, hmax⟩ := h.dayNumber_bounds
    have hnumber : (⟨Int32.ofInt (Civil.dayNumber ⟨year, month, day⟩ - epochDay)⟩ :
        Date).dayNumber = Civil.dayNumber ⟨year, month, day⟩ := by
      rw [dayNumber, Int32.toInt_ofInt_of_le (by omega) (by omega)]
      omega
    rw [fromDate_of_accepted h, Except.ok.injEq]
    constructor
    · rintro rfl
      exact ⟨h, hnumber.symm⟩
    · rintro ⟨-, heq⟩
      exact dayNumber_injective (hnumber.trans heq)
  · rw [fromDate_of_not_accepted h]
    exact iff_of_false (fun heq ↦ by cases heq) fun hd ↦ h hd.1

theorem exists_fromDate {c : Civil} (h : Accepted c) :
    ∃ d, fromDate c.year c.month c.day = .ok d :=
  ⟨_, fromDate_of_accepted h⟩

theorem fromDate_civil_eq_ok_iff {c : Civil} {d : Date} :
    fromDate c.year c.month c.day = .ok d ↔ Accepted c ∧ c.dayNumber = d.dayNumber :=
  fromDate_eq_ok_iff

theorem accepted_of_isValid {c : Civil} (h : isValid c.year c.month c.day = .ok true) :
    Accepted c := by
  rw [isValid_eq, Except.ok.injEq] at h
  exact of_decide_eq_true h

theorem isValid_of_accepted {c : Civil} (h : Accepted c) :
    isValid c.year c.month c.day = .ok true := by
  rw [isValid_eq, decide_eq_true h]

theorem convert_of_fromDate {c : Civil} {d : Date} (h : fromDate c.year c.month c.day = .ok d) :
    convert d = .ok c := by
  obtain ⟨haccepted, hnumber⟩ := fromDate_civil_eq_ok_iff.mp h
  exact convert_eq_ok_iff.mpr ⟨haccepted.1, hnumber⟩

theorem days_eq_sub (d : Date) : d.days.toInt = d.dayNumber - epochDay := by
  rw [dayNumber]
  omega

theorem fromDate_lt_iff {a b : Civil} {d e : Date} (ha : fromDate a.year a.month a.day = .ok d)
    (hb : fromDate b.year b.month b.day = .ok e) : d.days < e.days ↔ a < b := by
  obtain ⟨haccepted, hnumber⟩ := fromDate_civil_eq_ok_iff.mp ha
  obtain ⟨hbccepted, hbnumber⟩ := fromDate_civil_eq_ok_iff.mp hb
  rw [← haccepted.1.dayNumber_lt_iff hbccepted.1, Int32.lt_iff_toInt_lt, days_eq_sub, days_eq_sub,
    ← hnumber, ← hbnumber]
  exact Int.sub_lt_sub_right_iff

theorem fromDate_next {a b : Civil} {d e : Date} (ha : fromDate a.year a.month a.day = .ok d)
    (hb : fromDate b.year b.month b.day = .ok e) (hlt : a < b)
    (hbetween : ∀ c : Civil, Accepted c → a < c → ¬c < b) : e.days.toInt = d.days.toInt + 1 := by
  obtain ⟨⟨havalid, hamin, hamax⟩, hnumber⟩ := fromDate_civil_eq_ok_iff.mp ha
  obtain ⟨⟨hbvalid, hbmin, hbmax⟩, hbnumber⟩ := fromDate_civil_eq_ok_iff.mp hb
  have hnext : b.dayNumber = a.dayNumber + 1 := by
    apply havalid.dayNumber_eq_add_one hbvalid hlt
    intro c hc hac hcb
    have hyears : a.year ≤ c.year ∧ c.year ≤ b.year := by
      rw [Civil.lt_iff] at hac hcb
      omega
    exact hbetween c ⟨hc, by omega, by omega⟩ hac hcb
  rw [days_eq_sub, days_eq_sub, ← hnumber, ← hbnumber]
  omega

/-- Converting dates is an order isomorphism that counts the days from 1970-01-01 on; the loops
end, and no assertion fails. -/
theorem fromDate_convert_orderIso :
    (∀ c : Civil, isValid c.year c.month c.day = .ok true →
      ∃ d, fromDate c.year c.month c.day = .ok d ∧ convert d = .ok c) ∧
    (∀ (a b : Civil) (d e : Date), fromDate a.year a.month a.day = .ok d →
      fromDate b.year b.month b.day = .ok e → (d.days < e.days ↔ a < b)) ∧
    (∀ a b : Civil, isValid a.year a.month a.day = .ok true →
      isValid b.year b.month b.day = .ok true → a < b →
      (∀ c : Civil, isValid c.year c.month c.day = .ok true → a < c → ¬c < b) →
      ∃ d e, fromDate a.year a.month a.day = .ok d ∧ fromDate b.year b.month b.day = .ok e ∧
        e.days.toInt = d.days.toInt + 1) ∧
    fromDate 1970 1 1 = .ok ⟨0⟩ ∧
    (∀ (c : Civil) (d : Date), fromDate c.year c.month c.day = .ok d →
      ∃ c' : Civil, convert d = .ok c' ∧ fromDate c'.year c'.month c'.day = .ok d) ∧
    (∀ n : Int32, ∃ result, extractYearOffset n.toInt = .ok result) ∧
    ∀ d : Date, ∃ c, convert d = .ok c := by
  refine ⟨fun c hc ↦ ?_, fun a b d e ha hb ↦ fromDate_lt_iff ha hb,
    fun a b ha hb hlt hbetween ↦ ?_, by decide +kernel, fun c d h ↦ ?_, fun n ↦ ?_, fun d ↦ ?_⟩
  · obtain ⟨d, hd⟩ := exists_fromDate (accepted_of_isValid hc)
    exact ⟨d, hd, convert_of_fromDate hd⟩
  · obtain ⟨d, hd⟩ := exists_fromDate (accepted_of_isValid ha)
    obtain ⟨e, he⟩ := exists_fromDate (accepted_of_isValid hb)
    exact ⟨d, e, hd, he, fromDate_next hd he hlt fun c hc ↦ hbetween c (isValid_of_accepted hc)⟩
  · exact ⟨c, convert_of_fromDate h, h⟩
  · obtain ⟨i, -, -, h, -⟩ := exists_extractYearOffset n.toInt
    exact ⟨_, h⟩
  · obtain ⟨c, h, -⟩ := exists_convert d
    exact ⟨c, h⟩

end Date

end Graphflow
