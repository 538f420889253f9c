import Mathlib.Algebra.Order.BigOperators.Group.Finset
import Mathlib.Algebra.Order.Ring.Int
import Mathlib.Data.Int.Interval
import Mathlib.Data.Prod.Lex
import Mathlib.Tactic.IntervalCases

/-!
# The Gregorian calendar

The calendar in use today, continued in both directions; year 0 is the one before year 1.  Every
integer is the number of one day, and the numbers are in the order of the days.
-/

namespace Graphflow.Lib

/-- A year, a month and a day of the month, which need not exist. -/
@[ext]
structure Civil where
  year : ℤ
  month : ℤ
  day : ℤ
  deriving DecidableEq, Repr

namespace Civil

/-- Calendar order: by the year, then by the month, then by the day. -/
instance : LinearOrder Civil :=
  LinearOrder.lift' (fun c ↦ toLex (c.year, toLex (c.month, c.day))) fun a b h ↦ by
    obtain ⟨hyear, hrest⟩ := Prod.ext_iff.mp (toLex.injective h)
    obtain ⟨hmonth, hday⟩ := Prod.ext_iff.mp (toLex.injective hrest)
    exact Civil.ext hyear hmonth hday

theorem lt_iff {a b : Civil} : a < b ↔ a.year < b.year ∨ a.year = b.year ∧
    (a.month < b.month ∨ a.month = b.month ∧ a.day < b.day) := by
  change toLex (a.year, toLex (a.month, a.day)) < toLex (b.year, toLex (b.month, b.day)) ↔ _
  rw [Prod.Lex.toLex_lt_toLex, Prod.Lex.toLex_lt_toLex]

end Civil

/-! ## Lengths -/

def IsLeap (year : ℤ) : Prop := 4 ∣ year ∧ (¬100 ∣ year ∨ 400 ∣ year)

instance (year : ℤ) : Decidable (IsLeap year) :=
  inferInstanceAs (Decidable (4 ∣ year ∧ (¬100 ∣ year ∨ 400 ∣ year)))

def yearLength (year : ℤ) : ℤ := if IsLeap year then 366 else 365

def monthLength (year month : ℤ) : ℤ :=
  if month = 2 then if IsLeap year then 29 else 28
  else if month = 4 ∨ month = 6 ∨ month = 9 ∨ month = 11 then 30
  else 31

/-- The days from the beginning of year 1 to that of a year. -/
def daysBeforeYear (year : ℤ) : ℤ :=
  365 * (year - 1) + (year - 1) / 4 - (year - 1) / 100 + (year - 1) / 400

/-- The days from the beginning of a year to that of a month. -/
def daysBeforeMonth (year month : ℤ) : ℤ :=
  ∑ k ∈ Finset.range (month - 1).toNat, monthLength year (k + 1)

theorem monthLength_pos (year month : ℤ) : 0 < monthLength year month := by
  rw [monthLength]
  split_ifs <;> decide

theorem yearLength_le (year : ℤ) : yearLength year ≤ 366 := by
  rw [yearLength]
  split_ifs <;> decide

theorem daysBeforeYear_succ (year : ℤ) :
    daysBeforeYear (year + 1) = daysBeforeYear year + yearLength year := by
  simp only [daysBeforeYear, yearLength, IsLeap]
  split_ifs <;> omega

theorem daysBeforeMonth_one (year : ℤ) : daysBeforeMonth year 1 = 0 := by
  simp [daysBeforeMonth]

theorem daysBeforeMonth_succ {year month : ℤ} (h : 1 ≤ month) :
    daysBeforeMonth year (month + 1) = daysBeforeMonth year month + monthLength year month := by
  have hcount : (month + 1 - 1).toNat = (month - 1).toNat + 1 := by omega
  have hlast : ((month - 1).toNat : ℤ) + 1 = month := by omega
  rw [daysBeforeMonth, hcount, Finset.sum_range_succ, hlast, daysBeforeMonth]

theorem daysBeforeMonth_mono {year m n : ℤ} (h : m ≤ n) :
    daysBeforeMonth year m ≤ daysBeforeMonth year n := by
  apply Finset.sum_le_sum_of_subset_of_nonneg
  · intro k hk
    rw [Finset.mem_range] at hk ⊢
    omega
  · intro k _ _
    exact (monthLength_pos year _).le

/-- The twelve months fill the year. -/
theorem daysBeforeMonth_thirteen (year : ℤ) : daysBeforeMonth year 13 = yearLength year := by
  simp only [daysBeforeMonth, yearLength, monthLength]
  split_ifs <;> rfl

theorem daysBeforeYear_mono {m n : ℤ} (h : m ≤ n) : daysBeforeYear m ≤ daysBeforeYear n := by
  simp only [daysBeforeYear]
  omega

/-- Leap years come back after four hundred years. -/
theorem daysBeforeYear_add (year k : ℤ) :
    daysBeforeYear (year + 400 * k) = daysBeforeYear year + 146097 * k := by
  simp only [daysBeforeYear]
  omega

theorem isLeap_add (year k : ℤ) : IsLeap (year + 400 * k) ↔ IsLeap year := by
  simp only [IsLeap]
  omega

theorem monthLength_congr {a b month : ℤ} (h : IsLeap a ↔ IsLeap b) :
    monthLength a month = monthLength b month := by
  simp only [monthLength, h]

theorem daysBeforeMonth_congr {a b month : ℤ} (h : IsLeap a ↔ IsLeap b) :
    daysBeforeMonth a month = daysBeforeMonth b month :=
  Finset.sum_congr rfl fun _ _ ↦ monthLength_congr h

/-! ## The days of the calendar -/

namespace Civil

/-- The day exists. -/
def Valid (c : Civil) : Prop :=
  1 ≤ c.month ∧ c.month ≤ 12 ∧ 1 ≤ c.day ∧ c.day ≤ monthLength c.year c.month

instance (c : Civil) : Decidable c.Valid :=
  inferInstanceAs (Decidable (1 ≤ c.month ∧ c.month ≤ 12 ∧ 1 ≤ c.day ∧ c.day ≤ _))

/-- The days from the first one of year 1. -/
def dayNumber (c : Civil) : ℤ :=
  daysBeforeYear c.year + daysBeforeMonth c.year c.month + (c.day - 1)

def next (c : Civil) : Civil :=
  if c.day < monthLength c.year c.month then { c with day := c.day + 1 }
  else if c.month < 12 then { c with month := c.month + 1, day := 1 }
  else { year := c.year + 1, month := 1, day := 1 }

variable {a b c : Civil}

/-- A day lies within its month. -/
theorem Valid.dayNumber_lt_month (h : c.Valid) : c.dayNumber <
    daysBeforeYear c.year + daysBeforeMonth c.year (c.month + 1) := by
  obtain ⟨hmonth, -, -, hday⟩ := h
  rw [daysBeforeMonth_succ hmonth, dayNumber]
  omega

/-- A day lies within its year. -/
theorem Valid.dayNumber_lt_year (h : c.Valid) : c.dayNumber < daysBeforeYear (c.year + 1) := by
  have hmonth := h.dayNumber_lt_month
  have hlast : daysBeforeMonth c.year (c.month + 1) ≤ daysBeforeMonth c.year 13 :=
    daysBeforeMonth_mono (by have := h.2.1; omega)
  rw [daysBeforeMonth_thirteen] at hlast
  rw [daysBeforeYear_succ]
  omega

theorem Valid.daysBeforeYear_le (h : c.Valid) : daysBeforeYear c.year ≤ c.dayNumber := by
  have hfirst : daysBeforeMonth c.year 1 ≤ daysBeforeMonth c.year c.month :=
    daysBeforeMonth_mono h.1
  have hday := h.2.2.1
  rw [daysBeforeMonth_one] at hfirst
  rw [dayNumber]
  omega

theorem Valid.daysBeforeMonth_le (h : c.Valid) :
    daysBeforeYear c.year + daysBeforeMonth c.year c.month ≤ c.dayNumber := by
  have hday := h.2.2.1
  rw [dayNumber]
  omega

theorem Valid.dayNumber_lt (ha : a.Valid) (hb : b.Valid) (hlt : a < b) :
    a.dayNumber < b.dayNumber := by
  rcases lt_iff.mp hlt with hyear | ⟨hyear, hmonth | ⟨hmonth, hday⟩⟩
  · calc
      a.dayNumber < daysBeforeYear (a.year + 1) := ha.dayNumber_lt_year
      _ ≤ daysBeforeYear b.year := daysBeforeYear_mono hyear
      _ ≤ b.dayNumber := hb.daysBeforeYear_le
  · calc
      a.dayNumber < daysBeforeYear a.year + daysBeforeMonth a.year (a.month + 1) :=
        ha.dayNumber_lt_month
      _ ≤ daysBeforeYear a.year + daysBeforeMonth a.year b.month :=
        Int.add_le_add_left (daysBeforeMonth_mono hmonth) _
      _ ≤ b.dayNumber := by
        rw [hyear]
        exact hb.daysBeforeMonth_le
  · rw [dayNumber, dayNumber, hyear, hmonth]
    omega

theorem Valid.dayNumber_lt_iff (ha : a.Valid) (hb : b.Valid) :
    a.dayNumber < b.dayNumber ↔ a < b := by
  refine ⟨fun h ↦ ?_, ha.dayNumber_lt hb⟩
  rcases lt_trichotomy a b with hlt | rfl | hgt
  · exact hlt
  · exact absurd h (lt_irrefl _)
  · exact absurd (hb.dayNumber_lt ha hgt) h.not_gt

theorem Valid.eq_of_dayNumber_eq (ha : a.Valid) (hb : b.Valid) (h : a.dayNumber = b.dayNumber) :
    a = b := by
  rcases lt_trichotomy a b with hlt | rfl | hgt
  · exact absurd h (ha.dayNumber_lt hb hlt).ne
  · rfl
  · exact absurd h.symm (hb.dayNumber_lt ha hgt).ne

theorem Valid.next (h : c.Valid) : c.next.Valid := by
  obtain ⟨hmonth, hmonth', hday, hday'⟩ := h
  rw [Civil.next]
  split_ifs with hwithin hyear
  · exact ⟨hmonth, hmonth', by simp only; omega, hwithin⟩
  · exact ⟨by simp only; omega, hyear, le_refl _, monthLength_pos _ _⟩
  · exact ⟨le_refl _, by simp only; decide, le_refl _, monthLength_pos _ _⟩

theorem Valid.dayNumber_next (h : c.Valid) : c.next.dayNumber = c.dayNumber + 1 := by
  obtain ⟨hmonth, hmonth', hday, hday'⟩ := h
  rw [Civil.next]
  split_ifs with hwithin hyear
  · simp only [dayNumber]
    omega
  · simp only [dayNumber, daysBeforeMonth_succ hmonth]
    omega
  · have hlast : c.month = 12 := by omega
    have hyear' := @daysBeforeMonth_succ c.year _ hmonth
    rw [hlast] at hyear' hday' hwithin
    have htotal := daysBeforeMonth_thirteen c.year
    have hnext : daysBeforeMonth c.year (12 + 1) = yearLength c.year := htotal
    simp only [dayNumber, daysBeforeYear_succ, daysBeforeMonth_one, hlast]
    omega

/-! ### Adding months -/

/-- The day in the month some months later; the last day of that month if it is too short. -/
def addMonths (c : Civil) (months : ℤ) : Civil :=
  let n := 12 * c.year + (c.month - 1) + months
  let year := n / 12
  let month := n % 12 + 1
  { year, month, day := min c.day (monthLength year month) }

theorem Valid.addMonths (h : c.Valid) (months : ℤ) : (c.addMonths months).Valid := by
  have hday := h.2.2.1
  have hpos := monthLength_pos (c.addMonths months).year (c.addMonths months).month
  refine ⟨?_, ?_, le_min hday hpos, min_le_right _ _⟩
  · simp only [Civil.addMonths]
    omega
  · simp only [Civil.addMonths]
    omega

/-- Clipping the day keeps the order, but may make different days equal. -/
theorem Valid.addMonths_le (ha : a.Valid) (hb : b.Valid) (h : a ≤ b) (months : ℤ) :
    a.addMonths months ≤ b.addMonths months := by
  rcases h.eq_or_lt with rfl | hlt
  · exact le_refl _
  obtain ⟨ha₁, ha₁₂, -⟩ := ha
  obtain ⟨hb₁, hb₁₂, -⟩ := hb
  by_cases hsame : a.year = b.year ∧ a.month = b.month
  · have hday : a.day ≤ b.day := by
      rw [lt_iff] at hlt
      omega
    have hclipped := min_le_min_right
      (monthLength (b.addMonths months).year (b.addMonths months).month) hday
    simp only [← not_lt, lt_iff]
    simp only [Civil.addMonths, hsame.1, hsame.2] at hclipped ⊢
    omega
  · have hmonths : 12 * a.year + (a.month - 1) < 12 * b.year + (b.month - 1) := by
      rw [lt_iff] at hlt
      omega
    apply le_of_lt
    simp only [lt_iff, Civil.addMonths]
    omega

/-- If no day lies between two days, the second is the next one. -/
theorem Valid.dayNumber_eq_add_one (ha : a.Valid) (hb : b.Valid) (hlt : a < b)
    (hbetween : ∀ c : Civil, c.Valid → a < c → ¬c < b) : b.dayNumber = a.dayNumber + 1 := by
  have hle : a.dayNumber + 1 ≤ b.dayNumber := ha.dayNumber_lt hb hlt
  by_contra hne
  refine hbetween a.next ha.next ?_ ?_
  · rw [← ha.dayNumber_lt_iff ha.next, ha.dayNumber_next]
    omega
  · rw [← ha.next.dayNumber_lt_iff hb, ha.dayNumber_next]
    omega

end Civil

end Graphflow.Lib
