import Mathlib.Algebra.Ring.Int.Defs
import Mathlib.Data.Int.Notation
import Mathlib.Data.Prod.Lex
import Mathlib.Order.Defs.LinearOrder
import Mathlib.Tactic.Common

/-!
# Comparing intervals

The operators of `interval_t`.  `==` compares the fields, `>` compares entries that
`NormalizeIntervalEntries` has made of them, and the other operators are made of these two.
Normalising keeps the duration of an interval, but it carries the days and the microseconds
separately: the days may still be more than a month.
-/

namespace Graphflow

structure Interval where
  months : Int32
  days : Int32
  micros : Int64
  deriving DecidableEq, Repr

namespace Interval

def daysPerMonth : ℤ := 30

def microsPerDay : ℤ := 86400000000

def microsPerMonth : ℤ := microsPerDay * daysPerMonth

/-- The three results of `NormalizeIntervalEntries`. -/
structure Entries where
  months : ℤ
  days : ℤ
  micros : ℤ
  deriving DecidableEq, Repr

/-- Division rounds to zero.  Nothing leaves the range of its type, see `inRange`. -/
def normalizeIntervalEntries (input : Interval) : Entries :=
  let extraMonthsD := input.days.toInt.tdiv daysPerMonth
  let extraMonthsMicros := input.micros.toInt.tdiv microsPerMonth
  let days := input.days.toInt - extraMonthsD * daysPerMonth
  let micros := input.micros.toInt - extraMonthsMicros * microsPerMonth
  let extraDaysMicros := micros.tdiv microsPerDay
  { months := input.months.toInt + extraMonthsD + extraMonthsMicros
    days := days + extraDaysMicros
    micros := micros - extraDaysMicros * microsPerDay }

def greaterThan (left right : Interval) : Bool :=
  let l := left.normalizeIntervalEntries
  let r := right.normalizeIntervalEntries
  if l.months > r.months then true
  else if l.months < r.months then false
  else if l.days > r.days then true
  else if l.days < r.days then false
  else l.micros > r.micros

def eq (lhs rhs : Interval) : Bool :=
  lhs.days == rhs.days && lhs.months == rhs.months && lhs.micros == rhs.micros

def gt (lhs rhs : Interval) : Bool := lhs.greaterThan rhs

def le (lhs rhs : Interval) : Bool := !lhs.gt rhs

def ge (lhs rhs : Interval) : Bool := lhs.gt rhs || lhs.eq rhs

def lt (lhs rhs : Interval) : Bool := !lhs.ge rhs

/-- A month counts as 30 days. -/
def duration (a : Interval) : ℤ :=
  a.months.toInt * microsPerMonth + a.days.toInt * microsPerDay + a.micros.toInt

variable {a b c : Interval}

/-! ## Normalising -/

theorem duration_eq (a : Interval) : a.duration =
    a.normalizeIntervalEntries.months * microsPerMonth +
      a.normalizeIntervalEntries.days * microsPerDay + a.normalizeIntervalEntries.micros := by
  simp only [duration, normalizeIntervalEntries, microsPerMonth, microsPerDay, daysPerMonth]
  omega

theorem sub_tdiv_mul_bounds {k : ℤ} (hk : 0 < k) (x : ℤ) :
    -k < x - x.tdiv k * k ∧ x - x.tdiv k * k < k := by
  have hrem : x.tmod k = x - x.tdiv k * k := by rw [Int.tmod_def, Int.mul_comm]
  rw [← hrem]
  exact ⟨Int.lt_tmod_of_pos x hk, Int.tmod_lt_of_pos x hk⟩

/-- What is assigned to `input.days` is an `int32_t`, and the results are `int64_t`s. -/
theorem inRange (a : Interval) :
    -30 < a.days.toInt - a.days.toInt.tdiv daysPerMonth * daysPerMonth ∧
      a.days.toInt - a.days.toInt.tdiv daysPerMonth * daysPerMonth < 30 ∧
      -2 ^ 33 < a.normalizeIntervalEntries.months ∧ a.normalizeIntervalEntries.months < 2 ^ 33 ∧
      -60 < a.normalizeIntervalEntries.days ∧ a.normalizeIntervalEntries.days < 60 ∧
      -microsPerDay < a.normalizeIntervalEntries.micros ∧
      a.normalizeIntervalEntries.micros < microsPerDay := by
  have hmonths := a.months.toInt_lt
  have hmonths' := a.months.le_toInt
  have hdays := a.days.toInt_lt
  have hdays' := a.days.le_toInt
  have hmicros := a.micros.toInt_lt
  have hmicros' := a.micros.le_toInt
  simp only [normalizeIntervalEntries, microsPerMonth, microsPerDay, daysPerMonth]
  have hdaysRest := sub_tdiv_mul_bounds (by decide : (0 : ℤ) < 30) a.days.toInt
  have hmicrosRest := sub_tdiv_mul_bounds (by decide : (0 : ℤ) < 86400000000 * 30) a.micros.toInt
  have hrest := sub_tdiv_mul_bounds (by decide : (0 : ℤ) < 86400000000)
    (a.micros.toInt - a.micros.toInt.tdiv (86400000000 * 30) * (86400000000 * 30))
  refine ⟨?_, ?_, ?_, ?_, ?_, ?_, ?_, ?_⟩ <;> omega

/-! ## The order of the entries -/

/-- The entries in the lexicographic order. -/
def key (a : Interval) : ℤ ×ₗ ℤ ×ₗ ℤ :=
  toLex (a.normalizeIntervalEntries.months,
    toLex (a.normalizeIntervalEntries.days, a.normalizeIntervalEntries.micros))

theorem key_eq_iff :
    a.key = b.key ↔ a.normalizeIntervalEntries = b.normalizeIntervalEntries := by
  rw [key, key, toLex_inj, Prod.mk.injEq, toLex_inj, Prod.mk.injEq, Entries.mk.injEq]

theorem key_lt_iff : a.key < b.key ↔
    a.normalizeIntervalEntries.months < b.normalizeIntervalEntries.months ∨
      a.normalizeIntervalEntries.months = b.normalizeIntervalEntries.months ∧
        (a.normalizeIntervalEntries.days < b.normalizeIntervalEntries.days ∨
          a.normalizeIntervalEntries.days = b.normalizeIntervalEntries.days ∧
            a.normalizeIntervalEntries.micros < b.normalizeIntervalEntries.micros) := by
  simp only [key, Prod.Lex.toLex_lt_toLex]

theorem eq_iff : a.eq b ↔ a = b := by
  obtain ⟨months, days, micros⟩ := a
  obtain ⟨months', days', micros'⟩ := b
  simp only [eq, Bool.and_eq_true, beq_iff_eq, Interval.mk.injEq]
  constructor
  · rintro ⟨⟨hdays, hmonths⟩, hmicros⟩
    exact ⟨hmonths, hdays, hmicros⟩
  · rintro ⟨hmonths, hdays, hmicros⟩
    exact ⟨⟨hdays, hmonths⟩, hmicros⟩

theorem gt_iff : a.gt b ↔ b.key < a.key := by
  rw [key_lt_iff]
  simp only [gt, greaterThan]
  split_ifs <;> simp <;> omega

theorem le_iff : a.le b ↔ a.key ≤ b.key := by
  rw [le, Bool.not_eq_true', ← Bool.not_eq_true, gt_iff, not_lt]

theorem ge_iff : a.ge b ↔ b.key < a.key ∨ a = b := by
  rw [ge, Bool.or_eq_true, gt_iff, eq_iff]

theorem lt_iff : a.lt b ↔ a.key ≤ b.key ∧ a ≠ b := by
  rw [lt, Bool.not_eq_true', ← Bool.not_eq_true, ge_iff, not_or, not_lt]

/-! ## The operators as an order -/

/-- What a total order by durations says of three intervals. -/
structure OrderedByDuration (a b c : Interval) : Prop where
  exactlyOne : a.lt b ∧ ¬ a.eq b ∧ ¬ a.gt b ∨ ¬ a.lt b ∧ a.eq b ∧ ¬ a.gt b ∨
    ¬ a.lt b ∧ ¬ a.eq b ∧ a.gt b
  converse : (a.lt b ↔ b.gt a) ∧ (b.lt a ↔ a.gt b)
  lt_trans : a.lt b → b.lt c → a.lt c
  gt_trans : a.gt b → b.gt c → a.gt c
  le_iff_lt_or_eq : a.le b ↔ a.lt b ∨ a.eq b
  ge_iff_gt_or_eq : a.ge b ↔ a.gt b ∨ a.eq b
  gt_iff_duration : (a.gt b ↔ b.duration < a.duration) ∧ (b.gt a ↔ a.duration < b.duration)

/-- The first of the entries in which `b` is ahead is made up for by the entries behind it. -/
def Overtakes (a b : Interval) : Prop :=
  let l := a.normalizeIntervalEntries
  let r := b.normalizeIntervalEntries
  l.months < r.months ∧
      (r.months - l.months) * microsPerMonth ≤
        (l.days - r.days) * microsPerDay + (l.micros - r.micros) ∨
    l.months = r.months ∧ l.days < r.days ∧
      (r.days - l.days) * microsPerDay ≤ l.micros - r.micros

theorem overtakes_iff : a.Overtakes b ↔ a.key < b.key ∧ b.duration ≤ a.duration := by
  rw [key_lt_iff, duration_eq, duration_eq, Overtakes]
  simp only [microsPerMonth, microsPerDay, daysPerMonth]
  omega

/-- The operators are a total order by durations exactly on the intervals whose normalised entries
tell them apart and are not made up for by later entries. -/
theorem orderedByDuration_iff (a b c : Interval) : OrderedByDuration a b c ↔
    (a.normalizeIntervalEntries = b.normalizeIntervalEntries → a = b) ∧
      ¬ a.Overtakes b ∧ ¬ b.Overtakes a := by
  rw [overtakes_iff, overtakes_iff, ← key_eq_iff]
  constructor
  · intro h
    refine ⟨?_, ?_, ?_⟩
    · intro hkey
      by_contra hne
      have hlt := h.converse.1.mp (lt_iff.mpr ⟨hkey.le, hne⟩)
      exact (gt_iff.mp hlt).ne hkey
    · rintro ⟨hlt, hle⟩
      exact (h.gt_iff_duration.2.mp (gt_iff.mpr hlt)).not_ge hle
    · rintro ⟨hlt, hle⟩
      exact (h.gt_iff_duration.1.mp (gt_iff.mpr hlt)).not_ge hle
  · rintro ⟨hsame, hab, hba⟩
    rw [not_and, not_le] at hab hba
    -- Different intervals have different entries, so that `<` is the order of the entries.
    have hlt : ∀ x y : Interval, (x.key = y.key → x = y) → (x.lt y ↔ x.key < y.key) := by
      intro x y hxy
      rw [lt_iff, lt_iff_le_and_ne]
      refine and_congr_right fun _ ↦ not_congr ⟨fun h ↦ congrArg key h, hxy⟩
    have hlt_ab := hlt a b hsame
    have hlt_ba := hlt b a fun h ↦ (hsame h.symm).symm
    have hduration : a.key = b.key → a.duration = b.duration := fun h ↦
      congrArg duration (hsame h)
    refine ⟨?_, ⟨?_, ?_⟩, ?_, ?_, ?_, ?_, ?_, ?_⟩
    · rw [hlt_ab, gt_iff, eq_iff]
      rcases lt_trichotomy a.key b.key with h | h | h
      · exact Or.inl ⟨h, fun heq ↦ h.ne (congrArg key heq), h.not_gt⟩
      · exact Or.inr (Or.inl ⟨h.not_lt, hsame h, h.not_gt⟩)
      · exact Or.inr (Or.inr ⟨h.not_gt, fun heq ↦ h.ne (congrArg key heq).symm, h⟩)
    · rw [hlt_ab, gt_iff]
    · rw [hlt_ba, gt_iff]
    · intro h h'
      have hac : a.key < c.key := (hlt_ab.mp h).trans_le (lt_iff.mp h').1
      exact lt_iff.mpr ⟨hac.le, fun heq ↦ hac.ne (congrArg key heq)⟩
    · intro h h'
      exact gt_iff.mpr ((gt_iff.mp h').trans (gt_iff.mp h))
    · rw [le_iff, hlt_ab, eq_iff, le_iff_lt_or_eq]
      exact or_congr_right ⟨hsame, fun h ↦ congrArg key h⟩
    · rw [ge_iff, gt_iff, eq_iff]
    · rw [gt_iff]
      refine ⟨hba, fun h ↦ ?_⟩
      rcases lt_trichotomy a.key b.key with h' | h' | h'
      · exact absurd h (hab h').not_gt
      · exact absurd (hduration h') h.ne'
      · exact h'
    · rw [gt_iff]
      refine ⟨hab, fun h ↦ ?_⟩
      rcases lt_trichotomy a.key b.key with h' | h' | h'
      · exact h'
      · exact absurd (hduration h') h.ne
      · exact absurd h (hba h').not_gt

/-- A month and 30 days are each less than the other, and a month is not less than 29 days and 48
hours. -/
theorem not_orderedByDuration_month_days :
    ¬ OrderedByDuration ⟨1, 0, 0⟩ ⟨0, 30, 0⟩ ⟨0, 0, 0⟩ ∧
      ¬ OrderedByDuration ⟨0, 29, 172800000000⟩ ⟨1, 0, 0⟩ ⟨0, 0, 0⟩ := by
  constructor
  · intro h
    have hconverse := h.converse.1.mp (by decide)
    exact absurd hconverse (by decide)
  · intro h
    have hgt := h.gt_iff_duration.1.mpr (by decide)
    exact absurd hgt (by decide)

end Interval

end Graphflow
