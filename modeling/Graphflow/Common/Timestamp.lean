import Graphflow.Common.Date

/-!
# Timestamps

A timestamp is the number of microseconds since 1970-01-01; `FromDatetime` makes it of a date and a
time, `GetDate` and `GetTime` take it apart.  The years that `IsValid` admits go a little further
than the microseconds that `int64_t` can count.
-/

namespace Graphflow

open Lib

def microsPerSec : ℤ := 1000000

def microsPerMinute : ℤ := microsPerSec * 60

def microsPerHour : ℤ := microsPerMinute * 60

def microsPerDay : ℤ := microsPerHour * 24

/-- `dtime_t` -/
@[ext]
structure Time where
  micros : Int64
  deriving DecidableEq, Repr

/-- `timestamp_t` -/
@[ext]
structure Timestamp where
  value : Int64
  deriving DecidableEq, Repr

namespace Time

/-- The results of `Time::Convert`. -/
structure Units where
  hour : Int32
  minute : Int32
  second : Int32
  microseconds : Int32
  deriving DecidableEq, Repr

def convert (dtime : Time) : Units :=
  let time := dtime.micros.toInt
  let hour := Int32.ofInt (time.tdiv microsPerHour)
  let time := time - hour.toInt * microsPerHour
  let minute := Int32.ofInt (time.tdiv microsPerMinute)
  let time := time - minute.toInt * microsPerMinute
  let second := Int32.ofInt (time.tdiv microsPerSec)
  let time := time - second.toInt * microsPerSec
  { hour, minute, second, microseconds := Int32.ofInt time }

def isValid (u : Units) : Bool :=
  !(23 < u.hour || u.hour < 0 || 59 < u.minute || u.minute < 0 || 59 < u.second || u.second < 0 ||
    999999 < u.microseconds || u.microseconds < 0)

end Time

namespace Timestamp

def getDate (timestamp : Timestamp) : Date :=
  let negative : ℤ := if timestamp.value < 0 then 1 else 0
  ⟨Int32.ofInt ((timestamp.value.toInt + negative).tdiv microsPerDay - negative)⟩

/-- Arithmetic on `Int64` wraps around. -/
def getTime (timestamp : Timestamp) : Time :=
  ⟨timestamp.value - timestamp.getDate.days.toInt64 * Int64.ofInt microsPerDay⟩

def fromDatetime (date : Date) (time : Time) : Except DateError Timestamp := do
  let { year, month, day } ← date.convert
  if !(← Date.isValid year month day) || !Time.isValid time.convert then
    throw (.conversionException "Invalid date or time format")
  pure ⟨date.days.toInt64 * Int64.ofInt microsPerDay + time.micros⟩

def convert (timestamp : Timestamp) : Date × Time := (timestamp.getDate, timestamp.getTime)

end Timestamp

/-! ## Valid dates and times -/

/-- Rounding to zero keeps the sign of the dividend in the remainder. -/
theorem tdiv_cases (a : ℤ) {b : ℤ} (hb : 0 < b) :
    (0 ≤ a ∧ 0 ≤ a.tdiv b ∧ b * a.tdiv b ≤ a ∧ a < b * a.tdiv b + b) ∨
      (a < 0 ∧ a.tdiv b ≤ 0 ∧ a ≤ b * a.tdiv b ∧ b * a.tdiv b - b < a) := by
  have hsum := Int.mul_tdiv_add_tmod a b
  rcases Int.lt_or_le a 0 with h | h
  · have hrem := Int.tmod_nonneg b (Int.neg_nonneg.mpr h.le)
    rw [Int.neg_tmod] at hrem
    have hrem' := Int.lt_tmod_of_pos a hb
    have hquot := Int.tdiv_nonneg (Int.neg_nonneg.mpr h.le) hb.le
    rw [Int.neg_tdiv] at hquot
    exact .inr ⟨h, by omega, by omega, by omega⟩
  · have hrem := Int.tmod_nonneg b h
    have hrem' := Int.tmod_lt_of_pos a hb
    exact .inl ⟨h, Int.tdiv_nonneg h hb.le, by omega, by omega⟩

namespace Time

theorem microsPerDay_eq : microsPerDay = 86400000000 := rfl

theorem microsPerHour_eq : microsPerHour = 3600000000 := rfl

theorem microsPerMinute_eq : microsPerMinute = 60000000 := rfl

theorem microsPerSec_eq : microsPerSec = 1000000 := rfl

/-- A time of day. -/
def InDay (t : Time) : Prop := 0 ≤ t.micros.toInt ∧ t.micros.toInt < microsPerDay

theorem isValid_iff {u : Units} : isValid u ↔ (0 ≤ u.hour.toInt ∧ u.hour.toInt ≤ 23) ∧
    (0 ≤ u.minute.toInt ∧ u.minute.toInt ≤ 59) ∧ (0 ≤ u.second.toInt ∧ u.second.toInt ≤ 59) ∧
    0 ≤ u.microseconds.toInt ∧ u.microseconds.toInt ≤ 999999 := by
  have h0 : (0 : Int32).toInt = 0 := rfl
  have h23 : (23 : Int32).toInt = 23 := rfl
  have h59 : (59 : Int32).toInt = 59 := rfl
  have hmicros : (999999 : Int32).toInt = 999999 := rfl
  simp only [isValid, Bool.not_eq_true', Bool.or_eq_false_iff, decide_eq_false_iff_not,
    Int32.lt_iff_toInt_lt, h0, h23, h59, hmicros]
  omega

/-- The hours may leave the range of `int32_t`, but they do not come back to a time of day. -/
theorem toInt_ofInt_cases {n : ℤ} (h : -2562047789 < n) (h' : n < 2562047789) :
    (Int32.ofInt n).toInt = n ∨ (Int32.ofInt n).toInt < 0 ∨ 1732919507 < (Int32.ofInt n).toInt := by
  rw [Int32.toInt_ofInt, Int32.size, Int.bmod_def]
  split_ifs <;> omega

/-- The units add up to the time and have its sign, if the hours are in the range of `int32_t`. -/
theorem convert_cases {t : Time} (h : t.convert.hour.toInt = t.micros.toInt.tdiv microsPerHour) :
    t.micros.toInt = t.convert.hour.toInt * microsPerHour +
        t.convert.minute.toInt * microsPerMinute + t.convert.second.toInt * microsPerSec +
        t.convert.microseconds.toInt ∧
      ((0 ≤ t.micros.toInt ∧ 0 ≤ t.convert.hour.toInt ∧
          (0 ≤ t.convert.minute.toInt ∧ t.convert.minute.toInt ≤ 59) ∧
          (0 ≤ t.convert.second.toInt ∧ t.convert.second.toInt ≤ 59) ∧
          0 ≤ t.convert.microseconds.toInt ∧ t.convert.microseconds.toInt ≤ 999999) ∨
        (t.micros.toInt < 0 ∧ t.convert.hour.toInt ≤ 0 ∧ t.convert.minute.toInt ≤ 0 ∧
          t.convert.second.toInt ≤ 0 ∧ t.convert.microseconds.toInt ≤ 0)) := by
  have hour := tdiv_cases t.micros.toInt (show 0 < microsPerHour by decide)
  simp only [convert] at h ⊢
  rw [h]
  generalize t.micros.toInt = time at *
  generalize time.tdiv microsPerHour = hours at *
  have minute := tdiv_cases (time - hours * microsPerHour) (show 0 < microsPerMinute by decide)
  generalize hm : (time - hours * microsPerHour).tdiv microsPerMinute = minutes at *
  rw [microsPerHour_eq, microsPerMinute_eq] at *
  have hminute : (Int32.ofInt minutes).toInt = minutes :=
    Int32.toInt_ofInt_of_le (by omega) (by omega)
  rw [hminute]
  have second := tdiv_cases (time - hours * 3600000000 - minutes * 60000000)
    (show 0 < microsPerSec by decide)
  generalize hs : (time - hours * 3600000000 - minutes * 60000000).tdiv microsPerSec =
    seconds at *
  rw [microsPerSec_eq] at *
  have hsecond : (Int32.ofInt seconds).toInt = seconds :=
    Int32.toInt_ofInt_of_le (by omega) (by omega)
  rw [hsecond, Int32.toInt_ofInt_of_le (by omega) (by omega)]
  omega

theorem isValid_convert_iff {t : Time} : isValid t.convert ↔ t.InDay := by
  have hquot := tdiv_cases t.micros.toInt (show 0 < microsPerHour by decide)
  have hmin := t.micros.le_toInt
  have hmax := t.micros.toInt_lt
  have hhours : t.convert.hour.toInt =
      (Int32.ofInt (t.micros.toInt.tdiv microsPerHour)).toInt := rfl
  have hcases := @toInt_ofInt_cases (t.micros.toInt.tdiv microsPerHour)
    (by rw [microsPerHour_eq] at *; omega) (by rw [microsPerHour_eq] at *; omega)
  rw [isValid_iff, InDay, microsPerDay_eq]
  constructor
  · rintro ⟨hhour, hminute, hsecond, hmicros⟩
    obtain ⟨hsum, -⟩ := convert_cases (t := t) (by omega)
    rw [microsPerHour_eq, microsPerMinute_eq, microsPerSec_eq] at hsum
    omega
  · rintro ⟨hstart, hend⟩
    have hhour : t.convert.hour.toInt = t.micros.toInt.tdiv microsPerHour := by
      rw [hhours, Int32.toInt_ofInt_of_le]
      · rw [microsPerHour_eq] at *
        omega
      · rw [microsPerHour_eq] at *
        omega
    obtain ⟨hsum, hunits⟩ := convert_cases hhour
    rw [microsPerHour_eq, microsPerMinute_eq, microsPerSec_eq] at hsum
    omega

end Time

namespace Timestamp

variable {d e : Date} {t u : Time}

/-- `IsValid` of the date as `Convert` takes it apart. -/
def ValidDate (d : Date) : Prop :=
  ∃ c : Civil, d.convert = .ok c ∧ Date.isValid c.year c.month c.day = .ok true

def ValidTime (t : Time) : Prop := Time.isValid t.convert = true

instance (t : Time) : Decidable (ValidTime t) :=
  inferInstanceAs (Decidable (Time.isValid t.convert = true))

/-- The microseconds since 1970-01-01. -/
def exactValue (d : Date) (t : Time) : ℤ := d.days.toInt * microsPerDay + t.micros.toInt

/-- The timestamps up to 294247-01-10 04:00:54.775807. -/
def Fits (d : Date) (t : Time) : Prop :=
  d.days.toInt < 106751991 ∨ d.days.toInt = 106751991 ∧ t.micros.toInt ≤ 14454775807

instance (d : Date) (t : Time) : Decidable (Fits d t) :=
  inferInstanceAs (Decidable (_ ∨ _))

/-- A timestamp of which nothing is lost. -/
def Represents (ts : Timestamp) (d : Date) (t : Time) : Prop :=
  ts.value.toInt = exactValue d t ∧ ts.getDate = d ∧ ts.getTime = t

theorem ValidDate.days_bounds (h : ValidDate d) :
    -106751981 ≤ d.days.toInt ∧ d.days.toInt ≤ 106752346 := by
  obtain ⟨c, hc, hvalid⟩ := h
  obtain ⟨-, hnumber⟩ := Date.convert_eq_ok_iff.mp hc
  have hbounds := (Date.accepted_of_isValid hvalid).dayNumber_bounds
  rwa [hnumber, ← Date.days_eq_sub] at hbounds

theorem fromDatetime_of_valid (hd : ValidDate d) (ht : ValidTime t) : fromDatetime d t =
    .ok ⟨d.days.toInt64 * Int64.ofInt microsPerDay + t.micros⟩ := by
  obtain ⟨c, hc, hvalid⟩ := hd
  simp only [fromDatetime, hc, ok_bind, hvalid, show Time.isValid t.convert = true from ht,
    Bool.not_true, Bool.or_self, Bool.false_eq_true, if_false]
  rfl

/-- The value is the exact one, except that it wraps around. -/
theorem toInt_fromDatetime (d : Date) (t : Time) :
    (d.days.toInt64 * Int64.ofInt microsPerDay + t.micros).toInt =
      (exactValue d t).bmod (2 ^ 64) := by
  have hday : (Int64.ofInt microsPerDay).toInt = microsPerDay := by decide
  rw [Int64.toInt_add, Int64.toInt_mul, Int32.toInt_toInt64, hday, Int.bmod_add_bmod, exactValue]

theorem fits_iff (hd : ValidDate d) (ht : ValidTime t) :
    Fits d t ↔ (exactValue d t).bmod (2 ^ 64) = exactValue d t := by
  obtain ⟨hmin, hmax⟩ := hd.days_bounds
  obtain ⟨hstart, hend⟩ := Time.isValid_convert_iff.mp ht
  rw [Fits, exactValue, Int.bmod_def]
  rw [Time.microsPerDay_eq] at *
  split_ifs <;> omega

/-- `GetDate` rounds down. -/
theorem toInt_days_getDate (ts : Timestamp) :
    ts.getDate.days.toInt = ts.value.toInt / microsPerDay := by
  have hmin := ts.value.le_toInt
  have hmax := ts.value.toInt_lt
  have hzero : (0 : Int64).toInt = 0 := rfl
  simp only [getDate, Int64.lt_iff_toInt_lt, hzero]
  split_ifs with h
  · have hquot := tdiv_cases (ts.value.toInt + 1) (show 0 < microsPerDay by decide)
    rw [Time.microsPerDay_eq] at *
    rw [Int32.toInt_ofInt_of_le (by omega) (by omega)]
    omega
  · rw [Time.microsPerDay_eq, Int.tdiv_eq_ediv_of_nonneg (by omega),
      Int32.toInt_ofInt_of_le (by omega) (by omega)]
    omega

theorem toInt_micros_getTime (ts : Timestamp) :
    ts.getTime.micros.toInt = ts.value.toInt % microsPerDay := by
  have hday : (Int64.ofInt microsPerDay).toInt = microsPerDay := by decide
  have hrange : ts.value.toInt - ts.value.toInt / microsPerDay * microsPerDay =
      ts.value.toInt % microsPerDay := by
    rw [Int.emod_def, Int.mul_comm]
  have hmin := Int.emod_nonneg ts.value.toInt (show microsPerDay ≠ 0 by decide)
  have hmax := Int.emod_lt_of_pos ts.value.toInt (show 0 < microsPerDay by decide)
  rw [getTime, Int64.toInt_sub, Int64.toInt_mul, Int32.toInt_toInt64, hday, toInt_days_getDate,
    Int.sub_bmod_bmod, hrange]
  apply Int.bmod_eq_of_le
  · omega
  · exact hmax.trans (by decide)

theorem getDate_eq {ts : Timestamp} (ht : t.InDay) (h : ts.value.toInt = exactValue d t) :
    ts.getDate = d := by
  obtain ⟨hstart, hend⟩ := ht
  apply Date.ext
  rw [← Int32.toInt_inj, toInt_days_getDate, h, exactValue]
  rw [Time.microsPerDay_eq] at *
  omega

theorem getTime_eq {ts : Timestamp} (ht : t.InDay) (h : ts.value.toInt = exactValue d t) :
    ts.getTime = t := by
  obtain ⟨hstart, hend⟩ := ht
  apply Time.ext
  rw [← Int64.toInt_inj, toInt_micros_getTime, h, exactValue]
  rw [Time.microsPerDay_eq] at *
  omega

/-- Later dates and times have later timestamps. -/
theorem exactValue_lt_iff (ht : t.InDay) (hu : u.InDay) : exactValue d t < exactValue e u ↔
    d.days < e.days ∨ d.days = e.days ∧ t.micros < u.micros := by
  obtain ⟨htstart, htend⟩ := ht
  obtain ⟨hustart, huend⟩ := hu
  rw [exactValue, exactValue, Int32.lt_iff_toInt_lt, ← Int32.toInt_inj, Int64.lt_iff_toInt_lt]
  rw [Time.microsPerDay_eq] at *
  omega

/-- A valid date and a time of day are kept if they are not behind the last timestamp, and only
then; the timestamps of those that are kept are in their order. -/
theorem represents_iff_fits (d e : Date) (t u : Time) :
    (ValidDate d → ValidTime t →
      ∃ ts, fromDatetime d t = .ok ts ∧ (Represents ts d t ↔ Fits d t)) ∧
    (ValidDate d → ValidTime t → ValidDate e → ValidTime u →
      Fits d t → Fits e u → ∃ ts us, fromDatetime d t = .ok ts ∧ fromDatetime e u = .ok us ∧
        (ts.value < us.value ↔ d.days < e.days ∨ d.days = e.days ∧ t.micros < u.micros)) := by
  constructor
  · intro hd ht
    have hinDay := Time.isValid_convert_iff.mp ht
    refine ⟨_, fromDatetime_of_valid hd ht, ?_⟩
    rw [Represents, fits_iff hd ht, ← toInt_fromDatetime]
    exact and_iff_left_of_imp fun h ↦ ⟨getDate_eq hinDay h, getTime_eq hinDay h⟩
  · intro hd ht he hu hfits hfits'
    refine ⟨_, _, fromDatetime_of_valid hd ht, fromDatetime_of_valid he hu, ?_⟩
    rw [Int64.lt_iff_toInt_lt, toInt_fromDatetime, toInt_fromDatetime, (fits_iff hd ht).mp hfits,
      (fits_iff he hu).mp hfits', exactValue_lt_iff (Time.isValid_convert_iff.mp ht)
        (Time.isValid_convert_iff.mp hu)]

/-- The timestamp of 294247-12-31 has a negative value. -/
theorem not_represents_lastDay : ¬∀ (d : Date) (t : Time), ValidDate d → ValidTime t →
    ∃ ts, fromDatetime d t = .ok ts ∧ Represents ts d t := by
  intro h
  have hvalid : ValidDate ⟨106752346⟩ := ⟨⟨294247, 12, 31⟩, by decide +kernel, by decide +kernel⟩
  obtain ⟨ts, hts, hvalue, -⟩ := h ⟨106752346⟩ ⟨0⟩ hvalid (by decide +kernel)
  have hwrapped : fromDatetime ⟨106752346⟩ ⟨0⟩ = .ok ⟨-9223341379309551616⟩ := by decide +kernel
  obtain rfl := Except.ok.inj (hwrapped.symm.trans hts)
  exact absurd hvalue (by decide +kernel)

end Timestamp

end Graphflow
