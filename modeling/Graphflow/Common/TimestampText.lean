import Graphflow.Common.DateText
import Graphflow.Common.Timestamp

/-!
# Timestamps as text

`Time::TryConvertTime`, `Time::toString`, `Timestamp::FromCString` and `Timestamp::toString`.
-/

namespace Graphflow

open Lib

namespace Time

/-! ## Formatting -/

/-- The loop of `FormatMicros`, from the last character down to the second one. -/
def trailingZeros (microBuffer : Text) : ℕ → ℕ
  | 0 => 0
  | i + 1 => if microBuffer.getD (i + 1) 0 ≠ 48 then 0 else trailingZeros microBuffer i + 1

/-- `TimeToStringCast::Length` -/
def length (u : Units) (microBuffer : Text) : ℕ :=
  if u.microseconds = 0 then 8 else 15 - trailingZeros microBuffer 5

/-- What comes behind the seconds. -/
def fractionText (u : Units) : Text :=
  let microBuffer := formatPadded 6 u.microseconds.toUInt32.toNat
  if 8 < length u microBuffer then 46 :: microBuffer.take (length u microBuffer - 9) else []

def toString (time : Time) : Text :=
  let u := time.convert
  formatTwoDigits u.hour.toInt.toNat ++ 58 :: formatTwoDigits u.minute.toInt.toNat ++
    58 :: formatTwoDigits u.second.toInt.toNat ++ fractionText u

/-! ## Parsing -/

def fromTime (u : Units) : Except DateError Time :=
  if isValid u then
    pure ⟨Int64.ofInt (((u.hour.toInt * 60 + u.minute.toInt) * 60 + u.second.toInt) *
      microsPerSec + u.microseconds.toInt)⟩
  else
    throw (.conversionException s!"time field value out of range: {u.hour}:{u.minute}:{u.second}[.{
      u.microseconds}]")

/-- The loop over the digits of the microseconds. -/
def parseMicros (mult micros : ℤ) : Text → ℤ × Text
  | [] => (micros, [])
  | c :: buf =>
      if characterIsDigit c then
        parseMicros (mult.tdiv 10) (if 0 < mult then micros + digitOf c * mult else micros) buf
      else (micros, c :: buf)

def parseFraction : Text → ℤ × Text
  | [] => (0, [])
  | c :: buf => if c = 46 then parseMicros 100000 0 buf else (0, c :: buf)

/-- `TryConvertTime` up to the conversion, with what comes behind the time. -/
def parseTime (buf : Text) : Option (Units × Text) := do
  let buf := skipSpaces buf
  let (c, _) ← nextChar buf
  guard (characterIsDigit c)
  let (hour, buf) ← Date.parseDoubleDigit buf
  let (sep, buf) ← nextChar buf
  guard (sep = 58)
  let (minute, buf) ← Date.parseDoubleDigit buf
  let (c, buf) ← nextChar buf
  guard (c = sep)
  let (second, buf) ← Date.parseDoubleDigit buf
  let (micros, buf) := parseFraction buf
  let u : Units := {
    hour := Int32.ofInt hour
    minute := Int32.ofInt minute
    second := Int32.ofInt second
    microseconds := Int32.ofInt micros }
  guard (isValid u)
  pure (u, buf)

def tryConvertTime (buf : Text) : Except DateError (Option (Time × Text)) :=
  match parseTime buf with
  | none => .ok none
  | some (u, buf) => (fun t ↦ some (t, buf)) <$> fromTime u

end Time

namespace Timestamp

def toString (timestamp : Timestamp) : Except DateError Text := do
  let (date, time) := timestamp.convert
  pure ((← date.toString) ++ 32 :: time.toString)

/-- The hours and minutes, and what comes behind them. -/
def tryParseUTCOffset (str : Text) : Option (ℤ × ℤ × Text) :=
  match str with
  | sign :: h :: h' :: rest =>
      if sign ≠ 43 ∧ sign ≠ 45 then none
      else if !characterIsDigit h || !characterIsDigit h' then none
      else
        let signed (n : ℤ) : ℤ := if sign = 45 then -n else n
        let hour := signed (digitOf h * 10 + digitOf h')
        let rest := if rest.head? = some 58 then rest.tail else rest
        match rest with
        | m :: m' :: rest' =>
            if !characterIsDigit m || !characterIsDigit m' then some (hour, 0, rest)
            else some (hour, signed (digitOf m * 10 + digitOf m'), rest')
        | _ => some (hour, 0, rest)
  | _ => none

def badFormat (str : Text) : DateError :=
  .conversionException ("Error occurred during parsing time Given: \"" ++ asString str ++
    "\"Expected Format: (YYYY-MM-DD HH:MM:SS[.MS][+/-HH:MM])")

/-- What `FromCString` does with the characters behind the time. -/
def addOffset (str : Text) (result : Timestamp) (rest : Text) : Except DateError Timestamp :=
  let rest := if rest.head? = some 90 then rest.tail else rest
  let (result, rest) : Timestamp × Text :=
    match tryParseUTCOffset rest with
    | some (hour, minute, rest) =>
        (⟨result.value - Int64.ofInt (hour * microsPerHour + minute * microsPerMinute)⟩, rest)
    | none => (result, rest)
  if skipSpaces rest = [] then pure result else throw (.conversionException (asString str))

def fromCString (str : Text) : Except DateError Timestamp := do
  let dateStr := str.takeWhile fun c ↦ c ≠ 32 ∧ c ≠ 84
  match ← Date.tryConvertDate dateStr with
  | none => throw (badFormat str)
  | some date =>
      match str.drop dateStr.length with
      | [] => fromDatetime date ⟨0⟩
      | _ :: rest => -- a space or a `T`, at which the date has ended
          match ← Time.tryConvertTime rest with
          | none => throw (badFormat str)
          | some (time, rest) =>
              let result ← fromDatetime date time
              if rest = [] then pure result else addOffset str result rest

end Timestamp

/-! ## The microseconds -/

namespace Time

/-- What `trailingZeros` counts are zeros. -/
theorem trailingZeros_spec {microBuffer : Text} {i : ℕ} (h : i < microBuffer.length) :
    trailingZeros microBuffer i ≤ i ∧ microBuffer.take (i + 1) =
      microBuffer.take (i + 1 - trailingZeros microBuffer i) ++
        List.replicate (trailingZeros microBuffer i) 48 := by
  induction i with
  | zero => simp [trailingZeros]
  | succ i ih =>
      rw [trailingZeros]
      split_ifs with hzero
      · simp
      · obtain ⟨hle, htake⟩ := ih (by omega)
        refine ⟨by omega, ?_⟩
        have hlast : microBuffer[i + 1] = 48 := by
          rw [not_not, List.getD_eq_getElem?_getD, List.getElem?_eq_getElem h] at hzero
          exact hzero
        rw [List.take_succ_eq_append_getElem h, htake, hlast, Nat.add_sub_add_right,
          List.append_assoc, List.replicate_succ']

/-- The digits of the microseconds without the zeros at their end. -/
theorem exists_formatPadded_take {micros : ℕ} (h : micros < 1000000) : ∃ z ≤ 5,
    trailingZeros (formatPadded 6 micros) 5 = z ∧
      decimalValue ((formatPadded 6 micros).take (6 - z)) * 10 ^ z = micros ∧
      ((formatPadded 6 micros).take (6 - z)).length = 6 - z ∧
      ∀ c ∈ (formatPadded 6 micros).take (6 - z), characterIsDigit c := by
  rw [formatPadded_eq (by decide) (by omega)]
  have hlength := length_paddedDecimal 6 micros
  obtain ⟨hle, htake⟩ := @trailingZeros_spec (paddedDecimal 6 micros) 5 (by omega)
  generalize trailingZeros (paddedDecimal 6 micros) 5 = z at *
  refine ⟨z, hle, rfl, ?_, ?_, ?_⟩
  · have hvalue := decimalValue_paddedDecimal (show micros < 10 ^ 6 by omega)
    rw [List.take_of_length_le (by omega)] at htake
    rw [htake, decimalValue_append, decimalValue_replicate_zero, List.length_replicate] at hvalue
    exact hvalue
  · rw [List.length_take, hlength]
    omega
  · intro c hc
    exact characterIsDigit_iff.mpr (isDigit_of_mem_paddedDecimal (List.mem_of_mem_take hc))

theorem parseMicros_eq {ds : Text} (hds : ∀ c ∈ ds, characterIsDigit c) {k : ℕ}
    (hlength : ds.length ≤ k + 1) (micros : ℤ) : parseMicros (10 ^ k) micros ds =
      (micros + decimalValue ds * 10 ^ (k + 1 - ds.length), []) := by
  induction ds generalizing k micros with
  | nil => simp [parseMicros]
  | cons c ds ih =>
      have hc := hds c List.mem_cons_self
      have hpos : (0 : ℤ) < 10 ^ k := by positivity
      rw [parseMicros, if_pos hc, if_pos hpos, Date.digitOf_eq hc]
      have hvalue : micros + digitValue c * 10 ^ k + decimalValue ds * 10 ^ (k - ds.length) =
          micros + decimalValue (c :: ds) * 10 ^ (k + 1 - (c :: ds).length) := by
        rw [List.length_cons] at hlength ⊢
        have hpow : (10 : ℤ) ^ k = 10 ^ ds.length * 10 ^ (k - ds.length) := by
          rw [← pow_add]
          congr 1
          omega
        rw [decimalValue_cons, hpow, Nat.add_sub_add_right]
        push_cast
        ring
      cases k with
      | zero =>
          obtain rfl : ds = [] := by
            rw [List.length_cons] at hlength
            exact List.length_eq_zero_iff.mp (by omega)
          rw [parseMicros, ← hvalue]
          simp
      | succ k =>
          have hdiv : ((10 : ℤ) ^ (k + 1)).tdiv 10 = 10 ^ k := by
            rw [pow_succ, Int.mul_tdiv_cancel _ (by decide)]
          rw [List.length_cons] at hlength
          rw [hdiv, ih (fun d hd ↦ hds d (List.mem_cons_of_mem _ hd)) (by omega), hvalue]

/-! ## Round trips -/

/-- The units of a time of day, as numbers. -/
structure DayUnits (t : Time) (hour minute second micros : ℕ) : Prop where
  convert_eq : t.convert = ⟨Int32.ofInt hour, Int32.ofInt minute, Int32.ofInt second,
    Int32.ofInt micros⟩
  hour_lt : hour < 24
  minute_lt : minute < 60
  second_lt : second < 60
  micros_lt : micros < 1000000
  sum_eq : t.micros.toInt = ((hour * 60 + minute) * 60 + second) * 1000000 + micros

theorem exists_dayUnits {t : Time} (h : t.InDay) :
    ∃ hour minute second micros, DayUnits t hour minute second micros := by
  have hvalid := isValid_convert_iff.mpr h
  obtain ⟨hstart, hend⟩ := h
  have hunits := isValid_iff.mp hvalid
  have hhour : t.convert.hour.toInt = t.micros.toInt.tdiv microsPerHour := by
    have hquot := tdiv_cases t.micros.toInt (show 0 < microsPerHour by decide)
    rw [microsPerDay_eq] at hend
    rw [microsPerHour_eq] at hquot
    exact Int32.toInt_ofInt_of_le (by rw [microsPerHour_eq]; omega)
      (by rw [microsPerHour_eq]; omega)
  obtain ⟨hsum, -⟩ := convert_cases hhour
  rw [microsPerHour_eq, microsPerMinute_eq, microsPerSec_eq] at hsum
  obtain ⟨hour, hh⟩ := Int.eq_ofNat_of_zero_le hunits.1.1
  obtain ⟨minute, hm⟩ := Int.eq_ofNat_of_zero_le hunits.2.1.1
  obtain ⟨second, hs⟩ := Int.eq_ofNat_of_zero_le hunits.2.2.1.1
  obtain ⟨micros, hu⟩ := Int.eq_ofNat_of_zero_le hunits.2.2.2.1
  refine ⟨hour, minute, second, micros, ?_, by omega, by omega, by omega, by omega, by omega⟩
  rw [← hh, ← hm, ← hs, ← hu, Int32.ofInt_toInt, Int32.ofInt_toInt, Int32.ofInt_toInt,
    Int32.ofInt_toInt]

theorem toInt_ofInt_small {n : ℕ} (h : n < 1000000) : (Int32.ofInt n).toInt = n :=
  Int32.toInt_ofInt_of_le (by omega) (by omega)

theorem toNat_toUInt32_small {n : ℕ} (h : n < 1000000) :
    (Int32.ofInt n).toUInt32.toNat = n := by
  change (BitVec.ofInt 32 n).toNat = n
  rw [BitVec.ofInt_natCast, BitVec.toNat_ofNat]
  exact Nat.mod_eq_of_lt (by omega)

theorem DayUnits.isValid {t : Time} {hour minute second micros : ℕ}
    (h : DayUnits t hour minute second micros) : Time.isValid ⟨Int32.ofInt hour,
      Int32.ofInt minute, Int32.ofInt second, Int32.ofInt micros⟩ := by
  obtain ⟨-, hhour, hminute, hsecond, hmicros, -⟩ := h
  rw [isValid_iff, toInt_ofInt_small (by omega), toInt_ofInt_small (by omega),
    toInt_ofInt_small (by omega), toInt_ofInt_small hmicros]
  omega

theorem fromTime_eq {t : Time} {hour minute second micros : ℕ}
    (h : DayUnits t hour minute second micros) : fromTime ⟨Int32.ofInt hour, Int32.ofInt minute,
      Int32.ofInt second, Int32.ofInt micros⟩ = .ok t := by
  have hvalid := h.isValid
  obtain ⟨-, hhour, hminute, hsecond, hmicros, hsum⟩ := h
  rw [fromTime, if_pos hvalid, toInt_ofInt_small (by omega), toInt_ofInt_small (by omega),
    toInt_ofInt_small (by omega), toInt_ofInt_small hmicros, microsPerSec_eq, ← hsum,
    Int64.ofInt_toInt]
  rfl

theorem parseFraction_fractionText {u : Units} {micros : ℕ} (hmicros : micros < 1000000)
    (hu : u.microseconds = Int32.ofInt micros) : Date.NoDigit (fractionText u) ∧
      parseFraction (fractionText u) = ((micros : ℤ), []) := by
  obtain ⟨z, hz, hcount, hvalue, hlength, hdigit⟩ := exists_formatPadded_take hmicros
  simp only [fractionText, length, hu, toNat_toUInt32_small hmicros, hcount]
  by_cases hzero : micros = 0
  · subst hzero
    exact ⟨Date.noDigit_nil, rfl⟩
  · have hne : Int32.ofInt micros ≠ 0 := by
      intro heq
      have hzero' : (micros : ℤ) = 0 := by
        rw [← toInt_ofInt_small hmicros, heq]
        rfl
      exact hzero (by exact_mod_cast hzero')
    have hparse := @parseMicros_eq _ hdigit 5 (by omega) 0
    have hdigits : 15 - z - 9 = 6 - z := by omega
    have hpower : 5 + 1 - (6 - z) = z := by omega
    rw [if_neg hne, if_pos (show 8 < 15 - z by omega), hdigits]
    refine ⟨Date.noDigit_cons (by decide), ?_⟩
    rw [hlength, hpower, zero_add] at hparse
    rw [parseFraction, if_pos rfl]
    refine hparse.trans ?_
    rw [Prod.mk.injEq]
    exact ⟨by exact_mod_cast hvalue, rfl⟩

theorem toString_eq {t : Time} {hour minute second micros : ℕ}
    (h : DayUnits t hour minute second micros) : toString t =
      paddedDecimal 2 hour ++ 58 :: (paddedDecimal 2 minute ++ 58 :: (paddedDecimal 2 second ++
        fractionText t.convert)) := by
  have hh : t.convert.hour.toInt = hour := by
    rw [h.convert_eq, toInt_ofInt_small (h.hour_lt.trans (by decide))]
  have hm : t.convert.minute.toInt = minute := by
    rw [h.convert_eq, toInt_ofInt_small (h.minute_lt.trans (by decide))]
  have hs : t.convert.second.toInt = second := by
    rw [h.convert_eq, toInt_ofInt_small (h.second_lt.trans (by decide))]
  simp only [toString, hh, hm, hs, Int.toNat_natCast,
    formatTwoDigits_eq (h.hour_lt.trans (by decide)),
    formatTwoDigits_eq (h.minute_lt.trans (by decide)),
    formatTwoDigits_eq (h.second_lt.trans (by decide))]
  simp

/-- A time is parsed as the units that it is made of. -/
theorem parseTime_toString {t : Time} {hour minute second micros : ℕ}
    (h : DayUnits t hour minute second micros) : parseTime (toString t) =
      some (⟨Int32.ofInt hour, Int32.ofInt minute, Int32.ofInt second,
        Int32.ofInt micros⟩, []) := by
  obtain ⟨hend, hfraction⟩ := @parseFraction_fractionText t.convert micros h.micros_lt
    (by rw [h.convert_eq])
  have hvalid := h.isValid
  have hdigit {n : ℕ} (x : UInt8) (hx : x ∈ paddedDecimal 2 n) : characterIsDigit x :=
    characterIsDigit_iff.mpr (isDigit_of_mem_paddedDecimal hx)
  have hparse {n : ℕ} {rest : Text} (hn : n < 60) (hrest : Date.NoDigit rest) :
      Date.parseDoubleDigit (paddedDecimal 2 n ++ rest) = some ((n : ℤ), rest) := by
    rw [Date.parseDoubleDigit_append hdigit (.inr (length_paddedDecimal _ _)) hrest,
      decimalValue_paddedDecimal (show n < 10 ^ 2 by omega)]
  have hcolon (rest : Text) : Date.NoDigit (58 :: rest) := Date.noDigit_cons (by decide)
  obtain ⟨c, rest, hcons⟩ := List.exists_cons_of_length_eq_add_one (length_paddedDecimal 2 hour)
  have hc : characterIsDigit c := hdigit (n := hour) c (by rw [hcons]; exact List.mem_cons_self)
  obtain ⟨tail, hfirst⟩ : ∃ tail, toString t = c :: tail := by
    rw [toString_eq h, hcons]
    exact ⟨_, rfl⟩
  have hskip : skipSpaces (toString t) = toString t := by
    rw [hfirst, Date.skipSpaces_cons hc]
  have hnext : nextChar (toString t) = some (c, tail) := by
    rw [hfirst]
    rfl
  have hHour := hparse (h.hour_lt.trans (by decide))
    (hcolon (paddedDecimal 2 minute ++ 58 :: (paddedDecimal 2 second ++ fractionText t.convert)))
  have hMinute := hparse h.minute_lt
    (hcolon (paddedDecimal 2 second ++ fractionText t.convert))
  have hSecond := hparse h.second_lt hend
  simp only [parseTime, hskip, hnext, Option.bind_eq_bind, Option.bind_some, hc, guard, if_true]
  rw [toString_eq h]
  simp only [Option.pure_def, Option.bind_some, hHour, hMinute, hSecond, nextChar, if_true,
    hfraction, hvalid]

theorem tryConvertTime_toString {t : Time} (h : t.InDay) :
    tryConvertTime (toString t) = .ok (some (t, [])) := by
  obtain ⟨hour, minute, second, micros, hunits⟩ := exists_dayUnits h
  simp only [tryConvertTime, parseTime_toString hunits, fromTime_eq hunits, ok_map]

end Time

namespace Timestamp

theorem getTime_inDay (ts : Timestamp) : ts.getTime.InDay := by
  rw [Time.InDay, toInt_micros_getTime]
  exact ⟨Int.emod_nonneg _ (by decide), Int.emod_lt_of_pos _ (by decide)⟩

theorem exactValue_getDate_getTime (ts : Timestamp) :
    exactValue ts.getDate ts.getTime = ts.value.toInt := by
  rw [exactValue, toInt_days_getDate, toInt_micros_getTime]
  have hsum := Int.emod_add_mul_ediv ts.value.toInt microsPerDay
  rw [Int.mul_comm]
  omega

theorem fromDatetime_convert {ts : Timestamp} (h : ValidDate ts.getDate) :
    fromDatetime ts.getDate ts.getTime = .ok ts := by
  rw [fromDatetime_of_valid h (Time.isValid_convert_iff.mpr ts.getTime_inDay)]
  apply congrArg Except.ok
  apply Timestamp.ext
  rw [← Int64.toInt_inj, toInt_fromDatetime, exactValue_getDate_getTime]
  exact Int64.toInt_bmod _

/-- A date has neither a space nor a `T`. -/
theorem ends_of_mem_format {c : Civil} (h : c.Valid) (hpos : 1 ≤ c.year)
    (hmax : c.year ≤ Date.maxYear) {x : UInt8} (hx : x ∈ Date.format c) :
    decide (x ≠ 32 ∧ x ≠ 84) = true := by
  obtain ⟨l, htext, -, hleading, htrailing, hsep⟩ := Date.exists_literal_format h hpos hmax
  have hdigit (hx : characterIsDigit x) : decide (x ≠ 32 ∧ x ≠ 84) = true := by
    rw [characterIsDigit_iff] at hx
    rw [decide_eq_true_eq]
    constructor
    · rintro rfl
      exact absurd hx (by decide)
    · rintro rfl
      exact absurd hx (by decide)
  rw [← htext, Date.Literal.text, hleading, htrailing, hsep] at hx
  simp only [List.nil_append, List.append_nil, List.mem_append, List.mem_cons] at hx
  rcases hx with hx | rfl | hx | rfl | hx
  · exact hdigit (l.year_digit x hx)
  · decide
  · exact hdigit (l.month_digit x hx)
  · decide
  · exact hdigit (l.day_digit x hx)

theorem fromCString_toString {ts : Timestamp} {c : Civil} (h : ts.getDate.convert = .ok c)
    (hpos : 1 ≤ c.year) (hmax : c.year ≤ Date.maxYear) :
    (toString ts >>= fromCString) = .ok ts := by
  obtain ⟨hvalid, -⟩ := Date.convert_eq_ok_iff.mp h
  have hdate : ValidDate ts.getDate :=
    ⟨c, h, Date.isValid_of_accepted ⟨hvalid, by rw [Date.minYear]; omega, hmax⟩⟩
  have htext : toString ts = .ok (Date.format c ++ 32 :: ts.getTime.toString) := by
    simp only [toString, convert, Date.toString, h, ok_bind, pure_eq_ok]
  have htake : (Date.format c ++ 32 :: ts.getTime.toString).takeWhile
      (fun x ↦ decide (x ≠ 32 ∧ x ≠ 84)) = Date.format c := by
    rw [List.takeWhile_append_of_pos fun x hx ↦ ends_of_mem_format hvalid hpos hmax hx]
    simp
  rw [htext, ok_bind, fromCString]
  simp only [htake, Date.tryConvertDate_format h hpos hmax, ok_bind, List.drop_left,
    Time.tryConvertTime_toString ts.getTime_inDay, fromDatetime_convert hdate, if_true, pure_eq_ok]

end Timestamp

/-- The texts of dates and timestamps from year 1 on are converted to what they stand for; the
texts that are converted to dates are those of the format that stand for valid dates, and those
that stand for others throw. -/
theorem fromCString_toString_roundTrip :
    (∀ (d : Date) (c : Civil), d.convert = .ok c → 1 ≤ c.year → c.year ≤ Date.maxYear →
      (d.toString >>= Date.fromCString) = .ok d) ∧
    (∀ (ts : Timestamp) (c : Civil), ts.getDate.convert = .ok c → 1 ≤ c.year →
      c.year ≤ Date.maxYear → (ts.toString >>= Timestamp.fromCString) = .ok ts) ∧
    (∀ (buf : Text) (d : Date), Date.tryConvertDate buf = .ok (some d) ↔ ∃ l : Date.Literal,
      l.text = buf ∧ Date.fromDate l.civil.year l.civil.month l.civil.day = .ok d) ∧
    ∀ (buf : Text) (e : DateError), Date.tryConvertDate buf = .error e ↔ ∃ l : Date.Literal,
      l.text = buf ∧ Date.isValid l.civil.year l.civil.month l.civil.day = .ok false ∧
        e = Date.outOfRange l.civil.year l.civil.month l.civil.day := by
  refine ⟨fun _ _ ↦ Date.fromCString_toString, fun _ _ ↦ Timestamp.fromCString_toString,
    fun _ _ ↦ Date.tryConvertDate_eq_some_iff, fun buf e ↦ ?_⟩
  simp only [Date.tryConvertDate_eq_error_iff, Date.isValid_eq, Except.ok.injEq,
    decide_eq_false_iff_not]

end Graphflow
