import Graphflow.Common.Date
import Graphflow.Lib.Decimal
import Mathlib.Data.List.TakeWhile

/-!
# Dates as text

`Date::TryConvertDate` and `Date::toString`.  A buffer and a position in it are the characters that
come behind the position.
-/

namespace Graphflow

open Lib

abbrev Text := List UInt8

/-- `StringUtils::CharacterIsSpace`, and `isspace`: `' '`, `'\t'`, `'\n'`, `'\v'`, `'\f'`, `'\r'` -/
def characterIsSpace (c : UInt8) : Bool :=
  c = 32 ∨ c = 9 ∨ c = 10 ∨ c = 11 ∨ c = 12 ∨ c = 13

/-- `StringUtils::CharacterIsDigit`, and `isdigit` -/
def characterIsDigit (c : UInt8) : Bool := 48 ≤ c ∧ c ≤ 57

def skipSpaces (buf : Text) : Text := buf.dropWhile characterIsSpace

/-- `buf[pos++]`, if the end is not reached. -/
def nextChar : Text → Option (UInt8 × Text)
  | [] => none
  | c :: buf => some (c, buf)

/-- `c - '0'` -/
def digitOf (c : UInt8) : ℤ := c.toNat - 48

/-- A string of an error message. -/
def asString (text : Text) : String := String.ofList (text.map fun c ↦ Char.ofNat c.toNat)

/-! ## Formatting -/

/-- Two digits for each number below 100. -/
def digits : Text :=
  [48, 48, 48, 49, 48, 50, 48, 51, 48, 52, 48, 53, 48, 54, 48, 55, 48, 56, 48, 57,
    49, 48, 49, 49, 49, 50, 49, 51, 49, 52, 49, 53, 49, 54, 49, 55, 49, 56, 49, 57,
    50, 48, 50, 49, 50, 50, 50, 51, 50, 52, 50, 53, 50, 54, 50, 55, 50, 56, 50, 57,
    51, 48, 51, 49, 51, 50, 51, 51, 51, 52, 51, 53, 51, 54, 51, 55, 51, 56, 51, 57,
    52, 48, 52, 49, 52, 50, 52, 51, 52, 52, 52, 53, 52, 54, 52, 55, 52, 56, 52, 57,
    53, 48, 53, 49, 53, 50, 53, 51, 53, 52, 53, 53, 53, 54, 53, 55, 53, 56, 53, 57,
    54, 48, 54, 49, 54, 50, 54, 51, 54, 52, 54, 53, 54, 54, 54, 55, 54, 56, 54, 57,
    55, 48, 55, 49, 55, 50, 55, 51, 55, 52, 55, 53, 55, 54, 55, 55, 55, 56, 55, 57,
    56, 48, 56, 49, 56, 50, 56, 51, 56, 52, 56, 53, 56, 54, 56, 55, 56, 56, 56, 57,
    57, 48, 57, 49, 57, 50, 57, 51, 57, 52, 57, 53, 57, 54, 57, 55, 57, 56, 57, 57]

/-- `ptr` points to the characters that are written already. -/
def formatUnsigned (value : ℕ) (ptr : Text) : Text :=
  if 100 ≤ value then
    let index := value % 100 * 2
    formatUnsigned (value / 100) (digits.getD index 0 :: digits.getD (index + 1) 0 :: ptr)
  else if value < 10 then UInt8.ofNat (48 + value) :: ptr
  else
    let index := value * 2
    digits.getD index 0 :: digits.getD (index + 1) 0 :: ptr
termination_by value

/-- `TimeToStringCast::FormatTwoDigits`, and the same branches for months and days. -/
def formatTwoDigits (value : ℕ) : Text :=
  if value < 10 then [48, UInt8.ofNat (48 + value)]
  else
    let index := value * 2
    [digits.getD index 0, digits.getD (index + 1) 0]

/-- The number is written at the end of the buffer, and zeros in front of it. -/
def formatPadded (length value : ℕ) : Text := (formatUnsigned value []).leftpad length 48

namespace Date

/-- What `DateToStringCast::Length` finds out about the year. -/
structure YearFormat where
  year : ℕ
  yearLength : ℕ
  addBc : Bool

def yearFormat (year : ℤ) : YearFormat :=
  let addBc : Bool := year ≤ 0
  let year := (if addBc then -year + 1 else year).toNat
  let yearLength := 4 + (if 10000 ≤ year then 1 else 0) + (if 100000 ≤ year then 1 else 0) +
    (if 1000000 ≤ year then 1 else 0) + (if 10000000 ≤ year then 1 else 0)
  { year, yearLength, addBc }

/-- `DateToStringCast::Format` -/
def format (c : Civil) : Text :=
  let f := yearFormat c.year
  formatPadded f.yearLength f.year ++ 45 :: formatTwoDigits c.month.toNat ++
    45 :: formatTwoDigits c.day.toNat ++ if f.addBc then [32, 40, 66, 67, 41] else []

def toString (date : Date) : Except DateError Text := do
  pure (format (← date.convert))

/-! ## Parsing -/

def parseDoubleDigit : Text → Option (ℤ × Text)
  | [] => none
  | c :: buf =>
      if characterIsDigit c then
        match buf with
        | [] => some (digitOf c, [])
        | c' :: rest =>
            if characterIsDigit c' then some (digitOf c' + digitOf c * 10, rest)
            else some (digitOf c, buf)
      else none

/-- The loop that parses the year. -/
def parseYear (year : ℤ) : Text → ℤ × Text
  | [] => (year, [])
  | c :: buf =>
      if characterIsDigit c then
        let year := digitOf c + year * 10
        if maxYear < year then (year, c :: buf) else parseYear year buf
      else (year, c :: buf)

/-- `' '`, `'-'`, `'/'`, `'\\'` -/
def isSeparator (c : UInt8) : Bool := c = 32 ∨ c = 45 ∨ c = 47 ∨ c = 92

/-- `TryConvertDate` up to the conversion; `none` is the result false. -/
def parseDate (buf : Text) : Option Civil := do
  let buf := skipSpaces buf
  let (c, _) ← nextChar buf
  guard (characterIsDigit c)
  let (year, buf) := parseYear 0 buf
  let (sep, buf) ← nextChar buf
  guard (isSeparator sep)
  let (month, buf) ← parseDoubleDigit buf
  let (c, buf) ← nextChar buf
  guard (c = sep)
  let (day, buf) ← parseDoubleDigit buf
  guard (skipSpaces buf = [])
  pure { year, month, day }

/-- If the result is a date, the position is the end of the buffer. -/
def tryConvertDate (buf : Text) : Except DateError (Option Date) :=
  match parseDate buf with
  | none => .ok none
  | some c => some <$> fromDate c.year c.month c.day

def fromCString (buf : Text) : Except DateError Date := do
  match ← tryConvertDate buf with
  | some d => pure d
  | none =>
      throw (.conversionException
        ("date string " ++ asString buf ++ " is not in expected format of (YYYY-MM-DD)"))

end Date

/-! ## What the formatting functions write -/

theorem characterIsDigit_iff {c : UInt8} : characterIsDigit c ↔ IsDigit c := by
  rw [characterIsDigit, decide_eq_true_eq, UInt8.le_iff_toNat_le, UInt8.le_iff_toNat_le]
  rfl

theorem digits_getD : ∀ i < 100, digits.getD (i * 2) 0 = digitByte (i / 10) ∧
    digits.getD (i * 2 + 1) 0 = digitByte (i % 10) := by
  decide +kernel

/-- As many digits as the number needs. -/
theorem exists_formatUnsigned (value : ℕ) (ptr : Text) : ∃ k, 0 < k ∧ value < 10 ^ k ∧
    (k = 1 ∨ 10 ^ (k - 1) ≤ value) ∧ formatUnsigned value ptr = paddedDecimal k value ++ ptr := by
  fun_induction formatUnsigned value ptr with
  | case1 value ptr hlarge index ih =>
      obtain ⟨k, hk, hlt, hleast, heq⟩ := ih
      obtain ⟨hfirst, hsecond⟩ := digits_getD (value % 100) (Nat.mod_lt _ (by decide))
      refine ⟨k + 2, by omega, ?_, .inr ?_, ?_⟩
      · rw [pow_add]
        omega
      · rcases hleast with rfl | hleast
        · simpa using by omega
        · obtain ⟨j, rfl⟩ : ∃ j, k = j + 1 := ⟨k - 1, by omega⟩
          rw [Nat.add_sub_cancel] at hleast
          calc
            10 ^ (j + 1 + 2 - 1) = 10 ^ j * 100 := pow_add 10 j 2
            _ ≤ value / 100 * 100 := Nat.mul_le_mul_right 100 hleast
            _ ≤ value := Nat.div_mul_le_self value 100
      · have htens : value / 10 / 10 = value / 100 := by omega
        have hten : value % 100 / 10 = value / 10 % 10 := by omega
        have hone : value % 100 % 10 = value % 10 := by omega
        rw [heq, hfirst, hsecond, paddedDecimal, paddedDecimal, htens, hten, hone]
        simp
  | case2 value ptr hlarge hsmall =>
      refine ⟨1, by decide, by simpa using hsmall, .inl rfl, ?_⟩
      rw [paddedDecimal, Nat.mod_eq_of_lt hsmall]
      rfl
  | case3 value ptr hlarge hsmall index =>
      obtain ⟨hfirst, hsecond⟩ := digits_getD value (by omega)
      refine ⟨2, by decide, by omega, .inr (by simpa using hsmall), ?_⟩
      have hten : value / 10 % 10 = value / 10 := Nat.mod_eq_of_lt (by omega)
      rw [hfirst, hsecond, paddedDecimal, paddedDecimal, hten]
      rfl

theorem formatPadded_eq {length value : ℕ} (hlength : 0 < length) (h : value < 10 ^ length) :
    formatPadded length value = paddedDecimal length value := by
  obtain ⟨k, hk, hlt, hleast, heq⟩ := exists_formatUnsigned value []
  have hle : k ≤ length := by
    rcases hleast with rfl | hleast
    · exact hlength
    · have hpow := (Nat.pow_lt_pow_iff_right (show 1 < 10 by decide)).mp (hleast.trans_lt h)
      omega
  have hpad := paddedDecimal_add hlt (length - k)
  rw [Nat.sub_add_cancel hle] at hpad
  rw [formatPadded, heq, List.append_nil, hpad, List.leftpad, length_paddedDecimal]

theorem formatTwoDigits_eq {value : ℕ} (h : value < 100) :
    formatTwoDigits value = paddedDecimal 2 value := by
  have hten : value / 10 % 10 = value / 10 := Nat.mod_eq_of_lt (by omega)
  rw [formatTwoDigits, paddedDecimal, paddedDecimal, hten]
  split_ifs with hsmall
  · rw [Nat.mod_eq_of_lt hsmall, Nat.div_eq_of_lt hsmall]
    rfl
  · obtain ⟨hfirst, hsecond⟩ := digits_getD value h
    change [digits.getD (value * 2) 0, digits.getD (value * 2 + 1) 0] = _
    rw [hfirst, hsecond]
    rfl

namespace Date

theorem yearFormat_of_pos {year : ℕ} (hpos : 0 < year) (h : year < 100000000) :
    (yearFormat year).year = year ∧ (yearFormat year).addBc = false ∧
      0 < (yearFormat year).yearLength ∧ year < 10 ^ (yearFormat year).yearLength := by
  have hbc : decide ((year : ℤ) ≤ 0) = false := decide_eq_false (by omega)
  simp only [yearFormat, hbc, Bool.false_eq_true, if_false, Int.toNat_natCast, true_and]
  refine ⟨by omega, ?_⟩
  split_ifs <;> omega

/-- A date from year 1 on has no suffix. -/
theorem format_eq {year month day : ℕ} (hpos : 0 < year) (hyear : year < 100000000)
    (hmonth : month < 100) (hday : day < 100) : ∃ k, year < 10 ^ k ∧ 0 < k ∧
      format ⟨year, month, day⟩ = paddedDecimal k year ++ 45 :: paddedDecimal 2 month ++
        45 :: paddedDecimal 2 day := by
  obtain ⟨hvalue, hbc, hlength, hlt⟩ := yearFormat_of_pos hpos hyear
  refine ⟨(yearFormat year).yearLength, hlt, hlength, ?_⟩
  simp only [format, hvalue, hbc, Int.toNat_natCast, formatPadded_eq hlength hlt,
    formatTwoDigits_eq hmonth, formatTwoDigits_eq hday, Bool.false_eq_true, if_false,
    List.append_nil]

/-! ## What the parsing functions accept -/

/-- The text goes on with something other than a digit, or ends. -/
def NoDigit (buf : Text) : Prop := ∀ c ∈ buf.head?, ¬characterIsDigit c

theorem noDigit_nil : NoDigit [] := by
  rintro c ⟨⟩

theorem noDigit_cons {c : UInt8} {buf : Text} (h : ¬characterIsDigit c) : NoDigit (c :: buf) := by
  rintro c' hc'
  obtain rfl := Option.some.inj hc'
  exact h

theorem digitOf_eq {c : UInt8} (h : characterIsDigit c) : digitOf c = digitValue c := by
  obtain ⟨hmin, hmax⟩ := characterIsDigit_iff.mp h
  rw [digitOf, digitValue]
  omega

theorem parseYear_append {ds buf : Text} {year : ℤ} (hds : ∀ c ∈ ds, characterIsDigit c)
    (hbuf : NoDigit buf) (h₀ : 0 ≤ year)
    (hle : year * 10 ^ ds.length + decimalValue ds ≤ maxYear) :
    parseYear year (ds ++ buf) = (year * 10 ^ ds.length + decimalValue ds, buf) := by
  induction ds generalizing year with
  | nil =>
      cases buf with
      | nil => simp [parseYear]
      | cons c buf => simp [parseYear, hbuf c rfl]
  | cons c ds ih =>
      have hc := hds c List.mem_cons_self
      have hvalue : (year * 10 + digitValue c) * 10 ^ ds.length + decimalValue ds =
          year * 10 ^ (c :: ds).length + decimalValue (c :: ds) := by
        rw [decimalValue_cons, List.length_cons, pow_succ]
        push_cast
        ring
      have hprefix : year * 10 + digitValue c ≤ maxYear := by
        refine le_trans ?_ (hvalue.trans_le hle)
        have hpow : (1 : ℤ) ≤ 10 ^ ds.length := one_le_pow₀ (by decide)
        have hscale := le_mul_of_one_le_right (show 0 ≤ year * 10 + digitValue c by omega) hpow
        omega
      rw [List.cons_append, parseYear, if_pos hc, digitOf_eq hc, Int.add_comm,
        if_neg hprefix.not_gt, ih (fun d hd ↦ hds d (List.mem_cons_of_mem _ hd)) (by omega)
          (hvalue.trans_le hle), hvalue]

/-- The loop takes the digits up to the end of the number, or stops in front of one. -/
theorem parseYear_cases (year : ℤ) (buf : Text) : ∃ ds, (∀ c ∈ ds, characterIsDigit c) ∧
    buf = ds ++ (parseYear year buf).2 ∧
    ((parseYear year buf).1 = year * 10 ^ ds.length + decimalValue ds ∧
        (year ≤ maxYear → (parseYear year buf).1 ≤ maxYear) ∨
      ∃ c rest, (parseYear year buf).2 = c :: rest ∧ characterIsDigit c) := by
  induction buf generalizing year with
  | nil => exact ⟨[], by simp, rfl, .inl ⟨by simp [parseYear], id⟩⟩
  | cons c buf ih =>
      by_cases hc : characterIsDigit c
      · rw [parseYear, if_pos hc]
        simp only
        split_ifs with hlt
        · exact ⟨[], by simp, rfl, .inr ⟨c, buf, rfl, hc⟩⟩
        · obtain ⟨ds, hds, hbuf, hend⟩ := ih (digitOf c + year * 10)
          refine ⟨c :: ds, ?_, congrArg (c :: ·) hbuf, ?_⟩
          · rintro d (_ | ⟨_, hd⟩)
            · exact hc
            · exact hds d hd
          · rcases hend with ⟨hvalue, hle⟩ | hend
            · refine .inl ⟨?_, fun _ ↦ hle (not_lt.mp hlt)⟩
              rw [hvalue, digitOf_eq hc, decimalValue_cons, List.length_cons, pow_succ]
              push_cast
              ring
            · exact .inr hend
      · rw [parseYear, if_neg hc]
        exact ⟨[], by simp, rfl, .inl ⟨by simp, id⟩⟩

theorem parseDoubleDigit_append {ds buf : Text} (hds : ∀ c ∈ ds, characterIsDigit c)
    (hlength : ds.length = 1 ∨ ds.length = 2) (hbuf : NoDigit buf) :
    parseDoubleDigit (ds ++ buf) = some ((decimalValue ds : ℤ), buf) := by
  rcases hlength with hlength | hlength
  · obtain ⟨c, rfl⟩ := List.length_eq_one_iff.mp hlength
    have hc := hds c (by simp)
    cases buf with
    | nil => simp [parseDoubleDigit, hc, digitOf_eq hc, decimalValue_cons]
    | cons c' buf =>
        simp [parseDoubleDigit, hc, hbuf c' rfl, digitOf_eq hc, decimalValue_cons]
  · obtain ⟨c, c', rfl⟩ := List.length_eq_two.mp hlength
    have hc := hds c (by simp)
    have hc' := hds c' (by simp)
    simp [parseDoubleDigit, hc, hc', digitOf_eq hc, digitOf_eq hc', decimalValue_cons]
    omega

theorem exists_of_parseDoubleDigit {buf rest : Text} {n : ℤ}
    (h : parseDoubleDigit buf = some (n, rest)) : ∃ ds, (∀ c ∈ ds, characterIsDigit c) ∧
      (ds.length = 1 ∨ ds.length = 2) ∧ buf = ds ++ rest ∧ n = decimalValue ds := by
  cases buf with
  | nil => cases h
  | cons c buf =>
      have hone (hc : characterIsDigit c) (h : some (digitOf c, buf) = some (n, rest)) :
          ∃ ds, (∀ c ∈ ds, characterIsDigit c) ∧ (ds.length = 1 ∨ ds.length = 2) ∧
            c :: buf = ds ++ rest ∧ n = decimalValue ds := by
        obtain ⟨rfl, rfl⟩ := Prod.mk.inj (Option.some.inj h)
        exact ⟨[c], by simpa using hc, .inl rfl, rfl, by simp [digitOf_eq hc, decimalValue_cons]⟩
      cases buf with
      | nil =>
          simp only [parseDoubleDigit] at h
          split_ifs at h with hc
          exact hone hc h
      | cons c' buf =>
          simp only [parseDoubleDigit] at h
          split_ifs at h with hc hc'
          · obtain ⟨rfl, rfl⟩ := Prod.mk.inj (Option.some.inj h)
            refine ⟨[c, c'], by simpa using ⟨hc, hc'⟩, .inr rfl, rfl, ?_⟩
            simp [digitOf_eq hc, digitOf_eq hc', decimalValue_cons]
            omega
          · exact hone hc h

/-! ## The texts of dates -/

/-- A text of the format, with its parts. -/
structure Literal where
  leading : Text
  year : Text
  separator : UInt8
  month : Text
  day : Text
  trailing : Text
  leading_space : ∀ c ∈ leading, characterIsSpace c
  year_ne_nil : year ≠ []
  year_digit : ∀ c ∈ year, characterIsDigit c
  year_le : decimalValue year ≤ maxYear
  separator_mem : isSeparator separator
  month_digit : ∀ c ∈ month, characterIsDigit c
  month_length : month.length = 1 ∨ month.length = 2
  day_digit : ∀ c ∈ day, characterIsDigit c
  day_length : day.length = 1 ∨ day.length = 2
  trailing_space : ∀ c ∈ trailing, characterIsSpace c

namespace Literal

def text (l : Literal) : Text :=
  l.leading ++ (l.year ++ l.separator :: (l.month ++ l.separator :: (l.day ++ l.trailing)))

def civil (l : Literal) : Civil := ⟨decimalValue l.year, decimalValue l.month, decimalValue l.day⟩

end Literal

theorem not_digit_of_space {c : UInt8} (h : characterIsSpace c) : ¬characterIsDigit c := by
  rw [characterIsSpace, decide_eq_true_eq] at h
  rcases h with rfl | rfl | rfl | rfl | rfl | rfl <;> decide

theorem not_digit_of_separator {c : UInt8} (h : isSeparator c) : ¬characterIsDigit c := by
  rw [isSeparator, decide_eq_true_eq] at h
  rcases h with rfl | rfl | rfl | rfl <;> decide

theorem noDigit_of_space {buf : Text} (h : ∀ c ∈ buf, characterIsSpace c) : NoDigit buf := by
  cases buf with
  | nil => exact noDigit_nil
  | cons c buf => exact noDigit_cons (not_digit_of_space (h c List.mem_cons_self))

theorem skipSpaces_append {spaces buf : Text} (h : ∀ c ∈ spaces, characterIsSpace c) :
    skipSpaces (spaces ++ buf) = skipSpaces buf := by
  rw [skipSpaces, List.dropWhile_append_of_pos h]
  rfl

theorem skipSpaces_cons {c : UInt8} {buf : Text} (h : characterIsDigit c) :
    skipSpaces (c :: buf) = c :: buf := by
  have hspace : ¬characterIsSpace c := fun hc ↦ not_digit_of_space hc h
  rw [skipSpaces, List.dropWhile_cons_of_neg hspace]

theorem skipSpaces_eq_nil_iff {buf : Text} :
    skipSpaces buf = [] ↔ ∀ c ∈ buf, characterIsSpace c := by
  rw [skipSpaces, List.dropWhile_eq_nil_iff]

theorem nextChar_eq_some_iff {c : UInt8} {buf rest : Text} :
    nextChar buf = some (c, rest) ↔ buf = c :: rest := by
  cases buf with
  | nil => exact iff_of_false (fun h ↦ by cases h) fun h ↦ by cases h
  | cons c' buf => simp [nextChar]

/-- What each step of `parseDate` finds. -/
theorem parseDate_eq_some_iff {buf : Text} {c : Civil} : parseDate buf = some c ↔
    ∃ first rest sep buf₁ buf₂ buf₃, skipSpaces buf = first :: rest ∧ characterIsDigit first ∧
      parseYear 0 (skipSpaces buf) = (c.year, sep :: buf₁) ∧ isSeparator sep ∧
      parseDoubleDigit buf₁ = some (c.month, sep :: buf₂) ∧
      parseDoubleDigit buf₂ = some (c.day, buf₃) ∧ skipSpaces buf₃ = [] := by
  constructor
  · intro h
    simp only [parseDate, Option.bind_eq_bind, Option.bind_eq_some_iff,
      Option.guard_eq_some'] at h
    obtain ⟨⟨first, rest⟩, hfirst, -, hdigit, ⟨sep, buf₁⟩, hyear, -, hsep, ⟨month, buf⟩, hmonth,
      ⟨c', buf₂⟩, hsecond, -, hsame, ⟨day, buf₃⟩, hday, -, hend, hc⟩ := h
    rw [nextChar_eq_some_iff] at hfirst hyear hsecond
    obtain rfl := Option.some.inj hc
    exact ⟨first, rest, sep, buf₁, buf₂, buf₃, hfirst, hdigit, Prod.ext rfl hyear, hsep,
      by rw [hmonth, show buf = c' :: buf₂ from hsecond, show c' = sep from hsame], hday, hend⟩
  · rintro ⟨first, rest, sep, buf₁, buf₂, buf₃, hfirst, hdigit, hyear, hsep, hmonth, hday, hend⟩
    rw [hfirst] at hyear
    simp [parseDate, hfirst, nextChar, hdigit, hyear, hsep, hmonth, hday, hend]

theorem parseDate_text (l : Literal) : parseDate l.text = some l.civil := by
  have hyear := @parseYear_append l.year (l.separator :: (l.month ++ l.separator ::
    (l.day ++ l.trailing))) 0 l.year_digit
    (noDigit_cons (not_digit_of_separator l.separator_mem)) (le_refl 0) (by simpa using l.year_le)
  have hmonth := @parseDoubleDigit_append l.month (l.separator :: (l.day ++ l.trailing))
    l.month_digit l.month_length (noDigit_cons (not_digit_of_separator l.separator_mem))
  have hday := parseDoubleDigit_append l.day_digit l.day_length (noDigit_of_space l.trailing_space)
  obtain ⟨c, year, hl⟩ := List.exists_cons_of_ne_nil l.year_ne_nil
  have hc : characterIsDigit c := l.year_digit c (by rw [hl]; exact List.mem_cons_self)
  have hskip : skipSpaces l.text = l.year ++ l.separator :: (l.month ++ l.separator ::
      (l.day ++ l.trailing)) := by
    rw [Literal.text, skipSpaces_append l.leading_space, hl, List.cons_append, skipSpaces_cons hc]
  refine parseDate_eq_some_iff.mpr ⟨c, year ++ l.separator :: (l.month ++ l.separator ::
    (l.day ++ l.trailing)), l.separator, _, _, _, ?_, hc, ?_, l.separator_mem, hmonth, hday,
    skipSpaces_eq_nil_iff.mpr l.trailing_space⟩
  · rw [hskip, hl]
    rfl
  · rw [hskip, hyear, zero_mul, zero_add]
    rfl

theorem exists_literal {buf : Text} {c : Civil} (h : parseDate buf = some c) :
    ∃ l : Literal, l.text = buf ∧ l.civil = c := by
  obtain ⟨first, rest, sep, buf₁, buf₂, buf₃, hfirst, hdigit, hyear, hsep, hmonth, hday, hend⟩ :=
    parseDate_eq_some_iff.mp h
  obtain ⟨year, hyearDigit, hyearText, hvalue⟩ := parseYear_cases 0 (skipSpaces buf)
  obtain ⟨month, hmonthDigit, hmonthLength, hmonthText, hmonthValue⟩ :=
    exists_of_parseDoubleDigit hmonth
  obtain ⟨day, hdayDigit, hdayLength, hdayText, hdayValue⟩ := exists_of_parseDoubleDigit hday
  rw [hyear] at hyearText hvalue
  -- the loop has not stopped in front of a digit, since the separator is none
  obtain ⟨hvalue, hle⟩ : c.year = decimalValue year ∧ c.year ≤ maxYear := by
    rcases hvalue with ⟨hvalue, hle⟩ | ⟨c', rest', hrest, hc'⟩
    · exact ⟨by simpa using hvalue, hle (by decide)⟩
    · obtain ⟨rfl, -⟩ := List.cons.inj hrest
      exact absurd hc' (not_digit_of_separator hsep)
  have hne : year ≠ [] := by
    rintro rfl
    rw [hfirst] at hyearText
    obtain ⟨rfl, -⟩ := List.cons.inj hyearText
    exact not_digit_of_separator hsep hdigit
  have htext : buf = buf.takeWhile characterIsSpace ++ skipSpaces buf :=
    List.takeWhile_append_dropWhile.symm
  refine ⟨{
    leading := buf.takeWhile characterIsSpace
    year, separator := sep, month, day, trailing := buf₃
    leading_space := fun c hc ↦ List.mem_takeWhile_imp hc
    year_ne_nil := hne
    year_digit := hyearDigit
    year_le := hvalue ▸ hle
    separator_mem := hsep
    month_digit := hmonthDigit
    month_length := hmonthLength
    day_digit := hdayDigit
    day_length := hdayLength
    trailing_space := skipSpaces_eq_nil_iff.mp hend }, ?_, ?_⟩
  · rw [Literal.text, ← hdayText, ← hmonthText, ← hyearText, ← htext]
  · exact Civil.ext hvalue.symm hmonthValue.symm hdayValue.symm

/-- `TryConvertDate` returns true for the texts of valid dates. -/
theorem tryConvertDate_eq_some_iff {buf : Text} {d : Date} : tryConvertDate buf = .ok (some d) ↔
    ∃ l : Literal, l.text = buf ∧ fromDate l.civil.year l.civil.month l.civil.day = .ok d := by
  rw [tryConvertDate]
  cases hparse : parseDate buf with
  | none =>
      refine iff_of_false (fun h ↦ by cases h) ?_
      rintro ⟨l, rfl, -⟩
      rw [parseDate_text] at hparse
      cases hparse
  | some c =>
      obtain ⟨l, hl, rfl⟩ := exists_literal hparse
      constructor
      · intro h
        refine ⟨l, hl, ?_⟩
        cases hdate : fromDate l.civil.year l.civil.month l.civil.day with
        | error e =>
            simp only [hdate] at h
            cases h
        | ok d' =>
            simp only [hdate] at h
            exact congrArg Except.ok (Option.some.inj (Except.ok.inj h))
      · rintro ⟨l', rfl, hdate⟩
        rw [parseDate_text] at hparse
        rw [← Option.some.inj hparse]
        simp only [hdate]
        rfl

/-- For the texts of dates that do not exist it throws. -/
theorem tryConvertDate_eq_error_iff {buf : Text} {e : DateError} :
    tryConvertDate buf = .error e ↔ ∃ l : Literal, l.text = buf ∧ ¬Accepted l.civil ∧
      e = outOfRange l.civil.year l.civil.month l.civil.day := by
  rw [tryConvertDate]
  cases hparse : parseDate buf with
  | none =>
      refine iff_of_false (fun h ↦ by cases h) ?_
      rintro ⟨l, rfl, -⟩
      rw [parseDate_text] at hparse
      cases hparse
  | some c =>
      obtain ⟨l, hl, rfl⟩ := exists_literal hparse
      by_cases haccepted : Accepted l.civil
      · obtain ⟨d, hd⟩ := exists_fromDate haccepted
        simp only [hd]
        refine iff_of_false (fun h ↦ by cases h) ?_
        rintro ⟨l', rfl, hl', -⟩
        rw [parseDate_text] at hparse
        exact hl' (Option.some.inj hparse ▸ haccepted)
      · have herror : fromDate l.civil.year l.civil.month l.civil.day =
            .error (outOfRange l.civil.year l.civil.month l.civil.day) :=
          fromDate_of_not_accepted haccepted
        simp only [herror]
        constructor
        · intro h
          exact ⟨l, hl, haccepted, (Except.error.inj h).symm⟩
        · rintro ⟨l', rfl, -, rfl⟩
          rw [parseDate_text] at hparse
          rw [Option.some.inj hparse]
          rfl

/-! ## Round trips -/

theorem monthLength_le (year month : ℤ) : monthLength year month ≤ 31 := by
  rw [monthLength]
  split_ifs <;> decide

/-- The text of a date from year 1 on is one of the format. -/
theorem exists_literal_format {c : Civil} (h : c.Valid) (hpos : 1 ≤ c.year)
    (hmax : c.year ≤ maxYear) : ∃ l : Literal, l.text = format c ∧ l.civil = c ∧
      l.leading = [] ∧ l.trailing = [] ∧ l.separator = 45 := by
  obtain ⟨year, month, day⟩ := c
  obtain ⟨hmonth, hmonth', hday, hday'⟩ := h
  have hlength := monthLength_le year month
  simp only at hmonth hmonth' hday hday' hpos hmax
  obtain ⟨year, rfl⟩ := Int.eq_ofNat_of_zero_le (show 0 ≤ year by omega)
  obtain ⟨month, rfl⟩ := Int.eq_ofNat_of_zero_le (show 0 ≤ month by omega)
  obtain ⟨day, rfl⟩ := Int.eq_ofNat_of_zero_le (show 0 ≤ day by omega)
  have hsmall : year < 100000000 := by
    rw [maxYear] at hmax
    omega
  obtain ⟨k, hlt, hk, hformat⟩ := @format_eq year month day (by omega) hsmall (by omega) (by omega)
  have hdigit {j n : ℕ} (x : UInt8) (hx : x ∈ paddedDecimal j n) : characterIsDigit x :=
    characterIsDigit_iff.mpr (isDigit_of_mem_paddedDecimal hx)
  have hyearValue := decimalValue_paddedDecimal hlt
  have hmonthValue := decimalValue_paddedDecimal (show month < 10 ^ 2 by omega)
  have hdayValue := decimalValue_paddedDecimal (show day < 10 ^ 2 by omega)
  refine ⟨{
    leading := []
    year := paddedDecimal k year
    separator := 45
    month := paddedDecimal 2 month
    day := paddedDecimal 2 day
    trailing := []
    leading_space := fun x hx ↦ absurd hx List.not_mem_nil
    year_ne_nil := by
      rw [← List.length_pos_iff, length_paddedDecimal]
      exact hk
    year_digit := hdigit
    year_le := by rwa [hyearValue]
    separator_mem := rfl
    month_digit := hdigit
    month_length := .inr (length_paddedDecimal _ _)
    day_digit := hdigit
    day_length := .inr (length_paddedDecimal _ _)
    trailing_space := fun x hx ↦ absurd hx List.not_mem_nil }, ?_, ?_, rfl, rfl, rfl⟩
  · rw [hformat, Literal.text]
    simp
  · exact Civil.ext (congrArg Nat.cast hyearValue) (congrArg Nat.cast hmonthValue)
      (congrArg Nat.cast hdayValue)

/-- The text of a date is converted to the date. -/
theorem tryConvertDate_format {d : Date} {c : Civil} (h : convert d = .ok c) (hpos : 1 ≤ c.year)
    (hmax : c.year ≤ maxYear) : tryConvertDate (format c) = .ok (some d) := by
  obtain ⟨hvalid, hnumber⟩ := convert_eq_ok_iff.mp h
  obtain ⟨l, htext, hcivil, -⟩ := exists_literal_format hvalid hpos hmax
  refine tryConvertDate_eq_some_iff.mpr ⟨l, htext, ?_⟩
  rw [hcivil, fromDate_civil_eq_ok_iff]
  exact ⟨⟨hvalid, by rw [minYear]; omega, hmax⟩, hnumber⟩

theorem fromCString_toString {d : Date} {c : Civil} (h : convert d = .ok c) (hpos : 1 ≤ c.year)
    (hmax : c.year ≤ maxYear) : (toString d >>= fromCString) = .ok d := by
  rw [toString, h, ok_bind, pure_eq_ok, ok_bind, fromCString, tryConvertDate_format h hpos hmax]
  rfl

end Date

end Graphflow
