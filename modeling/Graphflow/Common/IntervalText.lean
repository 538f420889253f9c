import Graphflow.Common.DateText
import Graphflow.Common.Interval

/-!
# Intervals as text

`Interval::FromCString`.  A text is a sequence of fields, each of which is a number and a unit.  The
number goes through `stoi`, which throws an exception of the standard library, and the sums are cut
to the widths of the fields of the interval.
-/

namespace Graphflow

open Lib

/-- `outOfRange` is the exception `std::out_of_range`, which is none of the system's own. -/
inductive IntervalError
  | conversionException (message : String)
  | outOfRange
  deriving DecidableEq, Repr

/-- `::tolower` -/
def toLower (c : UInt8) : UInt8 := if 65 ≤ c ∧ c ≤ 90 then c + 32 else c

/-- `stoi` of a text that begins with a digit. -/
def stoi (text : Text) : Except IntervalError (ℕ × Text) :=
  let number := decimalValue (text.takeWhile characterIsDigit)
  if number < 2 ^ 31 then pure (number, text.dropWhile characterIsDigit) else throw .outOfRange

namespace Interval

def microsPerMsec : ℕ := 1000

def microsPerSec : ℕ := microsPerMsec * 1000

def microsPerMinute : ℕ := microsPerSec * 60

def microsPerHour : ℕ := microsPerMinute * 60

/-- `+=` with an unsigned number on the right. -/
def plus32 (field : Int32) (number : ℕ) : Int32 := Int32.ofInt (field.toInt + number)

def plus64 (field : Int64) (number : ℕ) : Int64 := Int64.ofInt (field.toInt + number)

def addition (result : Interval) (number : ℕ) (specifierStr : Text) :
    Except IntervalError Interval :=
  let specifierStr := asString (specifierStr.map toLower)
  if specifierStr ∈ ["year", "years", "y"] then
    .ok { result with months := plus32 result.months (number * 12) }
  else if specifierStr ∈ ["month", "months", "mon"] then
    .ok { result with months := plus32 result.months number }
  else if specifierStr ∈ ["day", "days", "d"] then
    .ok { result with days := plus32 result.days number }
  else if specifierStr ∈ ["hour", "hours", "h"] then
    .ok { result with micros := plus64 result.micros (number * microsPerHour) }
  else if specifierStr ∈ ["minute", "minutes", "m"] then
    .ok { result with micros := plus64 result.micros (number * microsPerMinute) }
  else if specifierStr ∈ ["second", "seconds", "s"] then
    .ok { result with micros := plus64 result.micros (number * microsPerSec) }
  else if specifierStr ∈ ["millisecond", "milliseconds", "ms", "msec"] then
    .ok { result with micros := plus64 result.micros (number * microsPerMsec) }
  else if specifierStr ∈ ["microsecond", "microseconds", "us"] then
    .ok { result with micros := plus64 result.micros number }
  else .error (.conversionException ("Unrecognized interval specifier string: " ++ specifierStr))

def notInFormat (str : Text) : IntervalError :=
  .conversionException (asString str ++ " is not in a correct format")

/-- `text` is what comes behind `pos`; the result is what comes behind the specifier. -/
def parseIntervalField (buf text : Text) (result : Interval) :
    Except IntervalError (Text × Interval) := do
  let (number, text) ← stoi text
  let text := skipSpaces text
  if text = [] then throw (notInFormat buf)
  let result ← addition result number (text.takeWhile (· ≠ 32))
  pure (text.dropWhile (· ≠ 32), result)

theorem length_parseIntervalField {buf text rest : Text} {result result' : Interval}
    (h : parseIntervalField buf text result = .ok (rest, result')) :
    rest.length ≤ text.length := by
  obtain ⟨⟨number, behind⟩, hnumber, h⟩ := bind_eq_ok_iff.mp h
  have hbehind : behind.length ≤ text.length := by
    rw [stoi] at hnumber
    split_ifs at hnumber
    cases hnumber
    exact (List.dropWhile_suffix _).length_le
  dsimp only at h
  split_ifs at h
  · cases h
  · obtain ⟨result₁, -, h⟩ := bind_eq_ok_iff.mp h
    cases h
    exact ((List.dropWhile_suffix _).length_le.trans (List.dropWhile_suffix _).length_le).trans
      hbehind

/-- The loop of `FromCString`; `str` is the whole text. -/
def parseFields (str : Text) (text : Text) (result : Interval) : Except IntervalError Interval :=
  match text with
  | [] => pure result
  | c :: rest =>
      if characterIsDigit c then
        match h : parseIntervalField str (c :: rest) result with
        | .error e => throw e
        | .ok (behind, result) =>
            have _ := length_parseIntervalField h
            parseFields str behind.tail result
      else if characterIsSpace c then parseFields str rest result
      else throw (notInFormat str)
termination_by text.length
decreasing_by
  · simp only [List.length_tail, List.length_cons] at *
    omega
  · simp

/-- The text behind an `'@'` at its beginning. -/
def skipAt (str : Text) : Text := if str.head? = some 64 then str.tail else str

def fromCString (str : Text) : Except IntervalError Interval :=
  parseFields str (skipAt str) ⟨0, 0, 0⟩

end Interval

/-! ## What a text says -/

inductive IntervalUnit
  | year | month | day | hour | minute | second | millisecond | microsecond
  deriving DecidableEq, Repr

namespace IntervalUnit

def names : IntervalUnit → List String
  | year => ["year", "years", "y"]
  | month => ["month", "months", "mon"]
  | day => ["day", "days", "d"]
  | hour => ["hour", "hours", "h"]
  | minute => ["minute", "minutes", "m"]
  | second => ["second", "seconds", "s"]
  | millisecond => ["millisecond", "milliseconds", "ms", "msec"]
  | microsecond => ["microsecond", "microseconds", "us"]

/-- Upper and lower case make no difference. -/
def Named (u : IntervalUnit) (specifier : Text) : Prop :=
  asString (specifier.map toLower) ∈ u.names

instance (u : IntervalUnit) (specifier : Text) : Decidable (u.Named specifier) :=
  inferInstanceAs (Decidable (_ ∈ u.names))

def months : IntervalUnit → ℕ
  | year => 12
  | month => 1
  | _ => 0

def days : IntervalUnit → ℕ
  | day => 1
  | _ => 0

def micros : IntervalUnit → ℕ
  | hour => Interval.microsPerHour
  | minute => Interval.microsPerMinute
  | second => Interval.microsPerSec
  | millisecond => Interval.microsPerMsec
  | microsecond => 1
  | _ => 0

end IntervalUnit

namespace Interval

/-- A field of a text. -/
structure Field where
  number : ℕ
  unit : IntervalUnit
  deriving DecidableEq, Repr

/-- The fields of a text up to some point between two of them. -/
inductive HasFields : Text → List Field → Text → Prop
  | nil (rest : Text) : HasFields rest [] rest
  | space {c : UInt8} {text rest : Text} {fields : List Field} (hc : characterIsSpace c)
      (h : HasFields text fields rest) : HasFields (c :: text) fields rest
  | field {digits spaces specifier behind rest : Text} {unit : IntervalUnit} {fields : List Field}
      (hdigits : ∀ c ∈ digits, characterIsDigit c) (hne : digits ≠ [])
      (hspaces : ∀ c ∈ spaces, characterIsSpace c) (hunit : unit.Named specifier)
      (hbehind : ∀ c ∈ behind.head?, c = 32) (h : HasFields behind.tail fields rest) :
      HasFields (digits ++ (spaces ++ (specifier ++ behind)))
        (⟨decimalValue digits, unit⟩ :: fields) rest

def totalMonths (fields : List Field) : ℕ := (fields.map fun f ↦ f.number * f.unit.months).sum

def totalDays (fields : List Field) : ℕ := (fields.map fun f ↦ f.number * f.unit.days).sum

def totalMicros (fields : List Field) : ℕ := (fields.map fun f ↦ f.number * f.unit.micros).sum

/-- What the code makes of the fields: each sum is cut to its width. -/
def plusFields (result : Interval) (fields : List Field) : Interval :=
  { months := plus32 result.months (totalMonths fields)
    days := plus32 result.days (totalDays fields)
    micros := plus64 result.micros (totalMicros fields) }

end Interval

/-! ## Units -/

section Units

variable {u : IntervalUnit} {specifier : Text} {c : UInt8}

theorem isLower_of_mem_names : ∀ u : IntervalUnit, ∀ name ∈ u.names,
    name.toList ≠ [] ∧ ∀ ch ∈ name.toList, ch.isLower := by
  intro u name hname
  have hall : (u.names.all fun name ↦ !name.toList.isEmpty && name.toList.all Char.isLower) =
      true := by
    cases u <;> rfl
  have hletters := List.all_eq_true.mp hall name hname
  rw [Bool.and_eq_true, Bool.not_eq_true', List.isEmpty_eq_false_iff, List.all_eq_true] at hletters
  exact hletters

theorem isLower_toLower : ∀ n : Fin 256,
    (Char.ofNat (toLower (UInt8.ofNat n)).toNat).isLower →
      ¬characterIsSpace (UInt8.ofNat n) ∧ ¬characterIsDigit (UInt8.ofNat n) := by
  decide +kernel

/-- The names are words of letters. -/
theorem IntervalUnit.Named.letters (h : u.Named specifier) :
    specifier ≠ [] ∧ ∀ c ∈ specifier, ¬characterIsSpace c ∧ ¬characterIsDigit c := by
  obtain ⟨hne, hlower⟩ := isLower_of_mem_names u _ h
  constructor
  · rintro rfl
    exact hne rfl
  · intro c hc
    have hmem : Char.ofNat (toLower c).toNat ∈ (asString (specifier.map toLower)).toList := by
      rw [asString, String.toList_ofList]
      exact List.mem_map_of_mem (List.mem_map_of_mem hc)
    have hbyte := isLower_toLower ⟨c.toNat, c.toNat_lt⟩
    rw [UInt8.ofNat_toNat] at hbyte
    exact hbyte (hlower _ hmem)

namespace Interval

variable {result : Interval} {number : ℕ}

theorem plus32_zero (field : Int32) : plus32 field 0 = field := by
  rw [plus32, Int.natCast_zero, Int.add_zero, Int32.ofInt_toInt]

theorem plus64_zero (field : Int64) : plus64 field 0 = field := by
  rw [plus64, Int.natCast_zero, Int.add_zero, Int64.ofInt_toInt]

/-- Cutting the sum once is as good as cutting it after each field. -/
theorem plus32_plus32 (field : Int32) (m n : ℕ) :
    plus32 (plus32 field m) n = plus32 field (m + n) := by
  simp only [plus32, Int32.ofInt_add, Int32.ofInt_toInt, Nat.cast_add, Int32.add_assoc]

theorem plus64_plus64 (field : Int64) (m n : ℕ) :
    plus64 (plus64 field m) n = plus64 field (m + n) := by
  simp only [plus64, Int64.ofInt_add, Int64.ofInt_toInt, Nat.cast_add, Int64.add_assoc]

theorem plusFields_nil (result : Interval) : result.plusFields [] = result := by
  simp only [plusFields, totalMonths, totalDays, totalMicros, List.map_nil, List.sum_nil,
    plus32_zero, plus64_zero]

theorem plusFields_cons (result : Interval) (f : Field) (fields : List Field) :
    result.plusFields (f :: fields) = (result.plusFields [f]).plusFields fields := by
  simp only [plusFields, totalMonths, totalDays, totalMicros, List.map_cons, List.map_nil,
    List.sum_cons, List.sum_nil, Nat.add_zero, plus32_plus32, plus64_plus64]

/-- No word names two units. -/
theorem eq_of_mem_names : ∀ u v : IntervalUnit, ∀ name ∈ u.names, name ∈ v.names → v = u := by
  intro u v
  cases u <;> cases v <;> decide +kernel

theorem addition_of_named (h : u.Named specifier) :
    addition result number specifier = .ok (result.plusFields [⟨number, u⟩]) := by
  have hnames (v : IntervalUnit) : asString (specifier.map toLower) ∈ v.names ↔ v = u :=
    ⟨fun hv ↦ eq_of_mem_names u v _ h hv, fun hv ↦ hv ▸ h⟩
  have hyear := hnames .year
  have hmonth := hnames .month
  have hday := hnames .day
  have hhour := hnames .hour
  have hminute := hnames .minute
  have hsecond := hnames .second
  have hmillisecond := hnames .millisecond
  have hmicrosecond := hnames .microsecond
  simp only [IntervalUnit.names] at hyear hmonth hday hhour
  simp only [IntervalUnit.names] at hminute hsecond hmillisecond hmicrosecond
  simp only [addition, hyear, hmonth, hday, hhour, hminute, hsecond, hmillisecond, hmicrosecond,
    plusFields, totalMonths, totalDays, totalMicros, List.map_cons, List.map_nil, List.sum_cons,
    List.sum_nil, Nat.add_zero]
  cases u <;> simp [IntervalUnit.months, IntervalUnit.days, IntervalUnit.micros, plus32_zero,
    plus64_zero]

theorem addition_of_not_named (h : ∀ u : IntervalUnit, ¬u.Named specifier) :
    ∃ message, addition result number specifier = .error (.conversionException message) := by
  refine ⟨"Unrecognized interval specifier string: " ++ asString (specifier.map toLower), ?_⟩
  have hyear := h .year
  have hmonth := h .month
  have hday := h .day
  have hhour := h .hour
  have hminute := h .minute
  have hsecond := h .second
  have hmillisecond := h .millisecond
  have hmicrosecond := h .microsecond
  simp only [IntervalUnit.Named, IntervalUnit.names] at hyear hmonth hday hhour
  simp only [IntervalUnit.Named, IntervalUnit.names] at hminute hsecond hmillisecond hmicrosecond
  simp only [addition, hyear, hmonth, hday, hhour, hminute, hsecond, hmillisecond, hmicrosecond,
    if_false]

end Interval

end Units

/-! ## Reading the fields -/

namespace Interval

variable {text rest str digits spaces specifier behind : Text} {fields : List Field}
  {u : IntervalUnit}
  {result : Interval}

theorem takeWhile_append {p : UInt8 → Bool} {xs ys : Text} (hxs : ∀ c ∈ xs, p c)
    (hys : ∀ c ∈ ys.head?, ¬p c) : (xs ++ ys).takeWhile p = xs := by
  rw [List.takeWhile_append_of_pos hxs]
  cases ys with
  | nil => rw [List.takeWhile_nil, List.append_nil]
  | cons c ys => rw [List.takeWhile_cons_of_neg (hys c rfl), List.append_nil]

theorem dropWhile_append {p : UInt8 → Bool} {xs ys : Text} (hxs : ∀ c ∈ xs, p c)
    (hys : ∀ c ∈ ys.head?, ¬p c) : (xs ++ ys).dropWhile p = ys := by
  rw [List.dropWhile_append_of_pos hxs]
  cases ys with
  | nil => rfl
  | cons c ys => rw [List.dropWhile_cons_of_neg (hys c rfl)]

theorem not_digit_of_space {c : UInt8} (h : characterIsSpace c) : ¬characterIsDigit c := by
  rw [characterIsSpace, decide_eq_true_eq] at h
  rcases h with rfl | rfl | rfl | rfl | rfl | rfl <;> decide

/-- The spaces of a field end where its unit begins. -/
theorem not_space_head (hu : u.Named specifier) (behind : Text) :
    ∀ c ∈ (specifier ++ behind).head?, ¬characterIsSpace c := by
  obtain ⟨hne, hletters⟩ := hu.letters
  obtain ⟨c, specifier, rfl⟩ := List.exists_cons_of_ne_nil hne
  intro d hd
  cases Option.some.inj hd
  exact (hletters c List.mem_cons_self).1

/-- The number of a field ends where its spaces or its unit begin. -/
theorem not_digit_head (hspaces : ∀ c ∈ spaces, characterIsSpace c) (hu : u.Named specifier)
    (behind : Text) : ∀ c ∈ (spaces ++ (specifier ++ behind)).head?, ¬characterIsDigit c := by
  cases spaces with
  | nil =>
      obtain ⟨hne, hletters⟩ := hu.letters
      obtain ⟨c, specifier, rfl⟩ := List.exists_cons_of_ne_nil hne
      intro d hd
      cases Option.some.inj hd
      exact (hletters c List.mem_cons_self).2
  | cons c spaces =>
      intro d hd
      cases Option.some.inj hd
      exact not_digit_of_space (hspaces c List.mem_cons_self)

theorem parseIntervalField_of_field (hdigits : ∀ c ∈ digits, characterIsDigit c)
    (hspaces : ∀ c ∈ spaces, characterIsSpace c) (hu : u.Named specifier)
    (hbehind : ∀ c ∈ behind.head?, c = 32) (hfits : decimalValue digits < 2 ^ 31) :
    parseIntervalField str (digits ++ (spaces ++ (specifier ++ behind))) result =
      .ok (behind, result.plusFields [⟨decimalValue digits, u⟩]) := by
  obtain ⟨hne, hletters⟩ := hu.letters
  have hdigit := not_digit_head hspaces hu behind
  have hspace := not_space_head hu behind
  have hspecifier : ∀ c ∈ specifier, decide (c ≠ 32) = true := by
    intro c hc
    rw [decide_eq_true_eq]
    rintro rfl
    exact (hletters 32 hc).1 (by decide)
  have hend : ∀ c ∈ behind.head?, ¬decide (c ≠ 32) = true := by
    intro c hc
    rw [hbehind c hc]
    decide
  have hnonempty : specifier ++ behind ≠ [] := List.append_ne_nil_of_left_ne_nil hne behind
  have hstoi : stoi (digits ++ (spaces ++ (specifier ++ behind))) =
      .ok (decimalValue digits, spaces ++ (specifier ++ behind)) := by
    rw [stoi, takeWhile_append hdigits hdigit, dropWhile_append hdigits hdigit, if_pos hfits]
    rfl
  rw [parseIntervalField, hstoi, ok_bind]
  dsimp only
  rw [skipSpaces, dropWhile_append hspaces hspace, if_neg hnonempty,
    takeWhile_append hspecifier hend, dropWhile_append hspecifier hend, addition_of_named hu]
  rfl

theorem parseIntervalField_outOfRange (hdigits : ∀ c ∈ digits, characterIsDigit c)
    (hlarge : 2 ^ 31 ≤ decimalValue digits) (behind : Text) :
    parseIntervalField str (digits ++ behind) result = .error .outOfRange := by
  have hvalue := decimalValue_le_append digits (behind.takeWhile characterIsDigit)
  rw [parseIntervalField, stoi, List.takeWhile_append_of_pos hdigits, if_neg (by omega)]
  rfl

theorem parseFields_cons_digit {c : UInt8} (hc : characterIsDigit c) (text : Text) :
    parseFields str (c :: text) result =
      parseIntervalField str (c :: text) result >>= fun p ↦ parseFields str p.1.tail p.2 := by
  rw [parseFields, if_pos hc]
  split
  next e h =>
    conv_rhs => rw [h]
    rfl
  next behind result' h =>
    conv_rhs => rw [h]
    rfl

theorem parseFields_cons_space {c : UInt8} (hc : characterIsSpace c) (text : Text) :
    parseFields str (c :: text) result = parseFields str text result := by
  rw [parseFields, if_neg (not_digit_of_space hc), if_pos hc]

/-- The first step through the digits of a field. -/
theorem parseFields_digits (hdigits : ∀ c ∈ digits, characterIsDigit c) (hne : digits ≠ [])
    (text : Text) : parseFields str (digits ++ text) result =
      parseIntervalField str (digits ++ text) result >>= fun p ↦ parseFields str p.1.tail p.2 := by
  obtain ⟨c, digits, rfl⟩ := List.exists_cons_of_ne_nil hne
  exact parseFields_cons_digit (hdigits c List.mem_cons_self) _

theorem parseFields_outOfRange (hdigits : ∀ c ∈ digits, characterIsDigit c)
    (hlarge : 2 ^ 31 ≤ decimalValue digits) (behind : Text) :
    parseFields str (digits ++ behind) result = .error .outOfRange := by
  have hne : digits ≠ [] := by
    rintro rfl
    simp at hlarge
  rw [parseFields_digits hdigits hne, parseIntervalField_outOfRange hdigits hlarge]
  rfl

/-- Reading goes on where the fields end. -/
theorem parseFields_of_hasFields (h : HasFields text fields rest)
    (hfits : ∀ f ∈ fields, f.number < 2 ^ 31) (result : Interval) :
    parseFields str text result = parseFields str rest (result.plusFields fields) := by
  induction h generalizing result with
  | nil rest => rw [plusFields_nil]
  | space hc h ih => rw [parseFields_cons_space hc, ih hfits]
  | field hdigits hne hspaces hunit hbehind h ih =>
      obtain ⟨hnumber, hfits⟩ := List.forall_mem_cons.mp hfits
      rw [parseFields_digits hdigits hne,
        parseIntervalField_of_field hdigits hspaces hunit hbehind hnumber, ok_bind, ih hfits,
        ← plusFields_cons]

/-- A number that is too large ends the reading, wherever it stands. -/
theorem parseFields_of_large (h : HasFields text fields rest) {f : Field} (hf : f ∈ fields)
    (hlarge : 2 ^ 31 ≤ f.number) (result : Interval) :
    parseFields str text result = .error .outOfRange := by
  induction h generalizing result with
  | nil rest => exact absurd hf List.not_mem_nil
  | space hc h ih => rw [parseFields_cons_space hc, ih hf]
  | @field digits _ _ _ _ _ _ hdigits hne hspaces hunit hbehind h ih =>
      by_cases hfits : decimalValue digits < 2 ^ 31
      · have htail : f ∈ _ := (List.mem_cons.mp hf).resolve_left (by
          rintro rfl
          exact hlarge.not_gt hfits)
        rw [parseFields_digits hdigits hne,
          parseIntervalField_of_field hdigits hspaces hunit hbehind hfits, ok_bind]
        exact ih htail _
      · exact parseFields_outOfRange hdigits (not_lt.mp hfits) _

/-- What a field that was read without an error looks like. -/
theorem exists_field_of_parse {c : UInt8} (hc : characterIsDigit c) {result' : Interval}
    (h : parseIntervalField str (c :: text) result = .ok (behind, result')) :
    ∃ (digits spaces specifier : Text) (u : IntervalUnit),
      (∀ c ∈ digits, characterIsDigit c) ∧ digits ≠ [] ∧ (∀ c ∈ spaces, characterIsSpace c) ∧
      u.Named specifier ∧ (∀ c ∈ behind.head?, c = 32) ∧
      c :: text = digits ++ (spaces ++ (specifier ++ behind)) := by
  obtain ⟨⟨number, rest⟩, hstoi, h⟩ := bind_eq_ok_iff.mp h
  rw [stoi] at hstoi
  split_ifs at hstoi
  cases hstoi
  dsimp only at h
  split_ifs at h with hend
  · cases h
  obtain ⟨result₁, haddition, h⟩ := bind_eq_ok_iff.mp h
  cases h
  have hunit : ∃ u : IntervalUnit, u.Named ((skipSpaces
      ((c :: text).dropWhile characterIsDigit)).takeWhile (· ≠ 32)) := by
    by_contra hnone
    obtain ⟨message, herror⟩ := @addition_of_not_named _ result
      (decimalValue ((c :: text).takeWhile characterIsDigit)) (not_exists.mp hnone)
    rw [herror] at haddition
    cases haddition
  obtain ⟨u, hu⟩ := hunit
  refine ⟨(c :: text).takeWhile characterIsDigit,
    ((c :: text).dropWhile characterIsDigit).takeWhile characterIsSpace, _, u,
    fun c hc ↦ List.mem_takeWhile_imp hc, ?_, fun c hc ↦ List.mem_takeWhile_imp hc, hu, ?_, ?_⟩
  · rw [List.takeWhile_cons_of_pos hc]
    exact List.cons_ne_nil _ _
  · intro d hd
    have hnot := List.head?_dropWhile_not (· ≠ 32)
      (skipSpaces ((c :: text).dropWhile characterIsDigit))
    rw [Option.mem_def.mp hd] at hnot
    simpa using hnot
  · rw [List.takeWhile_append_dropWhile, skipSpaces, List.takeWhile_append_dropWhile,
      List.takeWhile_append_dropWhile]

theorem addition_error {number : ℕ} {e : IntervalError}
    (h : addition result number specifier = .error e) :
    ∃ message, e = .conversionException message := by
  by_cases hunit : ∃ u : IntervalUnit, u.Named specifier
  · obtain ⟨u, hu⟩ := hunit
    rw [addition_of_named hu] at h
    cases h
  · obtain ⟨message, herror⟩ := @addition_of_not_named _ result number (not_exists.mp hunit)
    rw [herror] at h
    cases h
    exact ⟨message, rfl⟩

theorem parseIntervalField_error {e : IntervalError}
    (h : parseIntervalField str text result = .error e) :
    (∃ message, e = .conversionException message) ∨
      e = .outOfRange ∧ 2 ^ 31 ≤ decimalValue (text.takeWhile characterIsDigit) := by
  rw [parseIntervalField, stoi] at h
  by_cases hfits : decimalValue (text.takeWhile characterIsDigit) < 2 ^ 31
  · rw [if_pos hfits, pure_eq_ok, ok_bind] at h
    dsimp only at h
    split_ifs at h with hend
    · cases h
      exact .inl ⟨_, rfl⟩
    · left
      cases haddition : addition result (decimalValue (text.takeWhile characterIsDigit))
          ((skipSpaces (text.dropWhile characterIsDigit)).takeWhile (· ≠ 32)) with
      | error e' =>
          rw [haddition] at h
          cases h
          exact addition_error haddition
      | ok result' =>
          rw [haddition] at h
          cases h
  · rw [if_neg hfits] at h
    cases h
    exact .inr ⟨rfl, not_lt.mp hfits⟩

/-- Where the reading stops. -/
theorem parseFields_cases (str text : Text) (result : Interval) :
    (∃ message, parseFields str text result = .error (.conversionException message)) ∨
    (parseFields str text result = .error .outOfRange ∧
      ∃ fields digits behind, HasFields text fields (digits ++ behind) ∧
        (∀ c ∈ digits, characterIsDigit c) ∧ 2 ^ 31 ≤ decimalValue digits) ∨
    ∃ fields, HasFields text fields [] ∧
      parseFields str text result = .ok (result.plusFields fields) := by
  fun_induction parseFields str text result with
  | case1 result => exact .inr (.inr ⟨[], .nil [], by rw [plusFields_nil]; rfl⟩)
  | case2 result c rest hc e h =>
      rcases parseIntervalField_error h with ⟨message, rfl⟩ | ⟨rfl, hlarge⟩
      · exact .inl ⟨message, rfl⟩
      · refine .inr (.inl ⟨rfl, [], (c :: rest).takeWhile characterIsDigit,
          (c :: rest).dropWhile characterIsDigit, ?_, fun c hc ↦ List.mem_takeWhile_imp hc, hlarge⟩)
        rw [List.takeWhile_append_dropWhile]
        exact .nil _
  | case3 result c rest hc behind result' h hlength ih =>
      obtain ⟨digits, spaces, specifier, u, hdigits, hne, hspaces, hu, hbehind, htext⟩ :=
        exists_field_of_parse hc h
      rw [htext] at h ⊢
      have hfield {fields : List Field} {rest' : Text}
          (hrest : HasFields behind.tail fields rest') :
          HasFields (digits ++ (spaces ++ (specifier ++ behind)))
            (⟨decimalValue digits, u⟩ :: fields) rest' :=
        .field hdigits hne hspaces hu hbehind hrest
      rcases ih with hmessage | ⟨hrange, fields, digits', behind', hfields, hlarge⟩ |
          ⟨fields, hfields, hok⟩
      · exact .inl hmessage
      · exact .inr (.inl ⟨hrange, _, digits', behind', hfield hfields, hlarge⟩)
      · refine .inr (.inr ⟨_, hfield hfields, ?_⟩)
        have hfits : decimalValue digits < 2 ^ 31 := by
          by_contra hlarge
          rw [parseIntervalField_outOfRange hdigits (not_lt.mp hlarge)] at h
          cases h
        rw [parseIntervalField_of_field hdigits hspaces hu hbehind hfits] at h
        cases h
        rw [hok, ← plusFields_cons]
  | case4 result c rest hc hspace ih =>
      rcases ih with hmessage | ⟨hrange, fields, digits, behind, hfields, hlarge⟩ |
          ⟨fields, hfields, hok⟩
      · exact .inl hmessage
      · exact .inr (.inl ⟨hrange, fields, digits, behind, .space hspace hfields, hlarge⟩)
      · exact .inr (.inr ⟨fields, .space hspace hfields, hok⟩)
  | case5 result c rest hc hspace => exact .inl ⟨_, rfl⟩

/-! ## Exact intervals -/

/-- `FromCString` throws the system's own exception, or returns the exact sums of the fields. -/
def ParsesExactly (str : Text) : Prop :=
  (∃ message, fromCString str = .error (.conversionException message)) ∨
    ∃ i, fromCString str = .ok i ∧ (∃ fields, HasFields (skipAt str) fields []) ∧
      ∀ fields, HasFields (skipAt str) fields [] → i.months.toInt = totalMonths fields ∧
        i.days.toInt = totalDays fields ∧ i.micros.toInt = totalMicros fields

/-- No number behind complete fields is more than `INT_MAX`. -/
def NumbersFit (str : Text) : Prop :=
  ∀ fields digits behind, HasFields (skipAt str) fields (digits ++ behind) →
    (∀ c ∈ digits, characterIsDigit c) → decimalValue digits < 2 ^ 31

/-- If the text consists of fields, their sums are in the ranges of the fields of an interval. -/
def SumsFit (str : Text) : Prop :=
  ∀ fields, HasFields (skipAt str) fields [] → totalMonths fields < 2 ^ 31 ∧
    totalDays fields < 2 ^ 31 ∧ totalMicros fields < 2 ^ 63

theorem toInt_plus32_zero {n : ℕ} (h : n < 2 ^ 31) : (plus32 0 n).toInt = n := by
  have hzero : (0 : Int32).toInt = 0 := rfl
  rw [plus32, hzero, Int.zero_add]
  exact Int32.toInt_ofInt_of_le (by omega) (by omega)

theorem toInt_plus64_zero {n : ℕ} (h : n < 2 ^ 63) : (plus64 0 n).toInt = n := by
  have hzero : (0 : Int64).toInt = 0 := rfl
  rw [plus64, hzero, Int.zero_add]
  exact Int64.toInt_ofInt_of_le (by omega) (by omega)

/-- A number that is reached and does not fit makes the exception of the library escape. -/
theorem not_parsesExactly_of_outOfRange (h : fromCString str = .error .outOfRange) :
    ¬ParsesExactly str := by
  rintro (⟨message, hmessage⟩ | ⟨i, hi, -⟩)
  · rw [h] at hmessage
    cases hmessage
  · rw [h] at hi
    cases hi

/-- A text is read exactly if and only if its numbers and their sums fit. -/
theorem parsesExactly_iff (str : Text) : ParsesExactly str ↔ NumbersFit str ∧ SumsFit str := by
  constructor
  · intro hexact
    have hsmall (fields : List Field) (rest : Text) (h : HasFields (skipAt str) fields rest) :
        ∀ f ∈ fields, f.number < 2 ^ 31 := by
      intro f hf
      by_contra hlarge
      exact not_parsesExactly_of_outOfRange
        (parseFields_of_large h hf (not_lt.mp hlarge) _) hexact
    constructor
    · intro fields digits behind h hdigits
      by_contra hlarge
      apply not_parsesExactly_of_outOfRange _ hexact
      rw [fromCString, parseFields_of_hasFields h (hsmall _ _ h)]
      exact parseFields_outOfRange hdigits (not_lt.mp hlarge) behind
    · intro fields h
      have hok : parseFields str (skipAt str) ⟨0, 0, 0⟩ = parseFields str [] _ :=
        parseFields_of_hasFields h (hsmall _ _ h) _
      rcases hexact with ⟨message, hmessage⟩ | ⟨i, -, -, hi⟩
      · rw [fromCString, hok, parseFields] at hmessage
        cases hmessage
      · obtain ⟨hmonths, hdays, hmicros⟩ := hi fields h
        have hmonthsMax := i.months.toInt_lt
        have hdaysMax := i.days.toInt_lt
        have hmicrosMax := i.micros.toInt_lt
        omega
  · rintro ⟨hnumbers, hsums⟩
    rcases parseFields_cases str (skipAt str) ⟨0, 0, 0⟩ with hmessage |
        ⟨-, fields, digits, behind, h, hdigits, hlarge⟩ | ⟨fields, h, hok⟩
    · exact .inl hmessage
    · exact absurd (hnumbers fields digits behind h hdigits) hlarge.not_gt
    · refine .inr ⟨_, hok, ⟨fields, h⟩, fun fields' h' ↦ ?_⟩
      have hsmall : ∀ f ∈ fields', f.number < 2 ^ 31 := by
        intro f hf
        by_contra hlarge
        rw [parseFields_of_large h' hf (not_lt.mp hlarge)] at hok
        cases hok
      rw [parseFields_of_hasFields h' hsmall, parseFields] at hok
      obtain ⟨hmonths, hdays, hmicros⟩ := hsums fields' h'
      rw [← Except.ok.inj hok]
      exact ⟨toInt_plus32_zero hmonths, toInt_plus32_zero hdays, toInt_plus64_zero hmicros⟩

/-- "3000000000 days" ends with an exception of the library, and "178956971 years" with a negative
number of months. -/
theorem not_parsesExactly_days :
    ¬(∀ str, ParsesExactly str) ∧
      fromCString [49, 55, 56, 57, 53, 54, 57, 55, 49, 32, 121, 101, 97, 114, 115] =
        .ok ⟨-2147483644, 0, 0⟩ := by
  constructor
  · intro h
    have hrange : fromCString
        [51, 48, 48, 48, 48, 48, 48, 48, 48, 48, 32, 100, 97, 121, 115] = .error .outOfRange := by
      decide +kernel
    exact not_parsesExactly_of_outOfRange hrange (h _)
  · decide +kernel

end Interval

end Graphflow
