import Graphflow.Common.CSVReader
import Graphflow.Overflow.File

/-!
# The tokens of a line

`hasNextToken` moves through a line in one of three modes and replaces the character behind each
token by NUL; `getList` reads the inside of a list with another reader on the same characters.  Only
the mode without quotes and brackets looks at the end of the line.
-/

namespace Graphflow

open Lib

structure CSVReaderConfig where
  escapeChar : UInt8 := 92
  tokenSeparator : UInt8 := 44
  quoteChar : UInt8 := 34
  listBeginChar : UInt8 := 91
  listEndChar : UInt8 := 93
  deriving DecidableEq, Repr

/-- What ends a call without a result.  `outOfLine` is an index that is not in the line. -/
inductive TokenFault
  | exception (message : String)
  | outOfLine
  | diverges
  deriving DecidableEq, Repr

/-! ## Scanning -/

/-- What the loop of `hasNextToken` has read: how far it has come, and `lineStr`. -/
structure Scanned where
  numChars : ℕ
  lineStr : List UInt8
  deriving DecidableEq, Repr

namespace Scanned

/-- The loop breaks. -/
def stop : Scanned := ⟨0, []⟩

/-- A character is added to `lineStr` behind `n` others that are skipped. -/
def add (n : ℕ) (c : UInt8) (s : Scanned) : Scanned := ⟨s.numChars + n + 1, c :: s.lineStr⟩

end Scanned

namespace CSVReaderConfig

variable (config : CSVReaderConfig)

/-- The loop in a quoted string.  `none` means that it leaves the line. -/
def scanQuoted : List UInt8 → Option Scanned
  | [] => none
  | [c] => if c = config.quoteChar then some .stop else none
  | c :: d :: chars =>
      if c = config.quoteChar then some .stop
      else if c = config.escapeChar then (scanQuoted chars).map (.add 1 d)
      else (scanQuoted (d :: chars)).map (.add 0 c)

/-- The loop in a list.  The character behind an opening bracket is not looked at. -/
def scanList : ℕ → List UInt8 → Option Scanned
  | _, [] => none
  | level, [c] => if c ≠ config.listBeginChar ∧ c = config.listEndChar ∧ level = 1 then some .stop
      else none
  | level, c :: d :: chars =>
      if c = config.listBeginChar then (scanList (level + 1) chars).map (.add 1 d)
      else if c = config.listEndChar then
        if level - 1 = 0 then some .stop else (scanList (level - 1) (d :: chars)).map (.add 0 c)
      else (scanList level (d :: chars)).map (.add 0 c)

/-- The loop in other tokens, with `numLeft` characters up to the end of the line. -/
def scanPlain : ℕ → List UInt8 → Option Scanned
  | _, [] => none
  | numLeft, c :: chars =>
      if c = config.tokenSeparator ∨ c = newline ∨ numLeft = 0 then some .stop
      else (scanPlain (numLeft - 1) chars).map (.add 0 c)

/-- The loop of `hasNextToken`. -/
def scan (isQuotedString isList : Bool) (numLeft : ℕ) (chars : List UInt8) : Option Scanned :=
  if isQuotedString then config.scanQuoted chars
  else if isList then config.scanList 1 chars
  else config.scanPlain numLeft chars

end CSVReaderConfig

/-! ## Readers -/

/-- The fields of a `CSVReader` that are about tokens.  `line` is all that may be indexed, with the
NUL at its end; `lineLen` is less for the reader of a list. -/
structure TokenReader where
  line : List UInt8
  lineLen : ℕ
  linePtrStart : ℤ
  linePtrEnd : ℤ
  nextTokenLen : ℕ := 2 ^ 64 - 1
  deriving DecidableEq, Repr

/-- The values of a type whose scalar values are in `V`. -/
def CSVValue (V : Type) : DataType → Type
  | .scalar _ => V
  | .list childType => List (CSVValue V childType)

namespace TokenReader

variable {V α : Type} (config : CSVReaderConfig) (r : TokenReader)

def toUInt64 (z : ℤ) : ℕ := (z % 2 ^ 64).toNat

def charsFrom (i : ℤ) : Except TokenFault (List UInt8) :=
  if 0 ≤ i ∧ i < r.line.length then .ok (r.line.drop i.toNat) else .error .outOfLine

/-- `strncpy` of `lineStr` with its NUL. -/
def strncpy (line : List UInt8) (pos : ℕ) (lineStr : List UInt8) : List UInt8 :=
  let chars := lineStr.takeWhile (· ≠ 0)
  line.take pos ++ chars ++ List.replicate (lineStr.length + 1 - chars.length) 0 ++
    line.drop (pos + lineStr.length + 1)

/-- The end of `hasNextToken`: `linePtrStart` is the first character behind the quote and the
bracket. -/
def endToken (isQuotedString isList : Bool) (linePtrStart : ℤ) (scanned : Scanned) : TokenReader :=
  let linePtrEnd := linePtrStart + scanned.numChars
  let line := r.line.set linePtrEnd.toNat 0
  { r with
    line := if isQuotedString then strncpy line linePtrStart.toNat scanned.lineStr else line
    linePtrStart := linePtrStart
    linePtrEnd := linePtrEnd + isQuotedString.toNat + isList.toNat
    nextTokenLen := scanned.lineStr.length }

def hasNextToken : Except TokenFault (Bool × TokenReader) := do
  let linePtr := r.linePtrEnd + 1
  if r.lineLen ≤ toUInt64 linePtr then
    return (false, { r with linePtrStart := linePtr, linePtrEnd := linePtr })
  let first ← r.charsFrom linePtr
  let isQuotedString := first.head? == some config.quoteChar
  let linePtr := linePtr + isQuotedString.toNat
  let second ← r.charsFrom linePtr
  let isList := second.head? == some config.listBeginChar
  match config.scan isQuotedString isList (r.lineLen - linePtr.toNat)
    (second.drop isList.toNat) with
  | none => throw .outOfLine
  | some scanned => return (true, r.endToken isQuotedString isList (linePtr + isList.toNat) scanned)

/-- The test of `skipTokenIfNull`. -/
def isNull : Bool := r.linePtrEnd - r.linePtrStart = 0

/-- The C string that the token has become. -/
def cString : Except TokenFault (List UInt8) := do
  let chars ← r.charsFrom r.linePtrStart
  if (0 : UInt8) ∈ chars then return chars.takeWhile (· ≠ 0) else throw .outOfLine

/-- The search of `Timestamp::FromCString` for the end of the date, whose counter has 32 bits. -/
def findDateEnd (len : ℕ) : List UInt8 → ℕ → Except TokenFault Unit
  | [], dateStrLen =>
      if dateStrLen = 2 ^ 32 then .error .diverges
      else if len ≤ dateStrLen then .ok () else .error .outOfLine
  | c :: chars, dateStrLen =>
      if dateStrLen = 2 ^ 32 then .error .diverges
      else if len ≤ dateStrLen ∨ c = 32 ∨ c = 84 then .ok ()
      else findDateEnd len chars (dateStrLen + 1)

/-- `string(buf, len)`, which throws for a length that no string can have. -/
def copyChars (chars : List UInt8) (len : ℕ) : Except TokenFault Unit :=
  if 2 ^ 63 ≤ len then .error (.exception "basic_string::_M_create")
  else if len ≤ chars.length then .ok ()
  else .error .outOfLine

/-- What a conversion that fails reads of the characters from `linePtrStart` on.  The other loops of
the conversions stop at a NUL, so one that succeeds has read its token only. -/
def failConversion (typeID : DataTypeID) (chars : List UInt8) (len : ℕ) :
    Except TokenFault Unit :=
  match typeID with
  | .timestamp => do
      findDateEnd len chars 0
      copyChars chars len
  | .date | .interval => copyChars chars len
  | _ => .ok ()

/-- `getInt64`, `getString` and the others; `get` is the conversion of the C string, which can throw
an exception.  Those of dates, timestamps and intervals get `nextTokenLen` as well. -/
def getValue (typeID : DataTypeID) (get : List UInt8 → ℕ → Except String V) :
    Except TokenFault V := do
  let text ← r.cString
  match get text r.nextTokenLen with
  | .ok value => return value
  | .error message => do
      let chars ← r.charsFrom r.linePtrStart
      failConversion typeID chars r.nextTokenLen
      throw (.exception message)

/-- The reader for the inside of a list. -/
def listCSVReader : TokenReader where
  line := r.line
  lineLen := toUInt64 (r.linePtrEnd - 1)
  linePtrStart := r.linePtrStart - 1
  linePtrEnd := r.linePtrStart - 1

/-- The loop of `getList`.  `read` returns a value and what the line has become. -/
def readTokens (read : TokenReader → Except TokenFault (α × List UInt8)) :
    ℕ → TokenReader → Except TokenFault (List α × List UInt8)
  | 0, _ => .error .diverges
  | n + 1, r => do
      let (found, r) ← r.hasNextToken config
      if found then
        if r.isNull then readTokens read n r
        else do
          let (value, line) ← read r
          let (values, line) ← readTokens read n { r with line := line }
          return (value :: values, line)
      else return ([], r.line)

/-- A turn of the loop moves `linePtrEnd`. -/
def maxNumTokens : ℕ := (r.lineLen - r.linePtrEnd).toNat + 1

def checkListSize (typeID : DataTypeID) (result : List α × List UInt8) :
    Except TokenFault (List α × List UInt8) :=
  match typeID.getDataTypeSize with
  | .error (.exception message) => .error (.exception message)
  | .error .invalidAccess => .error (.exception "")
  | .ok size =>
      let numBytesOfOverflow := result.1.length * size
      if defaultPageSize ≤ numBytesOfOverflow then
        .error (.exception ("Maximum num bytes of a LIST is " ++ toString defaultPageSize ++
          ". Input list's num bytes is " ++ Storage.formatD numBytesOfOverflow ++ "."))
      else .ok result

/-- The list and what the line has become. -/
def getListChars (get : DataTypeID → List UInt8 → ℕ → Except String V) :
    (dataType : DataType) → TokenReader →
      Except TokenFault (List (CSVValue V dataType) × List UInt8)
  | .scalar typeID, r => do
      let result ← readTokens config (fun r ↦ do
        let value ← r.getValue typeID (get typeID)
        return (value, r.line)) r.listCSVReader.maxNumTokens r.listCSVReader
      checkListSize typeID result
  | .list childType, r => do
      let result ← readTokens config (getListChars get childType) r.listCSVReader.maxNumTokens
        r.listCSVReader
      checkListSize .list result

def getList (get : DataTypeID → List UInt8 → ℕ → Except String V) (dataType : DataType) :
    Except TokenFault (List (CSVValue V dataType) × TokenReader) := do
  let (values, line) ← r.getListChars config get dataType
  return (values, { r with line := line })

end TokenReader

end Graphflow
