import Mathlib.Algebra.Ring.Nat
import Mathlib.Data.List.TakeWhile
import Mathlib.Data.Nat.Notation
import Mathlib.Tactic.Common

/-!
# Reading the lines of a CSV file block by block

The part of `csv_reader.cpp` that finds lines.  A reader of one block starts at the first line that
begins in the block; `hasNextLine` skips blank lines and comments without another look at the end of
the block, and takes a line without a newline at its end for the end of the file.
-/

namespace Graphflow

abbrev Line := List UInt8

/-- `'\n'` -/
def newline : UInt8 := 10

/-- `CopyCSVConfig::COMMENT_LINE_CHAR` -/
def commentLineChar : UInt8 := 35

/-- A `FILE`: `offset` is what `ftell` returns, and `eof` what `feof` does. -/
structure FileStream where
  content : List UInt8
  offset : ℕ
  eof : Bool := false

namespace FileStream

/-- What has not been read. -/
def rest (fd : FileStream) : List UInt8 := fd.content.drop fd.offset

def fseek (fd : FileStream) (offset : ℕ) : FileStream := { fd with offset := offset, eof := false }

def fgetc (fd : FileStream) : Option UInt8 × FileStream :=
  match fd.rest with
  | [] => (none, { fd with eof := true })
  | c :: _ => (some c, { fd with offset := fd.offset + 1 })

/-- The first line, with its newline if it has one. -/
def firstLine (bytes : List UInt8) : Line :=
  bytes.takeWhile (· ≠ newline) ++ (bytes.dropWhile (· ≠ newline)).take 1

/-- `none` is the result -1. -/
def getline (fd : FileStream) : Option Line × FileStream :=
  if fd.rest = [] then (none, { fd with eof := true })
  else
    let line := firstLine fd.rest
    (some line,
      { fd with offset := fd.offset + line.length, eof := fd.eof || !line.contains newline })

/-- `while ('\n' != fgetc(fd)) {}`, which does not end if there is no newline. -/
def skipToNewline (fd : FileStream) : Option FileStream :=
  if newline ∈ fd.rest then
    some { fd with offset := fd.offset + (fd.rest.takeWhile (· ≠ newline)).length + 1 }
  else none

end FileStream

/-- The fields that `hasNextLine` reads.  `nextLineIsNotProcessed` is never set. -/
structure CSVReader where
  fd : FileStream
  isEndOfBlock : Bool := false
  /-- The buffer, which has arbitrary contents in the beginning. -/
  line : Line
  lineLen : ℕ := 0
  readingBlockEndOffset : ℕ

namespace CSVReader

def csvReadingBlockSize : ℕ := 2 ^ 23

/-- The constructor for a block.  `none` means that it does not return. -/
def ofBlock (blockSize : ℕ) (content : List UInt8) (buffer : Line) (blockId : ℕ) :
    Option CSVReader :=
  let readingBlockStartOffset := blockSize * blockId
  let readingBlockEndOffset := blockSize * (blockId + 1)
  let fd : FileStream := { content := content, offset := 0 }
  let reader (fd : FileStream) : CSVReader :=
    { fd := fd, line := buffer, readingBlockEndOffset := readingBlockEndOffset }
  if 0 = readingBlockStartOffset then some (reader fd)
  else
    let (c, fd) := (fd.fseek (readingBlockStartOffset - 1)).fgetc
    if c = some newline then some (reader fd) else fd.skipToNewline.map reader

/-- `SIZE_MAX` is -1 as a `size_t`. -/
def getline (r : CSVReader) : CSVReader :=
  match r.fd.getline with
  | (some line, fd) => { r with fd := fd, line := line, lineLen := line.length }
  | (none, fd) => { r with fd := fd, lineLen := 2 ^ 64 - 1 }

/-- The condition of the loop in `hasNextLine`. -/
def isSkipped (r : CSVReader) : Bool :=
  decide (2 > r.lineLen) || r.line.head? == some commentLineChar

/-- `line[0] = '\0'` -/
def resetLine (r : CSVReader) : CSVReader := { r with line := 0 :: r.line.tail }

/-- The file has ended. -/
theorem getline_of_nil {r : CSVReader} (h : r.fd.rest = []) :
    r.getline = { r with fd := { r.fd with eof := true }, lineLen := 2 ^ 64 - 1 } := by
  simp only [getline, FileStream.getline, h, if_true]

theorem isSkipped_getline_of_nil {r : CSVReader} (h : r.fd.rest = []) :
    r.resetLine.getline.isSkipped = false := by
  rw [getline_of_nil (r := r.resetLine) h]
  rfl

theorem FileStream.length_firstLine_pos {bytes : List UInt8} (h : bytes ≠ []) :
    0 < (FileStream.firstLine bytes).length := by
  cases bytes with
  | nil => exact absurd rfl h
  | cons c bytes =>
      by_cases hc : c = newline
      · simp [FileStream.firstLine, hc]
      · simp [FileStream.firstLine, hc]

/-- There is another line. -/
theorem getline_of_ne_nil {r : CSVReader} (h : r.fd.rest ≠ []) :
    r.getline = { r with
      fd := { r.fd with
        offset := r.fd.offset + (FileStream.firstLine r.fd.rest).length
        eof := r.fd.eof || !(FileStream.firstLine r.fd.rest).contains newline }
      line := FileStream.firstLine r.fd.rest
      lineLen := (FileStream.firstLine r.fd.rest).length } := by
  simp only [getline, FileStream.getline, h, if_false]

theorem rest_getline {r : CSVReader} (h : r.fd.rest ≠ []) :
    r.getline.fd.rest = r.fd.rest.drop (FileStream.firstLine r.fd.rest).length := by
  rw [getline_of_ne_nil h, FileStream.rest, FileStream.rest, List.drop_drop]

theorem length_rest_getline {r : CSVReader} (h : r.fd.rest ≠ []) :
    r.getline.fd.rest.length < r.fd.rest.length := by
  have hpos := FileStream.length_firstLine_pos h
  have hlength : 0 < r.fd.rest.length := List.length_pos_iff.mpr h
  rw [rest_getline h, List.length_drop]
  omega

/-- The loop in `hasNextLine`. -/
def skipLines (r : CSVReader) : CSVReader :=
  if r.isSkipped then skipLines r.resetLine.getline else r
termination_by 2 * r.fd.rest.length + if r.isSkipped then 1 else 0
decreasing_by
  rename_i hskipped
  by_cases h : r.fd.rest = []
  · have hend : r.resetLine.getline.fd.rest = [] := by
      rw [getline_of_nil (r := r.resetLine) h]
      exact h
    rw [hend, h, isSkipped_getline_of_nil h, hskipped]
    decide
  · have hlt : r.resetLine.getline.fd.rest.length < r.fd.rest.length :=
      length_rest_getline (r := r.resetLine) h
    split_ifs <;> omega

def hasNextLine (r : CSVReader) : Bool × CSVReader :=
  if r.isEndOfBlock then (false, r)
  else if r.fd.offset ≥ r.readingBlockEndOffset then (false, { r with isEndOfBlock := true })
  else
    let r := r.getline.skipLines
    if r.fd.eof then (false, { r with isEndOfBlock := true }) else (true, r)

theorem length_rest_skipLines (r : CSVReader) :
    r.skipLines.fd.rest.length ≤ r.fd.rest.length := by
  induction r using skipLines.induct with
  | case1 r hskipped ih =>
      rw [skipLines, if_pos hskipped]
      apply ih.trans
      by_cases h : r.fd.rest = []
      · rw [getline_of_nil (r := r.resetLine) h]
        exact Nat.le_refl _
      · exact (length_rest_getline (r := r.resetLine) h).le
  | case2 r hskipped =>
      rw [skipLines, if_neg hskipped]

/-- The end of the file is not forgotten. -/
theorem eof_skipLines {r : CSVReader} (heof : r.fd.eof = true) : r.skipLines.fd.eof = true := by
  induction r using skipLines.induct with
  | case1 r hskipped ih =>
      rw [skipLines, if_pos hskipped]
      apply ih
      by_cases h : r.fd.rest = []
      · rw [getline_of_nil (r := r.resetLine) h]
      · have heof' : r.resetLine.fd.eof = true := heof
        rw [getline_of_ne_nil (r := r.resetLine) h, heof', Bool.true_or]
  | case2 r hskipped =>
      rw [skipLines, if_neg hskipped]
      exact heof

/-- A line that is returned has been read. -/
theorem length_rest_hasNextLine {r : CSVReader} (h : r.hasNextLine.1 = true) :
    r.hasNextLine.2.fd.rest.length < r.fd.rest.length := by
  rw [hasNextLine] at h ⊢
  by_cases hend : r.isEndOfBlock
  · rw [if_pos hend] at h
    exact absurd h Bool.false_ne_true
  rw [if_neg hend] at h ⊢
  by_cases hoffset : r.fd.offset ≥ r.readingBlockEndOffset
  · rw [if_pos hoffset] at h
    exact absurd h Bool.false_ne_true
  rw [if_neg hoffset] at h ⊢
  by_cases heof : r.getline.skipLines.fd.eof
  · simp only [heof, if_true] at h
    exact absurd h Bool.false_ne_true
  · simp only [heof]
    by_cases hrest : r.fd.rest = []
    · rw [eof_skipLines] at heof
      · exact absurd rfl heof
      · rw [getline_of_nil hrest]
    · exact (length_rest_skipLines _).trans_lt (length_rest_getline hrest)

/-- The lines that the loop `while (reader.hasNextLine())` meets. -/
def lines (r : CSVReader) : List Line :=
  if r.hasNextLine.1 then r.hasNextLine.2.line :: lines r.hasNextLine.2 else []
termination_by r.fd.rest.length
decreasing_by
  rename_i h
  exact length_rest_hasNextLine h

/-- `calculateNumBlocks` -/
def calculateNumBlocks (blockSize : ℕ) (content : List UInt8) : ℕ := 1 + content.length / blockSize

/-- The lines of the file as the readers of all its blocks return them.  `none` means that one of
them does not come to an end. -/
def linesOfBlocks (blockSize : ℕ) (content : List UInt8) (buffer : ℕ → Line) :
    Option (List Line) :=
  ((List.range (calculateNumBlocks blockSize content)).mapM fun blockId ↦
    (ofBlock blockSize content (buffer blockId) blockId).map lines).map List.flatten

end CSVReader

end Graphflow
