import Graphflow.Common.CSVReader

/-!
# CSV files as lists of lines

What a reader does in terms of the lines of its file.  A block has the lines that begin in it; its
reader returns those of them that hold data, and one more if the last of them is skipped and a line
with data follows behind the block.
-/

namespace Graphflow

/-- The lines of a file, each with its newline; the last one may have none. -/
def fileLines : List UInt8 → List Line
  | [] => []
  | c :: bytes =>
      if c = newline then [c] :: fileLines bytes
      else match fileLines bytes with
        | [] => [[c]]
        | line :: lines => (c :: line) :: lines

namespace Line

def isTerminated (line : Line) : Bool := line.contains newline

def isBlank (line : Line) : Bool := line == [newline]

def isComment (line : Line) : Bool := line.head? == some commentLineChar

/-- The lines that the loop in `hasNextLine` skips. -/
def isSkipped (line : Line) : Bool := decide (2 > line.length) || line.isComment

/-- A line that is to be returned. -/
def isData (line : Line) : Bool := !line.isBlank && !line.isComment

end Line

def dataLines (content : List UInt8) : List Line := (fileLines content).filter Line.isData

variable {content bytes : List UInt8} {line : Line} {ls ls' : List Line} {pos bound : ℕ}

theorem flatten_fileLines (content : List UInt8) : (fileLines content).flatten = content := by
  induction content with
  | nil => rfl
  | cons c bytes ih =>
      rw [fileLines]
      split_ifs with hc
      · rw [List.flatten_cons, ih, List.singleton_append]
      · split
        · rename_i hnil
          rw [hnil] at ih
          rw [← ih]
          rfl
        · rename_i line lines hcons
          rw [hcons, List.flatten_cons] at ih
          rw [List.flatten_cons, List.cons_append, ih]

/-- All lines but the last one are terminated, and every line ends with the first newline in it. -/
inductive Split : List Line → Prop
  | nil : Split []
  | last (line : Line) (hne : line ≠ []) (hline : newline ∉ line) : Split [line]
  | cons (front : List UInt8) (lines : List Line) (hfront : newline ∉ front)
    (hlines : Split lines) :
      Split ((front ++ [newline]) :: lines)

theorem split_fileLines (content : List UInt8) : Split (fileLines content) := by
  induction content with
  | nil => exact Split.nil
  | cons c bytes ih =>
      rw [fileLines]
      split_ifs with hc
      · rw [hc]
        exact Split.cons [] _ List.not_mem_nil ih
      · split
        · exact Split.last _ (List.cons_ne_nil _ _) (by simpa using Ne.symm hc)
        · rename_i line lines hcons
          rw [hcons] at ih
          cases ih with
          | last _ _ hline =>
              exact Split.last _ (List.cons_ne_nil _ _) (by simp [hline, Ne.symm hc])
          | cons front lines hfront hlines =>
              exact Split.cons (c :: front) _ (by simp [hfront, Ne.symm hc]) hlines

theorem firstLine_flatten (h : Split (line :: ls)) :
    FileStream.firstLine (line :: ls).flatten = line := by
  cases h with
  | last _ _ hline =>
      have hall : ∀ c ∈ line, decide (c ≠ newline) = true := by
        intro c hc
        exact decide_eq_true fun h ↦ hline (h ▸ hc)
      rw [List.flatten_cons, List.flatten_nil, List.append_nil, FileStream.firstLine,
        List.takeWhile_eq_self_iff.mpr hall, List.dropWhile_eq_nil_iff.mpr hall, List.take_nil,
        List.append_nil]
  | cons front _ hfront _ =>
      have hall : ∀ c ∈ front, decide (c ≠ newline) = true := by
        intro c hc
        exact decide_eq_true fun h ↦ hfront (h ▸ hc)
      rw [List.flatten_cons, List.append_assoc, FileStream.firstLine,
        List.takeWhile_append_of_pos hall, List.dropWhile_append_of_pos hall]
      simp [newline]

theorem Split.ne_nil (h : Split (line :: ls)) : line ≠ [] := by
  cases h with
  | last _ hne _ => exact hne
  | cons front _ _ _ => simp

theorem Split.tail (h : Split (line :: ls)) : Split ls := by
  cases h with
  | last _ _ _ => exact Split.nil
  | cons _ _ _ hlines => exact hlines

theorem Split.isTerminated (h : Split (line :: ls)) (hls : ls ≠ []) : line.isTerminated = true := by
  cases h with
  | last _ _ _ => exact absurd rfl hls
  | cons front _ _ _ => simp [Line.isTerminated]

/-! ## A reader among the lines -/

namespace CSVReader

variable {r r' : CSVReader}

/-- The reader is between two lines, with `ls` to come. -/
structure At (r : CSVReader) (pos : ℕ) (ls : List Line) : Prop where
  rest : r.fd.rest = ls.flatten
  split : Split ls
  offset : r.fd.offset = pos
  eof : r.fd.eof = false
  isEndOfBlock : r.isEndOfBlock = false

/-- The first line that is not skipped, and what follows. -/
def nextLine : ℕ → List Line → Option (Line × ℕ × List Line)
  | _, [] => none
  | pos, line :: ls =>
      if line.isSkipped then nextLine (pos + line.length) ls
      else if line.isTerminated then some (line, pos + line.length, ls)
      else none

/-- A line has been read, and nothing has been done with it. -/
structure HasRead (r r' : CSVReader) (line : Line) (ls : List Line) : Prop where
  buffer : r'.line = line
  lineLen : r'.lineLen = line.length
  rest : r'.fd.rest = ls.flatten
  offset : r'.fd.offset = r.fd.offset + line.length
  eof : r'.fd.eof = !line.isTerminated
  isEndOfBlock : r'.isEndOfBlock = r.isEndOfBlock
  bound : r'.readingBlockEndOffset = r.readingBlockEndOffset

theorem At.hasRead (h : r.At pos (line :: ls)) : HasRead r r.getline line ls := by
  have hne : r.fd.rest ≠ [] := by
    rw [h.rest, List.flatten_cons]
    exact List.append_ne_nil_of_left_ne_nil h.split.ne_nil _
  have hfirst : FileStream.firstLine r.fd.rest = line := by
    rw [h.rest, firstLine_flatten h.split]
  refine ⟨?_, ?_, ?_, ?_, ?_, ?_, ?_⟩
  · rw [getline_of_ne_nil hne, hfirst]
  · rw [getline_of_ne_nil hne, hfirst]
  · rw [rest_getline hne, hfirst, h.rest, List.flatten_cons, List.drop_left]
  · rw [getline_of_ne_nil hne, hfirst]
  · rw [getline_of_ne_nil hne, hfirst, h.eof, Bool.false_or]
    rfl
  · rw [getline_of_ne_nil hne]
  · rw [getline_of_ne_nil hne]

theorem HasRead.isSkipped (h : HasRead r r' line ls) : r'.isSkipped = line.isSkipped := by
  rw [CSVReader.isSkipped, h.buffer, h.lineLen]
  rfl

/-- A line with a newline leaves the reader before the next line. -/
theorem HasRead.at (hat : r.At pos (line :: ls)) (h : HasRead r r' line ls)
    (hterminated : line.isTerminated = true) : r'.At (pos + line.length) ls where
  rest := h.rest
  split := hat.split.tail
  offset := by rw [h.offset, hat.offset]
  eof := by
    rw [h.eof, hterminated]
    rfl
  isEndOfBlock := by rw [h.isEndOfBlock, hat.isEndOfBlock]

/-- The loop in `hasNextLine` finds the next line. -/
theorem skipLines_spec (h : r.At pos ls) :
    match nextLine pos ls with
    | none => r.getline.skipLines.fd.eof = true
    | some (line, pos', ls') => r.getline.skipLines.At pos' ls' ∧ r.getline.skipLines.line = line ∧
        r.getline.skipLines.readingBlockEndOffset = r.readingBlockEndOffset := by
  induction ls generalizing r pos with
  | nil =>
      apply eof_skipLines
      rw [getline_of_nil h.rest]
  | cons line ls ih =>
      have hread := h.hasRead
      rw [nextLine]
      by_cases hskipped : line.isSkipped = true
      · rw [if_pos hskipped, skipLines, if_pos (hread.isSkipped.trans hskipped)]
        by_cases hls : ls = []
        · subst hls
          apply eof_skipLines
          rw [getline_of_nil (r := r.getline.resetLine) hread.rest]
        · have hat := hread.at h (h.split.isTerminated hls)
          have hreset : r.getline.resetLine.At (pos + line.length) ls :=
            ⟨hat.rest, hat.split, hat.offset, hat.eof, hat.isEndOfBlock⟩
          have hnext := ih hreset
          have hbound : r.getline.resetLine.readingBlockEndOffset = r.readingBlockEndOffset :=
            hread.bound
          rw [hbound] at hnext
          exact hnext
      · have hskipped' : ¬ r.getline.isSkipped = true := by
          rw [hread.isSkipped]
          exact hskipped
        rw [if_neg hskipped, skipLines, if_neg hskipped']
        by_cases hterminated : line.isTerminated = true
        · rw [if_pos hterminated]
          exact ⟨hread.at h hterminated, hread.buffer, hread.bound⟩
        · rw [if_neg hterminated]
          rw [Bool.not_eq_true] at hterminated
          exact hread.eof.trans (congrArg not hterminated)

theorem hasNextLine_of_le (h : r.At pos ls) (hpos : r.readingBlockEndOffset ≤ pos) :
    r.hasNextLine.1 = false := by
  have hoffset : r.fd.offset ≥ r.readingBlockEndOffset := h.offset.symm ▸ hpos
  simp only [hasNextLine, h.isEndOfBlock, hoffset, if_true, Bool.false_eq_true, if_false]

theorem hasNextLine_of_lt (h : r.At pos ls) (hpos : pos < r.readingBlockEndOffset) :
    match nextLine pos ls with
    | none => r.hasNextLine.1 = false
    | some (line, pos', ls') => r.hasNextLine.1 = true ∧ r.hasNextLine.2.At pos' ls' ∧
        r.hasNextLine.2.line = line ∧
        r.hasNextLine.2.readingBlockEndOffset = r.readingBlockEndOffset := by
  have hoffset : ¬ r.fd.offset ≥ r.readingBlockEndOffset := by
    rw [h.offset]
    exact Nat.not_le.mpr hpos
  have hspec := skipLines_spec h
  simp only [hasNextLine, h.isEndOfBlock, hoffset, if_false, Bool.false_eq_true]
  cases hnext : nextLine pos ls with
  | none =>
      simp only [hnext] at hspec ⊢
      rw [if_pos hspec]
  | some next =>
      obtain ⟨line, pos', ls'⟩ := next
      simp only [hnext] at hspec ⊢
      rw [if_neg (by rw [hspec.1.eof]; exact Bool.false_ne_true)]
      exact ⟨rfl, hspec⟩

/-- What a reader returns before the end of its block; in the middle of the loop of `hasNextLine`
the end of the block is not looked at. -/
def blockLines (bound : ℕ) : Bool → ℕ → List Line → List Line
  | _, _, [] => []
  | skipping, pos, line :: ls =>
      if skipping = false ∧ bound ≤ pos then []
      else if line.isSkipped then blockLines bound true (pos + line.length) ls
      else if line.isTerminated then line :: blockLines bound false (pos + line.length) ls
      else []

theorem blockLines_skipping (bound pos : ℕ) (ls : List Line) : blockLines bound true pos ls =
    match nextLine pos ls with
    | none => []
    | some (line, pos', ls') => line :: blockLines bound false pos' ls' := by
  induction ls generalizing pos with
  | nil => rfl
  | cons line ls ih =>
      rw [blockLines, nextLine]
      simp only [Bool.true_eq_false, false_and, if_false]
      split_ifs with hskipped hterminated
      · exact ih _
      · rfl
      · rfl

theorem blockLines_of_lt (hpos : pos < bound) :
    blockLines bound false pos ls = blockLines bound true pos ls := by
  cases ls with
  | nil => rfl
  | cons line ls =>
      rw [blockLines, blockLines]
      simp only [Nat.not_le.mpr hpos, and_false, if_false]

theorem blockLines_of_le (hpos : bound ≤ pos) : blockLines bound false pos ls = [] := by
  cases ls with
  | nil => rfl
  | cons line ls => rw [blockLines, if_pos ⟨rfl, hpos⟩]

/-- Iterating over `hasNextLine`. -/
theorem lines_eq_blockLines (h : r.At pos ls) :
    r.lines = blockLines r.readingBlockEndOffset false pos ls := by
  induction r using lines.induct generalizing pos ls with
  | case1 r hnext ih =>
      rw [lines, if_pos hnext]
      by_cases hpos : r.readingBlockEndOffset ≤ pos
      · rw [hasNextLine_of_le h hpos] at hnext
        exact absurd hnext Bool.false_ne_true
      · rw [Nat.not_le] at hpos
        have hspec := hasNextLine_of_lt h hpos
        rw [blockLines_of_lt hpos, blockLines_skipping]
        cases hline : nextLine pos ls with
        | none =>
            simp only [hline] at hspec
            rw [hspec] at hnext
            exact absurd hnext Bool.false_ne_true
        | some next =>
            obtain ⟨line, pos', ls'⟩ := next
            simp only [hline] at hspec ⊢
            obtain ⟨-, hat, hbuffer, hbound⟩ := hspec
            rw [hbuffer, ih hat, hbound]
  | case2 r hnext =>
      rw [lines, if_neg hnext]
      by_cases hpos : r.readingBlockEndOffset ≤ pos
      · rw [blockLines_of_le hpos]
      · rw [Nat.not_le] at hpos
        have hspec := hasNextLine_of_lt h hpos
        rw [blockLines_of_lt hpos, blockLines_skipping]
        cases hline : nextLine pos ls with
        | none => rfl
        | some next =>
            simp only [hline] at hspec
            exact absurd hspec.1 hnext

end CSVReader

end Graphflow
