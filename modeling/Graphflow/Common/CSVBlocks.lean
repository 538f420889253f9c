import Graphflow.Common.CSVLines

/-!
# The blocks of a CSV file

Which lines the readers of all blocks return together.  The lines that begin in a block follow those
of the block before, so that every line with data is returned once, unless a reader does not come to
an end, loses a last line without a newline, or goes on behind its block to skip lines.
-/

namespace Graphflow

variable {content : List UInt8} {line : Line} {ls : List Line} {pos bound bound' : ℕ}

/-! ## Lines by where they begin -/

/-- The lines that begin before an offset. -/
def linesBefore (bound : ℕ) : ℕ → List Line → List Line
  | _, [] => []
  | pos, line :: ls =>
      if bound ≤ pos then [] else line :: linesBefore bound (pos + line.length) ls

def linesFrom (bound : ℕ) : ℕ → List Line → List Line
  | _, [] => []
  | pos, line :: ls =>
      if bound ≤ pos then line :: ls else linesFrom bound (pos + line.length) ls

theorem linesBefore_of_le (h : bound ≤ pos) : linesBefore bound pos ls = [] := by
  cases ls with
  | nil => rfl
  | cons line ls => rw [linesBefore, if_pos h]

theorem linesFrom_of_le (h : bound ≤ pos) : linesFrom bound pos ls = ls := by
  cases ls with
  | nil => rfl
  | cons line ls => rw [linesFrom, if_pos h]

theorem linesBefore_append_linesFrom (bound pos : ℕ) (ls : List Line) :
    linesBefore bound pos ls ++ linesFrom bound pos ls = ls := by
  induction ls generalizing pos with
  | nil => rfl
  | cons line ls ih =>
      rw [linesBefore, linesFrom]
      split_ifs
      · rfl
      · rw [List.cons_append, ih]

theorem linesBefore_add (bound pos k : ℕ) (ls : List Line) :
    linesBefore bound (pos + k) ls = linesBefore (bound - k) pos ls := by
  induction ls generalizing pos with
  | nil => rfl
  | cons line ls ih =>
      have hiff : bound ≤ pos + k ↔ bound - k ≤ pos := by omega
      have hpos : pos + k + line.length = pos + line.length + k := by omega
      rw [linesBefore, linesBefore, hpos, ih]
      simp only [hiff]

theorem linesBefore_eq_self (hne : ∀ line ∈ ls, line ≠ []) (h : pos + ls.flatten.length ≤ bound) :
    linesBefore bound pos ls = ls := by
  induction ls generalizing pos with
  | nil => rfl
  | cons line ls ih =>
      have hpos : 0 < line.length := List.length_pos_iff.mpr (hne line List.mem_cons_self)
      rw [List.flatten_cons, List.length_append] at h
      rw [linesBefore, if_neg (by omega),
        ih (fun l hl ↦ hne l (List.mem_cons_of_mem _ hl)) (by omega)]

/-- The lines before a later offset. -/
theorem linesBefore_append (h : bound ≤ bound') (pos : ℕ) (ls : List Line) :
    linesBefore bound' pos ls = linesBefore bound pos ls ++
      linesBefore bound' (pos + (linesBefore bound pos ls).flatten.length)
        (linesFrom bound pos ls) := by
  induction ls generalizing pos with
  | nil => rfl
  | cons line ls ih =>
      by_cases hpos : bound ≤ pos
      · rw [linesBefore_of_le hpos, linesFrom_of_le hpos]
        rfl
      · rw [linesBefore, if_neg (by omega), ih, linesBefore, if_neg hpos, linesFrom, if_neg hpos,
          List.flatten_cons, List.length_append, Nat.add_assoc]
        rfl

theorem linesFrom_linesFrom (h : bound ≤ bound') (pos : ℕ) (ls : List Line) :
    linesFrom bound' (pos + (linesBefore bound pos ls).flatten.length) (linesFrom bound pos ls) =
      linesFrom bound' pos ls := by
  induction ls generalizing pos with
  | nil => rfl
  | cons line ls ih =>
      by_cases hpos : bound ≤ pos
      · rw [linesBefore_of_le hpos, linesFrom_of_le hpos]
        rfl
      · rw [linesBefore, if_neg hpos, linesFrom, if_neg hpos, List.flatten_cons, List.length_append,
          ← Nat.add_assoc, ih, linesFrom, if_neg (by omega)]

theorem Split.linesFrom (h : Split ls) (bound pos : ℕ) : Split (linesFrom bound pos ls) := by
  induction ls generalizing pos with
  | nil => exact Split.nil
  | cons line ls ih =>
      rw [Graphflow.linesFrom]
      split_ifs
      · exact h
      · exact ih h.tail _

/-! ## The lines of one block -/

namespace CSVReader

/-- A line that a reader can return. -/
def isReturned (line : Line) : Bool := !line.isSkipped && line.isTerminated

/-- The next line that a reader returns if it does not look at the end of the block. -/
def nextReturned : List Line → List Line
  | [] => []
  | line :: ls =>
      if line.isSkipped then nextReturned ls else if line.isTerminated then [line] else []

/-- What a reader returns that begins behind its block. -/
def overrun (bound pos : ℕ) (ls : List Line) : List Line :=
  if (linesBefore bound pos ls).getLast?.any Line.isSkipped then
    nextReturned (linesFrom bound pos ls)
  else []

theorem blockLines_of_le_of_skipping (hpos : bound ≤ pos) :
    blockLines bound true pos ls = nextReturned ls := by
  induction ls generalizing pos with
  | nil => rfl
  | cons line ls ih =>
      rw [blockLines, nextReturned, blockLines_of_le (by omega), ih (by omega)]
      simp only [Bool.true_eq_false, false_and, if_false]

theorem blockLines_eq (h : Split ls) : blockLines bound false pos ls =
    (linesBefore bound pos ls).filter isReturned ++ overrun bound pos ls := by
  induction ls generalizing pos with
  | nil => rfl
  | cons line ls ih =>
      by_cases hpos : bound ≤ pos
      · rw [blockLines_of_le hpos, overrun, linesBefore_of_le hpos]
        rfl
      · have hbefore : linesBefore bound pos (line :: ls) =
            line :: linesBefore bound (pos + line.length) ls := by rw [linesBefore, if_neg hpos]
        have hfrom : linesFrom bound pos (line :: ls) = linesFrom bound (pos + line.length) ls := by
          rw [linesFrom, if_neg hpos]
        have ih : blockLines bound false (pos + line.length) ls = _ := ih h.tail
        rw [blockLines, if_neg (fun h ↦ hpos h.2), overrun, hbefore, hfrom]
        by_cases hskipped : line.isSkipped = true
        · have hreturned : ¬ isReturned line = true := by simp [isReturned, hskipped]
          rw [if_pos hskipped, List.filter_cons_of_neg hreturned]
          by_cases hend : bound ≤ pos + line.length
          · rw [blockLines_of_le_of_skipping hend, linesBefore_of_le hend, linesFrom_of_le hend]
            simp [hskipped]
          · rw [← blockLines_of_lt (Nat.not_le.mp hend), ih, overrun]
            cases ls with
            | nil => simp [linesBefore, linesFrom, nextReturned]
            | cons line' ls => rw [linesBefore, if_neg hend, List.getLast?_cons_cons]
        · rw [if_neg hskipped]
          by_cases hterminated : line.isTerminated = true
          · have hreturned : isReturned line = true := by simp [isReturned, hskipped, hterminated]
            rw [if_pos hterminated, List.filter_cons_of_pos hreturned, ih, overrun,
              List.cons_append]
            cases hlines : linesBefore bound (pos + line.length) ls with
            | nil => simp [hskipped]
            | cons line' lines => rw [List.getLast?_cons_cons]
          · have hls : ls = [] := by
              by_contra hls
              exact hterminated (h.isTerminated hls)
            have hreturned : ¬ isReturned line = true := by simp [isReturned, hterminated]
            rw [if_neg hterminated, hls, linesBefore, List.filter_cons_of_neg hreturned]
            simp [hskipped]

/-! ## Where a reader starts -/

/-- The offset after the constructor. -/
def startOffset (content : List UInt8) (offset : ℕ) : Option ℕ :=
  if offset = 0 then some 0
  else if content[offset - 1]? = some newline then some offset
  else if newline ∈ content.drop offset then
    some (offset + ((content.drop offset).takeWhile (· ≠ newline)).length + 1)
  else none

theorem ofBlock_eq {blockSize blockId : ℕ} (buffer : Line)
    (h : blockSize * blockId ≤ content.length) : ofBlock blockSize content buffer blockId =
      (startOffset content (blockSize * blockId)).map fun offset ↦
        { fd := { content := content, offset := offset }
          line := buffer
          readingBlockEndOffset := blockSize * (blockId + 1) } := by
  rw [ofBlock, startOffset]
  by_cases hzero : blockSize * blockId = 0
  · simp [hzero]
  · have hlt : blockSize * blockId - 1 < content.length := by omega
    have hnext : blockSize * blockId - 1 + 1 = blockSize * blockId := by omega
    have hdrop : content.drop (blockSize * blockId - 1) =
        content[blockSize * blockId - 1] :: content.drop (blockSize * blockId) := by
      rw [List.drop_eq_getElem_cons hlt, hnext]
    simp only [Ne.symm hzero, hzero, if_false, FileStream.fseek, FileStream.fgetc, FileStream.rest,
      hdrop, List.getElem?_eq_getElem hlt, hnext]
    by_cases hnewline : content[blockSize * blockId - 1] = newline
    · simp only [hnewline, if_true, Option.map_some]
    · by_cases hmem : newline ∈ content.drop (blockSize * blockId)
      · simp only [Option.some.injEq, hnewline, if_false, FileStream.skipToNewline,
          FileStream.rest, hmem, if_true, Option.map_some]
      · simp only [Option.some.injEq, hnewline, if_false, FileStream.skipToNewline,
          FileStream.rest, hmem, Option.map_none]

/-- Skipping whole lines. -/
theorem startOffset_append {front : List UInt8} {bytes : List UInt8} {offset : ℕ}
    (h : front.length < offset) : startOffset (front ++ bytes) offset =
      (startOffset bytes (offset - front.length)).map (front.length + ·) := by
  have hzero : ¬ offset = 0 := by omega
  have hzero' : ¬ offset - front.length = 0 := by omega
  have hget : (front ++ bytes)[offset - 1]? = bytes[offset - front.length - 1]? := by
    rw [List.getElem?_append_right (by omega), Nat.sub_right_comm]
  have hdrop : (front ++ bytes).drop offset = bytes.drop (offset - front.length) := by
    rw [List.drop_append, List.drop_eq_nil_of_le h.le, List.nil_append]
  simp only [startOffset, hzero, hzero', if_false, hget, hdrop]
  split_ifs
  · simp only [Option.map_some, Option.some.injEq]
    omega
  · simp only [Option.map_some, Option.some.injEq]
    omega
  · rfl

/-- The constructor skips the lines that begin before the block, and does not return if one of them
has no newline. -/
theorem startOffset_flatten (h : Split ls) {offset : ℕ} (hoffset : offset ≤ ls.flatten.length) :
    startOffset ls.flatten offset =
      if (linesBefore offset 0 ls).all Line.isTerminated then
        some (linesBefore offset 0 ls).flatten.length
      else none := by
  rcases Nat.eq_zero_or_pos offset with rfl | hpos
  · rw [linesBefore_of_le (Nat.le_refl 0)]
    rfl
  have hzero : ¬ offset = 0 := hpos.ne'
  have hle : ¬ offset ≤ 0 := Nat.not_le.mpr hpos
  induction h generalizing offset with
  | nil => exact absurd hoffset hle
  | last line hne hline =>
      rw [List.flatten_cons, List.flatten_nil, List.append_nil] at hoffset ⊢
      have hget : ¬ (line)[offset - 1]? = some newline :=
        fun hget ↦ hline (List.mem_of_getElem? hget)
      have hdrop : newline ∉ line.drop offset := fun hmem ↦ hline (List.mem_of_mem_drop hmem)
      have hterminated : line.isTerminated = false := by simpa [Line.isTerminated] using hline
      simp only [startOffset, hzero, hget, hdrop, if_false, linesBefore, hle, List.all_cons,
        hterminated, Bool.false_and, Bool.false_eq_true]
  | cons front lines hfront hsplit ih =>
      obtain ⟨line, hline⟩ : ∃ line, line = front ++ [newline] := ⟨_, rfl⟩
      rw [← hline] at hoffset ⊢
      have hlength : line.length = front.length + 1 := by rw [hline, List.length_append]; rfl
      have hterminated : Line.isTerminated line = true := by simp [Line.isTerminated, hline]
      rw [List.flatten_cons, List.length_append] at hoffset
      rw [List.flatten_cons, linesBefore, if_neg hle, linesBefore_add, List.all_cons, hterminated,
        Bool.true_and, List.flatten_cons, List.length_append]
      rcases Nat.lt_trichotomy offset line.length with hlt | heq | hgt
      · have hsub : offset - line.length = 0 := by omega
        have hget : ¬ (line ++ lines.flatten)[offset - 1]? = some newline := by
          rw [List.getElem?_append_left (by omega), hline, List.getElem?_append_left (by omega)]
          exact fun hget ↦ hfront (List.mem_of_getElem? hget)
        have hdrop : (line ++ lines.flatten).drop offset =
            front.drop offset ++ newline :: lines.flatten := by
          rw [hline, List.append_assoc, List.drop_append_of_le_length (by omega)]
          rfl
        have hall : ∀ c ∈ front.drop offset, decide (c ≠ newline) = true := by
          intro c hc
          exact decide_eq_true fun h ↦ hfront (h ▸ List.mem_of_mem_drop hc)
        have htake : ((front.drop offset ++ newline :: lines.flatten).takeWhile
            (· ≠ newline)).length = front.length - offset := by
          rw [List.takeWhile_append_of_pos hall]
          simp
        have hmem : newline ∈ front.drop offset ++ newline :: lines.flatten := by simp
        rw [hsub, linesBefore_of_le (Nat.le_refl 0), startOffset, if_neg hzero, if_neg hget, hdrop,
          if_pos hmem, htake]
        simp only [List.all_nil, if_true, List.flatten_nil, List.length_nil, Option.some.injEq]
        omega
      · have hsub : offset - line.length = 0 := by omega
        have hget : (line ++ lines.flatten)[offset - 1]? = some newline := by
          have hindex : offset - 1 = front.length := by omega
          rw [hindex, hline, List.append_assoc, List.getElem?_append_right (Nat.le_refl _),
            Nat.sub_self]
          rfl
        rw [hsub, linesBefore_of_le (Nat.le_refl 0), startOffset, if_neg hzero, if_pos hget]
        simp only [List.all_nil, if_true, List.flatten_nil, List.length_nil, Option.some.injEq]
        exact heq
      · rw [startOffset_append hgt, ih (by omega) (by omega) (by omega) (by omega)]
        split_ifs <;> rfl

/-! ## All blocks -/

section Blocks

variable {blockSize blockId : ℕ}

/-- The lines that begin in a block. -/
def linesOfBlock (blockSize blockId : ℕ) (ls : List Line) : List Line :=
  linesBefore (blockSize * (blockId + 1)) (linesBefore (blockSize * blockId) 0 ls).flatten.length
    (linesFrom (blockSize * blockId) 0 ls)

/-- What the reader of a block returns that begins behind the block. -/
def overrunOfBlock (blockSize blockId : ℕ) (ls : List Line) : List Line :=
  if (linesOfBlock blockSize blockId ls).getLast?.any Line.isSkipped then
    nextReturned (linesFrom (blockSize * (blockId + 1)) 0 ls)
  else []

/-- One block. -/
theorem lines_ofBlock (buffer : Line) (hblock : blockSize * blockId ≤ content.length) :
    (ofBlock blockSize content buffer blockId).map lines =
      if (linesBefore (blockSize * blockId) 0 (fileLines content)).all Line.isTerminated then
        some ((linesOfBlock blockSize blockId (fileLines content)).filter isReturned ++
          overrunOfBlock blockSize blockId (fileLines content))
      else none := by
  have hsplit := split_fileLines content
  have hstart := startOffset_flatten hsplit (flatten_fileLines content ▸ hblock)
  rw [flatten_fileLines] at hstart
  rw [ofBlock_eq buffer hblock, hstart]
  split_ifs with hall
  · set ls := fileLines content
    have happend := linesBefore_append_linesFrom (blockSize * blockId) 0 ls
    have hcontent : content = (linesBefore (blockSize * blockId) 0 ls).flatten ++
        (linesFrom (blockSize * blockId) 0 ls).flatten := by
      rw [← List.flatten_append, happend, flatten_fileLines]
    have hrest : content.drop (linesBefore (blockSize * blockId) 0 ls).flatten.length =
        (linesFrom (blockSize * blockId) 0 ls).flatten :=
      (congrArg (List.drop _) hcontent).trans List.drop_left
    have hat : At ⟨⟨content, (linesBefore (blockSize * blockId) 0 ls).flatten.length, false⟩, false,
        buffer, 0, blockSize * (blockId + 1)⟩
          (linesBefore (blockSize * blockId) 0 ls).flatten.length
        (linesFrom (blockSize * blockId) 0 ls) :=
      ⟨hrest, hsplit.linesFrom _ _, rfl, rfl, rfl⟩
    have hbound : blockSize * blockId ≤ blockSize * (blockId + 1) :=
      Nat.mul_le_mul_left _ (Nat.le_succ _)
    have hfrom := linesFrom_linesFrom hbound 0 ls
    rw [Nat.zero_add] at hfrom
    rw [Option.map_some, Option.map_some, lines_eq_blockLines hat,
      blockLines_eq (hsplit.linesFrom _ _), overrun, hfrom]
    rfl
  · rfl

/-- The lines of the first blocks. -/
theorem flatMap_linesOfBlock (blockSize n : ℕ) (ls : List Line) :
    (List.range n).flatMap (fun blockId ↦ linesOfBlock blockSize blockId ls) =
      linesBefore (blockSize * n) 0 ls := by
  induction n with
  | zero => rw [Nat.mul_zero, linesBefore_of_le (Nat.le_refl 0)]; rfl
  | succ n ih =>
      have hbound : blockSize * n ≤ blockSize * (n + 1) := Nat.mul_le_mul_left _ (Nat.le_succ _)
      have happend := linesBefore_append hbound 0 ls
      rw [Nat.zero_add] at happend
      rw [List.range_succ, List.flatMap_append, ih, happend, List.flatMap_singleton]
      rfl

theorem Split.ne_nil_of_mem (h : Split ls) : ∀ line ∈ ls, line ≠ [] := by
  induction ls with
  | nil => exact fun line hline ↦ absurd hline List.not_mem_nil
  | cons line ls ih =>
      intro line' hline'
      rcases List.mem_cons.mp hline' with rfl | hline'
      · exact h.ne_nil
      · exact ih h.tail line' hline'

/-- Every line begins in one of the blocks. -/
theorem flatMap_linesOfBlock_calculateNumBlocks (hsize : 0 < blockSize) (content : List UInt8) :
    (List.range (calculateNumBlocks blockSize content)).flatMap
      (fun blockId ↦ linesOfBlock blockSize blockId (fileLines content)) = fileLines content := by
  rw [flatMap_linesOfBlock]
  apply linesBefore_eq_self (Split.ne_nil_of_mem (split_fileLines content))
  rw [flatten_fileLines, calculateNumBlocks, Nat.zero_add, Nat.mul_add, Nat.mul_one]
  have hmod := Nat.mod_lt content.length hsize
  have hdiv := Nat.div_add_mod content.length blockSize
  omega

/-- A terminated line is skipped if and only if it holds no data. -/
theorem isReturned_eq (h : Split ls) (hline : line ∈ ls) :
    isReturned line = (line.isData && line.isTerminated) := by
  induction h with
  | nil => exact absurd hline List.not_mem_nil
  | last line' _ hnewline =>
      obtain rfl := List.mem_singleton.mp hline
      have hterminated : line.isTerminated = false := by simpa [Line.isTerminated] using hnewline
      rw [isReturned, hterminated, Bool.and_false, Bool.and_false]
  | cons front lines _ _ ih =>
      rcases List.mem_cons.mp hline with rfl | hline
      · have hblank : decide (2 > (front ++ [newline]).length) =
            Line.isBlank (front ++ [newline]) := by
          cases front with
          | nil => rfl
          | cons c front =>
              have hne : c :: front ++ [newline] ≠ [newline] := by simp
              rw [Line.isBlank, beq_false_of_ne hne]
              simp
        rw [isReturned, Line.isSkipped, hblank, Bool.not_or]
        rfl
      · exact ih hline

theorem isTerminated_of_mem_nextReturned (h : line ∈ nextReturned ls) :
    line.isTerminated = true := by
  induction ls with
  | nil => exact absurd h List.not_mem_nil
  | cons line' ls ih =>
      rw [nextReturned] at h
      split_ifs at h with hskipped hterminated
      · exact ih h
      · exact List.mem_singleton.mp h ▸ hterminated
      · exact absurd h List.not_mem_nil

/-- What all blocks return. -/
def returned (blockSize : ℕ) (content : List UInt8) : List Line :=
  (List.range (calculateNumBlocks blockSize content)).flatMap fun blockId ↦
    (linesOfBlock blockSize blockId (fileLines content)).filter isReturned ++
      overrunOfBlock blockSize blockId (fileLines content)

/-- When a file can be read block by block. -/
structure ReadableInBlocks (blockSize : ℕ) (content : List UInt8) : Prop where
  /-- The last block does not begin in a line without a newline. -/
  terminates : ∀ line ∈ linesBefore (blockSize * (content.length / blockSize)) 0
    (fileLines content), line.isTerminated = true
  /-- Only a comment can be without a newline. -/
  complete : ∀ line ∈ fileLines content, line.isTerminated = true ∨ line.isComment = true
  /-- If the last line that begins in a block is blank or a comment, no line with data follows. -/
  once : ∀ blockId < calculateNumBlocks blockSize content,
    overrunOfBlock blockSize blockId (fileLines content) = []

theorem mapM_option_eq_some {α β : Type} {g : α → Option β} {h : α → β} {xs : List α}
    (hg : ∀ x ∈ xs, g x = some (h x)) : xs.mapM g = some (xs.map h) := by
  induction xs with
  | nil => rfl
  | cons x xs ih =>
      have hrest := ih fun y hy ↦ hg y (List.mem_cons_of_mem _ hy)
      simp [List.mapM_cons, hg x List.mem_cons_self, hrest]

theorem isSome_of_mapM_eq_some {α β : Type} {g : α → Option β} {xs : List α} {ys : List β}
    (h : xs.mapM g = some ys) : ∀ x ∈ xs, (g x).isSome = true := by
  induction xs generalizing ys with
  | nil => exact fun x hx ↦ absurd hx List.not_mem_nil
  | cons x xs ih =>
      rw [List.mapM_cons] at h
      cases hx : g x with
      | none => simp [hx] at h
      | some y =>
          cases hxs : xs.mapM g with
          | none => simp [hx, hxs] at h
          | some ys =>
              intro z hz
              rcases List.mem_cons.mp hz with rfl | hz
              · rw [hx]
                rfl
              · exact ih hxs z hz

/-- The readers of all blocks come to an end, or the one of the last block does not. -/
theorem linesOfBlocks_eq (blockSize : ℕ) (content : List UInt8) (buffer : ℕ → Line) :
    linesOfBlocks blockSize content buffer =
      if (linesBefore (blockSize * (content.length / blockSize)) 0 (fileLines content)).all
        Line.isTerminated then some (returned blockSize content) else none := by
  have hblock : ∀ blockId ∈ List.range (calculateNumBlocks blockSize content),
      blockSize * blockId ≤ blockSize * (content.length / blockSize) := by
    intro blockId hblockId
    rw [List.mem_range, calculateNumBlocks] at hblockId
    exact Nat.mul_le_mul_left _ (by omega)
  have hlast : blockSize * (content.length / blockSize) ≤ content.length := Nat.mul_div_le _ _
  split_ifs with hall
  · have heach : ∀ blockId ∈ List.range (calculateNumBlocks blockSize content),
        (ofBlock blockSize content (buffer blockId) blockId).map lines =
          some ((linesOfBlock blockSize blockId (fileLines content)).filter isReturned ++
            overrunOfBlock blockSize blockId (fileLines content)) := by
      intro blockId hblockId
      have hall' : (linesBefore (blockSize * blockId) 0 (fileLines content)).all
          Line.isTerminated = true := by
        rw [linesBefore_append (hblock blockId hblockId), List.all_append, Bool.and_eq_true] at hall
        exact hall.1
      rw [lines_ofBlock _ ((hblock blockId hblockId).trans hlast), if_pos hall']
    rw [linesOfBlocks, mapM_option_eq_some heach, Option.map_some, returned, List.flatMap_def]
  · cases hmap : (List.range (calculateNumBlocks blockSize content)).mapM fun blockId ↦
        (ofBlock blockSize content (buffer blockId) blockId).map lines with
    | none => rw [linesOfBlocks, hmap, Option.map_none]
    | some _ =>
        have hmem : content.length / blockSize ∈
            List.range (calculateNumBlocks blockSize content) := by
          rw [List.mem_range, calculateNumBlocks]
          omega
        have hsome := isSome_of_mapM_eq_some hmap _ hmem
        rw [lines_ofBlock _ hlast, if_neg hall] at hsome
        exact absurd hsome Bool.false_ne_true

theorem isTerminated_of_mem_returned (h : line ∈ returned blockSize content) :
    line.isTerminated = true := by
  rw [returned, List.mem_flatMap] at h
  obtain ⟨blockId, -, h⟩ := h
  rcases List.mem_append.mp h with h | h
  · have hreturned := (List.mem_filter.mp h).2
    rw [isReturned, Bool.and_eq_true] at hreturned
    exact hreturned.2
  · rw [overrunOfBlock] at h
    split_ifs at h
    · exact isTerminated_of_mem_nextReturned h
    · exact absurd h List.not_mem_nil

/-- The lines that are returned more than once make the result longer. -/
theorem length_returned (hsize : 0 < blockSize) (content : List UInt8) :
    (returned blockSize content).length = ((fileLines content).filter isReturned).length +
      ((List.range (calculateNumBlocks blockSize content)).flatMap fun blockId ↦
        overrunOfBlock blockSize blockId (fileLines content)).length := by
  have hlines := congrArg (List.filter isReturned)
    (flatMap_linesOfBlock_calculateNumBlocks hsize content)
  rw [List.filter_flatMap] at hlines
  rw [← hlines, returned]
  generalize List.range (calculateNumBlocks blockSize content) = blocks
  induction blocks with
  | nil => rfl
  | cons blockId blocks ih =>
      simp only [List.flatMap_cons, List.length_append, ih]
      omega

theorem dataLines_eq (hcomplete : ∀ line ∈ fileLines content,
    line.isTerminated = true ∨ line.isComment = true) :
    dataLines content = (fileLines content).filter isReturned := by
  apply List.filter_congr
  intro line hline
  rw [isReturned_eq (split_fileLines content) hline]
  rcases hcomplete line hline with h | h
  · rw [h, Bool.and_true]
  · rw [Line.isData, h, Bool.not_true, Bool.and_false, Bool.false_and]

end Blocks

/-- Every line with data is returned once and in order if and only if the last block does not begin
in a line without a newline, no line with data is without a newline, and no reader skips lines to
the end of its block and beyond it to a line with data. -/
theorem linesOfBlocks_eq_dataLines_iff (content : List UInt8) (buffer : ℕ → Line) :
    linesOfBlocks csvReadingBlockSize content buffer = some (dataLines content) ↔
      ReadableInBlocks csvReadingBlockSize content := by
  have hsize : 0 < csvReadingBlockSize := by decide
  have hsplit := split_fileLines content
  rw [linesOfBlocks_eq]
  constructor
  · intro h
    split_ifs at h with hall
    rw [Option.some.injEq] at h
    have hcomplete : ∀ line ∈ fileLines content,
        line.isTerminated = true ∨ line.isComment = true := by
      intro line hline
      by_contra hboth
      rw [not_or, Bool.not_eq_true, Bool.not_eq_true] at hboth
      have hblank : line.isBlank = false := by
        apply beq_false_of_ne
        rintro rfl
        exact absurd hboth.1 (by decide)
      have hdata : line ∈ dataLines content :=
        List.mem_filter.mpr ⟨hline, by rw [Line.isData, hblank, hboth.2]; rfl⟩
      rw [← h] at hdata
      rw [isTerminated_of_mem_returned hdata] at hboth
      exact absurd hboth.1 (by decide)
    refine ⟨List.all_eq_true.mp hall, hcomplete, ?_⟩
    have hlength := length_returned hsize content
    rw [h, dataLines_eq hcomplete, Nat.left_eq_add, List.length_eq_zero_iff,
      List.flatMap_eq_nil_iff] at hlength
    intro blockId hblockId
    exact hlength blockId (List.mem_range.mpr hblockId)
  · rintro ⟨hterminates, hcomplete, honce⟩
    have hlines := congrArg (List.filter isReturned)
      (flatMap_linesOfBlock_calculateNumBlocks hsize content)
    rw [List.filter_flatMap] at hlines
    rw [if_pos (List.all_eq_true.mpr hterminates), dataLines_eq hcomplete, ← hlines, returned]
    congr 1
    rw [List.flatMap_def, List.flatMap_def]
    apply congrArg List.flatten
    apply List.map_congr_left
    intro blockId hblockId
    rw [honce blockId (List.mem_range.mp hblockId), List.append_nil]

/-- A line without a newline at the end of the file is lost. -/
theorem linesOfBlocks_ne_dataLines :
    linesOfBlocks csvReadingBlockSize [97, 98] (fun _ ↦ []) ≠ some (dataLines [97, 98]) := by
  rw [linesOfBlocks_eq]
  decide

end CSVReader

end Graphflow
