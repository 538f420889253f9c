import Graphflow.Common.CSVTokens

/-!
# Where the tokens of a line end

A call stays in the line if the token it meets is closed there: a quoted string by a quote, and a
list by a bracket, as far as the loop looks at the brackets.
-/

namespace Graphflow

open Lib

/-! ## Texts that the loops pass -/

namespace CSVReaderConfig

variable (config : CSVReaderConfig)

/-- What can stand between two quotes. -/
inductive QuotedText : List UInt8 → Prop
  | nil : QuotedText []
  | char (c : UInt8) (text : List UInt8) (hquote : c ≠ config.quoteChar)
      (hescape : c ≠ config.escapeChar) (htext : QuotedText text) : QuotedText (c :: text)
  | escaped (c : UInt8) (text : List UInt8) (hescape : config.escapeChar ≠ config.quoteChar)
      (htext : QuotedText text) : QuotedText (config.escapeChar :: c :: text)

/-- What can stand in a list of this depth up to its last bracket, if the character behind an
opening bracket does not count. -/
inductive ListText : ℕ → List UInt8 → Prop
  | nil : ListText 1 []
  | char (level : ℕ) (c : UInt8) (text : List UInt8) (hbegin : c ≠ config.listBeginChar)
      (hend : c ≠ config.listEndChar) (htext : ListText level text) : ListText level (c :: text)
  | opened (level : ℕ) (c : UInt8) (text : List UInt8) (htext : ListText (level + 1) text) :
      ListText level (config.listBeginChar :: c :: text)
  | closed (level : ℕ) (text : List UInt8) (hpos : 0 < level) (htext : ListText level text) :
      ListText (level + 1) (config.listEndChar :: text)

variable {config} {chars text rest : List UInt8} {level : ℕ}

theorem exists_scanQuoted_eq (h : config.QuotedText text) (rest : List UInt8) :
    ∃ lineStr, config.scanQuoted (text ++ config.quoteChar :: rest) =
      some ⟨text.length, lineStr⟩ ∧ lineStr.length ≤ text.length := by
  induction h with
  | nil =>
      refine ⟨[], ?_, Nat.le_refl _⟩
      cases rest <;> simp [scanQuoted, Scanned.stop]
  | char c text hquote hescape htext ih =>
      obtain ⟨lineStr, hscan, hlen⟩ := ih
      refine ⟨c :: lineStr, ?_, Nat.succ_le_succ hlen⟩
      obtain ⟨d, chars, hchars⟩ : ∃ d chars, text ++ config.quoteChar :: rest = d :: chars := by
        cases text <;> simp
      rw [List.cons_append, hchars, scanQuoted, if_neg hquote, if_neg hescape, ← hchars, hscan]
      rfl
  | escaped c text hescape htext ih =>
      obtain ⟨lineStr, hscan, hlen⟩ := ih
      refine ⟨c :: lineStr, ?_, Nat.succ_le_succ (Nat.le_succ_of_le hlen)⟩
      rw [List.cons_append, List.cons_append, scanQuoted, if_neg hescape, if_pos rfl, hscan]
      rfl

theorem exists_quotedText_of_scanQuoted {scanned : Scanned}
    (h : config.scanQuoted chars = some scanned) :
    ∃ text rest, config.QuotedText text ∧ chars = text ++ config.quoteChar :: rest := by
  induction chars using scanQuoted.induct config generalizing scanned with
  | case1 => cases h
  | case2 => exact ⟨[], [], .nil, rfl⟩
  | case3 c hc =>
      rw [scanQuoted, if_neg hc] at h
      cases h
  | case4 d chars => exact ⟨[], d :: chars, .nil, rfl⟩
  | case5 d chars hescape ih =>
      rw [scanQuoted, if_neg hescape, if_pos rfl] at h
      obtain ⟨scanned, hscan, -⟩ := Option.map_eq_some_iff.mp h
      obtain ⟨text, rest, htext, rfl⟩ := ih hscan
      exact ⟨config.escapeChar :: d :: text, rest, .escaped d text hescape htext, rfl⟩
  | case6 c d chars hquote hescape ih =>
      rw [scanQuoted, if_neg hquote, if_neg hescape] at h
      obtain ⟨scanned, hscan, -⟩ := Option.map_eq_some_iff.mp h
      obtain ⟨text, rest, htext, hchars⟩ := ih hscan
      exact ⟨c :: text, rest, .char c text hquote hescape htext, by rw [hchars]; rfl⟩

theorem exists_scanList_eq (hne : config.listEndChar ≠ config.listBeginChar)
    (h : config.ListText level text) (rest : List UInt8) :
    ∃ lineStr, config.scanList level (text ++ config.listEndChar :: rest) =
      some ⟨text.length, lineStr⟩ ∧ lineStr.length ≤ text.length := by
  induction h with
  | nil =>
      refine ⟨[], ?_, Nat.le_refl _⟩
      cases rest <;> simp [scanList, Scanned.stop, hne]
  | char level c text hbegin hend htext ih =>
      obtain ⟨lineStr, hscan, hlen⟩ := ih
      refine ⟨c :: lineStr, ?_, Nat.succ_le_succ hlen⟩
      obtain ⟨d, chars, hchars⟩ : ∃ d chars, text ++ config.listEndChar :: rest = d :: chars := by
        cases text <;> simp
      rw [List.cons_append, hchars, scanList, if_neg hbegin, if_neg hend, ← hchars, hscan]
      rfl
  | opened level c text htext ih =>
      obtain ⟨lineStr, hscan, hlen⟩ := ih
      refine ⟨c :: lineStr, ?_, Nat.succ_le_succ (Nat.le_succ_of_le hlen)⟩
      rw [List.cons_append, List.cons_append, scanList, if_pos rfl, hscan]
      rfl
  | closed level text hpos htext ih =>
      obtain ⟨lineStr, hscan, hlen⟩ := ih
      refine ⟨config.listEndChar :: lineStr, ?_, Nat.succ_le_succ hlen⟩
      obtain ⟨d, chars, hchars⟩ : ∃ d chars, text ++ config.listEndChar :: rest = d :: chars := by
        cases text <;> simp
      rw [List.cons_append, hchars, scanList, if_neg hne, if_pos rfl, Nat.add_sub_cancel,
        if_neg hpos.ne', ← hchars, hscan]
      rfl

theorem exists_listText_of_scanList {scanned : Scanned} (hpos : 0 < level)
    (h : config.scanList level chars = some scanned) : config.listEndChar ≠ config.listBeginChar ∧
      ∃ text rest, config.ListText level text ∧ chars = text ++ config.listEndChar :: rest := by
  induction level, chars using scanList.induct config generalizing scanned with
  | case1 level => cases h
  | case2 level c hc =>
      obtain ⟨hbegin, rfl, rfl⟩ := hc
      exact ⟨hbegin, [], [], .nil, rfl⟩
  | case3 level c hc =>
      rw [scanList, if_neg hc] at h
      cases h
  | case4 level d chars ih =>
      rw [scanList, if_pos rfl] at h
      obtain ⟨scanned, hscan, -⟩ := Option.map_eq_some_iff.mp h
      obtain ⟨hne, text, rest, htext, rfl⟩ := ih (Nat.succ_pos _) hscan
      exact ⟨hne, config.listBeginChar :: d :: text, rest, .opened level d text htext, rfl⟩
  | case5 level d chars hlevel hbegin =>
      obtain rfl : level = 1 := by omega
      exact ⟨hbegin, [], d :: chars, .nil, rfl⟩
  | case6 level d chars hlevel hbegin ih =>
      rw [scanList, if_neg hbegin, if_pos rfl, if_neg hlevel] at h
      obtain ⟨scanned, hscan, -⟩ := Option.map_eq_some_iff.mp h
      obtain ⟨hne, text, rest, htext, hchars⟩ := ih (Nat.pos_of_ne_zero hlevel) hscan
      have hclosed := ListText.closed (level - 1) text (Nat.pos_of_ne_zero hlevel) htext
      rw [Nat.sub_add_cancel hpos] at hclosed
      exact ⟨hne, config.listEndChar :: text, rest, hclosed, by rw [hchars]; rfl⟩
  | case7 level c d chars hbegin hend ih =>
      rw [scanList, if_neg hbegin, if_neg hend] at h
      obtain ⟨scanned, hscan, -⟩ := Option.map_eq_some_iff.mp h
      obtain ⟨hne, text, rest, htext, hchars⟩ := ih hpos hscan
      exact ⟨hne, c :: text, rest, .char level c text hbegin hend htext, by rw [hchars]; rfl⟩

theorem scanPlain_eq {numLeft : ℕ} {c : UInt8}
    (htext : ∀ d ∈ text, d ≠ config.tokenSeparator ∧ d ≠ newline) (hlen : text.length ≤ numLeft)
    (hc : c = config.tokenSeparator ∨ c = newline ∨ text.length = numLeft) (rest : List UInt8) :
    config.scanPlain numLeft (text ++ c :: rest) = some ⟨text.length, text⟩ := by
  induction text generalizing numLeft with
  | nil =>
      have hstop : c = config.tokenSeparator ∨ c = newline ∨ numLeft = 0 := by
        rcases hc with hc | hc | hc
        · exact .inl hc
        · exact .inr (.inl hc)
        · exact .inr (.inr hc.symm)
      rw [List.nil_append, scanPlain, if_pos hstop]
      rfl
  | cons d text ih =>
      obtain ⟨hsep, hnewline⟩ := htext d List.mem_cons_self
      rw [List.length_cons] at hlen
      have hgo : ¬ (d = config.tokenSeparator ∨ d = newline ∨ numLeft = 0) := by
        rintro (h | h | h)
        · exact hsep h
        · exact hnewline h
        · omega
      rw [List.length_cons] at hc
      have hrest := @ih (numLeft - 1) (fun d hd ↦ htext d (List.mem_cons_of_mem _ hd))
        (by omega) (hc.imp_right (Or.imp_right (by omega)))
      rw [List.cons_append, scanPlain, if_neg hgo, hrest]
      rfl

theorem exists_of_scanPlain {numLeft : ℕ} {scanned : Scanned}
    (h : config.scanPlain numLeft chars = some scanned) : ∃ text c rest, chars = text ++ c :: rest ∧
      (∀ d ∈ text, d ≠ config.tokenSeparator ∧ d ≠ newline) ∧ text.length ≤ numLeft ∧
      (c = config.tokenSeparator ∨ c = newline ∨ text.length = numLeft) := by
  induction chars generalizing numLeft scanned with
  | nil => cases h
  | cons c chars ih =>
      rw [scanPlain] at h
      split_ifs at h with hstop
      · refine ⟨[], c, chars, rfl, fun d hd ↦ absurd hd List.not_mem_nil, Nat.zero_le _, ?_⟩
        rcases hstop with hc | hc | hc
        · exact .inl hc
        · exact .inr (.inl hc)
        · exact .inr (.inr hc.symm)
      · obtain ⟨scanned, hscan, -⟩ := Option.map_eq_some_iff.mp h
        obtain ⟨text, d, rest, rfl, htext, hlen, hd⟩ := ih hscan
        rw [not_or, not_or] at hstop
        refine ⟨c :: text, d, rest, rfl, ?_, ?_, ?_⟩
        · intro e he
          rcases List.mem_cons.mp he with rfl | he
          · exact ⟨hstop.1, hstop.2.1⟩
          · exact htext e he
        · rw [List.length_cons]
          omega
        · rw [List.length_cons]
          exact hd.imp_right (Or.imp_right (by omega))

variable (config)

/-- The token that the loop is in comes to an end. -/
def Closes (isQuotedString isList : Bool) (numLeft : ℕ) (chars : List UInt8) : Prop :=
  if isQuotedString then
    ∃ text rest, config.QuotedText text ∧ chars = text ++ config.quoteChar :: rest
  else if isList then config.listEndChar ≠ config.listBeginChar ∧
    ∃ text rest, config.ListText 1 text ∧ chars = text ++ config.listEndChar :: rest
  else ∃ text c rest, chars = text ++ c :: rest ∧
    (∀ d ∈ text, d ≠ config.tokenSeparator ∧ d ≠ newline) ∧ text.length ≤ numLeft ∧
    (c = config.tokenSeparator ∨ c = newline ∨ text.length = numLeft)

/-- The characters begin with a token that is closed. -/
def BeginWithToken (numLeft : ℕ) (chars : List UInt8) : Prop :=
  let isQuotedString := chars.head? == some config.quoteChar
  let second := chars.drop isQuotedString.toNat
  let isList := second.head? == some config.listBeginChar
  config.Closes isQuotedString isList (numLeft - isQuotedString.toNat) (second.drop isList.toNat)

variable {config} {isQuotedString isList : Bool} {numLeft : ℕ}

/-- The loop comes to an end if the token does, and then it has stayed in the line. -/
theorem scan_cases : (config.scan isQuotedString isList numLeft chars = none ∧
      ¬ config.Closes isQuotedString isList numLeft chars) ∨
    ∃ scanned, config.scan isQuotedString isList numLeft chars = some scanned ∧
      config.Closes isQuotedString isList numLeft chars ∧ scanned.numChars < chars.length ∧
      scanned.lineStr.length ≤ scanned.numChars := by
  rw [scan, Closes]
  split_ifs with hquoted hlist
  · cases hscan : config.scanQuoted chars with
    | none =>
        refine .inl ⟨rfl, ?_⟩
        rintro ⟨text, rest, htext, rfl⟩
        obtain ⟨lineStr, hsome, -⟩ := exists_scanQuoted_eq htext rest
        rw [hsome] at hscan
        cases hscan
    | some scanned =>
        obtain ⟨text, rest, htext, rfl⟩ := exists_quotedText_of_scanQuoted hscan
        obtain ⟨lineStr, hsome, hlen⟩ := exists_scanQuoted_eq htext rest
        obtain rfl := Option.some.inj (hscan.symm.trans hsome)
        exact .inr ⟨_, rfl, ⟨text, rest, htext, rfl⟩, by simp, hlen⟩
  · cases hscan : config.scanList 1 chars with
    | none =>
        refine .inl ⟨rfl, ?_⟩
        rintro ⟨hne, text, rest, htext, rfl⟩
        obtain ⟨lineStr, hsome, -⟩ := exists_scanList_eq hne htext rest
        rw [hsome] at hscan
        cases hscan
    | some scanned =>
        obtain ⟨hne, text, rest, htext, rfl⟩ := exists_listText_of_scanList Nat.one_pos hscan
        obtain ⟨lineStr, hsome, hlen⟩ := exists_scanList_eq hne htext rest
        obtain rfl := Option.some.inj (hscan.symm.trans hsome)
        exact .inr ⟨_, rfl, ⟨hne, text, rest, htext, rfl⟩, by simp, hlen⟩
  · cases hscan : config.scanPlain numLeft chars with
    | none =>
        refine .inl ⟨rfl, ?_⟩
        rintro ⟨text, c, rest, rfl, htext, hlen, hc⟩
        rw [scanPlain_eq htext hlen hc rest] at hscan
        cases hscan
    | some scanned =>
        obtain ⟨text, c, rest, rfl, htext, hlen, hc⟩ := exists_of_scanPlain hscan
        obtain rfl := Option.some.inj (hscan.symm.trans (scanPlain_eq htext hlen hc rest))
        exact .inr ⟨_, rfl, ⟨text, c, rest, rfl, htext, hlen, hc⟩, by simp, Nat.le_refl _⟩

theorem scan_nil (config : CSVReaderConfig) :
    config.scan isQuotedString isList numLeft [] = none := by
  rcases @scan_cases config [] isQuotedString isList numLeft with ⟨h, -⟩ | ⟨scanned, -, -, hlt, -⟩
  · exact h
  · cases hlt

end CSVReaderConfig

/-! ## Calls -/

namespace TokenReader

variable {V α : Type} (config : CSVReaderConfig) (r : TokenReader)

/-- The next token is closed in the line, if there is one. -/
def TokenCloses : Prop :=
  toUInt64 (r.linePtrEnd + 1) < r.lineLen → 0 ≤ r.linePtrEnd + 1 ∧
    config.BeginWithToken (r.lineLen - (r.linePtrEnd + 1).toNat)
      (r.line.drop (r.linePtrEnd + 1).toNat)

/-- A token has been found in the line. -/
structure Found (isQuotedString isList : Bool) (linePtrStart : ℤ) (scanned : Scanned) : Prop where
  lt_lineLen : toUInt64 (r.linePtrEnd + 1) < r.lineLen
  nonneg : 0 ≤ r.linePtrEnd + 1
  linePtrStart_eq : linePtrStart = r.linePtrEnd + 1 + isQuotedString.toNat + isList.toNat
  lt_length : linePtrStart.toNat + scanned.numChars < r.line.length
  lineStr_le : scanned.lineStr.length ≤ scanned.numChars

/-- Where the token at an index begins, and what its loop reads. -/
theorem hasNextToken_eq {p : ℕ} (hp : r.linePtrEnd + 1 = p) (hlt : toUInt64 p < r.lineLen) :
    let isQuotedString := (r.line.drop p).head? == some config.quoteChar
    let second := (r.line.drop p).drop isQuotedString.toNat
    let isList := second.head? == some config.listBeginChar
    r.hasNextToken config =
      match config.scan isQuotedString isList (r.lineLen - (p + isQuotedString.toNat))
        (second.drop isList.toNat) with
      | none => .error .outOfLine
      | some scanned => .ok (true, r.endToken isQuotedString isList
          (p + isQuotedString.toNat + isList.toNat) scanned) := by
  intro isQuotedString second isList
  have hchars (k : ℕ) : r.charsFrom k =
      if r.line.drop k = [] then .error .outOfLine else .ok (r.line.drop k) := by
    rw [charsFrom, Int.toNat_natCast]
    split_ifs with h hnil hnil
    · rw [List.drop_eq_nil_iff] at hnil
      omega
    · rfl
    · rfl
    · rw [List.drop_eq_nil_iff] at hnil
      omega
  rw [hasNextToken, hp, if_neg hlt.not_ge, hchars p]
  by_cases hfirst : r.line.drop p = []
  · have hsecond : second = [] := by
      change List.drop _ (r.line.drop p) = []
      rw [hfirst, List.drop_nil]
    have hscan : config.scan isQuotedString isList (r.lineLen - (p + isQuotedString.toNat))
        (second.drop isList.toNat) = none := by
      rw [hsecond, List.drop_nil]
      exact config.scan_nil
    rw [if_pos hfirst, hscan]
    rfl
  · rw [if_neg hfirst, ok_bind]
    have hsecond : r.line.drop (p + isQuotedString.toNat) = second := by
      rw [← List.drop_drop]
    have hcast : (p : ℤ) + isQuotedString.toNat = ((p + isQuotedString.toNat : ℕ) : ℤ) := by
      rw [Nat.cast_add]
    change (r.charsFrom ((p : ℤ) + isQuotedString.toNat) >>= _) = _
    rw [hcast, hchars, hsecond]
    by_cases hnil : second = []
    · have hscan : config.scan isQuotedString isList (r.lineLen - (p + isQuotedString.toNat))
          (second.drop isList.toNat) = none := by
        rw [hnil, List.drop_nil]
        exact config.scan_nil
      rw [if_pos hnil, hscan]
      rfl
    · rw [if_neg hnil, ok_bind]
      simp only [Int.toNat_natCast]
      rfl

/-- What `hasNextToken` can do. -/
theorem hasNextToken_cases :
    (r.hasNextToken config = .error .outOfLine ∧ ¬ r.TokenCloses config) ∨
    (r.hasNextToken config = .ok (false, { r with
        linePtrStart := r.linePtrEnd + 1, linePtrEnd := r.linePtrEnd + 1 }) ∧
      r.TokenCloses config ∧ r.lineLen ≤ toUInt64 (r.linePtrEnd + 1)) ∨
    ∃ isQuotedString isList linePtrStart scanned,
      r.hasNextToken config = .ok (true, r.endToken isQuotedString isList linePtrStart scanned) ∧
        r.TokenCloses config ∧ r.Found isQuotedString isList linePtrStart scanned := by
  by_cases hle : r.lineLen ≤ toUInt64 (r.linePtrEnd + 1)
  · refine .inr (.inl ⟨?_, fun hlt ↦ absurd hle hlt.not_ge, hle⟩)
    rw [hasNextToken, if_pos hle]
    rfl
  have hlt := Nat.lt_of_not_le hle
  by_cases hnonneg : 0 ≤ r.linePtrEnd + 1
  · obtain ⟨p, hp⟩ := Int.eq_ofNat_of_zero_le hnonneg
    rw [hp] at hlt
    have heq := r.hasNextToken_eq config hp hlt
    have hcloses : r.TokenCloses config ↔
        config.BeginWithToken (r.lineLen - p) (r.line.drop p) := by
      rw [TokenCloses, hp, Int.toNat_natCast]
      exact ⟨fun h ↦ (h hlt).2, fun h _ ↦ ⟨Int.natCast_nonneg p, h⟩⟩
    rw [hcloses, CSVReaderConfig.BeginWithToken, Nat.sub_sub]
    rw [heq]
    generalize ((r.line.drop p).head? == some config.quoteChar) = isQuotedString
    generalize (((r.line.drop p).drop isQuotedString.toNat).head? ==
      some config.listBeginChar) = isList
    rcases @CSVReaderConfig.scan_cases config
      (((r.line.drop p).drop isQuotedString.toNat).drop isList.toNat) isQuotedString isList
      (r.lineLen - (p + isQuotedString.toNat)) with
      ⟨hscan, hopen⟩ | ⟨scanned, hscan, hclosed, hlen, hlineStr⟩
    · rw [hscan]
      exact .inl ⟨rfl, hopen⟩
    · rw [hscan]
      refine .inr (.inr ⟨_, _, _, scanned, rfl, hclosed, ?_⟩)
      rw [List.length_drop, List.length_drop, List.length_drop] at hlen
      exact ⟨by rw [hp]; exact hlt, hnonneg, by rw [hp], by omega, hlineStr⟩
  · refine .inl ⟨?_, fun h ↦ hnonneg (h hlt).1⟩
    rw [hasNextToken, if_neg hle, charsFrom, if_neg fun h ↦ hnonneg h.1]
    rfl

/-- The line as a call leaves it: of the same length, and with its NUL. -/
structure Keeps (line line' : List UInt8) : Prop where
  length : line'.length = line.length
  getLast? : line'.getLast? = line.getLast?

theorem Keeps.refl (line : List UInt8) : Keeps line line := ⟨rfl, rfl⟩

theorem Keeps.trans {line line' line'' : List UInt8} (h : Keeps line line')
    (h' : Keeps line' line'') : Keeps line line'' :=
  ⟨h'.length.trans h.length, h'.getLast?.trans h.getLast?⟩

variable {config r} {line : List UInt8}

theorem keeps_set (hnul : line.getLast? = some 0) {i : ℕ} (hi : i < line.length) :
    Keeps line (line.set i 0) := by
  refine ⟨List.length_set, ?_⟩
  rw [hnul, List.getLast?_eq_getElem?, List.length_set]
  by_cases heq : i = line.length - 1
  · rw [← heq, List.getElem?_set_self hi]
  · rw [List.getElem?_set_ne heq, ← List.getLast?_eq_getElem?, hnul]

theorem keeps_strncpy (hnul : line.getLast? = some 0) {pos : ℕ} {lineStr : List UInt8}
    (hlen : pos + lineStr.length < line.length) : Keeps line (strncpy line pos lineStr) := by
  have hchars : (lineStr.takeWhile (· ≠ 0)).length ≤ lineStr.length :=
    (List.takeWhile_sublist _).length_le
  have hlength : (strncpy line pos lineStr).length = line.length := by
    rw [strncpy]
    simp only [List.length_append, List.length_take, List.length_replicate, List.length_drop]
    omega
  refine ⟨hlength, ?_⟩
  rw [hnul, strncpy]
  by_cases hlast : pos + lineStr.length + 1 < line.length
  · have hne : line.drop (pos + lineStr.length + 1) ≠ [] := by
      rw [Ne, List.drop_eq_nil_iff]
      omega
    rw [List.getLast?_append_of_ne_nil _ hne, List.getLast?_drop, if_neg (by omega), hnul]
  · have hnil : line.drop (pos + lineStr.length + 1) = [] := by
      rw [List.drop_eq_nil_iff]
      omega
    have hne : lineStr.length + 1 - (lineStr.takeWhile (· ≠ 0)).length ≠ 0 := by omega
    rw [hnil, List.append_nil, List.getLast?_append_of_ne_nil _ (by simpa using hne),
      List.getLast?_replicate, if_neg hne]

theorem Found.keeps {isQuotedString isList : Bool} {linePtrStart : ℤ} {scanned : Scanned}
    (h : r.Found isQuotedString isList linePtrStart scanned) (hnul : r.line.getLast? = some 0) :
    Keeps r.line (r.endToken isQuotedString isList linePtrStart scanned).line := by
  have hnonneg : 0 ≤ linePtrStart := by
    rw [h.linePtrStart_eq]
    have hnonneg := h.nonneg
    omega
  have hlt := h.lt_length
  have hset := keeps_set hnul (i := (linePtrStart + scanned.numChars).toNat) (by omega)
  rw [endToken]
  cases isQuotedString with
  | false => exact hset
  | true =>
      have hlineStr := h.lineStr_le
      apply hset.trans
      apply keeps_strncpy (hset.getLast?.trans hnul)
      rw [hset.length]
      omega

/-- The token lies behind the one before, and a turn of a loop has been made. -/
theorem Found.measure {isQuotedString isList : Bool} {linePtrStart : ℤ} {scanned : Scanned}
    (h : r.Found isQuotedString isList linePtrStart scanned) (hlen : r.line.length ≤ 2 ^ 64) :
    r.linePtrEnd < (r.endToken isQuotedString isList linePtrStart scanned).linePtrEnd ∧
      r.linePtrEnd + 1 < r.lineLen := by
  have hnonneg := h.nonneg
  have hlt := h.lt_lineLen
  have hlength := h.lt_length
  have hstart := h.linePtrStart_eq
  rw [toUInt64] at hlt
  constructor
  · rw [endToken, hstart]
    change r.linePtrEnd < _ + _ + _ + _ + _ + _
    omega
  · omega

/-! ### Reading a value -/

theorem cString_cases (hnul : r.line.getLast? = some 0) :
    (r.cString = .error .outOfLine ∧ ¬ (0 ≤ r.linePtrStart ∧ r.linePtrStart < r.line.length)) ∨
    (r.cString = .ok ((r.line.drop r.linePtrStart.toNat).takeWhile (· ≠ 0)) ∧
      0 ≤ r.linePtrStart ∧ r.linePtrStart < r.line.length) := by
  rw [cString, charsFrom]
  split_ifs with h
  · have hne : r.line.drop r.linePtrStart.toNat ≠ [] := by
      rw [Ne, List.drop_eq_nil_iff]
      omega
    have hmem : (0 : UInt8) ∈ r.line.drop r.linePtrStart.toNat := by
      apply List.mem_of_getLast?
      rw [List.getLast?_drop, if_neg (by omega), hnul]
    rw [ok_bind, if_pos hmem]
    exact .inr ⟨rfl, h⟩
  · exact .inl ⟨rfl, h⟩

/-- A call has ended in the line, with a result or with an exception. -/
def InLine (result : Except TokenFault α) : Prop :=
  result ≠ .error .outOfLine ∧ result ≠ .error .diverges

theorem inLine_ok (a : α) : InLine (.ok a : Except TokenFault α) := ⟨nofun, nofun⟩

theorem inLine_exception (message : String) :
    InLine (.error (.exception message) : Except TokenFault α) := ⟨nofun, nofun⟩

theorem not_inLine_outOfLine : ¬ InLine (.error .outOfLine : Except TokenFault α) :=
  fun h ↦ h.1 rfl

theorem inLine_bind_iff {β : Type} {x : Except TokenFault α} {g : α → Except TokenFault β} :
    InLine (x >>= g) ↔ InLine x ∧ ∀ a, x = .ok a → InLine (g a) := by
  cases x with
  | ok a => simp [inLine_ok]
  | error fault => simp [InLine]

/-- The date ends at a space, at a `T` or with the token, before the counter wraps around. -/
def DateEnds (chars : List UInt8) (len : ℕ) : Prop :=
  (∃ i < min len (2 ^ 32), chars[i]? = some 32 ∨ chars[i]? = some 84) ∨
    len < 2 ^ 32 ∧ len ≤ chars.length

theorem findDateEnd_cases {chars : List UInt8} {len n : ℕ} (hlen : n ≤ len) (hn : n ≤ 2 ^ 32) :
    (findDateEnd len chars n = .ok () ∨ ¬ InLine (findDateEnd len chars n)) ∧
      (findDateEnd len chars n = .ok () ↔
        (∃ i, n + i < min len (2 ^ 32) ∧ (chars[i]? = some 32 ∨ chars[i]? = some 84)) ∨
          len < 2 ^ 32 ∧ len ≤ n + chars.length) := by
  induction chars generalizing n with
  | nil =>
      rw [findDateEnd]
      split_ifs with hwrap hend
      · refine ⟨.inr fun h ↦ h.2 rfl, iff_of_false (fun h ↦ by cases h) ?_⟩
        rintro (⟨i, hi, -⟩ | ⟨hlt, -⟩) <;> omega
      · exact ⟨.inl rfl, iff_of_true rfl (.inr ⟨by omega, by omega⟩)⟩
      · refine ⟨.inr not_inLine_outOfLine, iff_of_false (fun h ↦ by cases h) ?_⟩
        rintro (⟨i, -, hi⟩ | ⟨-, hle⟩)
        · simp at hi
        · simp only [List.length_nil] at hle
          omega
  | cons c chars ih =>
      rw [findDateEnd]
      split_ifs with hwrap hend
      · refine ⟨.inr fun h ↦ h.2 rfl, iff_of_false (fun h ↦ by cases h) ?_⟩
        rintro (⟨i, hi, -⟩ | ⟨hlt, -⟩) <;> omega
      · refine ⟨.inl rfl, iff_of_true rfl ?_⟩
        by_cases hle : len ≤ n
        · exact .inr ⟨by omega, by omega⟩
        · refine .inl ⟨0, by omega, ?_⟩
          simpa using hend.resolve_left hle
      · obtain ⟨hlt, hspace, ht⟩ : n < len ∧ c ≠ 32 ∧ c ≠ 84 := by
          simpa [not_or] using hend
        obtain ⟨hcases, hiff⟩ := ih hlt (by omega)
        refine ⟨hcases, hiff.trans ?_⟩
        rw [List.length_cons]
        refine or_congr ⟨?_, ?_⟩ (by omega)
        · rintro ⟨i, hi, hchar⟩
          exact ⟨i + 1, by omega, by simpa using hchar⟩
        · rintro ⟨_ | i, hi, hchar⟩
          · simp [hspace, ht] at hchar
          · exact ⟨i, by omega, by simpa using hchar⟩

theorem inLine_copyChars {chars : List UInt8} {len : ℕ} :
    InLine (copyChars chars len) ↔ len ≤ chars.length ∨ 2 ^ 63 ≤ len := by
  rw [copyChars]
  split_ifs with hmax hle
  · exact iff_of_true (inLine_exception _) (.inr hmax)
  · exact iff_of_true (inLine_ok ()) (.inl hle)
  · exact iff_of_false not_inLine_outOfLine (not_or.mpr ⟨hle, hmax⟩)

/-- The characters that a failing conversion reads are in the line. -/
def FailsInLine (typeID : DataTypeID) (chars : List UInt8) (len : ℕ) : Prop :=
  (typeID = .timestamp → DateEnds chars len) ∧
    (typeID ∈ [DataTypeID.date, .timestamp, .interval] → len ≤ chars.length ∨ 2 ^ 63 ≤ len)

theorem inLine_failConversion {typeID : DataTypeID} {chars : List UInt8} {len : ℕ} :
    InLine (failConversion typeID chars len) ↔ FailsInLine typeID chars len := by
  obtain ⟨hcases, hdate⟩ := @findDateEnd_cases chars len 0 (Nat.zero_le _) (Nat.zero_le _)
  simp only [Nat.zero_add] at hdate
  rw [← DateEnds] at hdate
  cases typeID with
  | timestamp =>
      rw [failConversion, inLine_bind_iff, FailsInLine, ← hdate]
      rcases hcases with hok | hout
      · simp [hok, inLine_ok, inLine_copyChars]
      · have hne : findDateEnd len chars 0 ≠ .ok () := fun hok ↦ hout (hok ▸ inLine_ok ())
        simp [hout, hne]
  | _ => simp [failConversion, FailsInLine, inLine_copyChars, inLine_ok]

/-- A value is read from a place in the line, and a conversion that fails does not leave it. -/
def ValueCloses (r : TokenReader) (typeID : DataTypeID) (get : List UInt8 → ℕ → Except String V) :
    Prop :=
  (0 ≤ r.linePtrStart ∧ r.linePtrStart < r.line.length) ∧
    ((∃ value, get ((r.line.drop r.linePtrStart.toNat).takeWhile (· ≠ 0)) r.nextTokenLen =
      .ok value) ∨ FailsInLine typeID (r.line.drop r.linePtrStart.toNat) r.nextTokenLen)

theorem inLine_getValue_iff (hnul : r.line.getLast? = some 0) (typeID : DataTypeID)
    (get : List UInt8 → ℕ → Except String V) :
    InLine (r.getValue typeID get) ↔ r.ValueCloses typeID get := by
  rw [getValue, ValueCloses]
  rcases cString_cases hnul with ⟨herror, hout⟩ | ⟨hok, hin⟩
  · rw [herror]
    exact iff_of_false not_inLine_outOfLine fun h ↦ hout h.1
  · rw [hok, ok_bind, and_iff_right hin]
    cases hget : get ((r.line.drop r.linePtrStart.toNat).takeWhile (· ≠ 0)) r.nextTokenLen with
    | ok value => exact iff_of_true (inLine_ok value) (.inl ⟨value, rfl⟩)
    | error message =>
        have hthrow : InLine (throw (.exception message) : Except TokenFault V) :=
          inLine_exception message
        simp only [charsFrom, if_pos hin, ok_bind, inLine_bind_iff, inLine_failConversion,
          reduceCtorEq, exists_false, false_or]
        exact and_iff_left fun _ _ ↦ hthrow

/-! ### Reading a list -/

/-- The characters end with a NUL, and the length of a line is a `size_t`. -/
structure IsLine (line : List UInt8) : Prop where
  getLast? : line.getLast? = some 0
  length_le : line.length ≤ 2 ^ 64

theorem IsLine.of_keeps {line' : List UInt8} (h : IsLine line) (hkeeps : Keeps line line') :
    IsLine line' :=
  ⟨hkeeps.getLast?.trans h.getLast?, hkeeps.length.le.trans h.length_le⟩

variable (config) in
/-- All tokens that a loop meets are closed, and so is what is read of them. -/
def TokensClose (read : TokenReader → Except TokenFault (α × List UInt8))
    (closes : TokenReader → Prop) : ℕ → TokenReader → Prop
  | 0, _ => True
  | n + 1, r => r.TokenCloses config ∧ ∀ r', r.hasNextToken config = .ok (true, r') →
      if r'.isNull then TokensClose read closes n r'
      else closes r' ∧ ∀ value line, read r' = .ok (value, line) →
        TokensClose read closes n { r' with line := line }

/-- What is known of reading one value. -/
structure Reads (read : TokenReader → Except TokenFault (α × List UInt8))
    (closes : TokenReader → Prop) : Prop where
  inLine_iff : ∀ r, IsLine r.line → (InLine (read r) ↔ closes r)
  keeps : ∀ r value line, IsLine r.line → read r = .ok (value, line) → Keeps r.line line

theorem inLine_readTokens_iff {read : TokenReader → Except TokenFault (α × List UInt8)}
    {closes : TokenReader → Prop} (hread : Reads read closes) {n : ℕ} {r : TokenReader}
    (hline : IsLine r.line) (hn : (r.lineLen - r.linePtrEnd).toNat < n) :
    (InLine (readTokens config read n r) ↔ TokensClose config read closes n r) ∧
      ∀ values line, readTokens config read n r = .ok (values, line) → Keeps r.line line := by
  induction n generalizing r with
  | zero => exact absurd hn (Nat.not_lt_zero _)
  | succ n ih =>
      rw [readTokens, TokensClose]
      rcases r.hasNextToken_cases config with ⟨herror, hopen⟩ | ⟨hend, hcloses, -⟩ |
        ⟨isQuotedString, isList, linePtrStart, scanned, htoken, hcloses, hfound⟩
      · rw [herror]
        refine ⟨iff_of_false not_inLine_outOfLine fun h ↦ hopen h.1, ?_⟩
        intro values line h
        cases h
      · rw [hend]
        refine ⟨iff_of_true (inLine_ok _) ⟨hcloses, fun r' h ↦ by cases h⟩, ?_⟩
        intro values line h
        cases h
        exact Keeps.refl r.line
      · rw [htoken]
        generalize hr' : r.endToken isQuotedString isList linePtrStart scanned = r'
        have hkeeps := hfound.keeps hline.getLast?
        obtain ⟨hlt, hlt'⟩ := hfound.measure hline.length_le
        have hlineLen : (r.endToken isQuotedString isList linePtrStart scanned).lineLen =
            r.lineLen := rfl
        rw [hr'] at hkeeps hlt hlineLen
        have hline' := hline.of_keeps hkeeps
        have hmeasure : (r'.lineLen - r'.linePtrEnd).toNat < n := by
          rw [hlineLen]
          omega
        have hall (P : TokenReader → Prop) :
            (∀ r'', (.ok (true, r') : Except TokenFault _) = .ok (true, r'') → P r'') ↔ P r' := by
          simp
        rw [ok_bind, hall, and_iff_right hcloses]
        simp only [if_true]
        by_cases hnull : r'.isNull
        · simp only [hnull, if_true]
          obtain ⟨hiff, hkeeps'⟩ := ih hline' hmeasure
          exact ⟨hiff, fun values line h ↦ hkeeps.trans (hkeeps' values line h)⟩
        · simp only [hnull]
          have hvalue (value : α) (line : List UInt8) (h : read r' = .ok (value, line)) :
              Keeps r'.line line := hread.keeps r' value line hline' h
          have hrest (value : α) (line : List UInt8) (h : read r' = .ok (value, line)) :=
            @ih { r' with line := line } (hline'.of_keeps (hvalue value line h)) hmeasure
          constructor
          · rw [if_neg Bool.false_ne_true, if_neg Bool.false_ne_true, inLine_bind_iff,
              hread.inLine_iff r' hline']
            refine and_congr_right fun _ ↦ ?_
            constructor
            · intro h value line hvalue
              exact (hrest value line hvalue).1.mp (inLine_bind_iff.mp (h _ hvalue)).1
            · rintro h ⟨value, line⟩ hvalue
              refine inLine_bind_iff.mpr ⟨(hrest value line hvalue).1.mpr (h value line hvalue), ?_⟩
              exact fun _ _ ↦ inLine_ok _
          · intro values line h
            rw [if_neg Bool.false_ne_true] at h
            obtain ⟨⟨value, line₁⟩, hfirst, h⟩ := bind_eq_ok_iff.mp h
            obtain ⟨⟨values', line₂⟩, hloop, h⟩ := bind_eq_ok_iff.mp h
            cases h
            exact hkeeps.trans ((hvalue value line₁ hfirst).trans
              ((hrest value line₁ hfirst).2 values' line₂ hloop))

theorem checkListSize_cases (typeID : DataTypeID) (result : List α × List UInt8) :
    checkListSize typeID result = .ok result ∨
      ∃ message, checkListSize typeID result = .error (.exception message) := by
  rw [checkListSize]
  split
  · exact .inr ⟨_, rfl⟩
  · exact .inr ⟨_, rfl⟩
  · dsimp only
    split_ifs
    · exact .inr ⟨_, rfl⟩
    · exact .inl rfl

/-- A loop and the check of its result. -/
theorem reads_list {read : TokenReader → Except TokenFault (α × List UInt8)}
    {closes : TokenReader → Prop} (hread : Reads read closes) (typeID : DataTypeID) :
    Reads (fun r ↦ do
        let result ← readTokens config read r.listCSVReader.maxNumTokens r.listCSVReader
        checkListSize typeID result)
      (fun r ↦ TokensClose config read closes r.listCSVReader.maxNumTokens r.listCSVReader) := by
  have hloop (r : TokenReader) (hline : IsLine r.line) :=
    @inLine_readTokens_iff α config read closes hread r.listCSVReader.maxNumTokens r.listCSVReader
      hline (Nat.lt_succ_self _)
  refine ⟨?_, ?_⟩
  · intro r hline
    rw [inLine_bind_iff, (hloop r hline).1, and_iff_left_iff_imp]
    intro _ result _
    rcases checkListSize_cases typeID result with h | ⟨message, h⟩
    · rw [h]
      exact inLine_ok _
    · rw [h]
      exact inLine_exception message
  · intro r values line hline h
    obtain ⟨result, hresult, h⟩ := bind_eq_ok_iff.mp h
    rcases checkListSize_cases typeID result with h' | ⟨message, h'⟩
    · obtain rfl := Except.ok.inj (h'.symm.trans h)
      exact (hloop r hline).2 values line hresult
    · rw [h'] at h
      cases h

variable (config) (get : DataTypeID → List UInt8 → ℕ → Except String V)

/-- The tokens in a list are closed, and the tokens of the lists in it. -/
def ListCloses : DataType → TokenReader → Prop
  | .scalar typeID, r => TokensClose config
      (fun r ↦ do
        let value ← r.getValue typeID (get typeID)
        return (value, r.line))
      (fun r ↦ r.ValueCloses typeID (get typeID))
      r.listCSVReader.maxNumTokens r.listCSVReader
  | .list childType, r => TokensClose config (getListChars config get childType)
      (ListCloses childType) r.listCSVReader.maxNumTokens r.listCSVReader

theorem reads_getListChars (dataType : DataType) :
    Reads (getListChars config get dataType) (ListCloses config get dataType) := by
  induction dataType with
  | scalar typeID =>
      apply reads_list
      refine ⟨?_, ?_⟩
      · intro r hline
        rw [inLine_bind_iff, inLine_getValue_iff hline.getLast?, and_iff_left_iff_imp]
        exact fun _ value _ ↦ inLine_ok _
      · intro r value line hline h
        obtain ⟨value', -, h⟩ := bind_eq_ok_iff.mp h
        cases h
        exact Keeps.refl r.line
  | list childType ih => exact reads_list ih .list

end TokenReader

/-! ## Sequences of calls -/

inductive TokenCall
  | hasNextToken
  | skipToken
  | skipTokenIfNull
  | getValue (typeID : DataTypeID)
  | getList (dataType : DataType)

namespace TokenReader

variable {V : Type} (config : CSVReaderConfig)
  (get : DataTypeID → List UInt8 → ℕ → Except String V)

/-- `setNextTokenIsProcessed` -/
def setNextTokenIsProcessed (r : TokenReader) : TokenReader := { r with nextTokenLen := 2 ^ 64 - 1 }

def perform (r : TokenReader) : TokenCall → Except TokenFault TokenReader
  | .hasNextToken => do
      let (_, r) ← r.hasNextToken config
      return r
  | .skipToken => .ok r.setNextTokenIsProcessed
  | .skipTokenIfNull => .ok r
  | .getValue typeID => do
      let _ ← r.getValue typeID (get typeID)
      return r.setNextTokenIsProcessed
  | .getList dataType => do
      let (_, r) ← r.getList config get dataType
      return r

def step (r : TokenReader) (call : TokenCall) : Option TokenReader :=
  (r.perform config get call).toOption

/-- The call comes to an end, and no index is outside of the line. -/
def StaysInLine (r : TokenReader) (call : TokenCall) : Prop := InLine (r.perform config get call)

/-- The token that `hasNextToken` meets is closed, a value is read from a place in the line without
leaving it, and the tokens in a list are closed. -/
def CallCloses (r : TokenReader) : TokenCall → Prop
  | .hasNextToken => r.TokenCloses config
  | .skipToken => True
  | .skipTokenIfNull => True
  | .getValue typeID => r.ValueCloses typeID (get typeID)
  | .getList dataType => r.ListCloses config get dataType

variable {r r' : TokenReader} {call : TokenCall}

theorem staysInLine_iff (hline : IsLine r.line) :
    r.StaysInLine config get call ↔ r.CallCloses config get call := by
  rw [StaysInLine]
  cases call with
  | hasNextToken =>
      rw [perform, CallCloses]
      rcases r.hasNextToken_cases config with ⟨herror, hopen⟩ | ⟨hend, hcloses, -⟩ |
        ⟨isQuotedString, isList, linePtrStart, scanned, htoken, hcloses, -⟩
      · rw [herror]
        exact iff_of_false not_inLine_outOfLine hopen
      · rw [hend]
        exact iff_of_true (inLine_ok _) hcloses
      · rw [htoken]
        exact iff_of_true (inLine_ok _) hcloses
  | skipToken => exact iff_of_true (inLine_ok _) trivial
  | skipTokenIfNull => exact iff_of_true (inLine_ok _) trivial
  | getValue typeID =>
      rw [perform, CallCloses, inLine_bind_iff, inLine_getValue_iff hline.getLast?,
        and_iff_left_iff_imp]
      exact fun _ _ _ ↦ inLine_ok _
  | getList dataType =>
      rw [perform, CallCloses, inLine_bind_iff, getList, inLine_bind_iff,
        (reads_getListChars config get dataType).inLine_iff r hline]
      simp only [inLine_ok, pure_eq_ok, implies_true, and_true]

theorem keeps_of_step (hline : IsLine r.line) (hstep : r.step config get call = some r') :
    Keeps r.line r'.line := by
  rw [step] at hstep
  cases hresult : r.perform config get call with
  | error fault =>
      rw [hresult] at hstep
      cases hstep
  | ok r'' =>
      rw [hresult] at hstep
      obtain rfl := Option.some.inj hstep
      cases call with
      | hasNextToken =>
          obtain ⟨⟨found, r₁⟩, hfound, h⟩ := bind_eq_ok_iff.mp hresult
          obtain rfl := Except.ok.inj h
          rcases r.hasNextToken_cases config with ⟨herror, -⟩ | ⟨hend, -, -⟩ |
            ⟨isQuotedString, isList, linePtrStart, scanned, htoken, -, hfound'⟩
          · rw [herror] at hfound
            cases hfound
          · rw [hend] at hfound
            cases hfound
            exact Keeps.refl r.line
          · rw [htoken] at hfound
            cases hfound
            exact hfound'.keeps hline.getLast?
      | skipToken =>
          obtain rfl := Except.ok.inj hresult
          exact Keeps.refl r.line
      | skipTokenIfNull =>
          obtain rfl := Except.ok.inj hresult
          exact Keeps.refl r.line
      | getValue typeID =>
          obtain ⟨value, -, h⟩ := bind_eq_ok_iff.mp hresult
          obtain rfl := Except.ok.inj h
          exact Keeps.refl r.line
      | getList dataType =>
          obtain ⟨⟨values, r₁⟩, hlist, h⟩ := bind_eq_ok_iff.mp hresult
          obtain rfl := Except.ok.inj h
          obtain ⟨⟨values', line⟩, hchars, h⟩ := bind_eq_ok_iff.mp hlist
          cases h
          exact (reads_getListChars config get dataType).keeps r values line hline hchars

/-- The reader of a line, before its first token. -/
def ofLine (chars : List UInt8) : TokenReader where
  line := chars ++ [0]
  lineLen := chars.length
  linePtrStart := -1
  linePtrEnd := -1

theorem isLine_ofLine {chars : List UInt8} (hlen : chars.length < 2 ^ 64) :
    IsLine (ofLine chars).line := by
  refine ⟨List.getLast?_concat, ?_⟩
  rw [ofLine, List.length_append, List.length_singleton]
  omega

/-- All calls stay in the line and come to an end, if each of them meets closed tokens, and only
then. -/
theorem meetsAlong_staysInLine_iff (chars : List UInt8) (hlen : chars.length < 2 ^ 64)
    (calls : List TokenCall) :
    MeetsAlong (step config get) (StaysInLine config get) (ofLine chars) calls ↔
      MeetsAlong (step config get) (CallCloses config get) (ofLine chars) calls := by
  apply meetsAlong_congr fun r ↦ IsLine r.line
  · exact fun r call hline ↦ staysInLine_iff config get hline
  · exact fun r call r' hline hstep ↦ hline.of_keeps (keeps_of_step config get hline hstep)
  · exact isLine_ofLine hlen

/-- The quote at the beginning of the line `"ab` is not closed. -/
theorem not_staysInLine_openQuote : ¬ ∀ (config : CSVReaderConfig)
    (get : DataTypeID → List UInt8 → ℕ → Except String ℕ) (chars : List UInt8)
    (calls : List TokenCall),
    MeetsAlong (step config get) (StaysInLine config get) (ofLine chars) calls := by
  intro h
  have hcall := (h {} (fun _ _ _ ↦ .ok 0) [34, 97, 98, 10] [.hasNextToken]).1
  exact hcall.1 rfl

theorem meetsAlong_staysInLine_iff_openList :
    MeetsAlong (step {} fun _ _ _ ↦ .ok 0) (StaysInLine {} fun _ _ _ ↦ .ok 0)
      (ofLine [91, 91, 93, 44, 49, 10]) [.hasNextToken, .getList (.scalar .int64)] ↔
    MeetsAlong (step {} fun _ _ _ ↦ .ok 0) (CallCloses {} fun _ _ _ ↦ .ok 0)
      (ofLine [91, 91, 93, 44, 49, 10]) [.hasNextToken, .getList (.scalar .int64)] :=
  meetsAlong_staysInLine_iff _ _ _ (by decide) _

end TokenReader

end Graphflow
