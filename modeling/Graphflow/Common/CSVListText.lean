import Graphflow.Common.CSVTokenBounds

/-!
# Lists in CSV files

A list is written as its elements between brackets.  `hasNextToken` finds the end of a list, and
`getList` its elements, if no list stands in a list that stands in another one.
-/

namespace Graphflow

open Lib

/-- How deep lists stand in the values of a type. -/
def DataType.depth : DataType → ℕ
  | .scalar _ => 0
  | .list childType => childType.depth + 1

namespace CSVReaderConfig

/-- The characters with a meaning in lists are different. -/
structure Distinct (config : CSVReaderConfig) : Prop where
  separator_ne_begin : config.tokenSeparator ≠ config.listBeginChar
  separator_ne_end : config.tokenSeparator ≠ config.listEndChar
  end_ne_begin : config.listEndChar ≠ config.listBeginChar
  begin_ne_quote : config.listBeginChar ≠ config.quoteChar

variable (config : CSVReaderConfig)

/-- The elements of a list, one behind the other. -/
def joinTexts : List (List UInt8) → List UInt8
  | [] => []
  | [text] => text
  | text :: text' :: texts => text ++ config.tokenSeparator :: joinTexts (text' :: texts)

def listText (texts : List (List UInt8)) : List UInt8 :=
  config.listBeginChar :: config.joinTexts texts ++ [config.listEndChar]

/-- No character has a meaning, and the C string does not end in the text. -/
structure IsPlain (text : List UInt8) : Prop where
  ne_nil : text ≠ []
  ne_separator : ∀ c ∈ text, c ≠ config.tokenSeparator
  ne_newline : ∀ c ∈ text, c ≠ newline
  ne_begin : ∀ c ∈ text, c ≠ config.listBeginChar
  ne_end : ∀ c ∈ text, c ≠ config.listEndChar
  ne_quote : ∀ c ∈ text, c ≠ config.quoteChar
  ne_nul : ∀ c ∈ text, c ≠ 0

variable {config} {text rest : List UInt8} {texts : List (List UInt8)} {level : ℕ}

theorem length_le_length_joinTexts (h : ∀ text ∈ texts, text ≠ []) :
    texts.length ≤ (config.joinTexts texts).length := by
  induction texts using joinTexts.induct with
  | case1 => exact Nat.le_refl 0
  | case2 text =>
      have hpos := List.length_pos_iff.mpr (h text List.mem_cons_self)
      exact hpos
  | case3 text text' texts ih =>
      have hpos := List.length_pos_iff.mpr (h text List.mem_cons_self)
      have hrest := ih fun t ht ↦ h t (List.mem_cons_of_mem _ ht)
      simp only [joinTexts, List.length_append, List.length_cons] at hrest ⊢
      omega

theorem mem_joinTexts {c : UInt8} (hc : c ∈ config.joinTexts texts) :
    c = config.tokenSeparator ∨ ∃ text ∈ texts, c ∈ text := by
  induction texts using joinTexts.induct with
  | case1 => cases hc
  | case2 text => exact .inr ⟨text, List.mem_cons_self, hc⟩
  | case3 text text' texts ih =>
      rw [joinTexts] at hc
      rcases List.mem_append.mp hc with hc | hc
      · exact .inr ⟨text, List.mem_cons_self, hc⟩
      rcases List.mem_cons.mp hc with hc | hc
      · exact .inl hc
      · rcases ih hc with hc | ⟨t, ht, hc⟩
        · exact .inl hc
        · exact .inr ⟨t, List.mem_cons_of_mem _ ht, hc⟩

theorem joinTexts_ne_nil (hne : texts ≠ []) (h : ∀ text ∈ texts, text ≠ []) :
    config.joinTexts texts ≠ [] := by
  have hle := @length_le_length_joinTexts config texts h
  have hpos := List.length_pos_iff.mpr hne
  exact List.length_pos_iff.mp (hpos.trans_le hle)

/-! ## What the loop in a list passes -/

theorem ListText.append_left (h : config.ListText level rest)
    (htext : ∀ c ∈ text, c ≠ config.listBeginChar ∧ c ≠ config.listEndChar) :
    config.ListText level (text ++ rest) := by
  induction text with
  | nil => exact h
  | cons c text ih =>
      obtain ⟨hbegin, hend⟩ := htext c List.mem_cons_self
      exact .char level c _ hbegin hend (ih fun d hd ↦ htext d (List.mem_cons_of_mem _ hd))

/-- A list without lists in it is passed as a whole. -/
theorem ListText.append_listText (h : config.ListText level rest) (hpos : 0 < level)
    (hconfig : config.Distinct) (hne : texts ≠ []) (htexts : ∀ text ∈ texts, config.IsPlain text) :
    config.ListText level (config.listText texts ++ rest) := by
  have hinside : ∀ c ∈ config.joinTexts texts,
      c ≠ config.listBeginChar ∧ c ≠ config.listEndChar := by
    intro c hc
    rcases mem_joinTexts hc with rfl | ⟨text, htext, hc⟩
    · exact ⟨hconfig.separator_ne_begin, hconfig.separator_ne_end⟩
    · exact ⟨(htexts text htext).ne_begin c hc, (htexts text htext).ne_end c hc⟩
  obtain ⟨c, chars, hchars⟩ := List.exists_cons_of_ne_nil
    (joinTexts_ne_nil hne fun text htext ↦ (htexts text htext).ne_nil)
  rw [listText, hchars]
  rw [hchars] at hinside
  have hclosed := ListText.closed level rest hpos h
  have hpassed := hclosed.append_left fun d hd ↦ hinside d (List.mem_cons_of_mem c hd)
  have happend : config.listBeginChar :: (c :: chars) ++ [config.listEndChar] ++ rest =
      config.listBeginChar :: c :: (chars ++ config.listEndChar :: rest) := by simp
  rw [happend]
  exact .opened level c _ hpassed

theorem listText_joinTexts (htexts : ∀ text ∈ texts, ∀ rest, config.ListText 1 rest →
    config.ListText 1 (text ++ rest)) (hconfig : config.Distinct) :
    config.ListText 1 (config.joinTexts texts) := by
  induction texts using joinTexts.induct with
  | case1 => exact .nil
  | case2 text =>
      have h := htexts text List.mem_cons_self [] .nil
      rwa [List.append_nil] at h
  | case3 text text' texts ih =>
      rw [joinTexts]
      apply htexts text List.mem_cons_self
      exact .char 1 _ _ hconfig.separator_ne_begin hconfig.separator_ne_end
        (ih fun t ht ↦ htexts t (List.mem_cons_of_mem _ ht))

end CSVReaderConfig

/-! ## Finding a token -/

namespace TokenReader

variable {config : CSVReaderConfig} {front text after : List UInt8} {lineLen n : ℕ} {start : ℤ}
  {c : UInt8}

/-- The reader has come to the end of `front`. -/
def behind (front rest : List UInt8) (lineLen : ℕ) (start : ℤ) (n : ℕ) : TokenReader where
  line := front ++ rest
  lineLen := lineLen
  linePtrStart := start
  linePtrEnd := front.length - 1
  nextTokenLen := n

theorem toUInt64_natCast {k : ℕ} (h : k < 2 ^ 64) : toUInt64 k = k := by
  rw [toUInt64]
  omega

@[simp] theorem line_behind (front rest : List UInt8) :
    (behind front rest lineLen start n).line = front ++ rest := rfl

@[simp] theorem lineLen_behind (front rest : List UInt8) :
    (behind front rest lineLen start n).lineLen = lineLen := rfl

theorem endToken_of_not_quoted (r : TokenReader) (isList : Bool) (p : ℕ) (scanned : Scanned) :
    r.endToken false isList p scanned =
      { line := r.line.set (p + scanned.numChars) 0, lineLen := r.lineLen, linePtrStart := p,
        linePtrEnd := p + scanned.numChars + isList.toNat,
        nextTokenLen := scanned.lineStr.length } := by
  have hend : ((p : ℤ) + scanned.numChars).toNat = p + scanned.numChars := by omega
  simp only [endToken, hend, Bool.toNat_false, Nat.cast_zero, add_zero,
    Bool.false_eq_true, if_false]

theorem hasNextToken_plain (htext : config.IsPlain text)
    (hc : c = config.tokenSeparator ∨ lineLen = front.length + text.length)
    (hle : front.length + text.length ≤ lineLen) (hlen : lineLen < 2 ^ 64) :
    (behind front (text ++ c :: after) lineLen start n).hasNextToken config = .ok (true,
      { line := front ++ text ++ 0 :: after, lineLen := lineLen, linePtrStart := front.length,
        linePtrEnd := front.length + text.length, nextTokenLen := text.length }) := by
  obtain ⟨d, chars, rfl⟩ := List.exists_cons_of_ne_nil htext.ne_nil
  have hquote : d ≠ config.quoteChar := htext.ne_quote d List.mem_cons_self
  have hbegin : d ≠ config.listBeginChar := htext.ne_begin d List.mem_cons_self
  have hpos : 0 < (d :: chars).length := Nat.succ_pos _
  have heq := hasNextToken_eq config (behind front (d :: chars ++ c :: after) lineLen start n)
    (p := front.length) (Int.sub_add_cancel _ 1) (by
      rw [toUInt64_natCast (by omega)]
      exact lt_of_lt_of_le (by omega) hle)
  have hfirst : ((d :: chars ++ c :: after).head? == some config.quoteChar) = false := by
    simpa using hquote
  have hsecond : ((d :: chars ++ c :: after).head? == some config.listBeginChar) = false := by
    simpa using hbegin
  have hscan : config.scan false false (lineLen - front.length) (d :: chars ++ c :: after) =
      some ⟨(d :: chars).length, d :: chars⟩ := by
    apply CSVReaderConfig.scanPlain_eq
    · exact fun e he ↦ ⟨htext.ne_separator e he, htext.ne_newline e he⟩
    · omega
    · rcases hc with hc | hc
      · exact .inl hc
      · exact .inr (.inr (by omega))
  simp only [line_behind, List.drop_left, hfirst, hsecond, Bool.toNat_false, List.drop_zero,
    Nat.add_zero] at heq
  have hlineLen : (behind front (d :: chars ++ c :: after) lineLen start n).lineLen = lineLen := rfl
  rw [heq, hlineLen, hscan]
  have hset : (front ++ (d :: chars ++ c :: after)).set (front.length + (d :: chars).length) 0 =
      front ++ (d :: chars) ++ 0 :: after := by
    rw [← List.append_assoc, ← List.length_append, List.set_append_right _ _ (Nat.le_refl _),
      Nat.sub_self, List.set_cons_zero]
  simp only [Nat.cast_zero, add_zero, endToken_of_not_quoted, line_behind, hset, Bool.toNat_false]
  rfl

theorem exists_hasNextToken_list (hconfig : config.Distinct) (htext : config.ListText 1 text)
    (hlt : front.length < lineLen) (hlen : lineLen < 2 ^ 64) : ∃ n',
    (behind front (config.listBeginChar :: (text ++ config.listEndChar :: after)) lineLen start
      n).hasNextToken config = .ok (true,
        { line := front ++ config.listBeginChar :: (text ++ 0 :: after), lineLen := lineLen,
          linePtrStart := (front.length + 1 : ℕ), linePtrEnd := (front.length + 1 : ℕ) +
            text.length + 1, nextTokenLen := n' }) := by
  have heq := hasNextToken_eq config (behind front
    (config.listBeginChar :: (text ++ config.listEndChar :: after)) lineLen start n)
    (p := front.length) (Int.sub_add_cancel _ 1) (by rwa [toUInt64_natCast (by omega)])
  have hfirst : ((config.listBeginChar :: (text ++ config.listEndChar :: after)).head? ==
      some config.quoteChar) = false := by
    simpa using hconfig.begin_ne_quote
  have hsecond : ((config.listBeginChar :: (text ++ config.listEndChar :: after)).head? ==
      some config.listBeginChar) = true := by
    simp
  obtain ⟨lineStr, hscan, -⟩ :=
    CSVReaderConfig.exists_scanList_eq hconfig.end_ne_begin htext after
  have hscan' : config.scan false true (lineLen - front.length)
      (text ++ config.listEndChar :: after) = some ⟨text.length, lineStr⟩ := hscan
  simp only [line_behind, List.drop_left, hfirst, hsecond, Bool.toNat_false, List.drop_zero,
    Nat.add_zero, Bool.toNat_true, List.drop_succ_cons] at heq
  have hlineLen : (behind front (config.listBeginChar :: (text ++ config.listEndChar :: after))
    lineLen start n).lineLen = lineLen := rfl
  have hset : (front ++ config.listBeginChar :: (text ++ config.listEndChar :: after)).set
      (front.length + 1 + text.length) 0 = front ++
        config.listBeginChar :: (text ++ 0 :: after) := by
    rw [List.set_append_right _ _ (by omega), Nat.add_assoc, Nat.add_sub_cancel_left,
      Nat.add_comm 1, List.set_cons_succ, List.set_append_right _ _ (Nat.le_refl _), Nat.sub_self,
      List.set_cons_zero]
  have hstart : (front.length : ℤ) + (0 : ℕ) + (1 : ℕ) = ((front.length + 1 : ℕ) : ℤ) := by
    omega
  rw [heq, hlineLen, hscan']
  refine ⟨lineStr.length, ?_⟩
  simp only [hstart, endToken_of_not_quoted, line_behind, hset]
  rfl

/-! ## The token behind -/

section NextToken

variable (config) (r : TokenReader)

/-- The next token: where it is, its length and its characters. -/
def nextToken : Except TokenFault (Option (ℤ × ℤ × ℕ × Except TokenFault (List UInt8))) := do
  let (found, r) ← r.hasNextToken config
  return if found then some (r.linePtrStart, r.linePtrEnd, r.nextTokenLen, r.cString) else none

theorem set_append_length_add (front rest : List UInt8) (k : ℕ) :
    (front ++ rest).set (front.length + k) 0 = front ++ rest.set k 0 := by
  rw [List.set_append_right _ _ (Nat.le_add_right _ _), Nat.add_sub_cancel_left]

theorem strncpy_append_length_add (front rest : List UInt8) (k : ℕ) (lineStr : List UInt8) :
    strncpy (front ++ rest) (front.length + k) lineStr = front ++ strncpy rest k lineStr := by
  have hdrop : (front ++ rest).drop (front.length + k + lineStr.length + 1) =
      rest.drop (k + lineStr.length + 1) := by
    rw [Nat.add_assoc, Nat.add_assoc, List.drop_length_add_append, ← Nat.add_assoc]
  rw [strncpy, strncpy, hdrop, List.take_length_add_append]
  simp only [List.append_assoc]

/-- What stands before the token does not matter. -/
theorem cString_endToken_behind {front front' : List UInt8} (hfront : front.length = front'.length)
    (rest : List UInt8) (lineLen : ℕ) (start start' : ℤ) (n n' : ℕ) (isQuotedString isList : Bool)
    (k : ℕ) (scanned : Scanned) :
    ((behind front rest lineLen start n).endToken isQuotedString isList (front.length + k : ℕ)
      scanned).cString = ((behind front' rest lineLen start' n').endToken isQuotedString isList
        (front.length + k : ℕ) scanned).cString := by
  have hline (front : List UInt8) (start : ℤ) (n : ℕ) :
      ((behind front rest lineLen start n).endToken isQuotedString isList (front.length + k : ℕ)
        scanned).line = front ++ (if isQuotedString then
          strncpy (rest.set (k + scanned.numChars) 0) k scanned.lineStr
        else rest.set (k + scanned.numChars) 0) := by
    have hend : (((front.length + k : ℕ) : ℤ) + scanned.numChars).toNat =
        front.length + (k + scanned.numChars) := by omega
    simp only [endToken, hend, Int.toNat_natCast, line_behind, set_append_length_add]
    split_ifs
    · exact strncpy_append_length_add _ _ _ _
    · rfl
  have hline' := hline front' start' n'
  rw [← hfront] at hline'
  have hdrop (front rest : List UInt8) (h : front.length = front'.length) :
      (front ++ rest).drop (front'.length + k) = rest.drop k := by
    rw [← h, List.drop_length_add_append]
  have hptr (front : List UInt8) (start : ℤ) (n : ℕ) :
      ((behind front rest lineLen start n).endToken isQuotedString isList (front'.length + k : ℕ)
        scanned).linePtrStart = (front'.length + k : ℕ) := rfl
  rw [hfront] at hline' ⊢
  have hline'' := hline front start n
  rw [hfront] at hline''
  rw [cString, cString, charsFrom, charsFrom, hptr, hptr, hline', hline'', Int.toNat_natCast,
    hdrop front _ hfront, hdrop front' _ rfl, List.length_append, List.length_append, hfront]

theorem nextToken_behind_congr {front front' : List UInt8} (hfront : front.length = front'.length)
    (rest : List UInt8) (lineLen : ℕ) (start start' : ℤ) (n n' : ℕ) :
    (behind front rest lineLen start n).nextToken config =
      (behind front' rest lineLen start' n').nextToken config := by
  have hptr (front : List UInt8) (start : ℤ) (n : ℕ) :
      (behind front rest lineLen start n).linePtrEnd + 1 = (front.length : ℤ) :=
    Int.sub_add_cancel _ 1
  by_cases hle : lineLen ≤ toUInt64 front.length
  · have hend (front : List UInt8) (hle : lineLen ≤ toUInt64 front.length) (start : ℤ) (n : ℕ) :
        (behind front rest lineLen start n).nextToken config = .ok none := by
      rw [nextToken, hasNextToken, hptr, lineLen_behind, if_pos hle]
      rfl
    rw [hend front hle, hend front' (hfront ▸ hle)]
  · have hlt := Nat.lt_of_not_le hle
    have heq := hasNextToken_eq config (behind front rest lineLen start n) (hptr front start n) hlt
    have heq' := hasNextToken_eq config (behind front' rest lineLen start' n')
      (hptr front' start' n') (hfront ▸ hlt)
    simp only [line_behind, List.drop_left] at heq heq'
    rw [nextToken, nextToken, heq, heq', ← hfront, lineLen_behind, lineLen_behind]
    split
    · rfl
    · next scanned hscan =>
      generalize (rest.head? == some config.quoteChar) = isQuotedString
      generalize ((rest.drop isQuotedString.toNat).head? == some config.listBeginChar) = isList
      have hpos : (front.length : ℤ) + (isQuotedString.toNat : ℕ) + (isList.toNat : ℕ) =
          (front.length + (isQuotedString.toNat + isList.toNat) : ℕ) := by
        omega
      have hcString := cString_endToken_behind hfront rest lineLen start start' n n' isQuotedString
        isList (isQuotedString.toNat + isList.toNat) scanned
      rw [hpos, ok_bind, ok_bind]
      simp only [if_true, hcString]
      rfl

end NextToken

/-! ## Reading the elements -/

variable {V α : Type} {read : TokenReader → Except TokenFault (α × List UInt8)}

variable (config read) in
/-- Wherever the text stands between others, a token is found that is read as the value.  What is
read may change, and the character behind it. -/
structure ReadsText (text : List UInt8) (value : α) : Prop where
  ne_nil : text ≠ []
  exists_read : ∀ (front after : List UInt8) (c : UInt8) (lineLen n : ℕ) (start : ℤ),
    c = config.tokenSeparator ∨ lineLen = front.length + text.length →
      front.length + text.length ≤ lineLen → lineLen < 2 ^ 64 → ∃ r mid c',
        (behind front (text ++ c :: after) lineLen start n).hasNextToken config = .ok (true, r) ∧
          r.lineLen = lineLen ∧ r.linePtrEnd = front.length + text.length ∧ r.isNull = false ∧
          read r = .ok (value, front ++ mid ++ c' :: after) ∧ mid.length = text.length

variable (config read) in
/-- The loop ends behind the last token. -/
theorem readTokens_of_end (fuel : ℕ) {r : TokenReader} {e : ℕ} (he : r.linePtrEnd + 1 = e)
    (hle : r.lineLen ≤ e) (hlen : e < 2 ^ 64) :
    readTokens config read (fuel + 1) r = .ok ([], r.line) := by
  have hend : r.hasNextToken config = .ok (false, { r with
      linePtrStart := r.linePtrEnd + 1, linePtrEnd := r.linePtrEnd + 1 }) := by
    rw [hasNextToken, if_pos (by rw [he, toUInt64_natCast hlen]; exact hle)]
    rfl
  rw [readTokens, hend]
  rfl

theorem readTokens_of_token {r r' : TokenReader} {fuel : ℕ} {value : α} {line : List UInt8}
    (htoken : r.hasNextToken config = .ok (true, r')) (hnull : r'.isNull = false)
    (hread : read r' = .ok (value, line)) :
    readTokens config read (fuel + 1) r = do
      let (values, line) ← readTokens config read fuel { r' with line := line }
      return (value :: values, line) := by
  rw [readTokens, htoken, ok_bind]
  simp only [if_true, hnull, Bool.false_eq_true, if_false, hread, ok_bind]

theorem ne_nil_of_readsText {texts : List (List UInt8)} {values : List α}
    (h : List.Forall₂ (ReadsText config read) texts values) : ∀ text ∈ texts, text ≠ [] := by
  induction h with
  | nil => exact fun _ h ↦ absurd h List.not_mem_nil
  | cons htext htexts ih => exact List.forall_mem_cons.mpr ⟨htext.ne_nil, ih⟩

/-- The loop over the elements of a list. -/
theorem exists_readTokens_eq {texts : List (List UInt8)} {values : List α}
    (h : List.Forall₂ (ReadsText config read) texts values) (front after : List UInt8) (c : UInt8)
    (start : ℤ) (n fuel : ℕ) (hfuel : texts.length < fuel)
    (hlen : front.length + (config.joinTexts texts).length + 1 < 2 ^ 64) : ∃ mid c',
      readTokens config read fuel (behind front (config.joinTexts texts ++ c :: after)
        (front.length + (config.joinTexts texts).length) start n) =
          .ok (values, front ++ mid ++ c' :: after) ∧
        mid.length = (config.joinTexts texts).length := by
  induction h generalizing front c start n fuel with
  | nil =>
      obtain ⟨fuel, rfl⟩ := Nat.exists_eq_succ_of_ne_zero (by omega : fuel ≠ 0)
      refine ⟨[], c, ?_, rfl⟩
      have hend := readTokens_of_end config read fuel
        (r := behind front (config.joinTexts [] ++ c :: after)
          (front.length + (config.joinTexts []).length) start n) (e := front.length)
        (Int.sub_add_cancel _ 1) (Nat.le_refl _) (by omega)
      rw [hend, List.append_nil]
      rfl
  | @cons text value texts values htext htexts ih =>
      obtain ⟨fuel, rfl⟩ := Nat.exists_eq_succ_of_ne_zero (by omega : fuel ≠ 0)
      rw [List.length_cons] at hfuel
      cases htexts with
      | nil =>
          obtain ⟨r, mid, c', htoken, hlineLen, hend, hnull, hread, hmid⟩ := htext.exists_read front
            after c (front.length + text.length) n start (.inr rfl) (Nat.le_refl _)
            (Nat.lt_of_succ_lt hlen)
          obtain ⟨fuel, rfl⟩ := Nat.exists_eq_succ_of_ne_zero (by omega : fuel ≠ 0)
          refine ⟨mid, c', ?_, hmid⟩
          have hrest := readTokens_of_end config read fuel
            (r := { r with line := front ++ mid ++ c' :: after })
            (e := front.length + text.length + 1) (by simp only [hend]; omega)
            (hlineLen.le.trans (Nat.le_succ _)) hlen
          rw [CSVReaderConfig.joinTexts, readTokens_of_token htoken hnull hread, hrest]
          rfl
      | @cons text' value' texts values htext' htexts =>
          have hjoin : config.joinTexts (text :: text' :: texts) =
              text ++ config.tokenSeparator :: config.joinTexts (text' :: texts) := rfl
          rw [hjoin, List.length_append, List.length_cons] at hlen
          obtain ⟨r, mid, c', htoken, hlineLen, hend, hnull, hread, hmid⟩ := htext.exists_read front
            (config.joinTexts (text' :: texts) ++ c :: after) config.tokenSeparator
            (front.length + (config.joinTexts (text :: text' :: texts)).length) n start (.inl rfl)
            (by rw [hjoin, List.length_append]; omega)
            (by rw [hjoin, List.length_append, List.length_cons]; omega)
          have hfront : (front ++ mid ++ [c']).length = front.length + text.length + 1 := by
            simp [hmid]
            omega
          obtain ⟨mid', c'', hloop, hmid'⟩ := ih (front ++ mid ++ [c']) c r.linePtrStart
            r.nextTokenLen fuel (by omega) (by omega)
          refine ⟨mid ++ c' :: mid', c'', ?_, ?_⟩
          · have hr : { r with line := front ++ mid ++ c' ::
                (config.joinTexts (text' :: texts) ++ c :: after) } =
                behind (front ++ mid ++ [c']) (config.joinTexts (text' :: texts) ++ c :: after)
                  ((front ++ mid ++ [c']).length + (config.joinTexts (text' :: texts)).length)
                  r.linePtrStart r.nextTokenLen := by
              have hend' : r.linePtrEnd = ((front ++ mid ++ [c']).length : ℤ) - 1 := by
                rw [hend, hfront]
                omega
              have hlineLen' : r.lineLen = (front ++ mid ++ [c']).length +
                  (config.joinTexts (text' :: texts)).length := by
                rw [hlineLen, hjoin, hfront, List.length_append, List.length_cons]
                omega
              rw [behind, ← hend', ← hlineLen', List.append_cons]
            rw [hjoin] at htoken
            rw [hjoin, List.append_assoc, List.cons_append, readTokens_of_token htoken hnull hread,
              hr, hloop]
            simp
          · rw [hjoin, List.length_append, List.length_append, List.length_cons, List.length_cons,
              hmid, hmid']

/-! ## Lists -/

section Lists

variable (config : CSVReaderConfig) (get : DataTypeID → List UInt8 → ℕ → Except String V)
  (print : DataTypeID → V → List UInt8)

/-- How `getListChars` reads an element. -/
def readElement : (dataType : DataType) → TokenReader →
    Except TokenFault (CSVValue V dataType × List UInt8)
  | .scalar typeID, r => do
      let value ← r.getValue typeID (get typeID)
      return (value, r.line)
  | .list childType, r => getListChars config get childType r

theorem getListChars_eq (dataType : DataType) (r : TokenReader) :
    getListChars config get dataType r = (do
      let result ← readTokens config (readElement config get dataType)
        r.listCSVReader.maxNumTokens r.listCSVReader
      checkListSize dataType.typeID result) := by
  cases dataType with
  | scalar typeID => rfl
  | list childType => rfl

def printValue : (dataType : DataType) → CSVValue V dataType → List UInt8
  | .scalar typeID, value => print typeID value
  | .list childType, values => config.listText (values.map (printValue childType))

/-- The text of a list. -/
def printList (dataType : DataType) (values : List (CSVValue V dataType)) : List UInt8 :=
  printValue config print (.list dataType) values

/-- A list of so many elements is not too large. -/
def FitsPage (typeID : DataTypeID) (numElements : ℕ) : Prop :=
  ∃ size, typeID.getDataTypeSize = .ok size ∧ numElements * size < defaultPageSize

/-- Scalar values have plain texts that their conversion reads, and no list in the value is empty or
too large. -/
def ReadsBack : (dataType : DataType) → CSVValue V dataType → Prop
  | .scalar typeID, value => config.IsPlain (print typeID value) ∧
      get typeID (print typeID value) (print typeID value).length = .ok value
  | .list childType, (values : List (CSVValue V childType)) =>
      values ≠ [] ∧ FitsPage childType.typeID values.length ∧
        ∀ value ∈ values, ReadsBack childType value

variable {config get print}

theorem checkListSize_of_fitsPage {typeID : DataTypeID} {result : List α × List UInt8}
    (h : FitsPage typeID result.1.length) : checkListSize typeID result = .ok result := by
  obtain ⟨size, hsize, hlt⟩ := h
  rw [checkListSize, hsize]
  simp only [hlt.not_ge, if_false]

theorem checkListSize_ne_ok {typeID : DataTypeID} {result : List α × List UInt8}
    (h : ¬ FitsPage typeID result.1.length) (result' : List α × List UInt8) :
    checkListSize typeID result ≠ .ok result' := by
  intro heq
  rw [checkListSize] at heq
  split at heq
  · cases heq
  · cases heq
  · next size hsize =>
    dsimp only at heq
    split_ifs at heq with hle
    exact h ⟨size, hsize, Nat.lt_of_not_le hle⟩

/-- The elements that `getList` reads with the reader that has found the list. -/
theorem exists_getListChars_eq_checkListSize {dataType : DataType}
    {values : List (CSVValue V dataType)} {texts : List (List UInt8)}
    (h : List.Forall₂ (ReadsText config (readElement config get dataType)) texts values)
    {r : TokenReader} {front after : List UInt8} {c : UInt8}
    (hline : r.line = front ++ (config.joinTexts texts ++ c :: after))
    (hstart : r.linePtrStart = front.length)
    (hend : r.linePtrEnd = front.length + (config.joinTexts texts).length + 1)
    (hlen : front.length + (config.joinTexts texts).length + 1 < 2 ^ 64) : ∃ mid c',
      getListChars config get dataType r =
          checkListSize dataType.typeID (values, front ++ mid ++ c' :: after) ∧
        mid.length = (config.joinTexts texts).length := by
  have hnum := @CSVReaderConfig.length_le_length_joinTexts config texts (ne_nil_of_readsText h)
  have hreader : r.listCSVReader = behind front (config.joinTexts texts ++ c :: after)
      (front.length + (config.joinTexts texts).length) (front.length - 1) (2 ^ 64 - 1) := by
    have hlineLen : toUInt64 (r.linePtrEnd - 1) =
        front.length + (config.joinTexts texts).length := by
      rw [hend, toUInt64]
      omega
    rw [listCSVReader, hline, hlineLen, hstart]
    rfl
  obtain ⟨mid, c', hloop, hmid⟩ := exists_readTokens_eq h front after c (front.length - 1)
    (2 ^ 64 - 1) r.listCSVReader.maxNumTokens (by
      rw [hreader, maxNumTokens, behind]
      simp only
      omega) hlen
  refine ⟨mid, c', ?_, hmid⟩
  rw [← hreader] at hloop
  rw [getListChars_eq, hloop, ok_bind]

/-- `getList` on the reader that has found the list. -/
theorem exists_getListChars_eq {dataType : DataType} {values : List (CSVValue V dataType)}
    {texts : List (List UInt8)}
    (h : List.Forall₂ (ReadsText config (readElement config get dataType)) texts values)
    (hfits : FitsPage dataType.typeID values.length) {r : TokenReader} {front after : List UInt8}
    {c : UInt8} (hline : r.line = front ++ (config.joinTexts texts ++ c :: after))
    (hstart : r.linePtrStart = front.length)
    (hend : r.linePtrEnd = front.length + (config.joinTexts texts).length + 1)
    (hlen : front.length + (config.joinTexts texts).length + 1 < 2 ^ 64) : ∃ mid c',
      getListChars config get dataType r = .ok (values, front ++ mid ++ c' :: after) ∧
        mid.length = (config.joinTexts texts).length := by
  obtain ⟨mid, c', hlist, hmid⟩ :=
    exists_getListChars_eq_checkListSize h hline hstart hend hlen
  refine ⟨mid, c', ?_, hmid⟩
  rw [hlist]
  exact checkListSize_of_fitsPage hfits

theorem readsText_scalar {typeID : DataTypeID} {value : V}
    (hplain : config.IsPlain (print typeID value))
    (hget : get typeID (print typeID value) (print typeID value).length = .ok value) :
    ReadsText config (readElement config get (.scalar typeID)) (print typeID value) value := by
  refine ⟨hplain.ne_nil, ?_⟩
  intro front after c lineLen n start hc hle hlen
  generalize htext : print typeID value = text at hplain hget hc hle
  refine ⟨_, text, 0, hasNextToken_plain hplain hc hle hlen, rfl, rfl, ?_, ?_, rfl⟩
  · have hpos := List.length_pos_iff.mpr hplain.ne_nil
    simp only [isNull, decide_eq_false_iff_not]
    omega
  · have hnul : ∀ d ∈ text, decide (d ≠ 0) = true := fun d hd ↦ decide_eq_true (hplain.ne_nul d hd)
    have hcString : cString ⟨front ++ text ++ 0 :: after, lineLen, front.length,
        front.length + text.length, text.length⟩ = .ok text := by
      have hin : 0 ≤ (front.length : ℤ) ∧
          (front.length : ℤ) < ((front ++ text ++ 0 :: after).length : ℕ) := by
        simp only [List.length_append, List.length_cons]
        omega
      rw [cString, charsFrom, if_pos hin, ok_bind, Int.toNat_natCast, List.append_assoc,
        List.drop_left, if_pos (by simp), List.takeWhile_append_of_pos hnul]
      simp
    rw [readElement, getValue, hcString, ok_bind, hget]
    rfl

theorem readsText_list {dataType : DataType} {values : List (CSVValue V dataType)}
    {texts : List (List UInt8)} (hconfig : config.Distinct)
    (h : List.Forall₂ (ReadsText config (readElement config get dataType)) texts values)
    (hfits : FitsPage dataType.typeID values.length)
    (htext : config.ListText 1 (config.joinTexts texts)) :
    ReadsText config (readElement config get (.list dataType)) (config.listText texts) values := by
  refine ⟨List.cons_ne_nil _ _, ?_⟩
  intro front after c lineLen n start hc hle hlen
  have hlength : (config.listText texts).length = (config.joinTexts texts).length + 2 := by
    simp [CSVReaderConfig.listText]
  have hline : config.listText texts ++ c :: after = config.listBeginChar ::
      (config.joinTexts texts ++ config.listEndChar :: c :: after) := by
    simp [CSVReaderConfig.listText]
  rw [hlength] at hle
  obtain ⟨n', htoken⟩ := @exists_hasNextToken_list config front (config.joinTexts texts)
    (c :: after) lineLen n start hconfig htext (by omega) hlen
  rw [hline, hlength]
  obtain ⟨mid, c', hlist, hmid⟩ := exists_getListChars_eq h hfits
    (r := { line := front ++ config.listBeginChar :: (config.joinTexts texts ++ 0 :: c :: after),
            lineLen := lineLen, linePtrStart := (front.length + 1 : ℕ),
            linePtrEnd := (front.length + 1 : ℕ) + (config.joinTexts texts).length + 1,
            nextTokenLen := n' })
    (List.append_cons _ _ _) (by simp) (by simp) (by simp; omega)
  refine ⟨_, config.listBeginChar :: mid ++ [c'], c, htoken, rfl, ?_, ?_, ?_, ?_⟩
  · simp only
    omega
  · simp only [isNull, decide_eq_false_iff_not]
    omega
  · have happend : front ++ [config.listBeginChar] ++ mid ++ c' :: c :: after =
        front ++ (config.listBeginChar :: mid ++ [c']) ++ c :: after := by simp
    rw [readElement, hlist, happend]
    rfl
  · simp [hmid]

/-- Lists of scalar values. -/
theorem listText_joinTexts_scalar {typeID : DataTypeID} {values : List V}
    (hconfig : config.Distinct) (h : ∀ value ∈ values, config.IsPlain (print typeID value)) :
    config.ListText 1 (config.joinTexts (values.map (print typeID))) := by
  refine CSVReaderConfig.listText_joinTexts ?_ hconfig
  intro text htext rest hrest
  obtain ⟨value, hvalue, rfl⟩ := List.mem_map.mp htext
  exact hrest.append_left fun c hc ↦ ⟨(h value hvalue).ne_begin c hc, (h value hvalue).ne_end c hc⟩

theorem forall₂_readsText {dataType : DataType} {values : List (CSVValue V dataType)}
    (h : ∀ value ∈ values, ReadsText config (readElement config get dataType)
      (printValue config print dataType value) value) :
    List.Forall₂ (ReadsText config (readElement config get dataType))
      (values.map (printValue config print dataType)) values := by
  induction values with
  | nil => exact .nil
  | cons value values ih =>
      exact .cons (h value List.mem_cons_self)
        (ih fun v hv ↦ h v (List.mem_cons_of_mem _ hv))

/-- What is known of the elements of a list in which no list contains lists. -/
theorem readsText_of_readsBack {dataType : DataType} (hconfig : config.Distinct)
    (hdepth : dataType.depth ≤ 1) {values : List (CSVValue V dataType)}
    (h : ∀ value ∈ values, ReadsBack config get print dataType value) :
    List.Forall₂ (ReadsText config (readElement config get dataType))
        (values.map (printValue config print dataType)) values ∧
      config.ListText 1 (config.joinTexts (values.map (printValue config print dataType))) := by
  match dataType, hdepth with
  | .scalar typeID, _ =>
      refine ⟨forall₂_readsText fun value hvalue ↦ ?_, listText_joinTexts_scalar hconfig
        fun value hvalue ↦ (h value hvalue).1⟩
      obtain ⟨hplain, hget⟩ := h value hvalue
      exact readsText_scalar hplain hget
  | .list (.scalar typeID), _ =>
      constructor
      · refine forall₂_readsText fun value hvalue ↦ ?_
        obtain ⟨-, hfits, hvalues⟩ := h value hvalue
        refine readsText_list hconfig (forall₂_readsText fun v hv ↦ ?_) hfits
          (listText_joinTexts_scalar hconfig fun v hv ↦ (hvalues v hv).1)
        obtain ⟨hplain, hget⟩ := hvalues v hv
        exact readsText_scalar hplain hget
      · refine CSVReaderConfig.listText_joinTexts ?_ hconfig
        intro text htext rest hrest
        obtain ⟨value, hvalue, rfl⟩ := List.mem_map.mp htext
        obtain ⟨hne, -, hvalues⟩ := h value hvalue
        refine hrest.append_listText Nat.one_pos hconfig
          (fun hnil ↦ hne (List.map_eq_nil_iff.mp hnil)) ?_
        intro text htext
        obtain ⟨v, hv, rfl⟩ := List.mem_map.mp htext
        exact (hvalues v hv).1

/-! ## The round trip -/

variable (config get print) in
/-- The line holds the text of a list with the character `c` behind it.  The values that were
printed are read back, and the next token is the one behind `c`. -/
def ReadsPrinted (dataType : DataType) (values : List (CSVValue V dataType))
    (front rest : List UInt8) (c : UInt8) (lineLen n : ℕ) (start : ℤ) : Prop :=
  ∃ r r', (behind front (printList config print dataType values ++ c :: rest) lineLen start
      n).hasNextToken config = .ok (true, r) ∧
    r.getList config get dataType = .ok (values, r') ∧
    r'.nextToken config = (behind (front ++ printList config print dataType values ++ [c]) rest
      lineLen start n).nextToken config

variable {dataType : DataType} {values : List (CSVValue V dataType)} {front rest : List UInt8}
  {c : UInt8} {lineLen n : ℕ} {start : ℤ}

/-- The token of the list, with what `getList` makes of it. -/
theorem exists_hasNextToken_printList (hconfig : config.Distinct) (hdepth : dataType.depth ≤ 1)
    (hvalues : ∀ value ∈ values, ReadsBack config get print dataType value)
    (hle : front.length + (printList config print dataType values).length ≤ lineLen)
    (hlen : lineLen < 2 ^ 64) : ∃ r chars,
      (behind front (printList config print dataType values ++ c :: rest) lineLen start
          n).hasNextToken config = .ok (true, r) ∧
        r.lineLen = lineLen ∧
        r.linePtrEnd = front.length + (printList config print dataType values).length ∧
        chars.length = front.length + (printList config print dataType values).length ∧
        getListChars config get dataType r =
          checkListSize dataType.typeID (values, chars ++ c :: rest) := by
  obtain ⟨hread, htext⟩ := readsText_of_readsBack hconfig hdepth hvalues
  generalize htexts : values.map (printValue config print dataType) = texts at hread htext
  have hlist : printList config print dataType values = config.listText texts := by
    rw [← htexts]
    rfl
  have hlength : (config.listText texts).length = (config.joinTexts texts).length + 2 := by
    simp [CSVReaderConfig.listText]
  have hline : config.listText texts ++ c :: rest = config.listBeginChar ::
      (config.joinTexts texts ++ config.listEndChar :: c :: rest) := by
    simp [CSVReaderConfig.listText]
  rw [hlist, hlength] at hle
  obtain ⟨n', htoken⟩ := @exists_hasNextToken_list config front (config.joinTexts texts)
    (c :: rest) lineLen n start hconfig htext (by omega) hlen
  obtain ⟨mid, c', hchars, hmid⟩ := exists_getListChars_eq_checkListSize hread
    (r := { line := front ++ config.listBeginChar :: (config.joinTexts texts ++ 0 :: c :: rest),
            lineLen := lineLen, linePtrStart := (front.length + 1 : ℕ),
            linePtrEnd := (front.length + 1 : ℕ) + (config.joinTexts texts).length + 1,
            nextTokenLen := n' })
    (List.append_cons _ _ _) (by simp) (by simp) (by simp; omega)
  rw [hlist, hline, hlength]
  refine ⟨_, front ++ config.listBeginChar :: mid ++ [c'], htoken, rfl, ?_, ?_, ?_⟩
  · simp only
    omega
  · simp only [List.length_append, List.length_cons, List.length_nil, hmid]
    omega
  · rw [hchars]
    simp

theorem readsPrinted_of_fitsPage (hconfig : config.Distinct) (hdepth : dataType.depth ≤ 1)
    (hvalues : ∀ value ∈ values, ReadsBack config get print dataType value)
    (hle : front.length + (printList config print dataType values).length ≤ lineLen)
    (hlen : lineLen < 2 ^ 64) (hfits : FitsPage dataType.typeID values.length) :
    ReadsPrinted config get print dataType values front rest c lineLen n start := by
  obtain ⟨r, chars, htoken, hlineLen, hend, hchars, hlist⟩ :=
    @exists_hasNextToken_printList V config
    get print dataType values front rest c lineLen n start hconfig hdepth hvalues hle hlen
  rw [checkListSize_of_fitsPage hfits] at hlist
  have hgetList : r.getList config get dataType =
      .ok (values, { r with line := chars ++ c :: rest }) := by
    rw [getList, hlist]
    rfl
  refine ⟨r, { r with line := chars ++ c :: rest }, htoken, hgetList, ?_⟩
  have hreader : { r with line := chars ++ c :: rest } =
      behind (chars ++ [c]) rest lineLen r.linePtrStart r.nextTokenLen := by
    have hend' : r.linePtrEnd = ((chars ++ [c]).length : ℤ) - 1 := by
      rw [hend, List.length_append, hchars, List.length_singleton]
      omega
    rw [behind, ← hend', ← hlineLen, List.append_assoc, List.singleton_append]
  rw [hreader]
  apply nextToken_behind_congr
  simp only [List.length_append, hchars]

/-- A list that is too large is refused. -/
theorem not_readsPrinted (hconfig : config.Distinct) (hdepth : dataType.depth ≤ 1)
    (hvalues : ∀ value ∈ values, ReadsBack config get print dataType value)
    (hle : front.length + (printList config print dataType values).length ≤ lineLen)
    (hlen : lineLen < 2 ^ 64) (hfits : ¬ FitsPage dataType.typeID values.length) :
    ¬ ReadsPrinted config get print dataType values front rest c lineLen n start := by
  rintro ⟨r, r', htoken, hgetList, -⟩
  obtain ⟨r₁, chars, htoken₁, -, -, -, hlist⟩ := @exists_hasNextToken_printList V config
    get print dataType values front rest c lineLen n start hconfig hdepth hvalues hle hlen
  rw [htoken₁] at htoken
  cases htoken
  rw [getList, hlist] at hgetList
  obtain ⟨result, hresult, -⟩ := bind_eq_ok_iff.mp hgetList
  exact checkListSize_ne_ok hfits result hresult

/-- The text of a list is read back, with the token behind it, if the elements fit into a page. -/
theorem readsPrinted_iff_fitsPage (hconfig : config.Distinct) (hdepth : dataType.depth ≤ 1)
    (hvalues : ∀ value ∈ values, ReadsBack config get print dataType value)
    (hle : front.length + (printList config print dataType values).length ≤ lineLen)
    (hlen : lineLen < 2 ^ 64) :
    ReadsPrinted config get print dataType values front rest c lineLen n start ↔
      FitsPage dataType.typeID values.length := by
  constructor
  · intro hreads
    by_contra hfits
    exact not_readsPrinted hconfig hdepth hvalues hle hlen hfits hreads
  · exact readsPrinted_of_fitsPage hconfig hdepth hvalues hle hlen

end Lists

/-! ## Lists of strings -/

def getString (_ : DataTypeID) (chars : List UInt8) (_ : ℕ) : Except String (List UInt8) :=
  .ok chars

def printString (_ : DataTypeID) (value : List UInt8) : List UInt8 := value

theorem distinct_default : CSVReaderConfig.Distinct {} := by
  constructor <;> decide

theorem isPlain_of_letters {value : List UInt8} (hne : value ≠ []) (h : ∀ c ∈ value, 97 ≤ c) :
    CSVReaderConfig.IsPlain {} value := by
  have hletter {d : UInt8} (hd : d < 97) : ∀ c ∈ value, c ≠ d := by
    rintro c hc rfl
    exact absurd (h c hc) (UInt8.not_le.mpr hd)
  constructor
  · exact hne
  all_goals exact hletter (by decide)

theorem readsPrinted_iff_strings :
    ReadsPrinted {} getString printString (.list (.scalar .string))
        [[[97, 98], [99]], [[100]]] [120, 44] [121, 10, 0] 44 17 0 (-1) ↔
      FitsPage .list 2 := by
  have hlist (values : List (List UInt8)) (hne : values ≠ []) (hlen : values.length * 16 < 4096)
      (h : ∀ value ∈ values, value ≠ [] ∧ ∀ c ∈ value, 97 ≤ c) :
      ReadsBack {} getString printString (.list (.scalar .string)) values := by
    refine ⟨hne, ⟨16, rfl, hlen⟩, fun value hvalue ↦ ⟨?_, rfl⟩⟩
    exact isPlain_of_letters (h value hvalue).1 (h value hvalue).2
  apply readsPrinted_iff_fitsPage distinct_default (by decide) ?_ (by decide) (by decide)
  intro value hvalue
  rcases List.mem_pair.mp hvalue with rfl | rfl
  · exact hlist [[97, 98], [99]] (by decide) (by decide) (by simp)
  · exact hlist [[100]] (by decide) (by decide) (by simp)

/-- Three brackets in a row, too many elements, an element without a text, and a NUL. -/
theorem not_readsPrinted_strings :
    (¬ ReadsPrinted {} getString printString (.list (.list (.scalar .string)))
        [[[[49]]]] [] [120, 10, 0] 44 10 0 (-1)) ∧
      (¬ ReadsPrinted {} getString printString (.scalar .string) (List.replicate 256 [97]) []
        [120, 10, 0] 44 516 0 (-1)) ∧
      (¬ ReadsPrinted {} getString printString (.scalar .string) [[97], []] [] [120, 10, 0] 44 7 0
        (-1)) ∧
      ¬ ReadsPrinted {} getString printString (.scalar .string) [[97, 0, 98]] [] [120, 10, 0] 44 8 0
        (-1) := by
  refine ⟨?_, ?_, ?_, ?_⟩
  · rintro ⟨r, r', htoken, hlist, hnext⟩
    cases htoken
    cases hlist
    cases hnext
  · refine not_readsPrinted distinct_default (Nat.zero_le 1) ?_ (by decide +kernel) (by decide) ?_
    · intro value hvalue
      rw [List.eq_of_mem_replicate hvalue]
      exact ⟨isPlain_of_letters (List.cons_ne_nil _ _)
        (List.forall_mem_singleton.mpr (by decide)), rfl⟩
    · rintro ⟨size, hsize, hlt⟩
      cases hsize
      exact absurd hlt (by decide +kernel)
  · rintro ⟨r, r', htoken, hlist, -⟩
    cases htoken
    cases hlist
  · rintro ⟨r, r', htoken, hlist, -⟩
    cases htoken
    cases hlist

end TokenReader

end Graphflow
