import Graphflow.Lib.Bytes
import Graphflow.Lib.WhileLoop
import Graphflow.Processor.NullMask
import Graphflow.Storage.InMemLists

/-!
# Reading the null bits of a page

The null bits of the elements of a page stand behind the elements, in entries of 64 bits.  They are
copied into the null mask of a vector entry by entry, although the positions in the page and in the
vector may lie differently in their entries.
-/

namespace Graphflow.Storage

open Lib Processor

/-- What the constructor of a column or of lists is told about its elements. -/
structure BaseColumnOrList where
  elementSize : ℕ
  hasNULLBytes : Bool

/-- The variables of the loop of `readNullBitsFromAPage`, with the null mask of the vector. -/
structure NullBitsState where
  nullMask : NullMask
  nullEntryPosInPage : ℕ
  nullBitPosInPageEntry : ℕ
  nullEntryPosInVector : ℕ
  nullBitPosInVectorEntry : ℕ
  bitPos : ℕ

namespace BaseColumnOrList

def numElementsPerPage (c : BaseColumnOrList) : ℕ :=
  PageUtils.getNumElementsInAPage c.elementSize c.hasNULLBytes

/-- Where the null entries of a page begin. -/
def nullEntriesStart (c : BaseColumnOrList) : ℕ := c.numElementsPerPage * c.elementSize

/-- The whole entries of a frame behind its elements. -/
def nullEntriesInPage (c : BaseColumnOrList) (frame : List UInt8) : List (BitVec 64) :=
  (List.range ((frame.length - c.nullEntriesStart) / 8)).map fun i ↦
    BitVec.ofNat 64 (ofLittleEndian ((frame.drop (c.nullEntriesStart + 8 * i)).take 8))

/-- The part of a turn that chooses the bits: the bits of the page entry at their positions in the
vector entry, their number, and the positions of the next turn. -/
def alignNullBits (numBitsToRead : ℕ) (nullMaskEntry : BitVec 64) (s : NullBitsState) :
    Except ExecutionFault (BitVec 64 × ℕ × NullBitsState) :=
  if s.nullBitPosInVectorEntry < s.nullBitPosInPageEntry then do
    let numBitsToReadInCurrentEntry :=
      min (numBitsPerNullEntry - s.nullBitPosInPageEntry) (numBitsToRead - s.bitPos)
    let highMask ← entryAt nullHighMasks
      (numBitsPerNullEntry - (s.nullBitPosInPageEntry + numBitsToReadInCurrentEntry))
    let nullMaskEntry := nullMaskEntry &&& ~~~highMask
    let numBitsToShift := s.nullBitPosInPageEntry - s.nullBitPosInVectorEntry
    let nullMaskEntry := nullMaskEntry >>> numBitsToShift
    let lowerMask ← entryAt nullLowerMasks s.nullBitPosInVectorEntry
    let nullMaskEntry := nullMaskEntry &&& ~~~lowerMask
    return (nullMaskEntry, numBitsToReadInCurrentEntry, { s with
      nullEntryPosInPage := s.nullEntryPosInPage + 1
      nullBitPosInPageEntry := 0
      nullBitPosInVectorEntry := s.nullBitPosInVectorEntry + numBitsToReadInCurrentEntry })
  else if s.nullBitPosInVectorEntry > s.nullBitPosInPageEntry then do
    let numBitsToReadInCurrentEntry :=
      min (numBitsPerNullEntry - s.nullBitPosInVectorEntry) (numBitsToRead - s.bitPos)
    let numBitsToShift := s.nullBitPosInVectorEntry - s.nullBitPosInPageEntry
    let lowerMask ← entryAt nullLowerMasks s.nullBitPosInPageEntry
    let nullMaskEntry := nullMaskEntry &&& ~~~lowerMask
    let nullMaskEntry := nullMaskEntry <<< numBitsToShift
    let highMask ← entryAt nullHighMasks
      (numBitsPerNullEntry - (s.nullBitPosInVectorEntry + numBitsToReadInCurrentEntry))
    let nullMaskEntry := nullMaskEntry &&& ~~~highMask
    return (nullMaskEntry, numBitsToReadInCurrentEntry, { s with
      nullEntryPosInVector := s.nullEntryPosInVector + 1
      nullBitPosInVectorEntry := 0
      nullBitPosInPageEntry := s.nullBitPosInPageEntry + numBitsToReadInCurrentEntry })
  else do
    let numBitsToReadInCurrentEntry :=
      min (numBitsPerNullEntry - s.nullBitPosInVectorEntry) (numBitsToRead - s.bitPos)
    let lowerMask ← entryAt nullLowerMasks s.nullBitPosInPageEntry
    let nullMaskEntry := nullMaskEntry &&& ~~~lowerMask
    let highMask ← entryAt nullHighMasks
      (numBitsPerNullEntry - (s.nullBitPosInVectorEntry + numBitsToReadInCurrentEntry))
    let nullMaskEntry := nullMaskEntry &&& ~~~highMask
    return (nullMaskEntry, numBitsToReadInCurrentEntry, { s with
      nullEntryPosInVector := s.nullEntryPosInVector + 1
      nullEntryPosInPage := s.nullEntryPosInPage + 1
      nullBitPosInVectorEntry := 0
      nullBitPosInPageEntry := 0 })

/-- The part of a turn that puts the bits in place of those of the vector. -/
def putNullBits (nullMask : NullMask) (entryPos bitPosInEntry numBits : ℕ)
    (nullMaskEntry : BitVec 64) : Except ExecutionFault NullMask := do
  let lowerMask ← entryAt nullLowerMasks numBits
  let entry ← entryAt nullMask.data entryPos
  let entry := entry &&& ~~~(lowerMask <<< bitPosInEntry)
  if nullMaskEntry ≠ 0 then
    return (nullMask.setEntry entryPos (entry ||| nullMaskEntry)).setMayContainNulls
  else return nullMask.setEntry entryPos entry

/-- One turn of the loop. -/
def readNullBitsTurn (nullEntriesInPage : List (BitVec 64)) (numBitsToRead : ℕ)
    (s : NullBitsState) : Except ExecutionFault NullBitsState := do
  let nullMaskEntry ← entryAt nullEntriesInPage s.nullEntryPosInPage
  let (nullMaskEntry, numBitsToReadInCurrentEntry, next) ←
    alignNullBits numBitsToRead nullMaskEntry s
  let nullMask ← putNullBits s.nullMask s.nullEntryPosInVector s.nullBitPosInVectorEntry
    numBitsToReadInCurrentEntry nullMaskEntry
  return { next with nullMask, bitPos := s.bitPos + numBitsToReadInCurrentEntry }

/-- The fuel bounds the number of turns. -/
def readNullBitsFromAPage (c : BaseColumnOrList) (fuel : ℕ) (nullMask : NullMask)
    (frame : List UInt8) (posInPage posInVector numBitsToRead : ℕ) :
    Except ExecutionFault NullMask := do
  let nullEntryPosInPage := posInPage >>> numBitsPerNullEntryLog2
  let nullBitPosInPageEntry := posInPage - (nullEntryPosInPage <<< numBitsPerNullEntryLog2)
  let nullEntryPosInVector := posInVector >>> numBitsPerNullEntryLog2
  let nullBitPosInVectorEntry := posInVector - (nullEntryPosInVector <<< numBitsPerNullEntryLog2)
  let s ← whileLoop .diverges (fun s ↦ s.bitPos < numBitsToRead)
    (readNullBitsTurn (c.nullEntriesInPage frame) numBitsToRead) fuel
    { nullMask, nullEntryPosInPage, nullBitPosInPageEntry, nullEntryPosInVector,
      nullBitPosInVectorEntry, bitPos := 0 }
  return s.nullMask

end BaseColumnOrList

/-! ## Copying bits -/

/-- `n` bits of the source from position `s` on have been copied to the positions of a mask from `t`
on, and the flag has been set if one of them is. -/
structure CopiedNullBits (source : ℕ → Bool) (s t n : ℕ) (nullMask nullMask' : NullMask) :
    Prop where
  copied : ∀ i < n, nullMask'.isNull (t + i) = source (s + i)
  unchanged : ∀ pos, ¬(t ≤ pos ∧ pos < t + n) → nullMask'.isNull pos = nullMask.isNull pos
  flag : nullMask'.mayContainNulls = true ↔
    nullMask.mayContainNulls = true ∨ ∃ i < n, source (s + i) = true

section Copying

variable {source source' : ℕ → Bool} {s t n k : ℕ} {nullMask nullMask' nullMask'' : NullMask}

theorem CopiedNullBits.refl (source : ℕ → Bool) (s t : ℕ) (nullMask : NullMask) :
    CopiedNullBits source s t 0 nullMask nullMask where
  copied i hi := absurd hi (Nat.not_lt_zero i)
  unchanged _ _ := rfl
  flag := by simp

theorem CopiedNullBits.trans (h : CopiedNullBits source s t n nullMask nullMask')
    (h' : CopiedNullBits source (s + n) (t + n) k nullMask' nullMask'') :
    CopiedNullBits source s t (n + k) nullMask nullMask'' where
  copied i hi := by
    by_cases hin : i < n
    · rw [h'.unchanged _ (by omega)]
      exact h.copied i hin
    · have hcopied := h'.copied (i - n) (by omega)
      have ht : t + n + (i - n) = t + i := by omega
      have hs : s + n + (i - n) = s + i := by omega
      rwa [ht, hs] at hcopied
  unchanged pos hpos := by
    rw [h'.unchanged pos (by omega)]
    exact h.unchanged pos (by omega)
  flag := by
    rw [h'.flag, h.flag, or_assoc]
    refine or_congr_right ⟨?_, ?_⟩
    · rintro (⟨i, hi, hset⟩ | ⟨i, hi, hset⟩)
      · exact ⟨i, by omega, hset⟩
      · exact ⟨n + i, by omega, by rwa [← Nat.add_assoc]⟩
    · rintro ⟨i, hi, hset⟩
      by_cases hin : i < n
      · exact .inl ⟨i, hin, hset⟩
      · have hs : s + n + (i - n) = s + i := by omega
        exact .inr ⟨i - n, by omega, by rwa [hs]⟩

theorem CopiedNullBits.congr (h : CopiedNullBits source s t n nullMask nullMask')
    (hsource : ∀ i < n, source (s + i) = source' (s + i)) :
    CopiedNullBits source' s t n nullMask nullMask' where
  copied i hi := (h.copied i hi).trans (hsource i hi)
  unchanged := h.unchanged
  flag := by
    rw [h.flag]
    refine or_congr_right (exists_congr fun i ↦ and_congr_right fun hi ↦ ?_)
    rw [hsource i hi]

/-- The copied bits determine the mask. -/
theorem CopiedNullBits.eq (h : CopiedNullBits source s t n nullMask nullMask')
    (h' : CopiedNullBits source s t n nullMask nullMask'') : nullMask' = nullMask'' := by
  apply NullMask.eq_of_isNull_eq
  · intro pos
    by_cases hpos : t ≤ pos ∧ pos < t + n
    · obtain ⟨i, rfl⟩ := Nat.exists_eq_add_of_le hpos.1
      rw [h.copied i (by omega), h'.copied i (by omega)]
    · rw [h.unchanged pos hpos, h'.unchanged pos hpos]
  · rw [Bool.eq_iff_iff, h.flag, h'.flag]

end Copying

/-! ## One turn -/

/-- The positions lead to bits of their entries, where the page and the vector have been read and
written up to positions `a` and `b`. -/
structure NullBitsState.At (s : NullBitsState) (a b : ℕ) : Prop where
  page : numBitsPerNullEntry * s.nullEntryPosInPage + s.nullBitPosInPageEntry = a
  page_lt : s.nullBitPosInPageEntry < numBitsPerNullEntry
  vector : numBitsPerNullEntry * s.nullEntryPosInVector + s.nullBitPosInVectorEntry = b
  vector_lt : s.nullBitPosInVectorEntry < numBitsPerNullEntry

namespace BaseColumnOrList

section Turn

variable {s : NullBitsState} {numBitsToRead n e v p a b : ℕ} {src word : BitVec 64}
  {nullMask : NullMask}

theorem numBitsPerNullEntry_eq : numBitsPerNullEntry = 64 := rfl

/-- As many bits are taken as are left in both entries.  If not all are read then, the next
positions are those behind them. -/
theorem exists_alignNullBits (hat : s.At a b) (hlt : s.bitPos < numBitsToRead)
    (src : BitVec 64) :
    ∃ word n next, alignNullBits numBitsToRead src s = .ok (word, n, next) ∧
      IsField word src s.nullBitPosInVectorEntry s.nullBitPosInPageEntry n ∧ 0 < n ∧
      s.nullBitPosInPageEntry + n ≤ 64 ∧ s.nullBitPosInVectorEntry + n ≤ 64 ∧
      s.bitPos + n ≤ numBitsToRead ∧ (s.bitPos + n < numBitsToRead → next.At (a + n) (b + n)) := by
  obtain ⟨hpage, hpage_lt, hvector, hvector_lt⟩ := hat
  rw [numBitsPerNullEntry_eq] at hpage hpage_lt hvector hvector_lt
  rw [alignNullBits, numBitsPerNullEntry_eq]
  split_ifs with hless hgreater
  · generalize hn : min (64 - s.nullBitPosInPageEntry) (numBitsToRead - s.bitPos) = n
    refine ⟨_, n, { s with
      nullEntryPosInPage := s.nullEntryPosInPage + 1
      nullBitPosInPageEntry := 0
      nullBitPosInVectorEntry := s.nullBitPosInVectorEntry + n }, ?_,
      isField_shiftRight hless.le, by omega, by omega, by omega, by omega, fun hrest ↦ ?_⟩
    · simp only [entryAt_nullHighMasks (Nat.sub_le _ _), entryAt_nullLowerMasks hvector_lt.le,
        ok_bind, pure_eq_ok]
    · constructor <;> simp only [numBitsPerNullEntry_eq] <;> omega
  · generalize hn : min (64 - s.nullBitPosInVectorEntry) (numBitsToRead - s.bitPos) = n
    refine ⟨_, n, { s with
      nullEntryPosInVector := s.nullEntryPosInVector + 1
      nullBitPosInVectorEntry := 0
      nullBitPosInPageEntry := s.nullBitPosInPageEntry + n }, ?_,
      isField_shiftLeft hgreater.le, by omega, by omega, by omega, by omega, fun hrest ↦ ?_⟩
    · simp only [entryAt_nullHighMasks (Nat.sub_le _ _), entryAt_nullLowerMasks hpage_lt.le,
        ok_bind, pure_eq_ok]
    · constructor <;> simp only [numBitsPerNullEntry_eq] <;> omega
  · generalize hn : min (64 - s.nullBitPosInVectorEntry) (numBitsToRead - s.bitPos) = n
    have haligned : s.nullBitPosInVectorEntry = s.nullBitPosInPageEntry := by omega
    refine ⟨_, n, { s with
      nullEntryPosInVector := s.nullEntryPosInVector + 1
      nullEntryPosInPage := s.nullEntryPosInPage + 1
      nullBitPosInVectorEntry := 0
      nullBitPosInPageEntry := 0 }, ?_,
      by rw [haligned]; exact isField_mask, by omega, by omega, by omega, by omega, fun hrest ↦ ?_⟩
    · simp only [haligned, entryAt_nullHighMasks (Nat.sub_le _ _),
        entryAt_nullLowerMasks hpage_lt.le, ok_bind, pure_eq_ok]
    · constructor <;> simp only [numBitsPerNullEntry_eq] <;> omega

/-- The bits of a field replace those of an entry. -/
theorem isNull_setEntry_replaced {old : BitVec 64} (hold : nullMask.data[e]? = some old)
    (he : e < numNullEntries) (hword : IsField word src v p n) (pos : ℕ) :
    (nullMask.setEntry e (old &&& ~~~(lowerOnes 64 n <<< v) ||| word)).isNull pos =
      if pos / 64 = e ∧ v ≤ pos % 64 ∧ pos % 64 < v + n then src.getLsbD (pos % 64 - v + p)
      else nullMask.isNull pos := by
  have hlt := Nat.mod_lt pos (by decide : 0 < 64)
  rw [nullMask.isNull_setEntry he]
  by_cases hentry : pos / 64 = e
  · have hpos : nullMask.isNull pos = old.getLsbD (pos % 64) := by
      rw [NullMask.isNull_eq_bitAt]
      exact bitAt_eq hold hlt (by omega)
    rw [if_pos hentry, getLsbD_replaceField hword hlt, hpos]
    simp only [hentry, true_and]
  · rw [if_neg hentry, if_neg (fun h ↦ hentry h.1)]

theorem exists_putNullBits {source : ℕ → Bool} (he : e < numNullEntries) (hfits : v + n ≤ 64)
    (hword : IsField word src v p n) (hsource : ∀ i < n, source (a + i) = src.getLsbD (p + i))
    (nullMask : NullMask) :
    ∃ nullMask', putNullBits nullMask e v n word = .ok nullMask' ∧
      CopiedNullBits source a (64 * e + v) n nullMask nullMask' := by
  obtain ⟨old, hold⟩ := nullMask.exists_entryAt he
  have hbits := isNull_setEntry_replaced hold he hword
  have hcopied : ∀ i < n, (nullMask.setEntry e
      (old &&& ~~~(lowerOnes 64 n <<< v) ||| word)).isNull (64 * e + v + i) = source (a + i) := by
    intro i hi
    have hmod : (64 * e + v + i) % 64 = v + i := by omega
    have hbit : v + i - v + p = p + i := by omega
    rw [hbits, hmod, if_pos (by omega), hsource i hi, hbit]
  have hunchanged : ∀ pos, ¬(64 * e + v ≤ pos ∧ pos < 64 * e + v + n) → (nullMask.setEntry e
      (old &&& ~~~(lowerOnes 64 n <<< v) ||| word)).isNull pos = nullMask.isNull pos := by
    intro pos hpos
    rw [hbits, if_neg (by omega)]
  rw [putNullBits, entryAt_nullLowerMasks (by omega), ok_bind, entryAt_eq_ok hold, ok_bind]
  by_cases hzero : word = 0
  · refine ⟨nullMask.setEntry e (old &&& ~~~(lowerOnes 64 n <<< v) ||| word), ?_, hcopied,
      hunchanged, ?_⟩
    · simp [hzero]
    · have hnone : ¬∃ i < n, source (a + i) = true := by
        rintro ⟨i, hi, hset⟩
        rw [hsource i hi, hword.getLsbD_eq_false_of_eq_zero hfits hzero hi] at hset
        exact Bool.false_ne_true hset
      simp [NullMask.setEntry, hnone]
  · refine ⟨(nullMask.setEntry e
      (old &&& ~~~(lowerOnes 64 n <<< v) ||| word)).setMayContainNulls, ?_, hcopied, hunchanged, ?_⟩
    · simp only [ne_eq, hzero, not_false_eq_true, if_true, pure_eq_ok]
    · obtain ⟨i, hi, hset⟩ := hword.exists_of_ne_zero hzero
      rw [← hsource i hi] at hset
      simpa [NullMask.setMayContainNulls] using .inr ⟨i, hi, hset⟩

/-- What a turn does where positions `a` of the page and `b` of the vector have been reached. -/
theorem exists_readNullBitsTurn {nullEntriesInPage : List (BitVec 64)} (hat : s.At a b)
    (hlt : s.bitPos < numBitsToRead)
    (hpage : a + (numBitsToRead - s.bitPos) ≤ 64 * nullEntriesInPage.length)
    (hvector : b + (numBitsToRead - s.bitPos) ≤ defaultVectorCapacity) :
    ∃ n s', readNullBitsTurn nullEntriesInPage numBitsToRead s = .ok s' ∧
      CopiedNullBits (bitAt nullEntriesInPage) a b n s.nullMask s'.nullMask ∧ 0 < n ∧
      s'.bitPos = s.bitPos + n ∧ s'.bitPos ≤ numBitsToRead ∧
      (s'.bitPos < numBitsToRead → s'.At (a + n) (b + n)) := by
  have hposInPage := hat.page
  have hposInVector := hat.vector
  rw [numBitsPerNullEntry_eq] at hposInPage hposInVector
  have hcapacity : defaultVectorCapacity = 64 * numNullEntries := rfl
  obtain ⟨src, hsrc⟩ : ∃ src, nullEntriesInPage[s.nullEntryPosInPage]? = some src :=
    ⟨_, List.getElem?_eq_getElem (by omega)⟩
  obtain ⟨word, n, next, halign, hfield, hpos, hfitsPage, hfitsVector, hle, hnext⟩ :=
    exists_alignNullBits hat hlt src
  have hsource : ∀ i < n, bitAt nullEntriesInPage (a + i) =
      src.getLsbD (s.nullBitPosInPageEntry + i) :=
    fun i hi ↦ bitAt_eq hsrc (by omega) (by omega)
  obtain ⟨nullMask, hput, hcopied⟩ := exists_putNullBits (e := s.nullEntryPosInVector) (by omega)
    hfitsVector hfield hsource s.nullMask
  rw [hposInVector] at hcopied
  refine ⟨n, { next with nullMask, bitPos := s.bitPos + n }, ?_, hcopied, hpos, rfl, hle, ?_⟩
  · rw [readNullBitsTurn, entryAt_eq_ok hsrc, ok_bind, halign, ok_bind]
    simp only [hput, ok_bind, pure_eq_ok]
  · intro hrest
    have hat' := hnext hrest
    exact ⟨hat'.page, hat'.page_lt, hat'.vector, hat'.vector_lt⟩

end Turn

/-! ## All turns -/

section Bulk

variable {c : BaseColumnOrList} {frame : List UInt8} {nullMask : NullMask}
  {posInPage posInVector numBitsToRead fuel k : ℕ}

theorem exists_readNullBitsFromAPage
    (hpage : posInPage + numBitsToRead ≤ 64 * (c.nullEntriesInPage frame).length)
    (hvector : posInVector + numBitsToRead ≤ defaultVectorCapacity) (hfuel : numBitsToRead ≤ fuel)
    (nullMask : NullMask) :
    ∃ nullMask', c.readNullBitsFromAPage fuel nullMask frame posInPage posInVector numBitsToRead =
        .ok nullMask' ∧
      CopiedNullBits (isNullIn (c.nullEntriesInPage frame)) posInPage posInVector numBitsToRead
        nullMask nullMask' := by
  let start : NullBitsState := {
    nullMask
    nullEntryPosInPage := posInPage / 64
    nullBitPosInPageEntry := posInPage % 64
    nullEntryPosInVector := posInVector / 64
    nullBitPosInVectorEntry := posInVector % 64
    bitPos := 0 }
  have hstart : start.At posInPage posInVector :=
    ⟨Nat.div_add_mod _ _, Nat.mod_lt _ (by decide), Nat.div_add_mod _ _, Nat.mod_lt _ (by decide)⟩
  -- The number of bits that are left bounds the number of turns.
  let Reading (left : ℕ) (s : NullBitsState) : Prop :=
    left = numBitsToRead - s.bitPos ∧ s.bitPos ≤ numBitsToRead ∧
      CopiedNullBits (bitAt (c.nullEntriesInPage frame)) posInPage posInVector s.bitPos nullMask
        s.nullMask ∧
      (s.bitPos < numBitsToRead → s.At (posInPage + s.bitPos) (posInVector + s.bitPos))
  have hbody : ∀ left s, Reading left s → decide (s.bitPos < numBitsToRead) = true →
      ∃ left' s', left' < left ∧
        readNullBitsTurn (c.nullEntriesInPage frame) numBitsToRead s = .ok s' ∧
        Reading left' s' := by
    rintro left s ⟨hleft, hle, hcopied, hat⟩ hcond
    have hlt : s.bitPos < numBitsToRead := of_decide_eq_true hcond
    have hpage' : posInPage + s.bitPos + (numBitsToRead - s.bitPos) ≤
      64 * (c.nullEntriesInPage frame).length := by omega
    obtain ⟨n, s', hturn, hturn_copied, hpos, hbitPos, hle', hat'⟩ :=
      exists_readNullBitsTurn (hat hlt) hlt hpage' (by omega)
    refine ⟨numBitsToRead - s'.bitPos, s', by omega, hturn, rfl, hle', ?_, fun hrest ↦ ?_⟩
    · rw [hbitPos]
      exact hcopied.trans hturn_copied
    · rw [hbitPos, ← Nat.add_assoc, ← Nat.add_assoc]
      exact hat' hrest
  obtain ⟨-, s, hloop, ⟨hleft, hle, hcopied, -⟩, hend⟩ : ∃ left s, whileLoop
      ExecutionFault.diverges (fun s ↦ decide (s.bitPos < numBitsToRead))
      (readNullBitsTurn (c.nullEntriesInPage frame) numBitsToRead) fuel start = .ok s ∧
      Reading left s ∧ decide (s.bitPos < numBitsToRead) = false :=
    exists_whileLoop_eq_ok Reading hbody
      ⟨rfl, Nat.zero_le _, .refl _ _ _ _, fun _ ↦ hstart⟩ hfuel
  have hall : s.bitPos = numBitsToRead := by
    have hge := of_decide_eq_false hend
    omega
  rw [hall] at hcopied
  refine ⟨s.nullMask, ?_, hcopied.congr fun i _ ↦ (isNullIn_eq_bitAt _ _).symm⟩
  rw [readNullBitsFromAPage, bitPosInEntry_eq, bitPosInEntry_eq, entryPos_eq, entryPos_eq]
  change (whileLoop ExecutionFault.diverges _ _ fuel start >>= fun s ↦ pure s.nullMask) = _
  rw [hloop, ok_bind, pure_eq_ok]

/-- Cutting a frame off behind some null entries leaves these. -/
theorem nullEntriesInPage_take (hk : k ≤ (c.nullEntriesInPage frame).length) :
    c.nullEntriesInPage (frame.take (c.nullEntriesStart + 8 * k)) =
      (c.nullEntriesInPage frame).take k := by
  rw [nullEntriesInPage, List.length_map, List.length_range] at hk
  have hlength : (frame.take (c.nullEntriesStart + 8 * k)).length - c.nullEntriesStart = 8 * k := by
    rw [List.length_take]
    omega
  rw [nullEntriesInPage, nullEntriesInPage, hlength, Nat.mul_div_cancel_left k (by decide),
    ← List.map_take, List.take_range, Nat.min_eq_left hk]
  apply List.map_congr_left
  intro i hi
  rw [List.mem_range] at hi
  rw [List.drop_take, List.take_take]
  congr 3
  omega

theorem readNullBitsFromAPage_zero :
    c.readNullBitsFromAPage fuel nullMask frame posInPage posInVector 0 = .ok nullMask := by
  rw [readNullBitsFromAPage, whileLoop_of_false (by simp), ok_bind, pure_eq_ok]

theorem bitAt_take {words : List (BitVec 64)} {pos : ℕ} (hpos : pos < 64 * k) :
    bitAt (words.take k) pos = bitAt words pos := by
  have hentry : pos / 64 < k := Nat.div_lt_of_lt_mul hpos
  rw [bitAt, bitAt, List.getD_eq_getElem?_getD, List.getD_eq_getElem?_getD,
    List.getElem?_take_of_lt hentry]

/-- Of a frame that is cut off behind the entries with the bits the same is copied. -/
theorem exists_readNullBitsFromAPage_take
    (hk : k ≤ (c.nullEntriesInPage frame).length) (hpage : posInPage + numBitsToRead ≤ 64 * k)
    (hvector : posInVector + numBitsToRead ≤ defaultVectorCapacity) (hfuel : numBitsToRead ≤ fuel)
    (nullMask : NullMask) :
    ∃ nullMask', c.readNullBitsFromAPage fuel nullMask (frame.take (c.nullEntriesStart + 8 * k))
        posInPage posInVector numBitsToRead = .ok nullMask' ∧
      CopiedNullBits (isNullIn (c.nullEntriesInPage frame)) posInPage posInVector numBitsToRead
        nullMask nullMask' := by
  have hentries := nullEntriesInPage_take hk
  have hlength : (c.nullEntriesInPage (frame.take (c.nullEntriesStart + 8 * k))).length = k := by
    rw [hentries, List.length_take, Nat.min_eq_left hk]
  obtain ⟨nullMask', hread, hcopied⟩ :=
    exists_readNullBitsFromAPage (hlength.symm ▸ hpage) hvector hfuel nullMask
  refine ⟨nullMask', hread, hcopied.congr fun i hi ↦ ?_⟩
  rw [hentries, isNullIn_eq_bitAt, isNullIn_eq_bitAt]
  exact bitAt_take (by omega)

end Bulk

/-- The end of the null entry that holds the last one of some bits. -/
def endOfNullBits (c : BaseColumnOrList) (posInPage numBitsToRead : ℕ) : ℕ :=
  if numBitsToRead = 0 then c.nullEntriesStart
  else c.nullEntriesStart + 8 * ((posInPage + numBitsToRead - 1) / 64 + 1)

/-- Bulk copying ends with the bits of the page at the positions of the vector.  What lies behind
the entry of the last bit is not read, as the same comes out of a frame that ends there. -/
theorem readNullBitsFromAPage_copies (c : BaseColumnOrList) (nullMask : NullMask)
    (frame : List UInt8) (posInPage posInVector numBitsToRead : ℕ)
    (hpage : posInPage + numBitsToRead ≤ 64 * (c.nullEntriesInPage frame).length)
    (hvector : posInVector + numBitsToRead ≤ defaultVectorCapacity) :
    ∃ nullMask', (∀ fuel, numBitsToRead ≤ fuel →
        c.readNullBitsFromAPage fuel nullMask frame posInPage posInVector numBitsToRead =
          .ok nullMask' ∧
        c.readNullBitsFromAPage fuel nullMask
          (frame.take (c.endOfNullBits posInPage numBitsToRead)) posInPage posInVector
          numBitsToRead = .ok nullMask') ∧
      CopiedNullBits (isNullIn (c.nullEntriesInPage frame)) posInPage posInVector numBitsToRead
        nullMask nullMask' := by
  obtain ⟨nullMask', -, hcopied⟩ :=
    exists_readNullBitsFromAPage hpage hvector (Nat.le_refl numBitsToRead) nullMask
  refine ⟨nullMask', fun fuel hfuel ↦ ⟨?_, ?_⟩, hcopied⟩
  · obtain ⟨_, hread, hcopied'⟩ := exists_readNullBitsFromAPage hpage hvector hfuel nullMask
    rw [hread, hcopied'.eq hcopied]
  · rcases Nat.eq_zero_or_pos numBitsToRead with rfl | hpos
    · rw [readNullBitsFromAPage_zero, hcopied.eq (.refl _ _ _ _)]
    · rw [endOfNullBits, if_neg (by omega)]
      have hentries : (posInPage + numBitsToRead - 1) / 64 + 1 ≤
        (c.nullEntriesInPage frame).length := by omega
      have hinside : posInPage + numBitsToRead ≤ 64 * ((posInPage + numBitsToRead - 1) / 64 + 1) :=
        by omega
      obtain ⟨_, hread, hcopied'⟩ :=
        exists_readNullBitsFromAPage_take hentries hinside hvector hfuel nullMask
      rw [hread, hcopied'.eq hcopied]

theorem readNullBitsFromAPage_copies_threeWords :
    let c : BaseColumnOrList := ⟨8, true⟩
    let frame := List.replicate 4096 85
    ∃ nullMask', (∀ fuel, 100 ≤ fuel →
        c.readNullBitsFromAPage fuel .new frame 3 70 100 = .ok nullMask' ∧
        c.readNullBitsFromAPage fuel .new (frame.take (c.endOfNullBits 3 100)) 3 70 100 =
          .ok nullMask') ∧
      CopiedNullBits (isNullIn (c.nullEntriesInPage frame)) 3 70 100 .new nullMask' := by
  refine readNullBitsFromAPage_copies ⟨8, true⟩ .new
    (List.replicate 4096 85) 3 70 100 ?_ (by decide)
  rw [nullEntriesInPage, List.length_map, List.length_range, List.length_replicate]
  decide

end BaseColumnOrList

end Graphflow.Storage
