import Graphflow.OrderBy.MergedKeyBlocks

/-!
# A range of tuples as pointers

`BlockPtrInfo`.  A range of indexes is read from a pointer that moves from block to block.
-/

namespace Graphflow.OrderBy

open Lib Storage

structure BlockPtrInfo where
  keyBlocks : MergedKeyBlocks
  curTuplePtr : TuplePtr
  curBlockIdx : ℕ
  endBlockIdx : ℕ
  curBlockEndTuplePtr : TuplePtr
  endTuplePtr : TuplePtr
  endTupleIdx : ℕ
  deriving DecidableEq

namespace BlockPtrInfo

variable {p p' : BlockPtrInfo} {b : MergedKeyBlocks} {i k startTupleIdx endTupleIdx : ℕ}

def create (startTupleIdx endTupleIdx : ℕ) (keyBlocks : MergedKeyBlocks) :
    Except Fault BlockPtrInfo := do
  let curTuplePtr ← keyBlocks.getTuple startTupleIdx
  let curBlockIdx := startTupleIdx / keyBlocks.numTuplesPerBlock
  let endBlockIdx :=
    if endTupleIdx = 0 then 0 else (endTupleIdx - 1) / keyBlocks.numTuplesPerBlock
  let curBlockEndTuplePtr ← keyBlocks.getBlockEndTuplePtr curBlockIdx endTupleIdx endBlockIdx
  let endTuplePtr ← keyBlocks.getBlockEndTuplePtr endBlockIdx endTupleIdx endBlockIdx
  return ⟨keyBlocks, curTuplePtr, curBlockIdx, endBlockIdx, curBlockEndTuplePtr, endTuplePtr,
    endTupleIdx⟩

def hasMoreTuplesToRead (p : BlockPtrInfo) : Bool := p.curTuplePtr ≠ p.endTuplePtr

/-- The two pointers are into the same buffer. -/
def getNumBytesLeftInCurBlock (p : BlockPtrInfo) : ℕ :=
  p.curBlockEndTuplePtr.offset - p.curTuplePtr.offset

def updateTuplePtrIfNecessary (p : BlockPtrInfo) : Except Fault BlockPtrInfo := do
  if p.curTuplePtr = p.curBlockEndTuplePtr then
    let p := { p with curBlockIdx := p.curBlockIdx + 1 }
    if p.curBlockIdx ≤ p.endBlockIdx then
      let curTuplePtr ← p.keyBlocks.getKeyBlockBuffer p.curBlockIdx
      let curBlockEndTuplePtr ←
        p.keyBlocks.getBlockEndTuplePtr p.curBlockIdx p.endTupleIdx p.endBlockIdx
      return { p with curTuplePtr := curTuplePtr, curBlockEndTuplePtr := curBlockEndTuplePtr }
    else return p
  else return p

def advance (p : BlockPtrInfo) (numBytesPerTuple : ℕ) : BlockPtrInfo :=
  { p with curTuplePtr := p.curTuplePtr.advance numBytesPerTuple }

/-! ## The next tuple -/

/-- Where the part of the range in the current block ends. -/
def blockEnd (p : BlockPtrInfo) : ℕ :=
  min (p.keyBlocks.numTuplesPerBlock * (p.curBlockIdx + 1)) p.endTupleIdx

/-- The next tuple is the one with index `i` of the blocks `b`.  The pointer may also be behind the
last tuple of the range in the current block. -/
structure At (p : BlockPtrInfo) (b : MergedKeyBlocks) (i e : ℕ) : Prop where
  keyBlocks_eq : p.keyBlocks = b
  endTupleIdx_eq : p.endTupleIdx = e
  endTupleIdx_le : e ≤ b.numTuples
  endBlockIdx_eq : p.endBlockIdx = (e - 1) / b.numTuplesPerBlock
  curBlockIdx_le : p.curBlockIdx ≤ p.endBlockIdx
  curBlockIdx_lt : p.curBlockIdx < b.keyBlocks.length
  start_le : b.numTuplesPerBlock * p.curBlockIdx ≤ i
  le_end : i ≤ b.numTuplesPerBlock * (p.curBlockIdx + 1)
  le_endTupleIdx : i ≤ e
  curTuplePtr_eq : p.curTuplePtr = ⟨b.keyBlocks.getD p.curBlockIdx 0,
    b.numBytesPerTuple * (i - b.numTuplesPerBlock * p.curBlockIdx)⟩
  curBlockEndTuplePtr_eq : p.curBlockEndTuplePtr = ⟨b.keyBlocks.getD p.curBlockIdx 0,
    b.numBytesPerTuple * (p.blockEnd - b.numTuplesPerBlock * p.curBlockIdx)⟩
  endTuplePtr_eq : p.endTuplePtr = ⟨b.keyBlocks.getD p.endBlockIdx 0,
    b.numBytesPerTuple * (e - b.numTuplesPerBlock * p.endBlockIdx)⟩

/-- The range ends at `e`, and the next tuple of it is the one with index `i`, if there is one. -/
def Reads (p : BlockPtrInfo) (b : MergedKeyBlocks) (i e : ℕ) : Prop :=
  (p.At b i e ∧ i < p.blockEnd) ∨
    i = e ∧ p.curTuplePtr = p.endTuplePtr ∧ p.endBlockIdx < p.curBlockIdx

/-- The range is empty and ends with a block, while the pointer is at the start of the next one. -/
structure Beyond (p : BlockPtrInfo) (b : MergedKeyBlocks) (e : ℕ) : Prop where
  keyBlocks_eq : p.keyBlocks = b
  endTupleIdx_eq : p.endTupleIdx = e
  endTupleIdx_lt : e < b.numTuples
  curTuplePtr_eq : p.curTuplePtr = b.tuplePtr e
  ne_endTuplePtr : p.curTuplePtr ≠ p.endTuplePtr
  ne_curBlockEndTuplePtr : p.curTuplePtr ≠ p.curBlockEndTuplePtr
  numBytesLeft_eq : p.getNumBytesLeftInCurBlock = b.numBytesPerTuple * b.numTuplesPerBlock
  endBlockIdx_lt : p.endBlockIdx < p.curBlockIdx

end BlockPtrInfo

/-! ## Ends of blocks -/

section Ends

variable {b : MergedKeyBlocks} {blockIdx e : ℕ}

/-- The tuple before index `e` ends where the range up to `e` does. -/
theorem tuplePtr_pred_advance (he : e ≠ 0) :
    (b.tuplePtr (e - 1)).advance b.numBytesPerTuple =
      ⟨b.keyBlocks.getD ((e - 1) / b.numTuplesPerBlock) 0,
        b.numBytesPerTuple * (e - b.numTuplesPerBlock * ((e - 1) / b.numTuplesPerBlock))⟩ := by
  have hdiv := Nat.div_add_mod (e - 1) b.numTuplesPerBlock
  have hlast : e - b.numTuplesPerBlock * ((e - 1) / b.numTuplesPerBlock) =
      (e - 1) % b.numTuplesPerBlock + 1 := by omega
  rw [MergedKeyBlocks.tuplePtr, TuplePtr.advance_mk, hlast, Nat.mul_add_one]

theorem getBlockEndTuplePtr_endBlock (he : e ≤ b.numTuples) (hblocks : 0 < b.keyBlocks.length) :
    b.getBlockEndTuplePtr ((e - 1) / b.numTuplesPerBlock) e ((e - 1) / b.numTuplesPerBlock) =
      .ok ⟨b.keyBlocks.getD ((e - 1) / b.numTuplesPerBlock) 0,
        b.numBytesPerTuple * (e - b.numTuplesPerBlock * ((e - 1) / b.numTuplesPerBlock))⟩ := by
  by_cases hzero : e = 0
  · subst hzero
    rw [MergedKeyBlocks.getBlockEndTuplePtr, Nat.zero_sub, Nat.zero_div,
      if_neg (Nat.not_le.mpr hblocks), if_pos rfl,
      MergedKeyBlocks.getKeyBlockBuffer_of_lt hblocks]
    simp
  · have hlt : (e - 1) / b.numTuplesPerBlock < b.keyBlocks.length :=
      MergedKeyBlocks.blockIdx_lt (by omega)
    rw [MergedKeyBlocks.getBlockEndTuplePtr, if_neg (Nat.not_le.mpr hlt), if_neg hzero, if_pos rfl,
      MergedKeyBlocks.getTuple_of_lt (by omega)]
    simp [tuplePtr_pred_advance hzero]

theorem getBlockEndTuplePtr_of_lt (he : e ≠ 0) (hne : blockIdx ≠ (e - 1) / b.numTuplesPerBlock)
    (hblock : blockIdx < b.keyBlocks.length) :
    b.getBlockEndTuplePtr blockIdx e ((e - 1) / b.numTuplesPerBlock) =
      .ok ⟨b.keyBlocks.getD blockIdx 0, b.numBytesPerTuple * b.numTuplesPerBlock⟩ := by
  rw [MergedKeyBlocks.getBlockEndTuplePtr, if_neg (Nat.not_le.mpr hblock), if_neg he, if_neg hne,
    MergedKeyBlocks.getKeyBlockBuffer_of_lt hblock]
  simp [MergedKeyBlocks.endTupleOffset, Nat.mul_comm]

/-- What a block of a range ends with. -/
theorem getBlockEndTuplePtr_eq (he : e ≤ b.numTuples) (hblock : blockIdx < b.keyBlocks.length)
    (hle : blockIdx ≤ (e - 1) / b.numTuplesPerBlock) :
    b.getBlockEndTuplePtr blockIdx e ((e - 1) / b.numTuplesPerBlock) =
      .ok ⟨b.keyBlocks.getD blockIdx 0,
        b.numBytesPerTuple * (min (b.numTuplesPerBlock * (blockIdx + 1)) e -
          b.numTuplesPerBlock * blockIdx)⟩ := by
  have hpos := b.numTuplesPerBlock_pos
  by_cases heq : blockIdx = (e - 1) / b.numTuplesPerBlock
  · have hend : e ≤ b.numTuplesPerBlock * (blockIdx + 1) := by
      have hlt := Nat.lt_mul_div_succ (e - 1) hpos
      rw [← heq] at hlt
      omega
    rw [Nat.min_eq_right hend]
    subst heq
    exact getBlockEndTuplePtr_endBlock he (Nat.zero_lt_of_lt hblock)
  · have hlt : blockIdx + 1 ≤ (e - 1) / b.numTuplesPerBlock := by omega
    have hmul := Nat.mul_le_mul_left b.numTuplesPerBlock hlt
    have hle' := Nat.mul_div_le (e - 1) b.numTuplesPerBlock
    have hpos' : 0 < b.numTuplesPerBlock * (blockIdx + 1) :=
      Nat.mul_pos hpos (Nat.succ_pos blockIdx)
    rw [Nat.min_eq_left (by omega), Nat.mul_add_one, Nat.add_sub_cancel_left]
    exact getBlockEndTuplePtr_of_lt (by omega) heq hblock

end Ends

namespace BlockPtrInfo

variable {p : BlockPtrInfo} {b : MergedKeyBlocks} {i e : ℕ}

namespace At

theorem blockEnd_eq (h : p.At b i e) :
    p.blockEnd = min (b.numTuplesPerBlock * (p.curBlockIdx + 1)) e := by
  rw [blockEnd, h.keyBlocks_eq, h.endTupleIdx_eq]

theorem le_blockEnd (h : p.At b i e) : i ≤ p.blockEnd := by
  rw [h.blockEnd_eq]
  exact le_min h.le_end h.le_endTupleIdx

theorem blockEnd_le (h : p.At b i e) : p.blockEnd ≤ e := by
  rw [h.blockEnd_eq]
  exact min_le_right _ _

theorem curTuplePtr_eq_tuplePtr (h : p.At b i e) (hi : i < p.blockEnd) :
    p.curTuplePtr = b.tuplePtr i := by
  have hlt : i < b.numTuplesPerBlock * (p.curBlockIdx + 1) := by
    rw [h.blockEnd_eq] at hi
    exact lt_of_lt_of_le hi (min_le_left _ _)
  have hstart := h.start_le
  rw [Nat.mul_add_one] at hlt
  have htuple := @MergedKeyBlocks.tuplePtr_mul_add b p.curBlockIdx
    (i - b.numTuplesPerBlock * p.curBlockIdx) (by omega)
  rw [Nat.add_sub_cancel' hstart] at htuple
  rw [htuple, h.curTuplePtr_eq]

theorem getNumBytesLeftInCurBlock_eq (h : p.At b i e) :
    p.getNumBytesLeftInCurBlock = b.numBytesPerTuple * (p.blockEnd - i) := by
  have hstart := h.start_le
  rw [getNumBytesLeftInCurBlock, h.curBlockEndTuplePtr_eq, h.curTuplePtr_eq, ← Nat.mul_sub]
  congr 1
  omega

theorem advance (h : p.At b i e) (hi : i < p.blockEnd) :
    (p.advance b.numBytesPerTuple).At b (i + 1) e := by
  have hstart := h.start_le
  refine { h with start_le := ?_, le_end := ?_, le_endTupleIdx := ?_, curTuplePtr_eq := ?_ }
  · exact Nat.le_succ_of_le hstart
  · rw [h.blockEnd_eq] at hi
    exact lt_of_lt_of_le hi (min_le_left _ _)
  · exact lt_of_lt_of_le hi h.blockEnd_le
  · have hnext : i + 1 - b.numTuplesPerBlock * p.curBlockIdx =
        i - b.numTuplesPerBlock * p.curBlockIdx + 1 := by omega
    rw [BlockPtrInfo.advance, h.curTuplePtr_eq, TuplePtr.advance_mk, hnext, Nat.mul_add_one]

theorem endBlockIdx_lt (h : p.At b i e) : p.endBlockIdx < b.keyBlocks.length := by
  by_cases he : e = 0
  · have hzero : p.endBlockIdx = 0 := by rw [h.endBlockIdx_eq, he, Nat.zero_sub, Nat.zero_div]
    rw [hzero]
    exact Nat.zero_lt_of_lt h.curBlockIdx_lt
  · have hle := h.endTupleIdx_le
    rw [h.endBlockIdx_eq]
    exact MergedKeyBlocks.blockIdx_lt (by omega)

/-- A block before the last one is in the range as a whole, and the range goes on behind it. -/
theorem lt_endTupleIdx_of_lt (h : p.At b i e) (hlt : p.curBlockIdx < p.endBlockIdx) :
    b.numTuplesPerBlock * (p.curBlockIdx + 1) < e := by
  have hnext : p.curBlockIdx + 1 ≤ p.endBlockIdx := hlt
  have hmul := Nat.mul_le_mul_left b.numTuplesPerBlock hnext
  have hdiv := Nat.mul_div_le (e - 1) b.numTuplesPerBlock
  have hpos : 0 < b.numTuplesPerBlock * (p.curBlockIdx + 1) :=
    Nat.mul_pos b.numTuplesPerBlock_pos (Nat.succ_pos p.curBlockIdx)
  rw [← h.endBlockIdx_eq] at hdiv
  omega

/-- The end of the range is in the last block of it. -/
theorem curBlockIdx_eq (h : p.At b e e) : p.curBlockIdx = p.endBlockIdx := by
  apply le_antisymm h.curBlockIdx_le
  by_contra hlt
  exact absurd h.le_end (Nat.not_le.mpr (h.lt_endTupleIdx_of_lt (Nat.not_le.mp hlt)))

theorem curTuplePtr_eq_endTuplePtr_iff (h : p.At b i e) :
    p.curTuplePtr = p.endTuplePtr ↔ i = e := by
  constructor
  · intro heq
    rw [h.curTuplePtr_eq, h.endTuplePtr_eq, TuplePtr.mk.injEq,
      MergedKeyBlocks.getD_keyBlocks_inj h.curBlockIdx_lt h.endBlockIdx_lt] at heq
    obtain ⟨hblock, hoffset⟩ := heq
    have hrest := Nat.eq_of_mul_eq_mul_left b.numBytesPerTuple_pos hoffset
    have hstart := h.start_le
    have hle := h.le_endTupleIdx
    rw [hblock] at hrest hstart
    omega
  · rintro rfl
    rw [h.curTuplePtr_eq, h.endTuplePtr_eq, h.curBlockIdx_eq]

theorem hasMoreTuplesToRead_iff (h : p.At b i e) : p.hasMoreTuplesToRead = true ↔ i ≠ e := by
  rw [hasMoreTuplesToRead, decide_eq_true_iff, Ne, h.curTuplePtr_eq_endTuplePtr_iff]

theorem curTuplePtr_eq_curBlockEndTuplePtr_iff (h : p.At b i e) :
    p.curTuplePtr = p.curBlockEndTuplePtr ↔ i = p.blockEnd := by
  have hstart := h.start_le
  have hle := h.le_blockEnd
  rw [h.curTuplePtr_eq, h.curBlockEndTuplePtr_eq, TuplePtr.mk.injEq, eq_self, true_and,
    Nat.mul_right_inj (Nat.ne_of_gt b.numBytesPerTuple_pos)]
  omega

/-- The pointer goes on to the next block when it has come to the end of one. -/
theorem exists_updateTuplePtrIfNecessary (h : p.At b i e) :
    ∃ p', p.updateTuplePtrIfNecessary = .ok p' ∧ p'.Reads b i e := by
  have hiff := h.curTuplePtr_eq_curBlockEndTuplePtr_iff
  by_cases hend : i = p.blockEnd
  · by_cases hlt : p.curBlockIdx < p.endBlockIdx
    · have hrest := h.lt_endTupleIdx_of_lt hlt
      have hblock : p.curBlockIdx + 1 < b.keyBlocks.length :=
        lt_of_le_of_lt hlt h.endBlockIdx_lt
      have hi : i = b.numTuplesPerBlock * (p.curBlockIdx + 1) := by
        rw [hend, h.blockEnd_eq, Nat.min_eq_left hrest.le]
      have hbuffer := MergedKeyBlocks.getKeyBlockBuffer_of_lt hblock
      have hblockEnd := getBlockEndTuplePtr_eq h.endTupleIdx_le hblock
        (by rw [← h.endBlockIdx_eq]; exact hlt)
      rw [← h.endBlockIdx_eq] at hblockEnd
      refine ⟨{ p with
        curBlockIdx := p.curBlockIdx + 1
        curTuplePtr := ⟨b.keyBlocks.getD (p.curBlockIdx + 1) 0, 0⟩
        curBlockEndTuplePtr := ⟨b.keyBlocks.getD (p.curBlockIdx + 1) 0, b.numBytesPerTuple *
          (min (b.numTuplesPerBlock * (p.curBlockIdx + 1 + 1)) e -
            b.numTuplesPerBlock * (p.curBlockIdx + 1))⟩ }, ?_, Or.inl ⟨?_, ?_⟩⟩
      · rw [updateTuplePtrIfNecessary, if_pos (hiff.mpr hend), if_pos (Nat.succ_le_of_lt hlt),
          h.keyBlocks_eq, h.endTupleIdx_eq, hbuffer, ok_bind, hblockEnd, ok_bind]
        rfl
      · refine { h with
          curBlockIdx_le := hlt, curBlockIdx_lt := hblock, start_le := hi.ge, le_end := ?_,
          curTuplePtr_eq := ?_, curBlockEndTuplePtr_eq := ?_ }
        · rw [hi]
          exact Nat.mul_le_mul_left _ (Nat.le_succ _)
        · simp [hi]
        · simp [blockEnd, h.keyBlocks_eq, h.endTupleIdx_eq]
      · have hpos := b.numTuplesPerBlock_pos
        have hmul := Nat.mul_add_one b.numTuplesPerBlock (p.curBlockIdx + 1)
        simp only [blockEnd, h.keyBlocks_eq, h.endTupleIdx_eq]
        apply lt_min
        · omega
        · rw [hi]
          exact hrest
    · have hlast : p.curBlockIdx = p.endBlockIdx := le_antisymm h.curBlockIdx_le (by omega)
      have hall : e ≤ b.numTuplesPerBlock * (p.curBlockIdx + 1) := by
        have hdiv := Nat.lt_mul_div_succ (e - 1) b.numTuplesPerBlock_pos
        rw [← h.endBlockIdx_eq, ← hlast] at hdiv
        omega
      have hi : i = e := by rw [hend, h.blockEnd_eq, Nat.min_eq_right hall]
      refine ⟨{ p with curBlockIdx := p.curBlockIdx + 1 }, ?_, Or.inr ⟨hi, ?_, ?_⟩⟩
      · rw [updateTuplePtrIfNecessary, if_pos (hiff.mpr hend)]
        exact if_neg (Nat.not_le.mpr (Nat.lt_succ_of_le hlast.ge))
      · exact h.curTuplePtr_eq_endTuplePtr_iff.mpr hi
      · exact Nat.lt_succ_of_le hlast.ge
  · refine ⟨p, ?_, Or.inl ⟨h, lt_of_le_of_ne h.le_blockEnd hend⟩⟩
    rw [updateTuplePtrIfNecessary, if_neg (mt hiff.mp hend)]
    rfl

end At

namespace Reads

theorem at_of_ne (h : p.Reads b i e) (hi : i ≠ e) : p.At b i e ∧ i < p.blockEnd :=
  h.resolve_right fun hend ↦ hi hend.1

theorem hasMoreTuplesToRead_iff (h : p.Reads b i e) : p.hasMoreTuplesToRead = true ↔ i ≠ e := by
  rcases h with ⟨hat, -⟩ | ⟨rfl, heq, -⟩
  · exact hat.hasMoreTuplesToRead_iff
  · rw [hasMoreTuplesToRead, decide_eq_true_iff]
    exact iff_of_false (not_not_intro heq) (not_not_intro rfl)

theorem curBlockIdx_le_iff (h : p.Reads b i e) : p.curBlockIdx ≤ p.endBlockIdx ↔ i ≠ e := by
  rcases h with ⟨hat, hlt⟩ | ⟨rfl, -, hlt⟩
  · exact iff_of_true hat.curBlockIdx_le (lt_of_lt_of_le hlt hat.blockEnd_le).ne
  · exact iff_of_false (Nat.not_le.mpr hlt) (not_not_intro rfl)

end Reads

theorem Beyond.updateTuplePtrIfNecessary_eq (h : p.Beyond b e) :
    p.updateTuplePtrIfNecessary = .ok p :=
  if_neg h.ne_curBlockEndTuplePtr

/-! ## The constructor -/

section Create

variable {s : ℕ} {blockEndPtr : TuplePtr}

theorem create_eq_ok (hs : s < b.numTuples) (he : e ≤ b.numTuples)
    (hcur : b.getBlockEndTuplePtr (s / b.numTuplesPerBlock) e ((e - 1) / b.numTuplesPerBlock) =
      .ok blockEndPtr) :
    create s e b = .ok ⟨b, b.tuplePtr s, s / b.numTuplesPerBlock, (e - 1) / b.numTuplesPerBlock,
      blockEndPtr, ⟨b.keyBlocks.getD ((e - 1) / b.numTuplesPerBlock) 0,
        b.numBytesPerTuple * (e - b.numTuplesPerBlock * ((e - 1) / b.numTuplesPerBlock))⟩, e⟩ := by
  have hend : (if e = 0 then 0 else (e - 1) / b.numTuplesPerBlock) =
      (e - 1) / b.numTuplesPerBlock := by
    split_ifs with hzero
    · rw [hzero, Nat.zero_sub, Nat.zero_div]
    · rfl
  have hlast := getBlockEndTuplePtr_endBlock he
    (Nat.zero_lt_of_lt (MergedKeyBlocks.blockIdx_lt hs))
  rw [create, MergedKeyBlocks.getTuple_of_lt hs, ok_bind]
  simp only [hend]
  rw [hcur, ok_bind, hlast]
  rfl

/-- The pointer to the first tuple of a range that is not empty. -/
theorem exists_create_at (hs : s < b.numTuples) (hle : s ≤ e) (he : e ≤ b.numTuples)
    (hin : s / b.numTuplesPerBlock ≤ (e - 1) / b.numTuplesPerBlock) :
    ∃ p, create s e b = .ok p ∧ p.At b s e ∧ (s < e → s < p.blockEnd) := by
  have hblock : s / b.numTuplesPerBlock < b.keyBlocks.length := MergedKeyBlocks.blockIdx_lt hs
  have hdiv := Nat.div_add_mod s b.numTuplesPerBlock
  have hlt := Nat.lt_mul_div_succ s b.numTuplesPerBlock_pos
  refine ⟨_, create_eq_ok hs he (getBlockEndTuplePtr_eq he hblock hin), ?_, ?_⟩
  · exact {
      keyBlocks_eq := rfl
      endTupleIdx_eq := rfl
      endTupleIdx_le := he
      endBlockIdx_eq := rfl
      curBlockIdx_le := hin
      curBlockIdx_lt := hblock
      start_le := Nat.mul_div_le s b.numTuplesPerBlock
      le_end := hlt.le
      le_endTupleIdx := hle
      curTuplePtr_eq := by
        have hmod : s - b.numTuplesPerBlock * (s / b.numTuplesPerBlock) =
          s % b.numTuplesPerBlock := by omega
        rw [hmod]
        rfl
      curBlockEndTuplePtr_eq := rfl
      endTuplePtr_eq := rfl }
  · intro hse
    exact lt_min hlt hse

/-- The pointer of an empty range whose end is the start of a block. -/
theorem exists_create_beyond (hs : e < b.numTuples)
    (hout : (e - 1) / b.numTuplesPerBlock < e / b.numTuplesPerBlock) :
    ∃ p, create e e b = .ok p ∧ p.Beyond b e := by
  have hpos := b.numTuplesPerBlock_pos
  have hblock : e / b.numTuplesPerBlock < b.keyBlocks.length := MergedKeyBlocks.blockIdx_lt hs
  have hne : e ≠ 0 := by
    rintro rfl
    exact absurd hout (lt_irrefl _)
  have hfull : e % b.numTuplesPerBlock = 0 := by
    have hlt := Nat.lt_mul_of_div_lt hout hpos
    have hdiv := Nat.div_add_mod e b.numTuplesPerBlock
    rw [Nat.mul_comm] at hlt
    omega
  have hptr : b.tuplePtr e = ⟨b.keyBlocks.getD (e / b.numTuplesPerBlock) 0, 0⟩ := by
    rw [MergedKeyBlocks.tuplePtr, hfull, Nat.mul_zero]
  have hbytes : 0 < b.numBytesPerTuple * b.numTuplesPerBlock :=
    Nat.mul_pos b.numBytesPerTuple_pos hpos
  refine ⟨_, create_eq_ok hs hs.le (getBlockEndTuplePtr_of_lt hne hout.ne' hblock), ?_⟩
  exact {
    keyBlocks_eq := rfl
    endTupleIdx_eq := rfl
    endTupleIdx_lt := hs
    curTuplePtr_eq := rfl
    ne_endTuplePtr := by
      rw [hptr, Ne, TuplePtr.mk.injEq, MergedKeyBlocks.getD_keyBlocks_inj hblock
        (lt_of_lt_of_le hout hblock.le)]
      exact fun heq ↦ hout.ne' heq.1
    ne_curBlockEndTuplePtr := by
      rw [hptr, Ne, TuplePtr.mk.injEq]
      exact fun heq ↦ hbytes.ne heq.2
    numBytesLeft_eq := by
      rw [getNumBytesLeftInCurBlock, hptr, Nat.sub_zero]
    endBlockIdx_lt := hout }

/-- The pointer is in the range; only that of an empty range behind a full block is not. -/
theorem exists_create (hs : s < b.numTuples) (hle : s ≤ e) (he : e ≤ b.numTuples) :
    ∃ p, create s e b = .ok p ∧
      (p.At b s e ∧ (s < e → s < p.blockEnd) ∨ s = e ∧ p.Beyond b e) := by
  by_cases hin : s / b.numTuplesPerBlock ≤ (e - 1) / b.numTuplesPerBlock
  · obtain ⟨p, hp, hat⟩ := exists_create_at hs hle he hin
    exact ⟨p, hp, Or.inl hat⟩
  · have heq : s = e := by
      by_contra hne
      exact hin (Nat.div_le_div_right (by omega))
    subst heq
    obtain ⟨p, hp, hbeyond⟩ := exists_create_beyond hs (Nat.not_le.mp hin)
    exact ⟨p, hp, Or.inr ⟨rfl, hbeyond⟩⟩

theorem create_of_le (hs : b.numTuples ≤ s) : create s e b = .error .invalidAccess := by
  rw [create, MergedKeyBlocks.getTuple_of_le hs, error_bind]

end Create

end BlockPtrInfo

end Graphflow.OrderBy
