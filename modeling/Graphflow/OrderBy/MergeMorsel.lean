import Graphflow.Lib.Merge
import Graphflow.Lib.WhileLoop
import Graphflow.OrderBy.BlockPtrInfo

/-!
# Merging a morsel

`KeyBlockMerger::mergeKeyBlocks`.  A range of tuples of the left block and one of the right block
are merged into the result block, behind all tuples that stand before the two ranges.
-/

namespace Graphflow.OrderBy

open Lib Storage

structure KeyBlockMergeMorsel where
  leftKeyBlockStartIdx : ℕ
  leftKeyBlockEndIdx : ℕ
  rightKeyBlockStartIdx : ℕ
  rightKeyBlockEndIdx : ℕ
  deriving DecidableEq, Repr

structure KeyBlockMergeTask where
  leftKeyBlock : MergedKeyBlocks
  rightKeyBlock : MergedKeyBlocks
  resultKeyBlock : MergedKeyBlocks
  leftKeyBlockNextIdx : ℕ := 0
  rightKeyBlockNextIdx : ℕ := 0
  activeMorsels : ℕ := 0
  deriving DecidableEq

structure MergeState where
  memory : KeyBlockMemory
  left : BlockPtrInfo
  right : BlockPtrInfo
  result : BlockPtrInfo

structure CopyState where
  memory : KeyBlockMemory
  blockToCopy : BlockPtrInfo
  result : BlockPtrInfo

/-- The turns of a loop over the bytes that takes a tuple each time. -/
def numTurns (numBytes numBytesPerTuple : ℕ) : ℕ :=
  (numBytes + numBytesPerTuple - 1) / numBytesPerTuple

/-- The `memcpy` of the next tuple to where the next tuple of the result goes. -/
def copyTuple (numBytesPerTuple : ℕ) (memory : KeyBlockMemory) (source result : BlockPtrInfo) :
    Except Fault KeyBlockMemory := do
  let tuple ← source.keyBlocks.readTuple memory source.curTuplePtr numBytesPerTuple
  result.keyBlocks.writeTuple memory result.curTuplePtr tuple

def copyNextTuple (numBytesPerTuple : ℕ) (s : CopyState) : Except Fault CopyState := do
  let memory ← copyTuple numBytesPerTuple s.memory s.blockToCopy s.result
  return ⟨memory, s.blockToCopy.advance numBytesPerTuple, s.result.advance numBytesPerTuple⟩

def copyTurn (numBytesPerTuple : ℕ) (s : CopyState) : Except Fault CopyState := do
  let nextNumBytesToMerge :=
    min s.blockToCopy.getNumBytesLeftInCurBlock s.result.getNumBytesLeftInCurBlock
  let s ← (List.range (numTurns nextNumBytesToMerge numBytesPerTuple)).foldlM
    (fun s _ ↦ copyNextTuple numBytesPerTuple s) s
  let blockToCopy ← s.blockToCopy.updateTuplePtrIfNecessary
  let result ← s.result.updateTuplePtrIfNecessary
  return ⟨s.memory, blockToCopy, result⟩

/-- The number of turns is no less than that of the tuples and blocks that are left. -/
def copyRemainingBlockDataToResult (numBytesPerTuple : ℕ) (s : CopyState) :
    Except Fault CopyState :=
  whileLoop .invalidAccess (fun s ↦ s.blockToCopy.curBlockIdx ≤ s.blockToCopy.endBlockIdx)
    (copyTurn numBytesPerTuple) (s.blockToCopy.endTupleIdx + s.blockToCopy.endBlockIdx + 1) s

namespace KeyBlockMerger

variable {V : Type}

def mergeNextTuple (merger : KeyBlockMerger V) (s : MergeState) : Except Fault MergeState := do
  let numBytesPerTuple := merger.numBytesPerTuple
  let leftTuple ← s.left.keyBlocks.readTuple s.memory s.left.curTuplePtr numBytesPerTuple
  let rightTuple ← s.right.keyBlocks.readTuple s.memory s.right.curTuplePtr numBytesPerTuple
  if ← merger.compareTuplePtr leftTuple rightTuple then
    let memory ← copyTuple numBytesPerTuple s.memory s.right s.result
    return { s with
      memory := memory
      right := s.right.advance numBytesPerTuple
      result := s.result.advance numBytesPerTuple }
  else
    let memory ← copyTuple numBytesPerTuple s.memory s.left s.result
    return { s with
      memory := memory
      left := s.left.advance numBytesPerTuple
      result := s.result.advance numBytesPerTuple }

def mergeTurn (merger : KeyBlockMerger V) (s : MergeState) : Except Fault MergeState := do
  let nextNumBytesToMerge :=
    min (min s.left.getNumBytesLeftInCurBlock s.right.getNumBytesLeftInCurBlock)
      s.result.getNumBytesLeftInCurBlock
  let s ← (List.range (numTurns nextNumBytesToMerge merger.numBytesPerTuple)).foldlM
    (fun s _ ↦ merger.mergeNextTuple s) s
  let left ← s.left.updateTuplePtrIfNecessary
  let right ← s.right.updateTuplePtrIfNecessary
  let result ← s.result.updateTuplePtrIfNecessary
  return ⟨s.memory, left, right, result⟩

/-- Every turn of the loop merges a tuple or more. -/
def mergeKeyBlocks (merger : KeyBlockMerger V) (task : KeyBlockMergeTask)
    (morsel : KeyBlockMergeMorsel) (memory : KeyBlockMemory) : Except Fault KeyBlockMemory := do
  if ¬(morsel.leftKeyBlockStartIdx < morsel.leftKeyBlockEndIdx ∨
      morsel.rightKeyBlockStartIdx < morsel.rightKeyBlockEndIdx) then
    throw .invalidAccess
  let left ← BlockPtrInfo.create morsel.leftKeyBlockStartIdx morsel.leftKeyBlockEndIdx
    task.leftKeyBlock
  let right ← BlockPtrInfo.create morsel.rightKeyBlockStartIdx morsel.rightKeyBlockEndIdx
    task.rightKeyBlock
  let result ← BlockPtrInfo.create (morsel.leftKeyBlockStartIdx + morsel.rightKeyBlockStartIdx)
    (morsel.leftKeyBlockEndIdx + morsel.rightKeyBlockEndIdx) task.resultKeyBlock
  let s ← whileLoop .invalidAccess
    (fun s ↦ s.left.hasMoreTuplesToRead && s.right.hasMoreTuplesToRead) merger.mergeTurn
    (morsel.leftKeyBlockEndIdx + morsel.rightKeyBlockEndIdx) ⟨memory, left, right, result⟩
  let copied ← copyRemainingBlockDataToResult merger.numBytesPerTuple ⟨s.memory, s.right, s.result⟩
  let copied ← copyRemainingBlockDataToResult merger.numBytesPerTuple
    ⟨copied.memory, s.left, copied.result⟩
  return copied.memory

end KeyBlockMerger

/-! ## Parts of a block -/

namespace MergedKeyBlocks

variable {b : MergedKeyBlocks} {memory memory' memory'' : KeyBlockMemory} {i e start : ℕ}
  {out : List (List UInt8)} {tuple : List UInt8}

def segment (b : MergedKeyBlocks) (memory : KeyBlockMemory) (i e : ℕ) : List (List UInt8) :=
  (List.range' i (e - i)).map (b.tupleAt memory)

theorem segment_of_le (h : e ≤ i) : b.segment memory i e = [] := by
  rw [segment, Nat.sub_eq_zero_of_le h]
  rfl

theorem segment_of_lt (h : i < e) :
    b.segment memory i e = b.tupleAt memory i :: b.segment memory (i + 1) e := by
  have hsub : e - i = e - (i + 1) + 1 := by omega
  rw [segment, hsub, List.range'_succ]
  rfl

theorem segment_concat (i n : ℕ) :
    b.segment memory i (i + n) ++ [b.tupleAt memory (i + n)] =
      b.segment memory i (i + (n + 1)) := by
  rw [segment, segment, Nat.add_sub_cancel_left, Nat.add_sub_cancel_left, List.range'_1_concat,
    List.map_append]
  rfl

theorem segment_append {j : ℕ} (hi : i ≤ j) (hj : j ≤ e) :
    b.segment memory i j ++ b.segment memory j e = b.segment memory i e := by
  obtain ⟨m, rfl⟩ := Nat.exists_eq_add_of_le hi
  obtain ⟨n, rfl⟩ := Nat.exists_eq_add_of_le hj
  rw [segment, segment, segment, ← List.map_append, Nat.add_sub_cancel_left,
    Nat.add_sub_cancel_left, Nat.add_assoc, Nat.add_sub_cancel_left, List.range'_append_1]

@[simp] theorem length_segment : (b.segment memory i e).length = e - i := by
  rw [segment, List.length_map, List.length_range']

/-- Tuples have been written one after the other, from the one with index `start` on. -/
structure Appended (b : MergedKeyBlocks) (memory memory' : KeyBlockMemory) (start : ℕ)
    (out : List (List UInt8)) : Prop where
  written : ∀ k (hk : k < out.length), b.tupleAt memory' (start + k) = out[k]
  others : ∀ i < b.numTuples, i < start ∨ start + out.length ≤ i →
    b.tupleAt memory' i = b.tupleAt memory i
  frame : ∀ keyBlock ∉ b.keyBlocks, memory' keyBlock = memory keyBlock

theorem Appended.nil (b : MergedKeyBlocks) (memory : KeyBlockMemory) (start : ℕ) :
    b.Appended memory memory start [] :=
  ⟨fun k hk ↦ absurd hk (Nat.not_lt_zero k), fun _ _ _ ↦ rfl, fun _ _ ↦ rfl⟩

theorem Appended.exists_writeTuple (h : b.Appended memory memory' start out)
    (hroom : start + out.length < b.numTuples) (htuple : tuple.length = b.numBytesPerTuple) :
    ∃ memory'', b.writeTuple memory' (b.tuplePtr (start + out.length)) tuple = .ok memory'' ∧
      b.Appended memory memory'' start (out ++ [tuple]) := by
  obtain ⟨memory'', hwrite, hnew, hold, hframe⟩ :=
    @MergedKeyBlocks.exists_writeTuple b memory' _ tuple hroom htuple
  refine ⟨memory'', hwrite, ?_, ?_, ?_⟩
  · intro k hk
    rw [List.length_append, List.length_singleton] at hk
    by_cases hlast : k = out.length
    · subst hlast
      rw [hnew, List.getElem_concat_length rfl]
    · rw [hold _ (by omega) (by omega), h.written k (by omega), List.getElem_append_left]
  · intro i hi hout
    rw [List.length_append, List.length_singleton] at hout
    rw [hold i hi (by omega), h.others i hi (by omega)]
  · intro keyBlock hkeyBlock
    rw [hframe keyBlock hkeyBlock, h.frame keyBlock hkeyBlock]

end MergedKeyBlocks

theorem numTurns_mul {numBytesPerTuple : ℕ} (hpos : 0 < numBytesPerTuple) (n : ℕ) :
    numTurns (numBytesPerTuple * n) numBytesPerTuple = n := by
  rw [numTurns, Nat.add_sub_assoc hpos, Nat.mul_add_div hpos,
    Nat.div_eq_of_lt (Nat.sub_lt hpos Nat.one_pos), Nat.add_zero]

/-! ## Copying the rest of a range -/

section Copy

variable {b result : MergedKeyBlocks} {memory₀ memory : KeyBlockMemory} {p q : BlockPtrInfo}
  {start i e k last : ℕ} {out : List (List UInt8)}

theorem exists_copyTuple (happended : result.Appended memory₀ memory start out)
    (hdisjoint : List.Disjoint b.keyBlocks result.keyBlocks)
    (hbytes : b.numBytesPerTuple = result.numBytesPerTuple)
    (hsource : p.keyBlocks = b) (hptr : p.curTuplePtr = b.tuplePtr i) (hi : i < b.numTuples)
    (hresult : q.keyBlocks = result) (hptr' : q.curTuplePtr = result.tuplePtr (start + out.length))
    (hroom : start + out.length < result.numTuples) :
    ∃ memory', copyTuple result.numBytesPerTuple memory p q = .ok memory' ∧
      result.Appended memory₀ memory' start (out ++ [b.tupleAt memory₀ i]) := by
  have hread : b.readTuple memory (b.tuplePtr i) result.numBytesPerTuple =
      .ok (b.tupleAt memory₀ i) := by
    rw [← hbytes, MergedKeyBlocks.readTuple_tuplePtr hi, MergedKeyBlocks.tupleAt_congr hi
      fun keyBlock hmem ↦ happended.frame keyBlock (hdisjoint hmem)]
  have hlength : (b.tupleAt memory₀ i).length = result.numBytesPerTuple := by
    rw [MergedKeyBlocks.length_tupleAt, hbytes]
  obtain ⟨memory', hwrite, happended'⟩ := happended.exists_writeTuple hroom hlength
  refine ⟨memory', ?_, happended'⟩
  rw [copyTuple, hsource, hptr, hread, ok_bind, hresult, hptr', hwrite]

theorem exists_copyNextTuple {s : CopyState}
    (hdisjoint : List.Disjoint b.keyBlocks result.keyBlocks)
    (hbytes : b.numBytesPerTuple = result.numBytesPerTuple)
    (hsource : s.blockToCopy.At b i e) (hi : i < s.blockToCopy.blockEnd)
    (hresult : s.result.At result (start + out.length) last)
    (hroom : start + out.length < s.result.blockEnd)
    (happended : result.Appended memory₀ s.memory start out) :
    ∃ memory', copyNextTuple result.numBytesPerTuple s = .ok ⟨memory',
        s.blockToCopy.advance result.numBytesPerTuple, s.result.advance result.numBytesPerTuple⟩ ∧
      result.Appended memory₀ memory' start (out ++ [b.tupleAt memory₀ i]) := by
  have hi' := lt_of_lt_of_le hi (hsource.blockEnd_le.trans hsource.endTupleIdx_le)
  have hroom' := lt_of_lt_of_le hroom (hresult.blockEnd_le.trans hresult.endTupleIdx_le)
  obtain ⟨memory', hcopy, happended'⟩ := exists_copyTuple happended hdisjoint hbytes
    hsource.keyBlocks_eq (hsource.curTuplePtr_eq_tuplePtr hi) hi' hresult.keyBlocks_eq
    (hresult.curTuplePtr_eq_tuplePtr hroom) hroom'
  refine ⟨memory', ?_, happended'⟩
  rw [copyNextTuple, hcopy]
  rfl

/-- A turn copies tuples until one of the two blocks ends. -/
theorem exists_copyTurn {s : CopyState} (hdisjoint : List.Disjoint b.keyBlocks result.keyBlocks)
    (hbytes : b.numBytesPerTuple = result.numBytesPerTuple)
    (hsource : s.blockToCopy.At b i e) (hresult : s.result.At result (start + out.length) last)
    (happended : result.Appended memory₀ s.memory start out) :
    ∃ s' n, n = min (s.blockToCopy.blockEnd - i) (s.result.blockEnd - (start + out.length)) ∧
      copyTurn result.numBytesPerTuple s = .ok s' ∧ s'.blockToCopy.Reads b (i + n) e ∧
      s'.result.Reads result (start + out.length + n) last ∧
      result.Appended memory₀ s'.memory start (out ++ b.segment memory₀ i (i + n)) := by
  have hbytesLeft : min s.blockToCopy.getNumBytesLeftInCurBlock s.result.getNumBytesLeftInCurBlock =
      result.numBytesPerTuple *
        min (s.blockToCopy.blockEnd - i) (s.result.blockEnd - (start + out.length)) := by
    rw [hsource.getNumBytesLeftInCurBlock_eq, hresult.getNumBytesLeftInCurBlock_eq, hbytes,
      Nat.mul_min_mul_left]
  generalize hn : min (s.blockToCopy.blockEnd - i) (s.result.blockEnd - (start + out.length)) = n
    at hbytesLeft
  obtain ⟨s₁, hloop, hat, hend, hat', hend', happended'⟩ := @exists_foldlM_range_eq_ok Fault
    CopyState (copyNextTuple result.numBytesPerTuple) s n
    (fun done s₁ ↦ s₁.blockToCopy.At b (i + done) e ∧
      s₁.blockToCopy.blockEnd = s.blockToCopy.blockEnd ∧
      s₁.result.At result (start + out.length + done) last ∧
      s₁.result.blockEnd = s.result.blockEnd ∧
      result.Appended memory₀ s₁.memory start (out ++ b.segment memory₀ i (i + done)))
    (by
      rw [Nat.add_zero, Nat.add_zero, MergedKeyBlocks.segment_of_le le_rfl, List.append_nil]
      exact ⟨hsource, rfl, hresult, rfl, happended⟩)
    (by
      rintro done hlt s₁ ⟨hat, hend, hat', hend', happended'⟩
      have hlength : (out ++ b.segment memory₀ i (i + done)).length = out.length + done := by
        rw [List.length_append, MergedKeyBlocks.length_segment, Nat.add_sub_cancel_left]
      rw [Nat.add_assoc, ← hlength] at hat'
      have hi : i + done < s₁.blockToCopy.blockEnd := by omega
      have hroom : start + (out ++ b.segment memory₀ i (i + done)).length < s₁.result.blockEnd := by
        omega
      obtain ⟨memory', hcopy, happended''⟩ :=
        exists_copyNextTuple hdisjoint hbytes hat hi hat' hroom happended'
      have hnext := hat'.advance hroom
      rw [hlength, ← Nat.add_assoc, Nat.add_assoc _ done] at hnext
      rw [List.append_assoc, MergedKeyBlocks.segment_concat] at happended''
      refine ⟨_, hcopy, ?_, hend, hnext, hend', happended''⟩
      rw [← hbytes]
      exact hat.advance hi)
  obtain ⟨p', hp, hreads⟩ := hat.exists_updateTuplePtrIfNecessary
  obtain ⟨q', hq, hreads'⟩ := hat'.exists_updateTuplePtrIfNecessary
  refine ⟨⟨s₁.memory, p', q'⟩, n, rfl, ?_, hreads, hreads', happended'⟩
  rw [copyTurn, hbytesLeft, numTurns_mul result.numBytesPerTuple_pos, hloop, ok_bind, hp, ok_bind,
    hq]
  rfl

/-- What the loop that copies the rest of a range may start from: the range may also be empty and
its pointer not have been moved on. -/
def CanCopy (p : BlockPtrInfo) (b : MergedKeyBlocks) (i e k last : ℕ) : Prop :=
  p.Reads b i e ∨ i = e ∧ (p.At b e e ∧ k < last ∨ p.endBlockIdx < p.curBlockIdx)

/-- In a turn of the loop there is room for the rest of the range. -/
theorem CanCopy.at (h : CanCopy p b i e k last) (hcond : p.curBlockIdx ≤ p.endBlockIdx)
    (hroom : k + (e - i) ≤ last) : p.At b i e ∧ k < last ∧ (i = e ∨ i < p.blockEnd) := by
  rcases h with hreads | ⟨rfl, ⟨hat, hlt⟩ | hlt⟩
  · have hi : i ≠ e := hreads.curBlockIdx_le_iff.mp hcond
    obtain ⟨hat, hlt⟩ := hreads.at_of_ne hi
    have hle := hat.le_endTupleIdx
    exact ⟨hat, by omega, Or.inr hlt⟩
  · exact ⟨hat, hlt, Or.inl rfl⟩
  · exact absurd hcond (Nat.not_le.mpr hlt)

theorem CanCopy.eq_of_not_le (h : CanCopy p b i e k last)
    (hcond : ¬ p.curBlockIdx ≤ p.endBlockIdx) : i = e := by
  rcases h with hreads | ⟨rfl, -⟩
  · exact not_not.mp (mt hreads.curBlockIdx_le_iff.mpr hcond)
  · rfl

theorem exists_copyRemainingBlockDataToResult {s : CopyState}
    (hdisjoint : List.Disjoint b.keyBlocks result.keyBlocks)
    (hbytes : b.numBytesPerTuple = result.numBytesPerTuple) (hle : i ≤ e)
    (hsource : CanCopy s.blockToCopy b i e (start + out.length) last)
    (hresult : s.result.Reads result (start + out.length) last)
    (hroom : start + out.length + (e - i) ≤ last)
    (happended : result.Appended memory₀ s.memory start out) :
    ∃ s', copyRemainingBlockDataToResult result.numBytesPerTuple s = .ok s' ∧
      s'.result.Reads result (start + out.length + (e - i)) last ∧
      result.Appended memory₀ s'.memory start (out ++ b.segment memory₀ i e) := by
  have hfuel : e - i + 1 ≤ s.blockToCopy.endTupleIdx + s.blockToCopy.endBlockIdx + 1 := by
    rcases hsource with (⟨hat, -⟩ | ⟨rfl, -⟩) | ⟨rfl, -⟩
    · rw [hat.endTupleIdx_eq]
      omega
    · omega
    · omega
  obtain ⟨n, s', hloop, ⟨j, hij, hje, hsource', hresult', happended', -⟩, hend⟩ :=
    @exists_whileLoop_eq_ok Fault CopyState
      (fun s ↦ s.blockToCopy.curBlockIdx ≤ s.blockToCopy.endBlockIdx)
      (copyTurn result.numBytesPerTuple) .invalidAccess s _ (e - i + 1)
      (fun n s₁ ↦ ∃ j, i ≤ j ∧ j ≤ e ∧
        CanCopy s₁.blockToCopy b j e (start + out.length + (j - i)) last ∧
        s₁.result.Reads result (start + out.length + (j - i)) last ∧
        result.Appended memory₀ s₁.memory start (out ++ b.segment memory₀ i j) ∧
        (s₁.blockToCopy.Reads b j e ∧ n = e - j ∨ n = e - j + 1))
      (by
        rintro n s₁ ⟨j, hij, hje, hsource, hresult, happended, hn⟩ hcond
        have hlength : (out ++ b.segment memory₀ i j).length = out.length + (j - i) := by
          rw [List.length_append, MergedKeyBlocks.length_segment]
        obtain ⟨hat, hlt, hblock⟩ := hsource.at (of_decide_eq_true hcond) (by omega)
        obtain ⟨hat', hlt'⟩ := hresult.at_of_ne hlt.ne
        rw [Nat.add_assoc, ← hlength] at hat' hlt'
        obtain ⟨s₂, m, hm, hturn, hreads, hreads', happended₂⟩ :=
          exists_copyTurn hdisjoint hbytes hat hat' happended
        have hle' : j + m ≤ e := by
          have hblockEnd := hat.blockEnd_le
          have hstart := hat.le_blockEnd
          omega
        have hnext : start + (out ++ b.segment memory₀ i j).length + m =
            start + out.length + (j + m - i) := by omega
        rw [hnext] at hreads'
        rw [List.append_assoc, MergedKeyBlocks.segment_append hij (Nat.le_add_right j m)]
          at happended₂
        refine ⟨e - (j + m), s₂, ?_, hturn, j + m, by omega, hle', Or.inl hreads, hreads',
          happended₂, Or.inl ⟨hreads, rfl⟩⟩
        rcases hn with ⟨hsource, rfl⟩ | rfl
        · have hne : j ≠ e := hsource.curBlockIdx_le_iff.mp (of_decide_eq_true hcond)
          have hpos := hblock.resolve_left hne
          omega
        · omega)
      ⟨i, le_rfl, hle, by rwa [Nat.sub_self], by rwa [Nat.sub_self], by
        rwa [MergedKeyBlocks.segment_of_le le_rfl, List.append_nil], Or.inr rfl⟩ hfuel
  obtain rfl : j = e := hsource'.eq_of_not_le (of_decide_eq_false hend)
  exact ⟨s', hloop, hresult', happended'⟩

end Copy

end Graphflow.OrderBy
