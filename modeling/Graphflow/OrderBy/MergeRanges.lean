import Graphflow.OrderBy.MergeMorsel

/-!
# What the merge of a morsel writes

The tuples of the two ranges, merged.
-/

namespace Graphflow.OrderBy

open Lib Storage

/-- The three blocks of a task are of the same kind, and the result block is a new one with room for
all tuples. -/
structure KeyBlockMergeTask.WellFormed {V : Type} (merger : KeyBlockMerger V)
    (task : KeyBlockMergeTask) : Prop where
  numBytesPerTuple_left : task.leftKeyBlock.numBytesPerTuple = merger.numBytesPerTuple
  numBytesPerTuple_right : task.rightKeyBlock.numBytesPerTuple = merger.numBytesPerTuple
  numBytesPerTuple_result : task.resultKeyBlock.numBytesPerTuple = merger.numBytesPerTuple
  numTuples_result : task.resultKeyBlock.numTuples =
    task.leftKeyBlock.numTuples + task.rightKeyBlock.numTuples
  disjoint_left : List.Disjoint task.leftKeyBlock.keyBlocks task.resultKeyBlock.keyBlocks
  disjoint_right : List.Disjoint task.rightKeyBlock.keyBlocks task.resultKeyBlock.keyBlocks

/-- The comparison of any two of the tuples is that of their ranks. -/
def KeyBlockMerger.OrdersBy {V α : Type} [LinearOrder α] (merger : KeyBlockMerger V)
    (rank : List UInt8 → α) (tuples : List (List UInt8)) : Prop :=
  ∀ l ∈ tuples, ∀ r ∈ tuples, merger.compareTuplePtr l r = .ok (decide (rank r < rank l))

/-- The left tuple does not come after the right one. -/
def notAfter {α : Type} [LinearOrder α] (rank : List UInt8 → α) (l r : List UInt8) : Bool :=
  rank l ≤ rank r

section Merge

variable {V α : Type} [LinearOrder α] {merger : KeyBlockMerger V} {rank : List UInt8 → α}
  {task : KeyBlockMergeTask} {morsel : KeyBlockMergeMorsel} {memory₀ memory : KeyBlockMemory}
  {i j : ℕ}

/-- The tuples before the index `i` of the left range and `j` of the right one are merged. -/
structure Merged (rank : List UInt8 → α) (task : KeyBlockMergeTask) (morsel : KeyBlockMergeMorsel)
    (memory₀ memory : KeyBlockMemory) (i j : ℕ) : Prop where
  le_left : morsel.leftKeyBlockStartIdx ≤ i
  left_le : i ≤ morsel.leftKeyBlockEndIdx
  le_right : morsel.rightKeyBlockStartIdx ≤ j
  right_le : j ≤ morsel.rightKeyBlockEndIdx
  appended : ∃ out : List (List UInt8),
    morsel.leftKeyBlockStartIdx + morsel.rightKeyBlockStartIdx + out.length = i + j ∧
    task.resultKeyBlock.Appended memory₀ memory
      (morsel.leftKeyBlockStartIdx + morsel.rightKeyBlockStartIdx) out ∧
    (task.leftKeyBlock.segment memory₀ morsel.leftKeyBlockStartIdx morsel.leftKeyBlockEndIdx).merge
        (task.rightKeyBlock.segment memory₀ morsel.rightKeyBlockStartIdx
          morsel.rightKeyBlockEndIdx) (notAfter rank) =
      out ++ (task.leftKeyBlock.segment memory₀ i morsel.leftKeyBlockEndIdx).merge
        (task.rightKeyBlock.segment memory₀ j morsel.rightKeyBlockEndIdx) (notAfter rank)

theorem Merged.tupleAt_left (h : Merged rank task morsel memory₀ memory i j)
    (hwell : task.WellFormed merger) {k : ℕ} (hk : k < task.leftKeyBlock.numTuples) :
    task.leftKeyBlock.tupleAt memory k = task.leftKeyBlock.tupleAt memory₀ k := by
  obtain ⟨out, -, happended, -⟩ := h.appended
  exact MergedKeyBlocks.tupleAt_congr hk fun keyBlock hmem ↦
    happended.frame keyBlock (hwell.disjoint_left hmem)

theorem Merged.tupleAt_right (h : Merged rank task morsel memory₀ memory i j)
    (hwell : task.WellFormed merger) {k : ℕ} (hk : k < task.rightKeyBlock.numTuples) :
    task.rightKeyBlock.tupleAt memory k = task.rightKeyBlock.tupleAt memory₀ k := by
  obtain ⟨out, -, happended, -⟩ := h.appended
  exact MergedKeyBlocks.tupleAt_congr hk fun keyBlock hmem ↦
    happended.frame keyBlock (hwell.disjoint_right hmem)

/-- The next tuple of the left range follows. -/
theorem Merged.exists_copyLeft (h : Merged rank task morsel memory₀ memory i j)
    (hwell : task.WellFormed merger) {p q : BlockPtrInfo}
    (hleft : p.At task.leftKeyBlock i morsel.leftKeyBlockEndIdx) (hi : i < p.blockEnd)
    (hresult : q.At task.resultKeyBlock (i + j)
      (morsel.leftKeyBlockEndIdx + morsel.rightKeyBlockEndIdx)) (hroom : i + j < q.blockEnd)
    (hfirst : j < morsel.rightKeyBlockEndIdx → notAfter rank
      (task.leftKeyBlock.tupleAt memory₀ i) (task.rightKeyBlock.tupleAt memory₀ j) = true) :
    ∃ memory', copyTuple merger.numBytesPerTuple memory p q = .ok memory' ∧
      Merged rank task morsel memory₀ memory' (i + 1) j := by
  obtain ⟨out, hlength, happended, hmerge⟩ := h.appended
  rw [← hlength] at hresult hroom
  have hi' : i < morsel.leftKeyBlockEndIdx := lt_of_lt_of_le hi hleft.blockEnd_le
  obtain ⟨memory', hcopy, happended'⟩ := exists_copyTuple happended hwell.disjoint_left
    (hwell.numBytesPerTuple_left.trans hwell.numBytesPerTuple_result.symm) hleft.keyBlocks_eq
    (hleft.curTuplePtr_eq_tuplePtr hi) (lt_of_lt_of_le hi' hleft.endTupleIdx_le)
    hresult.keyBlocks_eq (hresult.curTuplePtr_eq_tuplePtr hroom)
    (lt_of_lt_of_le hroom (hresult.blockEnd_le.trans hresult.endTupleIdx_le))
  rw [hwell.numBytesPerTuple_result] at hcopy
  refine ⟨memory', hcopy, Nat.le_succ_of_le h.le_left, hi', h.le_right, h.right_le, _, ?_,
    happended', ?_⟩
  · rw [List.length_append, List.length_singleton]
    omega
  · rw [hmerge, MergedKeyBlocks.segment_of_lt hi', List.append_assoc, List.singleton_append]
    congr 1
    by_cases hj : j < morsel.rightKeyBlockEndIdx
    · rw [MergedKeyBlocks.segment_of_lt hj, merge_cons_of_le (hfirst hj)]
    · rw [MergedKeyBlocks.segment_of_le (Nat.not_lt.mp hj), List.merge_right, List.merge_right]

/-- The next tuple of the right range comes before that of the left one. -/
theorem Merged.exists_copyRight (h : Merged rank task morsel memory₀ memory i j)
    (hwell : task.WellFormed merger) {p q : BlockPtrInfo}
    (hright : p.At task.rightKeyBlock j morsel.rightKeyBlockEndIdx) (hj : j < p.blockEnd)
    (hresult : q.At task.resultKeyBlock (i + j)
      (morsel.leftKeyBlockEndIdx + morsel.rightKeyBlockEndIdx)) (hroom : i + j < q.blockEnd)
    (hi : i < morsel.leftKeyBlockEndIdx) (hfirst : notAfter rank
      (task.leftKeyBlock.tupleAt memory₀ i) (task.rightKeyBlock.tupleAt memory₀ j) = false) :
    ∃ memory', copyTuple merger.numBytesPerTuple memory p q = .ok memory' ∧
      Merged rank task morsel memory₀ memory' i (j + 1) := by
  obtain ⟨out, hlength, happended, hmerge⟩ := h.appended
  rw [← hlength] at hresult hroom
  have hj' : j < morsel.rightKeyBlockEndIdx := lt_of_lt_of_le hj hright.blockEnd_le
  obtain ⟨memory', hcopy, happended'⟩ := exists_copyTuple happended hwell.disjoint_right
    (hwell.numBytesPerTuple_right.trans hwell.numBytesPerTuple_result.symm) hright.keyBlocks_eq
    (hright.curTuplePtr_eq_tuplePtr hj) (lt_of_lt_of_le hj' hright.endTupleIdx_le)
    hresult.keyBlocks_eq (hresult.curTuplePtr_eq_tuplePtr hroom)
    (lt_of_lt_of_le hroom (hresult.blockEnd_le.trans hresult.endTupleIdx_le))
  rw [hwell.numBytesPerTuple_result] at hcopy
  refine ⟨memory', hcopy, h.le_left, h.left_le, Nat.le_succ_of_le h.le_right, hj', _, ?_,
    happended', ?_⟩
  · rw [List.length_append, List.length_singleton]
    omega
  · rw [hmerge, MergedKeyBlocks.segment_of_lt hi, MergedKeyBlocks.segment_of_lt hj',
      merge_cons_of_not_le hfirst, List.append_assoc, List.singleton_append]

/-! ## The loop -/

/-- The range of the right block goes on with the tuple `j`, or it is an empty one behind a full
block.  The inner loop may take `n` tuples from the current block. -/
def RightAt (p : BlockPtrInfo) (b : MergedKeyBlocks) (j e n : ℕ) : Prop :=
  p.At b j e ∧ n = p.blockEnd - j ∨ j = e ∧ p.Beyond b e ∧ n = b.numTuplesPerBlock

/-- The three pointers, in the middle of their blocks or at the end of one. -/
structure MergeAt (rank : List UInt8 → α) (task : KeyBlockMergeTask) (morsel : KeyBlockMergeMorsel)
    (memory₀ : KeyBlockMemory) (i j n : ℕ) (s : MergeState) : Prop where
  left : s.left.At task.leftKeyBlock i morsel.leftKeyBlockEndIdx
  right : RightAt s.right task.rightKeyBlock j morsel.rightKeyBlockEndIdx n
  result : s.result.At task.resultKeyBlock (i + j)
    (morsel.leftKeyBlockEndIdx + morsel.rightKeyBlockEndIdx)
  merged : Merged rank task morsel memory₀ s.memory i j

/-- What the comparison of a left tuple with a right one says. -/
structure Comparable (merger : KeyBlockMerger V) (rank : List UInt8 → α) (task : KeyBlockMergeTask)
    (morsel : KeyBlockMergeMorsel) (memory₀ : KeyBlockMemory) : Prop where
  wellFormed : task.WellFormed merger
  compareTuplePtr_eq : ∀ i < task.leftKeyBlock.numTuples, ∀ j < task.rightKeyBlock.numTuples,
    merger.compareTuplePtr (task.leftKeyBlock.tupleAt memory₀ i)
        (task.rightKeyBlock.tupleAt memory₀ j) =
      .ok (!notAfter rank (task.leftKeyBlock.tupleAt memory₀ i)
        (task.rightKeyBlock.tupleAt memory₀ j))
  notAfter_end : ∀ i < morsel.leftKeyBlockEndIdx,
    morsel.rightKeyBlockEndIdx < task.rightKeyBlock.numTuples →
    notAfter rank (task.leftKeyBlock.tupleAt memory₀ i)
      (task.rightKeyBlock.tupleAt memory₀ morsel.rightKeyBlockEndIdx) = true

section Right

variable {p : BlockPtrInfo} {b : MergedKeyBlocks} {e n : ℕ}

theorem RightAt.reads (h : RightAt p b j e n) (hn : 0 < n) :
    p.keyBlocks = b ∧ p.curTuplePtr = b.tuplePtr j ∧ j < b.numTuples := by
  rcases h with ⟨hat, rfl⟩ | ⟨rfl, hbeyond, rfl⟩
  · have hlt : j < p.blockEnd := Nat.lt_of_sub_pos hn
    exact ⟨hat.keyBlocks_eq, hat.curTuplePtr_eq_tuplePtr hlt,
      lt_of_lt_of_le hlt (hat.blockEnd_le.trans hat.endTupleIdx_le)⟩
  · exact ⟨hbeyond.keyBlocks_eq, hbeyond.curTuplePtr_eq, hbeyond.endTupleIdx_lt⟩

theorem RightAt.getNumBytesLeftInCurBlock_eq (h : RightAt p b j e n) :
    p.getNumBytesLeftInCurBlock = b.numBytesPerTuple * n := by
  rcases h with ⟨hat, rfl⟩ | ⟨rfl, hbeyond, rfl⟩
  · exact hat.getNumBytesLeftInCurBlock_eq
  · exact hbeyond.numBytesLeft_eq

end Right

/-- A turn of the inner loop. -/
theorem exists_mergeNextTuple {s : MergeState} {n : ℕ}
    (hcompare : Comparable merger rank task morsel memory₀)
    (h : MergeAt rank task morsel memory₀ i j n s) (hi : i < s.left.blockEnd) (hn : 0 < n)
    (hroom : i + j < s.result.blockEnd) :
    ∃ i' j' n' s', merger.mergeNextTuple s = .ok s' ∧
      MergeAt rank task morsel memory₀ i' j' n' s' ∧ i' + j' = i + j + 1 ∧ n' + j' = n + j ∧
      i ≤ i' ∧ j ≤ j' ∧ s'.left.blockEnd = s.left.blockEnd ∧
      s'.result.blockEnd = s.result.blockEnd := by
  have hwell := hcompare.wellFormed
  have hi' : i < morsel.leftKeyBlockEndIdx := lt_of_lt_of_le hi h.left.blockEnd_le
  have hiL : i < task.leftKeyBlock.numTuples := lt_of_lt_of_le hi' h.left.endTupleIdx_le
  obtain ⟨hkeyBlocks, hptr, hjR⟩ := h.right.reads hn
  have hleft : s.left.keyBlocks.readTuple s.memory s.left.curTuplePtr merger.numBytesPerTuple =
      .ok (task.leftKeyBlock.tupleAt memory₀ i) := by
    rw [h.left.keyBlocks_eq, h.left.curTuplePtr_eq_tuplePtr hi, ← hwell.numBytesPerTuple_left,
      MergedKeyBlocks.readTuple_tuplePtr hiL, h.merged.tupleAt_left hwell hiL]
  have hright : s.right.keyBlocks.readTuple s.memory s.right.curTuplePtr merger.numBytesPerTuple =
      .ok (task.rightKeyBlock.tupleAt memory₀ j) := by
    rw [hkeyBlocks, hptr, ← hwell.numBytesPerTuple_right, MergedKeyBlocks.readTuple_tuplePtr hjR,
      h.merged.tupleAt_right hwell hjR]
  have hresult := h.result.advance hroom
  rw [hwell.numBytesPerTuple_result] at hresult
  cases hfirst : notAfter rank (task.leftKeyBlock.tupleAt memory₀ i)
    (task.rightKeyBlock.tupleAt memory₀ j) with
  | true =>
      obtain ⟨memory', hcopy, hmerged⟩ := h.merged.exists_copyLeft hwell h.left hi h.result hroom
        fun _ ↦ hfirst
      have hnext := h.left.advance hi
      rw [hwell.numBytesPerTuple_left] at hnext
      refine ⟨i + 1, j, n, { s with
        memory := memory'
        left := s.left.advance merger.numBytesPerTuple
        result := s.result.advance merger.numBytesPerTuple },
        ?_, ⟨hnext, h.right, ?_, hmerged⟩, by omega, rfl, Nat.le_succ i, le_rfl, rfl, rfl⟩
      · rw [KeyBlockMerger.mergeNextTuple, hleft, ok_bind, hright, ok_bind,
          hcompare.compareTuplePtr_eq i hiL j hjR, hfirst, hcopy]
        rfl
      · rwa [Nat.add_right_comm]
  | false =>
      obtain ⟨hat, rfl⟩ :
          s.right.At task.rightKeyBlock j morsel.rightKeyBlockEndIdx ∧
            n = s.right.blockEnd - j := by
        rcases h.right with hat | ⟨rfl, -⟩
        · exact hat
        · exact absurd (hcompare.notAfter_end i hi' hjR) (Bool.eq_false_iff.mp hfirst)
      have hj : j < s.right.blockEnd := Nat.lt_of_sub_pos hn
      obtain ⟨memory', hcopy, hmerged⟩ :=
        h.merged.exists_copyRight hwell hat hj h.result hroom hi' hfirst
      have hnext := hat.advance hj
      rw [hwell.numBytesPerTuple_right] at hnext
      refine ⟨i, j + 1, s.right.blockEnd - (j + 1), { s with
        memory := memory'
        right := s.right.advance merger.numBytesPerTuple
        result := s.result.advance merger.numBytesPerTuple },
        ?_, ⟨h.left, Or.inl ⟨hnext, rfl⟩, hresult, hmerged⟩, rfl, by omega, le_rfl, Nat.le_succ j,
        rfl, rfl⟩
      rw [KeyBlockMerger.mergeNextTuple, hleft, ok_bind, hright, ok_bind,
        hcompare.compareTuplePtr_eq i hiL j hjR, hfirst, hcopy]
      rfl

/-- The three pointers, moved on to the next block where they were at the end of one. -/
structure MergeReads (rank : List UInt8 → α) (task : KeyBlockMergeTask)
    (morsel : KeyBlockMergeMorsel) (memory₀ : KeyBlockMemory) (i j : ℕ) (s : MergeState) :
    Prop where
  left : s.left.Reads task.leftKeyBlock i morsel.leftKeyBlockEndIdx
  right : s.right.Reads task.rightKeyBlock j morsel.rightKeyBlockEndIdx ∨
    j = morsel.rightKeyBlockEndIdx ∧ (s.right.At task.rightKeyBlock j j ∧
      i < morsel.leftKeyBlockEndIdx ∨ s.right.Beyond task.rightKeyBlock j)
  result : s.result.Reads task.resultKeyBlock (i + j)
    (morsel.leftKeyBlockEndIdx + morsel.rightKeyBlockEndIdx)
  merged : Merged rank task morsel memory₀ s.memory i j

theorem MergeAt.exists_update {s : MergeState} {n : ℕ}
    (h : MergeAt rank task morsel memory₀ i j n s) :
    ∃ left right result, s.left.updateTuplePtrIfNecessary = .ok left ∧
      s.right.updateTuplePtrIfNecessary = .ok right ∧
      s.result.updateTuplePtrIfNecessary = .ok result ∧
      MergeReads rank task morsel memory₀ i j ⟨s.memory, left, right, result⟩ := by
  obtain ⟨left, hleft, hreads⟩ := h.left.exists_updateTuplePtrIfNecessary
  obtain ⟨result, hresult, hreads'⟩ := h.result.exists_updateTuplePtrIfNecessary
  rcases h.right with ⟨hat, -⟩ | ⟨rfl, hbeyond, -⟩
  · obtain ⟨right, hright, hreads''⟩ := hat.exists_updateTuplePtrIfNecessary
    exact ⟨left, right, result, hleft, hright, hresult, hreads, Or.inl hreads'', hreads', h.merged⟩
  · exact ⟨left, s.right, result, hleft, hbeyond.updateTuplePtrIfNecessary_eq, hresult, hreads,
      Or.inr ⟨rfl, Or.inr hbeyond⟩, hreads', h.merged⟩

/-- While both ranges go on, the pointers are in the middle of their blocks. -/
theorem MergeReads.exists_mergeAt {s : MergeState} (h : MergeReads rank task morsel memory₀ i j s)
    (hleft : s.left.hasMoreTuplesToRead = true) (hright : s.right.hasMoreTuplesToRead = true) :
    ∃ n, MergeAt rank task morsel memory₀ i j n s ∧ i < s.left.blockEnd ∧ 0 < n ∧
      i + j < s.result.blockEnd := by
  have hi := h.left.hasMoreTuplesToRead_iff.mp hleft
  obtain ⟨hat, hlt⟩ := h.left.at_of_ne hi
  have hiL := h.merged.left_le
  have hjR := h.merged.right_le
  obtain ⟨hat', hlt'⟩ := h.result.at_of_ne (by omega)
  rcases h.right with hreads | ⟨rfl, ⟨hend, -⟩ | hbeyond⟩
  · obtain ⟨hat'', hlt''⟩ := hreads.at_of_ne (hreads.hasMoreTuplesToRead_iff.mp hright)
    exact ⟨_, ⟨hat, Or.inl ⟨hat'', rfl⟩, hat', h.merged⟩, hlt, Nat.sub_pos_of_lt hlt'', hlt'⟩
  · exact absurd rfl (hend.hasMoreTuplesToRead_iff.mp hright)
  · exact ⟨_, ⟨hat, Or.inr ⟨rfl, hbeyond, rfl⟩, hat', h.merged⟩, hlt,
      task.rightKeyBlock.numTuplesPerBlock_pos, hlt'⟩

/-- A turn of the outer loop merges a tuple or more. -/
theorem exists_mergeTurn {s : MergeState} (hcompare : Comparable merger rank task morsel memory₀)
    (h : MergeReads rank task morsel memory₀ i j s) (hleft : s.left.hasMoreTuplesToRead = true)
    (hright : s.right.hasMoreTuplesToRead = true) :
    ∃ i' j' s', merger.mergeTurn s = .ok s' ∧ MergeReads rank task morsel memory₀ i' j' s' ∧
      i + j < i' + j' := by
  have hwell := hcompare.wellFormed
  obtain ⟨r, hat, hi, hr, hroom⟩ := h.exists_mergeAt hleft hright
  have hbytesLeft : min (min s.left.getNumBytesLeftInCurBlock s.right.getNumBytesLeftInCurBlock)
      s.result.getNumBytesLeftInCurBlock = merger.numBytesPerTuple *
        min (min (s.left.blockEnd - i) r) (s.result.blockEnd - (i + j)) := by
    rw [hat.left.getNumBytesLeftInCurBlock_eq, hat.right.getNumBytesLeftInCurBlock_eq,
      hat.result.getNumBytesLeftInCurBlock_eq, hwell.numBytesPerTuple_left,
      hwell.numBytesPerTuple_right, hwell.numBytesPerTuple_result, Nat.mul_min_mul_left,
      Nat.mul_min_mul_left]
  generalize hn : min (min (s.left.blockEnd - i) r) (s.result.blockEnd - (i + j)) = n at hbytesLeft
  have hpos : 0 < merger.numBytesPerTuple := by
    rw [← hwell.numBytesPerTuple_left]
    exact task.leftKeyBlock.numBytesPerTuple_pos
  obtain ⟨s₁, hloop, i', j', r', hat', hsum, -⟩ := @exists_foldlM_range_eq_ok Fault
    MergeState merger.mergeNextTuple s n
    (fun done s₁ ↦ ∃ i' j' r', MergeAt rank task morsel memory₀ i' j' r' s₁ ∧
      i' + j' = i + j + done ∧ r' + j' = r + j ∧ i ≤ i' ∧ j ≤ j' ∧
      s₁.left.blockEnd = s.left.blockEnd ∧ s₁.result.blockEnd = s.result.blockEnd)
    ⟨i, j, r, hat, rfl, rfl, le_rfl, le_rfl, rfl, rfl⟩
    (by
      rintro done hlt s₁ ⟨i', j', r', hat', hsum, hr', hi', hj', hleft', hresult'⟩
      obtain ⟨i'', j'', r'', s₂, hturn, hat₂, hsum₂, hr₂, hi₂, hj₂, hleft₂, hresult₂⟩ :=
        exists_mergeNextTuple hcompare hat' (by omega) (by omega) (by omega)
      exact ⟨s₂, hturn, i'', j'', r'', hat₂, by omega, by omega, by omega, by omega,
        hleft₂.trans hleft', hresult₂.trans hresult'⟩)
  obtain ⟨left, right, result, hl, hr₁, hs, hreads⟩ := hat'.exists_update
  refine ⟨i', j', ⟨s₁.memory, left, right, result⟩, ?_, hreads, by omega⟩
  rw [KeyBlockMerger.mergeTurn, hbytesLeft, numTurns_mul hpos, hloop, ok_bind, hl, ok_bind, hr₁,
    ok_bind, hs]
  rfl

/-! ## The morsel -/

/-- The ranges of a morsel that a task gives out while there are tuples in the right block. -/
structure KeyBlockMergeMorsel.Within (morsel : KeyBlockMergeMorsel) (task : KeyBlockMergeTask) :
    Prop where
  left_lt : morsel.leftKeyBlockStartIdx < morsel.leftKeyBlockEndIdx
  left_le : morsel.leftKeyBlockEndIdx ≤ task.leftKeyBlock.numTuples
  right_le : morsel.rightKeyBlockStartIdx ≤ morsel.rightKeyBlockEndIdx
  right_le_numTuples : morsel.rightKeyBlockEndIdx ≤ task.rightKeyBlock.numTuples
  start_lt : morsel.rightKeyBlockStartIdx < task.rightKeyBlock.numTuples

def KeyBlockMergeMorsel.merged (morsel : KeyBlockMergeMorsel) (rank : List UInt8 → α)
    (task : KeyBlockMergeTask) (memory : KeyBlockMemory) : List (List UInt8) :=
  (task.leftKeyBlock.segment memory morsel.leftKeyBlockStartIdx morsel.leftKeyBlockEndIdx).merge
    (task.rightKeyBlock.segment memory morsel.rightKeyBlockStartIdx morsel.rightKeyBlockEndIdx)
    (notAfter rank)

theorem Merged.start (hwithin : morsel.Within task) (rank : List UInt8 → α) :
    Merged rank task morsel memory₀ memory₀ morsel.leftKeyBlockStartIdx
      morsel.rightKeyBlockStartIdx where
  le_left := le_rfl
  left_le := hwithin.left_lt.le
  le_right := le_rfl
  right_le := hwithin.right_le
  appended := ⟨[], rfl, .nil _ _ _, rfl⟩

/-- The pointers that the morsel starts with. -/
theorem exists_create_mergeReads (hwell : task.WellFormed merger) (hwithin : morsel.Within task)
    (rank : List UInt8 → α) (memory₀ : KeyBlockMemory) :
    ∃ left right result,
      BlockPtrInfo.create morsel.leftKeyBlockStartIdx morsel.leftKeyBlockEndIdx
        task.leftKeyBlock = .ok left ∧
      BlockPtrInfo.create morsel.rightKeyBlockStartIdx morsel.rightKeyBlockEndIdx
        task.rightKeyBlock = .ok right ∧
      BlockPtrInfo.create (morsel.leftKeyBlockStartIdx + morsel.rightKeyBlockStartIdx)
        (morsel.leftKeyBlockEndIdx + morsel.rightKeyBlockEndIdx) task.resultKeyBlock =
          .ok result ∧
      MergeReads rank task morsel memory₀ morsel.leftKeyBlockStartIdx
        morsel.rightKeyBlockStartIdx ⟨memory₀, left, right, result⟩ := by
  obtain ⟨hls, hle, hrs, hre, hlt⟩ := hwithin
  have hnumTuples := hwell.numTuples_result
  obtain ⟨left, hleft, ⟨hatL, hltL⟩ | ⟨heq, -⟩⟩ :=
    BlockPtrInfo.exists_create (lt_of_lt_of_le hls hle) hls.le hle
  on_goal 2 => exact absurd heq hls.ne
  obtain ⟨result, hresult, ⟨hatS, hltS⟩ | ⟨heq, -⟩⟩ :=
    @BlockPtrInfo.exists_create task.resultKeyBlock
      (morsel.leftKeyBlockEndIdx + morsel.rightKeyBlockEndIdx)
      (morsel.leftKeyBlockStartIdx + morsel.rightKeyBlockStartIdx) (by omega) (by omega) (by omega)
  on_goal 2 => omega
  obtain ⟨right, hright, hcase⟩ := BlockPtrInfo.exists_create hlt hrs hre
  refine ⟨left, right, result, hleft, hright, hresult, Or.inl ⟨hatL, hltL hls⟩, ?_,
    Or.inl ⟨hatS, hltS (by omega)⟩, Merged.start ⟨hls, hle, hrs, hre, hlt⟩ rank⟩
  rcases hcase with ⟨hatR, hltR⟩ | ⟨heq, hbeyond⟩
  · rcases hrs.lt_or_eq with hne | heq
    · exact Or.inl (Or.inl ⟨hatR, hltR hne⟩)
    · refine Or.inr ⟨heq, Or.inl ⟨?_, hls⟩⟩
      rw [← heq] at hatR
      rwa [heq] at hatR ⊢
  · refine Or.inr ⟨heq, Or.inr ?_⟩
    rwa [heq]

/-- At the end of the loop one of the two ranges is merged as a whole. -/
theorem MergeReads.eq_of_false {s : MergeState} (h : MergeReads rank task morsel memory₀ i j s)
    (hend : (s.left.hasMoreTuplesToRead && s.right.hasMoreTuplesToRead) = false) :
    i = morsel.leftKeyBlockEndIdx ∨ j = morsel.rightKeyBlockEndIdx := by
  rw [Bool.and_eq_false_iff] at hend
  rcases hend with hleft | hright
  · left
    exact not_not.mp (mt h.left.hasMoreTuplesToRead_iff.mpr (Bool.eq_false_iff.mp hleft))
  · right
    rcases h.right with hreads | ⟨heq, -⟩
    · exact not_not.mp (mt hreads.hasMoreTuplesToRead_iff.mpr (Bool.eq_false_iff.mp hright))
    · exact heq

theorem MergeReads.canCopy_right {s : MergeState}
    (h : MergeReads rank task morsel memory₀ i j s) :
    CanCopy s.right task.rightKeyBlock j morsel.rightKeyBlockEndIdx (i + j)
      (morsel.leftKeyBlockEndIdx + morsel.rightKeyBlockEndIdx) := by
  have hjR := h.merged.right_le
  rcases h.right with hreads | ⟨rfl, ⟨hat, hlt⟩ | hbeyond⟩
  · exact Or.inl hreads
  · exact Or.inr ⟨rfl, Or.inl ⟨hat, by omega⟩⟩
  · exact Or.inr ⟨rfl, Or.inr hbeyond.endBlockIdx_lt⟩

/-- What is left of the two ranges when one of them is merged as a whole. -/
theorem merge_segment_of_eq {e e' : ℕ} (b b' : MergedKeyBlocks) (h : i = e ∨ j = e') :
    (b.segment memory i e).merge (b'.segment memory j e') (notAfter rank) =
      b'.segment memory j e' ++ b.segment memory i e := by
  rcases h with rfl | rfl
  · rw [MergedKeyBlocks.segment_of_le le_rfl, List.nil_merge, List.append_nil]
  · rw [MergedKeyBlocks.segment_of_le (b := b') le_rfl, List.merge_right, List.nil_append]

theorem exists_mergeKeyBlocks (hcompare : Comparable merger rank task morsel memory₀)
    (hwithin : morsel.Within task) :
    ∃ memory', merger.mergeKeyBlocks task morsel memory₀ = .ok memory' ∧
      task.resultKeyBlock.Appended memory₀ memory'
        (morsel.leftKeyBlockStartIdx + morsel.rightKeyBlockStartIdx)
        (morsel.merged rank task memory₀) := by
  have hwell := hcompare.wellFormed
  obtain ⟨left, right, result, hleft, hright, hresult, hreads⟩ :=
    exists_create_mergeReads hwell hwithin rank memory₀
  obtain ⟨n, s, hloop, ⟨i, j, hreads', -⟩, hend⟩ := @exists_whileLoop_eq_ok Fault MergeState
    (fun s ↦ s.left.hasMoreTuplesToRead && s.right.hasMoreTuplesToRead) merger.mergeTurn
    .invalidAccess ⟨memory₀, left, right, result⟩
    (morsel.leftKeyBlockEndIdx + morsel.rightKeyBlockEndIdx) _
    (fun n s ↦ ∃ i j, MergeReads rank task morsel memory₀ i j s ∧
      n = morsel.leftKeyBlockEndIdx + morsel.rightKeyBlockEndIdx - (i + j))
    (by
      rintro n s ⟨i, j, hreads, rfl⟩ hcond
      rw [Bool.and_eq_true] at hcond
      obtain ⟨i', j', s', hturn, hreads', hlt⟩ :=
        exists_mergeTurn hcompare hreads hcond.1 hcond.2
      have hleft := hreads'.merged.left_le
      have hright := hreads'.merged.right_le
      exact ⟨_, s', by omega, hturn, i', j', hreads', rfl⟩)
    ⟨_, _, hreads, rfl⟩ (Nat.sub_le _ _)
  obtain ⟨out, hlength, happended, hmerge⟩ := hreads'.merged.appended
  have hiL := hreads'.merged.left_le
  have hjR := hreads'.merged.right_le
  have hcanCopy := hreads'.canCopy_right
  have hresult' := hreads'.result
  rw [← hlength] at hcanCopy hresult'
  obtain ⟨s₁, hcopyRight, hresult₁, happended₁⟩ :=
    @exists_copyRemainingBlockDataToResult _ _ _ _ _ _ _ _ ⟨s.memory, s.right, s.result⟩
      hwell.disjoint_right (hwell.numBytesPerTuple_right.trans hwell.numBytesPerTuple_result.symm)
      hjR hcanCopy hresult' (by omega) happended
  have hlength₁ : morsel.leftKeyBlockStartIdx + morsel.rightKeyBlockStartIdx +
      (out ++ task.rightKeyBlock.segment memory₀ j morsel.rightKeyBlockEndIdx).length =
        morsel.leftKeyBlockStartIdx + morsel.rightKeyBlockStartIdx + out.length +
          (morsel.rightKeyBlockEndIdx - j) := by
    rw [List.length_append, MergedKeyBlocks.length_segment, Nat.add_assoc, Nat.add_assoc,
      Nat.add_assoc]
  rw [← hlength₁] at hresult₁
  obtain ⟨s₂, hcopyLeft, -, happended₂⟩ :=
    @exists_copyRemainingBlockDataToResult _ _ _ _ _ _ _ _ ⟨s₁.memory, s.left, s₁.result⟩
      hwell.disjoint_left (hwell.numBytesPerTuple_left.trans hwell.numBytesPerTuple_result.symm)
      hiL (Or.inl hreads'.left) hresult₁ (by omega) happended₁
  refine ⟨s₂.memory, ?_, ?_⟩
  · rw [KeyBlockMerger.mergeKeyBlocks, if_neg (not_not_intro (Or.inl hwithin.left_lt)), hleft,
      ok_bind, hright, ok_bind, hresult, ok_bind, hloop, ok_bind, ← hwell.numBytesPerTuple_result,
      hcopyRight, ok_bind, hcopyLeft]
    rfl
  · rw [KeyBlockMergeMorsel.merged, hmerge, merge_segment_of_eq _ _ (hreads'.eq_of_false hend),
      ← List.append_assoc]
    exact happended₂

end Merge

end Graphflow.OrderBy
