import Graphflow.OrderBy.MergeTask

/-!
# The morsels of a task partition the merge

Every index of the two blocks is in one morsel, and the merged morsels one after the other are the
merge of the two blocks.
-/

namespace Graphflow.OrderBy

open Lib Storage

section Partition

variable {V α : Type} [LinearOrder α] {merger : KeyBlockMerger V} {rank : List UInt8 → α}
  {task task' : KeyBlockMergeTask} {memory memory' : KeyBlockMemory}
  {morsel : KeyBlockMergeMorsel} {morsels : List KeyBlockMergeMorsel} {i j : ℕ}

/-- Two sorted blocks of tuples that the merger orders. -/
structure SortedBlocks (merger : KeyBlockMerger V) (rank : List UInt8 → α)
    (task : KeyBlockMergeTask) (memory : KeyBlockMemory) : Prop where
  wellFormed : task.WellFormed merger
  ordersBy : merger.OrdersBy rank
    (task.leftKeyBlock.contents memory ++ task.rightKeyBlock.contents memory)
  sorted_left : (task.leftKeyBlock.contents memory).Pairwise fun l r ↦ rank l ≤ rank r
  sorted_right : (task.rightKeyBlock.contents memory).Pairwise fun l r ↦ rank l ≤ rank r

theorem rank_tupleAt_le {b : MergedKeyBlocks}
    (hsorted : (b.contents memory).Pairwise fun l r ↦ rank l ≤ rank r) (hle : i ≤ j)
    (hj : j < b.numTuples) : rank (b.tupleAt memory i) ≤ rank (b.tupleAt memory j) := by
  rcases hle.lt_or_eq with hlt | rfl
  · have hpair := List.pairwise_iff_getElem.mp hsorted i j
      (by rw [MergedKeyBlocks.length_contents]; omega)
      (by rw [MergedKeyBlocks.length_contents]; exact hj) hlt
    rwa [MergedKeyBlocks.getElem_contents, MergedKeyBlocks.getElem_contents] at hpair
  · exact le_rfl

theorem MergedKeyBlocks.tupleAt_mem_contents {b : MergedKeyBlocks} (hi : i < b.numTuples) :
    b.tupleAt memory i ∈ b.contents memory :=
  List.mem_map_of_mem (List.mem_range.mpr hi)

namespace SortedBlocks

theorem compareTuplePtr_eq (h : SortedBlocks merger rank task memory)
    (hi : i < task.leftKeyBlock.numTuples) (hj : j < task.rightKeyBlock.numTuples) :
    merger.compareTuplePtr (task.leftKeyBlock.tupleAt memory i)
        (task.rightKeyBlock.tupleAt memory j) =
      .ok (!notAfter rank (task.leftKeyBlock.tupleAt memory i)
        (task.rightKeyBlock.tupleAt memory j)) := by
  rw [h.ordersBy _ (List.mem_append_left _ (MergedKeyBlocks.tupleAt_mem_contents hi)) _
    (List.mem_append_right _ (MergedKeyBlocks.tupleAt_mem_contents hj)), notAfter, ← decide_not]
  simp only [not_le]

theorem compareAt_eq (h : SortedBlocks merger rank task memory)
    (hi : i < task.leftKeyBlock.numTuples) (hj : j < task.rightKeyBlock.numTuples) :
    compareAt merger task memory (task.leftKeyBlock.tuplePtr i) (task.rightKeyBlock.tuplePtr j) =
      .ok (!notAfter rank (task.leftKeyBlock.tupleAt memory i)
        (task.rightKeyBlock.tupleAt memory j)) := by
  have hleft := @MergedKeyBlocks.readTuple_tuplePtr task.leftKeyBlock memory i hi
  have hright := @MergedKeyBlocks.readTuple_tuplePtr task.rightKeyBlock memory j hj
  rw [h.wellFormed.numBytesPerTuple_left] at hleft
  rw [h.wellFormed.numBytesPerTuple_right] at hright
  rw [compareAt, hleft, ok_bind, hright, ok_bind, h.compareTuplePtr_eq hi hj]

/-- The blocks stay what they are while morsels are given out. -/
theorem with_next (h : SortedBlocks merger rank task memory) (nextLeft nextRight active : ℕ) :
    SortedBlocks merger rank { task with
      leftKeyBlockNextIdx := nextLeft
      rightKeyBlockNextIdx := nextRight
      activeMorsels := active } memory :=
  { h with wellFormed := { h.wellFormed with } }

end SortedBlocks

/-! ## Cutting the two blocks -/

/-- Nothing before the two indexes belongs behind something after them. -/
def Separated (rank : List UInt8 → α) (left right : MergedKeyBlocks) (memory : KeyBlockMemory)
    (i j : ℕ) : Prop :=
  (∀ a < i, ∀ b, j ≤ b → b < right.numTuples →
    notAfter rank (left.tupleAt memory a) (right.tupleAt memory b) = true) ∧
  ∀ b < j, ∀ a, i ≤ a → a < left.numTuples →
    notAfter rank (left.tupleAt memory a) (right.tupleAt memory b) = false

/-- A morsel that starts at the indexes `i` and `j` and ends with a cut. -/
structure KeyBlockMergeMorsel.Cuts (morsel : KeyBlockMergeMorsel) (rank : List UInt8 → α)
    (left right : MergedKeyBlocks) (memory : KeyBlockMemory) (i j : ℕ) : Prop where
  leftStart_eq : morsel.leftKeyBlockStartIdx = i
  rightStart_eq : morsel.rightKeyBlockStartIdx = j
  left_lt : i < morsel.leftKeyBlockEndIdx
  left_le : morsel.leftKeyBlockEndIdx ≤ left.numTuples
  right_le : j ≤ morsel.rightKeyBlockEndIdx
  right_le_numTuples : morsel.rightKeyBlockEndIdx ≤ right.numTuples
  separated : Separated rank left right memory morsel.leftKeyBlockEndIdx morsel.rightKeyBlockEndIdx

/-- The morsels follow each other, from the indexes `i` and `j` to the indexes `iEnd` and `jEnd`. -/
def Partitions (rank : List UInt8 → α) (left right : MergedKeyBlocks) (memory : KeyBlockMemory)
    (iEnd jEnd : ℕ) : ℕ → ℕ → List KeyBlockMergeMorsel → Prop
  | i, j, [] => i = iEnd ∧ j = jEnd
  | i, j, morsel :: morsels => morsel.Cuts rank left right memory i j ∧
      Partitions rank left right memory iEnd jEnd morsel.leftKeyBlockEndIdx
        morsel.rightKeyBlockEndIdx morsels

def KeyBlockMergeMorsel.leftIdxs (morsel : KeyBlockMergeMorsel) : List ℕ :=
  List.range' morsel.leftKeyBlockStartIdx
    (morsel.leftKeyBlockEndIdx - morsel.leftKeyBlockStartIdx)

def KeyBlockMergeMorsel.rightIdxs (morsel : KeyBlockMergeMorsel) : List ℕ :=
  List.range' morsel.rightKeyBlockStartIdx
    (morsel.rightKeyBlockEndIdx - morsel.rightKeyBlockStartIdx)

theorem separated_zero (rank : List UInt8 → α) (left right : MergedKeyBlocks)
    (memory : KeyBlockMemory) : Separated rank left right memory 0 0 :=
  ⟨fun a ha ↦ absurd ha (Nat.not_lt_zero a), fun b hb ↦ absurd hb (Nat.not_lt_zero b)⟩

theorem separated_numTuples (rank : List UInt8 → α) (left right : MergedKeyBlocks)
    (memory : KeyBlockMemory) :
    Separated rank left right memory left.numTuples right.numTuples :=
  ⟨fun _ _ _ hb hb' ↦ absurd hb' (Nat.not_lt.mpr hb),
    fun _ _ _ ha ha' ↦ absurd ha' (Nat.not_lt.mpr ha)⟩

theorem range'_sub_append {a b c : ℕ} (hab : a ≤ b) (hbc : b ≤ c) :
    List.range' a (b - a) ++ List.range' b (c - b) = List.range' a (c - a) := by
  obtain ⟨m, rfl⟩ := Nat.exists_eq_add_of_le hab
  obtain ⟨n, rfl⟩ := Nat.exists_eq_add_of_le hbc
  rw [Nat.add_sub_cancel_left, Nat.add_sub_cancel_left, Nat.add_assoc, Nat.add_sub_cancel_left,
    List.range'_append_1]

namespace Partitions

variable {left right : MergedKeyBlocks} {iEnd jEnd : ℕ}

theorem le_end (h : Partitions rank left right memory iEnd jEnd i j morsels) :
    i ≤ iEnd ∧ j ≤ jEnd := by
  induction morsels generalizing i j with
  | nil => exact ⟨h.1.le, h.2.le⟩
  | cons morsel morsels ih =>
      obtain ⟨hi, hj⟩ := ih h.2
      exact ⟨h.1.left_lt.le.trans hi, h.1.right_le.trans hj⟩

theorem flatMap_leftIdxs (h : Partitions rank left right memory iEnd jEnd i j morsels) :
    morsels.flatMap KeyBlockMergeMorsel.leftIdxs = List.range' i (iEnd - i) := by
  induction morsels generalizing i j with
  | nil =>
      rw [h.1, Nat.sub_self]
      rfl
  | cons morsel morsels ih =>
      rw [List.flatMap_cons, ih h.2, KeyBlockMergeMorsel.leftIdxs, h.1.leftStart_eq,
        range'_sub_append h.1.left_lt.le h.2.le_end.1]

theorem flatMap_rightIdxs (h : Partitions rank left right memory iEnd jEnd i j morsels) :
    morsels.flatMap KeyBlockMergeMorsel.rightIdxs = List.range' j (jEnd - j) := by
  induction morsels generalizing i j with
  | nil =>
      rw [h.2, Nat.sub_self]
      rfl
  | cons morsel morsels ih =>
      rw [List.flatMap_cons, ih h.2, KeyBlockMergeMorsel.rightIdxs, h.1.rightStart_eq,
        range'_sub_append h.1.right_le h.2.le_end.2]

/-- What is known of each of the morsels. -/
theorem cuts_of_mem (h : Partitions rank left right memory iEnd jEnd i j morsels)
    (hmem : morsel ∈ morsels) :
    i ≤ morsel.leftKeyBlockStartIdx ∧ j ≤ morsel.rightKeyBlockStartIdx ∧
      morsel.leftKeyBlockEndIdx ≤ iEnd ∧ morsel.rightKeyBlockEndIdx ≤ jEnd ∧
      morsel.Cuts rank left right memory morsel.leftKeyBlockStartIdx
        morsel.rightKeyBlockStartIdx := by
  induction morsels generalizing i j with
  | nil => exact absurd hmem List.not_mem_nil
  | cons m morsels ih =>
      obtain ⟨hcuts, hrest⟩ := h
      rcases List.mem_cons.mp hmem with rfl | hmem
      · exact ⟨hcuts.leftStart_eq.ge, hcuts.rightStart_eq.ge, hrest.le_end.1, hrest.le_end.2,
          rfl, rfl, hcuts.leftStart_eq ▸ hcuts.left_lt, hcuts.left_le,
          hcuts.rightStart_eq ▸ hcuts.right_le, hcuts.right_le_numTuples, hcuts.separated⟩
      · obtain ⟨hi, hj, hends⟩ := ih hrest hmem
        exact ⟨hcuts.left_lt.le.trans hi, hcuts.right_le.trans hj, hends⟩

/-- One more morsel. -/
theorem concat (h : Partitions rank left right memory iEnd jEnd i j morsels)
    (hcuts : morsel.Cuts rank left right memory iEnd jEnd) :
    Partitions rank left right memory morsel.leftKeyBlockEndIdx morsel.rightKeyBlockEndIdx i j
      (morsels ++ [morsel]) := by
  induction morsels generalizing i j with
  | nil =>
      obtain ⟨rfl, rfl⟩ := h
      exact ⟨hcuts, rfl, rfl⟩
  | cons m morsels ih => exact ⟨h.1, ih h.2⟩

end Partitions

/-! ## The morsels that a task gives out -/

theorem getMorsel_of_le (hright : task.rightKeyBlock.numTuples ≤ task.rightKeyBlockNextIdx) :
    task.getMorsel merger memory =
      .ok (⟨task.leftKeyBlockNextIdx, task.leftKeyBlock.numTuples, task.rightKeyBlock.numTuples,
        task.rightKeyBlock.numTuples⟩, { task with
          activeMorsels := task.activeMorsels + 1
          leftKeyBlockNextIdx := task.leftKeyBlock.numTuples }) :=
  if_pos hright

theorem getMorsel_of_last (hright : task.rightKeyBlockNextIdx < task.rightKeyBlock.numTuples)
    (hleft : task.leftKeyBlock.numTuples ≤ task.leftKeyBlockNextIdx + batchSize) :
    task.getMorsel merger memory =
      .ok (⟨task.leftKeyBlockNextIdx, task.leftKeyBlock.numTuples, task.rightKeyBlockNextIdx,
        task.rightKeyBlock.numTuples⟩, { task with
          activeMorsels := task.activeMorsels + 1
          leftKeyBlockNextIdx := task.leftKeyBlockNextIdx + batchSize
          rightKeyBlockNextIdx := task.rightKeyBlock.numTuples }) := by
  rw [KeyBlockMergeTask.getMorsel]
  simp only [if_neg (Nat.not_le.mpr hright), if_pos hleft, Nat.min_eq_right hleft, pure_eq_ok]

/-- A batch ends in the middle of the left block. -/
theorem exists_getMorsel (h : SortedBlocks merger rank task memory)
    (hright : task.rightKeyBlockNextIdx < task.rightKeyBlock.numTuples)
    (hleft : task.leftKeyBlockNextIdx + batchSize < task.leftKeyBlock.numTuples) :
    ∃ rightEndIdx, task.rightKeyBlockNextIdx ≤ rightEndIdx ∧
      rightEndIdx ≤ task.rightKeyBlock.numTuples ∧
      task.getMorsel merger memory =
        .ok (⟨task.leftKeyBlockNextIdx, task.leftKeyBlockNextIdx + batchSize,
          task.rightKeyBlockNextIdx, rightEndIdx⟩, { task with
            activeMorsels := task.activeMorsels + 1
            leftKeyBlockNextIdx := task.leftKeyBlockNextIdx + batchSize
            rightKeyBlockNextIdx := rightEndIdx }) ∧
      ∀ b, task.rightKeyBlockNextIdx ≤ b → b < task.rightKeyBlock.numTuples →
        (notAfter rank (task.leftKeyBlock.tupleAt memory (task.leftKeyBlockNextIdx + batchSize - 1))
          (task.rightKeyBlock.tupleAt memory b) = true ↔ rightEndIdx ≤ b) := by
  have hlast : task.leftKeyBlockNextIdx + batchSize - 1 < task.leftKeyBlock.numTuples := by omega
  obtain ⟨found, hfind, hfound⟩ := @exists_findRightKeyBlockIdxFrom V merger
    { task with
      activeMorsels := task.activeMorsels + 1
      leftKeyBlockNextIdx := task.leftKeyBlockNextIdx + batchSize } memory
    (task.leftKeyBlock.tuplePtr (task.leftKeyBlockNextIdx + batchSize - 1))
    (fun b ↦ !notAfter rank
      (task.leftKeyBlock.tupleAt memory (task.leftKeyBlockNextIdx + batchSize - 1))
      (task.rightKeyBlock.tupleAt memory b))
    task.rightKeyBlockNextIdx task.rightKeyBlockNextIdx (task.rightKeyBlock.numTuples - 1)
    (fun b hb ↦ h.compareAt_eq hlast hb)
    (by
      intro a b hab hb hsmaller
      rw [Bool.not_eq_true', notAfter, decide_eq_false_iff_not, not_le] at hsmaller ⊢
      exact lt_of_le_of_lt (rank_tupleAt_le h.sorted_right hab hb) hsmaller)
    (Int.sub_one_lt_of_le le_rfl) (fun b hb hb' ↦ absurd hb' (by dsimp only; omega)) le_rfl
    (Or.inl rfl)
  have hmin := Nat.min_eq_left hleft.le
  cases found with
  | none =>
      refine ⟨task.rightKeyBlockNextIdx, le_rfl, hright.le, ?_, fun b hb hb' ↦ ?_⟩
      · rw [KeyBlockMergeTask.getMorsel]
        simp only [if_neg (Nat.not_le.mpr hright), if_neg (Nat.not_le.mpr hleft),
          MergedKeyBlocks.getTuple_of_lt hlast, ok_bind, findRightKeyBlockIdx, hfind, hmin]
        rfl
      · have hsmaller := hfound b hb hb'
        rw [Bool.not_eq_false'] at hsmaller
        exact iff_of_true hsmaller hb
  | some c =>
      obtain ⟨hc, hcR, hsmaller, hbehind⟩ := hfound
      refine ⟨c + 1, Nat.le_succ_of_le hc, hcR, ?_, fun b hb hb' ↦ ?_⟩
      · rw [KeyBlockMergeTask.getMorsel]
        simp only [if_neg (Nat.not_le.mpr hright), if_neg (Nat.not_le.mpr hleft),
          MergedKeyBlocks.getTuple_of_lt hlast, ok_bind, findRightKeyBlockIdx, hfind, hmin]
        rfl
      · rcases Nat.lt_or_ge c b with hlt | hle
        · have hnot := hbehind b hlt hb'
          rw [Bool.not_eq_false'] at hnot
          exact iff_of_true hnot hlt
        · refine iff_of_false ?_ (Nat.not_le.mpr (Nat.lt_succ_of_le hle))
          rw [Bool.not_eq_true', notAfter, decide_eq_false_iff_not, not_le] at hsmaller
          rw [notAfter, decide_eq_true_iff, not_le]
          exact lt_of_le_of_lt (rank_tupleAt_le h.sorted_right hle hcR) hsmaller

/-- The cut behind a batch and the right tuples that are smaller than its last tuple. -/
theorem Separated.next {i' j' : ℕ} (h : SortedBlocks merger rank task memory)
    (hsep : Separated rank task.leftKeyBlock task.rightKeyBlock memory i j) (hi : 0 < i')
    (hi' : i' ≤ task.leftKeyBlock.numTuples) (hii : i ≤ i') (hjj : j ≤ j')
    (hright : ∀ b, j ≤ b → b < task.rightKeyBlock.numTuples →
      (notAfter rank (task.leftKeyBlock.tupleAt memory (i' - 1))
        (task.rightKeyBlock.tupleAt memory b) = true ↔ j' ≤ b))
    (hjR : j' ≤ task.rightKeyBlock.numTuples) :
    Separated rank task.leftKeyBlock task.rightKeyBlock memory i' j' := by
  constructor
  · intro a ha b hb hbR
    have hlast := (hright b (hjj.trans hb) hbR).mpr hb
    rw [notAfter, decide_eq_true_iff] at hlast ⊢
    exact (rank_tupleAt_le h.sorted_left (Nat.le_sub_one_of_lt ha) (by omega)).trans hlast
  · intro b hb a ha haL
    rcases Nat.lt_or_ge b j with hlt | hle
    · exact hsep.2 b hlt a (hii.trans ha) haL
    · have hlast := mt (hright b hle (lt_of_lt_of_le hb hjR)).mp (Nat.not_le.mpr hb)
      rw [notAfter, decide_eq_true_iff, not_le] at hlast
      rw [notAfter, decide_eq_false_iff_not, not_le]
      exact lt_of_lt_of_le hlast (rank_tupleAt_le h.sorted_left (by omega) haL)

/-- The task goes on with the tuples at the indexes `i` and `j`; with the left block it gives out
all of the right one. -/
structure KeyBlockMergeTask.GoesOn (task : KeyBlockMergeTask) (i j : ℕ) : Prop where
  left : task.leftKeyBlockNextIdx = i ∧ i < task.leftKeyBlock.numTuples ∨
    i = task.leftKeyBlock.numTuples ∧ i ≤ task.leftKeyBlockNextIdx
  right : task.rightKeyBlockNextIdx = j
  right_le : j ≤ task.rightKeyBlock.numTuples
  right_of_left : i = task.leftKeyBlock.numTuples → j = task.rightKeyBlock.numTuples

theorem KeyBlockMergeTask.GoesOn.hasMorselLeft_iff (h : task.GoesOn i j) :
    task.hasMorselLeft = true ↔ i < task.leftKeyBlock.numTuples := by
  rw [hasMorselLeft, Bool.or_eq_true, decide_eq_true_iff, decide_eq_true_iff, h.right]
  rcases h.left with ⟨heq, hlt⟩ | ⟨heq, hle⟩
  · rw [heq]
    exact iff_of_true (Or.inl hlt) hlt
  · have hright := h.right_of_left heq
    omega

/-- A morsel starts where the task was to go on, and the task goes on where it ends. -/
theorem KeyBlockMergeTask.GoesOn.exists_getMorsel (h : task.GoesOn i j)
    (hsorted : SortedBlocks merger rank task memory) (hi : i < task.leftKeyBlock.numTuples)
    (hsep : Separated rank task.leftKeyBlock task.rightKeyBlock memory i j) :
    ∃ morsel nextLeft nextRight, task.getMorsel merger memory = .ok (morsel, { task with
        leftKeyBlockNextIdx := nextLeft
        rightKeyBlockNextIdx := nextRight
        activeMorsels := task.activeMorsels + 1 }) ∧
      morsel.Cuts rank task.leftKeyBlock task.rightKeyBlock memory i j ∧
      KeyBlockMergeTask.GoesOn { task with
        leftKeyBlockNextIdx := nextLeft
        rightKeyBlockNextIdx := nextRight
        activeMorsels := task.activeMorsels + 1 } morsel.leftKeyBlockEndIdx
          morsel.rightKeyBlockEndIdx ∧
      if morsel.leftKeyBlockEndIdx < task.leftKeyBlock.numTuples then
        morsel.leftKeyBlockEndIdx = i + batchSize ∧ j < task.rightKeyBlock.numTuples ∧
        ∀ b, j ≤ b → b < task.rightKeyBlock.numTuples →
          (notAfter rank (task.leftKeyBlock.tupleAt memory (i + batchSize - 1))
            (task.rightKeyBlock.tupleAt memory b) = true ↔ morsel.rightKeyBlockEndIdx ≤ b)
      else j < task.rightKeyBlock.numTuples → task.leftKeyBlock.numTuples ≤ i + batchSize := by
  obtain ⟨rfl, -⟩ : task.leftKeyBlockNextIdx = i ∧ i < task.leftKeyBlock.numTuples :=
    h.left.resolve_right fun hend ↦ hi.ne hend.1
  obtain rfl := h.right
  rcases h.right_le.lt_or_eq with hright | hright
  · by_cases hlast : task.leftKeyBlock.numTuples ≤ task.leftKeyBlockNextIdx + batchSize
    · refine ⟨_, _, _, getMorsel_of_last hright hlast, ?_, ?_, ?_⟩
      · exact ⟨rfl, rfl, hi, le_rfl, hright.le, le_rfl, separated_numTuples _ _ _ _⟩
      · exact ⟨Or.inr ⟨rfl, hlast⟩, rfl, le_rfl, fun _ ↦ rfl⟩
      · rw [if_neg (lt_irrefl _)]
        exact fun _ ↦ hlast
    · have hlt := Nat.not_le.mp hlast
      have hpos : 0 < batchSize := by decide
      obtain ⟨j', hjj, hjR, hmorsel, hend⟩ := OrderBy.exists_getMorsel hsorted hright hlt
      refine ⟨_, _, _, hmorsel, ?_, ?_, ?_⟩
      · exact ⟨rfl, rfl, Nat.lt_add_of_pos_right hpos, hlt.le, hjj, hjR,
          hsep.next hsorted (Nat.add_pos_right _ hpos) hlt.le (Nat.le_add_right _ _) hjj hend hjR⟩
      · exact ⟨Or.inl ⟨rfl, hlt⟩, rfl, hjR, fun heq ↦ absurd heq hlt.ne⟩
      · rw [if_pos hlt]
        exact ⟨rfl, hright, hend⟩
  · refine ⟨_, _, _, getMorsel_of_le hright.ge, ?_, ?_, ?_⟩
    · exact ⟨rfl, hright.symm, hi, le_rfl, hright.le, le_rfl, separated_numTuples _ _ _ _⟩
    · exact ⟨Or.inr ⟨rfl, le_rfl⟩, hright, le_rfl, fun _ ↦ rfl⟩
    · rw [if_neg (lt_irrefl _)]
      exact fun hlt ↦ absurd hright hlt.ne

/-- A batch, not the last one, that ends at the index `n` does not end with a tuple that is larger
than all tuples of the right block. -/
def RightLasts (rank : List UInt8 → α) (left right : MergedKeyBlocks) (memory : KeyBlockMemory)
    (i : ℕ) : Prop :=
  ∀ n, i < n → n < left.numTuples → batchSize ∣ n → notAfter rank (left.tupleAt memory (n - 1))
    (right.tupleAt memory (right.numTuples - 1)) = true

theorem rightLasts_add_iff {left right : MergedKeyBlocks} (hbatch : batchSize ∣ i)
    (hend : notAfter rank (left.tupleAt memory (i + batchSize - 1))
      (right.tupleAt memory (right.numTuples - 1)) = true) :
    RightLasts rank left right memory (i + batchSize) ↔ RightLasts rank left right memory i := by
  constructor
  · intro hlasts n hlt hnL hdvd
    have hnext := Nat.le_of_dvd (Nat.sub_pos_of_lt hlt) (Nat.dvd_sub hdvd hbatch)
    by_cases heq : n = i + batchSize
    · subst heq
      exact hend
    · exact hlasts n (by omega) hnL hdvd
  · intro hlasts n hlt hnL hdvd
    exact hlasts n (by omega) hnL hdvd

/-- The morsels partition the merge; the right block has tuples left at the start of all of them
exactly if it lasts. -/
theorem exists_gives (h : SortedBlocks merger rank task memory) (hnext : task.GoesOn i j)
    (hbatch : i < task.leftKeyBlock.numTuples → batchSize ∣ i)
    (hsep : Separated rank task.leftKeyBlock task.rightKeyBlock memory i j) :
    ∃ morsels, task.Gives merger memory morsels ∧
      Partitions rank task.leftKeyBlock task.rightKeyBlock memory task.leftKeyBlock.numTuples
        task.rightKeyBlock.numTuples i j morsels ∧
      (j < task.rightKeyBlock.numTuples ∨ i = task.leftKeyBlock.numTuples →
        ((∀ morsel ∈ morsels, morsel.rightKeyBlockStartIdx < task.rightKeyBlock.numTuples) ↔
          RightLasts rank task.leftKeyBlock task.rightKeyBlock memory i)) := by
  induction hn : task.leftKeyBlock.numTuples - i using Nat.strong_induction_on
    generalizing task i j with
  | _ n ih =>
      subst hn
      by_cases hi : i < task.leftKeyBlock.numTuples
      · have hmore := hnext.hasMorselLeft_iff.mpr hi
        obtain ⟨morsel, nextLeft, nextRight, hmorsel, hcuts, hnext', hend⟩ :=
          hnext.exists_getMorsel h hi hsep
        have hlt := hcuts.left_lt
        have hbatch' : morsel.leftKeyBlockEndIdx < task.leftKeyBlock.numTuples →
            batchSize ∣ morsel.leftKeyBlockEndIdx := by
          intro hlt
          rw [if_pos hlt] at hend
          rw [hend.1]
          exact Nat.dvd_add (hbatch hi) (Nat.dvd_refl batchSize)
        obtain ⟨morsels, hgives, hparts, hiff⟩ :=
          @ih (task.leftKeyBlock.numTuples - morsel.leftKeyBlockEndIdx) (by omega) _ _ _
            (h.with_next nextLeft nextRight (task.activeMorsels + 1)) hnext' hbatch'
            hcuts.separated rfl
        refine ⟨morsel :: morsels, ⟨hmore, _, hmorsel, hgives⟩, ⟨hcuts, hparts⟩, fun hj ↦ ?_⟩
        have hjR : j < task.rightKeyBlock.numTuples := hj.resolve_right hi.ne
        rw [List.forall_mem_cons, hcuts.rightStart_eq, and_iff_right hjR]
        by_cases hbatchEnd : morsel.leftKeyBlockEndIdx < task.leftKeyBlock.numTuples
        · rw [if_pos hbatchEnd] at hend
          obtain ⟨heq, -, hsmaller⟩ := hend
          have hlastTuple := hsmaller (task.rightKeyBlock.numTuples - 1) (by omega) (by omega)
          rcases hcuts.right_le_numTuples.lt_or_eq with hmoreRight | hendRight
          · rw [hiff (Or.inl hmoreRight), heq]
            exact rightLasts_add_iff (hbatch hi) (hlastTuple.mpr (by omega))
          · refine iff_of_false ?_ fun hlasts ↦ ?_
            · cases morsels with
              | nil => exact absurd hparts.1 hbatchEnd.ne
              | cons m morsels =>
                  intro hall
                  have hstart := hall m List.mem_cons_self
                  rw [hparts.1.rightStart_eq] at hstart
                  exact absurd hendRight hstart.ne
            · have hdvd := Nat.dvd_add (hbatch hi) (Nat.dvd_refl batchSize)
              have hnot := hlastTuple.mp
                (hlasts (i + batchSize) (by omega) (by omega) hdvd)
              omega
        · rw [if_neg hbatchEnd] at hend
          have hlast := hend hjR
          have heq : morsel.leftKeyBlockEndIdx = task.leftKeyBlock.numTuples :=
            le_antisymm hcuts.left_le (Nat.not_lt.mp hbatchEnd)
          rw [hiff (Or.inr heq)]
          refine iff_of_true (fun n hlt hnL _ ↦ ?_) fun n hlt hnL hdvd ↦ ?_
          · exact absurd hnL (Nat.not_lt.mpr (heq.ge.trans hlt.le))
          · have hnext := Nat.le_of_dvd (Nat.sub_pos_of_lt hlt) (Nat.dvd_sub hdvd (hbatch hi))
            omega
      · have heq : i = task.leftKeyBlock.numTuples := by
          rcases hnext.left with ⟨-, hlt⟩ | ⟨heq, -⟩
          · exact absurd hlt hi
          · exact heq
        refine ⟨[], ?_, ⟨heq, hnext.right_of_left heq⟩, fun _ ↦ ?_⟩
        · exact Bool.eq_false_iff.mpr (mt hnext.hasMorselLeft_iff.mp hi)
        · refine iff_of_true (fun _ hmem ↦ absurd hmem List.not_mem_nil) fun n hlt hnL _ ↦ ?_
          exact absurd hnL (Nat.not_lt.mpr (heq.ge.trans hlt.le))

end Partition

end Graphflow.OrderBy
