import Graphflow.OrderBy.MergeRanges

/-!
# The morsels of a merge task

`KeyBlockMergeTask::getMorsel`.  A morsel takes a batch of tuples of the left block, and those
tuples of the right block that are smaller than the last one of the batch.
-/

namespace Graphflow.OrderBy

open Lib Storage

def batchSize : ℕ := 10000

section Search

variable {V : Type} (merger : KeyBlockMerger V) (task : KeyBlockMergeTask) (memory : KeyBlockMemory)

/-- `compareTuplePtr` on pointers into the left and into the right block. -/
def compareAt (leftTuplePtr rightTuplePtr : TuplePtr) : Except Fault Bool := do
  let leftTuple ← task.leftKeyBlock.readTuple memory leftTuplePtr merger.numBytesPerTuple
  let rightTuple ← task.rightKeyBlock.readTuple memory rightTuplePtr merger.numBytesPerTuple
  merger.compareTuplePtr leftTuple rightTuple

/-- The loop of the binary search. -/
def findRightKeyBlockIdxFrom (leftEndTuplePtr : TuplePtr) (startIdx : ℕ) (endIdx : ℤ) :
    Except Fault (Option ℕ) :=
  if _h : startIdx ≤ endIdx then do
    let curTupleIdx := ((startIdx + endIdx) / 2).toNat
    let curTuplePtr ← task.rightKeyBlock.getTuple curTupleIdx
    if ← compareAt merger task memory leftEndTuplePtr curTuplePtr then
      if curTupleIdx = task.rightKeyBlock.numTuples - 1 then return some curTupleIdx
      let nextTuplePtr ← task.rightKeyBlock.getTuple (curTupleIdx + 1)
      if ← compareAt merger task memory leftEndTuplePtr nextTuplePtr then
        findRightKeyBlockIdxFrom leftEndTuplePtr (curTupleIdx + 1) endIdx
      else return some curTupleIdx
    else findRightKeyBlockIdxFrom leftEndTuplePtr startIdx (curTupleIdx - 1)
  else return none
termination_by (endIdx + 1 - startIdx).toNat
decreasing_by
  · omega
  · omega

def findRightKeyBlockIdx (leftEndTuplePtr : TuplePtr) : Except Fault (Option ℕ) :=
  findRightKeyBlockIdxFrom merger task memory leftEndTuplePtr task.rightKeyBlockNextIdx
    (task.rightKeyBlock.numTuples - 1)

end Search

namespace KeyBlockMergeTask

variable {V : Type}

def hasMorselLeft (task : KeyBlockMergeTask) : Bool :=
  task.leftKeyBlockNextIdx < task.leftKeyBlock.numTuples ||
    task.rightKeyBlockNextIdx < task.rightKeyBlock.numTuples

def getMorsel (merger : KeyBlockMerger V) (memory : KeyBlockMemory) (task : KeyBlockMergeTask) :
    Except Fault (KeyBlockMergeMorsel × KeyBlockMergeTask) := do
  let task := { task with activeMorsels := task.activeMorsels + 1 }
  let numLeft := task.leftKeyBlock.numTuples
  let numRight := task.rightKeyBlock.numTuples
  if numRight ≤ task.rightKeyBlockNextIdx then
    return (⟨task.leftKeyBlockNextIdx, numLeft, numRight, numRight⟩,
      { task with leftKeyBlockNextIdx := numLeft })
  let leftKeyBlockStartIdx := task.leftKeyBlockNextIdx
  let task := { task with leftKeyBlockNextIdx := task.leftKeyBlockNextIdx + batchSize }
  let leftKeyBlockEndIdx := min task.leftKeyBlockNextIdx numLeft
  if numLeft ≤ task.leftKeyBlockNextIdx then
    return (⟨leftKeyBlockStartIdx, leftKeyBlockEndIdx, task.rightKeyBlockNextIdx, numRight⟩,
      { task with rightKeyBlockNextIdx := numRight })
  let leftEndIdxPtr ← task.leftKeyBlock.getTuple (task.leftKeyBlockNextIdx - 1)
  match ← findRightKeyBlockIdx merger task memory leftEndIdxPtr with
  | none =>
      return (⟨leftKeyBlockStartIdx, leftKeyBlockEndIdx, task.rightKeyBlockNextIdx,
        task.rightKeyBlockNextIdx⟩, task)
  | some rightEndIdx =>
      return (⟨leftKeyBlockStartIdx, leftKeyBlockEndIdx, task.rightKeyBlockNextIdx,
        rightEndIdx + 1⟩, { task with rightKeyBlockNextIdx := rightEndIdx + 1 })

/-- The morsels that the task gives out until there is none left. -/
def Gives (merger : KeyBlockMerger V) (memory : KeyBlockMemory) :
    KeyBlockMergeTask → List KeyBlockMergeMorsel → Prop
  | task, [] => task.hasMorselLeft = false
  | task, morsel :: morsels => task.hasMorselLeft = true ∧
      ∃ task', task.getMorsel merger memory = .ok (morsel, task') ∧
        Gives merger memory task' morsels

end KeyBlockMergeTask

/-! ## The binary search -/

section Search

variable {V : Type} {merger : KeyBlockMerger V} {task : KeyBlockMergeTask}
  {memory : KeyBlockMemory} {leftEndTuplePtr : TuplePtr} {isSmaller : ℕ → Bool}

/-- The last index from `firstIdx` on whose tuple is smaller, if there is one. -/
def IsLastSmaller (isSmaller : ℕ → Bool) (numTuples firstIdx : ℕ) : Option ℕ → Prop
  | none => ∀ b, firstIdx ≤ b → b < numTuples → isSmaller b = false
  | some c => firstIdx ≤ c ∧ c < numTuples ∧ isSmaller c = true ∧
      ∀ b, c < b → b < numTuples → isSmaller b = false

/-- Before the range that is searched all tuples are smaller, or it starts where the search did;
behind the range none is. -/
theorem exists_findRightKeyBlockIdxFrom {firstIdx startIdx : ℕ} {endIdx : ℤ}
    (hcompare : ∀ b < task.rightKeyBlock.numTuples, compareAt merger task memory leftEndTuplePtr
      (task.rightKeyBlock.tuplePtr b) = .ok (isSmaller b))
    (hmono : ∀ a b, a ≤ b → b < task.rightKeyBlock.numTuples → isSmaller b = true →
      isSmaller a = true)
    (hend : endIdx < task.rightKeyBlock.numTuples)
    (hbehind : ∀ b : ℕ, endIdx < b → b < task.rightKeyBlock.numTuples → isSmaller b = false)
    (hfirst : firstIdx ≤ startIdx)
    (hstart : startIdx = firstIdx ∨ startIdx ≤ endIdx ∧ isSmaller startIdx = true) :
    ∃ found, findRightKeyBlockIdxFrom merger task memory leftEndTuplePtr startIdx endIdx =
        .ok found ∧ IsLastSmaller isSmaller task.rightKeyBlock.numTuples firstIdx found := by
  induction hn : (endIdx + 1 - startIdx).toNat using Nat.strong_induction_on
    generalizing startIdx endIdx with
  | _ n ih =>
      subst hn
      rw [findRightKeyBlockIdxFrom]
      by_cases hle : startIdx ≤ endIdx
      · rw [dif_pos hle]
        generalize hcur : ((startIdx + endIdx) / 2).toNat = cur
        have hcurR : cur < task.rightKeyBlock.numTuples := by omega
        simp only [MergedKeyBlocks.getTuple_of_lt hcurR, ok_bind, hcompare cur hcurR]
        cases hsmaller : isSmaller cur with
        | true =>
            rw [if_pos rfl]
            by_cases hlast : cur = task.rightKeyBlock.numTuples - 1
            · rw [if_pos hlast]
              refine ⟨some cur, rfl, by omega, hcurR, hsmaller, fun b hb hbR ↦ ?_⟩
              omega
            · have hnextR : cur + 1 < task.rightKeyBlock.numTuples := by omega
              rw [if_neg hlast]
              simp only [MergedKeyBlocks.getTuple_of_lt hnextR, ok_bind, pure_eq_ok,
                hcompare (cur + 1) hnextR]
              cases hnext : isSmaller (cur + 1) with
              | true =>
                  have hin : ((cur + 1 : ℕ) : ℤ) ≤ endIdx := by
                    by_contra hout
                    exact absurd hnext
                      (Bool.eq_false_iff.mp (hbehind (cur + 1) (Int.not_le.mp hout) hnextR))
                  exact ih _ (by omega) hend hbehind (by omega) (Or.inr ⟨hin, hnext⟩) rfl
              | false =>
                  refine ⟨some cur, rfl, by omega, hcurR, hsmaller, fun b hb hbR ↦ ?_⟩
                  exact Bool.eq_false_iff.mpr
                    (mt (hmono (cur + 1) b hb hbR) (Bool.eq_false_iff.mp hnext))
        | false =>
            rw [if_neg Bool.false_ne_true]
            have hbehind' : ∀ b : ℕ, (cur : ℤ) - 1 < b → b < task.rightKeyBlock.numTuples →
                isSmaller b = false := fun b hb hbR ↦
              Bool.eq_false_iff.mpr
                (mt (hmono cur b (by omega) hbR) (Bool.eq_false_iff.mp hsmaller))
            refine ih _ (by omega) (by omega) hbehind' hfirst ?_ rfl
            rcases hstart with heq | ⟨-, hsmaller'⟩
            · exact Or.inl heq
            · refine Or.inr ⟨?_, hsmaller'⟩
              have hne : startIdx ≠ cur := by
                rintro rfl
                exact Bool.false_ne_true (hsmaller.symm.trans hsmaller')
              omega
      · rw [dif_neg hle]
        refine ⟨none, rfl, fun b hb hbR ↦ ?_⟩
        have heq : startIdx = firstIdx := hstart.resolve_right fun h ↦ hle h.1
        exact hbehind b (by omega) hbR

end Search

end Graphflow.OrderBy
