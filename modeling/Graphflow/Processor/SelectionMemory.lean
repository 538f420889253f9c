import Graphflow.Processor.ValueVector
import Mathlib.Data.List.GetD
import Mathlib.Logic.Function.Basic
import Mathlib.Tactic.Common

/-!
# The memory of selected positions

A selection vector points to its own buffer or, if it is unfiltered, to the numbers from `0` on.
Operators that shorten it save it before, and restore it before their child produces again.
-/

namespace Graphflow.Processor

structure SelectionMemory where
  isUnfiltered : Bool := true
  selectedPositionsBuffer : ℕ → ℕ := fun _ ↦ 0
  selectedSize : ℕ := 0

namespace SelectionMemory

variable (m : SelectionMemory)

def positionAt (i : ℕ) : ℕ := if m.isUnfiltered then i else m.selectedPositionsBuffer i

def selectedPositions : List ℕ := (List.range m.selectedSize).map m.positionAt

@[simp] theorem length_selectedPositions : m.selectedPositions.length = m.selectedSize := by
  rw [selectedPositions, List.length_map, List.length_range]

theorem selectedPositions_congr {m m' : SelectionMemory} (hsize : m'.selectedSize = m.selectedSize)
    (hposition : ∀ i < m.selectedSize, m'.positionAt i = m.positionAt i) :
    m'.selectedPositions = m.selectedPositions := by
  rw [selectedPositions, selectedPositions, hsize]
  exact List.map_congr_left fun i hi ↦ hposition i (List.mem_range.mp hi)

/-! ## Saving and restoring -/

/-- `memcpy` of some positions. -/
def copyPositions (target source : ℕ → ℕ) (size : ℕ) (i : ℕ) : ℕ :=
  if i < size then source i else target i

/-- The memory `target` gets the positions of the other. -/
def copyTo (target : SelectionMemory) : SelectionMemory :=
  if m.isUnfiltered then { target with selectedSize := m.selectedSize, isUnfiltered := true }
  else
    { isUnfiltered := false
      selectedPositionsBuffer :=
        copyPositions target.selectedPositionsBuffer m.selectedPositionsBuffer m.selectedSize
      selectedSize := m.selectedSize }

/-- Nothing has been saved before the first call. -/
def saveSelVector (prevSelVector : Option SelectionMemory) : Option SelectionMemory :=
  some (m.copyTo (prevSelVector.getD {}))

def restoreSelVector (prevSelVector : Option SelectionMemory) : SelectionMemory :=
  match prevSelVector with
  | none => m
  | some saved => saved.copyTo m

theorem isUnfiltered_copyTo (target : SelectionMemory) :
    (m.copyTo target).isUnfiltered = m.isUnfiltered := by
  rw [copyTo]
  split_ifs with hunfiltered
  · exact hunfiltered.symm
  · exact (Bool.eq_false_iff.mpr hunfiltered).symm

theorem selectedPositions_copyTo (target : SelectionMemory) :
    (m.copyTo target).selectedPositions = m.selectedPositions := by
  have hsize : (m.copyTo target).selectedSize = m.selectedSize := by
    rw [copyTo]
    split_ifs <;> rfl
  refine selectedPositions_congr hsize fun i hi ↦ ?_
  rw [positionAt, positionAt, isUnfiltered_copyTo]
  split_ifs with hunfiltered
  · rfl
  · rw [copyTo, if_neg hunfiltered]
    exact if_pos hi

/-! ## Producing -/

/-- An operator writes the positions that it selects. -/
def load (v : SelectionVector) : SelectionMemory where
  isUnfiltered := v.isUnfiltered
  selectedPositionsBuffer :=
    if v.isUnfiltered then m.selectedPositionsBuffer
    else fun i ↦ v.selectedPositions.getD i (m.selectedPositionsBuffer i)
  selectedSize := v.selectedSize

theorem selectedPositions_load (v : SelectionVector) :
    (m.load v).selectedPositions = v.selectedPositions := by
  cases hunfiltered : v.isUnfiltered with
  | true =>
      have hposition : (m.load v).positionAt = id := by
        funext i
        exact if_pos hunfiltered
      rw [selectedPositions, hposition, List.map_id]
      exact (v.eq_range hunfiltered).symm
  | false =>
      apply List.ext_getElem
      · rw [length_selectedPositions]
        rfl
      · intro i hi hi'
        have hposition : (m.load v).positionAt i = v.selectedPositions[i] := by
          rw [positionAt, load, hunfiltered, if_neg Bool.false_ne_true, if_neg Bool.false_ne_true]
          exact List.getD_eq_getElem _ _ hi'
        simp only [selectedPositions, List.getElem_map, List.getElem_range, hposition]

/-! ## Skipping -/

/-- The loop that moves the positions from the number `n` on to the front. -/
def skipPositions (n : ℕ) : SelectionMemory where
  isUnfiltered := false
  selectedPositionsBuffer :=
    (List.range' n (m.selectedSize - n)).foldl (fun buffer i ↦
        Function.update buffer (i - n) (if m.isUnfiltered then i else buffer i))
      m.selectedPositionsBuffer
  selectedSize := m.selectedSize - n

/-- After `k` turns of the loop the first `k` positions have been moved and no other has. -/
theorem foldl_skipPositions (n k : ℕ) (i : ℕ) :
    (List.range' n k).foldl (fun buffer i ↦
        Function.update buffer (i - n) (if m.isUnfiltered then i else buffer i))
      m.selectedPositionsBuffer i =
        if i < k then m.positionAt (n + i) else m.selectedPositionsBuffer i := by
  induction k generalizing i with
  | zero => rfl
  | succ k ih =>
      rw [List.range'_1_concat, List.foldl_append, List.foldl_cons, List.foldl_nil]
      have hread : (List.range' n k).foldl (fun buffer i ↦
          Function.update buffer (i - n) (if m.isUnfiltered then i else buffer i))
            m.selectedPositionsBuffer (n + k) = m.selectedPositionsBuffer (n + k) := by
        rw [ih, if_neg (by omega)]
      rw [hread, Nat.add_sub_cancel_left]
      by_cases hik : i = k
      · subst hik
        rw [Function.update_self, if_pos (Nat.lt_succ_self i), positionAt]
      · rw [Function.update_of_ne hik, ih]
        exact if_congr (by omega) rfl rfl

theorem selectedPositions_skipPositions (n : ℕ) :
    (m.skipPositions n).selectedPositions = m.selectedPositions.drop n := by
  apply List.ext_getElem
  · rw [length_selectedPositions, List.length_drop, length_selectedPositions]
    rfl
  · intro i hi hi'
    have hlt : i < m.selectedSize - n := by
      rwa [length_selectedPositions] at hi
    have hbuffer : (m.skipPositions n).positionAt i = m.positionAt (n + i) :=
      (if_neg Bool.false_ne_true).trans ((foldl_skipPositions m n _ i).trans (if_pos hlt))
    simp only [selectedPositions, List.getElem_map, List.getElem_range, List.getElem_drop, hbuffer]

/-- A shorter selection. -/
theorem selectedPositions_take {n : ℕ} (hn : n ≤ m.selectedSize) :
    ({ m with selectedSize := n } : SelectionMemory).selectedPositions =
      m.selectedPositions.take n := by
  rw [selectedPositions, selectedPositions, ← List.map_take, List.take_range, Nat.min_eq_left hn]
  rfl

end SelectionMemory

end Graphflow.Processor
