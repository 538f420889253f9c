import Graphflow.Function.Executors

/-!
# Evaluators and their history

Each position of the result vector is a cell that the batches update one after the other.  What a
reader sees of the last batch depends on the cells before it only where the loop of the last batch
does not write the null bit.
-/

namespace Graphflow.Function

open Processor

variable {V : Type}

/-! ## Cells -/

/-- A null bit and a value. -/
abbrev Cell (V : Type) := Bool × V

def Cell.read (cell : Cell V) : Option V := if cell.1 then none else some cell.2

theorem Cell.read_eq_some_iff {cell : Cell V} {value : V} :
    cell.read = some value ↔ cell = (false, value) := by
  obtain ⟨isNull, value'⟩ := cell
  cases isNull <;> simp [Cell.read]

def VectorData.cell (v : VectorData V) (pos : ℕ) : Cell V := (v.isNull pos, v.values pos)

theorem VectorData.read_eq (v : VectorData V) (pos : ℕ) : v.read pos = (v.cell pos).read := rfl

namespace Execution

variable {result : VectorData V}

/-- The null bit is written, and the value unless it is a null. -/
def writeCell (cell : Cell V) (isNull : Bool) (value : V) : Cell V :=
  (isNull, if isNull then cell.2 else value)

def updateCell (pos : ℕ) (cell : Cell V) : Execution V → Cell V
  | flat state isNull value =>
      if pos = state.getPositionOfCurrIdx then writeCell cell isNull value else cell
  | unflat state flatIsNull noNulls nullPositions isNull value =>
      if flatIsNull then (true, cell.2)
      else if noNulls then if pos ∈ state.positions then (cell.1, value pos) else cell
      else if pos ∈ nullPositions then writeCell cell (isNull pos) (value pos) else cell

theorem cell_setValue (result : VectorData V) (pos' pos : ℕ) (value : V) :
    (result.setValue pos' value).cell pos =
      if pos = pos' then ((result.cell pos).1, value) else result.cell pos := by
  split_ifs with heq
  · subst heq
    exact congrArg (Prod.mk (result.isNull pos)) (Function.update_self _ _ _)
  · exact congrArg (Prod.mk (result.isNull pos)) (Function.update_of_ne heq _ _)

theorem cell_executeNullable (result : VectorData V) (pos' pos : ℕ) (isNull : Bool) (value : V) :
    (executeNullable result pos' isNull value).cell pos =
      if pos = pos' then writeCell (result.cell pos) isNull value else result.cell pos := by
  have hnull : (result.setNull pos' isNull).isNull pos' = isNull := Function.update_self _ _ _
  have hcell : (result.setNull pos' isNull).cell pos =
      (if pos = pos' then isNull else result.isNull pos, result.values pos) := by
    rw [VectorData.cell]
    congr 1
    split_ifs with heq
    · rw [heq]
      exact hnull
    · exact Function.update_of_ne heq _ _
  rw [executeNullable]
  simp only [hnull]
  cases isNull with
  | true =>
      rw [if_pos rfl, hcell]
      split_ifs with heq
      · rfl
      · rfl
  | false =>
      rw [if_neg Bool.false_ne_true, cell_setValue, hcell]
      split_ifs with heq
      · rfl
      · rfl

/-- A loop whose turns write their own cells, as any turn at the same position would. -/
theorem cell_foldl {turn : VectorData V → ℕ → VectorData V} {write : ℕ → Cell V → Cell V}
    (hturn : ∀ result pos' pos, (turn result pos').cell pos =
      if pos = pos' then write pos (result.cell pos) else result.cell pos)
    (hwrite : ∀ pos cell, write pos (write pos cell) = write pos cell) (positions : List ℕ)
    (result : VectorData V) (pos : ℕ) : (positions.foldl turn result).cell pos =
      if pos ∈ positions then write pos (result.cell pos) else result.cell pos := by
  induction positions generalizing result with
  | nil => rfl
  | cons first rest ih =>
      rw [List.foldl_cons, ih, hturn]
      by_cases heq : pos = first
      · rw [if_pos heq, heq, if_pos List.mem_cons_self]
        split_ifs
        · exact hwrite _ _
        · rfl
      · rw [if_neg heq]
        exact if_congr (by rw [List.mem_cons, or_iff_right heq]) rfl rfl

/-- What an execution does to a position depends on nothing else of the vector. -/
theorem cell_perform (e : Execution V) (result : VectorData V) (pos : ℕ) :
    (e.perform result).cell pos = e.updateCell pos (result.cell pos) := by
  cases e with
  | flat state isNull value => exact cell_executeNullable _ _ _ _ _
  | unflat state flatIsNull noNulls nullPositions isNull value =>
      simp only [perform, updateCell]
      cases flatIsNull with
      | true => rfl
      | false =>
          cases noNulls with
          | true =>
              exact @cell_foldl V _ (fun pos cell ↦ (cell.1, value pos)) (fun result pos' pos ↦ by
                rw [cell_setValue]
                split_ifs with heq
                · rw [heq]
                · rfl) (fun _ _ ↦ rfl) _ _ _
          | false =>
              exact @cell_foldl V _ (fun pos cell ↦ writeCell cell (isNull pos) (value pos))
                (fun result pos' pos ↦ by
                  rw [cell_executeNullable]
                  split_ifs with heq
                  · rw [heq]
                  · rfl)
                (fun pos cell ↦ by
                  simp only [writeCell]
                  split_ifs
                  · rfl
                  · rfl) _ _ _

/-! ## The last batch -/

/-- The state of the result vector. -/
def state : Execution V → VectorState
  | flat state _ _ => state
  | unflat state _ _ _ _ _ => state

theorem state_perform (e : Execution V) (result : VectorData V) :
    (e.perform result).state = e.state := by
  have hnullable : ∀ (result : VectorData V) (pos : ℕ) (isNull : Bool) (value : V),
      (executeNullable result pos isNull value).state = result.state := by
    intro result pos isNull value
    simp only [executeNullable]
    split_ifs
    · rfl
    · rfl
  cases e with
  | flat state isNull value => exact hnullable _ _ _ _
  | unflat state flatIsNull noNulls nullPositions isNull value =>
      simp only [perform]
      split_ifs
      · rfl
      · exact List.foldlRecOn (motive := fun result : VectorData V ↦ result.state = state) _ _ rfl
          fun result h pos _ ↦ h
      · exact List.foldlRecOn (motive := fun result : VectorData V ↦ result.state = state) _ _ rfl
          fun result h pos _ ↦ (hnullable _ _ _ _).trans h

/-- A loop has an unflat vector. -/
def IsFlatAsSaid : Execution V → Prop
  | flat state _ _ => state.isFlat = true
  | unflat state _ _ _ _ _ => state.isFlat = false

/-- Where the null bit is not written it is clear, and where nothing is written the cell is as in a
new vector. -/
def Harmless (zero : V) (before : ℕ → Cell V) : Execution V → Prop
  | flat _ _ _ => True
  | unflat state flatIsNull noNulls nullPositions _ _ => flatIsNull = false →
      ∀ pos ∈ state.positions,
        if noNulls then (before pos).1 = false
        else pos ∈ nullPositions ∨ before pos = (false, zero)

theorem read_writeCell (cell : Cell V) (isNull : Bool) (value : V) :
    (writeCell cell isNull value).read = if isNull then none else some value := by
  cases isNull with
  | true => rfl
  | false => rfl

/-- One position of a loop. -/
theorem read_eq_iff_of_loop {state : VectorState} {noNulls : Bool} {nullPositions : List ℕ}
    {isNull : ℕ → Bool} {value : ℕ → V} {zero : V} {cell : Cell V} {pos : ℕ}
    (hpos : pos ∈ state.positions) :
    ((unflat state false noNulls nullPositions isNull value).updateCell pos cell).read =
        ((unflat state false noNulls nullPositions isNull value).updateCell pos
          (false, zero)).read ↔
      if noNulls then cell.1 = false else pos ∈ nullPositions ∨ cell = (false, zero) := by
  cases noNulls with
  | true =>
      simp only [updateCell, Bool.false_eq_true, if_false, if_true, if_pos hpos]
      exact (@Cell.read_eq_some_iff V (cell.1, value pos) (value pos)).trans (by simp)
  | false =>
      simp only [updateCell, Bool.false_eq_true, if_false]
      by_cases hmem : pos ∈ nullPositions
      · rw [if_pos hmem, if_pos hmem, read_writeCell, read_writeCell]
        exact iff_of_true rfl (Or.inl hmem)
      · rw [if_neg hmem, if_neg hmem, or_iff_right hmem]
        exact Cell.read_eq_some_iff

theorem forall_read_eq_iff (e : Execution V) (he : e.IsFlatAsSaid) (zero : V)
    (before : ℕ → Cell V) : (∀ pos ∈ e.state.readPositions,
      (e.updateCell pos (before pos)).read = (e.updateCell pos (false, zero)).read) ↔
        e.Harmless zero before := by
  cases e with
  | flat state isNull value =>
      refine iff_of_true (fun pos hpos ↦ ?_) trivial
      have hflat : state.isFlat = true := he
      rw [Execution.state, VectorState.readPositions, if_pos hflat, List.mem_singleton] at hpos
      simp only [updateCell, if_pos hpos, read_writeCell]
  | unflat state flatIsNull noNulls nullPositions isNull value =>
      have hpositions : state.readPositions = state.positions := by
        rw [VectorState.readPositions]
        exact if_neg (Bool.eq_false_iff.mp he)
      rw [Execution.state, hpositions, Harmless]
      cases flatIsNull with
      | true => exact iff_of_true (fun pos _ ↦ rfl) nofun
      | false =>
          rw [forall_prop_of_true rfl]
          exact forall₂_congr fun pos hpos ↦ read_eq_iff_of_loop hpos

end Execution

/-! ## Sequences of batches -/

namespace FunctionEvaluator

variable (f : FunctionEvaluator V)

theorem isFlatAsSaid_execution (parameters : f.Parameters) :
    (f.execution parameters).IsFlatAsSaid := by
  cases f with
  | unary op =>
      simp only [execution, UnaryOperationExecutor.executeSwitch]
      split_ifs with hflat
      · exact hflat
      · exact Bool.eq_false_iff.mpr hflat
  | binary op =>
      obtain ⟨left, right⟩ := parameters
      simp only [execution, BinaryOperationExecutor.executeSwitch]
      split
      · assumption
      · assumption
      · assumption
      · assumption
  | ternary op =>
      obtain ⟨a, b, c⟩ := parameters
      simp only [execution, TernaryOperationExecutor.executeSwitch]
      split
      · assumption
      · assumption
      · assumption
      · assumption
      · assumption
      · assumption
      · assumption
      · assumption

/-- What the batches leave at a position. -/
def cellAfter (zero : V) (batches : List f.Parameters) (pos : ℕ) : Cell V :=
  batches.foldl (fun cell parameters ↦ (f.execution parameters).updateCell pos cell) (false, zero)

theorem cell_evaluateAll (zero : V) (batches : List f.Parameters) (pos : ℕ) :
    (f.evaluateAll zero batches).cell pos = f.cellAfter zero batches pos := by
  induction batches using List.reverseRecOn with
  | nil => rfl
  | append_singleton batches last ih =>
      rw [evaluateAll, cellAfter, List.foldl_append, List.foldl_append, List.foldl_cons,
        List.foldl_nil, List.foldl_cons, List.foldl_nil, evaluate, Execution.cell_perform]
      exact congrArg (fun cell ↦ (f.execution last).updateCell pos cell) ih

/-- The last batch is read as if it were the only one. -/
def HistoryIndependent (zero : V) (batches : List f.Parameters) (last : f.Parameters) : Prop :=
  let result := f.evaluateAll zero (batches ++ [last])
  let alone := f.evaluateAll zero [last]
  result.state = alone.state ∧ ∀ pos ∈ alone.state.readPositions, result.read pos = alone.read pos

theorem historyIndependent_iff (zero : V) (batches : List f.Parameters) (last : f.Parameters) :
    f.HistoryIndependent zero batches last ↔
      (f.execution last).Harmless zero (f.cellAfter zero batches) := by
  have hstate : ∀ batches, (f.evaluateAll zero (batches ++ [last])).state =
      (f.execution last).state := by
    intro batches
    rw [evaluateAll, List.foldl_append]
    exact Execution.state_perform _ _
  have hread : ∀ batches pos, (f.evaluateAll zero (batches ++ [last])).read pos =
      ((f.execution last).updateCell pos (f.cellAfter zero batches pos)).read := by
    intro batches pos
    rw [VectorData.read_eq, cell_evaluateAll, cellAfter, List.foldl_append]
    rfl
  rw [← Execution.forall_read_eq_iff _ (f.isFlatAsSaid_execution last), HistoryIndependent]
  have halone := hstate []
  rw [List.nil_append] at halone
  simp only [hstate batches, halone, true_and]
  refine forall₂_congr fun pos _ ↦ ?_
  rw [hread batches, ← List.nil_append [last], hread []]
  rfl

/-! ### A sum of a flat and an unflat vector -/

/-- A vector of one value or null. -/
def oneValue (currIdx : Option ℕ) (isNull : Bool) (value : ℕ) : VectorData ℕ where
  state := { selVector := { selectedSize := 1 }, currIdx := currIdx }
  values _ := value
  nullMask := NullMask.setAllNonNull.setNull 0 isNull

/-- The null of the first batch is still there in the second one, which has none. -/
theorem not_historyIndependent_oneValue :
    ((binary (· + ·)).evaluateAll 0 [(oneValue (some 0) false 1, oneValue none false 2)]).read 0 =
        some 3 ∧
      ¬(binary (· + ·)).HistoryIndependent 0 [(oneValue (some 0) true 1, oneValue none false 2)]
        (oneValue (some 0) false 1, oneValue none false 2) := by
  refine ⟨rfl, fun h ↦ ?_⟩
  have hread := h.2 0 (List.mem_singleton_self 0)
  cases hread

end FunctionEvaluator

end Graphflow.Function
