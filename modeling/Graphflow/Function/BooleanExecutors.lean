import Graphflow.Function.Evaluation
import Graphflow.Lib.Compaction

/-!
# Boolean operations

`AND`, `OR`, `XOR` and `NOT` take nulls as a third truth value.  Their executors write a byte and
the null bit of each position; the ones that select write the positions of the true rows to the
buffer that the selection is read from.
-/

namespace Graphflow.Processor.SelectionMemory

open Lib

/-- The loop of the functions that select: the positions that are not visited are skipped, the
others are written to the buffer, and stay there if the row is kept. -/
def select (m : SelectionMemory) (visits keeps : ℕ → Bool) : Bool × SelectionMemory :=
  let kept := compact m.isUnfiltered visits keeps m.selectedSize m.selectedPositionsBuffer
  (decide (0 < kept.1), { m with selectedPositionsBuffer := kept.2, selectedSize := kept.1 })

def resetSelectorToValuePosBuffer (m : SelectionMemory) : SelectionMemory :=
  { m with isUnfiltered := false }

/-- The selection is what the loop has kept once the selector points to the buffer. -/
theorem selectedPositions_select (m : SelectionMemory) (visits keeps : ℕ → Bool) :
    (m.select visits keeps).2.resetSelectorToValuePosBuffer.selectedPositions =
      m.selectedPositions.filter fun pos ↦ visits pos && keeps pos :=
  kept_compact m.isUnfiltered visits keeps m.selectedSize m.selectedPositionsBuffer

/-- The rows that are kept, if there are any.  If there are none, the selection may be as it was. -/
structure Selects (m : SelectionMemory) (keeps : ℕ → Bool) (r : Bool × SelectionMemory) : Prop where
  fst : r.1 = decide (m.selectedPositions.filter keeps ≠ [])
  snd : r.1 = true →
    r.2.resetSelectorToValuePosBuffer.selectedPositions = m.selectedPositions.filter keeps

theorem selects_select (m : SelectionMemory) (visits keeps : ℕ → Bool) :
    m.Selects (fun pos ↦ visits pos && keeps pos) (m.select visits keeps) := by
  refine ⟨decide_eq_decide.mpr ?_, fun _ ↦ m.selectedPositions_select visits keeps⟩
  rw [← selectedPositions_select, ← List.length_pos_iff, length_selectedPositions]
  rfl

theorem Selects.congr {m : SelectionMemory} {keeps keeps' : ℕ → Bool} {r : Bool × SelectionMemory}
    (h : m.Selects keeps r) (hkeeps : ∀ pos ∈ m.selectedPositions, keeps pos = keeps' pos) :
    m.Selects keeps' r := by
  have hfilter := List.filter_congr hkeeps
  exact ⟨hfilter ▸ h.fst, hfilter ▸ h.snd⟩

/-- Nothing is true. -/
theorem selects_none {m : SelectionMemory} {keeps : ℕ → Bool}
    (hkeeps : ∀ pos, keeps pos = false) : m.Selects keeps (false, m) := by
  have hfilter : m.selectedPositions.filter keeps = [] := by simp [hkeeps]
  refine ⟨?_, nofun⟩
  rw [hfilter]
  rfl

end Graphflow.Processor.SelectionMemory

namespace Graphflow.Function

open Processor Lib

/-! ## Operations -/

/-- `NULL_BOOL`. -/
def nullBool : UInt8 := 2

/-- Two operands and whether they are null. -/
abbrev BooleanOperation := Bool → Bool → Bool → Bool → UInt8

namespace BooleanOperation

def and : BooleanOperation := fun left right isLeftNull isRightNull ↦
  if !left && !isLeftNull then 0
  else if !right && !isRightNull then 0
  else if isLeftNull || isRightNull then nullBool
  else 1

def or : BooleanOperation := fun left right isLeftNull isRightNull ↦
  if left && !isLeftNull then 1
  else if right && !isRightNull then 1
  else if isLeftNull || isRightNull then nullBool
  else 0

def xor : BooleanOperation := fun left right isLeftNull isRightNull ↦
  if isLeftNull || isRightNull then nullBool else if left ^^ right then 1 else 0

def not (operand isNull : Bool) : UInt8 := if isNull then nullBool else if operand then 0 else 1

end BooleanOperation

/-- The truth value of a byte that an operation has written. -/
def truth (byte : UInt8) : Option Bool := if byte = nullBool then none else some (byte == 1)

/-- An operand that is null has no truth value. -/
def operandTruth (operand isNull : Bool) : Option Bool := if isNull then none else some operand

/-- Three truth values: an operand that decides does so whatever the other one is. -/
def threeValuedAnd : Option Bool → Option Bool → Option Bool
  | some false, _ => some false
  | _, some false => some false
  | some true, some true => some true
  | _, _ => none

def threeValuedOr : Option Bool → Option Bool → Option Bool
  | some true, _ => some true
  | _, some true => some true
  | some false, some false => some false
  | _, _ => none

def threeValuedXor (left right : Option Bool) : Option Bool := do
  let left ← left
  let right ← right
  return left ^^ right

/-- The operation on bytes computes a function on truth values. -/
def BooleanOperation.Computes (op : BooleanOperation)
    (logic : Option Bool → Option Bool → Option Bool) : Prop :=
  ∀ left right isLeftNull isRightNull, truth (op left right isLeftNull isRightNull) =
    logic (operandTruth left isLeftNull) (operandTruth right isRightNull)

/-- What is written is a truth value. -/
def BooleanOperation.WritesTruth (op : BooleanOperation) : Prop :=
  ∀ left right isLeftNull isRightNull, op left right isLeftNull isRightNull = 0 ∨
    op left right isLeftNull isRightNull = 1 ∨ op left right isLeftNull isRightNull = nullBool

theorem computes_and : BooleanOperation.and.Computes threeValuedAnd := by
  simp only [BooleanOperation.Computes]
  decide

theorem computes_or : BooleanOperation.or.Computes threeValuedOr := by
  simp only [BooleanOperation.Computes]
  decide

theorem computes_xor : BooleanOperation.xor.Computes threeValuedXor := by
  simp only [BooleanOperation.Computes]
  decide

theorem truth_not (operand isNull : Bool) :
    truth (BooleanOperation.not operand isNull) = (operandTruth operand isNull).map (!·) := by
  cases operand <;> cases isNull <;> rfl

theorem writesTruth_not (operand isNull : Bool) : BooleanOperation.not operand isNull = 0 ∨
    BooleanOperation.not operand isNull = 1 ∨ BooleanOperation.not operand isNull = nullBool := by
  cases operand <;> cases isNull <;> decide

/-! ## Vectors of truth values -/

namespace VectorData

/-- Every byte but zero is true. -/
def readBool (v : VectorData UInt8) (pos : ℕ) : Option Bool :=
  operandTruth (v.values pos != 0) (v.isNull pos)

/-- The truth value of an operand in a row. -/
def boolAt (v : VectorData UInt8) (pos : ℕ) : Option Bool := v.readBool (v.operandPos pos)

end VectorData

/-- A byte and whether it is null. -/
def booleanCell (byte : UInt8) : Cell UInt8 := (byte == nullBool, byte)

theorem readBool_eq_truth {v : VectorData UInt8} {pos : ℕ} {byte : UInt8}
    (hcell : v.cell pos = booleanCell byte) (hbyte : byte = 0 ∨ byte = 1 ∨ byte = nullBool) :
    v.readBool pos = truth byte := by
  have hnull : v.isNull pos = (byte == nullBool) := congrArg Prod.fst hcell
  have hvalue : v.values pos = byte := congrArg Prod.snd hcell
  rw [VectorData.readBool, hnull, hvalue]
  rcases hbyte with rfl | rfl | rfl <;> rfl

/-- `result[pos] = byte`, and the null bit says whether that is a null. -/
def VectorData.setBoolean (result : VectorData UInt8) (pos : ℕ) (byte : UInt8) : VectorData UInt8 :=
  (result.setValue pos byte).setNull pos (byte == nullBool)

theorem cell_setBoolean (result : VectorData UInt8) (pos' pos : ℕ) (byte : UInt8) :
    (result.setBoolean pos' byte).cell pos =
      if pos = pos' then booleanCell byte else result.cell pos := by
  split_ifs with heq
  · subst heq
    exact Prod.ext (Function.update_self _ _ _) (Function.update_self _ _ _)
  · exact Prod.ext (Function.update_of_ne heq _ _) (Function.update_of_ne heq _ _)

/-- A loop that writes a byte to each position. -/
theorem cell_foldl_setBoolean (byte : ℕ → UInt8) (positions : List ℕ) (result : VectorData UInt8)
    (pos : ℕ) :
    (positions.foldl (fun result pos ↦ result.setBoolean pos (byte pos)) result).cell pos =
      if pos ∈ positions then booleanCell (byte pos) else result.cell pos := by
  refine @Execution.cell_foldl _ _ (fun pos _ ↦ booleanCell (byte pos)) ?_ (fun _ _ ↦ rfl)
    positions result pos
  intro result pos' pos
  rw [cell_setBoolean]
  split_ifs with heq
  · rw [heq]
  · rfl

theorem state_foldl_setBoolean (byte : ℕ → UInt8) (positions : List ℕ)
    (result : VectorData UInt8) :
    (positions.foldl (fun result pos ↦ result.setBoolean pos (byte pos)) result).state =
      result.state :=
  List.foldlRecOn (motive := fun v : VectorData UInt8 ↦ v.state = result.state) _ _ rfl
    fun _ h _ _ ↦ h

theorem truth_beq_some_true (byte : UInt8) : (truth byte == some true) = (byte == 1) := by
  rw [truth]
  split_ifs with hnull
  · rw [hnull]
    rfl
  · cases byte == 1 <;> rfl

/-! ## Executors -/

/-- A result is flat if both operands are. -/
def resultState {L R : Type} (left : VectorData L) (right : VectorData R) : VectorState :=
  if left.state.isFlat && !right.state.isFlat then right.state else left.state

namespace BinaryBooleanOperationExecutor

variable (op : BooleanOperation) (left right : VectorData UInt8)

/-- The byte of a row. -/
def operationOnValue (lPos rPos : ℕ) : UInt8 :=
  op (left.values lPos != 0) (right.values rPos != 0) (left.isNull lPos) (right.isNull rPos)

def executeBothFlat (result : VectorData UInt8) : VectorData UInt8 :=
  let lPos := left.state.getPositionOfCurrIdx
  let rPos := right.state.getPositionOfCurrIdx
  let result := { result with state := left.state }
  result.setBoolean result.state.getPositionOfCurrIdx (operationOnValue op left right lPos rPos)

def executeFlatUnFlat (result : VectorData UInt8) : VectorData UInt8 :=
  let lPos := left.state.getPositionOfCurrIdx
  right.state.positions.foldl
    (fun result pos ↦ result.setBoolean pos (operationOnValue op left right lPos pos))
    { result with state := right.state }

def executeUnFlatFlat (result : VectorData UInt8) : VectorData UInt8 :=
  let rPos := right.state.getPositionOfCurrIdx
  left.state.positions.foldl
    (fun result pos ↦ result.setBoolean pos (operationOnValue op left right pos rPos))
    { result with state := left.state }

def executeBothUnFlat (result : VectorData UInt8) : VectorData UInt8 :=
  left.state.positions.foldl
    (fun result pos ↦ result.setBoolean pos (operationOnValue op left right pos pos))
    { result with state := left.state }

def execute (result : VectorData UInt8) : VectorData UInt8 :=
  match left.state.isFlat, right.state.isFlat with
  | true, true => executeBothFlat op left right result
  | true, false => executeFlatUnFlat op left right result
  | false, true => executeUnFlatFlat op left right result
  | false, false => executeBothUnFlat op left right result

def selectBothFlat : Bool :=
  operationOnValue op left right left.state.getPositionOfCurrIdx
    right.state.getPositionOfCurrIdx == 1

def selectFlatUnFlat (selVector : SelectionMemory) : Bool × SelectionMemory :=
  let lPos := left.state.getPositionOfCurrIdx
  selVector.select (fun _ ↦ true) fun pos ↦ operationOnValue op left right lPos pos == 1

def selectUnFlatFlat (selVector : SelectionMemory) : Bool × SelectionMemory :=
  let rPos := right.state.getPositionOfCurrIdx
  selVector.select (fun _ ↦ true) fun pos ↦ operationOnValue op left right pos rPos == 1

def selectBothUnFlat (selVector : SelectionMemory) : Bool × SelectionMemory :=
  selVector.select (fun _ ↦ true) fun pos ↦ operationOnValue op left right pos pos == 1

/-- The selection of the unflat operands is the one that is written. -/
def select (selVector : SelectionMemory) : Bool × SelectionMemory :=
  match left.state.isFlat, right.state.isFlat with
  | true, true => (selectBothFlat op left right, selVector)
  | true, false => selectFlatUnFlat op left right selVector
  | false, true => selectUnFlatFlat op left right selVector
  | false, false => selectBothUnFlat op left right selVector

variable {op left right} {logic : Option Bool → Option Bool → Option Bool} {pos : ℕ}

/-- All executors are one loop. -/
theorem execute_eq (result : VectorData UInt8) : execute op left right result =
    (resultState left right).readPositions.foldl (fun result pos ↦ result.setBoolean pos
        (operationOnValue op left right (left.operandPos pos) (right.operandPos pos)))
      { result with state := resultState left right } := by
  rw [execute, resultState]
  split
  · rename_i hleft hright
    have hstate : (if true && !true then right.state else left.state) = left.state := rfl
    simp only [hleft, hright, hstate, VectorData.operandPos_of_isFlat,
      VectorState.readPositions_of_isFlat]
    rfl
  · rename_i hleft hright
    have hstate : (if true && !false then right.state else left.state) = right.state := rfl
    simp only [hleft, hright, hstate, VectorData.operandPos_of_isFlat,
      VectorData.operandPos_of_unflat, VectorState.readPositions_of_unflat]
    rfl
  · rename_i hleft hright
    have hstate : (if false && !true then right.state else left.state) = left.state := rfl
    simp only [hleft, hright, hstate, VectorData.operandPos_of_isFlat,
      VectorData.operandPos_of_unflat, VectorState.readPositions_of_unflat]
    rfl
  · rename_i hleft hright
    have hstate : (if false && !false then right.state else left.state) = left.state := rfl
    simp only [hleft, hright, hstate, VectorData.operandPos_of_unflat,
      VectorState.readPositions_of_unflat]
    rfl

theorem state_execute (result : VectorData UInt8) :
    (execute op left right result).state = resultState left right := by
  rw [execute_eq]
  exact state_foldl_setBoolean _ _ _

theorem truth_operationOnValue (hop : op.Computes logic) (lPos rPos : ℕ) :
    truth (operationOnValue op left right lPos rPos) =
      logic (left.readBool lPos) (right.readBool rPos) := hop _ _ _ _

theorem readBool_execute (hop : op.Computes logic) (hbytes : op.WritesTruth)
    (hpos : pos ∈ (resultState left right).readPositions) (result : VectorData UInt8) :
    (execute op left right result).readBool pos = logic (left.boolAt pos) (right.boolAt pos) := by
  have hcell : (execute op left right result).cell pos = booleanCell
      (operationOnValue op left right (left.operandPos pos) (right.operandPos pos)) := by
    rw [execute_eq, cell_foldl_setBoolean, if_pos hpos]
  rw [readBool_eq_truth hcell (hbytes _ _ _ _), truth_operationOnValue hop]
  rfl

/-- Where one of the operands is not flat. -/
theorem selects_select (hop : op.Computes logic)
    (hunflat : (left.state.isFlat && right.state.isFlat) = false) (m : SelectionMemory) :
    m.Selects (fun pos ↦ logic (left.boolAt pos) (right.boolAt pos) == some true)
      (select op left right m) := by
  have hkeeps : ∀ keeps : ℕ → Bool, (∀ pos, keeps pos =
      (operationOnValue op left right (left.operandPos pos) (right.operandPos pos) == 1)) →
      m.Selects (fun pos ↦ logic (left.boolAt pos) (right.boolAt pos) == some true)
        (m.select (fun _ ↦ true) keeps) := by
    intro keeps h
    refine (m.selects_select _ keeps).congr fun pos _ ↦ ?_
    rw [Bool.true_and, h, ← truth_beq_some_true, truth_operationOnValue hop]
    rfl
  rw [select]
  split
  · rename_i hleft hright
    rw [hleft, hright] at hunflat
    cases hunflat
  · rename_i hleft hright
    refine hkeeps _ fun pos ↦ ?_
    rw [VectorData.operandPos_of_isFlat hleft, VectorData.operandPos_of_unflat hright]
  · rename_i hleft hright
    refine hkeeps _ fun pos ↦ ?_
    rw [VectorData.operandPos_of_unflat hleft, VectorData.operandPos_of_isFlat hright]
  · rename_i hleft hright
    refine hkeeps _ fun pos ↦ ?_
    rw [VectorData.operandPos_of_unflat hleft, VectorData.operandPos_of_unflat hright]

theorem select_of_isFlat (hop : op.Computes logic)
    (hflat : (left.state.isFlat && right.state.isFlat) = true) (m : SelectionMemory) (pos : ℕ) :
    select op left right m = (logic (left.boolAt pos) (right.boolAt pos) == some true, m) := by
  obtain ⟨hleft, hright⟩ := Bool.and_eq_true_iff.mp hflat
  rw [select, hleft, hright, VectorData.boolAt, VectorData.boolAt,
    VectorData.operandPos_of_isFlat hleft, VectorData.operandPos_of_isFlat hright,
    ← truth_operationOnValue hop, truth_beq_some_true]
  rfl

end BinaryBooleanOperationExecutor

namespace UnaryBooleanOperationExecutor

variable (op : Bool → Bool → UInt8) (operand : VectorData UInt8)

def operationOnValue (pos : ℕ) : UInt8 := op (operand.values pos != 0) (operand.isNull pos)

def executeSwitch (result : VectorData UInt8) : VectorData UInt8 :=
  let result := { result with state := operand.state }
  if operand.state.isFlat then
    let pos := operand.state.getPositionOfCurrIdx
    result.setBoolean pos (operationOnValue op operand pos)
  else
    operand.state.positions.foldl
      (fun result pos ↦ result.setBoolean pos (operationOnValue op operand pos)) result

def select (selVector : SelectionMemory) : Bool × SelectionMemory :=
  if operand.state.isFlat then
    (operationOnValue op operand operand.state.getPositionOfCurrIdx == 1, selVector)
  else selVector.select (fun _ ↦ true) fun pos ↦ operationOnValue op operand pos == 1

variable {op operand} {logic : Option Bool → Option Bool} {pos : ℕ}

theorem executeSwitch_eq (result : VectorData UInt8) : executeSwitch op operand result =
    operand.state.readPositions.foldl
      (fun result pos ↦ result.setBoolean pos (operationOnValue op operand pos))
      { result with state := operand.state } := by
  rw [executeSwitch, VectorState.readPositions]
  split_ifs <;> rfl

theorem state_executeSwitch (result : VectorData UInt8) :
    (executeSwitch op operand result).state = operand.state := by
  rw [executeSwitch_eq]
  exact state_foldl_setBoolean _ _ _

theorem readBool_executeSwitch (hop : ∀ operand isNull,
      truth (op operand isNull) = logic (operandTruth operand isNull))
    (hbytes : ∀ operand isNull,
      op operand isNull = 0 ∨ op operand isNull = 1 ∨ op operand isNull = nullBool)
    (hpos : pos ∈ operand.state.readPositions) (result : VectorData UInt8) :
    (executeSwitch op operand result).readBool pos = logic (operand.boolAt pos) := by
  have hcell : (executeSwitch op operand result).cell pos =
      booleanCell (operationOnValue op operand pos) := by
    rw [executeSwitch_eq, cell_foldl_setBoolean, if_pos hpos]
  rw [readBool_eq_truth hcell (hbytes _ _), VectorData.boolAt,
    VectorData.operandPos_of_mem hpos]
  exact hop _ _

theorem selects_select (hop : ∀ operand isNull,
      truth (op operand isNull) = logic (operandTruth operand isNull))
    (hunflat : operand.state.isFlat = false) (m : SelectionMemory) :
    m.Selects (fun pos ↦ logic (operand.boolAt pos) == some true) (select op operand m) := by
  rw [select, if_neg (Bool.eq_false_iff.mp hunflat)]
  refine (m.selects_select _ _).congr fun pos _ ↦ ?_
  rw [Bool.true_and, ← truth_beq_some_true, VectorData.boolAt,
    VectorData.operandPos_of_unflat hunflat]
  exact congrArg (· == some true) (hop _ _)

theorem select_of_isFlat (hop : ∀ operand isNull,
      truth (op operand isNull) = logic (operandTruth operand isNull))
    (hflat : operand.state.isFlat = true) (m : SelectionMemory) (pos : ℕ) :
    select op operand m = (logic (operand.boolAt pos) == some true, m) := by
  rw [select, if_pos hflat, ← truth_beq_some_true, VectorData.boolAt,
    VectorData.operandPos_of_isFlat hflat]
  exact congrArg (fun truth ↦ (truth == some true, m)) (hop _ _)

end UnaryBooleanOperationExecutor

namespace NullOperationExecutor

-- `IS NULL` and `IS NOT NULL` are given by what they say of a null.
variable {V : Type} (op : Bool → Bool) (operand : VectorData V)

/-- The null bits of the result are not written. -/
def execute (result : VectorData UInt8) : VectorData UInt8 :=
  let result := { result with state := operand.state }
  if operand.state.isFlat then
    let pos := operand.state.getPositionOfCurrIdx
    result.setValue pos (op (operand.isNull pos)).toUInt8
  else
    operand.state.positions.foldl
      (fun result pos ↦ result.setValue pos (op (operand.isNull pos)).toUInt8) result

def select (selVector : SelectionMemory) : Bool × SelectionMemory :=
  if operand.state.isFlat then (op (operand.isNull operand.state.getPositionOfCurrIdx), selVector)
  else selVector.select (fun _ ↦ true) fun pos ↦ op (operand.isNull pos)

variable {op operand} {pos : ℕ}

/-- What the operation says of a row. -/
def nullAt (op : Bool → Bool) (operand : VectorData V) (pos : ℕ) : Bool :=
  op (operand.isNull (operand.operandPos pos))

theorem execute_eq (result : VectorData UInt8) : execute op operand result =
    operand.state.readPositions.foldl
      (fun result pos ↦ result.setValue pos (op (operand.isNull pos)).toUInt8)
      { result with state := operand.state } := by
  rw [execute, VectorState.readPositions]
  split_ifs <;> rfl

theorem state_execute (result : VectorData UInt8) :
    (execute op operand result).state = operand.state := by
  rw [execute_eq]
  exact List.foldlRecOn (motive := fun v : VectorData UInt8 ↦ v.state = operand.state) _ _ rfl
    fun _ h _ _ ↦ h

/-- The null bits are those of the vector as it has been. -/
theorem readBool_execute {result : VectorData UInt8} (hclear : result.isNull pos = false)
    (hpos : pos ∈ operand.state.readPositions) :
    (execute op operand result).readBool pos = some (nullAt op operand pos) := by
  have hcell : (execute op operand result).cell pos =
      (result.isNull pos, (op (operand.isNull pos)).toUInt8) := by
    rw [execute_eq, @Execution.cell_foldl _ _
      (fun pos cell ↦ (cell.1, (op (operand.isNull pos)).toUInt8)) (fun result pos' pos ↦ by
        rw [Execution.cell_setValue]
        split_ifs with heq
        · rw [heq]
        · rfl) (fun _ _ ↦ rfl), if_pos hpos]
    rfl
  have hnull : (execute op operand result).isNull pos = false :=
    (congrArg Prod.fst hcell).trans hclear
  have hvalue : (execute op operand result).values pos = (op (operand.isNull pos)).toUInt8 :=
    congrArg Prod.snd hcell
  rw [VectorData.readBool, hnull, hvalue, nullAt,
    VectorData.operandPos_of_mem hpos]
  cases op (operand.isNull pos) <;> rfl

theorem selects_select (hunflat : operand.state.isFlat = false) (m : SelectionMemory) :
    m.Selects (nullAt op operand) (select op operand m) := by
  rw [select, if_neg (Bool.eq_false_iff.mp hunflat)]
  refine (m.selects_select _ _).congr fun pos _ ↦ ?_
  rw [Bool.true_and, nullAt, VectorData.operandPos_of_unflat hunflat]

theorem select_of_isFlat (hflat : operand.state.isFlat = true) (m : SelectionMemory) (pos : ℕ) :
    select op operand m = (nullAt op operand pos, m) := by
  rw [select, if_pos hflat, nullAt, VectorData.operandPos_of_isFlat hflat]

end NullOperationExecutor

namespace BinaryOperationExecutor

variable {L R : Type} (op : L → R → Bool) (left : VectorData L) (right : VectorData R)

/-- A comparison, whose operands may have other types than its result. -/
def executeComparison : Execution UInt8 :=
  match left.state.isFlat, right.state.isFlat with
  | true, true => .flat left.state (left.isNullAtCurrIdx || right.isNullAtCurrIdx)
      (op left.valueAtCurrIdx right.valueAtCurrIdx).toUInt8
  | true, false => .unflat right.state left.isNullAtCurrIdx right.hasNoNullsGuarantee
      right.state.positions right.isNull
      fun pos ↦ (op left.valueAtCurrIdx (right.values pos)).toUInt8
  | false, true => .unflat left.state right.isNullAtCurrIdx left.hasNoNullsGuarantee
      left.state.positions left.isNull
      fun pos ↦ (op (left.values pos) right.valueAtCurrIdx).toUInt8
  | false, false => .unflat left.state false
      (left.hasNoNullsGuarantee && right.hasNoNullsGuarantee) left.state.positions
      (fun pos ↦ left.isNull pos || right.isNull pos)
      fun pos ↦ (op (left.values pos) (right.values pos)).toUInt8

def selectBothFlat : Bool :=
  !left.isNullAtCurrIdx && !right.isNullAtCurrIdx && op left.valueAtCurrIdx right.valueAtCurrIdx

def selectFlatUnFlat (selVector : SelectionMemory) : Bool × SelectionMemory :=
  if left.isNullAtCurrIdx then (false, selVector)
  else selVector.select (fun pos ↦ right.hasNoNullsGuarantee || !right.isNull pos)
    fun pos ↦ op left.valueAtCurrIdx (right.values pos)

def selectUnFlatFlat (selVector : SelectionMemory) : Bool × SelectionMemory :=
  if right.isNullAtCurrIdx then (false, selVector)
  else selVector.select (fun pos ↦ left.hasNoNullsGuarantee || !left.isNull pos)
    fun pos ↦ op (left.values pos) right.valueAtCurrIdx

def selectBothUnFlat (selVector : SelectionMemory) : Bool × SelectionMemory :=
  selVector.select (fun pos ↦ left.hasNoNullsGuarantee && right.hasNoNullsGuarantee ||
      !(left.isNull pos || right.isNull pos))
    fun pos ↦ op (left.values pos) (right.values pos)

def select (selVector : SelectionMemory) : Bool × SelectionMemory :=
  match left.state.isFlat, right.state.isFlat with
  | true, true => (selectBothFlat op left right, selVector)
  | true, false => selectFlatUnFlat op left right selVector
  | false, true => selectUnFlatFlat op left right selVector
  | false, false => selectBothUnFlat op left right selVector

/-! ### Comparing rows -/

/-- The comparison of the operands of a row. -/
def compareAt (op : L → R → Bool) (left : VectorData L) (right : VectorData R) (pos : ℕ) :
    Option Bool :=
  (left.operand pos).bind fun l ↦ (right.operand pos).map (op l)

variable {op left right}

theorem isFlatAsSaid_executeComparison : (executeComparison op left right).IsFlatAsSaid := by
  rw [executeComparison]
  split
  · assumption
  · assumption
  · assumption
  · assumption

theorem guaranteesNoNulls_executeComparison :
    (executeComparison op left right).GuaranteesNoNulls := by
  rw [executeComparison]
  split
  · trivial
  · exact VectorData.isNull_of_hasNoNullsGuarantee
  · exact VectorData.isNull_of_hasNoNullsGuarantee
  · exact VectorData.isNull_or_of_hasNoNullsGuarantee

theorem covers_executeComparison : (executeComparison op left right).Covers := by
  rw [executeComparison]
  split
  · trivial
  · exact fun _ _ _ hpos ↦ hpos
  · exact fun _ _ _ hpos ↦ hpos
  · exact fun _ _ _ hpos ↦ hpos

theorem state_executeComparison :
    (executeComparison op left right).state = resultState left right := by
  rw [executeComparison, resultState]
  split
  all_goals
    rename_i hleft hright
    rw [hleft, hright]
    rfl

theorem compareAt_eq (pos : ℕ) : compareAt op left right pos =
    if left.isNull (left.operandPos pos) then none
    else if right.isNull (right.operandPos pos) then none
    else some (op (left.values (left.operandPos pos)) (right.values (right.operandPos pos))) := by
  rw [compareAt, VectorData.operand, VectorData.operand, VectorData.read, VectorData.read,
    bind_nullable, map_nullable]

theorem valueAt_executeComparison (pos : ℕ) :
    (executeComparison op left right).valueAt pos =
      (compareAt op left right pos).map Bool.toUInt8 := by
  rw [executeComparison, compareAt_eq, ← nullable_or, map_nullable]
  split
  · rename_i hleft hright
    rw [VectorData.operandPos_of_isFlat hleft, VectorData.operandPos_of_isFlat hright]
    rfl
  · rename_i hleft hright
    rw [VectorData.operandPos_of_isFlat hleft, VectorData.operandPos_of_unflat hright]
    rfl
  · rename_i hleft hright
    rw [VectorData.operandPos_of_unflat hleft, VectorData.operandPos_of_isFlat hright, Bool.or_comm]
    rfl
  · rename_i hleft hright
    rw [VectorData.operandPos_of_unflat hleft, VectorData.operandPos_of_unflat hright]
    rfl

theorem readBool_eq_of_read {v : VectorData UInt8} {pos : ℕ} {o : Option Bool}
    (hread : v.read pos = o.map Bool.toUInt8) : v.readBool pos = o := by
  rw [VectorData.read] at hread
  rw [VectorData.readBool, operandTruth]
  split_ifs at hread ⊢
  · exact (Option.map_eq_none_iff.mp hread.symm).symm
  · obtain ⟨b, rfl, hvalue⟩ := Option.map_eq_some_iff.mp hread.symm
    rw [← hvalue]
    cases b <;> rfl

theorem readBool_executeComparison {result : VectorData UInt8} {pos : ℕ}
    (hharmless : (executeComparison op left right).Harmless 0 result.cell)
    (hpos : pos ∈ (resultState left right).readPositions) :
    ((executeComparison op left right).perform result).readBool pos =
      compareAt op left right pos := by
  have hstate : (executeComparison op left right).state = resultState left right :=
    state_executeComparison
  rw [← hstate] at hpos
  refine readBool_eq_of_read ?_
  rw [← valueAt_executeComparison]
  exact covers_executeComparison.read_perform isFlatAsSaid_executeComparison
    guaranteesNoNulls_executeComparison hharmless hpos

theorem compareAt_beq (pos : ℕ) : (compareAt op left right pos == some true) =
    (!(left.isNull (left.operandPos pos) || right.isNull (right.operandPos pos)) &&
      op (left.values (left.operandPos pos)) (right.values (right.operandPos pos))) := by
  rw [compareAt_eq, ← nullable_or]
  cases left.isNull (left.operandPos pos) || right.isNull (right.operandPos pos) with
  | true => rfl
  | false =>
      cases op (left.values (left.operandPos pos)) (right.values (right.operandPos pos)) with
      | true => rfl
      | false => rfl

/-- If the null bits are not read, they are clear. -/
theorem guarantee_or {noNulls isNull : Bool} (h : noNulls = true → isNull = false) :
    (noNulls || !isNull) = !isNull := by
  cases noNulls with
  | true =>
      rw [h rfl]
      rfl
  | false => rfl

/-- Where one of the operands is not flat. -/
theorem selects_select (hunflat : (left.state.isFlat && right.state.isFlat) = false)
    (m : SelectionMemory) :
    m.Selects (fun pos ↦ compareAt op left right pos == some true) (select op left right m) := by
  have hvisits : ∀ visits keeps : ℕ → Bool, (∀ pos, (visits pos && keeps pos) =
      (compareAt op left right pos == some true)) →
      m.Selects (fun pos ↦ compareAt op left right pos == some true) (m.select visits keeps) :=
    fun visits keeps h ↦ (m.selects_select visits keeps).congr fun pos _ ↦ h pos
  rw [select]
  split
  · rename_i hleft hright
    rw [hleft, hright] at hunflat
    cases hunflat
  · rename_i hleft hright
    have hpos := VectorData.operandPos_of_isFlat hleft
    have hpos' := VectorData.operandPos_of_unflat hright
    rw [selectFlatUnFlat]
    split_ifs with hnull
    · refine SelectionMemory.selects_none fun pos ↦ ?_
      have hleftNull : left.isNull left.state.getPositionOfCurrIdx = true := hnull
      rw [compareAt_beq, hpos, hleftNull]
      rfl
    · refine hvisits _ _ fun pos ↦ ?_
      have hleftNull : left.isNull left.state.getPositionOfCurrIdx = false :=
        Bool.eq_false_iff.mpr hnull
      rw [compareAt_beq, hpos, hpos', hleftNull, Bool.false_or,
        guarantee_or fun h ↦ VectorData.isNull_of_hasNoNullsGuarantee h pos]
      rfl
  · rename_i hleft hright
    have hpos := VectorData.operandPos_of_unflat hleft
    have hpos' := VectorData.operandPos_of_isFlat hright
    rw [selectUnFlatFlat]
    split_ifs with hnull
    · refine SelectionMemory.selects_none fun pos ↦ ?_
      have hrightNull : right.isNull right.state.getPositionOfCurrIdx = true := hnull
      rw [compareAt_beq, hpos', hrightNull, Bool.or_true]
      rfl
    · refine hvisits _ _ fun pos ↦ ?_
      have hrightNull : right.isNull right.state.getPositionOfCurrIdx = false :=
        Bool.eq_false_iff.mpr hnull
      rw [compareAt_beq, hpos, hpos', hrightNull, Bool.or_false,
        guarantee_or fun h ↦ VectorData.isNull_of_hasNoNullsGuarantee h pos]
      rfl
  · rename_i hleft hright
    refine hvisits _ _ fun pos ↦ ?_
    rw [compareAt_beq, VectorData.operandPos_of_unflat hleft,
      VectorData.operandPos_of_unflat hright,
      guarantee_or fun h ↦ VectorData.isNull_or_of_hasNoNullsGuarantee h pos]

theorem select_of_isFlat (hflat : (left.state.isFlat && right.state.isFlat) = true)
    (m : SelectionMemory) (pos : ℕ) :
    select op left right m = (compareAt op left right pos == some true, m) := by
  obtain ⟨hleft, hright⟩ := Bool.and_eq_true_iff.mp hflat
  rw [select, hleft, hright, compareAt_beq, VectorData.operandPos_of_isFlat hleft,
    VectorData.operandPos_of_isFlat hright, Bool.not_or]
  rfl

end BinaryOperationExecutor

end Graphflow.Function
