import Graphflow.Function.VectorData

/-!
# Executors of operations

An executor fills the result vector in one of two ways: all operands are flat, or it loops over the
positions of the unflat ones.  If these guarantee to have no nulls, the loop does not write the null
mask.
-/

namespace Graphflow.Function

variable {V : Type}

/-- What an executor is about to do.  The loop that writes the null mask has positions of its
own. -/
inductive Execution (V : Type)
  | flat (state : VectorState) (isNull : Bool) (value : V)
  | unflat (state : VectorState) (flatIsNull noNulls : Bool) (nullPositions : List ℕ)
      (isNull : ℕ → Bool) (value : ℕ → V)

namespace Execution

/-- A null is written and then read back. -/
def executeNullable (result : VectorData V) (pos : ℕ) (isNull : Bool) (value : V) : VectorData V :=
  let result := result.setNull pos isNull
  if result.isNull pos then result else result.setValue pos value

def perform (result : VectorData V) : Execution V → VectorData V
  | flat state isNull value =>
      executeNullable { result with state := state } state.getPositionOfCurrIdx isNull value
  | unflat state flatIsNull noNulls nullPositions isNull value =>
      let result := { result with state := state }
      if flatIsNull then result.setAllNull
      else if noNulls then
        state.positions.foldl (fun result pos ↦ result.setValue pos (value pos)) result
      else
        nullPositions.foldl (fun result pos ↦
          executeNullable result pos (isNull pos) (value pos)) result

end Execution

/-! ## Unary operations -/

namespace UnaryOperationExecutor

def executeSwitch (op : V → V) (operand : VectorData V) : Execution V :=
  if operand.state.isFlat then
    .flat operand.state operand.isNullAtCurrIdx (op operand.valueAtCurrIdx)
  else
    .unflat operand.state false operand.hasNoNullsGuarantee operand.state.positions operand.isNull
      fun pos ↦ op (operand.values pos)

end UnaryOperationExecutor

/-! ## Binary operations -/

namespace BinaryOperationExecutor

variable (op : V → V → V) (left right : VectorData V)

def executeBothFlat : Execution V :=
  .flat left.state (left.isNullAtCurrIdx || right.isNullAtCurrIdx)
    (op left.valueAtCurrIdx right.valueAtCurrIdx)

def executeFlatUnFlat : Execution V :=
  .unflat right.state left.isNullAtCurrIdx right.hasNoNullsGuarantee right.state.positions
    right.isNull fun pos ↦ op left.valueAtCurrIdx (right.values pos)

def executeUnFlatFlat : Execution V :=
  .unflat left.state right.isNullAtCurrIdx left.hasNoNullsGuarantee left.state.positions
    left.isNull fun pos ↦ op (left.values pos) right.valueAtCurrIdx

/-- The operands have the same state. -/
def executeBothUnFlat : Execution V :=
  .unflat left.state false (left.hasNoNullsGuarantee && right.hasNoNullsGuarantee)
    left.state.positions (fun pos ↦ left.isNull pos || right.isNull pos)
    fun pos ↦ op (left.values pos) (right.values pos)

def executeSwitch : Execution V :=
  match left.state.isFlat, right.state.isFlat with
  | true, true => executeBothFlat op left right
  | true, false => executeFlatUnFlat op left right
  | false, true => executeUnFlatFlat op left right
  | false, false => executeBothUnFlat op left right

end BinaryOperationExecutor

/-! ## Ternary operations -/

namespace TernaryOperationExecutor

variable (op : V → V → V → V) (a b c : VectorData V)

def executeAllFlat : Execution V :=
  .flat a.state (a.isNullAtCurrIdx || b.isNullAtCurrIdx || c.isNullAtCurrIdx)
    (op a.valueAtCurrIdx b.valueAtCurrIdx c.valueAtCurrIdx)

def executeFlatFlatUnflat : Execution V :=
  .unflat c.state (a.isNullAtCurrIdx || b.isNullAtCurrIdx) c.hasNoNullsGuarantee c.state.positions
    c.isNull fun pos ↦ op a.valueAtCurrIdx b.valueAtCurrIdx (c.values pos)

def executeFlatUnflatUnflat : Execution V :=
  .unflat b.state a.isNullAtCurrIdx (b.hasNoNullsGuarantee && c.hasNoNullsGuarantee)
    b.state.positions (fun pos ↦ b.isNull pos || c.isNull pos)
    fun pos ↦ op a.valueAtCurrIdx (b.values pos) (c.values pos)

def executeFlatUnflatFlat : Execution V :=
  .unflat b.state (a.isNullAtCurrIdx || c.isNullAtCurrIdx) b.hasNoNullsGuarantee b.state.positions
    b.isNull fun pos ↦ op a.valueAtCurrIdx (b.values pos) c.valueAtCurrIdx

def executeAllUnFlat : Execution V :=
  .unflat a.state false
    (a.hasNoNullsGuarantee && b.hasNoNullsGuarantee && c.hasNoNullsGuarantee) a.state.positions
    (fun pos ↦ a.isNull pos || b.isNull pos || c.isNull pos)
    fun pos ↦ op (a.values pos) (b.values pos) (c.values pos)

def executeUnflatFlatFlat : Execution V :=
  .unflat a.state (b.isNullAtCurrIdx || c.isNullAtCurrIdx) a.hasNoNullsGuarantee a.state.positions
    a.isNull fun pos ↦ op (a.values pos) b.valueAtCurrIdx c.valueAtCurrIdx

/-- The filtered loop that writes the null mask takes the positions of `b`, which is flat. -/
def executeUnflatFlatUnflat : Execution V :=
  .unflat a.state b.isNullAtCurrIdx (a.hasNoNullsGuarantee && c.hasNoNullsGuarantee)
    (if a.state.selVector.isUnfiltered then List.range a.state.selVector.selectedSize
    else (List.range a.state.selVector.selectedSize).map b.state.selVector.positionAt)
    (fun pos ↦ a.isNull pos || c.isNull pos)
    fun pos ↦ op (a.values pos) b.valueAtCurrIdx (c.values pos)

def executeUnflatUnFlatFlat : Execution V :=
  .unflat a.state c.isNullAtCurrIdx (a.hasNoNullsGuarantee && b.hasNoNullsGuarantee)
    a.state.positions (fun pos ↦ a.isNull pos || b.isNull pos)
    fun pos ↦ op (a.values pos) (b.values pos) c.valueAtCurrIdx

def executeSwitch : Execution V :=
  match a.state.isFlat, b.state.isFlat, c.state.isFlat with
  | true, true, true => executeAllFlat op a b c
  | true, true, false => executeFlatFlatUnflat op a b c
  | true, false, false => executeFlatUnflatUnflat op a b c
  | true, false, true => executeFlatUnflatFlat op a b c
  | false, false, false => executeAllUnFlat op a b c
  | false, false, true => executeUnflatUnFlatFlat op a b c
  | false, true, true => executeUnflatFlatFlat op a b c
  | false, true, false => executeUnflatFlatUnflat op a b c

end TernaryOperationExecutor

/-! ## Function evaluators -/

/-- The function of an evaluator with its operation. -/
inductive FunctionEvaluator (V : Type)
  | unary (op : V → V)
  | binary (op : V → V → V)
  | ternary (op : V → V → V → V)

namespace FunctionEvaluator

/-- The result vectors of the children. -/
def Parameters : FunctionEvaluator V → Type
  | unary _ => VectorData V
  | binary _ => VectorData V × VectorData V
  | ternary _ => VectorData V × VectorData V × VectorData V

def execution : (f : FunctionEvaluator V) → f.Parameters → Execution V
  | unary op, operand => UnaryOperationExecutor.executeSwitch op operand
  | binary op, (left, right) => BinaryOperationExecutor.executeSwitch op left right
  | ternary op, (a, b, c) => TernaryOperationExecutor.executeSwitch op a b c

/-- `evaluate` fills the one result vector again and again. -/
def evaluate (f : FunctionEvaluator V) (resultVector : VectorData V) (parameters : f.Parameters) :
    VectorData V :=
  (f.execution parameters).perform resultVector

def evaluateAll (f : FunctionEvaluator V) (zero : V) (batches : List f.Parameters) :
    VectorData V :=
  batches.foldl f.evaluate (.fresh zero)

end FunctionEvaluator

end Graphflow.Function
