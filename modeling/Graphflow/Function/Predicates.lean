import Graphflow.Function.BooleanExecutors

/-!
# Predicates

The evaluator of a predicate either evaluates it, into a vector of truth values, or selects the rows
for which it is true.  To select, it evaluates its children and then decides row by row, writing to
the positions that it reads.
-/

namespace Graphflow.Function

open Processor

inductive BinaryBooleanFunction
  | and
  | or
  | xor

namespace BinaryBooleanFunction

def operation : BinaryBooleanFunction → BooleanOperation
  | and => .and
  | or => .or
  | xor => .xor

def logic : BinaryBooleanFunction → Option Bool → Option Bool → Option Bool
  | and => threeValuedAnd
  | or => threeValuedOr
  | xor => threeValuedXor

theorem computes_operation (f : BinaryBooleanFunction) : f.operation.Computes f.logic := by
  cases f with
  | and => exact computes_and
  | or => exact computes_or
  | xor => exact computes_xor

theorem writesTruth_operation (f : BinaryBooleanFunction) : f.operation.WritesTruth := by
  cases f with
  | and =>
      simp only [operation, BooleanOperation.WritesTruth]
      decide
  | or =>
      simp only [operation, BooleanOperation.WritesTruth]
      decide
  | xor =>
      simp only [operation, BooleanOperation.WritesTruth]
      decide

end BinaryBooleanFunction

/-- An evaluator whose result is a truth value, with the vectors of the other operands as their
evaluators have filled them.  Its own result vector holds what earlier batches have left there. -/
inductive PredicateEvaluator (V : Type)
  | reference (resultVector : VectorData UInt8)
  | literal (value : Option Bool)
  | comparison (op : V → V → Bool) (left right : VectorData V) (resultVector : VectorData UInt8)
  | nullCheck (op : Bool → Bool) (operand : VectorData V) (resultVector : VectorData UInt8)
  | binary (f : BinaryBooleanFunction) (left right : PredicateEvaluator V)
      (resultVector : VectorData UInt8)
  | not (child : PredicateEvaluator V) (resultVector : VectorData UInt8)

/-- `getSingleValueDataChunkState`. -/
def singleValueState : VectorState where
  selVector := { selectedSize := 1 }
  currIdx := some 0

namespace PredicateEvaluator

variable {V : Type}

/-- A null has the byte zero, as a new vector has it. -/
def literalVector (value : Option Bool) : VectorData UInt8 where
  state := singleValueState
  values := Function.update (fun _ ↦ 0) 0 (value.getD false).toUInt8
  nullMask := NullMask.setAllNonNull.setNull 0 value.isNone

/-- The result vector. -/
def evaluate : PredicateEvaluator V → VectorData UInt8
  | reference resultVector => resultVector
  | literal value => literalVector value
  | comparison op left right resultVector =>
      (BinaryOperationExecutor.executeComparison op left right).perform resultVector
  | nullCheck op operand resultVector => NullOperationExecutor.execute op operand resultVector
  | binary f left right resultVector =>
      BinaryBooleanOperationExecutor.execute f.operation left.evaluate right.evaluate resultVector
  | not child resultVector =>
      UnaryBooleanOperationExecutor.executeSwitch BooleanOperation.not child.evaluate resultVector

/-- `isTrue`. -/
def isTrue (vector : VectorData UInt8) (pos : ℕ) : Bool :=
  !vector.isNull pos && vector.values pos != 0

/-- The selection is that of the vectors that are not flat. -/
def select : PredicateEvaluator V → SelectionMemory → Bool × SelectionMemory
  | reference resultVector, selVector =>
      if resultVector.state.isFlat then
        (isTrue resultVector resultVector.state.getPositionOfCurrIdx, selVector)
      else selVector.select (fun _ ↦ true) (isTrue resultVector)
  | literal value, selVector =>
      let resultVector := literalVector value
      let pos := resultVector.state.getPositionOfCurrIdx
      (resultVector.values pos == 1 && !resultVector.isNull pos, selVector)
  | comparison op left right _, selVector => BinaryOperationExecutor.select op left right selVector
  | nullCheck op operand _, selVector => NullOperationExecutor.select op operand selVector
  | binary f left right _, selVector =>
      BinaryBooleanOperationExecutor.select f.operation left.evaluate right.evaluate selVector
  | not child _, selVector =>
      UnaryBooleanOperationExecutor.select BooleanOperation.not child.evaluate selVector

/-! ## Meaning -/

/-- The truth value of a row. -/
def truthAt : PredicateEvaluator V → ℕ → Option Bool
  | reference resultVector, pos => resultVector.boolAt pos
  | literal value, _ => value
  | comparison op left right _, pos => BinaryOperationExecutor.compareAt op left right pos
  | nullCheck op operand _, pos => some (NullOperationExecutor.nullAt op operand pos)
  | binary f left right _, pos => f.logic (left.truthAt pos) (right.truthAt pos)
  | not child _, pos => (child.truthAt pos).map (!·)

/-- A vector is flat or has the selection of the chunk. -/
def InChunk {U : Type} (selVector : SelectionMemory) (v : VectorData U) : Prop :=
  v.state.isFlat = true ∨ v.state = ⟨selVector, none⟩

/-- All vectors that are not flat belong to one chunk, and where a result vector has null bits that
are not written they are clear. -/
def WellFormed (selVector : SelectionMemory) : PredicateEvaluator V → Prop
  | reference resultVector => InChunk selVector resultVector
  | literal _ => True
  | comparison op left right resultVector =>
      InChunk selVector left ∧ InChunk selVector right ∧
        (BinaryOperationExecutor.executeComparison op left right).Harmless 0 resultVector.cell
  | nullCheck _ operand resultVector =>
      InChunk selVector operand ∧ ∀ pos, resultVector.isNull pos = false
  | binary _ left right _ => left.WellFormed selVector ∧ right.WellFormed selVector
  | not child _ => child.WellFormed selVector

/-! ## Evaluating -/

section Chunk

variable {L R : Type} {left : VectorData L} {right : VectorData R} {selVector : SelectionMemory}
  {v : VectorData UInt8} {pos : ℕ}

theorem isFlat_resultState :
    (resultState left right).isFlat = (left.state.isFlat && right.state.isFlat) := by
  rw [resultState]
  cases hleft : left.state.isFlat <;> cases hright : right.state.isFlat <;> simp [hleft, hright]

theorem inChunk_resultState (hleft : InChunk selVector left) (hright : InChunk selVector right)
    (hstate : v.state = resultState left right) : InChunk selVector v := by
  rw [InChunk, hstate, resultState]
  split_ifs
  · exact hright
  · exact hleft

/-- What is true of the positions that are read is true of the rows. -/
theorem boolAt_of_readPositions {g : ℕ → Option Bool} (hchunk : InChunk selVector v)
    (hread : ∀ pos ∈ v.state.readPositions, v.readBool pos = g pos)
    (hconst : v.state.isFlat = true → ∀ pos pos', g pos = g pos')
    (hpos : v.state.isFlat = true ∨ pos ∈ selVector.selectedPositions) :
    v.boolAt pos = g pos := by
  rw [VectorData.boolAt]
  cases hflat : v.state.isFlat with
  | true =>
      rw [VectorData.operandPos_of_isFlat hflat]
      refine (hread _ ?_).trans (hconst hflat _ _)
      rw [VectorState.readPositions_of_isFlat hflat]
      exact List.mem_singleton_self _
  | false =>
      have hstate : v.state = ⟨selVector, none⟩ := hchunk.resolve_left (Bool.eq_false_iff.mp hflat)
      have hmem : pos ∈ selVector.selectedPositions :=
        hpos.resolve_left (Bool.eq_false_iff.mp hflat)
      rw [VectorData.operandPos_of_unflat hflat]
      refine hread pos ?_
      rw [VectorState.readPositions_of_unflat hflat, hstate, VectorState.positions_eq]
      exact hmem

end Chunk

/-- The result vector has the truth values of the rows. -/
structure Evaluated (selVector : SelectionMemory) (e : PredicateEvaluator V) : Prop where
  inChunk : InChunk selVector e.evaluate
  boolAt_eq : ∀ pos, e.evaluate.state.isFlat = true ∨ pos ∈ selVector.selectedPositions →
    e.evaluate.boolAt pos = e.truthAt pos

section Evaluating

variable {selVector : SelectionMemory}

theorem Evaluated.boolAt_of_isFlat {e : PredicateEvaluator V} (h : e.Evaluated selVector)
    (hflat : e.evaluate.state.isFlat = true) (pos : ℕ) : e.evaluate.boolAt pos = e.truthAt pos :=
  h.boolAt_eq pos (Or.inl hflat)

/-- The operands of a row are those of the chunk, or both are flat. -/
theorem Evaluated.binary {left right : PredicateEvaluator V} (hleft : left.Evaluated selVector)
    (hright : right.Evaluated selVector) {pos : ℕ}
    (hpos : (left.evaluate.state.isFlat && right.evaluate.state.isFlat) = true ∨
      pos ∈ selVector.selectedPositions) :
    left.evaluate.boolAt pos = left.truthAt pos ∧
      right.evaluate.boolAt pos = right.truthAt pos := by
  rw [Bool.and_eq_true_iff] at hpos
  exact ⟨hleft.boolAt_eq pos (hpos.imp_left And.left),
    hright.boolAt_eq pos (hpos.imp_left And.right)⟩

theorem boolAt_const {v : VectorData UInt8} (hflat : v.state.isFlat = true) (pos pos' : ℕ) :
    v.boolAt pos = v.boolAt pos' := by
  rw [VectorData.boolAt, VectorData.boolAt, VectorData.operandPos_of_isFlat hflat,
    VectorData.operandPos_of_isFlat hflat]

theorem operand_const {U : Type} {v : VectorData U} (hflat : v.state.isFlat = true)
    (pos pos' : ℕ) : v.operand pos = v.operand pos' := by
  rw [VectorData.operand, VectorData.operand, VectorData.operandPos_of_isFlat hflat,
    VectorData.operandPos_of_isFlat hflat]

/-- What is evaluated are the truth values of the rows. -/
theorem evaluated_of_wellFormed (e : PredicateEvaluator V) (he : e.WellFormed selVector) :
    e.Evaluated selVector := by
  induction e with
  | reference resultVector => exact ⟨he, fun _ _ ↦ rfl⟩
  | literal value =>
      refine ⟨Or.inl rfl, fun pos _ ↦ ?_⟩
      cases value with
      | none => rfl
      | some b => cases b <;> rfl
  | comparison op left right resultVector =>
      obtain ⟨hleft, hright, hharmless⟩ := he
      have hstate : (comparison op left right resultVector).evaluate.state =
          resultState left right :=
        (Execution.state_perform _ _).trans BinaryOperationExecutor.state_executeComparison
      have hchunk := inChunk_resultState hleft hright hstate
      refine ⟨hchunk, fun pos hpos ↦ boolAt_of_readPositions hchunk ?_ ?_ hpos⟩
      · rw [hstate]
        exact fun pos hpos ↦ BinaryOperationExecutor.readBool_executeComparison hharmless hpos
      · rw [hstate, isFlat_resultState, Bool.and_eq_true_iff]
        rintro ⟨hflat, hflat'⟩ pos pos'
        rw [truthAt, truthAt, BinaryOperationExecutor.compareAt, BinaryOperationExecutor.compareAt,
          operand_const hflat pos pos', operand_const hflat' pos pos']
  | nullCheck op operand resultVector =>
      obtain ⟨hoperand, hclear⟩ := he
      have hstate : (nullCheck op operand resultVector).evaluate.state = operand.state :=
        NullOperationExecutor.state_execute _
      have hchunk : InChunk selVector (nullCheck op operand resultVector).evaluate := by
        rwa [InChunk, hstate]
      refine ⟨hchunk, fun pos hpos ↦ boolAt_of_readPositions hchunk ?_ ?_ hpos⟩
      · rw [hstate]
        exact fun pos hpos ↦ NullOperationExecutor.readBool_execute (hclear pos) hpos
      · rw [hstate]
        intro hflat pos pos'
        rw [truthAt, truthAt, NullOperationExecutor.nullAt, NullOperationExecutor.nullAt,
          VectorData.operandPos_of_isFlat hflat, VectorData.operandPos_of_isFlat hflat]
  | binary f left right resultVector ihleft ihright =>
      have hleft := ihleft he.1
      have hright := ihright he.2
      have hstate : (binary f left right resultVector).evaluate.state =
          resultState left.evaluate right.evaluate := BinaryBooleanOperationExecutor.state_execute _
      have hchunk := inChunk_resultState hleft.inChunk hright.inChunk hstate
      refine ⟨hchunk, fun pos hpos ↦ ?_⟩
      have hrow := hpos
      rw [hstate, isFlat_resultState] at hrow
      obtain ⟨hl, hr⟩ := hleft.binary hright hrow
      rw [truthAt, ← hl, ← hr]
      refine boolAt_of_readPositions (g := fun pos ↦ f.logic (left.evaluate.boolAt pos)
        (right.evaluate.boolAt pos)) hchunk ?_ ?_ hpos
      · rw [hstate]
        exact fun pos hpos ↦ BinaryBooleanOperationExecutor.readBool_execute f.computes_operation
          f.writesTruth_operation hpos _
      · rw [hstate, isFlat_resultState, Bool.and_eq_true_iff]
        rintro ⟨hflat, hflat'⟩ pos pos'
        rw [boolAt_const hflat pos pos', boolAt_const hflat' pos pos']
  | not child resultVector ih =>
      have hchild := ih he
      have hstate : (not child resultVector).evaluate.state = child.evaluate.state :=
        UnaryBooleanOperationExecutor.state_executeSwitch _
      have hchunk : InChunk selVector (not child resultVector).evaluate := by
        rw [InChunk, hstate]
        exact hchild.inChunk
      refine ⟨hchunk, fun pos hpos ↦ ?_⟩
      rw [truthAt, ← hchild.boolAt_eq pos (hstate ▸ hpos)]
      refine boolAt_of_readPositions (g := fun pos ↦ (child.evaluate.boolAt pos).map (!·))
        hchunk ?_ ?_ hpos
      · rw [hstate]
        exact fun pos hpos ↦ UnaryBooleanOperationExecutor.readBool_executeSwitch truth_not
          writesTruth_not hpos _
      · rw [hstate]
        intro hflat pos pos'
        rw [boolAt_const hflat pos pos']

/-! ## Selecting -/

theorem isTrue_eq (v : VectorData UInt8) (pos : ℕ) :
    isTrue v pos = (v.readBool pos == some true) := by
  rw [isTrue, VectorData.readBool, operandTruth]
  cases v.isNull pos with
  | true => rfl
  | false => cases v.values pos != 0 <;> rfl

theorem select_of_isFlat {e : PredicateEvaluator V} (he : e.WellFormed selVector)
    (hflat : e.evaluate.state.isFlat = true) (pos : ℕ) :
    e.select selVector = (e.truthAt pos == some true, selVector) := by
  cases e with
  | reference resultVector =>
      have hflat' : resultVector.state.isFlat = true := hflat
      rw [select, if_pos hflat', isTrue_eq, truthAt, VectorData.boolAt,
        VectorData.operandPos_of_isFlat hflat']
  | literal value =>
      cases value with
      | none => rfl
      | some b => cases b <;> rfl
  | comparison op left right resultVector =>
      rw [evaluate, Execution.state_perform, BinaryOperationExecutor.state_executeComparison,
        isFlat_resultState] at hflat
      exact BinaryOperationExecutor.select_of_isFlat hflat selVector pos
  | nullCheck op operand resultVector =>
      rw [evaluate, NullOperationExecutor.state_execute] at hflat
      rw [select, NullOperationExecutor.select_of_isFlat hflat selVector pos, truthAt]
      cases NullOperationExecutor.nullAt op operand pos <;> rfl
  | binary f left right resultVector =>
      rw [evaluate, BinaryBooleanOperationExecutor.state_execute, isFlat_resultState] at hflat
      have hrow : (left.evaluate.state.isFlat && right.evaluate.state.isFlat) = true ∨
          pos ∈ selVector.selectedPositions := Or.inl hflat
      obtain ⟨hl, hr⟩ := (left.evaluated_of_wellFormed he.1).binary
        (right.evaluated_of_wellFormed he.2) hrow
      rw [select, BinaryBooleanOperationExecutor.select_of_isFlat f.computes_operation hflat _ pos,
        truthAt, hl, hr]
  | not child resultVector =>
      rw [evaluate, UnaryBooleanOperationExecutor.state_executeSwitch] at hflat
      rw [select, UnaryBooleanOperationExecutor.select_of_isFlat truth_not hflat _ pos, truthAt,
        (child.evaluated_of_wellFormed he).boolAt_of_isFlat hflat]

theorem selects_of_unflat {e : PredicateEvaluator V} (he : e.WellFormed selVector)
    (hunflat : e.evaluate.state.isFlat = false) :
    selVector.Selects (fun pos ↦ e.truthAt pos == some true) (e.select selVector) := by
  cases e with
  | reference resultVector =>
      have hunflat' : resultVector.state.isFlat = false := hunflat
      rw [select, if_neg (Bool.eq_false_iff.mp hunflat')]
      refine (selVector.selects_select _ _).congr fun pos _ ↦ ?_
      rw [Bool.true_and, isTrue_eq, truthAt, VectorData.boolAt,
        VectorData.operandPos_of_unflat hunflat']
  | literal value => cases hunflat
  | comparison op left right resultVector =>
      rw [evaluate, Execution.state_perform, BinaryOperationExecutor.state_executeComparison,
        isFlat_resultState] at hunflat
      exact BinaryOperationExecutor.selects_select hunflat selVector
  | nullCheck op operand resultVector =>
      rw [evaluate, NullOperationExecutor.state_execute] at hunflat
      refine (NullOperationExecutor.selects_select hunflat selVector).congr fun pos _ ↦ ?_
      rw [truthAt]
      cases NullOperationExecutor.nullAt op operand pos <;> rfl
  | binary f left right resultVector =>
      rw [evaluate, BinaryBooleanOperationExecutor.state_execute, isFlat_resultState] at hunflat
      refine (BinaryBooleanOperationExecutor.selects_select f.computes_operation hunflat
        selVector).congr fun pos hpos ↦ ?_
      obtain ⟨hl, hr⟩ := (left.evaluated_of_wellFormed he.1).binary
        (right.evaluated_of_wellFormed he.2) (Or.inr hpos)
      rw [truthAt, hl, hr]
  | not child resultVector =>
      rw [evaluate, UnaryBooleanOperationExecutor.state_executeSwitch] at hunflat
      refine (UnaryBooleanOperationExecutor.selects_select truth_not hunflat
        selVector).congr fun pos hpos ↦ ?_
      rw [truthAt, (child.evaluated_of_wellFormed he).boolAt_eq pos (Or.inr hpos)]

end Evaluating

/-! ### A disjunction -/

end PredicateEvaluator

end Graphflow.Function
