import Graphflow.Function.History

/-!
# What evaluators compute

An evaluator applies its operation to the operands of each row, and a null among them gives a null.
Operands that are flat take part in every row; those that are not have one state.
-/

namespace Graphflow.Function

open Processor

variable {V : Type}

namespace VectorData

/-- The position of an operand in a row. -/
def operandPos (v : VectorData V) (pos : ℕ) : ℕ :=
  if v.state.isFlat then v.state.getPositionOfCurrIdx else pos

def operand (v : VectorData V) (pos : ℕ) : Option V := v.read (v.operandPos pos)

theorem operandPos_of_isFlat {v : VectorData V} (hflat : v.state.isFlat = true) (pos : ℕ) :
    v.operandPos pos = v.state.getPositionOfCurrIdx := if_pos hflat

theorem operandPos_of_unflat {v : VectorData V} (hflat : v.state.isFlat = false) (pos : ℕ) :
    v.operandPos pos = pos := if_neg (Bool.eq_false_iff.mp hflat)

theorem operandPos_of_mem {v : VectorData V} {pos : ℕ} (hpos : pos ∈ v.state.readPositions) :
    v.operandPos pos = pos := by
  rw [VectorState.readPositions] at hpos
  rw [operandPos]
  split_ifs at hpos ⊢
  · exact (List.mem_singleton.mp hpos).symm
  · rfl

theorem isNull_of_hasNoNullsGuarantee {v : VectorData V} (h : v.hasNoNullsGuarantee = true)
    (pos : ℕ) : v.isNull pos = false :=
  v.nullMask.eq_false (Bool.not_eq_true' _ ▸ h) pos

end VectorData

theorem VectorState.positions_eq (state : VectorState) :
    state.positions = state.selVector.selectedPositions := by
  rw [positions, SelectionMemory.selectedPositions]
  split_ifs with hunfiltered
  · have hposition : state.selVector.positionAt = id := funext fun _ ↦ if_pos hunfiltered
    rw [hposition, List.map_id]
  · have hposition : state.selVector.positionAt = state.selVector.selectedPositionsBuffer :=
      funext fun _ ↦ if_neg hunfiltered
    rw [hposition]

theorem VectorState.readPositions_of_isFlat {state : VectorState} (hflat : state.isFlat = true) :
    state.readPositions = [state.getPositionOfCurrIdx] := if_pos hflat

theorem VectorState.readPositions_of_unflat {state : VectorState} (hflat : state.isFlat = false) :
    state.readPositions = state.positions := if_neg (Bool.eq_false_iff.mp hflat)

namespace Execution

/-- What is to be read at a position. -/
def valueAt (pos : ℕ) : Execution V → Option V
  | flat _ isNull value => if isNull then none else some value
  | unflat _ flatIsNull _ _ isNull value =>
      if flatIsNull || isNull pos then none else some (value pos)

/-- A loop that does not write null bits meets no nulls. -/
def GuaranteesNoNulls : Execution V → Prop
  | flat _ _ _ => True
  | unflat _ _ noNulls _ isNull _ => noNulls = true → ∀ pos, isNull pos = false

/-- Every selected position is written. -/
def Covers : Execution V → Prop
  | flat _ _ _ => True
  | unflat state flatIsNull noNulls nullPositions _ _ =>
      flatIsNull = false → noNulls = false → ∀ pos ∈ state.positions, pos ∈ nullPositions

theorem Covers.harmless {e : Execution V} (hcovers : e.Covers) (zero : V) {result : VectorData V}
    (hclear : ∀ pos, result.isNull pos = false) : e.Harmless zero result.cell := by
  cases e with
  | flat state isNull value => trivial
  | unflat state flatIsNull noNulls nullPositions isNull value =>
      intro hflatIsNull pos hpos
      split_ifs with hnoNulls
      · exact hclear pos
      · exact Or.inl (hcovers hflatIsNull (Bool.eq_false_iff.mpr hnoNulls) pos hpos)

theorem Covers.read_perform {e : Execution V} (hcovers : e.Covers) (he : e.IsFlatAsSaid)
    (hguarantees : e.GuaranteesNoNulls) {zero : V} {result : VectorData V}
    (hharmless : e.Harmless zero result.cell) {pos : ℕ} (hpos : pos ∈ e.state.readPositions) :
    (e.perform result).read pos = e.valueAt pos := by
  rw [VectorData.read_eq, cell_perform]
  cases e with
  | flat state isNull value =>
      have hflat : state.isFlat = true := he
      rw [Execution.state, VectorState.readPositions_of_isFlat hflat, List.mem_singleton] at hpos
      rw [updateCell, if_pos hpos, read_writeCell, valueAt]
  | unflat state flatIsNull noNulls nullPositions isNull value =>
      have hunflat : state.isFlat = false := he
      rw [Execution.state, VectorState.readPositions_of_unflat hunflat] at hpos
      rw [updateCell, valueAt]
      cases hflatIsNull : flatIsNull with
      | true => rfl
      | false =>
          rw [if_neg Bool.false_ne_true, Bool.false_or]
          cases hnoNulls : noNulls with
          | true =>
              have hnull : isNull pos = false := hguarantees hnoNulls pos
              have hclear : (result.cell pos).1 = false := by
                have hpart := hharmless hflatIsNull pos hpos
                rwa [hnoNulls, if_pos rfl] at hpart
              rw [if_pos rfl, if_pos hpos, hnull, if_neg Bool.false_ne_true]
              exact Cell.read_eq_some_iff.mpr (congrArg (·, value pos) hclear)
          | false =>
              rw [if_neg Bool.false_ne_true, if_pos (hcovers hflatIsNull hnoNulls pos hpos),
                read_writeCell]

/-- What is not written is whatever has been there. -/
theorem covers_of_forall_read [Nontrivial V] {e : Execution V} (he : e.IsFlatAsSaid)
    (hread : ∀ result : VectorData V, (∀ pos, result.isNull pos = false) →
      ∀ pos ∈ e.state.readPositions, (e.perform result).read pos = e.valueAt pos) : e.Covers := by
  cases e with
  | flat state isNull value => trivial
  | unflat state flatIsNull noNulls nullPositions isNull value =>
      intro hflatIsNull hnoNulls pos hpos
      by_contra hnotMem
      have hunflat : state.isFlat = false := he
      have hmem : pos ∈ state.readPositions := by
        rwa [VectorState.readPositions_of_unflat hunflat]
      obtain ⟨old, hold⟩ := exists_ne (value pos)
      have hstale := hread (.fresh old) (fun _ ↦ rfl) pos hmem
      rw [VectorData.read_eq, cell_perform, updateCell, hflatIsNull, if_neg Bool.false_ne_true,
        hnoNulls, if_neg Bool.false_ne_true, if_neg hnotMem, valueAt, Bool.false_or] at hstale
      split_ifs at hstale
      · cases hstale
      · exact hold (Option.some.inj hstale)

end Execution

/-! ## Operations on rows -/

section Nullable

variable {U : Type} (isNull isNull' : Bool) (value : V)

theorem bind_nullable (g : V → Option U) :
    (if isNull then none else some value).bind g = if isNull then none else g value := by
  cases isNull <;> rfl

theorem map_nullable (g : V → U) :
    (if isNull then none else some value).map g = if isNull then none else some (g value) := by
  cases isNull <;> rfl

theorem nullable_or (o : Option V) : (if isNull || isNull' then none else o) =
    if isNull then none else if isNull' then none else o := by
  cases isNull <;> rfl

end Nullable

namespace VectorData

variable {v : VectorData V}

theorem operand_of_isFlat (hflat : v.state.isFlat = true) (pos : ℕ) :
    v.operand pos = if v.isNullAtCurrIdx then none else some v.valueAtCurrIdx := by
  rw [operand, operandPos_of_isFlat hflat]
  rfl

theorem operand_of_unflat (hflat : v.state.isFlat = false) (pos : ℕ) :
    v.operand pos = if v.isNull pos then none else some (v.values pos) := by
  rw [operand, operandPos_of_unflat hflat]
  rfl

theorem isNull_or_of_hasNoNullsGuarantee {L R : Type} {v : VectorData L} {w : VectorData R}
    (h : (v.hasNoNullsGuarantee && w.hasNoNullsGuarantee) = true) (pos : ℕ) :
    (v.isNull pos || w.isNull pos) = false := by
  obtain ⟨hv, hw⟩ := Bool.and_eq_true_iff.mp h
  rw [isNull_of_hasNoNullsGuarantee hv, isNull_of_hasNoNullsGuarantee hw]
  rfl

end VectorData

namespace FunctionEvaluator

/-- The operation on the operands of a row. -/
def valueAt : (f : FunctionEvaluator V) → f.Parameters → ℕ → Option V
  | unary op, operand, pos => (operand.operand pos).map op
  | binary op, (left, right), pos =>
      (left.operand pos).bind fun left ↦ (right.operand pos).map (op left)
  | ternary op, (a, b, c), pos =>
      (a.operand pos).bind fun a ↦ (b.operand pos).bind fun b ↦ (c.operand pos).map (op a b)

variable (f : FunctionEvaluator V)

theorem guaranteesNoNulls_execution (parameters : f.Parameters) :
    (f.execution parameters).GuaranteesNoNulls := by
  cases f with
  | unary op =>
      simp only [execution, UnaryOperationExecutor.executeSwitch]
      split_ifs
      · trivial
      · exact VectorData.isNull_of_hasNoNullsGuarantee
  | binary op =>
      obtain ⟨left, right⟩ := parameters
      simp only [execution, BinaryOperationExecutor.executeSwitch]
      split
      · trivial
      · exact VectorData.isNull_of_hasNoNullsGuarantee
      · exact VectorData.isNull_of_hasNoNullsGuarantee
      · exact VectorData.isNull_or_of_hasNoNullsGuarantee
  | ternary op =>
      obtain ⟨a, b, c⟩ := parameters
      simp only [execution, TernaryOperationExecutor.executeSwitch]
      split
      · trivial
      · exact VectorData.isNull_of_hasNoNullsGuarantee
      · exact VectorData.isNull_or_of_hasNoNullsGuarantee
      · exact VectorData.isNull_of_hasNoNullsGuarantee
      · intro h pos
        obtain ⟨hab, hc⟩ := Bool.and_eq_true_iff.mp h
        exact (congrArg₂ or (VectorData.isNull_or_of_hasNoNullsGuarantee hab pos)
          (VectorData.isNull_of_hasNoNullsGuarantee hc pos))
      · exact VectorData.isNull_or_of_hasNoNullsGuarantee
      · exact VectorData.isNull_of_hasNoNullsGuarantee
      · exact VectorData.isNull_or_of_hasNoNullsGuarantee

/-- What the executors are about to do to a row is to apply the operation to its operands. -/
theorem valueAt_execution (parameters : f.Parameters) (pos : ℕ) :
    (f.execution parameters).valueAt pos = f.valueAt parameters pos := by
  cases f with
  | unary op =>
      simp only [execution, UnaryOperationExecutor.executeSwitch, valueAt]
      split_ifs with hflat
      · rw [VectorData.operand_of_isFlat hflat, map_nullable, Execution.valueAt]
      · rw [VectorData.operand_of_unflat (Bool.eq_false_iff.mpr hflat), map_nullable,
          Execution.valueAt, Bool.false_or]
  | binary op =>
      obtain ⟨left, right⟩ := parameters
      simp only [execution, BinaryOperationExecutor.executeSwitch, valueAt]
      split
      · rename_i hleft hright
        rw [VectorData.operand_of_isFlat hleft, VectorData.operand_of_isFlat hright, bind_nullable,
          map_nullable]
        exact nullable_or _ _ _
      · rename_i hleft hright
        rw [VectorData.operand_of_isFlat hleft, VectorData.operand_of_unflat hright, bind_nullable,
          map_nullable]
        exact nullable_or _ _ _
      · rename_i hleft hright
        rw [VectorData.operand_of_unflat hleft, VectorData.operand_of_isFlat hright, bind_nullable,
          map_nullable, ← nullable_or, Bool.or_comm]
        rfl
      · rename_i hleft hright
        rw [VectorData.operand_of_unflat hleft, VectorData.operand_of_unflat hright, bind_nullable,
          map_nullable, ← nullable_or]
        rfl
  | ternary op =>
      obtain ⟨a, b, c⟩ := parameters
      have hsplit : ∀ {na nb nc : Bool} {value : V},
          (if na then none else if nb then none else if nc then none else some value) =
            if na || nb || nc then none else some value := by
        intro na nb nc value
        rw [nullable_or, nullable_or]
      simp only [execution, TernaryOperationExecutor.executeSwitch, valueAt]
      -- The executors ask for nulls in their own order.
      split
      all_goals
        rename_i ha hb hc
        simp only [VectorData.operand_of_isFlat, VectorData.operand_of_unflat, ha, hb, hc,
          bind_nullable, map_nullable, hsplit, TernaryOperationExecutor.executeAllFlat,
          TernaryOperationExecutor.executeFlatFlatUnflat,
          TernaryOperationExecutor.executeFlatUnflatUnflat,
          TernaryOperationExecutor.executeFlatUnflatFlat,
          TernaryOperationExecutor.executeAllUnFlat,
          TernaryOperationExecutor.executeUnflatUnFlatFlat,
          TernaryOperationExecutor.executeUnflatFlatFlat,
          TernaryOperationExecutor.executeUnflatFlatUnflat, Execution.valueAt, Bool.false_or,
          Bool.or_assoc, Bool.or_left_comm, Bool.or_comm]

/-- A ternary operation on a flat vector between two others takes the positions of its filtered rows
from the flat one. -/
def SkipsNoRow : (f : FunctionEvaluator V) → f.Parameters → Prop
  | unary _, _ => True
  | binary _, _ => True
  | ternary _, (a, b, c) =>
      a.state.isFlat = false → b.state.isFlat = true → c.state.isFlat = false →
      b.isNullAtCurrIdx = false → (a.hasNoNullsGuarantee && c.hasNoNullsGuarantee) = false →
      a.state.selVector.isUnfiltered = false → ∀ pos ∈ a.state.positions,
        ∃ i < a.state.selVector.selectedSize, b.state.selVector.positionAt i = pos

theorem covers_execution_iff (parameters : f.Parameters) :
    (f.execution parameters).Covers ↔ f.SkipsNoRow parameters := by
  cases f with
  | unary op =>
      refine iff_of_true ?_ trivial
      simp only [execution, UnaryOperationExecutor.executeSwitch]
      split_ifs
      · trivial
      · exact fun _ _ _ hpos ↦ hpos
  | binary op =>
      obtain ⟨left, right⟩ := parameters
      refine iff_of_true ?_ trivial
      simp only [execution, BinaryOperationExecutor.executeSwitch]
      split
      · trivial
      · exact fun _ _ _ hpos ↦ hpos
      · exact fun _ _ _ hpos ↦ hpos
      · exact fun _ _ _ hpos ↦ hpos
  | ternary op =>
      obtain ⟨a, b, c⟩ := parameters
      simp only [execution, TernaryOperationExecutor.executeSwitch, SkipsNoRow]
      cases ha : a.state.isFlat <;> cases hb : b.state.isFlat <;> cases hc : c.state.isFlat
      case false.true.false =>
        simp only [forall_const]
        refine forall₂_congr fun _ _ ↦ ?_
        cases hunfiltered : a.state.selVector.isUnfiltered with
        | true =>
            refine iff_of_true (fun pos hpos ↦ ?_) fun h ↦ absurd h.symm Bool.false_ne_true
            rw [VectorState.positions, if_pos hunfiltered] at hpos
            exact hpos
        | false =>
            rw [forall_prop_of_true rfl]
            refine forall₂_congr fun pos _ ↦ ?_
            rw [if_neg Bool.false_ne_true, List.mem_map]
            simp only [List.mem_range]
      case true.true.true => exact iff_of_true trivial fun h ↦ absurd h.symm Bool.false_ne_true
      all_goals exact iff_of_true (fun _ _ _ hpos ↦ hpos) (by simp)

/-- An evaluator computes its operation on every row, whatever values an earlier batch has left,
just when its loop goes through all rows. -/
theorem forall_read_evaluate_iff [Nontrivial V] (parameters : f.Parameters) :
    (∀ result : VectorData V, (∀ pos, result.isNull pos = false) →
      ∀ pos ∈ (f.evaluate result parameters).state.readPositions,
        (f.evaluate result parameters).read pos = f.valueAt parameters pos) ↔
      f.SkipsNoRow parameters := by
  have he := f.isFlatAsSaid_execution parameters
  have hstate : ∀ result, (f.evaluate result parameters).state = (f.execution parameters).state :=
    fun result ↦ Execution.state_perform _ _
  rw [← covers_execution_iff]
  constructor
  · intro hread
    refine Execution.covers_of_forall_read he fun result hclear pos hpos ↦ ?_
    rw [valueAt_execution]
    exact hread result hclear pos ((hstate result).symm ▸ hpos)
  · intro hcovers result hclear pos hpos
    rw [hstate] at hpos
    rw [← valueAt_execution]
    exact hcovers.read_perform he (f.guaranteesNoNulls_execution parameters)
      (hcovers.harmless (result.values 0) hclear) hpos

/-- A filtered row is left out. -/
theorem not_forall_read_evaluate :
    let row := { oneValue none true 1 with state := { selVector := ⟨false, fun _ ↦ 1, 1⟩ } }
    let p : (ternary fun a b c ↦ a + b + c).Parameters := (row, oneValue (some 0) false 1, row)
    ¬∀ result : VectorData ℕ, (∀ pos, result.isNull pos = false) →
      ∀ pos ∈ (evaluate _ result p).state.readPositions,
        (evaluate _ result p).read pos = valueAt _ p pos := by
  intro row p
  rw [forall_read_evaluate_iff]
  exact fun h ↦ absurd (h rfl rfl rfl rfl rfl rfl 1 (List.mem_singleton_self 1)) (by decide)

end FunctionEvaluator

end Graphflow.Function
