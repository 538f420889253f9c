import Graphflow.Processor.SelectionMemory

/-!
# The memory of a vector

The values of a vector and its null mask keep what earlier batches have left there.
-/

namespace Graphflow.Function

open Processor

/-- A mask that guarantees to have no nulls has none. -/
structure NullMask where
  data : ℕ → Bool := fun _ ↦ false
  mayContainNulls : Bool := false
  eq_false : mayContainNulls = false → ∀ pos, data pos = false := by simp

namespace NullMask

def setAllNonNull : NullMask := {}

def setAllNull : NullMask where
  data _ := true
  mayContainNulls := true

def setNull (mask : NullMask) (pos : ℕ) (isNull : Bool) : NullMask where
  data := Function.update mask.data pos isNull
  mayContainNulls := mask.mayContainNulls || isNull
  eq_false h pos' := by
    obtain ⟨hmask, rfl⟩ := Bool.or_eq_false_iff.mp h
    by_cases heq : pos' = pos
    · rw [heq, Function.update_self]
    · rw [Function.update_of_ne heq, mask.eq_false hmask]

end NullMask

structure VectorState where
  selVector : SelectionMemory := {}
  currIdx : Option ℕ := none

namespace VectorState

variable (state : VectorState)

def isFlat : Bool := state.currIdx.isSome

def getPositionOfCurrIdx : ℕ := state.selVector.positionAt (state.currIdx.getD 0)

/-- The positions that a loop goes through: those of an unfiltered vector are counted. -/
def positions : List ℕ :=
  if state.selVector.isUnfiltered then List.range state.selVector.selectedSize
  else (List.range state.selVector.selectedSize).map state.selVector.selectedPositionsBuffer

/-- The positions that are read of a vector. -/
def readPositions : List ℕ :=
  if state.isFlat then [state.getPositionOfCurrIdx] else state.positions

end VectorState

structure VectorData (V : Type) where
  state : VectorState := {}
  values : ℕ → V
  nullMask : NullMask := {}

namespace VectorData

variable {V : Type} (v : VectorData V)

/-- A new vector has no nulls, and the bytes of its values are zero. -/
def fresh (zero : V) : VectorData V where
  values _ := zero

def isNull (pos : ℕ) : Bool := v.nullMask.data pos

def hasNoNullsGuarantee : Bool := !v.nullMask.mayContainNulls

def setAllNull : VectorData V := { v with nullMask := .setAllNull }

def setNull (pos : ℕ) (isNull : Bool) : VectorData V :=
  { v with nullMask := v.nullMask.setNull pos isNull }

def setValue (pos : ℕ) (value : V) : VectorData V :=
  { v with values := Function.update v.values pos value }

def isNullAtCurrIdx : Bool := v.isNull v.state.getPositionOfCurrIdx

def valueAtCurrIdx : V := v.values v.state.getPositionOfCurrIdx

/-- What a reader sees: the value of a null is not read. -/
def read (pos : ℕ) : Option V := if v.isNull pos then none else some (v.values pos)

end VectorData

end Graphflow.Function
