import Graphflow.Storage.NodeLifecycle

/-!
# Vectors of values

A data chunk is flat if one of its selected positions is the current one.  Vectors of the same chunk
share its state, to which they point by its number.
-/

namespace Graphflow.Processor

open Storage

structure SelectionVector where
  selectedPositions : List ℕ
  isUnfiltered : Bool
  nodup : selectedPositions.Nodup
  lt_capacity : ∀ pos ∈ selectedPositions, pos < defaultVectorCapacity
  eq_range : isUnfiltered = true → selectedPositions = List.range selectedPositions.length

def SelectionVector.selectedSize (selVector : SelectionVector) : ℕ :=
  selVector.selectedPositions.length

theorem SelectionVector.selectedSize_le (v : SelectionVector) :
    v.selectedSize ≤ defaultVectorCapacity := by
  have hsubset : v.selectedPositions ⊆ List.range defaultVectorCapacity :=
    fun pos hpos ↦ List.mem_range.mpr (v.lt_capacity pos hpos)
  have hlength := (v.nodup.subperm hsubset).length_le
  rwa [List.length_range] at hlength

/-- All positions up to a size. -/
def SelectionVector.unfiltered (size : ℕ) (hsize : size ≤ defaultVectorCapacity) :
    SelectionVector where
  selectedPositions := List.range size
  isUnfiltered := true
  nodup := List.nodup_range
  lt_capacity _ hpos := lt_of_lt_of_le (List.mem_range.mp hpos) hsize
  eq_range _ := by rw [List.length_range]

structure DataChunkState where
  selVector : SelectionVector
  currIdx : Option ℕ
  currIdx_lt : ∀ i ∈ currIdx, i < selVector.selectedSize

namespace DataChunkState

def isFlat (state : DataChunkState) : Bool := state.currIdx.isSome

def getPositionOfCurrIdx (state : DataChunkState) : ℕ :=
  state.selVector.selectedPositions.getD (state.currIdx.getD 0) 0

/-- The positions that a loop goes through: those of an unfiltered chunk are counted. -/
def positions (state : DataChunkState) : List ℕ :=
  if state.selVector.isUnfiltered then List.range state.selVector.selectedSize
  else state.selVector.selectedPositions

theorem positions_eq (state : DataChunkState) :
    state.positions = state.selVector.selectedPositions := by
  rw [positions]
  split_ifs with hunfiltered
  · exact (state.selVector.eq_range hunfiltered).symm
  · rfl

end DataChunkState

/-- A null is `none`. -/
structure ValueVector (V : Type) where
  state : ℕ
  values : ℕ → Option V
  mayContainNulls : Bool

namespace ValueVector

variable {V : Type}

def isNull (vector : ValueVector V) (pos : ℕ) : Bool := (vector.values pos).isNone

def hasNoNullsGuarantee (vector : ValueVector V) : Bool := !vector.mayContainNulls

/-- The value that goes with a position of another vector: that of a flat vector is always the
current one. -/
def valueFor (states : ℕ → DataChunkState) (vector : ValueVector V) (pos : ℕ) : Option V :=
  if (states vector.state).isFlat then vector.values (states vector.state).getPositionOfCurrIdx
  else vector.values pos

/-- A vector that guarantees to have no nulls has none at the selected positions. -/
def Guarantees (states : ℕ → DataChunkState) (vector : ValueVector V) : Prop :=
  vector.mayContainNulls = false →
    ∀ pos ∈ (states vector.state).selVector.selectedPositions, (vector.values pos).isSome

/-- A null can only be where the vector says that there may be one. -/
theorem Guarantees.mayContainNulls {states : ℕ → DataChunkState} {vector : ValueVector V} {pos : ℕ}
    (h : vector.Guarantees states)
    (hpos : pos ∈ (states vector.state).selVector.selectedPositions)
    (hnull : vector.values pos = none) : vector.mayContainNulls = true := by
  by_contra hno
  have hsome := h (Bool.eq_false_iff.mpr hno) pos hpos
  rw [hnull] at hsome
  cases hsome

end ValueVector

/-- What ends an execution other than its result: an exception, a pointer that points to nothing,
or a loop without end. -/
inductive ExecutionFault
  | exception (message : String)
  | invalidAccess
  | diverges
  deriving DecidableEq, Repr

end Graphflow.Processor
