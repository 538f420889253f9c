import Graphflow.Processor.ValueVector
import Mathlib.Algebra.Group.Basic

/-!
# Aggregate functions

`COUNT(*)`, `COUNT`, `SUM`, `MIN`, `MAX` and `AVG`.  A state is updated with a value as many times
as the multiplicity of the tuple says.  A state that keeps a value keeps a copy of what is in the
vector, which for a long string is a pointer into the overflow buffer of the vector.
-/

namespace Graphflow.Aggregate

open Lib Processor

/-- The states of all functions in one: a counter has `count`, a sum or an extremum `val`.  Of a
value whose characters have been overwritten nothing is known. -/
structure AggregateState (V : Type) where
  isNull : Bool := true
  val : Option V := none
  count : UInt64 := 0
  deriving DecidableEq, Repr

/-- The operations of the data type of the values.  `UNSTRUCTURED` values need not go together: then
the operation throws. -/
structure ValueOperations (V : Type) where
  add : V → V → Except ExecutionFault V
  lessThan : V → V → Except ExecutionFault Bool
  greaterThan : V → V → Except ExecutionFault Bool
  /-- The characters of a long string are in the overflow buffer of its vector. -/
  inOverflowBuffer : V → Bool
  lessThan_self : ∀ v, lessThan v v = .ok false
  greaterThan_self : ∀ v, greaterThan v v = .ok false

/-- An input vector comes with the states of the data chunks; `COUNT(*)` has no vector. -/
structure AggregateFunction (V : Type) where
  initialNullAggregateState : AggregateState V
  updateAll : AggregateState V → (ℕ → DataChunkState) → Option (ValueVector V) → ℕ →
    Except ExecutionFault (AggregateState V)
  updatePos : AggregateState V → Option (ValueVector V) → ℕ → ℕ →
    Except ExecutionFault (AggregateState V)
  inOverflowBuffer : V → Bool
  isDistinct : Bool

variable {V : Type}

/-- What is left of the state after the overflow buffer of the input vector has been reset. -/
def AggregateState.resetOverflowBuffer (state : AggregateState V) (inOverflowBuffer : V → Bool) :
    AggregateState V :=
  if state.val.any inOverflowBuffer then { state with val := none } else state

theorem AggregateState.resetOverflowBuffer_eq {state : AggregateState V}
    {inOverflowBuffer : V → Bool}
    (h : state.val.any inOverflowBuffer = false) :
    state.resetOverflowBuffer inOverflowBuffer = state :=
  if_neg (Bool.eq_false_iff.mp h)

/-- A loop whose counter has 32 bits, whereas its bound has 64. -/
def repeatTimes (multiplicity : ℕ)
    (turn : AggregateState V → Except ExecutionFault (AggregateState V))
    (state : AggregateState V) :
    Except ExecutionFault (AggregateState V) := do
  let state ← iterateM turn multiplicity state
  if 2 ^ 32 ≤ multiplicity then throw .diverges else return state

/-- The value at a position.  What is at the position of a null is not known. -/
def readValue (input : Option (ValueVector V)) (pos : ℕ) : Except ExecutionFault V :=
  match input.bind fun vector ↦ vector.values pos with
  | some value => .ok value
  | none => .error .invalidAccess

/-- The loop of `updateAll` over the selected positions. -/
def updateSelected (states : ℕ → DataChunkState) (input : Option (ValueVector V))
    (updatePos : AggregateState V → ℕ → Except ExecutionFault (AggregateState V))
    (state : AggregateState V) : Except ExecutionFault (AggregateState V) :=
  match input with
  | none => .error .invalidAccess
  | some vector =>
      (states vector.state).selVector.selectedPositions.foldlM
        (fun state pos ↦
          if !vector.hasNoNullsGuarantee && vector.isNull pos then .ok state
          else updatePos state pos) state

/-! ## Counters -/

namespace BaseCountFunction

def initialState : AggregateState V := { isNull := false }

def addMultiplicity (state : AggregateState V) (multiplicity : ℕ) : AggregateState V :=
  { state with count := state.count + UInt64.ofNat multiplicity }

end BaseCountFunction

namespace CountFunction

def updatePos (state : AggregateState V) (_input : Option (ValueVector V)) (multiplicity _pos : ℕ) :
    Except ExecutionFault (AggregateState V) :=
  .ok (BaseCountFunction.addMultiplicity state multiplicity)

def updateAll (state : AggregateState V) (states : ℕ → DataChunkState)
    (input : Option (ValueVector V)) (multiplicity : ℕ) :
    Except ExecutionFault (AggregateState V) :=
  updateSelected states input (fun state pos ↦ updatePos state input multiplicity pos) state

end CountFunction

namespace CountStarFunction

/-- The vector is asserted to be null. -/
def updatePos (state : AggregateState V) (input : Option (ValueVector V)) (multiplicity _pos : ℕ) :
    Except ExecutionFault (AggregateState V) :=
  if input.isSome then .error .invalidAccess
  else .ok (BaseCountFunction.addMultiplicity state multiplicity)

def updateAll (state : AggregateState V) (_states : ℕ → DataChunkState)
    (input : Option (ValueVector V)) (multiplicity : ℕ) :
    Except ExecutionFault (AggregateState V) :=
  updatePos state input multiplicity 0

end CountStarFunction

/-! ## Sums -/

/-- The first value is copied into the state, the others are combined with what is there. -/
def updateSingleValue (combine : V → V → Except ExecutionFault V) (value : V)
    (state : AggregateState V) : Except ExecutionFault (AggregateState V) :=
  if state.isNull then .ok { state with val := some value, isNull := false }
  else match state.val with
    | none => .error .invalidAccess
    | some val => do
        let val ← combine val value
        return { state with val := some val }

namespace SumFunction

def initialState : AggregateState V := {}

def addValue (ops : ValueOperations V) (value : V) (state : AggregateState V) :
    Except ExecutionFault (AggregateState V) :=
  updateSingleValue ops.add value state

def updatePos (ops : ValueOperations V) (state : AggregateState V)
    (input : Option (ValueVector V)) (multiplicity pos : ℕ) :
    Except ExecutionFault (AggregateState V) := do
  let value ← readValue input pos
  repeatTimes multiplicity (addValue ops value) state

def updateAll (ops : ValueOperations V) (state : AggregateState V) (states : ℕ → DataChunkState)
    (input : Option (ValueVector V)) (multiplicity : ℕ) :
    Except ExecutionFault (AggregateState V) :=
  updateSelected states input (fun state pos ↦ updatePos ops state input multiplicity pos) state

end SumFunction

/-! ## Averages -/

namespace AvgFunction

def updatePos (ops : ValueOperations V) (state : AggregateState V)
    (input : Option (ValueVector V)) (multiplicity pos : ℕ) :
    Except ExecutionFault (AggregateState V) := do
  let value ← readValue input pos
  let state ← repeatTimes multiplicity (SumFunction.addValue ops value) state
  return { state with count := state.count + UInt64.ofNat multiplicity }

def updateAll (ops : ValueOperations V) (state : AggregateState V) (states : ℕ → DataChunkState)
    (input : Option (ValueVector V)) (multiplicity : ℕ) :
    Except ExecutionFault (AggregateState V) :=
  updateSelected states input (fun state pos ↦ updatePos ops state input multiplicity pos) state

end AvgFunction

/-! ## Extrema -/

namespace MinMaxFunction

variable (op : V → V → Except ExecutionFault Bool)

def addValue (value : V) (state : AggregateState V) : Except ExecutionFault (AggregateState V) :=
  updateSingleValue (fun val value ↦ do
    let compareResult ← op value val
    return if compareResult then value else val) value state

/-- The multiplicity does not matter. -/
def updatePos (state : AggregateState V) (input : Option (ValueVector V)) (_multiplicity pos : ℕ) :
    Except ExecutionFault (AggregateState V) := do
  let value ← readValue input pos
  addValue op value state

def updateAll (state : AggregateState V) (states : ℕ → DataChunkState)
    (input : Option (ValueVector V)) (multiplicity : ℕ) :
    Except ExecutionFault (AggregateState V) :=
  updateSelected states input (fun state pos ↦ updatePos op state input multiplicity pos) state

end MinMaxFunction

/-! ## All of them -/

inductive AggregateKind
  | countStar
  | count
  | sum
  | min
  | max
  | avg
  deriving DecidableEq, Repr

namespace AggregateKind

/-- `AggregateFunctionUtil`. -/
def getFunction (ops : ValueOperations V) (kind : AggregateKind) (isDistinct : Bool) :
    AggregateFunction V :=
  match kind with
  | countStar => ⟨BaseCountFunction.initialState, CountStarFunction.updateAll,
      CountStarFunction.updatePos, ops.inOverflowBuffer, isDistinct⟩
  | count => ⟨BaseCountFunction.initialState, CountFunction.updateAll, CountFunction.updatePos,
      ops.inOverflowBuffer, isDistinct⟩
  | sum => ⟨SumFunction.initialState, SumFunction.updateAll ops, SumFunction.updatePos ops,
      ops.inOverflowBuffer, isDistinct⟩
  | min => ⟨SumFunction.initialState, MinMaxFunction.updateAll ops.lessThan,
      MinMaxFunction.updatePos ops.lessThan, ops.inOverflowBuffer, isDistinct⟩
  | max => ⟨SumFunction.initialState, MinMaxFunction.updateAll ops.greaterThan,
      MinMaxFunction.updatePos ops.greaterThan, ops.inOverflowBuffer, isDistinct⟩
  | avg => ⟨SumFunction.initialState, AvgFunction.updateAll ops, AvgFunction.updatePos ops,
      ops.inOverflowBuffer, isDistinct⟩

/-- The state with one more value; `COUNT(*)` counts tuples. -/
def addValue (ops : ValueOperations V) (kind : AggregateKind) (state : AggregateState V) :
    Option V → Except ExecutionFault (AggregateState V)
  | none =>
      match kind with
      | countStar => .ok (BaseCountFunction.addMultiplicity state 1)
      | _ => .ok state
  | some value =>
      match kind with
      | countStar => .ok state
      | count => .ok (BaseCountFunction.addMultiplicity state 1)
      | sum => SumFunction.addValue ops value state
      | min => MinMaxFunction.addValue ops.lessThan value state
      | max => MinMaxFunction.addValue ops.greaterThan value state
      | avg => do
          let state ← SumFunction.addValue ops value state
          return BaseCountFunction.addMultiplicity state 1

/-- Whether the function takes a vector. -/
def hasInput (kind : AggregateKind) : Bool := kind ≠ .countStar

/-- Whether the function adds a value in a loop. -/
def addsRepeatedly (kind : AggregateKind) : Bool := kind = .sum || kind = .avg

/-! ## Adding values -/

variable {ops : ValueOperations V} {kind : AggregateKind} {isDistinct : Bool}
  {state : AggregateState V} {multiplicity pos : ℕ} {value : V} {input : Option (ValueVector V)}

/-- The state with a value as many times as the multiplicity says. -/
def addTimes (ops : ValueOperations V) (kind : AggregateKind) (multiplicity : ℕ)
    (state : AggregateState V) (value : Option V) : Except ExecutionFault (AggregateState V) :=
  iterateM (fun state ↦ kind.addValue ops state value) multiplicity state

theorem addTimes_one (value : Option V) :
    kind.addTimes ops 1 state value = kind.addValue ops state value := by
  rw [addTimes, iterateM]
  cases kind.addValue ops state value <;> rfl

theorem addMultiplicity_zero (state : AggregateState V) :
    BaseCountFunction.addMultiplicity state 0 = state := by
  simp [BaseCountFunction.addMultiplicity]

theorem addMultiplicity_add (state : AggregateState V) (m n : ℕ) :
    BaseCountFunction.addMultiplicity (BaseCountFunction.addMultiplicity state m) n =
      BaseCountFunction.addMultiplicity state (m + n) := by
  simp [BaseCountFunction.addMultiplicity, UInt64.ofNat_add, UInt64.add_assoc]

theorem iterateM_addMultiplicity (multiplicity : ℕ) (state : AggregateState V) :
    iterateM (fun state : AggregateState V ↦ (.ok (BaseCountFunction.addMultiplicity state 1) :
        Except ExecutionFault (AggregateState V))) multiplicity state =
      .ok (BaseCountFunction.addMultiplicity state multiplicity) := by
  induction multiplicity generalizing state with
  | zero => rw [iterateM, addMultiplicity_zero]
  | succ multiplicity ih => rw [iterateM, ok_bind, ih, addMultiplicity_add, Nat.add_comm]

/-- The counter of an average does not matter for its sum. -/
theorem addValue_addMultiplicity (ops : ValueOperations V) (value : V) (state : AggregateState V)
    (m : ℕ) :
    SumFunction.addValue ops value (BaseCountFunction.addMultiplicity state m) =
      (do
        let state ← SumFunction.addValue ops value state
        return BaseCountFunction.addMultiplicity state m) := by
  rw [SumFunction.addValue, SumFunction.addValue, updateSingleValue, updateSingleValue]
  cases hnull : state.isNull with
  | true => simp [BaseCountFunction.addMultiplicity, hnull]
  | false =>
      cases hval : state.val with
      | none => simp [BaseCountFunction.addMultiplicity, hnull, hval]
      | some val =>
          cases hadd : ops.add val value with
          | error e => simp [BaseCountFunction.addMultiplicity, hnull, hval, hadd]
          | ok sum => simp [BaseCountFunction.addMultiplicity, hnull, hval, hadd]

theorem iterateM_avg (multiplicity : ℕ) (state : AggregateState V) :
    iterateM (fun state ↦ AggregateKind.avg.addValue ops state (some value)) multiplicity state =
      (do
        let state ← iterateM (SumFunction.addValue ops value) multiplicity state
        return BaseCountFunction.addMultiplicity state multiplicity) := by
  have hcounted : ∀ (multiplicity m : ℕ) (state : AggregateState V),
      iterateM (fun state ↦ AggregateKind.avg.addValue ops state (some value)) multiplicity
          (BaseCountFunction.addMultiplicity state m) =
        (do
          let state ← iterateM (SumFunction.addValue ops value) multiplicity state
          return BaseCountFunction.addMultiplicity state (m + multiplicity)) := by
    intro multiplicity
    induction multiplicity with
    | zero => exact fun _ _ ↦ rfl
    | succ multiplicity ih =>
        intro m state
        rw [iterateM, iterateM, addValue, addValue_addMultiplicity]
        cases SumFunction.addValue ops value state with
        | error e => rfl
        | ok next =>
            have hnext := ih (m + 1) next
            rw [Nat.add_assoc, Nat.add_comm 1] at hnext
            simp only [ok_bind, pure_eq_ok, addMultiplicity_add] at hnext ⊢
            exact hnext
  have hzero := hcounted multiplicity 0 state
  rwa [addMultiplicity_zero, Nat.zero_add] at hzero

/-- An extremum takes a value once. -/
theorem iterateM_minMax {op : V → V → Except ExecutionFault Bool}
    (hself : ∀ v, op v v = .ok false) (hpos : 0 < multiplicity) (state : AggregateState V) :
    iterateM (MinMaxFunction.addValue op value) multiplicity state =
      MinMaxFunction.addValue op value state := by
  have htwice : ∀ {state state' : AggregateState V},
      MinMaxFunction.addValue op value state = .ok state' →
        MinMaxFunction.addValue op value state' = .ok state' := by
    intro state state' h
    rw [MinMaxFunction.addValue, updateSingleValue] at h
    split at h
    · obtain rfl := Except.ok.inj h
      simp [MinMaxFunction.addValue, updateSingleValue, hself]
    · rename_i hnull
      have hnull' := Bool.eq_false_iff.mpr hnull
      split at h
      · cases h
      · rename_i val _
        obtain ⟨val', hcombine, h⟩ := bind_eq_ok_iff.mp h
        obtain ⟨compareResult, hop, hval'⟩ := bind_eq_ok_iff.mp hcombine
        obtain rfl := Except.ok.inj h
        obtain rfl := Except.ok.inj hval'
        cases compareResult with
        | true => simp [MinMaxFunction.addValue, updateSingleValue, hnull', hself]
        | false => simp [MinMaxFunction.addValue, updateSingleValue, hnull', hop]
  have hkeeps : ∀ (n : ℕ) {state' : AggregateState V},
      MinMaxFunction.addValue op value state' = .ok state' →
        iterateM (MinMaxFunction.addValue op value) n state' = .ok state' := by
    intro n
    induction n with
    | zero => exact fun _ ↦ rfl
    | succ n ih =>
        intro state' h
        rw [iterateM, h, ok_bind, ih h]
  obtain ⟨n, rfl⟩ := Nat.exists_eq_add_of_lt hpos
  rw [Nat.zero_add, iterateM]
  cases hfirst : MinMaxFunction.addValue op value state with
  | error e => rfl
  | ok state' => exact hkeeps n (htwice hfirst)

/-- The input is a vector with a value at the position, or none for `COUNT(*)`. -/
structure Takes (kind : AggregateKind) (input : Option (ValueVector V)) (pos : ℕ) : Prop where
  isSome_eq : input.isSome = kind.hasInput
  isSome_value : input.isSome = true → (input.bind fun vector ↦ vector.values pos).isSome = true

theorem updatePos_eq (htakes : kind.Takes input pos) (hpos : 0 < multiplicity)
    (hlt : kind.addsRepeatedly = true → multiplicity < 2 ^ 32) :
    (kind.getFunction ops isDistinct).updatePos state input multiplicity pos =
      kind.addTimes ops multiplicity state (input.bind fun vector ↦ vector.values pos) := by
  have hrepeat : kind.addsRepeatedly = true →
      ∀ turn : AggregateState V → Except ExecutionFault (AggregateState V),
        repeatTimes multiplicity turn state = iterateM turn multiplicity state := by
    intro hadds turn
    simp only [repeatTimes, Nat.not_le.mpr (hlt hadds), if_false]
    cases iterateM turn multiplicity state <;> rfl
  cases hinput : input with
  | none =>
      have hkind : kind = .countStar := by
        have heq := htakes.isSome_eq
        rw [hinput, hasInput, Option.isSome_none, eq_comm, decide_eq_false_iff_not] at heq
        exact not_not.mp heq
      subst hkind
      exact (iterateM_addMultiplicity multiplicity state).symm
  | some vector =>
      have hkind : kind ≠ .countStar := by
        have heq := htakes.isSome_eq
        rwa [hinput, hasInput, Option.isSome_some, eq_comm, decide_eq_true_iff] at heq
      obtain ⟨value, hvalue⟩ := Option.isSome_iff_exists.mp
        (htakes.isSome_value (by rw [hinput]; rfl))
      rw [hinput] at hvalue
      have hread : readValue (some vector) pos = .ok value := by
        rw [readValue, hvalue]
      rw [hvalue]
      cases kind with
      | countStar => exact absurd rfl hkind
      | count => exact (iterateM_addMultiplicity multiplicity state).symm
      | sum =>
          simp only [getFunction, SumFunction.updatePos, hread, ok_bind, hrepeat rfl]
          rfl
      | min =>
          simp only [getFunction, MinMaxFunction.updatePos, hread, ok_bind]
          exact (iterateM_minMax ops.lessThan_self hpos state).symm
      | max =>
          simp only [getFunction, MinMaxFunction.updatePos, hread, ok_bind]
          exact (iterateM_minMax ops.greaterThan_self hpos state).symm
      | avg =>
          simp only [getFunction, AvgFunction.updatePos, hread, ok_bind, hrepeat rfl]
          exact (iterateM_avg multiplicity state).symm

/-- The values of the vector at the selected positions that are not null. -/
def selectedValues (states : ℕ → DataChunkState) (vector : ValueVector V) : List (Option V) :=
  ((states vector.state).selVector.selectedPositions.map vector.values).filter Option.isSome

theorem updateAll_eq {states : ℕ → DataChunkState} {vector : ValueVector V}
    (hinput : kind.hasInput = true) (hguarantees : vector.Guarantees states)
    (hpos : 0 < multiplicity)
    (hlt : selectedValues states vector ≠ [] →
      kind.addsRepeatedly = true → multiplicity < 2 ^ 32) :
    (kind.getFunction ops isDistinct).updateAll state states (some vector) multiplicity =
      (selectedValues states vector).foldlM (kind.addTimes ops multiplicity) state := by
  have hloop : ∀ (positions : List ℕ) (state : AggregateState V),
      (∀ pos ∈ positions, vector.mayContainNulls = false → (vector.values pos).isSome) →
      ((positions.map vector.values).filter Option.isSome ≠ [] →
        kind.addsRepeatedly = true → multiplicity < 2 ^ 32) →
      positions.foldlM (fun state pos ↦
          if !vector.hasNoNullsGuarantee && vector.isNull pos then .ok state
          else (kind.getFunction ops isDistinct).updatePos state (some vector) multiplicity pos)
          state =
        ((positions.map vector.values).filter Option.isSome).foldlM
          (kind.addTimes ops multiplicity) state := by
    intro positions
    induction positions with
    | nil => exact fun _ _ _ ↦ rfl
    | cons pos positions ih =>
        intro state hsome hlt
        rw [List.map_cons] at hlt
        rw [List.foldlM_cons, List.map_cons]
        cases hvalue : vector.values pos with
        | none =>
            rw [hvalue, List.filter_cons_of_neg (by simp)] at hlt
            have hrest := fun state ↦
              ih state (fun pos hmem ↦ hsome pos (List.mem_cons_of_mem _ hmem)) hlt
            have hmay : vector.mayContainNulls = true := by
              by_contra hno
              have hsome' := hsome pos List.mem_cons_self (Bool.eq_false_iff.mpr hno)
              rw [hvalue] at hsome'
              cases hsome'
            rw [if_pos (by simp [ValueVector.hasNoNullsGuarantee, ValueVector.isNull,
              hmay, hvalue]), ok_bind, hrest, List.filter_cons_of_neg (by simp)]
        | some value =>
            rw [hvalue, List.filter_cons_of_pos rfl] at hlt
            have hlt' := hlt (List.cons_ne_nil _ _)
            have hrest := fun state ↦ ih state
              (fun pos hmem ↦ hsome pos (List.mem_cons_of_mem _ hmem)) fun _ ↦ hlt'
            have htakes : kind.Takes (some vector) pos :=
              ⟨hinput.symm, fun _ ↦ by rw [Option.bind_some, hvalue]; rfl⟩
            rw [if_neg (by simp [ValueVector.isNull, hvalue]), updatePos_eq htakes hpos hlt',
              Option.bind_some, hvalue, List.filter_cons_of_pos rfl, List.foldlM_cons]
            exact congrArg _ (funext hrest)
  have hguard := fun pos hmem hmay ↦ hguarantees hmay pos hmem
  cases kind with
  | countStar => cases hinput
  | count => exact hloop _ state hguard hlt
  | sum => exact hloop _ state hguard hlt
  | min => exact hloop _ state hguard hlt
  | max => exact hloop _ state hguard hlt
  | avg => exact hloop _ state hguard hlt

end AggregateKind

end Graphflow.Aggregate
