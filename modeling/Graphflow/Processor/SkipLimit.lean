import Graphflow.Lib.CountedLog
import Graphflow.Processor.SelectionMemory

/-!
# `SKIP` and `LIMIT`

Each thread has its own operators and its own child; the threads share the counters.  A thread looks
at a counter and increases it in one step.
-/

namespace Graphflow.Processor

open Lib Storage

/-! ## Children -/

/-- What a child sees of the data chunk from which tuples are selected. -/
structure Selected where
  isUnfiltered : Bool
  selectedPositions : List ℕ
  currIdx : Option ℕ
  deriving DecidableEq, Repr

/-- What a child does to the data chunk, which it may leave as it is, and to the multiplicity. -/
structure Produced where
  state : Option DataChunkState
  multiplicity : ℕ

/-- A child has a state of its own and reads the positions that are selected. -/
abbrev Child (σ : Type) := σ → Selected → Option (σ × Produced)

variable {σ : Type}

structure MultiplicityReducer (σ : Type) where
  child : σ
  prevMultiplicity : ℕ := 1
  numRepeat : ℕ := 0

namespace MultiplicityReducer

def repeated (r : MultiplicityReducer σ) : MultiplicityReducer σ :=
  { r with numRepeat := if r.numRepeat + 1 = r.prevMultiplicity then 0 else r.numRepeat + 1 }

/-- The tuples of the child again and again, as many times as the multiplicity says. -/
def getNextTuples (child : Child σ) : Child (MultiplicityReducer σ) := fun r selected ↦
  if r.numRepeat = 0 then
    (child r.child selected).map fun (s, produced) ↦
      (repeated { child := s, prevMultiplicity := produced.multiplicity },
        { produced with multiplicity := 1 })
  else some (r.repeated, ⟨none, 1⟩)

end MultiplicityReducer

/-! ## Threads -/

/-- A thread pulls from its operators, or is about to limit what they have returned. -/
inductive PipelinePoint
  | pulling
  | limiting
  | finished
  deriving DecidableEq, Repr

/-- `numCalls` counts the calls of the child.  No operator reads it. -/
structure Pipeline (σ : Type) where
  child : σ
  selVector : SelectionMemory := {}
  currIdx : Option ℕ := none
  multiplicity : ℕ := 1
  prevSelVector : Option SelectionMemory := none
  numCalls : ℕ := 0
  point : PipelinePoint := .pulling

namespace Pipeline

variable (p : Pipeline σ)

def selected : Selected := ⟨p.selVector.isUnfiltered, p.selVector.selectedPositions, p.currIdx⟩

/-- The positions of the tuples: a flat chunk has the current one. -/
def positions : List ℕ :=
  match p.currIdx with
  | none => p.selVector.selectedPositions
  | some i => [p.selVector.selectedPositions.getD i 0]

/-- A tuple is given by the call of the child that has produced it and its position. -/
def tuples : List (ℕ × ℕ) := p.positions.map fun pos ↦ (p.numCalls, pos)

def getNumTuples : ℕ :=
  (if p.currIdx.isSome then 1 else p.selVector.selectedSize) * p.multiplicity

/-- `children[0]->getNextTuples()`. -/
def pull (child : Child σ) : Option (Pipeline σ) :=
  (child p.child p.selected).map fun (s, produced) ↦
    { p with
      child := s
      selVector := produced.state.elim p.selVector fun state ↦ p.selVector.load state.selVector
      currIdx := produced.state.elim p.currIdx DataChunkState.currIdx
      multiplicity := produced.multiplicity
      numCalls := p.numCalls + 1 }

def restore : Pipeline σ := { p with selVector := p.selVector.restoreSelVector p.prevSelVector }

def save : Pipeline σ :=
  { p with prevSelVector := p.selVector.saveSelVector p.prevSelVector }

end Pipeline

/-! ## Steps -/

/-- The operators that a plan has, with their numbers. -/
structure Operators (σ : Type) where
  child : Child σ
  skipNumber : Option ℕ
  limitNumber : Option ℕ

/-- The counters, which have 64 bits, are taken as unbounded.  No operator reads the logs. -/
structure SkipLimitState (Thread σ : Type) where
  skipCounter : ℕ := 0
  limitCounter : ℕ := 0
  threads : Thread → Pipeline σ
  skipLog : List (Fetch Thread (ℕ × ℕ)) := []
  limitLog : List (Fetch Thread (ℕ × ℕ)) := []

namespace SkipLimitState

variable {Thread : Type} [DecidableEq Thread] (s : SkipLimitState Thread σ) (t : Thread)
  (p : Pipeline σ)

def set (point : PipelinePoint) : SkipLimitState Thread σ :=
  { s with threads := Function.update s.threads t { p with point := point } }

/-- The tuples go on to `LIMIT`, or out of the thread. -/
def returns (ops : Operators σ) : SkipLimitState Thread σ :=
  s.set t p (if ops.limitNumber.isSome then .limiting else .pulling)

/-- A turn of the loop of `Skip::getNextTuples`.  Two of its numbers have 32 bits. -/
def skip (ops : Operators σ) (skipNumber : ℕ) : SkipLimitState Thread σ :=
  match p.restore.pull ops.child with
  | none => s.set t p.restore .finished
  | some p =>
      let p := p.save
      let numTuplesAvailable := p.getNumTuples % 2 ^ 32
      let numTupleSkippedBefore := s.skipCounter % 2 ^ 32
      let fetched (emitted : List (ℕ × ℕ)) : SkipLimitState Thread σ :=
        { s with
          skipCounter := s.skipCounter + numTuplesAvailable
          skipLog := s.skipLog ++ [⟨t, s.skipCounter, p.tuples, emitted⟩] }
      if (numTupleSkippedBefore + numTuplesAvailable) % 2 ^ 32 ≤ skipNumber then
        (fetched []).set t p .pulling
      else if skipNumber ≤ numTupleSkippedBefore then (fetched p.tuples).returns t p ops
      else
        let p := { p with
          selVector := p.selVector.skipPositions (skipNumber - numTupleSkippedBefore) }
        (fetched p.tuples).returns t p ops

/-- `Limit::getNextTuples` after the call of its child. -/
def limit (limitNumber : ℕ) : SkipLimitState Thread σ :=
  let numTupleAvailable := p.getNumTuples
  let numTupleProcessedBefore := s.limitCounter
  let fetched (emitted : List (ℕ × ℕ)) : SkipLimitState Thread σ :=
    { s with
      limitCounter := s.limitCounter + numTupleAvailable
      limitLog := s.limitLog ++ [⟨t, s.limitCounter, p.tuples, emitted⟩] }
  if limitNumber < numTupleProcessedBefore + numTupleAvailable then
    if limitNumber ≤ numTupleProcessedBefore then (fetched []).set t p .finished
    else
      let p := { p with
        selVector := { p.selVector with selectedSize := limitNumber - numTupleProcessedBefore } }
      (fetched p.tuples).set t p .pulling
  else (fetched p.tuples).set t p .pulling

end SkipLimitState

/-- The next step of a thread. -/
def skipLimitStep {Thread : Type} [DecidableEq Thread] (ops : Operators σ)
    (s : SkipLimitState Thread σ) (t : Thread) : Option (SkipLimitState Thread σ) :=
  let p := s.threads t
  match p.point with
  | .finished => none
  | .limiting => ops.limitNumber.map (s.limit t p)
  | .pulling =>
      match ops.skipNumber with
      | some skipNumber => some (s.skip t p ops skipNumber)
      | none =>
          match p.pull ops.child with
          | none => some (s.set t p .finished)
          | some p => some (s.returns t p ops)

end Graphflow.Processor
