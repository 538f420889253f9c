import Graphflow.Function.Predicates
import Graphflow.Processor.FilteringOperator

/-!
# Filtering

`Filter` pulls from its child until its predicate selects a row.  It selects in the buffer that it
has saved before, so that the child finds there again what it has left.
-/

namespace Graphflow.Processor

open Graphflow.Function Lib Storage

/-! ## The operator -/

/-- What a child does to the chunk, of which it may leave the selection as it is.  The predicate
comes with the vectors of the batch, of which none has a null bit that earlier batches have left
where the predicate writes none, and is flat if the chunk is. -/
structure PulledRows (V : Type) where
  selVector : Option SelectionVector
  currIdx : Option ℕ
  predicate : SelectionMemory → PredicateEvaluator V
  wellFormed : ∀ m, (predicate m).WellFormed m
  isFlat_eq : ∀ m, (predicate m).evaluate.state.isFlat = currIdx.isSome

/-- A child has a state of its own and reads the positions that are selected. -/
abbrev RowsChild (V σ : Type) := σ → Selected → Option (σ × PulledRows V)

/-- The rows of a turn, their truth values, and what is passed on. -/
structure FilteredRows where
  pulled : List ℕ
  truthAt : ℕ → Option Bool
  passedOn : List ℕ

/-- `returned` is what the child has left behind.  The operator does not read it or the log. -/
structure FilterState (σ : Type) where
  child : σ
  chunk : VectorState := {}
  prevSelVector : Option SelectionMemory := none
  finished : Bool := false
  returned : Option Selected := none
  log : List FilteredRows := []

namespace FilterState

variable {V σ : Type} (s : FilterState σ)

def restoreSelVector : FilterState σ :=
  { s with chunk := { s.chunk with
    selVector := s.chunk.selVector.restoreSelVector s.prevSelVector } }

/-- The chunk once the predicate has selected its rows. -/
def selectRows (chunk : VectorState) (selVector : SelectionMemory) : VectorState :=
  { chunk with
    selVector :=
      if !chunk.isFlat && selVector.isUnfiltered then selVector.resetSelectorToValuePosBuffer
      else selVector }

/-- What is done with the chunk that a child has filled. -/
def process (child : σ) (p : PulledRows V) : FilterState σ :=
  let selVector := p.selVector.elim s.chunk.selVector s.chunk.selVector.load
  let chunk : VectorState := ⟨selVector, p.currIdx⟩
  let selected := (p.predicate selVector).select selVector
  let chunk' := selectRows chunk selected.2
  { child := child
    chunk := chunk'
    prevSelVector := selVector.saveSelVector s.prevSelVector
    finished := false
    returned := some selVector.selected
    log := s.log ++ [⟨chunk.readPositions, (p.predicate selVector).truthAt,
      if selected.1 then chunk'.readPositions else []⟩] }

/-- A turn of the loop of `getNextTuples`.  A call ends with the first turn that selects something,
and the next call begins with the next turn. -/
def turn (child : RowsChild V σ) (s : FilterState σ) (_ : Unit) : Option (FilterState σ) :=
  if s.finished then none
  else
    let s := s.restoreSelVector
    match child s.child s.chunk.selVector.selected with
    | none => some { s with finished := true }
    | some (next, p) => some (s.process next p)

end FilterState

/-! ## Rows -/

/-- The rows for which the predicate is true are passed on. -/
def FilteredRows.Filters (f : FilteredRows) : Prop :=
  f.passedOn = f.pulled.filter fun pos ↦ f.truthAt pos == some true

namespace FilterState

variable {V σ : Type} {child : RowsChild V σ} {s s' : FilterState σ}

theorem selectRows_of_unflat {chunk : VectorState} (hflat : chunk.isFlat = false)
    (m : SelectionMemory) :
    selectRows chunk m = { chunk with selVector := m.resetSelectorToValuePosBuffer } := by
  rw [selectRows, hflat, Bool.not_false, Bool.true_and]
  cases m with
  | mk isUnfiltered buffer size => cases isUnfiltered <;> rfl

theorem selectRows_of_isFlat {chunk : VectorState} (hflat : chunk.isFlat = true) :
    selectRows chunk chunk.selVector = chunk := by
  rw [selectRows, hflat]
  rfl

/-- One batch. -/
theorem filters_process (p : PulledRows V) (m : SelectionMemory) :
    FilteredRows.Filters ⟨VectorState.readPositions ⟨m, p.currIdx⟩, (p.predicate m).truthAt,
      if ((p.predicate m).select m).1 then
        (selectRows ⟨m, p.currIdx⟩ ((p.predicate m).select m).2).readPositions else []⟩ := by
  have hwellFormed := p.wellFormed m
  rw [FilteredRows.Filters]
  cases hflat : (p.predicate m).evaluate.state.isFlat with
  | true =>
      have hchunk : VectorState.isFlat ⟨m, p.currIdx⟩ = true := (p.isFlat_eq m).symm.trans hflat
      have hselect := PredicateEvaluator.select_of_isFlat hwellFormed hflat
        (VectorState.getPositionOfCurrIdx ⟨m, p.currIdx⟩)
      have hrows := selectRows_of_isFlat hchunk
      rw [hselect]
      simp only [hrows, VectorState.readPositions_of_isFlat hchunk, List.filter_singleton]
      exact (cond_eq_ite _ _ _).symm
  | false =>
      have hchunk : VectorState.isFlat ⟨m, p.currIdx⟩ = false := (p.isFlat_eq m).symm.trans hflat
      obtain ⟨hfst, hsnd⟩ := PredicateEvaluator.selects_of_unflat hwellFormed hflat
      have hpositions : VectorState.readPositions ⟨m, p.currIdx⟩ = m.selectedPositions := by
        rw [VectorState.readPositions_of_unflat hchunk, VectorState.positions_eq]
      have hpositions' : (selectRows ⟨m, p.currIdx⟩ ((p.predicate m).select m).2).readPositions =
          ((p.predicate m).select m).2.resetSelectorToValuePosBuffer.selectedPositions := by
        have hafter : VectorState.isFlat
            ⟨((p.predicate m).select m).2.resetSelectorToValuePosBuffer, p.currIdx⟩ =
              false := hchunk
        rw [selectRows_of_unflat hchunk]
        exact (VectorState.readPositions_of_unflat hafter).trans (VectorState.positions_eq _)
      dsimp only
      rw [hpositions, hpositions']
      split_ifs with hsome
      · exact hsnd hsome
      · rw [hfst, decide_eq_true_eq, not_not] at hsome
        exact hsome.symm

/-! ## Runs -/

/-- What the child has left behind is there again once it is restored, and each batch is
filtered. -/
structure Inv (s : FilterState σ) : Prop where
  selected : ∀ selected ∈ s.returned, s.restoreSelVector.chunk.selVector.selected = selected
  filters : ∀ f ∈ s.log, f.Filters

theorem inv_start (first : σ) : Inv { child := first } where
  selected _ hselected := by cases hselected
  filters _ hf := absurd hf List.not_mem_nil

theorem Inv.process (h : Inv s) (next : σ) (p : PulledRows V) : Inv (s.process next p) := by
  constructor
  · rintro _ ⟨⟩
    exact SelectionMemory.selected_restoreSelVector _ _ _
  · intro f hf
    rcases List.mem_append.mp hf with hf | hf
    · exact h.filters f hf
    · rw [List.mem_singleton.mp hf]
      exact filters_process p _

theorem Inv.turn (h : Inv s) {u : Unit} (hturn : turn child s u = some s') : Inv s' := by
  have hrestore : Inv s.restoreSelVector := by
    refine ⟨fun selected hselected ↦ ?_, h.filters⟩
    rw [← h.selected selected hselected]
    exact SelectionMemory.selected_restore_twice _ _
  rw [FilterState.turn] at hturn
  split_ifs at hturn
  dsimp only at hturn
  split at hturn
  · obtain rfl := Option.some.inj hturn
    exact ⟨hrestore.selected, hrestore.filters⟩
  · obtain rfl := Option.some.inj hturn
    exact hrestore.process _ _

end FilterState

end Graphflow.Processor
