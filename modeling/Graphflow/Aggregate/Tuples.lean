import Graphflow.Aggregate.UpdateStates

/-!
# The values of the tuples of a group

The tuples of a batch are the choices of a selected position for each unflat data chunk.  The shapes
that update a state go through the positions of the keys and those of the function's vector, but not
through other chunks.
-/

namespace Graphflow.Aggregate

open Lib Processor

variable {V : Type}

namespace Batch

section Rows

variable {states : ℕ → DataChunkState} {chunks : List ℕ} {state : ℕ} {row : ℕ → ℕ}

/-- A flat chunk is at its current position. -/
theorem apply_of_mem_rowsOver (hrow : row ∈ rowsOver states chunks) (hstate : state ∉ chunks) :
    row state = (states state).getPositionOfCurrIdx := by
  induction chunks generalizing row with
  | nil =>
      obtain rfl := List.mem_singleton.mp hrow
      rfl
  | cons chunk chunks ih =>
      obtain ⟨pos, -, hrow⟩ := List.mem_flatMap.mp hrow
      obtain ⟨row', hrow', rfl⟩ := List.mem_map.mp hrow
      rw [List.mem_cons, not_or] at hstate
      rw [Function.update_of_ne hstate.1]
      exact ih hrow' hstate.2

theorem length_rowsOver (hsingle : ∀ chunk ∈ chunks, (states chunk).selVector.selectedSize = 1) :
    (rowsOver states chunks).length = 1 := by
  induction chunks with
  | nil => rfl
  | cons chunk chunks ih =>
      have hchunk := hsingle chunk List.mem_cons_self
      have hrest := ih fun chunk' hmem ↦ hsingle chunk' (List.mem_cons_of_mem _ hmem)
      obtain ⟨pos, hpos⟩ := List.length_eq_one_iff.mp hchunk
      rw [rowsOver, hpos, List.flatMap_singleton, List.length_map, hrest]

theorem exists_mem_rowsOver (hpos : ∀ chunk ∈ chunks, 0 < (states chunk).selVector.selectedSize) :
    ∃ row, row ∈ rowsOver states chunks := by
  induction chunks with
  | nil => exact ⟨_, List.mem_singleton_self _⟩
  | cons chunk chunks ih =>
      obtain ⟨row, hrow⟩ := ih fun chunk' hmem ↦ hpos chunk' (List.mem_cons_of_mem _ hmem)
      obtain ⟨pos, hmem⟩ := List.exists_mem_of_length_pos (hpos chunk List.mem_cons_self)
      exact ⟨_, List.mem_flatMap.mpr ⟨pos, hmem, List.mem_map_of_mem hrow⟩⟩

/-- The tuples go through the selected positions of a chunk, if the others have one each. -/
theorem map_rowsOver (hnodup : chunks.Nodup) (hstate : state ∈ chunks)
    (hsingle : ∀ chunk ∈ chunks, chunk ≠ state → (states chunk).selVector.selectedSize = 1) :
    (rowsOver states chunks).map (fun row ↦ row state) =
      (states state).selVector.selectedPositions := by
  induction chunks with
  | nil => exact absurd hstate List.not_mem_nil
  | cons chunk chunks ih =>
      rw [List.nodup_cons] at hnodup
      rcases List.mem_cons.mp hstate with rfl | hmem
      · have hrest : (rowsOver states chunks).length = 1 := by
          refine length_rowsOver fun chunk hmem ↦ ?_
          refine hsingle chunk (List.mem_cons_of_mem _ hmem) ?_
          rintro rfl
          exact hnodup.1 hmem
        obtain ⟨row, hrow⟩ := List.length_eq_one_iff.mp hrest
        simp only [rowsOver, hrow, List.map_singleton]
        rw [← List.map_eq_flatMap, List.map_map]
        simp [Function.comp_def]
      · have hne : chunk ≠ state := by
          rintro rfl
          exact hnodup.1 hmem
        obtain ⟨pos, hpos⟩ := List.length_eq_one_iff.mp (hsingle chunk List.mem_cons_self hne)
        rw [rowsOver, hpos, List.flatMap_singleton, List.map_map,
          ← ih hnodup.2 hmem fun chunk' hmem' ↦ hsingle chunk' (List.mem_cons_of_mem _ hmem')]
        refine List.map_congr_left fun row _ ↦ ?_
        rw [Function.comp_apply, Function.update_of_ne (Ne.symm hne)]

end Rows

variable {batch : Batch V} {numHashKeys numNonHashKeys : ℕ}
  {functions : List (AggregateKind × Bool)}

/-- A tuple with another position of the keys. -/
def placeKeys (batch : Batch V) (pos : ℕ) (row : ℕ → ℕ) : ℕ → ℕ :=
  match batch.unflatKeyState with
  | none => row
  | some state => Function.update row state pos

/-- Each chunk that is neither that of the keys nor the function's own has one tuple. -/
def Alone (batch : Batch V) (vector : Option (ValueVector V)) : Prop :=
  ∀ state ∈ batch.otherStates, (∀ v, vector = some v → v.state ≠ state) →
    (batch.states state).selVector.selectedSize = 1

theorem mem_otherStates {state : ℕ} :
    state ∈ batch.otherStates ↔ (∃ vector ∈ batch.aggregateVectors.reduceOption,
      batch.isFlat vector = false ∧ vector.state = state) ∧ some state ≠ batch.unflatKeyState := by
  simp only [otherStates, List.mem_dedup, List.mem_filter, List.mem_map, decide_eq_true_iff,
    Bool.not_eq_true', and_assoc]

theorem isFlat_of_mem_otherStates {state : ℕ} (h : state ∈ batch.otherStates) :
    (batch.states state).isFlat = false := by
  obtain ⟨⟨vector, -, hflat, rfl⟩, -⟩ := mem_otherStates.mp h
  exact hflat

namespace Admitted

variable (h : batch.Admitted numHashKeys numNonHashKeys functions)

include h

theorem rows_eq : batch.rows = batch.keyPositions.flatMap fun pos ↦
    (rowsOver batch.states batch.otherStates).map (batch.placeKeys pos) := by
  have hflat := h.isFlat_hashState
  rw [rows, unflatStates]
  cases hunflat : batch.groupByUnflatHashKeyVectors with
  | nil =>
      obtain ⟨pos, -, hpositions, -⟩ := AggregateHashTable.exists_flatKeyPos h hunflat
      have hstate : batch.unflatKeyState = none := by
        rw [unflatKeyState, hunflat]
        rfl
      have hplace : batch.placeKeys pos = id := by
        funext row
        rw [placeKeys, hstate]
        rfl
      rw [hpositions, List.flatMap_singleton, hplace, List.map_id, hstate]
      rfl
  | cons first rest =>
      obtain ⟨-, hpositions, hstate⟩ := AggregateHashTable.unflatKeyPositions_eq h hunflat
      have hplace : ∀ pos, batch.placeKeys pos = fun row ↦ Function.update row first.state pos := by
        intro pos
        funext row
        rw [placeKeys, hstate]
      simp only [hstate, Option.toList_some, List.singleton_append, rowsOver, hpositions, hplace]

theorem placeKeys_of_isFlat {pos : ℕ} {row : ℕ → ℕ} {vector : ValueVector V}
    (hrow : row ∈ rowsOver batch.states batch.otherStates) (hflat : batch.isFlat vector = true) :
    batch.placeKeys pos row vector.state = batch.getPositionOfCurrIdx vector := by
  have hcurrent : row vector.state = batch.getPositionOfCurrIdx vector := by
    apply apply_of_mem_rowsOver hrow
    intro hother
    have hno := isFlat_of_mem_otherStates hother
    rw [isFlat] at hflat
    rw [hflat] at hno
    cases hno
  rw [placeKeys]
  cases hstate : batch.unflatKeyState with
  | none => exact hcurrent
  | some state =>
      have hne : vector.state ≠ state := by
        rintro rfl
        obtain ⟨first, hfirst, hsame⟩ := Option.map_eq_some_iff.mp hstate
        have hunflat := (h.unflat_of_mem first (List.mem_of_mem_head? hfirst)).1
        rw [isFlat, hsame] at hunflat
        rw [isFlat, hunflat] at hflat
        cases hflat
      simp only [Function.update_of_ne hne, hcurrent]

/-- The keys of a tuple are at its position of the keys. -/
theorem rowKeys_placeKeys {pos : ℕ} {row : ℕ → ℕ}
    (hrow : row ∈ rowsOver batch.states batch.otherStates) :
    batch.rowKeys (batch.placeKeys pos row) = batch.entryKeys pos := by
  rw [rowKeys, h.entryKeys_eq]
  refine List.map_congr_left fun vector hmem ↦ ?_
  cases hflat : batch.isFlat vector with
  | true => rw [valueFor_of_isFlat hflat, h.placeKeys_of_isFlat hrow hflat]
  | false =>
      rw [valueFor_of_not_isFlat hflat, placeKeys, h.unflatKeyState_eq hmem hflat]
      simp only [Function.update_self]

/-- The function takes, at a position of the keys, the values of the tuples with the position. -/
theorem filterMap_placeKeys {vector : Option (ValueVector V)} {pos : ℕ}
    (hvector : vector ∈ batch.aggregateVectors) (halone : batch.Alone vector) :
    ((rowsOver batch.states batch.otherStates).map (batch.placeKeys pos)).filterMap
      (rowInput vector) = AggregateHashTable.valuesAt batch vector pos := by
  have hone : (∀ state ∈ batch.otherStates, ∀ v, vector = some v → v.state ≠ state) →
      ∃ row, rowsOver batch.states batch.otherStates = [row] := by
    intro hnot
    apply List.length_eq_one_iff.mp
    exact length_rowsOver fun state hstate ↦ halone state hstate (hnot state hstate)
  have hfilter : ∀ (values : List (Option V)),
      values.filterMap (fun value ↦ value.map some) = values.filter Option.isSome := by
    intro values
    induction values with
    | nil => rfl
    | cons value values ih => cases value <;> simp [ih]
  cases vector with
  | none =>
      obtain ⟨row, hrow⟩ := hone fun _ _ v hv ↦ by cases hv
      rw [hrow]
      rfl
  | some v =>
      have hinput : rowInput (some v) = fun row ↦ (v.values (row v.state)).map some := rfl
      have hvalues : ∀ rows : List (ℕ → ℕ), rows.filterMap (rowInput (some v)) =
          ((rows.map fun row ↦ row v.state).map v.values).filter Option.isSome := by
        intro rows
        rw [← hfilter, List.filterMap_map, List.filterMap_map]
        rfl
      rw [hvalues, List.map_map, AggregateHashTable.valuesAt]
      cases hflat : batch.isFlat v with
      | true =>
          obtain ⟨row, hrow⟩ := hone fun state hstate v' hv' ↦ by
            obtain rfl := Option.some.inj hv'
            rintro rfl
            rw [isFlat, isFlat_of_mem_otherStates hstate] at hflat
            cases hflat
          have hmem : row ∈ rowsOver batch.states batch.otherStates := by
            rw [hrow]
            exact List.mem_singleton_self row
          have hplace := @placeKeys_of_isFlat V batch _ _ _ h pos row v hmem hflat
          rw [hrow, if_pos rfl, List.map_singleton, List.map_singleton, Function.comp_apply, hplace]
      | false =>
          rw [if_neg Bool.false_ne_true]
          split_ifs with hstate
          · obtain ⟨row, hrow⟩ := hone fun state hother v' hv' ↦ by
              obtain rfl := Option.some.inj hv'
              rintro rfl
              exact (mem_otherStates.mp hother).2 hstate.symm
            rw [hrow, List.map_singleton, List.map_singleton, Function.comp_apply,
              placeKeys, hstate]
            simp only [Function.update_self]
          · have hother : v.state ∈ batch.otherStates := mem_otherStates.mpr
              ⟨⟨v, List.reduceOption_mem_iff.mpr hvector, hflat, rfl⟩, Ne.symm hstate⟩
            have hplace : ∀ row, batch.placeKeys pos row v.state = row v.state := by
              intro row
              rw [placeKeys]
              cases hkey : batch.unflatKeyState with
              | none => rfl
              | some state =>
                  have hne : v.state ≠ state := by
                    rintro rfl
                    exact hstate hkey
                  simp only [Function.update_of_ne hne]
            have hselected := @map_rowsOver batch.states batch.otherStates v.state
              (List.nodup_dedup _) hother fun state hmem hne ↦ halone state hmem fun v' hv' ↦ by
                obtain rfl := Option.some.inj hv'
                exact Ne.symm hne
            rw [AggregateKind.selectedValues, ← hselected]
            simp only [List.map_map, Function.comp_def, hplace]

variable [DecidableEq V] {canon : V → V}

/-- What a function takes of a group are the values of the group's tuples. -/
theorem valuesOf_eq {vector : Option (ValueVector V)} (hvector : vector ∈ batch.aggregateVectors)
    (halone : batch.Alone vector) (key : List (Option V)) :
    AggregateHashTable.valuesOf canon batch vector key =
      (batch.rows.filter fun row ↦ canonKeys canon (batch.rowKeys row) = key).filterMap
        (rowInput vector) := by
  rw [h.rows_eq, AggregateHashTable.valuesOf]
  generalize batch.keyPositions = positions
  induction positions with
  | nil => rfl
  | cons pos positions ih =>
      have hkeys : ∀ row ∈ (rowsOver batch.states batch.otherStates).map (batch.placeKeys pos),
          batch.rowKeys row = batch.entryKeys pos := by
        intro row hrow
        obtain ⟨row', hrow', rfl⟩ := List.mem_map.mp hrow
        exact h.rowKeys_placeKeys hrow'
      rw [List.flatMap_cons, List.filter_append, List.filterMap_append, ← ih]
      by_cases hkey : canonKeys canon (batch.entryKeys pos) = key
      · have hall : ((rowsOver batch.states batch.otherStates).map (batch.placeKeys pos)).filter
            (fun row ↦ canonKeys canon (batch.rowKeys row) = key) =
              (rowsOver batch.states batch.otherStates).map (batch.placeKeys pos) :=
          List.filter_eq_self.mpr fun row hrow ↦ by
            rw [hkeys row hrow]
            exact decide_eq_true hkey
        rw [hall, List.filter_cons_of_pos (by simpa using hkey), List.flatMap_cons,
          h.filterMap_placeKeys hvector halone]
      · have hnone : ((rowsOver batch.states batch.otherStates).map (batch.placeKeys pos)).filter
            (fun row ↦ canonKeys canon (batch.rowKeys row) = key) = [] :=
          List.filter_eq_nil_iff.mpr fun row hrow ↦ by
            rw [hkeys row hrow]
            simpa using hkey
        rw [hnone, List.filter_cons_of_neg (by simpa using hkey)]
        rfl

omit [DecidableEq V] in
theorem exists_row {pos : ℕ} (hpos : pos ∈ batch.keyPositions) :
    ∃ row ∈ batch.rows, batch.rowKeys row = batch.entryKeys pos := by
  rw [h.rows_eq]
  obtain ⟨row, hrow⟩ := exists_mem_rowsOver fun state hmem ↦
    h.selectedSize_pos state (List.mem_append_right _ hmem)
  exact ⟨_, List.mem_flatMap.mpr ⟨pos, hpos, List.mem_map_of_mem hrow⟩, h.rowKeys_placeKeys hrow⟩

omit [DecidableEq V] in
/-- The groups of a batch are those of its tuples. -/
theorem exists_row_iff (key : List (Option V)) :
    (∃ row ∈ batch.rows, canonKeys canon (batch.rowKeys row) = key) ↔
      ∃ pos ∈ batch.keyPositions, canonKeys canon (batch.entryKeys pos) = key := by
  constructor
  · rintro ⟨row, hrow, rfl⟩
    rw [h.rows_eq] at hrow
    obtain ⟨pos, hpos, hrow⟩ := List.mem_flatMap.mp hrow
    obtain ⟨row', hrow', rfl⟩ := List.mem_map.mp hrow
    exact ⟨pos, hpos, by rw [h.rowKeys_placeKeys hrow']⟩
  · rintro ⟨pos, hpos, rfl⟩
    obtain ⟨row, hrow, hkeys⟩ := h.exists_row hpos
    exact ⟨row, hrow, by rw [hkeys]⟩

end Admitted

end Batch

end Graphflow.Aggregate
