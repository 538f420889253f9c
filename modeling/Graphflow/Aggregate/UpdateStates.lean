import Graphflow.Aggregate.FindHashSlots
import Mathlib.Data.List.ReduceOption

/-!
# The states of the groups

After the slots of a batch have been found, each function updates its states in the entries to which
they point.  What it adds to the state of a group are the values of the group's tuples.
-/

namespace Graphflow.Aggregate

open Lib Processor

variable {V : Type}

namespace AggregateHashTable

variable [DecidableEq V] {keyOps : KeyOperations V} {canon : V → V} {rows : Set (List (Option V))}
  {numHashKeys numNonHashKeys : ℕ} {functions : List (AggregateKind × Bool)} {batch : Batch V}
  {t t' : AggregateHashTable V} {states : ℕ → List (Option V) → AggregateState V}

/-- The tables differ in the states of their entries only. -/
structure SameGroups (t t' : AggregateHashTable V) : Prop where
  table_eq : t' = { t with entries := t'.entries }
  entries_eq : t'.entries.map (fun entry ↦ { entry with states := [] }) =
    t.entries.map fun entry ↦ { entry with states := [] }

/-- The state of each function in each entry, by the keys of the entry. -/
def StatesAre (canon : V → V) (numFunctions : ℕ) (t : AggregateHashTable V)
    (states : ℕ → List (Option V) → AggregateState V) : Prop :=
  ∀ entry ∈ t.entries, ∀ i < numFunctions,
    entry.states[i]? = some (states i (canonKeys canon entry.keys))

namespace SameGroups

omit [DecidableEq V]

theorem refl (t : AggregateHashTable V) : SameGroups t t := ⟨rfl, rfl⟩

theorem trans {t'' : AggregateHashTable V} (h : SameGroups t t') (h' : SameGroups t' t'') :
    SameGroups t t'' where
  table_eq := by rw [h'.table_eq, h.table_eq]
  entries_eq := h'.entries_eq.trans h.entries_eq

variable (h : SameGroups t t')

include h

/-- What does not depend on the states is the same for both. -/
theorem map_eq {γ : Type} (g : Entry V → γ)
    (hg : ∀ entry, g { entry with states := [] } = g entry) :
    t'.entries.map g = t.entries.map g := by
  have hmap := congrArg (List.map g) h.entries_eq
  simpa [List.map_map, Function.comp_def, hg] using hmap

theorem exists_entry {i : ℕ} {entry : Entry V} (hget : t'.entries[i]? = some entry) :
    ∃ entry', t.entries[i]? = some entry' ∧ entry'.keys = entry.keys ∧
      entry'.hash = entry.hash := by
  have heq := congrArg (fun entries ↦ entries[i]?) h.entries_eq
  simp only [List.getElem?_map, hget, Option.map_some] at heq
  obtain ⟨entry', hget', hsame⟩ := Option.map_eq_some_iff.mp heq.symm
  have hkeys := congrArg Entry.keys hsame
  have hhash := congrArg Entry.hash hsame
  exact ⟨entry', hget', hkeys, hhash⟩

theorem valid (hvalid : t.Valid keyOps canon rows numHashKeys numNonHashKeys) :
    t'.Valid keyOps canon rows numHashKeys numNonHashKeys := by
  have hmem : ∀ entry ∈ t'.entries, ∃ entry' ∈ t.entries,
      entry'.keys = entry.keys ∧ entry'.hash = entry.hash := by
    intro entry hentry
    obtain ⟨i, hget⟩ := List.mem_iff_getElem?.mp hentry
    obtain ⟨entry', hget', hkeys, hhash⟩ := h.exists_entry hget
    exact ⟨entry', List.mem_of_getElem? hget', hkeys, hhash⟩
  constructor
  · rw [h.map_eq Entry.hash fun _ ↦ rfl, show t'.hashSlots = t.hashSlots by rw [h.table_eq]]
    exact hvalid.holds
  · rw [h.map_eq (fun entry ↦ canonKeys canon entry.keys) fun _ ↦ rfl]
    exact hvalid.nodup
  · intro entry hentry
    obtain ⟨entry', hentry', hkeys, -⟩ := hmem entry hentry
    exact hkeys ▸ hvalid.mem_rows entry' hentry'
  · intro entry hentry
    obtain ⟨entry', hentry', hkeys, -⟩ := hmem entry hentry
    exact hkeys ▸ hvalid.length_eq entry' hentry'
  · intro entry hentry
    obtain ⟨entry', hentry', hkeys, hhash⟩ := hmem entry hentry
    rw [← hkeys, ← hhash]
    exact hvalid.hash_eq entry' hentry'
  · intro entry hentry colIdx hnone
    obtain ⟨entry', hentry', hkeys, -⟩ := hmem entry hentry
    rw [show t'.mayContainNulls = t.mayContainNulls by rw [h.table_eq]]
    exact hvalid.mayContainNulls entry' hentry' colIdx (by rw [hkeys, hnone])

theorem finds {pos : ℕ} {key : List (Option V)} (hfinds : Finds canon t pos key) :
    Finds canon t' pos key := by
  obtain ⟨entryIdx, entry, hat, hget, hcanon⟩ := hfinds
  have hat' : t'.entryIdxAt pos = .ok entryIdx := by
    rw [h.table_eq]
    exact hat
  have heq := congrArg (fun entries ↦ entries[entryIdx]?) h.entries_eq
  simp only [List.getElem?_map, hget, Option.map_some] at heq
  obtain ⟨entry', hget', hsame⟩ := Option.map_eq_some_iff.mp heq
  have hkeys : entry'.keys = entry.keys := (Entry.mk.inj hsame).1
  exact ⟨entryIdx, entry', hat', hget', by rw [hkeys, hcanon]⟩

end SameGroups

/-! ## One state -/

/-- The states with another one for the function `i` and a group. -/
def setStates (states : ℕ → List (Option V) → AggregateState V) (i : ℕ) (key : List (Option V))
    (state : AggregateState V) : ℕ → List (Option V) → AggregateState V :=
  Function.update states i (Function.update (states i) key state)

theorem exists_updateStateAt {numFunctions i pos : ℕ} {key : List (Option V)}
    {state : AggregateState V}
    {update : AggregateState V → Except ExecutionFault (AggregateState V)}
    (hvalid : t.Valid keyOps canon rows numHashKeys numNonHashKeys)
    (hstates : StatesAre canon numFunctions t states) (hfinds : Finds canon t pos key)
    (hi : i < numFunctions) (hupdate : update (states i key) = .ok state) :
    ∃ t', updateStateAt i update t pos = .ok t' ∧ SameGroups t t' ∧
      StatesAre canon numFunctions t' (setStates states i key state) := by
  obtain ⟨entryIdx, entry, hat, hget, hcanon⟩ := hfinds
  have hstate := hstates entry (List.mem_of_getElem? hget) i hi
  rw [hcanon] at hstate
  have hlt := (List.getElem?_eq_some_iff.mp hget).1
  refine ⟨{ t with entries := (t.entries.set entryIdx
    { entry with states := entry.states.set i state }) }, ?_, ⟨rfl, ?_⟩, ?_⟩
  · simp only [updateStateAt, hat, ok_bind, hget, nonNull, hstate, hupdate, pure_eq_ok]
  · rw [List.map_set]
    apply List.ext_getElem?
    intro j
    rw [List.getElem?_set]
    split_ifs with heq hlt'
    · rw [← heq, List.getElem?_map, hget]
      rfl
    · rw [List.length_map] at hlt'
      exact absurd hlt hlt'
    · rfl
  · intro entry' hentry' i' hi'
    obtain ⟨j, hj⟩ := List.mem_iff_getElem?.mp hentry'
    rw [List.getElem?_set] at hj
    split_ifs at hj with heq
    · obtain rfl := Option.some.inj hj
      have hold := hstates entry (List.mem_of_getElem? hget) i' hi'
      simp only [hcanon] at hold ⊢
      rw [List.getElem?_set]
      split_ifs with heq' hlt'
      · rw [← heq', setStates, Function.update_self, Function.update_self]
      · exact absurd (List.getElem?_eq_some_iff.mp hstate).1 hlt'
      · rw [hold, setStates, Function.update_of_ne (Ne.symm heq')]
    · have hne : canonKeys canon entry'.keys ≠ key := by
        intro hsame
        apply heq
        apply (List.getElem?_inj (by rwa [List.length_map]) hvalid.nodup).mp
        rw [List.getElem?_map, List.getElem?_map, hget, hj, Option.map_some, Option.map_some,
          hcanon, hsame]
      rw [hstates entry' (List.mem_of_getElem? hj) i' hi', setStates]
      by_cases heq' : i' = i
      · rw [heq', Function.update_self, Function.update_of_ne hne]
      · rw [Function.update_of_ne heq']

/-! ## A loop over positions -/

/-- The slots of the keys of a batch have been found. -/
structure Ready (keyOps : KeyOperations V) (canon : V → V) (rows : Set (List (Option V)))
    (numHashKeys numNonHashKeys numFunctions : ℕ) (batch : Batch V) (t : AggregateHashTable V)
    (states : ℕ → List (Option V) → AggregateState V) : Prop where
  valid : t.Valid keyOps canon rows numHashKeys numNonHashKeys
  finds : ∀ pos ∈ batch.keyPositions, Finds canon t pos (canonKeys canon (batch.entryKeys pos))
  states_are : StatesAre canon numFunctions t states

section Loop

variable {numFunctions i : ℕ}

/-- A loop that updates the state of the group of a position in each turn, or skips it.  It succeeds
if the turns for each group do so one after the other. -/
theorem Ready.exists_foldlM_updateStateAt {γ : Type} (xs : List γ) (pos : γ → ℕ)
    (skips : γ → Bool) (turn : AggregateState V → γ → Except ExecutionFault (AggregateState V))
    {step : AggregateHashTable V → γ → Except ExecutionFault (AggregateHashTable V)}
    {after : List (Option V) → AggregateState V}
    (h : Ready keyOps canon rows numHashKeys numNonHashKeys numFunctions batch t states)
    (hi : i < numFunctions)
    (hpos : ∀ x ∈ xs, skips x = false → pos x ∈ batch.keyPositions)
    (hskips : ∀ x ∈ xs, skips x = true → ∀ t, step t x = .ok t)
    (hstep : ∀ x ∈ xs, skips x = false → ∃ update,
      (∀ t, step t x = updateStateAt i update t (pos x)) ∧ ∀ state, update state = turn state x)
    (hafter : ∀ key, ((xs.filter fun x ↦ !skips x).filter fun x ↦
      canonKeys canon (batch.entryKeys (pos x)) = key).foldlM turn (states i key) =
        .ok (after key)) :
    ∃ t', xs.foldlM step t = .ok t' ∧ SameGroups t t' ∧
      Ready keyOps canon rows numHashKeys numNonHashKeys numFunctions batch t'
        (Function.update states i after) := by
  induction xs generalizing t states with
  | nil =>
      have hsame : after = states i := funext fun key ↦ (Except.ok.inj (hafter key)).symm
      refine ⟨t, rfl, SameGroups.refl t, ?_⟩
      rwa [hsame, Function.update_eq_self]
  | cons x xs ih =>
      have hpos' := fun y hy ↦ hpos y (List.mem_cons_of_mem x hy)
      have hskips' := fun y hy ↦ hskips y (List.mem_cons_of_mem x hy)
      have hstep' := fun y hy ↦ hstep y (List.mem_cons_of_mem x hy)
      cases hskip : skips x with
      | true =>
          rw [List.filter_cons_of_neg (by simp [hskip])] at hafter
          obtain ⟨t', hloop, hresult⟩ := ih h hpos' hskips' hstep' hafter
          refine ⟨t', ?_, hresult⟩
          rw [List.foldlM_cons, hskips x List.mem_cons_self hskip, ok_bind, hloop]
      | false =>
          rw [List.filter_cons_of_pos (by simp [hskip])] at hafter
          have hmem := hpos x List.mem_cons_self hskip
          obtain ⟨update, hupdate, hturn⟩ := hstep x List.mem_cons_self hskip
          have hfirst := hafter (canonKeys canon (batch.entryKeys (pos x)))
          rw [List.filter_cons_of_pos (by simp), List.foldlM_cons] at hfirst
          obtain ⟨state, hstate, hfirst⟩ := bind_eq_ok_iff.mp hfirst
          obtain ⟨t₁, hok, hsame, hstates⟩ := exists_updateStateAt h.valid h.states_are
            (h.finds (pos x) hmem) hi ((hturn _).trans hstate)
          have hready : Ready keyOps canon rows numHashKeys numNonHashKeys numFunctions batch t₁
              (setStates states i (canonKeys canon (batch.entryKeys (pos x))) state) :=
            ⟨hsame.valid h.valid, fun pos' hpos' ↦ hsame.finds (h.finds pos' hpos'), hstates⟩
          obtain ⟨t', hloop, hsame', hready'⟩ := ih hready hpos' hskips' hstep' (by
            intro key
            rw [setStates, Function.update_self]
            by_cases hkey : canonKeys canon (batch.entryKeys (pos x)) = key
            · rw [← hkey, Function.update_self]
              exact hfirst
            · have hrest := hafter key
              rw [List.filter_cons_of_neg (by simpa using hkey)] at hrest
              rw [Function.update_of_ne (Ne.symm hkey)]
              exact hrest)
          refine ⟨t', ?_, hsame.trans hsame', ?_⟩
          · rw [List.foldlM_cons, hupdate, hok, ok_bind, hloop]
          · rwa [setStates, Function.update_idem] at hready'

/-- A loop over the positions of the keys that adds some values at each. -/
theorem Ready.exists_foldlM_keyPositions (values : ℕ → List (Option V))
    (add : AggregateState V → Option V → Except ExecutionFault (AggregateState V))
    (step : AggregateHashTable V → ℕ → Except ExecutionFault (AggregateHashTable V))
    {after : List (Option V) → AggregateState V}
    (h : Ready keyOps canon rows numHashKeys numNonHashKeys numFunctions batch t states)
    (hi : i < numFunctions)
    (hstep : ∀ pos ∈ batch.keyPositions, values pos = [] ∧ (∀ t, step t pos = .ok t) ∨
      ∃ update, (∀ t, step t pos = updateStateAt i update t pos) ∧
        ∀ state, update state = (values pos).foldlM add state)
    (hafter : ∀ key, ((batch.keyPositions.filter fun pos ↦
      canonKeys canon (batch.entryKeys pos) = key).flatMap values).foldlM add (states i key) =
        .ok (after key)) :
    ∃ t', batch.keyPositions.foldlM step t = .ok t' ∧ SameGroups t t' ∧
      Ready keyOps canon rows numHashKeys numNonHashKeys numFunctions batch t'
        (Function.update states i after) := by
  classical
  refine Ready.exists_foldlM_updateStateAt batch.keyPositions id
    (fun pos ↦ decide (values pos = [] ∧ ∀ t, step t pos = .ok t))
    (fun state pos ↦ (values pos).foldlM add state) h hi (fun pos hpos _ ↦ hpos)
    (fun pos _ hskip ↦ (decide_eq_true_iff.mp hskip).2)
    (fun pos hpos hskip ↦ (hstep pos hpos).resolve_left (decide_eq_false_iff_not.mp hskip))
    fun key ↦ ?_
  rw [← hafter key, foldlM_flatMap, List.filter_filter]
  generalize batch.keyPositions = positions
  generalize states i key = state
  induction positions generalizing state with
  | nil => rfl
  | cons pos positions ih =>
      by_cases hkey : canonKeys canon (batch.entryKeys pos) = key
      · by_cases hskip : values pos = [] ∧ ∀ t, step t pos = .ok t
        · rw [List.filter_cons_of_neg (by simp [hskip]), ih,
            List.filter_cons_of_pos (by simpa using hkey), List.foldlM_cons, hskip.1]
          rfl
        · rw [List.filter_cons_of_pos (by simp [hkey, hskip]), List.foldlM_cons,
            List.filter_cons_of_pos (by simpa using hkey), List.foldlM_cons]
          exact congrArg _ (funext ih)
      · rw [List.filter_cons_of_neg (by simp [hkey]), ih,
          List.filter_cons_of_neg (by simpa using hkey)]

end Loop

/-! ## The six shapes -/

/-- What a function takes at a position of the keys. -/
def valuesAt (batch : Batch V) (vector : Option (ValueVector V)) (pos : ℕ) : List (Option V) :=
  match vector with
  | none => [none]
  | some vector =>
      if batch.isFlat vector then
        [vector.values (batch.getPositionOfCurrIdx vector)].filter Option.isSome
      else if batch.unflatKeyState = some vector.state then
        [vector.values pos].filter Option.isSome
      else AggregateKind.selectedValues batch.states vector

/-- What a function takes of a group. -/
def valuesOf (canon : V → V) (batch : Batch V) (vector : Option (ValueVector V))
    (key : List (Option V)) : List (Option V) :=
  (batch.keyPositions.filter fun pos ↦ canonKeys canon (batch.entryKeys pos) = key).flatMap
    (valuesAt batch vector)

/-- Values are counted by a number of 32 bits.  Those of an unflat vector that may contain nulls are
added, if the keys are flat, to the entry in the slot of position `0`. -/
def Updates (kind : AggregateKind) (batch : Batch V) (vector : Option (ValueVector V)) : Prop :=
  ∀ pos ∈ batch.keyPositions, valuesAt batch vector pos ≠ [] →
    (kind.addsRepeatedly = true → batch.multiplicity < 2 ^ 32) ∧
      ∀ v, vector = some v → batch.groupByUnflatHashKeyVectors = [] → batch.isFlat v = false →
        v.mayContainNulls = true → pos = 0

section Shapes

variable {numFunctions i : ℕ} {ops : ValueOperations V} {kind : AggregateKind}
  {hashVector : HashVector} {vector : Option (ValueVector V)}
  {after : List (Option V) → AggregateState V}
  (hadm : batch.Admitted numHashKeys numNonHashKeys functions)
  (h : Ready keyOps canon rows numHashKeys numNonHashKeys numFunctions batch t states)
  (hi : i < numFunctions)

omit [DecidableEq V] in
include hadm in
theorem exists_flatKeyPos (hunflat : batch.groupByUnflatHashKeyVectors = []) :
    ∃ pos, flatKeyPos batch = .ok pos ∧ batch.keyPositions = [pos] ∧
      (batch.states batch.hashState).getPositionOfCurrIdx = pos := by
  have hflat := hadm.isFlat_hashState
  rw [hunflat, List.isEmpty_nil] at hflat
  cases hflats : batch.groupByFlatHashKeyVectors with
  | nil =>
      have hlength := hadm.length_hashKeyVectors
      rw [Batch.hashKeyVectors, hflats, hunflat] at hlength
      exact absurd hadm.numHashKeys_pos (by rw [← hlength]; exact Nat.lt_irrefl 0)
  | cons first rest =>
      have hstate : batch.hashState = first.state := by
        rw [Batch.hashState, Batch.unflatKeyState, hunflat, hflats]
        rfl
      refine ⟨batch.getPositionOfCurrIdx first, ?_, ?_, ?_⟩
      · rw [flatKeyPos, hflats]
        rfl
      · rw [Batch.keyPositions, if_pos hflat, hstate]
        rfl
      · rw [hstate]
        rfl

omit [DecidableEq V] in
include hadm in
theorem unflatKeyPositions_eq {first : ValueVector V} {rest : List (ValueVector V)}
    (hunflat : batch.groupByUnflatHashKeyVectors = first :: rest) :
    unflatKeyPositions batch = batch.keyPositions ∧
      (batch.states first.state).selVector.selectedPositions = batch.keyPositions ∧
      batch.unflatKeyState = some first.state := by
  have hflat := hadm.isFlat_hashState
  rw [hunflat, List.isEmpty_cons] at hflat
  have hstate : batch.hashState = first.state := by
    rw [Batch.hashState, Batch.unflatKeyState, hunflat]
    rfl
  have hpositions : (batch.states first.state).selVector.selectedPositions =
      batch.keyPositions := by
    rw [Batch.keyPositions, if_neg (Bool.eq_false_iff.mp hflat), hstate]
  refine ⟨?_, hpositions, ?_⟩
  · rw [unflatKeyPositions, hunflat, ← hpositions]
    exact DataChunkState.positions_eq _
  · rw [Batch.unflatKeyState, hunflat]
    rfl

omit [DecidableEq V] in
/-- A value is added as many times as the multiplicity says. -/
theorem updatePos_of_valuesAt (hadm : batch.Admitted numHashKeys numNonHashKeys functions)
    {value : V} {pos : ℕ} {v : ValueVector V} (hkind : kind.hasInput = true)
    (hvalue : v.values pos = some value)
    (hlt : kind.addsRepeatedly = true → batch.multiplicity < 2 ^ 32) (state : AggregateState V) :
    (kind.getFunction ops false).updatePos state (some v) batch.multiplicity pos =
      kind.addTimes ops batch.multiplicity state (some value) := by
  have htakes : kind.Takes (some v) pos :=
    ⟨hkind.symm, fun _ ↦ by rw [Option.bind_some, hvalue]; rfl⟩
  rw [AggregateKind.updatePos_eq htakes hadm.multiplicity_pos hlt, Option.bind_some, hvalue]

omit [DecidableEq V] in
/-- The turn of a loop at a position where there is one value. -/
theorem updatePos_eq_foldlM (hadm : batch.Admitted numHashKeys numNonHashKeys functions)
    {value : V} {pos valuePos : ℕ} {v : ValueVector V} (hkind : kind.hasInput = true)
    (hupdates : Updates kind batch (some v)) (hpos : pos ∈ batch.keyPositions)
    (hvalue : v.values valuePos = some value)
    (hvalues : valuesAt batch (some v) pos = [v.values valuePos].filter Option.isSome)
    (state : AggregateState V) :
    (kind.getFunction ops false).updatePos state (some v) batch.multiplicity valuePos =
      (valuesAt batch (some v) pos).foldlM (kind.addTimes ops batch.multiplicity) state := by
  rw [hvalue, List.filter_cons_of_pos rfl, List.filter_nil] at hvalues
  rw [hvalues, foldlM_singleton]
  exact updatePos_of_valuesAt hadm hkind hvalue
    (hupdates pos hpos (by rw [hvalues]; exact List.cons_ne_nil _ _)).1 state

include hadm h hi

theorem exists_updateNullAggVectorState (hkind : kind.hasInput = false)
    (hafter : ∀ key, (valuesOf canon batch none key).foldlM
      (kind.addTimes ops batch.multiplicity) (states i key) = .ok (after key)) :
    ∃ t', updateNullAggVectorState batch (kind.getFunction ops false) i t = .ok t' ∧
      SameGroups t t' ∧
      Ready keyOps canon rows numHashKeys numNonHashKeys numFunctions batch t'
        (Function.update states i after) := by
  have hadds : kind.addsRepeatedly = false := by
    cases kind <;> simp [AggregateKind.hasInput] at hkind ⊢
    rfl
  have htakes : kind.Takes (none : Option (ValueVector V)) 0 :=
    ⟨hkind.symm, fun hsome ↦ by cases hsome⟩
  have hupdate : ∀ state, (kind.getFunction ops false).updatePos state none batch.multiplicity 0 =
      [none].foldlM (kind.addTimes ops batch.multiplicity) state := by
    intro state
    rw [foldlM_singleton]
    refine AggregateKind.updatePos_eq htakes hadm.multiplicity_pos fun hadds' ↦ ?_
    rw [hadds] at hadds'
    cases hadds'
  obtain ⟨t', hloop, hresult⟩ := h.exists_foldlM_keyPositions (valuesAt batch none)
    (kind.addTimes ops batch.multiplicity)
    (updateStateAt i fun state ↦
      (kind.getFunction ops false).updatePos state none batch.multiplicity 0) hi
    (fun pos _ ↦ Or.inr ⟨_, fun _ ↦ rfl, hupdate⟩) hafter
  refine ⟨t', ?_, hresult⟩
  rw [← hloop, updateNullAggVectorState]
  cases hunflat : batch.groupByUnflatHashKeyVectors with
  | nil =>
      obtain ⟨pos, hpos, hpositions, -⟩ := exists_flatKeyPos hadm hunflat
      rw [hpositions, foldlM_singleton, hpos]
      rfl
  | cons first rest =>
      rw [(unflatKeyPositions_eq hadm hunflat).1]
      rfl

theorem exists_updateBothFlatAggVectorState {v : ValueVector V} (hkind : kind.hasInput = true)
    (hstate : hashVector.state = batch.hashState) (hflat : batch.isFlat v = true)
    (hunflat : batch.groupByUnflatHashKeyVectors = []) (hupdates : Updates kind batch (some v))
    (hafter : ∀ key, (valuesOf canon batch (some v) key).foldlM
      (kind.addTimes ops batch.multiplicity) (states i key) = .ok (after key)) :
    ∃ t', updateBothFlatAggVectorState batch hashVector (kind.getFunction ops false) i t v =
        .ok t' ∧ SameGroups t t' ∧
      Ready keyOps canon rows numHashKeys numNonHashKeys numFunctions batch t'
        (Function.update states i after) := by
  obtain ⟨pos, -, hpositions, hcurrent⟩ := exists_flatKeyPos hadm hunflat
  obtain ⟨t', hloop, hresult⟩ := h.exists_foldlM_keyPositions (valuesAt batch (some v))
    (kind.addTimes ops batch.multiplicity)
    (fun t _ ↦ updateBothFlatAggVectorState batch hashVector (kind.getFunction ops false) i t v) hi
    (by
      intro pos' hpos'
      have hvalues : valuesAt batch (some v) pos' =
          [v.values (batch.getPositionOfCurrIdx v)].filter Option.isSome := if_pos hflat
      cases hvalue : v.values (batch.getPositionOfCurrIdx v) with
      | none =>
          refine Or.inl ⟨by rw [hvalues, hvalue]; rfl, fun t ↦ ?_⟩
          exact if_pos (by rw [ValueVector.isNull, hvalue]; rfl)
      | some value =>
          refine Or.inr ⟨fun state ↦ (kind.getFunction ops false).updatePos state (some v)
            batch.multiplicity (batch.getPositionOfCurrIdx v), fun t ↦ ?_,
            updatePos_eq_foldlM hadm hkind hupdates hpos' hvalue hvalues⟩
          rw [hpositions, List.mem_singleton] at hpos'
          rw [hpos', ← hcurrent, ← hstate]
          exact if_neg (by rw [ValueVector.isNull, hvalue]; simp))
    hafter
  rw [hpositions, foldlM_singleton] at hloop
  exact ⟨t', hloop, hresult⟩

theorem exists_updateFlatUnflatKeyFlatAggVectorState {v first : ValueVector V}
    {rest : List (ValueVector V)} (hkind : kind.hasInput = true) (hflat : batch.isFlat v = true)
    (hunflat : batch.groupByUnflatHashKeyVectors = first :: rest)
    (hupdates : Updates kind batch (some v))
    (hafter : ∀ key, (valuesOf canon batch (some v) key).foldlM
      (kind.addTimes ops batch.multiplicity) (states i key) = .ok (after key)) :
    ∃ t', updateFlatUnflatKeyFlatAggVectorState batch (kind.getFunction ops false) i t v = .ok t' ∧
      SameGroups t t' ∧
      Ready keyOps canon rows numHashKeys numNonHashKeys numFunctions batch t'
        (Function.update states i after) := by
  let update : AggregateState V → Except ExecutionFault (AggregateState V) := fun state ↦
    (kind.getFunction ops false).updatePos state (some v) batch.multiplicity
      (batch.getPositionOfCurrIdx v)
  have hvalues : ∀ pos, valuesAt batch (some v) pos =
      [v.values (batch.getPositionOfCurrIdx v)].filter Option.isSome := fun pos ↦ if_pos hflat
  cases hvalue : v.values (batch.getPositionOfCurrIdx v) with
  | none =>
      have hnone : ∀ pos, valuesAt batch (some v) pos = [] := by
        intro pos
        rw [hvalues, hvalue]
        rfl
      obtain ⟨t', hloop, hresult⟩ := h.exists_foldlM_keyPositions (valuesAt batch (some v))
        (kind.addTimes ops batch.multiplicity) (fun t _ ↦ .ok t) hi
        (fun pos _ ↦ Or.inl ⟨hnone pos, fun _ ↦ rfl⟩) hafter
      refine ⟨t', ?_, hresult⟩
      have hkeep := List.foldlM_pure.symm.trans hloop
      rw [List.foldl_fixed] at hkeep
      rw [← hkeep]
      exact if_pos (by rw [ValueVector.isNull, hvalue]; rfl)
  | some value =>
      obtain ⟨t', hloop, hresult⟩ := h.exists_foldlM_keyPositions (valuesAt batch (some v))
        (kind.addTimes ops batch.multiplicity) (updateStateAt i update) hi
        (fun pos hpos ↦ Or.inr ⟨update, fun _ ↦ rfl,
          updatePos_eq_foldlM hadm hkind hupdates hpos hvalue (hvalues pos)⟩)
        hafter
      refine ⟨t', ?_, hresult⟩
      rw [← hloop, ← (unflatKeyPositions_eq hadm hunflat).1]
      exact if_neg (by rw [ValueVector.isNull, hvalue]; simp)

theorem exists_updateBothUnflatSameDCAggVectorState {v first : ValueVector V}
    {rest : List (ValueVector V)} (hkind : kind.hasInput = true) (hflat : batch.isFlat v = false)
    (hunflat : batch.groupByUnflatHashKeyVectors = first :: rest) (hsame : v.state = first.state)
    (hguarantees : v.Guarantees batch.states) (hupdates : Updates kind batch (some v))
    (hafter : ∀ key, (valuesOf canon batch (some v) key).foldlM
      (kind.addTimes ops batch.multiplicity) (states i key) = .ok (after key)) :
    ∃ t', updateBothUnflatSameDCAggVectorState batch (kind.getFunction ops false) i t v = .ok t' ∧
      SameGroups t t' ∧
      Ready keyOps canon rows numHashKeys numNonHashKeys numFunctions batch t'
        (Function.update states i after) := by
  obtain ⟨-, hpositions, hstate⟩ := unflatKeyPositions_eq hadm hunflat
  rw [← hsame] at hpositions hstate
  have hvalues : ∀ pos, valuesAt batch (some v) pos = [v.values pos].filter Option.isSome := by
    intro pos
    rw [valuesAt, if_neg (Bool.eq_false_iff.mp hflat), if_pos hstate]
  obtain ⟨t', hloop, hresult⟩ := h.exists_foldlM_keyPositions (valuesAt batch (some v))
    (kind.addTimes ops batch.multiplicity)
    (fun t pos ↦ if !v.hasNoNullsGuarantee && v.isNull pos then .ok t
      else updateStateAt i (fun state ↦
        (kind.getFunction ops false).updatePos state (some v) batch.multiplicity pos) t pos) hi
    (by
      intro pos hpos
      cases hvalue : v.values pos with
      | none =>
          have hmay := hguarantees.mayContainNulls (by rwa [hpositions]) hvalue
          refine Or.inl ⟨by rw [hvalues, hvalue]; rfl, fun t ↦ if_pos ?_⟩
          simp [ValueVector.hasNoNullsGuarantee, ValueVector.isNull, hmay, hvalue]
      | some value =>
          exact Or.inr ⟨fun state ↦ (kind.getFunction ops false).updatePos state (some v)
            batch.multiplicity pos, fun t ↦ if_neg (by simp [ValueVector.isNull, hvalue]),
            updatePos_eq_foldlM hadm hkind hupdates hpos hvalue (hvalues pos)⟩)
    hafter
  refine ⟨t', ?_, hresult⟩
  rw [← hloop, updateBothUnflatSameDCAggVectorState, DataChunkState.positions_eq, hpositions]

theorem exists_updateBothUnflatDifferentDCAggVectorState {v first : ValueVector V}
    {rest : List (ValueVector V)} (hkind : kind.hasInput = true) (hflat : batch.isFlat v = false)
    (hunflat : batch.groupByUnflatHashKeyVectors = first :: rest) (hother : v.state ≠ first.state)
    (hguarantees : v.Guarantees batch.states) (hupdates : Updates kind batch (some v))
    (hafter : ∀ key, (valuesOf canon batch (some v) key).foldlM
      (kind.addTimes ops batch.multiplicity) (states i key) = .ok (after key)) :
    ∃ t', updateBothUnflatDifferentDCAggVectorState batch (kind.getFunction ops false) i t v =
        .ok t' ∧ SameGroups t t' ∧
      Ready keyOps canon rows numHashKeys numNonHashKeys numFunctions batch t'
        (Function.update states i after) := by
  obtain ⟨hloopPositions, -, hstate⟩ := unflatKeyPositions_eq hadm hunflat
  have hvalues : ∀ pos, valuesAt batch (some v) pos =
      AggregateKind.selectedValues batch.states v := by
    intro pos
    rw [valuesAt, if_neg (Bool.eq_false_iff.mp hflat), if_neg]
    rw [hstate, Option.some.injEq]
    exact Ne.symm hother
  obtain ⟨t', hloop, hresult⟩ := h.exists_foldlM_keyPositions (valuesAt batch (some v))
    (kind.addTimes ops batch.multiplicity)
    (updateStateAt i fun state ↦
      (kind.getFunction ops false).updateAll state batch.states (some v) batch.multiplicity) hi
    (fun pos hpos ↦ Or.inr ⟨_, fun _ ↦ rfl, fun state ↦ by
      rw [hvalues]
      exact AggregateKind.updateAll_eq hkind hguarantees hadm.multiplicity_pos
        fun hne ↦ (hupdates pos hpos (by rwa [hvalues])).1⟩) hafter
  refine ⟨t', ?_, hresult⟩
  rw [← hloop, updateBothUnflatDifferentDCAggVectorState, hloopPositions]

theorem exists_updateFlatKeyUnflatAggVectorState {v : ValueVector V} (hkind : kind.hasInput = true)
    (hflat : batch.isFlat v = false) (hunflat : batch.groupByUnflatHashKeyVectors = [])
    (hguarantees : v.Guarantees batch.states) (hupdates : Updates kind batch (some v))
    (hafter : ∀ key, (valuesOf canon batch (some v) key).foldlM
      (kind.addTimes ops batch.multiplicity) (states i key) = .ok (after key)) :
    ∃ t', updateFlatKeyUnflatAggVectorState batch (kind.getFunction ops false) i t v = .ok t' ∧
      SameGroups t t' ∧
      Ready keyOps canon rows numHashKeys numNonHashKeys numFunctions batch t'
        (Function.update states i after) := by
  obtain ⟨pos, hpos, hpositions, -⟩ := exists_flatKeyPos hadm hunflat
  have hmem : pos ∈ batch.keyPositions := by rw [hpositions]; exact List.mem_singleton_self pos
  have hvalues : ∀ pos, valuesAt batch (some v) pos =
      AggregateKind.selectedValues batch.states v := by
    intro pos
    rw [valuesAt, if_neg (Bool.eq_false_iff.mp hflat), if_neg]
    rw [Batch.unflatKeyState, hunflat]
    simp
  have hguard : ∀ (x : ℕ) (value : V),
      x ∈ (batch.states v.state).selVector.selectedPositions → v.values x = some value →
      (kind.addsRepeatedly = true → batch.multiplicity < 2 ^ 32) ∧
        (v.mayContainNulls = true → pos = 0) := by
    intro x value hx hvalue
    have hne : valuesAt batch (some v) pos ≠ [] := by
      rw [hvalues]
      exact List.ne_nil_of_mem (List.mem_filter.mpr ⟨List.mem_map.mpr ⟨x, hx, hvalue⟩, rfl⟩)
    have hupdates' := hupdates pos hmem hne
    exact ⟨hupdates'.1, hupdates'.2 v rfl hunflat hflat⟩
  let update : ℕ → AggregateState V → Except ExecutionFault (AggregateState V) := fun x state ↦
    (kind.getFunction ops false).updatePos state (some v) batch.multiplicity x
  let step : AggregateHashTable V → ℕ → Except ExecutionFault (AggregateHashTable V) := fun t x ↦
    if v.hasNoNullsGuarantee then updateStateAt i (update x) t pos
    else if v.isNull x then .ok t else updateStateAt i (update x) t 0
  obtain ⟨t', hloop, hresult⟩ := Ready.exists_foldlM_updateStateAt
    (batch.states v.state).selVector.selectedPositions (fun _ ↦ pos) v.isNull
    (fun state x ↦ kind.addTimes ops batch.multiplicity state (v.values x)) h hi
    (fun _ _ _ ↦ hmem)
    (by
      intro x hx hnull t
      have hmay := hguarantees.mayContainNulls hx (Option.isNone_iff_eq_none.mp hnull)
      show step t x = .ok t
      simp [step, ValueVector.hasNoNullsGuarantee, hmay, hnull])
    (by
      intro x hx hnull
      rw [ValueVector.isNull, Option.isNone_eq_false_iff] at hnull
      obtain ⟨value, hvalue⟩ := Option.isSome_iff_exists.mp hnull
      obtain ⟨hlt, hzero⟩ := hguard x value hx hvalue
      refine ⟨update x, fun t ↦ ?_, fun state ↦ ?_⟩
      · show step t x = _
        cases hmay : v.mayContainNulls with
        | false => simp [step, ValueVector.hasNoNullsGuarantee, hmay]
        | true =>
            simp [step, ValueVector.hasNoNullsGuarantee, hmay, ValueVector.isNull, hvalue,
              hzero hmay]
      · rw [hvalue]
        exact updatePos_of_valuesAt hadm hkind hvalue hlt state)
    (by
      intro key
      rw [← hafter key, valuesOf, hpositions]
      by_cases hkey : canonKeys canon (batch.entryKeys pos) = key
      · rw [List.filter_cons_of_pos (by simpa using hkey), List.filter_nil, List.flatMap_singleton,
          hvalues, AggregateKind.selectedValues, List.filter_map, List.foldlM_map,
          List.filter_filter]
        congr 1
        apply List.filter_congr
        intro x _
        simp [hkey, ValueVector.isNull]
      · rw [List.filter_cons_of_neg (by simpa using hkey), List.filter_nil, List.flatMap_nil,
          List.filter_eq_nil_iff.mpr (by simp [hkey])]
        rfl)
  refine ⟨t', ?_, hresult⟩
  rw [← hloop, updateFlatKeyUnflatAggVectorState, hpos, ok_bind]
  cases hno : v.hasNoNullsGuarantee with
  | true => simp only [step, hno, if_true]; rfl
  | false =>
      simp only [step, hno, DataChunkState.positions_eq, Bool.false_eq_true, if_false]
      rfl

/-- Whatever the shape is, a function takes the values of each group. -/
theorem exists_updateAggState (hstate : hashVector.state = batch.hashState)
    (hvector : batch.aggregateVectors[i]? = some vector) (hkind : vector.isSome = kind.hasInput)
    (hupdates : Updates kind batch vector)
    (hafter : ∀ key, (valuesOf canon batch vector key).foldlM
      (kind.addTimes ops batch.multiplicity) (states i key) = .ok (after key)) :
    ∃ t', updateAggState batch hashVector (kind.getFunction ops false) i t vector = .ok t' ∧
      SameGroups t t' ∧
      Ready keyOps canon rows numHashKeys numNonHashKeys numFunctions batch t'
        (Function.update states i after) := by
  cases vector with
  | none => exact exists_updateNullAggVectorState hadm h hi hkind.symm hafter
  | some v =>
      have hguarantees : v.Guarantees batch.states := by
        apply hadm.guarantees v
        apply List.mem_append_right
        exact List.reduceOption_mem_iff.mpr (List.mem_of_getElem? hvector)
      rw [updateAggState]
      cases hflat : batch.isFlat v with
      | true =>
          cases hunflat : batch.groupByUnflatHashKeyVectors with
          | nil =>
              exact exists_updateBothFlatAggVectorState hadm h hi hkind.symm hstate hflat hunflat
                hupdates hafter
          | cons first rest =>
              exact exists_updateFlatUnflatKeyFlatAggVectorState hadm h hi hkind.symm hflat hunflat
                hupdates hafter
      | false =>
          cases hunflat : batch.groupByUnflatHashKeyVectors with
          | nil =>
              exact exists_updateFlatKeyUnflatAggVectorState hadm h hi hkind.symm hflat hunflat
                hguarantees hupdates hafter
          | cons first rest =>
              by_cases hsame : v.state = first.state
              · simp only [hsame, if_true]
                exact exists_updateBothUnflatSameDCAggVectorState hadm h hi hkind.symm hflat hunflat
                  hsame hguarantees hupdates hafter
              · simp only [hsame, if_false]
                exact exists_updateBothUnflatDifferentDCAggVectorState hadm h hi hkind.symm hflat
                  hunflat hsame hguarantees hupdates hafter

end Shapes

end AggregateHashTable

end Graphflow.Aggregate
