import Graphflow.Aggregate.AggregateFunction

/-!
# The tuples of a batch

The vectors with which the hash table of an aggregation is called, their hashes, and the tuples for
which they stand.  Flat vectors have one value each, unflat ones a value for each selected position
of their data chunk.
-/

namespace Graphflow.Aggregate

open Lib Processor

variable {V : Type}

/-! ## Hashes -/

/-- The operations of the data types of the keys.  Two values of a column are compared by the
function of its data type, which throws if it is `UNSTRUCTURED` and they cannot be compared. -/
structure KeyOperations (V : Type) where
  hash : V → UInt64
  compare : V → V → Except ExecutionFault Bool

def nullHash : UInt64 := 0xffffffffffffffff

namespace KeyOperations

def hashKey (keyOps : KeyOperations V) : Option V → UInt64
  | none => nullHash
  | some value => keyOps.hash value

end KeyOperations

def combineHashScalar (a b : UInt64) : UInt64 := (a * 0xbf58476d1ce4e5b9) ^^^ b

/-- The combined hash of some keys. -/
def KeyOperations.hashKeys (keyOps : KeyOperations V) : List (Option V) → UInt64
  | [] => 0
  | key :: keys =>
      keys.foldl (fun hash key ↦ combineHashScalar hash (keyOps.hashKey key)) (keyOps.hashKey key)

/-- The keys as equality sees them: two values are equal if `canon` is the same for both. -/
def canonKeys (canon : V → V) (keys : List (Option V)) : List (Option V) :=
  keys.map (Option.map canon)

/-- The keys of some tuples can be told apart: equal ones have equal hashes, and those of equal
hashes can be compared. -/
structure KeyEquality [DecidableEq V] (keyOps : KeyOperations V) (canon : V → V)
    (hashOf : List (Option V) → UInt64) (rows : Set (List (Option V))) : Prop where
  hash_eq : ∀ keys ∈ rows, ∀ keys' ∈ rows, canonKeys canon keys = canonKeys canon keys' →
    hashOf keys = hashOf keys'
  compare_eq : ∀ keys ∈ rows, ∀ keys' ∈ rows, hashOf keys = hashOf keys' →
    ∀ (colIdx : ℕ) (value value' : V), keys[colIdx]? = some (some value) →
      keys'[colIdx]? = some (some value') →
      keyOps.compare value value' = .ok (decide (canon value = canon value'))

structure HashVector where
  state : ℕ
  values : ℕ → UInt64

namespace HashVector

def valueFor (states : ℕ → DataChunkState) (vector : HashVector) (pos : ℕ) : UInt64 :=
  if (states vector.state).isFlat then vector.values (states vector.state).getPositionOfCurrIdx
  else vector.values pos

/-- The hashes at the positions that are not selected are never read. -/
def computeHash (keyOps : KeyOperations V) (operand : ValueVector V) : HashVector :=
  ⟨operand.state, fun pos ↦ keyOps.hashKey (operand.values pos)⟩

def combineHash (states : ℕ → DataChunkState) (left right : HashVector) : HashVector where
  state :=
    if (states left.state).isFlat && !(states right.state).isFlat then right.state else left.state
  values pos := combineHashScalar (left.valueFor states pos) (right.valueFor states pos)

variable {states : ℕ → DataChunkState}

theorem valueFor_computeHash (keyOps : KeyOperations V) (operand : ValueVector V) (pos : ℕ) :
    (computeHash keyOps operand).valueFor states pos =
      keyOps.hashKey (operand.valueFor states pos) := by
  rw [valueFor, ValueVector.valueFor, computeHash]
  split_ifs
  · rfl
  · rfl

theorem valueFor_combineHash (left right : HashVector) (pos : ℕ) :
    (combineHash states left right).valueFor states pos =
      combineHashScalar (left.valueFor states pos) (right.valueFor states pos) := by
  have hconst : ∀ (vector : HashVector) (pos' : ℕ), (states vector.state).isFlat = true →
      vector.valueFor states pos' = vector.valueFor states pos := by
    intro vector pos' hflat
    rw [valueFor, valueFor, if_pos hflat, if_pos hflat]
  cases hleft : (states left.state).isFlat with
  | false => simp [valueFor, combineHash, hleft]
  | true =>
      cases hright : (states right.state).isFlat with
      | false => simp [valueFor, combineHash, hleft, hright]
      | true =>
          rw [← hconst left (states left.state).getPositionOfCurrIdx hleft,
            ← hconst right (states left.state).getPositionOfCurrIdx hright]
          rw [valueFor]
          simp [combineHash, hleft, hright]

end HashVector

/-! ## The vectors of a call -/

/-- The arguments of `append`. -/
structure Batch (V : Type) where
  states : ℕ → DataChunkState
  groupByFlatHashKeyVectors : List (ValueVector V)
  groupByUnflatHashKeyVectors : List (ValueVector V)
  groupByNonHashKeyVectors : List (ValueVector V)
  aggregateVectors : List (Option (ValueVector V))
  multiplicity : ℕ
  /-- The vector of the function has been filled again since the last call, and so its overflow
  buffer has been reset. -/
  resetsOverflowBuffer : ℕ → Bool

namespace Batch

def getPositionOfCurrIdx (batch : Batch V) (vector : ValueVector V) : ℕ :=
  (batch.states vector.state).getPositionOfCurrIdx

def isFlat (batch : Batch V) (vector : ValueVector V) : Bool :=
  (batch.states vector.state).isFlat

def computeAndCombineVecHash (keyOps : KeyOperations V) (batch : Batch V)
    (keyVectors : List (ValueVector V)) (hashVector : HashVector) : HashVector :=
  keyVectors.foldl (fun hashVector keyVector ↦
    hashVector.combineHash batch.states (.computeHash keyOps keyVector)) hashVector

def computeVectorHashes (keyOps : KeyOperations V) (batch : Batch V) :
    Except ExecutionFault HashVector :=
  match batch.groupByFlatHashKeyVectors with
  | first :: rest =>
      let hashVector := batch.computeAndCombineVecHash keyOps rest (.computeHash keyOps first)
      .ok (batch.computeAndCombineVecHash keyOps batch.groupByUnflatHashKeyVectors hashVector)
  | [] =>
      match batch.groupByUnflatHashKeyVectors with
      | first :: rest =>
          .ok (batch.computeAndCombineVecHash keyOps rest (.computeHash keyOps first))
      | [] => .error .invalidAccess

/-- The number of tuples whose slots are looked for. -/
def numEntriesToFindHashSlots (batch : Batch V) : ℕ :=
  match batch.groupByUnflatHashKeyVectors with
  | [] => 1
  | first :: _ => (batch.states first.state).selVector.selectedSize

/-- The keys that a new entry gets for the position `entryIdx`. -/
def entryKeys (batch : Batch V) (entryIdx : ℕ) : List (Option V) :=
  batch.groupByFlatHashKeyVectors.map (fun vector ↦
      vector.values (batch.getPositionOfCurrIdx vector)) ++
    batch.groupByUnflatHashKeyVectors.map (fun vector ↦ vector.values entryIdx) ++
    batch.groupByNonHashKeyVectors.map fun vector ↦
      if batch.isFlat vector then vector.values (batch.getPositionOfCurrIdx vector)
      else vector.values entryIdx

/-! ## The tuples -/

def hashKeyVectors (batch : Batch V) : List (ValueVector V) :=
  batch.groupByFlatHashKeyVectors ++ batch.groupByUnflatHashKeyVectors

def keyVectors (batch : Batch V) : List (ValueVector V) :=
  batch.hashKeyVectors ++ batch.groupByNonHashKeyVectors

def vectors (batch : Batch V) : List (ValueVector V) :=
  batch.keyVectors ++ batch.aggregateVectors.reduceOption

/-- The data chunk of the unflat keys. -/
def unflatKeyState (batch : Batch V) : Option ℕ :=
  batch.groupByUnflatHashKeyVectors.head?.map ValueVector.state

/-- The data chunks of the unflat vectors that have none of the keys. -/
def otherStates (batch : Batch V) : List ℕ :=
  ((batch.aggregateVectors.reduceOption.filter fun vector ↦ !batch.isFlat vector).map
    ValueVector.state |>.filter fun state ↦ some state ≠ batch.unflatKeyState).dedup

def unflatStates (batch : Batch V) : List ℕ := batch.unflatKeyState.toList ++ batch.otherStates

/-- The choices of a selected position for each of some data chunks. -/
def rowsOver (states : ℕ → DataChunkState) : List ℕ → List (ℕ → ℕ)
  | [] => [fun state ↦ (states state).getPositionOfCurrIdx]
  | state :: rest =>
      (states state).selVector.selectedPositions.flatMap fun pos ↦
        (rowsOver states rest).map fun row ↦ Function.update row state pos

/-- A tuple gives the position of each data chunk. -/
def rows (batch : Batch V) : List (ℕ → ℕ) := rowsOver batch.states batch.unflatStates

def rowKeys (batch : Batch V) (row : ℕ → ℕ) : List (Option V) :=
  batch.keyVectors.map fun vector ↦ vector.values (row vector.state)

/-- What an aggregate takes from a tuple: `COUNT(*)` each tuple, the others a value that is not
null. -/
def rowInput (vector : Option (ValueVector V)) (row : ℕ → ℕ) : Option (Option V) :=
  match vector with
  | none => some none
  | some vector => (vector.values (row vector.state)).map some

/-- The data chunk of the hashes. -/
def hashState (batch : Batch V) : ℕ :=
  batch.unflatKeyState.getD ((batch.groupByFlatHashKeyVectors.head?.map ValueVector.state).getD 0)

/-- The positions of the keys. -/
def keyPositions (batch : Batch V) : List ℕ :=
  if (batch.states batch.hashState).isFlat then
    [(batch.states batch.hashState).getPositionOfCurrIdx]
  else (batch.states batch.hashState).selVector.selectedPositions

/-- The shapes with which the operator calls the table.  Its keys have the given numbers, and each
of its functions, with a flag for `DISTINCT`, has a vector. -/
structure Admitted (numHashKeys numNonHashKeys : ℕ) (functions : List (AggregateKind × Bool))
    (batch : Batch V) : Prop where
  isFlat_of_mem : ∀ vector ∈ batch.groupByFlatHashKeyVectors, batch.isFlat vector = true
  unflat_of_mem : ∀ vector ∈ batch.groupByUnflatHashKeyVectors,
    batch.isFlat vector = false ∧ batch.unflatKeyState = some vector.state
  nonHash_of_mem : ∀ vector ∈ batch.groupByNonHashKeyVectors,
    batch.isFlat vector = true ∨ batch.unflatKeyState = some vector.state
  numHashKeys_pos : 0 < numHashKeys
  length_hashKeyVectors : batch.hashKeyVectors.length = numHashKeys
  length_nonHash : batch.groupByNonHashKeyVectors.length = numNonHashKeys
  guarantees : ∀ vector ∈ batch.vectors, vector.Guarantees batch.states
  aggregateVectors : batch.aggregateVectors.map Option.isSome =
    functions.map fun function ↦ function.1.hasInput
  /-- For a `DISTINCT` function everything that it needs has been flattened. -/
  distinct : ∀ (i : ℕ) (kind : AggregateKind), functions[i]? = some (kind, true) →
    batch.groupByUnflatHashKeyVectors = [] ∧
      ∃ vector, batch.aggregateVectors[i]? = some (some vector) ∧ batch.isFlat vector = true
  multiplicity_pos : 0 < batch.multiplicity
  selectedSize_pos : ∀ state ∈ batch.unflatStates, 0 < (batch.states state).selVector.selectedSize

theorem nodup_keyPositions (batch : Batch V) : batch.keyPositions.Nodup := by
  rw [keyPositions]
  split_ifs
  · exact List.nodup_singleton _
  · exact (batch.states batch.hashState).selVector.nodup

/-! ## The hashes of the tuples -/

section Hashes

variable {keyOps : KeyOperations V} {batch : Batch V} {hashVector : HashVector}
  {keyVectors : List (ValueVector V)}

theorem valueFor_computeAndCombineVecHash (pos : ℕ) :
    (batch.computeAndCombineVecHash keyOps keyVectors hashVector).valueFor batch.states pos =
      (keyVectors.map fun vector ↦ vector.valueFor batch.states pos).foldl
        (fun hash key ↦ combineHashScalar hash (keyOps.hashKey key))
        (hashVector.valueFor batch.states pos) := by
  induction keyVectors generalizing hashVector with
  | nil => rfl
  | cons vector keyVectors ih =>
      rw [computeAndCombineVecHash, List.foldl_cons, ← computeAndCombineVecHash, ih, List.map_cons,
        List.foldl_cons, HashVector.valueFor_combineHash, HashVector.valueFor_computeHash]

theorem state_computeAndCombineVecHash
    (hkeep : ∀ vector ∈ keyVectors,
      batch.isFlat vector = true ∨ vector.state = hashVector.state) :
    (batch.computeAndCombineVecHash keyOps keyVectors hashVector).state = hashVector.state := by
  induction keyVectors generalizing hashVector with
  | nil => rfl
  | cons vector keyVectors ih =>
      have hstate : (hashVector.combineHash batch.states (.computeHash keyOps vector)).state =
          hashVector.state := by
        rcases hkeep vector List.mem_cons_self with hflat | hsame
        · rw [isFlat] at hflat
          simp [HashVector.combineHash, HashVector.computeHash, hflat]
        · simp [HashVector.combineHash, HashVector.computeHash, hsame]
      rw [computeAndCombineVecHash, List.foldl_cons, ← computeAndCombineVecHash, ih, hstate]
      intro vector' hmem
      rw [hstate]
      exact hkeep vector' (List.mem_cons_of_mem _ hmem)

variable {numHashKeys numNonHashKeys : ℕ} {functions : List (AggregateKind × Bool)}

theorem valueFor_of_isFlat {vector : ValueVector V} (hflat : batch.isFlat vector = true) (pos : ℕ) :
    vector.valueFor batch.states pos = vector.values (batch.getPositionOfCurrIdx vector) :=
  if_pos hflat

theorem valueFor_of_not_isFlat {vector : ValueVector V} (hflat : batch.isFlat vector = false)
    (pos : ℕ) : vector.valueFor batch.states pos = vector.values pos :=
  if_neg (Bool.eq_false_iff.mp hflat)

namespace Admitted

variable (h : batch.Admitted numHashKeys numNonHashKeys functions)

include h

theorem entryKeys_eq (pos : ℕ) :
    batch.entryKeys pos = batch.keyVectors.map fun vector ↦ vector.valueFor batch.states pos := by
  rw [entryKeys, keyVectors, hashKeyVectors, List.map_append, List.map_append]
  congr 1
  congr 1
  · refine List.map_congr_left fun vector hmem ↦ ?_
    rw [valueFor_of_isFlat (h.isFlat_of_mem vector hmem)]
  · refine List.map_congr_left fun vector hmem ↦ ?_
    rw [valueFor_of_not_isFlat (h.unflat_of_mem vector hmem).1]

theorem take_entryKeys (pos : ℕ) :
    (batch.entryKeys pos).take numHashKeys =
      batch.hashKeyVectors.map fun vector ↦ vector.valueFor batch.states pos := by
  rw [h.entryKeys_eq, keyVectors, List.map_append, List.take_left']
  rw [List.length_map, h.length_hashKeyVectors]

theorem length_entryKeys (pos : ℕ) :
    (batch.entryKeys pos).length = numHashKeys + numNonHashKeys := by
  rw [h.entryKeys_eq, List.length_map, keyVectors, List.length_append, h.length_hashKeyVectors,
    h.length_nonHash]

theorem isFlat_hashState :
    (batch.states batch.hashState).isFlat = batch.groupByUnflatHashKeyVectors.isEmpty := by
  cases hunflat : batch.groupByUnflatHashKeyVectors with
  | cons first rest =>
      have hfirst := (h.unflat_of_mem first (by rw [hunflat]; exact List.mem_cons_self)).1
      rw [hashState, unflatKeyState, hunflat]
      exact hfirst
  | nil =>
      cases hflat : batch.groupByFlatHashKeyVectors with
      | cons first rest =>
          have hfirst := h.isFlat_of_mem first (by rw [hflat]; exact List.mem_cons_self)
          rw [hashState, unflatKeyState, hunflat, hflat]
          exact hfirst
      | nil =>
          have hlength := h.length_hashKeyVectors
          rw [hashKeyVectors, hflat, hunflat] at hlength
          exact absurd h.numHashKeys_pos (by rw [← hlength]; exact Nat.lt_irrefl 0)

theorem unflatKeyState_eq {vector : ValueVector V} (hmem : vector ∈ batch.keyVectors)
    (hflat : batch.isFlat vector = false) : batch.unflatKeyState = some vector.state := by
  rw [keyVectors, hashKeyVectors, List.mem_append, List.mem_append] at hmem
  rcases hmem with (hmem | hmem) | hmem
  · rw [h.isFlat_of_mem vector hmem] at hflat
    cases hflat
  · exact (h.unflat_of_mem vector hmem).2
  · rcases h.nonHash_of_mem vector hmem with hflat' | hstate
    · rw [hflat'] at hflat
      cases hflat
    · exact hstate

theorem mem_selectedPositions {vector : ValueVector V} {pos : ℕ} (hmem : vector ∈ batch.keyVectors)
    (hflat : batch.isFlat vector = false) (hpos : pos ∈ batch.keyPositions) :
    pos ∈ (batch.states vector.state).selVector.selectedPositions := by
  have hstate : batch.hashState = vector.state := by
    rw [hashState, h.unflatKeyState_eq hmem hflat, Option.getD_some]
  rw [isFlat] at hflat
  rwa [keyPositions, hstate, if_neg (Bool.eq_false_iff.mp hflat)] at hpos

theorem numEntriesToFindHashSlots_eq :
    batch.numEntriesToFindHashSlots = batch.keyPositions.length := by
  have hflat := h.isFlat_hashState
  rw [keyPositions, hflat, numEntriesToFindHashSlots]
  cases hunflat : batch.groupByUnflatHashKeyVectors with
  | nil => rfl
  | cons first rest =>
      have hstate : batch.hashState = first.state := by
        rw [hashState, unflatKeyState, hunflat]
        rfl
      rw [if_neg (by simp), hstate]
      rfl

/-- The hash of a tuple is that of its hash keys. -/
theorem exists_computeVectorHashes (keyOps : KeyOperations V) :
    ∃ hashVector, batch.computeVectorHashes keyOps = .ok hashVector ∧
      hashVector.state = batch.hashState ∧ ∀ pos ∈ batch.keyPositions,
        hashVector.values pos = keyOps.hashKeys ((batch.entryKeys pos).take numHashKeys) := by
  have hread : ∀ (hashVector : HashVector), hashVector.state = batch.hashState →
      (∀ pos, hashVector.valueFor batch.states pos = keyOps.hashKeys
        (batch.hashKeyVectors.map fun vector ↦ vector.valueFor batch.states pos)) →
      ∀ pos ∈ batch.keyPositions,
        hashVector.values pos = keyOps.hashKeys ((batch.entryKeys pos).take numHashKeys) := by
    intro hashVector hstate hvalues pos hpos
    rw [h.take_entryKeys, ← hvalues, HashVector.valueFor, hstate]
    rw [keyPositions] at hpos
    split_ifs at hpos ⊢
    · rw [List.mem_singleton.mp hpos]
    · rfl
  have hunflat : ∀ (vector : ValueVector V) (state : ℕ), batch.unflatKeyState = some state →
      vector ∈ batch.groupByUnflatHashKeyVectors → vector.state = state := by
    intro vector state hstate hmem
    have hvector := (h.unflat_of_mem vector hmem).2
    rw [hstate, Option.some.injEq] at hvector
    exact hvector.symm
  cases hflats : batch.groupByFlatHashKeyVectors with
  | cons first rest =>
      have hrest : ∀ vector ∈ rest, batch.isFlat vector = true := fun vector hmem ↦
        h.isFlat_of_mem vector (by rw [hflats]; exact List.mem_cons_of_mem _ hmem)
      have hfirst := h.isFlat_of_mem first (by rw [hflats]; exact List.mem_cons_self)
      have hstate₀ := @state_computeAndCombineVecHash V keyOps batch
        (.computeHash keyOps first) rest fun vector hmem ↦ Or.inl (hrest vector hmem)
      have hstate : (batch.computeAndCombineVecHash keyOps batch.groupByUnflatHashKeyVectors
          (batch.computeAndCombineVecHash keyOps rest (.computeHash keyOps first))).state =
            batch.hashState := by
        cases hunflats : batch.groupByUnflatHashKeyVectors with
        | nil =>
            rw [computeAndCombineVecHash, List.foldl_nil, hstate₀, hashState, unflatKeyState,
              hunflats, hflats]
            rfl
        | cons vector vectors =>
            have hkeyState : batch.unflatKeyState = some vector.state := by
              rw [unflatKeyState, hunflats]
              rfl
            have hvector := (h.unflat_of_mem vector (by rw [hunflats]; exact List.mem_cons_self)).1
            have hcombine : ((batch.computeAndCombineVecHash keyOps rest
                (.computeHash keyOps first)).combineHash batch.states
                  (.computeHash keyOps vector)).state = vector.state := by
              rw [isFlat] at hfirst hvector
              rw [HashVector.combineHash, hstate₀, HashVector.computeHash, HashVector.computeHash]
              simp [hfirst, hvector]
            rw [computeAndCombineVecHash, List.foldl_cons, ← computeAndCombineVecHash,
              state_computeAndCombineVecHash, hcombine, hashState, hkeyState, Option.getD_some]
            intro vector' hmem
            rw [hcombine]
            exact Or.inr (hunflat vector' _ hkeyState
              (by rw [hunflats]; exact List.mem_cons_of_mem _ hmem))
      refine ⟨_, by rw [computeVectorHashes, hflats], hstate, hread _ hstate fun pos ↦ ?_⟩
      rw [valueFor_computeAndCombineVecHash, valueFor_computeAndCombineVecHash,
        HashVector.valueFor_computeHash, hashKeyVectors, hflats, List.cons_append, List.map_cons,
        KeyOperations.hashKeys, List.map_append, List.foldl_append]
  | nil =>
      cases hunflats : batch.groupByUnflatHashKeyVectors with
      | nil =>
          have hlength := h.length_hashKeyVectors
          rw [hashKeyVectors, hflats, hunflats] at hlength
          exact absurd h.numHashKeys_pos (by rw [← hlength]; exact Nat.lt_irrefl 0)
      | cons first rest =>
          have hkeyState : batch.unflatKeyState = some first.state := by
            rw [unflatKeyState, hunflats]
            rfl
          have hstate : (batch.computeAndCombineVecHash keyOps rest
              (.computeHash keyOps first)).state = batch.hashState := by
            rw [state_computeAndCombineVecHash, hashState, hkeyState, Option.getD_some]
            · rfl
            · exact fun vector hmem ↦ Or.inr (hunflat vector _ hkeyState
                (by rw [hunflats]; exact List.mem_cons_of_mem _ hmem))
          refine ⟨_, by rw [computeVectorHashes, hflats, hunflats], hstate,
            hread _ hstate fun pos ↦ ?_⟩
          rw [valueFor_computeAndCombineVecHash, HashVector.valueFor_computeHash, hashKeyVectors,
            hflats, hunflats, List.nil_append, List.map_cons, KeyOperations.hashKeys]

end Admitted

end Hashes

end Batch

end Graphflow.Aggregate
