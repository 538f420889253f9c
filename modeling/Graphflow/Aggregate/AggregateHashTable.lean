import Graphflow.Aggregate.DistinctHashTable

/-!
# The hash table of an aggregation

`AggregateHashTable` of `aggregate_hash_table.cpp`.  An entry has the keys of a group and a state
for each function.  The slots of a batch of tuples are found together: what has not matched is
looked for in the next slots.
-/

namespace Graphflow.Aggregate

open Lib Processor

variable {V : Type}

structure Entry (V : Type) where
  keys : List (Option V) := []
  states : List (AggregateState V) := []
  hash : UInt64 := 0
  deriving DecidableEq, Repr

/-- `hashSlotsToUpdateAggState` points to the slot of each position, and keeps what earlier calls
have left there.  `mayContainNulls` is that of the key columns of the factorized table. -/
structure AggregateHashTable (V : Type) where
  aggregateFunctions : List (AggregateFunction V)
  hashSlots : HashSlots
  entries : List (Entry V) := []
  mayContainNulls : ℕ → Bool := fun _ ↦ false
  hashSlotsToUpdateAggState : ℕ → Option ℕ := fun _ ↦ none
  distinctHashTables : List (Option (DistinctHashTable V))

/-- `createDistinctHashTables`. -/
def createDistinctHashTables (aggregateFunctions : List (AggregateFunction V)) :
    List (Option (DistinctHashTable V)) :=
  aggregateFunctions.map fun aggregateFunction ↦
    if aggregateFunction.isDistinct then some .create else none

namespace AggregateHashTable

/-- The table of a thread. -/
def create (aggregateFunctions : List (AggregateFunction V)) : AggregateHashTable V where
  aggregateFunctions := aggregateFunctions
  hashSlots := .empty HashSlots.numHashSlotsPerBlock
  distinctHashTables := createDistinctHashTables aggregateFunctions

def resize (t : AggregateHashTable V) (newSize : ℕ) :
    Except ExecutionFault (AggregateHashTable V) := do
  let hashSlots ← HashSlots.resize newSize (t.entries.map Entry.hash)
  return { t with hashSlots := hashSlots }

/-- The load factor is `1.5`. -/
def resizeHashTableIfNecessary (t : AggregateHashTable V) (maxNumDistinctHashKeys : ℕ) :
    Except ExecutionFault (AggregateHashTable V) :=
  let numTuples := t.entries.length
  let maxNumHashSlots := t.hashSlots.maxNumHashSlots
  if maxNumHashSlots < numTuples + maxNumDistinctHashKeys ∨
      2 * maxNumHashSlots < 3 * (numTuples + maxNumDistinctHashKeys) then
    t.resize (maxNumHashSlots * 2)
  else .ok t

/-! ### Finding slots -/

/-- The entry in the slot of a position. -/
def entryIdxAt (t : AggregateHashTable V) (pos : ℕ) : Except ExecutionFault ℕ := do
  let slotIdx ← nonNull (t.hashSlotsToUpdateAggState pos)
  nonNull (t.hashSlots.slots slotIdx).entry

def entryAt (t : AggregateHashTable V) (pos : ℕ) : Except ExecutionFault (Entry V) := do
  let entryIdx ← t.entryIdxAt pos
  nonNull t.entries[entryIdx]?

def setHashSlotToUpdate (t : AggregateHashTable V) (pos slotIdx : ℕ) : AggregateHashTable V :=
  { t with
    hashSlotsToUpdateAggState := Function.update t.hashSlotsToUpdateAggState pos (some slotIdx) }

/-- The positions of the tuples. -/
def tmpValueIdxes (states : ℕ → DataChunkState) (hashVector : HashVector) : List ℕ :=
  let state := states hashVector.state
  if state.isFlat then [state.getPositionOfCurrIdx] else state.positions

def initTmpHashSlotsAndIdxes (t : AggregateHashTable V) (states : ℕ → DataChunkState)
    (hashVector : HashVector) : AggregateHashTable V :=
  (tmpValueIdxes states hashVector).foldl (fun t pos ↦
    t.setHashSlotToUpdate pos (t.hashSlots.getSlotIdxForHash (hashVector.values pos))) t

/-- The tuples of a round: those with a new entry, those whose slot has an entry with their hash,
and the others. -/
structure Round (V : Type) where
  table : AggregateHashTable V
  entryIdxesToInitialize : List ℕ := []
  mayMatchIdxes : List ℕ := []
  noMatchIdxes : List ℕ := []

def lookAtSlot (hashVector : HashVector) (round : Round V) (idx : ℕ) :
    Except ExecutionFault (Round V) := do
  let t := round.table
  let hash := hashVector.values idx
  let slotIdx ← nonNull (t.hashSlotsToUpdateAggState idx)
  let slot := t.hashSlots.slots slotIdx
  if slot.entry.isNone then
    return { round with
      entryIdxesToInitialize := round.entryIdxesToInitialize ++ [idx]
      table := { t with
        entries := t.entries ++ [{}]
        hashSlots := t.hashSlots.setSlot slotIdx ⟨hash, some t.entries.length⟩ } }
  else if slot.hash = hash then
    return { round with mayMatchIdxes := round.mayMatchIdxes ++ [idx] }
  else return { round with noMatchIdxes := round.noMatchIdxes ++ [idx] }

def initializeFTEntry (batch : Batch V) (hashVector : HashVector) (t : AggregateHashTable V)
    (idx : ℕ) : Except ExecutionFault (AggregateHashTable V) := do
  let entryIdx ← t.entryIdxAt idx
  let keys := batch.entryKeys idx
  return { t with
    entries := t.entries.set entryIdx
      { keys := keys
        states := t.aggregateFunctions.map AggregateFunction.initialNullAggregateState
        hash := hashVector.values idx }
    mayContainNulls := fun colIdx ↦ t.mayContainNulls colIdx || keys[colIdx]?.any Option.isNone }

def initializeFTEntries (batch : Batch V) (hashVector : HashVector) (t : AggregateHashTable V)
    (entryIdxesToInitialize : List ℕ) : Except ExecutionFault (AggregateHashTable V) :=
  entryIdxesToInitialize.foldlM (initializeFTEntry batch hashVector) t

/-- The bytes of a null are not known. -/
def compareEntryWithKeys (keyOps : KeyOperations V) (value entryKey : Option V) :
    Except ExecutionFault Bool := do
  keyOps.compare (← nonNull value) (← nonNull entryKey)

def isEntryKeyNull (t : AggregateHashTable V) (colIdx : ℕ) (entryKey : Option V) : Bool :=
  t.mayContainNulls colIdx && entryKey.isNone

/-- A null matches a null only. -/
def matchesKey (keyOps : KeyOperations V) (t : AggregateHashTable V) (colIdx : ℕ)
    (value entryKey : Option V) : Except ExecutionFault Bool :=
  if value.isNone && t.isEntryKeyNull colIdx entryKey then .ok true
  else if value.isNone ≠ t.isEntryKeyNull colIdx entryKey then .ok false
  else compareEntryWithKeys keyOps value entryKey

def matchesFlatVec (keyOps : KeyOperations V) (batch : Batch V) (t : AggregateHashTable V)
    (vector : ValueVector V) (colIdx idx : ℕ) : Except ExecutionFault Bool := do
  let entryKey ← nonNull (← t.entryAt idx).keys[colIdx]?
  matchesKey keyOps t colIdx (vector.values (batch.getPositionOfCurrIdx vector)) entryKey

def matchesUnflatVec (keyOps : KeyOperations V) (t : AggregateHashTable V)
    (vector : ValueVector V) (colIdx idx : ℕ) : Except ExecutionFault Bool := do
  let entryKey ← nonNull (← t.entryAt idx).keys[colIdx]?
  let value := vector.values idx
  if vector.hasNoNullsGuarantee then
    if !t.mayContainNulls colIdx then compareEntryWithKeys keyOps value entryKey
    else if t.isEntryKeyNull colIdx entryKey then return false
    else compareEntryWithKeys keyOps value entryKey
  else matchesKey keyOps t colIdx value entryKey

/-- The loop over the tuples that may match: those that do stay, the others are appended. -/
def matchColumn (matchesVec : ℕ → Except ExecutionFault Bool) (idxes : List ℕ × List ℕ) :
    Except ExecutionFault (List ℕ × List ℕ) :=
  idxes.1.foldlM (fun (mayMatchIdxes, noMatchIdxes) idx ↦ do
    if ← matchesVec idx then return (mayMatchIdxes ++ [idx], noMatchIdxes)
    else return (mayMatchIdxes, noMatchIdxes ++ [idx])) ([], idxes.2)

/-- The columns of the flat keys come first, then those of the unflat ones, then the others. -/
def matchFTEntries (keyOps : KeyOperations V) (batch : Batch V) (t : AggregateHashTable V)
    (mayMatchIdxes noMatchIdxes : List ℕ) : Except ExecutionFault (List ℕ × List ℕ) := do
  let numFlat := batch.groupByFlatHashKeyVectors.length
  let numHash := numFlat + batch.groupByUnflatHashKeyVectors.length
  let idxes ← (batch.groupByFlatHashKeyVectors.zipIdx 0).foldlM (fun idxes (vector, colIdx) ↦
    matchColumn (matchesFlatVec keyOps batch t vector colIdx) idxes) (mayMatchIdxes, noMatchIdxes)
  let idxes ← (batch.groupByUnflatHashKeyVectors.zipIdx numFlat).foldlM
    (fun idxes (vector, colIdx) ↦ matchColumn (matchesUnflatVec keyOps t vector colIdx) idxes) idxes
  (batch.groupByNonHashKeyVectors.zipIdx numHash).foldlM (fun idxes (vector, colIdx) ↦
    if batch.isFlat vector then matchColumn (matchesFlatVec keyOps batch t vector colIdx) idxes
    else matchColumn (matchesUnflatVec keyOps t vector colIdx) idxes) idxes

def increaseHashSlotIdxes (t : AggregateHashTable V) (noMatchIdxes : List ℕ) :
    Except ExecutionFault (AggregateHashTable V) :=
  noMatchIdxes.foldlM (fun t idx ↦ do
    let slotIdx ← nonNull (t.hashSlotsToUpdateAggState idx)
    return t.setHashSlotToUpdate idx (t.hashSlots.increaseSlotIdx slotIdx)) t

/-- One turn of the loop of `findHashSlots`, from the tuples that are to be found to those that have
not been. -/
def findHashSlotsTurn (keyOps : KeyOperations V) (batch : Batch V) (hashVector : HashVector)
    (s : AggregateHashTable V × List ℕ) :
    Except ExecutionFault (AggregateHashTable V × List ℕ) := do
  let round ← s.2.foldlM (lookAtSlot hashVector) { table := s.1 }
  let t ← initializeFTEntries batch hashVector round.table round.entryIdxesToInitialize
  let (_, noMatchIdxes) ←
    matchFTEntries keyOps batch t round.mayMatchIdxes round.noMatchIdxes
  let t ← t.increaseHashSlotIdxes noMatchIdxes
  return (t, noMatchIdxes)

/-- A tuple that has been to every slot goes on for ever. -/
def findHashSlots (keyOps : KeyOperations V) (batch : Batch V) (hashVector : HashVector)
    (t : AggregateHashTable V) : Except ExecutionFault (AggregateHashTable V) := do
  let t := t.initTmpHashSlotsAndIdxes batch.states hashVector
  let idxes := (tmpValueIdxes batch.states hashVector).take batch.numEntriesToFindHashSlots
  let (t, _) ← whileLoop .diverges (fun s ↦ !s.2.isEmpty)
    (findHashSlotsTurn keyOps batch hashVector) t.hashSlots.maxNumHashSlots (t, idxes)
  return t

/-! ### Updating states -/

/-- The state of the function with number `i` in the entry of a position. -/
def updateStateAt (i : ℕ) (update : AggregateState V → Except ExecutionFault (AggregateState V))
    (t : AggregateHashTable V) (pos : ℕ) : Except ExecutionFault (AggregateHashTable V) := do
  let entryIdx ← t.entryIdxAt pos
  let entry ← nonNull t.entries[entryIdx]?
  let state ← nonNull entry.states[i]?
  let state ← update state
  return { t with
    entries := t.entries.set entryIdx { entry with states := entry.states.set i state } }

section Update

variable (batch : Batch V) (hashVector : HashVector) (aggregateFunction : AggregateFunction V)
  (i : ℕ) (t : AggregateHashTable V)

/-- The position of the first flat key. -/
def flatKeyPos : Except ExecutionFault ℕ := do
  let vector ← nonNull batch.groupByFlatHashKeyVectors.head?
  return batch.getPositionOfCurrIdx vector

/-- The positions of the unflat keys. -/
def unflatKeyPositions : List ℕ :=
  match batch.groupByUnflatHashKeyVectors with
  | [] => []
  | first :: _ => (batch.states first.state).positions

def updateNullAggVectorState : Except ExecutionFault (AggregateHashTable V) := do
  let update := fun state ↦ aggregateFunction.updatePos state none batch.multiplicity 0
  if batch.groupByUnflatHashKeyVectors.isEmpty then updateStateAt i update t (← flatKeyPos batch)
  else (unflatKeyPositions batch).foldlM (updateStateAt i update) t

def updateBothFlatAggVectorState (aggVector : ValueVector V) :
    Except ExecutionFault (AggregateHashTable V) :=
  let aggPos := batch.getPositionOfCurrIdx aggVector
  if aggVector.isNull aggPos then .ok t
  else updateStateAt i (fun state ↦
    aggregateFunction.updatePos state (some aggVector) batch.multiplicity aggPos) t
      (batch.states hashVector.state).getPositionOfCurrIdx

def updateFlatUnflatKeyFlatAggVectorState (aggVector : ValueVector V) :
    Except ExecutionFault (AggregateHashTable V) :=
  let aggPos := batch.getPositionOfCurrIdx aggVector
  if aggVector.isNull aggPos then .ok t
  else (unflatKeyPositions batch).foldlM (updateStateAt i fun state ↦
    aggregateFunction.updatePos state (some aggVector) batch.multiplicity aggPos) t

/-- With nulls the slot is that of position `0`. -/
def updateFlatKeyUnflatAggVectorState (aggVector : ValueVector V) :
    Except ExecutionFault (AggregateHashTable V) := do
  let groupByKeyPos ← flatKeyPos batch
  let update := fun pos state ↦
    aggregateFunction.updatePos state (some aggVector) batch.multiplicity pos
  if aggVector.hasNoNullsGuarantee then
    (batch.states aggVector.state).selVector.selectedPositions.foldlM (fun t pos ↦
      updateStateAt i (update pos) t groupByKeyPos) t
  else
    (batch.states aggVector.state).positions.foldlM (fun t pos ↦
      if aggVector.isNull pos then .ok t else updateStateAt i (update pos) t 0) t

def updateBothUnflatSameDCAggVectorState (aggVector : ValueVector V) :
    Except ExecutionFault (AggregateHashTable V) :=
  (batch.states aggVector.state).positions.foldlM (fun t pos ↦
    if !aggVector.hasNoNullsGuarantee && aggVector.isNull pos then .ok t
    else updateStateAt i (fun state ↦
      aggregateFunction.updatePos state (some aggVector) batch.multiplicity pos) t pos) t

def updateBothUnflatDifferentDCAggVectorState (aggVector : ValueVector V) :
    Except ExecutionFault (AggregateHashTable V) :=
  (unflatKeyPositions batch).foldlM (updateStateAt i fun state ↦
    aggregateFunction.updateAll state batch.states (some aggVector) batch.multiplicity) t

def updateAggState (aggVector : Option (ValueVector V)) :
    Except ExecutionFault (AggregateHashTable V) :=
  match aggVector with
  | none => updateNullAggVectorState batch aggregateFunction i t
  | some aggVector =>
      match batch.isFlat aggVector, batch.groupByUnflatHashKeyVectors with
      | true, [] => updateBothFlatAggVectorState batch hashVector aggregateFunction i t aggVector
      | true, _ :: _ => updateFlatUnflatKeyFlatAggVectorState batch aggregateFunction i t aggVector
      | false, [] => updateFlatKeyUnflatAggVectorState batch aggregateFunction i t aggVector
      | false, first :: _ =>
          if aggVector.state = first.state then
            updateBothUnflatSameDCAggVectorState batch aggregateFunction i t aggVector
          else updateBothUnflatDifferentDCAggVectorState batch aggregateFunction i t aggVector

end Update

/-- The tables of the functions that are not `DISTINCT` are null. -/
def distinctHashTableOf (t : AggregateHashTable V) (i : ℕ) :
    Except ExecutionFault (DistinctHashTable V) :=
  nonNull (t.distinctHashTables[i]?.getD none)

/-- A `DISTINCT` function takes a value once, whatever the multiplicity is. -/
def updateDistinctAggState (keyOps : KeyOperations V) (batch : Batch V)
    (aggregateFunction : AggregateFunction V) (i : ℕ) (t : AggregateHashTable V)
    (aggVector : Option (ValueVector V)) : Except ExecutionFault (AggregateHashTable V) := do
  let distinctHT ← t.distinctHashTableOf i
  let vector ← nonNull aggVector
  let pos := batch.getPositionOfCurrIdx vector
  let keys := batch.groupByFlatHashKeyVectors.map fun keyVector ↦
    keyVector.values (batch.getPositionOfCurrIdx keyVector)
  let (distinctHT, isDistinct) ←
    distinctHT.isAggregateValueDistinctForGroupByKeys keyOps keys (vector.values pos)
  let t := { t with distinctHashTables := t.distinctHashTables.set i (some distinctHT) }
  if isDistinct && !vector.isNull pos then
    let groupByKeyPos :=
      (batch.groupByFlatHashKeyVectors.head?.map batch.getPositionOfCurrIdx).getD 0
    updateStateAt i (fun state ↦ aggregateFunction.updatePos state aggVector 1 pos) t groupByKeyPos
  else return t

def updateAggStateOf (keyOps : KeyOperations V) (batch : Batch V) (hashVector : HashVector)
    (t : AggregateHashTable V) (function : AggregateFunction V × ℕ) :
    Except ExecutionFault (AggregateHashTable V) := do
  let (aggregateFunction, i) := function
  let aggVector ← nonNull batch.aggregateVectors[i]?
  if aggregateFunction.isDistinct then
    updateDistinctAggState keyOps batch aggregateFunction i t aggVector
  else updateAggState batch hashVector aggregateFunction i t aggVector

def updateAggStates (keyOps : KeyOperations V) (batch : Batch V) (hashVector : HashVector)
    (t : AggregateHashTable V) : Except ExecutionFault (AggregateHashTable V) :=
  t.aggregateFunctions.zipIdx.foldlM (updateAggStateOf keyOps batch hashVector) t

/-- What is left of the states when the vectors have been filled for a call. -/
def resetOverflowBuffers (t : AggregateHashTable V) (batch : Batch V) : AggregateHashTable V :=
  { t with
    entries := t.entries.map fun entry ↦
      { entry with
        states := entry.states.mapIdx fun i state ↦
          match t.aggregateFunctions[i]? with
          | some aggregateFunction =>
              if batch.resetsOverflowBuffer i then
                state.resetOverflowBuffer aggregateFunction.inOverflowBuffer
              else state
          | none => state } }

def append (keyOps : KeyOperations V) (t : AggregateHashTable V) (batch : Batch V) :
    Except ExecutionFault (AggregateHashTable V) := do
  let t := t.resetOverflowBuffers batch
  let t ← t.resizeHashTableIfNecessary batch.numEntriesToFindHashSlots
  let hashVector ← batch.computeVectorHashes keyOps
  let t ← findHashSlots keyOps batch hashVector t
  t.updateAggStates keyOps batch hashVector

end AggregateHashTable

end Graphflow.Aggregate
