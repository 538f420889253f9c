import Graphflow.Aggregate.Tuples

/-!
# Aggregating batches

After any number of batches the table has an entry for each group, with the states that the tuples
of the group give.
-/

namespace Graphflow.Aggregate

open Lib Processor Storage

variable {V : Type}

namespace Batch

variable {batch : Batch V}

theorem length_keyPositions_le (batch : Batch V) :
    batch.keyPositions.length ≤ defaultVectorCapacity := by
  rw [keyPositions]
  split_ifs
  · exact Nat.succ_le_of_lt (by decide)
  · exact (batch.states batch.hashState).selVector.selectedSize_le

/-- The keys and the value with which the table of the `DISTINCT` function `i` is called. -/
def distinctKeys (batch : Batch V) (i : ℕ) : List (Option V) :=
  batch.groupByFlatHashKeyVectors.map (fun vector ↦
      vector.values (batch.getPositionOfCurrIdx vector)) ++
    [batch.aggregateVectors[i]?.join.bind fun vector ↦
      vector.values (batch.getPositionOfCurrIdx vector)]

/-- What the function `i` takes of the tuples of a group. -/
def groupValues [DecidableEq V] (canon : V → V) (batch : Batch V) (i : ℕ) (key : List (Option V)) :
    List (Option V) :=
  (batch.rows.filter fun row ↦ canonKeys canon (batch.rowKeys row) = key).filterMap
    (rowInput batch.aggregateVectors[i]?.join)

end Batch

/-- The state that the tuples of a group give to the function `i`. -/
def groupState [DecidableEq V] (canon : V → V) (ops : ValueOperations V) (kind : AggregateKind)
    (i : ℕ) (batches : List (Batch V)) (key : List (Option V)) :
    Except ExecutionFault (AggregateState V) :=
  batches.foldlM (fun state batch ↦
      (batch.groupValues canon i key).foldlM (kind.addTimes ops batch.multiplicity) state)
    (kind.getFunction ops false).initialNullAggregateState

namespace AggregateHashTable

variable [DecidableEq V] {keyOps : KeyOperations V} {canon : V → V} {rows : Set (List (Option V))}
  {numHashKeys numNonHashKeys : ℕ} {functions : List (AggregateKind × Bool)} {batch : Batch V}
  {ops : ValueOperations V} {t t' : AggregateHashTable V}

/-! ## Growing -/

/-- The slots are at least half as many again as the entries. -/
structure Roomy (t : AggregateHashTable V) (numEntries : ℕ) : Prop where
  min_le : HashSlots.numHashSlotsPerBlock ≤ t.hashSlots.maxNumHashSlots
  load_le : 3 * numEntries ≤ 2 * t.hashSlots.maxNumHashSlots

omit [DecidableEq V] in
theorem exists_resizeHashTableIfNecessary {n : ℕ}
    (hvalid : t.Valid keyOps canon rows numHashKeys numNonHashKeys)
    (hroomy : t.Roomy t.entries.length)
    (hn : n ≤ defaultVectorCapacity) :
    ∃ hashSlots, t.resizeHashTableIfNecessary n = .ok { t with hashSlots := hashSlots } ∧
      Valid keyOps canon rows numHashKeys numNonHashKeys { t with hashSlots := hashSlots } ∧
      Roomy { t with hashSlots := hashSlots } (t.entries.length + n) := by
  obtain ⟨hmin, hload⟩ := hroomy
  have hblock : HashSlots.numHashSlotsPerBlock = 16384 := by decide
  have hcapacity : defaultVectorCapacity = 2048 := by decide
  rw [resizeHashTableIfNecessary]
  split_ifs with hfull
  · obtain ⟨hashSlots, hresize, hmax, hholds⟩ := @HashSlots.exists_resize
      (t.entries.map Entry.hash) (t.hashSlots.maxNumHashSlots * 2) (by rw [List.length_map]; omega)
    refine ⟨hashSlots, ?_, ?_, ?_, ?_⟩
    · rw [resize, hresize]
      rfl
    · exact ⟨hholds, hvalid.nodup, hvalid.mem_rows, hvalid.length_eq, hvalid.hash_eq,
        hvalid.mayContainNulls⟩
    · simp only [hmax]
      omega
    · simp only [hmax]
      omega
  · rw [not_or, Nat.not_lt, Nat.not_lt] at hfull
    exact ⟨t.hashSlots, rfl, hvalid, hmin, hfull.2⟩

/-! ## A `DISTINCT` function -/

section Distinct

variable {states : ℕ → List (Option V) → AggregateState V} {numFunctions i : ℕ}
  {kind : AggregateKind} {d : DistinctHashTable V} {pairs : Set (List (Option V))}

omit [DecidableEq V] in
theorem length_flatKeys (hadm : batch.Admitted numHashKeys numNonHashKeys functions)
    (hunflat : batch.groupByUnflatHashKeyVectors = []) :
    (batch.groupByFlatHashKeyVectors.map fun vector ↦
      vector.values (batch.getPositionOfCurrIdx vector)).length = numHashKeys := by
  rw [List.length_map, ← hadm.length_hashKeyVectors, Batch.hashKeyVectors, hunflat, List.append_nil]

omit [DecidableEq V] in
/-- The keys of a `DISTINCT` function are those of the tuple. -/
theorem take_distinctKeys (hadm : batch.Admitted numHashKeys numNonHashKeys functions)
    (hunflat : batch.groupByUnflatHashKeyVectors = []) (i pos : ℕ) :
    (canonKeys canon (batch.distinctKeys i)).take numHashKeys =
      (canonKeys canon (batch.entryKeys pos)).take numHashKeys := by
  rw [canonKeys, canonKeys, ← List.map_take, ← List.map_take, hadm.take_entryKeys,
    Batch.distinctKeys, List.take_left' (length_flatKeys hadm hunflat), Batch.hashKeyVectors,
    hunflat, List.append_nil]
  congr 1
  refine List.map_congr_left fun vector hmem ↦ ?_
  rw [Batch.valueFor_of_isFlat (hadm.isFlat_of_mem vector hmem)]

omit [DecidableEq V] in
/-- The states do not depend on the tables of the `DISTINCT` functions. -/
theorem ready_withDistinctHashTables
    (h : Ready keyOps canon rows numHashKeys numNonHashKeys numFunctions batch t states)
    (distinctHashTables : List (Option (DistinctHashTable V))) :
    Ready keyOps canon rows numHashKeys numNonHashKeys numFunctions batch
      { t with distinctHashTables := distinctHashTables } states :=
  ⟨⟨h.valid.holds, h.valid.nodup, h.valid.mem_rows, h.valid.length_eq, h.valid.hash_eq,
    h.valid.mayContainNulls⟩, h.finds, h.states_are⟩

/-- A value that the table of the function has with its keys is not added again. -/
theorem exists_updateDistinctAggState
    (hadm : batch.Admitted numHashKeys numNonHashKeys functions)
    (h : Ready keyOps canon rows numHashKeys numNonHashKeys numFunctions batch t states)
    (hi : i < numFunctions) (hfunction : functions[i]? = some (kind, true))
    (hd : t.distinctHashTables[i]? = some (some d))
    (hvalid : d.Valid keyOps canon pairs (numHashKeys + 1))
    (hequality : KeyEquality keyOps canon (DistinctHashTable.hashOf keyOps) pairs)
    (hpair : batch.distinctKeys i ∈ pairs)
    (hroom : canonKeys canon (batch.distinctKeys i) ∉ d.entries.map (canonKeys canon) →
      d.entries.length < HashSlots.numHashSlotsPerBlock)
    (hadds : canonKeys canon (batch.distinctKeys i) ∉ d.entries.map (canonKeys canon) →
      ∀ pos ∈ batch.keyPositions, ∃ state,
        ((batch.distinctKeys i)[numHashKeys]?.join.toList.map some).foldlM (kind.addValue ops)
          (states i (canonKeys canon (batch.entryKeys pos))) = .ok state) :
    ∃ t' d' states', updateDistinctAggState keyOps batch (kind.getFunction ops true) i t
        (batch.aggregateVectors[i]?.join) = .ok t' ∧
      t'.distinctHashTables = t.distinctHashTables.set i (some d') ∧
      SameGroups { t with distinctHashTables := t'.distinctHashTables } t' ∧
      d'.Valid keyOps canon pairs (numHashKeys + 1) ∧
      Ready keyOps canon rows numHashKeys numNonHashKeys numFunctions batch t' states' ∧
      ∃ pos, batch.keyPositions = [pos] ∧
        (canonKeys canon (batch.distinctKeys i) ∈ d.entries.map (canonKeys canon) ∧ d' = d ∧
            states' = states ∨
          canonKeys canon (batch.distinctKeys i) ∉ d.entries.map (canonKeys canon) ∧
            d'.entries = d.entries ++ [batch.distinctKeys i] ∧
            ∃ state, ((batch.distinctKeys i)[numHashKeys]?.join.toList.map some).foldlM
                (kind.addValue ops) (states i (canonKeys canon (batch.entryKeys pos))) = .ok state ∧
              states' = setStates states i (canonKeys canon (batch.entryKeys pos)) state) := by
  obtain ⟨hunflat, v, hget, hflat⟩ := hadm.distinct i kind hfunction
  obtain ⟨pos, hpos, hpositions, -⟩ := exists_flatKeyPos hadm hunflat
  have hinput : kind.hasInput = true := by
    have hvectors := congrArg (fun inputs ↦ inputs[i]?) hadm.aggregateVectors
    simp only [List.getElem?_map, hget, hfunction, Option.map_some, Option.isSome_some,
      Option.some.injEq] at hvectors
    exact hvectors.symm
  set keys := batch.groupByFlatHashKeyVectors.map fun vector ↦
    vector.values (batch.getPositionOfCurrIdx vector) with hkeys
  set value := v.values (batch.getPositionOfCurrIdx v) with hvalue
  have hpairEq : batch.distinctKeys i = keys ++ [value] := by
    rw [Batch.distinctKeys, hget]
    rfl
  have hkeysLength : keys.length = numHashKeys := length_flatKeys hadm hunflat
  have hlast : (keys ++ [value])[numHashKeys]?.join = value := by
    rw [← hkeysLength, List.getElem?_append_right (le_refl _), Nat.sub_self]
    rfl
  have hgroupByKeyPos :
      (batch.groupByFlatHashKeyVectors.head?.map batch.getPositionOfCurrIdx).getD 0 = pos := by
    rw [flatKeyPos] at hpos
    cases hhead : batch.groupByFlatHashKeyVectors.head? with
    | none => simp [hhead, nonNull] at hpos
    | some vector => simpa [hhead, nonNull] using hpos
  have hjoin : batch.aggregateVectors[i]?.join = some v := by rw [hget]; rfl
  have hready := ready_withDistinctHashTables h
  rw [hpairEq] at hpair hroom hadds ⊢
  rw [hjoin, hlast]
  rw [hlast] at hadds
  have hcall : ∀ result, d.isAggregateValueDistinctForGroupByKeys keyOps keys value = .ok result →
      updateDistinctAggState keyOps batch (kind.getFunction ops true) i t (some v) =
        (if result.2 && !v.isNull (batch.getPositionOfCurrIdx v) then
          updateStateAt i (fun state ↦ (kind.getFunction ops true).updatePos state (some v) 1
            (batch.getPositionOfCurrIdx v))
            { t with distinctHashTables := t.distinctHashTables.set i (some result.1) } pos
        else .ok { t with distinctHashTables := t.distinctHashTables.set i (some result.1) }) := by
    rintro ⟨d', isDistinct⟩ hresult
    have hof : t.distinctHashTableOf i = .ok d := by
      rw [distinctHashTableOf, hd]
      rfl
    simp only [updateDistinctAggState, hof, ok_bind, nonNull, ← hkeys, ← hvalue, hresult,
      hgroupByKeyPos, pure_eq_ok]
  rcases hvalid.isAggregateValueDistinctForGroupByKeys_cases hequality hpair
    (by rw [List.length_append, hkeysLength, List.length_singleton]) with
      ⟨hmem, hfound⟩ | ⟨hmem, hnew⟩
  · refine ⟨{ t with distinctHashTables := t.distinctHashTables.set i (some d) }, d, states, ?_,
      rfl, SameGroups.refl _, hvalid, hready _, pos, hpositions, Or.inl ⟨hmem, rfl, rfl⟩⟩
    rw [hcall _ hfound]
    rfl
  · rw [if_pos (hroom hmem)] at hnew
    obtain ⟨d', hok, hvalid', hentries⟩ := hnew
    have hposMem : pos ∈ batch.keyPositions := by
      rw [hpositions]
      exact List.mem_singleton_self pos
    obtain ⟨state, hstate⟩ := hadds hmem pos hposMem
    cases hnull : value with
    | none =>
        refine ⟨{ t with distinctHashTables := t.distinctHashTables.set i (some d') }, d', states,
          ?_, rfl, SameGroups.refl _, hvalid', hready _, pos, hpositions,
          Or.inr ⟨by rwa [hnull] at hmem, by rw [hentries, hnull], _, rfl, ?_⟩⟩
        · rw [hcall _ hok]
          exact if_neg (by rw [ValueVector.isNull, ← hvalue, hnull]; simp)
        · simp [setStates]
    | some x =>
        have htakes : kind.Takes (some v) (batch.getPositionOfCurrIdx v) :=
          ⟨hinput.symm, fun _ ↦ by rw [Option.bind_some, ← hvalue, hnull]; rfl⟩
        rw [hnull, Option.toList_some, List.map_singleton, foldlM_singleton] at hstate
        have hupdate : (kind.getFunction ops true).updatePos
            (states i (canonKeys canon (batch.entryKeys pos))) (some v) 1
            (batch.getPositionOfCurrIdx v) = .ok state := by
          rw [AggregateKind.updatePos_eq htakes Nat.one_pos fun _ ↦ by decide,
            AggregateKind.addTimes_one, Option.bind_some, ← hvalue, hnull, hstate]
        have hready' := hready (t.distinctHashTables.set i (some d'))
        obtain ⟨t', hupdated, hsame, hstates⟩ := @exists_updateStateAt V _ keyOps canon rows
          numHashKeys numNonHashKeys _ states numFunctions i pos _ state
          (fun state ↦ (kind.getFunction ops true).updatePos state (some v) 1
            (batch.getPositionOfCurrIdx v)) hready'.valid hready'.states_are
          (hready'.finds pos hposMem) hi hupdate
        have htables : t'.distinctHashTables = t.distinctHashTables.set i (some d') := by
          rw [hsame.table_eq]
        refine ⟨t', d', _, ?_, htables, by rwa [htables], hvalid',
          ⟨hsame.valid hready'.valid, fun pos hpos ↦ hsame.finds (hready'.finds pos hpos), hstates⟩,
          pos, hpositions, Or.inr ⟨by rwa [hnull] at hmem, by rw [hentries, hnull], state, ?_, rfl⟩⟩
        · rw [hcall _ hok, if_pos (by rw [ValueVector.isNull, ← hvalue, hnull]; rfl), hupdated]
        · rw [Option.toList_some, List.map_singleton, foldlM_singleton, hstate]

end Distinct

/-! ## A batch -/

omit [DecidableEq V] in
/-- The state that some entries of the table of a `DISTINCT` function give. -/
def distinctState (ops : ValueOperations V) (kind : AggregateKind) (numHashKeys : ℕ)
    (entries : List (List (Option V))) : Except ExecutionFault (AggregateState V) :=
  (entries.filterMap fun entry ↦ entry[numHashKeys]?.join.map some).foldlM (kind.addValue ops)
    (kind.getFunction ops true).initialNullAggregateState

omit [DecidableEq V] in
/-- The groups of the tuples of some batches. -/
def groupsOf (canon : V → V) (batches : List (Batch V)) : Set (List (Option V)) :=
  {key | ∃ batch ∈ batches, ∃ row ∈ batch.rows, canonKeys canon (batch.rowKeys row) = key}

/-- The keys of the entries. -/
def groupKeys (canon : V → V) (t : AggregateHashTable V) : List (List (Option V)) :=
  t.entries.map fun entry ↦ canonKeys canon entry.keys

/-- The batches that the functions before the number `k` have seen. -/
def seenBy (batches : List (Batch V)) (batch : Batch V) (k i : ℕ) : List (Batch V) :=
  if i < k then batches ++ [batch] else batches

/-- The states of the functions, after those before the number `k` have seen one batch more. -/
structure StatesOf (keyOps : KeyOperations V) (canon : V → V) (pairs : ℕ → Set (List (Option V)))
    (numHashKeys : ℕ) (functions : List (AggregateKind × Bool)) (ops : ValueOperations V)
    (seen : ℕ → List (Batch V)) (t : AggregateHashTable V)
    (states : ℕ → List (Option V) → AggregateState V) : Prop where
  states_eq : ∀ (i : ℕ) (kind : AggregateKind), functions[i]? = some (kind, false) →
    ∀ key, groupState canon ops kind i (seen i) key = .ok (states i key)
  distinct : ∀ (i : ℕ) (kind : AggregateKind), functions[i]? = some (kind, true) →
    ∃ d, t.distinctHashTables[i]? = some (some d) ∧
      d.Valid keyOps canon (pairs i) (numHashKeys + 1) ∧
      (∀ pair, pair ∈ d.entries.map (canonKeys canon) ↔
        ∃ batch ∈ seen i, canonKeys canon (batch.distinctKeys i) = pair) ∧
      ∀ key, ∃ taken, taken.Sublist (d.entries.filter fun entry ↦
          (canonKeys canon entry).take numHashKeys = key.take numHashKeys) ∧
        distinctState ops kind numHashKeys taken = .ok (states i key)

/-- The table after some batches. -/
structure Aggregates (keyOps : KeyOperations V) (canon : V → V) (rows : Set (List (Option V)))
    (pairs : ℕ → Set (List (Option V))) (numHashKeys numNonHashKeys : ℕ)
    (functions : List (AggregateKind × Bool)) (ops : ValueOperations V) (batches : List (Batch V))
    (t : AggregateHashTable V) (states : ℕ → List (Option V) → AggregateState V) : Prop where
  valid : t.Valid keyOps canon rows numHashKeys numNonHashKeys
  functions_eq : t.aggregateFunctions =
    functions.map fun function ↦ function.1.getFunction ops function.2
  roomy : t.Roomy t.entries.length
  mem_groupKeys : ∀ key, key ∈ t.groupKeys canon ↔ key ∈ groupsOf canon batches
  states_are : StatesAre canon functions.length t states
  states_of : StatesOf keyOps canon pairs numHashKeys functions ops (fun _ ↦ batches) t states

omit [DecidableEq V] in
theorem mem_groupsOf_append {batches : List (Batch V)} {key : List (Option V)} :
    key ∈ groupsOf canon (batches ++ [batch]) ↔ key ∈ groupsOf canon batches ∨
      ∃ row ∈ batch.rows, canonKeys canon (batch.rowKeys row) = key := by
  simp [groupsOf, or_and_right, exists_or]

theorem groupState_append {kind : AggregateKind} {i : ℕ} {batches : List (Batch V)}
    (key : List (Option V)) :
    groupState canon ops kind i (batches ++ [batch]) key =
      (do
        let state ← groupState canon ops kind i batches key
        (batch.groupValues canon i key).foldlM (kind.addTimes ops batch.multiplicity) state) := by
  rw [groupState, List.foldlM_append]
  exact congrArg _ (funext fun _ ↦ foldlM_singleton)

/-- A group without tuples has the initial state. -/
theorem groupState_of_not_mem {kind : AggregateKind} {i : ℕ} {batches : List (Batch V)}
    {key : List (Option V)} (hkey : key ∉ groupsOf canon batches) :
    groupState canon ops kind i batches key =
      .ok (kind.getFunction ops false).initialNullAggregateState := by
  induction batches using List.reverseRecOn with
  | nil => rfl
  | append_singleton batches batch ih =>
      rw [mem_groupsOf_append, not_or] at hkey
      have hnone : batch.groupValues canon i key = [] := by
        rw [Batch.groupValues, List.filter_eq_nil_iff.mpr]
        · rfl
        · intro row hrow
          rw [decide_eq_true_iff]
          exact fun hsame ↦ hkey.2 ⟨row, hrow, hsame⟩
      rw [groupState_append, ih hkey.1, ok_bind, hnone]
      rfl

/-- What the update of a state leaves as it is. -/
structure KeepsGroups (t t' : AggregateHashTable V) : Prop where
  aggregateFunctions_eq : t'.aggregateFunctions = t.aggregateFunctions
  hashSlots_eq : t'.hashSlots = t.hashSlots
  keys_eq : t'.entries.map Entry.keys = t.entries.map Entry.keys

namespace KeepsGroups

omit [DecidableEq V]

theorem of_sameGroups (h : SameGroups t t') : KeepsGroups t t' :=
  ⟨by rw [h.table_eq], by rw [h.table_eq], h.map_eq Entry.keys fun _ ↦ rfl⟩

theorem trans {t'' : AggregateHashTable V} (h : KeepsGroups t t') (h' : KeepsGroups t' t'') :
    KeepsGroups t t'' :=
  ⟨h'.aggregateFunctions_eq.trans h.aggregateFunctions_eq, h'.hashSlots_eq.trans h.hashSlots_eq,
    h'.keys_eq.trans h.keys_eq⟩

theorem groupKeys_eq (h : KeepsGroups t t') (canon : V → V) :
    t'.groupKeys canon = t.groupKeys canon := by
  have hmap := congrArg (List.map (canonKeys canon)) h.keys_eq
  rwa [List.map_map, List.map_map] at hmap

theorem length_eq (h : KeepsGroups t t') : t'.entries.length = t.entries.length := by
  have hlength := congrArg List.length h.keys_eq
  rwa [List.length_map, List.length_map] at hlength

end KeepsGroups

omit [DecidableEq V] in
theorem seenBy_succ_of_ne {batches : List (Batch V)} {k i : ℕ} (hne : i ≠ k) :
    seenBy batches batch (k + 1) i = seenBy batches batch k i := by
  rw [seenBy, seenBy]
  congr 1
  exact propext (by omega)

omit [DecidableEq V] in
theorem seenBy_succ_self {batches : List (Batch V)} {k : ℕ} :
    seenBy batches batch (k + 1) k = batches ++ [batch] ∧ seenBy batches batch k k = batches :=
  ⟨if_pos (Nat.lt_succ_self k), if_neg (Nat.lt_irrefl k)⟩

omit [DecidableEq V] in
/-- Values that a `DISTINCT` function may take of one group can be added in any order.  If the
vector is filled again, what they come to is not in its overflow buffer. -/
def AddsDistinct (canon : V → V) (ops : ValueOperations V) (kind : AggregateKind) (numHashKeys : ℕ)
    (pairs : Set (List (Option V))) (resets : Prop) : Prop :=
  ∀ taken : List (List (Option V)), (∀ pair ∈ taken, pair ∈ pairs) →
    (taken.map (canonKeys canon)).Nodup →
    (∀ pair ∈ taken, ∀ pair' ∈ taken,
      (canonKeys canon pair).take numHashKeys = (canonKeys canon pair').take numHashKeys) →
    ∃ state, distinctState ops kind numHashKeys taken = .ok state ∧
      (resets → state.val.any ops.inOverflowBuffer = false)

/-- What the functions need of a batch: see `Updates` and `Alone`.  The values of each group can be
added, and a state is not in an overflow buffer that is reset.  The table of a `DISTINCT` function
must be able to tell the values with their keys apart, and not be full. -/
structure Meets (keyOps : KeyOperations V) (canon : V → V) (ops : ValueOperations V)
    (pairs : ℕ → Set (List (Option V))) (numHashKeys : ℕ)
    (functions : List (AggregateKind × Bool)) (batches : List (Batch V)) (batch : Batch V) :
    Prop where
  updates : ∀ (i : ℕ) (kind : AggregateKind) (vector : Option (ValueVector V)),
    functions[i]? = some (kind, false) → batch.aggregateVectors[i]? = some vector →
      Updates kind batch vector
  alone : ∀ (i : ℕ) (kind : AggregateKind) (vector : Option (ValueVector V)),
    functions[i]? = some (kind, false) → batch.aggregateVectors[i]? = some vector →
      batch.Alone vector
  adds : ∀ (i : ℕ) (kind : AggregateKind), functions[i]? = some (kind, false) →
    ∀ key, ∃ state, groupState canon ops kind i (batches ++ [batch]) key = .ok state
  outlasts : ∀ (i : ℕ) (kind : AggregateKind), functions[i]? = some (kind, false) →
    batch.resetsOverflowBuffer i = true → ∀ key state,
      groupState canon ops kind i batches key = .ok state →
        state.val.any ops.inOverflowBuffer = false
  equality : ∀ (i : ℕ) (kind : AggregateKind), functions[i]? = some (kind, true) →
    KeyEquality keyOps canon (DistinctHashTable.hashOf keyOps) (pairs i)
  pair_mem : ∀ (i : ℕ) (kind : AggregateKind), functions[i]? = some (kind, true) →
    batch.distinctKeys i ∈ pairs i
  room : ∀ (i : ℕ) (kind : AggregateKind), functions[i]? = some (kind, true) →
    ((batches ++ [batch]).map fun batch ↦ canonKeys canon (batch.distinctKeys i)).dedup.length ≤
      HashSlots.numHashSlotsPerBlock
  addsDistinct : ∀ (i : ℕ) (kind : AggregateKind), functions[i]? = some (kind, true) →
    AddsDistinct canon ops kind numHashKeys (pairs i) (batch.resetsOverflowBuffer i = true)

omit [DecidableEq V] in
theorem ne_of_isDistinct_ne {i k : ℕ} {kind kind' : AggregateKind} {isDistinct isDistinct' : Bool}
    (h : functions[i]? = some (kind, isDistinct)) (h' : functions[k]? = some (kind', isDistinct'))
    (hne : isDistinct ≠ isDistinct') : i ≠ k := by
  rintro rfl
  rw [h, Option.some.injEq, Prod.mk.injEq] at h'
  exact hne h'.2

section DistinctTable

variable {batches : List (Batch V)} {d : DistinctHashTable V} {pairs : Set (List (Option V))}
  {kind : AggregateKind} {i n : ℕ} {entries taken : List (List (Option V))}
  {pair key : List (Option V)}

omit [DecidableEq V] in
/-- A value behind other ones is added last. -/
theorem distinctState_append :
    distinctState ops kind numHashKeys (entries ++ [pair]) =
      (do
        let state ← distinctState ops kind numHashKeys entries
        (pair[numHashKeys]?.join.toList.map some).foldlM (kind.addValue ops) state) := by
  rw [distinctState, distinctState, List.filterMap_append, List.foldlM_append]
  cases hlast : pair[numHashKeys]?.join <;> simp [hlast]

/-- Where there is room for the values of all batches there is room for a new one. -/
theorem length_entries_lt (hvalid : d.Valid keyOps canon pairs (numHashKeys + 1))
    (hpairs : ∀ pair, pair ∈ d.entries.map (canonKeys canon) ↔
      ∃ batch ∈ batches, canonKeys canon (batch.distinctKeys i) = pair)
    (hroom : ((batches ++ [batch]).map fun batch ↦
      canonKeys canon (batch.distinctKeys i)).dedup.length ≤ n)
    (hnew : canonKeys canon (batch.distinctKeys i) ∉ d.entries.map (canonKeys canon)) :
    d.entries.length < n := by
  have hnodup : (d.entries.map (canonKeys canon) ++
      [canonKeys canon (batch.distinctKeys i)]).Nodup :=
    hvalid.nodup.append (List.nodup_singleton _) (List.disjoint_singleton.mpr hnew)
  have hsubset : d.entries.map (canonKeys canon) ++ [canonKeys canon (batch.distinctKeys i)] ⊆
      ((batches ++ [batch]).map fun batch ↦ canonKeys canon (batch.distinctKeys i)).dedup := by
    intro pair hpair
    rw [List.mem_dedup, List.map_append]
    rcases List.mem_append.mp hpair with hold | hlast
    · obtain ⟨batch', hmem, rfl⟩ := (hpairs pair).mp hold
      exact List.mem_append_left _ (List.mem_map.mpr ⟨batch', hmem, rfl⟩)
    · exact List.mem_append_right _ (by simpa using hlast)
  have hle := (hnodup.subperm hsubset).length_le.trans hroom
  rw [List.length_append, List.length_map, List.length_singleton] at hle
  exact hle

/-- The values of a group that have been taken can be followed by a new one. -/
theorem AddsDistinct.exists_add {resets : Prop} {before : AggregateState V}
    (h : AddsDistinct canon ops kind numHashKeys pairs resets)
    (hvalid : d.Valid keyOps canon pairs (numHashKeys + 1)) (hpair : pair ∈ pairs)
    (hsame : (canonKeys canon pair).take numHashKeys = key.take numHashKeys)
    (hnew : canonKeys canon pair ∉ d.entries.map (canonKeys canon))
    (htaken : taken.Sublist (d.entries.filter fun entry ↦
      (canonKeys canon entry).take numHashKeys = key.take numHashKeys))
    (hbefore : distinctState ops kind numHashKeys taken = .ok before) :
    ∃ state, (pair[numHashKeys]?.join.toList.map some).foldlM (kind.addValue ops) before =
      .ok state := by
  have hentries : taken.Sublist d.entries := htaken.trans List.filter_sublist
  have hmem : ∀ pair' ∈ taken ++ [pair], pair' ∈ pairs := by
    intro pair' hpair'
    rcases List.mem_append.mp hpair' with hold | hlast
    · exact hvalid.mem_rows pair' (hentries.subset hold)
    · rwa [List.mem_singleton.mp hlast]
  have hnodup : ((taken ++ [pair]).map (canonKeys canon)).Nodup := by
    rw [List.map_append, List.map_singleton]
    refine (hvalid.nodup.sublist (hentries.map _)).append (List.nodup_singleton _) ?_
    exact List.disjoint_singleton.mpr fun hmem ↦ hnew ((hentries.map _).subset hmem)
  have hkeys : ∀ pair' ∈ taken ++ [pair],
      (canonKeys canon pair').take numHashKeys = key.take numHashKeys := by
    intro pair' hpair'
    rcases List.mem_append.mp hpair' with hold | hlast
    · exact of_decide_eq_true (List.mem_filter.mp (htaken.subset hold)).2
    · rw [List.mem_singleton.mp hlast, hsame]
  obtain ⟨state, hstate, -⟩ := h (taken ++ [pair]) hmem hnodup
    fun pair hpair pair' hpair' ↦ (hkeys pair hpair).trans (hkeys pair' hpair').symm
  rw [distinctState_append, hbefore, ok_bind] at hstate
  exact ⟨state, hstate⟩

end DistinctTable

section Batch

variable {hashVector : HashVector} {batches : List (Batch V)} {pairs : ℕ → Set (List (Option V))}
  {states : ℕ → List (Option V) → AggregateState V} {k : ℕ} {kind : AggregateKind}
  (hhashed : Hashed keyOps rows numHashKeys numNonHashKeys functions batch hashVector)
  (hmeets : Meets keyOps canon ops pairs numHashKeys functions batches batch)
  (hready : Ready keyOps canon rows numHashKeys numNonHashKeys functions.length batch t states)
  (hstates : StatesOf keyOps canon pairs numHashKeys functions ops
    (seenBy batches batch k) t states)

include hhashed hmeets hready hstates

theorem exists_updateAggStateOf (hfunction : functions[k]? = some (kind, false)) :
    ∃ t' states', updateAggStateOf keyOps batch hashVector t (kind.getFunction ops false, k) =
        .ok t' ∧ KeepsGroups t t' ∧
      Ready keyOps canon rows numHashKeys numNonHashKeys functions.length batch t' states' ∧
      StatesOf keyOps canon pairs numHashKeys functions ops (seenBy batches batch (k + 1)) t'
        states' := by
  have hadm := hhashed.admitted
  have hk : k < functions.length := (List.getElem?_eq_some_iff.mp hfunction).1
  have hvectors := congrArg (fun inputs ↦ inputs[k]?) hadm.aggregateVectors
  simp only [List.getElem?_map, hfunction, Option.map_some] at hvectors
  obtain ⟨vector, hget, hkind⟩ := Option.map_eq_some_iff.mp hvectors
  have hvalues : ∀ key, valuesOf canon batch vector key = batch.groupValues canon k key := by
    intro key
    rw [hadm.valuesOf_eq (List.mem_of_getElem? hget) (hmeets.alone k kind vector hfunction hget),
      Batch.groupValues, hget]
    rfl
  choose after hafter using hmeets.adds k kind hfunction
  obtain ⟨t', hupdate, hsame, hready'⟩ := exists_updateAggState hadm hready hk hhashed.state_eq hget
    hkind (hmeets.updates k kind vector hfunction hget) (fun key ↦ by
      have hadds := hafter key
      have hbefore := hstates.states_eq k kind hfunction key
      rw [seenBy_succ_self.2] at hbefore
      rw [groupState_append, hbefore, ok_bind] at hadds
      rw [hvalues, hadds])
  refine ⟨t', _, ?_, .of_sameGroups hsame, hready', ?_, ?_⟩
  · have hdistinct : (kind.getFunction ops false).isDistinct = false := by cases kind <;> rfl
    simp only [updateAggStateOf, hget, nonNull, ok_bind, hdistinct, Bool.false_eq_true, if_false,
      hupdate]
  · intro i kind' hfunction'
    by_cases heq : i = k
    · subst heq
      rw [hfunction', Option.some.injEq, Prod.mk.injEq] at hfunction
      obtain ⟨rfl, -⟩ := hfunction
      rw [Function.update_self, seenBy_succ_self.1]
      exact hafter
    · rw [Function.update_of_ne heq, seenBy_succ_of_ne heq]
      exact hstates.states_eq i kind' hfunction'
  · intro i kind' hfunction'
    have hne : i ≠ k := ne_of_isDistinct_ne hfunction' hfunction (by decide)
    rw [seenBy_succ_of_ne hne, Function.update_of_ne hne,
      show t'.distinctHashTables = t.distinctHashTables by rw [hsame.table_eq]]
    exact hstates.distinct i kind' hfunction'

theorem exists_updateDistinctAggStateOf (hfunction : functions[k]? = some (kind, true)) :
    ∃ t' states', updateAggStateOf keyOps batch hashVector t (kind.getFunction ops true, k) =
        .ok t' ∧ KeepsGroups t t' ∧
      Ready keyOps canon rows numHashKeys numNonHashKeys functions.length batch t' states' ∧
      StatesOf keyOps canon pairs numHashKeys functions ops (seenBy batches batch (k + 1)) t'
        states' := by
  have hadm := hhashed.admitted
  have hk : k < functions.length := (List.getElem?_eq_some_iff.mp hfunction).1
  obtain ⟨d, hd, hvalid, hpairs, hstate⟩ := hstates.distinct k kind hfunction
  rw [seenBy_succ_self.2] at hpairs
  obtain ⟨hunflat, v, hget, -⟩ := hadm.distinct k kind hfunction
  have hstart : ∀ pos, (canonKeys canon (batch.distinctKeys k)).take numHashKeys =
      (canonKeys canon (batch.entryKeys pos)).take numHashKeys := take_distinctKeys hadm hunflat k
  have hroom := length_entries_lt hvalid hpairs (hmeets.room k kind hfunction)
  have hadds : canonKeys canon (batch.distinctKeys k) ∉ d.entries.map (canonKeys canon) →
      ∀ pos ∈ batch.keyPositions, ∃ state,
        ((batch.distinctKeys k)[numHashKeys]?.join.toList.map some).foldlM (kind.addValue ops)
          (states k (canonKeys canon (batch.entryKeys pos))) = .ok state := by
    intro hnew pos _
    obtain ⟨taken, htaken, hbefore⟩ := hstate (canonKeys canon (batch.entryKeys pos))
    exact (hmeets.addsDistinct k kind hfunction).exists_add hvalid
      (hmeets.pair_mem k kind hfunction) (hstart pos) hnew htaken hbefore
  obtain ⟨t', d', states', hupdate, htables, hsame, hvalid', hready', pos, hpositions, hcases⟩ :=
    exists_updateDistinctAggState hadm hready hk hfunction hd hvalid
      (hmeets.equality k kind hfunction) (hmeets.pair_mem k kind hfunction) hroom hadds
  have hkeeps : KeepsGroups t t' := by
    obtain ⟨hfunctions, hslots, hkeys⟩ := KeepsGroups.of_sameGroups hsame
    exact ⟨hfunctions, hslots, hkeys⟩
  have hothers : ∀ i ≠ k, states' i = states i := by
    intro i hne
    rcases hcases with ⟨-, -, rfl⟩ | ⟨-, -, state, -, rfl⟩
    · rfl
    · exact Function.update_of_ne hne _ _
  refine ⟨t', states', ?_, hkeeps, hready', ?_, ?_⟩
  · have hdistinct : (kind.getFunction ops true).isDistinct = true := by cases kind <;> rfl
    rw [hget] at hupdate
    simp only [updateAggStateOf, hget, nonNull, ok_bind, hdistinct, if_true]
    exact hupdate
  · intro i kind' hfunction'
    have hne : i ≠ k := ne_of_isDistinct_ne hfunction' hfunction (by decide)
    rw [hothers i hne, seenBy_succ_of_ne hne]
    exact hstates.states_eq i kind' hfunction'
  · intro i kind' hfunction'
    rw [htables]
    by_cases hne : i = k
    · subst hne
      rw [hfunction', Option.some.injEq, Prod.mk.injEq] at hfunction
      obtain ⟨rfl, -⟩ := hfunction
      have hlt : i < t.distinctHashTables.length := (List.getElem?_eq_some_iff.mp hd).1
      refine ⟨d', by rw [List.getElem?_set_self hlt], hvalid', fun pair ↦ ?_, fun key ↦ ?_⟩
      · rw [seenBy_succ_self.1]
        have hsplit : (∃ batch' ∈ batches ++ [batch],
            canonKeys canon (batch'.distinctKeys i) = pair) ↔
            pair ∈ d.entries.map (canonKeys canon) ∨
              canonKeys canon (batch.distinctKeys i) = pair := by
          rw [hpairs]
          simp [or_and_right, exists_or]
        rw [hsplit]
        rcases hcases with ⟨hmem, rfl, -⟩ | ⟨-, hentries, -⟩
        · exact ⟨Or.inl, fun h ↦ h.elim id fun heq ↦ heq ▸ hmem⟩
        · rw [hentries, List.map_append, List.mem_append, List.map_singleton, List.mem_singleton,
            eq_comm (a := pair)]
      · obtain ⟨taken, htaken, hbefore⟩ := hstate key
        rcases hcases with ⟨-, rfl, rfl⟩ | ⟨-, hentries, state, hnew, rfl⟩
        · exact ⟨taken, htaken, hbefore⟩
        · rw [hentries, List.filter_append, setStates, Function.update_self]
          by_cases hsamekey : key = canonKeys canon (batch.entryKeys pos)
          · subst hsamekey
            refine ⟨taken ++ [batch.distinctKeys i], ?_, ?_⟩
            · rw [List.filter_cons_of_pos (by simpa using hstart pos), List.filter_nil]
              exact htaken.append (List.Sublist.refl _)
            · rw [Function.update_self, distinctState_append, hbefore, ok_bind, hnew]
          · rw [Function.update_of_ne hsamekey]
            exact ⟨taken, htaken.trans (List.sublist_append_left _ _), hbefore⟩
    · rw [hothers i hne, seenBy_succ_of_ne hne, List.getElem?_set_ne (Ne.symm hne)]
      exact hstates.distinct i kind' hfunction'

end Batch

section Run

variable {batches : List (Batch V)} {pairs : ℕ → Set (List (Option V))} {hashVector : HashVector}
  {states : ℕ → List (Option V) → AggregateState V}

/-- All functions take the values of a batch. -/
theorem exists_updateAggStates
    (hhashed : Hashed keyOps rows numHashKeys numNonHashKeys functions batch hashVector)
    (hmeets : Meets keyOps canon ops pairs numHashKeys functions batches batch)
    (hfunctions : t.aggregateFunctions =
      functions.map fun function ↦ function.1.getFunction ops function.2)
    (hready : Ready keyOps canon rows numHashKeys numNonHashKeys functions.length batch t states)
    (hstates : StatesOf keyOps canon pairs numHashKeys functions ops (fun _ ↦ batches) t states) :
    ∃ t' states', t.updateAggStates keyOps batch hashVector = .ok t' ∧ KeepsGroups t t' ∧
      Ready keyOps canon rows numHashKeys numNonHashKeys functions.length batch t' states' ∧
      StatesOf keyOps canon pairs numHashKeys functions ops (fun _ ↦ batches ++ [batch]) t'
        states' := by
  have hstart : StatesOf keyOps canon pairs numHashKeys functions ops (seenBy batches batch 0) t
      states := by
    have hseen : seenBy batches batch 0 = fun _ ↦ batches := by
      funext i
      exact if_neg (Nat.not_lt_zero i)
    rwa [hseen]
  obtain ⟨t', hloop, states', hkeeps, hready', hstates'⟩ := @exists_foldlM_eq_ok ExecutionFault
    (AggregateFunction V × ℕ) (AggregateHashTable V) (updateAggStateOf keyOps batch hashVector)
    t.aggregateFunctions.zipIdx t
    (fun done t' ↦ ∃ states', KeepsGroups t t' ∧
      Ready keyOps canon rows numHashKeys numNonHashKeys functions.length batch t' states' ∧
      StatesOf keyOps canon pairs numHashKeys functions ops (seenBy batches batch done.length) t'
        states')
    ⟨states, ⟨rfl, rfl, rfl⟩, hready, hstart⟩
    (by
      rintro done ⟨function, k⟩ rest t₁ hsplit ⟨states₁, hkeeps, hready₁, hstates₁⟩
      have hget : t.aggregateFunctions.zipIdx[done.length]? = some (function, k) := by
        rw [hsplit, List.getElem?_append_right (le_refl _), Nat.sub_self, List.getElem?_cons_zero]
      rw [List.getElem?_zipIdx, Nat.zero_add] at hget
      obtain ⟨function', hget', hpair⟩ := Option.map_eq_some_iff.mp hget
      obtain ⟨rfl, rfl⟩ := Prod.mk.inj hpair
      rw [hfunctions, List.getElem?_map] at hget'
      obtain ⟨⟨kind, isDistinct⟩, hfunction, rfl⟩ := Option.map_eq_some_iff.mp hget'
      rw [List.length_append, List.length_singleton]
      cases isDistinct with
      | false =>
          obtain ⟨t₂, states₂, hok, hkeeps₂, hready₂, hstates₂⟩ :=
            exists_updateAggStateOf hhashed hmeets hready₁ hstates₁ hfunction
          exact ⟨t₂, hok, states₂, hkeeps.trans hkeeps₂, hready₂, hstates₂⟩
      | true =>
          obtain ⟨t₂, states₂, hok, hkeeps₂, hready₂, hstates₂⟩ :=
            exists_updateDistinctAggStateOf hhashed hmeets hready₁ hstates₁ hfunction
          exact ⟨t₂, hok, states₂, hkeeps.trans hkeeps₂, hready₂, hstates₂⟩)
  rw [List.length_zipIdx, hfunctions, List.length_map] at hstates'
  have hseen : ∀ (i : ℕ) (function : AggregateKind × Bool), functions[i]? = some function →
      seenBy batches batch functions.length i = batches ++ [batch] :=
    fun i _ hfunction ↦ if_pos (List.getElem?_eq_some_iff.mp hfunction).1
  refine ⟨t', states', hloop, hkeeps, hready', ?_, ?_⟩
  · intro i kind hfunction key
    rw [← hstates'.states_eq i kind hfunction key, hseen i _ hfunction]
  · intro i kind hfunction
    have hdistinct := hstates'.distinct i kind hfunction
    rwa [hseen i _ hfunction] at hdistinct

/-- The states before a batch is added: those of new groups are the initial ones. -/
def statesWithNew (canon : V → V) (ops : ValueOperations V)
    (functions : List (AggregateKind × Bool)) (t : AggregateHashTable V)
    (states : ℕ → List (Option V) → AggregateState V) (i : ℕ) (key : List (Option V)) :
    AggregateState V :=
  if key ∈ t.groupKeys canon then states i key
  else ((functions[i]?.map fun function ↦
    (function.1.getFunction ops function.2).initialNullAggregateState).getD {})

theorem statesAre_withNew {idxes : List ℕ}
    (hfunctions : t.aggregateFunctions =
      functions.map fun function ↦ function.1.getFunction ops function.2)
    (hstates : StatesAre canon functions.length t states)
    (hvalid : t'.Valid keyOps canon rows numHashKeys numNonHashKeys)
    (hgrows : Grows batch hashVector t t' idxes) :
    StatesAre canon functions.length t' (statesWithNew canon ops functions t states) := by
  intro entry hentry i hi
  have hnodup := hvalid.nodup
  rw [hgrows.entries_eq, List.map_append, List.nodup_append] at hnodup
  rw [hgrows.entries_eq] at hentry
  rcases List.mem_append.mp hentry with hold | hnew
  · have hmem : canonKeys canon entry.keys ∈ t.groupKeys canon :=
      List.mem_map.mpr ⟨entry, hold, rfl⟩
    rw [statesWithNew, if_pos hmem]
    exact hstates entry hold i hi
  · have hnot : canonKeys canon entry.keys ∉ t.groupKeys canon :=
      fun hmem ↦ hnodup.2.2 _ hmem _ (List.mem_map.mpr ⟨entry, hnew, rfl⟩) rfl
    obtain ⟨idx, -, rfl⟩ := List.mem_map.mp hnew
    rw [statesWithNew, if_neg hnot, newEntry, hfunctions, List.map_map, List.getElem?_map,
      List.getElem?_eq_getElem hi]
    rfl

theorem statesOf_withNew {idxes : List ℕ}
    (hmem : ∀ key, key ∈ t.groupKeys canon ↔ key ∈ groupsOf canon batches)
    (hstates : StatesOf keyOps canon pairs numHashKeys functions ops (fun _ ↦ batches) t states)
    (hgrows : Grows batch hashVector t t' idxes) :
    StatesOf keyOps canon pairs numHashKeys functions ops (fun _ ↦ batches) t'
      (statesWithNew canon ops functions t states) := by
  constructor
  · intro i kind hfunction key
    rw [statesWithNew]
    split_ifs with hkey
    · exact hstates.states_eq i kind hfunction key
    · rw [groupState_of_not_mem fun hgroup ↦ hkey ((hmem key).mpr hgroup), hfunction]
      rfl
  · intro i kind hfunction
    obtain ⟨d, hd, hvalid, hpairs, hstate⟩ := hstates.distinct i kind hfunction
    rw [hgrows.distinctHashTables_eq]
    refine ⟨d, hd, hvalid, hpairs, fun key ↦ ?_⟩
    rw [statesWithNew]
    split_ifs with hold
    · exact hstate key
    · refine ⟨[], List.nil_sublist _, ?_⟩
      rw [hfunction]
      rfl

omit [DecidableEq V] in
/-- If no state is in an overflow buffer that is reset, all states last. -/
theorem resetOverflowBuffers_eq
    (h : ∀ entry ∈ t.entries, ∀ (i : ℕ) (state : AggregateState V)
      (aggregateFunction : AggregateFunction V), entry.states[i]? = some state →
      t.aggregateFunctions[i]? = some aggregateFunction → batch.resetsOverflowBuffer i = true →
        state.val.any aggregateFunction.inOverflowBuffer = false) :
    t.resetOverflowBuffers batch = t := by
  have hentries : (t.resetOverflowBuffers batch).entries = t.entries := by
    refine (List.map_congr_left fun entry hentry ↦ ?_).trans (List.map_id _)
    congr 1
    apply List.ext_getElem?
    intro i
    rw [List.getElem?_mapIdx]
    cases hstate : entry.states[i]? with
    | none => rfl
    | some state =>
        rw [Option.map_some]
        cases hfunction : t.aggregateFunctions[i]? with
        | none => rfl
        | some aggregateFunction =>
            simp only
            split_ifs with hresets
            · rw [AggregateState.resetOverflowBuffer_eq
                (h entry hentry i state aggregateFunction hstate hfunction hresets)]
            · rfl
  show { t with entries := (t.resetOverflowBuffers batch).entries } = t
  rw [hentries]

/-- No state is in an overflow buffer that is reset. -/
theorem Aggregates.resetOverflowBuffers_eq
    (h : Aggregates keyOps canon rows pairs numHashKeys numNonHashKeys functions ops
      batches t states)
    (hmeets : Meets keyOps canon ops pairs numHashKeys functions batches batch) :
    t.resetOverflowBuffers batch = t := by
  apply AggregateHashTable.resetOverflowBuffers_eq
  intro entry hentry i state aggregateFunction hstate hget hresets
  rw [h.functions_eq, List.getElem?_map] at hget
  obtain ⟨⟨kind, isDistinct⟩, hfunction, rfl⟩ := Option.map_eq_some_iff.mp hget
  have hi : i < functions.length := (List.getElem?_eq_some_iff.mp hfunction).1
  have hsame := (h.states_are entry hentry i hi).symm.trans hstate
  rw [Option.some.injEq] at hsame
  have hoverflow : (kind.getFunction ops isDistinct).inOverflowBuffer = ops.inOverflowBuffer := by
    cases kind <;> rfl
  simp only [hoverflow]
  cases isDistinct with
  | false =>
      refine hmeets.outlasts i kind hfunction hresets (canonKeys canon entry.keys) state ?_
      rw [h.states_of.states_eq i kind hfunction, hsame]
  | true =>
      obtain ⟨d, -, hvalid, -, hdistinct⟩ := h.states_of.distinct i kind hfunction
      obtain ⟨taken, htaken, hbefore⟩ := hdistinct (canonKeys canon entry.keys)
      have hentries : taken.Sublist d.entries := htaken.trans List.filter_sublist
      have hkeys : ∀ pair ∈ taken, (canonKeys canon pair).take numHashKeys =
          (canonKeys canon entry.keys).take numHashKeys := fun pair hpair ↦
        of_decide_eq_true (List.mem_filter.mp (htaken.subset hpair)).2
      obtain ⟨state', hstate', hlasts⟩ := hmeets.addsDistinct i kind hfunction taken
        (fun pair hpair ↦ hvalid.mem_rows pair (hentries.subset hpair))
        (hvalid.nodup.sublist (hentries.map _))
        fun pair hpair pair' hpair' ↦ (hkeys pair hpair).trans (hkeys pair' hpair').symm
      rw [hbefore, Except.ok.injEq, hsame] at hstate'
      rw [hstate']
      exact hlasts hresets

/-- A batch is added. -/
theorem Aggregates.exists_append
    (h : Aggregates keyOps canon rows pairs numHashKeys numNonHashKeys functions ops
      batches t states)
    (hadm : batch.Admitted numHashKeys numNonHashKeys functions)
    (hrows : ∀ pos ∈ batch.keyPositions, batch.entryKeys pos ∈ rows)
    (hequality : KeyEquality keyOps canon (hashOf keyOps numHashKeys) rows)
    (hmeets : Meets keyOps canon ops pairs numHashKeys functions batches batch) :
    ∃ t' states', append keyOps t batch = .ok t' ∧
      Aggregates keyOps canon rows pairs numHashKeys numNonHashKeys functions ops
        (batches ++ [batch])
        t' states' := by
  obtain ⟨hashSlots, hresize, hvalid, hroomy⟩ := exists_resizeHashTableIfNecessary h.valid h.roomy
    batch.length_keyPositions_le
  obtain ⟨hashVector, hcompute, hstate, hvalues⟩ := hadm.exists_computeVectorHashes keyOps
  have hhashed : Hashed keyOps rows numHashKeys numNonHashKeys functions batch hashVector :=
    ⟨hadm, hstate, hvalues, hrows⟩
  have hload : 3 * (t.entries.length + batch.keyPositions.length) ≤
      2 * hashSlots.maxNumHashSlots := hroomy.load_le
  have hroom : t.entries.length + batch.keyPositions.length ≤ hashSlots.maxNumHashSlots := by
    omega
  obtain ⟨t₁, idxes, hfind, hvalid₁, hgrows, hfinds⟩ :=
    exists_findHashSlots hequality hhashed hvalid hroom
  have hstates₁ := @statesAre_withNew V _ keyOps canon rows numHashKeys numNonHashKeys functions
    batch ops { t with hashSlots := hashSlots } t₁ hashVector states idxes h.functions_eq
    h.states_are hvalid₁ hgrows
  have hof₁ := @statesOf_withNew V _ keyOps canon numHashKeys functions batch ops
    { t with hashSlots := hashSlots } t₁ batches pairs hashVector states idxes h.mem_groupKeys
    ⟨h.states_of.states_eq, h.states_of.distinct⟩ hgrows
  obtain ⟨t₂, states₂, hupdate, hkeeps, hready₂, hof₂⟩ := exists_updateAggStates hhashed hmeets
    (hgrows.aggregateFunctions_eq.trans h.functions_eq) ⟨hvalid₁, hfinds, hstates₁⟩ hof₁
  have hentries := congrArg List.length hgrows.entries_eq
  rw [List.length_append, List.length_map] at hentries
  have hidxes : idxes.length ≤ batch.keyPositions.length := by
    have hnodup := hvalid₁.nodup
    rw [hgrows.entries_eq, List.map_append, List.nodup_append, List.map_map] at hnodup
    exact (hnodup.2.1.of_map.subperm hgrows.pos_mem).length_le
  refine ⟨t₂, states₂, ?_, hready₂.valid, ?_, ⟨?_, ?_⟩, fun key ↦ ?_, hready₂.states_are, hof₂⟩
  · rw [append, h.resetOverflowBuffers_eq hmeets, hadm.numEntriesToFindHashSlots_eq, hresize,
      ok_bind, hcompute, ok_bind, hfind, ok_bind, hupdate]
  · rw [hkeeps.aggregateFunctions_eq, hgrows.aggregateFunctions_eq]
    exact h.functions_eq
  · rw [hkeeps.hashSlots_eq, hgrows.maxNumHashSlots_eq]
    exact hroomy.min_le
  · rw [hkeeps.hashSlots_eq, hgrows.maxNumHashSlots_eq, hkeeps.length_eq, hentries]
    refine le_trans ?_ hload
    apply Nat.mul_le_mul_left
    exact Nat.add_le_add_left hidxes _
  · rw [hkeeps.groupKeys_eq canon, mem_groupsOf_append, hadm.exists_row_iff, ← h.mem_groupKeys]
    constructor
    · intro hkey
      rw [groupKeys, hgrows.entries_eq, List.map_append, List.mem_append, List.map_map] at hkey
      refine hkey.imp id fun hnew ↦ ?_
      obtain ⟨idx, hidx, rfl⟩ := List.mem_map.mp hnew
      exact ⟨idx, hgrows.pos_mem idx hidx, rfl⟩
    · rintro (hold | ⟨pos, hpos, rfl⟩)
      · rw [groupKeys, hgrows.entries_eq, List.map_append]
        exact List.mem_append_left _ hold
      · obtain ⟨entryIdx, entry, -, hentry, hcanon⟩ := hfinds pos hpos
        exact hcanon ▸ List.mem_map.mpr ⟨entry, List.mem_of_getElem? hentry, rfl⟩

omit [DecidableEq V] in
/-- Of a table without entries all can be said. -/
theorem valid_create (aggregateFunctions : List (AggregateFunction V)) :
    (create aggregateFunctions).Valid keyOps canon rows numHashKeys numNonHashKeys where
  holds := HashSlots.holds_empty _
  nodup := List.nodup_nil
  mem_rows := by simp [create]
  length_eq := by simp [create]
  hash_eq := by simp [create]
  mayContainNulls := by simp [create]

theorem aggregates_create :
    Aggregates keyOps canon rows pairs numHashKeys numNonHashKeys functions ops []
      (create (functions.map fun function ↦ function.1.getFunction ops function.2))
      fun i _ ↦ (functions[i]?.map fun function ↦
        (function.1.getFunction ops function.2).initialNullAggregateState).getD {} where
  valid := valid_create _
  functions_eq := rfl
  roomy := ⟨le_refl _, Nat.zero_le _⟩
  mem_groupKeys key := by simp [groupKeys, create, groupsOf]
  states_are entry hentry := by simp [create] at hentry
  states_of := by
    constructor
    · intro i kind hfunction key
      rw [hfunction]
      rfl
    · intro i kind hfunction
      refine ⟨.create, ?_, DistinctHashTable.valid_create _, ?_, fun key ↦ ⟨[], ?_, ?_⟩⟩
      · have hdistinct : (kind.getFunction ops true).isDistinct = true := by cases kind <;> rfl
        simp [create, createDistinctHashTables, hfunction, hdistinct]
      · simp [DistinctHashTable.create]
      · exact List.nil_sublist _
      · rw [hfunction]
        rfl

/-- What the functions need of all batches. -/
structure MeetsAll (keyOps : KeyOperations V) (canon : V → V) (ops : ValueOperations V)
    (numHashKeys : ℕ) (functions : List (AggregateKind × Bool)) (batches : List (Batch V)) :
    Prop where
  equality : KeyEquality keyOps canon (hashOf keyOps numHashKeys)
    {keys | ∃ batch ∈ batches, ∃ row ∈ batch.rows, batch.rowKeys row = keys}
  updates : ∀ batch ∈ batches, ∀ (i : ℕ) (kind : AggregateKind) (vector : Option (ValueVector V)),
    functions[i]? = some (kind, false) → batch.aggregateVectors[i]? = some vector →
      Updates kind batch vector ∧ batch.Alone vector
  adds : ∀ (i : ℕ) (kind : AggregateKind), functions[i]? = some (kind, false) →
    ∀ key, ∃ state, groupState canon ops kind i batches key = .ok state
  outlasts : ∀ done batch rest, batches = done ++ batch :: rest →
    ∀ (i : ℕ) (kind : AggregateKind), functions[i]? = some (kind, false) →
      batch.resetsOverflowBuffer i = true → ∀ key state,
        groupState canon ops kind i done key = .ok state →
          state.val.any ops.inOverflowBuffer = false
  distinct_equality : ∀ (i : ℕ) (kind : AggregateKind), functions[i]? = some (kind, true) →
    KeyEquality keyOps canon (DistinctHashTable.hashOf keyOps)
      {keys | ∃ batch ∈ batches, batch.distinctKeys i = keys}
  room : ∀ (i : ℕ) (kind : AggregateKind), functions[i]? = some (kind, true) →
    (batches.map fun batch ↦ canonKeys canon (batch.distinctKeys i)).dedup.length ≤
      HashSlots.numHashSlotsPerBlock
  addsDistinct : ∀ (i : ℕ) (kind : AggregateKind), functions[i]? = some (kind, true) →
    AddsDistinct canon ops kind numHashKeys {keys | ∃ batch ∈ batches, batch.distinctKeys i = keys}
      (∃ batch ∈ batches, batch.resetsOverflowBuffer i = true)

theorem MeetsAll.meets {done rest : List (Batch V)}
    (h : MeetsAll keyOps canon ops numHashKeys functions (done ++ batch :: rest)) :
    Meets keyOps canon ops
      (fun i ↦ {keys | ∃ batch' ∈ done ++ batch :: rest, batch'.distinctKeys i = keys}) numHashKeys
      functions done batch where
  updates i kind vector hfunction hvector :=
    (h.updates batch (List.mem_append_right _ List.mem_cons_self) i kind vector hfunction hvector).1
  alone i kind vector hfunction hvector :=
    (h.updates batch (List.mem_append_right _ List.mem_cons_self) i kind vector hfunction hvector).2
  adds i kind hfunction key := by
    obtain ⟨state, hstate⟩ := h.adds i kind hfunction key
    rw [List.append_cons, groupState, List.foldlM_append] at hstate
    obtain ⟨state', hstate', -⟩ := bind_eq_ok_iff.mp hstate
    exact ⟨state', hstate'⟩
  outlasts := h.outlasts done batch rest rfl
  equality := h.distinct_equality
  addsDistinct i kind hfunction taken hmem hnodup hkeys := by
    obtain ⟨state, hstate, hlasts⟩ := h.addsDistinct i kind hfunction taken hmem hnodup hkeys
    refine ⟨state, hstate, fun hresets ↦ hlasts ⟨batch, ?_, hresets⟩⟩
    exact List.mem_append_right _ List.mem_cons_self
  pair_mem i kind _ := ⟨batch, List.mem_append_right _ List.mem_cons_self, rfl⟩
  room i kind hfunction := by
    refine le_trans ?_ (h.room i kind hfunction)
    apply List.Subperm.length_le
    apply (List.nodup_dedup _).subperm
    intro pair hpair
    rw [List.mem_dedup] at hpair ⊢
    obtain ⟨batch', hmem, rfl⟩ := List.mem_map.mp hpair
    apply List.mem_map_of_mem
    rw [List.append_cons]
    exact List.mem_append_left _ hmem

/-- All batches are added. -/
theorem exists_aggregates
    (hadm : ∀ batch ∈ batches, batch.Admitted numHashKeys numNonHashKeys functions)
    (hmeets : MeetsAll keyOps canon ops numHashKeys functions batches) :
    ∃ t states, batches.foldlM (append keyOps)
        (create (functions.map fun function ↦ function.1.getFunction ops function.2)) = .ok t ∧
      Aggregates keyOps canon {keys | ∃ batch ∈ batches, ∃ row ∈ batch.rows,
        batch.rowKeys row = keys}
        (fun i ↦ {keys | ∃ batch ∈ batches, batch.distinctKeys i = keys}) numHashKeys numNonHashKeys
        functions ops batches t states := by
  obtain ⟨t, hloop, states, haggregates⟩ := @exists_foldlM_eq_ok ExecutionFault (Batch V)
    (AggregateHashTable V) (append keyOps) batches
    (create (functions.map fun function ↦ function.1.getFunction ops function.2))
    (fun done t ↦ ∃ states, Aggregates keyOps canon
      {keys | ∃ batch ∈ batches, ∃ row ∈ batch.rows, batch.rowKeys row = keys}
      (fun i ↦ {keys | ∃ batch ∈ batches, batch.distinctKeys i = keys}) numHashKeys numNonHashKeys
      functions ops done t states)
    ⟨_, aggregates_create⟩
    (by
      rintro done batch rest t rfl ⟨states, haggregates⟩
      have hmem : batch ∈ done ++ batch :: rest := List.mem_append_right _ List.mem_cons_self
      obtain ⟨t', states', happend, haggregates'⟩ := haggregates.exists_append (hadm batch hmem)
        (fun _ hpos ↦ ⟨batch, hmem, (hadm batch hmem).exists_row hpos⟩) hmeets.equality hmeets.meets
      exact ⟨t', happend, states', haggregates'⟩)
  exact ⟨t, states, hloop, haggregates⟩

end Run

end AggregateHashTable

end Graphflow.Aggregate
