import Graphflow.Aggregate.Append

/-!
# Aggregation is grouping

The tuples of all batches, grouped by their keys.
-/

namespace Graphflow.Aggregate

open Lib Processor Storage

namespace AggregateHashTable

variable {V : Type} [DecidableEq V] {keyOps : KeyOperations V} {canon : V → V}
  {numHashKeys numNonHashKeys : ℕ} {functions : List (AggregateKind × Bool)}
  {ops : ValueOperations V}

/-- An entry for each group, with the states that the values of the group's tuples give. -/
structure Groups (canon : V → V) (ops : ValueOperations V)
    (functions : List (AggregateKind × Bool)) (batches : List (Batch V))
    (t : AggregateHashTable V) : Prop where
  nodup : (t.groupKeys canon).Nodup
  mem_groupKeys : ∀ key, key ∈ t.groupKeys canon ↔ key ∈ groupsOf canon batches
  states_eq : ∀ entry ∈ t.entries, ∀ (i : ℕ) (kind : AggregateKind),
    functions[i]? = some (kind, false) → ∃ state,
      groupState canon ops kind i batches (canonKeys canon entry.keys) = .ok state ∧
        entry.states[i]? = some state

/-- The table of a thread. -/
def createFor (ops : ValueOperations V) (functions : List (AggregateKind × Bool)) :
    AggregateHashTable V :=
  create (functions.map fun function ↦ function.1.getFunction ops function.2)

/-- Any batches are grouped if their functions can take them. -/
theorem append_groups (batches : List (Batch V))
    (hadm : ∀ batch ∈ batches, batch.Admitted numHashKeys numNonHashKeys functions)
    (hmeets : MeetsAll keyOps canon ops numHashKeys functions batches) :
    ∃ t, batches.foldlM (append keyOps) (createFor ops functions) = .ok t ∧
      t.Groups canon ops functions batches := by
  obtain ⟨t, states, hloop, h⟩ := @exists_aggregates V _ keyOps canon numHashKeys
    numNonHashKeys functions ops batches hadm hmeets
  refine ⟨t, hloop, h.valid.nodup, h.mem_groupKeys, fun entry hentry i kind hfunction ↦ ?_⟩
  have hi : i < functions.length := (List.getElem?_eq_some_iff.mp hfunction).1
  exact ⟨_, h.states_of.states_eq i kind hfunction _, h.states_are entry hentry i hi⟩

/-! ## Sums of numbers -/

section Numbers

/-- The numbers as keys. -/
def numberKeys : KeyOperations ℕ where
  hash := UInt64.ofNat
  compare a b := .ok (decide (a = b))

def numberOperations : ValueOperations ℕ where
  add a b := .ok (a + b)
  lessThan a b := .ok (decide (a < b))
  greaterThan a b := .ok (decide (b < a))
  inOverflowBuffer _ := false
  lessThan_self v := by simp
  greaterThan_self v := by simp

/-- Two tuples, of which one may be the current one. -/
def twoTuples (currIdx : Option ℕ) (hcurr : ∀ i ∈ currIdx, i < 2) : DataChunkState where
  selVector := .unfiltered 2 (by decide)
  currIdx := currIdx
  currIdx_lt := hcurr

/-- A flat key beside unflat values of which one is null. -/
def flatKeyBatch (currIdx : ℕ) (hcurr : currIdx < 2) (key value : ℕ) : Batch ℕ where
  states chunk :=
    if chunk = 0 then twoTuples (some currIdx) fun _ hmem ↦ Option.mem_some.mp hmem ▸ hcurr
    else twoTuples none fun i hmem ↦ absurd hmem (Option.not_mem_none i)
  groupByFlatHashKeyVectors := [⟨0, fun _ ↦ some key, false⟩]
  groupByUnflatHashKeyVectors := []
  groupByNonHashKeyVectors := []
  aggregateVectors := [some ⟨1, fun pos ↦ if pos = 0 then some value else none, true⟩]
  multiplicity := 1
  resetsOverflowBuffer _ := true

theorem admitted_flatKeyBatch (currIdx : ℕ) (hcurr : currIdx < 2) (key value : ℕ) :
    (flatKeyBatch currIdx hcurr key value).Admitted 1 0 [(.sum, false)] where
  isFlat_of_mem := by simp [flatKeyBatch, Batch.isFlat, twoTuples, DataChunkState.isFlat]
  unflat_of_mem := by simp [flatKeyBatch]
  nonHash_of_mem := by simp [flatKeyBatch]
  numHashKeys_pos := Nat.one_pos
  length_hashKeyVectors := rfl
  length_nonHash := rfl
  guarantees := by
    simp [flatKeyBatch, Batch.vectors, Batch.keyVectors, Batch.hashKeyVectors,
      ValueVector.Guarantees]
  aggregateVectors := rfl
  distinct i kind hfunction := by
    cases i with
    | zero => cases hfunction
    | succ i => simp at hfunction
  multiplicity_pos := Nat.one_pos
  selectedSize_pos state _ := by
    simp only [flatKeyBatch]
    split_ifs
    · exact Nat.two_pos
    · exact Nat.two_pos

theorem keyEquality_numberKeys (hashOf : List (Option ℕ) → UInt64) (rows : Set (List (Option ℕ))) :
    KeyEquality numberKeys id hashOf rows where
  hash_eq keys _ keys' _ hkeys := by
    have hid : ∀ keys : List (Option ℕ), canonKeys id keys = keys := fun keys ↦ by
      rw [canonKeys, Option.map_id, List.map_id]
    rw [hid, hid] at hkeys
    rw [hkeys]
  compare_eq _ _ _ _ _ _ _ _ _ _ := rfl

/-- No sum of the tuples throws. -/
theorem exists_groupState_flatKeyBatch (group : List (Option ℕ)) :
    ∃ state, groupState id numberOperations .sum 0 [flatKeyBatch 0 (by decide) 5 10] group =
      .ok state := by
  by_cases hgroup : group = [some 5]
  · subst hgroup
    exact ⟨{ isNull := false, val := some 10 }, by decide +kernel⟩
  · refine ⟨_, groupState_of_not_mem fun hmem ↦ hgroup ?_⟩
    obtain ⟨batch, hbatch, row, -, rfl⟩ := hmem
    rw [List.mem_singleton.mp hbatch]
    rfl

theorem meetsAll_flatKeyBatch :
    MeetsAll numberKeys id numberOperations 1 [(.sum, false)]
      [flatKeyBatch 0 (by decide) 5 10] where
  equality := keyEquality_numberKeys _ _
  updates batch hbatch i kind vector hfunction hvector := by
    rw [List.mem_singleton.mp hbatch]
    constructor
    · intro pos hpos _
      refine ⟨fun _ ↦ by simp [flatKeyBatch], fun _ _ _ _ _ ↦ ?_⟩
      exact List.mem_singleton.mp hpos
    · intro state hstate halone
      obtain ⟨⟨v, hv, -, rfl⟩, -⟩ := Batch.mem_otherStates.mp hstate
      rw [List.mem_singleton.mp hbatch] at hvector
      cases i with
      | zero =>
          obtain rfl : v = _ := List.mem_singleton.mp hv
          exact absurd rfl (halone _ (Option.some.inj hvector).symm)
      | succ i => simp [flatKeyBatch] at hvector
  adds i kind hfunction group := by
    cases i with
    | zero =>
        obtain rfl : AggregateKind.sum = kind := congrArg Prod.fst (Option.some.inj hfunction)
        exact exists_groupState_flatKeyBatch group
    | succ i => simp at hfunction
  outlasts _ _ _ _ _ _ _ _ _ state _ := by
    cases state.val <;> rfl
  addsDistinct i kind hfunction := by
    cases i with
    | zero => cases hfunction
    | succ i => simp at hfunction
  distinct_equality i kind hfunction := keyEquality_numberKeys _ _
  room i kind hfunction := by
    cases i with
    | zero => cases hfunction
    | succ i => simp at hfunction

theorem append_groups_flatKeyBatch :
    ∃ t, [flatKeyBatch 0 (by decide) 5 10].foldlM (append numberKeys)
        (createFor numberOperations [(.sum, false)]) = .ok t ∧
      t.Groups id numberOperations [(.sum, false)] [flatKeyBatch 0 (by decide) 5 10] :=
  @append_groups ℕ _ numberKeys id 1 0 _ numberOperations _
    (by simpa using admitted_flatKeyBatch 0 (by decide) 5 10) meetsAll_flatKeyBatch

/-- Of two flat keys at the positions `0` and `1` the first gets the values of both. -/
theorem append_flatKeyBatch_not_groups :
    (∀ batch ∈ [flatKeyBatch 0 (by decide) 5 10, flatKeyBatch 1 (by decide) 7 20],
        batch.Admitted 1 0 [(.sum, false)]) ∧
      (∀ (hashOf : List (Option ℕ) → UInt64) (rows : Set (List (Option ℕ))),
        KeyEquality numberKeys id hashOf rows) ∧
      ¬ ∃ t, [flatKeyBatch 0 (by decide) 5 10, flatKeyBatch 1 (by decide) 7 20].foldlM
          (append numberKeys) (createFor numberOperations [(.sum, false)]) = .ok t ∧
        t.Groups id numberOperations [(.sum, false)]
          [flatKeyBatch 0 (by decide) 5 10, flatKeyBatch 1 (by decide) 7 20] := by
  refine ⟨?_, keyEquality_numberKeys, ?_⟩
  · simp only [List.forall_mem_cons]
    exact ⟨admitted_flatKeyBatch 0 (by decide) 5 10,
      admitted_flatKeyBatch 1 (by decide) 7 20, by simp⟩
  · rintro ⟨t, hloop, hgroups⟩
    have hentries : (([flatKeyBatch 0 (by decide) 5 10, flatKeyBatch 1 (by decide) 7 20].foldlM
        (append numberKeys) (createFor numberOperations [(.sum, false)])).map fun t ↦
          t.entries[1]?.map fun entry ↦ (entry.keys, entry.states)) =
        .ok (some ([some 7], [({} : AggregateState ℕ)])) := by
      decide +kernel
    rw [hloop, Except.map, Except.ok.injEq] at hentries
    obtain ⟨entry, hentry, hpair⟩ := Option.map_eq_some_iff.mp hentries
    obtain ⟨hkeys, hstates⟩ := Prod.mk.inj hpair
    obtain ⟨state, hgroup, hstate⟩ :=
      hgroups.states_eq entry (List.mem_of_getElem? hentry) 0 .sum rfl
    rw [hstates, List.getElem?_cons_zero, Option.some.injEq] at hstate
    rw [hkeys, ← hstate] at hgroup
    revert hgroup
    decide +kernel

end Numbers

end AggregateHashTable

end Graphflow.Aggregate
