import Graphflow.Aggregate.AggregateHashTable
import Mathlib.Data.List.Perm.Lattice

/-!
# The slots of a batch

Each tuple of a batch ends at the slot of the entry with its keys.  After `k` rounds the tuples that
are still looked for have passed over `k` slots that hold entries with other keys.
-/

namespace Graphflow.Aggregate

open Lib Processor

variable {V : Type}

namespace AggregateHashTable

/-! ## Matching columns -/

section Columns

variable {matchesVec : ℕ → Except ExecutionFault Bool} {p : ℕ → Bool}
  {mayMatchIdxes noMatchIdxes : List ℕ}

theorem matchColumn_eq (hmatches : ∀ idx ∈ mayMatchIdxes, matchesVec idx = .ok (p idx)) :
    matchColumn matchesVec (mayMatchIdxes, noMatchIdxes) =
      .ok (mayMatchIdxes.filter p, noMatchIdxes ++ mayMatchIdxes.filter fun idx ↦ !p idx) := by
  have hloop : ∀ (idxes may no : List ℕ), (∀ idx ∈ idxes, matchesVec idx = .ok (p idx)) →
      idxes.foldlM (fun matched idx ↦ do
        if ← matchesVec idx then return (matched.1 ++ [idx], matched.2)
        else return (matched.1, matched.2 ++ [idx])) (may, no) =
      .ok (may ++ idxes.filter p, no ++ idxes.filter fun idx ↦ !p idx) := by
    intro idxes
    induction idxes with
    | nil => intro may no _; simp
    | cons idx idxes ih =>
        intro may no hidxes
        have hrest := fun may no ↦ ih may no fun idx' hmem ↦
          hidxes idx' (List.mem_cons_of_mem _ hmem)
        rw [List.foldlM_cons]
        simp only [hidxes idx List.mem_cons_self, ok_bind]
        cases hp : p idx with
        | true =>
            rw [if_pos rfl, pure_eq_ok, ok_bind, hrest, List.filter_cons_of_pos hp,
              List.filter_cons_of_neg (by simp [hp]), List.append_assoc, List.singleton_append]
        | false =>
            rw [if_neg Bool.false_ne_true, pure_eq_ok, ok_bind, hrest,
              List.filter_cons_of_neg (by simp [hp]), List.filter_cons_of_pos (by simp [hp]),
              List.append_assoc, List.singleton_append]
  have h := hloop mayMatchIdxes [] noMatchIdxes hmatches
  rwa [List.nil_append] at h

/-- A loop over columns: the tuples that match all of them stay. -/
theorem exists_foldlM_matchColumn {γ : Type} {cols : List γ}
    (m : γ → ℕ → Except ExecutionFault Bool)
    (q : γ → ℕ → Bool) {body : List ℕ × List ℕ → γ → Except ExecutionFault (List ℕ × List ℕ)}
    (hbody : ∀ idxes col, body idxes col = matchColumn (m col) idxes)
    (hmatches : ∀ col ∈ cols, ∀ idx ∈ mayMatchIdxes, m col idx = .ok (q col idx)) :
    ∃ no', cols.foldlM body (mayMatchIdxes, noMatchIdxes) =
        .ok (mayMatchIdxes.filter fun idx ↦ cols.all fun col ↦ q col idx, no') ∧
      no'.Perm (noMatchIdxes ++
        mayMatchIdxes.filter fun idx ↦ !cols.all fun col ↦ q col idx) := by
  induction cols generalizing mayMatchIdxes noMatchIdxes with
  | nil => exact ⟨noMatchIdxes, by simp, by simp⟩
  | cons col cols ih =>
      obtain ⟨no', hloop, hperm⟩ := @ih (mayMatchIdxes.filter (q col))
        (noMatchIdxes ++ mayMatchIdxes.filter fun idx ↦ !q col idx)
        fun col' hcol idx hidx ↦ hmatches col' (List.mem_cons_of_mem _ hcol) idx
          (List.mem_of_mem_filter hidx)
      refine ⟨no', ?_, hperm.trans ?_⟩
      · rw [List.foldlM_cons, hbody, matchColumn_eq (hmatches col List.mem_cons_self), ok_bind,
          hloop, List.filter_filter]
        simp only [List.all_cons, Bool.and_comm]
      · rw [List.append_assoc, List.filter_filter]
        apply List.Perm.append_left
        have hsplit := List.filter_append_perm (q col)
          (mayMatchIdxes.filter fun idx ↦ !(col :: cols).all fun col ↦ q col idx)
        refine List.Perm.trans ?_ hsplit
        rw [List.filter_filter, List.filter_filter]
        refine List.perm_append_comm.trans (List.Perm.append ?_ ?_)
        · apply List.Perm.of_eq
          apply List.filter_congr
          intro idx _
          cases hq : q col idx <;> simp [hq]
        · apply List.Perm.of_eq
          apply List.filter_congr
          intro idx _
          cases hq : q col idx <;> simp [hq]

end Columns

/-! ## Tables whose entries can be found -/

variable [DecidableEq V] {keyOps : KeyOperations V} {canon : V → V} {rows : Set (List (Option V))}
  {numHashKeys numNonHashKeys : ℕ} {functions : List (AggregateKind × Bool)} {batch : Batch V}
  {hashVector : HashVector} {t : AggregateHashTable V}

/-- The hash of the hash keys, which come first. -/
def hashOf (keyOps : KeyOperations V) (numHashKeys : ℕ) (keys : List (Option V)) : UInt64 :=
  keyOps.hashKeys (keys.take numHashKeys)

/-- The slots hold the entries, whose keys are all different. -/
structure Valid (keyOps : KeyOperations V) (canon : V → V) (rows : Set (List (Option V)))
    (numHashKeys numNonHashKeys : ℕ) (t : AggregateHashTable V) : Prop where
  holds : t.hashSlots.Holds (t.entries.map Entry.hash)
  nodup : (t.entries.map fun entry ↦ canonKeys canon entry.keys).Nodup
  mem_rows : ∀ entry ∈ t.entries, entry.keys ∈ rows
  length_eq : ∀ entry ∈ t.entries, entry.keys.length = numHashKeys + numNonHashKeys
  hash_eq : ∀ entry ∈ t.entries, entry.hash = hashOf keyOps numHashKeys entry.keys
  mayContainNulls : ∀ entry ∈ t.entries, ∀ colIdx : ℕ, entry.keys[colIdx]? = some none →
    t.mayContainNulls colIdx = true

/-- The keys of the entry in the slot of a position. -/
def keysAt (t : AggregateHashTable V) (pos : ℕ) : List (Option V) :=
  match t.entryAt pos with
  | .ok entry => entry.keys
  | .error _ => []

/-- The slot of a position has the entry with the keys. -/
def Finds (canon : V → V) (t : AggregateHashTable V) (pos : ℕ) (key : List (Option V)) : Prop :=
  ∃ entryIdx entry, t.entryIdxAt pos = .ok entryIdx ∧ t.entries[entryIdx]? = some entry ∧
    canonKeys canon entry.keys = key

theorem matchesKey_eq {colIdx : ℕ} {value entryKey : Option V}
    (hnull : entryKey = none → t.mayContainNulls colIdx = true)
    (hcompare : ∀ v v', value = some v → entryKey = some v' →
      keyOps.compare v v' = .ok (decide (canon v = canon v'))) :
    matchesKey keyOps t colIdx value entryKey =
      .ok (decide (value.map canon = entryKey.map canon)) := by
  cases value with
  | none =>
      cases entryKey with
      | none => simp [matchesKey, isEntryKeyNull, hnull rfl]
      | some v' => simp [matchesKey, isEntryKeyNull]
  | some v =>
      cases entryKey with
      | none => simp [matchesKey, isEntryKeyNull, hnull rfl]
      | some v' =>
          simp [matchesKey, isEntryKeyNull, compareEntryWithKeys, nonNull, hcompare v v' rfl rfl]

section Matching

variable {vector : ValueVector V} {colIdx idx : ℕ} {entry : Entry V} {mayMatchIdxes : List ℕ}

/-- The tuple may match the entry: their hashes are the same. -/
structure MayMatch (keyOps : KeyOperations V) (canon : V → V) (rows : Set (List (Option V)))
    (numHashKeys : ℕ) (batch : Batch V) (t : AggregateHashTable V) (idx : ℕ) : Prop where
  pos_mem : idx ∈ batch.keyPositions
  row_mem : batch.entryKeys idx ∈ rows
  exists_entry : ∃ entry ∈ t.entries, t.entryAt idx = .ok entry ∧
    hashOf keyOps numHashKeys (batch.entryKeys idx) = hashOf keyOps numHashKeys entry.keys

/-- Whether a tuple and the entry in its slot agree in a column. -/
def agrees (canon : V → V) (batch : Batch V) (t : AggregateHashTable V) (colIdx idx : ℕ) : Bool :=
  (batch.entryKeys idx)[colIdx]?.map (Option.map canon) =
    (t.keysAt idx)[colIdx]?.map (Option.map canon)

variable (h : t.Valid keyOps canon rows numHashKeys numNonHashKeys)
  (hequality : KeyEquality keyOps canon (hashOf keyOps numHashKeys) rows)
  (hadm : batch.Admitted numHashKeys numNonHashKeys functions)
  (hmay : MayMatch keyOps canon rows numHashKeys batch t idx)
  (hcol : batch.keyVectors[colIdx]? = some vector)

include h hequality hadm hmay hcol

theorem exists_entryKey :
    ∃ entry entryKey, t.entryAt idx = .ok entry ∧ entry.keys[colIdx]? = some entryKey ∧
      (entryKey = none → t.mayContainNulls colIdx = true) ∧
      (∀ v v', vector.valueFor batch.states idx = some v → entryKey = some v' →
        keyOps.compare v v' = .ok (decide (canon v = canon v'))) ∧
      agrees canon batch t colIdx idx = decide
        ((vector.valueFor batch.states idx).map canon = entryKey.map canon) := by
  obtain ⟨entry, hentry, hat, hhash⟩ := hmay.exists_entry
  have hvalue : (batch.entryKeys idx)[colIdx]? = some (vector.valueFor batch.states idx) := by
    rw [hadm.entryKeys_eq, List.getElem?_map, hcol, Option.map_some]
  have hlt : colIdx < entry.keys.length := by
    rw [h.length_eq entry hentry, ← hadm.length_entryKeys idx]
    exact (List.getElem?_eq_some_iff.mp hvalue).1
  have hkey : entry.keys[colIdx]? = some entry.keys[colIdx] := List.getElem?_eq_getElem hlt
  refine ⟨entry, entry.keys[colIdx], hat, hkey, ?_, ?_, ?_⟩
  · intro hnone
    exact h.mayContainNulls entry hentry colIdx (by rw [hkey, hnone])
  · intro v v' hv hv'
    exact hequality.compare_eq _ hmay.row_mem _ (h.mem_rows entry hentry) hhash colIdx v v'
      (by rw [hvalue, hv]) (by rw [hkey, hv'])
  · rw [agrees, hvalue, keysAt, hat]
    simp only [hkey, Option.map_some, Option.some.injEq]

theorem matchesFlatVec_eq (hflat : batch.isFlat vector = true) :
    matchesFlatVec keyOps batch t vector colIdx idx = .ok (agrees canon batch t colIdx idx) := by
  obtain ⟨entry, entryKey, hat, hkey, hnull, hcompare, hagrees⟩ :=
    exists_entryKey h hequality hadm hmay hcol
  rw [Batch.valueFor_of_isFlat hflat] at hcompare hagrees
  simp only [matchesFlatVec, hat, ok_bind, hkey, nonNull]
  rw [matchesKey_eq hnull hcompare, hagrees]

theorem matchesUnflatVec_eq (hflat : batch.isFlat vector = false) :
    matchesUnflatVec keyOps t vector colIdx idx = .ok (agrees canon batch t colIdx idx) := by
  obtain ⟨entry, entryKey, hat, hkey, hnull, hcompare, hagrees⟩ :=
    exists_entryKey h hequality hadm hmay hcol
  have hvector : vector ∈ batch.keyVectors := List.mem_of_getElem? hcol
  rw [Batch.valueFor_of_not_isFlat hflat] at hcompare hagrees
  simp only [matchesUnflatVec, hat, ok_bind, hkey, nonNull]
  cases hmayNull : vector.mayContainNulls with
  | true =>
      simp only [ValueVector.hasNoNullsGuarantee, hmayNull, Bool.not_true, Bool.false_eq_true,
        if_false]
      rw [matchesKey_eq hnull hcompare, hagrees]
  | false =>
      have hselected := hadm.mem_selectedPositions hvector hflat hmay.pos_mem
      have hsome := hadm.guarantees vector (List.mem_append_left _ hvector) hmayNull idx hselected
      obtain ⟨value, hvalue⟩ := Option.isSome_iff_exists.mp hsome
      rw [hvalue] at hcompare hagrees
      simp only [ValueVector.hasNoNullsGuarantee, hmayNull, Bool.not_false, if_true, hvalue]
      cases entryKey with
      | none => simp [hnull rfl, isEntryKeyNull, hagrees]
      | some value' =>
          have hequals : compareEntryWithKeys keyOps (some value) (some value') =
              .ok (agrees canon batch t colIdx idx) := by
            simp [compareEntryWithKeys, nonNull, hcompare value value' rfl rfl, hagrees]
          cases t.mayContainNulls colIdx with
          | true => simp [isEntryKeyNull, hequals]
          | false => simp [hequals]

omit hmay hcol in
/-- The tuples that match stay; the others are looked for in the next slots. -/
theorem exists_matchFTEntries (noMatchIdxes : List ℕ)
    (hmayMatch : ∀ idx ∈ mayMatchIdxes, MayMatch keyOps canon rows numHashKeys batch t idx) :
    ∃ no', matchFTEntries keyOps batch t mayMatchIdxes noMatchIdxes =
        .ok (mayMatchIdxes.filter fun idx ↦
          canonKeys canon (t.keysAt idx) = canonKeys canon (batch.entryKeys idx), no') ∧
      no'.Perm (noMatchIdxes ++ mayMatchIdxes.filter fun idx ↦
        !decide (canonKeys canon (t.keysAt idx) = canonKeys canon (batch.entryKeys idx))) := by
  let m : ValueVector V × ℕ → ℕ → Except ExecutionFault Bool := fun col idx ↦
    if batch.isFlat col.1 then matchesFlatVec keyOps batch t col.1 col.2 idx
    else matchesUnflatVec keyOps t col.1 col.2 idx
  have hbody : matchFTEntries keyOps batch t mayMatchIdxes noMatchIdxes =
      (batch.keyVectors.zipIdx 0).foldlM (fun idxes col ↦ matchColumn (m col) idxes)
        (mayMatchIdxes, noMatchIdxes) := by
    have hflat : ∀ col ∈ batch.groupByFlatHashKeyVectors.zipIdx 0, ∀ idxes,
        matchColumn (matchesFlatVec keyOps batch t col.1 col.2) idxes =
          matchColumn (m col) idxes := by
      intro col hmem idxes
      congr 1
      funext idx
      exact (if_pos (hadm.isFlat_of_mem _ (List.fst_mem_of_mem_zipIdx hmem))).symm
    have hunflat : ∀ col ∈ batch.groupByUnflatHashKeyVectors.zipIdx
        batch.groupByFlatHashKeyVectors.length, ∀ idxes,
        matchColumn (matchesUnflatVec keyOps t col.1 col.2) idxes = matchColumn (m col) idxes := by
      intro col hmem idxes
      congr 1
      funext idx
      have hno := (hadm.unflat_of_mem _ (List.fst_mem_of_mem_zipIdx hmem)).1
      exact (if_neg (Bool.eq_false_iff.mp hno)).symm
    rw [Batch.keyVectors, Batch.hashKeyVectors, List.zipIdx_append, List.zipIdx_append,
      List.foldlM_append, List.foldlM_append, Nat.zero_add, Nat.zero_add, List.length_append,
      ← foldlM_congr hflat]
    rw [matchFTEntries, bind_assoc]
    congr 1
    funext idxes
    rw [← foldlM_congr hunflat]
    congr 1
    funext idxes
    apply foldlM_congr
    rintro ⟨vector, colIdx⟩ _ idxes
    cases hvector : batch.isFlat vector with
    | true => simp [m, hvector]
    | false => simp [m, hvector]
  have hmatches : ∀ col ∈ batch.keyVectors.zipIdx 0, ∀ idx ∈ mayMatchIdxes,
      m col idx = .ok (agrees canon batch t col.2 idx) := by
    rintro ⟨vector, colIdx⟩ hmem idx hidx
    have hcol := List.mk_mem_zipIdx_iff_getElem?.mp hmem
    cases hvector : batch.isFlat vector with
    | true =>
        simp only [m, hvector, if_true]
        exact matchesFlatVec_eq h hequality hadm (hmayMatch idx hidx) hcol hvector
    | false =>
        simp only [m, hvector, Bool.false_eq_true, if_false]
        exact matchesUnflatVec_eq h hequality hadm (hmayMatch idx hidx) hcol hvector
  have hall : ∀ idx ∈ mayMatchIdxes,
      ((batch.keyVectors.zipIdx 0).all fun col ↦ agrees canon batch t col.2 idx) =
        decide (canonKeys canon (t.keysAt idx) = canonKeys canon (batch.entryKeys idx)) := by
    intro idx hidx
    obtain ⟨entry, hentry, hat, -⟩ := (hmayMatch idx hidx).exists_entry
    have hkeysAt : t.keysAt idx = entry.keys := by rw [keysAt, hat]
    have hlength : (t.keysAt idx).length = batch.keyVectors.length := by
      rw [hkeysAt, h.length_eq entry hentry, ← hadm.length_entryKeys idx, hadm.entryKeys_eq,
        List.length_map]
    rw [eq_comm, Bool.eq_iff_iff, decide_eq_true_iff, List.all_eq_true]
    constructor
    · rintro hcanon ⟨vector, colIdx⟩ -
      have hget := congrArg (fun keys ↦ keys[colIdx]?) hcanon
      simp only [canonKeys, List.getElem?_map] at hget
      simp only [agrees, hget, decide_true]
    · intro hagree
      apply List.ext_getElem?
      intro colIdx
      rw [canonKeys, canonKeys, List.getElem?_map, List.getElem?_map]
      rcases Nat.lt_or_ge colIdx batch.keyVectors.length with hlt | hge
      · have hcol := hagree (batch.keyVectors[colIdx], colIdx)
          (List.mk_mem_zipIdx_iff_getElem?.mpr (List.getElem?_eq_getElem hlt))
        exact (decide_eq_true_iff.mp hcol).symm
      · rw [List.getElem?_eq_none (by rw [hlength]; exact hge), List.getElem?_eq_none (by
          rw [hadm.entryKeys_eq, List.length_map]
          exact hge)]
  obtain ⟨no', hloop, hperm⟩ := exists_foldlM_matchColumn m
    (fun col idx ↦ agrees canon batch t col.2 idx) (fun _ _ ↦ rfl) hmatches
  refine ⟨no', ?_, hperm.trans (List.Perm.append_left _ (List.Perm.of_eq ?_))⟩
  · rw [hbody, hloop, List.filter_congr hall]
  · exact List.filter_congr fun idx hidx ↦ by rw [hall idx hidx]

end Matching

/-! ## A round -/

/-- The tuples of a batch with their hashes. -/
structure Hashed (keyOps : KeyOperations V) (rows : Set (List (Option V)))
    (numHashKeys numNonHashKeys : ℕ) (functions : List (AggregateKind × Bool)) (batch : Batch V)
    (hashVector : HashVector) : Prop where
  admitted : batch.Admitted numHashKeys numNonHashKeys functions
  state_eq : hashVector.state = batch.hashState
  hash_eq : ∀ idx ∈ batch.keyPositions,
    hashVector.values idx = hashOf keyOps numHashKeys (batch.entryKeys idx)
  row_mem : ∀ idx ∈ batch.keyPositions, batch.entryKeys idx ∈ rows

def newEntry (batch : Batch V) (hashVector : HashVector) (t : AggregateHashTable V) (idx : ℕ) :
    Entry V where
  keys := batch.entryKeys idx
  states := t.aggregateFunctions.map AggregateFunction.initialNullAggregateState
  hash := hashVector.values idx

/-- The table with new entries, for which these are the slots. -/
def withNewEntries (batch : Batch V) (hashVector : HashVector) (t : AggregateHashTable V)
    (hashSlots : HashSlots) (idxes : List ℕ) : AggregateHashTable V :=
  { t with
    entries := t.entries ++ idxes.map (newEntry batch hashVector t)
    hashSlots := hashSlots
    mayContainNulls := idxes.foldl (fun mayContainNulls idx colIdx ↦
      mayContainNulls colIdx || (batch.entryKeys idx)[colIdx]?.any Option.isNone)
        t.mayContainNulls }

/-- A tuple has passed over `k` slots with other entries. -/
structure Seeks (keyOps : KeyOperations V) (canon : V → V) (numHashKeys : ℕ) (batch : Batch V)
    (t : AggregateHashTable V) (k idx : ℕ) : Prop where
  slotIdx_eq : t.hashSlotsToUpdateAggState idx = some (probe t.hashSlots.maxNumHashSlots
    (t.hashSlots.getSlotIdxForHash (hashOf keyOps numHashKeys (batch.entryKeys idx))) k)
  passes : ∀ d < k, ∃ entryIdx entry, t.hashSlots.entryAt (probe t.hashSlots.maxNumHashSlots
      (t.hashSlots.getSlotIdxForHash (hashOf keyOps numHashKeys (batch.entryKeys idx))) d) =
        some entryIdx ∧ t.entries[entryIdx]? = some entry ∧
    canonKeys canon entry.keys ≠ canonKeys canon (batch.entryKeys idx)

/-- The tuples `done` of a round have been looked at. -/
structure Looked (keyOps : KeyOperations V) (canon : V → V) (rows : Set (List (Option V)))
    (numHashKeys numNonHashKeys : ℕ) (batch : Batch V) (hashVector : HashVector)
    (t : AggregateHashTable V) (done : List ℕ) (round : Round V) : Prop where
  table_eq : round.table = { t with
    entries := t.entries ++ List.replicate round.entryIdxesToInitialize.length {}
    hashSlots := round.table.hashSlots }
  maxNumHashSlots_eq : round.table.hashSlots.maxNumHashSlots = t.hashSlots.maxNumHashSlots
  valid : (withNewEntries batch hashVector t round.table.hashSlots
    round.entryIdxesToInitialize).Valid keyOps canon rows numHashKeys numNonHashKeys
  keeps : ∀ slotIdx entryIdx, t.hashSlots.entryAt slotIdx = some entryIdx →
    round.table.hashSlots.entryAt slotIdx = some entryIdx
  initialize_slot : ∀ (j idx : ℕ), round.entryIdxesToInitialize[j]? = some idx →
    ∃ slotIdx, t.hashSlotsToUpdateAggState idx = some slotIdx ∧
      round.table.hashSlots.entryAt slotIdx = some (t.entries.length + j)
  mayMatch : ∀ idx ∈ round.mayMatchIdxes, ∃ slotIdx entryIdx entry,
    t.hashSlotsToUpdateAggState idx = some slotIdx ∧
      round.table.hashSlots.entryAt slotIdx = some entryIdx ∧
      (t.entries ++ round.entryIdxesToInitialize.map (newEntry batch hashVector t))[entryIdx]? =
        some entry ∧ entry.hash = hashVector.values idx
  noMatch : ∀ idx ∈ round.noMatchIdxes, ∃ slotIdx entryIdx entry,
    t.hashSlotsToUpdateAggState idx = some slotIdx ∧
      round.table.hashSlots.entryAt slotIdx = some entryIdx ∧
      (t.entries ++ round.entryIdxesToInitialize.map (newEntry batch hashVector t))[entryIdx]? =
        some entry ∧ canonKeys canon entry.keys ≠ canonKeys canon (batch.entryKeys idx)
  perm : (round.entryIdxesToInitialize ++ round.mayMatchIdxes ++ round.noMatchIdxes).Perm done

omit [DecidableEq V] in
/-- A table with one more entry. -/
theorem Valid.addEntry (h : t.Valid keyOps canon rows numHashKeys numNonHashKeys) (entry : Entry V)
    (hashSlots : HashSlots) (mayContainNulls : ℕ → Bool)
    (hholds : hashSlots.Holds (t.entries.map Entry.hash ++ [entry.hash]))
    (hnew : canonKeys canon entry.keys ∉ t.entries.map fun entry ↦ canonKeys canon entry.keys)
    (hrow : entry.keys ∈ rows) (hlength : entry.keys.length = numHashKeys + numNonHashKeys)
    (hhash : entry.hash = hashOf keyOps numHashKeys entry.keys)
    (hold : ∀ colIdx, t.mayContainNulls colIdx = true → mayContainNulls colIdx = true)
    (hnull : ∀ colIdx : ℕ, entry.keys[colIdx]? = some none → mayContainNulls colIdx = true) :
    Valid keyOps canon rows numHashKeys numNonHashKeys { t with
      entries := t.entries ++ [entry]
      hashSlots := hashSlots
      mayContainNulls := mayContainNulls } where
  holds := by rwa [List.map_append, List.map_singleton]
  nodup := by
    rw [List.map_append, List.map_singleton]
    exact h.nodup.append (List.nodup_singleton _) (List.disjoint_singleton.mpr hnew)
  mem_rows entry' hmem := by
    rcases List.mem_append.mp hmem with hmem | hmem
    · exact h.mem_rows entry' hmem
    · rwa [List.mem_singleton.mp hmem]
  length_eq entry' hmem := by
    rcases List.mem_append.mp hmem with hmem | hmem
    · exact h.length_eq entry' hmem
    · rwa [List.mem_singleton.mp hmem]
  hash_eq entry' hmem := by
    rcases List.mem_append.mp hmem with hmem | hmem
    · exact h.hash_eq entry' hmem
    · rwa [List.mem_singleton.mp hmem]
  mayContainNulls entry' hmem colIdx hnone := by
    rcases List.mem_append.mp hmem with hmem | hmem
    · exact hold colIdx (h.mayContainNulls entry' hmem colIdx hnone)
    · rw [List.mem_singleton.mp hmem] at hnone
      exact hnull colIdx hnone

section Round

variable {round : Round V} {done : List ℕ} {k idx : ℕ}
  (hequality : KeyEquality keyOps canon (hashOf keyOps numHashKeys) rows)
  (hhashed : Hashed keyOps rows numHashKeys numNonHashKeys functions batch hashVector)

include hequality hhashed

/-- An entry with the keys of a tuple is not behind a free slot. -/
theorem Looked.not_mem_of_entryAt_eq_none (h : Looked keyOps canon rows numHashKeys numNonHashKeys
      batch hashVector t done round)
    (hseeks : Seeks keyOps canon numHashKeys batch t k idx) (hidx : idx ∈ batch.keyPositions)
    (hnone : round.table.hashSlots.entryAt (probe round.table.hashSlots.maxNumHashSlots
      (round.table.hashSlots.getSlotIdxForHash (hashVector.values idx)) k) = none) :
    canonKeys canon (batch.entryKeys idx) ∉ (t.entries ++ round.entryIdxesToInitialize.map
      (newEntry batch hashVector t)).map fun entry ↦ canonKeys canon entry.keys := by
  have hhash := hhashed.hash_eq idx hidx
  have hprobed := h.valid.holds.probed
  simp only [withNewEntries] at hprobed
  intro hmem
  obtain ⟨entry, hentry, hcanon⟩ := List.mem_map.mp hmem
  obtain ⟨entryIdx, hget⟩ := List.mem_iff_getElem?.mp hentry
  have hlt : entryIdx < ((t.entries ++ round.entryIdxesToInitialize.map
      (newEntry batch hashVector t)).map Entry.hash).length := by
    rw [List.length_map]
    exact (List.getElem?_eq_some_iff.mp hget).1
  have hsame : entry.hash = hashVector.values idx := by
    rw [hhash, h.valid.hash_eq entry hentry]
    exact hequality.hash_eq _ (h.valid.mem_rows entry hentry) _ (hhashed.row_mem idx hidx) hcanon
  have hhome : round.table.hashSlots.homeOf ((t.entries ++ round.entryIdxesToInitialize.map
      (newEntry batch hashVector t)).map Entry.hash) entryIdx =
        round.table.hashSlots.getSlotIdxForHash (hashVector.values idx) := by
    rw [HashSlots.homeOf, List.getD_eq_getElem?_getD, List.getElem?_map, hget, Option.map_some,
      Option.getD_some, hsame]
  obtain ⟨d, hd, hslot⟩ := @Probed.exists_passed _ _ k _ _ _ hprobed hlt
    (by rw [hhome]; exact hnone)
  obtain ⟨entryIdx', entry', hold, hget', hother⟩ := hseeks.passes d hd
  have hnow := h.keeps _ _ hold
  rw [← hhash, ← h.maxNumHashSlots_eq, show t.hashSlots.getSlotIdxForHash (hashVector.values idx) =
    round.table.hashSlots.getSlotIdxForHash (hashVector.values idx) by
      rw [HashSlots.getSlotIdxForHash, HashSlots.getSlotIdxForHash, h.maxNumHashSlots_eq]] at hnow
  rw [hhome, hnow, Option.some.injEq] at hslot
  subst hslot
  rw [List.getElem?_append_left (List.getElem?_eq_some_iff.mp hget').1, hget',
    Option.some.injEq] at hget
  rw [hget] at hother
  exact hother hcanon

theorem Looked.lookAtSlot (h : Looked keyOps canon rows numHashKeys numNonHashKeys batch hashVector
      t done round)
    (hseeks : Seeks keyOps canon numHashKeys batch t k idx) (hidx : idx ∈ batch.keyPositions)
    (hroom : t.entries.length + done.length < t.hashSlots.maxNumHashSlots) :
    ∃ round', lookAtSlot hashVector round idx = .ok round' ∧
      Looked keyOps canon rows numHashKeys numNonHashKeys batch hashVector t (done ++ [idx])
        round' := by
  have hhash := hhashed.hash_eq idx hidx
  have hrow := hhashed.row_mem idx hidx
  have hslotIdx := hseeks.slotIdx_eq
  have hpasses := hseeks.passes
  rw [← h.maxNumHashSlots_eq] at hroom
  have hhome : t.hashSlots.getSlotIdxForHash (hashOf keyOps numHashKeys (batch.entryKeys idx)) =
      round.table.hashSlots.getSlotIdxForHash (hashVector.values idx) := by
    rw [hhash, HashSlots.getSlotIdxForHash, HashSlots.getSlotIdxForHash, h.maxNumHashSlots_eq]
  rw [hhome, ← h.maxNumHashSlots_eq] at hslotIdx hpasses
  have hpos : 0 < round.table.hashSlots.maxNumHashSlots := Nat.zero_lt_of_lt hroom
  set slotIdx := probe round.table.hashSlots.maxNumHashSlots
    (round.table.hashSlots.getSlotIdxForHash (hashVector.values idx)) k with hslotIdx_def
  have hpointer : round.table.hashSlotsToUpdateAggState idx = some slotIdx := by
    rw [h.table_eq]
    exact hslotIdx
  have hlength : round.entryIdxesToInitialize.length ≤ done.length := by
    have hperm := h.perm.length_eq
    rw [List.length_append, List.length_append] at hperm
    omega
  have hentries : ∀ entryIdx, entryIdx < t.entries.length → (t.entries ++
      round.entryIdxesToInitialize.map (newEntry batch hashVector t))[entryIdx]? =
        t.entries[entryIdx]? := fun entryIdx hlt ↦ List.getElem?_append_left hlt
  have hprobed := h.valid.holds.probed
  have hslotHash := h.valid.holds.hash_eq slotIdx (probe_lt hpos _ _)
  simp only [withNewEntries] at hprobed hslotHash
  cases hentryAt : round.table.hashSlots.entryAt slotIdx with
  | none =>
      have hslot : (round.table.hashSlots.slots slotIdx).entry = none := hentryAt
      have hpassesOver : PassesOver round.table.hashSlots.maxNumHashSlots
          round.table.hashSlots.entryAt
            (round.table.hashSlots.getSlotIdxForHash (hashVector.values idx)) k := by
        intro d hd
        obtain ⟨entryIdx, entry, hold, -, -⟩ := hpasses d hd
        rw [h.keeps _ _ hold]
        rfl
      have hcount : (round.entryIdxesToInitialize.map (newEntry batch hashVector t)).length =
          round.entryIdxesToInitialize.length := List.length_map _
      have hfree : ((t.entries ++ round.entryIdxesToInitialize.map
          (newEntry batch hashVector t)).map Entry.hash).length <
            round.table.hashSlots.maxNumHashSlots := by
        rw [List.length_map, List.length_append, hcount]
        omega
      have hk := hprobed.lt_of_passesOver hfree hpassesOver
      have hnew := h.not_mem_of_entryAt_eq_none hequality hhashed hseeks hidx hentryAt
      have hholds := h.valid.holds.setSlot hk hentryAt hpassesOver
      have htableLength : round.table.entries.length = ((t.entries ++
          round.entryIdxesToInitialize.map (newEntry batch hashVector t)).map
            Entry.hash).length := by
        rw [h.table_eq, List.length_append, List.length_replicate, List.length_map,
          List.length_append, hcount]
      simp only [withNewEntries] at hholds
      rw [← htableLength] at hholds
      have hkeeps : ∀ slotIdx' entryIdx, round.table.hashSlots.entryAt slotIdx' = some entryIdx →
          (round.table.hashSlots.setSlot slotIdx
            ⟨hashVector.values idx, some round.table.entries.length⟩).entryAt slotIdx' =
              some entryIdx := by
        intro slotIdx' entryIdx hold
        rw [HashSlots.entryAt_setSlot, Function.update_of_ne, hold]
        rintro rfl
        rw [hentryAt] at hold
        cases hold
      have hgrow : ∀ (entryIdx : ℕ) (entry : Entry V), (t.entries ++
          round.entryIdxesToInitialize.map (newEntry batch hashVector t))[entryIdx]? = some entry →
          (t.entries ++ (round.entryIdxesToInitialize ++ [idx]).map
            (newEntry batch hashVector t))[entryIdx]? = some entry := by
        intro entryIdx entry hget
        rw [List.map_append, ← List.append_assoc,
          List.getElem?_append_left (List.getElem?_eq_some_iff.mp hget).1, hget]
      refine ⟨{ round with
        entryIdxesToInitialize := round.entryIdxesToInitialize ++ [idx]
        table := { round.table with
          entries := round.table.entries ++ [{}]
          hashSlots := round.table.hashSlots.setSlot slotIdx
            ⟨hashVector.values idx, some round.table.entries.length⟩ } }, ?_, ?_⟩
      · simp [AggregateHashTable.lookAtSlot, hpointer, nonNull, hslot]
      · constructor
        · have hrest : ∀ entries hashSlots, ({ round.table with
              entries := entries
              hashSlots := hashSlots } : AggregateHashTable V) =
                { t with entries := entries, hashSlots := hashSlots } := by
            intro entries hashSlots
            rw [h.table_eq]
          simp only [hrest]
          rw [show round.table.entries = t.entries ++
            List.replicate round.entryIdxesToInitialize.length {} by rw [h.table_eq],
            show (round.entryIdxesToInitialize ++ [idx]).length =
              round.entryIdxesToInitialize.length + 1 from List.length_append,
            List.replicate_succ', List.append_assoc]
        · exact h.maxNumHashSlots_eq
        · have hvalid := h.valid.addEntry (newEntry batch hashVector t idx) _
            (fun colIdx ↦ (withNewEntries batch hashVector t
              round.table.hashSlots round.entryIdxesToInitialize).mayContainNulls colIdx ||
                (batch.entryKeys idx)[colIdx]?.any Option.isNone)
            hholds hnew hrow (hhashed.admitted.length_entryKeys idx) hhash
            (fun colIdx hold ↦ by rw [hold, Bool.true_or]) fun colIdx hnone ↦ by
              rw [show (batch.entryKeys idx)[colIdx]? = some none from hnone]
              simp
          rw [withNewEntries, List.map_append, List.foldl_append, ← List.append_assoc]
          exact hvalid
        · exact fun slotIdx' entryIdx hold ↦ hkeeps _ _ (h.keeps _ _ hold)
        · intro j idx' hget
          rcases Nat.lt_or_ge j round.entryIdxesToInitialize.length with hlt | hge
          · rw [List.getElem?_append_left hlt] at hget
            obtain ⟨slotIdx', hslot', hentryAt'⟩ := h.initialize_slot j idx' hget
            exact ⟨slotIdx', hslot', hkeeps _ _ hentryAt'⟩
          · rw [List.getElem?_append_right hge, List.getElem?_singleton] at hget
            split_ifs at hget with hzero
            obtain rfl := Option.some.inj hget
            refine ⟨slotIdx, hslotIdx, ?_⟩
            rw [HashSlots.entryAt_setSlot, Function.update_self, htableLength, List.length_map,
              List.length_append, hcount]
            exact congrArg some (by omega)
        · intro idx' hidx'
          obtain ⟨slotIdx', entryIdx, entry, hslot', hentryAt', hget, hsame⟩ :=
            h.mayMatch idx' hidx'
          exact ⟨slotIdx', entryIdx, entry, hslot', hkeeps _ _ hentryAt', hgrow _ _ hget, hsame⟩
        · intro idx' hidx'
          obtain ⟨slotIdx', entryIdx, entry, hslot', hentryAt', hget, hne⟩ := h.noMatch idx' hidx'
          exact ⟨slotIdx', entryIdx, entry, hslot', hkeeps _ _ hentryAt', hgrow _ _ hget, hne⟩
        · apply List.perm_iff_count.mpr
          intro pos
          have hperm := h.perm.count_eq pos
          simp only [List.count_append] at hperm ⊢
          omega
  | some entryIdx =>
      have hslot : (round.table.hashSlots.slots slotIdx).entry = some entryIdx := hentryAt
      have hlt := hprobed.lt slotIdx (probe_lt hpos _ _) entryIdx hentryAt
      rw [List.length_map] at hlt
      obtain ⟨entry, hentry⟩ : ∃ entry, (t.entries ++ round.entryIdxesToInitialize.map
          (newEntry batch hashVector t))[entryIdx]? = some entry :=
        ⟨_, List.getElem?_eq_getElem hlt⟩
      have hentryHash : (round.table.hashSlots.slots slotIdx).hash = entry.hash := by
        rw [hslotHash entryIdx hentryAt, List.getD_eq_getElem?_getD, List.getElem?_map, hentry,
          Option.map_some, Option.getD_some]
      have hmem : entry ∈ t.entries ++ round.entryIdxesToInitialize.map
          (newEntry batch hashVector t) := List.mem_of_getElem? hentry
      by_cases hsame : entry.hash = hashVector.values idx
      · refine ⟨{ round with mayMatchIdxes := round.mayMatchIdxes ++ [idx] }, ?_, ?_⟩
        · simp [AggregateHashTable.lookAtSlot, hpointer, nonNull, hslot, hentryHash, hsame]
        · refine { h with mayMatch := ?_, perm := ?_ }
          · intro idx' hidx'
            rcases List.mem_append.mp hidx' with hidx' | hidx'
            · exact h.mayMatch idx' hidx'
            · rw [List.mem_singleton.mp hidx']
              exact ⟨slotIdx, entryIdx, entry, hslotIdx, hentryAt, hentry, hsame⟩
          · apply List.perm_iff_count.mpr
            intro pos
            have hcount := h.perm.count_eq pos
            simp only [List.count_append] at hcount ⊢
            omega
      · have hother : canonKeys canon entry.keys ≠ canonKeys canon (batch.entryKeys idx) := by
          intro hcanon
          apply hsame
          rw [h.valid.hash_eq entry hmem, hhash]
          exact hequality.hash_eq _ (h.valid.mem_rows entry hmem) _ hrow hcanon
        refine ⟨{ round with noMatchIdxes := round.noMatchIdxes ++ [idx] }, ?_, ?_⟩
        · simp [AggregateHashTable.lookAtSlot, hpointer, nonNull, hslot, hentryHash, hsame]
        · refine { h with noMatch := ?_, perm := ?_ }
          · intro idx' hidx'
            rcases List.mem_append.mp hidx' with hidx' | hidx'
            · exact h.noMatch idx' hidx'
            · rw [List.mem_singleton.mp hidx']
              exact ⟨slotIdx, entryIdx, entry, hslotIdx, hentryAt, hentry, hother⟩
          · apply List.perm_iff_count.mpr
            intro pos
            have hcount := h.perm.count_eq pos
            simp only [List.count_append] at hcount ⊢
            omega

theorem exists_lookAtSlots {active : List ℕ}
    (hvalid : t.Valid keyOps canon rows numHashKeys numNonHashKeys)
    (hactive : ∀ idx ∈ active, idx ∈ batch.keyPositions)
    (hseeks : ∀ idx ∈ active, Seeks keyOps canon numHashKeys batch t k idx)
    (hroom : t.entries.length + active.length ≤ t.hashSlots.maxNumHashSlots) :
    ∃ round, active.foldlM (lookAtSlot hashVector) { table := t } = .ok round ∧
      Looked keyOps canon rows numHashKeys numNonHashKeys batch hashVector t active round := by
  refine exists_foldlM_eq_ok
    (Looked keyOps canon rows numHashKeys numNonHashKeys batch hashVector t) ?_ ?_
  · constructor
    · simp
    · rfl
    · simpa [withNewEntries] using hvalid
    · exact fun _ _ h ↦ h
    · intro j idx h
      cases h
    · exact fun _ h ↦ absurd h List.not_mem_nil
    · exact fun _ h ↦ absurd h List.not_mem_nil
    · rfl
  · intro done idx rest round hsplit hlooked
    have hmem : idx ∈ active := by
      rw [hsplit]
      exact List.mem_append_right _ List.mem_cons_self
    have hlength := congrArg List.length hsplit
    rw [List.length_append, List.length_cons] at hlength
    exact hlooked.lookAtSlot hequality hhashed (hseeks idx hmem) (hactive idx hmem) (by omega)

end Round

section Phases

variable {round : Round V} {done : List ℕ} {pos slotIdx entryIdx : ℕ} {entry : Entry V}

omit [DecidableEq V] in
theorem entryIdxAt_eq (hpointer : t.hashSlotsToUpdateAggState pos = some slotIdx)
    (hslot : t.hashSlots.entryAt slotIdx = some entryIdx) : t.entryIdxAt pos = .ok entryIdx := by
  have hentry : (t.hashSlots.slots slotIdx).entry = some entryIdx := hslot
  simp [entryIdxAt, hpointer, nonNull, hentry]

omit [DecidableEq V] in
theorem exists_slot_of_entryIdxAt_eq_ok (h : t.entryIdxAt pos = .ok entryIdx) :
    ∃ slotIdx, t.hashSlotsToUpdateAggState pos = some slotIdx ∧
      t.hashSlots.entryAt slotIdx = some entryIdx := by
  cases hpointer : t.hashSlotsToUpdateAggState pos with
  | none => simp [entryIdxAt, hpointer, nonNull] at h
  | some slotIdx =>
      cases hentry : (t.hashSlots.slots slotIdx).entry with
      | none => simp [entryIdxAt, hpointer, nonNull, hentry] at h
      | some entryIdx' =>
          simp [entryIdxAt, hpointer, nonNull, hentry] at h
          exact ⟨slotIdx, rfl, by rw [HashSlots.entryAt, hentry, h]⟩

omit [DecidableEq V] in
theorem entryAt_eq (hpointer : t.hashSlotsToUpdateAggState pos = some slotIdx)
    (hslot : t.hashSlots.entryAt slotIdx = some entryIdx)
    (hget : t.entries[entryIdx]? = some entry) : t.entryAt pos = .ok entry := by
  rw [AggregateHashTable.entryAt, entryIdxAt_eq hpointer hslot, ok_bind, hget]
  rfl

omit [DecidableEq V] in
theorem Looked.initializeFTEntries_eq (h : Looked keyOps canon rows numHashKeys numNonHashKeys batch
      hashVector t done round) :
    initializeFTEntries batch hashVector round.table round.entryIdxesToInitialize =
      .ok (withNewEntries batch hashVector t round.table.hashSlots
        round.entryIdxesToInitialize) := by
  let state : List ℕ → AggregateHashTable V := fun idxes ↦
    { withNewEntries batch hashVector t round.table.hashSlots idxes with
      entries := t.entries ++ idxes.map (newEntry batch hashVector t) ++
        List.replicate (round.entryIdxesToInitialize.length - idxes.length) {} }
  have hstart : round.table = state [] := by
    rw [h.table_eq]
    simp [state, withNewEntries]
  have hend : withNewEntries batch hashVector t round.table.hashSlots
      round.entryIdxesToInitialize = state round.entryIdxesToInitialize := by
    simp [state, withNewEntries]
  have hslots : round.table.hashSlots = (state []).hashSlots := rfl
  rw [hend, initializeFTEntries]
  conv_lhs => rw [hstart]
  apply foldlM_eq_ok state
  intro idxes idx rest hsplit
  have hget : round.entryIdxesToInitialize[idxes.length]? = some idx := by
    rw [hsplit, List.getElem?_append_right (le_refl _), Nat.sub_self, List.getElem?_cons_zero]
  obtain ⟨slotIdx, hpointer, hslot⟩ := h.initialize_slot _ _ hget
  have hat : (state idxes).entryIdxAt idx = .ok (t.entries.length + idxes.length) :=
    entryIdxAt_eq hpointer hslot
  have hlength : round.entryIdxesToInitialize.length - idxes.length =
      round.entryIdxesToInitialize.length - (idxes ++ [idx]).length + 1 := by
    have hsplit' := congrArg List.length hsplit
    rw [List.length_append, List.length_cons] at hsplit'
    rw [List.length_append, List.length_singleton]
    omega
  have hset : (state idxes).entries.set (t.entries.length + idxes.length)
      (newEntry batch hashVector t idx) = (state (idxes ++ [idx])).entries := by
    have hbefore : (t.entries ++ idxes.map (newEntry batch hashVector t)).length =
        t.entries.length + idxes.length := by rw [List.length_append, List.length_map]
    simp only [state]
    rw [hlength, List.replicate_succ, List.set_append_right _ _ hbefore.le, hbefore, Nat.sub_self,
      List.set_cons_zero, List.map_append, List.map_singleton]
    simp only [List.append_assoc, List.singleton_append]
  rw [initializeFTEntry, hat, ok_bind, pure_eq_ok]
  refine congrArg Except.ok ?_
  change { state idxes with
    entries := (state idxes).entries.set (t.entries.length + idxes.length)
      (newEntry batch hashVector t idx)
    mayContainNulls := fun colIdx ↦ (state idxes).mayContainNulls colIdx ||
      (batch.entryKeys idx)[colIdx]?.any Option.isNone } = state (idxes ++ [idx])
  rw [hset]
  simp [state, withNewEntries, List.foldl_append]

omit [DecidableEq V] in
theorem increaseHashSlotIdxes_eq {noMatchIdxes : List ℕ} (hnodup : noMatchIdxes.Nodup)
    (hpointer : ∀ idx ∈ noMatchIdxes, (t.hashSlotsToUpdateAggState idx).isSome = true) :
    t.increaseHashSlotIdxes noMatchIdxes = .ok { t with
      hashSlotsToUpdateAggState := fun idx ↦
        if idx ∈ noMatchIdxes then (t.hashSlotsToUpdateAggState idx).map t.hashSlots.increaseSlotIdx
        else t.hashSlotsToUpdateAggState idx } := by
  let state : List ℕ → AggregateHashTable V := fun idxes ↦ { t with
    hashSlotsToUpdateAggState := fun idx ↦
      if idx ∈ idxes then (t.hashSlotsToUpdateAggState idx).map t.hashSlots.increaseSlotIdx
      else t.hashSlotsToUpdateAggState idx }
  have hstart : t = state [] := by simp [state]
  rw [increaseHashSlotIdxes]
  conv_lhs => rw [hstart]
  apply foldlM_eq_ok state
  intro idxes idx rest hsplit
  obtain ⟨slotIdx, hslotIdx⟩ := Option.isSome_iff_exists.mp (hpointer idx (by
    rw [hsplit]
    exact List.mem_append_right _ List.mem_cons_self))
  have hnot : idx ∉ idxes := by
    rw [hsplit, List.nodup_append] at hnodup
    exact fun hmem ↦ hnodup.2.2 idx hmem idx List.mem_cons_self rfl
  have hold : (state idxes).hashSlotsToUpdateAggState idx = some slotIdx := by
    simp [state, hnot, hslotIdx]
  rw [hold, nonNull, ok_bind, pure_eq_ok]
  refine congrArg Except.ok ?_
  simp only [setHashSlotToUpdate, state]
  congr 1
  funext idx'
  by_cases heq : idx' = idx
  · subst heq
    simp [hslotIdx]
  · simp [heq]

end Phases

/-! ## All rounds -/

/-- The table has grown by entries of tuples; nothing else of it has changed. -/
structure Grows (batch : Batch V) (hashVector : HashVector) (t t' : AggregateHashTable V)
    (idxes : List ℕ) : Prop where
  pos_mem : ∀ idx ∈ idxes, idx ∈ batch.keyPositions
  entries_eq : t'.entries = t.entries ++ idxes.map (newEntry batch hashVector t)
  aggregateFunctions_eq : t'.aggregateFunctions = t.aggregateFunctions
  distinctHashTables_eq : t'.distinctHashTables = t.distinctHashTables
  maxNumHashSlots_eq : t'.hashSlots.maxNumHashSlots = t.hashSlots.maxNumHashSlots

omit [DecidableEq V] in
theorem Grows.trans {t t' t'' : AggregateHashTable V} {idxes idxes' : List ℕ}
    (h : Grows batch hashVector t t' idxes) (h' : Grows batch hashVector t' t'' idxes') :
    Grows batch hashVector t t'' (idxes ++ idxes') where
  pos_mem idx hidx := (List.mem_append.mp hidx).elim (h.pos_mem idx) (h'.pos_mem idx)
  entries_eq := by
    have hsame : newEntry batch hashVector t' = newEntry batch hashVector t := by
      funext idx
      rw [newEntry, newEntry, h.aggregateFunctions_eq]
    rw [h'.entries_eq, h.entries_eq, hsame, List.map_append, List.append_assoc]
  aggregateFunctions_eq := h'.aggregateFunctions_eq.trans h.aggregateFunctions_eq
  distinctHashTables_eq := h'.distinctHashTables_eq.trans h.distinctHashTables_eq
  maxNumHashSlots_eq := h'.maxNumHashSlots_eq.trans h.maxNumHashSlots_eq

/-- After `k` rounds the tuples of `active` are still looked for. -/
structure Seeking (keyOps : KeyOperations V) (canon : V → V) (rows : Set (List (Option V)))
    (numHashKeys numNonHashKeys : ℕ) (batch : Batch V) (t : AggregateHashTable V)
    (active : List ℕ) (k : ℕ) : Prop where
  valid : t.Valid keyOps canon rows numHashKeys numNonHashKeys
  nodup : active.Nodup
  pos_mem : ∀ idx ∈ active, idx ∈ batch.keyPositions
  seeks : ∀ idx ∈ active, Seeks keyOps canon numHashKeys batch t k idx
  finds : ∀ idx ∈ batch.keyPositions, idx ∉ active →
    Finds canon t idx (canonKeys canon (batch.entryKeys idx))
  room : t.entries.length + active.length ≤ t.hashSlots.maxNumHashSlots

section Rounds

variable {active : List ℕ} {k : ℕ}
  (hequality : KeyEquality keyOps canon (hashOf keyOps numHashKeys) rows)
  (hhashed : Hashed keyOps rows numHashKeys numNonHashKeys functions batch hashVector)

omit [DecidableEq V] in
theorem Seeking.lt_maxNumHashSlots (h : Seeking keyOps canon rows numHashKeys numNonHashKeys batch t
    active k) (hactive : active ≠ []) : k < t.hashSlots.maxNumHashSlots := by
  obtain ⟨idx, hidx⟩ := List.exists_mem_of_ne_nil active hactive
  have hpasses : PassesOver t.hashSlots.maxNumHashSlots t.hashSlots.entryAt
      (t.hashSlots.getSlotIdxForHash (hashOf keyOps numHashKeys (batch.entryKeys idx))) k := by
    intro d hd
    obtain ⟨entryIdx, -, hslot, -, -⟩ := (h.seeks idx hidx).passes d hd
    rw [hslot]
    rfl
  have hroom := h.room
  have hlength := List.length_pos_of_mem hidx
  exact h.valid.holds.probed.lt_of_passesOver (by rw [List.length_map]; omega) hpasses

include hequality hhashed

theorem Seeking.exists_findHashSlotsTurn
    (h : Seeking keyOps canon rows numHashKeys numNonHashKeys batch t active k) :
    ∃ t' active' idxes, findHashSlotsTurn keyOps batch hashVector (t, active) = .ok (t', active') ∧
      Seeking keyOps canon rows numHashKeys numNonHashKeys batch t' active' (k + 1) ∧
      Grows batch hashVector t t' idxes := by
  obtain ⟨round, hlook, hlooked⟩ :=
    exists_lookAtSlots hequality hhashed h.valid h.pos_mem h.seeks h.room
  have hinit := hlooked.initializeFTEntries_eq
  have hvalid := hlooked.valid
  set t₁ := withNewEntries batch hashVector t round.table.hashSlots round.entryIdxesToInitialize
    with ht₁
  have hsplit : ∀ idx, idx ∈ active ↔ idx ∈ round.entryIdxesToInitialize ∨
      idx ∈ round.mayMatchIdxes ∨ idx ∈ round.noMatchIdxes := by
    intro idx
    rw [← hlooked.perm.mem_iff, List.mem_append, List.mem_append, or_assoc]
  have hentryAt : ∀ idx ∈ round.mayMatchIdxes, ∃ entry ∈ t₁.entries,
      t₁.entryAt idx = .ok entry ∧ entry.hash = hashVector.values idx := by
    intro idx hidx
    obtain ⟨slotIdx, entryIdx, entry, hpointer, hslot, hget, hhash⟩ := hlooked.mayMatch idx hidx
    exact ⟨entry, List.mem_of_getElem? hget, entryAt_eq hpointer hslot hget, hhash⟩
  have hmay : ∀ idx ∈ round.mayMatchIdxes,
      MayMatch keyOps canon rows numHashKeys batch t₁ idx := by
    intro idx hidx
    have hpos := h.pos_mem idx ((hsplit idx).mpr (Or.inr (Or.inl hidx)))
    obtain ⟨entry, hmem, hat, hhash⟩ := hentryAt idx hidx
    refine ⟨hpos, hhashed.row_mem idx hpos, entry, hmem, hat, ?_⟩
    rw [← hhashed.hash_eq idx hpos, ← hhash, hvalid.hash_eq entry hmem]
  obtain ⟨no', hmatch, hperm⟩ :=
    exists_matchFTEntries hvalid hequality hhashed.admitted round.noMatchIdxes hmay
  have hno : ∀ idx, idx ∈ no' ↔ idx ∈ round.noMatchIdxes ∨ idx ∈ round.mayMatchIdxes ∧
      canonKeys canon (t₁.keysAt idx) ≠ canonKeys canon (batch.entryKeys idx) := by
    intro idx
    rw [hperm.mem_iff, List.mem_append, List.mem_filter, Bool.not_eq_true', decide_eq_false_iff_not]
  have hnoActive : ∀ idx ∈ no', idx ∈ active := by
    intro idx hidx
    rcases (hno idx).mp hidx with hidx | ⟨hidx, -⟩
    · exact (hsplit idx).mpr (Or.inr (Or.inr hidx))
    · exact (hsplit idx).mpr (Or.inr (Or.inl hidx))
  have hparts := hlooked.perm.nodup_iff.mpr h.nodup
  rw [List.nodup_append, List.nodup_append] at hparts
  obtain ⟨⟨-, hmayNodup, -⟩, hnoNodup, hapart⟩ := hparts
  have hnodup : no'.Nodup := by
    rw [hperm.nodup_iff, List.nodup_append]
    refine ⟨hnoNodup, hmayNodup.filter _, ?_⟩
    intro idx hidx idx' hidx' heq
    exact hapart idx' (List.mem_append_right _ (List.mem_of_mem_filter hidx')) idx hidx heq.symm
  have hmax : t₁.hashSlots.maxNumHashSlots = t.hashSlots.maxNumHashSlots :=
    hlooked.maxNumHashSlots_eq
  have hhome : t₁.hashSlots.getSlotIdxForHash = t.hashSlots.getSlotIdxForHash := by
    funext hash
    rw [HashSlots.getSlotIdxForHash, HashSlots.getSlotIdxForHash, hmax]
  have hincrease := increaseHashSlotIdxes_eq (t := t₁) hnodup fun idx hidx ↦ by
    rw [show t₁.hashSlotsToUpdateAggState idx = t.hashSlotsToUpdateAggState idx from rfl,
      (h.seeks idx (hnoActive idx hidx)).slotIdx_eq]
    rfl
  set t₂ : AggregateHashTable V := { t₁ with
    hashSlotsToUpdateAggState := fun idx ↦
      if idx ∈ no' then (t₁.hashSlotsToUpdateAggState idx).map t₁.hashSlots.increaseSlotIdx
      else t₁.hashSlotsToUpdateAggState idx } with ht₂
  have hkeepsEntry : ∀ (entryIdx : ℕ) (entry : Entry V), t.entries[entryIdx]? = some entry →
      t₁.entries[entryIdx]? = some entry := by
    intro entryIdx entry hget
    rw [ht₁, withNewEntries, List.getElem?_append_left (List.getElem?_eq_some_iff.mp hget).1, hget]
  have hfinds : ∀ (idx slotIdx entryIdx : ℕ) (entry : Entry V), idx ∉ no' →
      t.hashSlotsToUpdateAggState idx = some slotIdx →
      t₁.hashSlots.entryAt slotIdx = some entryIdx → t₁.entries[entryIdx]? = some entry →
      Finds canon t₂ idx (canonKeys canon entry.keys) := by
    intro idx slotIdx entryIdx entry hidx hpointer hslot hget
    refine ⟨entryIdx, entry, entryIdxAt_eq ?_ hslot, hget, rfl⟩
    rw [ht₂]
    simp only [hidx, if_false]
    exact hpointer
  refine ⟨t₂, no', round.entryIdxesToInitialize, ?_, ?_, ?_⟩
  · simp only [findHashSlotsTurn, hlook, ok_bind, hinit, hmatch, hincrease, pure_eq_ok]
  · constructor
    · exact ⟨hvalid.holds, hvalid.nodup, hvalid.mem_rows, hvalid.length_eq, hvalid.hash_eq,
        hvalid.mayContainNulls⟩
    · exact hnodup
    · exact fun idx hidx ↦ h.pos_mem idx (hnoActive idx hidx)
    · intro idx hidx
      have hseeks := h.seeks idx (hnoActive idx hidx)
      have hpos : 0 < t.hashSlots.maxNumHashSlots := Nat.zero_lt_of_lt
        (h.lt_maxNumHashSlots (List.ne_nil_of_mem (hnoActive idx hidx)))
      constructor
      · rw [show t₂.hashSlotsToUpdateAggState idx =
            (t₁.hashSlotsToUpdateAggState idx).map t₁.hashSlots.increaseSlotIdx from if_pos hidx,
          show t₁.hashSlotsToUpdateAggState idx = t.hashSlotsToUpdateAggState idx from rfl,
          hseeks.slotIdx_eq, Option.map_some, show t₂.hashSlots = t₁.hashSlots from rfl, hhome,
          hmax, ← hmax, HashSlots.increaseSlotIdx_probe (by rw [hmax]; exact hpos)]
      · intro d hd
        rw [show t₂.hashSlots = t₁.hashSlots from rfl, hhome, hmax]
        rcases Nat.lt_succ_iff_lt_or_eq.mp hd with hlt | rfl
        · obtain ⟨entryIdx, entry, hslot, hget, hne⟩ := hseeks.passes d hlt
          exact ⟨entryIdx, entry, hlooked.keeps _ _ hslot, hkeepsEntry _ _ hget, hne⟩
        · rcases (hno idx).mp hidx with hidx' | ⟨hidx', hne⟩
          · obtain ⟨slotIdx, entryIdx, entry, hpointer, hslot, hget, hne⟩ :=
              hlooked.noMatch idx hidx'
            rw [hseeks.slotIdx_eq, Option.some.injEq] at hpointer
            exact ⟨entryIdx, entry, hpointer ▸ hslot, hget, hne⟩
          · obtain ⟨slotIdx, entryIdx, entry, hpointer, hslot, hget, -⟩ :=
              hlooked.mayMatch idx hidx'
            rw [keysAt, entryAt_eq (t := t₁) hpointer hslot hget] at hne
            rw [hseeks.slotIdx_eq, Option.some.injEq] at hpointer
            exact ⟨entryIdx, entry, hpointer ▸ hslot, hget, hne⟩
    · intro idx hidx hnot
      by_cases hactive : idx ∈ active
      · rcases (hsplit idx).mp hactive with hnew | hmay' | hno'
        · obtain ⟨j, hj⟩ := List.mem_iff_getElem?.mp hnew
          obtain ⟨slotIdx, hpointer, hslot⟩ := hlooked.initialize_slot j idx hj
          refine hfinds idx slotIdx _ (newEntry batch hashVector t idx) hnot hpointer hslot ?_
          rw [ht₁, withNewEntries, List.getElem?_append_right (Nat.le_add_right _ _),
            Nat.add_sub_cancel_left, List.getElem?_map, hj, Option.map_some]
        · obtain ⟨slotIdx, entryIdx, entry, hpointer, hslot, hget, -⟩ := hlooked.mayMatch idx hmay'
          have hcanon : canonKeys canon (t₁.keysAt idx) =
              canonKeys canon (batch.entryKeys idx) := by
            by_contra hne
            exact hnot ((hno idx).mpr (Or.inr ⟨hmay', hne⟩))
          rw [keysAt, entryAt_eq (t := t₁) hpointer hslot hget] at hcanon
          rw [← hcanon]
          exact hfinds idx slotIdx entryIdx entry hnot hpointer hslot hget
        · exact absurd ((hno idx).mpr (Or.inl hno')) hnot
      · obtain ⟨entryIdx, entry, hat, hget, hcanon⟩ := h.finds idx hidx hactive
        obtain ⟨slotIdx, hpointer, hslot⟩ := exists_slot_of_entryIdxAt_eq_ok hat
        rw [← hcanon]
        exact hfinds idx slotIdx entryIdx entry hnot hpointer (hlooked.keeps _ _ hslot)
          (hkeepsEntry _ _ hget)
    · have hroom := h.room
      have hlength := hlooked.perm.length_eq
      have hnoLength := hperm.length_eq
      have hfilter := List.length_filter_le (fun idx ↦ !decide (canonKeys canon (t₁.keysAt idx) =
        canonKeys canon (batch.entryKeys idx))) round.mayMatchIdxes
      rw [List.length_append, List.length_append] at hlength
      rw [List.length_append] at hnoLength
      rw [show t₂.hashSlots = t₁.hashSlots from rfl, hmax, show t₂.entries = t.entries ++
        round.entryIdxesToInitialize.map (newEntry batch hashVector t) from rfl,
        List.length_append, List.length_map]
      omega
  · exact ⟨fun idx hidx ↦ h.pos_mem idx ((hsplit idx).mpr (Or.inl hidx)), rfl, rfl, rfl, hmax⟩

omit hequality [DecidableEq V] in
theorem tmpValueIdxes_eq : tmpValueIdxes batch.states hashVector = batch.keyPositions := by
  rw [tmpValueIdxes, hhashed.state_eq, Batch.keyPositions, DataChunkState.positions_eq]

omit hequality [DecidableEq V] in
theorem initTmpHashSlotsAndIdxes_eq :
    t.initTmpHashSlotsAndIdxes batch.states hashVector = { t with
      hashSlotsToUpdateAggState := fun pos ↦
        if pos ∈ batch.keyPositions then
          some (t.hashSlots.getSlotIdxForHash (hashVector.values pos))
        else t.hashSlotsToUpdateAggState pos } := by
  rw [initTmpHashSlotsAndIdxes, tmpValueIdxes_eq hhashed]
  generalize batch.keyPositions = positions
  induction positions using List.reverseRecOn with
  | nil => simp
  | append_singleton positions pos ih =>
      rw [List.foldl_append, ih]
      simp only [List.foldl_cons, List.foldl_nil, setHashSlotToUpdate]
      congr 1
      funext pos'
      by_cases heq : pos' = pos
      · simp [heq]
      · simp [heq]

/-- Each tuple of the batch ends at the slot of the entry with its keys. -/
theorem exists_findHashSlots (hvalid : t.Valid keyOps canon rows numHashKeys numNonHashKeys)
    (hroom : t.entries.length + batch.keyPositions.length ≤ t.hashSlots.maxNumHashSlots) :
    ∃ t' idxes, findHashSlots keyOps batch hashVector t = .ok t' ∧
      t'.Valid keyOps canon rows numHashKeys numNonHashKeys ∧ Grows batch hashVector t t' idxes ∧
      ∀ idx ∈ batch.keyPositions, Finds canon t' idx (canonKeys canon (batch.entryKeys idx)) := by
  set t₁ := t.initTmpHashSlotsAndIdxes batch.states hashVector with ht₁
  have hinit := initTmpHashSlotsAndIdxes_eq hhashed (t := t)
  rw [← ht₁] at hinit
  have hslots : t₁.hashSlots = t.hashSlots := by rw [hinit]
  have hstart : Seeking keyOps canon rows numHashKeys numNonHashKeys batch t₁ batch.keyPositions
      0 := by
    constructor
    · rw [hinit]
      exact ⟨hvalid.holds, hvalid.nodup, hvalid.mem_rows, hvalid.length_eq, hvalid.hash_eq,
        hvalid.mayContainNulls⟩
    · exact batch.nodup_keyPositions
    · exact fun _ hidx ↦ hidx
    · intro idx hidx
      have hpos : 0 < t.hashSlots.maxNumHashSlots := by
        have hlength := List.length_pos_of_mem hidx
        omega
      refine ⟨?_, fun d hd ↦ absurd hd (Nat.not_lt_zero d)⟩
      rw [hslots, probe_zero (HashSlots.getSlotIdxForHash_lt hpos _), hinit,
        ← hhashed.hash_eq idx hidx]
      exact if_pos hidx
    · exact fun idx hidx hnot ↦ absurd hidx hnot
    · rw [hslots, show t₁.entries = t.entries by rw [hinit]]
      exact hroom
  have hgrows : Grows batch hashVector t t₁ [] := by
    rw [hinit]
    exact ⟨fun _ h ↦ absurd h List.not_mem_nil, by simp, rfl, rfl, rfl⟩
  obtain ⟨-, ⟨t', active⟩, hloop, ⟨k, idxes, -, hseeking, hgrows'⟩, hend⟩ := @exists_whileLoop_eq_ok
    ExecutionFault (AggregateHashTable V × List ℕ) (fun s ↦ !s.2.isEmpty)
    (findHashSlotsTurn keyOps batch hashVector) .diverges (t₁, batch.keyPositions)
    t₁.hashSlots.maxNumHashSlots t₁.hashSlots.maxNumHashSlots
    (fun n s ↦ ∃ k idxes, n = t₁.hashSlots.maxNumHashSlots - k ∧
      Seeking keyOps canon rows numHashKeys numNonHashKeys batch s.1 s.2 k ∧
      Grows batch hashVector t s.1 idxes)
    (by
      rintro n ⟨t', active⟩ ⟨k, idxes, rfl, hseeking, hgrows'⟩ hactive
      obtain ⟨t'', active', idxes', hturn, hseeking', hgrows''⟩ :=
        hseeking.exists_findHashSlotsTurn hequality hhashed
      have hlt := hseeking.lt_maxNumHashSlots (by simpa using hactive)
      rw [hgrows'.maxNumHashSlots_eq] at hlt
      rw [hslots]
      exact ⟨_, (t'', active'), by omega, hturn, k + 1, idxes ++ idxes', rfl, hseeking',
        hgrows'.trans hgrows''⟩)
    ⟨0, [], rfl, hstart, hgrows⟩ le_rfl
  obtain rfl : active = [] := by simpa using hend
  refine ⟨t', idxes, ?_, hseeking.valid, hgrows', fun idx hidx ↦
    hseeking.finds idx hidx List.not_mem_nil⟩
  have htake : (tmpValueIdxes batch.states hashVector).take batch.numEntriesToFindHashSlots =
      batch.keyPositions := by
    rw [tmpValueIdxes_eq hhashed, hhashed.admitted.numEntriesToFindHashSlots_eq, List.take_length]
  rw [findHashSlots, ← ht₁, htake, hloop]
  rfl

end Rounds

end AggregateHashTable

end Graphflow.Aggregate
