import Graphflow.Aggregate.Batch
import Graphflow.Aggregate.HashSlots

/-!
# The hash table of a `DISTINCT` function

The table has the values of the function together with the keys of their groups.  It does not grow.
-/

namespace Graphflow.Aggregate

open Lib Processor

variable {V : Type}

/-- A pointer that points to nothing must not be followed. -/
def nonNull {α : Type} (pointer : Option α) : Except ExecutionFault α :=
  match pointer with
  | some x => .ok x
  | none => .error .invalidAccess

structure DistinctHashTable (V : Type) where
  hashSlots : HashSlots
  entries : List (List (Option V)) := []

namespace DistinctHashTable

def create : DistinctHashTable V := { hashSlots := .empty HashSlots.numHashSlotsPerBlock }

/-- A null matches a null only. -/
def matchFlatGroupByKeys (keyOps : KeyOperations V) :
    List (Option V) → List (Option V) → Except ExecutionFault Bool
  | [], _ => .ok true
  | _ :: _, [] => .error .invalidAccess
  | none :: keys, none :: entry => matchFlatGroupByKeys keyOps keys entry
  | none :: _, some _ :: _ => .ok false
  | some _ :: _, none :: _ => .ok false
  | some value :: keys, some entryKey :: entry => do
      if ← keyOps.compare value entryKey then matchFlatGroupByKeys keyOps keys entry
      else return false

/-- A search that has been to every slot goes on for ever. -/
def findEntryFrom (keyOps : KeyOperations V) (t : DistinctHashTable V) (keys : List (Option V))
    (hash : UInt64) : ℕ → ℕ → Except ExecutionFault (Option ℕ)
  | 0, _ => .error .diverges
  | fuel + 1, slotIdx =>
      match (t.hashSlots.slots slotIdx).entry with
      | none => .ok none
      | some entryIdx => do
          if (t.hashSlots.slots slotIdx).hash = hash then
            if ← matchFlatGroupByKeys keyOps keys (← nonNull t.entries[entryIdx]?) then
              return some entryIdx
          findEntryFrom keyOps t keys hash fuel (t.hashSlots.increaseSlotIdx slotIdx)

def findEntryInDistinctHT (keyOps : KeyOperations V) (t : DistinctHashTable V)
    (keys : List (Option V)) (hash : UInt64) : Except ExecutionFault (Option ℕ) :=
  findEntryFrom keyOps t keys hash t.hashSlots.maxNumHashSlots (t.hashSlots.getSlotIdxForHash hash)

def createEntryInDistinctHT (t : DistinctHashTable V) (keys : List (Option V)) (hash : UInt64) :
    Except ExecutionFault (DistinctHashTable V) := do
  let hashSlots ← t.hashSlots.fillHashSlot hash t.entries.length
  return ⟨hashSlots, t.entries ++ [keys]⟩

/-- The hash is that of the value, since the combined one is dropped. -/
def isAggregateValueDistinctForGroupByKeys (keyOps : KeyOperations V) (t : DistinctHashTable V)
    (keys : List (Option V)) (value : Option V) :
    Except ExecutionFault (DistinctHashTable V × Bool) := do
  let distinctKeys := keys ++ [value]
  let hash := keyOps.hashKey value
  match ← findEntryInDistinctHT keyOps t distinctKeys hash with
  | some _ => return (t, false)
  | none => return (← t.createEntryInDistinctHT distinctKeys hash, true)

/-! ## What the table finds -/

variable [DecidableEq V] {keyOps : KeyOperations V} {canon : V → V} {rows : Set (List (Option V))}
  {t : DistinctHashTable V} {keys entry : List (Option V)} {value : Option V}

/-- The hash of the last key. -/
def hashOf (keyOps : KeyOperations V) (keys : List (Option V)) : UInt64 :=
  keyOps.hashKey keys.getLast?.join

theorem matchFlatGroupByKeys_eq (hlength : keys.length = entry.length)
    (hcompare : ∀ (colIdx : ℕ) (value value' : V), keys[colIdx]? = some (some value) →
      entry[colIdx]? = some (some value') →
      keyOps.compare value value' = .ok (decide (canon value = canon value'))) :
    matchFlatGroupByKeys keyOps keys entry =
      .ok (decide (canonKeys canon keys = canonKeys canon entry)) := by
  induction keys generalizing entry with
  | nil =>
      obtain rfl := List.length_eq_zero_iff.mp hlength.symm
      rw [matchFlatGroupByKeys, decide_eq_true rfl]
  | cons key keys ih =>
      obtain ⟨entryKey, entry, rfl⟩ := List.exists_cons_of_length_eq_add_one hlength.symm
      have hrest := ih (Nat.succ.inj hlength) fun colIdx ↦ hcompare (colIdx + 1)
      cases key with
      | none =>
          cases entryKey with
          | none =>
              rw [matchFlatGroupByKeys, hrest]
              exact congrArg Except.ok (decide_eq_decide.mpr (by simp [canonKeys]))
          | some value' => simp [matchFlatGroupByKeys, canonKeys]
      | some value =>
          cases entryKey with
          | none => simp [matchFlatGroupByKeys, canonKeys]
          | some value' =>
              rw [matchFlatGroupByKeys, hcompare 0 value value' rfl rfl, ok_bind, hrest]
              by_cases heq : canon value = canon value'
              · rw [if_pos (decide_eq_true heq)]
                exact congrArg Except.ok (decide_eq_decide.mpr (by simp [canonKeys, heq]))
              · rw [if_neg (by simpa using heq)]
                simp [canonKeys, heq]

/-- The slots hold the entries, whose keys are all different and of the same number. -/
structure Valid (keyOps : KeyOperations V) (canon : V → V) (rows : Set (List (Option V)))
    (numKeys : ℕ) (t : DistinctHashTable V) : Prop where
  holds : t.hashSlots.Holds (t.entries.map (hashOf keyOps))
  nodup : (t.entries.map (canonKeys canon)).Nodup
  mem_rows : ∀ entry ∈ t.entries, entry ∈ rows
  length_eq : ∀ entry ∈ t.entries, entry.length = numKeys
  maxNumHashSlots_eq : t.hashSlots.maxNumHashSlots = HashSlots.numHashSlotsPerBlock

omit [DecidableEq V] in
theorem valid_create (numKeys : ℕ) :
    (create : DistinctHashTable V).Valid keyOps canon rows numKeys where
  holds := HashSlots.holds_empty _
  nodup := List.nodup_nil
  mem_rows _ h := absurd h List.not_mem_nil
  length_eq _ h := absurd h List.not_mem_nil
  maxNumHashSlots_eq := rfl

section Search

variable {numKeys d d₀ fuel : ℕ} {hash : UInt64}

/-- The slot holds an entry with other keys. -/
def Passes (canon : V → V) (t : DistinctHashTable V) (keys : List (Option V))
    (slotIdx : ℕ) : Prop :=
  ∃ i entry, t.hashSlots.entryAt slotIdx = some i ∧ t.entries[i]? = some entry ∧
    canonKeys canon entry ≠ canonKeys canon keys

namespace Valid

variable (h : t.Valid keyOps canon rows numKeys)
  (hequality : KeyEquality keyOps canon (hashOf keyOps) rows)
  (hrow : keys ∈ rows) (hlength : keys.length = numKeys)

include h

omit [DecidableEq V] in
theorem maxNumHashSlots_pos : 0 < t.hashSlots.maxNumHashSlots := by
  rw [h.maxNumHashSlots_eq]
  decide

omit [DecidableEq V] in
theorem hash_eq_of_entryAt {slotIdx i : ℕ} (hslotIdx : slotIdx < t.hashSlots.maxNumHashSlots)
    (hentryAt : t.hashSlots.entryAt slotIdx = some i) (hentry : t.entries[i]? = some entry) :
    (t.hashSlots.slots slotIdx).hash = hashOf keyOps entry := by
  rw [h.holds.hash_eq slotIdx hslotIdx i hentryAt, List.getD_eq_getElem?_getD, List.getElem?_map,
    hentry, Option.map_some, Option.getD_some]

omit [DecidableEq V] in
theorem exists_entry {slotIdx i : ℕ} (hslotIdx : slotIdx < t.hashSlots.maxNumHashSlots)
    (hentryAt : t.hashSlots.entryAt slotIdx = some i) : ∃ entry, t.entries[i]? = some entry := by
  have hlt := h.holds.probed.lt slotIdx hslotIdx i hentryAt
  rw [List.length_map] at hlt
  exact ⟨_, List.getElem?_eq_getElem hlt⟩

include hequality hrow hlength

/-- A slot that holds an entry is compared with the keys by their hashes first. -/
theorem findEntryFrom_of_entryAt {slotIdx i : ℕ} (hslotIdx : slotIdx < t.hashSlots.maxNumHashSlots)
    (hentryAt : t.hashSlots.entryAt slotIdx = some i) (hentry : t.entries[i]? = some entry) :
    findEntryFrom keyOps t keys (hashOf keyOps keys) (fuel + 1) slotIdx =
      if canonKeys canon entry = canonKeys canon keys then .ok (some i)
      else findEntryFrom keyOps t keys (hashOf keyOps keys) fuel
        (t.hashSlots.increaseSlotIdx slotIdx) := by
  have hslot : (t.hashSlots.slots slotIdx).entry = some i := hentryAt
  have hhash := h.hash_eq_of_entryAt hslotIdx hentryAt hentry
  have hmem := List.mem_of_getElem? hentry
  have hentryRow := h.mem_rows entry hmem
  rw [findEntryFrom, hslot]
  by_cases heq : hashOf keyOps entry = hashOf keyOps keys
  · have hmatch := matchFlatGroupByKeys_eq (hlength.trans (h.length_eq entry hmem).symm)
      (hequality.compare_eq keys hrow entry hentryRow heq.symm)
    simp only [hhash, heq, if_true, hentry, nonNull, ok_bind, hmatch]
    by_cases hcanon : canonKeys canon entry = canonKeys canon keys
    · simp [hcanon]
    · simp [hcanon, Ne.symm hcanon]
  · have hcanon : canonKeys canon entry ≠ canonKeys canon keys :=
      fun hcanon ↦ heq (hequality.hash_eq entry hentryRow keys hrow hcanon)
    simp [hhash, heq, hcanon]

/-- The search goes on over slots that hold other entries. -/
theorem findEntryFrom_of_passes (fuel : ℕ)
    (hpasses : ∀ d < d₀, Passes canon t keys (probe t.hashSlots.maxNumHashSlots
      (t.hashSlots.getSlotIdxForHash (hashOf keyOps keys)) d)) :
    findEntryFrom keyOps t keys (hashOf keyOps keys) (fuel + d₀)
        (t.hashSlots.getSlotIdxForHash (hashOf keyOps keys)) =
      findEntryFrom keyOps t keys (hashOf keyOps keys) fuel (probe t.hashSlots.maxNumHashSlots
        (t.hashSlots.getSlotIdxForHash (hashOf keyOps keys)) d₀) := by
  have hpos := h.maxNumHashSlots_pos
  induction d₀ generalizing fuel with
  | zero => rw [Nat.add_zero, probe_zero (HashSlots.getSlotIdxForHash_lt hpos _)]
  | succ d₀ ih =>
      obtain ⟨i, entry, hentryAt, hentry, hcanon⟩ := hpasses d₀ (Nat.lt_succ_self d₀)
      rw [show fuel + (d₀ + 1) = fuel + 1 + d₀ by omega,
        ih _ fun d hd ↦ hpasses d (Nat.lt_succ_of_lt hd),
        h.findEntryFrom_of_entryAt hequality hrow hlength (probe_lt hpos _ _) hentryAt hentry,
        if_neg hcanon, HashSlots.increaseSlotIdx_probe hpos]

/-- The search ends at the first slot that is free or holds an entry with the keys. -/
theorem findEntryInDistinctHT_cases :
    (∀ d < t.hashSlots.maxNumHashSlots, Passes canon t keys (probe t.hashSlots.maxNumHashSlots
        (t.hashSlots.getSlotIdxForHash (hashOf keyOps keys)) d)) ∧
      findEntryInDistinctHT keyOps t keys (hashOf keyOps keys) = .error .diverges ∨
    ∃ d < t.hashSlots.maxNumHashSlots,
      (∀ d' < d, Passes canon t keys (probe t.hashSlots.maxNumHashSlots
        (t.hashSlots.getSlotIdxForHash (hashOf keyOps keys)) d')) ∧
      (t.hashSlots.entryAt (probe t.hashSlots.maxNumHashSlots
          (t.hashSlots.getSlotIdxForHash (hashOf keyOps keys)) d) = none ∧
        findEntryInDistinctHT keyOps t keys (hashOf keyOps keys) = .ok none ∨
      (∃ entry ∈ t.entries, canonKeys canon entry = canonKeys canon keys) ∧
        ∃ i, findEntryInDistinctHT keyOps t keys (hashOf keyOps keys) = .ok (some i)) := by
  classical
  have hpos := h.maxNumHashSlots_pos
  by_cases hall : ∀ d < t.hashSlots.maxNumHashSlots, Passes canon t keys
      (probe t.hashSlots.maxNumHashSlots (t.hashSlots.getSlotIdxForHash (hashOf keyOps keys)) d)
  · left
    refine ⟨hall, ?_⟩
    have hsearch := h.findEntryFrom_of_passes hequality hrow hlength 0 hall
    rwa [Nat.zero_add] at hsearch
  · right
    push Not at hall
    have hfirst := Nat.find_spec hall
    have hbefore := fun d (hd : d < Nat.find hall) ↦ Nat.find_min hall hd
    generalize Nat.find hall = d at hfirst hbefore
    obtain ⟨hd, hstop⟩ := hfirst
    have hpasses : ∀ d' < d, Passes canon t keys (probe t.hashSlots.maxNumHashSlots
        (t.hashSlots.getSlotIdxForHash (hashOf keyOps keys)) d') := by
      intro d' hd'
      by_contra hno
      exact hbefore d' hd' ⟨hd'.trans hd, hno⟩
    obtain ⟨fuel, hfuel⟩ : ∃ fuel, t.hashSlots.maxNumHashSlots = fuel + 1 + d :=
      ⟨t.hashSlots.maxNumHashSlots - (d + 1), by omega⟩
    have hsearch := h.findEntryFrom_of_passes hequality hrow hlength (fuel + 1) hpasses
    have hfind : findEntryInDistinctHT keyOps t keys (hashOf keyOps keys) = findEntryFrom keyOps t
        keys (hashOf keyOps keys) (fuel + 1) (probe t.hashSlots.maxNumHashSlots
          (t.hashSlots.getSlotIdxForHash (hashOf keyOps keys)) d) := by
      rw [← hsearch, findEntryInDistinctHT]
      congr 1
    refine ⟨d, hd, hpasses, ?_⟩
    cases hentryAt : t.hashSlots.entryAt (probe t.hashSlots.maxNumHashSlots
        (t.hashSlots.getSlotIdxForHash (hashOf keyOps keys)) d) with
    | none =>
        have hslot : (t.hashSlots.slots (probe t.hashSlots.maxNumHashSlots
          (t.hashSlots.getSlotIdxForHash (hashOf keyOps keys)) d)).entry = none := hentryAt
        refine Or.inl ⟨rfl, ?_⟩
        rw [hfind, findEntryFrom, hslot]
    | some i =>
        obtain ⟨entry, hentry⟩ := h.exists_entry (probe_lt hpos _ d) hentryAt
        have hcanon : canonKeys canon entry = canonKeys canon keys := by
          by_contra hne
          exact hstop ⟨i, entry, hentryAt, hentry, hne⟩
        refine Or.inr ⟨⟨entry, List.mem_of_getElem? hentry, hcanon⟩, i, ?_⟩
        rw [hfind, h.findEntryFrom_of_entryAt hequality hrow hlength (probe_lt hpos _ d) hentryAt
          hentry, if_pos hcanon]

/-- Keys that the table has are found. -/
theorem exists_findEntryInDistinctHT_eq_some
    (hmem : ∃ entry ∈ t.entries, canonKeys canon entry = canonKeys canon keys) :
    ∃ i, findEntryInDistinctHT keyOps t keys (hashOf keyOps keys) = .ok (some i) := by
  have hpos := h.maxNumHashSlots_pos
  obtain ⟨entry, hentry, hcanon⟩ := hmem
  obtain ⟨i, hi⟩ := List.mem_iff_getElem?.mp hentry
  have hlt : i < (t.entries.map (hashOf keyOps)).length := by
    rw [List.length_map]
    exact (List.getElem?_eq_some_iff.mp hi).1
  have hhash := hequality.hash_eq entry (h.mem_rows entry hentry) keys hrow hcanon
  have hhome : t.hashSlots.homeOf (t.entries.map (hashOf keyOps)) i =
      t.hashSlots.getSlotIdxForHash (hashOf keyOps keys) := by
    rw [HashSlots.homeOf, List.getD_eq_getElem?_getD, List.getElem?_map, hi, Option.map_some,
      Option.getD_some, hhash]
  obtain ⟨d, hd, hslot, hpassed⟩ := h.holds.probed.placed i hlt
  rw [hhome] at hslot hpassed
  have hnot : ¬ Passes canon t keys (probe t.hashSlots.maxNumHashSlots
      (t.hashSlots.getSlotIdxForHash (hashOf keyOps keys)) d) := by
    rintro ⟨i', entry', hentryAt, hentry', hne⟩
    rw [hslot, Option.some.injEq] at hentryAt
    rw [← hentryAt, hi, Option.some.injEq] at hentry'
    exact hne (hentry' ▸ hcanon)
  rcases h.findEntryInDistinctHT_cases hequality hrow hlength with
    ⟨hall, -⟩ | ⟨d', -, hpasses, ⟨hnone, -⟩ | ⟨-, hfound⟩⟩
  · exact absurd (hall d hd) hnot
  · rcases Nat.lt_trichotomy d' d with hlt' | rfl | hlt'
    · have hsome := hpassed d' hlt'
      rw [hnone] at hsome
      cases hsome
    · rw [hnone] at hslot
      cases hslot
    · exact absurd (hpasses d hlt') hnot
  · exact hfound

/-- Keys that the table does not have are looked for until a free slot comes. -/
theorem findEntryInDistinctHT_of_not_mem
    (hmem : ¬ ∃ entry ∈ t.entries, canonKeys canon entry = canonKeys canon keys) :
    findEntryInDistinctHT keyOps t keys (hashOf keyOps keys) =
      if t.entries.length < t.hashSlots.maxNumHashSlots then .ok none else .error .diverges := by
  have hpos := h.maxNumHashSlots_pos
  have hprobed := h.holds.probed
  rw [List.length_map] at hprobed
  rcases h.findEntryInDistinctHT_cases hequality hrow hlength with
    ⟨hall, hdiverges⟩ | ⟨d, hd, -, ⟨hnone, hfree⟩ | ⟨hfound, -⟩⟩
  · rw [hdiverges, if_neg]
    intro hroom
    obtain ⟨s, hs, hnone⟩ := hprobed.exists_eq_none hroom
    obtain ⟨d, hd, rfl⟩ := exists_probe_eq hs (t.hashSlots.getSlotIdxForHash (hashOf keyOps keys))
    obtain ⟨i, -, hentryAt, -⟩ := hall d hd
    rw [hnone] at hentryAt
    cases hentryAt
  · rw [hfree, if_pos]
    by_contra hfull
    have hsome := hprobed.isSome_of_full (Nat.not_lt.mp hfull)
      (probe_lt hpos (t.hashSlots.getSlotIdxForHash (hashOf keyOps keys)) d)
    rw [hnone] at hsome
    cases hsome
  · exact absurd hfound hmem

end Valid

end Search

/-! ## Inserting values -/

/-- A value that the table does not have with the keys gets an entry, if there is a free slot. -/
theorem Valid.isAggregateValueDistinctForGroupByKeys_cases {numKeys : ℕ}
    (h : t.Valid keyOps canon rows numKeys)
    (hequality : KeyEquality keyOps canon (hashOf keyOps) rows)
    (hrow : keys ++ [value] ∈ rows) (hlength : (keys ++ [value]).length = numKeys) :
    (canonKeys canon (keys ++ [value]) ∈ t.entries.map (canonKeys canon) ∧
      t.isAggregateValueDistinctForGroupByKeys keyOps keys value = .ok (t, false)) ∨
    canonKeys canon (keys ++ [value]) ∉ t.entries.map (canonKeys canon) ∧
      if t.entries.length < HashSlots.numHashSlotsPerBlock then
        ∃ t', t.isAggregateValueDistinctForGroupByKeys keyOps keys value = .ok (t', true) ∧
          t'.Valid keyOps canon rows numKeys ∧ t'.entries = t.entries ++ [keys ++ [value]]
      else t.isAggregateValueDistinctForGroupByKeys keyOps keys value = .error .diverges := by
  have hhash : keyOps.hashKey value = hashOf keyOps (keys ++ [value]) := by
    rw [hashOf, List.getLast?_concat, Option.join_some]
  have hmem_iff : canonKeys canon (keys ++ [value]) ∈ t.entries.map (canonKeys canon) ↔
      ∃ entry ∈ t.entries, canonKeys canon entry = canonKeys canon (keys ++ [value]) :=
    List.mem_map
  by_cases hmem : ∃ entry ∈ t.entries, canonKeys canon entry = canonKeys canon (keys ++ [value])
  · left
    obtain ⟨i, hfind⟩ := h.exists_findEntryInDistinctHT_eq_some hequality hrow hlength hmem
    refine ⟨hmem_iff.mpr hmem, ?_⟩
    rw [isAggregateValueDistinctForGroupByKeys, hhash, hfind, ok_bind]
    rfl
  · right
    have hfind := h.findEntryInDistinctHT_of_not_mem hequality hrow hlength hmem
    refine ⟨fun hmem' ↦ hmem (hmem_iff.mp hmem'), ?_⟩
    rw [isAggregateValueDistinctForGroupByKeys, hhash, hfind, h.maxNumHashSlots_eq]
    split_ifs with hroom
    · rw [← h.maxNumHashSlots_eq] at hroom
      obtain ⟨hashSlots, hfill, hmax, hholds⟩ := h.holds.exists_fillHashSlot
        (by rwa [List.length_map]) (hashOf keyOps (keys ++ [value]))
      rw [List.length_map] at hfill
      refine ⟨⟨hashSlots, t.entries ++ [keys ++ [value]]⟩, ?_, ?_, rfl⟩
      · rw [ok_bind, createEntryInDistinctHT, hfill]
        rfl
      · constructor
        · rwa [List.map_append, List.map_singleton]
        · rw [List.map_append, List.map_singleton]
          exact h.nodup.append (List.nodup_singleton _) (List.disjoint_singleton.mpr
            fun hmem' ↦ hmem (hmem_iff.mp hmem'))
        · intro entry hentry
          rcases List.mem_append.mp hentry with hold | hnew
          · exact h.mem_rows entry hold
          · rwa [List.mem_singleton.mp hnew]
        · intro entry hentry
          rcases List.mem_append.mp hentry with hold | hnew
          · exact h.length_eq entry hold
          · rwa [List.mem_singleton.mp hnew]
        · exact hmax.trans h.maxNumHashSlots_eq
    · rfl

end DistinctHashTable

end Graphflow.Aggregate
