import Mathlib.Data.Finmap
import Mathlib.Data.Finset.Sort

/-!
# Loops over maps and sets

The order in which a loop meets the entries of a map or the elements of a set, and what is made of
the entries when they are inserted one after the other.
-/

namespace Graphflow.Lib

variable {κ α β : Type} [DecidableEq κ]

/-- The elements, each once. -/
structure SetOrder (s : Finset κ) where
  elements : List κ
  nodup : elements.Nodup
  toFinset_eq : elements.toFinset = s

/-- The entries, each once. -/
structure MapOrder (m : Finmap fun _ : κ ↦ α) where
  entries : List (κ × α)
  nodup : (entries.map Prod.fst).Nodup
  mem_iff : ∀ k a, (k, a) ∈ entries ↔ m.lookup k = some a

theorem SetOrder.mem_iff {s : Finset κ} (order : SetOrder s) {k : κ} :
    k ∈ order.elements ↔ k ∈ s := by
  rw [← List.mem_toFinset, order.toFinset_eq]

theorem SetOrder.length_eq {s : Finset κ} (order : SetOrder s) :
    order.elements.length = s.card := by
  have hcard := congrArg Finset.card order.toFinset_eq
  rwa [List.toFinset_card_of_nodup order.nodup] at hcard

theorem MapOrder.length_eq {m : Finmap fun _ : κ ↦ α} (order : MapOrder m) :
    order.entries.length = m.keys.card := by
  have hkeys : (order.entries.map Prod.fst).toFinset = m.keys := by
    ext k
    rw [List.mem_toFinset, Finmap.mem_keys, List.mem_map, Finmap.mem_iff]
    constructor
    · rintro ⟨⟨k', a⟩, hmem, rfl⟩
      exact ⟨a, (order.mem_iff k' a).mp hmem⟩
    · rintro ⟨a, ha⟩
      exact ⟨(k, a), (order.mem_iff k a).mpr ha, rfl⟩
  rw [← hkeys, List.toFinset_card_of_nodup order.nodup, List.length_map]

/-- There is such an order for every set of numbers. -/
def SetOrder.sorted (s : Finset ℕ) : SetOrder s where
  elements := s.sort (· ≤ ·)
  nodup := s.sort_nodup (· ≤ ·)
  toFinset_eq := s.sort_toFinset (· ≤ ·)

/-- There is such an order for every map from numbers. -/
def MapOrder.sorted (m : Finmap fun _ : ℕ ↦ α) : MapOrder m where
  entries := (m.keys.sort (· ≤ ·)).filterMap fun k ↦ (m.lookup k).map fun a ↦ (k, a)
  nodup := by
    rw [List.map_filterMap]
    apply List.Nodup.filterMap _ (m.keys.sort_nodup (· ≤ ·))
    intro k k' b hb hb'
    simp only [Option.map_map, Option.mem_def, Option.map_eq_some_iff] at hb hb'
    obtain ⟨a, -, rfl⟩ := hb
    obtain ⟨a', -, hkey⟩ := hb'
    exact hkey.symm
  mem_iff := by
    intro k a
    simp only [List.mem_filterMap, Finset.mem_sort, Finmap.mem_keys, Option.map_eq_some_iff,
      Prod.mk.injEq]
    constructor
    · rintro ⟨k', -, a', ha', rfl, rfl⟩
      exact ha'
    · intro ha
      exact ⟨k, Finmap.mem_of_lookup_eq_some ha, a, ha, rfl, rfl⟩

/-! ## Inserting entries -/

def insertEntries (m : Finmap fun _ : κ ↦ α) (entries : List (κ × α)) : Finmap fun _ : κ ↦ α :=
  entries.foldl (fun m entry ↦ m.insert entry.1 entry.2) m

variable {m : Finmap fun _ : κ ↦ α} {entries : List (κ × α)}

theorem insertEntries_concat (entry : κ × α) :
    insertEntries m (entries ++ [entry]) = (insertEntries m entries).insert entry.1 entry.2 := by
  rw [insertEntries, List.foldl_append]
  rfl

theorem lookup_insertEntries_of_notMem {k : κ} (h : k ∉ entries.map Prod.fst) :
    (insertEntries m entries).lookup k = m.lookup k := by
  induction entries generalizing m with
  | nil => rfl
  | cons entry entries ih =>
      rw [List.map_cons, List.mem_cons, not_or] at h
      have hrest := @ih (m.insert entry.1 entry.2) h.2
      exact hrest.trans (Finmap.lookup_insert_of_ne _ h.1)

theorem lookup_insertEntries {k : κ} {a : α} (hnodup : (entries.map Prod.fst).Nodup)
    (hmem : (k, a) ∈ entries) : (insertEntries m entries).lookup k = some a := by
  induction entries generalizing m with
  | nil => cases hmem
  | cons entry entries ih =>
      rw [List.map_cons, List.nodup_cons] at hnodup
      rcases List.mem_cons.mp hmem with rfl | hmem
      · have hrest := @lookup_insertEntries_of_notMem κ α _ (m.insert k a) entries k hnodup.1
        exact hrest.trans (Finmap.lookup_insert _)
      · exact ih hnodup.2 hmem

theorem lookup_insertEntries_iff {k : κ} {a : α} (hnodup : (entries.map Prod.fst).Nodup) :
    (insertEntries ∅ entries).lookup k = some a ↔ (k, a) ∈ entries := by
  constructor
  · intro hlookup
    by_cases hkey : k ∈ entries.map Prod.fst
    · obtain ⟨⟨k', a'⟩, hmem, rfl⟩ := List.mem_map.mp hkey
      rw [lookup_insertEntries hnodup hmem] at hlookup
      cases hlookup
      exact hmem
    · rw [lookup_insertEntries_of_notMem hkey, Finmap.lookup_empty] at hlookup
      cases hlookup
  · exact lookup_insertEntries hnodup

/-- The map is made anew from its entries, with other values. -/
theorem lookup_insertEntries_order (order : MapOrder m) (f : κ → α → β) (k : κ) :
    (insertEntries ∅ (order.entries.map fun entry ↦ (entry.1, f entry.1 entry.2))).lookup k =
      (m.lookup k).map (f k) := by
  have hkeys : (order.entries.map fun entry ↦ (entry.1, f entry.1 entry.2)).map Prod.fst =
      order.entries.map Prod.fst := by
    rw [List.map_map]
    rfl
  cases hlookup : m.lookup k with
  | none =>
      apply lookup_insertEntries_of_notMem
      rw [hkeys, List.mem_map]
      rintro ⟨⟨k', a⟩, hmem, rfl⟩
      rw [(order.mem_iff k' a).mp hmem] at hlookup
      cases hlookup
  | some a =>
      apply lookup_insertEntries (hkeys ▸ order.nodup)
      exact List.mem_map.mpr ⟨(k, a), (order.mem_iff k a).mpr hlookup, rfl⟩

theorem insertEntries_order (order : MapOrder m) : insertEntries ∅ order.entries = m := by
  apply Finmap.ext_lookup
  intro k
  have hlookup := lookup_insertEntries_order order (fun _ a ↦ a) k
  rwa [Option.map_id_fun', id_eq, List.map_id_fun', id_eq] at hlookup

/-! ## Values that are made anew -/

section Rebuilding

variable (f : κ → α → Option α)

/-- The entry with the value that is made of its own, if there is one. -/
def rebuildEntry (entry : κ × α) : Option (κ × α) := (f entry.1 entry.2).map fun a ↦ (entry.1, a)

variable {f} {entries' : List (κ × α)}

omit [DecidableEq κ] in
theorem rebuilt_of_mapM_eq_some (h : entries.mapM (rebuildEntry f) = some entries') :
    entries'.map Prod.fst = entries.map Prod.fst ∧
      ∀ k a, (k, a) ∈ entries → ∃ a', f k a = some a' ∧ (k, a') ∈ entries' := by
  induction entries generalizing entries' with
  | nil =>
      cases h
      exact ⟨rfl, fun _ _ hmem ↦ absurd hmem List.not_mem_nil⟩
  | cons entry entries ih =>
      rw [List.mapM_cons] at h
      obtain ⟨entry', hentry, h⟩ := Option.bind_eq_some_iff.mp h
      obtain ⟨rest, hrest, h⟩ := Option.bind_eq_some_iff.mp h
      cases h
      obtain ⟨hkeys, hvalues⟩ := ih hrest
      obtain ⟨a', ha', rfl⟩ := Option.map_eq_some_iff.mp hentry
      refine ⟨?_, fun k a hmem ↦ ?_⟩
      · rw [List.map_cons, List.map_cons, hkeys]
      · rcases List.mem_cons.mp hmem with rfl | hmem
        · exact ⟨a', ha', List.mem_cons_self⟩
        · obtain ⟨a'', ha'', hmem'⟩ := hvalues k a hmem
          exact ⟨a'', ha'', List.mem_cons_of_mem _ hmem'⟩

omit [DecidableEq κ] in
theorem mapM_rebuildEntry_of_forall (h : ∀ k a, (k, a) ∈ entries → f k a = some a) :
    entries.mapM (rebuildEntry f) = some entries := by
  induction entries with
  | nil => rfl
  | cons entry entries ih =>
      have hentry : rebuildEntry f entry = some entry := by
        rw [rebuildEntry, h entry.1 entry.2 List.mem_cons_self]
        rfl
      have hrest := ih fun k a hmem ↦ h k a (List.mem_cons_of_mem _ hmem)
      rw [List.mapM_cons, hentry, hrest]
      rfl

/-- The map is as it was, if all its values are. -/
theorem map_insertEntries_mapM_eq_iff (order : MapOrder m) :
    (order.entries.mapM (rebuildEntry f)).map (insertEntries ∅) = some m ↔
      ∀ k a, m.lookup k = some a → f k a = some a := by
  constructor
  · intro h k a hlookup
    obtain ⟨entries', hmap, hinsert⟩ := Option.map_eq_some_iff.mp h
    obtain ⟨hkeys, hvalues⟩ := rebuilt_of_mapM_eq_some hmap
    obtain ⟨a', ha', hmem⟩ := hvalues k a ((order.mem_iff k a).mpr hlookup)
    have hnodup : (entries'.map Prod.fst).Nodup := hkeys ▸ order.nodup
    have hlookup' := (lookup_insertEntries_iff hnodup).mpr hmem
    rw [hinsert, hlookup] at hlookup'
    cases hlookup'
    exact ha'
  · intro h
    rw [mapM_rebuildEntry_of_forall fun k a hmem ↦ h k a ((order.mem_iff k a).mp hmem)]
    exact congrArg some (insertEntries_order order)

end Rebuilding

end Graphflow.Lib
