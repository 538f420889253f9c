import Graphflow.Storage.TableStatistics

/-!
# Going through the node tables

`setAdjListsAndColumns` and `getMaxNodeOffsetPerTable` count from zero to the number of node tables
and take the numbers for table IDs.  A new table gets the number of tables as its ID, and dropping
one takes its entry out of the map, so the IDs that are left need not be the first numbers.
-/

namespace Graphflow.Storage

open Lib

namespace NodesStatisticsAndDeletedIDs

variable {A : Type} {tables : TableMap NodeStatisticsAndDeletedIDs}

/-- `operator[]` makes a null entry for a table without statistics, which is then dereferenced. -/
def getNodeStatisticsAndDeletedIDs (tables : TableMap NodeStatisticsAndDeletedIDs) (tableID : ℕ) :
    Except Fault NodeStatisticsAndDeletedIDs :=
  match tables.lookup tableID with
  | some statistics => .ok statistics
  | none => .error .invalidAccess

/-- The read-only version, and what its entries have got before. -/
def setAdjListsAndColumns (tables : TableMap NodeStatisticsAndDeletedIDs)
    (getAdjListsAndColumns : ℕ → A) (adjListsAndColumns : TableMap A) : Except Fault (TableMap A) :=
  (List.range tables.keys.card).foldlM (fun adjListsAndColumns tableID ↦ do
    let _ ← getNodeStatisticsAndDeletedIDs tables tableID
    return adjListsAndColumns.insert tableID (getAdjListsAndColumns tableID)) adjListsAndColumns

def getMaxNodeOffsetPerTable (tables : TableMap NodeStatisticsAndDeletedIDs) :
    Except Fault (List ℕ) :=
  (List.range tables.keys.card).mapM fun tableID ↦ do
    let statistics ← getNodeStatisticsAndDeletedIDs tables tableID
    return statistics.getMaxNodeOffset

/-- Each existing table gets its lists and columns and no other one is visited. -/
def SetsAdjListsAndColumns (tables : TableMap NodeStatisticsAndDeletedIDs) : Prop :=
  ∀ (A : Type) (getAdjListsAndColumns : ℕ → A) (before : TableMap A), ∃ after,
    setAdjListsAndColumns tables getAdjListsAndColumns before = .ok after ∧
      ∀ tableID, after.lookup tableID = if tableID ∈ tables.keys then
        some (getAdjListsAndColumns tableID) else before.lookup tableID

/-- The maximal offset of each existing table stands at its ID, and there are no others. -/
def GetsMaxNodeOffsets (tables : TableMap NodeStatisticsAndDeletedIDs) : Prop :=
  ∃ offsets, getMaxNodeOffsetPerTable tables = .ok offsets ∧
    ∀ tableID : ℕ, offsets[tableID]? =
      (tables.lookup tableID).map NodeStatisticsAndDeletedIDs.getMaxNodeOffset

/-- The tables have the IDs 0, 1, …. -/
def IDsFromZero (tables : TableMap NodeStatisticsAndDeletedIDs) : Prop :=
  tables.keys = Finset.range tables.keys.card

instance (tables : TableMap NodeStatisticsAndDeletedIDs) : Decidable (IDsFromZero tables) :=
  inferInstanceAs (Decidable (tables.keys = Finset.range tables.keys.card))

theorem lookup_of_get_eq_ok {tableID : ℕ} {s : NodeStatisticsAndDeletedIDs}
    (h : getNodeStatisticsAndDeletedIDs tables tableID = .ok s) :
    tables.lookup tableID = some s := by
  rw [getNodeStatisticsAndDeletedIDs] at h
  split at h
  next hlookup => rw [hlookup, Except.ok.inj h]
  next => cases h

/-- Counting up to the number of tables stays among the IDs only if they are the first numbers. -/
theorem idsFromZero_of_forall (h : ∀ tableID < tables.keys.card, tableID ∈ tables.keys) :
    IDsFromZero tables := by
  apply Eq.symm
  apply Finset.eq_of_subset_of_card_le
  · exact fun tableID hmem ↦ h tableID (Finset.mem_range.mp hmem)
  · rw [Finset.card_range]

theorem IDsFromZero.mem_iff (h : IDsFromZero tables) (tableID : ℕ) :
    tableID ∈ tables.keys ↔ tableID < tables.keys.card := by
  conv_lhs => rw [h]
  exact Finset.mem_range

theorem IDsFromZero.exists_get (h : IDsFromZero tables) {tableID : ℕ}
    (hlt : tableID < tables.keys.card) : ∃ s, tables.lookup tableID = some s ∧
      getNodeStatisticsAndDeletedIDs tables tableID = .ok s := by
  have hmem := (h.mem_iff tableID).mpr hlt
  obtain ⟨s, hs⟩ := Finmap.mem_iff.mp (Finmap.mem_keys.mp hmem)
  exact ⟨s, hs, by rw [getNodeStatisticsAndDeletedIDs, hs]⟩

theorem setsAdjListsAndColumns_iff : SetsAdjListsAndColumns tables ↔ IDsFromZero tables := by
  constructor
  · intro h
    obtain ⟨after, hrun, -⟩ := h Unit (fun _ ↦ ()) ∅
    apply idsFromZero_of_forall
    intro tableID hlt
    obtain ⟨m, m', -, hstep⟩ := exists_step_of_foldlM_eq_ok (fun _ ↦ True) hrun trivial
      (fun _ _ _ _ _ ↦ trivial) (List.mem_range.mpr hlt)
    obtain ⟨s, hs, -⟩ := bind_eq_ok_iff.mp hstep
    exact Finmap.mem_keys.mpr (Finmap.mem_iff.mpr ⟨s, lookup_of_get_eq_ok hs⟩)
  · intro h A getAdjListsAndColumns before
    -- The tables before `n` have been visited.
    have hstep : ∀ n < tables.keys.card, ∀ m : TableMap A,
        (∀ tableID, m.lookup tableID = if tableID < n then
          some (getAdjListsAndColumns tableID) else before.lookup tableID) →
        ∃ m', (do
            let _ ← getNodeStatisticsAndDeletedIDs tables n
            return m.insert n (getAdjListsAndColumns n)) = Except.ok m' ∧
          ∀ tableID, m'.lookup tableID = if tableID < n + 1 then
            some (getAdjListsAndColumns tableID) else before.lookup tableID := by
      intro n hn m hm
      obtain ⟨s, -, hget⟩ := h.exists_get hn
      refine ⟨m.insert n (getAdjListsAndColumns n), by rw [hget]; rfl, fun tableID ↦ ?_⟩
      by_cases heq : tableID = n
      · rw [heq, Finmap.lookup_insert, if_pos n.lt_succ_self]
      · have hiff : tableID < n + 1 ↔ tableID < n := by omega
        rw [Finmap.lookup_insert_of_ne _ heq, hm]
        simp only [hiff]
    obtain ⟨after, hrun, hafter⟩ := exists_countedLoop_eq_ok _
      (fun tableID ↦ (if_neg (Nat.not_lt_zero tableID)).symm) hstep
    refine ⟨after, hrun, fun tableID ↦ ?_⟩
    rw [hafter]
    simp only [h.mem_iff]

theorem getsMaxNodeOffsets_iff : GetsMaxNodeOffsets tables ↔ IDsFromZero tables := by
  constructor
  · rintro ⟨offsets, hrun, -⟩
    apply idsFromZero_of_forall
    intro tableID hlt
    obtain ⟨offset, hoffset⟩ := exists_of_mapM_eq_ok hrun (List.mem_range.mpr hlt)
    obtain ⟨s, hs, -⟩ := bind_eq_ok_iff.mp hoffset
    exact Finmap.mem_keys.mpr (Finmap.mem_iff.mpr ⟨s, lookup_of_get_eq_ok hs⟩)
  · intro h
    have hrun : getMaxNodeOffsetPerTable tables =
        .ok ((List.range tables.keys.card).map fun tableID ↦
        ((tables.lookup tableID).map NodeStatisticsAndDeletedIDs.getMaxNodeOffset).getD 0) := by
      apply mapM_eq_ok
      intro tableID hmem
      obtain ⟨s, hs, hget⟩ := h.exists_get (List.mem_range.mp hmem)
      rw [hget, hs, ok_bind]
      rfl
    refine ⟨_, hrun, fun tableID ↦ ?_⟩
    rw [List.getElem?_map]
    by_cases hlt : tableID < tables.keys.card
    · obtain ⟨s, hs, -⟩ := h.exists_get hlt
      rw [List.getElem?_range hlt, Option.map_some, hs]
      rfl
    · have hnone : tables.lookup tableID = none := by
        rw [Finmap.lookup_eq_none, ← Finmap.mem_keys]
        exact mt (h.mem_iff tableID).mp hlt
      rw [List.getElem?_eq_none (by rw [List.length_range]; omega), hnone]
      rfl

end NodesStatisticsAndDeletedIDs

/-! ## Creating and dropping tables -/

/-- The catalog and the statistics that the readers have between two statements. -/
structure NodeTables where
  catalog : CatalogContent := {}
  nodesStatisticsAndDeletedIDs : TableMap NodeStatisticsAndDeletedIDs := ∅

/-- Statements that commit by themselves, and updates of one table's statistics. -/
inductive TableStatement
  | createNodeTable (tableName : String) (primaryKeyIdx : ℕ)
      (propertyNameDataTypes : List PropertyNameDataType)
  | dropNodeTable (tableID : ℕ)
  | setMaxNodeOffset (tableID nodeOffset : ℕ)

namespace NodeTables

/-- The statement and the checkpoint behind it; a table that does not exist is not bound. -/
def perform (s : NodeTables) : TableStatement → NodeTables
  | .createNodeTable tableName primaryKeyIdx propertyNameDataTypes =>
      let (catalog, tableID) :=
        s.catalog.addNodeTableSchema tableName primaryKeyIdx propertyNameDataTypes
      { catalog := catalog
        nodesStatisticsAndDeletedIDs :=
          s.nodesStatisticsAndDeletedIDs.insert tableID (.empty tableID) }
  | .dropNodeTable tableID =>
      match s.catalog.nodeTableSchemas.lookup tableID with
      | some schema =>
          { catalog := s.catalog.removeTableSchema ⟨schema.tableName, tableID, true⟩
            nodesStatisticsAndDeletedIDs := s.nodesStatisticsAndDeletedIDs.erase tableID }
      | none => s
  | .setMaxNodeOffset tableID nodeOffset =>
      match s.nodesStatisticsAndDeletedIDs.lookup tableID with
      | some statistics =>
          { s with
            nodesStatisticsAndDeletedIDs := s.nodesStatisticsAndDeletedIDs.insert tableID
              (statistics.setMaxNodeOffset nodeOffset) }
      | none => s

def performAll (s : NodeTables) (statements : List TableStatement) : NodeTables :=
  statements.foldl perform s

/-- The tables that exist have statistics, and no others. -/
def Agrees (s : NodeTables) : Prop :=
  s.nodesStatisticsAndDeletedIDs.keys = s.catalog.nodeTableSchemas.keys

theorem Agrees.perform {s : NodeTables} (h : s.Agrees) (statement : TableStatement) :
    (s.perform statement).Agrees := by
  cases statement with
  | createNodeTable tableName primaryKeyIdx propertyNameDataTypes =>
      apply (keys_insert _ _ _).trans
      rw [h]
      exact (keys_insert _ _ _).symm
  | dropNodeTable tableID =>
      rw [NodeTables.perform]
      split
      next schema hlookup =>
        apply (Finmap.keys_erase _ _).trans
        rw [h]
        exact (Finmap.keys_erase _ _).symm
      next => exact h
  | setMaxNodeOffset tableID nodeOffset =>
      rw [NodeTables.perform]
      split
      next statistics hlookup =>
        have hmem : tableID ∈ s.nodesStatisticsAndDeletedIDs.keys :=
          Finmap.mem_keys.mpr (Finmap.mem_iff.mpr ⟨statistics, hlookup⟩)
        apply (keys_insert _ _ _).trans
        exact (Finset.insert_eq_self.mpr hmem).trans h
      next => exact h

theorem Agrees.performAll {s : NodeTables} (h : s.Agrees) (statements : List TableStatement) :
    (s.performAll statements).Agrees := by
  induction statements generalizing s with
  | nil => exact h
  | cons statement statements ih => exact ih (h.perform statement)

/-- What the two loops owe the tables that are left. -/
def GoesThroughNodeTables (s : NodeTables) : Prop :=
  s.nodesStatisticsAndDeletedIDs.keys = s.catalog.nodeTableSchemas.keys ∧
    NodesStatisticsAndDeletedIDs.SetsAdjListsAndColumns s.nodesStatisticsAndDeletedIDs ∧
    NodesStatisticsAndDeletedIDs.GetsMaxNodeOffsets s.nodesStatisticsAndDeletedIDs

/-- A history leaves usable statistics exactly when the IDs of the tables that exist have no gap. -/
theorem goesThroughNodeTables_iff (statements : List TableStatement) :
    GoesThroughNodeTables (performAll {} statements) ↔
      (performAll {} statements).catalog.nodeTableSchemas.keys =
        Finset.range (performAll {} statements).catalog.getNumNodeTables := by
  have hempty : Agrees {} := rfl
  have hagrees := hempty.performAll statements
  have hiff : NodesStatisticsAndDeletedIDs.IDsFromZero
      (performAll {} statements).nodesStatisticsAndDeletedIDs ↔
        (performAll {} statements).catalog.nodeTableSchemas.keys =
          Finset.range (performAll {} statements).catalog.getNumNodeTables := by
    rw [NodesStatisticsAndDeletedIDs.IDsFromZero, hagrees]
    rfl
  rw [← hiff]
  constructor
  · rintro ⟨-, hsets, -⟩
    exact NodesStatisticsAndDeletedIDs.setsAdjListsAndColumns_iff.mp hsets
  · intro h
    refine ⟨hagrees, ?_, ?_⟩
    · exact NodesStatisticsAndDeletedIDs.setsAdjListsAndColumns_iff.mpr h
    · exact NodesStatisticsAndDeletedIDs.getsMaxNodeOffsets_iff.mpr h

/-- The first of two tables is dropped: the one table left is number 1, and number 0 is visited. -/
def dropFirstOfTwo : List TableStatement :=
  [.createNodeTable "person" 0 [], .createNodeTable "organisation" 0 [], .dropNodeTable 0]

theorem not_goesThroughNodeTables_dropFirstOfTwo :
    ¬ GoesThroughNodeTables (performAll {} dropFirstOfTwo) := by
  rintro ⟨-, -, offsets, hrun, -⟩
  have hfails : NodesStatisticsAndDeletedIDs.getMaxNodeOffsetPerTable
      (performAll {} dropFirstOfTwo).nodesStatisticsAndDeletedIDs = .error .invalidAccess := by
    rfl
  cases hfails.symm.trans hrun

end NodeTables

end Graphflow.Storage
