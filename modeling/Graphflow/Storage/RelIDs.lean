import Graphflow.Catalog.Integrity
import Graphflow.Storage.TableStatistics
import Mathlib.Algebra.BigOperators.Ring.Finset
import Mathlib.Order.CompletePartialOrder
import Mathlib.Order.Interval.Set.Disjoint

/-!
# The internal IDs of rels

`COPY` of a rel table numbers its rels from the number of rels that the statistics count in all rel
tables.  When a table is dropped this number goes down, so IDs that are still in use can be given
again; the number of tables goes down as well, and the assertions on table IDs compare with it.
-/

namespace Graphflow.Storage

open Lib

/-! ## Counting the rows of a file -/

/-- `calculateNumRows` takes the header line from the first block. -/
def skipHeader (hasHeader : Bool) (numLinesPerBlock : List ℕ) : List ℕ :=
  match hasHeader, numLinesPerBlock with
  | true, numLines :: rest => (numLines + uint64Max) % 2 ^ 64 :: rest
  | _, numLinesPerBlock => numLinesPerBlock

/-- `numRows` has 32 bits. -/
def calculateNumRows (hasHeader : Bool) (numLinesPerBlock : List ℕ) : ℕ :=
  (skipHeader hasHeader numLinesPerBlock).foldl
    (fun numRows numLines ↦ (numRows + numLines) % 2 ^ 32) 0

/-- The rows that the tasks read. -/
def numRowsPerBlock (hasHeader : Bool) (numLinesPerBlock : List ℕ) : List ℕ :=
  match hasHeader, numLinesPerBlock with
  | true, numLines :: rest => (numLines - 1) :: rest
  | _, numLinesPerBlock => numLinesPerBlock

def numRelsOf (hasHeader : Bool) (numLinesPerBlock : List ℕ) : ℕ :=
  (numRowsPerBlock hasHeader numLinesPerBlock).sum

/-! ## The tables that have been copied -/

/-- A table into which a file has been copied. -/
structure CopiedTable where
  tableID : ℕ
  startRelID : ℕ
  numRels : ℕ
  /-- What the statistics say. -/
  numTuples : ℕ
  /-- How many of the rels below `startRelID` are no longer counted. -/
  lost : ℕ
  deriving DecidableEq, Repr

namespace CopiedTable

variable {base n t t' : ℕ} {c : CopiedTable} {cs cs' : List CopiedTable}

def relIDs (c : CopiedTable) : Set ℕ := Set.Ico c.startRelID (c.startRelID + c.numRels)

def lose (n : ℕ) (c : CopiedTable) : CopiedTable := { c with lost := c.lost + n }

@[simp] theorem tableID_lose : (c.lose n).tableID = c.tableID := rfl

@[simp] theorem startRelID_lose : (c.lose n).startRelID = c.startRelID := rfl

@[simp] theorem numTuples_lose : (c.lose n).numTuples = c.numTuples := rfl

@[simp] theorem lost_lose : (c.lose n).lost = c.lost + n := rfl

/-- The rels of a table are no longer counted. -/
def forget (t : ℕ) : List CopiedTable → List CopiedTable
  | [] => []
  | c :: cs => if c.tableID = t then (forget t cs).map (lose c.numTuples) else c :: forget t cs

def total (cs : List CopiedTable) : ℕ := (cs.map (·.numTuples)).sum

/-- How many rels are counted for a table. -/
def counted (t : ℕ) (cs : List CopiedTable) : ℕ := total (cs.filter (·.tableID = t))

@[simp] theorem total_nil : total [] = 0 := rfl

@[simp] theorem total_cons : total (c :: cs) = c.numTuples + total cs := List.sum_cons

@[simp] theorem total_append : total (cs ++ cs') = total cs + total cs' := by
  simp [total]

@[simp] theorem total_map_lose : total (cs.map (lose n)) = total cs := by
  simp [total, lose, Function.comp_def]

@[simp] theorem counted_nil : counted t [] = 0 := rfl

@[simp] theorem counted_cons :
    counted t (c :: cs) = (if c.tableID = t then c.numTuples else 0) + counted t cs := by
  rw [counted, List.filter_cons]
  split_ifs with h h' h'
  · exact total_cons
  · exact absurd (of_decide_eq_true h) h'
  · exact absurd (decide_eq_true h') h
  · exact (Nat.zero_add _).symm

@[simp] theorem counted_append : counted t (cs ++ cs') = counted t cs + counted t cs' := by
  rw [counted, List.filter_append, total_append]
  rfl

@[simp] theorem counted_map_lose : counted t (cs.map (lose n)) = counted t cs := by
  induction cs with
  | nil => rfl
  | cons c cs ih =>
      rw [List.map_cons, counted_cons, counted_cons, ih]
      rfl

theorem counted_forget (t : ℕ) (cs : List CopiedTable) (t' : ℕ) :
    counted t' (forget t cs) = if t' = t then 0 else counted t' cs := by
  induction cs with
  | nil => simp [forget]
  | cons c cs ih =>
      rw [forget]
      by_cases hc : c.tableID = t
      · rw [if_pos hc, counted_map_lose, ih, counted_cons]
        split_ifs with ht htc
        · rfl
        · exact absurd (htc.symm.trans hc) ht
        · rw [Nat.zero_add]
      · rw [if_neg hc, counted_cons, ih, counted_cons]
        split_ifs with hct ht ht
        · exact absurd (hct.trans ht) hc
        · rfl
        · rfl
        · rfl

theorem total_forget (t : ℕ) (cs : List CopiedTable) :
    total cs = total (forget t cs) + counted t cs := by
  induction cs with
  | nil => rfl
  | cons c cs ih =>
      rw [forget, total_cons, counted_cons, ih]
      by_cases hc : c.tableID = t
      · rw [if_pos hc, if_pos hc, total_map_lose]
        omega
      · rw [if_neg hc, if_neg hc, total_cons]
        omega

/-- The statistics count all rels, table by table. -/
theorem sum_counted {tableIDs : Finset ℕ} (h : ∀ c ∈ cs, c.tableID ∈ tableIDs) :
    ∑ t ∈ tableIDs, counted t cs = total cs := by
  induction cs with
  | nil => simp
  | cons c cs ih =>
      have hrest := ih fun c hc ↦ h c (List.mem_cons_of_mem _ hc)
      have hhead := h c List.mem_cons_self
      simp only [counted_cons, total_cons, Finset.sum_add_distrib, hrest]
      rw [Finset.sum_ite_eq, if_pos hhead]

theorem tableID_ne_of_mem_forget (h : c ∈ forget t cs) : c.tableID ≠ t := by
  induction cs generalizing c with
  | nil => cases h
  | cons c' cs ih =>
      rw [forget] at h
      split_ifs at h with hc
      · obtain ⟨c₀, hc₀, rfl⟩ := List.mem_map.mp h
        exact @ih c₀ hc₀
      · rcases List.mem_cons.mp h with rfl | h
        · exact hc
        · exact ih h

theorem map_relIDs_forget (t : ℕ) (cs : List CopiedTable) :
    (forget t cs).map relIDs = (cs.filter (·.tableID ≠ t)).map relIDs := by
  induction cs with
  | nil => rfl
  | cons c cs ih =>
      rw [forget]
      by_cases hc : c.tableID = t
      · rw [if_pos hc, List.filter_cons_of_neg (by simpa using hc), ← ih, List.map_map]
        rfl
      · rw [if_neg hc, List.filter_cons_of_pos (by simpa using hc), List.map_cons, ih]
        rfl

theorem tableID_mem_of_mem_forget (h : c ∈ forget t cs) : ∃ c' ∈ cs, c'.tableID = c.tableID := by
  induction cs generalizing c with
  | nil => cases h
  | cons c' cs ih =>
      rw [forget] at h
      split_ifs at h with hc
      · obtain ⟨c₀, hc₀, rfl⟩ := List.mem_map.mp h
        obtain ⟨c₁, hc₁, heq⟩ := ih hc₀
        exact ⟨c₁, List.mem_cons_of_mem _ hc₁, heq⟩
      · rcases List.mem_cons.mp h with rfl | h
        · exact ⟨c, List.mem_cons_self, rfl⟩
        · obtain ⟨c₁, hc₁, heq⟩ := ih h
          exact ⟨c₁, List.mem_cons_of_mem _ hc₁, heq⟩

/-- Each table has been numbered from what was counted then: what is counted of the tables before
it and what has been lost. -/
def Starts (base : ℕ) : List CopiedTable → Prop
  | [] => True
  | c :: cs => c.startRelID = base + c.lost ∧ Starts (base + c.numTuples) cs

theorem Starts.map_lose (h : Starts (base + n) cs) : Starts base (cs.map (lose n)) := by
  induction cs generalizing base with
  | nil => trivial
  | cons c cs ih =>
      refine ⟨?_, ih ?_⟩
      · rw [startRelID_lose, lost_lose, h.1]
        omega
      · rw [numTuples_lose, Nat.add_right_comm]
        exact h.2

theorem Starts.forget (h : Starts base cs) (t : ℕ) : Starts base (forget t cs) := by
  induction cs generalizing base with
  | nil => trivial
  | cons c cs ih =>
      rw [CopiedTable.forget]
      split_ifs with hc
      · exact (ih h.2).map_lose
      · exact ⟨h.1, ih h.2⟩

theorem Starts.concat (h : Starts base cs) (hc : c.startRelID = base + total cs + c.lost) :
    Starts base (cs ++ [c]) := by
  induction cs generalizing base with
  | nil => exact ⟨hc, trivial⟩
  | cons c' cs ih =>
      refine ⟨h.1, ih h.2 ?_⟩
      rw [hc, total_cons]
      omega

theorem Starts.startRelID_eq {before after : List CopiedTable}
    (h : Starts base (before ++ c :: after)) : c.startRelID = base + total before + c.lost := by
  induction before generalizing base with
  | nil => exact h.1
  | cons c' before ih =>
      rw [ih h.2, total_cons]
      omega

end CopiedTable

/-! ## The statements -/

namespace RelsStatistics

/-- `getNextRelID`, without the overflow of the 64 bits. -/
def getNextRelID (s : RelsStatistics) : ℕ :=
  ∑ tableID ∈ s.readOnly.keys, ((s.readOnly.lookup tableID).map (·.numTuples)).getD 0

/-- The assertion of the two setters. -/
def AssertsTableID (s : RelsStatistics) (tableID : ℕ) : Prop := tableID < s.forWrite.keys.card

end RelsStatistics

/-- The catalog and the statistics, and what has been copied into the tables that exist. -/
structure RelTables where
  catalog : Catalog
  relsStatistics : RelsStatistics
  copied : List CopiedTable := []

inductive RelStatement
  | createNodeTable (tableName : String) (primaryKeyIdx : ℕ)
      (propertyNameDataTypes : List PropertyNameDataType)
  | dropNodeTable (tableID : ℕ)
  | createRelTable (tableName : String) (relMultiplicity : RelMultiplicity)
      (propertyNameDataTypes : List PropertyNameDataType) (srcDstTableIDs : SrcDstTableIDs)
  | copyRelCSV (tableID : ℕ) (hasHeader : Bool) (numLinesPerBlock : List ℕ)
      (directionNumRelsPerTable : Wal.RelDirection → List ℕ)
  | dropRelTable (tableID : ℕ)

namespace RelTables

open CopiedTable

/-- The records of the catalog and of the statistics are logged if there are updates. -/
def commit (s : RelTables) : RelTables :=
  { s with
    catalog := s.catalog.checkpointInMemoryIfNecessary
    relsStatistics := s.relsStatistics.checkpoint?.getD s.relsStatistics }

def createRelTable (s : RelTables) (tableName : String) (relMultiplicity : RelMultiplicity)
    (propertyNameDataTypes : List PropertyNameDataType) (srcDstTableIDs : SrcDstTableIDs) :
    Except Fault RelTables := do
  let (catalog, newRelTableID, _) ← s.catalog.addRelTableSchema tableName relMultiplicity
    propertyNameDataTypes srcDstTableIDs
  return commit {
    catalog := catalog
    relsStatistics := TablesStatistics.addTableStatistic s.relsStatistics newRelTableID
      (.ofSrcDstTableIDs srcDstTableIDs)
    copied := forget newRelTableID s.copied }

/-- What a `COPY` into a table gives. -/
def copiedTable (s : RelTables) (tableID : ℕ) (hasHeader : Bool) (numLinesPerBlock : List ℕ) :
    CopiedTable where
  tableID := tableID
  startRelID := RelsStatistics.getNextRelID s.relsStatistics
  numRels := numRelsOf hasHeader numLinesPerBlock
  numTuples := calculateNumRows hasHeader numLinesPerBlock
  lost := counted tableID s.copied

/-- `InMemRelCSVCopier`: the constructor and `copy`. -/
def copyRelCSV (s : RelTables) (tableID : ℕ) (hasHeader : Bool) (numLinesPerBlock : List ℕ)
    (directionNumRelsPerTable : Wal.RelDirection → List ℕ) : Except Fault RelTables := do
  let statistics ← RelsStatistics.setNumRelsPerDirectionBoundTableID s.relsStatistics tableID
    directionNumRelsPerTable
  let statistics ← RelsStatistics.setNumRelsForTable statistics tableID
    (calculateNumRows hasHeader numLinesPerBlock)
  return commit { s with
    relsStatistics := statistics
    copied := forget tableID s.copied ++ [s.copiedTable tableID hasHeader numLinesPerBlock] }

/-- The statistics of a dropped table are removed when its record is replayed. -/
def dropRelTable (s : RelTables) (tableID : ℕ) (schema : RelTableSchema) : RelTables :=
  let s := commit { s with
    catalog := (s.catalog.removeTableSchema ⟨schema.tableName, tableID, false⟩).1 }
  { s with
    relsStatistics := TablesStatistics.removeTableStatistic s.relsStatistics tableID
    copied := forget tableID s.copied }

def IsEmptyTable (s : RelTables) (tableID : ℕ) : Prop :=
  ∀ c ∈ s.copied, c.tableID = tableID → c.numRels = 0

instance (s : RelTables) (tableID : ℕ) : Decidable (s.IsEmptyTable tableID) :=
  inferInstanceAs (Decidable (∀ c ∈ s.copied, _))

/-- A statement as a transaction that commits.  Tables that are dropped or copied into exist, and
a table that is copied into is empty. -/
def step (s : RelTables) : RelStatement → Option RelTables
  | .createNodeTable tableName primaryKeyIdx propertyNameDataTypes =>
      some (commit { s with
        catalog := (s.catalog.addNodeTableSchema tableName primaryKeyIdx propertyNameDataTypes).1 })
  | .dropNodeTable tableID =>
      (s.catalog.readOnly.nodeTableSchemas.lookup tableID).map fun schema ↦
        commit { s with
          catalog := (s.catalog.removeTableSchema ⟨schema.tableName, tableID, true⟩).1 }
  | .createRelTable tableName relMultiplicity propertyNameDataTypes srcDstTableIDs =>
      (s.createRelTable tableName relMultiplicity propertyNameDataTypes srcDstTableIDs).toOption
  | .copyRelCSV tableID hasHeader numLinesPerBlock directionNumRelsPerTable =>
      if tableID ∈ s.catalog.readOnly.relTableSchemas ∧ s.IsEmptyTable tableID then
        (s.copyRelCSV tableID hasHeader numLinesPerBlock directionNumRelsPerTable).toOption
      else none
  | .dropRelTable tableID =>
      (s.catalog.readOnly.relTableSchemas.lookup tableID).map (s.dropRelTable tableID)

/-- There are no rel tables yet. -/
structure IsInitial (s : RelTables) : Prop where
  catalogWrite : s.catalog.write = none
  relTableSchemas : s.catalog.readOnly.relTableSchemas = ∅
  relsStatistics : s.relsStatistics = ⟨∅, none⟩
  copied : s.copied = []

/-! ## What is to hold, and when -/

/-- The rels of the existing tables have different IDs. -/
def DisjointRelIDs (s : RelTables) : Prop := (s.copied.map relIDs).Pairwise Disjoint

/-- The assertions on the table ID hold in both setters, and all IDs are different afterwards. -/
def KeepsRelIDs (s : RelTables) (statement : RelStatement) : Prop :=
  (match statement with
    | .copyRelCSV tableID _ _ directionNumRelsPerTable =>
        RelsStatistics.AssertsTableID s.relsStatistics tableID ∧
          ∀ statistics, RelsStatistics.setNumRelsPerDirectionBoundTableID s.relsStatistics tableID
            directionNumRelsPerTable = .ok statistics →
              RelsStatistics.AssertsTableID statistics tableID
    | _ => True) ∧
  ∀ s', s.step statement = some s' → s'.DisjointRelIDs

/-- The table ID is below the number of rel tables.  Of each table with rels either no more has been
lost than was copied behind it, or so much that the new rels fit in below it. -/
def FitsRelIDs (s : RelTables) : RelStatement → Prop
  | .copyRelCSV tableID hasHeader numLinesPerBlock _ =>
      tableID < s.catalog.readOnly.relTableSchemas.keys.card ∧
        ∀ before c after, s.copied = before ++ c :: after → 0 < c.numRels →
          0 < numRelsOf hasHeader numLinesPerBlock →
            c.lost + c.numRels ≤ c.numTuples + total after ∨
              c.numTuples + total after + numRelsOf hasHeader numLinesPerBlock ≤ c.lost
  | _ => True

/-! ## Runs -/

variable {s s' : RelTables} {statement : RelStatement} {statements : List RelStatement}
  {tableID : ℕ} {hasHeader : Bool} {numLinesPerBlock : List ℕ}
  {directionNumRelsPerTable : Wal.RelDirection → List ℕ}

/-- The statistics count what has been copied, and the IDs are different. -/
structure Inv (s : RelTables) : Prop where
  catalogWrite : s.catalog.write = none
  statisticsWrite : s.relsStatistics.write = none
  keys : s.relsStatistics.readOnly.keys = s.catalog.readOnly.relTableSchemas.keys
  numTuples : ∀ t statistics, s.relsStatistics.readOnly.lookup t = some statistics →
    statistics.numTuples = counted t s.copied
  mem : ∀ c ∈ s.copied, c.tableID ∈ s.relsStatistics.readOnly
  starts : Starts 0 s.copied
  disjoint : s.DisjointRelIDs

theorem IsInitial.inv (h : s.IsInitial) : s.Inv where
  catalogWrite := h.catalogWrite
  statisticsWrite := by rw [h.relsStatistics]
  keys := by
    rw [h.relsStatistics, h.relTableSchemas]
    rfl
  numTuples := by
    intro t statistics ht
    rw [h.relsStatistics] at ht
    cases ht
  mem := by
    intro c hc
    rw [h.copied] at hc
    cases hc
  starts := by
    rw [h.copied]
    trivial
  disjoint := by
    rw [DisjointRelIDs, h.copied]
    exact List.Pairwise.nil

theorem Inv.getNextRelID_eq (h : s.Inv) :
    RelsStatistics.getNextRelID s.relsStatistics = total s.copied := by
  rw [RelsStatistics.getNextRelID, ← sum_counted fun c hc ↦ Finmap.mem_keys.mpr (h.mem c hc)]
  apply Finset.sum_congr rfl
  intro t ht
  obtain ⟨statistics, hstatistics⟩ := Finmap.mem_iff.mp (Finmap.mem_keys.mp ht)
  rw [hstatistics, Option.map_some, Option.getD_some]
  exact h.numTuples t statistics hstatistics

theorem DisjointRelIDs.forget (h : s.DisjointRelIDs) (t : ℕ) :
    ((CopiedTable.forget t s.copied).map relIDs).Pairwise Disjoint := by
  rw [map_relIDs_forget]
  exact h.sublist (List.filter_sublist.map relIDs)

/-- The rels of a table are gone, and other tables are as they were. -/
theorem Inv.of_forget (h : s.Inv) {t : ℕ} {m : TableMap RelStatistics}
    (hlookup : ∀ t', t' ≠ t → m.lookup t' = s.relsStatistics.readOnly.lookup t')
    (hself : ∀ statistics, m.lookup t = some statistics → statistics.numTuples = 0)
    (hcatalog : s'.catalog.write = none) (hstatistics : s'.relsStatistics = ⟨m, none⟩)
    (hkeys : m.keys = s'.catalog.readOnly.relTableSchemas.keys)
    (hcopied : s'.copied = forget t s.copied) : s'.Inv where
  catalogWrite := hcatalog
  statisticsWrite := by rw [hstatistics]
  keys := by rw [hstatistics, hkeys]
  numTuples := by
    intro t' statistics ht'
    rw [hstatistics] at ht'
    rw [hcopied, counted_forget]
    split_ifs with heq
    · subst heq
      exact hself statistics ht'
    · apply h.numTuples
      rwa [← hlookup t' heq]
  mem := by
    intro c hc
    rw [hcopied] at hc
    have hne := tableID_ne_of_mem_forget hc
    obtain ⟨c', hc', heq⟩ := tableID_mem_of_mem_forget hc
    obtain ⟨statistics, hlookup'⟩ := Finmap.mem_iff.mp (h.mem c' hc')
    rw [heq, ← hlookup _ hne] at hlookup'
    rw [hstatistics]
    exact Finmap.mem_of_lookup_eq_some hlookup'
  starts := by
    rw [hcopied]
    exact h.starts.forget t
  disjoint := by
    rw [DisjointRelIDs, hcopied]
    exact h.disjoint.forget t

/-- Nothing has happened to the rel tables. -/
theorem Inv.of_eq (h : s.Inv) (hcatalog : s'.catalog.write = none)
    (hschemas : s'.catalog.readOnly.relTableSchemas = s.catalog.readOnly.relTableSchemas)
    (hstatistics : s'.relsStatistics = s.relsStatistics) (hcopied : s'.copied = s.copied) :
    s'.Inv where
  catalogWrite := hcatalog
  statisticsWrite := by rw [hstatistics, h.statisticsWrite]
  keys := by rw [hstatistics, h.keys, hschemas]
  numTuples := by rw [hstatistics, hcopied]; exact h.numTuples
  mem := by rw [hstatistics, hcopied]; exact h.mem
  starts := by rw [hcopied]; exact h.starts
  disjoint := by rw [DisjointRelIDs, hcopied]; exact h.disjoint

theorem relsStatistics_commit_of_none (h : s.relsStatistics.write = none) :
    s.commit.relsStatistics = s.relsStatistics := by
  rw [commit, Versioned.checkpoint?, h]
  rfl

theorem catalog_commit_setWrite (catalog : Catalog) (content : CatalogContent)
    (h : s.catalog = catalog.setWrite content) : s.commit.catalog = ⟨content, none⟩ := by
  rw [commit, h]
  rfl

theorem relsStatistics_commit_setWrite (statistics : RelsStatistics)
    (content : TableMap RelStatistics) (h : s.relsStatistics = statistics.setWrite content) :
    s.commit.relsStatistics = ⟨content, none⟩ := by
  rw [commit, h]
  rfl

theorem Inv.createNodeTable (h : s.Inv) {tableName : String} {primaryKeyIdx : ℕ}
    {definitions : List PropertyNameDataType}
    (hstep : s.step (.createNodeTable tableName primaryKeyIdx definitions) = some s') : s'.Inv := by
  obtain rfl := Option.some.inj hstep
  have hforWrite := Versioned.forWrite_of_write_eq_none h.catalogWrite
  refine h.of_eq rfl ?_ (relsStatistics_commit_of_none h.statisticsWrite) rfl
  rw [← hforWrite]
  rfl

theorem Inv.dropNodeTable (h : s.Inv) (hstep : s.step (.dropNodeTable tableID) = some s') :
    s'.Inv := by
  obtain ⟨schema, -, rfl⟩ := Option.map_eq_some_iff.mp hstep
  have hforWrite := Versioned.forWrite_of_write_eq_none h.catalogWrite
  refine h.of_eq rfl ?_ (relsStatistics_commit_of_none h.statisticsWrite) rfl
  rw [← hforWrite]
  rfl

theorem Inv.createRelTable (h : s.Inv) {tableName : String} {relMultiplicity : RelMultiplicity}
    {definitions : List PropertyNameDataType} {srcDstTableIDs : SrcDstTableIDs}
    (hstep : s.step (.createRelTable tableName relMultiplicity definitions srcDstTableIDs) =
      some s') : s'.Inv := by
  have hcatalog := Versioned.forWrite_of_write_eq_none h.catalogWrite
  have hstatistics := Versioned.forWrite_of_write_eq_none h.statisticsWrite
  rw [step, RelTables.createRelTable, Catalog.addRelTableSchema, hcatalog] at hstep
  cases hadd : s.catalog.readOnly.addRelTableSchema tableName relMultiplicity definitions
      srcDstTableIDs with
  | error fault =>
      rw [hadd] at hstep
      cases hstep
  | ok added =>
      rw [hadd] at hstep
      obtain rfl := Option.some.inj hstep
      obtain ⟨-, -, -, -, schema, -, -, -, -, -, hschemas⟩ :=
        CatalogContent.addRelTableSchema_eq_ok hadd
      refine h.of_forget (t := added.2) ?_ ?_ rfl
        (relsStatistics_commit_setWrite _ _ rfl) ?_ rfl
      · intro t ht
        rw [hstatistics, Finmap.lookup_insert_of_ne _ ht]
      · intro statistics hlookup
        rw [Finmap.lookup_insert] at hlookup
        obtain rfl := Option.some.inj hlookup
        rfl
      · rw [catalog_commit_setWrite _ _ rfl, hschemas, hstatistics, keys_insert, keys_insert,
          h.keys]

theorem Inv.dropRelTable (h : s.Inv) (hstep : s.step (.dropRelTable tableID) = some s') :
    s'.Inv := by
  obtain ⟨schema, -, rfl⟩ := Option.map_eq_some_iff.mp hstep
  have hcatalog := Versioned.forWrite_of_write_eq_none h.catalogWrite
  refine h.of_forget (t := tableID) (m := s.relsStatistics.readOnly.erase tableID)
    ?_ ?_ rfl ?_ ?_ rfl
  · intro t ht
    exact Finmap.lookup_erase_ne ht
  · intro statistics hlookup
    rw [Finmap.lookup_erase] at hlookup
    cases hlookup
  · have hcommit := @relsStatistics_commit_of_none { s with
      catalog := (s.catalog.removeTableSchema ⟨schema.tableName, tableID, false⟩).1 }
      h.statisticsWrite
    change TablesStatistics.removeTableStatistic (commit _).relsStatistics tableID = _
    rw [hcommit]
    exact congrArg (Versioned.mk _) h.statisticsWrite
  · rw [Finmap.keys_erase, h.keys, ← hcatalog]
    exact (Finmap.keys_erase _ _).symm

/-! ### Copying a file -/

theorem exists_setNumRelsForTable {statistics : RelsStatistics} {numRels : ℕ}
    {relStatistics : RelStatistics}
    (h : statistics.forWrite.lookup tableID = some relStatistics) :
    RelsStatistics.setNumRelsForTable statistics tableID numRels =
      .ok (statistics.setWrite
        (statistics.forWrite.insert tableID (relStatistics.setNumTuples numRels))) := by
  rw [RelsStatistics.setNumRelsForTable, TablesStatistics.updateTable, h]

theorem exists_setNumRelsPerDirectionBoundTableID {statistics : RelsStatistics}
    {relStatistics : RelStatistics}
    (h : statistics.forWrite.lookup tableID = some relStatistics) :
    ∃ relStatistics', RelsStatistics.setNumRelsPerDirectionBoundTableID statistics tableID
        directionNumRelsPerTable =
      .ok (statistics.setWrite (statistics.forWrite.insert tableID relStatistics')) := by
  rw [RelsStatistics.setNumRelsPerDirectionBoundTableID, TablesStatistics.updateTable, h]
  exact ⟨_, rfl⟩

/-- The statistics after a `COPY` and its commit. -/
structure Copied (s : RelTables) (tableID numTuples : ℕ) (readOnly : TableMap RelStatistics) :
    Prop where
  keys : readOnly.keys = s.relsStatistics.readOnly.keys
  self : ∃ statistics, readOnly.lookup tableID = some statistics ∧
    statistics.numTuples = numTuples
  frame : ∀ t, t ≠ tableID → readOnly.lookup t = s.relsStatistics.readOnly.lookup t

theorem keys_insert_of_mem {α : Type*} {m : TableMap α} {t : ℕ} (h : t ∈ m) (a : α) :
    (m.insert t a).keys = m.keys := by
  rw [keys_insert]
  exact Finset.insert_eq_self.mpr (Finmap.mem_keys.mpr h)

theorem Inv.exists_copyRelCSV (h : s.Inv)
    (hmem : tableID ∈ s.catalog.readOnly.relTableSchemas) : ∃ s' readOnly,
    s.copyRelCSV tableID hasHeader numLinesPerBlock directionNumRelsPerTable = .ok s' ∧
      s'.catalog = s.catalog ∧ s'.relsStatistics = ⟨readOnly, none⟩ ∧
      Copied s tableID (calculateNumRows hasHeader numLinesPerBlock) readOnly ∧
      s'.copied = forget tableID s.copied ++
        [s.copiedTable tableID hasHeader numLinesPerBlock] := by
  have hforWrite := Versioned.forWrite_of_write_eq_none h.statisticsWrite
  have hmem' : tableID ∈ s.relsStatistics.readOnly := by
    rwa [← Finmap.mem_keys, h.keys, Finmap.mem_keys]
  obtain ⟨relStatistics, hlookup⟩ := Finmap.mem_iff.mp hmem'
  rw [← hforWrite] at hlookup
  obtain ⟨relStatistics', hfirst⟩ := exists_setNumRelsPerDirectionBoundTableID hlookup
  have hsecond := @exists_setNumRelsForTable tableID
    (s.relsStatistics.setWrite (s.relsStatistics.forWrite.insert tableID relStatistics'))
    (calculateNumRows hasHeader numLinesPerBlock) relStatistics' (Finmap.lookup_insert _)
  have hcatalog : (s.catalog.checkpoint?).getD s.catalog = s.catalog := by
    rw [Versioned.checkpoint?, h.catalogWrite]
    rfl
  have hcopy := congrArg (fun statistics ↦ statistics >>= fun statistics ↦
    RelsStatistics.setNumRelsForTable statistics tableID
      (calculateNumRows hasHeader numLinesPerBlock) >>= fun statistics ↦
        pure (commit { s with
          relsStatistics := statistics
          copied := forget tableID s.copied ++ [s.copiedTable tableID hasHeader
            numLinesPerBlock] })) hfirst
  simp only [ok_bind, hsecond] at hcopy
  refine ⟨_, _, hcopy, hcatalog, relsStatistics_commit_setWrite _ _ rfl, ⟨?_, ?_, ?_⟩, rfl⟩
  · rw [Versioned.forWrite_setWrite, keys_insert_of_mem (Finmap.mem_insert.mpr (.inl rfl)),
      hforWrite, keys_insert_of_mem hmem']
  · exact ⟨_, Finmap.lookup_insert _, rfl⟩
  · intro t ht
    rw [Versioned.forWrite_setWrite, Finmap.lookup_insert_of_ne _ ht,
      Finmap.lookup_insert_of_ne _ ht, hforWrite]

theorem copyRelCSV_of_step (hstep : s.step (.copyRelCSV tableID hasHeader numLinesPerBlock
    directionNumRelsPerTable) = some s') :
    tableID ∈ s.catalog.readOnly.relTableSchemas ∧ s.IsEmptyTable tableID ∧
      s.copyRelCSV tableID hasHeader numLinesPerBlock directionNumRelsPerTable = .ok s' := by
  rw [step] at hstep
  split_ifs at hstep with h
  cases hcopy : s.copyRelCSV tableID hasHeader numLinesPerBlock directionNumRelsPerTable with
  | error fault =>
      rw [hcopy] at hstep
      cases hstep
  | ok s'' =>
      rw [hcopy] at hstep
      obtain rfl := Option.some.inj hstep
      exact ⟨h.1, h.2, rfl⟩

/-- A `COPY` keeps the invariant if its IDs are new. -/
theorem Inv.copyRelCSV (h : s.Inv) (hstep : s.step (.copyRelCSV tableID hasHeader numLinesPerBlock
    directionNumRelsPerTable) = some s') (hdisjoint : s'.DisjointRelIDs) : s'.Inv := by
  obtain ⟨hmem, -, hcopy⟩ := copyRelCSV_of_step hstep
  obtain ⟨s'', readOnly, hcopy', hcatalog, hstatistics, hreadOnly, hcopied⟩ :=
    @Inv.exists_copyRelCSV s tableID hasHeader numLinesPerBlock directionNumRelsPerTable h hmem
  obtain rfl := Except.ok.inj (hcopy.symm.trans hcopy')
  have hkeys : s'.relsStatistics.readOnly.keys = s.relsStatistics.readOnly.keys := by
    rw [hstatistics, hreadOnly.keys]
  refine ⟨?_, ?_, ?_, ?_, ?_, ?_, hdisjoint⟩
  · rw [hcatalog, h.catalogWrite]
  · rw [hstatistics]
  · rw [hkeys, h.keys, hcatalog]
  · intro t statistics ht
    rw [hstatistics] at ht
    rw [hcopied, counted_append, counted_forget, counted_cons, counted_nil]
    by_cases heq : t = tableID
    · subst heq
      obtain ⟨statistics', hself, hnumTuples⟩ := hreadOnly.self
      obtain rfl := Option.some.inj (hself.symm.trans ht)
      rw [hnumTuples, if_pos rfl, copiedTable, if_pos rfl, Nat.zero_add, Nat.add_zero]
    · rw [hreadOnly.frame t heq] at ht
      rw [if_neg heq, copiedTable, if_neg (Ne.symm heq)]
      exact h.numTuples t statistics ht
  · intro c hc
    rw [← Finmap.mem_keys, hkeys, Finmap.mem_keys]
    rw [hcopied] at hc
    rcases List.mem_append.mp hc with hc | hc
    · obtain ⟨c', hc', heq⟩ := tableID_mem_of_mem_forget hc
      rw [← heq]
      exact h.mem c' hc'
    · obtain rfl := List.mem_singleton.mp hc
      rw [← Finmap.mem_keys, h.keys, Finmap.mem_keys]
      exact hmem
  · rw [hcopied]
    apply (h.starts.forget tableID).concat
    rw [copiedTable, h.getNextRelID_eq, total_forget tableID, Nat.zero_add]

/-- Only a `COPY` gives new IDs. -/
theorem Inv.step (h : s.Inv) (hstep : s.step statement = some s')
    (hdisjoint : s'.DisjointRelIDs) : s'.Inv := by
  cases statement with
  | createNodeTable tableName primaryKeyIdx definitions => exact h.createNodeTable hstep
  | dropNodeTable tableID => exact h.dropNodeTable hstep
  | createRelTable tableName relMultiplicity definitions srcDstTableIDs =>
      exact h.createRelTable hstep
  | copyRelCSV tableID hasHeader numLinesPerBlock directionNumRelsPerTable =>
      exact h.copyRelCSV hstep hdisjoint
  | dropRelTable tableID => exact h.dropRelTable hstep

/-- The assertions compare the table ID with the number of rel tables. -/
theorem Inv.assertsTableID_iff (h : s.Inv) (hmem : tableID ∈ s.catalog.readOnly.relTableSchemas) :
    (RelsStatistics.AssertsTableID s.relsStatistics tableID ∧
      ∀ statistics, RelsStatistics.setNumRelsPerDirectionBoundTableID s.relsStatistics tableID
        directionNumRelsPerTable = .ok statistics →
          RelsStatistics.AssertsTableID statistics tableID) ↔
      tableID < s.catalog.readOnly.relTableSchemas.keys.card := by
  have hforWrite := Versioned.forWrite_of_write_eq_none h.statisticsWrite
  have hmem' : tableID ∈ s.relsStatistics.readOnly := by
    rwa [← Finmap.mem_keys, h.keys, Finmap.mem_keys]
  have hfirst : RelsStatistics.AssertsTableID s.relsStatistics tableID ↔
      tableID < s.catalog.readOnly.relTableSchemas.keys.card := by
    rw [RelsStatistics.AssertsTableID, hforWrite, h.keys]
  rw [← hfirst, and_iff_left_iff_imp]
  intro hasserts statistics hstatistics
  obtain ⟨relStatistics, hlookup⟩ := Finmap.mem_iff.mp hmem'
  rw [← hforWrite] at hlookup
  obtain ⟨relStatistics', hset⟩ := @exists_setNumRelsPerDirectionBoundTableID _
    directionNumRelsPerTable _ _ hlookup
  obtain rfl := Except.ok.inj (hset.symm.trans hstatistics)
  rw [RelsStatistics.AssertsTableID, Versioned.forWrite_setWrite, hforWrite,
    keys_insert_of_mem hmem', ← hforWrite]
  exact hasserts

/-- Where the IDs of a new table meet those of a table that has been copied before. -/
theorem Inv.disjoint_copiedTable_iff (h : s.Inv) {before after : List CopiedTable} {c : CopiedTable}
    (hsplit : s.copied = before ++ c :: after) :
    Disjoint c.relIDs (s.copiedTable tableID hasHeader numLinesPerBlock).relIDs ↔
      (0 < c.numRels → 0 < numRelsOf hasHeader numLinesPerBlock →
        c.lost + c.numRels ≤ c.numTuples + total after ∨
          c.numTuples + total after + numRelsOf hasHeader numLinesPerBlock ≤ c.lost) := by
  have hstarts := h.starts
  rw [hsplit] at hstarts
  have hstart := hstarts.startRelID_eq
  have htotal : RelsStatistics.getNextRelID s.relsStatistics =
      total before + (c.numTuples + total after) := by
    rw [h.getNextRelID_eq, hsplit, total_append, total_cons]
  rw [relIDs, relIDs, copiedTable, Set.Ico_disjoint_Ico, hstart, htotal]
  simp only [Nat.zero_add]
  omega

theorem Inv.disjointRelIDs_iff (h : s.Inv) (hstep : s.step (.copyRelCSV tableID hasHeader
    numLinesPerBlock directionNumRelsPerTable) = some s') :
    s'.DisjointRelIDs ↔ ∀ before c after, s.copied = before ++ c :: after → 0 < c.numRels →
      0 < numRelsOf hasHeader numLinesPerBlock →
        c.lost + c.numRels ≤ c.numTuples + total after ∨
          c.numTuples + total after + numRelsOf hasHeader numLinesPerBlock ≤ c.lost := by
  obtain ⟨hmem, hempty, hcopy⟩ := copyRelCSV_of_step hstep
  obtain ⟨s'', readOnly, hcopy', -, -, -, hcopied⟩ :=
    @Inv.exists_copyRelCSV s tableID hasHeader numLinesPerBlock directionNumRelsPerTable h hmem
  obtain rfl := Except.ok.inj (hcopy.symm.trans hcopy')
  have hforget := h.disjoint.forget tableID
  have hnew : s'.DisjointRelIDs ↔ ∀ ids ∈ (forget tableID s.copied).map relIDs,
      Disjoint ids (s.copiedTable tableID hasHeader numLinesPerBlock).relIDs := by
    rw [DisjointRelIDs, hcopied, List.map_append, List.pairwise_append]
    simp [hforget]
  rw [hnew, map_relIDs_forget]
  constructor
  · intro hdisjoint before c after hsplit hpos
    have hc : c ∈ s.copied := by
      rw [hsplit]
      exact List.mem_append_right _ List.mem_cons_self
    have hne : c.tableID ≠ tableID := fun heq ↦ hpos.ne' (hempty c hc heq)
    have hids := hdisjoint c.relIDs
      (List.mem_map_of_mem (List.mem_filter.mpr ⟨hc, decide_eq_true hne⟩))
    exact (h.disjoint_copiedTable_iff hsplit).mp hids hpos
  · intro hfits ids hids
    obtain ⟨c, hc, rfl⟩ := List.mem_map.mp hids
    obtain ⟨before, after, hsplit⟩ := List.append_of_mem (List.mem_filter.mp hc).1
    exact (h.disjoint_copiedTable_iff hsplit).mpr (hfits before c after hsplit)

theorem Inv.keepsRelIDs_iff (h : s.Inv) (hstep : s.step statement = some s') :
    s.KeepsRelIDs statement ↔ s.FitsRelIDs statement := by
  cases statement with
  | copyRelCSV tableID hasHeader numLinesPerBlock directionNumRelsPerTable =>
      have hasserts := @Inv.assertsTableID_iff s tableID directionNumRelsPerTable h
        (copyRelCSV_of_step hstep).1
      have hdisjoint := h.disjointRelIDs_iff hstep
      rw [KeepsRelIDs, FitsRelIDs]
      refine and_congr hasserts ?_
      rw [← hdisjoint]
      constructor
      · exact fun hall ↦ hall s' hstep
      · intro hs' s'' hs''
        obtain rfl := Option.some.inj (hstep.symm.trans hs'')
        exact hs'
  | createNodeTable tableName primaryKeyIdx definitions =>
      exact iff_true_intro ⟨trivial, fun s'' hs'' ↦ (h.createNodeTable hs'').disjoint⟩
  | dropNodeTable tableID =>
      exact iff_true_intro ⟨trivial, fun s'' hs'' ↦ (h.dropNodeTable hs'').disjoint⟩
  | createRelTable tableName relMultiplicity definitions srcDstTableIDs =>
      exact iff_true_intro ⟨trivial, fun s'' hs'' ↦ (h.createRelTable hs'').disjoint⟩
  | dropRelTable tableID =>
      exact iff_true_intro ⟨trivial, fun s'' hs'' ↦ (h.dropRelTable hs'').disjoint⟩

/-- In a run the assertions hold and the IDs stay different, if every `COPY` fits in, and only
then. -/
theorem meetsAlong_keepsRelIDs_iff (hinitial : s.IsInitial)
    (hrun : run RelTables.step s statements = some s') :
    MeetsAlong RelTables.step KeepsRelIDs s statements ↔
      MeetsAlong RelTables.step FitsRelIDs s statements := by
  apply meetsAlong_iff Inv _ _ hinitial.inv hrun
  · intro s statement s' hinv hstep
    exact hinv.keepsRelIDs_iff hstep
  · intro s statement s' hinv hfits hstep
    exact hinv.step hstep (((hinv.keepsRelIDs_iff hstep).mpr hfits).2 s' hstep)

def noRelTables : RelTables := ⟨⟨{}, none⟩, ⟨∅, none⟩, []⟩

theorem isInitial_noRelTables : noRelTables.IsInitial := ⟨rfl, rfl, rfl, rfl⟩

def createRelTables (tableNames : List String) : List RelStatement :=
  .createNodeTable "person" 0 [] :: tableNames.map fun tableName ↦
    .createRelTable tableName .manyMany [] ⟨[0], [0]⟩

/-- A table is dropped and a third one gets the IDs of the second. -/
def reusingRelIDs : List RelStatement :=
  createRelTables ["a", "b", "c", "d"] ++ [.copyRelCSV 0 false [5] fun _ ↦ [5],
    .copyRelCSV 1 false [5] fun _ ↦ [5], .dropRelTable 0, .copyRelCSV 2 false [5] fun _ ↦ [5]]

theorem copied_reusingRelIDs : (run RelTables.step noRelTables reusingRelIDs).map (·.copied) =
    some [⟨1, 5, 5, 5, 5⟩, ⟨2, 5, 5, 5, 0⟩] := by
  decide +kernel

/-- The last of two tables keeps its ID when the first is dropped. -/
theorem lastTableID_dropRelTable :
    (run RelTables.step noRelTables (createRelTables ["a", "b"] ++ [.dropRelTable 0])).map
      (fun s ↦ (s.catalog.readOnly.relTableSchemas.keys, s.relsStatistics.forWrite.keys.card)) =
    some ({1}, 1) := by
  decide +kernel

theorem not_disjointRelIDs_and_not_assertsTableID :
    (¬ ∀ (s : RelTables) (statements : List RelStatement) (s' : RelTables), s.IsInitial →
      run RelTables.step s statements = some s' → s'.DisjointRelIDs) ∧
    ¬ ∀ (s : RelTables) (statements : List RelStatement) (s' : RelTables) (tableID : ℕ),
      s.IsInitial → run RelTables.step s statements = some s' →
        tableID ∈ s'.catalog.readOnly.relTableSchemas →
          RelsStatistics.AssertsTableID s'.relsStatistics tableID := by
  constructor
  · intro h
    obtain ⟨s', hrun, hcopied⟩ := Option.map_eq_some_iff.mp copied_reusingRelIDs
    have hdisjoint := h noRelTables reusingRelIDs s' isInitial_noRelTables hrun
    rw [DisjointRelIDs, hcopied] at hdisjoint
    have hids := (List.pairwise_cons.mp hdisjoint).1 _ List.mem_cons_self
    rw [relIDs, relIDs, Set.Ico_disjoint_Ico] at hids
    exact absurd hids (by decide)
  · intro h
    obtain ⟨s', hrun, htables⟩ := Option.map_eq_some_iff.mp lastTableID_dropRelTable
    obtain ⟨hkeys, hcard⟩ := Prod.mk.inj htables
    have hmem : 1 ∈ s'.catalog.readOnly.relTableSchemas := by
      rw [← Finmap.mem_keys, hkeys]
      exact Finset.mem_singleton_self 1
    have hasserts := h noRelTables _ s' 1 isInitial_noRelTables hrun hmem
    rw [RelsStatistics.AssertsTableID, hcard] at hasserts
    exact absurd hasserts (Nat.lt_irrefl 1)

theorem exists_meetsAlong_keepsRelIDs_iff : ∃ s',
    run RelTables.step noRelTables reusingRelIDs = some s' ∧
      (MeetsAlong RelTables.step KeepsRelIDs noRelTables reusingRelIDs ↔
        MeetsAlong RelTables.step FitsRelIDs noRelTables reusingRelIDs) := by
  obtain ⟨s', hrun, -⟩ := Option.map_eq_some_iff.mp copied_reusingRelIDs
  exact ⟨s', hrun, meetsAlong_keepsRelIDs_iff isInitial_noRelTables hrun⟩

end RelTables

end Graphflow.Storage
