import Graphflow.Database.Rollback

/-!
# What a transaction that is rolled back leaves behind

The views that readers and the next writer have of the database, before a write transaction and
after its rollback.
-/

namespace Graphflow

open Wal Storage

variable {Page : Type}

namespace Database

variable {db₀ db db' db₁ : Database Page} {m : TransactionManager} {t : Transaction}
  {updates : List (Update Page)}

/-! ## The views -/

/-- What a transaction can see of the database. -/
structure View (Page : Type) where
  nodesStatisticsAndDeletedIDs : TableMap NodeStatisticsAndDeletedIDs
  relsStatistics : TableMap RelStatistics
  catalog : CatalogContent
  pages : StorageStructureID → Option (ℕ → Option Page)
  updatedLists : ℕ → Finmap fun _ : ℕ ↦ List UInt8

def view (db : Database Page) : TransactionType → View Page
  | .readOnly =>
      { nodesStatisticsAndDeletedIDs := db.nodesStatisticsAndDeletedIDs.readOnly
        relsStatistics := db.relsStatistics.readOnly
        catalog := db.catalog.readOnly
        pages := fun id ↦ (db.files id).map StructureFile.readView
        updatedLists := fun _ ↦ ∅ }
  | .write =>
      { nodesStatisticsAndDeletedIDs := db.nodesStatisticsAndDeletedIDs.forWrite
        relsStatistics := db.relsStatistics.forWrite
        catalog := db.catalog.forWrite
        pages := fun id ↦ (db.files id).map (StructureFile.writeView · db.wal)
        updatedLists := db.localUpdatedLists }

/-- The writer sees the pages that the readers see while no page has a version. -/
theorem pages_view_write (hversions : ∀ id file, db.files id = some file →
    ∀ p < file.numPages, file.fileHandle.pageVersions p = none) :
    (db.view .write).pages = (db.view .readOnly).pages := by
  funext id
  simp only [view]
  cases hid : db.files id with
  | none => rfl
  | some file =>
      simp only [Option.map_some, StructureFile.writeView_of_versions db.wal
        (hversions id file hid)]

theorem RolledBack.pages_view_readOnly (hback : RolledBack db₀ db db') :
    (db'.view .readOnly).pages = (db₀.view .readOnly).pages := by
  funext id
  simp only [view]
  cases hid : db₀.files id with
  | none => rw [hback.noFile id hid]
  | some file₀ =>
      obtain ⟨file', hid', hview, -⟩ := hback.file id file₀ hid
      rw [hid', Option.map_some, Option.map_some, hview]

theorem RolledBack.versions (hback : RolledBack db₀ db db') : ∀ id file, db'.files id = some file →
    ∀ p < file.numPages, file.fileHandle.pageVersions p = none := by
  intro id file hid
  cases hid₀ : db₀.files id with
  | none =>
      rw [hback.noFile id hid₀] at hid
      simp at hid
  | some file₀ =>
      obtain ⟨file', hid', -, hversions⟩ := hback.file id file₀ hid₀
      obtain rfl := Option.some.inj (hid.symm.trans hid')
      exact hversions

theorem RolledBack.view_readOnly (hback : RolledBack db₀ db db') (hp : db₀.Pending db) :
    db'.view .readOnly = db₀.view .readOnly := by
  have hpages := hback.pages_view_readOnly
  simp only [view] at hpages
  simp only [view, hback.nodesStatistics, hback.relsStatistics, hback.catalog, hpages,
    Lib.Versioned.readOnly_rollback, hp.nodesReadOnly, hp.relsReadOnly, hp.catalogReadOnly]

/-- What the next write transaction finds: the pages, node statistics and lists of the readers, and
whatever the transaction did to the rel statistics and the catalog. -/
theorem RolledBack.view_write (hback : RolledBack db₀ db db') (hp : db₀.Pending db) :
    db'.view .write = { db₀.view .readOnly with
      relsStatistics := db.relsStatistics.forWrite
      catalog := db.catalog.forWrite } := by
  have hpages : (db'.view .write).pages = (db₀.view .readOnly).pages :=
    (pages_view_write hback.versions).trans hback.pages_view_readOnly
  have hlists : db'.localUpdatedLists = fun _ ↦ ∅ := funext hback.lists
  simp only [view] at hpages
  simp only [view, hback.nodesStatistics, hback.relsStatistics, hback.catalog, hpages, hlists,
    Lib.Versioned.forWrite_rollback, hp.nodesReadOnly]

/-! ## When a transaction is undone -/

/-- A transaction that began in `db` and has come to `db₁` can be undone: the loops of the rollback
meet the tables they look for, the transaction has changed neither the rel statistics nor the
catalog, and no statistics or lists were pending when it began. -/
structure Restorable (db db₁ : Database Page) : Prop where
  tables : ∀ tableID < db.nodeTables.card, tableID ∈ db.nodeTables
  updatedLists : ∀ list ∈ db.wal.updatedUnstructuredPropertyLists, db.ListOfTable list
  relsStatistics : db₁.relsStatistics.forWrite = db.relsStatistics.forWrite
  catalog : db₁.catalog.forWrite = db.catalog.forWrite
  nodesStatistics :
    db.nodesStatisticsAndDeletedIDs.forWrite = db.nodesStatisticsAndDeletedIDs.readOnly
  lists : ∀ tableID, db.localUpdatedLists tableID = ∅

theorem beginWriteTransaction_ok {m₀ : TransactionManager}
    (hbegin : m₀.beginWriteTransaction = .ok (m, t)) :
    t.type = .write ∧ m.activeWriteTransactionID = t.ID := by
  unfold TransactionManager.beginWriteTransaction at hbegin
  split at hbegin
  · simp at hbegin
  · obtain ⟨rfl, rfl⟩ := Prod.mk.inj (Except.ok.inj hbegin)
    exact ⟨rfl, rfl⟩

/-- The views of the readers and of the next writer come back exactly if the transaction was
restorable. -/
theorem transaction_undone_iff (hwf : db.WellFormed) (hquiet : db.NoVersions)
    (hbegin : db.transactionManager.beginWriteTransaction = .ok (m, t))
    (hupdates : { db with transactionManager := m }.performAll updates = .ok db₁)
    (input : CommitInput Page) :
    (∃ db₂, db₁.commitAndCheckpointOrRollback t false input = .ok db₂ ∧
      ∀ type, db₂.view type = db.view type) ↔ db.Restorable db₁ := by
  have hwf₀ : { db with transactionManager := m }.WellFormed := ⟨hwf.files, hwf.lists⟩
  have hquiet₀ : { db with transactionManager := m }.NoVersions :=
    ⟨hquiet.records, hquiet.versions⟩
  have hp := (Pending.refl hwf₀ hquiet₀).performAll hupdates
  obtain ⟨ht, hactive⟩ := beginWriteTransaction_ok hbegin
  have hpages : (db.view .write).pages = (db.view .readOnly).pages :=
    pages_view_write hquiet.versions
  constructor
  · rintro ⟨db₂, hdb₂, hview⟩
    obtain ⟨htables, hlists⟩ := of_rollback_eq_ok hp hwf₀ hdb₂
    obtain ⟨db₃, hdb₃, hback⟩ := exists_rollback hp hwf₀ ht hactive htables hlists input
    obtain rfl := Except.ok.inj (hdb₂.symm.trans hdb₃)
    have hwrite := (hview .write).symm.trans (hback.view_write hp)
    exact {
      tables := htables
      updatedLists := hlists
      relsStatistics := (congrArg View.relsStatistics hwrite).symm
      catalog := (congrArg View.catalog hwrite).symm
      nodesStatistics := congrArg View.nodesStatisticsAndDeletedIDs hwrite
      lists := fun tableID ↦ congrFun (congrArg View.updatedLists hwrite) tableID }
  · intro hr
    obtain ⟨db₂, hdb₂, hback⟩ := exists_rollback hp hwf₀ ht hactive hr.tables hr.updatedLists input
    refine ⟨db₂, hdb₂, fun type ↦ ?_⟩
    cases type with
    | readOnly => exact hback.view_readOnly hp
    | write =>
        have hlists : db.localUpdatedLists = fun _ ↦ ∅ := funext hr.lists
        rw [hback.view_write hp, hr.relsStatistics, hr.catalog]
        simp only [view] at hpages ⊢
        simp only [hr.nodesStatistics, hlists, hpages]

/-- Two node tables of which the first has a column of one page, and a rel table between them. -/
def twoTables : Database ℕ where
  nodeTables := {0, 1}
  files id := if id = ⟨.structuredNodePropertyColumn 0 0, false⟩ then
      some ⟨⟨1, fun _ ↦ none⟩, fun _ ↦ 0⟩ else none
  overflowPositions _ := {}
  localUpdatedLists _ := ∅
  nodesStatisticsAndDeletedIDs :=
    { readOnly := (Finmap.singleton 0 (.empty 0)).insert 1 (.empty 1) }
  relsStatistics := { readOnly := Finmap.singleton 0 (.ofSrcDstTableIDs ⟨[0], [1]⟩) }
  catalog := { readOnly := {} }
  wal := { pages := fun _ ↦ 0 }

theorem twoTables_wellFormed : twoTables.WellFormed where
  files := by
    intro id file hid
    simp only [twoTables] at hid
    split at hid
    next heq => exact ⟨0, by decide, by rw [heq]; rfl⟩
    · simp at hid
  lists := fun tableID hne ↦ absurd rfl hne

theorem twoTables_noVersions : twoTables.NoVersions where
  records := rfl
  versions := by
    intro id file hid p _
    simp only [twoTables] at hid
    split at hid
    · obtain rfl := Option.some.inj hid
      rfl
    · simp at hid

/-- The transaction that adds a node and writes its property. -/
def addPerson : List (Update ℕ) :=
  [.addNode 0, .writeElement ⟨.structuredNodePropertyColumn 0 0, false⟩ 0 (· + 1) 0]

/-- The input of an end of a transaction that checkpoints nothing. -/
def noInput : CommitInput ℕ := ⟨fun _ ↦ [], fun _ ↦ (0, fun _ ↦ 0)⟩

/-- The manager of `twoTables` once the first write transaction has begun. -/
def oneWriter : TransactionManager := { activeWriteTransactionID := 1, lastTransactionID := 1 }

theorem transaction_undone_addPerson : ∃ db₁ db₂,
    { twoTables with transactionManager := oneWriter }.performAll addPerson = .ok db₁ ∧
      db₁.commitAndCheckpointOrRollback ⟨.write, 1⟩ false noInput = .ok db₂ ∧
      ∀ type, db₂.view type = twoTables.view type := by
  obtain ⟨db₁, hupdates, hrels, hcatalog⟩ : ∃ db₁,
      { twoTables with transactionManager := oneWriter }.performAll addPerson = .ok db₁ ∧
        db₁.relsStatistics.forWrite = twoTables.relsStatistics.forWrite ∧
        db₁.catalog.forWrite = twoTables.catalog.forWrite := ⟨_, rfl, rfl, rfl⟩
  have hrestorable : twoTables.Restorable db₁ := {
    tables := by decide
    updatedLists := by simp [twoTables]
    relsStatistics := hrels
    catalog := hcatalog
    nodesStatistics := rfl
    lists := fun _ ↦ rfl }
  obtain ⟨db₂, hback, hview⟩ := (transaction_undone_iff twoTables_wellFormed twoTables_noVersions
    rfl hupdates noInput).mpr hrestorable
  exact ⟨db₁, db₂, hupdates, hback, hview⟩

/-- The updates of a `COPY` into a rel table. -/
def copyKnows : List (Update ℕ) :=
  [.setNumRelsPerDirectionBoundTableID 0 fun _ ↦ [1], .setNumRels 0 1, .logCopyRelCSV 0]

def numRels (view : View ℕ) : Option ℕ := (view.relsStatistics.lookup 0).map (·.numTuples)

/-- The number of rels that the next writer sees is the one of the copy that was rolled back. -/
theorem copyKnows_not_undone : ∃ db₁ db₂,
    twoTables.transactionManager.beginWriteTransaction = .ok (oneWriter, ⟨.write, 1⟩) ∧
      { twoTables with transactionManager := oneWriter }.performAll copyKnows = .ok db₁ ∧
      db₁.commitAndCheckpointOrRollback ⟨.write, 1⟩ false noInput = .ok db₂ ∧
      db₂.view .write ≠ twoTables.view .write := by
  refine ⟨_, _, rfl, rfl, rfl, fun hview ↦ ?_⟩
  have hnumRels : some 1 = some 0 := congrArg numRels hview
  simp at hnumRels

end Database

end Graphflow
