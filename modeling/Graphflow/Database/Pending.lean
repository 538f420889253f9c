import Graphflow.Database.Replay

/-!
# What the updates of a transaction leave pending

Every version of a page that a transaction makes comes with a record of the page, and every page
that it adds with an insertion.  `StructureFile.Since` says this of one file and `Database.Pending`
of the whole database; both compare a state with the one in which the transaction began.
-/

namespace Graphflow

open Wal Storage VersionedFileHandle

variable {Page : Type} {file₀ file file' : StructureFile Page} {wal wal' : WAL Page}
  {id id' : StorageStructureID} {p : ℕ} {updateOp : Page → Page} {junk : Page}
  {records records' : List PageRecord}

/-! ## The page records of a file -/

def PageRecord.toWALRecord (id : StorageStructureID) (r : PageRecord) : WALRecord :=
  .pageUpdateOrInsert id r.pageIdxInOriginalFile r.pageIdxInWAL r.isInsert

def pageRecord? (id : StorageStructureID) : WALRecord → Option PageRecord
  | .pageUpdateOrInsert id' pageIdxInOriginalFile pageIdxInWAL isInsert =>
      if id' = id then some ⟨pageIdxInOriginalFile, pageIdxInWAL, isInsert⟩ else none
  | _ => none

/-- The records of a log about one file. -/
def recordsOf (id : StorageStructureID) (log : Log) : List PageRecord :=
  log.filterMap (pageRecord? id)

@[simp] theorem recordsOf_append (id : StorageStructureID) (log log' : Log) :
    recordsOf id (log ++ log') = recordsOf id log ++ recordsOf id log' :=
  List.filterMap_append

theorem recordsOf_map_toWALRecord (records : List PageRecord) :
    recordsOf id (records.map (PageRecord.toWALRecord id)) = records := by
  induction records with
  | nil => rfl
  | cons r records ih =>
      simp only [recordsOf] at ih
      simp [recordsOf, pageRecord?, PageRecord.toWALRecord, ih]

theorem recordsOf_map_toWALRecord_of_ne (hne : id ≠ id') (records : List PageRecord) :
    recordsOf id' (records.map (PageRecord.toWALRecord id)) = [] := by
  induction records with
  | nil => rfl
  | cons r records ih =>
      simp only [recordsOf] at ih
      simp [recordsOf, pageRecord?, PageRecord.toWALRecord, ih, hne]

/-! ## One file -/

namespace StructureFile

/-- `file` is `file₀` after updates that logged `records`. -/
structure Since (file₀ file : StructureFile Page) (records : List PageRecord) : Prop where
  pages : file.pages = file₀.pages
  numPages_le : file₀.numPages ≤ file.numPages
  /-- The first page that is added stands right behind the old end of the file. -/
  grown : file.numPages = file₀.numPages ∨
    ∃ r ∈ records, r.isInsert ∧ r.pageIdxInOriginalFile = file₀.numPages
  inserts : ∀ r ∈ records, r.isInsert → file₀.numPages ≤ r.pageIdxInOriginalFile
  recorded : ∀ p < file₀.numPages, file.fileHandle.pageVersions p ≠ none →
    ∃ r ∈ records, r.pageIdxInOriginalFile = p

theorem Since.refl (hversions : ∀ p < file.numPages, file.fileHandle.pageVersions p = none) :
    Since file file [] where
  pages := rfl
  numPages_le := le_rfl
  grown := .inl rfl
  inserts := by simp
  recorded := fun p hp hversion ↦ absurd (hversions p hp) hversion

theorem Since.addNewPageToFileHandle (hsince : Since file₀ file records)
    (id : StorageStructureID) (junk : Page) (wal : WAL Page) :
    Since file₀ (file.addNewPageToFileHandle id junk wal).1
      (records ++ [⟨file.numPages, wal.numPages, true⟩]) where
  pages := hsince.pages
  numPages_le := Nat.le_succ_of_le hsince.numPages_le
  grown := by
    right
    rcases hsince.grown with heq | ⟨r, hr, hinsert, hpage⟩
    · exact ⟨_, List.mem_append_right _ (List.mem_singleton_self _), rfl, heq⟩
    · exact ⟨r, List.mem_append_left _ hr, hinsert, hpage⟩
  inserts := by
    intro r hr hinsert
    rcases List.mem_append.mp hr with hr | hr
    · exact hsince.inserts r hr hinsert
    · obtain rfl := List.mem_singleton.mp hr
      exact hsince.numPages_le
  recorded := by
    intro p hp hversion
    have hpn : p < file.fileHandle.numPages := lt_of_lt_of_le hp hsince.numPages_le
    have hgroup : p / pageGroupSize < numPageGroups (file.fileHandle.numPages + 1) :=
      div_lt_numPageGroups (by omega)
    have hold : file.fileHandle.pageVersions p ≠ none := by
      simpa [StructureFile.addNewPageToFileHandle, Function.update_of_ne hpn.ne,
        StructureFile.numPages, VersionedFileHandle.addNewPage, resizePageVersions, hgroup]
        using hversion
    obtain ⟨r, hr, hpage⟩ := hsince.recorded p hp hold
    exact ⟨r, List.mem_append_left _ hr, hpage⟩

/-- A version is made together with an update record of the page. -/
theorem Since.setWALPageVersion (hsince : Since file₀ file records) (r : PageRecord)
    (hr : r.isInsert = false) :
    Since file₀ { file with
      fileHandle := file.fileHandle.setWALPageVersion r.pageIdxInOriginalFile r.pageIdxInWAL }
      (records ++ [r]) where
  pages := hsince.pages
  numPages_le := hsince.numPages_le
  grown := hsince.grown.imp_right fun ⟨r', hr', h⟩ ↦ ⟨r', List.mem_append_left _ hr', h⟩
  inserts := by
    intro r' hr' hinsert
    rcases List.mem_append.mp hr' with hr' | hr'
    · exact hsince.inserts r' hr' hinsert
    · obtain rfl := List.mem_singleton.mp hr'
      simp [hr] at hinsert
  recorded := by
    intro p hp hversion
    by_cases hpr : p = r.pageIdxInOriginalFile
    · exact ⟨r, List.mem_append_right _ (List.mem_singleton_self r), hpr.symm⟩
    · simp only [setWALPageVersion_pageVersions, Function.update_of_ne hpr] at hversion
      obtain ⟨r', hr', hpage⟩ := hsince.recorded p hp hversion
      exact ⟨r', List.mem_append_left _ hr', hpage⟩

/-- What an operation on a file may do: append records about the file to the log such that they
account for the versions and pages it adds. -/
def Accounts (id : StorageStructureID)
    (op : StructureFile Page → WAL Page → Except Fault (StructureFile Page × WAL Page)) : Prop :=
  ∀ ⦃file wal file' wal'⦄, op file wal = .ok (file', wal') →
    wal'.updatedUnstructuredPropertyLists = wal.updatedUnstructuredPropertyLists ∧
    ∃ new : List PageRecord,
      wal'.records = wal.records ++ new.map (PageRecord.toWALRecord id) ∧
      ∀ ⦃file₀ records⦄, Since file₀ file records → Since file₀ file' (records ++ new)

theorem accounts_addNewPageToFileHandle (id : StorageStructureID) (junk : Page) :
    Accounts id fun file wal ↦ .ok (file.addNewPageToFileHandle id junk wal) := by
  intro file wal file' wal' hop
  obtain ⟨rfl, rfl⟩ := Prod.mk.inj (Except.ok.inj hop)
  exact ⟨rfl, [⟨file.numPages, wal.numPages, true⟩], rfl,
    fun _ _ hsince ↦ hsince.addNewPageToFileHandle id junk wal⟩

theorem accounts_updatePage (id : StorageStructureID) (pageIdx : ℕ) (updateOp : Page → Page) :
    Accounts id (updatePage id pageIdx updateOp) := by
  intro file wal file' wal' hop
  unfold updatePage at hop
  split at hop
  · simp at hop
  · split at hop
    · obtain ⟨rfl, rfl⟩ := Prod.mk.inj (Except.ok.inj hop)
      exact ⟨rfl, [], by simp, fun _ _ hsince ↦ by simpa using hsince⟩
    · obtain ⟨rfl, rfl⟩ := Prod.mk.inj (Except.ok.inj hop)
      exact ⟨rfl, [⟨pageIdx, wal.numPages, false⟩], rfl,
        fun _ _ hsince ↦ hsince.setWALPageVersion ⟨pageIdx, wal.numPages, false⟩ rfl⟩

theorem accounts_writeElement (id : StorageStructureID) (pageIdx : ℕ) (updateOp : Page → Page)
    (junk : Page) : Accounts id (writeElement id pageIdx updateOp junk) := by
  intro file wal file' wal' hop
  unfold writeElement at hop
  split at hop
  · obtain ⟨hlists, new, hrecords, hsince⟩ := accounts_updatePage id pageIdx updateOp hop
    refine ⟨hlists, ⟨file.numPages, wal.numPages, true⟩ :: new, ?_, ?_⟩
    · rw [hrecords]
      simp [PageRecord.toWALRecord]
    · intro file₀ records hfile
      simpa using hsince (hfile.addNewPageToFileHandle id junk wal)
  · exact accounts_updatePage id pageIdx updateOp hop

end StructureFile

/-! ## The whole database -/

/-- The table that a structure with a handle belongs to: the columns, base lists and overflow files
of node tables are the structures whose versions the replayer clears. -/
def versionedTable? (id : StorageStructureID) : Option ℕ :=
  match id.storageStructure with
  | .structuredNodePropertyColumn tableID _ => some tableID
  | .lists (.unstructuredNodePropertyLists .baseLists tableID) => some tableID
  | _ => none

namespace Database

variable {db₀ db db' : Database Page}

/-- The handles and the updated lists are those of existing node tables. -/
structure WellFormed (db : Database Page) : Prop where
  files : ∀ id file, db.files id = some file → ∃ tableID ∈ db.nodeTables,
    versionedTable? id = some tableID
  lists : ∀ tableID, db.localUpdatedLists tableID ≠ ∅ → tableID ∈ db.nodeTables

/-- The WAL is empty and no page has a version in it. -/
structure NoVersions (db : Database Page) : Prop where
  records : db.wal.records = []
  versions : ∀ id file, db.files id = some file → ∀ p < file.numPages,
    file.fileHandle.pageVersions p = none

/-- The records about pages and overflow files are about files with a handle. -/
def HasFile (db : Database Page) : WALRecord → Prop
  | .pageUpdateOrInsert id _ _ _ => db.files id ≠ none
  | .overflowFileNextBytePos id _ => db.files id ≠ none
  | _ => True

/-- `db` is `db₀` after updates of a transaction. -/
structure Pending (db₀ db : Database Page) : Prop where
  transactionManager : db.transactionManager = db₀.transactionManager
  stoppedNewTransactions : db.stoppedNewTransactions = db₀.stoppedNewTransactions
  nodeTables : db.nodeTables = db₀.nodeTables
  updatedLists :
    db.wal.updatedUnstructuredPropertyLists = db₀.wal.updatedUnstructuredPropertyLists
  nodesReadOnly :
    db.nodesStatisticsAndDeletedIDs.readOnly = db₀.nodesStatisticsAndDeletedIDs.readOnly
  relsReadOnly : db.relsStatistics.readOnly = db₀.relsStatistics.readOnly
  catalogReadOnly : db.catalog.readOnly = db₀.catalog.readOnly
  noFile : ∀ id, db₀.files id = none → db.files id = none
  file : ∀ id file₀, db₀.files id = some file₀ → ∃ file, db.files id = some file ∧
    file₀.Since file (recordsOf id db.wal.records)
  hasFile : ∀ r ∈ db.wal.records, db.HasFile r
  lists : ∀ tableID, db.localUpdatedLists tableID ≠ ∅ → tableID ∈ db.nodeTables

namespace Pending

theorem refl (hwf : db.WellFormed) (hquiet : db.NoVersions) : db.Pending db where
  transactionManager := rfl
  stoppedNewTransactions := rfl
  nodeTables := rfl
  updatedLists := rfl
  nodesReadOnly := rfl
  relsReadOnly := rfl
  catalogReadOnly := rfl
  noFile := fun _ hid ↦ hid
  file := by
    intro id file hfile
    rw [hquiet.records]
    exact ⟨file, hfile, .refl (hquiet.versions id file hfile)⟩
  hasFile := by simp [hquiet.records]
  lists := hwf.lists

theorem setNodes (hp : db₀.Pending db) (nodes : NodesStatisticsAndDeletedIDs)
    (hnodes : nodes.readOnly = db.nodesStatisticsAndDeletedIDs.readOnly) :
    db₀.Pending { db with nodesStatisticsAndDeletedIDs := nodes } :=
  { hp with nodesReadOnly := hnodes.trans hp.nodesReadOnly }

theorem setRels (hp : db₀.Pending db) (rels : RelsStatistics)
    (hrels : rels.readOnly = db.relsStatistics.readOnly) :
    db₀.Pending { db with relsStatistics := rels } :=
  { hp with relsReadOnly := hrels.trans hp.relsReadOnly }

theorem setCatalog (hp : db₀.Pending db) (catalog : Catalog)
    (hcatalog : catalog.readOnly = db.catalog.readOnly) :
    db₀.Pending { db with catalog := catalog } :=
  { hp with catalogReadOnly := hcatalog.trans hp.catalogReadOnly }

theorem setOverflowPositions (hp : db₀.Pending db)
    (positions : StorageStructureID → OverflowPosition) :
    db₀.Pending { db with overflowPositions := positions } := { hp with }

theorem setPropertyList (hp : db₀.Pending db) {tableID : ℕ} (htable : tableID ∈ db.nodeTables)
    (lists : Finmap fun _ : ℕ ↦ List UInt8) :
    db₀.Pending { db with
      localUpdatedLists := Function.update db.localUpdatedLists tableID lists } := by
  refine { hp with lists := fun t ht ↦ ?_ }
  by_cases heq : t = tableID
  · exact heq ▸ htable
  · exact hp.lists t (by simpa [Function.update_of_ne heq] using ht)

/-- A record that is not about a page leaves the files as they are. -/
theorem log (hp : db₀.Pending db) {r : WALRecord} (hr : ∀ id, pageRecord? id r = none)
    (hfile : db.HasFile r) : db₀.Pending (db.log r) := by
  refine { hp with file := fun id file₀ hid ↦ ?_, hasFile := fun r' hr' ↦ ?_ }
  · obtain ⟨file, hfile, hsince⟩ := hp.file id file₀ hid
    refine ⟨file, hfile, ?_⟩
    have hnone : recordsOf id [r] = [] := by simp [recordsOf, hr]
    simpa [Database.log, WAL.log, hnone] using hsince
  · rcases List.mem_append.mp hr' with hr' | hr'
    · exact hp.hasFile r' hr'
    · obtain rfl := List.mem_singleton.mp hr'
      exact hfile

theorem onFile (hp : db₀.Pending db)
    {op : StructureFile Page → WAL Page → Except Fault (StructureFile Page × WAL Page)}
    (hop : StructureFile.Accounts id op) (hdb : db.onFile id op = .ok db') : db₀.Pending db' := by
  unfold Database.onFile at hdb
  split at hdb
  · simp at hdb
  next file hid =>
    obtain ⟨⟨file', wal'⟩, hrun, hdb⟩ := Lib.bind_eq_ok_iff.mp hdb
    obtain rfl := Except.ok.inj hdb
    obtain ⟨hlists, new, hrecords, hsince⟩ := hop hrun
    have hsome : ∀ id', db.files id' ≠ none →
        Function.update db.files id (some file') id' ≠ none := by
      intro id' hid'
      by_cases heq : id' = id
      · simp [heq]
      · simpa [Function.update_of_ne heq] using hid'
    refine { hp with
      updatedLists := hlists.trans hp.updatedLists, noFile := ?_, file := ?_, hasFile := ?_ }
    · intro id' hid'
      have heq : id' ≠ id := by
        rintro rfl
        simp [hp.noFile id' hid'] at hid
      simpa [setFile, Function.update_of_ne heq] using hp.noFile id' hid'
    · intro id' file₀ hid'
      obtain ⟨file₁, hfile₁, hfile⟩ := hp.file id' file₀ hid'
      by_cases heq : id' = id
      · subst heq
        obtain rfl : file = file₁ := Option.some.inj (hid.symm.trans hfile₁)
        refine ⟨file', by simp [setFile], ?_⟩
        simpa [hrecords, recordsOf_map_toWALRecord] using hsince hfile
      · refine ⟨file₁, by simpa [setFile, Function.update_of_ne heq] using hfile₁, ?_⟩
        simpa [hrecords, recordsOf_map_toWALRecord_of_ne (Ne.symm heq)] using hfile
    · intro r hr
      simp only [hrecords] at hr
      rcases List.mem_append.mp hr with hr | hr
      · have hold := hp.hasFile r hr
        cases r with
        | pageUpdateOrInsert id' _ _ _ => exact hsome id' hold
        | overflowFileNextBytePos id' _ => exact hsome id' hold
        | _ => trivial
      · obtain ⟨r', -, rfl⟩ := List.mem_map.mp hr
        simp [PageRecord.toWALRecord, HasFile, setFile]

theorem logNewOverflowFileNextBytePosRecordIfNecessary (hp : db₀.Pending db)
    (hid : db.files id ≠ none) :
    db₀.Pending (db.logNewOverflowFileNextBytePosRecordIfNecessary id) := by
  simp only [Database.logNewOverflowFileNextBytePosRecordIfNecessary]
  split
  · exact hp
  · exact (hp.log (r := .overflowFileNextBytePos id _) (fun _ ↦ rfl) hid).setOverflowPositions _

theorem addNewPageIfNecessary (hp : db₀.Pending db) {numBytes : ℕ}
    (hdb : db.addNewPageIfNecessary id numBytes junk = .ok db') : db₀.Pending db' := by
  simp only [Database.addNewPageIfNecessary] at hdb
  split at hdb
  · split at hdb
    · simp at hdb
    · exact (hp.setOverflowPositions _).onFile
        (StructureFile.accounts_addNewPageToFileHandle id junk) hdb
  · obtain rfl := Except.ok.inj hdb
    exact hp

theorem writeOverflow (hp : db₀.Pending db) {isString : Bool} {numBytes : ℕ}
    (hdb : db.writeOverflow id isString numBytes updateOp junk = .ok db') : db₀.Pending db' := by
  unfold Database.writeOverflow at hdb
  cases hid : db.files id with
  | none => simp [hid] at hdb
  | some file =>
      have hsome : db.files id ≠ none := by simp [hid]
      have hlogged := hp.logNewOverflowFileNextBytePosRecordIfNecessary hsome
      simp only [hid, Bool.false_eq_true, if_false, Lib.pure_eq_ok] at hdb
      split at hdb
      · obtain rfl := Except.ok.inj hdb
        exact hlogged
      · obtain ⟨db₁, hdb₁, hdb⟩ := Lib.bind_eq_ok_iff.mp hdb
        obtain ⟨db₂, hdb₂, hdb⟩ := Lib.bind_eq_ok_iff.mp hdb
        obtain rfl := Except.ok.inj hdb
        have hadded := hlogged.addNewPageIfNecessary hdb₁
        exact (hadded.onFile (StructureFile.accounts_writeElement id _ updateOp junk)
          hdb₂).setOverflowPositions _

/-- Every update of the transaction keeps the relation to the state in which it began. -/
theorem perform (hp : db₀.Pending db) {update : Update Page} (hdb : db.perform update = .ok db') :
    db₀.Pending db' := by
  cases update with
  | addNode tableID =>
      obtain ⟨nodes, hnodes, hdb⟩ := Lib.bind_eq_ok_iff.mp hdb
      obtain rfl := Except.ok.inj hdb
      exact hp.setNodes _ (TablesStatistics.readOnly_updateTable hnodes)
  | deleteNode tableID nodeOffset edgesMessage =>
      obtain ⟨nodes, hnodes, hdb⟩ := Lib.bind_eq_ok_iff.mp hdb
      obtain rfl := Except.ok.inj hdb
      exact hp.setNodes _ (TablesStatistics.readOnly_updateTable hnodes)
  | writeElement id pageIdx updateOp junk =>
      exact hp.onFile (StructureFile.accounts_writeElement id pageIdx updateOp junk) hdb
  | writeOverflow id isString numBytes updateOp junk => exact hp.writeOverflow hdb
  | setPropertyList tableID nodeOffset list =>
      simp only [Database.perform] at hdb
      split at hdb
      next htable =>
        obtain rfl := Except.ok.inj hdb
        exact hp.setPropertyList htable _
      · simp at hdb
  | createNodeTable tableName primaryKeyIdx propertyNameDataTypes =>
      obtain rfl := Except.ok.inj hdb
      have hlog := hp.log (r := .nodeTable db.catalog.forWrite.getNumNodeTables) (fun _ ↦ rfl)
        trivial
      have hcatalog := hlog.setCatalog
        (db.catalog.addNodeTableSchema tableName primaryKeyIdx propertyNameDataTypes).1 rfl
      exact hcatalog.setNodes (NodesStatisticsAndDeletedIDs.addNodeStatisticsAndDeletedIDs
        db.nodesStatisticsAndDeletedIDs db.catalog.forWrite.getNumNodeTables) rfl
  | createRelTable tableName relMultiplicity propertyNameDataTypes srcDstTableIDs =>
      obtain ⟨⟨catalog, tableID, record⟩, hcatalog, hdb⟩ := Lib.bind_eq_ok_iff.mp hdb
      obtain rfl := Except.ok.inj hdb
      obtain ⟨⟨content, tableID'⟩, -, hcatalog⟩ := Lib.bind_eq_ok_iff.mp hcatalog
      obtain ⟨rfl, rfl, rfl⟩ : _ ∧ _ ∧ _ := by simpa using hcatalog
      have hlog := hp.log (r := .relTable tableID') (fun _ ↦ rfl) trivial
      have hcatalog := hlog.setCatalog (db.catalog.setWrite content) rfl
      exact hcatalog.setRels (TablesStatistics.addTableStatistic db.relsStatistics tableID'
        (.ofSrcDstTableIDs srcDstTableIDs)) rfl
  | dropTable tableSchema =>
      obtain rfl := Except.ok.inj hdb
      exact (hp.log (r := .dropTable _ _) (fun _ ↦ rfl) trivial).setCatalog _ rfl
  | setUnstructuredProperties tableID unstructuredProperties =>
      obtain ⟨catalog, hcatalog, hdb⟩ := Lib.bind_eq_ok_iff.mp hdb
      obtain rfl := Except.ok.inj hdb
      refine hp.setCatalog _ ?_
      unfold Catalog.setUnstructuredPropertiesOfNodeTableSchema at hcatalog
      split at hcatalog <;> obtain rfl := Except.ok.inj hcatalog <;> rfl
  | setMaxNodeOffset tableID nodeOffset =>
      obtain ⟨nodes, hnodes, hdb⟩ := Lib.bind_eq_ok_iff.mp hdb
      obtain rfl := Except.ok.inj hdb
      exact hp.setNodes _ (TablesStatistics.readOnly_updateTable hnodes)
  | logCopyNodeCSV tableID =>
      obtain rfl := Except.ok.inj hdb
      exact hp.log (fun _ ↦ rfl) trivial
  | setNumRelsPerDirectionBoundTableID tableID directionNumRelsPerTable =>
      obtain ⟨rels, hrels, hdb⟩ := Lib.bind_eq_ok_iff.mp hdb
      obtain rfl := Except.ok.inj hdb
      exact hp.setRels _ (TablesStatistics.readOnly_updateTable hrels)
  | setNumRels tableID numRels =>
      obtain ⟨rels, hrels, hdb⟩ := Lib.bind_eq_ok_iff.mp hdb
      obtain rfl := Except.ok.inj hdb
      exact hp.setRels _ (TablesStatistics.readOnly_updateTable hrels)
  | logCopyRelCSV tableID =>
      obtain rfl := Except.ok.inj hdb
      exact hp.log (fun _ ↦ rfl) trivial

theorem performAll (hp : db₀.Pending db) {updates : List (Update Page)}
    (hdb : db.performAll updates = .ok db') : db₀.Pending db' :=
  Lib.foldlM_invariant db₀.Pending (fun _ _ _ _ hp hdb ↦ hp.perform hdb) hp hdb

end Pending

end Database

end Graphflow
