import Graphflow.Database.Pending

/-!
# Rolling back a transaction

What `commitAndCheckpointOrRollback` restores when the transaction does not commit.  The page
versions, the node statistics and the updated lists are brought back record by record and list by
list; the write versions of the rel statistics and of the catalog are not touched by any record.
-/

namespace Graphflow

open Wal Storage

variable {Page : Type} {file₀ file : StructureFile Page} {records : List PageRecord}
  {id : StorageStructureID}

/-! ## One file -/

namespace StructureFile

def rollbackRecords (file : StructureFile Page) (records : List PageRecord) : StructureFile Page :=
  { file with
    fileHandle := records.foldl (LoggedFile.checkpointOrRollbackVersionedFileHandle false)
      file.fileHandle }

theorem Since.rollback_numPages (hsince : Since file₀ file records) :
    (file.rollbackRecords records).numPages = file₀.numPages := by
  refine Nat.le_antisymm ?_ ?_
  · rcases hsince.grown with heq | ⟨r, hr, hinsert, hpage⟩
    · exact LoggedFile.replay_numPages_le.trans heq.le
    · exact (LoggedFile.rollback_numPages_le hr hinsert).trans hpage.le
  · exact LoggedFile.le_replay_numPages hsince.numPages_le fun _ ↦ hsince.inserts

theorem Since.rollback_pageVersions (hsince : Since file₀ file records) {p : ℕ}
    (hp : p < file₀.numPages) :
    (file.rollbackRecords records).fileHandle.pageVersions p = none := by
  by_cases hversion : file.fileHandle.pageVersions p = none
  · exact LoggedFile.replay_eq_none hversion
  · exact LoggedFile.replay_clears hsince.numPages_le (fun _ ↦ hsince.inserts) hp
      (hsince.recorded p hp hversion)

theorem Since.readView_rollback (hsince : Since file₀ file records) :
    (file.rollbackRecords records).readView = file₀.readView := by
  funext p
  unfold readView
  rw [hsince.rollback_numPages]
  simp only [rollbackRecords, hsince.pages]

theorem writeView_of_versions (wal : WAL Page) (hversions : ∀ p < file.numPages,
    file.fileHandle.pageVersions p = none) : file.writeView wal = file.readView := by
  funext p
  unfold writeView readView
  split
  next hp => rw [hversions p hp]
  · rfl

end StructureFile

namespace Database

variable {db₀ db db' : Database Page} {log : Log} {input : CommitInput Page}
  {walCatalog : Option CatalogContent}

/-! ## Replaying the records -/

theorem WellFormed.getVersionedFileHandle (hwf : db.WellFormed) (hid : db.files id = some file) :
    getFileInfoForReadWrite id = .ok () ∧
      db.getVersionedFileHandleIfWALVersionAndBMShouldBeCleared id = .ok (some file) := by
  obtain ⟨tableID, htable, hversioned⟩ := hwf.files id file hid
  obtain ⟨storageStructure, isOverflow⟩ := id
  simp only [versionedTable?] at hversioned
  split at hversioned
  · obtain rfl := Option.some.inj hversioned
    simp [getFileInfoForReadWrite, getVersionedFileHandleIfWALVersionAndBMShouldBeCleared,
      checkNodeTable, htable, hid]
  · obtain rfl := Option.some.inj hversioned
    simp [getFileInfoForReadWrite, getVersionedFileHandleIfWALVersionAndBMShouldBeCleared,
      checkNodeTable, htable, hid]
  · simp at hversioned

theorem WellFormed.replayOverflowFileNextBytePosRecord (hwf : db.WellFormed)
    (hid : db.files id = some file) {pos : ℕ} :
    db.replayOverflowFileNextBytePosRecord false id pos = .ok { db with
      overflowPositions := Function.update db.overflowPositions id ⟨pos, false⟩ } := by
  obtain ⟨tableID, htable, hversioned⟩ := hwf.files id file hid
  obtain ⟨storageStructure, isOverflow⟩ := id
  simp only [versionedTable?] at hversioned
  split at hversioned
  · obtain rfl := Option.some.inj hversioned
    simp [Database.replayOverflowFileNextBytePosRecord, checkNodeTable, htable,
      setNextBytePosToWriteTo]
  · obtain rfl := Option.some.inj hversioned
    simp [Database.replayOverflowFileNextBytePosRecord, checkNodeTable, htable,
      setNextBytePosToWriteTo]
  · simp at hversioned

def isTableStatistics : WALRecord → Bool
  | .tableStatistics _ => true
  | _ => false

/-- The database after the records of `log` have been rolled back. -/
def rollbackRecords (db : Database Page) (log : Log)
    (positions : StorageStructureID → OverflowPosition) : Database Page :=
  { db with
    files := fun id ↦ (db.files id).map (·.rollbackRecords (recordsOf id log))
    overflowPositions := positions
    nodesStatisticsAndDeletedIDs :=
      if log.any isTableStatistics then db.nodesStatisticsAndDeletedIDs.rollback
      else db.nodesStatisticsAndDeletedIDs }

theorem rollbackRecords_nil (db : Database Page) :
    db.rollbackRecords [] db.overflowPositions = db := by
  have hfiles : (fun id ↦ (db.files id).map
      (·.rollbackRecords (recordsOf id []))) = db.files := by
    funext id
    exact Option.map_id_apply
  simp only [rollbackRecords, hfiles]
  rfl

theorem WellFormed.rollbackRecords (hwf : db.WellFormed)
    (positions : StorageStructureID → OverflowPosition) :
    (db.rollbackRecords log positions).WellFormed where
  files := by
    intro id file hid
    obtain ⟨file', hid', -⟩ := Option.map_eq_some_iff.mp hid
    exact hwf.files id file' hid'
  lists := hwf.lists

/-- A record that is neither about pages nor about statistics changes at most positions. -/
theorem rollbackRecords_append_of_other {r : WALRecord} (hr : ∀ id, pageRecord? id r = none)
    (hstatistics : isTableStatistics r = false)
    (positions : StorageStructureID → OverflowPosition) :
    db.rollbackRecords (log ++ [r]) positions = db.rollbackRecords log positions := by
  have hrecords : ∀ id, recordsOf id [r] = [] := fun id ↦ by simp [recordsOf, hr]
  simp [rollbackRecords, hrecords, hstatistics]

theorem setFiles_rollbackRecords {log' : Log}
    {files : StorageStructureID → Option (StructureFile Page)}
    {positions : StorageStructureID → OverflowPosition}
    (hfiles : files = (db.rollbackRecords log' positions).files)
    (hstatistics : log'.any isTableStatistics = log.any isTableStatistics) :
    { db.rollbackRecords log positions with files := files } =
      db.rollbackRecords log' positions := by
  subst hfiles
  simp [rollbackRecords, hstatistics]

theorem replayWALRecord_rollback (hwf : db.WellFormed) (input : CommitInput Page)
    (walCatalog : Option CatalogContent) {r : WALRecord} (hr : db.HasFile r) (log : Log)
    (positions : StorageStructureID → OverflowPosition) :
    ∃ positions', (db.rollbackRecords log positions).replayWALRecord false input walCatalog r =
      .ok (db.rollbackRecords (log ++ [r]) positions') := by
  cases r with
  | pageUpdateOrInsert id pageIdxInOriginalFile pageIdxInWAL isInsert =>
      obtain ⟨file, hid⟩ := Option.ne_none_iff_exists'.mp hr
      have hid' : (db.rollbackRecords log positions).files id =
          some (file.rollbackRecords (recordsOf id log)) := by
        simp [rollbackRecords, hid]
      obtain ⟨hinfo, hhandle⟩ := (hwf.rollbackRecords positions).getVersionedFileHandle hid'
      refine ⟨positions, ?_⟩
      simp only [replayWALRecord, replayPageRecord, hinfo, hhandle, Lib.ok_bind, Lib.pure_eq_ok]
      refine congrArg Except.ok ?_
      have hfiles : Function.update (db.rollbackRecords log positions).files id
          (some ((file.rollbackRecords (recordsOf id log)).rollbackRecords
            [⟨pageIdxInOriginalFile, pageIdxInWAL, isInsert⟩])) =
          (db.rollbackRecords (log ++ [.pageUpdateOrInsert id pageIdxInOriginalFile pageIdxInWAL
            isInsert]) positions).files := by
        funext id'
        by_cases heq : id' = id
        · subst heq
          simp [rollbackRecords, hid, StructureFile.rollbackRecords, recordsOf, pageRecord?]
        · simp [rollbackRecords, Function.update_of_ne heq, recordsOf, pageRecord?, Ne.symm heq]
      simp only [Bool.false_eq_true, if_false]
      exact setFiles_rollbackRecords hfiles (by simp [isTableStatistics])
  | tableStatistics isNodeTable =>
      refine ⟨positions, ?_⟩
      have hrecords : ∀ id, recordsOf id [.tableStatistics isNodeTable] = [] := fun _ ↦ rfl
      simp only [replayWALRecord, replayTableStatisticsRecord, Bool.false_eq_true, if_false,
        Lib.pure_eq_ok, rollbackRecords, recordsOf_append, hrecords, List.append_nil,
        List.any_append, List.any_cons, isTableStatistics, Bool.true_or, Bool.or_true, if_true]
      split <;> rfl
  | overflowFileNextBytePos id prevNextBytePosToWriteTo =>
      obtain ⟨file, hid⟩ := Option.ne_none_iff_exists'.mp hr
      have hid' : (db.rollbackRecords log positions).files id =
          some (file.rollbackRecords (recordsOf id log)) := by
        simp [rollbackRecords, hid]
      refine ⟨Function.update positions id ⟨prevNextBytePosToWriteTo, false⟩, ?_⟩
      rw [rollbackRecords_append_of_other (fun _ ↦ rfl) rfl]
      exact (hwf.rollbackRecords positions).replayOverflowFileNextBytePosRecord hid'
  | commit | catalog | nodeTable | relTable | copyNodeCSV | copyRelCSV | dropTable =>
      refine ⟨positions, ?_⟩
      rw [rollbackRecords_append_of_other (fun _ ↦ rfl) rfl]
      rfl

theorem replay_records_rollback (hwf : db.WellFormed) (input : CommitInput Page)
    (walCatalog : Option CatalogContent) (hlog : ∀ r ∈ log, db.HasFile r) :
    ∃ positions, log.foldlM (replayWALRecord false input walCatalog) db =
      .ok (db.rollbackRecords log positions) := by
  have hinit : ∃ positions, db = db.rollbackRecords [] positions :=
    ⟨db.overflowPositions, db.rollbackRecords_nil.symm⟩
  obtain ⟨db', hloop, positions, rfl⟩ : ∃ db',
      log.foldlM (replayWALRecord false input walCatalog) db = .ok db' ∧
        ∃ positions, db' = db.rollbackRecords log positions := by
    apply Lib.exists_foldlM_eq_ok (fun done db' ↦ ∃ positions,
      db' = db.rollbackRecords done positions) hinit
    rintro done r rest _ rfl ⟨positions, rfl⟩
    obtain ⟨positions', hstep⟩ := replayWALRecord_rollback hwf input walCatalog
      (hlog r (by simp)) done positions
    exact ⟨_, hstep, positions', rfl⟩
  exact ⟨positions, hloop⟩

/-! ## The updated lists -/

/-- The node table of an unstructured property list. -/
def listTable? : ListFileID → Option ℕ
  | .unstructuredNodePropertyLists _ tableID => some tableID
  | _ => none

/-- The list is the one of an existing node table. -/
def ListOfTable (db : Database Page) (list : ListFileID) : Prop :=
  ∃ tableID ∈ db.nodeTables, listTable? list = some tableID

/-- `clear()` of the updates of all listed tables. -/
def clearLists (db : Database Page) (lists : List ListFileID) : Database Page :=
  { db with
    localUpdatedLists := fun tableID ↦
      if tableID ∈ lists.filterMap listTable? then ∅ else db.localUpdatedLists tableID }

theorem replayUpdatedList_of_listOfTable {list : ListFileID} (hlist : db.ListOfTable list) :
    db.replayUpdatedList list = .ok (db.clearLists [list]) := by
  obtain ⟨tableID, htable, hlist⟩ := hlist
  cases list with
  | unstructuredNodePropertyLists listFileType t =>
      obtain rfl := Option.some.inj hlist
      simp only [replayUpdatedList, checkNodeTable, htable, if_true, Lib.ok_bind, Lib.pure_eq_ok,
        clearLists]
      congr 2
      funext t'
      by_cases heq : t' = t
      · simp [listTable?, heq]
      · simp [listTable?, heq]
  | adjLists => simp [listTable?] at hlist
  | relPropertyLists => simp [listTable?] at hlist

theorem replayUpdatedLists_of_listOfTable {lists : List ListFileID}
    (hlists : ∀ list ∈ lists, db.ListOfTable list) :
    lists.foldlM replayUpdatedList db = .ok (db.clearLists lists) := by
  have hnil : db.clearLists [] = db := by simp [clearLists]
  conv_lhs => rw [← hnil]
  refine Lib.foldlM_eq_ok db.clearLists ?_
  rintro done list rest rfl
  have hlist : (db.clearLists done).ListOfTable list := hlists list (by simp)
  rw [replayUpdatedList_of_listOfTable hlist]
  refine congrArg Except.ok ?_
  simp only [clearLists, List.filterMap_append, List.mem_append]
  congr 1
  funext tableID
  by_cases hdone : tableID ∈ done.filterMap listTable? <;> simp [hdone]

theorem listOfTable_of_replayUpdatedLists {lists : List ListFileID}
    (hloop : lists.foldlM replayUpdatedList db = .ok db') :
    ∀ list ∈ lists, db.ListOfTable list := by
  intro list hlist
  obtain ⟨db₁, db₂, hdb₁, hstep⟩ := Lib.exists_step_of_foldlM_eq_ok
    (fun db₁ ↦ db₁.nodeTables = db.nodeTables) hloop rfl (by
      intro db₁ list db₂ hdb₁ hstep
      cases list with
      | unstructuredNodePropertyLists listFileType t =>
          obtain ⟨-, -, hstep⟩ := Lib.bind_eq_ok_iff.mp hstep
          obtain rfl := Except.ok.inj hstep
          exact hdb₁
      | adjLists => simp [replayUpdatedList] at hstep
      | relPropertyLists => simp [replayUpdatedList] at hstep) hlist
  cases list with
  | unstructuredNodePropertyLists listFileType t =>
      obtain ⟨_, hcheck, -⟩ := Lib.bind_eq_ok_iff.mp hstep
      refine ⟨t, ?_, rfl⟩
      rw [← hdb₁]
      by_contra hnot
      simp [checkNodeTable, hnot] at hcheck
  | adjLists => simp [replayUpdatedList] at hstep
  | relPropertyLists => simp [replayUpdatedList] at hstep

/-- Preparing the rollback of a list only notes that the list has been updated. -/
def noteUpdatedLists (db : Database Page) (tableIDs : List ℕ) : Database Page :=
  { db with wal := { db.wal with
    updatedUnstructuredPropertyLists := db.wal.updatedUnstructuredPropertyLists ++
      (tableIDs.filter fun tableID ↦ db.localUpdatedLists tableID ≠ ∅).map
        (.unstructuredNodePropertyLists .baseLists) } }

theorem prepareLists_rollback (input : CommitInput Page)
    (htables : ∀ tableID < db.nodeTables.card, tableID ∈ db.nodeTables) :
    db.prepareLists false input = .ok (db.noteUpdatedLists (List.range db.nodeTables.card)) := by
  have hnil : db.noteUpdatedLists [] = db := by simp [noteUpdatedLists]
  unfold prepareLists
  conv_lhs => arg 2; rw [← hnil]
  refine Lib.foldlM_eq_ok db.noteUpdatedLists ?_
  intro done tableID rest heq
  have htable : tableID ∈ db.nodeTables := by
    refine htables tableID (List.mem_range.mp ?_)
    rw [heq]
    simp
  by_cases hempty : db.localUpdatedLists tableID = ∅ <;>
    simp [prepareUnstructuredPropertyLists, noteUpdatedLists, htable, hempty]

theorem nodeTables_of_prepareLists (hprepare : db.prepareLists false input = .ok db') :
    ∀ tableID < db.nodeTables.card, tableID ∈ db.nodeTables := by
  intro tableID hlt
  obtain ⟨db₁, db₂, hdb₁, hstep⟩ := Lib.exists_step_of_foldlM_eq_ok
    (fun db₁ ↦ db₁.nodeTables = db.nodeTables) hprepare rfl (by
      intro db₁ t db₂ hdb₁ hstep
      simp only [prepareUnstructuredPropertyLists, Bool.false_eq_true, if_false] at hstep
      split at hstep
      · simp at hstep
      · split at hstep <;> obtain rfl := Except.ok.inj hstep <;> exact hdb₁)
    (List.mem_range.mpr hlt)
  rw [← hdb₁]
  by_contra hnot
  simp [prepareUnstructuredPropertyLists, hnot] at hstep

/-! ## The whole rollback -/

theorem Pending.logTableStatisticsRecord (hp : db₀.Pending db) :
    db₀.Pending db.logTableStatisticsRecord := by
  unfold Database.logTableStatisticsRecord
  split
  · exact hp.log (fun _ ↦ rfl) trivial
  · exact hp

theorem Pending.logCatalogRecord (hp : db₀.Pending db) : db₀.Pending db.logCatalogRecord := by
  unfold Database.logCatalogRecord
  split
  · exact hp.log (fun _ ↦ rfl) trivial
  · exact hp

/-- The transaction has been rolled back from `db` to `db'`; it had begun in `db₀`. -/
structure RolledBack (db₀ db db' : Database Page) : Prop where
  transactionManager : db'.transactionManager =
    { db₀.transactionManager with activeWriteTransactionID := int64Max }
  stoppedNewTransactions : db'.stoppedNewTransactions = db₀.stoppedNewTransactions
  nodeTables : db'.nodeTables = db₀.nodeTables
  records : db'.wal.records = []
  nodesStatistics :
    db'.nodesStatisticsAndDeletedIDs = db.nodesStatisticsAndDeletedIDs.rollback
  relsStatistics : db'.relsStatistics = db.relsStatistics
  catalog : db'.catalog = db.catalog
  lists : ∀ tableID, db'.localUpdatedLists tableID = ∅
  noFile : ∀ id, db₀.files id = none → db'.files id = none
  file : ∀ id file₀, db₀.files id = some file₀ → ∃ file', db'.files id = some file' ∧
    file'.readView = file₀.readView ∧
    ∀ p < file'.numPages, file'.fileHandle.pageVersions p = none

theorem nodes_rollback_of_logged (db : Database Page) :
    (if db.logTableStatisticsRecord.logCatalogRecord.wal.records.any isTableStatistics then
      db.nodesStatisticsAndDeletedIDs.rollback else db.nodesStatisticsAndDeletedIDs) =
      db.nodesStatisticsAndDeletedIDs.rollback := by
  cases hnodes : db.nodesStatisticsAndDeletedIDs.write with
  | none => rw [Lib.Versioned.rollback_of_write_eq_none hnodes, ite_self]
  | some nodes =>
      have hany : db.logTableStatisticsRecord.logCatalogRecord.wal.records.any
          isTableStatistics := by
        cases hcatalog : db.catalog.write <;>
          simp [logTableStatisticsRecord, logCatalogRecord, Lib.Versioned.hasUpdates, hnodes,
            hcatalog, Database.log, WAL.log, isTableStatistics]
      rw [if_pos hany]

theorem exists_logged_eq (db : Database Page) : ∃ records,
    db.logTableStatisticsRecord.logCatalogRecord =
      { db with wal := { db.wal with records := records } } := by
  unfold logTableStatisticsRecord logCatalogRecord
  split <;> split <;> exact ⟨_, rfl⟩

theorem Pending.wellFormed (hp : db₀.Pending db) (hwf : db₀.WellFormed) : db.WellFormed where
  files := by
    intro id file hid
    cases hid₀ : db₀.files id with
    | none =>
        rw [hp.noFile id hid₀] at hid
        simp at hid
    | some file₀ =>
        rw [hp.nodeTables]
        exact hwf.files id file₀ hid₀
  lists := hp.lists

theorem lt_card_of_mem {s : Finset ℕ} (hs : ∀ i < s.card, i ∈ s) {i : ℕ} (hi : i ∈ s) :
    i < s.card := by
  have heq : Finset.range s.card = s :=
    Finset.eq_of_subset_of_card_le (fun j hj ↦ hs j (Finset.mem_range.mp hj)) (by simp)
  rw [← heq] at hi
  exact Finset.mem_range.mp hi

/-- What is left after the replay when nothing throws. -/
def afterRollback (db : Database Page) (positions : StorageStructureID → OverflowPosition) :
    Database Page :=
  let db := (db.rollbackRecords db.wal.records positions).clearLists
    db.wal.updatedUnstructuredPropertyLists
  { db with
    wal := db.wal.clearWAL
    transactionManager := { db.transactionManager with activeWriteTransactionID := int64Max } }

theorem RolledBack.of_afterRollback (hp : db₀.Pending db)
    (htables : ∀ tableID < db₀.nodeTables.card, tableID ∈ db₀.nodeTables)
    (positions : StorageStructureID → OverflowPosition) :
    RolledBack db₀ db ((db.logTableStatisticsRecord.logCatalogRecord.noteUpdatedLists
      (List.range db.nodeTables.card)).afterRollback positions) := by
  have hlogged := hp.logTableStatisticsRecord.logCatalogRecord
  have hnodes := db.nodes_rollback_of_logged
  obtain ⟨records, hrecords⟩ := db.exists_logged_eq
  rw [hrecords] at hlogged hnodes ⊢
  constructor
  · simp only [afterRollback, clearLists, rollbackRecords, noteUpdatedLists, hp.transactionManager]
  · exact hp.stoppedNewTransactions
  · exact hp.nodeTables
  · rfl
  · exact hnodes
  · rfl
  · rfl
  · intro tableID
    simp only [afterRollback, clearLists, rollbackRecords, noteUpdatedLists]
    refine ite_eq_left_iff.mpr fun hnot ↦ ?_
    by_contra hne
    have htable := hp.lists tableID hne
    rw [hp.nodeTables] at htable
    have hlt := lt_card_of_mem htables htable
    apply hnot
    simp only [List.filterMap_append, List.mem_append, List.mem_filterMap, List.mem_map,
      List.mem_filter, List.mem_range]
    exact .inr ⟨.unstructuredNodePropertyLists .baseLists tableID,
      ⟨tableID, ⟨hp.nodeTables ▸ hlt, by simpa using hne⟩, rfl⟩, rfl⟩
  · intro id hid
    simp [afterRollback, clearLists, rollbackRecords, noteUpdatedLists, hp.noFile id hid]
  · intro id file₀ hid
    obtain ⟨file, hfile, hsince⟩ := hlogged.file id file₀ hid
    refine ⟨file.rollbackRecords (recordsOf id records), ?_, hsince.readView_rollback, ?_⟩
    · simp only [afterRollback, clearLists, rollbackRecords, noteUpdatedLists]
      exact congrArg (Option.map _) hfile
    · intro p hlt
      rw [hsince.rollback_numPages] at hlt
      exact hsince.rollback_pageVersions hlt

theorem liftFault_eq_ok {α : Type} {x : Except Fault α} {a : α}
    (hx : (liftFault x : Except (Interruption Page) α) = .ok a) : x = .ok a := by
  cases x with
  | error fault => simp [liftFault] at hx
  | ok b =>
      obtain rfl := Except.ok.inj hx
      rfl

theorem replay_rollback (hwf : db.WellFormed) (input : CommitInput Page)
    (walCatalog : Option CatalogContent) (hlog : ∀ r ∈ db.wal.records, db.HasFile r)
    (hlists : ∀ list ∈ db.wal.updatedUnstructuredPropertyLists, db.ListOfTable list) :
    ∃ positions, db.replay false input walCatalog =
      .ok ((db.rollbackRecords db.wal.records positions).clearLists
        db.wal.updatedUnstructuredPropertyLists) := by
  obtain ⟨positions, hrecords⟩ := replay_records_rollback hwf input walCatalog hlog
  refine ⟨positions, ?_⟩
  simp only [replay, Bool.false_eq_true, false_and, if_false, hrecords, Lib.ok_bind]
  exact replayUpdatedLists_of_listOfTable hlists

theorem manuallyClearActiveWriteTransaction_of_active {t : Transaction} (ht : t.type = .write)
    (hactive : db.transactionManager.activeWriteTransactionID = t.ID) :
    db.manuallyClearActiveWriteTransaction t = .ok { db with
      transactionManager := { db.transactionManager with
        activeWriteTransactionID := int64Max } } := by
  simp [manuallyClearActiveWriteTransaction,
    TransactionManager.manuallyClearActiveWriteTransaction,
    TransactionManager.assertActiveWriteTransationIsCorrectNoLock, hactive,
    TransactionManager.clearActiveWriteTransactionIfWriteTransactionNoLock, ht]

/-- A rollback that meets neither a missing table in the loop over the node tables nor a dropped
table among the updated lists runs to its end. -/
theorem exists_rollback (hp : db₀.Pending db) (hwf : db₀.WellFormed) {t : Transaction}
    (ht : t.type = .write) (hactive : db₀.transactionManager.activeWriteTransactionID = t.ID)
    (htables : ∀ tableID < db₀.nodeTables.card, tableID ∈ db₀.nodeTables)
    (hlists : ∀ list ∈ db₀.wal.updatedUnstructuredPropertyLists, db₀.ListOfTable list)
    (input : CommitInput Page) :
    ∃ db', db.commitAndCheckpointOrRollback t false input = .ok db' ∧ RolledBack db₀ db db' := by
  have hlogged := hp.logTableStatisticsRecord.logCatalogRecord
  have htables' : ∀ tableID < db.logTableStatisticsRecord.logCatalogRecord.nodeTables.card,
      tableID ∈ db.logTableStatisticsRecord.logCatalogRecord.nodeTables := by
    simpa [hlogged.nodeTables] using htables
  have hprepare := prepareLists_rollback input htables'
  set db₁ := db.logTableStatisticsRecord.logCatalogRecord.noteUpdatedLists
    (List.range db.logTableStatisticsRecord.logCatalogRecord.nodeTables.card) with hdb₁
  have hwf₁ : db₁.WellFormed := ⟨(hlogged.wellFormed hwf).files, hlogged.lists⟩
  have hlists₁ : ∀ list ∈ db₁.wal.updatedUnstructuredPropertyLists, db₁.ListOfTable list := by
    intro list hlist
    rcases List.mem_append.mp hlist with hlist | hlist
    · rw [hlogged.updatedLists] at hlist
      obtain ⟨tableID, htable, heq⟩ := hlists list hlist
      exact ⟨tableID, hlogged.nodeTables ▸ htable, heq⟩
    · obtain ⟨tableID, htable, rfl⟩ := List.mem_map.mp hlist
      have hlt := List.mem_range.mp (List.mem_filter.mp htable).1
      exact ⟨tableID, htables' tableID hlt, rfl⟩
  obtain ⟨positions, hreplay⟩ := replay_rollback hwf₁ input db.catalog.write hlogged.hasFile
    hlists₁
  have hactive₁ : db₁.transactionManager.activeWriteTransactionID = t.ID := by
    rw [← hactive, ← hlogged.transactionManager]
    rfl
  refine ⟨db₁.afterRollback positions, ?_, ?_⟩
  · simp only [commitAndCheckpointOrRollback, prepare, hprepare, liftFault, Lib.ok_bind,
      Bool.false_eq_true, if_false, checkpointOrRollbackAndClearWAL, hreplay, Lib.pure_eq_ok]
    exact manuallyClearActiveWriteTransaction_of_active ht hactive₁
  · have hresult := RolledBack.of_afterRollback hp htables positions
    rwa [hp.nodeTables, ← hlogged.nodeTables] at hresult

/-- A rollback that runs to its end has met a table at every index of its loop, and lists of
existing tables only. -/
theorem of_rollback_eq_ok (hp : db₀.Pending db) (hwf : db₀.WellFormed) {t : Transaction}
    (hdb : db.commitAndCheckpointOrRollback t false input = .ok db') :
    (∀ tableID < db₀.nodeTables.card, tableID ∈ db₀.nodeTables) ∧
      ∀ list ∈ db₀.wal.updatedUnstructuredPropertyLists, db₀.ListOfTable list := by
  have hlogged := hp.logTableStatisticsRecord.logCatalogRecord
  obtain ⟨db₁, hprepare, hdb⟩ := Lib.bind_eq_ok_iff.mp hdb
  have hprepare := liftFault_eq_ok hprepare
  have htables := nodeTables_of_prepareLists hprepare
  obtain rfl := Except.ok.inj ((prepareLists_rollback input htables).symm.trans hprepare)
  rw [← hlogged.nodeTables]
  refine ⟨htables, fun list hlist ↦ ?_⟩
  set db₁ := db.logTableStatisticsRecord.logCatalogRecord.noteUpdatedLists
    (List.range db.logTableStatisticsRecord.logCatalogRecord.nodeTables.card)
  have hwf₁ : db₁.WellFormed := ⟨(hlogged.wellFormed hwf).files, hlogged.lists⟩
  obtain ⟨db₂, hclear, -⟩ := Lib.bind_eq_ok_iff.mp hdb
  obtain ⟨db₃, hreplay, -⟩ := Lib.bind_eq_ok_iff.mp (liftFault_eq_ok hclear)
  obtain ⟨positions, hrecords⟩ := replay_records_rollback hwf₁ input db.catalog.write
    hlogged.hasFile
  simp only [replay, Bool.false_eq_true, false_and, if_false] at hreplay
  obtain ⟨db₄, hrecords', hloop⟩ := Lib.bind_eq_ok_iff.mp hreplay
  obtain rfl := Except.ok.inj (hrecords.symm.trans hrecords')
  have hmem : list ∈ db₁.wal.updatedUnstructuredPropertyLists := by
    apply List.mem_append_left
    rwa [hlogged.updatedLists]
  obtain ⟨tableID, htable, heq⟩ := listOfTable_of_replayUpdatedLists hloop list hmem
  exact ⟨tableID, hlogged.nodeTables ▸ htable, heq⟩

end Database

end Graphflow
