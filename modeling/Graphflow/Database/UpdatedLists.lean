import Graphflow.Database.Connections
import Graphflow.Database.View

/-!
# The updated lists that the WAL remembers

Beside its file the WAL has a vector of the unstructured property lists that have been updated.  The
replayer goes through it after the records.  `clearWAL` does not clear it, so what is in it stays
for all transactions that follow.
-/

namespace Graphflow

open Wal Storage

variable {Page : Type}

/-- The WAL is as a newly constructed one. -/
structure WAL.IsFresh (wal : WAL Page) : Prop where
  records : wal.records = []
  numPages : wal.numPages = 1
  updatedLists : wal.updatedUnstructuredPropertyLists = []

namespace Database

variable {db db' db₁ db₂ : Database Page} {id : StorageStructureID} {t : Transaction}
  {isCommit : Bool} {input : CommitInput Page} {walCatalog : Option CatalogContent}

/-! ## Frames -/

/-- Nothing has happened to the tables, their updated lists and the vector of the WAL. -/
structure SameLists (db db' : Database Page) : Prop where
  vector : db'.wal.updatedUnstructuredPropertyLists = db.wal.updatedUnstructuredPropertyLists
  nodeTables : db'.nodeTables = db.nodeTables
  lists : db'.localUpdatedLists = db.localUpdatedLists

theorem SameLists.refl (db : Database Page) : SameLists db db := ⟨rfl, rfl, rfl⟩

theorem SameLists.trans (h : SameLists db db₁) (h' : SameLists db₁ db₂) : SameLists db db₂ :=
  ⟨h'.vector.trans h.vector, h'.nodeTables.trans h.nodeTables, h'.lists.trans h.lists⟩

/-- An operation on a file that logs nothing but pages of the file, and leaves the vector alone. -/
def LogsPages (id : StorageStructureID)
    (op : StructureFile Page → WAL Page → Except Fault (StructureFile Page × WAL Page)) : Prop :=
  ∀ ⦃file wal file' wal'⦄, op file wal = .ok (file', wal') →
    wal'.updatedUnstructuredPropertyLists = wal.updatedUnstructuredPropertyLists ∧
    ∃ new : List PageRecord, wal'.records = wal.records ++ new.map (PageRecord.toWALRecord id)

theorem logsPages_of_accounts
    {op : StructureFile Page → WAL Page → Except Fault (StructureFile Page × WAL Page)}
    (hop : StructureFile.Accounts id op) : LogsPages id op := by
  intro file wal file' wal' hrun
  obtain ⟨hlists, new, hrecords, -⟩ := hop hrun
  exact ⟨hlists, new, hrecords⟩

theorem logsPages_writeListPage (id : StorageStructureID) (write : ListPageWrite Page) :
    LogsPages id fun file wal ↦ file.writeListPage id wal write := by
  intro file wal file' wal' hrun
  cases write with
  | existingPage listPageIdx updateOp =>
      exact logsPages_of_accounts (StructureFile.accounts_updatePage id listPageIdx updateOp) hrun
  | newPage updateOp junk =>
      exact logsPages_of_accounts (StructureFile.accounts_updatePage id _ updateOp) hrun

theorem SameLists.onFile
    {op : StructureFile Page → WAL Page → Except Fault (StructureFile Page × WAL Page)}
    (hop : LogsPages id op) (hdb : db.onFile id op = .ok db') : SameLists db db' := by
  unfold Database.onFile at hdb
  split at hdb
  · simp at hdb
  · obtain ⟨⟨file', wal'⟩, hrun, hdb⟩ := Lib.bind_eq_ok_iff.mp hdb
    obtain rfl := Except.ok.inj hdb
    exact ⟨(hop hrun).1, rfl, rfl⟩

theorem SameLists.addNewPageIfNecessary {numBytes : ℕ} {junk : Page}
    (hdb : db.addNewPageIfNecessary id numBytes junk = .ok db') : SameLists db db' := by
  have hset : ∀ pos, SameLists db (db.setNextBytePosToWriteTo id pos) := fun _ ↦ ⟨rfl, rfl, rfl⟩
  simp only [Database.addNewPageIfNecessary] at hdb
  split at hdb
  · split at hdb
    · simp at hdb
    · exact (hset _).trans (SameLists.onFile (logsPages_of_accounts
        (StructureFile.accounts_addNewPageToFileHandle id junk)) hdb)
  · obtain rfl := Except.ok.inj hdb
    exact SameLists.refl _

theorem SameLists.writeOverflow {isString : Bool} {numBytes : ℕ} {updateOp : Page → Page}
    {junk : Page} (hdb : db.writeOverflow id isString numBytes updateOp junk = .ok db') :
    SameLists db db' := by
  have hlog : SameLists db (db.logNewOverflowFileNextBytePosRecordIfNecessary id) := by
    simp only [Database.logNewOverflowFileNextBytePosRecordIfNecessary]
    split <;> exact ⟨rfl, rfl, rfl⟩
  unfold Database.writeOverflow at hdb
  cases hid : db.files id with
  | none => simp [hid] at hdb
  | some file =>
      simp only [hid, Bool.false_eq_true, if_false, Lib.pure_eq_ok] at hdb
      split at hdb
      · obtain rfl := Except.ok.inj hdb
        exact hlog
      · obtain ⟨db₁, hdb₁, hdb⟩ := Lib.bind_eq_ok_iff.mp hdb
        obtain ⟨db₂, hdb₂, hdb⟩ := Lib.bind_eq_ok_iff.mp hdb
        obtain rfl := Except.ok.inj hdb
        have hwrite := SameLists.onFile (logsPages_of_accounts
          (StructureFile.accounts_writeElement id _ updateOp junk)) hdb₂
        have hall := (hlog.trans (SameLists.addNewPageIfNecessary hdb₁)).trans hwrite
        exact ⟨hall.vector, hall.nodeTables, hall.lists⟩

/-- An update of the transaction adds to the updated lists at most. -/
structure KeepsLists (db db' : Database Page) : Prop where
  vector : db'.wal.updatedUnstructuredPropertyLists = db.wal.updatedUnstructuredPropertyLists
  nodeTables : db'.nodeTables = db.nodeTables
  lists : ∀ tableID, db.localUpdatedLists tableID ≠ ∅ → db'.localUpdatedLists tableID ≠ ∅

theorem SameLists.keepsLists (h : SameLists db db') : KeepsLists db db' :=
  ⟨h.vector, h.nodeTables, fun tableID hne ↦ by rwa [h.lists]⟩

theorem keepsLists_perform {update : Update Page} (hdb : db.perform update = .ok db') :
    KeepsLists db db' := by
  cases update with
  | addNode tableID =>
      obtain ⟨nodes, hnodes, hdb⟩ := Lib.bind_eq_ok_iff.mp hdb
      obtain rfl := Except.ok.inj hdb
      exact ⟨rfl, rfl, fun _ h ↦ h⟩
  | deleteNode tableID nodeOffset edgesMessage =>
      obtain ⟨nodes, hnodes, hdb⟩ := Lib.bind_eq_ok_iff.mp hdb
      obtain rfl := Except.ok.inj hdb
      exact ⟨rfl, rfl, fun _ h ↦ h⟩
  | writeElement id pageIdx updateOp junk =>
      exact (SameLists.onFile (logsPages_of_accounts
        (StructureFile.accounts_writeElement id pageIdx updateOp junk)) hdb).keepsLists
  | writeOverflow id isString numBytes updateOp junk =>
      exact (SameLists.writeOverflow hdb).keepsLists
  | setPropertyList tableID nodeOffset list =>
      simp only [Database.perform] at hdb
      split at hdb
      · obtain rfl := Except.ok.inj hdb
        refine ⟨rfl, rfl, fun t ht ↦ ?_⟩
        by_cases heq : t = tableID
        · subst heq
          simp only [Function.update_self]
          intro hempty
          have hmem : nodeOffset ∈ (db.localUpdatedLists t).insert nodeOffset list := by simp
          rw [hempty] at hmem
          exact absurd hmem (Finmap.notMem_empty)
        · simpa only [Function.update_of_ne heq] using ht
      · simp at hdb
  | createNodeTable tableName primaryKeyIdx propertyNameDataTypes =>
      obtain rfl := Except.ok.inj hdb
      exact ⟨rfl, rfl, fun _ h ↦ h⟩
  | createRelTable tableName relMultiplicity propertyNameDataTypes srcDstTableIDs =>
      obtain ⟨⟨catalog, tableID, record⟩, hcatalog, hdb⟩ := Lib.bind_eq_ok_iff.mp hdb
      obtain rfl := Except.ok.inj hdb
      exact ⟨rfl, rfl, fun _ h ↦ h⟩
  | dropTable tableSchema =>
      obtain rfl := Except.ok.inj hdb
      exact ⟨rfl, rfl, fun _ h ↦ h⟩
  | setUnstructuredProperties tableID unstructuredProperties =>
      obtain ⟨catalog, hcatalog, hdb⟩ := Lib.bind_eq_ok_iff.mp hdb
      obtain rfl := Except.ok.inj hdb
      exact ⟨rfl, rfl, fun _ h ↦ h⟩
  | setMaxNodeOffset tableID nodeOffset =>
      obtain ⟨nodes, hnodes, hdb⟩ := Lib.bind_eq_ok_iff.mp hdb
      obtain rfl := Except.ok.inj hdb
      exact ⟨rfl, rfl, fun _ h ↦ h⟩
  | logCopyNodeCSV tableID =>
      obtain rfl := Except.ok.inj hdb
      exact ⟨rfl, rfl, fun _ h ↦ h⟩
  | setNumRelsPerDirectionBoundTableID tableID directionNumRelsPerTable =>
      obtain ⟨rels, hrels, hdb⟩ := Lib.bind_eq_ok_iff.mp hdb
      obtain rfl := Except.ok.inj hdb
      exact ⟨rfl, rfl, fun _ h ↦ h⟩
  | setNumRels tableID numRels =>
      obtain ⟨rels, hrels, hdb⟩ := Lib.bind_eq_ok_iff.mp hdb
      obtain rfl := Except.ok.inj hdb
      exact ⟨rfl, rfl, fun _ h ↦ h⟩
  | logCopyRelCSV tableID =>
      obtain rfl := Except.ok.inj hdb
      exact ⟨rfl, rfl, fun _ h ↦ h⟩

/-! ## Preparing -/

/-- The lists that preparing adds to the vector. -/
def pendingLists (db : Database Page) (tableIDs : List ℕ) : List ListFileID :=
  (tableIDs.filter fun tableID ↦ db.localUpdatedLists tableID ≠ ∅).map
    (.unstructuredNodePropertyLists .baseLists)

/-- The drops in the log are those from before. -/
def SameDrops (db db' : Database Page) : Prop :=
  ∀ isNodeTable tableID, .dropTable isNodeTable tableID ∈ db'.wal.records →
    .dropTable isNodeTable tableID ∈ db.wal.records

/-- The lists of the first tables have been prepared. -/
structure PreparedLists (db : Database Page) (done : List ℕ) (db' : Database Page) : Prop where
  vector : db'.wal.updatedUnstructuredPropertyLists =
    db.wal.updatedUnstructuredPropertyLists ++ db.pendingLists done
  nodeTables : db'.nodeTables = db.nodeTables
  lists : db'.localUpdatedLists = db.localUpdatedLists
  tables : ∀ tableID ∈ done, tableID ∈ db.nodeTables
  drops : SameDrops db db'

theorem sameDrops_onFile
    {op : StructureFile Page → WAL Page → Except Fault (StructureFile Page × WAL Page)}
    (hop : LogsPages id op) (hdb : db.onFile id op = .ok db') : SameDrops db db' := by
  unfold Database.onFile at hdb
  split at hdb
  · simp at hdb
  · obtain ⟨⟨file', wal'⟩, hrun, hdb⟩ := Lib.bind_eq_ok_iff.mp hdb
    obtain rfl := Except.ok.inj hdb
    obtain ⟨-, new, hrecords⟩ := hop hrun
    intro isNodeTable tableID hmem
    simp only [hrecords] at hmem
    rcases List.mem_append.mp hmem with hmem | hmem
    · exact hmem
    · obtain ⟨r, -, hr⟩ := List.mem_map.mp hmem
      simp [PageRecord.toWALRecord] at hr

theorem writeListPages {tableID : ℕ} {writes : List (ListPageWrite Page)}
    (hdb : writes.foldlM (fun db write ↦ db.onFile (unstructuredListsID tableID false)
      fun file wal ↦ file.writeListPage (unstructuredListsID tableID false) wal write) db =
        .ok db') : SameLists db db' ∧ SameDrops db db' := by
  refine Lib.foldlM_invariant (fun db₁ ↦ SameLists db db₁ ∧ SameDrops db db₁) ?_
    ⟨SameLists.refl db, fun _ _ h ↦ h⟩ hdb
  intro db₁ write db₂ _ h hstep
  have hop := logsPages_writeListPage (unstructuredListsID tableID false) write
  refine ⟨h.1.trans (SameLists.onFile hop hstep), fun isNodeTable tableID hmem ↦ ?_⟩
  exact h.2 _ _ (sameDrops_onFile hop hstep _ _ hmem)

theorem PreparedLists.append {done : List ℕ} {tableID : ℕ} (h : PreparedLists db done db₁)
    (hstep : db₁.prepareUnstructuredPropertyLists isCommit input tableID = .ok db₂) :
    PreparedLists db (done ++ [tableID]) db₂ := by
  unfold prepareUnstructuredPropertyLists at hstep
  by_cases htable : tableID ∈ db₁.nodeTables
  · have htables : ∀ t ∈ done ++ [tableID], t ∈ db.nodeTables := by
      intro t ht
      rcases List.mem_append.mp ht with ht | ht
      · exact h.tables t ht
      · rwa [List.mem_singleton.mp ht, ← h.nodeTables]
    simp only [htable, not_true, if_false] at hstep
    by_cases hempty : db₁.localUpdatedLists tableID = ∅
    · simp only [hempty, if_true, Lib.pure_eq_ok] at hstep
      obtain rfl := Except.ok.inj hstep
      rw [h.lists] at hempty
      refine { h with vector := ?_, tables := htables }
      rw [h.vector]
      simp [pendingLists, hempty]
    · simp only [hempty, if_false] at hstep
      rw [h.lists] at hempty
      have hvector : (db₁.wal.updatedUnstructuredPropertyLists ++
          [.unstructuredNodePropertyLists .baseLists tableID]) =
          db.wal.updatedUnstructuredPropertyLists ++ db.pendingLists (done ++ [tableID]) := by
        rw [h.vector]
        simp [pendingLists, hempty]
      split at hstep
      · obtain ⟨hsame, hdrops⟩ := writeListPages hstep
        exact ⟨hsame.vector.trans hvector, hsame.nodeTables.trans h.nodeTables,
          hsame.lists.trans h.lists, htables, fun b t hmem ↦ h.drops b t (hdrops b t hmem)⟩
      · obtain rfl := Except.ok.inj hstep
        exact ⟨hvector, h.nodeTables, h.lists, htables, h.drops⟩
  · simp [htable] at hstep

theorem preparedLists_prepareLists (hdb : db.prepareLists isCommit input = .ok db') :
    PreparedLists db (List.range db.nodeTables.card) db' := by
  have hinit : PreparedLists db [] db := ⟨by simp [pendingLists], rfl, rfl, by simp, fun _ _ h ↦ h⟩
  have houtcome : Lib.Outcome (fun _ ↦ True) (PreparedLists db (List.range db.nodeTables.card))
      (db.prepareLists isCommit input) := by
    apply Lib.Outcome.foldlM (PreparedLists db) hinit
    intro done tableID rest db₁ _ h
    cases hstep : db₁.prepareUnstructuredPropertyLists isCommit input tableID with
    | error fault => trivial
    | ok db₂ => exact h.append hstep
  exact houtcome.result hdb

theorem preparedLists_prepare (hdb : db.prepare isCommit input = .ok db') :
    PreparedLists db (List.range db.nodeTables.card) db' := by
  obtain ⟨records, hrecords⟩ := db.exists_logged_eq
  have hdrops : SameDrops db db.logTableStatisticsRecord.logCatalogRecord := by
    intro isNodeTable tableID hmem
    simp only [logCatalogRecord, logTableStatisticsRecord] at hmem
    split at hmem <;> split at hmem <;> simpa [Database.log, WAL.log] using hmem
  have h := preparedLists_prepareLists hdb
  rw [hrecords] at h hdrops
  exact ⟨h.vector, h.nodeTables, h.lists, h.tables, fun b t hmem ↦ hdrops b t (h.drops b t hmem)⟩

/-- An interruption by the transaction manager leaves such a state behind. -/
def Leaves (P : Database Page → Prop) : Interruption Page → Prop
  | .threw db _ => P db
  | _ => True

theorem outcome_liftFault {α : Type} {P : Database Page → Prop} {Q : α → Prop}
    {x : Except Fault α} (hx : ∀ a, x = .ok a → Q a) :
    Lib.Outcome (Leaves P) Q (liftFault x : Except (Interruption Page) α) := by
  cases x with
  | error fault => trivial
  | ok a => exact hx a rfl

theorem outcome_stopNewTransactions {P : Database Page → Prop}
    (hP : P { db with stoppedNewTransactions := true }) :
    Lib.Outcome (Leaves P) P db.stopNewTransactionsAndWaitUntilAllReadTransactionsLeave := by
  unfold stopNewTransactionsAndWaitUntilAllReadTransactionsLeave
  split
  · trivial
  · simp only
    split <;> exact hP

/-- Everything before the replay leaves the lists as they have been prepared. -/
theorem outcome_prepareToReplay (db : Database Page) (t : Transaction) (isCommit : Bool)
    (input : CommitInput Page) :
    Lib.Outcome (Leaves (PreparedLists db (List.range db.nodeTables.card)))
      (PreparedLists db (List.range db.nodeTables.card))
      (db.prepareToReplay t isCommit input) := by
  refine (outcome_liftFault fun db₁ ↦ preparedLists_prepare).bind fun db₁ h ↦ ?_
  split
  · refine (outcome_stopNewTransactions ⟨h.vector, h.nodeTables, h.lists, h.tables, h.drops⟩).bind
      fun db₂ h ↦ ?_
    unfold commitButKeepActiveWriteTransaction
    split
    next m records hcommit =>
      refine ⟨h.vector, h.nodeTables, h.lists, h.tables, fun b tableID hmem ↦ h.drops b tableID ?_⟩
      unfold TransactionManager.commitButKeepActiveWriteTransaction at hcommit
      cases htype : t.type with
      | readOnly =>
          rw [TransactionManager.commitOrRollbackNoLock_of_readOnly htype] at hcommit
          obtain ⟨-, rfl⟩ := Prod.mk.inj (Except.ok.inj hcommit)
          exact hmem
      | write =>
          by_cases heq : db₂.transactionManager.activeWriteTransactionID = t.ID
          · rw [TransactionManager.commitOrRollbackNoLock_of_eq htype heq] at hcommit
            obtain ⟨-, rfl⟩ := Prod.mk.inj (Except.ok.inj hcommit)
            simpa [Log.logCommit] using hmem
          · rw [TransactionManager.commitOrRollbackNoLock_of_ne htype heq] at hcommit
            cases hcommit
    next => exact h
  · exact h

/-! ## Replaying -/

/-- Replaying records leaves the WAL alone and removes at most the tables that are dropped. -/
structure Replayed (db : Database Page) (records : Log) (db' : Database Page) : Prop where
  wal : db'.wal = db.wal
  tables : ∀ tableID ∈ db.nodeTables,
    tableID ∈ db'.nodeTables ∨ .dropTable true tableID ∈ records

theorem Replayed.of_eq {records : Log} (hwal : db'.wal = db.wal)
    (htables : db'.nodeTables = db.nodeTables) : Replayed db records db' :=
  ⟨hwal, fun _ hmem ↦ .inl (htables ▸ hmem)⟩

theorem replayed_pageRecord {r : PageRecord} {records : Log}
    (hdb : db.replayPageRecord isCommit id r = .ok db') : Replayed db records db' := by
  obtain ⟨_, -, hdb⟩ := Lib.bind_eq_ok_iff.mp hdb
  obtain ⟨file, -, hdb⟩ := Lib.bind_eq_ok_iff.mp hdb
  cases file with
  | none =>
      obtain rfl := Except.ok.inj hdb
      exact .of_eq rfl rfl
  | some file =>
      obtain rfl := Except.ok.inj hdb
      exact .of_eq rfl rfl

theorem replayed_overflowFileNextBytePos {pos : ℕ} {records : Log}
    (hdb : db.replayOverflowFileNextBytePosRecord isCommit id pos = .ok db') :
    Replayed db records db' := by
  unfold replayOverflowFileNextBytePosRecord at hdb
  cases isCommit <;> simp only [Bool.false_eq_true, if_false, if_true] at hdb <;> split at hdb
  all_goals
    obtain ⟨_, -, hdb⟩ := Lib.bind_eq_ok_iff.mp hdb
    obtain rfl := Except.ok.inj hdb
    exact .of_eq rfl rfl

theorem replayed_tableStatistics {isNodeTable : Bool} {records : Log}
    (hdb : db.replayTableStatisticsRecord isCommit isNodeTable = .ok db') :
    Replayed db records db' := by
  unfold replayTableStatisticsRecord at hdb
  split at hdb
  · split at hdb
    · obtain ⟨nodes, -, hdb⟩ := Lib.bind_eq_ok_iff.mp hdb
      obtain rfl := Except.ok.inj hdb
      exact .of_eq rfl rfl
    · obtain ⟨rels, -, hdb⟩ := Lib.bind_eq_ok_iff.mp hdb
      obtain rfl := Except.ok.inj hdb
      exact .of_eq rfl rfl
  · obtain rfl := Except.ok.inj hdb
    exact .of_eq rfl rfl

theorem replayed_checkpointRecord {r : WALRecord}
    (hdb : db.checkpointRecord input walCatalog r = .ok db') : Replayed db [r] db' := by
  unfold checkpointRecord at hdb
  split at hdb
  · obtain rfl := Except.ok.inj hdb
    exact .of_eq rfl rfl
  · obtain ⟨content, -, hdb⟩ := Lib.bind_eq_ok_iff.mp hdb
    obtain ⟨schema, -, hdb⟩ := Lib.bind_eq_ok_iff.mp hdb
    obtain rfl := Except.ok.inj hdb
    exact ⟨rfl, fun _ hmem ↦ .inl (Finset.mem_insert_of_mem hmem)⟩
  · obtain ⟨_, -, hdb⟩ := Lib.bind_eq_ok_iff.mp hdb
    obtain ⟨content, -, hdb⟩ := Lib.bind_eq_ok_iff.mp hdb
    obtain ⟨schema, -, hdb⟩ := Lib.bind_eq_ok_iff.mp hdb
    obtain rfl := Except.ok.inj hdb
    exact .of_eq rfl rfl
  · obtain ⟨schema, -, hdb⟩ := Lib.bind_eq_ok_iff.mp hdb
    obtain ⟨_, -, hdb⟩ := Lib.bind_eq_ok_iff.mp hdb
    obtain rfl := Except.ok.inj hdb
    exact .of_eq rfl rfl
  · obtain ⟨schema, -, hdb⟩ := Lib.bind_eq_ok_iff.mp hdb
    obtain ⟨_, -, hdb⟩ := Lib.bind_eq_ok_iff.mp hdb
    obtain rfl := Except.ok.inj hdb
    exact .of_eq rfl rfl
  next tableID =>
    obtain ⟨schema, -, hdb⟩ := Lib.bind_eq_ok_iff.mp hdb
    obtain rfl := Except.ok.inj hdb
    refine ⟨rfl, fun tableID' hmem ↦ ?_⟩
    by_cases heq : tableID' = tableID
    · exact .inr (by simp [heq])
    · exact .inl (Finset.mem_erase.mpr ⟨heq, hmem⟩)
  · obtain ⟨schema, -, hdb⟩ := Lib.bind_eq_ok_iff.mp hdb
    obtain rfl := Except.ok.inj hdb
    exact .of_eq rfl rfl
  · obtain rfl := Except.ok.inj hdb
    exact .of_eq rfl rfl

theorem replayed_replayWALRecord {r : WALRecord}
    (hdb : db.replayWALRecord isCommit input walCatalog r = .ok db') : Replayed db [r] db' := by
  unfold replayWALRecord at hdb
  split at hdb
  · exact replayed_pageRecord hdb
  · exact replayed_tableStatistics hdb
  · obtain rfl := Except.ok.inj hdb
    exact .of_eq rfl rfl
  · exact replayed_overflowFileNextBytePos hdb
  · split at hdb
    · exact replayed_checkpointRecord hdb
    · obtain rfl := Except.ok.inj hdb
      exact .of_eq rfl rfl

theorem replayed_records {records : Log}
    (hdb : records.foldlM (replayWALRecord isCommit input walCatalog) db = .ok db') :
    Replayed db records db' := by
  refine Lib.foldlM_invariant (Replayed db records) ?_ (.of_eq rfl rfl) hdb
  intro db₁ r db₂ hr h hstep
  have hstep := replayed_replayWALRecord hstep
  refine ⟨hstep.wal.trans h.wal, fun tableID hmem ↦ ?_⟩
  rcases h.tables tableID hmem with hmem | hdrop
  · rcases hstep.tables tableID hmem with hmem | hdrop
    · exact .inl hmem
    · obtain rfl := List.mem_singleton.mp hdrop
      exact .inr hr
  · exact .inr hdrop

theorem wal_of_replay (hdb : db.replay isCommit input walCatalog = .ok db') :
    db'.wal = db.wal := by
  have hloop : ∀ {db₁ db₂ : Database Page} {lists : List ListFileID},
      lists.foldlM replayUpdatedList db₁ = .ok db₂ → db₂.wal = db₁.wal := by
    intro db₁ db₂ lists hloop
    refine Lib.foldlM_invariant (fun db ↦ db.wal = db₁.wal) ?_ rfl hloop
    intro db₃ list db₄ _ h hstep
    cases list with
    | unstructuredNodePropertyLists listFileType tableID =>
        obtain ⟨_, -, hstep⟩ := Lib.bind_eq_ok_iff.mp hstep
        obtain rfl := Except.ok.inj hstep
        exact h
    | adjLists => simp [replayUpdatedList] at hstep
    | relPropertyLists => simp [replayUpdatedList] at hstep
  unfold replay at hdb
  split at hdb
  · simp at hdb
  · obtain ⟨db₁, hrecords, hlists⟩ := Lib.bind_eq_ok_iff.mp hdb
    exact (hloop hlists).trans (replayed_records hrecords).wal

/-- What is left of the WAL when its log has been replayed. -/
theorem wal_of_checkpointOrRollbackAndClearWAL
    (hdb : db.checkpointOrRollbackAndClearWAL isCommit input walCatalog = .ok db') :
    db'.wal = db.wal.clearWAL := by
  obtain ⟨db₁, hreplay, hdb⟩ := Lib.bind_eq_ok_iff.mp hdb
  obtain rfl := Except.ok.inj hdb
  simp only [wal_of_replay hreplay]

end Database

/-! ## Runs -/

namespace Connections

open Database

variable {s s' : Connections Page} {a : ℕ × Call Page} {as : List (ℕ × Call Page)}

/-- The call ends a write transaction, whose log is replayed from `db`. -/
def Replays (s : Connections Page) (a : ℕ × Call Page) (isCommit : Bool) (input : CommitInput Page)
    (db : Database Page) : Prop :=
  a.2 = .commitOrRollback isCommit input ∧ ∃ t, s.activeTransaction a.1 = some t ∧
    t.type = .write ∧ s.database.prepareToReplay t isCommit input = .ok db

/-- Clearing the WAL makes it a new one, and the lists that the replayer goes through after the
records are lists with updates of the transaction.  Their tables exist, unless it is the transaction
itself that drops them. -/
def EndsClean (s : Connections Page) (a : ℕ × Call Page) : Prop :=
  ∀ isCommit input db₁, s.Replays a isCommit input db₁ →
    (∀ db₂, db₁.checkpointOrRollbackAndClearWAL isCommit input s.database.catalog.write = .ok db₂ →
      db₂.wal.IsFresh) ∧
    ∀ db₂, db₁.wal.records.foldlM (replayWALRecord isCommit input s.database.catalog.write) db₁ =
        .ok db₂ →
      ∀ list ∈ db₂.wal.updatedUnstructuredPropertyLists, ∃ tableID, listTable? list = some tableID ∧
        s.database.localUpdatedLists tableID ≠ ∅ ∧
        (tableID ∈ db₂.nodeTables ∨ .dropTable true tableID ∈ s.database.wal.records)

/-- A write transaction that ends has not updated unstructured property lists. -/
def EndsWithoutLists (s : Connections Page) (a : ℕ × Call Page) : Prop :=
  ∀ isCommit input db₁, s.Replays a isCommit input db₁ →
    ∀ tableID < s.database.nodeTables.card, s.database.localUpdatedLists tableID = ∅

/-- The lists in the vector have updates that are pending. -/
def VectorPending (db : Database Page) : Prop :=
  ∀ list ∈ db.wal.updatedUnstructuredPropertyLists, ∃ tableID < db.nodeTables.card,
    tableID ∈ db.nodeTables ∧ listTable? list = some tableID ∧ db.localUpdatedLists tableID ≠ ∅

theorem vectorPending_of_prepared {db db₁ : Database Page} (h : VectorPending db)
    (hprepared : PreparedLists db (List.range db.nodeTables.card) db₁) : VectorPending db₁ := by
  intro list hlist
  rw [hprepared.vector, List.mem_append] at hlist
  rw [hprepared.nodeTables, hprepared.lists]
  rcases hlist with hlist | hlist
  · exact h list hlist
  · obtain ⟨tableID, htable, rfl⟩ := List.mem_map.mp hlist
    obtain ⟨hrange, hne⟩ := List.mem_filter.mp htable
    exact ⟨tableID, List.mem_range.mp hrange, hprepared.tables tableID hrange, rfl,
      of_decide_eq_true hne⟩

theorem vector_eq_nil_of_prepared {db db₁ : Database Page} (h : VectorPending db)
    (hempty : ∀ tableID < db.nodeTables.card, db.localUpdatedLists tableID = ∅)
    (hprepared : PreparedLists db (List.range db.nodeTables.card) db₁) :
    db₁.wal.updatedUnstructuredPropertyLists = [] := by
  rw [List.eq_nil_iff_forall_not_mem]
  intro list hlist
  obtain ⟨tableID, hlt, -, -, hne⟩ := vectorPending_of_prepared h hprepared list hlist
  rw [hprepared.nodeTables] at hlt
  rw [hprepared.lists] at hne
  exact hne (hempty tableID hlt)

/-- Once the log has been replayed, what remains to be done leaves the WAL alone. -/
theorem outcome_manuallyClear (db : Database Page) (t : Transaction) :
    Lib.Outcome (Leaves fun db' ↦ db'.wal = db.wal) (fun db' ↦ db'.wal = db.wal)
      (db.manuallyClearActiveWriteTransaction t) := by
  unfold manuallyClearActiveWriteTransaction
  split <;> rfl

/-- How a commit or rollback comes back: there was no write transaction to end, or the transaction
manager threw before the replay, or the log has been replayed. -/
theorem commitOrRollback_cases {c : ℕ} {isCommit : Bool} {input : CommitInput Page}
    (hstep : s.commitOrRollback c isCommit input = some s') :
    (∀ db₁, ¬ s.Replays (c, .commitOrRollback isCommit input) isCommit input db₁) ∧
      (SameLists s.database s'.database ∨
        PreparedLists s.database (List.range s.database.nodeTables.card) s'.database) ∨
    ∃ db₁ db₂, s.Replays (c, .commitOrRollback isCommit input) isCommit input db₁ ∧
      db₁.checkpointOrRollbackAndClearWAL isCommit input s.database.catalog.write = .ok db₂ ∧
      s'.database.wal = db₂.wal := by
  unfold commitOrRollback at hstep
  split at hstep
  next hactive =>
    obtain rfl := Option.some.inj hstep
    refine .inl ⟨?_, .inl (SameLists.refl _)⟩
    rintro db₁ ⟨-, t', hactive', -, -⟩
    rw [hactive] at hactive'
    cases hactive'
  next t hactive =>
    split at hstep
    next htype =>
      have hprepare := outcome_prepareToReplay s.database t isCommit input
      rw [commitAndCheckpointOrRollback_eq] at hstep
      cases hready : s.database.prepareToReplay t isCommit input with
      | error interruption =>
          rw [hready, Lib.error_bind] at hstep
          split at hstep
          next heq => cases heq
          next db' message heq =>
            obtain rfl := Except.error.inj heq
            obtain rfl := Option.some.inj hstep
            refine .inl ⟨?_, .inr (hprepare.error hready)⟩
            rintro db₁ ⟨-, t', hactive', -, hready'⟩
            obtain rfl := Option.some.inj (hactive.symm.trans hactive')
            rw [hready] at hready'
            cases hready'
          next => cases hstep
      | ok db₁ =>
          right
          rw [hready, Lib.ok_bind] at hstep
          have hreplays : s.Replays (c, .commitOrRollback isCommit input) isCommit input db₁ :=
            ⟨rfl, t, hactive, htype, hready⟩
          cases hclear : db₁.checkpointOrRollbackAndClearWAL isCommit input
              s.database.catalog.write with
          | error fault =>
              rw [hclear] at hstep
              cases hstep
          | ok db₂ =>
              refine ⟨db₁, db₂, hreplays, hclear, ?_⟩
              have hmanual := outcome_manuallyClear db₂ t
              simp only [hclear, liftFault, Lib.ok_bind] at hstep
              cases hdone : db₂.manuallyClearActiveWriteTransaction t with
              | error interruption =>
                  rw [hdone, Lib.error_bind] at hstep
                  split at hstep
                  next heq => cases heq
                  next db' message heq =>
                    obtain rfl := Except.error.inj heq
                    obtain rfl := Option.some.inj hstep
                    exact hmanual.error hdone
                  next => cases hstep
              | ok db₃ =>
                  rw [hdone, Lib.ok_bind, Lib.pure_eq_ok] at hstep
                  obtain rfl := Option.some.inj hstep
                  have hwal : db₃.wal = db₂.wal := hmanual.result hdone
                  cases isCommit <;> exact hwal
    next htype =>
      refine .inl ⟨?_, .inl ?_⟩
      · rintro db₁ ⟨-, t', hactive', htype', -⟩
        obtain rfl := Option.some.inj (hactive.symm.trans hactive')
        exact htype htype'
      · split at hstep <;> obtain rfl := Option.some.inj hstep <;> exact ⟨rfl, rfl, rfl⟩

theorem vectorPending_of_keepsLists {db db' : Database Page} (h : KeepsLists db db')
    (hpending : VectorPending db) : VectorPending db' := by
  intro list hlist
  rw [h.vector] at hlist
  obtain ⟨tableID, hlt, hmem, htable, hne⟩ := hpending list hlist
  rw [h.nodeTables]
  exact ⟨tableID, hlt, hmem, htable, h.lists tableID hne⟩

theorem sameLists_beginTransaction {c : ℕ} {type : TransactionType}
    (hstep : s.beginTransaction c type = some s') : SameLists s.database s'.database := by
  unfold beginTransaction at hstep
  split_ifs at hstep
  · obtain rfl := Option.some.inj hstep
    exact SameLists.refl _
  · split at hstep <;> obtain rfl := Option.some.inj hstep <;> exact ⟨rfl, rfl, rfl⟩

/-- While no transaction with updated lists has come to its end, the vector has the lists of the
current one. -/
theorem vectorPending_step (s : Connections Page) (a : ℕ × Call Page) (s' : Connections Page)
    (h : VectorPending s.database) (hguard : s.EndsWithoutLists a) (hstep : s.step a = some s') :
    VectorPending s'.database := by
  obtain ⟨c, call⟩ := a
  cases call with
  | beginTransaction type =>
      exact vectorPending_of_keepsLists (sameLists_beginTransaction hstep).keepsLists h
  | update update =>
      simp only [step] at hstep
      split at hstep
      next hdb =>
        obtain rfl := Option.some.inj hstep
        exact vectorPending_of_keepsLists (keepsLists_perform hdb) h
      next => cases hstep
  | commitOrRollback isCommit input =>
      rcases commitOrRollback_cases hstep with ⟨-, hsame | hprepared⟩ |
        ⟨db₁, db₂, hreplays, hclear, hwal⟩
      · exact vectorPending_of_keepsLists hsame.keepsLists h
      · exact vectorPending_of_prepared h hprepared
      · have hempty := hguard isCommit input db₁ hreplays
        obtain ⟨-, t, -, -, hready⟩ := hreplays
        have hprepared := (outcome_prepareToReplay s.database t isCommit input).result hready
        have hnil := vector_eq_nil_of_prepared h hempty hprepared
        intro list hlist
        rw [hwal, wal_of_checkpointOrRollbackAndClearWAL hclear] at hlist
        change list ∈ db₁.wal.updatedUnstructuredPropertyLists at hlist
        rw [hnil] at hlist
        cases hlist

/-- What the replayer goes through belongs to the transaction. -/
theorem visits_of_vectorPending {db db₁ db₂ : Database Page} {t : Transaction} {isCommit : Bool}
    {input : CommitInput Page} {walCatalog : Option CatalogContent} (h : VectorPending db)
    (hready : db.prepareToReplay t isCommit input = .ok db₁)
    (hreplay : db₁.wal.records.foldlM (replayWALRecord isCommit input walCatalog) db₁ = .ok db₂) :
    ∀ list ∈ db₂.wal.updatedUnstructuredPropertyLists, ∃ tableID, listTable? list = some tableID ∧
      db.localUpdatedLists tableID ≠ ∅ ∧
      (tableID ∈ db₂.nodeTables ∨ .dropTable true tableID ∈ db.wal.records) := by
  have hprepared := (outcome_prepareToReplay db t isCommit input).result hready
  have hreplayed := replayed_records hreplay
  intro list hlist
  rw [hreplayed.wal] at hlist
  obtain ⟨tableID, -, hmem, htable, hne⟩ := vectorPending_of_prepared h hprepared list hlist
  rw [hprepared.lists] at hne
  refine ⟨tableID, htable, hne, ?_⟩
  exact (hreplayed.tables tableID hmem).imp_right (hprepared.drops true tableID)

/-- In a call that comes back, the transaction ends clean exactly if it has no updated lists. -/
theorem endsClean_iff_endsWithoutLists (s : Connections Page) (a : ℕ × Call Page)
    (s' : Connections Page) (h : VectorPending s.database) (hstep : s.step a = some s') :
    s.EndsClean a ↔ s.EndsWithoutLists a := by
  constructor
  · intro hclean isCommit input db₁ hreplays tableID hlt
    obtain ⟨hcall, t, hactive, htype, hready⟩ := id hreplays
    have hprepared := (outcome_prepareToReplay s.database t isCommit input).result hready
    obtain ⟨c, call⟩ := a
    obtain rfl : call = _ := hcall
    rcases commitOrRollback_cases hstep with ⟨hno, -⟩ | ⟨db, db₂, hreplays', hclear, -⟩
    · exact absurd hreplays (hno db₁)
    · obtain ⟨-, t', hactive', -, hready'⟩ := hreplays'
      obtain rfl := Option.some.inj (hactive.symm.trans hactive')
      obtain rfl := Except.ok.inj (hready.symm.trans hready')
      have hfresh := ((hclean isCommit input _ hreplays).1 db₂ hclear).updatedLists
      rw [wal_of_checkpointOrRollbackAndClearWAL hclear] at hfresh
      change db₁.wal.updatedUnstructuredPropertyLists = [] at hfresh
      rw [hprepared.vector, List.append_eq_nil_iff] at hfresh
      by_contra hne
      have hmem : ListFileID.unstructuredNodePropertyLists .baseLists tableID ∈
          s.database.pendingLists (List.range s.database.nodeTables.card) :=
        List.mem_map_of_mem (List.mem_filter.mpr ⟨List.mem_range.mpr hlt, decide_eq_true hne⟩)
      rw [hfresh.2] at hmem
      cases hmem
  · intro hguard isCommit input db₁ hreplays
    have hempty := hguard isCommit input db₁ hreplays
    obtain ⟨-, t, -, -, hready⟩ := hreplays
    have hprepared := (outcome_prepareToReplay s.database t isCommit input).result hready
    refine ⟨fun db₂ hclear ↦ ?_, fun db₂ hreplay ↦ visits_of_vectorPending h hready hreplay⟩
    rw [wal_of_checkpointOrRollbackAndClearWAL hclear]
    exact ⟨rfl, rfl, vector_eq_nil_of_prepared h hempty hprepared⟩

/-- Every transaction of a run ends clean exactly if none that ends has updated lists. -/
theorem endsClean_along_iff (hfresh : s.database.wal.IsFresh)
    (hrun : Lib.run step s as = some s') :
    Lib.MeetsAlong step EndsClean s as ↔ Lib.MeetsAlong step EndsWithoutLists s as := by
  have hinit : VectorPending s.database := by
    intro list hlist
    rw [hfresh.updatedLists] at hlist
    cases hlist
  exact Lib.meetsAlong_iff (fun s ↦ VectorPending s.database)
    endsClean_iff_endsWithoutLists vectorPending_step hinit hrun

/-- A database with one node table. -/
def personTable : Connections ℕ where
  database := {
    nodeTables := {0}
    files := fun _ ↦ none
    overflowPositions := fun _ ↦ {}
    localUpdatedLists := fun _ ↦ ∅
    nodesStatisticsAndDeletedIDs := { readOnly := Finmap.singleton 0 (.empty 0) }
    relsStatistics := { readOnly := ∅ }
    catalog := { readOnly := (CatalogContent.addNodeTableSchema {} "person" 0 []).1 }
    wal := { pages := fun _ ↦ 0 } }

theorem endsClean_along_iff_addNode : ∃ s,
    Lib.run step personTable [(0, .beginTransaction .write), (0, .update (.addNode 0)),
      (0, .commitOrRollback true noInput)] = some s ∧
    Lib.MeetsAlong step EndsClean personTable [(0, .beginTransaction .write),
      (0, .update (.addNode 0)), (0, .commitOrRollback true noInput)] := by
  obtain ⟨s₁, s₂, s₃, hs₁, hs₂, hs₃, hlists⟩ : ∃ s₁ s₂ s₃,
      personTable.step (0, .beginTransaction .write) = some s₁ ∧
      s₁.step (0, .update (.addNode 0)) = some s₂ ∧
      s₂.step (0, .commitOrRollback true noInput) = some s₃ ∧
      ∀ tableID, s₂.database.localUpdatedLists tableID = ∅ := ⟨_, _, _, rfl, rfl, rfl, fun _ ↦ rfl⟩
  have hrun : Lib.run step personTable [(0, .beginTransaction .write), (0, .update (.addNode 0)),
      (0, .commitOrRollback true noInput)] = some s₃ := by
    simp only [Lib.run_cons_eq_some_iff, Lib.run_nil]
    exact ⟨s₁, hs₁, s₂, hs₂, s₃, hs₃, rfl⟩
  refine ⟨s₃, hrun, (endsClean_along_iff ⟨rfl, rfl, rfl⟩ hrun).mpr ?_⟩
  refine Lib.meetsAlong_cons_of_eq_some ?_ hs₁ (Lib.meetsAlong_cons_of_eq_some ?_ hs₂
    (Lib.meetsAlong_cons_of_eq_some ?_ hs₃ trivial))
  · rintro isCommit input db₁ ⟨hcall, -⟩
    cases hcall
  · rintro isCommit input db₁ ⟨hcall, -⟩
    cases hcall
  · exact fun isCommit input db₁ _ tableID _ ↦ hlists tableID

/-- The list of a transaction that was rolled back stays in the WAL, and the commit of the next
transaction, which drops the table, looks for it in vain. -/
theorem dropTable_not_endsClean : ∃ s₁ s₂,
    Lib.run step personTable [(0, .beginTransaction .write),
      (0, .update (.setPropertyList 0 0 [1]))] = some s₁ ∧
    ¬ s₁.EndsClean (0, .commitOrRollback false noInput) ∧
    Lib.run step s₁ [(0, .commitOrRollback false noInput), (0, .beginTransaction .write),
      (0, .update (.dropTable ⟨"person", 0, true⟩))] = some s₂ ∧
    s₂.database.commitAndCheckpointOrRollback ⟨.write, 2⟩ true noInput =
      .error (.fault CatalogContent.outOfRange) := by
  obtain ⟨s₁, db₁, db₂, s₂, hs₁, hreplays, hclear, hvector, hs₂, hcommit⟩ : ∃ s₁ db₁ db₂ s₂,
      Lib.run step personTable [(0, .beginTransaction .write),
        (0, .update (.setPropertyList 0 0 [1]))] = some s₁ ∧
      s₁.Replays (0, .commitOrRollback false noInput) false noInput db₁ ∧
      db₁.checkpointOrRollbackAndClearWAL false noInput s₁.database.catalog.write = .ok db₂ ∧
      db₂.wal.updatedUnstructuredPropertyLists.length = 1 ∧
      Lib.run step s₁ [(0, .commitOrRollback false noInput), (0, .beginTransaction .write),
        (0, .update (.dropTable ⟨"person", 0, true⟩))] = some s₂ ∧
      s₂.database.commitAndCheckpointOrRollback ⟨.write, 2⟩ true noInput =
        .error (.fault CatalogContent.outOfRange) :=
    ⟨_, _, _, _, rfl, ⟨rfl, _, rfl, rfl, rfl⟩, rfl, rfl, rfl, rfl⟩
  refine ⟨s₁, s₂, hs₁, fun hclean ↦ ?_, hs₂, hcommit⟩
  have hfresh := ((hclean false noInput db₁ hreplays).1 db₂ hclear).updatedLists
  rw [hfresh] at hvector
  cases hvector

end Connections

end Graphflow
