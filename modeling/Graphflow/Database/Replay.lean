import Graphflow.Database.State

/-!
# Ending a write transaction

`Database::commitAndCheckpointOrRollback` and the `WALReplayer` as it runs during normal execution.
Each record in the log is checkpointed or rolled back on its own, so a component is brought back
only if a record of the right kind was logged for it.
-/

namespace Graphflow

open Wal Storage

variable {Page : Type}

/-! ## Which files a record is about -/

/-- The node table whose files the structure belongs to. -/
def Wal.StorageStructureID.nodeTableID? (id : StorageStructureID) : Option ℕ :=
  match id.storageStructure with
  | .structuredNodePropertyColumn tableID _ => some tableID
  | .lists (.unstructuredNodePropertyLists _ tableID) => some tableID
  | .lists _ => none
  | .nodeIndex tableID => some tableID

def columnID (property : Property) (isOverflow : Bool) : StorageStructureID :=
  ⟨.structuredNodePropertyColumn property.tableID property.propertyID, isOverflow⟩

def unstructuredListsID (tableID : ℕ) (isOverflow : Bool) : StorageStructureID :=
  ⟨.lists (.unstructuredNodePropertyLists .baseLists tableID), isOverflow⟩

def DataType.hasOverflow (dataType : DataType) : Bool :=
  dataType.typeID = .string ∨ dataType.typeID = .list

/-- The structures that `NodeTable::loadColumnsAndListsFromDisk` opens. -/
def NodeTableSchema.structureIDs (schema : NodeTableSchema) : List StorageStructureID :=
  ((schema.structuredProperties ++ schema.unstructuredProperties).filter
    fun property ↦ property.dataType.typeID ≠ .unstructured).flatMap
      (fun property ↦ columnID property false ::
        if property.dataType.hasOverflow then [columnID property true] else []) ++
    [unstructuredListsID schema.tableID false, unstructuredListsID schema.tableID true]

/-- `CatalogContent::readFromFile` adds what is in the file to the content. -/
def CatalogContent.readFromFile (c file : CatalogContent) : CatalogContent where
  nodeTableSchemas := file.nodeTableSchemas ∪ c.nodeTableSchemas
  relTableSchemas := file.relTableSchemas ∪ c.relTableSchemas
  nodeTableNameToIDMap := file.nodeTableNameToIDMap ∪ c.nodeTableNameToIDMap
  relTableNameToIDMap := file.relTableNameToIDMap ∪ c.relTableNameToIDMap

/-- A write to a page of a base list while the lists of a table are prepared for the commit. -/
inductive ListPageWrite (Page : Type)
  | existingPage (listPageIdx : ℕ) (updateOp : Page → Page)
  | newPage (updateOp : Page → Page) (junk : Page)

/-- What a commit finds outside the modelled state: the list pages that
`UnstructuredPropertyListsUpdateIterator` decides to write for a table, and the files on disk, with
their number of pages, that are opened for new or reloaded tables. -/
structure CommitInput (Page : Type) where
  listPageWrites : ℕ → List (ListPageWrite Page)
  filesOnDisk : StorageStructureID → ℕ × (ℕ → Page)

/-- How a call can end without returning. -/
inductive Interruption (Page : Type)
  /-- An exception of the transaction manager leaves this state behind. -/
  | threw (db : Database Page) (message : String)
  /-- The thread waits for a mutex that it holds itself. -/
  | blocked
  | fault (fault : Fault)

/-- A page of a base list is added to the handle before its version is made.  The frame of the
page is not read from the file. -/
def StructureFile.writeListPage (id : StorageStructureID) (file : StructureFile Page)
    (wal : WAL Page) : ListPageWrite Page → Except Fault (StructureFile Page × WAL Page)
  | .existingPage listPageIdx updateOp => file.updatePage id listPageIdx updateOp wal
  | .newPage updateOp junk =>
      StructureFile.updatePage id file.numPages updateOp
        { fileHandle := file.fileHandle.addNewPage
          pages := Function.update file.pages file.numPages junk } wal

/-- The exceptions of `StorageUtils::getFileInfoForReadWrite`. -/
def getFileInfoForReadWrite (id : StorageStructureID) : Except Fault Unit :=
  match id.storageStructure with
  | .structuredNodePropertyColumn _ _ => .ok ()
  | .lists (.unstructuredNodePropertyLists _ _) => .ok ()
  | .lists _ =>
      .error <| .exception <| "There should not be any code path yet triggering getting List " ++
        "file name for anything other than UnstructuredNodePropertyList ListType."
  | .nodeIndex _ =>
      .error <| .exception <| "There should not be any code path yet triggering getting " ++
        "NODE_INDEX file name from StorageStructureID."

namespace Database

/-! ## Replaying one record -/

/-- `nodeTables.at(tableID)`. -/
def checkNodeTable (db : Database Page) (tableID : ℕ) : Except Fault Unit :=
  if tableID ∈ db.nodeTables then .ok () else .error CatalogContent.outOfRange

/-- The file whose WAL versions the replayer clears.  List headers and metadata are left to their
disk arrays. -/
def getVersionedFileHandleIfWALVersionAndBMShouldBeCleared (db : Database Page)
    (id : StorageStructureID) : Except Fault (Option (StructureFile Page)) := do
  match id.storageStructure with
  | .structuredNodePropertyColumn tableID _ =>
      db.checkNodeTable tableID
      match db.files id with
      | some file => return some file
      | none => throw .invalidAccess
  | .lists (.unstructuredNodePropertyLists .baseLists tableID) =>
      db.checkNodeTable tableID
      match db.files id with
      | some file => return some file
      | none => throw .invalidAccess
  | .lists (.unstructuredNodePropertyLists _ tableID) =>
      db.checkNodeTable tableID
      return none
  | .lists (.adjLists _ _) =>
      throw <| .exception <| "There should not be any code path yet triggering getting List " ++
        "type name for anything other than UnstructuredNodePropertyList.1"
  | .lists (.relPropertyLists _ _ _) =>
      throw <| .exception <| "There should not be any code path yet triggering getting List " ++
        "type name for anything other than UnstructuredNodePropertyList.2"
  | .nodeIndex _ =>
      throw <| .exception <| "Unrecognized StorageStructureType inside WALReplayer::replay(). " ++
        "StorageStructureType:2"

def replayPageRecord (isCheckpoint : Bool) (db : Database Page) (id : StorageStructureID)
    (r : PageRecord) : Except Fault (Database Page) := do
  getFileInfoForReadWrite id
  match ← db.getVersionedFileHandleIfWALVersionAndBMShouldBeCleared id with
  | none => return db
  | some file =>
      return db.setFile id {
        fileHandle :=
          LoggedFile.checkpointOrRollbackVersionedFileHandle isCheckpoint file.fileHandle r
        pages := if isCheckpoint then
            Function.update file.pages r.pageIdxInOriginalFile (db.wal.pages r.pageIdxInWAL)
          else file.pages }

def replayOverflowFileNextBytePosRecord (isCheckpoint : Bool) (db : Database Page)
    (id : StorageStructureID) (prevNextBytePosToWriteTo : ℕ) : Except Fault (Database Page) := do
  match id.storageStructure with
  | .structuredNodePropertyColumn tableID _ => db.checkNodeTable tableID
  | .lists (.unstructuredNodePropertyLists _ tableID) => db.checkNodeTable tableID
  -- For the other lists the source asserts that they do not occur.
  | .lists _ => throw .invalidAccess
  | .nodeIndex _ =>
      throw <| .exception <| "Unsupported storageStructureType 2 for " ++
        "OVERFLOW_FILE_NEXT_BYTE_POS_RECORD."
  let db := if isCheckpoint then db else db.setNextBytePosToWriteTo id prevNextBytePosToWriteTo
  return { db with
    overflowPositions := Function.update db.overflowPositions id
      { db.overflowPositions id with loggedNewOverflowFileNextBytePosRecord := false } }

/-- The columns and lists of a node table are opened again, and nothing is known about versions of
their pages. -/
def loadColumnsAndListsFromDisk (db : Database Page) (schema : NodeTableSchema)
    (input : CommitInput Page) : Database Page :=
  { db with
    files := fun id ↦
      if id ∈ schema.structureIDs then
        some ⟨⟨(input.filesOnDisk id).1, fun _ ↦ none⟩, (input.filesOnDisk id).2⟩
      else db.files id
    overflowPositions := fun id ↦
      if id ∈ schema.structureIDs then
        { nextBytePosToWriteTo := (input.filesOnDisk id).1 * defaultPageSize }
      else db.overflowPositions id
    localUpdatedLists := Function.update db.localUpdatedLists schema.tableID ∅ }

/-- `getMaxNodeOffsetPerTable` and `setAdjListsAndColumns` look at the statistics of the tables 0,
1, … without a check that they exist. -/
def checkNodesStatistics (db : Database Page) : Except Fault Unit :=
  if ∀ tableID < db.nodesStatisticsAndDeletedIDs.readOnly.keys.card,
      tableID ∈ db.nodesStatisticsAndDeletedIDs.readOnly then .ok ()
  else .error .invalidAccess

/-- The content of the WAL version of the catalog file on top of the original one. -/
def catalogForCheckpointing (db : Database Page) (walCatalog : Option CatalogContent) :
    Except Fault CatalogContent :=
  match walCatalog with
  | some content => .ok (db.catalog.readOnly.readFromFile content)
  | none => .error (.exception "Cannot open file catalog.wal")

def removeNodeTable (db : Database Page) (tableID : ℕ) : Database Page :=
  { db with
    nodeTables := db.nodeTables.erase tableID
    files := fun id ↦
      if id.nodeTableID? = some tableID then none else db.files id
    localUpdatedLists := Function.update db.localUpdatedLists tableID ∅
    nodesStatisticsAndDeletedIDs :=
      TablesStatistics.removeTableStatistic db.nodesStatisticsAndDeletedIDs tableID }

/-- The records of DDL and COPY statements; a rollback does nothing with them. -/
def checkpointRecord (input : CommitInput Page) (walCatalog : Option CatalogContent)
    (db : Database Page) : WALRecord → Except Fault (Database Page)
  | .catalog => .ok { db with catalog := db.catalog.checkpointInMemoryIfNecessary }
  | .nodeTable tableID => do
      let content ← db.catalogForCheckpointing walCatalog
      let schema ← content.getNodeTableSchema tableID
      return { db with nodeTables := insert tableID db.nodeTables }.loadColumnsAndListsFromDisk
        schema input
  | .relTable tableID => do
      db.checkNodesStatistics
      let content ← db.catalogForCheckpointing walCatalog
      let _ ← content.getRelTableSchema tableID
      return db
  | .copyNodeCSV tableID => do
      let schema ← db.catalog.readOnly.getNodeTableSchema tableID
      db.checkNodeTable tableID
      return db.loadColumnsAndListsFromDisk schema input
  | .copyRelCSV tableID => do
      let _ ← db.catalog.readOnly.getRelTableSchema tableID
      db.checkNodesStatistics
      return db
  | .dropTable true tableID => do
      let _ ← db.catalog.readOnly.getNodeTableSchema tableID
      return db.removeNodeTable tableID
  | .dropTable false tableID => do
      let _ ← db.catalog.readOnly.getRelTableSchema tableID
      return { db with
        relsStatistics := TablesStatistics.removeTableStatistic db.relsStatistics tableID }
  | _ => .ok db

def replayTableStatisticsRecord (isCheckpoint isNodeTable : Bool) (db : Database Page) :
    Except Fault (Database Page) := do
  if isCheckpoint then
    if isNodeTable then
      let nodes ← TablesStatistics.checkpointInMemoryIfNecessary db.nodesStatisticsAndDeletedIDs
      return { db with nodesStatisticsAndDeletedIDs := nodes }
    else
      let rels ← TablesStatistics.checkpointInMemoryIfNecessary db.relsStatistics
      return { db with relsStatistics := rels }
  else
    -- Whatever table kind the record is about.
    return { db with nodesStatisticsAndDeletedIDs := db.nodesStatisticsAndDeletedIDs.rollback }

def replayWALRecord (isCheckpoint : Bool) (input : CommitInput Page)
    (walCatalog : Option CatalogContent) (db : Database Page) (record : WALRecord) :
    Except Fault (Database Page) :=
  match record with
  | .pageUpdateOrInsert id pageIdxInOriginalFile pageIdxInWAL isInsert =>
      db.replayPageRecord isCheckpoint id ⟨pageIdxInOriginalFile, pageIdxInWAL, isInsert⟩
  | .tableStatistics isNodeTable => db.replayTableStatisticsRecord isCheckpoint isNodeTable
  | .commit _ => .ok db
  | .overflowFileNextBytePos id prevNextBytePosToWriteTo =>
      db.replayOverflowFileNextBytePosRecord isCheckpoint id prevNextBytePosToWriteTo
  | record => if isCheckpoint then db.checkpointRecord input walCatalog record else .ok db

/-! ## Replaying the log -/

/-- `checkpointInMemoryIfNecessary` or `rollbackInMemoryIfNecessary` of one list; both end with
`localUpdatedLists.clear()`. -/
def replayUpdatedList (db : Database Page) : ListFileID → Except Fault (Database Page)
  | .unstructuredNodePropertyLists _ tableID => do
      db.checkNodeTable tableID
      return { db with
        localUpdatedLists := Function.update db.localUpdatedLists tableID ∅ }
  | .adjLists _ _ =>
      .error (.exception "Transactional updates to ListType: 1 is not supported.")
  | .relPropertyLists _ _ _ =>
      .error (.exception "Transactional updates to ListType: 2 is not supported.")

def replay (isCheckpoint : Bool) (input : CommitInput Page) (walCatalog : Option CatalogContent)
    (db : Database Page) : Except Fault (Database Page) := do
  if isCheckpoint ∧ db.wal.records.isLastRecordCommit = false then
    throw (.exception "Cannot checkpointWAL because last logged record is not a commit record.")
  let db ← db.wal.records.foldlM (replayWALRecord isCheckpoint input walCatalog) db
  db.wal.updatedUnstructuredPropertyLists.foldlM replayUpdatedList db

def checkpointOrRollbackAndClearWAL (isCheckpoint : Bool) (input : CommitInput Page)
    (walCatalog : Option CatalogContent) (db : Database Page) : Except Fault (Database Page) := do
  let db ← db.replay isCheckpoint input walCatalog
  return { db with wal := db.wal.clearWAL }

/-! ## Preparing the end of the transaction -/

/-- One record stands for both kinds of statistics. -/
def logTableStatisticsRecord (db : Database Page) : Database Page :=
  if db.nodesStatisticsAndDeletedIDs.hasUpdates || db.relsStatistics.hasUpdates then
    db.log (.tableStatistics db.nodesStatisticsAndDeletedIDs.hasUpdates)
  else db

def logCatalogRecord (db : Database Page) : Database Page :=
  if db.catalog.hasUpdates then db.log .catalog else db

/-- `UnstructuredPropertyLists::prepareCommitOrRollbackIfNecessary` for a node table; a table that
is missing in the map is a null pointer. -/
def prepareUnstructuredPropertyLists (isCommit : Bool) (input : CommitInput Page)
    (db : Database Page) (tableID : ℕ) : Except Fault (Database Page) := do
  if tableID ∉ db.nodeTables then
    throw .invalidAccess
  if db.localUpdatedLists tableID = ∅ then
    return db
  let db := { db with wal := { db.wal with
    updatedUnstructuredPropertyLists := db.wal.updatedUnstructuredPropertyLists ++
      [.unstructuredNodePropertyLists .baseLists tableID] } }
  if isCommit then
    (input.listPageWrites tableID).foldlM
      (fun db write ↦ db.onFile (unstructuredListsID tableID false) fun file wal ↦
        file.writeListPage (unstructuredListsID tableID false) wal write) db
  else return db

/-- `prepareListsToCommitOrRollbackIfNecessary`: the loop runs over the indices below the size of
the map, not over its keys. -/
def prepareLists (isCommit : Bool) (input : CommitInput Page) (db : Database Page) :
    Except Fault (Database Page) :=
  (List.range db.nodeTables.card).foldlM (prepareUnstructuredPropertyLists isCommit input) db

def prepare (isCommit : Bool) (input : CommitInput Page) (db : Database Page) :
    Except Fault (Database Page) :=
  db.logTableStatisticsRecord.logCatalogRecord.prepareLists isCommit input

def manuallyClearActiveWriteTransaction (db : Database Page) (t : Transaction) :
    Except (Interruption Page) (Database Page) :=
  match db.transactionManager.manuallyClearActiveWriteTransaction db.wal.records t with
  | .ok (m, _) => .ok { db with transactionManager := m }
  | .error message => .error (.threw db message)

def checkPointWaitTimeoutMessage : String :=
  "Timeout waiting for read transactions to leave the system before committing " ++
    "and checkpointing a write transaction. If you have an open read transaction " ++
    "close and try again."

/-- Read transactions that leave while the writer waits are taken to have left before the call. -/
def stopNewTransactionsAndWaitUntilAllReadTransactionsLeave (db : Database Page) :
    Except (Interruption Page) (Database Page) :=
  if db.stoppedNewTransactions then .error .blocked
  else
    let db := { db with stoppedNewTransactions := true }
    if db.transactionManager.activeReadOnlyTransactionIDs ≠ ∅ then
      .error (.threw db checkPointWaitTimeoutMessage)
    else .ok db

def commitButKeepActiveWriteTransaction (db : Database Page) (t : Transaction) :
    Except (Interruption Page) (Database Page) :=
  match db.transactionManager.commitButKeepActiveWriteTransaction db.wal.records t with
  | .ok (m, records) =>
      .ok { db with transactionManager := m, wal := { db.wal with records := records } }
  | .error message => .error (.threw db message)

def allowReceivingNewTransactions (db : Database Page) : Database Page :=
  { db with stoppedNewTransactions := false }

/-- A fault of the storage layer inside a call of `Database`. -/
def liftFault {α : Type} : Except Fault α → Except (Interruption Page) α
  | .ok a => .ok a
  | .error fault => .error (.fault fault)

/-- `commitAndCheckpointOrRollback` without the skipping of the replay, which only tests do. -/
def commitAndCheckpointOrRollback (db : Database Page) (writeTransaction : Transaction)
    (isCommit : Bool) (input : CommitInput Page) :
    Except (Interruption Page) (Database Page) := do
  let walCatalog := db.catalog.write
  let db ← liftFault (db.prepare isCommit input)
  if isCommit then
    let db ← db.stopNewTransactionsAndWaitUntilAllReadTransactionsLeave
    let db ← db.commitButKeepActiveWriteTransaction writeTransaction
    let db ← liftFault (db.checkpointOrRollbackAndClearWAL true input walCatalog)
    let db ← db.manuallyClearActiveWriteTransaction writeTransaction
    return db.allowReceivingNewTransactions
  else
    let db ← liftFault (db.checkpointOrRollbackAndClearWAL false input walCatalog)
    db.manuallyClearActiveWriteTransaction writeTransaction

end Database

end Graphflow
