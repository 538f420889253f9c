import Graphflow.Common.Configs
import Graphflow.Storage.TableStatistics
import Graphflow.Transaction.Manager

/-!
# The database as its transactions see it

The in-memory state behind `Database`: the files of columns, lists and overflow values with the WAL
versions of their pages, the updated unstructured property lists, the statistics, the catalog and
the WAL.  A write transaction is a sequence of updates of this state.  The pages of list headers
and list metadata are kept by disk arrays, which are the subject of `Graphflow.Storage.DiskArray`.
-/

namespace Graphflow

open Wal Storage

/-- The file of a storage structure: its handle and what is on its pages. -/
structure StructureFile (Page : Type) where
  fileHandle : VersionedFileHandle
  pages : ℕ → Page

/-- The write position of an `OverflowFile`. -/
structure OverflowPosition where
  nextBytePosToWriteTo : ℕ := 0
  loggedNewOverflowFileNextBytePosRecord : Bool := false
  deriving DecidableEq, Repr

/-- The WAL on the level of records.  `pages` are the pages that hold versions; which of the pages
of the file are header pages makes no difference here. -/
structure WAL (Page : Type) where
  records : Log := []
  numPages : ℕ := 1
  pages : ℕ → Page
  updatedUnstructuredPropertyLists : List ListFileID := []

structure Database (Page : Type) where
  transactionManager : TransactionManager := {}
  /-- `mtxForStartingNewTransactions` is locked. -/
  stoppedNewTransactions : Bool := false
  /-- The keys of the map `nodeTables` of `NodesStore`. -/
  nodeTables : Finset ℕ
  /-- The columns, lists and overflow files of these tables. -/
  files : StorageStructureID → Option (StructureFile Page)
  overflowPositions : StorageStructureID → OverflowPosition
  /-- `localUpdatedLists` of the unstructured property lists of a node table, by node offset. -/
  localUpdatedLists : ℕ → Finmap fun _ : ℕ ↦ List UInt8
  nodesStatisticsAndDeletedIDs : NodesStatisticsAndDeletedIDs
  relsStatistics : RelsStatistics
  catalog : Catalog
  wal : WAL Page

variable {Page : Type}

def WAL.log (wal : WAL Page) (record : WALRecord) : WAL Page :=
  { wal with records := wal.records ++ [record] }

/-- The list of updated unstructured property lists is not cleared. -/
def WAL.clearWAL (wal : WAL Page) : WAL Page := { wal with records := [], numPages := 1 }

namespace StructureFile

def numPages (file : StructureFile Page) : ℕ := file.fileHandle.numPages

/-- What a read-only transaction sees on a page. -/
def readView (file : StructureFile Page) (pageIdx : ℕ) : Option Page :=
  if pageIdx < file.numPages then some (file.pages pageIdx) else none

/-- What a write transaction sees on a page: its version in the WAL if there is one. -/
def writeView (file : StructureFile Page) (wal : WAL Page) (pageIdx : ℕ) : Option Page :=
  if pageIdx < file.numPages then
    match file.fileHandle.pageVersions pageIdx with
    | some pageIdxInWAL => some (wal.pages pageIdxInWAL)
    | none => some (file.pages pageIdx)
  else none

/-- The new page is not read from the file, so its version starts with the arbitrary contents
`junk` of a frame. -/
def addNewPageToFileHandle (id : StorageStructureID) (junk : Page) (file : StructureFile Page)
    (wal : WAL Page) : StructureFile Page × WAL Page :=
  ({ file with
    fileHandle := file.fileHandle.addNewPage.setWALPageVersion file.numPages wal.numPages },
    { wal with
      records := wal.records ++ [.pageUpdateOrInsert id file.numPages wal.numPages true]
      numPages := wal.numPages + 1
      pages := Function.update wal.pages wal.numPages junk })

/-- `createWALVersionIfNecessaryAndPinPage`, followed by an update of the pinned frame. -/
def updatePage (id : StorageStructureID) (pageIdx : ℕ) (updateOp : Page → Page)
    (file : StructureFile Page) (wal : WAL Page) :
    Except Fault (StructureFile Page × WAL Page) :=
  if file.numPages ≤ pageIdx then .error .invalidAccess
  else match file.fileHandle.pageVersions pageIdx with
    | some w =>
        .ok (file, { wal with pages := Function.update wal.pages w (updateOp (wal.pages w)) })
    | none =>
        .ok ({ file with fileHandle := file.fileHandle.setWALPageVersion pageIdx wal.numPages },
          { wal with
            records := wal.records ++ [.pageUpdateOrInsert id pageIdx wal.numPages false]
            numPages := wal.numPages + 1
            pages := Function.update wal.pages wal.numPages (updateOp (file.pages pageIdx)) })

/-- A write to an element of the page that `createWALVersionOfPageIfNecessaryForElement` makes a
version of.  The page may be the one right behind the end of the file. -/
def writeElement (id : StorageStructureID) (pageIdx : ℕ) (updateOp : Page → Page) (junk : Page)
    (file : StructureFile Page) (wal : WAL Page) :
    Except Fault (StructureFile Page × WAL Page) :=
  if pageIdx = file.numPages then
    let (file, wal) := file.addNewPageToFileHandle id junk wal
    file.updatePage id pageIdx updateOp wal
  else file.updatePage id pageIdx updateOp wal

end StructureFile

/-- An update of a write transaction.  The functions and the numbers that an update carries stand
for what a query computes; a statement such as COPY is a sequence of updates. -/
inductive Update (Page : Type)
  | addNode (tableID : ℕ)
  | deleteNode (tableID nodeOffset : ℕ) (edgesMessage : Option String)
  | writeElement (id : StorageStructureID) (pageIdx : ℕ) (updateOp : Page → Page) (junk : Page)
  | writeOverflow (id : StorageStructureID) (isString : Bool) (numBytes : ℕ)
      (updateOp : Page → Page) (junk : Page)
  | setPropertyList (tableID nodeOffset : ℕ) (list : List UInt8)
  | createNodeTable (tableName : String) (primaryKeyIdx : ℕ)
      (propertyNameDataTypes : List PropertyNameDataType)
  | createRelTable (tableName : String) (relMultiplicity : RelMultiplicity)
      (propertyNameDataTypes : List PropertyNameDataType) (srcDstTableIDs : SrcDstTableIDs)
  | dropTable (tableSchema : TableSchema)
  | setUnstructuredProperties (tableID : ℕ) (unstructuredProperties : List String)
  | setMaxNodeOffset (tableID nodeOffset : ℕ)
  | logCopyNodeCSV (tableID : ℕ)
  | setNumRelsPerDirectionBoundTableID (tableID : ℕ)
      (directionNumRelsPerTable : RelDirection → List ℕ)
  | setNumRels (tableID numRels : ℕ)
  | logCopyRelCSV (tableID : ℕ)

namespace Database

variable {db db' : Database Page} {id id' : StorageStructureID}

def setFile (db : Database Page) (id : StorageStructureID) (file : StructureFile Page) :
    Database Page :=
  { db with files := Function.update db.files id (some file) }

/-- Run an operation on a file and the WAL; a file without a handle is a null pointer. -/
def onFile (db : Database Page) (id : StorageStructureID)
    (op : StructureFile Page → WAL Page → Except Fault (StructureFile Page × WAL Page)) :
    Except Fault (Database Page) := do
  match db.files id with
  | none => throw .invalidAccess
  | some file =>
      let (file, wal) ← op file db.wal
      return { db.setFile id file with wal := wal }

/-- `logNewOverflowFileNextBytePosRecordIfNecessaryWithoutLock`. -/
def logNewOverflowFileNextBytePosRecordIfNecessary (db : Database Page) (id : StorageStructureID) :
    Database Page :=
  let position := db.overflowPositions id
  if position.loggedNewOverflowFileNextBytePosRecord then db
  else { db with
    overflowPositions := Function.update db.overflowPositions id
      { position with loggedNewOverflowFileNextBytePosRecord := true }
    wal := db.wal.log (.overflowFileNextBytePos id position.nextBytePosToWriteTo) }

def setNextBytePosToWriteTo (db : Database Page) (id : StorageStructureID) (pos : ℕ) :
    Database Page :=
  { db with
    overflowPositions := Function.update db.overflowPositions id
      { db.overflowPositions id with nextBytePosToWriteTo := pos } }

/-- `addNewPageIfNecessaryWithoutLock`. -/
def addNewPageIfNecessary (db : Database Page) (id : StorageStructureID) (numBytesToAppend : ℕ)
    (junk : Page) : Except Fault (Database Page) :=
  let posInPage := (db.overflowPositions id).nextBytePosToWriteTo % defaultPageSize
  if posInPage = 0 ∨ defaultPageSize < posInPage + numBytesToAppend - 1 then
    match db.files id with
    | none => .error .invalidAccess
    | some file =>
        (db.setNextBytePosToWriteTo id (file.numPages * defaultPageSize)).onFile id
          fun file wal ↦ .ok (file.addNewPageToFileHandle id junk wal)
  else .ok db

/-- Writing a string or one level of a list to an overflow file.  A value that does not fit on a
page is refused after the position has been logged. -/
def writeOverflow (db : Database Page) (id : StorageStructureID) (isString : Bool) (numBytes : ℕ)
    (updateOp : Page → Page) (junk : Page) : Except Fault (Database Page) := do
  if db.files id matches none then
    throw .invalidAccess
  let db := db.logNewOverflowFileNextBytePosRecordIfNecessary id
  if isString ∧ numBytes < shortStrLength ∨ defaultPageSize < numBytes then
    return db
  let db ← db.addNewPageIfNecessary id numBytes junk
  let pos := (db.overflowPositions id).nextBytePosToWriteTo
  let db ← db.onFile id (StructureFile.writeElement id (pos / defaultPageSize) updateOp junk)
  return db.setNextBytePosToWriteTo id (pos + numBytes)

def log (db : Database Page) (record : WALRecord) : Database Page :=
  { db with wal := db.wal.log record }

/-- One update.  An update that throws leaves behind what it has done until then. -/
def perform (db : Database Page) : Update Page → Except Fault (Database Page)
  | .addNode tableID => do
      let nodes ← NodesStatisticsAndDeletedIDs.addNode db.nodesStatisticsAndDeletedIDs tableID
      return { db with nodesStatisticsAndDeletedIDs := nodes }
  | .deleteNode tableID nodeOffset edgesMessage => do
      let nodes ← NodesStatisticsAndDeletedIDs.deleteNode db.nodesStatisticsAndDeletedIDs tableID
        nodeOffset edgesMessage
      return { db with nodesStatisticsAndDeletedIDs := nodes }
  | .writeElement id pageIdx updateOp junk =>
      db.onFile id (StructureFile.writeElement id pageIdx updateOp junk)
  | .writeOverflow id isString numBytes updateOp junk =>
      db.writeOverflow id isString numBytes updateOp junk
  | .setPropertyList tableID nodeOffset list =>
      if tableID ∈ db.nodeTables then
        .ok { db with
          localUpdatedLists := Function.update db.localUpdatedLists tableID
            ((db.localUpdatedLists tableID).insert nodeOffset list) }
      else .error .invalidAccess
  | .createNodeTable tableName primaryKeyIdx propertyNameDataTypes =>
      let (catalog, tableID, record) :=
        db.catalog.addNodeTableSchema tableName primaryKeyIdx propertyNameDataTypes
      .ok { db with
        catalog := catalog
        wal := db.wal.log record
        nodesStatisticsAndDeletedIDs :=
          NodesStatisticsAndDeletedIDs.addNodeStatisticsAndDeletedIDs
            db.nodesStatisticsAndDeletedIDs tableID }
  | .createRelTable tableName relMultiplicity propertyNameDataTypes srcDstTableIDs => do
      let (catalog, tableID, record) ← db.catalog.addRelTableSchema tableName relMultiplicity
        propertyNameDataTypes srcDstTableIDs
      return { db with
        catalog := catalog
        wal := db.wal.log record
        relsStatistics := TablesStatistics.addTableStatistic db.relsStatistics tableID
          (.ofSrcDstTableIDs srcDstTableIDs) }
  | .dropTable tableSchema =>
      let (catalog, record) := db.catalog.removeTableSchema tableSchema
      .ok { db with catalog := catalog, wal := db.wal.log record }
  | .setUnstructuredProperties tableID unstructuredProperties => do
      let catalog ← db.catalog.setUnstructuredPropertiesOfNodeTableSchema unstructuredProperties
        tableID
      return { db with catalog := catalog }
  | .setMaxNodeOffset tableID nodeOffset => do
      let nodes ← NodesStatisticsAndDeletedIDs.setMaxNodeOffsetForTable
        db.nodesStatisticsAndDeletedIDs tableID nodeOffset
      return { db with nodesStatisticsAndDeletedIDs := nodes }
  | .logCopyNodeCSV tableID => .ok (db.log (.copyNodeCSV tableID))
  | .setNumRelsPerDirectionBoundTableID tableID directionNumRelsPerTable => do
      let rels ← RelsStatistics.setNumRelsPerDirectionBoundTableID db.relsStatistics tableID
        directionNumRelsPerTable
      return { db with relsStatistics := rels }
  | .setNumRels tableID numRels => do
      let rels ← RelsStatistics.setNumRelsForTable db.relsStatistics tableID numRels
      return { db with relsStatistics := rels }
  | .logCopyRelCSV tableID => .ok (db.log (.copyRelCSV tableID))

def performAll (db : Database Page) (updates : List (Update Page)) :
    Except Fault (Database Page) :=
  updates.foldlM perform db

end Database

end Graphflow
