import Graphflow.Lib.Transition
import Graphflow.Wal.Record
import Mathlib.Data.Finset.Basic
import Mathlib.Logic.Function.Basic

/-!
# The WAL file

The header pages of `wal.cpp`: page 0 is the first header page, each full header page points to the
next one, and the pages in between hold the new images of updated pages.  Only the current header
page is kept in memory.  A full header page is written with the pointer to its successor before the
successor is; data pages are written by the buffer manager at any time.

A crash leaves what has been written until then.  Opening the file follows the pointers, with
`FileUtils::readFromFile` reading nothing, and not complaining, at the very end of the file.
-/

namespace Graphflow.Wal

/-- `WAL_HEADER_PAGE_SIZE`. -/
def headerPageSize : ℕ := 4096

/-- `WAL_HEADER_PAGE_PREFIX_FIELD_SIZES`: the number of records and the next header page. -/
def headerPagePrefixSize : ℕ := 12

/-- `sizeof(WALRecord)`. -/
def walRecordSize : ℕ := 80

/-- The used part of a header page.  The null pointer `UINT32_MAX` is `none`. -/
structure HeaderPage where
  records : List WALRecord := []
  nextHeaderPageIdx : Option ℕ := none
  deriving DecidableEq

/-- A page of the WAL file on disk.  A page that was never written but lies before the end of the
file is a hole; the contents of a data page are what one would find when reading it as a header. -/
inductive FilePage
  | hole
  | header (page : HeaderPage)
  | data (contents : HeaderPage)

/-- Holes read as zeros: no records, and 0 where the next header page stands. -/
def FilePage.asHeaderPage : FilePage → HeaderPage
  | .hole => ⟨[], some 0⟩
  | .header page => page
  | .data contents => contents

/-- The file on disk; `numPages` is its length in pages. -/
structure FileImage where
  numPages : ℕ := 0
  pages : ℕ → FilePage := fun _ ↦ .hole

inductive WALError
  /-- `Cannot read from file: … position: …`, thrown by `FileUtils::readFromFile`. -/
  | cannotRead (numBytesRead numBytes position : ℕ)
  /-- `WALIterator cannot read  more log records from the WAL.` -/
  | noMoreRecords
  deriving DecidableEq

namespace FileImage

def writePage (file : FileImage) (pageIdx : ℕ) (page : FilePage) : FileImage where
  numPages := max file.numPages (pageIdx + 1)
  pages := Function.update file.pages pageIdx page

/-- `readFromFile` accepts that fewer bytes are read than asked for if this is where the file ends.
At the very end nothing is read and the buffer stays as it is. -/
def readPage (file : FileImage) (buffer : HeaderPage) (pageIdx : ℕ) : Except WALError HeaderPage :=
  if pageIdx < file.numPages then .ok (file.pages pageIdx).asHeaderPage
  else if pageIdx = file.numPages then .ok buffer
  else .error (.cannotRead 0 headerPageSize (pageIdx * headerPageSize))

end FileImage

/-! ## Reading the records back -/

/-- The offset of the source is determined by the number of records read. -/
structure WALIterator where
  currentHeaderPage : HeaderPage
  numRecordsReadInCurrentHeaderPage : ℕ

namespace WALIterator

def new (file : FileImage) : Except WALError WALIterator :=
  if file.numPages > 0 then do
    let page ← file.readPage {} 0
    return ⟨page, 0⟩
  else return ⟨{}, 0⟩

def hasNextRecord (it : WALIterator) : Bool :=
  it.numRecordsReadInCurrentHeaderPage < it.currentHeaderPage.records.length

def getNextRecord (file : FileImage) (it : WALIterator) :
    Except WALError (WALRecord × WALIterator) :=
  match it.currentHeaderPage.records[it.numRecordsReadInCurrentHeaderPage]? with
  | none => .error .noMoreRecords
  | some record =>
      let numRecordsRead := it.numRecordsReadInCurrentHeaderPage + 1
      match it.currentHeaderPage.nextHeaderPageIdx with
      | some nextHeaderPageIdx =>
          if numRecordsRead = it.currentHeaderPage.records.length then do
            let page ← file.readPage it.currentHeaderPage nextHeaderPageIdx
            return (record, ⟨page, 0⟩)
          else .ok (record, ⟨it.currentHeaderPage, numRecordsRead⟩)
      | none => .ok (record, ⟨it.currentHeaderPage, numRecordsRead⟩)

/-- The loop of `setIsLastRecordCommit`, which keeps the last record; `none` when the fuel does not
suffice. -/
def readToEnd (file : FileImage) :
    ℕ → WALIterator → Option WALRecord → Option (Except WALError (Option WALRecord))
  | 0, _, _ => none
  | fuel + 1, it, last =>
      if it.hasNextRecord then
        match it.getNextRecord file with
        | .ok (record, it) => readToEnd file fuel it (some record)
        | .error error => some (.error error)
      else some (.ok last)

end WALIterator

/-! ## Writing -/

/-- The pages `dataPages` are those that hold images of updated pages. -/
structure WAL where
  numPages : ℕ
  currentHeaderPageIdx : ℕ
  currentHeaderPage : HeaderPage
  isLastLoggedRecordCommit : Bool
  dataPages : List ℕ
  disk : FileImage

inductive WALStep
  /-- A record that comes without a page. -/
  | log (record : WALRecord)
  /-- `logPageUpdateRecord` and `logPageInsertRecord`. -/
  | logPage (storageStructureID : StorageStructureID) (pageIdxInOriginalFile : ℕ) (isInsert : Bool)
  /-- The buffer manager evicts or flushes a data page. -/
  | writeDataPage (pageIdx : ℕ) (contents : HeaderPage)
  | flushHeaderPages

namespace WAL

/-- The WAL after `clearWAL`. -/
def cleared : WAL where
  numPages := 1
  currentHeaderPageIdx := 0
  currentHeaderPage := {}
  isLastLoggedRecordCommit := false
  dataPages := []
  disk := {}

def isEmptyWAL (wal : WAL) : Bool :=
  wal.currentHeaderPageIdx = 0 ∧ wal.currentHeaderPage.records = []

def offsetInCurrentHeaderPage (wal : WAL) : ℕ :=
  headerPagePrefixSize + walRecordSize * wal.currentHeaderPage.records.length

/-- A full header page is linked to a new page and written. -/
def addHeaderPageIfNecessary (wal : WAL) : WAL :=
  if wal.offsetInCurrentHeaderPage + walRecordSize > headerPageSize then
    { wal with
      numPages := wal.numPages + 1
      disk := wal.disk.writePage wal.currentHeaderPageIdx
        (.header { wal.currentHeaderPage with nextHeaderPageIdx := some wal.numPages })
      currentHeaderPage := {}
      currentHeaderPageIdx := wal.numPages }
  else wal

def appendRecord (wal : WAL) (record : WALRecord) : WAL :=
  { wal with
    currentHeaderPage := { wal.currentHeaderPage with
      records := wal.currentHeaderPage.records ++ [record] }
    isLastLoggedRecordCommit := record.isCommit }

/-- `addNewWALRecordNoLock`. -/
def addNewWALRecord (wal : WAL) (record : WALRecord) : WAL :=
  wal.addHeaderPageIfNecessary.appendRecord record

def addDataPage (wal : WAL) : WAL :=
  { wal with numPages := wal.numPages + 1, dataPages := wal.dataPages ++ [wal.numPages] }

def flushHeaderPages (wal : WAL) : WAL :=
  if wal.isEmptyWAL then wal
  else { wal with
    disk := wal.disk.writePage wal.currentHeaderPageIdx (.header wal.currentHeaderPage) }

def writeDataPage (wal : WAL) (pageIdx : ℕ) (contents : HeaderPage) : WAL :=
  { wal with disk := wal.disk.writePage pageIdx (.data contents) }

def step (wal : WAL) : WALStep → Option WAL
  | .log record => some (wal.addNewWALRecord record)
  | .logPage storageStructureID pageIdxInOriginalFile isInsert =>
      some (wal.addDataPage.addNewWALRecord
        (.pageUpdateOrInsert storageStructureID pageIdxInOriginalFile wal.numPages isInsert))
  | .writeDataPage pageIdx contents =>
      if pageIdx ∈ wal.dataPages then some (wal.writeDataPage pageIdx contents) else none
  | .flushHeaderPages => some wal.flushHeaderPages

/-! ## Opening -/

/-- The constructor of `WAL` on an existing file; the fuel bounds the loop over the records. -/
def openFile (fuel : ℕ) (disk : FileImage) : Option (Except WALError WAL) :=
  if disk.numPages = 0 then some (.ok { cleared with disk := disk })
  else
    match disk.readPage {} 0, WALIterator.new disk with
    | .ok page, .ok it =>
        (it.readToEnd disk fuel none).map fun result ↦ result.map fun last ↦
          { numPages := disk.numPages
            currentHeaderPageIdx := 0
            currentHeaderPage := page
            isLastLoggedRecordCommit := last.any WALRecord.isCommit
            dataPages := []
            disk := disk }
    | .error error, _ => some (.error error)
    | _, .error error => some (.error error)

end WAL

/-- The records that can be reached on disk from a header page. -/
inductive RecordsFrom (disk : FileImage) : ℕ → List WALRecord → Prop
  | unwritten {p : ℕ} (hp : ∀ page, disk.pages p ≠ .header page) : RecordsFrom disk p []
  | last {p : ℕ} {records : List WALRecord} (hp : disk.pages p = .header ⟨records, none⟩) :
      RecordsFrom disk p records
  | link {p n : ℕ} {records rest : List WALRecord}
      (hp : disk.pages p = .header ⟨records, some n⟩) (hrest : RecordsFrom disk n rest) :
      RecordsFrom disk p (records ++ rest)

/-- Opening terminates without an exception, and says that the last record is a commit record
exactly when the last record on disk is one. -/
def OpensSafely (disk : FileImage) : Prop :=
  ∃ fuel wal records, WAL.openFile fuel disk = some (.ok wal) ∧ RecordsFrom disk 0 records ∧
    (wal.isLastLoggedRecordCommit = true ↔ ∃ transactionID,
      records.getLast? = some (.commit transactionID))

/-- Every header page on disk points to a page before the end of the file. -/
def PointersInside (disk : FileImage) : Prop :=
  ∀ p page n, disk.pages p = .header page → page.nextHeaderPageIdx = some n → n < disk.numPages

end Graphflow.Wal
