import Graphflow.Common.Configs
import Graphflow.Wal.Crash

/-!
# Header pages as buffers

The bytes of the header pages of `wal.cpp`.  One buffer of the size of a page serves for all header
pages, of which only the prefix is reset; the writer keeps the offset of the next record and counts
the records in the page, the iterator keeps its own offset and count.  Page indices have 32 bits.
-/

namespace Graphflow.Wal

/-- The fields of the prefix of a page, and the records at the offsets where they have been written.
A write destroys the records that it overlaps. -/
structure HeaderBuffer where
  numRecords : ℕ := 0
  nextHeaderPageIdx : ℕ := 0
  recordAt : ℕ → Option WALRecord := fun _ ↦ none

namespace HeaderBuffer

def resetCurrentHeaderPagePrefix (buffer : HeaderBuffer) : HeaderBuffer :=
  { buffer with numRecords := 0, nextHeaderPageIdx := nullPageIdx.toNat }

def incrementNumRecords (buffer : HeaderBuffer) : HeaderBuffer :=
  { buffer with numRecords := buffer.numRecords + 1 }

def setNextHeaderPage (buffer : HeaderBuffer) (nextHeaderPageIdx : ℕ) : HeaderBuffer :=
  { buffer with nextHeaderPageIdx := nextHeaderPageIdx }

def writeWALRecordToBytes (buffer : HeaderBuffer) (record : WALRecord) (offset : ℕ) :
    HeaderBuffer × ℕ :=
  ({ buffer with recordAt := fun o ↦
      if o = offset then some record
      else if o + walRecordSize ≤ offset ∨ offset + walRecordSize ≤ o then buffer.recordAt o
      else none },
    offset + walRecordSize)

/-- Bytes that are not those of a record give `none`. -/
def constructWALRecordFromBytes (buffer : HeaderBuffer) (offset : ℕ) : Option WALRecord × ℕ :=
  (buffer.recordAt offset, offset + walRecordSize)

end HeaderBuffer

/-- The file on disk.  What has not been written reads as zeros. -/
structure BufferFile where
  numPages : ℕ := 0
  pages : ℕ → HeaderBuffer := fun _ ↦ {}

namespace BufferFile

def writePage (file : BufferFile) (pageIdx : ℕ) (page : HeaderBuffer) : BufferFile where
  numPages := max file.numPages (pageIdx + 1)
  pages := Function.update file.pages pageIdx page

/-- As in `FileImage.readPage`, nothing is read at the very end of the file. -/
def readPage (file : BufferFile) (buffer : HeaderBuffer) (pageIdx : ℕ) :
    Except WALError HeaderBuffer :=
  if pageIdx < file.numPages then .ok (file.pages pageIdx)
  else if pageIdx = file.numPages then .ok buffer
  else .error (.cannotRead 0 headerPageSize (pageIdx * headerPageSize))

end BufferFile

/-! ## Reading -/

structure BufferIterator where
  currentHeaderPageBuffer : HeaderBuffer
  offsetInCurrentHeaderPage : ℕ
  numRecordsReadInCurrentHeaderPage : ℕ

namespace BufferIterator

/-- `numPages` is that of the file handle. -/
def new (file : BufferFile) (numPages : ℕ) : Except WALError BufferIterator :=
  let buffer := HeaderBuffer.resetCurrentHeaderPagePrefix {}
  if numPages > 0 then do
    let buffer ← file.readPage buffer 0
    return ⟨buffer, headerPagePrefixSize, 0⟩
  else return ⟨buffer, headerPagePrefixSize, 0⟩

def hasNextRecord (it : BufferIterator) : Bool :=
  it.numRecordsReadInCurrentHeaderPage < it.currentHeaderPageBuffer.numRecords

def getNextRecord (file : BufferFile) (it : BufferIterator) :
    Except WALError (Option WALRecord × BufferIterator) :=
  if it.hasNextRecord then do
    let (record, offset) :=
      it.currentHeaderPageBuffer.constructWALRecordFromBytes it.offsetInCurrentHeaderPage
    let numRecordsRead := it.numRecordsReadInCurrentHeaderPage + 1
    if numRecordsRead = it.currentHeaderPageBuffer.numRecords ∧
        it.currentHeaderPageBuffer.nextHeaderPageIdx ≠ nullPageIdx.toNat then
      let buffer ← file.readPage it.currentHeaderPageBuffer
        it.currentHeaderPageBuffer.nextHeaderPageIdx
      return (record, ⟨buffer, headerPagePrefixSize, 0⟩)
    else return (record, ⟨it.currentHeaderPageBuffer, offset, numRecordsRead⟩)
  else throw .noMoreRecords

/-- All records up to the end; `none` when the fuel does not suffice. -/
def readAll (file : BufferFile) :
    ℕ → BufferIterator → Option (Except WALError (List (Option WALRecord)))
  | 0, _ => none
  | fuel + 1, it =>
      if it.hasNextRecord then
        match it.getNextRecord file with
        | .ok (record, it) => (readAll file fuel it).map fun records ↦ records.map (record :: ·)
        | .error error => some (.error error)
      else some (.ok [])

end BufferIterator

/-! ## Writing -/

/-- `headerPages` and `dataPages` list the pages as they have been handed out. -/
structure BufferedWAL where
  numPages : ℕ
  currentHeaderPageIdx : ℕ
  currentHeaderPageBuffer : HeaderBuffer
  offsetInCurrentHeaderPage : ℕ
  isLastLoggedRecordCommit : Bool
  headerPages : List ℕ
  dataPages : List ℕ
  disk : BufferFile

inductive LogStep
  | log (record : WALRecord)
  | logPage (storageStructureID : StorageStructureID) (pageIdxInOriginalFile : ℕ) (isInsert : Bool)
  | writeDataPage (pageIdx : ℕ) (contents : HeaderBuffer)
  | flushHeaderPages

namespace BufferedWAL

/-- The constructor, when there is no file yet. -/
def fresh : BufferedWAL where
  numPages := 1
  currentHeaderPageIdx := 0
  currentHeaderPageBuffer := HeaderBuffer.resetCurrentHeaderPagePrefix {}
  offsetInCurrentHeaderPage := headerPagePrefixSize
  isLastLoggedRecordCommit := false
  headerPages := [0]
  dataPages := []
  disk := {}

def isEmptyWAL (wal : BufferedWAL) : Bool :=
  wal.currentHeaderPageIdx = 0 ∧ wal.currentHeaderPageBuffer.numRecords = 0

/-- `FileHandle::addNewPage`, whose counter has 32 bits. -/
def addNewPage (wal : BufferedWAL) : ℕ × BufferedWAL :=
  (wal.numPages, { wal with numPages := (wal.numPages + 1) % 2 ^ 32 })

def addHeaderPageIfNecessary (wal : BufferedWAL) : BufferedWAL :=
  if wal.offsetInCurrentHeaderPage + walRecordSize > headerPageSize then
    let (nextHeaderPageIdx, wal) := wal.addNewPage
    let buffer := wal.currentHeaderPageBuffer.setNextHeaderPage nextHeaderPageIdx
    { wal with
      disk := wal.disk.writePage wal.currentHeaderPageIdx buffer
      currentHeaderPageBuffer := buffer.resetCurrentHeaderPagePrefix
      offsetInCurrentHeaderPage := headerPagePrefixSize
      currentHeaderPageIdx := nextHeaderPageIdx
      headerPages := wal.headerPages ++ [nextHeaderPageIdx] }
  else wal

def appendRecord (wal : BufferedWAL) (record : WALRecord) : BufferedWAL :=
  let (buffer, offset) := wal.currentHeaderPageBuffer.incrementNumRecords.writeWALRecordToBytes
    record wal.offsetInCurrentHeaderPage
  { wal with
    currentHeaderPageBuffer := buffer
    offsetInCurrentHeaderPage := offset
    isLastLoggedRecordCommit := record.isCommit }

/-- `addNewWALRecordNoLock`. -/
def addNewWALRecord (wal : BufferedWAL) (record : WALRecord) : BufferedWAL :=
  wal.addHeaderPageIfNecessary.appendRecord record

def addDataPage (wal : BufferedWAL) : BufferedWAL :=
  let (pageIdx, wal) := wal.addNewPage
  { wal with dataPages := wal.dataPages ++ [pageIdx] }

def flushHeaderPages (wal : BufferedWAL) : BufferedWAL :=
  if wal.isEmptyWAL then wal
  else { wal with
    disk := wal.disk.writePage wal.currentHeaderPageIdx wal.currentHeaderPageBuffer }

def writeDataPage (wal : BufferedWAL) (pageIdx : ℕ) (contents : HeaderBuffer) : BufferedWAL :=
  { wal with disk := wal.disk.writePage pageIdx contents }

def step (wal : BufferedWAL) : LogStep → Option BufferedWAL
  | .log record => some (wal.addNewWALRecord record)
  | .logPage storageStructureID pageIdxInOriginalFile isInsert =>
      some (wal.addDataPage.addNewWALRecord
        (.pageUpdateOrInsert storageStructureID pageIdxInOriginalFile wal.numPages isInsert))
  | .writeDataPage pageIdx contents =>
      if pageIdx ∈ wal.dataPages then some (wal.writeDataPage pageIdx contents) else none
  | .flushHeaderPages => some wal.flushHeaderPages

/-- `flushAllPages` with the data pages that the buffer manager holds. -/
def flushAllPages (wal : BufferedWAL) (dirty : List (ℕ × HeaderBuffer)) : BufferedWAL :=
  if wal.isEmptyWAL then wal
  else dirty.foldl (fun wal page ↦ wal.writeDataPage page.1 page.2) wal.flushHeaderPages

/-- The record that a call logs. -/
def loggedBy (wal : BufferedWAL) : LogStep → List WALRecord
  | .log record => [record]
  | .logPage storageStructureID pageIdxInOriginalFile isInsert =>
      [.pageUpdateOrInsert storageStructureID pageIdxInOriginalFile wal.numPages isInsert]
  | .writeDataPage .. => []
  | .flushHeaderPages => []

def loggedAlong (wal : BufferedWAL) : List LogStep → List WALRecord
  | [] => []
  | s :: steps => wal.loggedBy s ++
      match wal.step s with
      | some wal' => wal'.loggedAlong steps
      | none => []

/-- What `isLastLoggedRecordCommit` is once the WAL has been constructed on an existing file; the
fuel bounds the loop of `setIsLastRecordCommit`. -/
def openFile (fuel : ℕ) (disk : BufferFile) : Option (Except WALError Bool) :=
  if disk.numPages = 0 then some (.ok false)
  else
    match BufferIterator.new disk disk.numPages with
    | .ok it => (it.readAll disk fuel).map fun result ↦ result.map fun records ↦
        records.getLast?.any fun record ↦ record.any WALRecord.isCommit
    | .error error => some (.error error)

end BufferedWAL

/-! ## Buffers that hold header pages -/

variable {buffer : HeaderBuffer} {page : HeaderPage} {record : WALRecord} {p : ℕ}
  {b b' : BufferedWAL} {wal wal' : WAL}

/-- The offset of a record in its page. -/
def recordOffset (i : ℕ) : ℕ := headerPagePrefixSize + walRecordSize * i

/-- The buffer holds the records and the pointer of a header page. -/
structure HeaderBuffer.Holds (buffer : HeaderBuffer) (page : HeaderPage) : Prop where
  numRecords : buffer.numRecords = page.records.length
  next : buffer.nextHeaderPageIdx = page.nextHeaderPageIdx.getD nullPageIdx.toNat
  next_lt : ∀ n, page.nextHeaderPageIdx = some n → n < nullPageIdx.toNat
  records : ∀ (i : ℕ) (record : WALRecord), page.records[i]? = some record →
    buffer.recordAt (recordOffset i) = some record

theorem HeaderBuffer.holds_reset (buffer : HeaderBuffer) :
    buffer.resetCurrentHeaderPagePrefix.Holds {} :=
  ⟨rfl, rfl, by simp, by simp⟩

theorem HeaderBuffer.Holds.setNext (h : buffer.Holds page) (hp : p < nullPageIdx.toNat) :
    (buffer.setNextHeaderPage p).Holds { page with nextHeaderPageIdx := some p } :=
  ⟨h.numRecords, rfl, fun _ hn ↦ Option.some.inj hn ▸ hp, h.records⟩

theorem HeaderBuffer.Holds.append (h : buffer.Holds page) (record : WALRecord) :
    (buffer.incrementNumRecords.writeWALRecordToBytes record
      (recordOffset page.records.length)).1.Holds
        { page with records := page.records ++ [record] } where
  numRecords := by
    show buffer.numRecords + 1 = _
    rw [h.numRecords, List.length_append, List.length_singleton]
  next := h.next
  next_lt := h.next_lt
  records := by
    intro i r hr
    show (if recordOffset i = recordOffset page.records.length then some record
      else if recordOffset i + walRecordSize ≤ recordOffset page.records.length ∨
        recordOffset page.records.length + walRecordSize ≤ recordOffset i
      then buffer.recordAt (recordOffset i) else none) = some r
    by_cases hi : i < page.records.length
    · rw [List.getElem?_append_left hi] at hr
      have hbefore : recordOffset i + walRecordSize ≤ recordOffset page.records.length := by
        simp only [recordOffset, walRecordSize]
        omega
      have hne : recordOffset i ≠ recordOffset page.records.length := by
        simp only [recordOffset, walRecordSize]
        omega
      rw [if_neg hne, if_pos (.inl hbefore), h.records i r hr]
    · have hlt := (List.getElem?_eq_some_iff.mp hr).1
      rw [List.length_append, List.length_singleton] at hlt
      obtain rfl : i = page.records.length := by omega
      rw [List.getElem?_concat_length] at hr
      rw [if_pos rfl, hr]

/-- A WAL with buffers does what the WAL of header pages does. -/
structure Refines (b : BufferedWAL) (wal : WAL) (closed : List (ℕ × List WALRecord)) : Prop where
  chained : Chained wal closed
  fits : wal.numPages < 2 ^ 32
  numPages : b.numPages = wal.numPages
  current : b.currentHeaderPageIdx = wal.currentHeaderPageIdx
  buffer : b.currentHeaderPageBuffer.Holds wal.currentHeaderPage
  offset : b.offsetInCurrentHeaderPage = recordOffset wal.currentHeaderPage.records.length
  commit : b.isLastLoggedRecordCommit = wal.isLastLoggedRecordCommit
  headerPages : b.headerPages = headerPages wal.currentHeaderPageIdx closed
  dataPages : b.dataPages = wal.dataPages
  nodup : wal.dataPages.Nodup
  diskPages : b.disk.numPages = wal.disk.numPages
  disk : ∀ p page, wal.disk.pages p = .header page → (b.disk.pages p).Holds page

namespace Refines

variable {closed : List (ℕ × List WALRecord)}

theorem fresh : Refines BufferedWAL.fresh WAL.cleared [] where
  chained := chained_cleared
  fits := by decide
  numPages := rfl
  current := rfl
  buffer := HeaderBuffer.holds_reset _
  offset := rfl
  commit := rfl
  headerPages := rfl
  dataPages := rfl
  nodup := List.nodup_nil
  diskPages := rfl
  disk := by simp [WAL.cleared]

theorem isEmptyWAL (h : Refines b wal closed) : b.isEmptyWAL = wal.isEmptyWAL := by
  simp only [BufferedWAL.isEmptyWAL, WAL.isEmptyWAL, h.current, h.buffer.numRecords,
    List.length_eq_zero_iff]

/-- A header page is written. -/
theorem disk_writePage {disk : BufferFile} {file : FileImage}
    (hdisk : ∀ p page, file.pages p = .header page → (disk.pages p).Holds page)
    (hbuffer : buffer.Holds page) :
    ∀ q page', (file.writePage p (.header page)).pages q = .header page' →
      ((disk.writePage p buffer).pages q).Holds page' := by
  intro q page' hq
  simp only [FileImage.writePage, BufferFile.writePage] at hq ⊢
  by_cases hqp : q = p
  · subst hqp
    rw [Function.update_self, FilePage.header.injEq] at hq
    rwa [Function.update_self, ← hq]
  · rw [Function.update_of_ne hqp] at hq ⊢
    exact hdisk q page' hq

theorem addHeaderPageIfNecessary (h : Refines b wal closed)
    (hfits : wal.addHeaderPageIfNecessary.numPages < 2 ^ 32) :
    Refines b.addHeaderPageIfNecessary wal.addHeaderPageIfNecessary
      (wal.closedWithRoom closed) := by
  have hchained := h.chained.addHeaderPageIfNecessary
  have hoffset : b.offsetInCurrentHeaderPage = wal.offsetInCurrentHeaderPage := h.offset
  by_cases hfull : wal.offsetInCurrentHeaderPage + walRecordSize > headerPageSize
  · have hfull' : b.offsetInCurrentHeaderPage + walRecordSize > headerPageSize := by
      rw [hoffset]
      exact hfull
    simp only [WAL.addHeaderPageIfNecessary, WAL.closedWithRoom, hfull, if_true] at hchained hfits ⊢
    simp only [BufferedWAL.addHeaderPageIfNecessary, hfull', if_true, BufferedWAL.addNewPage]
    have hmod : (b.numPages + 1) % 2 ^ 32 = wal.numPages + 1 := by
      rw [h.numPages, Nat.mod_eq_of_lt hfits]
    have hnext : b.numPages < nullPageIdx.toNat := by
      have hnumPages := h.numPages
      have hnull : nullPageIdx.toNat = 2 ^ 32 - 1 := rfl
      omega
    exact {
      chained := hchained
      fits := hfits
      numPages := hmod
      current := h.numPages
      buffer := HeaderBuffer.holds_reset _
      offset := rfl
      commit := h.commit
      headerPages := by
        show b.headerPages ++ [b.numPages] = _
        rw [headerPages_append, h.headerPages, h.numPages]
      dataPages := h.dataPages
      nodup := h.nodup
      diskPages := by
        show max b.disk.numPages (b.currentHeaderPageIdx + 1) = _
        rw [h.diskPages, h.current]
        rfl
      disk := by
        have hbuffer := h.buffer.setNext hnext
        rw [h.numPages] at hbuffer ⊢
        rw [h.current]
        exact disk_writePage h.disk hbuffer }
  · have hfull' : ¬ b.offsetInCurrentHeaderPage + walRecordSize > headerPageSize := by
      rw [hoffset]
      exact hfull
    simp only [WAL.addHeaderPageIfNecessary, WAL.closedWithRoom, hfull, if_false]
    simp only [BufferedWAL.addHeaderPageIfNecessary, hfull', if_false]
    exact h

theorem appendRecord (h : Refines b wal closed) (record : WALRecord) :
    Refines (b.appendRecord record) (wal.appendRecord record) closed where
  chained := h.chained.appendRecord record
  fits := h.fits
  numPages := h.numPages
  current := h.current
  buffer := by
    have hbuffer := h.buffer.append record
    rw [← h.offset] at hbuffer
    exact hbuffer
  offset := by
    show b.offsetInCurrentHeaderPage + walRecordSize =
      recordOffset (wal.currentHeaderPage.records ++ [record]).length
    rw [h.offset, List.length_append, List.length_singleton]
    rfl
  commit := rfl
  headerPages := h.headerPages
  dataPages := h.dataPages
  nodup := h.nodup
  diskPages := h.diskPages
  disk := h.disk

theorem addNewWALRecord (h : Refines b wal closed) (record : WALRecord)
    (hfits : (wal.addNewWALRecord record).numPages < 2 ^ 32) :
    Refines (b.addNewWALRecord record) (wal.addNewWALRecord record) (wal.closedWithRoom closed) :=
  (h.addHeaderPageIfNecessary hfits).appendRecord record

theorem addDataPage (h : Refines b wal closed) (hfits : wal.addDataPage.numPages < 2 ^ 32) :
    Refines b.addDataPage wal.addDataPage closed := by
  have hnew : wal.numPages ∉ wal.dataPages := fun hmem ↦
    absurd (h.chained.data_lt _ hmem) (Nat.lt_irrefl _)
  exact { h with
    chained := h.chained.addDataPage
    fits := hfits
    numPages := by
      show (b.numPages + 1) % 2 ^ 32 = wal.numPages + 1
      rw [h.numPages]
      exact Nat.mod_eq_of_lt hfits
    dataPages := by
      show b.dataPages ++ [b.numPages] = wal.dataPages ++ [wal.numPages]
      rw [h.dataPages, h.numPages]
    nodup := by
      show (wal.dataPages ++ [wal.numPages]).Nodup
      simpa using List.Nodup.concat hnew h.nodup }

theorem flushHeaderPages (h : Refines b wal closed) :
    Refines b.flushHeaderPages wal.flushHeaderPages closed := by
  have hchained := h.chained.flushHeaderPages
  rw [BufferedWAL.flushHeaderPages, h.isEmptyWAL]
  unfold WAL.flushHeaderPages at hchained ⊢
  split_ifs at hchained ⊢ with hempty
  · exact h
  · exact { h with
      chained := hchained
      diskPages := by
        show max b.disk.numPages (b.currentHeaderPageIdx + 1) = _
        rw [h.diskPages, h.current]
        rfl
      disk := by
        rw [h.current]
        exact disk_writePage h.disk h.buffer }

theorem writeDataPage (h : Refines b wal closed) {contents : HeaderBuffer}
    (hp : p ∈ wal.dataPages) :
    Refines (b.writeDataPage p contents) (wal.writeDataPage p {}) closed :=
  { h with
    chained := h.chained.writeDataPage hp
    diskPages := by
      show max b.disk.numPages (p + 1) = _
      rw [h.diskPages]
      rfl
    disk := by
      intro q page hq
      change (Function.update wal.disk.pages p (.data {})) q = .header page at hq
      show ((Function.update b.disk.pages p contents) q).Holds page
      have hqp : q ≠ p := by
        rintro rfl
        rw [Function.update_self] at hq
        cases hq
      rw [Function.update_of_ne hqp] at hq ⊢
      exact h.disk q page hq }

end Refines

end Graphflow.Wal
