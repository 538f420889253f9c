import Graphflow.Storage.PagedFile
import Graphflow.Transaction.Manager

/-!
# Disk arrays

The functions of `BaseDiskArray`, `BaseInMemDiskArray` and `InMemDiskArray` in `disk_array.cpp`.
An array lives in a header page, a chain of pages of page indices (PIPs) and the array pages (APs)
these point to; an `InMemDiskArray` keeps a copy of all of them in memory.  Every instantiation in
the source stores four-byte elements, so a page holds 1024 of them and a PIP 1023 page indices.
-/

namespace Graphflow.Storage

/-- `floor(log2(DEFAULT_PAGE_SIZE / elementSize))`. -/
def numElementsPerPageLog2 : ℕ := 10

def elementPageOffsetMask : ℕ := 2 ^ numElementsPerPageLog2 - 1

/-- `NUM_PAGE_IDXS_PER_PIP`. -/
def numPageIdxsPerPIP : ℕ := 1023

structure PIPWrapper where
  pipPageIdx : ℕ
  pipContents : PIP

/-- The set `updatedPipIdxs` is kept as a list without duplicates. -/
structure InMemDiskArray where
  headerPageIdx : ℕ
  header : DiskArrayHeader
  pips : List PIPWrapper
  inMemArrayPages : List (ℕ → ℕ)
  hasTransactionalUpdates : Bool := false
  updatedPipIdxs : List ℕ := []
  pipPageIdxsOfInsertedPIPs : List ℕ := []

namespace InMemDiskArray

/-- `readUInt64HeaderFieldNoLock`; the field is read by the caller. -/
def readHeader (a : InMemDiskArray) (f : PagedFile) (trxType : TransactionType) :
    Except Fault DiskArrayHeader :=
  if trxType = .readOnly ∨ f.version a.headerPageIdx = none then .ok a.header
  else do
    let page ← f.readWALVersionOfPage a.headerPageIdx
    return page.asHeader

def getNumElements (a : InMemDiskArray) (f : PagedFile) (trxType : TransactionType) :
    Except Fault ℕ := do
  let header ← a.readHeader f trxType
  return header.numElements

def getNumAPs (a : InMemDiskArray) (f : PagedFile) (trxType : TransactionType) :
    Except Fault ℕ := do
  let header ← a.readHeader f trxType
  return header.numAPs

def hasPIPUpdates (a : InMemDiskArray) (pipIdx : ℕ) : Bool :=
  a.pips.length ≤ pipIdx ∨ pipIdx ∈ a.updatedPipIdxs

def getUpdatedPageIdxOfPip (a : InMemDiskArray) (pipIdx : ℕ) : Except Fault ℕ :=
  match a.pips[pipIdx]? with
  | some pip => .ok pip.pipPageIdx
  | none =>
      match a.pipPageIdxsOfInsertedPIPs[pipIdx - a.pips.length]? with
      | some pipPageIdx => .ok pipPageIdx
      | none => .error .invalidAccess

def getAPPageIdx (a : InMemDiskArray) (f : PagedFile) (apIdx : ℕ) (trxType : TransactionType) :
    Except Fault ℕ :=
  let pipIdx := apIdx / numPageIdxsPerPIP
  let offsetInPIP := apIdx % numPageIdxsPerPIP
  if trxType = .readOnly ∨ a.hasPIPUpdates pipIdx = false then
    match a.pips[pipIdx]? with
    | some pip => .ok (pip.pipContents.pageIdxs offsetInPIP)
    | none => .error .invalidAccess
  else do
    let pageIdxOfUpdatedPip ← a.getUpdatedPageIdxOfPip pipIdx
    let page ← f.readWALVersionOfPage pageIdxOfUpdatedPip
    return page.asPIP.pageIdxs offsetInPIP

def updateOutOfRangeMessage (idx numElements : ℕ) : String :=
  "idx: " ++ formatD idx ++ " of the DiskArray to be updated is >= numElements in DiskArray" ++
    formatD numElements ++ "."

def getOutOfRangeMessage (idx numElements : ℕ) (trxType : TransactionType) : String :=
  "idx: " ++ toString idx ++ " of the element in DiskArray is >= this->header.numElements: " ++
    toString numElements ++
    match trxType with
    | .readOnly => " for read trx."
    | .write => " for write trx."

/-- The part of `update` behind the assignment to `hasTransactionalUpdates`. -/
def updateElement (a : InMemDiskArray) (f : PagedFile) (idx val : ℕ) :
    Except Fault PagedFile := do
  let numElements ← a.getNumElements f .write
  if idx ≥ numElements then
    throw (.exception (updateOutOfRangeMessage idx numElements))
  let apIdx := idx >>> numElementsPerPageLog2
  let offsetInAP := idx &&& elementPageOffsetMask
  let apPageIdx ← a.getAPPageIdx f apIdx .write
  f.updatePage apPageIdx false (.array fun _ ↦ 0) (·.writeElement offsetInAP val)

/-- The flag is set before the index is checked, so it stays set when `update` throws. -/
def update (a : InMemDiskArray) (f : PagedFile) (idx val : ℕ) :
    Except Fault Unit × InMemDiskArray × PagedFile :=
  let a := { a with hasTransactionalUpdates := true }
  match a.updateElement f idx val with
  | .ok f => (.ok (), a, f)
  | .error fault => (.error fault, a, f)

/-- The previous PIP is `none` for the index `UINT64_MAX` that the caller computes as
`pipIdx - 1` when the first PIP is inserted. -/
def setNextPIPPageIDxOfPIP (a : InMemDiskArray) (f : PagedFile) (header : DiskArrayHeader)
    (pipIdxOfPreviousPIP : Option ℕ) (nextPIPPageIdx : ℕ) :
    Except Fault (InMemDiskArray × PagedFile × DiskArrayHeader) :=
  match pipIdxOfPreviousPIP with
  | none => .ok (a, f, { header with firstPIPPageIdx := some nextPIPPageIdx })
  | some pipIdx => do
      let pipPageIdxOfPreviousPIP ← a.getUpdatedPageIdxOfPip pipIdx
      let f ← f.updatePage pipPageIdxOfPreviousPIP false (.array fun _ ↦ 0)
        (·.setNextPipPageIdx (some nextPIPPageIdx))
      let a := if pipIdx < a.pips.length then
        { a with updatedPipIdxs := a.updatedPipIdxs.insert pipIdx } else a
      return (a, f, header)

/-- The PIP in which a new array page is entered: an old PIP, one inserted by this transaction, or
a page that is added now.  The last component tells whether the PIP is new. -/
def getPIPForNewAP (a : InMemDiskArray) (f : PagedFile) (header : DiskArrayHeader) (pipIdx : ℕ) :
    Except Fault (InMemDiskArray × PagedFile × DiskArrayHeader × ℕ × Bool) :=
  match a.pips[pipIdx]? with
  | some pip =>
      .ok ({ a with updatedPipIdxs := a.updatedPipIdxs.insert pipIdx }, f, header,
        pip.pipPageIdx, false)
  | none =>
      match a.pipPageIdxsOfInsertedPIPs[pipIdx - a.pips.length]? with
      | some pipPageIdx => .ok (a, f, header, pipPageIdx, false)
      | none => do
          let pipPageIdx := f.numPages
          let a := { a with
            pipPageIdxsOfInsertedPIPs := a.pipPageIdxsOfInsertedPIPs ++ [pipPageIdx] }
          let (a, f, header) ← a.setNextPIPPageIDxOfPIP f.addNewPage header
            (if pipIdx = 0 then none else some (pipIdx - 1)) pipPageIdx
          return (a, f, header, pipPageIdx, true)

/-- `getAPPageIdxAndAddAPToPIPIfNecessaryForWriteTrxNoLock`.  The header is the updated one in the
pinned frame; the last components are the page of the array page and whether it is new. -/
def getAPPageIdxAndAddAPToPIPIfNecessary (a : InMemDiskArray) (f : PagedFile)
    (header : DiskArrayHeader) (apIdx : ℕ) (junk : ℕ → Page) :
    Except Fault (InMemDiskArray × PagedFile × DiskArrayHeader × ℕ × Bool) :=
  if apIdx < header.numAPs then do
    let apPageIdx ← a.getAPPageIdx f apIdx .write
    return (a, f, header, apPageIdx, false)
  else do
    let newAPPageIdx := f.numPages
    let pipIdx := apIdx / numPageIdxsPerPIP
    let offsetOfNewAPInPIP := apIdx % numPageIdxsPerPIP
    let (a, f, header, pipPageIdx, isInsertingANewPIPPage) ←
      a.getPIPForNewAP f.addNewPage { header with numAPs := header.numAPs + 1 } pipIdx
    let f ← f.updatePage pipPageIdx isInsertingANewPIPPage (junk pipPageIdx) fun page ↦
      (if isInsertingANewPIPPage then page.setNextPipPageIdx none else page).setPageIdx
        offsetOfNewAPInPIP newAPPageIdx
    return (a, f, header, newAPPageIdx, true)

/-- The frame of the header page stays pinned while the other pages are updated and is written
last. -/
def pushBack (a : InMemDiskArray) (f : PagedFile) (val : ℕ) (junk : ℕ → Page) :
    Except Fault (InMemDiskArray × PagedFile) := do
  let a := { a with hasTransactionalUpdates := true }
  let (f, pageIdxInWAL) ←
    f.createWALVersionIfNecessaryAndPinPage a.headerPageIdx false (junk a.headerPageIdx)
  let header := (f.walPages pageIdxInWAL).asHeader
  let elementIdx := header.numElements
  let apIdx := elementIdx >>> numElementsPerPageLog2
  let offsetInAP := elementIdx &&& elementPageOffsetMask
  let (a, f, header, apPageIdx, isNewlyAdded) ←
    a.getAPPageIdxAndAddAPToPIPIfNecessary f header apIdx junk
  let f ← f.updatePage apPageIdx isNewlyAdded (junk apPageIdx) (·.writeElement offsetInAP val)
  return (a, f.writeWALPage pageIdxInWAL
    (.header { header with numElements := header.numElements + 1 }))

def get (a : InMemDiskArray) (f : PagedFile) (idx : ℕ) (trxType : TransactionType) :
    Except Fault ℕ :=
  let apIdx := idx >>> numElementsPerPageLog2
  let offsetInAP := idx &&& elementPageOffsetMask
  let readFromMemory : Except Fault ℕ :=
    match a.inMemArrayPages[apIdx]? with
    | some elements => .ok (elements offsetInAP)
    | none => .error .invalidAccess
  match trxType with
  | .readOnly =>
      if idx ≥ a.header.numElements then
        .error (.exception (getOutOfRangeMessage idx a.header.numElements .readOnly))
      else readFromMemory
  | .write => do
      let numElements ← a.getNumElements f .write
      if idx ≥ numElements then
        throw (.exception (getOutOfRangeMessage idx a.header.numElements .write))
      let apPageIdx ← a.getAPPageIdx f apIdx .write
      if f.version apPageIdx = none then readFromMemory
      else do
        let page ← f.readWALVersionOfPage apPageIdx
        return page.asArray offsetInAP

/-! ## Checkpointing and rolling back -/

/-- One turn of the loop over the array pages that existed before the transaction. -/
def checkpointOrRollbackOldAP (isCheckpoint : Bool) (s : InMemDiskArray × PagedFile) (apIdx : ℕ) :
    Except Fault (InMemDiskArray × PagedFile) := do
  let (a, f) := s
  let apPageIdx ← a.getAPPageIdx f apIdx .readOnly
  if f.version apPageIdx = none then return (a, f)
  else
    let a := if isCheckpoint then
      { a with inMemArrayPages := a.inMemArrayPages.set apIdx (f.pages apPageIdx).asArray } else a
    return (a, f.clearWALPageVersion apPageIdx)

/-- One turn of the loop over the array pages added by the transaction.  The last component is the
smallest page seen so far, with `PAGE_IDX_MAX` as `none`. -/
def checkpointOrRollbackNewAP (isCheckpoint : Bool)
    (s : InMemDiskArray × PagedFile × Option ℕ) (apIdx : ℕ) :
    Except Fault (InMemDiskArray × PagedFile × Option ℕ) := do
  let (a, f, minNewAPPageIdx) := s
  let apPageIdx ← a.getAPPageIdx f apIdx .write
  let a := if isCheckpoint then
    { a with inMemArrayPages := a.inMemArrayPages ++ [(f.pages apPageIdx).asArray] } else a
  let f := f.clearWALPageVersion apPageIdx
  if isCheckpoint then return (a, f, minNewAPPageIdx)
  else return (a, f, some (minNewAPPageIdx.elim apPageIdx (min · apPageIdx)))

/-- One turn of the loop over `updatedPipIdxs`. -/
def checkpointOrRollbackUpdatedPIP (isCheckpoint : Bool) (s : InMemDiskArray × PagedFile)
    (pipIdx : ℕ) : Except Fault (InMemDiskArray × PagedFile) := do
  let (a, f) := s
  match a.pips[pipIdx]? with
  | some pip =>
      let a := if isCheckpoint then
        { a with pips := a.pips.set pipIdx ⟨pip.pipPageIdx, (f.pages pip.pipPageIdx).asPIP⟩ } else a
      return (a, f.clearWALPageVersion pip.pipPageIdx)
  | none => throw .invalidAccess

/-- One turn of the loop over `pipPageIdxsOfInsertedPIPs`. -/
def checkpointOrRollbackInsertedPIP (isCheckpoint : Bool) (s : InMemDiskArray × PagedFile)
    (pipPageIdx : ℕ) : InMemDiskArray × PagedFile :=
  let (a, f) := s
  let a := if isCheckpoint then
    { a with pips := a.pips ++ [⟨pipPageIdx, (f.pages pipPageIdx).asPIP⟩] } else a
  let f := f.clearWALPageVersion pipPageIdx
  (a, if isCheckpoint then f else f.removePageIdxAndTruncateIfNecessary pipPageIdx)

/-- `checkpointOrRollbackInMemoryIfNecessaryNoLock` of `BaseDiskArray`. -/
def checkpointOrRollbackBase (isCheckpoint : Bool) (a : InMemDiskArray) (f : PagedFile) :
    Except Fault (InMemDiskArray × PagedFile) := do
  let a := if isCheckpoint then { a with header := (f.pages a.headerPageIdx).asHeader } else a
  let f := f.clearWALPageVersion a.headerPageIdx
  let (a, f) ← a.updatedPipIdxs.foldlM (checkpointOrRollbackUpdatedPIP isCheckpoint) (a, f)
  let (a, f) :=
    a.pipPageIdxsOfInsertedPIPs.foldl (checkpointOrRollbackInsertedPIP isCheckpoint) (a, f)
  return ({ a with
    updatedPipIdxs := []
    pipPageIdxsOfInsertedPIPs := []
    hasTransactionalUpdates := false }, f)

/-- `checkpointOrRollbackInMemoryIfNecessaryNoLock` of `InMemDiskArray`. -/
def checkpointOrRollbackInMemoryIfNecessary (isCheckpoint : Bool) (a : InMemDiskArray)
    (f : PagedFile) : Except Fault (InMemDiskArray × PagedFile) :=
  if a.hasTransactionalUpdates = false then .ok (a, f)
  else do
    let numOldAPs := a.header.numAPs
    let (a, f) ← (List.range numOldAPs).foldlM (checkpointOrRollbackOldAP isCheckpoint) (a, f)
    let newNumAPs ← a.getNumAPs f .write
    let (a, f, minNewAPPageIdxToTruncateTo) ← (List.range' a.header.numAPs
      (newNumAPs - a.header.numAPs)).foldlM (checkpointOrRollbackNewAP isCheckpoint) (a, f, none)
    let (a, f) ← checkpointOrRollbackBase isCheckpoint a f
    match isCheckpoint, minNewAPPageIdxToTruncateTo with
    | false, some pageIdx => return (a, f.removePageIdxAndTruncateIfNecessary pageIdx)
    | _, _ => return (a, f)

def checkpointInMemoryIfNecessary (a : InMemDiskArray) (f : PagedFile) :
    Except Fault (InMemDiskArray × PagedFile) :=
  checkpointOrRollbackInMemoryIfNecessary true a f

def rollbackInMemoryIfNecessary (a : InMemDiskArray) (f : PagedFile) :
    Except Fault (InMemDiskArray × PagedFile) :=
  checkpointOrRollbackInMemoryIfNecessary false a f

/-! ## Loading -/

/-- The chain of PIPs, read until a `NULL_PAGE_IDX`.  The fuel bounds the length of the chain; the
source would not return on a longer one. -/
def readPIPs (pages : ℕ → Page) : ℕ → Option ℕ → Except Fault (List PIPWrapper)
  | _, none => .ok []
  | 0, some _ => .error .invalidAccess
  | fuel + 1, some pipPageIdx => do
      let pip := (pages pipPageIdx).asPIP
      let pips ← readPIPs pages fuel pip.nextPipPageIdx
      return ⟨pipPageIdx, pip⟩ :: pips

/-- The constructor of `InMemDiskArray`, which reads an array from its file. -/
def load (f : PagedFile) (headerPageIdx : ℕ) : Except Fault InMemDiskArray := do
  let header := (f.pages headerPageIdx).asHeader
  let pips ← readPIPs f.pages f.numPages header.firstPIPPageIdx
  let a : InMemDiskArray := ⟨headerPageIdx, header, pips, [], false, [], []⟩
  let apPageIdxs ← (List.range header.numAPs).mapM fun apIdx ↦ a.getAPPageIdx f apIdx .readOnly
  return { a with inMemArrayPages := apPageIdxs.map fun apPageIdx ↦ (f.pages apPageIdx).asArray }

end InMemDiskArray

end Graphflow.Storage
