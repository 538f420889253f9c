import Graphflow.Index.Key

/-!
# Hash indexes

`in_mem_hash_index.cpp` and `hash_index.cpp`.  A page of an index file is an array of slots, the
header of the index, or a page of the mapper from the pages of an array of slots to the pages of the
file.  The slots of a key are chained through `nextOvfSlotId`.  The loops over a chain have as many
turns as there are overflow slots and one more; a chain that is longer goes around in a circle.
-/

namespace Graphflow

open Storage Lib

/-! ## Slots and pages -/

/-- `SLOT_CAPACITY`. -/
abbrev slotCapacity : ℕ := 4

structure Entry where
  /-- As many bytes as a key has in an entry. -/
  key : List UInt8 := []
  nodeOffset : ℕ := 0
  deriving DecidableEq

structure SlotHeader where
  numEntries : ℕ := 0
  /-- Bit by bit. -/
  validityMask : Fin slotCapacity → Bool := fun _ ↦ false
  nextOvfSlotId : ℕ := 0

/-- The bytes of a slot. -/
structure SlotData where
  header : SlotHeader := {}
  entries : Fin slotCapacity → Entry := fun _ ↦ {}

structure SlotInfo where
  slotId : ℕ
  isPSlot : Bool
  deriving DecidableEq, Repr

structure HashIndexHeader where
  numBytesPerEntry : ℕ
  numBytesPerSlot : ℕ
  numSlotsPerPage : ℕ
  currentLevel : ℕ := 1
  levelHashMask : ℕ := 1
  higherLevelHashMask : ℕ := 3
  nextSplitSlotId : ℕ := 0
  /-- `UINT32_MAX` is `none`. -/
  pPagesMapperFirstPageIdx : Option ℕ := some 0
  oPagesMapperFirstPageIdx : Option ℕ := some 0
  keyDataTypeID : KeyType
  deriving DecidableEq

/-- A page that has been set to zero is an array of slots without entries. -/
inductive IndexPage
  | slots (slots : ℕ → SlotData)
  | header (indexHeader : HashIndexHeader)
  | mapper (elements : List ℕ) (nextPageIdx : Option ℕ)

namespace HashIndexHeader

def make (keyDataTypeID : KeyType) : HashIndexHeader :=
  let numBytesPerEntry := keyDataTypeID.getDataTypeSize + 8
  let numBytesPerSlot := numBytesPerEntry * slotCapacity + 16
  { numBytesPerEntry := numBytesPerEntry
    numBytesPerSlot := numBytesPerSlot
    numSlotsPerPage := defaultPageSize / numBytesPerSlot
    keyDataTypeID := keyDataTypeID }

/-- `(1 << level) - 1`, where the one is an `int`. -/
def hashMask (level : ℕ) : ℕ := 2 ^ (level % 32) - 1

def incrementLevel (h : HashIndexHeader) : HashIndexHeader :=
  { h with
    currentLevel := h.currentLevel + 1
    nextSplitSlotId := 0
    levelHashMask := hashMask (h.currentLevel + 1)
    higherLevelHashMask := hashMask (h.currentLevel + 2) }

def incrementNextSplitSlotId (h : HashIndexHeader) : HashIndexHeader :=
  if h.nextSplitSlotId < 2 ^ h.currentLevel - 1 then
    { h with nextSplitSlotId := h.nextSplitSlotId + 1 }
  else h.incrementLevel

/-- The difference that `bulkReserve` assigns to `nextSplitSlotId`, which has no sign. -/
def setNextSplitSlotId (h : HashIndexHeader) (numRequiredSlots numSlotsOfCurrentLevel : ℕ) :
    HashIndexHeader :=
  { h with
    nextSplitSlotId :=
      if numSlotsOfCurrentLevel ≤ numRequiredSlots then numRequiredSlots - numSlotsOfCurrentLevel
      else 2 ^ 64 - (numSlotsOfCurrentLevel - numRequiredSlots) }

/-- `getPrimarySlotIdForKey`. -/
def primarySlotId (h : HashIndexHeader) (hash : UInt64) : ℕ :=
  let slotId := hash.toNat &&& h.levelHashMask
  if slotId < h.nextSplitSlotId then hash.toNat &&& h.higherLevelHashMask else slotId

end HashIndexHeader

structure SlotArray where
  pagesLogicalToPhysicalMapper : List ℕ := []
  nextSlotIdToAllocate : ℕ := 0

/-- What indexes in memory and in files have in common, with the pages of the file. -/
structure BaseHashIndex where
  indexHeader : HashIndexHeader
  pSlots : SlotArray := {}
  oSlots : SlotArray := {}
  pages : List IndexPage := []

namespace BaseHashIndex

def slotArray (index : BaseHashIndex) (isPSlot : Bool) : SlotArray :=
  if isPSlot then index.pSlots else index.oSlots

def setSlotArray (index : BaseHashIndex) (isPSlot : Bool) (slotArray : SlotArray) : BaseHashIndex :=
  if isPSlot then { index with pSlots := slotArray } else { index with oSlots := slotArray }

/-- `getPageCursorForSlotWithoutLock`: the page and the position on the page. -/
def getPageCursorForSlot (index : BaseHashIndex) (info : SlotInfo) : Except Fault (ℕ × ℕ) :=
  let logicalPageIdx := info.slotId / index.indexHeader.numSlotsPerPage
  match (index.slotArray info.isPSlot).pagesLogicalToPhysicalMapper[logicalPageIdx]? with
  | some physicalPageIdx =>
      .ok (physicalPageIdx, info.slotId % index.indexHeader.numSlotsPerPage)
  | none => .error .invalidAccess

/-- The bytes that `getSlot` and `pinSlot` point to. -/
def getSlot (index : BaseHashIndex) (info : SlotInfo) : Except Fault SlotData := do
  let (pageIdx, posInPage) ← index.getPageCursorForSlot info
  match index.pages[pageIdx]? with
  | some (.slots slots) => return slots posInPage
  | _ => throw .invalidAccess

def setSlot (index : BaseHashIndex) (info : SlotInfo) (slot : SlotData) :
    Except Fault BaseHashIndex := do
  let (pageIdx, posInPage) ← index.getPageCursorForSlot info
  match index.pages[pageIdx]? with
  | some (.slots slots) =>
      return { index with
        pages := index.pages.set pageIdx (.slots (Function.update slots posInPage slot)) }
  | _ => throw .invalidAccess

/-- `addNewPagesWithoutLock`. -/
def addNewPages (index : BaseHashIndex) (isPSlot : Bool) (numPages : ℕ) : BaseHashIndex :=
  let array := index.slotArray isPSlot
  { index.setSlotArray isPSlot { array with
      pagesLogicalToPhysicalMapper := array.pagesLogicalToPhysicalMapper ++
        List.range' index.pages.length numPages } with
    pages := index.pages ++ List.replicate numPages (.slots fun _ ↦ {}) }

/-- `allocateSlotWithoutLock`. -/
def allocateSlot (index : BaseHashIndex) (isPSlot : Bool) : BaseHashIndex × ℕ :=
  let slotId := (index.slotArray isPSlot).nextSlotIdToAllocate
  let index :=
    if slotId % index.indexHeader.numSlotsPerPage = 0 then index.addNewPages isPSlot 1 else index
  (index.setSlotArray isPSlot
    { index.slotArray isPSlot with nextSlotIdToAllocate := slotId + 1 }, slotId)

/-! ## Loops over a chain -/

/-- The turns that a loop over a chain can have. -/
def maxChainLength (index : BaseHashIndex) : ℕ :=
  index.oSlots.pagesLogicalToPhysicalMapper.length * index.indexHeader.numSlotsPerPage + 1

/-- The loop over the entries of a slot in `findMatchedEntryInSlotWithoutLock`,
`lookupOrExistsInSlotWithoutLock` and `lookupInSlot`. -/
def findMatchedEntryInSlot (keyEquals : List UInt8 → Except Fault Bool) (slot : SlotData) :
    List (Fin slotCapacity) → Except Fault (Option (Fin slotCapacity))
  | [] => .ok none
  | entryPos :: rest =>
      if slot.header.validityMask entryPos then do
        if ← keyEquals (slot.entries entryPos).key then return some entryPos
        else findMatchedEntryInSlot keyEquals slot rest
      else findMatchedEntryInSlot keyEquals slot rest

/-- The loop of `deleteInternal`, `lookupInternalWithoutLock` and `lookupInPersistentIndex`. -/
def findMatchedEntry (keyEquals : List UInt8 → Except Fault Bool) (index : BaseHashIndex) :
    ℕ → SlotInfo → Except Fault (Option (SlotInfo × Fin slotCapacity))
  | 0, _ => .error .invalidAccess
  | turns + 1, slotInfo => do
      let slot ← index.getSlot slotInfo
      match ← findMatchedEntryInSlot keyEquals slot (List.finRange slotCapacity) with
      | some entryPos => return some (slotInfo, entryPos)
      | none =>
          if slot.header.nextOvfSlotId > 0 then
            findMatchedEntry keyEquals index turns ⟨slot.header.nextOvfSlotId, false⟩
          else return none

/-- The loop of `appendInternal`, and without a key to compare with that of
`copyEntryToSlotWithoutLock`: the first slot with room, or the last one of the chain, unless the key
is found before. -/
def findSlotToInsert (keyEquals : List UInt8 → Except Fault Bool) (index : BaseHashIndex) :
    ℕ → SlotInfo → Except Fault (Option SlotInfo)
  | 0, _ => .error .invalidAccess
  | turns + 1, slotInfo => do
      let slot ← index.getSlot slotInfo
      match ← findMatchedEntryInSlot keyEquals slot (List.finRange slotCapacity) with
      | some _ => return none
      | none =>
          if slot.header.numEntries < slotCapacity then return some slotInfo
          else if slot.header.nextOvfSlotId > 0 then
            findSlotToInsert keyEquals index turns ⟨slot.header.nextOvfSlotId, false⟩
          else return some slotInfo

/-- `getPAndOSlotsWithoutLock`. -/
def getPAndOSlots (index : BaseHashIndex) : ℕ → SlotInfo → Except Fault (List SlotInfo)
  | 0, _ => .error .invalidAccess
  | turns + 1, slotInfo => do
      let slot ← index.getSlot slotInfo
      if slot.header.nextOvfSlotId > 0 then
        let slots ← index.getPAndOSlots turns ⟨slot.header.nextOvfSlotId, false⟩
        return slotInfo :: slots
      else return [slotInfo]

/-- The loop over the entries of a slot in `insertToSlotWithoutLock` and
`copyEntryToSlotWithoutLock`, which fills the first free position. -/
def insertEntry (slot : SlotData) (entry : Entry) : SlotData :=
  match (List.finRange slotCapacity).find? fun entryPos ↦ !slot.header.validityMask entryPos with
  | some entryPos =>
      { header := { slot.header with
          numEntries := slot.header.numEntries + 1
          validityMask := Function.update slot.header.validityMask entryPos true }
        entries := Function.update slot.entries entryPos entry }
  | none => slot

/-- `setEntryInvalid`, with one entry less. -/
def invalidateEntry (slot : SlotData) (entryPos : Fin slotCapacity) : SlotData :=
  { slot with header := { slot.header with
      validityMask := Function.update slot.header.validityMask entryPos false
      numEntries := slot.header.numEntries - 1 } }

/-- `insertToSlotWithoutLock`, and the second half of `copyEntryToSlotWithoutLock`. -/
def insertToSlot (index : BaseHashIndex) (slotInfo : SlotInfo) (entry : Entry) :
    Except Fault BaseHashIndex := do
  let slot ← index.getSlot slotInfo
  if slot.header.numEntries = slotCapacity then
    let (index, ovfSlotId) := index.allocateSlot false
    let slot ← index.getSlot slotInfo
    let index ← index.setSlot slotInfo
      { slot with header := { slot.header with nextOvfSlotId := ovfSlotId } }
    let slot ← index.getSlot ⟨ovfSlotId, false⟩
    index.setSlot ⟨ovfSlotId, false⟩ (insertEntry slot entry)
  else
    index.setSlot slotInfo (insertEntry slot entry)

def copyEntryToSlot (index : BaseHashIndex) (slotId : ℕ) (entry : Entry) :
    Except Fault BaseHashIndex := do
  match ← findSlotToInsert (fun _ ↦ .ok false) index index.maxChainLength ⟨slotId, true⟩ with
  | some slotInfo => index.insertToSlot slotInfo entry
  | none => throw .invalidAccess

/-! ## Splitting -/

variable (stdHash : List UInt8 → UInt64)

/-- One turn of the loop over the entries of a slot that has been reset; the bytes are still there,
and are hashed as if they were those of a key. -/
def rehashEntry (slotInfo : SlotInfo) (slotHeader : SlotHeader) (index : BaseHashIndex)
    (entryPos : Fin slotCapacity) : Except Fault BaseHashIndex := do
  if slotHeader.validityMask entryPos then
    let slot ← index.getSlot slotInfo
    let entry := slot.entries entryPos
    let hash := keyHashFunc stdHash index.indexHeader.keyDataTypeID entry.key
    index.copyEntryToSlot (hash.toNat &&& index.indexHeader.higherLevelHashMask) entry
  else return index

def rehashSlot (index : BaseHashIndex) (slotInfo : SlotInfo) : Except Fault BaseHashIndex := do
  let slot ← index.getSlot slotInfo
  let index ← index.setSlot slotInfo { slot with header := {} }
  (List.finRange slotCapacity).foldlM (rehashEntry stdHash slotInfo slot.header) index

def rehashSlots (index : BaseHashIndex) : Except Fault BaseHashIndex := do
  let slotsToSplit ←
    index.getPAndOSlots index.maxChainLength ⟨index.indexHeader.nextSplitSlotId, true⟩
  slotsToSplit.foldlM (rehashSlot stdHash) index

def splitSlot (index : BaseHashIndex) : Except Fault BaseHashIndex := do
  let (index, _) := index.allocateSlot true
  let index ← index.rehashSlots stdHash
  return { index with indexHeader := index.indexHeader.incrementNextSplitSlotId }

/-- The loop of `appendInternal`; a turn allocates a primary slot. -/
def splitSlots (numRequiredEntries : ℕ) : ℕ → BaseHashIndex → Except Fault BaseHashIndex
  | 0, index => .ok index
  | turns + 1, index =>
      if numRequiredEntries > index.pSlots.nextSlotIdToAllocate * slotCapacity then do
        let index ← index.splitSlot stdHash
        splitSlots numRequiredEntries turns index
      else .ok index

end BaseHashIndex

/-! ## Indexes in memory -/

structure InMemHashIndex extends BaseHashIndex where
  inMemOverflowFile : InMemOverflowFile := {}
  numEntries : ℕ := 0

/-- `ceil(numEntries * DEFAULT_HT_LOAD_FACTOR)`. -/
def numRequiredEntries (numEntries : ℕ) : ℕ := (numEntries * 3 + 1) / 2

def numRequiredSlots (numEntries : ℕ) : ℕ :=
  (numRequiredEntries numEntries + slotCapacity - 1) / slotCapacity

namespace InMemHashIndex

def make (keyDataTypeID : KeyType) : InMemHashIndex :=
  let base : BaseHashIndex :=
    { indexHeader := HashIndexHeader.make keyDataTypeID, pages := [.slots fun _ ↦ {}] }
  let base := base.addNewPages true 1
  let base := base.setSlotArray true { base.pSlots with nextSlotIdToAllocate := 2 }
  { toBaseHashIndex := (base.allocateSlot false).1 }

/-- The loop of `bulkReserve`, which doubles the number of slots of the level. -/
def reserveLevels (numRequiredSlots : ℕ) : ℕ → HashIndexHeader × ℕ → HashIndexHeader × ℕ
  | 0, state => state
  | turns + 1, (indexHeader, numSlotsOfCurrentLevel) =>
      if numSlotsOfCurrentLevel * 2 < numRequiredSlots then
        reserveLevels numRequiredSlots turns
          (indexHeader.incrementLevel, numSlotsOfCurrentLevel * 2)
      else (indexHeader, numSlotsOfCurrentLevel)

def bulkReserve (index : InMemHashIndex) (numEntries : UInt32) : InMemHashIndex :=
  let numRequiredSlots := numRequiredSlots (index.numEntries + numEntries.toNat)
  let (indexHeader, numSlotsOfCurrentLevel) := reserveLevels numRequiredSlots numRequiredSlots
    (index.indexHeader, 2 ^ index.indexHeader.currentLevel)
  let base : BaseHashIndex :=
    { index.toBaseHashIndex with
      indexHeader := indexHeader.setNextSplitSlotId numRequiredSlots numSlotsOfCurrentLevel }
  let numRequiredPages :=
    (numRequiredSlots + indexHeader.numSlotsPerPage - 1) / indexHeader.numSlotsPerPage
  let base := base.addNewPages true numRequiredPages
  { index with
    toBaseHashIndex :=
      base.setSlotArray true { base.pSlots with nextSlotIdToAllocate := numRequiredSlots } }

variable (stdHash : List UInt8 → UInt64)

def getPrimarySlotIdForKey (index : InMemHashIndex) (key : Key) : ℕ :=
  index.indexHeader.primarySlotId (keyHashFunc stdHash index.indexHeader.keyDataTypeID key)

def keyEquals (index : InMemHashIndex) (key : Key) : List UInt8 → Except Fault Bool :=
  keyEqualsFuncInMem index.inMemOverflowFile index.indexHeader.keyDataTypeID key

/-- Whether the key was not there. -/
def appendInternal (index : InMemHashIndex) (key : Key) (value : ℕ) :
    Except Fault (InMemHashIndex × Bool) := do
  let required := numRequiredEntries (index.numEntries + 1)
  let base ← index.toBaseHashIndex.splitSlots stdHash required required
  let index : InMemHashIndex := { index with toBaseHashIndex := base }
  let pSlotInfo : SlotInfo := ⟨index.getPrimarySlotIdForKey stdHash key, true⟩
  match ← BaseHashIndex.findSlotToInsert (index.keyEquals key) index.toBaseHashIndex
      index.maxChainLength pSlotInfo with
  | none => return (index, false)
  | some slotInfo =>
      let (inMemOverflowFile, bytes) ←
        keyInsertFunc index.inMemOverflowFile index.indexHeader.keyDataTypeID key
      let base ← index.toBaseHashIndex.insertToSlot slotInfo ⟨bytes, value⟩
      return (⟨base, inMemOverflowFile, index.numEntries + 1⟩, true)

/-- Whether the key was there. -/
def deleteInternal (index : InMemHashIndex) (key : Key) :
    Except Fault (InMemHashIndex × Bool) := do
  let pSlotInfo : SlotInfo := ⟨index.getPrimarySlotIdForKey stdHash key, true⟩
  match ← BaseHashIndex.findMatchedEntry (index.keyEquals key) index.toBaseHashIndex
      index.maxChainLength pSlotInfo with
  | none => return (index, false)
  | some (slotInfo, entryPos) =>
      let slot ← index.getSlot slotInfo
      let base ← index.setSlot slotInfo (BaseHashIndex.invalidateEntry slot entryPos)
      return ({ index with toBaseHashIndex := base, numEntries := index.numEntries - 1 }, true)

/-- `lookupInternalWithoutLock`. -/
def lookupInternal (index : InMemHashIndex) (key : Key) : Except Fault (Option ℕ) := do
  let pSlotInfo : SlotInfo := ⟨index.getPrimarySlotIdForKey stdHash key, true⟩
  match ← BaseHashIndex.findMatchedEntry (index.keyEquals key) index.toBaseHashIndex
      index.maxChainLength pSlotInfo with
  | none => return none
  | some (slotInfo, entryPos) =>
      let slot ← index.getSlot slotInfo
      return some (slot.entries entryPos).nodeOffset

/-! ## Flushing -/

/-- The pages of a mapper hold the number of elements and the next page beside the elements. -/
def maxNumElementsInAPage : ℕ := defaultPageSize / 4 - 2

/-- The loop of `writeLogicalToPhysicalMapper`; a turn writes at least one element. -/
def writeMapperPages : ℕ → List IndexPage → List ℕ → List IndexPage
  | 0, pages, _ => pages
  | turns + 1, pages, elements =>
      if elements.isEmpty then pages
      else
        let nextPageIdx :=
          if maxNumElementsInAPage < elements.length then some (pages.length + 1) else none
        writeMapperPages turns
          (pages ++ [.mapper (elements.take maxNumElementsInAPage) nextPageIdx])
          (elements.drop maxNumElementsInAPage)

def writeLogicalToPhysicalMapper (pages : List IndexPage) (slotsArray : SlotArray) :
    List IndexPage × Option ℕ :=
  let elements := slotsArray.pagesLogicalToPhysicalMapper
  if elements.isEmpty then (pages, none)
  else (writeMapperPages elements.length pages elements, some pages.length)

/-- The pages of the index file and the overflow file. -/
def flush (index : InMemHashIndex) : List IndexPage × InMemOverflowFile :=
  let (pages, pPagesMapperFirstPageIdx) := writeLogicalToPhysicalMapper index.pages index.pSlots
  let (pages, oPagesMapperFirstPageIdx) := writeLogicalToPhysicalMapper pages index.oSlots
  (pages.set 0 (.header { index.indexHeader with
    pPagesMapperFirstPageIdx := pPagesMapperFirstPageIdx
    oPagesMapperFirstPageIdx := oPagesMapperFirstPageIdx }), index.inMemOverflowFile)

end InMemHashIndex

/-! ## Indexes in files -/

/-- Two indexes in memory: newly inserted keys, and keys that are marked as deleted. -/
structure HashIndexLocalStorage where
  localInsertionIndex : InMemHashIndex
  localDeletionIndex : InMemHashIndex

inductive HashIndexLocalLookupState
  | keyFound (result : ℕ)
  | keyDeleted
  | keyNotExist
  deriving DecidableEq

namespace HashIndexLocalStorage

variable (stdHash : List UInt8 → UInt64)

def make (keyDataTypeID : KeyType) : HashIndexLocalStorage where
  localInsertionIndex := InMemHashIndex.make keyDataTypeID
  localDeletionIndex := InMemHashIndex.make keyDataTypeID

def nodeOffsetPlaceHolder : ℕ := 2 ^ 64 - 1

def lookup (s : HashIndexLocalStorage) (key : Key) : Except Fault HashIndexLocalLookupState := do
  match ← s.localDeletionIndex.lookupInternal stdHash key with
  | some _ => return .keyDeleted
  | none =>
      match ← s.localInsertionIndex.lookupInternal stdHash key with
      | some result => return .keyFound result
      | none => return .keyNotExist

def deleteKey (s : HashIndexLocalStorage) (key : Key) : Except Fault HashIndexLocalStorage := do
  let (localInsertionIndex, deleted) ← s.localInsertionIndex.deleteInternal stdHash key
  if deleted then
    return { s with localInsertionIndex := localInsertionIndex }
  else
    let (localDeletionIndex, _) ←
      s.localDeletionIndex.appendInternal stdHash key nodeOffsetPlaceHolder
    return ⟨localInsertionIndex, localDeletionIndex⟩

def insert (s : HashIndexLocalStorage) (key : Key) (value : ℕ) :
    Except Fault (HashIndexLocalStorage × Bool) := do
  let (localDeletionIndex, _) ← s.localDeletionIndex.deleteInternal stdHash key
  let (localInsertionIndex, inserted) ←
    s.localInsertionIndex.appendInternal stdHash key value
  return (⟨localInsertionIndex, localDeletionIndex⟩, inserted)

end HashIndexLocalStorage

structure HashIndex extends BaseHashIndex where
  /-- The pages that are pinned for `overflowFile`. -/
  overflowPages : ℕ → Option BytePage
  localStorage : HashIndexLocalStorage

namespace HashIndex

/-- The loop of `readPageMapper`; a chain of mapper pages has at most as many as the file has. -/
def readPageMapper (pages : List IndexPage) : ℕ → Option ℕ → Except Fault (List ℕ)
  | _, none => .ok []
  | 0, some _ => .error .invalidAccess
  | turns + 1, some currentPageIdx =>
      match pages[currentPageIdx]? with
      | some (.mapper elements nextPageIdx) => do
          let mapper ← readPageMapper pages turns nextPageIdx
          return elements ++ mapper
      | _ => .error .invalidAccess

/-- The constructor, for the two files of an index. -/
def make (keyDataTypeID : KeyType) (pages : List IndexPage) (overflowFile : InMemOverflowFile) :
    Except Fault HashIndex :=
  match pages.head? with
  | some (.header indexHeader) => do
      let pMapper ← readPageMapper pages pages.length indexHeader.pPagesMapperFirstPageIdx
      let oMapper ← readPageMapper pages pages.length indexHeader.oPagesMapperFirstPageIdx
      return {
        indexHeader := indexHeader
        pSlots := { pagesLogicalToPhysicalMapper := pMapper }
        oSlots := { pagesLogicalToPhysicalMapper := oMapper }
        pages := pages
        overflowPages := overflowFile.getPage
        localStorage := HashIndexLocalStorage.make keyDataTypeID }
  | _ => .error .invalidAccess

variable (stdHash : List UInt8 → UInt64)

def lookupInPersistentIndex (index : HashIndex) (key : Key) : Except Fault (Option ℕ) := do
  let keyDataTypeID := index.indexHeader.keyDataTypeID
  let pSlotInfo : SlotInfo :=
    ⟨index.indexHeader.primarySlotId (keyHashFunc stdHash keyDataTypeID key), true⟩
  match ← BaseHashIndex.findMatchedEntry (keyEqualsFunc index.overflowPages keyDataTypeID key)
      index.toBaseHashIndex index.maxChainLength pSlotInfo with
  | none => return none
  | some (slotInfo, entryPos) =>
      let slot ← index.getSlot slotInfo
      return some (slot.entries entryPos).nodeOffset

def lookupInternal (index : HashIndex) (isReadOnly : Bool) (key : Key) :
    Except Fault (Option ℕ) := do
  if isReadOnly then
    index.lookupInPersistentIndex stdHash key
  else
    match ← index.localStorage.lookup stdHash key with
    | .keyFound result => return some result
    | .keyDeleted => return none
    | .keyNotExist => index.lookupInPersistentIndex stdHash key

def deleteInternal (index : HashIndex) (key : Key) : Except Fault HashIndex := do
  let localStorage ← index.localStorage.deleteKey stdHash key
  return { index with localStorage := localStorage }

/-- The part of `insertInternal` that inserts into the local storage. -/
def insertToLocalStorage (index : HashIndex) (key : Key) (value : ℕ) :
    Except Fault (HashIndex × Bool) := do
  let (localStorage, inserted) ← index.localStorage.insert stdHash key value
  return ({ index with localStorage := localStorage }, inserted)

def insertInternal (index : HashIndex) (key : Key) (value : ℕ) :
    Except Fault (HashIndex × Bool) := do
  match ← index.localStorage.lookup stdHash key with
  | .keyFound _ => return (index, false)
  | .keyDeleted => index.insertToLocalStorage stdHash key value
  | .keyNotExist =>
      match ← index.lookupInPersistentIndex stdHash key with
      | some _ => return (index, false)
      | none => index.insertToLocalStorage stdHash key value

end HashIndex

end Graphflow
