import Graphflow.Lib.Except
import Graphflow.Storage.UnstructuredPropertyLists

/-!
# Lists in memory

COPY lays out the lists of all nodes before it writes their elements: `ListsMetadataBuilder` keeps
the page lists, `calculateListsMetadataAndAllocateInMemListPagesTask` fills them and adds the pages,
and `calcPageElementCursor` says where an element goes.  Adjacency lists, the property lists beside
them and unstructured property lists are laid out by the same functions.

Page indices, heads of page lists and the sizes of large lists are kept in arrays of 32-bit values.
-/

namespace Graphflow.Storage

open Lib

/-- A value in an array of 32-bit values, where `UINT32_MAX` is the null index. -/
def toUInt32 (n : ℕ) : Option ℕ :=
  if n % 2 ^ 32 = 2 ^ 32 - 1 then none else some (n % 2 ^ 32)

theorem toUInt32_of_lt {n : ℕ} (hlt : n < 2 ^ 32 - 1) : toUInt32 n = some n := by
  have hmod : n % 2 ^ 32 = n := Nat.mod_eq_of_lt (by omega)
  rw [toUInt32, hmod, if_neg hlt.ne]

/-- What is left of a number in 32 bits. -/
def low32 (n : ℕ) : ℕ := n % 2 ^ 32

/-- Reading the value back, where it is not an index. -/
theorem getD_toUInt32 (n : ℕ) : (toUInt32 n).getD (2 ^ 32 - 1) = low32 n := by
  rw [toUInt32, low32]
  split
  next hnull => exact hnull.symm
  next => rfl

/-- The sum of unsigned integers of 64 bits. -/
def add64 (a b : ℕ) : ℕ := (a + b) % 2 ^ 64

/-- Their difference, which wraps around below zero. -/
def sub64 (a b : ℕ) : ℕ := (a + 2 ^ 64 - b) % 2 ^ 64

/-- `PageElementCursor`. -/
structure PageElementCursor where
  pageIdx : Option ℕ
  posInPage : ℕ
  deriving DecidableEq

namespace PageUtils

/-- Each entry of NULL bits has 8 bytes and serves 64 elements. -/
def getNumElementsInAPage (elementSize : ℕ) (hasNull : Bool) : ℕ :=
  let numBytesPerNullEntry := 8
  let numBytesPerEntry := elementSize <<< 6 + numBytesPerNullEntry
  let numNullEntries :=
    if hasNull then (defaultPageSize + numBytesPerEntry - 1) / numBytesPerEntry else 0
  (defaultPageSize - numNullEntries * numBytesPerNullEntry) / elementSize

/-- The logical page and the position in it. -/
def getPageElementCursorForPos (elementPos numElementsPerPage : ℕ) : Except ListsFault (ℕ × ℕ) :=
  if elementPos / numElementsPerPage < 2 ^ 32 - 1 then
    .ok (elementPos / numElementsPerPage, elementPos % numElementsPerPage)
  else .error .assertionFailed

end PageUtils

/-! ## The builder of the page lists -/

structure ListsMetadataBuilder where
  chunkToPageListHeadIdxMap : List (Option ℕ) := []
  /-- The head of the page list and the number of elements of each large list. -/
  largeListIdxToPageListHeadIdxMap : List (Option ℕ) := []
  pageLists : List (Option ℕ) := []

namespace ListsMetadataBuilder

/-- What a reader opens after `saveToDisk`, with the given headers and pages. -/
def saved (builder : ListsMetadataBuilder) (headers : List ℕ) (numPages : ℕ)
    (pages : ℕ → ℕ → UInt8) : UnstructuredPropertyLists where
  headers := .ofList headers
  chunkToPageListHeadIdxMap := .ofList builder.chunkToPageListHeadIdxMap
  largeListIdxToPageListHeadIdxMap := .ofList builder.largeListIdxToPageListHeadIdxMap
  pageLists := .ofList builder.pageLists
  numPages := numPages
  committedPages := pages
  workingPages := pages

/-- The function of `BaseListsMetadata`, for the array that is being built. -/
def getPageIdxFromAPageList (builder : ListsMetadataBuilder) (pageListHead : Option ℕ)
    (idxInPageList : ℕ) : Except ListsFault (Option ℕ) :=
  (builder.saved [] 0 fun _ _ ↦ 0).getPageIdxFromAPageList pageListHead idxInPageList

def getNumElementsInLargeLists (builder : ListsMetadataBuilder) (largeListIdx : ℕ) :
    Except ListsFault ℕ := do
  let numElements ← (ArrayVersions.ofList builder.largeListIdxToPageListHeadIdxMap).read
    .largeListIdxToPageListHeadIdxMap none (2 * largeListIdx + 1)
  return numElements.getD (2 ^ 32 - 1)

def getPageMapperForChunkIdx (builder : ListsMetadataBuilder) (chunkIdx idxInPageList : ℕ) :
    Except ListsFault (Option ℕ) := do
  let head ← (ArrayVersions.ofList builder.chunkToPageListHeadIdxMap).read
    .chunkToPageListHeadIdxMap none chunkIdx
  builder.getPageIdxFromAPageList head idxInPageList

def getPageMapperForLargeListIdx (builder : ListsMetadataBuilder)
    (largeListIdx idxInPageList : ℕ) : Except ListsFault (Option ℕ) := do
  let head ← (ArrayVersions.ofList builder.largeListIdxToPageListHeadIdxMap).read
    .largeListIdxToPageListHeadIdxMap none (2 * largeListIdx)
  builder.getPageIdxFromAPageList head idxInPageList

def initChunkPageLists (builder : ListsMetadataBuilder) (numChunks : ℕ) : ListsMetadataBuilder :=
  { builder with chunkToPageListHeadIdxMap := List.replicate numChunks none }

/-- Only the first half of the entries is set to the null index; the others are zero. -/
def initLargeListPageLists (builder : ListsMetadataBuilder) (numLargeLists : ℕ) :
    ListsMetadataBuilder :=
  { builder with
    largeListIdxToPageListHeadIdxMap :=
      List.replicate numLargeLists none ++ List.replicate numLargeLists (some 0) }

/-- The page groups of one page list, which begin at `pageListHeadIdx`. -/
def pageListGroups : ℕ → ℕ → ℕ → ℕ → List (Option ℕ)
  | 0, _, _, _ => []
  | numPageListGroups + 1, pageListHeadIdx, numPages, startPageId =>
      let numPagesInThisGroup := min pageListGroupSize numPages
      let nextHeadIdx := pageListHeadIdx + pageListGroupSize + 1
      (List.range numPagesInThisGroup).map (fun j ↦ toUInt32 (startPageId + j)) ++
        List.replicate (pageListGroupSize - numPagesInThisGroup) none ++
        [if numPages - numPagesInThisGroup = 0 then none else toUInt32 nextHeadIdx] ++
        pageListGroups numPageListGroups nextHeadIdx (numPages - numPagesInThisGroup)
          (startPageId + numPagesInThisGroup)

def getNumPageListGroups (numPages : ℕ) : ℕ :=
  if numPages % pageListGroupSize ≠ 0 then numPages / pageListGroupSize + 1
  else numPages / pageListGroupSize

/-- The array grows by the new page list. -/
def populatePageIdsInAPageList (builder : ListsMetadataBuilder) (numPages startPageId : ℕ) :
    ListsMetadataBuilder :=
  { builder with
    pageLists := builder.pageLists ++ pageListGroups (getNumPageListGroups numPages)
      builder.pageLists.length numPages startPageId }

def populateChunkPageList (builder : ListsMetadataBuilder) (chunkId numPages startPageId : ℕ) :
    ListsMetadataBuilder :=
  if numPages = 0 then builder
  else
    { builder with
      chunkToPageListHeadIdxMap :=
        builder.chunkToPageListHeadIdxMap.set chunkId (toUInt32 builder.pageLists.length)
      : ListsMetadataBuilder }.populatePageIdsInAPageList numPages startPageId

def populateLargeListPageList (builder : ListsMetadataBuilder)
    (largeListIdx numPages numElements startPageId : ℕ) :
    Except ListsFault ListsMetadataBuilder :=
  if numPages = 0 then .error .assertionFailed
  else
    let offsetInMap := 2 * largeListIdx
    .ok ({ builder with
      largeListIdxToPageListHeadIdxMap :=
        (builder.largeListIdxToPageListHeadIdxMap.set offsetInMap
          (toUInt32 builder.pageLists.length)).set (offsetInMap + 1) (toUInt32 numElements)
      : ListsMetadataBuilder }.populatePageIdsInAPageList numPages startPageId)

end ListsMetadataBuilder

/-- `numPages` is the number of pages of `inMemFile`. -/
structure InMemLists where
  listsMetadataBuilder : ListsMetadataBuilder := {}
  numPages : ℕ := 0

namespace InMemLists

/-- The constructor. -/
def new (numNodes : ℕ) : InMemLists where
  listsMetadataBuilder := ListsMetadataBuilder.initChunkPageLists {} (getNumChunks numNodes)

/-- The cursor for a position in the pages of a chunk or a large list. -/
def cursorAt (mapper : ℕ → Except ListsFault (Option ℕ)) (numElementsInAPage pos : ℕ) :
    Except ListsFault PageElementCursor := do
  let (pageIdx, posInPage) ← PageUtils.getPageElementCursorForPos pos numElementsInAPage
  let pageIdx ← mapper pageIdx
  return ⟨pageIdx, posInPage⟩

/-- `InMemListsUtils::calcPageElementCursor`. -/
def calcPageElementCursor (builder : ListsMetadataBuilder)
    (header reversePos numBytesPerElement nodeOffset : ℕ) (hasNULLBytes : Bool) :
    Except ListsFault PageElementCursor :=
  let numElementsInAPage := PageUtils.getNumElementsInAPage numBytesPerElement hasNULLBytes
  if ListHeaders.isALargeList header then do
    let lAdjListIdx := ListHeaders.getLargeListIdx header
    let numElements ← builder.getNumElementsInLargeLists lAdjListIdx
    cursorAt (builder.getPageMapperForLargeListIdx lAdjListIdx) numElementsInAPage
      (sub64 numElements reversePos)
  else
    let chunkId := nodeOffset / listsChunkSize
    let (listLen, csrOffset) := ListHeaders.getSmallListLenAndCSROffset header
    let pos := sub64 listLen reversePos
    cursorAt (builder.getPageMapperForChunkIdx chunkId) numElementsInAPage (add64 csrOffset pos)

section Cursor

variable {builder : ListsMetadataBuilder} {header l numElements : ℕ}

theorem calcPageElementCursor_of_large (hheader : ListHeaders.isALargeList header = true)
    (hidx : ListHeaders.getLargeListIdx header = l)
    (hread : builder.getNumElementsInLargeLists l = .ok numElements)
    (reversePos elementSize nodeOffset : ℕ) (hasNULLBytes : Bool) :
    calcPageElementCursor builder header reversePos elementSize nodeOffset hasNULLBytes =
      cursorAt (builder.getPageMapperForLargeListIdx l)
        (PageUtils.getNumElementsInAPage elementSize hasNULLBytes)
        (sub64 numElements reversePos) := by
  have hcursor : (builder.getNumElementsInLargeLists l >>= fun numElements ↦
      cursorAt (builder.getPageMapperForLargeListIdx l)
        (PageUtils.getNumElementsInAPage elementSize hasNULLBytes)
        (sub64 numElements reversePos)) = cursorAt (builder.getPageMapperForLargeListIdx l)
          (PageUtils.getNumElementsInAPage elementSize hasNULLBytes)
          (sub64 numElements reversePos) := by
    rw [hread, ok_bind]
  rw [calcPageElementCursor, if_pos hheader, hidx]
  exact hcursor

theorem calcPageElementCursor_of_small (hheader : ListHeaders.isALargeList header = false)
    (reversePos elementSize nodeOffset : ℕ) (hasNULLBytes : Bool) :
    calcPageElementCursor builder header reversePos elementSize nodeOffset hasNULLBytes =
      cursorAt (builder.getPageMapperForChunkIdx (nodeOffset / listsChunkSize))
        (PageUtils.getNumElementsInAPage elementSize hasNULLBytes)
        (add64 (ListHeaders.getSmallListCSROffset header)
          (sub64 (ListHeaders.getSmallListLen header) reversePos)) := by
  rw [calcPageElementCursor, hheader, if_neg Bool.false_ne_true]
  rfl

end Cursor

end InMemLists

/-! ## Allocating the pages -/

namespace InMemStructuresCSVCopier

/-- The loop that fills the pages of a chunk with one of its small lists.  It ends after as many
turns as there are elements on the page and in the list. -/
def fillPages (numPerPage : ℕ) : ℕ → ℕ → ℕ → ℕ → ℕ × ℕ
  | 0, numElementsInList, numPages, offsetInPage => (numPages, offsetInPage + numElementsInList)
  | fuel + 1, numElementsInList, numPages, offsetInPage =>
      if numPerPage < numElementsInList + offsetInPage then
        fillPages numPerPage fuel (numElementsInList - (numPerPage - offsetInPage)) (numPages + 1) 0
      else (numPages, offsetInPage + numElementsInList)

/-- The variables of the loop over the nodes of a chunk. -/
structure ChunkAllocation where
  inMemList : InMemLists
  largeListIdx : ℕ
  numPages : ℕ := 0
  offsetInPage : ℕ := 0

/-- The turn of the loop for a node with the given header and number of elements. -/
def allocateList (numPerPage : ℕ) (s : ChunkAllocation) (node : ℕ × ℕ) :
    Except ListsFault ChunkAllocation :=
  let (header, numElementsInList) := node
  if ListHeaders.isALargeList header then do
    let numPagesForLargeList :=
      if numElementsInList % numPerPage ≠ 0 then numElementsInList / numPerPage + 1
      else numElementsInList / numPerPage
    let builder ← s.inMemList.listsMetadataBuilder.populateLargeListPageList s.largeListIdx
      numPagesForLargeList numElementsInList s.inMemList.numPages
    return { s with
      inMemList := ⟨builder, s.inMemList.numPages + numPagesForLargeList⟩
      largeListIdx := s.largeListIdx + 1 }
  else
    let (numPages, offsetInPage) := fillPages numPerPage (numElementsInList + s.offsetInPage)
      numElementsInList s.numPages s.offsetInPage
    .ok { s with numPages := numPages, offsetInPage := offsetInPage }

def allocateChunks (numPerPage : ℕ) :
    ℕ → ℕ → List (ℕ × ℕ) → InMemLists → ℕ → Except ListsFault InMemLists
  | 0, _, _, inMemList, _ => .ok inMemList
  | numChunks + 1, chunkId, nodes, inMemList, largeListIdx => do
      let s ← (nodes.take listsChunkSize).foldlM (allocateList numPerPage)
        ⟨inMemList, largeListIdx, 0, 0⟩
      let numPages := if s.offsetInPage ≠ 0 then s.numPages + 1 else s.numPages
      let builder := s.inMemList.listsMetadataBuilder.populateChunkPageList chunkId numPages
        s.inMemList.numPages
      allocateChunks numPerPage numChunks (chunkId + 1) (nodes.drop listsChunkSize)
        ⟨builder, s.inMemList.numPages + numPages⟩ s.largeListIdx

def calculateListsMetadataAndAllocateInMemListPagesTask (elementSize : ℕ) (hasNULLBytes : Bool)
    (listSizes headers : List ℕ) (inMemList : InMemLists) : Except ListsFault InMemLists :=
  let numLargeLists := headers.countP ListHeaders.isALargeList
  let builder := inMemList.listsMetadataBuilder.initLargeListPageLists numLargeLists
  allocateChunks (PageUtils.getNumElementsInAPage elementSize hasNULLBytes)
    (getNumChunks listSizes.length) 0 (headers.zip listSizes)
    { inMemList with listsMetadataBuilder := builder } 0

end InMemStructuresCSVCopier

end Graphflow.Storage
