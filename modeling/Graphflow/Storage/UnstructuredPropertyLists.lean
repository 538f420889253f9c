import Graphflow.Storage.DiskArrayRefinement
import Graphflow.Storage.ListHeaders
import Mathlib.Data.List.Basic
import Mathlib.Logic.Function.Basic

/-!
# Unstructured property lists

The lists of all nodes of a table, stored in one file of pages.  The pages of a chunk, which hold
its small lists one after the other, and those of each large list are found by page lists: groups
of `PAGE_LIST_GROUP_SIZE` page indices, each followed by the position of the next group.

A commit goes through the updated lists in the order of their nodes and rewrites the small lists of
the chunks it comes through.  It reads the versions that were committed last and writes new ones.
-/

namespace Graphflow.Storage

/-- `PAGE_LIST_GROUP_SIZE`. -/
def pageListGroupSize : ℕ := 3

def pageListGroupWithNextPtrSize : ℕ := pageListGroupSize + 1

inductive ListsArray
  | headers
  | chunkToPageListHeadIdxMap
  | largeListIdxToPageListHeadIdxMap
  | pageLists
  deriving DecidableEq

inductive ListsFault
  | assertionFailed
  | outOfRange (array : ListsArray)
  | noSuchPage
  deriving DecidableEq

/-! ## Arrays and pages in two versions -/

/-- A disk array as the readers see it and as the writer has it. -/
structure ArrayVersions (α : Type) where
  committed : List α
  working : List α

namespace ArrayVersions

variable {α : Type}

def ofList (xs : List α) : ArrayVersions α := ⟨xs, xs⟩

/-- `operator[]`.  The committed array is not looked at behind its last array page only; between
its last element and the end of that page, `slack` is found. -/
def read (a : ArrayVersions α) (name : ListsArray) (slack : α) (idx : ℕ) : Except ListsFault α :=
  if idx / 1024 < (a.committed.length + 1023) / 1024 then .ok (a.committed.getD idx slack)
  else .error (.outOfRange name)

/-- `get` for the write transaction. -/
def get (a : ArrayVersions α) (name : ListsArray) (idx : ℕ) : Except ListsFault α :=
  match a.working[idx]? with
  | some val => .ok val
  | none => .error (.outOfRange name)

def getNumElements (a : ArrayVersions α) : ℕ := a.working.length

def update (a : ArrayVersions α) (name : ListsArray) (idx : ℕ) (val : α) :
    Except ListsFault (ArrayVersions α) :=
  if idx < a.working.length then .ok { a with working := a.working.set idx val }
  else .error (.outOfRange name)

def pushBack (a : ArrayVersions α) (val : α) : ArrayVersions α :=
  { a with working := a.working ++ [val] }

def checkpoint (a : ArrayVersions α) : ArrayVersions α := ⟨a.working, a.working⟩

/-! ### As disk arrays -/

/-- The pair of arrays that a disk array stands for, which has the values as numbers. -/
def toPair (toNat : α → ℕ) (a : ArrayVersions α) : ArrayPair :=
  ⟨a.committed.map toNat, a.working.map toNat⟩

variable {toNat : α → ℕ} {a a' : ArrayVersions α} {name : ListsArray} {idx : ℕ} {val : α}

theorem perform_get (h : a.get name idx = .ok val) :
    (a.toPair toNat).perform (.get idx .write) = (.ok (some (toNat val)), a.toPair toNat) := by
  have hval : a.working[idx]? = some val := by
    rw [get] at h
    split at h <;> simp_all
  have hvisible : ((a.toPair toNat).visible .write)[idx]? = some (toNat val) := by
    rw [ArrayPair.visible, toPair, List.getElem?_map, hval, Option.map_some]
  rw [ArrayPair.perform, hvisible]

theorem perform_update (h : a.update name idx val = .ok a') :
    (a.toPair toNat).perform (.update idx (toNat val)) = (.ok none, a'.toPair toNat) := by
  rw [update] at h
  split_ifs at h with hlt
  obtain rfl := Except.ok.inj h
  rw [ArrayPair.perform, toPair, if_pos (by rwa [List.length_map])]
  simp only [toPair, List.map_set]

/-- An update throws where that of the disk array throws. -/
theorem perform_update_of_error {fault : ListsFault} (h : a.update name idx val = .error fault) :
    ∃ message, (a.toPair toNat).perform (.update idx (toNat val)) =
      (.error (.exception message), a.toPair toNat) := by
  rw [update] at h
  split_ifs at h with hlt
  exact ⟨_, if_neg (by rwa [toPair, List.length_map])⟩

theorem perform_pushBack (val : α) (junk : ℕ → Page) :
    (a.toPair toNat).perform (.pushBack (toNat val) junk) =
      (.ok none, (a.pushBack val).toPair toNat) := by
  simp only [ArrayPair.perform, toPair, pushBack, List.map_append, List.map_singleton]

theorem perform_checkpoint :
    (a.toPair toNat).perform .checkpoint = (.ok none, a.checkpoint.toPair toNat) := rfl

end ArrayVersions

/-- `none` stands for `NULL_PAGE_IDX` and `NULL_CHUNK_OR_LARGE_LIST_HEAD_IDX`. -/
structure UnstructuredPropertyLists where
  headers : ArrayVersions ℕ
  chunkToPageListHeadIdxMap : ArrayVersions (Option ℕ)
  /-- The head of the page list and the number of elements of each large list. -/
  largeListIdxToPageListHeadIdxMap : ArrayVersions (Option ℕ)
  pageLists : ArrayVersions (Option ℕ)
  numPages : ℕ
  committedPages : ℕ → ℕ → UInt8
  workingPages : ℕ → ℕ → UInt8

namespace UnstructuredPropertyLists

/-! ## Reading -/

/-- Follow the pointers to the next page groups. -/
def followPageGroups (lists : UnstructuredPropertyLists) :
    ℕ → Option ℕ → Except ListsFault (Option ℕ)
  | 0, head => .ok head
  | _ + 1, none => .error (.outOfRange .pageLists)
  | numGroups + 1, some head => do
      let next ← lists.pageLists.read .pageLists none (head + pageListGroupSize)
      lists.followPageGroups numGroups next

def getPageIdxFromAPageList (lists : UnstructuredPropertyLists) (pageListHead : Option ℕ)
    (idxInPageList : ℕ) : Except ListsFault (Option ℕ) := do
  match ← lists.followPageGroups (idxInPageList / pageListGroupSize) pageListHead with
  | none => throw (.outOfRange .pageLists)
  | some group => lists.pageLists.read .pageLists none (group + idxInPageList % pageListGroupSize)

structure ListInfo where
  isLargeList : Bool
  /-- The page list into which the mapper of the list looks. -/
  pageListHead : Option ℕ
  /-- The position of the first element in the pages of the page list. -/
  pos : ℕ
  numValuesInList : ℕ

def getListInfo (lists : UnstructuredPropertyLists) (nodeOffset : ℕ) :
    Except ListsFault ListInfo := do
  let header ← lists.headers.read .headers 0 nodeOffset
  if ListHeaders.isALargeList header then
    let largeListIdx := ListHeaders.getLargeListIdx header
    let head ← lists.largeListIdxToPageListHeadIdxMap.read .largeListIdxToPageListHeadIdxMap none
      (2 * largeListIdx)
    let numElements ← lists.largeListIdxToPageListHeadIdxMap.read .largeListIdxToPageListHeadIdxMap
      none (2 * largeListIdx + 1)
    return ⟨true, head, 0, numElements.getD (2 ^ 32 - 1)⟩
  else
    let head ← lists.chunkToPageListHeadIdxMap.read .chunkToPageListHeadIdxMap none
      (nodeOffset / listsChunkSize)
    return ⟨false, head, ListHeaders.getSmallListCSROffset header,
      ListHeaders.getSmallListLen header⟩

def pin (lists : UnstructuredPropertyLists) : Option ℕ → Except ListsFault (ℕ → UInt8)
  | some pageIdx =>
      if pageIdx < lists.numPages then .ok (lists.committedPages pageIdx) else .error .noSuchPage
  | none => .error .noSuchPage

/-- The loop over the pages of a list.  It ends after as many turns as bytes remain. -/
def readFromPages (lists : UnstructuredPropertyLists) (pageListHead : Option ℕ) :
    ℕ → ℕ → ℕ → ℕ → Except ListsFault (List UInt8)
  | 0, _, _, _ => .ok []
  | fuel + 1, pageIdx, posInPage, remaining =>
      if remaining = 0 then .ok []
      else do
        let numBytes := min remaining (defaultPageSize - posInPage)
        let physicalPageIdx ← lists.getPageIdxFromAPageList pageListHead pageIdx
        let frame ← lists.pin physicalPageIdx
        let rest ← lists.readFromPages pageListHead fuel (pageIdx + 1) 0 (remaining - numBytes)
        return (List.range numBytes).map (fun i ↦ frame (posInPage + i)) ++ rest

/-- `readSmallList` is the same for elements of one byte. -/
def fillUnstrPropListFromPrimaryStore (lists : UnstructuredPropertyLists) (info : ListInfo) :
    Except ListsFault (List UInt8) :=
  lists.readFromPages info.pageListHead info.numValuesInList (info.pos / defaultPageSize)
    (info.pos % defaultPageSize) info.numValuesInList

/-- The bytes that a read transaction finds for a node. -/
def readList (lists : UnstructuredPropertyLists) (nodeOffset : ℕ) :
    Except ListsFault (List UInt8) := do
  let info ← lists.getListInfo nodeOffset
  lists.fillUnstrPropListFromPrimaryStore info

/-! ## Writing pages -/

def addNewPage (lists : UnstructuredPropertyLists) : ℕ × UnstructuredPropertyLists :=
  (lists.numPages, { lists with numPages := lists.numPages + 1 })

/-- `memcpy` into the write version of a page. -/
def updatePage (lists : UnstructuredPropertyLists) (pageIdx offset : ℕ) (bytes : List UInt8) :
    Except ListsFault UnstructuredPropertyLists :=
  if pageIdx < lists.numPages then
    .ok { lists with workingPages := Function.update lists.workingPages pageIdx fun i ↦
      if offset ≤ i then (bytes[i - offset]?).getD (lists.workingPages pageIdx i)
      else lists.workingPages pageIdx i }
  else .error .noSuchPage

/-- Where the position of a new page group is written. -/
inductive GroupOwner
  | chunk (chunkIdx : ℕ)
  | largeList (largeListIdx : ℕ)
  /-- The page group before it. -/
  | group (beginIdxOfCurrentPageGroup : ℕ)

def insertNewPageGroupAndSetHeadIdxMap (lists : UnstructuredPropertyLists) (owner : GroupOwner) :
    Except ListsFault (ℕ × UnstructuredPropertyLists) := do
  let beginIdxOfNextPageGroup := lists.pageLists.getNumElements
  let lists ← match owner with
    | .chunk chunkIdx => do
        let map ← lists.chunkToPageListHeadIdxMap.update .chunkToPageListHeadIdxMap chunkIdx
          (some beginIdxOfNextPageGroup)
        pure { lists with chunkToPageListHeadIdxMap := map }
    | .largeList largeListIdx => do
        let map ← lists.largeListIdxToPageListHeadIdxMap.update .largeListIdxToPageListHeadIdxMap
          (2 * largeListIdx) (some beginIdxOfNextPageGroup)
        pure { lists with largeListIdxToPageListHeadIdxMap := map }
    | .group beginIdxOfCurrentPageGroup => do
        let pageLists ← lists.pageLists.update .pageLists
          (beginIdxOfCurrentPageGroup + pageListGroupSize) (some beginIdxOfNextPageGroup)
        pure { lists with pageLists := pageLists }
  let pageLists := (List.replicate pageListGroupWithNextPtrSize none).foldl
    ArrayVersions.pushBack lists.pageLists
  return (beginIdxOfNextPageGroup, { lists with pageLists := pageLists })

/-- The loop over the page groups before the one that is looked for. -/
def seekPageGroup : ℕ → UnstructuredPropertyLists → ℕ → ℕ →
    Except ListsFault (ℕ × UnstructuredPropertyLists)
  | 0, lists, _, curIdxInPageList => .ok (curIdxInPageList, lists)
  | numGroups + 1, lists, idxInPageList, curIdxInPageList => do
      match ← lists.pageLists.get .pageLists (curIdxInPageList + pageListGroupSize) with
      | none =>
          if idxInPageList ≠ pageListGroupSize then
            throw .assertionFailed
          let (next, lists) ← lists.insertNewPageGroupAndSetHeadIdxMap (.group curIdxInPageList)
          seekPageGroup numGroups lists (idxInPageList - pageListGroupSize) next
      | some next => seekPageGroup numGroups lists (idxInPageList - pageListGroupSize) next

def findListPageIdxAndInsertListPageToPageListIfNecessary (lists : UnstructuredPropertyLists)
    (idxInPageList pageListHeadIdx : ℕ) : Except ListsFault (ℕ × UnstructuredPropertyLists) := do
  let (group, lists) ←
    seekPageGroup (idxInPageList / pageListGroupSize) lists idxInPageList pageListHeadIdx
  let curIdxInPageList := group + idxInPageList % pageListGroupSize
  match ← lists.pageLists.get .pageLists curIdxInPageList with
  | some listPageIdx => return (listPageIdx, lists)
  | none =>
      let (listPageIdx, lists) := lists.addNewPage
      let pageLists ← lists.pageLists.update .pageLists curIdxInPageList (some listPageIdx)
      return (listPageIdx, { lists with pageLists := pageLists })

/-- The loop of `writeListToListPages`. -/
def writeToListPages : ℕ → UnstructuredPropertyLists → List UInt8 → ℕ → ℕ → ℕ →
    Except ListsFault UnstructuredPropertyLists
  | 0, lists, _, _, _, _ => .ok lists
  | fuel + 1, lists, newList, pageListHeadIdx, idxInPageList, offsetInListPage =>
      if newList = [] then .ok lists
      else do
        let (listPageIdx, lists) ← lists.findListPageIdxAndInsertListPageToPageListIfNecessary
          idxInPageList pageListHeadIdx
        let numBytes := min newList.length (defaultPageSize - offsetInListPage)
        let lists ← lists.updatePage listPageIdx offsetInListPage (newList.take numBytes)
        writeToListPages fuel lists (newList.drop numBytes) pageListHeadIdx (idxInPageList + 1) 0

/-- A large list is written from position 0 on, a small one from its CSR offset on. -/
def writeListToListPages (lists : UnstructuredPropertyLists) (newList : List UInt8)
    (pageListHeadIdx : Option ℕ) (pos : ℕ) : Except ListsFault UnstructuredPropertyLists :=
  match pageListHeadIdx with
  | some head => writeToListPages newList.length lists newList head (pos / defaultPageSize)
      (pos % defaultPageSize)
  | none => if newList = [] then .ok lists else .error (.outOfRange .pageLists)

end UnstructuredPropertyLists

/-! ## The update iterator -/

/-- `curChunkIdx` is `none` before the first list. -/
structure UnstructuredPropertyListsUpdateIterator where
  lists : UnstructuredPropertyLists
  curChunkIdx : Option ℕ := none
  curUnprocessedNodeOffset : ℕ := 2 ^ 64 - 1
  curCSROffset : ℕ := 2 ^ 64 - 1

namespace UnstructuredPropertyListsUpdateIterator

open UnstructuredPropertyLists

def seekToBeginningOfChunkIdx (itr : UnstructuredPropertyListsUpdateIterator) (chunkIdx : ℕ) :
    UnstructuredPropertyListsUpdateIterator :=
  { itr with
    curChunkIdx := some chunkIdx
    curUnprocessedNodeOffset := chunkIdx * listsChunkSize
    curCSROffset := 0 }

/-- The head of the page list of a chunk, which gets its entry and its first page group here if it
has none. -/
def getPageListHeadIdxOfChunk (lists : UnstructuredPropertyLists) (chunkIdx : ℕ) :
    Except ListsFault (ℕ × UnstructuredPropertyLists) := do
  let (head, lists) ←
    if chunkIdx = lists.chunkToPageListHeadIdxMap.getNumElements then
      pure (none, { lists with
        chunkToPageListHeadIdxMap := lists.chunkToPageListHeadIdxMap.pushBack none })
    else do
      let head ← lists.chunkToPageListHeadIdxMap.get .chunkToPageListHeadIdxMap chunkIdx
      pure (head, lists)
  match head with
  | some head => return (head, lists)
  | none => lists.insertNewPageGroupAndSetHeadIdxMap (.chunk chunkIdx)

def updateSmallListAndCurCSROffset (itr : UnstructuredPropertyListsUpdateIterator) (oldHeader : ℕ)
    (newList : List UInt8) : Except ListsFault UnstructuredPropertyListsUpdateIterator := do
  let newHeader := ListHeaders.getSmallListHeader itr.curCSROffset newList.length
  let lists ←
    if newHeader ≠ oldHeader then do
      let headers ← itr.lists.headers.update .headers itr.curUnprocessedNodeOffset newHeader
      pure { itr.lists with headers := headers }
    else pure itr.lists
  if newList = [] then
    return { itr with lists := lists }
  -- `curChunkIdx` is set by now.
  let (pageListHeadIdx, lists) ← getPageListHeadIdxOfChunk lists (itr.curChunkIdx.getD 0)
  let lists ← lists.writeListToListPages newList (some pageListHeadIdx) itr.curCSROffset
  return { itr with lists := lists, curCSROffset := itr.curCSROffset + newList.length }

def updateLargeList (itr : UnstructuredPropertyListsUpdateIterator) (oldHeader : ℕ)
    (newList : List UInt8) : Except ListsFault UnstructuredPropertyListsUpdateIterator := do
  let (largeListIdx, pageListHeadIdx, lists) ←
    if ListHeaders.isALargeList oldHeader then do
      let largeListIdx := ListHeaders.getLargeListIdx oldHeader
      let head ← itr.lists.largeListIdxToPageListHeadIdxMap.read .largeListIdxToPageListHeadIdxMap
        none (2 * largeListIdx)
      pure (largeListIdx, head, itr.lists)
    else do
      let largeListIdx := itr.lists.largeListIdxToPageListHeadIdxMap.getNumElements / 2
      let headers ← itr.lists.headers.update .headers itr.curUnprocessedNodeOffset
        (ListHeaders.getLargeListHeader largeListIdx)
      let map := (itr.lists.largeListIdxToPageListHeadIdxMap.pushBack none).pushBack none
      let lists := { itr.lists with headers := headers, largeListIdxToPageListHeadIdxMap := map }
      let (head, lists) ← lists.insertNewPageGroupAndSetHeadIdxMap (.largeList largeListIdx)
      pure (largeListIdx, some head, lists)
  let map ← lists.largeListIdxToPageListHeadIdxMap.update .largeListIdxToPageListHeadIdxMap
    (2 * largeListIdx + 1) (some newList.length)
  let lists := { lists with largeListIdxToPageListHeadIdxMap := map }
  let lists ← lists.writeListToListPages newList pageListHeadIdx 0
  return { itr with lists := lists }

/-- One turn of the loop of `slideListsIfNecessary`, whose variable is always equal to
`curUnprocessedNodeOffset`. -/
def slideList (itr : UnstructuredPropertyListsUpdateIterator) :
    Except ListsFault UnstructuredPropertyListsUpdateIterator := do
  let nodeOffsetToSlide := itr.curUnprocessedNodeOffset
  let oldHeader ← itr.lists.headers.read .headers 0 nodeOffsetToSlide
  let itr ←
    if ListHeaders.isALargeList oldHeader then pure itr
    else
      let (listLen, _) := ListHeaders.getSmallListLenAndCSROffset oldHeader
      if ListHeaders.getSmallListHeader itr.curCSROffset listLen ≠ oldHeader then do
        let list ← itr.lists.readList nodeOffsetToSlide
        itr.updateSmallListAndCurCSROffset oldHeader list
      else pure { itr with curCSROffset := itr.curCSROffset + listLen }
  return { itr with curUnprocessedNodeOffset := itr.curUnprocessedNodeOffset + 1 }

def slideLists : ℕ → UnstructuredPropertyListsUpdateIterator →
    Except ListsFault UnstructuredPropertyListsUpdateIterator
  | 0, itr => .ok itr
  | numLists + 1, itr => do
      let itr ← itr.slideList
      slideLists numLists itr

def slideListsIfNecessary (itr : UnstructuredPropertyListsUpdateIterator)
    (endNodeOffsetInclusive : ℕ) : Except ListsFault UnstructuredPropertyListsUpdateIterator :=
  slideLists (endNodeOffsetInclusive + 1 - itr.curUnprocessedNodeOffset) itr

def getChunkIdxEndNodeOffsetInclusive (chunkIdx : ℕ) : ℕ := (chunkIdx + 1) * listsChunkSize - 1

def seekToNodeOffsetAndSlideListsIfNecessary (itr : UnstructuredPropertyListsUpdateIterator)
    (nodeOffsetToSeekTo : ℕ) : Except ListsFault UnstructuredPropertyListsUpdateIterator := do
  let chunkIdxOfNode := nodeOffsetToSeekTo / listsChunkSize
  let itr ← match itr.curChunkIdx with
    | none => pure (itr.seekToBeginningOfChunkIdx chunkIdxOfNode)
    | some curChunkIdx =>
        if curChunkIdx ≠ chunkIdxOfNode then do
          let itr ← itr.slideListsIfNecessary (getChunkIdxEndNodeOffsetInclusive curChunkIdx)
          pure (itr.seekToBeginningOfChunkIdx chunkIdxOfNode)
        else pure itr
  if 0 < nodeOffsetToSeekTo then itr.slideListsIfNecessary (nodeOffsetToSeekTo - 1)
  else return itr

def doneUpdating (itr : UnstructuredPropertyListsUpdateIterator) :
    Except ListsFault UnstructuredPropertyListsUpdateIterator :=
  match itr.curChunkIdx with
  | none => .ok itr
  | some curChunkIdx =>
      let endNodeOffsetToSeekTo := min itr.lists.headers.getNumElements
        (getChunkIdxEndNodeOffsetInclusive curChunkIdx + 1)
      itr.seekToNodeOffsetAndSlideListsIfNecessary endNodeOffsetToSeekTo

def updateList (itr : UnstructuredPropertyListsUpdateIterator) (nodeOffset : ℕ)
    (newList : List UInt8) : Except ListsFault UnstructuredPropertyListsUpdateIterator := do
  let itr ← itr.seekToNodeOffsetAndSlideListsIfNecessary nodeOffset
  let numNodes := itr.lists.headers.getNumElements
  if numNodes < nodeOffset then
    throw .assertionFailed
  let (oldHeader, itr) ←
    if nodeOffset = numNodes then
      pure (ListHeaders.getSmallListHeader 0 0, { itr with
        lists := { itr.lists with headers := itr.lists.headers.pushBack 0 } })
    else do
      let oldHeader ← itr.lists.headers.get .headers itr.curUnprocessedNodeOffset
      pure (oldHeader, itr)
  let itr ←
    if ListHeaders.isALargeList oldHeader ∨ defaultPageSize < newList.length then
      itr.updateLargeList oldHeader newList
    else itr.updateSmallListAndCurCSROffset oldHeader newList
  return { itr with curUnprocessedNodeOffset := itr.curUnprocessedNodeOffset + 1 }

end UnstructuredPropertyListsUpdateIterator

namespace UnstructuredPropertyLists

open UnstructuredPropertyListsUpdateIterator

/-- The commit of the updated lists, which are given in the order of their nodes. -/
def prepareCommit (lists : UnstructuredPropertyLists) (updatedLists : List (ℕ × List UInt8)) :
    Except ListsFault UnstructuredPropertyLists := do
  if updatedLists = [] then
    return lists
  let itr ← updatedLists.foldlM (fun (itr : UnstructuredPropertyListsUpdateIterator) list ↦
    itr.updateList list.1 list.2) { lists := lists }
  let itr ← itr.doneUpdating
  return itr.lists

def checkpoint (lists : UnstructuredPropertyLists) : UnstructuredPropertyLists where
  headers := lists.headers.checkpoint
  chunkToPageListHeadIdxMap := lists.chunkToPageListHeadIdxMap.checkpoint
  largeListIdxToPageListHeadIdxMap := lists.largeListIdxToPageListHeadIdxMap.checkpoint
  pageLists := lists.pageLists.checkpoint
  numPages := lists.numPages
  committedPages := lists.workingPages
  workingPages := lists.workingPages

end UnstructuredPropertyLists

end Graphflow.Storage
