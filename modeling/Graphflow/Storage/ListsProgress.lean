import Graphflow.Storage.PageLists

/-!
# What a commit of lists does, whether or not it goes through

Each operation is described by its outcomes: which parts its result has changed, and that it does
not fail for want of an entry of a chunk.
-/

namespace Graphflow.Storage

open Lib ListHeaders

/-- One version of what is stored, without the page lists. -/
structure ListsView where
  headers : List ℕ
  chunkMap : List (Option ℕ)
  largeMap : List (Option ℕ)
  contents : ℕ → ℕ → UInt8

/-! ## Updated lists -/

/-- The bytes of a node are stored as a small list, which needs the entry of its chunk. -/
def NeedsEntry (lists : UnstructuredPropertyLists) (o : ℕ) (data : List UInt8) : Prop :=
  data ≠ [] ∧ data.length ≤ defaultPageSize ∧
    ∀ header, lists.headers.committed[o]? = some header → isALargeList header = false

/-- Updated lists as a commit gets them: the nodes ascend, and new nodes come without gaps. -/
structure InOrder (numNodes : ℕ) (updatedLists : List (ℕ × List UInt8)) : Prop where
  sorted : (updatedLists.map Prod.fst).Pairwise (· < ·)
  consecutive : ∀ o ∈ updatedLists.map Prod.fst, ∀ o', numNodes ≤ o' → o' < o →
    o' ∈ updatedLists.map Prod.fst

/-- A chunk has an entry already or gets one for a list that is committed. -/
def GetsEntry (lists : UnstructuredPropertyLists) (updatedLists : List (ℕ × List UInt8))
    (chunkIdx : ℕ) : Prop :=
  chunkIdx < lists.chunkToPageListHeadIdxMap.committed.length ∨
    ∃ update ∈ updatedLists, NeedsEntry lists update.1 update.2 ∧
      update.1 / listsChunkSize = chunkIdx

section InOrder

variable {numNodes : ℕ} {updatedLists done rest : List (ℕ × List UInt8)} {x : ℕ × List UInt8}

theorem InOrder.lt_of_mem_done (h : InOrder numNodes (done ++ x :: rest)) {y : ℕ × List UInt8}
    (hy : y ∈ done) : y.1 < x.1 := by
  have hsorted := h.sorted
  rw [List.map_append, List.pairwise_append] at hsorted
  exact hsorted.2.2 y.1 (List.mem_map_of_mem hy) x.1 (by simp)

theorem InOrder.mem_done_of_lt (h : InOrder numNodes (done ++ x :: rest)) {y : ℕ × List UInt8}
    (hy : y ∈ done ++ x :: rest) (hlt : y.1 < x.1) : y ∈ done := by
  rcases List.mem_append.mp hy with hy | hy
  · exact hy
  · have hsorted := h.sorted
    rw [List.map_append, List.pairwise_append, List.map_cons, List.pairwise_cons] at hsorted
    rcases List.mem_cons.mp hy with rfl | hy
    · exact absurd hlt (lt_irrefl _)
    · exact absurd hlt (hsorted.2.1.1 y.1 (List.mem_map_of_mem hy)).asymm

/-- A node in front of the next updated one is old or has been updated. -/
theorem InOrder.mem_done (h : InOrder numNodes (done ++ x :: rest)) {o : ℕ} (hnew : numNodes ≤ o)
    (hlt : o < x.1) : o ∈ done.map Prod.fst := by
  obtain ⟨y, hy, rfl⟩ := List.mem_map.mp (h.consecutive x.1 (by simp) o hnew hlt)
  exact List.mem_map_of_mem (h.mem_done_of_lt hy hlt)

theorem InOrder.sorted_done (h : InOrder numNodes (done ++ rest)) :
    (done.map Prod.fst).Pairwise (· < ·) := by
  have hsorted := h.sorted
  rw [List.map_append, List.pairwise_append] at hsorted
  exact hsorted.1

theorem InOrder.le_last {y z : ℕ × List UInt8} (h : InOrder numNodes (done ++ rest))
    (hlast : done.getLast? = some y) (hz : z ∈ done) : z.1 ≤ y.1 := by
  obtain ⟨front, rfl⟩ := List.getLast?_eq_some_iff.mp hlast
  have hsorted := h.sorted_done
  rw [List.map_append, List.pairwise_append] at hsorted
  rcases List.mem_append.mp hz with hz | hz
  · exact (hsorted.2.2 z.1 (List.mem_map_of_mem hz) y.1 (by simp)).le
  · rw [List.mem_singleton.mp hz]

/-- The first updated node is an old one, or the next one. -/
theorem InOrder.first_le (h : InOrder numNodes (x :: rest)) : x.1 ≤ numNodes := by
  by_contra hgt
  rw [← List.nil_append (x :: rest)] at h
  exact absurd (h.mem_done le_rfl (Nat.lt_of_not_le hgt)) List.not_mem_nil

/-- A new node comes right behind the one before it. -/
theorem InOrder.next_le {y : ℕ × List UInt8} (h : InOrder numNodes (done ++ x :: rest))
    (hlast : done.getLast? = some y) : x.1 = y.1 + 1 ∨ x.1 ≤ numNodes := by
  have hlt := h.lt_of_mem_done (List.mem_of_getLast? hlast)
  by_contra hgap
  rw [not_or] at hgap
  obtain ⟨z, hz, hzo⟩ := List.mem_map.mp
    (h.mem_done (o := max numNodes (y.1 + 1)) (by omega) (by omega))
  have hle := h.le_last hlast hz
  omega

end InOrder

/-! ## What stays as it is -/

namespace UnstructuredPropertyLists

variable {lists lists' lists'' : UnstructuredPropertyLists}

def committedView (lists : UnstructuredPropertyLists) : ListsView where
  headers := lists.headers.committed
  chunkMap := lists.chunkToPageListHeadIdxMap.committed
  largeMap := lists.largeListIdxToPageListHeadIdxMap.committed
  contents := lists.committedPages

/-- Writing list pages leaves the headers, the heads of the page lists and all that has been
committed as they are. -/
structure WritesPages (lists lists' : UnstructuredPropertyLists) : Prop where
  headers : lists'.headers = lists.headers
  chunkMap : lists'.chunkToPageListHeadIdxMap = lists.chunkToPageListHeadIdxMap
  largeMap : lists'.largeListIdxToPageListHeadIdxMap = lists.largeListIdxToPageListHeadIdxMap
  pageLists : lists'.pageLists.committed = lists.pageLists.committed
  committedPages : lists'.committedPages = lists.committedPages
  numPages : lists.numPages ≤ lists'.numPages

theorem WritesPages.refl (lists : UnstructuredPropertyLists) : WritesPages lists lists :=
  ⟨rfl, rfl, rfl, rfl, rfl, le_rfl⟩

theorem WritesPages.trans (h : WritesPages lists lists') (h' : WritesPages lists' lists'') :
    WritesPages lists lists'' where
  headers := h'.headers.trans h.headers
  chunkMap := h'.chunkMap.trans h.chunkMap
  largeMap := h'.largeMap.trans h.largeMap
  pageLists := h'.pageLists.trans h.pageLists
  committedPages := h'.committedPages.trans h.committedPages
  numPages := h.numPages.trans h'.numPages

theorem foldl_pushBack {α : Type} (a : ArrayVersions α) (xs : List α) :
    xs.foldl ArrayVersions.pushBack a = { a with working := a.working ++ xs } := by
  induction xs generalizing a with
  | nil => simp
  | cons x xs ih => simp [ih, ArrayVersions.pushBack]

/-- What has been committed is not touched. -/
structure SameCommitted (lists lists' : UnstructuredPropertyLists) : Prop where
  view : lists'.committedView = lists.committedView
  pageLists : lists'.pageLists.committed = lists.pageLists.committed
  numPages : lists.numPages ≤ lists'.numPages

theorem SameCommitted.refl (lists : UnstructuredPropertyLists) : SameCommitted lists lists :=
  ⟨rfl, rfl, le_rfl⟩

theorem SameCommitted.trans (h : SameCommitted lists lists') (h' : SameCommitted lists' lists'') :
    SameCommitted lists lists'' :=
  ⟨h'.view.trans h.view, h'.pageLists.trans h.pageLists, h.numPages.trans h'.numPages⟩

theorem WritesPages.sameCommitted (h : WritesPages lists lists') : SameCommitted lists lists' where
  view := by
    simp only [committedView, h.headers, h.chunkMap, h.largeMap, h.committedPages]
  pageLists := h.pageLists
  numPages := h.numPages

/-- A header has been set. -/
def withHeader (lists : UnstructuredPropertyLists) (nodeOffset header : ℕ) :
    UnstructuredPropertyLists :=
  { lists with headers := ⟨lists.headers.committed, lists.headers.working.set nodeOffset header⟩ }

end UnstructuredPropertyLists

namespace UnstructuredPropertyListsUpdateIterator

open UnstructuredPropertyLists

variable {itr : UnstructuredPropertyListsUpdateIterator} {oldHeader : ℕ}

/-- The lists with the header of a small list for the current node. -/
def withSmallHeader (itr : UnstructuredPropertyListsUpdateIterator) (data : List UInt8) :
    UnstructuredPropertyLists :=
  itr.lists.withHeader itr.curUnprocessedNodeOffset
    (getSmallListHeader itr.curCSROffset data.length)

/-- The header is written only if it differs from the old one, which makes no difference. -/
theorem updateSmallList_eq
    (hheader : itr.lists.headers.working[itr.curUnprocessedNodeOffset]? = some oldHeader)
    (data : List UInt8) :
    itr.updateSmallListAndCurCSROffset oldHeader data =
      if data = [] then .ok { itr with lists := itr.withSmallHeader data }
      else do
        let (pageListHeadIdx, lists) ←
          getPageListHeadIdxOfChunk (itr.withSmallHeader data) (itr.curChunkIdx.getD 0)
        let lists ← lists.writeListToListPages data (some pageListHeadIdx) itr.curCSROffset
        return { itr with lists := lists, curCSROffset := itr.curCSROffset + data.length } := by
  obtain ⟨hlt, hget⟩ := List.getElem?_eq_some_iff.mp hheader
  by_cases heq : getSmallListHeader itr.curCSROffset data.length = oldHeader
  · have hlists : itr.withSmallHeader data = itr.lists := by
      rw [withSmallHeader, heq, ← hget, withHeader, List.set_getElem_self]
    simp only [updateSmallListAndCurCSROffset, heq, ne_eq, not_true_eq_false, if_false, pure_eq_ok,
      ok_bind, hlists]
  · simp only [updateSmallListAndCurCSROffset, ne_eq, heq, not_false_eq_true, if_true,
      ArrayVersions.update, hlt, pure_eq_ok, ok_bind, withSmallHeader, withHeader]

end UnstructuredPropertyListsUpdateIterator

/-! ## The outcomes -/

namespace UnstructuredPropertyLists

variable {lists lists' : UnstructuredPropertyLists} {c : ℕ} {data : List UInt8}

/-- The array in which a chunk has no entry. -/
def NotChunkMap (fault : ListsFault) : Prop :=
  fault ≠ .outOfRange .chunkToPageListHeadIdxMap

theorem outcome_update {α : Type} {E : ListsFault → Prop} (a : ArrayVersions α) (name : ListsArray)
    (idx : ℕ) (val : α) (hE : a.working.length ≤ idx → E (.outOfRange name)) :
    Outcome E (fun a' ↦ a' = ⟨a.committed, a.working.set idx val⟩ ∧ idx < a.working.length)
      (a.update name idx val) := by
  unfold ArrayVersions.update
  split_ifs with hlt
  · exact ⟨rfl, hlt⟩
  · exact hE (Nat.le_of_not_lt hlt)

theorem outcome_get {α : Type} {E : ListsFault → Prop} (a : ArrayVersions α) (name : ListsArray)
    (idx : ℕ) (hE : a.working.length ≤ idx → E (.outOfRange name)) :
    Outcome E (fun val ↦ a.working[idx]? = some val) (a.get name idx) := by
  unfold ArrayVersions.get
  split
  next val hval => exact hval
  next hnone => exact hE (List.getElem?_eq_none_iff.mp hnone)

theorem outcome_insertNewPageGroup_group (lists : UnstructuredPropertyLists) (group : ℕ) :
    Outcome NotChunkMap (fun r ↦ WritesPages lists r.2)
      (lists.insertNewPageGroupAndSetHeadIdxMap (.group group)) := by
  unfold insertNewPageGroupAndSetHeadIdxMap
  refine (outcome_update lists.pageLists .pageLists _ _ fun _ ↦ by simp [NotChunkMap]).bind
    fun pageLists hpl ↦ ?_
  obtain ⟨rfl, -⟩ := hpl
  simp only [pure_eq_ok, ok_bind, foldl_pushBack]
  exact ⟨rfl, rfl, rfl, rfl, rfl, le_rfl⟩

theorem outcome_insertNewPageGroup_largeList (lists : UnstructuredPropertyLists) (l : ℕ) :
    Outcome NotChunkMap
      (fun r ↦ SameCommitted lists r.2 ∧ r.2.headers = lists.headers ∧
        r.2.chunkToPageListHeadIdxMap = lists.chunkToPageListHeadIdxMap)
      (lists.insertNewPageGroupAndSetHeadIdxMap (.largeList l)) := by
  unfold insertNewPageGroupAndSetHeadIdxMap
  refine (outcome_update lists.largeListIdxToPageListHeadIdxMap
    .largeListIdxToPageListHeadIdxMap _ _
    fun _ ↦ by simp [NotChunkMap]).bind fun map hmap ↦ ?_
  obtain ⟨rfl, -⟩ := hmap
  simp only [pure_eq_ok, ok_bind, foldl_pushBack]
  exact ⟨⟨rfl, rfl, le_rfl⟩, rfl, rfl⟩

theorem outcome_seekPageGroup (numGroups : ℕ) (lists : UnstructuredPropertyLists)
    (idxInPageList curIdxInPageList : ℕ) :
    Outcome NotChunkMap (fun r ↦ WritesPages lists r.2)
      (seekPageGroup numGroups lists idxInPageList curIdxInPageList) := by
  induction numGroups generalizing lists idxInPageList curIdxInPageList with
  | zero => exact .refl lists
  | succ numGroups ih =>
      rw [seekPageGroup]
      refine (outcome_get lists.pageLists .pageLists _ fun _ ↦ by simp [NotChunkMap]).bind
        fun next _ ↦ ?_
      cases next with
      | some next => exact ih ..
      | none =>
          by_cases hidx : idxInPageList ≠ pageListGroupSize
          · simp [hidx, Outcome, NotChunkMap]
          · simp only [hidx, if_false]
            refine (outcome_insertNewPageGroup_group lists _).bind fun r hr ↦ ?_
            exact (ih ..).mono (fun _ h ↦ h) fun _ h ↦ hr.trans h

theorem outcome_findListPageIdx (lists : UnstructuredPropertyLists)
    (idxInPageList pageListHeadIdx : ℕ) :
    Outcome NotChunkMap (fun r ↦ WritesPages lists r.2)
      (lists.findListPageIdxAndInsertListPageToPageListIfNecessary idxInPageList
        pageListHeadIdx) := by
  unfold findListPageIdxAndInsertListPageToPageListIfNecessary
  refine (outcome_seekPageGroup ..).bind fun r hr ↦ ?_
  refine (outcome_get r.2.pageLists .pageLists _ fun _ ↦ by simp [NotChunkMap]).bind
    fun listPageIdx _ ↦ ?_
  cases listPageIdx with
  | some listPageIdx => exact hr
  | none =>
      refine (outcome_update r.2.pageLists .pageLists _ _ fun _ ↦ by simp [NotChunkMap]).bind
        fun pageLists hpl ↦ ?_
      obtain ⟨rfl, -⟩ := hpl
      exact hr.trans ⟨rfl, rfl, rfl, rfl, rfl, Nat.le_succ _⟩

theorem outcome_updatePage (lists : UnstructuredPropertyLists) (pageIdx offset : ℕ)
    (bytes : List UInt8) :
    Outcome NotChunkMap (WritesPages lists) (lists.updatePage pageIdx offset bytes) := by
  unfold updatePage
  split_ifs with hlt
  · exact ⟨rfl, rfl, rfl, rfl, rfl, le_rfl⟩
  · simp [Outcome, NotChunkMap]

theorem outcome_writeToListPages (fuel : ℕ) (lists : UnstructuredPropertyLists)
    (newList : List UInt8) (pageListHeadIdx idxInPageList offsetInListPage : ℕ) :
    Outcome NotChunkMap (WritesPages lists)
      (writeToListPages fuel lists newList pageListHeadIdx idxInPageList offsetInListPage) := by
  induction fuel generalizing lists newList idxInPageList offsetInListPage with
  | zero => exact .refl lists
  | succ fuel ih =>
      rw [writeToListPages]
      split_ifs with hnil
      · exact .refl lists
      · refine (outcome_findListPageIdx ..).bind fun r hr ↦ ?_
        refine (outcome_updatePage ..).bind fun lists' hlists' ↦ ?_
        exact (ih ..).mono (fun _ h ↦ h) fun _ h ↦ (hr.trans hlists').trans h

theorem outcome_writeListToListPages (lists : UnstructuredPropertyLists) (newList : List UInt8)
    (pageListHeadIdx : Option ℕ) (pos : ℕ) :
    Outcome NotChunkMap (WritesPages lists)
      (lists.writeListToListPages newList pageListHeadIdx pos) := by
  unfold writeListToListPages
  cases pageListHeadIdx with
  | some head => exact outcome_writeToListPages ..
  | none =>
      simp only
      split_ifs with hnil
      · exact .refl lists
      · simp [Outcome, NotChunkMap]

/-- The heads of the chunks may have changed, but only the chunk in hand has got an entry. -/
structure GivesEntry (c : ℕ) (lists lists' : UnstructuredPropertyLists) : Prop where
  same : SameCommitted lists lists'
  headers : lists'.headers = lists.headers
  chunkMap : lists'.chunkToPageListHeadIdxMap.working.length =
    max lists.chunkToPageListHeadIdxMap.working.length (c + 1)

/-- A chunk gets an entry if it is the next one. -/
theorem outcome_getPageListHeadIdxOfChunk (lists : UnstructuredPropertyLists) (c : ℕ) :
    Outcome
      (fun fault ↦ NotChunkMap fault ∨ lists.chunkToPageListHeadIdxMap.working.length < c)
      (fun r ↦ c ≤ lists.chunkToPageListHeadIdxMap.working.length ∧ GivesEntry c lists r.2)
      (UnstructuredPropertyListsUpdateIterator.getPageListHeadIdxOfChunk lists c) := by
  -- A chunk without a page group gets its first one.
  have hfirst : ∀ lists₁ : UnstructuredPropertyLists,
      c < lists₁.chunkToPageListHeadIdxMap.working.length →
      Outcome
        (fun fault ↦ NotChunkMap fault ∨ lists.chunkToPageListHeadIdxMap.working.length < c)
        (fun r ↦ SameCommitted lists₁ r.2 ∧ r.2.headers = lists₁.headers ∧
          r.2.chunkToPageListHeadIdxMap.working.length =
            lists₁.chunkToPageListHeadIdxMap.working.length)
        (lists₁.insertNewPageGroupAndSetHeadIdxMap (.chunk c)) := by
    intro lists₁ hc
    unfold insertNewPageGroupAndSetHeadIdxMap
    refine (outcome_update lists₁.chunkToPageListHeadIdxMap .chunkToPageListHeadIdxMap _ _
      fun hge ↦ absurd hc (Nat.not_lt.mpr hge)).bind fun map hmap ↦ ?_
    obtain ⟨rfl, -⟩ := hmap
    simp only [pure_eq_ok, ok_bind, foldl_pushBack]
    exact ⟨⟨rfl, rfl, le_rfl⟩, rfl, List.length_set⟩
  unfold UnstructuredPropertyListsUpdateIterator.getPageListHeadIdxOfChunk
  split_ifs with hnext
  · simp only [pure_eq_ok, ok_bind]
    change c = lists.chunkToPageListHeadIdxMap.working.length at hnext
    refine (hfirst _ ?_).mono (fun _ h ↦ h) fun r hr ↦ ⟨hnext.le, ?_⟩
    · show c < (lists.chunkToPageListHeadIdxMap.working ++ [none]).length
      rw [List.length_append, List.length_singleton]
      omega
    · obtain ⟨hsame, hheaders, hlength⟩ := hr
      refine ⟨⟨hsame.view, hsame.pageLists, hsame.numPages⟩, hheaders, hlength.trans ?_⟩
      show (lists.chunkToPageListHeadIdxMap.working ++ [none]).length = _
      rw [List.length_append, List.length_singleton]
      omega
  · change ¬ c = lists.chunkToPageListHeadIdxMap.working.length at hnext
    have hget := outcome_get (E := fun fault ↦
      NotChunkMap fault ∨ lists.chunkToPageListHeadIdxMap.working.length < c)
      lists.chunkToPageListHeadIdxMap .chunkToPageListHeadIdxMap c fun hge ↦ .inr (by omega)
    refine hget.bind fun head hhead ↦ ?_
    have hlt := (List.getElem?_eq_some_iff.mp hhead).1
    simp only [pure_eq_ok, ok_bind]
    cases head with
    | some head =>
        refine ⟨hlt.le, .refl lists, rfl, ?_⟩
        show lists.chunkToPageListHeadIdxMap.working.length = _
        omega
    | none =>
        refine (hfirst lists hlt).mono (fun _ h ↦ h) fun r hr ↦ ⟨hlt.le, hr.1, hr.2.1, ?_⟩
        rw [hr.2.2]
        omega

/-! ## Reading -/

theorem outcome_read {α : Type} {E : ListsFault → Prop} (a : ArrayVersions α) (name : ListsArray)
    (slack : α) (idx : ℕ) (hE : ¬ OnArrayPage a.committed.length idx → E (.outOfRange name)) :
    Outcome E (fun val ↦ val = a.committed.getD idx slack) (a.read name slack idx) := by
  unfold ArrayVersions.read
  split_ifs with hpage
  · rfl
  · exact hE hpage

theorem outcome_getPageIdxFromAPageList (lists : UnstructuredPropertyLists)
    (pageListHead : Option ℕ) (idxInPageList : ℕ) :
    Outcome NotChunkMap (fun _ ↦ True)
      (lists.getPageIdxFromAPageList pageListHead idxInPageList) := by
  have hfollow : ∀ (numGroups : ℕ) (head : Option ℕ),
      Outcome NotChunkMap (fun _ ↦ True) (lists.followPageGroups numGroups head) := by
    intro numGroups
    induction numGroups with
    | zero => exact fun _ ↦ trivial
    | succ numGroups ih =>
        rintro (- | head)
        · simp [followPageGroups, Outcome, NotChunkMap]
        · exact (outcome_read lists.pageLists .pageLists none _
            fun _ ↦ by simp [NotChunkMap]).bind fun next _ ↦ ih next
  refine (hfollow ..).bind fun group _ ↦ ?_
  cases group with
  | none => simp [Outcome, NotChunkMap]
  | some group =>
      exact (outcome_read lists.pageLists .pageLists none _ fun _ ↦ by simp [NotChunkMap]).mono
        (fun _ h ↦ h) fun _ _ ↦ trivial

theorem outcome_readFromPages (lists : UnstructuredPropertyLists) (pageListHead : Option ℕ)
    (fuel pageIdx posInPage remaining : ℕ) :
    Outcome NotChunkMap (fun data ↦ data.length ≤ remaining)
      (lists.readFromPages pageListHead fuel pageIdx posInPage remaining) := by
  induction fuel generalizing pageIdx posInPage remaining with
  | zero => exact Nat.zero_le _
  | succ fuel ih =>
      rw [readFromPages]
      split_ifs with hend
      · exact Nat.zero_le _
      · refine (outcome_getPageIdxFromAPageList ..).bind fun physicalPageIdx _ ↦ ?_
        have hpin : Outcome NotChunkMap (fun _ ↦ True) (lists.pin physicalPageIdx) := by
          unfold pin
          cases physicalPageIdx with
          | none => simp [Outcome, NotChunkMap]
          | some pageIdx =>
              simp only
              split_ifs with hlt
              · trivial
              · simp [Outcome, NotChunkMap]
        refine hpin.bind fun frame _ ↦ (ih ..).bind fun rest hrest ↦ ?_
        show (_ ++ rest).length ≤ remaining
        rw [List.length_append, List.length_map, List.length_range]
        omega

/-- A small list is at most as long as its header says, and only its chunk's entry is looked for. -/
theorem outcome_readList_of_small {o header : ℕ}
    (hheader : lists.headers.committed[o]? = some header)
    (hsmall : isALargeList header = false) :
    Outcome
      (fun fault ↦ NotChunkMap fault ∨
        ¬ OnArrayPage lists.chunkToPageListHeadIdxMap.committed.length (o / listsChunkSize))
      (fun data ↦ data.length ≤ getSmallListLen header ∧
        OnArrayPage lists.chunkToPageListHeadIdxMap.committed.length (o / listsChunkSize))
      (lists.readList o) := by
  have hread : lists.headers.read .headers 0 o = .ok header := read_eq_ok hheader
  simp only [readList, getListInfo, hread, ok_bind, hsmall, Bool.false_eq_true, if_false]
  by_cases hpage : OnArrayPage lists.chunkToPageListHeadIdxMap.committed.length (o / listsChunkSize)
  · simp only [read_of_onArrayPage hpage, ok_bind, pure_eq_ok]
    exact (outcome_readFromPages ..).mono (fun _ h ↦ .inl h) fun _ h ↦ ⟨h, hpage⟩
  · have hfail : lists.chunkToPageListHeadIdxMap.read .chunkToPageListHeadIdxMap none
        (o / listsChunkSize) = .error (.outOfRange .chunkToPageListHeadIdxMap) := if_neg hpage
    rw [hfail]
    exact .inr hpage

/-! ## Setting a list -/

/-- The header of a node has been set. -/
structure SetsHeader (nodeOffset header : ℕ) (lists lists' : UnstructuredPropertyLists) : Prop where
  same : SameCommitted lists lists'
  headers : lists'.headers.working = lists.headers.working.set nodeOffset header

end UnstructuredPropertyLists

namespace UnstructuredPropertyListsUpdateIterator

open UnstructuredPropertyLists

variable {itr : UnstructuredPropertyListsUpdateIterator} {c oldHeader : ℕ}

/-- Only the lists and the CSR offset are new. -/
def SamePlace (itr itr' : UnstructuredPropertyListsUpdateIterator) : Prop :=
  itr'.curChunkIdx = itr.curChunkIdx ∧ itr'.curUnprocessedNodeOffset = itr.curUnprocessedNodeOffset

/-- The number of entries of chunks once a small list of a chunk has been written. -/
def numEntriesAfter (lists : UnstructuredPropertyLists) (c : ℕ) (data : List UInt8) : ℕ :=
  if data = [] then lists.chunkToPageListHeadIdxMap.working.length
  else max lists.chunkToPageListHeadIdxMap.working.length (c + 1)

theorem outcome_updateSmallList (hchunk : itr.curChunkIdx.getD 0 = c)
    (hheader : itr.lists.headers.working[itr.curUnprocessedNodeOffset]? = some oldHeader)
    (data : List UInt8) :
    Outcome
      (fun fault ↦ NotChunkMap fault ∨
        data ≠ [] ∧ itr.lists.chunkToPageListHeadIdxMap.working.length < c)
      (fun itr' ↦ SamePlace itr itr' ∧
        SetsHeader itr.curUnprocessedNodeOffset (getSmallListHeader itr.curCSROffset data.length)
          itr.lists itr'.lists ∧
        itr'.lists.chunkToPageListHeadIdxMap.working.length = numEntriesAfter itr.lists c data ∧
        (data ≠ [] → c ≤ itr.lists.chunkToPageListHeadIdxMap.working.length))
      (itr.updateSmallListAndCurCSROffset oldHeader data) := by
  obtain ⟨hlt, hget⟩ := List.getElem?_eq_some_iff.mp hheader
  obtain ⟨lists₁, hlists₁⟩ : ∃ lists₁, lists₁ = itr.withSmallHeader data := ⟨_, rfl⟩
  have hset : SetsHeader itr.curUnprocessedNodeOffset
      (getSmallListHeader itr.curCSROffset data.length) itr.lists lists₁ := by
    rw [hlists₁]
    exact ⟨⟨rfl, rfl, le_rfl⟩, rfl⟩
  have hmap : lists₁.chunkToPageListHeadIdxMap = itr.lists.chunkToPageListHeadIdxMap := by
    rw [hlists₁]
    rfl
  rw [updateSmallList_eq hheader data, ← hlists₁, hchunk]
  split_ifs with hnil
  · refine ⟨⟨rfl, rfl⟩, hset, ?_, fun h ↦ absurd hnil h⟩
    rw [numEntriesAfter, if_pos hnil, ← hmap]
  · have hentry := outcome_getPageListHeadIdxOfChunk lists₁ c
    rw [hmap] at hentry
    refine (hentry.mono (fun _ h ↦ h.imp id fun h ↦ ⟨hnil, h⟩) fun _ h ↦ h).bind fun r hr ↦ ?_
    obtain ⟨hle, hgives⟩ := hr
    refine ((outcome_writeListToListPages ..).mono (fun _ h ↦ .inl h) fun _ h ↦ h).bind
      fun lists' hwrites ↦ ?_
    refine ⟨⟨rfl, rfl⟩, ⟨(hset.same.trans hgives.same).trans hwrites.sameCommitted, ?_⟩, ?_,
      fun _ ↦ hle⟩
    · show lists'.headers.working = _
      rw [hwrites.headers, hgives.headers, hset.headers]
    · show lists'.chunkToPageListHeadIdxMap.working.length = _
      rw [hwrites.chunkMap, hgives.chunkMap, hmap, numEntriesAfter, if_neg hnil]

/-- A list written as a large one keeps or gets the header of a large list. -/
theorem outcome_updateLargeList
    (hheader : itr.lists.headers.working[itr.curUnprocessedNodeOffset]? = some oldHeader)
    (data : List UInt8) :
    Outcome NotChunkMap
      (fun itr' ↦ SamePlace itr itr' ∧
        (∃ header, isALargeList header ∧
          SetsHeader itr.curUnprocessedNodeOffset header itr.lists itr'.lists) ∧
        itr'.lists.chunkToPageListHeadIdxMap = itr.lists.chunkToPageListHeadIdxMap)
      (itr.updateLargeList oldHeader data) := by
  obtain ⟨hlt, hget⟩ := List.getElem?_eq_some_iff.mp hheader
  -- What is left to do once the list has its place in the map.
  have hfinish : ∀ (largeListIdx header : ℕ) (head : Option ℕ) (lists : UnstructuredPropertyLists),
      isALargeList header → SetsHeader itr.curUnprocessedNodeOffset header itr.lists lists →
      lists.chunkToPageListHeadIdxMap = itr.lists.chunkToPageListHeadIdxMap →
      Outcome NotChunkMap
        (fun itr' ↦ SamePlace itr itr' ∧
          (∃ header, isALargeList header ∧
            SetsHeader itr.curUnprocessedNodeOffset header itr.lists itr'.lists) ∧
          itr'.lists.chunkToPageListHeadIdxMap = itr.lists.chunkToPageListHeadIdxMap)
        (do
          let map ← lists.largeListIdxToPageListHeadIdxMap.update .largeListIdxToPageListHeadIdxMap
            (2 * largeListIdx + 1) (some data.length)
          let lists := { lists with largeListIdxToPageListHeadIdxMap := map }
          let lists ← lists.writeListToListPages data head 0
          return { itr with lists := lists }) := by
    intro largeListIdx header head lists hlarge hset hmap
    refine (outcome_update _ .largeListIdxToPageListHeadIdxMap _ _
      fun _ ↦ by simp [NotChunkMap]).bind fun map hlargeMap ↦ ?_
    obtain ⟨rfl, -⟩ := hlargeMap
    refine (outcome_writeListToListPages ..).bind fun lists' hwrites ↦ ?_
    have hsame := hwrites.sameCommitted
    refine ⟨⟨rfl, rfl⟩, ⟨header, hlarge, hset.same.trans ⟨hsame.view, hsame.pageLists,
      hsame.numPages⟩, ?_⟩, hwrites.chunkMap.trans hmap⟩
    show lists'.headers.working = _
    rw [hwrites.headers]
    exact hset.headers
  unfold updateLargeList
  cases hlarge : isALargeList oldHeader with
  | true =>
      simp only [if_true]
      refine (outcome_read itr.lists.largeListIdxToPageListHeadIdxMap
        .largeListIdxToPageListHeadIdxMap none _ fun _ ↦ by simp [NotChunkMap]).bind
        fun head _ ↦ ?_
      refine hfinish _ oldHeader head itr.lists hlarge ⟨.refl _, ?_⟩ rfl
      rw [← hget, List.set_getElem_self]
  | false =>
      simp only [Bool.false_eq_true, if_false]
      refine (outcome_update itr.lists.headers .headers _ _ fun _ ↦ by simp [NotChunkMap]).bind
        fun headers hheaders ↦ ?_
      obtain ⟨rfl, -⟩ := hheaders
      refine (outcome_insertNewPageGroup_largeList ..).bind fun r hr ↦ ?_
      obtain ⟨hsame, hheaders, hmap⟩ := hr
      have hset : SetsHeader itr.curUnprocessedNodeOffset
          (getLargeListHeader (itr.lists.largeListIdxToPageListHeadIdxMap.getNumElements / 2))
          itr.lists r.2 :=
        ⟨⟨hsame.view, hsame.pageLists, hsame.numPages⟩, congrArg ArrayVersions.working hheaders⟩
      exact hfinish _ _ (some r.1) r.2 (isALargeList_getLargeListHeader _) hset hmap

end UnstructuredPropertyListsUpdateIterator

/-! ## A commit -/

open UnstructuredPropertyLists UnstructuredPropertyListsUpdateIterator

variable {lists₀ : UnstructuredPropertyLists} {done rest updatedLists : List (ℕ × List UInt8)}
  {x : ℕ × List UInt8} {itr : UnstructuredPropertyListsUpdateIterator} {o c : ℕ}

/-- What has come of some updated lists, as far as the headers and the entries of the chunks
tell. -/
structure Progress (lists₀ : UnstructuredPropertyLists) (done : List (ℕ × List UInt8))
    (itr : UnstructuredPropertyListsUpdateIterator) : Prop where
  same : SameCommitted lists₀ itr.lists
  length : itr.lists.headers.working.length =
    max lists₀.headers.committed.length itr.curUnprocessedNodeOffset
  old : ∀ n, itr.curUnprocessedNodeOffset ≤ n → n < lists₀.headers.committed.length →
    itr.lists.headers.working[n]? = lists₀.headers.committed[n]?
  chunks : lists₀.chunkToPageListHeadIdxMap.committed.length ≤
    itr.lists.chunkToPageListHeadIdxMap.working.length
  entries : ∀ e < itr.lists.chunkToPageListHeadIdxMap.working.length, GetsEntry lists₀ done e
  put : ∀ y ∈ done, NeedsEntry lists₀ y.1 y.2 →
    y.1 / listsChunkSize < itr.lists.chunkToPageListHeadIdxMap.working.length
  behind : ∀ y ∈ done, y.1 < itr.curUnprocessedNodeOffset
  /-- Lists that fit into a page have small headers, unless they were large before. -/
  headers : ∀ y ∈ done, y.2.length ≤ defaultPageSize →
    (∀ header, lists₀.headers.committed[y.1]? = some header → isALargeList header = false) →
      ∃ csrOffset, itr.lists.headers.working[y.1]? =
        some (getSmallListHeader csrOffset y.2.length)

/-- No list that is slid wants an entry for its chunk. -/
def SlidesWithEntries (lists₀ : UnstructuredPropertyLists) : Prop :=
  ∀ (lists : UnstructuredPropertyLists) (n header : ℕ), SameCommitted lists₀ lists →
    lists₀.headers.committed[n]? = some header → isALargeList header = false →
      Outcome NotChunkMap (fun data ↦ data ≠ [] →
        n / listsChunkSize < lists₀.chunkToPageListHeadIdxMap.committed.length) (lists.readList n)

/-- A list that wants an entry in vain. -/
def WantsEntry (lists₀ : UnstructuredPropertyLists) (updatedLists : List (ℕ × List UInt8)) :
    Prop :=
  ∃ x ∈ updatedLists, NeedsEntry lists₀ x.1 x.2 ∧
    ∃ c < x.1 / listsChunkSize, ¬ GetsEntry lists₀ updatedLists c

namespace Progress

/-- The header of the current node has been set. -/
theorem set {itr' : UnstructuredPropertyListsUpdateIterator} {header : ℕ}
    (h : Progress lists₀ done itr)
    (hcur : itr.curUnprocessedNodeOffset < lists₀.headers.committed.length)
    (hset : SetsHeader itr.curUnprocessedNodeOffset header itr.lists itr'.lists)
    (hmap : itr'.lists.chunkToPageListHeadIdxMap.working.length =
      itr.lists.chunkToPageListHeadIdxMap.working.length) :
    Progress lists₀ done
      { itr' with curUnprocessedNodeOffset := itr.curUnprocessedNodeOffset + 1 } where
  same := h.same.trans hset.same
  length := by
    have hlength := h.length
    show itr'.lists.headers.working.length = max _ (itr.curUnprocessedNodeOffset + 1)
    rw [hset.headers, List.length_set]
    omega
  old := by
    intro n hn hold
    change itr.curUnprocessedNodeOffset + 1 ≤ n at hn
    show itr'.lists.headers.working[n]? = _
    rw [hset.headers, List.getElem?_set_ne (by omega), h.old n (by omega) hold]
  chunks := hmap ▸ h.chunks
  entries := by
    intro e he
    change e < itr'.lists.chunkToPageListHeadIdxMap.working.length at he
    exact h.entries e (hmap ▸ he)
  put := by
    intro y hy hneeds
    show _ < itr'.lists.chunkToPageListHeadIdxMap.working.length
    rw [hmap]
    exact h.put y hy hneeds
  behind := fun y hy ↦ (h.behind y hy).trans (Nat.lt_succ_self _)
  headers := by
    intro y hy hpage hkind
    obtain ⟨csrOffset, hheader⟩ := h.headers y hy hpage hkind
    refine ⟨csrOffset, ?_⟩
    show itr'.lists.headers.working[y.1]? = _
    rw [hset.headers, List.getElem?_set_ne (h.behind y hy).ne', hheader]

theorem outcome_slideList (hslides : SlidesWithEntries lists₀) (h : Progress lists₀ done itr)
    (hold : itr.curUnprocessedNodeOffset < lists₀.headers.committed.length)
    (hchunk : itr.curChunkIdx = some (itr.curUnprocessedNodeOffset / listsChunkSize)) :
    Outcome NotChunkMap
      (fun itr' ↦ Progress lists₀ done itr' ∧ itr'.curChunkIdx = itr.curChunkIdx ∧
        itr'.curUnprocessedNodeOffset = itr.curUnprocessedNodeOffset + 1)
      itr.slideList := by
  obtain ⟨header, hget₀⟩ : ∃ header,
      lists₀.headers.committed[itr.curUnprocessedNodeOffset]? = some header :=
    ⟨_, List.getElem?_eq_getElem hold⟩
  have hget := (h.old _ le_rfl hold).trans hget₀
  have hcommitted : itr.lists.headers.committed = lists₀.headers.committed :=
    congrArg ListsView.headers h.same.view
  have hread : itr.lists.headers.read .headers 0 itr.curUnprocessedNodeOffset = .ok header :=
    read_eq_ok (hcommitted ▸ hget₀)
  have hself : SetsHeader itr.curUnprocessedNodeOffset header itr.lists itr.lists := by
    obtain ⟨hlt, hheader⟩ := List.getElem?_eq_some_iff.mp hget
    exact ⟨.refl _, by rw [← hheader, List.set_getElem_self]⟩
  unfold slideList
  simp only [hread, ok_bind]
  cases hlarge : isALargeList header with
  | true =>
      simp only [if_true, pure_eq_ok, ok_bind]
      exact ⟨h.set hold hself rfl, rfl, rfl⟩
  | false =>
      simp only [Bool.false_eq_true, if_false]
      split_ifs with hmoved
      · refine (hslides itr.lists _ header h.same hget₀ hlarge).bind fun list hentry ↦ ?_
        have hstep : Outcome NotChunkMap
            (fun itr' ↦ SamePlace itr itr' ∧ Progress lists₀ done
              { itr' with curUnprocessedNodeOffset := itr.curUnprocessedNodeOffset + 1 })
            (itr.updateSmallListAndCurCSROffset header list) := by
          have hchunks := h.chunks
          refine (outcome_updateSmallList (by rw [hchunk, Option.getD_some]) hget list).mono ?_ ?_
          · rintro fault (hfault | ⟨hnil, hlt⟩)
            · exact hfault
            · have hlt' := hentry hnil
              omega
          · rintro itr' ⟨hplace, hset, hmap, -⟩
            refine ⟨hplace, h.set hold hset ?_⟩
            rw [hmap, numEntriesAfter]
            split_ifs with hnil
            · rfl
            · have hlt := hentry hnil
              omega
        refine hstep.bind fun itr' h' ↦ ?_
        obtain ⟨⟨hchunk', hcur'⟩, h'⟩ := h'
        rw [← hcur'] at h' ⊢
        exact ⟨h', hchunk', rfl⟩
      · exact ⟨h.set hold hself rfl, rfl, rfl⟩

theorem outcome_slideLists {n : ℕ} (hslides : SlidesWithEntries lists₀)
    (h : Progress lists₀ done itr) (hchunk : itr.curChunkIdx = some c)
    (hold : n = 0 ∨ itr.curUnprocessedNodeOffset + n ≤ lists₀.headers.committed.length)
    (hlower : c * listsChunkSize ≤ itr.curUnprocessedNodeOffset)
    (hupper : itr.curUnprocessedNodeOffset + n ≤ (c + 1) * listsChunkSize) :
    Outcome NotChunkMap
      (fun itr' ↦ Progress lists₀ done itr' ∧ itr'.curChunkIdx = some c ∧
        itr'.curUnprocessedNodeOffset = itr.curUnprocessedNodeOffset + n)
      (slideLists n itr) := by
  induction n generalizing itr with
  | zero => exact ⟨h, hchunk, rfl⟩
  | succ n ih =>
      have hdiv : itr.curUnprocessedNodeOffset / listsChunkSize = c := by
        simp only [listsChunkSize] at hlower hupper ⊢
        omega
      refine (h.outcome_slideList hslides (by omega) (hdiv ▸ hchunk)).bind fun itr₁ h₁ ↦ ?_
      obtain ⟨h₁, hchunk₁, hcur₁⟩ := h₁
      refine (ih h₁ (hchunk₁.trans hchunk) (by omega) (by omega) (by omega)).mono (fun _ h ↦ h) ?_
      rintro itr' ⟨h', hchunk', hcur'⟩
      exact ⟨h', hchunk', by omega⟩

theorem outcome_slideListsIfNecessary (hslides : SlidesWithEntries lists₀)
    (h : Progress lists₀ done itr) (hchunk : itr.curChunkIdx = some c) (hpos : 0 < o)
    (hle : itr.curUnprocessedNodeOffset ≤ o)
    (hold : o = itr.curUnprocessedNodeOffset ∨ o ≤ lists₀.headers.committed.length)
    (hlower : c * listsChunkSize ≤ itr.curUnprocessedNodeOffset)
    (hupper : o ≤ (c + 1) * listsChunkSize) :
    Outcome NotChunkMap
      (fun itr' ↦ Progress lists₀ done itr' ∧ itr'.curChunkIdx = some c ∧
        itr'.curUnprocessedNodeOffset = o)
      (itr.slideListsIfNecessary (o - 1)) := by
  obtain ⟨n, hn⟩ : ∃ n, n = o - 1 + 1 - itr.curUnprocessedNodeOffset := ⟨_, rfl⟩
  rw [slideListsIfNecessary, ← hn]
  refine (h.outcome_slideLists hslides hchunk (by omega) hlower (by omega)).mono (fun _ h ↦ h) ?_
  rintro itr' ⟨h', hchunk', hcur'⟩
  exact ⟨h', hchunk', by omega⟩

/-- The way to a node of the chunk. -/
theorem outcome_slideTo (hslides : SlidesWithEntries lists₀) (h : Progress lists₀ done itr)
    (hchunk : itr.curChunkIdx = some (o / listsChunkSize))
    (hle : itr.curUnprocessedNodeOffset ≤ o)
    (hold : o = itr.curUnprocessedNodeOffset ∨ o ≤ lists₀.headers.committed.length)
    (hlower : o / listsChunkSize * listsChunkSize ≤ itr.curUnprocessedNodeOffset) :
    Outcome NotChunkMap
      (fun itr' ↦ Progress lists₀ done itr' ∧ itr'.curChunkIdx = some (o / listsChunkSize) ∧
        itr'.curUnprocessedNodeOffset = o)
      (if 0 < o then itr.slideListsIfNecessary (o - 1) else pure itr) := by
  split_ifs with hpos
  · refine h.outcome_slideListsIfNecessary hslides hchunk hpos hle hold hlower ?_
    simp only [listsChunkSize]
    omega
  · exact ⟨h, hchunk, by omega⟩

theorem seekToBeginningOfChunkIdx (h : Progress lists₀ done itr)
    (hle : itr.curUnprocessedNodeOffset ≤ c * listsChunkSize)
    (hold : c * listsChunkSize = itr.curUnprocessedNodeOffset ∨
      c * listsChunkSize ≤ lists₀.headers.committed.length) :
    Progress lists₀ done (itr.seekToBeginningOfChunkIdx c) where
  same := h.same
  length := by
    have hlength := h.length
    show itr.lists.headers.working.length = max _ (c * listsChunkSize)
    omega
  old := fun n hn ↦ h.old n (hle.trans hn)
  chunks := h.chunks
  entries := h.entries
  put := h.put
  behind := fun y hy ↦ (h.behind y hy).trans_le hle
  headers := h.headers

/-- The first chunk. -/
theorem init (hsynced : lists₀.checkpoint = lists₀)
    (hle : c * listsChunkSize ≤ lists₀.headers.committed.length) :
    Progress lists₀ []
      (UnstructuredPropertyListsUpdateIterator.seekToBeginningOfChunkIdx
        { lists := lists₀ } c) := by
  have hheaders : lists₀.headers.working = lists₀.headers.committed :=
    congrArg (fun lists ↦ lists.headers.committed) hsynced
  have hmap : lists₀.chunkToPageListHeadIdxMap.working =
      lists₀.chunkToPageListHeadIdxMap.committed :=
    congrArg (fun lists ↦ lists.chunkToPageListHeadIdxMap.committed) hsynced
  exact {
    same := .refl lists₀
    length := by
      show lists₀.headers.working.length = max _ (c * listsChunkSize)
      rw [hheaders]
      omega
    old := fun n _ _ ↦ congrArg (·[n]?) hheaders
    chunks := (congrArg List.length hmap).ge
    entries := fun e he ↦ .inl (hmap ▸ he)
    put := fun y hy ↦ absurd hy List.not_mem_nil
    behind := fun y hy ↦ absurd hy List.not_mem_nil
    headers := fun y hy ↦ absurd hy List.not_mem_nil }

theorem outcome_seek (hslides : SlidesWithEntries lists₀) (h : Progress lists₀ done itr)
    (hchunk : itr.curChunkIdx = some c) (hlower : c * listsChunkSize ≤ itr.curUnprocessedNodeOffset)
    (hupper : itr.curUnprocessedNodeOffset ≤ (c + 1) * listsChunkSize)
    (hle : itr.curUnprocessedNodeOffset ≤ o)
    (hold : o = itr.curUnprocessedNodeOffset ∨ o ≤ lists₀.headers.committed.length) :
    Outcome NotChunkMap
      (fun itr' ↦ Progress lists₀ done itr' ∧ itr'.curChunkIdx = some (o / listsChunkSize) ∧
        itr'.curUnprocessedNodeOffset = o)
      (itr.seekToNodeOffsetAndSlideListsIfNecessary o) := by
  unfold seekToNodeOffsetAndSlideListsIfNecessary
  simp only [hchunk]
  by_cases hc : c = o / listsChunkSize
  · simp only [ne_eq, hc, not_true_eq_false, if_false, pure_eq_ok, ok_bind]
    exact h.outcome_slideTo hslides (hc ▸ hchunk) hle hold (hc ▸ hlower)
  · have hge : c ≤ o / listsChunkSize :=
      (Nat.le_div_iff_mul_le (by decide)).mpr (hlower.trans hle)
    have hbehind : (c + 1) * listsChunkSize ≤ o :=
      (Nat.le_div_iff_mul_le (by decide)).mp (Nat.succ_le_of_lt (lt_of_le_of_ne hge hc))
    simp only [ne_eq, hc, not_false_eq_true, if_true]
    refine (h.outcome_slideListsIfNecessary (o := (c + 1) * listsChunkSize) hslides hchunk
      (by simp [listsChunkSize]) hupper (by omega) hlower le_rfl).bind fun itr₁ h₁ ↦ ?_
    obtain ⟨h₁, -, hcur₁⟩ := h₁
    have hmul : (c + 1) * listsChunkSize ≤ o / listsChunkSize * listsChunkSize :=
      Nat.mul_le_mul_right _ (Nat.succ_le_of_lt (lt_of_le_of_ne hge hc))
    have hdiv := Nat.div_mul_le_self o listsChunkSize
    have h₂ := h₁.seekToBeginningOfChunkIdx (c := o / listsChunkSize) (by omega) (by omega)
    refine h₂.outcome_slideTo hslides rfl hdiv ?_ le_rfl
    show o = o / listsChunkSize * listsChunkSize ∨ _
    omega

/-- One more list has been updated. -/
theorem concat {itr' : UnstructuredPropertyListsUpdateIterator} (h : Progress lists₀ done itr)
    (hcur : itr.curUnprocessedNodeOffset = x.1) (hsame : SameCommitted itr.lists itr'.lists)
    (hlength : itr'.lists.headers.working.length =
      max lists₀.headers.committed.length (x.1 + 1))
    (hothers : ∀ n, n ≠ x.1 →
      itr'.lists.headers.working[n]? = itr.lists.headers.working[n]?)
    (hmap : itr.lists.chunkToPageListHeadIdxMap.working.length ≤
      itr'.lists.chunkToPageListHeadIdxMap.working.length)
    (hentry : ∀ e, itr.lists.chunkToPageListHeadIdxMap.working.length ≤ e →
      e < itr'.lists.chunkToPageListHeadIdxMap.working.length →
        NeedsEntry lists₀ x.1 x.2 ∧ x.1 / listsChunkSize = e)
    (hput : NeedsEntry lists₀ x.1 x.2 →
      x.1 / listsChunkSize < itr'.lists.chunkToPageListHeadIdxMap.working.length)
    (hheader : x.2.length ≤ defaultPageSize →
      (∀ header, lists₀.headers.committed[x.1]? = some header → isALargeList header = false) →
        ∃ csrOffset, itr'.lists.headers.working[x.1]? =
          some (getSmallListHeader csrOffset x.2.length)) :
    Progress lists₀ (done ++ [x]) { itr' with curUnprocessedNodeOffset := x.1 + 1 } where
  same := h.same.trans hsame
  length := hlength
  old := by
    intro n hn hold
    change x.1 + 1 ≤ n at hn
    exact (hothers n (by omega)).trans (h.old n (by omega) hold)
  chunks := h.chunks.trans hmap
  entries := by
    intro e he
    by_cases hlt : e < itr.lists.chunkToPageListHeadIdxMap.working.length
    · exact (h.entries e hlt).imp id fun ⟨y, hy, hneeds⟩ ↦ ⟨y, List.mem_append_left _ hy, hneeds⟩
    · exact .inr ⟨x, by simp, hentry e (Nat.le_of_not_lt hlt) he⟩
  put := by
    intro y hy hneeds
    rcases List.mem_append.mp hy with hy | hy
    · exact (h.put y hy hneeds).trans_le hmap
    · obtain rfl := List.mem_singleton.mp hy
      exact hput hneeds
  behind := by
    intro y hy
    show y.1 < x.1 + 1
    rcases List.mem_append.mp hy with hy | hy
    · have hlt := h.behind y hy
      omega
    · rw [List.mem_singleton.mp hy]
      exact Nat.lt_succ_self _
  headers := by
    intro y hy hpage hkind
    rcases List.mem_append.mp hy with hy | hy
    · obtain ⟨csrOffset, hheader'⟩ := h.headers y hy hpage hkind
      have hlt := h.behind y hy
      exact ⟨csrOffset, (hothers y.1 (by omega)).trans hheader'⟩
    · obtain rfl := List.mem_singleton.mp hy
      exact hheader hpage hkind

/-- The chunks in front of the next list have all entries that they get. -/
theorem wantsEntry_of_lt
    (horder : InOrder lists₀.headers.committed.length (done ++ x :: rest))
    (h : Progress lists₀ done itr) (hneeds : NeedsEntry lists₀ x.1 x.2)
    (hlt : itr.lists.chunkToPageListHeadIdxMap.working.length < x.1 / listsChunkSize) :
    WantsEntry lists₀ (done ++ x :: rest) := by
  refine ⟨x, by simp, hneeds, _, hlt, ?_⟩
  rintro (hold | ⟨y, hy, hneeds', hchunk⟩)
  · exact absurd (hold.trans_le h.chunks) (lt_irrefl _)
  · have hbefore : y.1 < x.1 := by
      by_contra hge
      have hdiv := Nat.div_le_div_right (c := listsChunkSize) (Nat.le_of_not_lt hge)
      omega
    have hput := h.put y (horder.mem_done_of_lt hy hbefore) hneeds'
    omega

theorem outcome_updateList {itr₀ : UnstructuredPropertyListsUpdateIterator}
    (horder : InOrder lists₀.headers.committed.length (done ++ x :: rest))
    (hseek : Outcome NotChunkMap
      (fun itr ↦ Progress lists₀ done itr ∧ itr.curChunkIdx = some (x.1 / listsChunkSize) ∧
        itr.curUnprocessedNodeOffset = x.1)
      (itr₀.seekToNodeOffsetAndSlideListsIfNecessary x.1)) :
    Outcome (fun fault ↦ NotChunkMap fault ∨ WantsEntry lists₀ (done ++ x :: rest))
      (fun itr' ↦ Progress lists₀ (done ++ [x]) itr' ∧
        itr'.curChunkIdx = some (x.1 / listsChunkSize) ∧
        itr'.curUnprocessedNodeOffset = x.1 + 1)
      (itr₀.updateList x.1 x.2) := by
  unfold updateList
  refine (hseek.mono (fun _ h ↦ .inl h) fun _ h ↦ h).bind fun itr hitr ↦ ?_
  obtain ⟨h, hchunk, hcur⟩ := hitr
  have hlength := h.length
  rw [hcur] at hlength
  -- The rest of the step, for the header that the node has or gets.
  have hfinish : ∀ (itr₁ : UnstructuredPropertyListsUpdateIterator) (header : ℕ),
      SamePlace itr itr₁ → SameCommitted itr.lists itr₁.lists →
      itr₁.lists.headers.working.length = max lists₀.headers.committed.length (x.1 + 1) →
      (∀ n, n ≠ x.1 → itr₁.lists.headers.working[n]? = itr.lists.headers.working[n]?) →
      itr₁.lists.chunkToPageListHeadIdxMap = itr.lists.chunkToPageListHeadIdxMap →
      itr₁.lists.headers.working[x.1]? = some header →
      (isALargeList header → lists₀.headers.committed[x.1]? = some header) →
      (∀ header', lists₀.headers.committed[x.1]? = some header' → header' = header) →
      Outcome (fun fault ↦ NotChunkMap fault ∨ WantsEntry lists₀ (done ++ x :: rest))
        (fun itr' ↦ Progress lists₀ (done ++ [x]) itr' ∧
          itr'.curChunkIdx = some (x.1 / listsChunkSize) ∧
          itr'.curUnprocessedNodeOffset = x.1 + 1)
        (do
          let itr ←
            if isALargeList header ∨ defaultPageSize < x.2.length then
              itr₁.updateLargeList header x.2
            else itr₁.updateSmallListAndCurCSROffset header x.2
          return { itr with curUnprocessedNodeOffset := itr.curUnprocessedNodeOffset + 1 }) := by
    intro itr₁ header hplace hsame hlength₁ hothers hmap hget hold heq
    have hcur₁ : itr₁.curUnprocessedNodeOffset = x.1 := hplace.2.trans hcur
    rw [← hcur₁] at hget
    by_cases hlarge : isALargeList header ∨ defaultPageSize < x.2.length
    · simp only [if_pos hlarge]
      refine ((outcome_updateLargeList hget x.2).mono (fun _ h ↦ .inl h) fun _ h ↦ h).bind
        fun itr' hitr' ↦ ?_
      obtain ⟨hplace', ⟨header', -, hset⟩, hmap'⟩ := hitr'
      rw [hcur₁] at hset
      have hcur' : itr'.curUnprocessedNodeOffset = x.1 := hplace'.2.trans hcur₁
      have hnot : ¬ NeedsEntry lists₀ x.1 x.2 := by
        rintro ⟨-, hpage, hkind⟩
        rcases hlarge with hl | hlong
        · have hsmall := hkind header (hold hl)
          rw [hl] at hsmall
          exact absurd hsmall (by decide)
        · omega
      have hentries : itr'.lists.chunkToPageListHeadIdxMap = itr.lists.chunkToPageListHeadIdxMap :=
        hmap'.trans hmap
      rw [hcur']
      refine ⟨h.concat hcur (hsame.trans hset.same) ?_ ?_ ?_ ?_ ?_ ?_,
        hplace'.1.trans (hplace.1.trans hchunk), rfl⟩
      · rw [hset.headers, List.length_set, hlength₁]
      · intro n hn
        rw [hset.headers, List.getElem?_set_ne (Ne.symm hn), hothers n hn]
      · rw [hentries]
      · intro e hge hlt
        rw [hentries] at hlt
        omega
      · exact fun hneeds ↦ absurd hneeds hnot
      · intro hpage hkind
        rcases hlarge with hl | hlong
        · have hsmall := hkind header (hold hl)
          rw [hl] at hsmall
          exact absurd hsmall (by decide)
        · omega
    · simp only [if_neg hlarge]
      rw [not_or, Bool.not_eq_true] at hlarge
      have hkind : ∀ header', lists₀.headers.committed[x.1]? = some header' →
          isALargeList header' = false := by
        intro header' hheader'
        rw [heq header' hheader', hlarge.1]
      have hneeds : x.2 ≠ [] → NeedsEntry lists₀ x.1 x.2 :=
        fun hnil ↦ ⟨hnil, Nat.le_of_not_lt hlarge.2, hkind⟩
      refine ((outcome_updateSmallList
        (by rw [hplace.1.trans hchunk, Option.getD_some]) hget x.2).mono ?_ fun _ h ↦ h).bind
          fun itr' hitr' ↦ ?_
      · rintro fault (hfault | ⟨hnil, hlt⟩)
        · exact .inl hfault
        · exact .inr (h.wantsEntry_of_lt horder (hneeds hnil) (hmap ▸ hlt))
      · obtain ⟨hplace', hset, hnum, hreached⟩ := hitr'
        rw [hcur₁] at hset
        have hcur' : itr'.curUnprocessedNodeOffset = x.1 := hplace'.2.trans hcur₁
        rw [numEntriesAfter, hmap] at hnum
        rw [hmap] at hreached
        rw [hcur']
        refine ⟨h.concat hcur (hsame.trans hset.same) ?_ ?_ ?_ ?_ ?_ ?_,
          hplace'.1.trans (hplace.1.trans hchunk), rfl⟩
        · rw [hset.headers, List.length_set, hlength₁]
        · intro n hn
          rw [hset.headers, List.getElem?_set_ne (Ne.symm hn), hothers n hn]
        · split_ifs at hnum with hnil <;> omega
        · intro e hge hlt
          split_ifs at hnum with hnil
          · omega
          · have hle := hreached hnil
            exact ⟨hneeds hnil, by omega⟩
        · intro hneeds'
          rw [if_neg hneeds'.1] at hnum
          omega
        · intro _ _
          refine ⟨itr₁.curCSROffset, ?_⟩
          rw [hset.headers, List.getElem?_set_self (by omega)]
  by_cases hold : x.1 < lists₀.headers.committed.length
  · obtain ⟨header, hget₀⟩ : ∃ header, lists₀.headers.committed[x.1]? = some header :=
      ⟨_, List.getElem?_eq_getElem hold⟩
    have hget := (h.old x.1 hcur.le hold).trans hget₀
    have hbehind : ¬ itr.lists.headers.getNumElements < x.1 := by
      show ¬ itr.lists.headers.working.length < _
      omega
    have hne : x.1 ≠ itr.lists.headers.getNumElements := by
      show _ ≠ itr.lists.headers.working.length
      omega
    have hheader : itr.lists.headers.get .headers itr.curUnprocessedNodeOffset = .ok header := by
      rw [ArrayVersions.get, hcur, hget]
    simp only [if_neg hbehind, if_neg hne, hheader, pure_eq_ok, ok_bind]
    exact hfinish itr header ⟨rfl, rfl⟩ (.refl _) (by omega) (fun _ _ ↦ rfl) rfl hget
      (fun _ ↦ hget₀)
      fun header' hheader' ↦ Option.some.inj (hheader'.symm.trans hget₀)
  · have hnum : itr.lists.headers.working.length = x.1 := by omega
    have heq : x.1 = itr.lists.headers.getNumElements := hnum.symm
    have hbehind : ¬ itr.lists.headers.getNumElements < x.1 := heq.not_gt
    simp only [if_neg hbehind, if_pos heq, pure_eq_ok, ok_bind]
    refine hfinish _ (getSmallListHeader 0 0) ⟨rfl, rfl⟩ ⟨rfl, rfl, le_rfl⟩ ?_ ?_ rfl ?_
      (fun hl ↦ absurd hl (by decide))
      fun header' hheader' ↦ absurd (List.getElem?_eq_some_iff.mp hheader').1 hold
    · show (itr.lists.headers.working ++ [0]).length = _
      rw [List.length_append, List.length_singleton]
      omega
    · intro n hn
      show (itr.lists.headers.working ++ [0])[n]? = _
      by_cases hlt : n < x.1
      · exact List.getElem?_append_left (hnum ▸ hlt)
      · rw [List.getElem?_eq_none (by simp; omega), List.getElem?_eq_none (by omega)]
    · show (itr.lists.headers.working ++ [0])[x.1]? = some 0
      rw [← hnum, List.getElem?_concat_length]

end Progress

/-- The state of the iterator after some of the updated lists, if it gets there. -/
def After (lists₀ : UnstructuredPropertyLists) (done : List (ℕ × List UInt8))
    (itr : UnstructuredPropertyListsUpdateIterator) : Prop :=
  match done.getLast? with
  | none => itr = { lists := lists₀ }
  | some y => Progress lists₀ done itr ∧ itr.curChunkIdx = some (y.1 / listsChunkSize) ∧
      itr.curUnprocessedNodeOffset = y.1 + 1

section Run

variable (hsynced : lists₀.checkpoint = lists₀) (hslides : SlidesWithEntries lists₀)
include hsynced hslides

theorem After.outcome_seek (horder : InOrder lists₀.headers.committed.length (done ++ x :: rest))
    (h : After lists₀ done itr) :
    Outcome NotChunkMap
      (fun itr ↦ Progress lists₀ done itr ∧ itr.curChunkIdx = some (x.1 / listsChunkSize) ∧
        itr.curUnprocessedNodeOffset = x.1)
      (itr.seekToNodeOffsetAndSlideListsIfNecessary x.1) := by
  unfold After at h
  split at h
  next hlast =>
    obtain rfl := List.getLast?_eq_none_iff.mp hlast
    have hold := horder.first_le
    have hdiv := Nat.div_mul_le_self x.1 listsChunkSize
    rw [h]
    exact (Progress.init hsynced (hdiv.trans hold)).outcome_slideTo hslides rfl hdiv
      (.inr hold) le_rfl
  next y hlast =>
    obtain ⟨h, hchunk, hcur⟩ := h
    have hnext := horder.next_le hlast
    have hlt := horder.lt_of_mem_done (List.mem_of_getLast? hlast)
    refine h.outcome_seek hslides hchunk ?_ ?_ (by omega) (by omega)
    · have hdiv := Nat.div_mul_le_self y.1 listsChunkSize
      omega
    · rw [hcur]
      simp only [listsChunkSize]
      omega

theorem outcome_updateLists
    (horder : InOrder lists₀.headers.committed.length (updatedLists ++ rest)) :
    Outcome (fun fault ↦ NotChunkMap fault ∨ WantsEntry lists₀ (updatedLists ++ rest))
      (After lists₀ updatedLists)
      (updatedLists.foldlM (fun (itr : UnstructuredPropertyListsUpdateIterator) list ↦
        itr.updateList list.1 list.2) { lists := lists₀ }) := by
  refine Outcome.foldlM (After lists₀) rfl fun done x rest' itr heq hitr ↦ ?_
  rw [heq, List.append_assoc, List.cons_append] at horder ⊢
  refine (Progress.outcome_updateList horder
    (hitr.outcome_seek hsynced hslides horder)).mono (fun _ h ↦ h) fun itr' hitr' ↦ ?_
  rw [After, List.getLast?_concat]
  exact hitr'

/-- What is known of a commit that goes through, and that one fails for want of an entry only if
the entry of a chunk in front of a list has not been made. -/
theorem outcome_prepareCommit (horder : InOrder lists₀.headers.committed.length updatedLists) :
    Outcome (fun fault ↦ NotChunkMap fault ∨ WantsEntry lists₀ updatedLists)
      (fun lists' ↦ updatedLists = [] ∧ lists' = lists₀ ∨
        ∃ itr, itr.lists = lists' ∧ Progress lists₀ updatedLists itr ∧
          ∀ o < lists'.headers.working.length, lists₀.headers.committed.length ≤ o →
            o ∈ updatedLists.map Prod.fst)
      (lists₀.prepareCommit updatedLists) := by
  unfold prepareCommit
  split_ifs with hnil
  · exact .inl ⟨hnil, rfl⟩
  obtain ⟨front, last, rfl⟩ : ∃ front last, updatedLists = front ++ [last] :=
    ⟨_, _, (List.dropLast_concat_getLast hnil).symm⟩
  rw [← List.append_nil (front ++ [last])] at horder
  have hloop := outcome_updateLists hsynced hslides horder
  rw [List.append_nil] at hloop horder
  refine hloop.bind fun itr hitr ↦ ?_
  rw [After, List.getLast?_concat] at hitr
  obtain ⟨h, hchunk, hcur⟩ := hitr
  have hlength := h.length
  have hlower : last.1 / listsChunkSize * listsChunkSize ≤ itr.curUnprocessedNodeOffset := by
    have hdiv := Nat.div_mul_le_self last.1 listsChunkSize
    omega
  have hupper : itr.curUnprocessedNodeOffset ≤ (last.1 / listsChunkSize + 1) * listsChunkSize := by
    rw [hcur]
    simp only [listsChunkSize]
    omega
  have hend : getChunkIdxEndNodeOffsetInclusive (last.1 / listsChunkSize) + 1 =
      (last.1 / listsChunkSize + 1) * listsChunkSize := by
    simp only [getChunkIdxEndNodeOffsetInclusive, listsChunkSize]
    omega
  have hdone := h.outcome_seek (o := min itr.lists.headers.working.length
    ((last.1 / listsChunkSize + 1) * listsChunkSize)) hslides hchunk hlower hupper (by omega)
    (by omega)
  rw [doneUpdating, hchunk]
  simp only [hend]
  refine (hdone.mono (fun _ h ↦ .inl h) fun _ h ↦ h).bind fun itr' hitr' ↦ ?_
  obtain ⟨h', -, hcur'⟩ := hitr'
  have hlength' := h'.length
  refine .inr ⟨itr', rfl, h', fun o ho hnew ↦ ?_⟩
  by_cases heq : o = last.1
  · simp [heq]
  · exact horder.consecutive last.1 (by simp) o hnew (by omega)

end Run

end Graphflow.Storage
