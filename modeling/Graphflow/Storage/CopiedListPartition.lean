import Graphflow.Storage.CopiedAllocation
import Mathlib.Algebra.Group.Action.Defs
import Mathlib.Algebra.Order.Ring.Nat

/-!
# The layout of copied lists as a partition

The elements of a list are written from its end: the element at `reversePos` is that many places
before the end.  The cursors of all elements of all lists should be different places on the pages,
and a reader should come through them list by list.

They are as long as every header gives back the length and the CSR offset of its list.  A small list
of elements of one byte can be too long for its header, or begin too late in its chunk.
-/

namespace Graphflow.Storage

open Lib ListHeaders InMemLists InMemStructuresCSVCopier

/-! ## Reading -/

/-- The places that `readBySequentialCopy` visits: page by page, as many turns as values at most. -/
def readBySequentialCopy (logicalToPhysicalPageMapper : ℕ → Except ListsFault (Option ℕ))
    (numElementsPerPage : ℕ) : ℕ → ℕ → ℕ → ℕ → Except ListsFault (List PageElementCursor)
  | 0, _, _, _ => .ok []
  | fuel + 1, pageIdx, posInPage, numValuesToRead =>
      if numValuesToRead = 0 then .ok []
      else do
        let numValuesToReadInPage := min (numElementsPerPage - posInPage) numValuesToRead
        let physicalPageIdx ← logicalToPhysicalPageMapper pageIdx
        let rest ← readBySequentialCopy logicalToPhysicalPageMapper numElementsPerPage fuel
          (pageIdx + 1) 0 (numValuesToRead - numValuesToReadInPage)
        return (List.range numValuesToReadInPage).map (fun i ↦ ⟨physicalPageIdx, posInPage + i⟩) ++
          rest

theorem readBySequentialCopy_eq_ok {mapper : ℕ → Except ListsFault (Option ℕ)}
    {page : ℕ → Option ℕ} {N fuel pos count : ℕ} (hN : 0 < N) (hfuel : count ≤ fuel)
    (hmapper : ∀ k < count, mapper ((pos + k) / N) = .ok (page ((pos + k) / N))) :
    readBySequentialCopy mapper N fuel (pos / N) (pos % N) count =
      .ok ((List.range count).map fun k ↦ ⟨page ((pos + k) / N), (pos + k) % N⟩) := by
  induction fuel generalizing pos count with
  | zero =>
      obtain rfl : count = 0 := Nat.le_zero.mp hfuel
      rfl
  | succ fuel ih =>
      by_cases hzero : count = 0
      · subst hzero
        rfl
      · obtain ⟨t, ht⟩ : ∃ t, t = min (N - pos % N) count := ⟨_, rfl⟩
        have hdiv := Nat.div_add_mod pos N
        have hmod := Nat.mod_lt pos hN
        have hfirst : mapper (pos / N) = .ok (page (pos / N)) :=
          hmapper 0 (Nat.pos_of_ne_zero hzero)
        -- The places on this page.
        have hhere : ∀ k < t, (pos + k) / N = pos / N ∧ (pos + k) % N = pos % N + k := by
          intro k hk
          have hsum : pos + k = pos % N + k + N * (pos / N) := by omega
          have hlt : pos % N + k < N := by omega
          rw [hsum, Nat.add_mul_div_left _ _ hN, Nat.add_mul_mod_self_left, Nat.div_eq_of_lt hlt,
            Nat.mod_eq_of_lt hlt, Nat.zero_add]
          exact ⟨rfl, rfl⟩
        have hrest : readBySequentialCopy mapper N fuel (pos / N + 1) 0 (count - t) =
            .ok ((List.range (count - t)).map fun k ↦
              ⟨page ((pos + t + k) / N), (pos + t + k) % N⟩) := by
          by_cases hlast : count = t
          · rw [hlast, Nat.sub_self]
            cases fuel <;> rfl
          · -- What remains begins with the next page.
            have hnext : pos + t = N * (pos / N + 1) := by
              rw [Nat.mul_succ]
              omega
            have hmapper' : ∀ k < count - t,
                mapper ((pos + t + k) / N) = .ok (page ((pos + t + k) / N)) := by
              intro k hk
              rw [Nat.add_assoc]
              exact hmapper (t + k) (by omega)
            have hcall := ih (by omega) hmapper'
            have hpage : (pos + t) / N = pos / N + 1 := by
              rw [hnext]
              exact Nat.mul_div_cancel_left _ hN
            have hstart : (pos + t) % N = 0 := by
              rw [hnext]
              exact Nat.mul_mod_right _ _
            rwa [hpage, hstart] at hcall
        have hcount : count = t + (count - t) := by omega
        rw [readBySequentialCopy, if_neg hzero, ← ht, hfirst, ok_bind, hrest, ok_bind, pure_eq_ok]
        congr 1
        conv_rhs => rw [hcount, List.range_add, List.map_append, List.map_map]
        congr 1
        · apply List.map_congr_left
          intro k hk
          obtain ⟨hdiv', hmod'⟩ := hhere k (List.mem_range.mp hk)
          rw [hdiv', hmod']
        · apply List.map_congr_left
          intro k _
          simp only [Function.comp_apply, Nat.add_assoc]

/-! ## The property -/

/-- What COPY lays out for lists of the given sizes, whose headers are made for elements of
`headerSize` bytes. -/
def copyLists (headerSize elementSize : ℕ) (hasNULLBytes : Bool) (listSizes : List ℕ) :
    Except ListsFault InMemLists :=
  calculateListsMetadataAndAllocateInMemListPagesTask elementSize hasNULLBytes listSizes
    (calculateListHeadersTask headerSize listSizes) (.new listSizes.length)

/-- Where the element of a node at `reversePos` goes. -/
def InMemLists.cursor (lists : InMemLists) (headers : List ℕ) (elementSize : ℕ)
    (hasNULLBytes : Bool) (nodeOffset reversePos : ℕ) : Except ListsFault PageElementCursor :=
  InMemLists.calcPageElementCursor lists.listsMetadataBuilder (headers.getD nodeOffset 0) reversePos
    elementSize nodeOffset hasNULLBytes

/-- The element at `reversePos` is one of the node's list. -/
def IsElement (listSizes : List ℕ) (nodeOffset reversePos : ℕ) : Prop :=
  ∃ n, listSizes[nodeOffset]? = some n ∧ 1 ≤ reversePos ∧ reversePos ≤ n

/-- The pages of the lists are partitioned into the elements.  A reader takes a list from any
position on: small lists from the beginning, large ones in parts. -/
structure IsPartition (elementSize : ℕ) (hasNULLBytes : Bool) (listSizes headers : List ℕ)
    (lists : InMemLists) : Prop where
  allocated : ∀ v r, IsElement listSizes v r → ∃ p i,
    lists.cursor headers elementSize hasNULLBytes v r = .ok ⟨some p, i⟩ ∧ p < lists.numPages ∧
      i < PageUtils.getNumElementsInAPage elementSize hasNULLBytes
  distinct : ∀ v r v' r', IsElement listSizes v r → IsElement listSizes v' r' →
    lists.cursor headers elementSize hasNULLBytes v r =
      lists.cursor headers elementSize hasNULLBytes v' r' → v = v' ∧ r = r'
  read : ∀ (v n : ℕ) (pages : ℕ → ℕ → UInt8), listSizes[v]? = some n → ∃ info,
    (lists.listsMetadataBuilder.saved headers lists.numPages pages).getListInfo v = .ok info ∧
      info.numValuesInList = n ∧ ∀ start count, start + count ≤ n →
        readBySequentialCopy
            ((lists.listsMetadataBuilder.saved headers lists.numPages pages).getPageIdxFromAPageList
              info.pageListHead)
            (PageUtils.getNumElementsInAPage elementSize hasNULLBytes) count
            ((info.pos + start) / PageUtils.getNumElementsInAPage elementSize hasNULLBytes)
            ((info.pos + start) % PageUtils.getNumElementsInAPage elementSize hasNULLBytes) count =
          (List.range count).mapM fun i ↦
            lists.cursor headers elementSize hasNULLBytes v (n - (start + i))
  consecutive : ∀ v n, listSizes[v]? = some n → ∃ (page : ℕ → Option ℕ) (pos : ℕ), ∀ k < n,
    lists.cursor headers elementSize hasNULLBytes v (n - k) =
      .ok ⟨page ((pos + k) / PageUtils.getNumElementsInAPage elementSize hasNULLBytes),
        (pos + k) % PageUtils.getNumElementsInAPage elementSize hasNULLBytes⟩

def CopiesAsPartition (headerSize elementSize : ℕ) (hasNULLBytes : Bool) (listSizes : List ℕ) :
    Prop :=
  ∃ lists, copyLists headerSize elementSize hasNULLBytes listSizes = .ok lists ∧
    IsPartition elementSize hasNULLBytes listSizes (calculateListHeadersTask headerSize listSizes)
      lists

/-- The counters of chunks, the indices in the page lists and, with them, those of pages and of
large lists have 32 bits. -/
structure WithinWidths (headerSize elementSize : ℕ) (hasNULLBytes : Bool) (listSizes : List ℕ) :
    Prop where
  chunks : getNumChunks listSizes.length < 2 ^ 32
  entries : numPageListEntries (getNumElementsInAPage headerSize)
    (PageUtils.getNumElementsInAPage elementSize hasNULLBytes) (getNumChunks listSizes.length)
    listSizes ≤ 2 ^ 32

/-- The lengths and the CSR offsets have the widths that headers and large lists have for them.  A
large list is empty only if its elements do not fit into a page. -/
structure FitsHeaders (headerSize : ℕ) (listSizes : List ℕ) : Prop where
  large : ∀ n ∈ listSizes, getNumElementsInAPage headerSize ≤ n → 0 < n ∧ n < 2 ^ 32
  small : ∀ v n, listSizes[v]? = some n → n < getNumElementsInAPage headerSize → 0 < n →
    n < 2 ^ 11 ∧
      smallElements (getNumElementsInAPage headerSize) (precedingInChunk listSizes v) < 2 ^ 20

/-! ## Where the lists lie in the pages of their owners -/

section Places

variable {m v v' n n' k k' p : ℕ} {sizes : List ℕ}

/-- The sizes of the small lists, with nothing for the large ones. -/
def smallSizes (m : ℕ) (sizes : List ℕ) : List ℕ := sizes.map fun n ↦ if n < m then n else 0

theorem smallElements_eq_sum (m : ℕ) (sizes : List ℕ) :
    smallElements m sizes = (smallSizes m sizes).sum := by
  induction sizes with
  | nil => rfl
  | cons n sizes ih =>
      by_cases hsmall : n < m
      · simp_all [smallElements, smallSizes]
      · simp_all [smallElements, smallSizes]

/-- The lists from the chunk of a node on. -/
def fromChunk (sizes : List ℕ) (v : ℕ) : List ℕ := sizes.drop (v / listsChunkSize * listsChunkSize)

theorem smallElements_precedingInChunk (m : ℕ) (sizes : List ℕ) (v : ℕ) :
    smallElements m (precedingInChunk sizes v) =
      offsetOf (smallSizes m (fromChunk sizes v)) (v % listsChunkSize) := by
  have hmod : v - v / listsChunkSize * listsChunkSize = v % listsChunkSize := by
    have := Nat.div_add_mod' v listsChunkSize
    omega
  rw [smallElements_eq_sum, precedingInChunk, List.drop_take, hmod, offsetOf,
    smallSizes, smallSizes, List.map_take]
  rfl

theorem getElem?_smallSizes_fromChunk (hv : sizes[v]? = some n) (hsmall : n < m) :
    (smallSizes m (fromChunk sizes v))[v % listsChunkSize]? = some n := by
  rw [smallSizes, List.getElem?_map, fromChunk, List.getElem?_drop, Nat.div_add_mod', hv,
    Option.map_some, if_pos hsmall]

/-- A small list ends within the small lists of its chunk. -/
theorem smallElements_precedingInChunk_add_le (hv : sizes[v]? = some n) (hsmall : n < m) :
    smallElements m (precedingInChunk sizes v) + n ≤
      smallElements m (chunkOf sizes (v / listsChunkSize)) := by
  have hlt : v % listsChunkSize < listsChunkSize := Nat.mod_lt _ (by decide)
  have hend := offsetOf_add_le (getElem?_smallSizes_fromChunk hv hsmall) hlt
  rw [smallElements_precedingInChunk]
  refine hend.trans_eq ?_
  rw [smallElements_eq_sum, offsetOf, smallSizes, smallSizes, chunkOf, List.map_take]
  rfl

/-- Small lists of one chunk do not overlap. -/
theorem eq_of_smallElements_add_eq (hv : sizes[v]? = some n) (hsmall : n < m)
    (hv' : sizes[v']? = some n') (hsmall' : n' < m)
    (hchunk : v / listsChunkSize = v' / listsChunkSize) (hk : k < n) (hk' : k' < n')
    (heq : smallElements m (precedingInChunk sizes v) + k =
      smallElements m (precedingInChunk sizes v') + k') : v = v' ∧ k = k' := by
  have hfrom : fromChunk sizes v = fromChunk sizes v' := by
    rw [fromChunk, hchunk]
    rfl
  have hi := getElem?_smallSizes_fromChunk hv hsmall
  rw [smallElements_precedingInChunk, smallElements_precedingInChunk, hfrom] at heq
  rw [hfrom] at hi
  obtain ⟨hmod, hkk⟩ :=
    eq_of_offsetOf_add_eq hi (getElem?_smallSizes_fromChunk hv' hsmall') hk hk' heq
  refine ⟨?_, hkk⟩
  rw [← Nat.div_add_mod' v listsChunkSize, hchunk, hmod, Nat.div_add_mod']

/-- Before a small list there are only elements of earlier small lists of its chunk. -/
theorem exists_smallElements_add_eq (hp : p < smallElements m (precedingInChunk sizes v)) :
    ∃ w n k, w < v ∧ w / listsChunkSize = v / listsChunkSize ∧ sizes[w]? = some n ∧ n < m ∧ k < n ∧
      smallElements m (precedingInChunk sizes w) + k = p := by
  rw [smallElements_precedingInChunk] at hp
  obtain ⟨i, n, k, hi, hn, hk, heq⟩ := exists_offsetOf_add_eq hp
  have hlt : v % listsChunkSize < listsChunkSize := Nat.mod_lt _ (by decide)
  have hdiv := Nat.div_add_mod' v listsChunkSize
  obtain ⟨w, hw⟩ : ∃ w, w = v / listsChunkSize * listsChunkSize + i := ⟨_, rfl⟩
  have hchunk : w / listsChunkSize = v / listsChunkSize := by
    rw [hw, Nat.add_comm, Nat.add_mul_div_right _ _ (by decide), Nat.div_eq_of_lt (hi.trans hlt),
      Nat.zero_add]
  have hmod : w % listsChunkSize = i := by
    rw [hw, Nat.mul_add_mod', Nat.mod_eq_of_lt (hi.trans hlt)]
  have hsize : sizes[w]? = some n ∧ n < m := by
    rw [smallSizes, List.getElem?_map, fromChunk, List.getElem?_drop, ← hw] at hn
    cases hget : sizes[w]? with
    | none => simp [hget] at hn
    | some n' =>
        by_cases hsmall : n' < m
        · simp only [hget, Option.map_some, hsmall, if_true, Option.some.injEq] at hn
          exact ⟨congrArg some hn, hn ▸ hsmall⟩
        · simp only [hget, Option.map_some, hsmall, if_false, Option.some.injEq] at hn
          omega
  refine ⟨w, n, k, by omega, hchunk, hsize.1, hsize.2, hk, ?_⟩
  have hfrom : fromChunk sizes w = fromChunk sizes v := by
    rw [fromChunk, hchunk]
    rfl
  rw [smallElements_precedingInChunk, hfrom, hmod, heq]

end Places

/-! ## The cursors -/

section Cursors

variable {headerSize elementSize m N v n r k p l c idx pos : ℕ} {hasNULLBytes : Bool}
  {sizes : List ℕ} {lists : InMemLists} {L : ListsLayout} {o : PageOwner}
  {mapper : ℕ → Except ListsFault (Option ℕ)}

theorem cursorAt_eq_ok {page : Option ℕ} (hmapper : mapper (pos / N) = .ok page)
    (hlt : pos / N < 2 ^ 32 - 1) : cursorAt mapper N pos = .ok ⟨page, pos % N⟩ := by
  simp only [cursorAt, PageUtils.getPageElementCursorForPos, if_pos hlt, ok_bind, hmapper,
    pure_eq_ok]

/-- The position before the first one. -/
theorem cursorAt_of_wrap (hN : 0 < N) (hle : N ≤ 4096) :
    cursorAt mapper N (2 ^ 64 - 1) = .error .assertionFailed := by
  have hlarge : 2 ^ 32 - 1 ≤ (2 ^ 64 - 1) / N := by
    rw [Nat.le_div_iff_mul_le hN]
    calc (2 ^ 32 - 1) * N ≤ (2 ^ 32 - 1) * 4096 := Nat.mul_le_mul_left _ hle
      _ ≤ 2 ^ 64 - 1 := by decide
  simp only [cursorAt, PageUtils.getPageElementCursorForPos, if_neg (Nat.not_lt.mpr hlarge),
    error_bind]

theorem getNumElementsInAPage_le (elementSize : ℕ) (hasNull : Bool) :
    PageUtils.getNumElementsInAPage elementSize hasNull ≤ 4096 :=
  (Nat.div_le_self _ _).trans (Nat.sub_le _ _)

/-- An element size of one byte fits into a page. -/
theorem getNumElementsInAPage_pos (hpos : 0 < elementSize) (hlt : elementSize < 2 ^ 8)
    (hasNull : Bool) : 0 < PageUtils.getNumElementsInAPage elementSize hasNull := by
  obtain ⟨d, hd⟩ : ∃ d, d = elementSize <<< 6 + 8 := ⟨_, rfl⟩
  have hd' : 72 ≤ d := by
    rw [hd, Nat.shiftLeft_eq]
    omega
  have hentries : (4096 + d - 1) / d ≤ 57 := by
    apply Nat.le_of_lt_succ
    rw [Nat.div_lt_iff_lt_mul (by omega)]
    omega
  rw [PageUtils.getNumElementsInAPage]
  apply Nat.div_pos _ hpos
  simp only [defaultPageSize, ← hd]
  split <;> omega

theorem getD_calculateListHeadersTask_of_small (hv : sizes[v]? = some n)
    (hsmall : n < getNumElementsInAPage headerSize) :
    (calculateListHeadersTask headerSize sizes).getD v 0 = getSmallListHeader
      (smallElements (getNumElementsInAPage headerSize) (precedingInChunk sizes v)) n := by
  rw [List.getD_eq_getElem?_getD, calculateListHeadersTask_getElem? hv hsmall]
  rfl

theorem getD_calculateListHeadersTask_of_large (hv : sizes[v]? = some n)
    (hlarge : getNumElementsInAPage headerSize ≤ n) :
    (calculateListHeadersTask headerSize sizes).getD v 0 = getLargeListHeader
      (numLargeLists (getNumElementsInAPage headerSize) (sizes.take v)) := by
  rw [List.getD_eq_getElem?_getD, calculateListHeadersTask_getElem?_of_large hv hlarge]
  rfl

/-- The header cuts the length and the CSR offset. -/
theorem cursor_of_small {hasNULLBytes : Bool} {sizes : List ℕ} (hv : sizes[v]? = some n)
    (hsmall : n < getNumElementsInAPage headerSize) (lists : InMemLists) (r : ℕ) :
    lists.cursor (calculateListHeadersTask headerSize sizes) elementSize hasNULLBytes v r =
      cursorAt (lists.listsMetadataBuilder.getPageMapperForChunkIdx (v / listsChunkSize))
        (PageUtils.getNumElementsInAPage elementSize hasNULLBytes)
        (add64 (smallElements (getNumElementsInAPage headerSize)
          (precedingInChunk sizes v) % 2 ^ 20)
          (sub64 (n % 2 ^ 11) r)) := by
  have hpair := getSmallListLenAndCSROffset_getSmallListHeader
    (smallElements (getNumElementsInAPage headerSize) (precedingInChunk sizes v)) n
  rw [getSmallListLenAndCSROffset, Prod.mk.injEq] at hpair
  rw [InMemLists.cursor, getD_calculateListHeadersTask_of_small hv hsmall,
    calcPageElementCursor_of_small (isALargeList_getSmallListHeader _ _), hpair.1, hpair.2]

theorem cursor_of_large (h : Allocated (getNumElementsInAPage headerSize) N sizes sizes.length c
    lists L) (hv : sizes[v]? = some n) (hlarge : getNumElementsInAPage headerSize ≤ n)
    (hl : l = numLargeLists (getNumElementsInAPage headerSize) (sizes.take v)) (hlt : l < 2 ^ 31)
    (r : ℕ) :
    lists.cursor (calculateListHeadersTask headerSize sizes) elementSize hasNULLBytes v r =
      cursorAt (lists.listsMetadataBuilder.getPageMapperForLargeListIdx l)
        (PageUtils.getNumElementsInAPage elementSize hasNULLBytes)
        (sub64 (low32 n) r) := by
  have hnum := (h.large v n (List.getElem?_eq_some_iff.mp hv).1 hv hlarge).numElements
  rw [← hl] at hnum
  have hread : lists.listsMetadataBuilder.getNumElementsInLargeLists l = .ok (low32 n) := by
    rw [ListsMetadataBuilder.getNumElementsInLargeLists,
      UnstructuredPropertyLists.read_eq_ok hnum, ok_bind, getD_toUInt32, pure_eq_ok]
  rw [InMemLists.cursor, getD_calculateListHeadersTask_of_large hv hlarge, ← hl]
  exact calcPageElementCursor_of_large (isALargeList_getLargeListHeader l)
    (getLargeListIdx_getLargeListHeader hlt) hread ..

/-! ## The page mappers -/

theorem followPageGroups_congr {a b : UnstructuredPropertyLists} (heq : a.pageLists = b.pageLists)
    (numGroups : ℕ) (head : Option ℕ) :
    a.followPageGroups numGroups head = b.followPageGroups numGroups head := by
  induction numGroups generalizing head with
  | zero => rfl
  | succ numGroups ih =>
      cases head with
      | none => rfl
      | some head =>
          rw [UnstructuredPropertyLists.followPageGroups,
            UnstructuredPropertyLists.followPageGroups, heq]
          exact congrArg _ (funext ih)

/-- Only the page lists matter to the mappers. -/
theorem getPageIdxFromAPageList_congr {a b : UnstructuredPropertyLists}
    (heq : a.pageLists = b.pageLists) (head : Option ℕ) (idx : ℕ) :
    a.getPageIdxFromAPageList head idx = b.getPageIdxFromAPageList head idx := by
  rw [UnstructuredPropertyLists.getPageIdxFromAPageList,
    UnstructuredPropertyLists.getPageIdxFromAPageList, followPageGroups_congr heq, heq]

theorem getPageIdxFromAPageList_saved {builder : ListsMetadataBuilder} {numPages : ℕ}
    (h : L.Describes builder.pageLists numPages) (headers : List ℕ) (numPages' : ℕ)
    (pages : ℕ → ℕ → UInt8) (hp : (L.pages o)[idx]? = some p) :
    (builder.saved headers numPages' pages).getPageIdxFromAPageList (L.groups o).head? idx =
      .ok (some p) := by
  have hsaved : L.Describes (builder.saved headers numPages pages).pageLists.committed
      (builder.saved headers numPages pages).numPages := h
  rw [← UnstructuredPropertyLists.getPageIdxFromAPageList_eq_ok hsaved hp]
  exact @getPageIdxFromAPageList_congr (builder.saved headers numPages' pages)
    (builder.saved headers numPages pages) rfl _ _

theorem getPageMapperForChunkIdx_eq_ok {builder : ListsMetadataBuilder} {numPages : ℕ}
    (h : L.Describes builder.pageLists numPages) (hchunk : ChunkAllocated N n k builder L)
    (hp : (L.pages (.chunk k))[idx]? = some p) :
    builder.getPageMapperForChunkIdx k idx = .ok (some p) := by
  rw [ListsMetadataBuilder.getPageMapperForChunkIdx,
    UnstructuredPropertyLists.read_eq_ok hchunk.head, ok_bind]
  exact getPageIdxFromAPageList_saved h [] 0 _ hp

theorem getPageMapperForLargeListIdx_eq_ok {builder : ListsMetadataBuilder} {numPages : ℕ}
    (h : L.Describes builder.pageLists numPages) (hlarge : LargeListAllocated N n l builder L)
    (hp : (L.pages (.largeList l))[idx]? = some p) :
    builder.getPageMapperForLargeListIdx l idx = .ok (some p) := by
  rw [ListsMetadataBuilder.getPageMapperForLargeListIdx,
    UnstructuredPropertyLists.read_eq_ok hlarge.head, ok_bind]
  exact getPageIdxFromAPageList_saved h [] 0 _ hp

end Cursors

/-! ## When the layout is a partition -/

section Partition

variable {headerSize elementSize m N v v' n n' k k' l c : ℕ} {hasNULLBytes : Bool}
  {sizes : List ℕ} {lists : InMemLists} {L : ListsLayout}

/-- Whose pages hold the list of a node. -/
def ownerOf (m : ℕ) (sizes : List ℕ) (v n : ℕ) : PageOwner :=
  if m ≤ n then .largeList (numLargeLists m (sizes.take v)) else .chunk (v / listsChunkSize)

/-- Where the list begins in these pages. -/
def positionOf (m : ℕ) (sizes : List ℕ) (v n : ℕ) : ℕ :=
  if m ≤ n then 0 else smallElements m (precedingInChunk sizes v)

/-- Elements at the same position of one owner are the same. -/
theorem eq_of_positionOf_add_eq (hv : sizes[v]? = some n) (hv' : sizes[v']? = some n')
    (howner : ownerOf m sizes v n = ownerOf m sizes v' n') (hk : k < n) (hk' : k' < n')
    (heq : positionOf m sizes v n + k = positionOf m sizes v' n' + k') : v = v' ∧ k = k' := by
  by_cases hlarge : m ≤ n <;> by_cases hlarge' : m ≤ n'
  · simp only [ownerOf, positionOf, hlarge, hlarge', if_true, PageOwner.largeList.injEq,
      Nat.zero_add] at howner heq
    exact ⟨eq_of_numLargeLists_take_eq hv hlarge hv' hlarge' howner, heq⟩
  · simp [ownerOf, hlarge, hlarge'] at howner
  · simp [ownerOf, hlarge, hlarge'] at howner
  · simp only [ownerOf, positionOf, hlarge, hlarge', if_false, PageOwner.chunk.injEq] at howner heq
    exact eq_of_smallElements_add_eq hv (Nat.lt_of_not_le hlarge) hv' (Nat.lt_of_not_le hlarge')
      howner hk hk' heq

theorem lt_pages_of_positionOf (h : Allocated m N sizes sizes.length (getNumChunks sizes.length)
    lists L) (hN : 0 < N) (hv : sizes[v]? = some n) (hk : k < n) :
    (positionOf m sizes v n + k) / N < (L.pages (ownerOf m sizes v n)).length := by
  have hlt := (List.getElem?_eq_some_iff.mp hv).1
  apply Nat.div_lt_of_lt_mul
  rw [Nat.mul_comm]
  by_cases hlarge : m ≤ n
  · simp only [ownerOf, positionOf, hlarge, if_true, (h.large v n hlt hv hlarge).pages,
      Nat.zero_add]
    exact hk.trans_le (le_numPagesFor_mul hN n)
  · have hend := smallElements_precedingInChunk_add_le hv (Nat.lt_of_not_le hlarge)
    simp only [ownerOf, positionOf, hlarge, if_false, (h.chunk _ (lt_getNumChunks hlt)).pages]
    refine Nat.lt_of_lt_of_le ?_ (le_numPagesFor_mul hN _)
    omega

/-- Every element goes to its position in the pages of its owner. -/
theorem cursor_eq_ok (h : Allocated (getNumElementsInAPage headerSize)
      (PageUtils.getNumElementsInAPage elementSize hasNULLBytes) sizes sizes.length
      (getNumChunks sizes.length) lists L)
    (hN : 0 < PageUtils.getNumElementsInAPage elementSize hasNULLBytes)
    (hfits : FitsHeaders headerSize sizes)
    (hnum : numLargeLists (getNumElementsInAPage headerSize) sizes < 2 ^ 31)
    (hv : sizes[v]? = some n) (hk : k < n) :
    lists.cursor (calculateListHeadersTask headerSize sizes) elementSize hasNULLBytes v (n - k) =
      .ok ⟨(L.pages (ownerOf (getNumElementsInAPage headerSize) sizes v n))[
          (positionOf (getNumElementsInAPage headerSize) sizes v n + k) /
            PageUtils.getNumElementsInAPage elementSize hasNULLBytes]?,
        (positionOf (getNumElementsInAPage headerSize) sizes v n + k) %
          PageUtils.getNumElementsInAPage elementSize hasNULLBytes⟩ := by
  have hpage := List.getElem?_eq_getElem (lt_pages_of_positionOf h hN hv hk)
  have hlt := (List.getElem?_eq_some_iff.mp hv).1
  rw [hpage]
  by_cases hlarge : getNumElementsInAPage headerSize ≤ n
  · have hn := (hfits.large n (List.mem_of_getElem? hv) hlarge).2
    have hidx := (numLargeLists_take_lt_numLargeLists hv hlarge).trans hnum
    have hpos : sub64 (low32 n) (n - k) = k := by
      rw [sub64, low32]
      omega
    simp only [ownerOf, positionOf, hlarge, if_true, Nat.zero_add] at hpage ⊢
    rw [cursor_of_large h hv hlarge rfl hidx, hpos]
    apply cursorAt_eq_ok
    · exact getPageMapperForLargeListIdx_eq_ok h.described (h.large v n hlt hv hlarge) hpage
    · exact (Nat.div_le_self _ _).trans_lt (by omega)
  · obtain ⟨hlen, hcsr⟩ := hfits.small v n hv (Nat.lt_of_not_le hlarge) (by omega)
    simp only [ownerOf, positionOf, hlarge, if_false] at hpage ⊢
    have hpos : add64 (smallElements (getNumElementsInAPage headerSize) (precedingInChunk sizes v) %
        2 ^ 20) (sub64 (n % 2 ^ 11) (n - k)) =
          smallElements (getNumElementsInAPage headerSize) (precedingInChunk sizes v) + k := by
      rw [add64, sub64]
      omega
    rw [cursor_of_small hv (Nat.lt_of_not_le hlarge), hpos]
    apply cursorAt_eq_ok
    · exact getPageMapperForChunkIdx_eq_ok h.described (h.chunk _ (lt_getNumChunks hlt)) hpage
    · exact (Nat.div_le_self _ _).trans_lt (by omega)

/-- What a reader finds out about a list. -/
theorem exists_getListInfo (h : Allocated (getNumElementsInAPage headerSize) N sizes sizes.length
      (getNumChunks sizes.length) lists L) (hfits : FitsHeaders headerSize sizes)
    (hnum : numLargeLists (getNumElementsInAPage headerSize) sizes < 2 ^ 31)
    (hv : sizes[v]? = some n) (pages : ℕ → ℕ → UInt8) : ∃ info,
    (lists.listsMetadataBuilder.saved (calculateListHeadersTask headerSize sizes) lists.numPages
        pages).getListInfo v = .ok info ∧
      info.pageListHead = (L.groups (ownerOf (getNumElementsInAPage headerSize) sizes v n)).head? ∧
      (0 < n → info.pos = positionOf (getNumElementsInAPage headerSize) sizes v n) ∧
      info.numValuesInList = n := by
  have hlt := (List.getElem?_eq_some_iff.mp hv).1
  by_cases hlarge : getNumElementsInAPage headerSize ≤ n
  · have hidx := (numLargeLists_take_lt_numLargeLists hv hlarge).trans hnum
    have hlist := h.large v n hlt hv hlarge
    have hn := (hfits.large n (List.mem_of_getElem? hv) hlarge).2
    have hlow : low32 n = n := Nat.mod_eq_of_lt hn
    have hheader := calculateListHeadersTask_getElem?_of_large hv hlarge
    simp only [ownerOf, positionOf, hlarge, if_true]
    refine ⟨⟨true, (L.groups (.largeList _)).head?, 0, n⟩, ?_, rfl, fun _ ↦ rfl, rfl⟩
    have hread : (lists.listsMetadataBuilder.saved (calculateListHeadersTask headerSize sizes)
        lists.numPages pages).headers.read .headers 0 v = .ok _ :=
      UnstructuredPropertyLists.read_eq_ok hheader
    have hhead : (lists.listsMetadataBuilder.saved (calculateListHeadersTask headerSize sizes)
        lists.numPages pages).largeListIdxToPageListHeadIdxMap.read
          .largeListIdxToPageListHeadIdxMap none _ = .ok _ :=
      UnstructuredPropertyLists.read_eq_ok hlist.head
    have hsize : (lists.listsMetadataBuilder.saved (calculateListHeadersTask headerSize sizes)
        lists.numPages pages).largeListIdxToPageListHeadIdxMap.read
          .largeListIdxToPageListHeadIdxMap none _ = .ok _ :=
      UnstructuredPropertyLists.read_eq_ok hlist.numElements
    simp only [UnstructuredPropertyLists.getListInfo, hread, ok_bind,
      isALargeList_getLargeListHeader, if_true, getLargeListIdx_getLargeListHeader hidx, hhead,
      hsize, getD_toUInt32, hlow, pure_eq_ok]
  · have hsmall := Nat.lt_of_not_le hlarge
    have hheader := calculateListHeadersTask_getElem? hv hsmall
    simp only [ownerOf, positionOf, hlarge, if_false]
    obtain ⟨csr, hcsr⟩ : ∃ csr, csr = smallElements (getNumElementsInAPage headerSize)
      (precedingInChunk sizes v) := ⟨_, rfl⟩
    rw [← hcsr] at hheader ⊢
    have hlen : n % 2 ^ 11 = n := by
      by_cases hpos : 0 < n
      · exact Nat.mod_eq_of_lt (hfits.small v n hv hsmall hpos).1
      · have hzero : n = 0 := by omega
        rw [hzero]
        rfl
    refine ⟨⟨false, (L.groups (.chunk _)).head?, csr % 2 ^ 20, n⟩, ?_, rfl, fun hpos ↦ ?_, rfl⟩
    · have hread : (lists.listsMetadataBuilder.saved (calculateListHeadersTask headerSize sizes)
          lists.numPages pages).headers.read .headers 0 v = .ok _ :=
        UnstructuredPropertyLists.read_eq_ok hheader
      have hhead : (lists.listsMetadataBuilder.saved (calculateListHeadersTask headerSize sizes)
          lists.numPages pages).chunkToPageListHeadIdxMap.read .chunkToPageListHeadIdxMap none _ =
            .ok _ :=
        UnstructuredPropertyLists.read_eq_ok (h.chunk _ (lt_getNumChunks hlt)).head
      have hpair := getSmallListLenAndCSROffset_getSmallListHeader csr n
      rw [getSmallListLenAndCSROffset, Prod.mk.injEq, hlen] at hpair
      simp only [UnstructuredPropertyLists.getListInfo, hread, ok_bind,
        isALargeList_getSmallListHeader, Bool.false_eq_true, if_false, hhead, hpair.1, hpair.2,
        pure_eq_ok]
    · exact Nat.mod_eq_of_lt (hcsr ▸ (hfits.small v n hv hsmall hpos).2)

theorem isPartition_of_fitsHeaders (h : Allocated (getNumElementsInAPage headerSize)
      (PageUtils.getNumElementsInAPage elementSize hasNULLBytes) sizes sizes.length
      (getNumChunks sizes.length) lists L)
    (hN : 0 < PageUtils.getNumElementsInAPage elementSize hasNULLBytes)
    (hfits : FitsHeaders headerSize sizes)
    (hnum : numLargeLists (getNumElementsInAPage headerSize) sizes < 2 ^ 31) :
    IsPartition elementSize hasNULLBytes sizes
      (calculateListHeadersTask headerSize sizes) lists := by
  have hcursor := fun {v n k} ↦
    @cursor_eq_ok headerSize elementSize v n k hasNULLBytes sizes lists L
    h hN hfits hnum
  refine {
    allocated := ?_
    distinct := ?_
    read := ?_
    consecutive := ?_ }
  · rintro v r ⟨n, hv, hone, hr⟩
    have hk : n - r < n := by omega
    have hpage := List.getElem?_eq_getElem (lt_pages_of_positionOf h hN hv hk)
    have heq := hcursor hv hk
    rw [hpage, Nat.sub_sub_self hr] at heq
    exact ⟨_, _, heq, h.described.pages_lt _ _ (List.getElem_mem _), Nat.mod_lt _ hN⟩
  · rintro v r v' r' ⟨n, hv, hone, hr⟩ ⟨n', hv', hone', hr'⟩ heq
    have hk : n - r < n := by omega
    have hk' : n' - r' < n' := by omega
    have hpage := List.getElem?_eq_getElem (lt_pages_of_positionOf h hN hv hk)
    have hplace := hcursor hv hk
    have hplace' := hcursor hv' hk'
    rw [Nat.sub_sub_self hr] at hplace
    rw [Nat.sub_sub_self hr'] at hplace'
    rw [hplace, hplace', Except.ok.injEq, PageElementCursor.mk.injEq] at heq
    obtain ⟨howner, hdiv⟩ := h.described.pages_distinct _ _ _ _ _ hpage (heq.1 ▸ hpage)
    -- The same place in a page of the same owner.
    have hpos : positionOf (getNumElementsInAPage headerSize) sizes v n + (n - r) =
        positionOf (getNumElementsInAPage headerSize) sizes v' n' + (n' - r') := by
      rw [← Nat.div_add_mod (positionOf (getNumElementsInAPage headerSize) sizes v n + (n - r))
        (PageUtils.getNumElementsInAPage elementSize hasNULLBytes), hdiv, heq.2, Nat.div_add_mod]
    obtain ⟨rfl, hkk⟩ := eq_of_positionOf_add_eq hv hv' howner hk hk' hpos
    obtain rfl : n = n' := Option.some.inj (hv.symm.trans hv')
    exact ⟨rfl, by omega⟩
  · intro v n pages hv
    obtain ⟨info, hinfo, hhead, hpos, hlength⟩ := exists_getListInfo h hfits hnum hv pages
    refine ⟨info, hinfo, hlength, fun start count hle ↦ ?_⟩
    have hmapM : ((List.range count).mapM fun i ↦ lists.cursor
        (calculateListHeadersTask headerSize sizes) elementSize hasNULLBytes v (n - (start + i))) =
          .ok ((List.range count).map fun i ↦
            ⟨(L.pages (ownerOf (getNumElementsInAPage headerSize) sizes v n))[
              (positionOf (getNumElementsInAPage headerSize) sizes v n + (start + i)) /
                PageUtils.getNumElementsInAPage elementSize hasNULLBytes]?,
            (positionOf (getNumElementsInAPage headerSize) sizes v n + (start + i)) %
              PageUtils.getNumElementsInAPage elementSize hasNULLBytes⟩) := by
      apply mapM_eq_ok
      intro i hi
      have hlt := List.mem_range.mp hi
      exact hcursor hv (by omega)
    rw [hmapM]
    by_cases hcount : count = 0
    · subst hcount
      rfl
    · have hstart := hpos (by omega)
      have hmapper : ∀ k < count, (lists.listsMetadataBuilder.saved
          (calculateListHeadersTask headerSize sizes) lists.numPages pages).getPageIdxFromAPageList
            (L.groups (ownerOf (getNumElementsInAPage headerSize) sizes v n)).head?
            ((positionOf (getNumElementsInAPage headerSize) sizes v n + start + k) /
              PageUtils.getNumElementsInAPage elementSize hasNULLBytes) =
          .ok (L.pages (ownerOf (getNumElementsInAPage headerSize) sizes v n))[
            (positionOf (getNumElementsInAPage headerSize) sizes v n + start + k) /
              PageUtils.getNumElementsInAPage elementSize hasNULLBytes]? := by
        intro k hk
        have hpage := List.getElem?_eq_getElem
          (lt_pages_of_positionOf h hN hv (show start + k < n by omega))
        rw [Nat.add_assoc, hpage]
        exact getPageIdxFromAPageList_saved h.described _ _ _ hpage
      rw [hhead, hstart, readBySequentialCopy_eq_ok hN le_rfl hmapper]
      simp only [Nat.add_assoc]
  · intro v n hv
    exact ⟨_, _, fun k hk ↦ hcursor hv hk⟩

/-! ## Which headers a partition needs -/

/-- No header cuts the length or the offset of a small list: its elements would be taken for others
of its chunk, or would lie before the first. -/
theorem small_of_isPartition (hpart : IsPartition elementSize hasNULLBytes sizes
      (calculateListHeadersTask headerSize sizes) lists)
    (hN : 0 < PageUtils.getNumElementsInAPage elementSize hasNULLBytes) (v n : ℕ)
    (hv : sizes[v]? = some n) (hsmall : n < getNumElementsInAPage headerSize) (hpos : 0 < n) :
    n < 2 ^ 11 ∧
      smallElements (getNumElementsInAPage headerSize) (precedingInChunk sizes v) < 2 ^ 20 := by
  induction v using Nat.strong_induction_on generalizing n with
  | _ v ih =>
      obtain ⟨csr, hcsr⟩ : ∃ csr, csr = smallElements (getNumElementsInAPage headerSize)
        (precedingInChunk sizes v) := ⟨_, rfl⟩
      rw [← hcsr]
      by_contra hcut
      have hless : csr % 2 ^ 20 + n % 2 ^ 11 < csr + n := by omega
      have hcursor := fun r ↦ @cursor_of_small headerSize elementSize v n hasNULLBytes sizes hv
        hsmall lists r
      by_cases hbefore : csr % 2 ^ 20 + n % 2 ^ 11 < n
      · -- One element would lie right before the first page.
        obtain ⟨p, i, hplace, -⟩ :=
          hpart.allocated v (csr % 2 ^ 20 + n % 2 ^ 11 + 1) ⟨n, hv, by omega, by omega⟩
        have hwrap : add64 (csr % 2 ^ 20) (sub64 (n % 2 ^ 11) (csr % 2 ^ 20 + n % 2 ^ 11 + 1)) =
            2 ^ 64 - 1 := by
          rw [add64, sub64]
          omega
        rw [hcursor, ← hcsr, hwrap, cursorAt_of_wrap hN (getNumElementsInAPage_le _ _)] at hplace
        cases hplace
      · -- The first element takes the place of one of an earlier list.
        obtain ⟨w, n', k, hw, hchunk, hn', hsmall', hk, heq⟩ := exists_smallElements_add_eq
          (hcsr ▸ (show csr % 2 ^ 20 + n % 2 ^ 11 - n < csr by omega))
        obtain ⟨hlen, hoffset⟩ := ih w hw n' hn' hsmall' (by omega)
        have hpos₁ : add64 (csr % 2 ^ 20) (sub64 (n % 2 ^ 11) n) =
            csr % 2 ^ 20 + n % 2 ^ 11 - n := by
          rw [add64, sub64]
          omega
        have hpos₂ : add64 (smallElements (getNumElementsInAPage headerSize)
            (precedingInChunk sizes w) % 2 ^ 20) (sub64 (n' % 2 ^ 11) (n' - k)) =
              csr % 2 ^ 20 + n % 2 ^ 11 - n := by
          rw [add64, sub64]
          omega
        have hsame :
            lists.cursor (calculateListHeadersTask headerSize sizes) elementSize hasNULLBytes v n =
              lists.cursor (calculateListHeadersTask headerSize sizes) elementSize hasNULLBytes w
                (n' - k) := by
          rw [hcursor, cursor_of_small hn' hsmall', ← hcsr, hpos₁, hpos₂, hchunk]
        obtain ⟨rfl, -⟩ := hpart.distinct v n w (n' - k) ⟨n, hv, hpos, le_rfl⟩
          ⟨n', hn', by omega, by omega⟩ hsame
        exact lt_irrefl _ hw

theorem large_of_isPartition (hpart : IsPartition elementSize hasNULLBytes sizes
      (calculateListHeadersTask headerSize sizes) lists)
    (h : Allocated (getNumElementsInAPage headerSize) N sizes sizes.length c lists L)
    (hN : 0 < PageUtils.getNumElementsInAPage elementSize hasNULLBytes)
    (hnum : numLargeLists (getNumElementsInAPage headerSize) sizes < 2 ^ 31)
    (hv : sizes[v]? = some n) (hlarge : getNumElementsInAPage headerSize ≤ n) : n < 2 ^ 32 := by
  by_contra hge
  have hidx := (numLargeLists_take_lt_numLargeLists hv hlarge).trans hnum
  have hcut : low32 n < n := by
    rw [low32]
    omega
  obtain ⟨p, i, hplace, -⟩ := hpart.allocated v (low32 n + 1) ⟨n, hv, by omega, by omega⟩
  have hwrap : sub64 (low32 n) (low32 n + 1) = 2 ^ 64 - 1 := by
    rw [sub64, low32]
    omega
  rw [cursor_of_large h hv hlarge rfl hidx, hwrap,
    cursorAt_of_wrap hN (getNumElementsInAPage_le _ _)] at hplace
  cases hplace

/-- The task does not take an empty list for a large one. -/
theorem pos_of_allocateList_eq_ok {s s' : ChunkAllocation} {node : ℕ × ℕ}
    (hstep : allocateList N s node = .ok s') (hlarge : isALargeList node.1 = true) :
    0 < node.2 := by
  obtain ⟨header, n⟩ := node
  by_contra hzero
  obtain rfl : n = 0 := Nat.eq_zero_of_not_pos hzero
  simp only at hlarge
  simp [allocateList, hlarge, ListsMetadataBuilder.populateLargeListPageList] at hstep

theorem pos_of_allocateChunks_eq_ok {numChunks : ℕ} {nodes : List (ℕ × ℕ)} {lists' : InMemLists}
    (hrun : allocateChunks N numChunks c nodes lists l = .ok lists')
    (hlength : nodes.length ≤ numChunks * listsChunkSize) {node : ℕ × ℕ} (hnode : node ∈ nodes)
    (hlarge : isALargeList node.1 = true) : 0 < node.2 := by
  induction numChunks generalizing c nodes lists l with
  | zero =>
      obtain rfl : nodes = [] := List.eq_nil_of_length_eq_zero (by omega)
      exact absurd hnode List.not_mem_nil
  | succ numChunks ih =>
      rw [allocateChunks, bind_eq_ok_iff] at hrun
      obtain ⟨s, hloop, hrest⟩ := hrun
      rw [← List.take_append_drop listsChunkSize nodes, List.mem_append] at hnode
      rcases hnode with hnode | hnode
      · obtain ⟨s₁, s₂, -, hstep⟩ := exists_step_of_foldlM_eq_ok (fun _ ↦ True) hloop trivial
          (fun _ _ _ _ _ ↦ trivial) hnode
        exact pos_of_allocateList_eq_ok hstep hlarge
      · refine ih hrest ?_ hnode
        rw [Nat.succ_mul] at hlength
        rw [List.length_drop]
        omega

theorem pos_of_copyLists_eq_ok (hcopy : copyLists headerSize elementSize hasNULLBytes sizes =
      .ok lists) (hn : n ∈ sizes) (hlarge : getNumElementsInAPage headerSize ≤ n) : 0 < n := by
  obtain ⟨v, hv⟩ := List.mem_iff_getElem?.mp hn
  have hnode : (getLargeListHeader (numLargeLists (getNumElementsInAPage headerSize)
      (sizes.take v)), n) ∈ (calculateListHeadersTask headerSize sizes).zip sizes := by
    apply List.mem_of_getElem?
    exact List.getElem?_zip_eq_some.mpr
      ⟨calculateListHeadersTask_getElem?_of_large hv hlarge, hv⟩
  refine pos_of_allocateChunks_eq_ok hcopy ?_ hnode (isALargeList_getLargeListHeader _)
  rw [List.length_zip, length_calculateListHeadersTask, Nat.min_self]
  exact le_getNumChunks_mul _

/-- COPY lays its lists out as a partition exactly when the headers and the sizes of the large
lists have room for what is put there. -/
theorem copiesAsPartition_iff_fitsHeaders (hpos : 0 < elementSize) (hbyte : elementSize < 2 ^ 8)
    (hwidths : WithinWidths headerSize elementSize hasNULLBytes sizes) :
    CopiesAsPartition headerSize elementSize hasNULLBytes sizes ↔ FitsHeaders headerSize sizes := by
  have hN := getNumElementsInAPage_pos hpos hbyte hasNULLBytes
  -- What the task leaves if no large list is empty.
  have htask : (∀ n ∈ sizes, getNumElementsInAPage headerSize ≤ n → 0 < n) →
      numLargeLists (getNumElementsInAPage headerSize) sizes < 2 ^ 31 ∧
        ∃ lists L, copyLists headerSize elementSize hasNULLBytes sizes = .ok lists ∧
          Allocated (getNumElementsInAPage headerSize)
            (PageUtils.getNumElementsInAPage elementSize hasNULLBytes) sizes sizes.length
            (getNumChunks sizes.length) lists L := by
    intro hlarge
    have hnum := four_mul_numLargeLists_le hN (le_getNumChunks_mul sizes.length) hlarge
    have hentries := hwidths.entries
    obtain ⟨lists, L, hrun, hallocated, -⟩ := exists_calculateListsMetadata hN
      (length_calculateListHeadersTask headerSize sizes)
      (headersAgree_calculateListHeadersTask headerSize sizes) hlarge hentries
    exact ⟨by omega, lists, L, hrun, hallocated⟩
  constructor
  · rintro ⟨lists, hcopy, hpart⟩
    have hlarge : ∀ n ∈ sizes, getNumElementsInAPage headerSize ≤ n → 0 < n :=
      fun n hn hle ↦ pos_of_copyLists_eq_ok hcopy hn hle
    obtain ⟨hnum, lists', L, hcopy', hallocated⟩ := htask hlarge
    obtain rfl : lists = lists' := Except.ok.inj (hcopy.symm.trans hcopy')
    refine ⟨fun n hn hle ↦ ⟨hlarge n hn hle, ?_⟩, small_of_isPartition hpart hN⟩
    obtain ⟨v, hv⟩ := List.mem_iff_getElem?.mp hn
    exact large_of_isPartition hpart hallocated hN hnum hv hle
  · intro hfits
    obtain ⟨hnum, lists, L, hcopy, hallocated⟩ := htask fun n hn hle ↦ (hfits.large n hn hle).1
    exact ⟨lists, hcopy, isPartition_of_fitsHeaders hallocated hN hfits hnum⟩

/-- The headers have room for all small lists when an element has two bytes or more, as the node IDs
of adjacency lists have. -/
theorem fitsHeaders_of_two_le (htwo : 2 ≤ headerSize) (hlarge : ∀ n ∈ sizes,
    getNumElementsInAPage headerSize ≤ n → 0 < n ∧ n < 2 ^ 32) : FitsHeaders headerSize sizes := by
  have hm : getNumElementsInAPage headerSize ≤ 2048 :=
    Nat.div_le_div_left htwo (by decide)
  refine ⟨hlarge, fun v n _ hsmall _ ↦ ⟨by omega, ?_⟩⟩
  obtain ⟨before, hbefore⟩ : ∃ before, before = precedingInChunk sizes v := ⟨_, rfl⟩
  have hlength : before.length ≤ 511 := by
    have hdiv := Nat.div_add_mod' v listsChunkSize
    have hmod : v % listsChunkSize < listsChunkSize := Nat.mod_lt _ (by decide)
    rw [hbefore, precedingInChunk, List.length_drop, List.length_take]
    simp only [listsChunkSize] at *
    omega
  have hsum : smallElements (getNumElementsInAPage headerSize) before ≤
      (before.filter (· < getNumElementsInAPage headerSize)).length * 2047 := by
    rw [smallElements, ← smul_eq_mul]
    apply List.sum_le_card_nsmul
    intro x hx
    have hlt := (List.mem_filter.mp hx).2
    simp only [decide_eq_true_eq] at hlt
    omega
  have hfilter := List.length_filter_le (· < getNumElementsInAPage headerSize) before
  rw [← hbefore]
  omega

theorem copiesAsPartition_adjacencyLists : CopiesAsPartition 8 16 true [600, 3, 0, 200] :=
  (copiesAsPartition_iff_fitsHeaders (by decide) (by decide) ⟨by decide, by decide +kernel⟩).mpr
    (fitsHeaders_of_two_le (by decide) (by decide))

/-- The last bytes of the unstructured properties of two nodes, 100 and 2048 bytes long, go to the
same place. -/
theorem not_copiesAsPartition_unstructured : ¬CopiesAsPartition 1 1 false [100, 2048] := by
  rintro ⟨lists, -, hpart⟩
  have hsame : lists.cursor (calculateListHeadersTask 1 [100, 2048]) 1 false 0 1 =
      lists.cursor (calculateListHeadersTask 1 [100, 2048]) 1 false 1 1 := by
    have hfirst := @cursor_of_small 1 1 0 100 false [100, 2048] rfl (by decide) lists 1
    have hsecond := @cursor_of_small 1 1 1 2048 false [100, 2048] rfl (by decide) lists 1
    rw [hfirst, hsecond]
    exact congrArg (cursorAt _ _) (by decide)
  have heq := hpart.distinct 0 1 1 1 ⟨100, rfl, by decide, by decide⟩
    ⟨2048, rfl, by decide, by decide⟩ hsame
  exact absurd heq.1 (by decide)

end Partition

end Graphflow.Storage
