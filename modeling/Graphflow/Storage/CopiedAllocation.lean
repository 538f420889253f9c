import Graphflow.Storage.CopiedPageLists

/-!
# Allocating the pages of copied lists

What the loops over the chunks and their nodes have done after some of the nodes, and what they
leave in the end.  The lists with at least `m` elements are the large ones, and a page holds `N`
elements.
-/

namespace Graphflow.Storage

open Lib ListsMetadataBuilder InMemStructuresCSVCopier

section NumLargeLists

variable {m i j n : ℕ} {sizes : List ℕ}

theorem numLargeLists_take_succ_of_large (hi : sizes[i]? = some n) (hlarge : m ≤ n) :
    numLargeLists m (sizes.take (i + 1)) = numLargeLists m (sizes.take i) + 1 := by
  obtain ⟨hlt, rfl⟩ := List.getElem?_eq_some_iff.mp hi
  rw [numLargeLists, List.take_succ_eq_append_getElem hlt, List.countP_append,
    List.countP_singleton, if_pos (by simpa using hlarge)]
  rfl

theorem numLargeLists_take_succ_of_small (hi : sizes[i]? = some n) (hsmall : n < m) :
    numLargeLists m (sizes.take (i + 1)) = numLargeLists m (sizes.take i) := by
  obtain ⟨hlt, rfl⟩ := List.getElem?_eq_some_iff.mp hi
  rw [numLargeLists, List.take_succ_eq_append_getElem hlt, List.countP_append,
    List.countP_singleton, if_neg (by simpa using hsmall), Nat.add_zero]
  rfl

theorem numLargeLists_take_lt (hi : sizes[i]? = some n) (hlarge : m ≤ n) (hij : i < j) :
    numLargeLists m (sizes.take i) < numLargeLists m (sizes.take j) := by
  have hle : numLargeLists m (sizes.take (i + 1)) ≤ numLargeLists m (sizes.take j) :=
    (List.take_sublist_take_left hij).countP_le
  rw [numLargeLists_take_succ_of_large hi hlarge] at hle
  exact hle

/-- Large lists have different indices. -/
theorem eq_of_numLargeLists_take_eq {n' : ℕ} (hi : sizes[i]? = some n) (hlarge : m ≤ n)
    (hj : sizes[j]? = some n') (hlarge' : m ≤ n')
    (heq : numLargeLists m (sizes.take i) = numLargeLists m (sizes.take j)) : i = j := by
  rcases Nat.lt_trichotomy i j with hlt | rfl | hgt
  · exact absurd heq (numLargeLists_take_lt hi hlarge hlt).ne
  · rfl
  · exact absurd heq (numLargeLists_take_lt hj hlarge' hgt).ne'

theorem numLargeLists_take_lt_numLargeLists (hi : sizes[i]? = some n) (hlarge : m ≤ n) :
    numLargeLists m (sizes.take i) < numLargeLists m sizes := by
  have hlt := (List.getElem?_eq_some_iff.mp hi).1
  have hall := numLargeLists_take_lt hi hlarge hlt
  rwa [List.take_length] at hall

end NumLargeLists

/-! ## The length of the page lists -/

/-- The entries of the page list for some elements. -/
def pageListEntries (N numElements : ℕ) : ℕ :=
  pageListGroupWithNextPtrSize * getNumPageListGroups (numPagesFor N numElements)

def largeListEntries (m N : ℕ) (sizes : List ℕ) : ℕ :=
  ((sizes.filter (m ≤ ·)).map (pageListEntries N)).sum

/-- The entries of all page lists: of the large lists in each chunk and of the chunk. -/
def numPageListEntries (m N : ℕ) : ℕ → List ℕ → ℕ
  | 0, _ => 0
  | numChunks + 1, sizes =>
      largeListEntries m N (sizes.take listsChunkSize) +
        pageListEntries N (smallElements m (sizes.take listsChunkSize)) +
        numPageListEntries m N numChunks (sizes.drop listsChunkSize)

section Entries

variable {m N n numChunks : ℕ} {sizes : List ℕ}

theorem largeListEntries_cons_of_large (hlarge : m ≤ n) :
    largeListEntries m N (n :: sizes) = pageListEntries N n + largeListEntries m N sizes := by
  simp [largeListEntries, hlarge]

theorem largeListEntries_cons_of_small (hsmall : n < m) :
    largeListEntries m N (n :: sizes) = largeListEntries m N sizes := by
  simp [largeListEntries, hsmall]

theorem le_pageListEntries (hN : 0 < N) (hpos : 0 < n) : 4 ≤ pageListEntries N n := by
  have hpages := numPagesFor_pos hN hpos
  rw [pageListEntries, getNumPageListGroups_eq]
  simp only [pageListGroupWithNextPtrSize, pageListGroupSize]
  omega

theorem four_mul_numLargeLists_le_largeListEntries (hN : 0 < N)
    (hpos : ∀ n ∈ sizes, m ≤ n → 0 < n) :
    4 * numLargeLists m sizes ≤ largeListEntries m N sizes := by
  induction sizes with
  | nil => exact Nat.zero_le _
  | cons n sizes ih =>
      have hrest := ih fun n hn ↦ hpos n (List.mem_cons_of_mem _ hn)
      by_cases hlarge : m ≤ n
      · have hentries := le_pageListEntries hN (hpos n List.mem_cons_self hlarge)
        have hnum : numLargeLists m (n :: sizes) = numLargeLists m sizes + 1 :=
          List.countP_cons_of_pos (by simpa using hlarge)
        rw [largeListEntries_cons_of_large hlarge, hnum]
        omega
      · have hnum : numLargeLists m (n :: sizes) = numLargeLists m sizes :=
          List.countP_cons_of_neg (by simpa using hlarge)
        rwa [largeListEntries_cons_of_small (Nat.lt_of_not_le hlarge), hnum]

theorem four_mul_numLargeLists_le (hN : 0 < N) (hlength : sizes.length ≤ numChunks * listsChunkSize)
    (hpos : ∀ n ∈ sizes, m ≤ n → 0 < n) :
    4 * numLargeLists m sizes ≤ numPageListEntries m N numChunks sizes := by
  induction numChunks generalizing sizes with
  | zero =>
      obtain rfl : sizes = [] := List.eq_nil_of_length_eq_zero (by omega)
      exact Nat.zero_le _
  | succ numChunks ih =>
      rw [Nat.succ_mul] at hlength
      have hchunk : 4 * numLargeLists m (sizes.take listsChunkSize) ≤
          largeListEntries m N (sizes.take listsChunkSize) :=
        four_mul_numLargeLists_le_largeListEntries hN fun n hn ↦ hpos n (List.mem_of_mem_take hn)
      have hlength' : (sizes.drop listsChunkSize).length ≤ numChunks * listsChunkSize := by
        rw [List.length_drop]
        omega
      have hrest : 4 * numLargeLists m (sizes.drop listsChunkSize) ≤
          numPageListEntries m N numChunks (sizes.drop listsChunkSize) :=
        ih hlength' fun n hn ↦ hpos n (List.mem_of_mem_drop hn)
      have hsplit : numLargeLists m sizes = numLargeLists m (sizes.take listsChunkSize) +
          numLargeLists m (sizes.drop listsChunkSize) := by
        rw [numLargeLists, numLargeLists, numLargeLists, ← List.countP_append,
          List.take_append_drop]
      rw [numPageListEntries, hsplit]
      omega

end Entries

/-! ## What has been allocated -/

/-- A large list with its place in the array of large lists. -/
structure LargeListAllocated (N n l : ℕ) (builder : ListsMetadataBuilder) (L : ListsLayout) :
    Prop where
  head : builder.largeListIdxToPageListHeadIdxMap[2 * l]? = some (L.groups (.largeList l)).head?
  numElements : builder.largeListIdxToPageListHeadIdxMap[2 * l + 1]? = some (toUInt32 n)
  pages : (L.pages (.largeList l)).length = numPagesFor N n

structure ChunkAllocated (N numElements k : ℕ) (builder : ListsMetadataBuilder)
    (L : ListsLayout) : Prop where
  head : builder.chunkToPageListHeadIdxMap[k]? = some (L.groups (.chunk k)).head?
  pages : (L.pages (.chunk k)).length = numPagesFor N numElements

/-- The lists of chunk `k`. -/
def chunkOf (sizes : List ℕ) (k : ℕ) : List ℕ :=
  (sizes.drop (k * listsChunkSize)).take listsChunkSize

/-- The first `t` nodes have got their large lists, and the first `c` chunks their pages. -/
structure Allocated (m N : ℕ) (sizes : List ℕ) (t c : ℕ) (lists : InMemLists) (L : ListsLayout) :
    Prop where
  described : L.Describes lists.listsMetadataBuilder.pageLists lists.numPages
  numPages_le : 4 * lists.numPages ≤ 3 * lists.listsMetadataBuilder.pageLists.length
  large : ∀ i n, i < t → sizes[i]? = some n → m ≤ n →
    LargeListAllocated N n (numLargeLists m (sizes.take i)) lists.listsMetadataBuilder L
  chunk : ∀ k < c, ChunkAllocated N (smallElements m (chunkOf sizes k)) k
    lists.listsMetadataBuilder L
  rest : ∀ k, c ≤ k → k < getNumChunks sizes.length →
    ChunkAllocated N 0 k lists.listsMetadataBuilder L
  numChunks : lists.listsMetadataBuilder.chunkToPageListHeadIdxMap.length =
    getNumChunks sizes.length
  numLarge : lists.listsMetadataBuilder.largeListIdxToPageListHeadIdxMap.length =
    2 * numLargeLists m sizes

section Populate

variable {builder : ListsMetadataBuilder} {numPages : ℕ}

theorem exists_populateLargeListPageList (builder : ListsMetadataBuilder) (hpages : 0 < numPages)
    (l numElements start : ℕ) :
    ∃ builder', builder.populateLargeListPageList l numPages numElements start = .ok builder' ∧
      builder'.chunkToPageListHeadIdxMap = builder.chunkToPageListHeadIdxMap ∧
      builder'.largeListIdxToPageListHeadIdxMap =
        (builder.largeListIdxToPageListHeadIdxMap.set (2 * l)
          (toUInt32 builder.pageLists.length)).set (2 * l + 1) (toUInt32 numElements) ∧
      builder'.pageLists = builder.pageLists ++ pageListGroups (getNumPageListGroups numPages)
        builder.pageLists.length numPages start :=
  ⟨_, if_neg hpages.ne', rfl, rfl, rfl⟩

theorem chunkMap_populateChunkPageList (hpages : 0 < numPages) (c start : ℕ) :
    (builder.populateChunkPageList c numPages start).chunkToPageListHeadIdxMap =
      builder.chunkToPageListHeadIdxMap.set c (toUInt32 builder.pageLists.length) := by
  rw [populateChunkPageList, if_neg hpages.ne']
  rfl

theorem pageLists_populateChunkPageList (builder : ListsMetadataBuilder) (hpages : 0 < numPages)
    (c start : ℕ) :
    (builder.populateChunkPageList c numPages start).pageLists =
      builder.pageLists ++ pageListGroups (getNumPageListGroups numPages)
        builder.pageLists.length numPages start := by
  rw [populateChunkPageList, if_neg hpages.ne']
  rfl

theorem largeMap_populateChunkPageList (c numPages start : ℕ) :
    (builder.populateChunkPageList c numPages start).largeListIdxToPageListHeadIdxMap =
      builder.largeListIdxToPageListHeadIdxMap := by
  rw [populateChunkPageList]
  split <;> rfl

end Populate

section Steps

variable {m N t c n l k header : ℕ} {sizes : List ℕ} {lists : InMemLists} {L L' : ListsLayout}
  {s : ChunkAllocation} {builder builder' : ListsMetadataBuilder}

theorem LargeListAllocated.congr (h : LargeListAllocated N n l builder L)
    (hhead : builder'.largeListIdxToPageListHeadIdxMap[2 * l]? =
      builder.largeListIdxToPageListHeadIdxMap[2 * l]?)
    (hnum : builder'.largeListIdxToPageListHeadIdxMap[2 * l + 1]? =
      builder.largeListIdxToPageListHeadIdxMap[2 * l + 1]?)
    (hgroups : L'.groups (.largeList l) = L.groups (.largeList l))
    (hpages : L'.pages (.largeList l) = L.pages (.largeList l)) :
    LargeListAllocated N n l builder' L' :=
  ⟨by rw [hhead, hgroups, h.head], by rw [hnum, h.numElements], by rw [hpages, h.pages]⟩

theorem ChunkAllocated.congr (h : ChunkAllocated N n k builder L)
    (hhead : builder'.chunkToPageListHeadIdxMap[k]? = builder.chunkToPageListHeadIdxMap[k]?)
    (hgroups : L'.groups (.chunk k) = L.groups (.chunk k))
    (hpages : L'.pages (.chunk k) = L.pages (.chunk k)) :
    ChunkAllocated N n k builder' L' :=
  ⟨by rw [hhead, hgroups, h.head], by rw [hpages, h.pages]⟩

theorem Allocated.add_numPagesFor_lt (h : Allocated m N sizes t c lists L)
    (hfits : lists.listsMetadataBuilder.pageLists.length + pageListEntries N n ≤ 2 ^ 32) :
    lists.numPages + numPagesFor N n < 2 ^ 32 := by
  have hle := h.numPages_le
  rw [pageListEntries, getNumPageListGroups_eq] at hfits
  simp only [pageListGroupWithNextPtrSize, pageListGroupSize] at hfits
  omega

theorem Allocated.four_mul_add_le (h : Allocated m N sizes t c lists L) (n : ℕ) :
    4 * (lists.numPages + numPagesFor N n) ≤
      3 * (lists.listsMetadataBuilder.pageLists.length + pageListEntries N n) := by
  have hle := h.numPages_le
  rw [pageListEntries, getNumPageListGroups_eq]
  simp only [pageListGroupWithNextPtrSize, pageListGroupSize]
  omega

/-- A small list changes nothing that is in the arrays. -/
theorem Allocated.succ_of_small (h : Allocated m N sizes t c lists L) (ht : sizes[t]? = some n)
    (hsmall : n < m) : Allocated m N sizes (t + 1) c lists L := by
  refine { h with large := fun i n' hi hn' hlarge ↦ ?_ }
  rcases Nat.lt_succ_iff_lt_or_eq.mp hi with hlt | rfl
  · exact h.large i n' hlt hn' hlarge
  · obtain rfl : n = n' := Option.some.inj (ht.symm.trans hn')
    omega

/-- A large list gets its page list. -/
theorem Allocated.succ_of_large (h : Allocated m N sizes t c lists L) (hN : 0 < N)
    (ht : sizes[t]? = some n) (hlarge : m ≤ n) (hpos : 0 < n)
    (hl : l = numLargeLists m (sizes.take t))
    (hfits : lists.listsMetadataBuilder.pageLists.length + pageListEntries N n ≤ 2 ^ 32)
    (hchunkMap : builder'.chunkToPageListHeadIdxMap =
      lists.listsMetadataBuilder.chunkToPageListHeadIdxMap)
    (hlargeMap : builder'.largeListIdxToPageListHeadIdxMap =
      (lists.listsMetadataBuilder.largeListIdxToPageListHeadIdxMap.set (2 * l)
        (toUInt32 lists.listsMetadataBuilder.pageLists.length)).set (2 * l + 1) (toUInt32 n))
    (hpageLists : builder'.pageLists = lists.listsMetadataBuilder.pageLists ++
      pageListGroups (getNumPageListGroups (numPagesFor N n))
        lists.listsMetadataBuilder.pageLists.length (numPagesFor N n) lists.numPages) :
    Allocated m N sizes (t + 1) c ⟨builder', lists.numPages + numPagesFor N n⟩
      (L.addPageList (.largeList l) lists.listsMetadataBuilder.pageLists.length lists.numPages
        (numPagesFor N n)) := by
  have hpages : 0 < numPagesFor N n := numPagesFor_pos hN hpos
  have hhead : lists.listsMetadataBuilder.pageLists.length < 2 ^ 32 - 1 := by
    have hentries := le_pageListEntries hN hpos
    omega
  have hmap : l < numLargeLists m sizes := hl ▸ numLargeLists_take_lt_numLargeLists ht hlarge
  have hlength := h.numLarge
  have hchunk : ∀ {n' k}, ChunkAllocated N n' k lists.listsMetadataBuilder L →
      ChunkAllocated N n' k builder' (L.addPageList (.largeList l)
        lists.listsMetadataBuilder.pageLists.length lists.numPages (numPagesFor N n)) := by
    intro n' k hk
    apply hk.congr
    · rw [hchunkMap]
    · exact ListsLayout.groups_addPageList_of_ne (by simp) ..
    · exact ListsLayout.pages_addPageList_of_ne (by simp) ..
  refine {
    described := ?_
    numPages_le := ?_
    large := ?_
    chunk := fun k hk ↦ hchunk (h.chunk k hk)
    rest := fun k hk hlt ↦ hchunk (h.rest k hk hlt)
    numChunks := by rw [hchunkMap, h.numChunks]
    numLarge := by rw [hlargeMap, List.length_set, List.length_set, hlength] }
  · show ListsLayout.Describes _ builder'.pageLists _
    rw [hpageLists]
    exact h.described.addPageList hfits (h.add_numPagesFor_lt hfits)
  · show 4 * (lists.numPages + numPagesFor N n) ≤ 3 * builder'.pageLists.length
    rw [hpageLists, List.length_append, length_pageListGroups]
    exact h.four_mul_add_le n
  · intro i n' hi hn' hlarge'
    rcases Nat.lt_succ_iff_lt_or_eq.mp hi with hlt | rfl
    · have hne : numLargeLists m (sizes.take i) < l := hl ▸ numLargeLists_take_lt hn' hlarge' hlt
      have howner : PageOwner.largeList (numLargeLists m (sizes.take i)) ≠ .largeList l := by
        simpa using hne.ne
      apply (h.large i n' hlt hn' hlarge').congr
      · rw [hlargeMap, List.getElem?_set_ne (by omega), List.getElem?_set_ne (by omega)]
      · rw [hlargeMap, List.getElem?_set_ne (by omega), List.getElem?_set_ne (by omega)]
      · exact ListsLayout.groups_addPageList_of_ne howner ..
      · exact ListsLayout.pages_addPageList_of_ne howner ..
    · obtain rfl : n = n' := Option.some.inj (ht.symm.trans hn')
      rw [← hl]
      refine ⟨?_, ?_, ?_⟩
      · rw [hlargeMap, List.getElem?_set_ne (by omega), List.getElem?_set_self (by omega),
          toUInt32_of_lt hhead, ListsLayout.head?_groups_addPageList hpages]
      · rw [hlargeMap, List.getElem?_set_self (by rw [List.length_set]; omega)]
      · rw [ListsLayout.pages_addPageList, List.length_range']

/-- The chunk whose nodes have been gone through gets its pages. -/
theorem Allocated.closeChunk (h : Allocated m N sizes t c lists L)
    (hc : c < getNumChunks sizes.length) (hn : n = smallElements m (chunkOf sizes c))
    (hfits : lists.listsMetadataBuilder.pageLists.length + pageListEntries N n ≤ 2 ^ 32) :
    ∃ L', Allocated m N sizes t (c + 1)
      ⟨lists.listsMetadataBuilder.populateChunkPageList c (numPagesFor N n) lists.numPages,
        lists.numPages + numPagesFor N n⟩ L' ∧
      (lists.listsMetadataBuilder.populateChunkPageList c (numPagesFor N n)
        lists.numPages).pageLists.length =
          lists.listsMetadataBuilder.pageLists.length + pageListEntries N n := by
  by_cases hnone : numPagesFor N n = 0
  · have hsame : lists.listsMetadataBuilder.populateChunkPageList c (numPagesFor N n)
        lists.numPages = lists.listsMetadataBuilder := if_pos hnone
    have hentries : pageListEntries N n = 0 := by
      rw [pageListEntries, hnone]
      rfl
    rw [hsame, hentries, hnone]
    refine ⟨L, { h with chunk := fun k hk ↦ ?_, rest := fun k hk ↦ h.rest k (by omega) }, rfl⟩
    rcases Nat.lt_succ_iff_lt_or_eq.mp hk with hlt | rfl
    · exact h.chunk k hlt
    · have hrest := h.rest k le_rfl hc
      have hpages : numPagesFor N 0 = 0 := by
        have hmono : numPagesFor N 0 ≤ numPagesFor N n :=
          Nat.div_le_div_right (by omega)
        omega
      exact ⟨hrest.head, by rw [hrest.pages, hpages, ← hn, hnone]⟩
  · have hpages : 0 < numPagesFor N n := Nat.pos_of_ne_zero hnone
    have hpageLists := pageLists_populateChunkPageList lists.listsMetadataBuilder hpages c
      lists.numPages
    have hlength : (lists.listsMetadataBuilder.populateChunkPageList c (numPagesFor N n)
        lists.numPages).pageLists.length =
          lists.listsMetadataBuilder.pageLists.length + pageListEntries N n := by
      rw [hpageLists, List.length_append, length_pageListGroups]
      rfl
    have hhead : lists.listsMetadataBuilder.pageLists.length < 2 ^ 32 - 1 := by
      have hgroups : 4 ≤ pageListEntries N n := by
        rw [pageListEntries, getNumPageListGroups_eq]
        simp only [pageListGroupWithNextPtrSize, pageListGroupSize]
        omega
      omega
    have hchunk : ∀ {n' k}, k ≠ c → ChunkAllocated N n' k lists.listsMetadataBuilder L →
        ChunkAllocated N n' k
          (lists.listsMetadataBuilder.populateChunkPageList c (numPagesFor N n) lists.numPages)
          (L.addPageList (.chunk c) lists.listsMetadataBuilder.pageLists.length lists.numPages
            (numPagesFor N n)) := by
      intro n' k hne hk
      apply hk.congr
      · rw [chunkMap_populateChunkPageList hpages, List.getElem?_set_ne hne.symm]
      · exact ListsLayout.groups_addPageList_of_ne (by simpa using hne) ..
      · exact ListsLayout.pages_addPageList_of_ne (by simpa using hne) ..
    refine ⟨L.addPageList (.chunk c) lists.listsMetadataBuilder.pageLists.length lists.numPages
      (numPagesFor N n), ?_, hlength⟩
    refine {
      described := ?_
      numPages_le := ?_
      large := ?_
      chunk := ?_
      rest := fun k hk hlt ↦ hchunk (by omega) (h.rest k (by omega) hlt)
      numChunks := ?_
      numLarge := ?_ }
    · show ListsLayout.Describes _ (ListsMetadataBuilder.pageLists _) _
      rw [hpageLists]
      exact h.described.addPageList hfits (h.add_numPagesFor_lt hfits)
    · show 4 * (lists.numPages + numPagesFor N n) ≤ 3 * (ListsMetadataBuilder.pageLists _).length
      rw [hlength]
      exact h.four_mul_add_le n
    · intro i n' hi hn' hlarge
      apply (h.large i n' hi hn' hlarge).congr
      · rw [largeMap_populateChunkPageList]
      · rw [largeMap_populateChunkPageList]
      · exact ListsLayout.groups_addPageList_of_ne (by simp) ..
      · exact ListsLayout.pages_addPageList_of_ne (by simp) ..
    · intro k hk
      by_cases hkc : k = c
      · subst hkc
        refine ⟨?_, ?_⟩
        · rw [chunkMap_populateChunkPageList hpages,
            List.getElem?_set_self (by rw [h.numChunks]; exact hc), toUInt32_of_lt hhead,
            ListsLayout.head?_groups_addPageList hpages]
        · rw [ListsLayout.pages_addPageList, List.length_range', hn]
      · exact hchunk hkc (h.chunk k (by omega))
    · show (ListsMetadataBuilder.chunkToPageListHeadIdxMap _).length = _
      rw [chunkMap_populateChunkPageList hpages, List.length_set, h.numChunks]
    · show (ListsMetadataBuilder.largeListIdxToPageListHeadIdxMap _).length = _
      rw [largeMap_populateChunkPageList, h.numLarge]

end Steps

/-! ## The loops -/

section Loops

variable {m N t c n total header : ℕ} {sizes : List ℕ} {lists : InMemLists} {L : ListsLayout}
  {s : ChunkAllocation}

/-- The variables of the loop over the nodes of a chunk, before node `t`. -/
structure InChunk (m N : ℕ) (sizes : List ℕ) (t c total : ℕ) (s : ChunkAllocation)
    (L : ListsLayout) : Prop where
  allocated : Allocated m N sizes t c s.inMemList L
  largeListIdx : s.largeListIdx = numLargeLists m (sizes.take t)
  filled : Filled N total s.numPages s.offsetInPage

theorem exists_allocateList_of_small (h : InChunk m N sizes t c total s L) (hN : 0 < N)
    (ht : sizes[t]? = some n) (hsmall : n < m)
    (hheader : ListHeaders.isALargeList header = false) :
    ∃ s', allocateList N s (header, n) = .ok s' ∧ InChunk m N sizes (t + 1) c (total + n) s' L ∧
      s'.inMemList = s.inMemList := by
  have hfilled := h.filled
  have hne : 0 < total + n → 0 < s.offsetInPage + n := by
    intro hpos
    by_cases htotal : 0 < total
    · exact Nat.add_pos_left (hfilled.pos htotal) n
    · omega
  have hfill := filled_fillPages hN hfilled.total_eq hfilled.le hne le_rfl
  have hidx : s.largeListIdx = numLargeLists m (sizes.take (t + 1)) := by
    rw [numLargeLists_take_succ_of_small ht hsmall, h.largeListIdx]
  obtain ⟨filled, hf⟩ : ∃ filled, filled = fillPages N (n + s.offsetInPage) n s.numPages
    s.offsetInPage := ⟨_, rfl⟩
  rw [← hf] at hfill
  refine ⟨{ s with numPages := filled.1, offsetInPage := filled.2 }, ?_,
    ⟨h.allocated.succ_of_small ht hsmall, hidx, hfill⟩, rfl⟩
  simp only [allocateList, hheader, Bool.false_eq_true, if_false, ← hf]

theorem exists_allocateList_of_large (h : InChunk m N sizes t c total s L) (hN : 0 < N)
    (ht : sizes[t]? = some n) (hlarge : m ≤ n) (hpos : 0 < n)
    (hheader : ListHeaders.isALargeList header = true)
    (hfits : s.inMemList.listsMetadataBuilder.pageLists.length + pageListEntries N n ≤ 2 ^ 32) :
    ∃ s' L', allocateList N s (header, n) = .ok s' ∧ InChunk m N sizes (t + 1) c total s' L' ∧
      s'.inMemList.listsMetadataBuilder.pageLists.length =
        s.inMemList.listsMetadataBuilder.pageLists.length + pageListEntries N n := by
  obtain ⟨builder', hpopulate, hchunkMap, hlargeMap, hpageLists⟩ :=
    exists_populateLargeListPageList s.inMemList.listsMetadataBuilder (numPagesFor_pos hN hpos)
      s.largeListIdx n s.inMemList.numPages
  have hidx : s.largeListIdx + 1 = numLargeLists m (sizes.take (t + 1)) := by
    rw [numLargeLists_take_succ_of_large ht hlarge, h.largeListIdx]
  refine ⟨{ s with
    inMemList := ⟨builder', s.inMemList.numPages + numPagesFor N n⟩
    largeListIdx := s.largeListIdx + 1 }, _, ?_,
    ⟨h.allocated.succ_of_large hN ht hlarge hpos h.largeListIdx hfits hchunkMap hlargeMap
      hpageLists, hidx, h.filled⟩, ?_⟩
  · simp only [allocateList, hheader, if_true, ite_mod_ne_zero_eq_numPagesFor hN, hpopulate,
      ok_bind, pure_eq_ok]
  · show builder'.pageLists.length = _
    rw [hpageLists, List.length_append, length_pageListGroups]
    rfl

/-- The headers of some nodes tell which lists are large. -/
def HeadersAgree (m : ℕ) (nodes : List (ℕ × ℕ)) : Prop :=
  ∀ node ∈ nodes, ListHeaders.isALargeList node.1 = decide (m ≤ node.2)

theorem exists_foldlM_allocateList {nodes : List (ℕ × ℕ)} (h : InChunk m N sizes t c total s L)
    (hN : 0 < N) (hsizes : ∀ i node, nodes[i]? = some node → sizes[t + i]? = some node.2)
    (hheaders : HeadersAgree m nodes) (hpos : ∀ n ∈ sizes, m ≤ n → 0 < n)
    (hfits : s.inMemList.listsMetadataBuilder.pageLists.length +
      largeListEntries m N (nodes.map Prod.snd) ≤ 2 ^ 32) :
    ∃ s' L', nodes.foldlM (allocateList N) s = .ok s' ∧
      InChunk m N sizes (t + nodes.length) c (total + smallElements m (nodes.map Prod.snd)) s' L' ∧
      s'.inMemList.listsMetadataBuilder.pageLists.length =
        s.inMemList.listsMetadataBuilder.pageLists.length +
          largeListEntries m N (nodes.map Prod.snd) := by
  induction nodes generalizing s t total L with
  | nil => exact ⟨s, L, rfl, h, rfl⟩
  | cons node nodes ih =>
      obtain ⟨header, n⟩ := node
      have ht : sizes[t]? = some n := hsizes 0 (header, n) rfl
      have hheader := hheaders (header, n) List.mem_cons_self
      have hrest : ∀ i node, nodes[i]? = some node → sizes[t + 1 + i]? = some node.2 := by
        intro i node hi
        rw [Nat.add_assoc, Nat.add_comm 1 i]
        exact hsizes (i + 1) node hi
      have hheaders' : HeadersAgree m nodes := fun node hn ↦
        hheaders node (List.mem_cons_of_mem _ hn)
      have hcount : t + (nodes.length + 1) = t + 1 + nodes.length := by omega
      rw [List.foldlM_cons, List.map_cons, List.length_cons, hcount]
      rw [List.map_cons] at hfits
      by_cases hlarge : m ≤ n
      · rw [largeListEntries_cons_of_large hlarge] at hfits ⊢
        obtain ⟨s₁, L₁, hstep, h₁, hlength₁⟩ := exists_allocateList_of_large h hN ht hlarge
          (hpos n (List.mem_of_getElem? ht) hlarge) (by simpa [hlarge] using hheader) (by omega)
        obtain ⟨s', L', hloop, h', hlength'⟩ := ih h₁ hrest hheaders' (by omega)
        refine ⟨s', L', ?_, ?_, by omega⟩
        · rw [hstep, ok_bind, hloop]
        · simpa [smallElements, hlarge] using h'
      · have hsmall : n < m := Nat.lt_of_not_le hlarge
        rw [largeListEntries_cons_of_small hsmall] at hfits ⊢
        obtain ⟨s₁, hstep, h₁, hsame⟩ := exists_allocateList_of_small h hN ht hsmall
          (by simpa [hlarge] using hheader)
        obtain ⟨s', L', hloop, h', hlength'⟩ := ih h₁ hrest hheaders' (by rwa [hsame])
        refine ⟨s', L', ?_, ?_, by rw [hlength', hsame]⟩
        · rw [hstep, ok_bind, hloop]
        · simpa [smallElements, hsmall, Nat.add_assoc] using h'

theorem exists_allocateChunks {numChunks : ℕ} {nodes : List (ℕ × ℕ)}
    (h : Allocated m N sizes (min (c * listsChunkSize) sizes.length) c lists L) (hN : 0 < N)
    (hcount : c + numChunks = getNumChunks sizes.length)
    (hnodes : nodes.map Prod.snd = sizes.drop (c * listsChunkSize))
    (hheaders : HeadersAgree m nodes) (hpos : ∀ n ∈ sizes, m ≤ n → 0 < n)
    (hfits : lists.listsMetadataBuilder.pageLists.length +
      numPageListEntries m N numChunks (nodes.map Prod.snd) ≤ 2 ^ 32) :
    ∃ lists' L', allocateChunks N numChunks c nodes lists
        (numLargeLists m (sizes.take (c * listsChunkSize))) = .ok lists' ∧
      Allocated m N sizes sizes.length (getNumChunks sizes.length) lists' L' ∧
      lists'.listsMetadataBuilder.pageLists.length ≤ 2 ^ 32 := by
  induction numChunks generalizing c nodes lists L with
  | zero =>
      have hall := le_getNumChunks_mul sizes.length
      rw [← hcount] at hall
      simp only [Nat.add_zero] at hall hcount
      rw [Nat.min_eq_right hall] at h
      exact ⟨lists, L, rfl, hcount ▸ h, by simpa [numPageListEntries] using hfits⟩
  | succ numChunks ih =>
      have hlt : c * listsChunkSize < sizes.length := by
        have hc : c < getNumChunks sizes.length := by omega
        by_contra hge
        rw [getNumChunks] at hc
        split at hc <;> simp only [listsChunkSize] at * <;> omega
      have hchunk : (nodes.take listsChunkSize).map Prod.snd = chunkOf sizes c := by
        rw [List.map_take, hnodes]
        rfl
      have hlength : nodes.length = sizes.length - c * listsChunkSize := by
        rw [← List.length_map (f := Prod.snd), hnodes, List.length_drop]
      rw [numPageListEntries, ← List.map_take, hchunk] at hfits
      rw [Nat.min_eq_left hlt.le] at h
      have hsizes : ∀ i node, (nodes.take listsChunkSize)[i]? = some node →
          sizes[c * listsChunkSize + i]? = some node.2 := by
        intro i node hi
        have hi' : nodes[i]? = some node := by
          obtain ⟨hlt', -⟩ := List.getElem?_eq_some_iff.mp hi
          rwa [List.getElem?_take_of_lt (by rw [List.length_take] at hlt'; omega)] at hi
        have hmap := congrArg (·[i]?) hnodes
        simp only [List.getElem?_map, hi', Option.map_some, List.getElem?_drop] at hmap
        exact hmap.symm
      obtain ⟨s, L₁, hloop, h₁, hlength₁⟩ := exists_foldlM_allocateList
        (s := ⟨lists, numLargeLists m (sizes.take (c * listsChunkSize)), 0, 0⟩)
        ⟨h, rfl, filled_zero N⟩ hN hsizes (fun node hn ↦ hheaders node (List.mem_of_mem_take hn))
        hpos (by
          rw [hchunk]
          show lists.listsMetadataBuilder.pageLists.length + _ ≤ _
          omega)
      rw [hchunk, Nat.zero_add] at h₁
      have hlength₁' : s.inMemList.listsMetadataBuilder.pageLists.length =
          lists.listsMetadataBuilder.pageLists.length +
            largeListEntries m N (chunkOf sizes c) := by
        rw [hlength₁, hchunk]
      obtain ⟨L₂, h₂, hlength₂⟩ := h₁.allocated.closeChunk (by omega) rfl (by omega)
      have hdone : c * listsChunkSize + (nodes.take listsChunkSize).length =
          min ((c + 1) * listsChunkSize) sizes.length := by
        rw [List.length_take, hlength, Nat.succ_mul]
        omega
      have htake : sizes.take (c * listsChunkSize + (nodes.take listsChunkSize).length) =
          sizes.take ((c + 1) * listsChunkSize) := by
        rw [hdone, List.take_eq_take_iff]
        omega
      have hidx := h₁.largeListIdx
      rw [htake] at hidx
      rw [hdone] at h₂
      have hnodes' : (nodes.drop listsChunkSize).map Prod.snd =
          sizes.drop ((c + 1) * listsChunkSize) := by
        rw [List.map_drop, hnodes, List.drop_drop, Nat.succ_mul]
      have hfits' : (s.inMemList.listsMetadataBuilder.populateChunkPageList c
          (numPagesFor N (smallElements m (chunkOf sizes c)))
          s.inMemList.numPages).pageLists.length +
          numPageListEntries m N numChunks ((nodes.drop listsChunkSize).map Prod.snd) ≤
            2 ^ 32 := by
        rw [hlength₂, List.map_drop]
        omega
      obtain ⟨lists', L', hrest, h', hbound⟩ := ih h₂ (by omega) hnodes'
        (fun node hn ↦ hheaders node (List.mem_of_mem_drop hn))
        hfits'
      refine ⟨lists', L', ?_, h', hbound⟩
      rw [allocateChunks, hloop, ok_bind, h₁.filled.ite_eq hN, hidx]
      exact hrest

end Loops

/-! ## The whole task -/

section Task

variable {m N elementSize : ℕ} {sizes headers : List ℕ} {hasNULLBytes : Bool}

theorem headersAgree_calculateListHeadersTask (elementSize : ℕ) (sizes : List ℕ) :
    HeadersAgree (getNumElementsInAPage elementSize)
      ((calculateListHeadersTask elementSize sizes).zip sizes) := by
  intro node hmem
  obtain ⟨i, hi⟩ := List.mem_iff_getElem?.mp hmem
  obtain ⟨hheader, hsize⟩ := List.getElem?_zip_eq_some.mp hi
  by_cases hlarge : getNumElementsInAPage elementSize ≤ node.2
  · rw [calculateListHeadersTask_getElem?_of_large hsize hlarge] at hheader
    rw [← Option.some.inj hheader, ListHeaders.isALargeList_getLargeListHeader,
      decide_eq_true hlarge]
  · rw [calculateListHeadersTask_getElem? hsize (Nat.lt_of_not_le hlarge)] at hheader
    rw [← Option.some.inj hheader, ListHeaders.isALargeList_getSmallListHeader,
      decide_eq_false hlarge]

theorem HeadersAgree.countP_eq {nodes : List (ℕ × ℕ)} (h : HeadersAgree m nodes) :
    (nodes.map Prod.fst).countP ListHeaders.isALargeList =
      numLargeLists m (nodes.map Prod.snd) := by
  rw [numLargeLists, List.countP_map, List.countP_map]
  exact List.countP_congr fun node hmem ↦ by simp [h node hmem]

/-- The layout before the first page list. -/
def ListsLayout.empty : ListsLayout := ⟨fun _ ↦ [], fun _ ↦ []⟩

theorem ListsLayout.describes_empty : ListsLayout.empty.Describes [] 0 where
  slots _ _ _ _ hg := absurd hg (by simp [ListsLayout.empty])
  next _ _ _ hg := absurd hg (by simp [ListsLayout.empty])
  fits _ := le_rfl
  aligned _ _ hg := absurd hg List.not_mem_nil
  length := rfl
  groups_distinct _ _ _ _ _ h := absurd h (by simp [ListsLayout.empty])
  pages_distinct _ _ _ _ _ h := absurd h (by simp [ListsLayout.empty])
  pages_lt _ _ hp := absurd hp List.not_mem_nil

theorem allocated_init (m : ℕ) (hN : 0 < N) (sizes : List ℕ) :
    Allocated m N sizes 0 0
      ⟨(InMemLists.new sizes.length).listsMetadataBuilder.initLargeListPageLists
        (numLargeLists m sizes), 0⟩ .empty where
  described := ListsLayout.describes_empty
  numPages_le := le_rfl
  large _ _ hi := absurd hi (Nat.not_lt_zero _)
  chunk _ hk := absurd hk (Nat.not_lt_zero _)
  rest k _ hlt := by
    refine ⟨?_, (numPagesFor_zero hN).symm⟩
    show (List.replicate _ _)[k]? = some none
    rw [List.getElem?_replicate, if_pos hlt]
  numChunks := List.length_replicate
  numLarge := by
    show (List.replicate _ _ ++ List.replicate _ _).length = _
    rw [List.length_append, List.length_replicate, List.length_replicate, Nat.two_mul]

/-- The task leaves a page list for each chunk and for each large list. -/
theorem exists_calculateListsMetadata
    (hN : 0 < PageUtils.getNumElementsInAPage elementSize hasNULLBytes)
    (hlength : headers.length = sizes.length) (hheaders : HeadersAgree m (headers.zip sizes))
    (hpos : ∀ n ∈ sizes, m ≤ n → 0 < n)
    (hfits : numPageListEntries m (PageUtils.getNumElementsInAPage elementSize hasNULLBytes)
      (getNumChunks sizes.length) sizes ≤ 2 ^ 32) :
    ∃ lists L, calculateListsMetadataAndAllocateInMemListPagesTask elementSize hasNULLBytes sizes
        headers (.new sizes.length) = .ok lists ∧
      Allocated m (PageUtils.getNumElementsInAPage elementSize hasNULLBytes) sizes sizes.length
        (getNumChunks sizes.length) lists L ∧
      lists.listsMetadataBuilder.pageLists.length ≤ 2 ^ 32 := by
  have hfst : (headers.zip sizes).map Prod.fst = headers :=
    List.map_fst_zip hlength.le
  have hsnd : (headers.zip sizes).map Prod.snd = sizes :=
    List.map_snd_zip hlength.ge
  have hcount : headers.countP ListHeaders.isALargeList = numLargeLists m sizes := by
    have hagree := hheaders.countP_eq
    rwa [hfst, hsnd] at hagree
  have hinit := allocated_init m hN sizes
  have hzero : min (0 * listsChunkSize) sizes.length = 0 := by simp
  rw [← hcount] at hinit
  rw [← hzero] at hinit
  obtain ⟨lists, L, hrun, hallocated, hbound⟩ := exists_allocateChunks hinit hN (Nat.zero_add _)
    (by simpa using hsnd) hheaders hpos (by
      rw [hsnd]
      exact (Nat.zero_add _).trans_le hfits)
  have hnone : numLargeLists m (sizes.take (0 * listsChunkSize)) = 0 := by simp [numLargeLists]
  rw [hnone] at hrun
  exact ⟨lists, L, hrun, hallocated, hbound⟩

end Task

end Graphflow.Storage
