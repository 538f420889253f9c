import Graphflow.Storage.ListsChunkMap

/-!
# The headers of small lists

Small lists get their headers when they are copied and when they are committed.
-/

namespace Graphflow.Storage

open Lib ListHeaders UnstructuredPropertyLists UnstructuredPropertyListsUpdateIterator

variable {itr itr₁ itr' : UnstructuredPropertyListsUpdateIterator} {nodeOffset csrOffset n : ℕ}
  {data : List UInt8}

/-- A list of `numElements` elements is stored as a small one that starts at `csrOffset`, and has
got the header. -/
inductive StoresSmallList : (csrOffset numElements header : ℕ) → Prop
  | copied (elementSize : ℕ) (listSizes : List ℕ) (i size header : ℕ) :
      listSizes[i]? = some size → size < getNumElementsInAPage elementSize →
      (calculateListHeadersTask elementSize listSizes)[i]? = some header →
      StoresSmallList
        (smallElements (getNumElementsInAPage elementSize) (precedingInChunk listSizes i)) size
        header
  /-- The iterator is not behind the node when it is asked for it; `itr₁` is the iterator when it
  has come to the node. -/
  | updated (itr itr₁ itr' : UnstructuredPropertyListsUpdateIterator) (nodeOffset : ℕ)
      (data : List UInt8) (header : ℕ) :
      (itr.curChunkIdx = some (nodeOffset / listsChunkSize) →
        itr.curUnprocessedNodeOffset ≤ nodeOffset) →
      itr.seekToNodeOffsetAndSlideListsIfNecessary nodeOffset = .ok itr₁ →
      (∀ oldHeader, itr₁.lists.headers.working[nodeOffset]? = some oldHeader →
        isALargeList oldHeader = false) →
      data.length ≤ defaultPageSize →
      itr.updateList nodeOffset data = .ok itr' →
      itr'.lists.headers.working[nodeOffset]? = some header →
      StoresSmallList itr₁.curCSROffset data.length header

/-! ## Where a seek ends -/

theorem samePlace_updateSmallList (itr : UnstructuredPropertyListsUpdateIterator) (oldHeader : ℕ)
    (data : List UInt8) :
    Outcome (fun _ ↦ True) (SamePlace itr) (itr.updateSmallListAndCurCSROffset oldHeader data) := by
  have hwrite : ∀ lists : UnstructuredPropertyLists, Outcome (fun _ ↦ True) (SamePlace itr)
      (if data = [] then pure { itr with lists := lists }
      else do
        let head ← getPageListHeadIdxOfChunk lists (itr.curChunkIdx.getD 0)
        let lists ← head.2.writeListToListPages data (some head.1) itr.curCSROffset
        return { itr with lists := lists, curCSROffset := itr.curCSROffset + data.length }) := by
    intro lists
    split_ifs with hnil
    · exact ⟨rfl, rfl⟩
    · exact (Outcome.trivial _).bind fun r _ ↦ (Outcome.trivial _).bind fun lists _ ↦ ⟨rfl, rfl⟩
  unfold updateSmallListAndCurCSROffset
  by_cases hne : getSmallListHeader itr.curCSROffset data.length ≠ oldHeader
  · simp only [if_pos hne]
    exact (Outcome.trivial _).bind fun headers _ ↦ hwrite _
  · simp only [if_neg hne]
    exact hwrite _

theorem outcome_slideList_cur (itr : UnstructuredPropertyListsUpdateIterator) :
    Outcome (fun _ ↦ True)
      (fun itr' ↦ itr'.curUnprocessedNodeOffset = itr.curUnprocessedNodeOffset + 1)
      itr.slideList := by
  unfold slideList
  refine (Outcome.trivial _).bind fun oldHeader _ ↦ ?_
  split_ifs with hlarge
  · rfl
  · simp only
    split_ifs with hmoved
    · refine (Outcome.trivial _).bind fun list _ ↦ ?_
      exact (samePlace_updateSmallList ..).bind fun itr' hplace ↦
        congrArg (· + 1) hplace.2
    · rfl

theorem outcome_slideLists_cur (n : ℕ) (itr : UnstructuredPropertyListsUpdateIterator) :
    Outcome (fun _ ↦ True)
      (fun itr' ↦ itr'.curUnprocessedNodeOffset = itr.curUnprocessedNodeOffset + n)
      (slideLists n itr) := by
  induction n generalizing itr with
  | zero => rfl
  | succ n ih =>
      refine (outcome_slideList_cur itr).bind fun itr₁ hcur ↦ (ih itr₁).mono (fun _ h ↦ h) ?_
      intro itr' hcur'
      omega

theorem outcome_seek_cur
    (hahead : itr.curChunkIdx = some (nodeOffset / listsChunkSize) →
      itr.curUnprocessedNodeOffset ≤ nodeOffset) :
    Outcome (fun _ ↦ True) (fun itr' ↦ itr'.curUnprocessedNodeOffset = nodeOffset)
      (itr.seekToNodeOffsetAndSlideListsIfNecessary nodeOffset) := by
  -- The rest of the way, from a node in front.
  have hslide : ∀ itr₁ : UnstructuredPropertyListsUpdateIterator,
      itr₁.curUnprocessedNodeOffset ≤ nodeOffset →
      Outcome (fun _ ↦ True) (fun itr' ↦ itr'.curUnprocessedNodeOffset = nodeOffset)
        (if 0 < nodeOffset then itr₁.slideListsIfNecessary (nodeOffset - 1) else pure itr₁) := by
    intro itr₁ hle
    split_ifs with hpos
    · refine (outcome_slideLists_cur _ itr₁).mono (fun _ h ↦ h) fun itr' hcur ↦ ?_
      omega
    · show itr₁.curUnprocessedNodeOffset = nodeOffset
      omega
  have hdiv := Nat.div_mul_le_self nodeOffset listsChunkSize
  unfold seekToNodeOffsetAndSlideListsIfNecessary
  cases hchunk : itr.curChunkIdx with
  | none => exact hslide _ hdiv
  | some c =>
      by_cases hc : c ≠ nodeOffset / listsChunkSize
      · simp only [if_pos hc]
        exact (Outcome.trivial _).bind fun itr₁ _ ↦ hslide _ hdiv
      · simp only [if_neg hc]
        rw [not_not] at hc
        exact hslide itr (hahead (by rw [hchunk, hc]))

/-! ## Faithful headers -/

/-- A list that is stored as a small one gets a header of its length and the current CSR offset. -/
theorem updateList_header
    (hahead : itr.curChunkIdx = some (nodeOffset / listsChunkSize) →
      itr.curUnprocessedNodeOffset ≤ nodeOffset)
    (hseek : itr.seekToNodeOffsetAndSlideListsIfNecessary nodeOffset = .ok itr₁)
    (hsmall : ∀ oldHeader, itr₁.lists.headers.working[nodeOffset]? = some oldHeader →
      isALargeList oldHeader = false)
    (hpage : data.length ≤ defaultPageSize) (hrun : itr.updateList nodeOffset data = .ok itr') :
    itr'.lists.headers.working[nodeOffset]? =
      some (getSmallListHeader itr₁.curCSROffset data.length) := by
  have hcur : itr₁.curUnprocessedNodeOffset = nodeOffset :=
    (outcome_seek_cur hahead).result hseek
  -- The rest of the step, for the header that the node has or gets.
  have hfinish : ∀ (itr₂ : UnstructuredPropertyListsUpdateIterator) (oldHeader : ℕ),
      itr₂.curUnprocessedNodeOffset = nodeOffset → itr₂.curCSROffset = itr₁.curCSROffset →
      itr₂.lists.headers.working[nodeOffset]? = some oldHeader → isALargeList oldHeader = false →
      Outcome (fun _ ↦ True)
        (fun itr' ↦ itr'.lists.headers.working[nodeOffset]? =
          some (getSmallListHeader itr₁.curCSROffset data.length))
        (do
          let itr ←
            if isALargeList oldHeader ∨ defaultPageSize < data.length then
              itr₂.updateLargeList oldHeader data
            else itr₂.updateSmallListAndCurCSROffset oldHeader data
          return { itr with curUnprocessedNodeOffset := itr.curUnprocessedNodeOffset + 1 }) := by
    intro itr₂ oldHeader hcur₂ hcsr hget hold
    have hnot : ¬ (isALargeList oldHeader ∨ defaultPageSize < data.length) := by
      rw [hold]
      simpa using hpage
    have hlt := (List.getElem?_eq_some_iff.mp hget).1
    simp only [if_neg hnot]
    refine ((outcome_updateSmallList rfl (by rw [hcur₂, hget]) data).mono (fun _ _ ↦ True.intro)
      fun _ h ↦ h).bind fun itr' hitr' ↦ ?_
    obtain ⟨-, hset, -⟩ := hitr'
    show itr'.lists.headers.working[nodeOffset]? = _
    rw [hset.headers, hcur₂, hcsr, List.getElem?_set_self hlt]
  unfold updateList at hrun
  rw [hseek, ok_bind] at hrun
  by_cases hnew : nodeOffset = itr₁.lists.headers.getNumElements
  · have hlast : (itr₁.lists.headers.working ++ [0])[nodeOffset]? =
        some (getSmallListHeader 0 0) := by
      rw [hnew, ArrayVersions.getNumElements, List.getElem?_concat_length]
      rfl
    simp only [if_neg hnew.not_gt, if_pos hnew, pure_eq_ok, ok_bind] at hrun
    have hpushed := hfinish
      { itr₁ with lists := { itr₁.lists with headers := itr₁.lists.headers.pushBack 0 } }
      (getSmallListHeader 0 0) hcur rfl hlast (by decide)
    exact hpushed.result hrun
  · by_cases hbehind : itr₁.lists.headers.getNumElements < nodeOffset
    · simp [hbehind] at hrun
    · have hlt : nodeOffset < itr₁.lists.headers.working.length := by
        have hge : nodeOffset ≤ itr₁.lists.headers.working.length := Nat.le_of_not_lt hbehind
        exact lt_of_le_of_ne hge hnew
      have hget := List.getElem?_eq_getElem hlt
      have hheader : itr₁.lists.headers.get .headers itr₁.curUnprocessedNodeOffset =
          .ok itr₁.lists.headers.working[nodeOffset] := by
        rw [ArrayVersions.get, hcur, hget]
      simp only [if_neg hbehind, if_neg hnew, hheader, pure_eq_ok, ok_bind] at hrun
      exact (hfinish itr₁ _ hcur rfl hget (hsmall _ hget)).result hrun

/-- The header of a small list says what it was made of just if the list has less than `2 ^ 11`
elements and starts in front of `2 ^ 20`. -/
theorem faithful_iff_of_storesSmallList {numElements header : ℕ}
    (h : StoresSmallList csrOffset numElements header) :
    Faithful csrOffset numElements header ↔ numElements < 2 ^ 11 ∧ csrOffset < 2 ^ 20 := by
  have hheader : header = getSmallListHeader csrOffset numElements := by
    cases h with
    | copied elementSize listSizes i size header hi hsmall hheader =>
        rw [calculateListHeadersTask_getElem? hi hsmall] at hheader
        exact (Option.some.inj hheader).symm
    | updated itr itr₁ itr' nodeOffset data header hahead hseek hsmall hpage hrun hheader =>
        rw [updateList_header hahead hseek hsmall hpage hrun] at hheader
        exact (Option.some.inj hheader).symm
  rw [hheader]
  exact faithful_getSmallListHeader_iff ..

/-- A list of two elements behind one of three. -/
theorem faithful_iff_of_storesSmallList_copied : Faithful 3 2 (3 * 2 ^ 11 + 2) :=
  (faithful_iff_of_storesSmallList
    (.copied 8 [3, 2] 1 2 _ rfl (by decide) (by decide))).mpr (by decide)

/-- 2048 bytes of unstructured properties look like none. -/
theorem not_faithful_copied_2048 :
    StoresSmallList 0 2048 0 ∧ ¬ Faithful 0 2048 0 :=
  ⟨.copied 1 [2048] 0 2048 0 rfl (by decide) (by decide), by decide⟩

end Graphflow.Storage
