import Graphflow.Index.Map

/-!
# Opening the file of an index

`flush` writes the two mappers behind the pages of an index and the header to the first page.  An
index that is opened on the file has the same slots, and finds what the index in memory finds.
-/

namespace Graphflow

open Storage Lib

/-! ## The pages of a mapper -/

namespace InMemHashIndex

theorem maxNumElementsInAPage_pos : 0 < maxNumElementsInAPage := by decide

theorem writeMapperPages_succ {elements : List ℕ} (hne : elements ≠ []) (turns : ℕ)
    (pages : List IndexPage) : writeMapperPages (turns + 1) pages elements =
      writeMapperPages turns (pages ++ [.mapper (elements.take maxNumElementsInAPage)
        (if maxNumElementsInAPage < elements.length then some (pages.length + 1) else none)])
        (elements.drop maxNumElementsInAPage) :=
  if_neg (mt List.isEmpty_iff.mp hne)

theorem prefix_writeMapperPages (turns : ℕ) (pages : List IndexPage) (elements : List ℕ) :
    pages <+: writeMapperPages turns pages elements := by
  induction turns generalizing pages elements with
  | zero => exact List.prefix_rfl
  | succ turns ih =>
      by_cases hempty : elements = []
      · rw [hempty]
        exact List.prefix_rfl
      · rw [writeMapperPages_succ hempty]
        exact (List.prefix_append _ _).trans (ih _ _)

/-- The elements are read from a file that has the pages where they were written to. -/
theorem readPageMapper_writeMapperPages {turns fuel : ℕ} {pages file : List IndexPage}
    {elements : List ℕ} (hturns : elements.length ≤ turns) (hne : elements ≠ [])
    (hfile : ∀ i, pages.length ≤ i → i < (writeMapperPages turns pages elements).length →
      file[i]? = (writeMapperPages turns pages elements)[i]?)
    (hfuel : (writeMapperPages turns pages elements).length ≤ pages.length + fuel) :
    HashIndex.readPageMapper file fuel (some pages.length) = .ok elements := by
  induction turns generalizing pages elements fuel with
  | zero => exact absurd (List.eq_nil_of_length_eq_zero (Nat.le_zero.mp hturns)) hne
  | succ turns ih =>
      rw [writeMapperPages_succ hne] at hfile hfuel
      have hwritten := prefix_writeMapperPages turns (pages ++ [.mapper
        (elements.take maxNumElementsInAPage) (if maxNumElementsInAPage < elements.length then
          some (pages.length + 1) else none)]) (elements.drop maxNumElementsInAPage)
      have hconcat (page : IndexPage) : (pages ++ [page]).length = pages.length + 1 :=
        List.length_append
      have hlength := hwritten.length_le
      rw [hconcat] at hlength
      have hpage := hfile pages.length (Nat.le_refl _) hlength
      rw [List.prefix_iff_getElem?.mp hwritten pages.length
        (by rw [hconcat]; exact Nat.lt_succ_self _), List.getElem_concat_length rfl] at hpage
      match fuel with
      | 0 => exact absurd (hlength.trans hfuel) (Nat.not_succ_le_self _)
      | fuel + 1 =>
          rw [HashIndex.readPageMapper, hpage]
          by_cases hmore : maxNumElementsInAPage < elements.length
          · simp only [hmore, if_true] at hfile hfuel ⊢
            have hdrop : elements.drop maxNumElementsInAPage ≠ [] := by
              rw [ne_eq, List.drop_eq_nil_iff]
              exact Nat.not_le.mpr hmore
            have hnext := @ih fuel _ _ (by
              rw [List.length_drop]
              have hpos := maxNumElementsInAPage_pos
              omega) hdrop (fun i hi ↦ hfile i (Nat.le_of_succ_le (by rwa [hconcat] at hi))) (by
              rw [hconcat]
              omega)
            rw [hconcat] at hnext
            rw [hnext, Lib.ok_bind, List.take_append_drop, Lib.pure_eq_ok]
          · have hlast : HashIndex.readPageMapper file fuel none = .ok [] := by
              cases fuel <;> rfl
            simp only [hmore, if_false]
            rw [hlast, Lib.ok_bind, List.append_nil, List.take_of_length_le (Nat.not_lt.mp hmore),
              Lib.pure_eq_ok]

theorem prefix_writeLogicalToPhysicalMapper (pages : List IndexPage) (array : SlotArray) :
    pages <+: (writeLogicalToPhysicalMapper pages array).1 := by
  rw [writeLogicalToPhysicalMapper]
  split_ifs
  · exact List.prefix_rfl
  · exact prefix_writeMapperPages _ _ _

theorem readPageMapper_writeLogicalToPhysicalMapper {pages file : List IndexPage}
    {array : SlotArray}
    (hfile : ∀ i, pages.length ≤ i → i < (writeLogicalToPhysicalMapper pages array).1.length →
      file[i]? = (writeLogicalToPhysicalMapper pages array).1[i]?)
    (hlength : (writeLogicalToPhysicalMapper pages array).1.length ≤ file.length) :
    HashIndex.readPageMapper file file.length (writeLogicalToPhysicalMapper pages array).2 =
      .ok array.pagesLogicalToPhysicalMapper := by
  rw [writeLogicalToPhysicalMapper] at hfile hlength ⊢
  split_ifs at hfile hlength ⊢ with hempty
  · rw [List.isEmpty_iff.mp hempty]
    cases file.length <;> rfl
  · apply readPageMapper_writeMapperPages (Nat.le_refl _) (mt List.isEmpty_iff.mpr hempty) hfile
    exact hlength.trans (Nat.le_add_left _ _)

/-! ## The opened index -/

variable {stdHash : List UInt8 → UInt64} {index : InMemHashIndex} {t : ChainTable} {key : Key}
  {keyDataTypeID : KeyType}

/-- An index in a file has the slots of an index in memory. -/
structure OpenedFrom (index : InMemHashIndex) (opened : HashIndex) : Prop where
  levels : ∀ hash, opened.indexHeader.primarySlotId hash = index.indexHeader.primarySlotId hash
  keyDataTypeID : opened.indexHeader.keyDataTypeID = index.keyDataTypeID
  getSlot : ∀ info, index.HasSlot info → opened.getSlot info = .ok (index.slot info)
  maxChainLength : opened.maxChainLength = index.maxChainLength
  overflowPages : opened.overflowPages = index.inMemOverflowFile.getPage

/-- The header of the file. -/
def flushedHeader (index : InMemHashIndex) : HashIndexHeader :=
  { index.indexHeader with
    pPagesMapperFirstPageIdx := (writeLogicalToPhysicalMapper index.pages index.pSlots).2
    oPagesMapperFirstPageIdx := (writeLogicalToPhysicalMapper
      (writeLogicalToPhysicalMapper index.pages index.pSlots).1 index.oSlots).2 }

/-- The pages of the file before the header is written. -/
def mappedPages (index : InMemHashIndex) : List IndexPage :=
  (writeLogicalToPhysicalMapper (writeLogicalToPhysicalMapper index.pages index.pSlots).1
    index.oSlots).1

theorem flush_eq (index : InMemHashIndex) : index.flush =
    (index.mappedPages.set 0 (.header index.flushedHeader), index.inMemOverflowFile) := rfl

theorem prefix_mappedPages (index : InMemHashIndex) : index.pages <+: index.mappedPages :=
  (prefix_writeLogicalToPhysicalMapper _ _).trans (prefix_writeLogicalToPhysicalMapper _ _)

/-- The index that is opened on the file. -/
def reopened (index : InMemHashIndex) (keyDataTypeID : KeyType) : HashIndex where
  indexHeader := index.flushedHeader
  pSlots := { pagesLogicalToPhysicalMapper := index.pSlots.pagesLogicalToPhysicalMapper }
  oSlots := { pagesLogicalToPhysicalMapper := index.oSlots.pagesLogicalToPhysicalMapper }
  pages := index.mappedPages.set 0 (.header index.flushedHeader)
  overflowPages := index.inMemOverflowFile.getPage
  localStorage := HashIndexLocalStorage.make keyDataTypeID

theorem make_flush (hindex : index.toBaseHashIndex.WellFormed) (keyDataTypeID : KeyType) :
    HashIndex.make keyDataTypeID index.flush.1 index.flush.2 =
      .ok (index.reopened keyDataTypeID) := by
  have hp := prefix_writeLogicalToPhysicalMapper index.pages index.pSlots
  have ho : (writeLogicalToPhysicalMapper index.pages index.pSlots).1 <+: index.mappedPages :=
    prefix_writeLogicalToPhysicalMapper _ _
  have hpos := List.length_pos_iff.mpr hindex.pages_ne_nil
  rw [flush_eq]
  have hlength : (index.mappedPages.set 0 (.header index.flushedHeader)).length =
      index.mappedPages.length := List.length_set
  have hfile : ∀ i, 0 < i → (index.mappedPages.set 0 (.header index.flushedHeader))[i]? =
      index.mappedPages[i]? := fun i hi ↦ List.getElem?_set_ne hi.ne
  have hhead : (index.mappedPages.set 0 (.header index.flushedHeader)).head? =
      some (.header index.flushedHeader) := by
    rw [List.head?_eq_getElem?]
    exact List.getElem?_set_self (hpos.trans_le index.prefix_mappedPages.length_le)
  have hpMapper : HashIndex.readPageMapper (index.mappedPages.set 0 (.header index.flushedHeader))
      (index.mappedPages.set 0 (.header index.flushedHeader)).length
      index.flushedHeader.pPagesMapperFirstPageIdx =
        .ok index.pSlots.pagesLogicalToPhysicalMapper := by
    apply readPageMapper_writeLogicalToPhysicalMapper
    · intro i hi hlt
      obtain ⟨rest, hrest⟩ := ho
      rw [hfile i (hpos.trans_le hi), ← hrest, List.getElem?_append_left hlt]
    · rw [hlength]
      exact ho.length_le
  have hoMapper : HashIndex.readPageMapper (index.mappedPages.set 0 (.header index.flushedHeader))
      (index.mappedPages.set 0 (.header index.flushedHeader)).length
      index.flushedHeader.oPagesMapperFirstPageIdx =
        .ok index.oSlots.pagesLogicalToPhysicalMapper := by
    apply readPageMapper_writeLogicalToPhysicalMapper
    · intro i hi _
      exact hfile i (hpos.trans_le (hp.length_le.trans hi))
    · exact hlength.ge
  rw [HashIndex.make, hhead]
  simp only [hpMapper, hoMapper, Lib.ok_bind, Lib.pure_eq_ok]
  rfl

theorem openedFrom_reopened (hindex : index.toBaseHashIndex.WellFormed) (keyDataTypeID : KeyType) :
    OpenedFrom index (index.reopened keyDataTypeID) := by
  refine ⟨fun _ ↦ rfl, rfl, ?_, rfl, rfl⟩
  intro info hinfo
  obtain ⟨p, slots, hget, -, hslots, hslot, -⟩ := BaseHashIndex.exists_page hindex hinfo
  have hlt := (List.getElem?_eq_some_iff.mp hslots).1
  have hpos := hindex.page_pos _ p (List.mem_of_getElem? hget)
  have hpage : (index.reopened keyDataTypeID).pages[p]? = some (.slots slots) := by
    obtain ⟨rest, hrest⟩ := index.prefix_mappedPages
    have hset : (index.reopened keyDataTypeID).pages[p]? = index.mappedPages[p]? :=
      List.getElem?_set_ne hpos.ne
    rw [hset, ← hrest, List.getElem?_append_left hlt, hslots]
  have hmapper : ((index.reopened keyDataTypeID).slotArray
      info.isPSlot).pagesLogicalToPhysicalMapper = index.mapper info.isPSlot := by
    cases info.isPSlot <;> rfl
  have hslotsPerPage : (index.reopened keyDataTypeID).indexHeader.numSlotsPerPage =
      index.indexHeader.numSlotsPerPage := rfl
  simp only [BaseHashIndex.getSlot, BaseHashIndex.getPageCursorForSlot, hmapper, hslotsPerPage,
    hget, Lib.ok_bind, hpage, Lib.pure_eq_ok, hslot]

theorem OpenedFrom.decides {opened : HashIndex} (h : OpenedFrom index opened)
    (hkey : index.keyDataTypeID.Valid key) :
    SlotIs.Decides index.entryIs
      (keyEqualsFunc opened.overflowPages opened.indexHeader.keyDataTypeID key) key := by
  intro entry e hentry
  rw [h.overflowPages, h.keyDataTypeID]
  exact keyEqualsFunc_of_stored index.inMemOverflowFile.getPage_of_lt hentry.stored hentry.valid
    hkey

/-- The index in the file is the same map. -/
theorem OpenedFrom.lookupInPersistentIndex {opened : HashIndex} (h : OpenedFrom index opened)
    (hindex : Holds stdHash index t) (hkey : index.keyDataTypeID.Valid key) :
    opened.lookupInPersistentIndex stdHash key = .ok (content stdHash index t key) := by
  have hslot : opened.indexHeader.primarySlotId
      (keyHashFunc stdHash opened.indexHeader.keyDataTypeID key) =
        index.getPrimarySlotIdForKey stdHash key := by
    rw [h.levels, h.keyDataTypeID]
    rfl
  have hget : ∀ x ∈ chainSlots ⟨index.getPrimarySlotIdForKey stdHash key, true⟩
      (t.ovf (index.getPrimarySlotIdForKey stdHash key)),
      opened.toBaseHashIndex.getSlot x = .ok (index.slot x) := fun x hx ↦
    h.getSlot x (hindex.represents.hasSlot (hindex.hasSlot key) x hx)
  have hturns := hindex.represents.length_ovf_lt (index.getPrimarySlotIdForKey stdHash key)
  rw [← h.maxChainLength] at hturns
  rcases (hindex.represents.chainAt _).findMatchedEntry (h.decides hkey) hget hturns
    (hindex.represents.nodup _) with
    ⟨hfind, hlookup, -⟩ | ⟨x, hx, i, v, -, hfind, hentry, hlookup, -⟩
  · simp only [HashIndex.lookupInPersistentIndex, hslot, hfind, Lib.ok_bind, content, hlookup,
      Lib.pure_eq_ok]
  · simp only [HashIndex.lookupInPersistentIndex, hslot, hfind, Lib.ok_bind, hget x hx, content,
      hlookup, Lib.pure_eq_ok, hentry.nodeOffset]

end InMemHashIndex

end Graphflow
