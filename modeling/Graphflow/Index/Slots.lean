import Graphflow.Index.HashIndex

/-!
# Slots as a memory

The two mappers give every slot a place of its own, so that the slots of an index are one memory.
New pages hold empty slots, which is what the memory has where no page is yet.
-/

namespace Graphflow

open Storage Lib

namespace BaseHashIndex

variable {index index' : BaseHashIndex} {info info' : SlotInfo} {s : SlotData} {b b' : Bool}

def mapper (index : BaseHashIndex) (isPSlot : Bool) : List ℕ :=
  (index.slotArray isPSlot).pagesLogicalToPhysicalMapper

def numAllocated (index : BaseHashIndex) (isPSlot : Bool) : ℕ :=
  (index.slotArray isPSlot).nextSlotIdToAllocate

/-- There is a page for the slot. -/
def HasSlot (index : BaseHashIndex) (info : SlotInfo) : Prop :=
  info.slotId / index.indexHeader.numSlotsPerPage < (index.mapper info.isPSlot).length

def slot (index : BaseHashIndex) (info : SlotInfo) : SlotData :=
  match index.getSlot info with
  | .ok slot => slot
  | .error _ => {}

/-- Every page of a mapper is a page of slots of its own, and none is the page of the header. -/
structure WellFormed (index : BaseHashIndex) : Prop where
  pages_ne_nil : index.pages ≠ []
  numSlotsPerPage_pos : 0 < index.indexHeader.numSlotsPerPage
  isSlots : ∀ b, ∀ p ∈ index.mapper b, ∃ slots, index.pages[p]? = some (.slots slots)
  distinct : ∀ (b : Bool) (i : ℕ) (b' : Bool) (i' p : ℕ), (index.mapper b)[i]? = some p →
    (index.mapper b')[i']? = some p → b = b' ∧ i = i'
  page_pos : ∀ b, ∀ p ∈ index.mapper b, 0 < p
  allocated : ∀ b, index.numAllocated b ≤
    (index.mapper b).length * index.indexHeader.numSlotsPerPage

theorem hasSlot_iff (hindex : index.WellFormed) : index.HasSlot info ↔
    info.slotId < (index.mapper info.isPSlot).length * index.indexHeader.numSlotsPerPage :=
  Nat.div_lt_iff_lt_mul hindex.numSlotsPerPage_pos

theorem hasSlot_of_lt (hindex : index.WellFormed) {slotId : ℕ}
    (h : slotId < index.numAllocated b) : index.HasSlot ⟨slotId, b⟩ :=
  (hasSlot_iff hindex).mpr (h.trans_le (hindex.allocated b))

theorem exists_getPageCursorForSlot (h : index.HasSlot info) :
    ∃ p, (index.mapper info.isPSlot)[info.slotId / index.indexHeader.numSlotsPerPage]? = some p ∧
      index.getPageCursorForSlot info =
        .ok (p, info.slotId % index.indexHeader.numSlotsPerPage) := by
  have hget := List.getElem?_eq_getElem h
  have hget' : (index.slotArray info.isPSlot).pagesLogicalToPhysicalMapper[
      info.slotId / index.indexHeader.numSlotsPerPage]? = some _ := hget
  refine ⟨_, hget, ?_⟩
  simp only [getPageCursorForSlot, hget']

theorem getPageCursorForSlot_of_not (h : ¬ index.HasSlot info) :
    index.getPageCursorForSlot info = .error .invalidAccess := by
  have hget : (index.slotArray info.isPSlot).pagesLogicalToPhysicalMapper[
      info.slotId / index.indexHeader.numSlotsPerPage]? = none :=
    List.getElem?_eq_none (Nat.not_lt.mp h)
  simp only [getPageCursorForSlot, hget]

/-- Where a slot is. -/
theorem exists_page (hindex : index.WellFormed) (h : index.HasSlot info) :
    ∃ p slots, (index.mapper info.isPSlot)[info.slotId / index.indexHeader.numSlotsPerPage]? =
        some p ∧
      index.getPageCursorForSlot info =
        .ok (p, info.slotId % index.indexHeader.numSlotsPerPage) ∧
      index.pages[p]? = some (.slots slots) ∧
      index.slot info = slots (info.slotId % index.indexHeader.numSlotsPerPage) ∧
      index.getSlot info = .ok (index.slot info) := by
  obtain ⟨p, hget, hcursor⟩ := exists_getPageCursorForSlot h
  obtain ⟨slots, hslots⟩ := hindex.isSlots _ p (List.mem_of_getElem? hget)
  have hgetSlot : index.getSlot info =
      .ok (slots (info.slotId % index.indexHeader.numSlotsPerPage)) := by
    simp only [getSlot, hcursor, Lib.ok_bind, hslots, Lib.pure_eq_ok]
  have hslot : index.slot info = slots (info.slotId % index.indexHeader.numSlotsPerPage) := by
    simp only [slot, hgetSlot]
  exact ⟨p, slots, hget, hcursor, hslots, hslot, hslot ▸ hgetSlot⟩

theorem getSlot_eq (hindex : index.WellFormed) (h : index.HasSlot info) :
    index.getSlot info = .ok (index.slot info) := by
  obtain ⟨_, _, _, _, _, _, hgetSlot⟩ := exists_page hindex h
  exact hgetSlot

theorem slot_of_not (h : ¬ index.HasSlot info) : index.slot info = {} := by
  simp only [slot, getSlot, getPageCursorForSlot_of_not h, Lib.error_bind]

/-! ## Writing a slot -/

/-- One slot has been written. -/
structure SlotSet (index index' : BaseHashIndex) (info : SlotInfo) (s : SlotData) : Prop where
  wellFormed : index'.WellFormed
  indexHeader : index'.indexHeader = index.indexHeader
  pSlots : index'.pSlots = index.pSlots
  oSlots : index'.oSlots = index.oSlots
  slot : index'.slot = Function.update index.slot info s

theorem SlotSet.mapper (h : SlotSet index index' info s) (b : Bool) :
    index'.mapper b = index.mapper b := by
  simp only [BaseHashIndex.mapper, slotArray, h.pSlots, h.oSlots]

/-- Two slots on one page at one position are the same. -/
theorem eq_of_page (hindex : index.WellFormed) {p : ℕ}
    (h : (index.mapper info.isPSlot)[info.slotId / index.indexHeader.numSlotsPerPage]? = some p)
    (h' : (index.mapper info'.isPSlot)[info'.slotId / index.indexHeader.numSlotsPerPage]? = some p)
    (hmod : info.slotId % index.indexHeader.numSlotsPerPage =
      info'.slotId % index.indexHeader.numSlotsPerPage) : info = info' := by
  obtain ⟨hb, hdiv⟩ := hindex.distinct _ _ _ _ _ h h'
  have hid : info.slotId = info'.slotId := by
    rw [← Nat.div_add_mod' info.slotId index.indexHeader.numSlotsPerPage,
      ← Nat.div_add_mod' info'.slotId index.indexHeader.numSlotsPerPage, hdiv, hmod]
  cases info
  cases info'
  rw [SlotInfo.mk.injEq]
  exact ⟨hid, hb⟩

theorem getElem?_set_slots {pages : List IndexPage} {p q : ℕ} {slots slots' : ℕ → SlotData}
    (h : pages[p]? = some (.slots slots)) :
    (pages.set p (.slots slots'))[q]? = if p = q then some (.slots slots') else pages[q]? := by
  obtain ⟨hp, -⟩ := List.getElem?_eq_some_iff.mp h
  rw [List.getElem?_set]
  split_ifs <;> rfl

theorem exists_setSlot (hindex : index.WellFormed) (h : index.HasSlot info) (s : SlotData) :
    ∃ index', index.setSlot info s = .ok index' ∧ SlotSet index index' info s := by
  obtain ⟨p, slots, hget, hcursor, hslots, hslot, -⟩ := exists_page hindex h
  refine ⟨{ index with pages := index.pages.set p (.slots (Function.update slots
    (info.slotId % index.indexHeader.numSlotsPerPage) s)) }, ?_, ⟨⟨?_, hindex.numSlotsPerPage_pos,
      ?_, hindex.distinct, hindex.page_pos, hindex.allocated⟩, rfl, rfl, rfl, ?_⟩⟩
  · simp only [setSlot, hcursor, Lib.ok_bind, hslots, Lib.pure_eq_ok]
  · exact mt (List.set_eq_nil_iff _ _).mp hindex.pages_ne_nil
  · intro b q hq
    obtain ⟨slots', hslots'⟩ := hindex.isSlots b q hq
    simp only [getElem?_set_slots hslots]
    split_ifs
    · exact ⟨_, rfl⟩
    · exact ⟨slots', hslots'⟩
  · funext info'
    by_cases hinfo' : index.HasSlot info'
    · obtain ⟨q, slots', hget', hcursor', hslots', hslot', -⟩ := exists_page hindex hinfo'
      have hcursor'' : getPageCursorForSlot { index with pages := index.pages.set p (.slots
          (Function.update slots (info.slotId % index.indexHeader.numSlotsPerPage) s)) } info' =
          .ok (q, info'.slotId % index.indexHeader.numSlotsPerPage) := hcursor'
      simp only [BaseHashIndex.slot, getSlot, hcursor'', Lib.ok_bind, getElem?_set_slots hslots]
      by_cases heq : info' = info
      · subst heq
        obtain rfl : p = q := Option.some.inj (hget.symm.trans hget')
        simp only [if_true, Lib.pure_eq_ok, Function.update_self]
      · rw [Function.update_of_ne heq]
        split_ifs with hpage
        · subst hpage
          have hmod : info'.slotId % index.indexHeader.numSlotsPerPage ≠
              info.slotId % index.indexHeader.numSlotsPerPage := fun hmod ↦
            heq (eq_of_page hindex hget' hget hmod)
          have hsame := hslots.symm.trans hslots'
          rw [Option.some.injEq, IndexPage.slots.injEq] at hsame
          simp only [Lib.pure_eq_ok, Function.update_of_ne hmod, hsame, ← hslot']
        · simp only [hslots', Lib.pure_eq_ok, ← hslot']
    · have heq : info' ≠ info := fun heq ↦ hinfo' (heq ▸ h)
      rw [Function.update_of_ne heq, slot_of_not hinfo']
      have hnot : ¬ HasSlot { index with pages := index.pages.set p (.slots (Function.update slots
          (info.slotId % index.indexHeader.numSlotsPerPage) s)) } info' := hinfo'
      exact slot_of_not hnot

/-! ## New slots -/

theorem slotArray_setSlotArray (index : BaseHashIndex) (b b' : Bool) (array : SlotArray) :
    (index.setSlotArray b array).slotArray b' = if b' = b then array else index.slotArray b' := by
  cases b <;> cases b' <;> rfl

theorem setSlotArray_indexHeader (index : BaseHashIndex) (b : Bool) (array : SlotArray) :
    (index.setSlotArray b array).indexHeader = index.indexHeader := by
  cases b <;> rfl

theorem setSlotArray_pages (index : BaseHashIndex) (b : Bool) (array : SlotArray) :
    (index.setSlotArray b array).pages = index.pages := by
  cases b <;> rfl

/-- Slots may have been added, which are empty; the number of allocated slots of one array is
set. -/
structure Extended (index index' : BaseHashIndex) (b : Bool) (numAllocated : ℕ) : Prop where
  wellFormed : index'.WellFormed
  indexHeader : index'.indexHeader = index.indexHeader
  numAllocated : index'.numAllocated b = numAllocated
  numAllocated_of_ne : ∀ b', b' ≠ b → index'.numAllocated b' = index.numAllocated b'
  mapper : ∀ b', index.mapper b' <+: index'.mapper b'
  slot : index'.slot = index.slot

theorem hasSlot_of_mapper (hheader : index'.indexHeader = index.indexHeader)
    (hmapper : ∀ b, index.mapper b <+: index'.mapper b) (h : index.HasSlot info) :
    index'.HasSlot info := by
  rw [HasSlot, hheader]
  exact Nat.lt_of_lt_of_le h (hmapper _).length_le

theorem Extended.hasSlot {n : ℕ} (h : Extended index index' b n) (hinfo : index.HasSlot info) :
    index'.HasSlot info := hasSlot_of_mapper h.indexHeader h.mapper hinfo

theorem mapper_addNewPages (index : BaseHashIndex) (b b' : Bool) (n : ℕ) :
    (index.addNewPages b n).mapper b' =
      if b' = b then index.mapper b ++ List.range' index.pages.length n else index.mapper b' := by
  have harray : (index.addNewPages b n).slotArray b' =
      (index.setSlotArray b { index.slotArray b with
      pagesLogicalToPhysicalMapper := (index.slotArray b).pagesLogicalToPhysicalMapper ++
        List.range' index.pages.length n }).slotArray b' := rfl
  rw [mapper, harray, slotArray_setSlotArray]
  split_ifs <;> rfl

theorem pages_addNewPages (index : BaseHashIndex) (b : Bool) (n : ℕ) :
    (index.addNewPages b n).pages =
      index.pages ++ List.replicate n (.slots fun _ ↦ {}) := rfl

theorem addNewPages_indexHeader (index : BaseHashIndex) (b : Bool) (n : ℕ) :
    (index.addNewPages b n).indexHeader = index.indexHeader :=
  setSlotArray_indexHeader _ _ _

theorem numAllocated_addNewPages (index : BaseHashIndex) (b b' : Bool) (n : ℕ) :
    (index.addNewPages b n).numAllocated b' = index.numAllocated b' := by
  have harray : (index.addNewPages b n).slotArray b' =
      (index.setSlotArray b { index.slotArray b with
      pagesLogicalToPhysicalMapper := (index.slotArray b).pagesLogicalToPhysicalMapper ++
        List.range' index.pages.length n }).slotArray b' := rfl
  rw [numAllocated, harray, slotArray_setSlotArray]
  split_ifs with hb
  · rw [hb]
    rfl
  · rfl

/-- A page of a mapper is an old one or a new one. -/
theorem mem_mapper_addNewPages {n p : ℕ} (h : p ∈ (index.addNewPages b n).mapper b') :
    p ∈ index.mapper b' ∨ index.pages.length ≤ p ∧ p < index.pages.length + n := by
  rw [mapper_addNewPages] at h
  split_ifs at h with hb
  · rw [List.mem_append, List.mem_range'_1] at h
    exact hb ▸ h
  · exact Or.inl h

theorem lt_length_of_mem_mapper (hindex : index.WellFormed) {p : ℕ} (h : p ∈ index.mapper b) :
    p < index.pages.length := by
  obtain ⟨slots, hslots⟩ := hindex.isSlots b p h
  exact (List.getElem?_eq_some_iff.mp hslots).1

theorem getElem?_mapper_addNewPages {n i p : ℕ}
    (h : ((index.addNewPages b n).mapper b')[i]? = some p) :
    (index.mapper b')[i]? = some p ∨
      b' = b ∧ i = (index.mapper b).length + (p - index.pages.length) ∧ index.pages.length ≤ p := by
  rw [mapper_addNewPages] at h
  split_ifs at h with hb
  · rw [List.getElem?_append] at h
    split_ifs at h with hi
    · exact Or.inl (hb ▸ h)
    · obtain ⟨hlt, hget⟩ := List.getElem?_eq_some_iff.mp h
      rw [List.getElem_range'] at hget
      exact Or.inr ⟨hb, by omega, by omega⟩
  · exact Or.inl h

theorem wellFormed_addNewPages (hindex : index.WellFormed) (b : Bool) (n : ℕ) :
    (index.addNewPages b n).WellFormed where
  pages_ne_nil := List.append_ne_nil_of_left_ne_nil hindex.pages_ne_nil _
  numSlotsPerPage_pos := by
    rw [addNewPages_indexHeader]
    exact hindex.numSlotsPerPage_pos
  isSlots := by
    intro b' p hp
    rw [pages_addNewPages]
    rcases mem_mapper_addNewPages hp with hp | ⟨hle, hlt⟩
    · obtain ⟨slots, hslots⟩ := hindex.isSlots b' p hp
      exact ⟨slots, List.getElem?_append_left (lt_length_of_mem_mapper hindex hp) ▸ hslots⟩
    · refine ⟨fun _ ↦ {}, ?_⟩
      rw [List.getElem?_append_right hle, List.getElem?_replicate, if_pos (by omega)]
  distinct := by
    intro b₁ i₁ b₂ i₂ p h₁ h₂
    have hlt (b' : Bool) (i : ℕ) (h : (index.mapper b')[i]? = some p) : p < index.pages.length :=
      lt_length_of_mem_mapper hindex (List.mem_of_getElem? h)
    rcases getElem?_mapper_addNewPages h₁ with h₁ | ⟨hb₁, hi₁, hle₁⟩ <;>
      rcases getElem?_mapper_addNewPages h₂ with h₂ | ⟨hb₂, hi₂, hle₂⟩
    · exact hindex.distinct _ _ _ _ _ h₁ h₂
    · exact absurd (hlt _ _ h₁) (Nat.not_lt.mpr hle₂)
    · exact absurd (hlt _ _ h₂) (Nat.not_lt.mpr hle₁)
    · exact ⟨hb₁.trans hb₂.symm, hi₁.trans hi₂.symm⟩
  page_pos := by
    intro b' p hp
    rcases mem_mapper_addNewPages hp with hp | ⟨hle, -⟩
    · exact hindex.page_pos b' p hp
    · exact (List.length_pos_iff.mpr hindex.pages_ne_nil).trans_le hle
  allocated := by
    intro b'
    rw [numAllocated_addNewPages, mapper_addNewPages, addNewPages_indexHeader]
    apply (hindex.allocated b').trans
    apply Nat.mul_le_mul_right
    split_ifs with hb
    · rw [List.length_append, hb]
      exact Nat.le_add_right _ _
    · exact Nat.le_refl _

theorem prefix_mapper_addNewPages (index : BaseHashIndex) (b : Bool) (n : ℕ) (b' : Bool) :
    index.mapper b' <+: (index.addNewPages b n).mapper b' := by
  rw [mapper_addNewPages]
  split_ifs with hb
  · rw [hb]
    exact List.prefix_append _ _
  · exact List.prefix_rfl

theorem slot_addNewPages (hindex : index.WellFormed) (b : Bool) (n : ℕ) :
    (index.addNewPages b n).slot = index.slot := by
  have hwf := wellFormed_addNewPages hindex b n
  funext info
  by_cases hnew : (index.addNewPages b n).HasSlot info
  · obtain ⟨p, slots, hget, -, hslots, hslot, -⟩ := exists_page hwf hnew
    rw [hslot]
    rw [addNewPages_indexHeader] at hget
    rw [pages_addNewPages] at hslots
    by_cases hold : index.HasSlot info
    · obtain ⟨q, slots', hget', -, hslots', hslot', -⟩ := exists_page hindex hold
      obtain ⟨rest, hrest⟩ := prefix_mapper_addNewPages index b n info.isPSlot
      rw [← hrest, List.getElem?_append_left hold, hget', Option.some.injEq] at hget
      subst hget
      have hlt := lt_length_of_mem_mapper hindex (List.mem_of_getElem? hget')
      rw [List.getElem?_append_left hlt, hslots', Option.some.injEq,
        IndexPage.slots.injEq] at hslots
      rw [hslot', hslots, addNewPages_indexHeader]
    · rcases getElem?_mapper_addNewPages hget with hget | ⟨-, -, hle⟩
      · exact absurd (List.getElem?_eq_some_iff.mp hget).1 hold
      · rw [List.getElem?_append_right hle, List.getElem?_replicate] at hslots
        split_ifs at hslots with hlt
        rw [Option.some.injEq, IndexPage.slots.injEq] at hslots
        rw [slot_of_not hold, ← hslots]
  · have hold : ¬ index.HasSlot info := fun hold ↦ hnew
      (hasSlot_of_mapper (addNewPages_indexHeader _ _ _) (prefix_mapper_addNewPages _ _ _) hold)
    rw [slot_of_not hnew, slot_of_not hold]

/-- An array is told how many of its slots are allocated. -/
theorem extended_setSlotArray (hindex : index.WellFormed) (b : Bool) {n : ℕ}
    (hn : n ≤ (index.mapper b).length * index.indexHeader.numSlotsPerPage) :
    Extended index (index.setSlotArray b { index.slotArray b with nextSlotIdToAllocate := n })
      b n := by
  have hmapper : ∀ b', (index.setSlotArray b { index.slotArray b with
      nextSlotIdToAllocate := n }).mapper b' = index.mapper b' := by
    intro b'
    rw [mapper, slotArray_setSlotArray]
    split_ifs with hb
    · rw [hb]
      rfl
    · rfl
  have hnum : ∀ b', (index.setSlotArray b { index.slotArray b with
      nextSlotIdToAllocate := n }).numAllocated b' =
        if b' = b then n else index.numAllocated b' := by
    intro b'
    rw [numAllocated, slotArray_setSlotArray]
    split_ifs <;> rfl
  have hheader := setSlotArray_indexHeader index b
    { index.slotArray b with nextSlotIdToAllocate := n }
  refine ⟨⟨?_, ?_, ?_, ?_, ?_, ?_⟩, hheader, ?_, ?_, ?_, ?_⟩
  · rw [setSlotArray_pages]
    exact hindex.pages_ne_nil
  · rw [hheader]
    exact hindex.numSlotsPerPage_pos
  · intro b'
    rw [hmapper, setSlotArray_pages]
    exact hindex.isSlots b'
  · intro b₁ i₁ b₂ i₂ p
    rw [hmapper, hmapper]
    exact hindex.distinct b₁ i₁ b₂ i₂ p
  · intro b'
    rw [hmapper]
    exact hindex.page_pos b'
  · intro b'
    rw [hnum, hmapper, hheader]
    split_ifs with hb
    · rw [hb]
      exact hn
    · exact hindex.allocated b'
  · rw [hnum, if_pos rfl]
  · intro b' hb'
    rw [hnum, if_neg hb']
  · intro b'
    rw [hmapper]
  · funext info
    have harray : (index.setSlotArray b { index.slotArray b with
        nextSlotIdToAllocate := n }).mapper info.isPSlot = index.mapper info.isPSlot := hmapper _
    rw [mapper, mapper] at harray
    simp only [slot, getSlot, getPageCursorForSlot, hheader, setSlotArray_pages, harray]

/-- The next slot of an array is allocated, on a new page where the old ones are full. -/
theorem allocateSlot_spec (hindex : index.WellFormed) (b : Bool) :
    (index.allocateSlot b).2 = index.numAllocated b ∧
      Extended index (index.allocateSlot b).1 b (index.numAllocated b + 1) := by
  have hpos := hindex.numSlotsPerPage_pos
  have hallocated := hindex.allocated b
  refine ⟨rfl, ?_⟩
  by_cases hnew : index.numAllocated b % index.indexHeader.numSlotsPerPage = 0
  · have hwf := wellFormed_addNewPages hindex b 1
    have hn : index.numAllocated b + 1 ≤ ((index.addNewPages b 1).mapper b).length *
        (index.addNewPages b 1).indexHeader.numSlotsPerPage := by
      rw [mapper_addNewPages, if_pos rfl, List.length_append, List.length_range',
        addNewPages_indexHeader, Nat.add_one_mul]
      omega
    have hextended := extended_setSlotArray hwf b hn
    have heq : (index.allocateSlot b).1 = (index.addNewPages b 1).setSlotArray b
        { (index.addNewPages b 1).slotArray b with
          nextSlotIdToAllocate := index.numAllocated b + 1 } := by
      rw [numAllocated] at hnew
      simp only [allocateSlot, hnew, if_true]
      rfl
    rw [heq]
    refine ⟨hextended.wellFormed, hextended.indexHeader.trans (addNewPages_indexHeader _ _ _),
      hextended.numAllocated, ?_, ?_, hextended.slot.trans (slot_addNewPages hindex b 1)⟩
    · intro b' hb'
      rw [hextended.numAllocated_of_ne b' hb', numAllocated_addNewPages]
    · intro b'
      exact (prefix_mapper_addNewPages index b 1 b').trans (hextended.mapper b')
  · have heq : (index.allocateSlot b).1 = index.setSlotArray b
        { index.slotArray b with nextSlotIdToAllocate := index.numAllocated b + 1 } := by
      rw [numAllocated] at hnew
      simp only [allocateSlot, hnew, if_false]
      rfl
    rw [heq]
    apply extended_setSlotArray hindex
    apply Nat.succ_le_of_lt
    apply Nat.lt_of_le_of_ne hallocated
    intro hfull
    rw [hfull, Nat.mul_mod_left] at hnew
    exact hnew rfl

/-! ## Another header -/

/-- Only the number of slots on a page matters of the header. -/
theorem wellFormed_setHeader (hindex : index.WellFormed) {header : HashIndexHeader}
    (hheader : header.numSlotsPerPage = index.indexHeader.numSlotsPerPage) :
    WellFormed { index with indexHeader := header } :=
  ⟨hindex.pages_ne_nil, hheader ▸ hindex.numSlotsPerPage_pos, hindex.isSlots, hindex.distinct,
    hindex.page_pos, hheader ▸ hindex.allocated⟩

theorem slot_setHeader {header : HashIndexHeader}
    (hheader : header.numSlotsPerPage = index.indexHeader.numSlotsPerPage) :
    slot { index with indexHeader := header } = index.slot := by
  funext info
  simp only [slot, getSlot, getPageCursorForSlot, hheader]
  rfl

end BaseHashIndex

end Graphflow
