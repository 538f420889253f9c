import Graphflow.Index.Map

/-!
# New indexes

An index that has been constructed, and one that has then reserved slots, is the empty map.  For
two entries or less `nextSplitSlotId` is the negative number of slots that are missing, and keys go
to the first four slots of the first page, whether allocated or not.
-/

namespace Graphflow

open Storage Lib

/-- All chains are empty. -/
def ChainTable.new : ChainTable where
  chain := fun _ ↦ [Slot.empty]
  ovf := fun _ ↦ []

theorem represents_new {entryIs : Entry → Key × ℕ → Prop} {index : BaseHashIndex}
    (hwf : index.WellFormed) (hslot : index.slot = fun _ ↦ {})
    (hpos : 0 < index.numAllocated false) : Represents entryIs index ChainTable.new where
  wellFormed := hwf
  chainAt := fun i ↦ ChainAt.empty (by rw [hslot])
  ovf_lt := fun _ _ hid ↦ absurd hid List.not_mem_nil
  ovf_nodup := fun _ ↦ List.nodup_nil
  ovf_disjoint := fun _ _ _ hid ↦ absurd hid List.not_mem_nil
  fresh := fun _ _ ↦ by rw [hslot]
  allocated_pos := hpos

namespace InMemHashIndex

variable {stdHash : List UInt8 → UInt64} {keyDataTypeID : KeyType} {index : InMemHashIndex}

/-- No slot has been written yet. -/
structure New (index : InMemHashIndex) : Prop where
  wellFormed : index.toBaseHashIndex.WellFormed
  slot : index.slot = fun _ ↦ {}
  allocated_pos : 0 < index.toBaseHashIndex.numAllocated false
  overflow : index.inMemOverflowFile = {}
  numEntries : index.numEntries = 0

theorem New.content (index : InMemHashIndex) (key : Key) :
    content stdHash index ChainTable.new key = none := by
  rw [content_eq_none_iff, ChainTable.new, SlotChain.keys, SlotChain.entries, List.flatMap_cons,
    Slot.entries_empty]
  exact List.not_mem_nil

theorem New.holds (h : New index) (hconsistent : index.indexHeader.Consistent)
    (hslot : ∀ key, index.HasSlot ⟨index.getPrimarySlotIdForKey stdHash key, true⟩)
    (hallocated : index.indexHeader.nextSplitSlotId ≤ 2 ^ index.indexHeader.currentLevel →
      2 ^ index.indexHeader.currentLevel + index.indexHeader.nextSplitSlotId ≤
        index.numAllocatedPSlots) : Holds stdHash index ChainTable.new := by
  have hkeys : ∀ i, SlotChain.keys (ChainTable.new.chain i) = [] := by
    intro i
    rw [ChainTable.new, SlotChain.keys, SlotChain.entries, List.flatMap_cons, Slot.entries_empty]
    rfl
  refine ⟨represents_new h.wellFormed h.slot h.allocated_pos, ?_, hconsistent, hslot, hallocated,
    ?_, ?_, ?_⟩
  · rw [h.overflow]
    exact ⟨rfl, Nat.zero_le _⟩
  · rw [h.numEntries]
    exact Nat.zero_le _
  · intro i key hkey
    rw [hkeys] at hkey
    exact absurd hkey List.not_mem_nil
  · intro i
    rw [hkeys]
    exact List.nodup_nil

theorem numSlotsPerPage_make (keyDataTypeID : KeyType) :
    36 ≤ (HashIndexHeader.make keyDataTypeID).numSlotsPerPage := by
  cases keyDataTypeID <;> decide

/-- The file with the page of the header only. -/
def headerFile (keyDataTypeID : KeyType) : BaseHashIndex where
  indexHeader := HashIndexHeader.make keyDataTypeID
  pages := [.slots fun _ ↦ {}]

theorem wellFormed_headerFile (keyDataTypeID : KeyType) :
    (headerFile keyDataTypeID).WellFormed := by
  have hmapper : ∀ b, (headerFile keyDataTypeID).mapper b = [] := by
    intro b
    cases b <;> rfl
  refine ⟨List.cons_ne_nil _ _, (numSlotsPerPage_make keyDataTypeID).trans_lt' (by decide), ?_, ?_,
    ?_, ?_⟩
  · intro b p hp
    rw [hmapper] at hp
    exact absurd hp List.not_mem_nil
  · intro b i b' i' p hp
    rw [hmapper] at hp
    exact absurd hp (Option.some_ne_none p).symm
  · intro b p hp
    rw [hmapper] at hp
    exact absurd hp List.not_mem_nil
  · intro b
    cases b <;> exact Nat.zero_le _

theorem slot_headerFile (keyDataTypeID : KeyType) :
    (headerFile keyDataTypeID).slot = fun _ ↦ {} := by
  funext info
  apply BaseHashIndex.slot_of_not
  rw [BaseHashIndex.HasSlot]
  cases info.isPSlot <;> exact Nat.not_lt_zero _

/-- What the constructor allocates. -/
theorem make_spec (keyDataTypeID : KeyType) :
    New (make keyDataTypeID) ∧
      (make keyDataTypeID).indexHeader = HashIndexHeader.make keyDataTypeID ∧
      (make keyDataTypeID).numAllocatedPSlots = 2 ∧
      (make keyDataTypeID).toBaseHashIndex.mapper true = [1] := by
  have hspp := numSlotsPerPage_make keyDataTypeID
  have hwf := wellFormed_headerFile keyDataTypeID
  have hmapper : ((headerFile keyDataTypeID).addNewPages true 1).mapper true = [1] := rfl
  have hpages := BaseHashIndex.wellFormed_addNewPages hwf true 1
  have htwo : 2 ≤ (((headerFile keyDataTypeID).addNewPages true 1).mapper true).length *
      ((headerFile keyDataTypeID).addNewPages true 1).indexHeader.numSlotsPerPage := by
    rw [hmapper, BaseHashIndex.addNewPages_indexHeader, List.length_singleton, Nat.one_mul]
    exact hspp.trans' (by decide)
  have hset := BaseHashIndex.extended_setSlotArray hpages true htwo
  obtain ⟨-, hallocate⟩ := BaseHashIndex.allocateSlot_spec hset.wellFormed false
  refine ⟨⟨hallocate.wellFormed, ?_, ?_, rfl, rfl⟩, ?_, ?_, rfl⟩
  · rw [← slot_headerFile keyDataTypeID, ← BaseHashIndex.slot_addNewPages hwf true 1, ← hset.slot]
    exact hallocate.slot
  · exact Nat.lt_of_lt_of_eq (Nat.succ_pos _) hallocate.numAllocated.symm
  · exact hallocate.indexHeader.trans hset.indexHeader
  · exact (hallocate.numAllocated_of_ne true (by decide)).trans hset.numAllocated

theorem consistent_make (keyDataTypeID : KeyType) :
    (HashIndexHeader.make keyDataTypeID).Consistent :=
  ⟨(by decide : 1 ≤ 31), rfl, rfl⟩

theorem holds_make (stdHash : List UInt8 → UInt64) (keyDataTypeID : KeyType) :
    Holds stdHash (make keyDataTypeID) ChainTable.new := by
  obtain ⟨hnew, hheader, hnum, -⟩ := make_spec keyDataTypeID
  apply hnew.holds
  · rw [hheader]
    exact consistent_make keyDataTypeID
  · intro key
    apply BaseHashIndex.hasSlot_of_lt hnew.wellFormed
    apply Nat.lt_of_lt_of_eq _ hnum.symm
    rw [getPrimarySlotIdForKey, hheader]
    show _ &&& 1 < 2
    rw [Nat.and_one_is_mod]
    exact Nat.mod_lt _ (by decide)
  · intro _
    rw [hnum, hheader]
    exact Nat.le_refl _

/-! ## Reserving slots -/

/-- The level with the largest number of slots below `numRequiredSlots`. -/
theorem reserveLevels_spec {numRequiredSlots turns : ℕ} {header : HashIndexHeader}
    (hconsistent : header.Consistent) (hrequired : numRequiredSlots ≤ 2 ^ 31)
    (hturns : numRequiredSlots ≤ 2 ^ header.currentLevel + turns)
    (hlevel : header.currentLevel ≤ 30)
    (hlow : header.currentLevel = 1 ∨ 2 ^ header.currentLevel < numRequiredSlots) :
    ∃ header', reserveLevels numRequiredSlots turns (header, 2 ^ header.currentLevel) =
        (header', 2 ^ header'.currentLevel) ∧ header'.Consistent ∧ header'.currentLevel ≤ 30 ∧
      header'.numSlotsPerPage = header.numSlotsPerPage ∧
      header'.keyDataTypeID = header.keyDataTypeID ∧
      numRequiredSlots ≤ 2 ^ header'.currentLevel * 2 ∧
      (header'.currentLevel = 1 ∨ 2 ^ header'.currentLevel < numRequiredSlots) := by
  induction turns generalizing header with
  | zero => exact ⟨header, rfl, hconsistent, hlevel, rfl, rfl, by omega, hlow⟩
  | succ turns ih =>
      by_cases hmore : 2 ^ header.currentLevel * 2 < numRequiredSlots
      · have hlevel' : header.currentLevel + 1 ≤ 30 := by
          by_contra hgt
          have hthirty : header.currentLevel = 30 := by omega
          rw [hthirty] at hmore
          omega
        have hpow : 2 ^ header.incrementLevel.currentLevel = 2 ^ header.currentLevel * 2 :=
          Nat.pow_succ _ _
        have hconsistent' : header.incrementLevel.Consistent := by
          refine ⟨hlevel'.trans (by decide), ?_, rfl⟩
          show HashIndexHeader.hashMask (header.currentLevel + 1) =
              2 ^ (header.currentLevel + 1) - 1
          rw [HashIndexHeader.hashMask, Nat.mod_eq_of_lt (by omega)]
        have hpos := Nat.two_pow_pos header.currentLevel
        have hrest := ih hconsistent' (by rw [hpow]; omega) hlevel'
          (Or.inr (by rw [hpow]; exact hmore))
        rw [reserveLevels, if_pos hmore, ← hpow]
        exact hrest
      · rw [reserveLevels, if_neg hmore]
        exact ⟨header, rfl, hconsistent, hlevel, rfl, rfl, Nat.not_lt.mp hmore, hlow⟩

theorem numRequiredSlots_le (numEntries : UInt32) :
    numRequiredSlots numEntries.toNat ≤ 2 ^ 31 := by
  have hlt := numEntries.toNat_lt
  simp only [numRequiredSlots, numRequiredEntries, slotCapacity]
  omega

/-- The pages that `bulkReserve` allocates. -/
def reservePages (base : BaseHashIndex) (numRequiredSlots : ℕ) : BaseHashIndex :=
  let numSlotsPerPage := base.indexHeader.numSlotsPerPage
  let base := base.addNewPages true ((numRequiredSlots + numSlotsPerPage - 1) / numSlotsPerPage)
  base.setSlotArray true { base.slotArray true with nextSlotIdToAllocate := numRequiredSlots }

theorem extended_reservePages {base : BaseHashIndex} (hbase : base.WellFormed)
    (numRequiredSlots : ℕ) :
    base.Extended (reservePages base numRequiredSlots) true numRequiredSlots := by
  have hpos := hbase.numSlotsPerPage_pos
  have hpages := BaseHashIndex.wellFormed_addNewPages hbase true
    ((numRequiredSlots + base.indexHeader.numSlotsPerPage - 1) / base.indexHeader.numSlotsPerPage)
  have hroom := Nat.div_add_mod (numRequiredSlots + base.indexHeader.numSlotsPerPage - 1)
    base.indexHeader.numSlotsPerPage
  have hmod := Nat.mod_lt (numRequiredSlots + base.indexHeader.numSlotsPerPage - 1) hpos
  have hextended := BaseHashIndex.extended_setSlotArray hpages true (n := numRequiredSlots) (by
    rw [BaseHashIndex.mapper_addNewPages, if_pos rfl, List.length_append, List.length_range',
      BaseHashIndex.addNewPages_indexHeader, Nat.add_mul, Nat.mul_comm (_ / _)]
    omega)
  refine ⟨hextended.wellFormed,
    hextended.indexHeader.trans (BaseHashIndex.addNewPages_indexHeader _ _ _),
    hextended.numAllocated, ?_, ?_, hextended.slot.trans (BaseHashIndex.slot_addNewPages hbase _ _)⟩
  · intro b hb
    rw [reservePages, hextended.numAllocated_of_ne b hb, BaseHashIndex.numAllocated_addNewPages]
  · exact fun b ↦ (BaseHashIndex.prefix_mapper_addNewPages _ _ _ b).trans (hextended.mapper b)

/-- The header after `bulkReserve`. -/
structure Reserved (header : HashIndexHeader) (numSlots : ℕ) : Prop where
  consistent : header.Consistent
  level_le : header.currentLevel ≤ 30
  nextSplitSlotId : header.nextSplitSlotId =
    if 2 ^ header.currentLevel ≤ numSlots then numSlots - 2 ^ header.currentLevel
    else 2 ^ 64 - (2 ^ header.currentLevel - numSlots)
  le_mul : numSlots ≤ 2 ^ header.currentLevel * 2
  level : header.currentLevel = 1 ∨ 2 ^ header.currentLevel < numSlots

/-- The keys go to slots that have been reserved, or to one of the first four. -/
theorem Reserved.primarySlotId_lt {header : HashIndexHeader} {numSlots : ℕ}
    (h : Reserved header numSlots) (hash : UInt64) :
    header.primarySlotId hash < numSlots ∨ header.primarySlotId hash < 4 := by
  have hhigher := HashIndexHeader.mod_two_pow_succ hash.toNat header.currentLevel
  have hlt := Nat.mod_lt hash.toNat (Nat.two_pow_pos header.currentLevel)
  have hlow := h.consistent.and_levelHashMask hash
  have hhigh := h.consistent.and_higherLevelHashMask h.level_le hash
  have hnext := h.nextSplitSlotId
  have hpow : 2 ^ header.currentLevel ≤ 2 ^ 30 := Nat.pow_le_pow_right (by decide) h.level_le
  have hle := h.le_mul
  simp only [HashIndexHeader.primarySlotId, hlow, hhigh]
  rcases h.level with hlevel | hlevel
  · rw [hlevel] at hhigher hlt hnext hle hpow ⊢
    split_ifs <;> omega
  · rw [if_pos hlevel.le] at hnext
    split_ifs <;> omega

theorem Reserved.le_numSlots {header : HashIndexHeader} {numSlots : ℕ}
    (h : Reserved header numSlots) (hnext : header.nextSplitSlotId ≤ 2 ^ header.currentLevel) :
    2 ^ header.currentLevel + header.nextSplitSlotId ≤ numSlots := by
  have hpow : 2 ^ header.currentLevel ≤ 2 ^ 30 := Nat.pow_le_pow_right (by decide) h.level_le
  have hle := h.le_mul
  rw [h.nextSplitSlotId] at hnext ⊢
  split_ifs at hnext ⊢ <;> omega

/-- An index that has reserved slots. -/
theorem bulkReserve_spec (keyDataTypeID : KeyType) (numEntries : UInt32) :
    New ((make keyDataTypeID).bulkReserve numEntries) ∧
      Reserved ((make keyDataTypeID).bulkReserve numEntries).indexHeader
        (numRequiredSlots numEntries.toNat) ∧
      ((make keyDataTypeID).bulkReserve numEntries).keyDataTypeID = keyDataTypeID ∧
      ((make keyDataTypeID).bulkReserve numEntries).numAllocatedPSlots =
        numRequiredSlots numEntries.toNat ∧
      ∀ slotId < 4, ((make keyDataTypeID).bulkReserve numEntries).HasSlot ⟨slotId, true⟩ := by
  obtain ⟨hnew, hheader, -, hmapper⟩ := make_spec keyDataTypeID
  have hlevel : (make keyDataTypeID).indexHeader.currentLevel = 1 := by
    rw [hheader]
    rfl
  have hconsistent : (make keyDataTypeID).indexHeader.Consistent := by
    rw [hheader]
    exact consistent_make keyDataTypeID
  obtain ⟨header', hreserve, hconsistent', hlevel', hslots', htype', hle, hlow⟩ :=
    reserveLevels_spec hconsistent (numRequiredSlots_le numEntries) (Nat.le_add_left _ _)
      (hlevel.trans_le (by decide)) (Or.inl hlevel)
  have hslots : (header'.setNextSplitSlotId (numRequiredSlots numEntries.toNat)
      (2 ^ header'.currentLevel)).numSlotsPerPage =
        (make keyDataTypeID).indexHeader.numSlotsPerPage := hslots'
  have hextended := extended_reservePages
    (BaseHashIndex.wellFormed_setHeader hnew.wellFormed hslots) (numRequiredSlots numEntries.toNat)
  have heq : (make keyDataTypeID).bulkReserve numEntries = { make keyDataTypeID with
      toBaseHashIndex := reservePages { (make keyDataTypeID).toBaseHashIndex with
        indexHeader := header'.setNextSplitSlotId (numRequiredSlots numEntries.toNat)
          (2 ^ header'.currentLevel) } (numRequiredSlots numEntries.toNat) } := by
    have hnumEntries : (make keyDataTypeID).numEntries = 0 := rfl
    rw [bulkReserve]
    simp only [hnumEntries, Nat.zero_add, hreserve]
    rfl
  rw [heq]
  refine ⟨⟨hextended.wellFormed, ?_, ?_, rfl, rfl⟩, ?_, ?_, hextended.numAllocated, ?_⟩
  · exact hextended.slot.trans ((BaseHashIndex.slot_setHeader hslots).trans hnew.slot)
  · exact Nat.lt_of_lt_of_eq hnew.allocated_pos
      (hextended.numAllocated_of_ne false (by decide)).symm
  · rw [hextended.indexHeader]
    exact ⟨⟨hconsistent'.level_le, hconsistent'.levelHashMask, hconsistent'.higherLevelHashMask⟩,
      hlevel', rfl, hle, hlow⟩
  · have htype := congrArg HashIndexHeader.keyDataTypeID hextended.indexHeader
    exact htype.trans (htype'.trans (congrArg HashIndexHeader.keyDataTypeID hheader))
  · intro slotId hlt
    apply hextended.hasSlot
    rw [BaseHashIndex.hasSlot_iff (BaseHashIndex.wellFormed_setHeader hnew.wellFormed hslots)]
    have hlength : (BaseHashIndex.mapper { (make keyDataTypeID).toBaseHashIndex with
        indexHeader := header'.setNextSplitSlotId (numRequiredSlots numEntries.toNat)
          (2 ^ header'.currentLevel) } true).length = 1 := congrArg List.length hmapper
    have hspp := numSlotsPerPage_make keyDataTypeID
    rw [← hheader, ← hslots'] at hspp
    show slotId < _
    rw [hlength, Nat.one_mul]
    exact hlt.trans (hspp.trans_lt' (by decide))

theorem holds_bulkReserve (stdHash : List UInt8 → UInt64) (keyDataTypeID : KeyType)
    (numEntries : UInt32) :
    Holds stdHash ((make keyDataTypeID).bulkReserve numEntries) ChainTable.new := by
  obtain ⟨hnew, hreserved, -, hnum, hfour⟩ := bulkReserve_spec keyDataTypeID numEntries
  apply hnew.holds hreserved.consistent
  · intro key
    rcases hreserved.primarySlotId_lt (keyHashFunc stdHash
      ((make keyDataTypeID).bulkReserve numEntries).indexHeader.keyDataTypeID key) with hlt | hlt
    · apply BaseHashIndex.hasSlot_of_lt hnew.wellFormed
      exact Nat.lt_of_lt_of_eq hlt hnum.symm
    · exact hfour _ hlt
  · intro hnext
    rw [hnum]
    exact hreserved.le_numSlots hnext

end InMemHashIndex

end Graphflow
