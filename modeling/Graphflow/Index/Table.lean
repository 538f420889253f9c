import Graphflow.Index.Chains

/-!
# The table of chains

The primary slots of an index with their overflow slots, no two of which share a slot.  Inserting,
removing and splitting change single chains of the table.
-/

namespace Graphflow

open Storage Lib

/-- The chains of the primary slots, and the overflow slots they use. -/
structure ChainTable where
  chain : ℕ → EntryChain
  ovf : ℕ → List ℕ

namespace ChainTable

def set (t : ChainTable) (i : ℕ) (ids : List ℕ) (c : EntryChain) : ChainTable where
  chain := Function.update t.chain i c
  ovf := Function.update t.ovf i ids

end ChainTable

variable {entryIs entryIs' : Entry → Key × ℕ → Prop} {index index₀ index' : BaseHashIndex}
  {t t' : ChainTable} {i : ℕ} {ids : List ℕ} {c : EntryChain} {x y : SlotInfo} {entry : Entry}
  {e : Key × ℕ}

/-- The slots of the index are those of the table; overflow slots that are not allocated are
empty. -/
structure Represents (entryIs : Entry → Key × ℕ → Prop) (index : BaseHashIndex) (t : ChainTable) :
    Prop where
  wellFormed : index.WellFormed
  chainAt : ∀ i, ChainAt entryIs index.slot ⟨i, true⟩ (t.ovf i) (t.chain i)
  ovf_lt : ∀ i, ∀ id ∈ t.ovf i, id < index.numAllocated false
  ovf_nodup : ∀ i, (t.ovf i).Nodup
  ovf_disjoint : ∀ i j, ∀ id ∈ t.ovf i, id ∈ t.ovf j → i = j
  fresh : ∀ id, index.numAllocated false ≤ id → index.slot ⟨id, false⟩ = {}
  allocated_pos : 0 < index.numAllocated false

theorem mem_chainSlots_ovf {id : ℕ} : ⟨id, false⟩ ∈ chainSlots ⟨i, true⟩ ids ↔ id ∈ ids := by
  rw [chainSlots, List.mem_cons, List.mem_map]
  constructor
  · rintro (h | ⟨id', hid', h⟩)
    · exact absurd (SlotInfo.mk.inj h).2 Bool.false_ne_true
    · exact (SlotInfo.mk.inj h).1 ▸ hid'
  · exact fun h ↦ Or.inr ⟨id, h, rfl⟩

theorem mem_chainSlots_primary {j : ℕ} : ⟨j, true⟩ ∈ chainSlots ⟨i, true⟩ ids ↔ j = i := by
  rw [chainSlots, List.mem_cons, List.mem_map]
  constructor
  · rintro (h | ⟨id', -, h⟩)
    · exact (SlotInfo.mk.inj h).1
    · exact absurd (SlotInfo.mk.inj h).2 Bool.false_ne_true
  · rintro rfl
    exact Or.inl rfl

theorem nodup_chainSlots (h : ids.Nodup) : (chainSlots ⟨i, true⟩ ids).Nodup := by
  rw [chainSlots, List.nodup_cons]
  refine ⟨?_, h.map fun a b hab ↦ (SlotInfo.mk.inj hab).1⟩
  rw [List.mem_map]
  rintro ⟨id, -, h⟩
  exact absurd (SlotInfo.mk.inj h).2 Bool.false_ne_true

theorem length_le_of_nodup {n : ℕ} (hnodup : ids.Nodup) (hlt : ∀ id ∈ ids, id < n) :
    ids.length ≤ n := by
  have hsubset : ids ⊆ List.range n := fun id hid ↦ List.mem_range.mpr (hlt id hid)
  have hle := (hnodup.subperm hsubset).length_le
  rwa [List.length_range] at hle

namespace Represents

theorem mono (h : Represents entryIs index t)
    (hmono : ∀ entry e, entryIs entry e → entryIs' entry e) : Represents entryIs' index t :=
  { h with chainAt := fun i ↦ (h.chainAt i).mono hmono }

/-- A loop over a chain does not run out of turns. -/
theorem length_ovf_lt (h : Represents entryIs index t) (i : ℕ) :
    (t.ovf i).length < index.maxChainLength :=
  Nat.lt_succ_of_le ((length_le_of_nodup (h.ovf_nodup i) (h.ovf_lt i)).trans
    (h.wellFormed.allocated false))

theorem hasSlot (h : Represents entryIs index t) (hi : index.HasSlot ⟨i, true⟩) :
    ∀ x ∈ chainSlots ⟨i, true⟩ (t.ovf i), index.HasSlot x := by
  intro x hx
  rcases List.mem_cons.mp hx with rfl | hx
  · exact hi
  · obtain ⟨id, hid, rfl⟩ := List.mem_map.mp hx
    exact BaseHashIndex.hasSlot_of_lt h.wellFormed (h.ovf_lt i id hid)

theorem getSlot (h : Represents entryIs index t) (hi : index.HasSlot ⟨i, true⟩) :
    ∀ x ∈ chainSlots ⟨i, true⟩ (t.ovf i), index.getSlot x = .ok (index.slot x) :=
  fun x hx ↦ BaseHashIndex.getSlot_eq h.wellFormed (h.hasSlot hi x hx)

theorem nodup (h : Represents entryIs index t) (i : ℕ) :
    (chainSlots ⟨i, true⟩ (t.ovf i)).Nodup := nodup_chainSlots (h.ovf_nodup i)

/-- One chain is replaced; its overflow slots are old ones of the chain or new ones. -/
theorem set (h : Represents entryIs index t) (hwf : index'.WellFormed)
    (hchain : ChainAt entryIs index'.slot ⟨i, true⟩ ids c)
    (hother : ∀ y, y ∉ chainSlots ⟨i, true⟩ ids → index'.slot y = index.slot y)
    (hnodup : ids.Nodup) (hlt : ∀ id ∈ ids, id < index'.numAllocated false)
    (hids : ∀ id ∈ ids, id ∈ t.ovf i ∨ index.numAllocated false ≤ id)
    (hnum : index.numAllocated false ≤ index'.numAllocated false) :
    Represents entryIs index' (t.set i ids c) := by
  have hnotMem : ∀ j, j ≠ i → ∀ id ∈ t.ovf j, id ∉ ids := by
    intro j hj id hid hmem
    rcases hids id hmem with hold | hnew
    · exact hj (h.ovf_disjoint j i id hid hold)
    · exact absurd (h.ovf_lt j id hid) (Nat.not_lt.mpr hnew)
  refine ⟨hwf, ?_, ?_, ?_, ?_, ?_, h.allocated_pos.trans_le hnum⟩
  · intro j
    by_cases hj : j = i
    · simp only [ChainTable.set, hj, Function.update_self]
      exact hchain
    · simp only [ChainTable.set, Function.update_of_ne hj]
      apply (h.chainAt j).congr
      intro x hx
      apply hother
      intro hmem
      rcases List.mem_cons.mp hx with rfl | hx
      · exact hj (mem_chainSlots_primary.mp hmem)
      · obtain ⟨id, hid, rfl⟩ := List.mem_map.mp hx
        exact hnotMem j hj id hid (mem_chainSlots_ovf.mp hmem)
  · intro j
    by_cases hj : j = i
    · simp only [ChainTable.set, hj, Function.update_self]
      exact hlt
    · simp only [ChainTable.set, Function.update_of_ne hj]
      exact fun id hid ↦ (h.ovf_lt j id hid).trans_le hnum
  · intro j
    by_cases hj : j = i
    · simp only [ChainTable.set, hj, Function.update_self]
      exact hnodup
    · simp only [ChainTable.set, Function.update_of_ne hj]
      exact h.ovf_nodup j
  · intro j k id
    by_cases hj : j = i <;> by_cases hk : k = i
    · exact fun _ _ ↦ hj.trans hk.symm
    · simp only [ChainTable.set, hj, Function.update_self, Function.update_of_ne hk]
      exact fun hid hid' ↦ absurd hid (hnotMem k hk id hid')
    · simp only [ChainTable.set, hk, Function.update_self, Function.update_of_ne hj]
      exact fun hid hid' ↦ absurd hid' (hnotMem j hj id hid)
    · simp only [ChainTable.set, Function.update_of_ne hj, Function.update_of_ne hk]
      exact h.ovf_disjoint j k id
  · intro id hid
    rw [hother]
    · exact h.fresh id (hnum.trans hid)
    · intro hmem
      exact absurd (hlt id (mem_chainSlots_ovf.mp hmem)) (Nat.not_lt.mpr hid)

/-- Slots that are in no chain do not matter. -/
theorem congr (h : Represents entryIs index t) (hwf : index'.WellFormed)
    (hnum : index'.numAllocated false = index.numAllocated false)
    (hslot : ∀ y, (∃ i, y ∈ chainSlots ⟨i, true⟩ (t.ovf i)) ∨
      y.isPSlot = false ∧ index.numAllocated false ≤ y.slotId → index'.slot y = index.slot y) :
    Represents entryIs index' t := by
  refine ⟨hwf, ?_, ?_, h.ovf_nodup, h.ovf_disjoint, ?_, hnum ▸ h.allocated_pos⟩
  · intro i
    exact (h.chainAt i).congr fun x hx ↦ hslot x (Or.inl ⟨i, hx⟩)
  · rw [hnum]
    exact h.ovf_lt
  · intro id hid
    rw [hnum] at hid
    rw [hslot _ (Or.inr ⟨rfl, hid⟩)]
    exact h.fresh id hid

end Represents

/-! ## Inserting an entry -/

/-- An entry has been inserted to a slot, or to a new one behind it. -/
structure Inserted (index index' : BaseHashIndex) (x : SlotInfo) (entry : Entry) : Prop where
  wellFormed : index'.WellFormed
  indexHeader : index'.indexHeader = index.indexHeader
  numAllocated_true : index'.numAllocated true = index.numAllocated true
  numAllocated_false : index'.numAllocated false =
    if (index.slot x).header.numEntries = slotCapacity then index.numAllocated false + 1
    else index.numAllocated false
  mapper : ∀ b, index.mapper b <+: index'.mapper b
  slot : index'.slot = slotsAfterInsert index.slot x (index.numAllocated false) entry

theorem BaseHashIndex.SlotSet.numAllocated {s : SlotData} (h : SlotSet index index' x s)
    (b : Bool) : index'.numAllocated b = index.numAllocated b := by
  simp only [BaseHashIndex.numAllocated, slotArray, h.pSlots, h.oSlots]

open BaseHashIndex in
theorem exists_insertToSlot (hindex : index.WellFormed) (hx : index.HasSlot x)
    (hne : x ≠ ⟨index.numAllocated false, false⟩) (entry : Entry) :
    ∃ index', index.insertToSlot x entry = .ok index' ∧ Inserted index index' x entry := by
  have hget := getSlot_eq hindex hx
  by_cases hfull : (index.slot x).header.numEntries = slotCapacity
  · obtain ⟨hid, hextended⟩ := allocateSlot_spec hindex false
    have hx₁ := hextended.hasSlot hx
    have hget₁ := getSlot_eq hextended.wellFormed hx₁
    obtain ⟨index₂, hset₂, h₂⟩ := exists_setSlot hextended.wellFormed hx₁
      { index.slot x with header := { (index.slot x).header with
          nextOvfSlotId := index.numAllocated false } }
    have hnew : index₂.HasSlot ⟨index.numAllocated false, false⟩ := by
      apply hasSlot_of_lt h₂.wellFormed
      rw [h₂.numAllocated, hextended.numAllocated]
      exact Nat.lt_succ_self _
    have hget₂ := getSlot_eq h₂.wellFormed hnew
    rw [h₂.slot, Function.update_of_ne (Ne.symm hne), hextended.slot] at hget₂
    obtain ⟨index₃, hset₃, h₃⟩ := exists_setSlot h₂.wellFormed hnew
      (BaseHashIndex.insertEntry (index.slot ⟨index.numAllocated false, false⟩) entry)
    refine ⟨index₃, ?_, ⟨h₃.wellFormed, ?_, ?_, ?_, ?_, ?_⟩⟩
    · rw [hextended.slot] at hget₁
      simp only [insertToSlot, hget, Lib.ok_bind, if_pos hfull, hget₁, hid, hset₂, hget₂, hset₃]
    · rw [h₃.indexHeader, h₂.indexHeader, hextended.indexHeader]
    · rw [h₃.numAllocated, h₂.numAllocated, hextended.numAllocated_of_ne true (by decide)]
    · rw [if_pos hfull, h₃.numAllocated, h₂.numAllocated, hextended.numAllocated]
    · intro b
      rw [h₃.mapper, h₂.mapper]
      exact hextended.mapper b
    · rw [slotsAfterInsert, if_pos hfull, h₃.slot, h₂.slot, hextended.slot]
  · obtain ⟨index', hset, h'⟩ := exists_setSlot hindex hx
      (BaseHashIndex.insertEntry (index.slot x) entry)
    refine ⟨index', ?_, ⟨h'.wellFormed, h'.indexHeader, h'.numAllocated true, ?_, ?_, ?_⟩⟩
    · simp only [insertToSlot, hget, Lib.ok_bind, if_neg hfull, hset]
    · rw [if_neg hfull]
      exact h'.numAllocated false
    · intro b
      rw [h'.mapper]
    · rw [slotsAfterInsert, if_neg hfull]
      exact h'.slot

namespace Represents

/-- Where the entry of chain `i` goes. -/
def place (index : BaseHashIndex) (t : ChainTable) (i : ℕ) : SlotInfo :=
  slotToInsert index.slot ⟨i, true⟩ (t.ovf i)

theorem place_ne (h : Represents entryIs index t) (i : ℕ) :
    place index t i ≠ ⟨index.numAllocated false, false⟩ := by
  intro heq
  have hmem := slotToInsert_mem index.slot ⟨i, true⟩ (t.ovf i)
  rw [place] at heq
  rw [heq, mem_chainSlots_ovf] at hmem
  exact absurd (h.ovf_lt i _ hmem) (Nat.lt_irrefl _)

theorem numAllocated_notMem (h : Represents entryIs index t) (i : ℕ) :
    index.numAllocated false ∉ t.ovf i := fun hmem ↦ absurd (h.ovf_lt i _ hmem) (Nat.lt_irrefl _)

theorem insert (h : Represents entryIs index t) (hentry : entryIs entry e)
    (hinserted : Inserted index index' (place index t i) entry) :
    Represents entryIs index' (t.set i (idsAfterInsert index.slot (place index t i)
      (index.numAllocated false) (t.ovf i)) (SlotChain.copy e (t.chain i))) := by
  have hnew := h.numAllocated_notMem i
  have hmem : ∀ id ∈ idsAfterInsert index.slot (place index t i) (index.numAllocated false)
      (t.ovf i), id ∈ t.ovf i ∨
        id = index.numAllocated false ∧
          (index.slot (place index t i)).header.numEntries = slotCapacity := by
    intro id hid
    rw [idsAfterInsert] at hid
    split_ifs at hid with hfull
    · rcases List.mem_append.mp hid with hid | hid
      · exact Or.inl hid
      · exact Or.inr ⟨List.mem_singleton.mp hid, hfull⟩
    · exact Or.inl hid
  have hnum : index.numAllocated false ≤ index'.numAllocated false := by
    rw [hinserted.numAllocated_false]
    split_ifs
    · exact Nat.le_succ _
    · exact Nat.le_refl _
  apply h.set hinserted.wellFormed _ _ _ _ _ hnum
  · rw [hinserted.slot]
    exact (h.chainAt i).insert hentry h.allocated_pos (h.fresh _ (Nat.le_refl _))
      (fun hin ↦ hnew (mem_chainSlots_ovf.mp hin)) (h.nodup i)
  · intro y hy
    rw [hinserted.slot, slotsAfterInsert]
    have hplace : y ≠ place index t i := by
      rintro rfl
      apply hy
      have hin := slotToInsert_mem index.slot ⟨i, true⟩ (t.ovf i)
      rcases List.mem_cons.mp hin with heq | hin
      · exact heq ▸ List.mem_cons_self
      · obtain ⟨id, hid, heq⟩ := List.mem_map.mp hin
        rw [place, ← heq, mem_chainSlots_ovf, idsAfterInsert]
        split_ifs
        · exact List.mem_append_left _ hid
        · exact hid
    split_ifs with hfull
    · have hne : y ≠ ⟨index.numAllocated false, false⟩ := by
        rintro rfl
        apply hy
        rw [mem_chainSlots_ovf, idsAfterInsert, if_pos hfull]
        exact List.mem_append_right _ (List.mem_singleton_self _)
      rw [Function.update_of_ne hne, Function.update_of_ne hplace]
    · rw [Function.update_of_ne hplace]
  · rw [idsAfterInsert]
    split_ifs
    · rw [List.nodup_append]
      refine ⟨h.ovf_nodup i, List.nodup_singleton _, ?_⟩
      intro a ha b hb
      rw [List.mem_singleton] at hb
      rintro rfl
      exact hnew (hb ▸ ha)
    · exact h.ovf_nodup i
  · intro id hid
    rcases hmem id hid with hold | ⟨rfl, hfull⟩
    · exact (h.ovf_lt i id hold).trans_le hnum
    · rw [hinserted.numAllocated_false, if_pos hfull]
      exact Nat.lt_succ_self _
  · intro id hid
    rcases hmem id hid with hold | ⟨rfl, -⟩
    · exact Or.inl hold
    · exact Or.inr (Nat.le_refl _)

/-- The place of an entry whose chain has a page can be written. -/
theorem exists_insert (h : Represents entryIs index t) (hi : index.HasSlot ⟨i, true⟩)
    (entry : Entry) : ∃ index', index.insertToSlot (place index t i) entry = .ok index' ∧
      Inserted index index' (place index t i) entry :=
  exists_insertToSlot h.wellFormed (h.hasSlot hi _ (slotToInsert_mem _ _ _)) (h.place_ne i) entry

theorem exists_copyEntryToSlot (h : Represents entryIs index t) (hi : index.HasSlot ⟨i, true⟩)
    (entry : Entry) : ∃ index', index.copyEntryToSlot i entry = .ok index' ∧
      Inserted index index' (place index t i) entry := by
  obtain ⟨index', hinsert, hinserted⟩ := h.exists_insert hi entry
  refine ⟨index', ?_, hinserted⟩
  have hfind := (h.chainAt i).findSlotToInsert_noKey (h.getSlot hi) (h.length_ovf_lt i)
  simp only [BaseHashIndex.copyEntryToSlot, hfind, Lib.ok_bind]
  exact hinsert

end Represents

end Graphflow
