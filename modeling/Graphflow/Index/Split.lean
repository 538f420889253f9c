import Graphflow.Index.Table

/-!
# Splitting

The slots of the chain that is split are reset one after the other and their entries are copied to
the chains where they belong now.  The overflow slots of the old chain are not used again.
-/

namespace Graphflow

open Storage Lib

variable {entryIs : Entry → Key × ℕ → Prop} {index index₀ index' : BaseHashIndex}
  {t t' : ChainTable} {i id : ℕ} {pending : List ℕ} {x y : SlotInfo} {entry : Entry} {e : Key × ℕ}
  {slots : SlotInfo → SlotData} {slot d : SlotData} {j j' : Fin slotCapacity}
  {s : Slot Key ℕ slotCapacity} {stdHash : List UInt8 → UInt64} {target : Key → ℕ}

/-! ## Positions that are still to be copied -/

/-- Of two slots, the valid bit and the bytes at a position are the same. -/
def SameAt (slot slot' : SlotData) (j : Fin slotCapacity) : Prop :=
  slot'.header.validityMask j = slot.header.validityMask j ∧ slot'.entries j = slot.entries j

/-- Behind a free position nothing is written. -/
theorem sameAt_insertEntry (hfree : slot.header.validityMask j = false) (hj : j < j') :
    SameAt slot (BaseHashIndex.insertEntry slot entry) j' := by
  rw [BaseHashIndex.insertEntry]
  split
  · rename_i k hfind
    have hle := Slot.find?_finRange_le hfind (j := j) (by rw [hfree, Bool.not_false])
    have hne : j' ≠ k := (hle.trans_lt hj).ne'
    exact ⟨Function.update_of_ne hne _ _, Function.update_of_ne hne _ _⟩
  · exact ⟨rfl, rfl⟩

theorem sameAt_slotsAfterInsert (hy : y ≠ ⟨id, false⟩)
    (hfree : (slots y).header.validityMask j = false) (hj : j < j') :
    SameAt (slots y) (slotsAfterInsert slots x id entry y) j' := by
  rw [slotsAfterInsert]
  split_ifs
  · rw [Function.update_of_ne hy]
    by_cases hyx : y = x
    · rw [hyx, Function.update_self]
      exact ⟨rfl, rfl⟩
    · rw [Function.update_of_ne hyx]
      exact ⟨rfl, rfl⟩
  · by_cases hyx : y = x
    · rw [hyx, Function.update_self]
      exact sameAt_insertEntry (hyx ▸ hfree) hj
    · rw [Function.update_of_ne hyx]
      exact ⟨rfl, rfl⟩

/-! ## Copying entries -/

/-- The state while the slots of a chain are copied: those that are `pending` still have the bytes
they had, and are in no chain. -/
structure Rehashing (entryIs : Entry → Key × ℕ → Prop) (index₀ index : BaseHashIndex)
    (t : ChainTable) (pending : List ℕ) : Prop where
  represents : Represents entryIs index t
  indexHeader : index.indexHeader = index₀.indexHeader
  numAllocated_true : index.numAllocated true = index₀.numAllocated true
  numAllocated_le : index₀.numAllocated false ≤ index.numAllocated false
  mapper : ∀ b, index₀.mapper b <+: index.mapper b
  pending_lt : ∀ id ∈ pending, id < index₀.numAllocated false
  pending_notMem : ∀ id ∈ pending, ∀ i, id ∉ t.ovf i
  pending_slot : ∀ id ∈ pending, index.slot ⟨id, false⟩ = index₀.slot ⟨id, false⟩

/-- The slot is not one of those that will be allocated. -/
def OldSlot (index : BaseHashIndex) (y : SlotInfo) : Prop :=
  y.isPSlot = false → y.slotId < index.numAllocated false

namespace Rehashing

theorem hasSlot (h : Rehashing entryIs index₀ index t pending) (hx : index₀.HasSlot x) :
    index.HasSlot x := BaseHashIndex.hasSlot_of_mapper h.indexHeader h.mapper hx

theorem ne_of_oldSlot (h : Rehashing entryIs index₀ index t pending) (hy : OldSlot index₀ y) :
    y ≠ ⟨index.numAllocated false, false⟩ := by
  rintro rfl
  exact absurd ((hy rfl).trans_le h.numAllocated_le) (Nat.lt_irrefl _)

theorem copyEntry (h : Rehashing entryIs index₀ index t pending)
    (hi : index₀.HasSlot ⟨i, true⟩) (hentry : entryIs entry e) :
    ∃ index' t', index.copyEntryToSlot i entry = .ok index' ∧
      Rehashing entryIs index₀ index' t' pending ∧
      t'.chain = Function.update t.chain i (SlotChain.copy e (t.chain i)) ∧
      ∀ y, OldSlot index₀ y → ∀ j j', (index.slot y).header.validityMask j = false → j < j' →
        SameAt (index.slot y) (index'.slot y) j' := by
  obtain ⟨index', hcopy, hinserted⟩ := h.represents.exists_copyEntryToSlot (h.hasSlot hi) entry
  refine ⟨index', _, hcopy, ⟨h.represents.insert hentry hinserted, ?_, ?_, ?_, ?_, h.pending_lt,
    ?_, ?_⟩, rfl, ?_⟩
  · exact hinserted.indexHeader.trans h.indexHeader
  · exact hinserted.numAllocated_true.trans h.numAllocated_true
  · rw [hinserted.numAllocated_false]
    have hle := h.numAllocated_le
    split_ifs <;> omega
  · exact fun b ↦ (h.mapper b).trans (hinserted.mapper b)
  · intro id hid k
    by_cases hk : k = i
    · simp only [ChainTable.set, hk, Function.update_self, idsAfterInsert]
      split_ifs
      · rw [List.mem_append, List.mem_singleton, not_or]
        exact ⟨h.pending_notMem id hid i,
          ((h.pending_lt id hid).trans_le h.numAllocated_le).ne⟩
      · exact h.pending_notMem id hid i
    · simp only [ChainTable.set, Function.update_of_ne hk]
      exact h.pending_notMem id hid k
  · intro id hid
    rw [← h.pending_slot id hid, hinserted.slot]
    apply slotsAfterInsert_of_ne
    · intro heq
      have hmem := slotToInsert_mem index.slot ⟨i, true⟩ (t.ovf i)
      rw [Represents.place] at heq
      rw [← heq, mem_chainSlots_ovf] at hmem
      exact h.pending_notMem id hid i hmem
    · exact h.ne_of_oldSlot fun _ ↦ h.pending_lt id hid
  · intro y hy j j' hfree hj
    rw [hinserted.slot]
    exact sameAt_slotsAfterInsert (h.ne_of_oldSlot hy) hfree hj

/-- Where the rehashing of an entry takes it. -/
structure Targets (stdHash : List UInt8 → UInt64) (entryIs : Entry → Key × ℕ → Prop)
    (index₀ : BaseHashIndex) (target : Key → ℕ) (e : Key × ℕ) : Prop where
  hash : ∀ entry, entryIs entry e →
    (keyHashFunc stdHash index₀.indexHeader.keyDataTypeID entry.key).toNat &&&
      index₀.indexHeader.higherLevelHashMask = target e.1
  hasSlot : index₀.HasSlot ⟨target e.1, true⟩

/-- A slot that has been reset is copied, entry by entry. -/
theorem rehashEntries (h : Rehashing entryIs index₀ index t pending) (hx : index₀.HasSlot x)
    (hold : OldSlot index₀ x) (hd : SlotIs entryIs d s)
    (hfree : ∀ j, (index.slot x).header.validityMask j = false)
    (hentries : (index.slot x).entries = d.entries)
    (htargets : ∀ e ∈ s.entries, Targets stdHash entryIs index₀ target e) :
    ∃ index' t', (List.finRange slotCapacity).foldlM
        (BaseHashIndex.rehashEntry stdHash x d.header) index = .ok index' ∧
      Rehashing entryIs index₀ index' t' pending ∧
      t'.chain = SlotChain.copyAll target s.entries t.chain := by
  -- the positions that are not done yet are free, with the bytes from before the reset
  have hloop : ∃ index', (List.finRange slotCapacity).foldlM
      (BaseHashIndex.rehashEntry stdHash x d.header) index = .ok index' ∧
      ∃ t', Rehashing entryIs index₀ index' t' pending ∧
        t'.chain = SlotChain.copyAll target ((List.finRange slotCapacity).filterMap s) t.chain ∧
        ∀ j ∉ List.finRange slotCapacity, (index'.slot x).header.validityMask j = false ∧
          (index'.slot x).entries j = d.entries j := by
    apply exists_foldlM_eq_ok (fun done index ↦ ∃ t', Rehashing entryIs index₀ index t' pending ∧
      t'.chain = SlotChain.copyAll target (done.filterMap s) t.chain ∧
      ∀ j ∉ done, (index.slot x).header.validityMask j = false ∧
        (index.slot x).entries j = d.entries j)
      ⟨t, h, rfl, fun j _ ↦ ⟨hfree j, congrFun hentries j⟩⟩
    rintro done j rest index₁ hsplit ⟨t₁, h₁, hchain₁, hrest₁⟩
    have hnodup := List.nodup_finRange slotCapacity
    have hsorted := List.pairwise_lt_finRange slotCapacity
    rw [hsplit] at hnodup hsorted
    have hj : j ∉ done := fun hj ↦
      (List.nodup_append.mp hnodup).2.2 j hj j List.mem_cons_self rfl
    obtain ⟨hfree₁, hentry₁⟩ := hrest₁ j hj
    have hlt : ∀ j', j' ∉ done ++ [j] → j < j' := by
      intro j' hj'
      have hmem := List.mem_finRange j'
      rw [hsplit, List.mem_append, List.mem_cons] at hmem
      rw [List.mem_append, List.mem_singleton, not_or] at hj'
      have hj'' := (hmem.resolve_left hj'.1).resolve_left hj'.2
      exact List.rel_of_pairwise_cons (List.pairwise_append.mp hsorted).2.1 hj''
    rw [BaseHashIndex.rehashEntry, hd.valid]
    cases hs : s j with
    | none =>
        refine ⟨index₁, rfl, t₁, h₁, ?_, ?_⟩
        · rw [hchain₁, List.filterMap_append, List.filterMap_cons_none hs, List.filterMap_nil,
            List.append_nil]
        · intro j' hj'
          exact hrest₁ j' fun hin ↦ hj' (List.mem_append_left _ hin)
    | some e =>
        have htarget := htargets e (Slot.mem_entries.mpr ⟨j, hs⟩)
        have hentry := hd.entry j e hs
        obtain ⟨index₂, t₂, hcopy, h₂, hchain₂, hsame⟩ := h₁.copyEntry htarget.hasSlot hentry
        have hget := BaseHashIndex.getSlot_eq h₁.represents.wellFormed (h₁.hasSlot hx)
        refine ⟨index₂, ?_, t₂, h₂, ?_, ?_⟩
        · simp only [Option.isSome_some, if_true, hget, Lib.ok_bind, hentry₁, h₁.indexHeader,
            htarget.hash _ hentry]
          exact hcopy
        · rw [hchain₂, hchain₁, List.filterMap_append, List.filterMap_cons_some hs,
            List.filterMap_nil, SlotChain.copyAll_append]
          rfl
        · intro j' hj'
          have hold' := hrest₁ j' fun hin ↦ hj' (List.mem_append_left _ hin)
          have hsame' := hsame x hold j j' hfree₁ (hlt j' hj')
          exact ⟨hsame'.1.trans hold'.1, hsame'.2.trans hold'.2⟩
  obtain ⟨index', hfold, t', h', hchain, -⟩ := hloop
  exact ⟨index', t', hfold, h', hchain⟩

/-! ## Copying slots -/

/-- The first slot of the chain is reset, and with that its overflow slots are in no chain. -/
theorem of_reset (h : Represents entryIs index t)
    (hset : BaseHashIndex.SlotSet index index' ⟨i, true⟩
      { index.slot ⟨i, true⟩ with header := {} }) :
    Rehashing entryIs index index' (t.set i [] [Slot.empty]) (t.ovf i) := by
  have hnum := hset.numAllocated false
  refine ⟨?_, hset.indexHeader, hset.numAllocated true, hnum.ge, fun b ↦ (hset.mapper b) ▸
    List.prefix_rfl, h.ovf_lt i, ?_, ?_⟩
  · apply h.set hset.wellFormed _ _ List.nodup_nil (fun _ hid ↦ absurd hid List.not_mem_nil)
      (fun _ hid ↦ absurd hid List.not_mem_nil) hnum.ge
    · apply ChainAt.empty
      rw [hset.slot, Function.update_self]
    · intro y hy
      rw [hset.slot]
      apply Function.update_of_ne
      rintro rfl
      exact hy List.mem_cons_self
  · intro id hid j
    by_cases hj : j = i
    · simp only [ChainTable.set, hj, Function.update_self, List.not_mem_nil, not_false_eq_true]
    · simp only [ChainTable.set, Function.update_of_ne hj]
      exact fun hid' ↦ hj (h.ovf_disjoint j i id hid' hid)
  · intro id _
    rw [hset.slot]
    apply Function.update_of_ne
    intro heq
    exact absurd (SlotInfo.mk.inj heq).2 Bool.false_ne_true

/-- A pending slot is reset. -/
theorem reset (h : Rehashing entryIs index₀ index t (id :: pending)) (hnotMem : id ∉ pending)
    (hset : BaseHashIndex.SlotSet index index' ⟨id, false⟩
      { index.slot ⟨id, false⟩ with header := {} }) :
    Rehashing entryIs index₀ index' t pending := by
  have hlt := (h.pending_lt id List.mem_cons_self).trans_le h.numAllocated_le
  refine ⟨?_, hset.indexHeader.trans h.indexHeader,
    (hset.numAllocated true).trans h.numAllocated_true,
    h.numAllocated_le.trans (hset.numAllocated false).ge, fun b ↦ (hset.mapper b) ▸ h.mapper b,
    fun id' hid' ↦ h.pending_lt id' (List.mem_cons_of_mem _ hid'),
    fun id' hid' ↦ h.pending_notMem id' (List.mem_cons_of_mem _ hid'), ?_⟩
  · apply h.represents.congr hset.wellFormed (hset.numAllocated false)
    intro y hy
    rw [hset.slot]
    apply Function.update_of_ne
    rintro rfl
    rcases hy with ⟨i, hmem⟩ | ⟨-, hle⟩
    · exact h.pending_notMem id List.mem_cons_self i (mem_chainSlots_ovf.mp hmem)
    · exact absurd hlt (Nat.not_lt.mpr hle)
  · intro id' hid'
    rw [← h.pending_slot id' (List.mem_cons_of_mem _ hid'), hset.slot]
    apply Function.update_of_ne
    intro heq
    exact hnotMem ((SlotInfo.mk.inj heq).1 ▸ hid')

theorem rehashSlot_first (h : Represents entryIs index t) (hi : index.HasSlot ⟨i, true⟩)
    (hs : SlotIs entryIs (index.slot ⟨i, true⟩) s)
    (htargets : ∀ e ∈ s.entries, Targets stdHash entryIs index target e) :
    ∃ index' t', BaseHashIndex.rehashSlot stdHash index ⟨i, true⟩ = .ok index' ∧
      Rehashing entryIs index index' t' (t.ovf i) ∧
      t'.chain = SlotChain.copyAll target s.entries (Function.update t.chain i [Slot.empty]) := by
  obtain ⟨index₁, hset, hset₁⟩ := BaseHashIndex.exists_setSlot h.wellFormed hi
    { index.slot ⟨i, true⟩ with header := {} }
  obtain ⟨index', t', hfold, h', hchain⟩ := (of_reset h hset₁).rehashEntries hi
    (fun heq ↦ absurd heq.symm Bool.false_ne_true) hs
    (fun j ↦ by rw [hset₁.slot, Function.update_self])
    (by rw [hset₁.slot, Function.update_self]) htargets
  refine ⟨index', t', ?_, h', hchain⟩
  simp only [BaseHashIndex.rehashSlot, BaseHashIndex.getSlot_eq h.wellFormed hi, Lib.ok_bind, hset]
  exact hfold

theorem rehashSlot_pending (h : Rehashing entryIs index₀ index t (id :: pending))
    (hwf : index₀.WellFormed) (hnotMem : id ∉ pending)
    (hs : SlotIs entryIs (index₀.slot ⟨id, false⟩) s)
    (htargets : ∀ e ∈ s.entries, Targets stdHash entryIs index₀ target e) :
    ∃ index' t', BaseHashIndex.rehashSlot stdHash index ⟨id, false⟩ = .ok index' ∧
      Rehashing entryIs index₀ index' t' pending ∧
      t'.chain = SlotChain.copyAll target s.entries t.chain := by
  have hlt := h.pending_lt id List.mem_cons_self
  have hx := BaseHashIndex.hasSlot_of_lt hwf hlt
  obtain ⟨index₁, hset, hset₁⟩ := BaseHashIndex.exists_setSlot h.represents.wellFormed
    (h.hasSlot hx) { index.slot ⟨id, false⟩ with header := {} }
  rw [← h.pending_slot id List.mem_cons_self] at hs
  obtain ⟨index', t', hfold, h', hchain⟩ := (h.reset hnotMem hset₁).rehashEntries hx
    (fun _ ↦ hlt) hs (fun j ↦ by rw [hset₁.slot, Function.update_self])
    (by rw [hset₁.slot, Function.update_self]) htargets
  refine ⟨index', t', ?_, h', hchain⟩
  simp only [BaseHashIndex.rehashSlot,
    BaseHashIndex.getSlot_eq h.represents.wellFormed (h.hasSlot hx), Lib.ok_bind, hset]
  exact hfold

/-- The overflow slots of the old chain are copied one after the other. -/
theorem rehashPending {c : EntryChain} (h : Rehashing entryIs index₀ index t pending)
    (hwf : index₀.WellFormed) (hnodup : pending.Nodup)
    (hslots : List.Forall₂ (fun id s ↦ SlotIs entryIs (index₀.slot ⟨id, false⟩) s) pending c)
    (htargets : ∀ e ∈ SlotChain.entries c, Targets stdHash entryIs index₀ target e) :
    ∃ index' t', (pending.map (⟨·, false⟩)).foldlM (BaseHashIndex.rehashSlot stdHash) index =
        .ok index' ∧
      Rehashing entryIs index₀ index' t' [] ∧
      t'.chain = SlotChain.copyAll target (SlotChain.entries c) t.chain := by
  induction hslots generalizing index t with
  | nil => exact ⟨index, t, rfl, h, rfl⟩
  | @cons id s pending c hs _ ih =>
      have hhead := List.nodup_cons.mp hnodup
      obtain ⟨index₁, t₁, hrehash, h₁, hchain₁⟩ := h.rehashSlot_pending hwf hhead.1 hs
        fun e he ↦ htargets e (List.mem_append_left _ he)
      obtain ⟨index', t', hfold, h', hchain⟩ := ih h₁ hhead.2
        fun e he ↦ htargets e (List.mem_append_right _ he)
      refine ⟨index', t', ?_, h', ?_⟩
      · rw [List.map_cons, List.foldlM_cons, hrehash, Lib.ok_bind]
        exact hfold
      · rw [hchain, hchain₁, SlotChain.entries_cons, SlotChain.copyAll_append]

end Rehashing

theorem exists_rehashSlots (h : Represents entryIs index t)
    (hi : index.HasSlot ⟨index.indexHeader.nextSplitSlotId, true⟩)
    (htargets : ∀ e ∈ SlotChain.entries (t.chain index.indexHeader.nextSplitSlotId),
      Rehashing.Targets stdHash entryIs index target e) :
    ∃ index' t', index.rehashSlots stdHash = .ok index' ∧ Rehashing entryIs index index' t' [] ∧
      t'.chain = SlotChain.copyAll target
        (SlotChain.entries (t.chain index.indexHeader.nextSplitSlotId))
        (Function.update t.chain index.indexHeader.nextSplitSlotId [Slot.empty]) := by
  have hchainAt := h.chainAt index.indexHeader.nextSplitSlotId
  have hslots := hchainAt.getPAndOSlots (h.getSlot hi) (h.length_ovf_lt _)
  have hforall := hchainAt.forall₂
  cases hchain : t.chain index.indexHeader.nextSplitSlotId with
  | nil => exact absurd hchain hchainAt.ne_nil
  | cons s c =>
      rw [hchain] at hforall htargets
      rw [chainSlots, List.forall₂_cons] at hforall
      obtain ⟨index₁, t₁, hrehash, h₁, hchain₁⟩ := Rehashing.rehashSlot_first h hi hforall.1
        fun e he ↦ htargets e (List.mem_append_left _ he)
      have hrest := hforall.2
      rw [List.forall₂_map_left_iff] at hrest
      obtain ⟨index', t', hfold, h', hchain'⟩ := h₁.rehashPending h.wellFormed (h.ovf_nodup _) hrest
        fun e he ↦ htargets e (List.mem_append_right _ he)
      refine ⟨index', t', ?_, h', ?_⟩
      · simp only [BaseHashIndex.rehashSlots, hslots, Lib.ok_bind]
        rw [chainSlots, List.foldlM_cons, hrehash, Lib.ok_bind]
        exact hfold
      · rw [hchain', hchain₁, SlotChain.entries_cons, SlotChain.copyAll_append]

theorem Represents.setHeader (h : Represents entryIs index t) (header : HashIndexHeader)
    (hheader : header.numSlotsPerPage = index.indexHeader.numSlotsPerPage) :
    Represents entryIs { index with indexHeader := header } t := by
  apply h.congr (BaseHashIndex.wellFormed_setHeader h.wellFormed hheader) rfl
  intro y _
  rw [BaseHashIndex.slot_setHeader hheader]

theorem Represents.extended (h : Represents entryIs index t) {n : ℕ}
    (hextended : index.Extended index' true n) : Represents entryIs index' t := by
  apply h.congr hextended.wellFormed (hextended.numAllocated_of_ne false (by decide))
  intro y _
  rw [hextended.slot]

theorem numSlotsPerPage_incrementNextSplitSlotId (header : HashIndexHeader) :
    header.incrementNextSplitSlotId.numSlotsPerPage = header.numSlotsPerPage := by
  rw [HashIndexHeader.incrementNextSplitSlotId]
  split_ifs <;> rfl

/-- A primary slot is allocated and the next chain is split. -/
theorem exists_splitSlot (h : Represents entryIs index t)
    (hi : index.HasSlot ⟨index.indexHeader.nextSplitSlotId, true⟩)
    (hhash : ∀ e ∈ SlotChain.entries (t.chain index.indexHeader.nextSplitSlotId), ∀ entry,
      entryIs entry e → (keyHashFunc stdHash index.indexHeader.keyDataTypeID entry.key).toNat &&&
        index.indexHeader.higherLevelHashMask = target e.1)
    (htarget : ∀ e ∈ SlotChain.entries (t.chain index.indexHeader.nextSplitSlotId),
      target e.1 ≤ index.numAllocated true) :
    ∃ index' t', index.splitSlot stdHash = .ok index' ∧ Represents entryIs index' t' ∧
      index'.indexHeader = index.indexHeader.incrementNextSplitSlotId ∧
      index'.numAllocated true = index.numAllocated true + 1 ∧
      (∀ b, index.mapper b <+: index'.mapper b) ∧
      t'.chain = SlotChain.copyAll target
        (SlotChain.entries (t.chain index.indexHeader.nextSplitSlotId))
        (Function.update t.chain index.indexHeader.nextSplitSlotId [Slot.empty]) := by
  obtain ⟨-, hextended⟩ := BaseHashIndex.allocateSlot_spec h.wellFormed true
  have h₁ := h.extended hextended
  have hi₁ := hextended.hasSlot hi
  rw [← hextended.indexHeader] at hi₁
  have htargets : ∀ e ∈ SlotChain.entries
      (t.chain (index.allocateSlot true).1.indexHeader.nextSplitSlotId),
      Rehashing.Targets stdHash entryIs (index.allocateSlot true).1 target e := by
    intro e he
    rw [hextended.indexHeader] at he
    refine ⟨?_, ?_⟩
    · rw [hextended.indexHeader]
      exact hhash e he
    · apply BaseHashIndex.hasSlot_of_lt hextended.wellFormed
      rw [hextended.numAllocated]
      exact Nat.lt_succ_of_le (htarget e he)
  obtain ⟨index₂, t', hrehash, h₂, hchain⟩ := exists_rehashSlots h₁ hi₁ htargets
  refine ⟨{ index₂ with indexHeader := index₂.indexHeader.incrementNextSplitSlotId }, t', ?_, ?_,
    ?_, ?_, fun b ↦ (hextended.mapper b).trans (h₂.mapper b), ?_⟩
  · simp only [BaseHashIndex.splitSlot, hrehash, Lib.ok_bind, Lib.pure_eq_ok]
  · exact h₂.represents.setHeader _ (numSlotsPerPage_incrementNextSplitSlotId _)
  · show index₂.indexHeader.incrementNextSplitSlotId = _
    rw [h₂.indexHeader, hextended.indexHeader]
  · show index₂.numAllocated true = _
    rw [h₂.numAllocated_true, hextended.numAllocated]
  · rw [hchain, hextended.indexHeader]

end Graphflow
