import Graphflow.Index.Split
import Mathlib.Data.List.TakeWhile

/-!
# Hash indexes in memory as maps

The chain of the primary slot of a key holds all entries with the key, and no chain holds a key
twice.  Then the operations on chains are those of a finite map.
-/

namespace Graphflow

open Storage Lib

/-! ## The primary slot of a key -/

namespace HashIndexHeader

variable {h : HashIndexHeader} {hash : UInt64}

/-- The masks belong to the level. -/
structure Consistent (h : HashIndexHeader) : Prop where
  level_le : h.currentLevel ≤ 31
  levelHashMask : h.levelHashMask = 2 ^ h.currentLevel - 1
  higherLevelHashMask : h.higherLevelHashMask = hashMask (h.currentLevel + 1)

/-- The slot that will be split is one of the level, and the mask of the next level can be made. -/
def CanSplit (h : HashIndexHeader) : Prop :=
  h.nextSplitSlotId ≤ 2 ^ h.currentLevel ∧ h.currentLevel ≤ 30

instance (h : HashIndexHeader) : Decidable h.CanSplit := inferInstanceAs (Decidable (_ ∧ _))

theorem Consistent.and_levelHashMask (hh : h.Consistent) (hash : UInt64) :
    hash.toNat &&& h.levelHashMask = hash.toNat % 2 ^ h.currentLevel := by
  rw [hh.levelHashMask, Nat.and_two_pow_sub_one_eq_mod]

theorem Consistent.and_higherLevelHashMask (hh : h.Consistent) (hlevel : h.currentLevel ≤ 30)
    (hash : UInt64) :
    hash.toNat &&& h.higherLevelHashMask = hash.toNat % 2 ^ (h.currentLevel + 1) := by
  rw [hh.higherLevelHashMask, hashMask, Nat.mod_eq_of_lt (by omega),
    Nat.and_two_pow_sub_one_eq_mod]

theorem mod_two_pow_succ (n level : ℕ) : n % 2 ^ (level + 1) = n % 2 ^ level ∨
    n % 2 ^ (level + 1) = n % 2 ^ level + 2 ^ level := by
  have hmod := Nat.mod_mod_of_dvd n (Nat.pow_dvd_pow 2 (Nat.le_succ level))
  have hlt := Nat.mod_lt n (Nat.two_pow_pos (level + 1))
  rw [Nat.pow_succ] at hlt
  have hdiv := Nat.div_add_mod (n % 2 ^ (level + 1)) (2 ^ level)
  have hquot : n % 2 ^ (level + 1) / 2 ^ level < 2 := Nat.div_lt_of_lt_mul hlt
  rw [Nat.succ_eq_add_one] at hmod
  rw [hmod] at hdiv
  rcases Nat.lt_succ_iff_lt_or_eq.mp hquot with h | h
  · rw [Nat.lt_one_iff.mp h] at hdiv
    omega
  · rw [h] at hdiv
    omega

theorem consistent_increment (hh : h.Consistent) (hsplit : h.CanSplit) :
    h.incrementNextSplitSlotId.Consistent := by
  have hlevel := hsplit.2
  rw [incrementNextSplitSlotId]
  split_ifs
  · exact ⟨hh.level_le, hh.levelHashMask, hh.higherLevelHashMask⟩
  · refine ⟨Nat.succ_le_succ hlevel, ?_, rfl⟩
    show hashMask (h.currentLevel + 1) = _
    rw [hashMask, Nat.mod_eq_of_lt (by omega)]
    rfl

/-- Only the keys of the slot that is split move, to where the next level has them. -/
theorem primarySlotId_increment (hh : h.Consistent) (hsplit : h.CanSplit) (hash : UInt64) :
    h.incrementNextSplitSlotId.primarySlotId hash =
      if h.primarySlotId hash = h.nextSplitSlotId then hash.toNat &&& h.higherLevelHashMask
      else h.primarySlotId hash := by
  have hlevel := hsplit.2
  have hhigher := mod_two_pow_succ hash.toNat h.currentLevel
  have hlt := Nat.mod_lt hash.toNat (Nat.two_pow_pos h.currentLevel)
  have hnext := hsplit.1
  have hlow := hh.and_levelHashMask hash
  have hhigh := hh.and_higherLevelHashMask hlevel hash
  rw [incrementNextSplitSlotId]
  split_ifs with hinc hslot hslot
  · simp only [primarySlotId, hlow, hhigh] at hslot ⊢
    split_ifs at hslot ⊢ <;> omega
  · simp only [primarySlotId, hlow, hhigh] at hslot ⊢
    split_ifs at hslot ⊢ <;> omega
  · have hmask : hash.toNat &&& hashMask (h.currentLevel + 1) =
        hash.toNat % 2 ^ (h.currentLevel + 1) := by
      rw [← hh.higherLevelHashMask, hhigh]
    simp only [primarySlotId, incrementLevel, Nat.not_lt_zero, if_false, hmask, hhigh]
  · have hmask : hash.toNat &&& hashMask (h.currentLevel + 1) =
        hash.toNat % 2 ^ (h.currentLevel + 1) := by
      rw [← hh.higherLevelHashMask, hhigh]
    simp only [primarySlotId, incrementLevel, Nat.not_lt_zero, if_false, hmask, hlow, hhigh]
      at hslot ⊢
    split_ifs at hslot ⊢ <;> omega

/-- The keys of the slot that is split go to slots that are there or to the next one. -/
theorem and_higherLevelHashMask_le (hh : h.Consistent) (hsplit : h.CanSplit)
    (hslot : h.primarySlotId hash = h.nextSplitSlotId) :
    hash.toNat &&& h.higherLevelHashMask ≤ 2 ^ h.currentLevel + h.nextSplitSlotId := by
  have hlevel := hsplit.2
  have hhigher := mod_two_pow_succ hash.toNat h.currentLevel
  have hlow := hh.and_levelHashMask hash
  have hhigh := hh.and_higherLevelHashMask hlevel hash
  simp only [primarySlotId, hlow, hhigh] at hslot ⊢
  split_ifs at hslot <;> omega

/-- A split needs one more slot. -/
theorem pow_add_increment_le (h : HashIndexHeader) (hsplit : h.CanSplit) :
    2 ^ h.incrementNextSplitSlotId.currentLevel + h.incrementNextSplitSlotId.nextSplitSlotId ≤
      2 ^ h.currentLevel + h.nextSplitSlotId + 1 := by
  have hnext := hsplit.1
  rw [incrementNextSplitSlotId]
  split_ifs with hinc
  · show 2 ^ h.currentLevel + (h.nextSplitSlotId + 1) ≤ _
    omega
  · show 2 ^ (h.currentLevel + 1) + 0 ≤ _
    rw [Nat.pow_succ]
    omega

end HashIndexHeader

/-! ## Entries -/

variable {stdHash : List UInt8 → UInt64} {keyType : KeyType} {key k : Key} {m m' : Memory}
  {c c' : Cursor} {entry : Entry} {e : Key × ℕ} {v value : ℕ}

/-- The bytes of an entry are the key and the offset. -/
structure EntryIs (keyType : KeyType) (m : Memory) (c : Cursor) (entry : Entry) (e : Key × ℕ) :
    Prop where
  valid : keyType.Valid e.1
  stored : KeyStored m c keyType entry.key e.1
  nodeOffset : entry.nodeOffset = e.2

theorem EntryIs.mono (h : EntryIs keyType m c entry e) (hc : c.Reaches c')
    (hm : ∀ a < c.pos, m' a = m a) : EntryIs keyType m' c' entry e :=
  ⟨h.valid, h.stored.mono hc hm, h.nodeOffset⟩

/-- What a split takes for the hash of a key, which for a string are the bytes of the length up to
the first zero. -/
def entryHash (stdHash : List UInt8 → UInt64) : KeyType → Key → UInt64
  | .int64, key => keyHashFunc stdHash .int64 key
  | .string, key => stdHash ((littleEndian 4 key.length).takeWhile (· ≠ 0))

/-- The length of a string has a zero in its last byte. -/
theorem takeWhile_littleEndian {n : ℕ} (hn : n < 256 ^ 3) (rest : List UInt8) :
    (littleEndian 4 n ++ rest).takeWhile (· ≠ 0) = (littleEndian 4 n).takeWhile (· ≠ 0) := by
  have hlast : UInt8.ofNat (n / 256 / 256 / 256) = 0 := by
    rw [show n / 256 / 256 / 256 = 0 by omega]
    rfl
  rw [List.takeWhile_append]
  split_ifs with hlength
  · have hall := List.takeWhile_eq_self_iff.mp (List.IsPrefix.eq_of_length
      (List.takeWhile_prefix _) hlength)
    have hzero := hall 0 (by simp [littleEndian, hlast])
    exact absurd hzero (by decide)
  · rfl

theorem EntryIs.hash (h : EntryIs keyType m c entry e) :
    keyHashFunc stdHash keyType entry.key = entryHash stdHash keyType e.1 := by
  have hstored := h.stored
  have hvalid := h.valid
  cases keyType with
  | int64 =>
      have hkey : entry.key = e.1 := hstored
      rw [hkey]
      rfl
  | string =>
      have hlength : e.1.length < 256 ^ 3 :=
        lt_of_le_of_lt hvalid.2 (by decide)
      have hhead := congrArg (List.take 4) hstored.2
      rw [List.take_take, List.take_take, Nat.min_eq_left (by decide),
        InMemOverflowFile.take_four_makeString] at hhead
      have hbytes : entry.key = littleEndian 4 e.1.length ++ entry.key.drop 4 := by
        rw [← hhead]
        exact (List.take_append_drop 4 entry.key).symm
      rw [keyHashFunc, hbytes, takeWhile_littleEndian hlength]
      rfl

/-! ## Indexes as maps -/

namespace InMemHashIndex

variable {index index' : InMemHashIndex} {t t' : ChainTable}

abbrev keyDataTypeID (index : InMemHashIndex) : KeyType := index.indexHeader.keyDataTypeID

/-- What the entries of the index are. -/
abbrev entryIs (index : InMemHashIndex) : Entry → Key × ℕ → Prop :=
  EntryIs index.keyDataTypeID index.inMemOverflowFile.memory index.inMemOverflowFile.cursor

def numAllocatedPSlots (index : InMemHashIndex) : ℕ := index.toBaseHashIndex.numAllocated true

/-- The index has the chains of the table, and every key is in the chain of its primary slot. -/
structure Holds (stdHash : List UInt8 → UInt64) (index : InMemHashIndex) (t : ChainTable) :
    Prop where
  represents : Represents index.entryIs index.toBaseHashIndex t
  overflow : index.inMemOverflowFile.WellFormed
  consistent : index.indexHeader.Consistent
  hasSlot : ∀ key, index.HasSlot ⟨index.getPrimarySlotIdForKey stdHash key, true⟩
  allocated : index.indexHeader.nextSplitSlotId ≤ 2 ^ index.indexHeader.currentLevel →
    2 ^ index.indexHeader.currentLevel + index.indexHeader.nextSplitSlotId ≤
      index.numAllocatedPSlots
  enough : numRequiredEntries index.numEntries ≤ index.numAllocatedPSlots * slotCapacity
  home : ∀ i, ∀ key ∈ SlotChain.keys (t.chain i), index.getPrimarySlotIdForKey stdHash key = i
  nodup : ∀ i, (SlotChain.keys (t.chain i)).Nodup

/-- The map that the index is. -/
def content (stdHash : List UInt8 → UInt64) (index : InMemHashIndex) (t : ChainTable) (key : Key) :
    Option ℕ :=
  SlotChain.lookup key (t.chain (index.getPrimarySlotIdForKey stdHash key))

theorem content_eq_some_iff (h : Holds stdHash index t) :
    content stdHash index t key = some v ↔
      (key, v) ∈ SlotChain.entries (t.chain (index.getPrimarySlotIdForKey stdHash key)) :=
  SlotChain.lookup_eq_some_iff (h.nodup _)

theorem content_eq_none_iff : content stdHash index t key = none ↔
    key ∉ SlotChain.keys (t.chain (index.getPrimarySlotIdForKey stdHash key)) :=
  SlotChain.lookup_eq_none_iff

theorem decides_keyEquals (index : InMemHashIndex) (hkey : index.keyDataTypeID.Valid key) :
    SlotIs.Decides index.entryIs (index.keyEquals key) key := fun _ _ hentry ↦
  keyEqualsFuncInMem_of_stored hentry.stored hentry.valid hkey

theorem lookupInternal_eq (h : Holds stdHash index t) (hkey : index.keyDataTypeID.Valid key) :
    index.lookupInternal stdHash key = .ok (content stdHash index t key) := by
  have hslot := h.hasSlot key
  have hget := h.represents.getSlot hslot
  rcases (h.represents.chainAt _).findMatchedEntry (index.decides_keyEquals hkey) hget
    (h.represents.length_ovf_lt _) (h.represents.nodup _) with
    ⟨hfind, hlookup, -⟩ | ⟨x, hx, i, v, -, hfind, hentry, hlookup, -⟩
  · simp only [lookupInternal, hfind, Lib.ok_bind, content, hlookup, Lib.pure_eq_ok]
  · simp only [lookupInternal, hfind, Lib.ok_bind, hget x hx, content, hlookup, Lib.pure_eq_ok,
      hentry.nodeOffset]

/-! ### Changing one chain -/

theorem mem_keys {c : EntryChain} : k ∈ SlotChain.keys c ↔ ∃ v, (k, v) ∈ SlotChain.entries c := by
  rw [SlotChain.keys, List.mem_map]
  constructor
  · rintro ⟨⟨k', v⟩, he, rfl⟩
    exact ⟨v, he⟩
  · rintro ⟨v, he⟩
    exact ⟨_, he, rfl⟩

/-- The chain of the primary slot of a key has been replaced. -/
structure ChainSet (stdHash : List UInt8 → UInt64) (index index' : InMemHashIndex) (t : ChainTable)
    (key : Key) (ids : List ℕ) (chain : EntryChain) : Prop where
  represents : Represents index'.entryIs index'.toBaseHashIndex
    (t.set (index.getPrimarySlotIdForKey stdHash key) ids chain)
  overflow : index'.inMemOverflowFile.WellFormed
  indexHeader : index'.indexHeader = index.indexHeader
  numAllocated : index'.numAllocatedPSlots = index.numAllocatedPSlots
  mapper : ∀ b, index.mapper b <+: index'.mapper b
  enough : numRequiredEntries index'.numEntries ≤ index.numAllocatedPSlots * slotCapacity

namespace ChainSet

variable {ids : List ℕ} {chain : EntryChain} {value' : Option ℕ}

theorem primarySlot (h : ChainSet stdHash index index' t key ids chain) (k : Key) :
    index'.getPrimarySlotIdForKey stdHash k = index.getPrimarySlotIdForKey stdHash k := by
  rw [getPrimarySlotIdForKey, getPrimarySlotIdForKey, h.indexHeader]

theorem holds (h : ChainSet stdHash index index' t key ids chain) (hindex : Holds stdHash index t)
    (hkeys : ∀ k ∈ SlotChain.keys chain, k = key ∨
      k ∈ SlotChain.keys (t.chain (index.getPrimarySlotIdForKey stdHash key)))
    (hnodup : (SlotChain.keys chain).Nodup) :
    Holds stdHash index' (t.set (index.getPrimarySlotIdForKey stdHash key) ids chain) := by
  refine ⟨h.represents, h.overflow, h.indexHeader ▸ hindex.consistent, ?_, ?_, ?_, ?_, ?_⟩
  · intro k
    rw [h.primarySlot]
    exact BaseHashIndex.hasSlot_of_mapper h.indexHeader h.mapper (hindex.hasSlot k)
  · rw [h.indexHeader, h.numAllocated]
    exact hindex.allocated
  · rw [h.numAllocated]
    exact h.enough
  · intro i k hk
    rw [h.primarySlot]
    by_cases hi : i = index.getPrimarySlotIdForKey stdHash key
    · simp only [ChainTable.set, hi, Function.update_self] at hk
      rcases hkeys k hk with rfl | hk
      · exact hi.symm
      · rw [hi]
        exact hindex.home _ k hk
    · simp only [ChainTable.set, Function.update_of_ne hi] at hk
      exact hindex.home i k hk
  · intro i
    by_cases hi : i = index.getPrimarySlotIdForKey stdHash key
    · simp only [ChainTable.set, hi, Function.update_self]
      exact hnodup
    · simp only [ChainTable.set, Function.update_of_ne hi]
      exact hindex.nodup i

/-- Only the value of the key has changed. -/
theorem content_eq (h : ChainSet stdHash index index' t key ids chain)
    (hindex : Holds stdHash index t)
    (hindex' : Holds stdHash index' (t.set (index.getPrimarySlotIdForKey stdHash key) ids chain))
    (hentries : ∀ k v, (k, v) ∈ SlotChain.entries chain ↔ if k = key then value' = some v
      else (k, v) ∈ SlotChain.entries (t.chain (index.getPrimarySlotIdForKey stdHash key))) :
    content stdHash index' (t.set (index.getPrimarySlotIdForKey stdHash key) ids chain) =
      Function.update (content stdHash index t) key value' := by
  funext k
  apply Option.ext
  intro v
  rw [content_eq_some_iff hindex', h.primarySlot]
  by_cases hk : k = key
  · rw [hk, Function.update_self]
    simp only [ChainTable.set, Function.update_self, hentries, if_true]
  · rw [Function.update_of_ne hk, content_eq_some_iff hindex]
    by_cases hi : index.getPrimarySlotIdForKey stdHash k = index.getPrimarySlotIdForKey stdHash key
    · simp only [hi, ChainTable.set, Function.update_self, hentries, hk, if_false]
    · simp only [ChainTable.set, Function.update_of_ne hi]

end ChainSet

/-- An operation has changed the value of one key. -/
structure Updated (stdHash : List UInt8 → UInt64) (index index' : InMemHashIndex)
    (t t' : ChainTable) (key : Key) (value : Option ℕ) : Prop where
  holds : Holds stdHash index' t'
  indexHeader : index'.indexHeader = index.indexHeader
  numAllocated : index'.numAllocatedPSlots = index.numAllocatedPSlots
  content : content stdHash index' t' = Function.update (content stdHash index t) key value
  overflow_le : index'.inMemOverflowFile.numPages ≤ index.inMemOverflowFile.numPages + 1

/-! ### Deleting -/

theorem deleteInternal_of_none (h : Holds stdHash index t) (hkey : index.keyDataTypeID.Valid key)
    (hnone : content stdHash index t key = none) :
    index.deleteInternal stdHash key = .ok (index, false) := by
  rcases (h.represents.chainAt _).findMatchedEntry (index.decides_keyEquals hkey)
    (h.represents.getSlot (h.hasSlot key)) (h.represents.length_ovf_lt _)
      (h.represents.nodup _) with
    ⟨hfind, -⟩ | ⟨x, -, i, v, -, -, -, hlookup, -⟩
  · simp only [deleteInternal, hfind, Lib.ok_bind, Lib.pure_eq_ok]
  · rw [content, hlookup] at hnone
    exact absurd hnone (Option.some_ne_none v)

theorem exists_deleteInternal (h : Holds stdHash index t) (hkey : index.keyDataTypeID.Valid key)
    (hsome : content stdHash index t key = some v) :
    ∃ index' t', index.deleteInternal stdHash key = .ok (index', true) ∧
      Updated stdHash index index' t t' key none ∧ index'.numEntries = index.numEntries - 1 := by
  have hget := h.represents.getSlot (h.hasSlot key)
  rcases (h.represents.chainAt _).findMatchedEntry (index.decides_keyEquals hkey)
    hget (h.represents.length_ovf_lt _) (h.represents.nodup _) with
    ⟨-, hlookup, -⟩ | ⟨x, hx, i, v', c', hfind, -, -, hdelete, hchain⟩
  · rw [content, hlookup] at hsome
    exact absurd hsome (Option.some_ne_none v).symm
  · have hmem := content_eq_some_iff h |>.mp hsome
    obtain ⟨c'', v'', hdelete', hperm⟩ := SlotChain.exists_delete (mem_keys.mpr ⟨v, hmem⟩)
    obtain rfl : c' = c'' := Option.some.inj (hdelete.symm.trans hdelete')
    have hnodup := (hperm.map Prod.fst).nodup_iff.mp (h.nodup _)
    rw [List.map_cons, List.nodup_cons] at hnodup
    obtain ⟨base, hset, hset₁⟩ := BaseHashIndex.exists_setSlot h.represents.wellFormed
      (h.represents.hasSlot (h.hasSlot key) x hx) (BaseHashIndex.invalidateEntry (index.slot x) i)
    have hchainSet : ChainSet stdHash index
        ⟨base, index.inMemOverflowFile, index.numEntries - 1⟩ t key
        (t.ovf (index.getPrimarySlotIdForKey stdHash key)) c' := by
      have hkind : entryIs ⟨base, index.inMemOverflowFile, index.numEntries - 1⟩ =
          index.entryIs := by
        simp only [entryIs, keyDataTypeID, hset₁.indexHeader]
      refine ⟨?_, h.overflow, hset₁.indexHeader, hset₁.numAllocated true, fun b ↦
        (hset₁.mapper b).symm ▸ List.prefix_rfl, ?_⟩
      · rw [hkind]
        apply h.represents.set hset₁.wellFormed _ _ (h.represents.ovf_nodup _) _
          (fun _ hid ↦ Or.inl hid) (hset₁.numAllocated false).ge
        · rw [hset₁.slot]
          exact hchain
        · intro y hy
          rw [hset₁.slot]
          apply Function.update_of_ne
          rintro rfl
          exact hy hx
        · intro id hid
          rw [hset₁.numAllocated]
          exact h.represents.ovf_lt _ id hid
      · have henough := h.enough
        rw [numRequiredEntries] at henough ⊢
        show ((index.numEntries - 1) * 3 + 1) / 2 ≤ _
        omega
    have hholds := hchainSet.holds h (fun k hk ↦ Or.inr
      ((hperm.map Prod.fst).mem_iff.mpr (List.mem_cons_of_mem _ hk))) hnodup.2
    refine ⟨_, _, ?_, ⟨hholds, hset₁.indexHeader, hset₁.numAllocated true,
      hchainSet.content_eq h hholds ?_, Nat.le_succ _⟩, rfl⟩
    · simp only [deleteInternal, hfind, Lib.ok_bind, hget x hx, hset, Lib.pure_eq_ok]
    · intro k v₁
      split_ifs with hk
      · constructor
        · intro hmem₁
          exact absurd (mem_keys.mpr ⟨v₁, hk ▸ hmem₁⟩) hnodup.1
        · rintro ⟨⟩
      · rw [hperm.mem_iff, List.mem_cons, Prod.mk.injEq]
        exact ⟨Or.inr, fun hor ↦ hor.resolve_left fun heq ↦ hk heq.1⟩

/-! ### Appending without a split -/

/-- No slot has to be split before the next append. -/
def HasRoom (index : InMemHashIndex) : Prop :=
  numRequiredEntries (index.numEntries + 1) ≤ index.numAllocatedPSlots * slotCapacity

/-- The pages of the overflow file can be numbered after another string. -/
def OverflowFits (index : InMemHashIndex) : Prop :=
  index.keyDataTypeID = .string → index.inMemOverflowFile.numPages < 256 ^ 4

theorem splitSlots_of_hasRoom (hroom : index.HasRoom) (turns : ℕ) :
    index.toBaseHashIndex.splitSlots stdHash (numRequiredEntries (index.numEntries + 1)) turns =
      .ok index.toBaseHashIndex := by
  cases turns with
  | zero => rfl
  | succ turns => exact if_neg (Nat.not_lt.mpr hroom)

theorem findSlotToInsert_eq (h : Holds stdHash index t) (hkey : index.keyDataTypeID.Valid key)
    (e : Key × ℕ) :
    BaseHashIndex.findSlotToInsert (index.keyEquals key) index.toBaseHashIndex
      index.maxChainLength ⟨index.getPrimarySlotIdForKey stdHash key, true⟩ =
      .ok ((SlotChain.insertUnless (SlotChain.hasKey key) e
        (t.chain (index.getPrimarySlotIdForKey stdHash key))).map fun _ ↦
          Represents.place index.toBaseHashIndex t (index.getPrimarySlotIdForKey stdHash key)) :=
  (h.represents.chainAt _).findSlotToInsert_hasKey (index.decides_keyEquals hkey)
    (h.represents.getSlot (h.hasSlot key)) (h.represents.length_ovf_lt _)

/-- A key that is found before a place is free is not appended. -/
theorem appendInternal_of_hit (h : Holds stdHash index t) (hkey : index.keyDataTypeID.Valid key)
    (hroom : index.HasRoom) (hhit : SlotChain.insertUnless (SlotChain.hasKey key) (key, value)
      (t.chain (index.getPrimarySlotIdForKey stdHash key)) = none) :
    index.appendInternal stdHash key value = .ok (index, false) := by
  have hfind := findSlotToInsert_eq h hkey (key, value)
  rw [hhit, Option.map_none] at hfind
  simp only [appendInternal, splitSlots_of_hasRoom hroom, Lib.ok_bind]
  rw [hfind]
  rfl

theorem exists_appendInternal (h : Holds stdHash index t) (hkey : index.keyDataTypeID.Valid key)
    (hroom : index.HasRoom) (hfits : index.OverflowFits)
    (hnone : content stdHash index t key = none) (value : ℕ) :
    ∃ index' t', index.appendInternal stdHash key value = .ok (index', true) ∧
      Updated stdHash index index' t t' key (some value) ∧
      index'.numEntries = index.numEntries + 1 ∧
      t'.chain = Function.update t.chain (index.getPrimarySlotIdForKey stdHash key)
        (SlotChain.copy (key, value) (t.chain (index.getPrimarySlotIdForKey stdHash key))) := by
  have hnotMem := content_eq_none_iff.mp hnone
  have hfind := findSlotToInsert_eq h hkey (key, value)
  rw [SlotChain.insertUnless_of_notMem hnotMem, Option.map_some] at hfind
  obtain ⟨overflowFile, bytes, hinsertKey, hinsertedKey⟩ :=
    exists_keyInsertFunc h.overflow hkey hfits
  obtain ⟨base, hinsert, hinserted⟩ := h.represents.exists_insert (h.hasSlot key) ⟨bytes, value⟩
  have hperm := SlotChain.entries_copy (key, value)
    (t.chain (index.getPrimarySlotIdForKey stdHash key))
  have hnodup : (SlotChain.keys (SlotChain.copy (key, value)
      (t.chain (index.getPrimarySlotIdForKey stdHash key)))).Nodup := by
    have hkeys := (hperm.map Prod.fst).nodup_iff
    rw [List.map_cons, List.nodup_cons] at hkeys
    exact hkeys.mpr ⟨hnotMem, h.nodup _⟩
  have hchainSet : ChainSet stdHash index ⟨base, overflowFile, index.numEntries + 1⟩ t key
      (idsAfterInsert index.slot (Represents.place index.toBaseHashIndex t
        (index.getPrimarySlotIdForKey stdHash key)) (index.toBaseHashIndex.numAllocated false)
        (t.ovf (index.getPrimarySlotIdForKey stdHash key)))
      (SlotChain.copy (key, value)
        (t.chain (index.getPrimarySlotIdForKey stdHash key))) := by
    have hkind : entryIs ⟨base, overflowFile, index.numEntries + 1⟩ =
        EntryIs index.keyDataTypeID overflowFile.memory overflowFile.cursor := by
      simp only [entryIs, keyDataTypeID, hinserted.indexHeader]
    have hrepresents := h.represents.mono fun entry e (he : index.entryIs entry e) ↦
      he.mono hinsertedKey.reaches hinsertedKey.frame
    refine ⟨?_, hinsertedKey.wellFormed, hinserted.indexHeader, hinserted.numAllocated_true,
      hinserted.mapper, hroom⟩
    rw [hkind]
    exact hrepresents.insert ⟨hkey, hinsertedKey.stored, rfl⟩ hinserted
  have hholds := hchainSet.holds h (fun k hk ↦ by
    have hmem := (hperm.map Prod.fst).mem_iff.mp hk
    rwa [List.map_cons, List.mem_cons] at hmem) hnodup
  refine ⟨_, _, ?_, ⟨hholds, hinserted.indexHeader, hinserted.numAllocated_true,
    hchainSet.content_eq h hholds ?_, hinsertedKey.numPages_le⟩, rfl, rfl⟩
  · simp only [appendInternal, splitSlots_of_hasRoom hroom, Lib.ok_bind]
    rw [hfind]
    simp only [Lib.ok_bind, hinsertKey, hinsert]
    rfl
  · intro k v₁
    rw [hperm.mem_iff, List.mem_cons, Prod.mk.injEq]
    split_ifs with hk
    · constructor
      · rintro (⟨-, rfl⟩ | hmem₁)
        · rfl
        · exact absurd (mem_keys.mpr ⟨v₁, hk ▸ hmem₁⟩) hnotMem
      · intro hv
        exact Or.inl ⟨hk, (Option.some.inj hv).symm⟩
    · exact ⟨fun hor ↦ hor.resolve_left fun heq ↦ hk heq.1, Or.inr⟩

end InMemHashIndex

end Graphflow
