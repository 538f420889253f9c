import Graphflow.Index.Reserve

/-!
# Splits of indexes in memory

A split moves keys between two chains.  It takes the hash of the bytes of an entry for that of the
key, which for a string is not the same; where the two agree under the mask of the next level, the
index is the same map as before.
-/

namespace Graphflow

open Storage Lib

namespace InMemHashIndex

variable {stdHash : List UInt8 → UInt64} {index index' : InMemHashIndex} {t t' : ChainTable}
  {key k : Key} {v value : ℕ}

abbrev hashOf (stdHash : List UInt8 → UInt64) (index : InMemHashIndex) (key : Key) : UInt64 :=
  keyHashFunc stdHash index.keyDataTypeID key

/-- The slot where a split takes the keys of the next level. -/
def nextLevelSlot (stdHash : List UInt8 → UInt64) (index : InMemHashIndex) (key : Key) : ℕ :=
  (index.hashOf stdHash key).toNat &&& index.indexHeader.higherLevelHashMask

/-- A split puts the key where it is looked for afterwards. -/
def RehashesTo (stdHash : List UInt8 → UInt64) (index : InMemHashIndex) (key : Key) : Prop :=
  (entryHash stdHash index.keyDataTypeID key).toNat &&& index.indexHeader.higherLevelHashMask =
    index.nextLevelSlot stdHash key

instance (stdHash : List UInt8 → UInt64) (index : InMemHashIndex) (key : Key) :
    Decidable (index.RehashesTo stdHash key) := inferInstanceAs (Decidable (_ = _))

/-- The next split keeps the map. -/
structure SplitSafe (stdHash : List UInt8 → UInt64) (index : InMemHashIndex) (keys : List Key) :
    Prop where
  canSplit : index.indexHeader.CanSplit
  rehashesTo : ∀ key ∈ keys,
    index.getPrimarySlotIdForKey stdHash key = index.indexHeader.nextSplitSlotId →
      index.RehashesTo stdHash key

/-- A slot has been split. -/
structure HasSplit (stdHash : List UInt8 → UInt64) (index index' : InMemHashIndex)
    (t t' : ChainTable) : Prop where
  holds : Holds stdHash index' t'
  indexHeader : index'.indexHeader = index.indexHeader.incrementNextSplitSlotId
  numAllocated : index'.numAllocatedPSlots = index.numAllocatedPSlots + 1
  content : content stdHash index' t' = content stdHash index t
  inMemOverflowFile : index'.inMemOverflowFile = index.inMemOverflowFile
  numEntries : index'.numEntries = index.numEntries

theorem keyDataTypeID_incrementNextSplitSlotId (header : HashIndexHeader) :
    header.incrementNextSplitSlotId.keyDataTypeID = header.keyDataTypeID := by
  rw [HashIndexHeader.incrementNextSplitSlotId]
  split_ifs <;> rfl

/-- What a chain has after the keys of one have been moved. -/
theorem mem_entries_moved {chain : ℕ → EntryChain} {target : Key → ℕ} {s i : ℕ} {e : Key × ℕ} :
    e ∈ SlotChain.entries (SlotChain.copyAll target (SlotChain.entries (chain s))
      (Function.update chain s [Slot.empty]) i) ↔
      e ∈ SlotChain.entries (chain s) ∧ target e.1 = i ∨
        i ≠ s ∧ e ∈ SlotChain.entries (chain i) := by
  rw [(SlotChain.entries_copyAll _ _ _ _).mem_iff, List.mem_append, List.mem_filter,
    decide_eq_true_eq]
  apply or_congr_right
  by_cases hi : i = s
  · rw [hi, Function.update_self]
    simp [SlotChain.entries]
  · rw [Function.update_of_ne hi]
    exact (and_iff_right hi).symm

theorem nodup_keys_moved {chain : ℕ → EntryChain} {target : Key → ℕ} {s i : ℕ}
    (hnodup : ∀ i, (SlotChain.keys (chain i)).Nodup)
    (hdisjoint : ∀ j ≠ s, ∀ k ∈ SlotChain.keys (chain s), k ∉ SlotChain.keys (chain j)) :
    (SlotChain.keys (SlotChain.copyAll target (SlotChain.entries (chain s))
      (Function.update chain s [Slot.empty]) i)).Nodup := by
  have hperm := (SlotChain.entries_copyAll target (SlotChain.entries (chain s))
    (Function.update chain s [Slot.empty]) i).map Prod.fst
  rw [SlotChain.keys, hperm.nodup_iff, List.map_append, List.nodup_append']
  have hmoved := ((List.filter_sublist (p := fun e ↦ decide (target e.1 = i))
    (l := SlotChain.entries (chain s))).map Prod.fst).nodup (hnodup s)
  by_cases hi : i = s
  · rw [hi, Function.update_self]
    have hempty : (SlotChain.entries ([Slot.empty] : EntryChain)).map Prod.fst = [] := by
      simp [SlotChain.entries]
    rw [hempty]
    exact ⟨hi ▸ hmoved, List.nodup_nil, List.disjoint_nil_right _⟩
  · rw [Function.update_of_ne hi]
    refine ⟨hmoved, hnodup i, ?_⟩
    intro k hk hk'
    obtain ⟨e, he, rfl⟩ := List.mem_map.mp hk
    exact hdisjoint i hi e.1 (List.mem_map.mpr ⟨e, List.mem_of_mem_filter he, rfl⟩) hk'

theorem exists_split (h : Holds stdHash index t)
    (hsafe : index.SplitSafe stdHash
      (SlotChain.keys (t.chain index.indexHeader.nextSplitSlotId))) :
    ∃ base t', index.toBaseHashIndex.splitSlot stdHash = .ok base ∧
      HasSplit stdHash index { index with toBaseHashIndex := base } t t' := by
  have hallocated := h.allocated hsafe.canSplit.1
  have hpos := Nat.two_pow_pos index.indexHeader.currentLevel
  have hlt : index.indexHeader.nextSplitSlotId < index.toBaseHashIndex.numAllocated true :=
    lt_of_lt_of_le (by omega) hallocated
  have hi := BaseHashIndex.hasSlot_of_lt h.represents.wellFormed hlt
  have hhome : ∀ e ∈ SlotChain.entries (t.chain index.indexHeader.nextSplitSlotId),
      index.getPrimarySlotIdForKey stdHash e.1 = index.indexHeader.nextSplitSlotId :=
    fun e he ↦ h.home _ _ (mem_keys.mpr ⟨e.2, he⟩)
  have hle : ∀ k, index.getPrimarySlotIdForKey stdHash k = index.indexHeader.nextSplitSlotId →
      index.nextLevelSlot stdHash k ≤ index.toBaseHashIndex.numAllocated true := fun k hk ↦
    (HashIndexHeader.and_higherLevelHashMask_le h.consistent hsafe.canSplit hk).trans hallocated
  have hhash : ∀ e ∈ SlotChain.entries (t.chain index.indexHeader.nextSplitSlotId), ∀ entry,
      index.entryIs entry e →
        (keyHashFunc stdHash index.indexHeader.keyDataTypeID entry.key).toNat &&&
          index.indexHeader.higherLevelHashMask = index.nextLevelSlot stdHash e.1 := by
    intro e he entry hentry
    rw [hentry.hash]
    exact hsafe.rehashesTo e.1 (mem_keys.mpr ⟨e.2, he⟩) (hhome e he)
  obtain ⟨base, t', hsplit, hrepresents, hheader, hnum, hmapper, hchain⟩ :=
    exists_splitSlot h.represents hi hhash fun e he ↦ hle e.1 (hhome e he)
  have htype : base.indexHeader.keyDataTypeID = index.indexHeader.keyDataTypeID := by
    rw [hheader, keyDataTypeID_incrementNextSplitSlotId]
  have hprimary : ∀ k, getPrimarySlotIdForKey stdHash { index with toBaseHashIndex := base } k =
      if index.getPrimarySlotIdForKey stdHash k = index.indexHeader.nextSplitSlotId then
        index.nextLevelSlot stdHash k
      else index.getPrimarySlotIdForKey stdHash k := by
    intro k
    have hincrement := HashIndexHeader.primarySlotId_increment h.consistent hsafe.canSplit
      (index.hashOf stdHash k)
    rw [getPrimarySlotIdForKey, htype, hheader]
    exact hincrement
  have hmem : ∀ i e, e ∈ SlotChain.entries (t'.chain i) ↔
      e ∈ SlotChain.entries (t.chain index.indexHeader.nextSplitSlotId) ∧
        index.nextLevelSlot stdHash e.1 = i ∨
      i ≠ index.indexHeader.nextSplitSlotId ∧ e ∈ SlotChain.entries (t.chain i) := by
    intro i e
    rw [hchain]
    exact mem_entries_moved
  have hholds : Holds stdHash { index with toBaseHashIndex := base } t' := by
    refine ⟨?_, h.overflow, ?_, ?_, ?_, ?_, ?_, ?_⟩
    · have hkind : entryIs { index with toBaseHashIndex := base } = index.entryIs := by
        simp only [entryIs, keyDataTypeID, htype]
      rw [hkind]
      exact hrepresents
    · rw [hheader]
      exact HashIndexHeader.consistent_increment h.consistent hsafe.canSplit
    · intro k
      rw [hprimary]
      split_ifs with hk
      · apply BaseHashIndex.hasSlot_of_lt hrepresents.wellFormed
        rw [hnum]
        exact Nat.lt_succ_of_le (hle k hk)
      · have hslot := h.hasSlot k
        rw [BaseHashIndex.HasSlot] at hslot ⊢
        rw [hheader, numSlotsPerPage_incrementNextSplitSlotId]
        exact hslot.trans_le (hmapper _).length_le
    · rw [hheader]
      intro hnext
      have hstep := HashIndexHeader.pow_add_increment_le index.indexHeader hsafe.canSplit
      show _ ≤ base.numAllocated true
      rw [hnum]
      exact hstep.trans (Nat.succ_le_succ hallocated)
    · have henough := h.enough
      show _ ≤ base.numAllocated true * slotCapacity
      rw [hnum, Nat.add_one_mul]
      exact henough.trans (Nat.le_add_right _ _)
    · intro i k hk
      rw [hprimary]
      obtain ⟨v, hv⟩ := mem_keys.mp hk
      rcases (hmem i (k, v)).mp hv with ⟨hold, hi'⟩ | ⟨hi', hold⟩
      · rw [if_pos (hhome _ hold)]
        exact hi'
      · have hki := h.home i k (mem_keys.mpr ⟨v, hold⟩)
        rw [hki, if_neg hi']
    · intro i
      rw [hchain]
      exact nodup_keys_moved h.nodup fun j hj k hk hk' ↦ hj ((h.home _ k hk').symm.trans
        (h.home _ k hk))
  refine ⟨base, t', hsplit, hholds, hheader, hnum, ?_, rfl, rfl⟩
  funext k
  apply Option.ext
  intro v
  rw [content_eq_some_iff hholds, content_eq_some_iff h, hmem, hprimary]
  by_cases hk : index.getPrimarySlotIdForKey stdHash k = index.indexHeader.nextSplitSlotId
  · rw [if_pos hk, hk]
    constructor
    · rintro (⟨hold, -⟩ | ⟨hne, hold⟩)
      · exact hold
      · exact absurd ((h.home _ k (mem_keys.mpr ⟨v, hold⟩)).symm.trans hk) hne
    · exact fun hold ↦ Or.inl ⟨hold, rfl⟩
  · rw [if_neg hk]
    constructor
    · rintro (⟨hold, -⟩ | ⟨-, hold⟩)
      · exact absurd (hhome _ hold) hk
      · exact hold
    · exact fun hold ↦ Or.inr ⟨hk, hold⟩

/-! ## Appending with a split -/

theorem keyDataTypeID_of_hasSplit (h : HasSplit stdHash index index' t t') :
    index'.keyDataTypeID = index.keyDataTypeID := by
  rw [keyDataTypeID, h.indexHeader, keyDataTypeID_incrementNextSplitSlotId]

/-- The loop of `appendInternal` splits at most once, and keeps the map. -/
theorem exists_splitSlots (h : Holds stdHash index t)
    (hsafe : ¬ index.HasRoom → index.SplitSafe stdHash
      (SlotChain.keys (t.chain index.indexHeader.nextSplitSlotId))) :
    ∃ base t', index.toBaseHashIndex.splitSlots stdHash
        (numRequiredEntries (index.numEntries + 1)) (numRequiredEntries (index.numEntries + 1)) =
          .ok base ∧
      Holds stdHash { index with toBaseHashIndex := base } t' ∧
      HasRoom { index with toBaseHashIndex := base } ∧
      content stdHash { index with toBaseHashIndex := base } t' = content stdHash index t ∧
      base.indexHeader.keyDataTypeID = index.keyDataTypeID := by
  by_cases hroom : index.HasRoom
  · exact ⟨_, t, splitSlots_of_hasRoom hroom _, h, hroom, rfl, rfl⟩
  · obtain ⟨base, t', hsplit, hhasSplit⟩ := exists_split h (hsafe hroom)
    have henough := h.enough
    have hroom' : HasRoom { index with toBaseHashIndex := base } := by
      have hnum := hhasSplit.numAllocated
      rw [HasRoom, hnum]
      simp only [numRequiredEntries, slotCapacity] at henough ⊢
      omega
    refine ⟨base, t', ?_, hhasSplit.holds, hroom', hhasSplit.content,
      keyDataTypeID_of_hasSplit hhasSplit⟩
    have hrequired : numRequiredEntries (index.numEntries + 1) =
        (numRequiredEntries (index.numEntries + 1) - 1) + 1 := by
      rw [numRequiredEntries]
      omega
    have hmore : numRequiredEntries (index.numEntries + 1) >
        index.pSlots.nextSlotIdToAllocate * slotCapacity := Nat.lt_of_not_le hroom
    rw [hrequired, BaseHashIndex.splitSlots, ← hrequired, if_pos hmore, hsplit, Lib.ok_bind]
    exact splitSlots_of_hasRoom hroom' _

theorem appendInternal_eq_of_splitSlots {base : BaseHashIndex}
    (hsplit : index.toBaseHashIndex.splitSlots stdHash
      (numRequiredEntries (index.numEntries + 1)) (numRequiredEntries (index.numEntries + 1)) =
        .ok base)
    (hroom : HasRoom { index with toBaseHashIndex := base }) :
    index.appendInternal stdHash key value =
      appendInternal stdHash { index with toBaseHashIndex := base } key value := by
  have hrest : base.splitSlots stdHash (numRequiredEntries (index.numEntries + 1))
      (numRequiredEntries (index.numEntries + 1)) = .ok base := splitSlots_of_hasRoom hroom _
  rw [appendInternal, appendInternal, hsplit]
  simp only [hrest]

/-- The next append keeps the map apart from the new key. -/
structure AppendSafe (stdHash : List UInt8 → UInt64) (index : InMemHashIndex) (keys : List Key) :
    Prop where
  split : ¬ index.HasRoom → index.SplitSafe stdHash keys
  overflow : index.OverflowFits

theorem AppendSafe.splitSafe {keys : List Key} (hsafe : index.AppendSafe stdHash keys)
    (hkeys : ∀ k, content stdHash index t k ≠ none → k ∈ keys) (hroom : ¬ index.HasRoom) :
    index.SplitSafe stdHash (SlotChain.keys (t.chain index.indexHeader.nextSplitSlotId)) := by
  have hsplit := hsafe.split hroom
  refine ⟨hsplit.canSplit, fun k hk hslot ↦ hsplit.rehashesTo k (hkeys k ?_) hslot⟩
  rw [ne_eq, content_eq_none_iff, not_not, hslot]
  exact hk

theorem exists_appendInternal_split (h : Holds stdHash index t)
    (hkey : index.keyDataTypeID.Valid key)
    (hsafe : ¬ index.HasRoom → index.SplitSafe stdHash
      (SlotChain.keys (t.chain index.indexHeader.nextSplitSlotId)))
    (hfits : index.OverflowFits)
    (hnone : content stdHash index t key = none) (value : ℕ) :
    ∃ index' t', index.appendInternal stdHash key value = .ok (index', true) ∧
      Holds stdHash index' t' ∧ index'.keyDataTypeID = index.keyDataTypeID ∧
      content stdHash index' t' = Function.update (content stdHash index t) key (some value) := by
  obtain ⟨base, t₁, hsplit, hholds, hroom, hcontent, htype⟩ := exists_splitSlots h hsafe
  have hkey₁ : (keyDataTypeID { index with toBaseHashIndex := base }).Valid key := by
    rw [keyDataTypeID, htype]
    exact hkey
  have hfits₁ : OverflowFits { index with toBaseHashIndex := base } := by
    rw [OverflowFits, keyDataTypeID, htype]
    exact hfits
  obtain ⟨index', t', happend, hupdated, -, -⟩ :=
    exists_appendInternal hholds hkey₁ hroom hfits₁ (hcontent ▸ hnone) value
  refine ⟨index', t', ?_, hupdated.holds, ?_, ?_⟩
  · rw [appendInternal_eq_of_splitSlots hsplit hroom]
    exact happend
  · rw [keyDataTypeID, hupdated.indexHeader]
    exact htype
  · rw [hupdated.content, hcontent]

end InMemHashIndex

/-! ## Runs -/

/-- An index with what has been appended to it. -/
structure Appends where
  index : InMemHashIndex
  appended : List (Key × ℕ) := []

namespace Appends

variable {stdHash : List UInt8 → UInt64} {s : Appends} {call : Key × ℕ} {calls : List (Key × ℕ)}
  {keyDataTypeID : KeyType}

def step (stdHash : List UInt8 → UInt64) (s : Appends) (call : Key × ℕ) : Option Appends :=
  match s.index.appendInternal stdHash call.1 call.2 with
  | .ok (index, _) => some ⟨index, s.appended ++ [call]⟩
  | .error _ => none

theorem appended_of_run {s' : Appends} (hrun : run (step stdHash) s calls = some s') :
    s'.appended = s.appended ++ calls := by
  induction calls generalizing s with
  | nil =>
      obtain rfl : s = s' := Option.some.inj hrun
      exact (List.append_nil _).symm
  | cons call calls ih =>
      obtain ⟨s₁, hstep, hrun⟩ := run_cons_eq_some_iff.mp hrun
      have happended : s₁.appended = s.appended ++ [call] := by
        rw [step] at hstep
        split at hstep
        · exact (Option.some.inj hstep) ▸ rfl
        · exact absurd hstep (Option.some_ne_none s₁).symm
      rw [ih hrun, happended, List.append_assoc]
      rfl

/-- A new index, perhaps with slots that it has reserved. -/
def start (keyDataTypeID : KeyType) (reserved : Option UInt32) : Appends where
  index :=
    match reserved with
    | some numEntries => (InMemHashIndex.make keyDataTypeID).bulkReserve numEntries
    | none => InMemHashIndex.make keyDataTypeID

/-- Every key that has been appended is found with its offset, and no other key is found. -/
def FindsAll (stdHash : List UInt8 → UInt64) (keyDataTypeID : KeyType) (s : Appends) : Prop :=
  ∀ key, keyDataTypeID.Valid key →
    s.index.lookupInternal stdHash key = .ok (s.appended.lookup key)

/-- If the append splits a slot, then that slot is one of the level, the mask of the next level can
be made, and the bytes of all keys in it hash to where the keys themselves belong. -/
def Safe (stdHash : List UInt8 → UInt64) (s : Appends) : Prop :=
  s.index.AppendSafe stdHash (s.appended.map Prod.fst)

/-- The index is the map that has been appended. -/
structure Inv (stdHash : List UInt8 → UInt64) (keyDataTypeID : KeyType) (s : Appends) : Prop where
  keyDataTypeID_eq : s.index.keyDataTypeID = keyDataTypeID
  holds : ∃ t, InMemHashIndex.Holds stdHash s.index t ∧
    ∀ key, InMemHashIndex.content stdHash s.index t key = s.appended.lookup key

theorem inv_start (stdHash : List UInt8 → UInt64) (keyDataTypeID : KeyType)
    (reserved : Option UInt32) : Inv stdHash keyDataTypeID (start keyDataTypeID reserved) := by
  cases reserved with
  | none =>
      obtain ⟨-, hheader, -⟩ := InMemHashIndex.make_spec keyDataTypeID
      refine ⟨congrArg HashIndexHeader.keyDataTypeID hheader, _,
        InMemHashIndex.holds_make stdHash keyDataTypeID, fun key ↦ ?_⟩
      exact InMemHashIndex.New.content _ key
  | some numEntries =>
      obtain ⟨-, -, htype, -⟩ := InMemHashIndex.bulkReserve_spec keyDataTypeID numEntries
      refine ⟨htype, _, InMemHashIndex.holds_bulkReserve stdHash keyDataTypeID numEntries,
        fun key ↦ ?_⟩
      exact InMemHashIndex.New.content _ key

theorem lookup_eq_none_iff {appended : List (Key × ℕ)} {key : Key} :
    appended.lookup key = none ↔ key ∉ appended.map Prod.fst := by
  rw [List.lookup_eq_none_iff, List.mem_map]
  constructor
  · rintro h ⟨e, he, rfl⟩
    simpa using h e he
  · intro h e he
    apply bne_iff_ne.mpr
    rintro rfl
    exact h ⟨e, he, rfl⟩

theorem lookup_call {key : Key} :
    [call].lookup key = if key == call.1 then some call.2 else none := by
  obtain ⟨key', nodeOffset⟩ := call
  rw [List.lookup_cons, List.lookup_nil]
  cases key == key' <;> rfl

/-- The offsets after another key. -/
theorem lookup_concat {appended : List (Key × ℕ)} (hcall : call.1 ∉ appended.map Prod.fst) :
    (fun key ↦ (appended ++ [call]).lookup key) =
      Function.update (fun key ↦ appended.lookup key) call.1 (some call.2) := by
  funext key
  rw [List.lookup_append]
  by_cases hkey : key = call.1
  · rw [hkey, Function.update_self, lookup_eq_none_iff.mpr hcall, Option.none_or]
    simp [lookup_call]
  · rw [Function.update_of_ne hkey]
    have hne : (key == call.1) = false := by simpa using hkey
    simp [lookup_call, hne]

theorem Inv.step (hs : s.Inv stdHash keyDataTypeID) (hvalid : keyDataTypeID.Valid call.1)
    (hcall : call.1 ∉ s.appended.map Prod.fst) (hsafe : s.Safe stdHash) :
    ∃ s', step stdHash s call = some s' ∧ s'.appended = s.appended ++ [call] ∧
      s'.Inv stdHash keyDataTypeID := by
  obtain ⟨t, hholds, hcontent⟩ := hs.holds
  have hkeys : ∀ k, InMemHashIndex.content stdHash s.index t k ≠ none →
      k ∈ s.appended.map Prod.fst := by
    intro k hk
    rw [hcontent, ne_eq, lookup_eq_none_iff, not_not] at hk
    exact hk
  have hnone : InMemHashIndex.content stdHash s.index t call.1 = none := by
    rw [hcontent, lookup_eq_none_iff]
    exact hcall
  obtain ⟨index', t', happend, hholds', htype, hcontent'⟩ :=
    InMemHashIndex.exists_appendInternal_split hholds (hs.keyDataTypeID_eq.symm ▸ hvalid)
      (hsafe.splitSafe hkeys) hsafe.overflow hnone call.2
  refine ⟨⟨index', s.appended ++ [call]⟩, ?_, rfl, htype.trans hs.keyDataTypeID_eq, t', hholds', ?_⟩
  · simp only [Appends.step, happend]
  · intro key
    rw [hcontent', funext hcontent]
    exact (congrFun (lookup_concat hcall) key).symm

theorem Inv.findsAll (hs : s.Inv stdHash keyDataTypeID) : s.FindsAll stdHash keyDataTypeID := by
  obtain ⟨t, hholds, hcontent⟩ := hs.holds
  intro key hkey
  rw [InMemHashIndex.lookupInternal_eq hholds (hs.keyDataTypeID_eq.symm ▸ hkey), hcontent]

theorem exists_run_inv (hs : s.Inv stdHash keyDataTypeID)
    (hnodup : (s.appended.map Prod.fst ++ calls.map Prod.fst).Nodup)
    (hvalid : ∀ call ∈ calls, keyDataTypeID.Valid call.1)
    (hsafe : MeetsAlong (step stdHash) (fun s _ ↦ s.Safe stdHash) s calls) :
    ∃ s', run (step stdHash) s calls = some s' ∧ s'.Inv stdHash keyDataTypeID := by
  induction calls generalizing s with
  | nil => exact ⟨s, rfl, hs⟩
  | cons call calls ih =>
      have hcall : call.1 ∉ s.appended.map Prod.fst := fun hmem ↦
        (List.nodup_append.mp hnodup).2.2 _ hmem _ List.mem_cons_self rfl
      obtain ⟨s₁, hstep, happended, hs₁⟩ := hs.step (hvalid call List.mem_cons_self) hcall hsafe.1
      have hnodup₁ : (s₁.appended.map Prod.fst ++ calls.map Prod.fst).Nodup := by
        rw [happended, List.map_append, List.append_assoc]
        exact hnodup
      obtain ⟨s', hrun, hs'⟩ := ih hs₁ hnodup₁
        (fun c hc ↦ hvalid c (List.mem_cons_of_mem _ hc)) (hsafe.2 s₁ hstep)
      exact ⟨s', run_cons_eq_some_iff.mpr ⟨s₁, hstep, hrun⟩, hs'⟩

/-- Keys that are pairwise different are appended to a new index; if every split that this causes
is safe, then all of them are found with their offsets, and no others. -/
theorem exists_run_findsAll (stdHash : List UInt8 → UInt64) (keyDataTypeID : KeyType)
    (reserved : Option UInt32) (calls : List (Key × ℕ)) (hnodup : (calls.map Prod.fst).Nodup)
    (hvalid : ∀ call ∈ calls, keyDataTypeID.Valid call.1)
    (hsafe : MeetsAlong (step stdHash) (fun s _ ↦ s.Safe stdHash) (start keyDataTypeID reserved)
      calls) :
    ∃ s, run (step stdHash) (start keyDataTypeID reserved) calls = some s ∧ s.appended = calls ∧
      s.FindsAll stdHash keyDataTypeID := by
  obtain ⟨s, hrun, hs⟩ :=
    exists_run_inv (inv_start stdHash keyDataTypeID reserved) hnodup hvalid hsafe
  exact ⟨s, hrun, appended_of_run hrun, hs.findsAll⟩

/-- The numbers 1 and 2 as keys. -/
def twoNumbers : List (Key × ℕ) := [([1, 0, 0, 0, 0, 0, 0, 0], 0), ([2, 0, 0, 0, 0, 0, 0, 0], 1)]

theorem exists_run_findsAll_twoNumbers :
    ∃ s, run (step fun _ ↦ 0) (start .int64 none) twoNumbers = some s ∧ s.appended = twoNumbers ∧
      s.FindsAll (fun _ ↦ 0) .int64 := by
  apply exists_run_findsAll (fun _ ↦ 0) .int64 none twoNumbers (by decide) (by decide)
  refine ⟨⟨?_, ?_⟩, ?_⟩
  · exact fun hroom ↦ absurd (Nat.le_of_ble_eq_true rfl) hroom
  · exact fun htype ↦ absurd htype (by decide)
  · intro s hs
    obtain rfl := Option.some.inj hs
    refine ⟨⟨?_, ?_⟩, fun _ _ ↦ trivial⟩
    · exact fun hroom ↦ absurd (Nat.le_of_ble_eq_true rfl) hroom
    · exact fun htype ↦ absurd htype (by decide)

/-- `std::hash<std::string>` of libstdc++ on 64 bits. -/
def hashBytes (bytes : List UInt8) : UInt64 :=
  let mul : UInt64 := 0xc6a4a7935bd1e995
  let shiftMix : UInt64 → UInt64 := fun v ↦ v ^^^ (v >>> 47)
  let hashChunk : UInt64 → List UInt8 → UInt64 := fun hash chunk ↦
    let data := UInt64.ofNat (ofLittleEndian chunk)
    (hash ^^^ if chunk.length = 8 then shiftMix (data * mul) * mul else data) * mul
  let hash := (bytes.toChunks 8).foldl hashChunk (0xc70f6907 ^^^ (UInt64.ofNat bytes.length * mul))
  shiftMix (shiftMix hash * mul)

/-- The strings from "a" to "f", with the offsets from 0 to 5. -/
def sixStrings : List (Key × ℕ) :=
  [([97], 0), ([98], 1), ([99], 2), ([100], 3), ([101], 4), ([102], 5)]

theorem sixStrings_notFound : (sixStrings.map Prod.fst).Nodup ∧
    (∀ call ∈ sixStrings, KeyType.string.Valid call.1) ∧
    ∃ s, run (step hashBytes) (start .string none) sixStrings = some s ∧
      ¬ s.FindsAll hashBytes .string := by
  refine ⟨by decide, by decide, ?_⟩
  have hlost : ((run (step hashBytes) (start .string none) sixStrings).bind fun s ↦
      (s.index.lookupInternal hashBytes [101]).toOption) = some none := by decide +kernel
  obtain ⟨s, hrun, hlookup⟩ := Option.bind_eq_some_iff.mp hlost
  refine ⟨s, hrun, fun hfinds ↦ ?_⟩
  have hfound := hfinds [101] (by decide)
  have happended : s.appended = sixStrings := appended_of_run hrun
  rw [hfound, happended] at hlookup
  exact absurd hlookup (by decide)

end Appends

end Graphflow
