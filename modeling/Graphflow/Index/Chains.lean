import Graphflow.Index.Slots
import Graphflow.Lib.SlotChain

/-!
# The chain of a primary slot

The slots of a chain, with the entries that they have, are a chain of slots in the sense of the
library, and the loops over the slots are its operations.
-/

namespace Graphflow

open Storage Lib

abbrev EntryChain := SlotChain Key ℕ slotCapacity

variable {entryIs entryIs' : Entry → Key × ℕ → Prop} {slot : SlotData} {s : Slot Key ℕ slotCapacity}
  {slots slots' : SlotInfo → SlotData} {info x : SlotInfo} {ids : List ℕ} {c c' : EntryChain}
  {entry : Entry} {e : Key × ℕ} {id : ℕ} {key : Key} {keyEquals : List UInt8 → Except Fault Bool}
  {index : BaseHashIndex} {turns : ℕ}

/-- The valid entries of a slot are those of an abstract one. -/
structure SlotIs (entryIs : Entry → Key × ℕ → Prop) (slot : SlotData)
    (s : Slot Key ℕ slotCapacity) : Prop where
  numEntries : slot.header.numEntries = s.entries.length
  valid : ∀ i, slot.header.validityMask i = (s i).isSome
  entry : ∀ i e, s i = some e → entryIs (slot.entries i) e

namespace SlotIs

theorem mono (h : SlotIs entryIs slot s) (hmono : ∀ entry e, entryIs entry e → entryIs' entry e) :
    SlotIs entryIs' slot s :=
  ⟨h.numEntries, h.valid, fun i e hi ↦ hmono _ _ (h.entry i e hi)⟩

/-- A slot that has been reset. -/
theorem empty (h : slot.header = {}) : SlotIs entryIs slot Slot.empty := by
  refine ⟨?_, ?_, fun _ _ hi ↦ nomatch hi⟩
  · rw [h, Slot.entries_empty, List.length_nil]
  · intro i
    rw [h]
    rfl

theorem header (h : SlotIs entryIs slot s) (id : ℕ) :
    SlotIs entryIs { slot with header := { slot.header with nextOvfSlotId := id } } s :=
  ⟨h.numEntries, h.valid, h.entry⟩

theorem numEntries_eq_iff (h : SlotIs entryIs slot s) :
    slot.header.numEntries = slotCapacity ↔ s.freePos = none := by
  rw [h.numEntries, Slot.freePos_eq_none_iff_length]

theorem numEntries_lt_iff (h : SlotIs entryIs slot s) :
    slot.header.numEntries < slotCapacity ↔ s.freePos ≠ none := by
  have hle := Slot.length_entries_le s
  rw [ne_eq, ← h.numEntries_eq_iff, h.numEntries]
  omega

theorem find?_eq (h : SlotIs entryIs slot s) :
    ((List.finRange slotCapacity).find? fun i ↦ !slot.header.validityMask i) = s.freePos := by
  apply congrArg (List.find? · _)
  funext i
  rw [h.valid, Option.not_isSome]

theorem insertEntry (h : SlotIs entryIs slot s) (hentry : entryIs entry e) {i : Fin slotCapacity}
    (hi : s.freePos = some i) :
    SlotIs entryIs (BaseHashIndex.insertEntry slot entry) (s.set i (some e)) := by
  have hinsert : BaseHashIndex.insertEntry slot entry =
      { header := { slot.header with
          numEntries := slot.header.numEntries + 1
          validityMask := Function.update slot.header.validityMask i true }
        entries := Function.update slot.entries i entry } := by
    simp only [BaseHashIndex.insertEntry, h.find?_eq, hi]
  rw [hinsert]
  refine ⟨?_, ?_, ?_⟩
  · rw [(Slot.entries_set (Slot.freePos_spec hi)).length_eq, List.length_cons, ← h.numEntries]
  · intro j
    by_cases hj : j = i
    · simp only [hj, Function.update_self, Slot.set, Option.isSome_some]
    · simp only [Function.update_of_ne hj, Slot.set, h.valid]
  · intro j e' he'
    by_cases hj : j = i
    · simp only [hj, Slot.set, Function.update_self, Option.some.injEq] at he'
      simp only [hj, Function.update_self, ← he']
      exact hentry
    · simp only [Slot.set, Function.update_of_ne hj] at he'
      simp only [Function.update_of_ne hj]
      exact h.entry j e' he'

theorem invalidateEntry (h : SlotIs entryIs slot s) {i : Fin slotCapacity} (hi : s i = some e) :
    SlotIs entryIs (BaseHashIndex.invalidateEntry slot i) (s.set i none) := by
  refine ⟨?_, ?_, ?_⟩
  · have hlength := (Slot.entries_clear hi).length_eq
    rw [List.length_cons, ← h.numEntries] at hlength
    show slot.header.numEntries - 1 = _
    rw [hlength, Nat.add_sub_cancel]
  · intro j
    by_cases hj : j = i
    · simp only [BaseHashIndex.invalidateEntry, hj, Function.update_self, Slot.set,
        Option.isSome_none]
    · simp only [BaseHashIndex.invalidateEntry, Function.update_of_ne hj, Slot.set, h.valid]
  · intro j e' he'
    by_cases hj : j = i
    · simp only [hj, Slot.set, Function.update_self, reduceCtorEq] at he'
    · simp only [Slot.set, Function.update_of_ne hj] at he'
      exact h.entry j e' he'

/-- A key is compared with the keys of the entries. -/
def Decides (entryIs : Entry → Key × ℕ → Prop) (keyEquals : List UInt8 → Except Fault Bool)
    (key : Key) : Prop :=
  ∀ entry e, entryIs entry e → keyEquals entry.key = .ok (decide (key = e.1))

theorem findMatchedEntryInSlot (h : SlotIs entryIs slot s) (hkey : Decides entryIs keyEquals key) :
    BaseHashIndex.findMatchedEntryInSlot keyEquals slot (List.finRange slotCapacity) =
      .ok (s.findPos key) := by
  rw [Slot.findPos]
  induction List.finRange slotCapacity with
  | nil => rfl
  | cons i rest ih =>
      rw [BaseHashIndex.findMatchedEntryInSlot, h.valid, List.find?_cons]
      cases hi : s i with
      | none => simpa using ih
      | some e =>
          by_cases heq : key = e.1
          · simp [hkey _ _ (h.entry i e hi), heq]
          · simpa [hkey _ _ (h.entry i e hi), heq, Ne.symm heq] using ih

theorem hasKey (h : SlotIs entryIs slot s) (hkey : Decides entryIs keyEquals key)
    {i : Fin slotCapacity} (hvalid : slot.header.validityMask i = true)
    (hequal : keyEquals (slot.entries i).key = .ok true) : SlotChain.hasKey key s = true := by
  rw [h.valid, Option.isSome_iff_exists] at hvalid
  obtain ⟨e, he⟩ := hvalid
  rw [hkey _ _ (h.entry i e he), Except.ok.injEq, decide_eq_true_eq] at hequal
  by_contra hnot
  rw [Bool.not_eq_true, SlotChain.hasKey_eq_false_iff] at hnot
  exact hnot (List.mem_map.mpr ⟨e, Slot.mem_entries.mpr ⟨i, he⟩, hequal.symm⟩)

/-- A key that stands behind slots that are full is found before a place is free. -/
theorem insertUnless_eq_none {before after : List SlotInfo} (hkey : Decides entryIs keyEquals key)
    (h : List.Forall₂ (fun x s ↦ SlotIs entryIs (slots x) s) (before ++ x :: after) c)
    {i : Fin slotCapacity} (hvalid : (slots x).header.validityMask i = true)
    (hequal : keyEquals ((slots x).entries i).key = .ok true)
    (hfull : ∀ y ∈ before, (slots y).header.numEntries = slotCapacity) :
    SlotChain.insertUnless (SlotChain.hasKey key) e c = none := by
  induction before generalizing c with
  | nil =>
      obtain ⟨s, c', hs, -, rfl⟩ := List.forall₂_cons_left_iff.mp h
      rw [SlotChain.insertUnless, if_pos (hs.hasKey hkey hvalid hequal)]
  | cons y before ih =>
      obtain ⟨s, c', hs, hrest, rfl⟩ := List.forall₂_cons_left_iff.mp h
      have hnone := ih hrest fun z hz ↦ hfull z (List.mem_cons_of_mem _ hz)
      have hfree := hs.numEntries_eq_iff.mp (hfull y List.mem_cons_self)
      rw [SlotChain.insertUnless]
      split_ifs
      · rfl
      · rw [hfree, hnone, Option.map_none]

end SlotIs

/-! ## Chains -/

def chainSlots (info : SlotInfo) (ids : List ℕ) : List SlotInfo := info :: ids.map (⟨·, false⟩)

def ChainAt (entryIs : Entry → Key × ℕ → Prop) (slots : SlotInfo → SlotData) :
    SlotInfo → List ℕ → EntryChain → Prop
  | info, [], [s] => SlotIs entryIs (slots info) s ∧ (slots info).header.nextOvfSlotId = 0
  | info, id :: ids, s :: c => SlotIs entryIs (slots info) s ∧
      (slots info).header.nextOvfSlotId = id ∧ 0 < id ∧ ChainAt entryIs slots ⟨id, false⟩ ids c
  | _, _, _ => False

/-- The slot that an entry is inserted to: the first one with room, or the last one. -/
def slotToInsert (slots : SlotInfo → SlotData) : SlotInfo → List ℕ → SlotInfo
  | info, [] => info
  | info, id :: ids =>
      if (slots info).header.numEntries < slotCapacity then info
      else slotToInsert slots ⟨id, false⟩ ids

/-- The slots after `insertToSlot`, where `id` is the overflow slot that is allocated if need be. -/
def slotsAfterInsert (slots : SlotInfo → SlotData) (x : SlotInfo) (id : ℕ) (entry : Entry) :
    SlotInfo → SlotData :=
  if (slots x).header.numEntries = slotCapacity then
    Function.update (Function.update slots x
      { slots x with header := { (slots x).header with nextOvfSlotId := id } }) ⟨id, false⟩
      (BaseHashIndex.insertEntry (slots ⟨id, false⟩) entry)
  else Function.update slots x (BaseHashIndex.insertEntry (slots x) entry)

/-- The overflow slots after `insertToSlot`. -/
def idsAfterInsert (slots : SlotInfo → SlotData) (x : SlotInfo) (id : ℕ) (ids : List ℕ) : List ℕ :=
  if (slots x).header.numEntries = slotCapacity then ids ++ [id] else ids

theorem slotToInsert_mem (slots : SlotInfo → SlotData) (info : SlotInfo) (ids : List ℕ) :
    slotToInsert slots info ids ∈ chainSlots info ids := by
  induction ids generalizing info with
  | nil => exact List.mem_cons_self
  | cons id ids ih =>
      rw [slotToInsert]
      split_ifs
      · exact List.mem_cons_self
      · exact List.mem_cons_of_mem _ (ih ⟨id, false⟩)

/-- Other slots stay as they are. -/
theorem slotsAfterInsert_of_ne {y : SlotInfo} (hx : y ≠ x) (hid : y ≠ ⟨id, false⟩) :
    slotsAfterInsert slots x id entry y = slots y := by
  rw [slotsAfterInsert]
  split_ifs
  · rw [Function.update_of_ne hid, Function.update_of_ne hx]
  · rw [Function.update_of_ne hx]

namespace ChainAt

theorem ne_nil (h : ChainAt entryIs slots info ids c) : c ≠ [] := by
  rintro rfl
  cases ids <;> exact h

theorem eq_singleton (h : ChainAt entryIs slots info [] c) : ∃ s, c = [s] := by
  cases c with
  | nil => exact h.elim
  | cons s c =>
      cases c with
      | nil => exact ⟨s, rfl⟩
      | cons s' c => exact h.elim

theorem eq_cons (h : ChainAt entryIs slots info (id :: ids) c) : ∃ s c', c = s :: c' :=
  List.exists_cons_of_ne_nil h.ne_nil

theorem empty (h : (slots info).header = {}) : ChainAt entryIs slots info [] [Slot.empty] :=
  ⟨SlotIs.empty h, by rw [h]⟩

theorem forall₂ (h : ChainAt entryIs slots info ids c) :
    List.Forall₂ (fun x s ↦ SlotIs entryIs (slots x) s) (chainSlots info ids) c := by
  induction ids generalizing info c with
  | nil =>
      obtain ⟨s, rfl⟩ := h.eq_singleton
      exact List.Forall₂.cons h.1 List.Forall₂.nil
  | cons id ids ih =>
      obtain ⟨s, c, rfl⟩ := h.eq_cons
      exact List.Forall₂.cons h.1 (ih h.2.2.2)

/-- Every entry of the chain is one of a slot. -/
theorem exists_entryIs (h : ChainAt entryIs slots info ids c) (he : e ∈ SlotChain.entries c) :
    ∃ entry, entryIs entry e := by
  obtain ⟨s, hs, he⟩ := List.mem_flatMap.mp he
  obtain ⟨i, hi⟩ := Slot.mem_entries.mp he
  obtain ⟨n, hn, rfl⟩ := List.mem_iff_getElem.mp hs
  have hforall := h.forall₂
  have hlength := hforall.length_eq
  have hslot := hforall.get (hlength.symm ▸ hn) hn
  exact ⟨_, hslot.entry i e hi⟩

theorem mono (h : ChainAt entryIs slots info ids c)
    (hmono : ∀ entry e, entryIs entry e → entryIs' entry e) :
    ChainAt entryIs' slots info ids c := by
  induction ids generalizing info c with
  | nil =>
      obtain ⟨s, rfl⟩ := h.eq_singleton
      exact ⟨h.1.mono hmono, h.2⟩
  | cons id ids ih =>
      obtain ⟨s, c, rfl⟩ := h.eq_cons
      exact ⟨h.1.mono hmono, h.2.1, h.2.2.1, ih h.2.2.2⟩

/-- Only the slots of the chain matter. -/
theorem congr (h : ChainAt entryIs slots info ids c)
    (hslots : ∀ x ∈ chainSlots info ids, slots' x = slots x) :
    ChainAt entryIs slots' info ids c := by
  have hinfo := hslots info List.mem_cons_self
  induction ids generalizing info c with
  | nil =>
      obtain ⟨s, rfl⟩ := h.eq_singleton
      rw [ChainAt, hinfo]
      exact h
  | cons id ids ih =>
      obtain ⟨s, c, rfl⟩ := h.eq_cons
      rw [ChainAt, hinfo]
      have htail : ∀ x ∈ chainSlots ⟨id, false⟩ ids, slots' x = slots x := fun x hx ↦
        hslots x (List.mem_cons_of_mem _ hx)
      exact ⟨h.1, h.2.1, h.2.2.1, ih h.2.2.2 htail (htail _ List.mem_cons_self)⟩

/-- The entry has been inserted where the loops of the source find the place for it. -/
theorem insert (h : ChainAt entryIs slots info ids c) (hentry : entryIs entry e) (hid : 0 < id)
    (hfresh : slots ⟨id, false⟩ = {}) (hnotMem : ⟨id, false⟩ ∉ chainSlots info ids)
    (hnodup : (chainSlots info ids).Nodup) :
    ChainAt entryIs (slotsAfterInsert slots (slotToInsert slots info ids) id entry) info
      (idsAfterInsert slots (slotToInsert slots info ids) id ids) (SlotChain.copy e c) := by
  induction ids generalizing info c with
  | nil =>
      obtain ⟨s, rfl⟩ := h.eq_singleton
      have hne : info ≠ ⟨id, false⟩ := fun heq ↦ hnotMem (heq ▸ List.mem_cons_self)
      rw [slotToInsert, idsAfterInsert, slotsAfterInsert, SlotChain.copy]
      split_ifs with hfull
      · rw [(h.1.numEntries_eq_iff).mp hfull]
        refine ⟨?_, ?_, hid, ?_⟩
        · rw [Function.update_of_ne hne, Function.update_self]
          exact h.1.header id
        · rw [Function.update_of_ne hne, Function.update_self]
        · rw [hfresh]
          refine ⟨?_, ?_⟩
          · rw [Function.update_self]
            exact (SlotIs.empty rfl).insertEntry hentry rfl
          · rw [Function.update_self]
            rfl
      · obtain ⟨i, hi⟩ := Option.ne_none_iff_exists'.mp (mt h.1.numEntries_eq_iff.mpr hfull)
        rw [hi]
        refine ⟨?_, ?_⟩
        · rw [Function.update_self]
          exact h.1.insertEntry hentry hi
        · rw [Function.update_self, BaseHashIndex.insertEntry]
          split <;> exact h.2
  | cons id' ids ih =>
      obtain ⟨s, c, rfl⟩ := h.eq_cons
      have htail := List.nodup_cons.mp hnodup
      have hne : info ≠ ⟨id, false⟩ := fun heq ↦ hnotMem (heq ▸ List.mem_cons_self)
      rw [slotToInsert, SlotChain.copy]
      split_ifs with hroom
      · obtain ⟨i, hi⟩ := Option.ne_none_iff_exists'.mp (h.1.numEntries_lt_iff.mp hroom)
        rw [hi, slotsAfterInsert, idsAfterInsert, if_neg hroom.ne, if_neg hroom.ne]
        refine ⟨?_, ?_, h.2.2.1, ?_⟩
        · rw [Function.update_self]
          exact h.1.insertEntry hentry hi
        · rw [Function.update_self, BaseHashIndex.insertEntry]
          split <;> exact h.2.1
        · apply h.2.2.2.congr
          intro x hx
          apply Function.update_of_ne
          rintro rfl
          exact htail.1 hx
      · have hfull : s.freePos = none := by
          by_contra hfree
          exact hroom (h.1.numEntries_lt_iff.mpr hfree)
        have hx := slotToInsert_mem slots ⟨id', false⟩ ids
        have hinfo : slotsAfterInsert slots (slotToInsert slots ⟨id', false⟩ ids) id entry info =
            slots info := by
          apply slotsAfterInsert_of_ne _ hne
          intro heq
          exact htail.1 (heq ▸ hx)
        have hids : idsAfterInsert slots (slotToInsert slots ⟨id', false⟩ ids) id (id' :: ids) =
            id' :: idsAfterInsert slots (slotToInsert slots ⟨id', false⟩ ids) id ids := by
          rw [idsAfterInsert, idsAfterInsert]
          split_ifs <;> rfl
        rw [hfull, hids]
        refine ⟨?_, ?_, h.2.2.1, ?_⟩
        · rw [hinfo]
          exact h.1
        · rw [hinfo]
          exact h.2.1
        · exact ih h.2.2.2 (fun hmem ↦ hnotMem (List.mem_cons_of_mem _ hmem)) htail.2

/-! ### Loops -/

theorem getPAndOSlots (h : ChainAt entryIs slots info ids c)
    (hget : ∀ x ∈ chainSlots info ids, index.getSlot x = .ok (slots x))
    (hturns : ids.length < turns) : index.getPAndOSlots turns info = .ok (chainSlots info ids) := by
  induction ids generalizing info c turns with
  | nil =>
      obtain ⟨turns, rfl⟩ := Nat.exists_eq_add_one.mpr (Nat.zero_lt_of_lt hturns)
      obtain ⟨s, rfl⟩ := h.eq_singleton
      simp only [BaseHashIndex.getPAndOSlots, hget info List.mem_cons_self, Lib.ok_bind, h.2,
        gt_iff_lt, Nat.lt_irrefl, if_false]
      rfl
  | cons id ids ih =>
      obtain ⟨turns, rfl⟩ := Nat.exists_eq_add_one.mpr (Nat.zero_lt_of_lt hturns)
      obtain ⟨s, c, rfl⟩ := h.eq_cons
      have hrest := ih h.2.2.2 (fun x hx ↦ hget x (List.mem_cons_of_mem _ hx))
        (Nat.lt_of_succ_lt_succ hturns)
      simp only [BaseHashIndex.getPAndOSlots, hget info List.mem_cons_self, Lib.ok_bind, h.2.1,
        gt_iff_lt, h.2.2.1, if_true, hrest]
      rfl

theorem findSlotToInsert (h : ChainAt entryIs slots info ids c)
    (hit : Slot Key ℕ slotCapacity → Bool) (e : Key × ℕ)
    (hmatch : ∀ x s, SlotIs entryIs (slots x) s → ∃ pos, BaseHashIndex.findMatchedEntryInSlot
      keyEquals (slots x) (List.finRange slotCapacity) = .ok pos ∧ pos.isSome = hit s)
    (hget : ∀ x ∈ chainSlots info ids, index.getSlot x = .ok (slots x))
    (hturns : ids.length < turns) :
    BaseHashIndex.findSlotToInsert keyEquals index turns info =
      .ok ((SlotChain.insertUnless hit e c).map fun _ ↦ slotToInsert slots info ids) := by
  induction ids generalizing info c turns with
  | nil =>
      obtain ⟨turns, rfl⟩ := Nat.exists_eq_add_one.mpr (Nat.zero_lt_of_lt hturns)
      obtain ⟨s, rfl⟩ := h.eq_singleton
      obtain ⟨pos, hpos, hhit⟩ := hmatch info s h.1
      simp only [BaseHashIndex.findSlotToInsert, hget info List.mem_cons_self, Lib.ok_bind, hpos,
        SlotChain.insertUnless, ← hhit]
      cases pos with
      | some pos => rfl
      | none =>
          simp only [h.2, gt_iff_lt, Nat.lt_irrefl, if_false, ite_self, Lib.pure_eq_ok,
            Option.isSome_none, Bool.false_eq_true, slotToInsert]
          cases s.freePos <;> rfl
  | cons id ids ih =>
      obtain ⟨turns, rfl⟩ := Nat.exists_eq_add_one.mpr (Nat.zero_lt_of_lt hturns)
      obtain ⟨s, c, rfl⟩ := h.eq_cons
      obtain ⟨pos, hpos, hhit⟩ := hmatch info s h.1
      simp only [BaseHashIndex.findSlotToInsert, hget info List.mem_cons_self, Lib.ok_bind, hpos,
        SlotChain.insertUnless, ← hhit]
      cases pos with
      | some pos => rfl
      | none =>
          have hrest := ih h.2.2.2 (fun x hx ↦ hget x (List.mem_cons_of_mem _ hx))
            (Nat.lt_of_succ_lt_succ hturns)
          have hroom := h.1.numEntries_lt_iff
          simp only [h.2.1, gt_iff_lt, h.2.2.1, if_true, Lib.pure_eq_ok, Option.isSome_none,
            Bool.false_eq_true, if_false, slotToInsert, hroom, hrest]
          cases s.freePos with
          | some i => rfl
          | none =>
              simp only [ne_eq, not_true_eq_false, if_false]
              cases SlotChain.insertUnless hit e c <;> rfl

/-- With the comparison of a key, the loop stops at the first slot that has the key. -/
theorem findSlotToInsert_hasKey (h : ChainAt entryIs slots info ids c)
    (hkey : SlotIs.Decides entryIs keyEquals key)
    (hget : ∀ x ∈ chainSlots info ids, index.getSlot x = .ok (slots x))
    (hturns : ids.length < turns) :
    BaseHashIndex.findSlotToInsert keyEquals index turns info =
      .ok ((SlotChain.insertUnless (SlotChain.hasKey key) e c).map
        fun _ ↦ slotToInsert slots info ids) := by
  apply h.findSlotToInsert _ _ _ hget hturns
  intro x s hs
  exact ⟨_, hs.findMatchedEntryInSlot hkey, rfl⟩

/-- Without one it always finds a slot. -/
theorem findSlotToInsert_noKey (h : ChainAt entryIs slots info ids c)
    (hget : ∀ x ∈ chainSlots info ids, index.getSlot x = .ok (slots x))
    (hturns : ids.length < turns) :
    BaseHashIndex.findSlotToInsert (fun _ ↦ .ok false) index turns info =
      .ok (some (slotToInsert slots info ids)) := by
  have hnone : ∀ (slot : SlotData) (l : List (Fin slotCapacity)),
      BaseHashIndex.findMatchedEntryInSlot (fun _ ↦ .ok false) slot l = .ok none := by
    intro slot l
    induction l with
    | nil => rfl
    | cons i l ih =>
        rw [BaseHashIndex.findMatchedEntryInSlot, ih]
        split_ifs <;> rfl
  have hfind := h.findSlotToInsert (fun _ ↦ false) ([], 0)
    (fun x s _ ↦ ⟨none, hnone _ _, rfl⟩) hget hturns
  rw [SlotChain.insertUnless_of_forall fun _ _ ↦ rfl] at hfind
  exact hfind

/-- A key is found with its value, and if its place is cleared then the chain has lost the key. -/
theorem findMatchedEntry (h : ChainAt entryIs slots info ids c)
    (hkey : SlotIs.Decides entryIs keyEquals key)
    (hget : ∀ x ∈ chainSlots info ids, index.getSlot x = .ok (slots x))
    (hturns : ids.length < turns) (hnodup : (chainSlots info ids).Nodup) :
    (BaseHashIndex.findMatchedEntry keyEquals index turns info = .ok none ∧
      SlotChain.lookup key c = none ∧ SlotChain.delete key c = none) ∨
    ∃ x ∈ chainSlots info ids, ∃ i v c',
      BaseHashIndex.findMatchedEntry keyEquals index turns info = .ok (some (x, i)) ∧
      entryIs ((slots x).entries i) (key, v) ∧ SlotChain.lookup key c = some v ∧
      SlotChain.delete key c = some c' ∧
      ChainAt entryIs (Function.update slots x (BaseHashIndex.invalidateEntry (slots x) i))
        info ids c' := by
  induction ids generalizing info c turns with
  | nil =>
      obtain ⟨turns, rfl⟩ := Nat.exists_eq_add_one.mpr (Nat.zero_lt_of_lt hturns)
      obtain ⟨s, rfl⟩ := h.eq_singleton
      simp only [BaseHashIndex.findMatchedEntry, hget info List.mem_cons_self, Lib.ok_bind,
        h.1.findMatchedEntryInSlot hkey, SlotChain.lookup, SlotChain.delete]
      cases hpos : s.findPos key with
      | none =>
          rw [h.2, if_neg (Nat.lt_irrefl 0)]
          exact Or.inl ⟨rfl, rfl, rfl⟩
      | some i =>
          obtain ⟨v, hv⟩ := Slot.findPos_spec hpos
          refine Or.inr ⟨info, List.mem_cons_self, i, v, _, rfl, h.1.entry i _ hv, ?_, rfl, ?_⟩
          · simp only [hv, Option.map_some]
          · rw [ChainAt, Function.update_self]
            exact ⟨h.1.invalidateEntry hv, h.2⟩
  | cons id ids ih =>
      obtain ⟨turns, rfl⟩ := Nat.exists_eq_add_one.mpr (Nat.zero_lt_of_lt hturns)
      obtain ⟨s, c, rfl⟩ := h.eq_cons
      have htail := List.nodup_cons.mp hnodup
      simp only [BaseHashIndex.findMatchedEntry, hget info List.mem_cons_self, Lib.ok_bind,
        h.1.findMatchedEntryInSlot hkey, SlotChain.lookup, SlotChain.delete]
      cases hpos : s.findPos key with
      | none =>
          have hrest := ih h.2.2.2 (fun x hx ↦ hget x (List.mem_cons_of_mem _ hx))
            (Nat.lt_of_succ_lt_succ hturns) htail.2
          simp only [h.2.1, gt_iff_lt, h.2.2.1, if_true]
          rcases hrest with ⟨hfind, hlookup, hdelete⟩ |
            ⟨x, hx, i, v, c', hfind, hentry, hlookup, hdelete, hchain⟩
          · exact Or.inl ⟨hfind, hlookup, by rw [hdelete, Option.map_none]⟩
          · refine Or.inr ⟨x, List.mem_cons_of_mem _ hx, i, v, s :: c', hfind, hentry, hlookup,
              ?_, ?_⟩
            · rw [hdelete, Option.map_some]
            · have hne : info ≠ x := by
                rintro rfl
                exact htail.1 hx
              rw [ChainAt, Function.update_of_ne hne]
              exact ⟨h.1, h.2.1, h.2.2.1, hchain⟩
      | some i =>
          obtain ⟨v, hv⟩ := Slot.findPos_spec hpos
          refine Or.inr ⟨info, List.mem_cons_self, i, v, _, rfl, h.1.entry i _ hv, ?_, rfl, ?_⟩
          · simp only [hv, Option.map_some]
          · rw [ChainAt, Function.update_self]
            refine ⟨h.1.invalidateEntry hv, h.2.1, h.2.2.1, ?_⟩
            apply h.2.2.2.congr
            intro x hx
            apply Function.update_of_ne
            rintro rfl
            exact htail.1 hx

end ChainAt

end Graphflow
