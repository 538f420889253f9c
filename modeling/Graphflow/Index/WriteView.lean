import Graphflow.Index.BulkBuild
import Graphflow.Lib.Overlay

/-!
# The view of a write transaction

The local storage of an index has the keys that a transaction has inserted and the keys it has
marked as deleted.  Reading through it is reading a finite map, unless a key comes back that was
inserted after it had been deleted, or a key is marked twice.
-/

namespace Graphflow

open Storage Lib

variable {stdHash : List UInt8 → UInt64} {keyType : KeyType} {key : Key} {value v : ℕ}

namespace InMemHashIndex

variable {index index' : InMemHashIndex} {t : ChainTable} {m : Key → Option ℕ}

/-- The index is the map. -/
def IsMap (stdHash : List UInt8 → UInt64) (keyType : KeyType) (index : InMemHashIndex)
    (m : Key → Option ℕ) : Prop :=
  index.keyDataTypeID = keyType ∧ ∃ t, Holds stdHash index t ∧ content stdHash index t = m

/-- If the next append splits a slot, then that slot is one of the level, the mask of the next level
can be made, and the bytes of all keys in it hash to where the keys themselves belong. -/
structure AppendKeeps (stdHash : List UInt8 → UInt64) (index : InMemHashIndex) : Prop where
  canSplit : ¬ index.HasRoom → index.indexHeader.CanSplit
  rehashesTo : ¬ index.HasRoom → ∀ key, index.keyDataTypeID.Valid key →
    index.lookupInternal stdHash key ≠ .ok none →
      index.getPrimarySlotIdForKey stdHash key = index.indexHeader.nextSplitSlotId →
        index.RehashesTo stdHash key
  overflow : index.OverflowFits

theorem AppendKeeps.splitSafe (hsafe : index.AppendKeeps stdHash) (h : Holds stdHash index t)
    (hroom : ¬ index.HasRoom) :
    index.SplitSafe stdHash (SlotChain.keys (t.chain index.indexHeader.nextSplitSlotId)) := by
  refine ⟨hsafe.canSplit hroom, fun k hk hslot ↦ hsafe.rehashesTo hroom k ?_ ?_ hslot⟩
  · obtain ⟨v, hv⟩ := mem_keys.mp hk
    obtain ⟨entry, hentry⟩ := (h.represents.chainAt _).exists_entryIs hv
    exact hentry.valid
  · obtain ⟨v, hv⟩ := mem_keys.mp hk
    obtain ⟨entry, hentry⟩ := (h.represents.chainAt _).exists_entryIs hv
    have hcontent : content stdHash index t k ≠ none := by
      rw [ne_eq, content_eq_none_iff, not_not, hslot]
      exact hk
    rw [lookupInternal_eq h hentry.valid]
    exact fun heq ↦ hcontent (Except.ok.inj heq)

/-- In the chain of the key, the slots before one that has the key are full. -/
def FullBefore (stdHash : List UInt8 → UInt64) (index : InMemHashIndex) (key : Key) : Prop :=
  ∃ before x after, index.getPAndOSlots index.maxChainLength
      ⟨index.getPrimarySlotIdForKey stdHash key, true⟩ = .ok (before ++ x :: after) ∧
    (∃ i, (index.slot x).header.validityMask i = true ∧
      index.keyEquals key ((index.slot x).entries i).key = .ok true) ∧
    ∀ y ∈ before, (index.slot y).header.numEntries = slotCapacity

/-- The index after the split that the next append makes, if it makes one. -/
def FullBeforeInAppend (stdHash : List UInt8 → UInt64) (index : InMemHashIndex) (key : Key) :
    Prop :=
  ∀ base, index.toBaseHashIndex.splitSlots stdHash (numRequiredEntries (index.numEntries + 1))
    (numRequiredEntries (index.numEntries + 1)) = .ok base →
      FullBefore stdHash { index with toBaseHashIndex := base } key

theorem isMap_make (stdHash : List UInt8 → UInt64) (keyType : KeyType) :
    (make keyType).IsMap stdHash keyType fun _ ↦ none := by
  obtain ⟨-, hheader, -⟩ := make_spec keyType
  refine ⟨congrArg HashIndexHeader.keyDataTypeID hheader, _, holds_make stdHash keyType, ?_⟩
  funext key
  exact New.content _ key

namespace IsMap

theorem lookup (h : index.IsMap stdHash keyType m) (hkey : keyType.Valid key) :
    index.lookupInternal stdHash key = .ok (m key) := by
  obtain ⟨htype, t, hholds, hcontent⟩ := h
  rw [lookupInternal_eq hholds (htype.symm ▸ hkey), hcontent]

theorem delete_of_none (h : index.IsMap stdHash keyType m) (hkey : keyType.Valid key)
    (hnone : m key = none) : index.deleteInternal stdHash key = .ok (index, false) := by
  obtain ⟨htype, t, hholds, hcontent⟩ := h
  exact deleteInternal_of_none hholds (htype.symm ▸ hkey) (hcontent ▸ hnone)

theorem exists_delete (h : index.IsMap stdHash keyType m) (hkey : keyType.Valid key)
    (hsome : m key = some v) : ∃ index', index.deleteInternal stdHash key = .ok (index', true) ∧
      index'.IsMap stdHash keyType (Function.update m key none) := by
  obtain ⟨htype, t, hholds, hcontent⟩ := h
  obtain ⟨index', t', hdelete, hupdated, -⟩ :=
    exists_deleteInternal hholds (htype.symm ▸ hkey) (hcontent ▸ hsome)
  refine ⟨index', hdelete, ?_, t', hupdated.holds, ?_⟩
  · exact (congrArg HashIndexHeader.keyDataTypeID hupdated.indexHeader).trans htype
  · rw [hupdated.content, hcontent]

/-- Whether the key is there or not, the map does not have it afterwards. -/
theorem exists_delete_any (h : index.IsMap stdHash keyType m)
    (hkey : keyType.Valid key) :
    ∃ index', index.deleteInternal stdHash key = .ok (index', (m key).isSome) ∧
      index'.IsMap stdHash keyType (Function.update m key none) := by
  cases hm : m key with
  | none =>
      refine ⟨index, h.delete_of_none hkey hm, ?_⟩
      rw [← hm, Function.update_eq_self]
      exact h
  | some v => exact h.exists_delete hkey hm

theorem exists_append (h : index.IsMap stdHash keyType m) (hkey : keyType.Valid key)
    (hsafe : index.AppendKeeps stdHash) (hnone : m key = none) (value : ℕ) :
    ∃ index', index.appendInternal stdHash key value = .ok (index', true) ∧
      index'.IsMap stdHash keyType (Function.update m key (some value)) := by
  obtain ⟨htype, t, hholds, hcontent⟩ := h
  obtain ⟨index', t', happend, hholds', htype', hcontent'⟩ :=
    exists_appendInternal_split hholds (htype.symm ▸ hkey) (hsafe.splitSafe hholds) hsafe.overflow
      (hcontent ▸ hnone) value
  refine ⟨index', happend, htype'.trans htype, t', hholds', ?_⟩
  rw [hcontent', hcontent]

/-- A key that is there stays the only one if it is found before a place is free. -/
theorem exists_append_again (h : index.IsMap stdHash keyType m)
    (hkey : keyType.Valid key) (hsafe : index.AppendKeeps stdHash)
    (hfull : index.FullBeforeInAppend stdHash key) (value : ℕ) :
    ∃ index', index.appendInternal stdHash key value = .ok (index', false) ∧
      index'.IsMap stdHash keyType m := by
  obtain ⟨htype, t, hholds, hcontent⟩ := h
  obtain ⟨base, t', hsplit, hholds', hroom, hcontent', htype'⟩ :=
    exists_splitSlots hholds (hsafe.splitSafe hholds)
  have hkey' : (keyDataTypeID { index with toBaseHashIndex := base }).Valid key := by
    rw [keyDataTypeID, htype', htype]
    exact hkey
  obtain ⟨before, x, after, hslots, ⟨i, hvalid, hequal⟩, hbefore⟩ := hfull base hsplit
  have hchain := (hholds'.represents.chainAt
    (getPrimarySlotIdForKey stdHash { index with toBaseHashIndex := base } key)).getPAndOSlots
    (hholds'.represents.getSlot (hholds'.hasSlot key)) (hholds'.represents.length_ovf_lt _)
  have hforall := (hholds'.represents.chainAt
    (getPrimarySlotIdForKey stdHash { index with toBaseHashIndex := base } key)).forall₂
  have hhit := SlotIs.insertUnless_eq_none (e := (key, value)) (decides_keyEquals _ hkey')
    (Except.ok.inj (hchain.symm.trans hslots) ▸ hforall) hvalid hequal hbefore
  refine ⟨{ index with toBaseHashIndex := base }, ?_, htype'.trans htype, t', hholds', ?_⟩
  · rw [appendInternal_eq_of_splitSlots hsplit hroom]
    exact appendInternal_of_hit hholds' hkey' hroom hhit
  · rw [hcontent', hcontent]

end IsMap

end InMemHashIndex

/-! ## The local storage -/

/-- The two indexes of the local storage are the keys inserted and those marked as deleted. -/
structure LocalStorageIs (stdHash : List UInt8 → UInt64) (keyType : KeyType)
    (s : HashIndexLocalStorage) (inserted deleted : Key → Option ℕ) : Prop where
  insertion : s.localInsertionIndex.IsMap stdHash keyType inserted
  deletion : s.localDeletionIndex.IsMap stdHash keyType deleted
  disjoint : ∀ k, inserted k ≠ none → deleted k = none

namespace LocalStorageIs

variable {s : HashIndexLocalStorage} {inserted deleted : Key → Option ℕ}

theorem make (stdHash : List UInt8 → UInt64) (keyType : KeyType) :
    LocalStorageIs stdHash keyType (HashIndexLocalStorage.make keyType)
      (fun _ ↦ none) fun _ ↦ none :=
  ⟨InMemHashIndex.isMap_make stdHash keyType, InMemHashIndex.isMap_make stdHash keyType,
    fun _ _ ↦ rfl⟩

theorem lookup (h : LocalStorageIs stdHash keyType s inserted deleted)
    (hkey : keyType.Valid key) : s.lookup stdHash key =
      .ok (if deleted key ≠ none then .keyDeleted
        else match inserted key with
          | some result => .keyFound result
          | none => .keyNotExist) := by
  simp only [HashIndexLocalStorage.lookup, h.deletion.lookup hkey, h.insertion.lookup hkey,
    Lib.ok_bind]
  cases deleted key with
  | some v => rfl
  | none => cases inserted key <;> rfl

theorem exists_insert (h : LocalStorageIs stdHash keyType s inserted deleted)
    (hkey : keyType.Valid key) (hsafe : s.localInsertionIndex.AppendKeeps stdHash)
    (hnone : inserted key = none) (value : ℕ) :
    ∃ s', s.insert stdHash key value = .ok (s', true) ∧
      LocalStorageIs stdHash keyType s' (Function.update inserted key (some value))
        (Function.update deleted key none) := by
  obtain ⟨deletion, hdelete, hdeletion⟩ := h.deletion.exists_delete_any hkey
  obtain ⟨insertion, happend, hinsertion⟩ := h.insertion.exists_append hkey hsafe hnone value
  refine ⟨⟨insertion, deletion⟩, ?_, hinsertion, hdeletion, ?_⟩
  · simp only [HashIndexLocalStorage.insert, hdelete, happend, Lib.ok_bind, Lib.pure_eq_ok]
  · intro k hk
    by_cases heq : k = key
    · rw [heq, Function.update_self]
    · rw [Function.update_of_ne heq] at hk ⊢
      exact h.disjoint k hk

/-- A key that was inserted is removed again; it is not marked. -/
theorem exists_deleteKey_inserted (h : LocalStorageIs stdHash keyType s inserted deleted)
    (hkey : keyType.Valid key) (hsome : inserted key = some v) :
    ∃ s', s.deleteKey stdHash key = .ok s' ∧
      LocalStorageIs stdHash keyType s' (Function.update inserted key none) deleted := by
  obtain ⟨insertion, hdelete, hinsertion⟩ := h.insertion.exists_delete hkey hsome
  refine ⟨⟨insertion, s.localDeletionIndex⟩, ?_, hinsertion, h.deletion, ?_⟩
  · simp only [HashIndexLocalStorage.deleteKey, hdelete, Lib.ok_bind, if_true, Lib.pure_eq_ok]
  · intro k hk
    by_cases heq : k = key
    · rw [heq, Function.update_self] at hk
      exact absurd rfl hk
    · rw [Function.update_of_ne heq] at hk
      exact h.disjoint k hk

/-- A key that was not inserted is marked, once. -/
theorem exists_deleteKey_mark (h : LocalStorageIs stdHash keyType s inserted deleted)
    (hkey : keyType.Valid key) (hnone : inserted key = none)
    (hsafe : s.localDeletionIndex.AppendKeeps stdHash)
    (hagain : deleted key ≠ none → s.localDeletionIndex.FullBeforeInAppend stdHash key) :
    ∃ s' w, s.deleteKey stdHash key = .ok s' ∧
      LocalStorageIs stdHash keyType s' inserted (Function.update deleted key (some w)) := by
  have hinsertion := h.insertion.delete_of_none hkey hnone
  have hdisjoint : ∀ w k, inserted k ≠ none → Function.update deleted key (some w) k = none := by
    intro w k hk
    have hne : k ≠ key := by
      rintro rfl
      exact hk hnone
    rw [Function.update_of_ne hne]
    exact h.disjoint k hk
  cases hdeleted : deleted key with
  | none =>
      obtain ⟨deletion, happend, hdeletion⟩ :=
        h.deletion.exists_append hkey hsafe hdeleted HashIndexLocalStorage.nodeOffsetPlaceHolder
      refine ⟨⟨s.localInsertionIndex, deletion⟩, _, ?_, h.insertion, hdeletion, hdisjoint _⟩
      simp only [HashIndexLocalStorage.deleteKey, hinsertion, happend, Lib.ok_bind,
        Bool.false_eq_true, if_false, Lib.pure_eq_ok]
  | some w =>
      have hfull := hagain (hdeleted ▸ Option.some_ne_none w)
      obtain ⟨deletion, happend, hdeletion⟩ :=
        h.deletion.exists_append_again hkey hsafe hfull HashIndexLocalStorage.nodeOffsetPlaceHolder
      refine ⟨⟨s.localInsertionIndex, deletion⟩, w, ?_, h.insertion, ?_, hdisjoint w⟩
      · simp only [HashIndexLocalStorage.deleteKey, hinsertion, happend, Lib.ok_bind,
          Bool.false_eq_true, if_false, Lib.pure_eq_ok]
      · rw [← hdeleted, Function.update_eq_self]
        exact hdeletion

end LocalStorageIs

/-! ## Calls of a transaction -/

inductive IndexCall
  | insert (key : Key) (value : ℕ)
  | deleteKey (key : Key)
  | lookup (key : Key)

inductive IndexAnswer
  | inserted (result : Bool)
  | deleted
  | found (result : Option ℕ)
  deriving DecidableEq

def IndexCall.keyOf : IndexCall → Key
  | insert key _ => key
  | deleteKey key => key
  | lookup key => key

/-- Finite maps, which is what an index is to be for a transaction. -/
abbrev KeyMap := Key → Option ℕ

namespace KeyMap

def answer (m : KeyMap) : IndexCall → IndexAnswer
  | .insert key _ => .inserted (m key).isNone
  | .deleteKey _ => .deleted
  | .lookup key => .found (m key)

def perform (m : KeyMap) : IndexCall → KeyMap
  | .insert key value => if m key = none then Function.update m key (some value) else m
  | .deleteKey key => Function.update m key none
  | .lookup _ => m

def after (m : KeyMap) (calls : List IndexCall) : KeyMap := calls.foldl perform m

def answers (m : KeyMap) : List IndexCall → List IndexAnswer
  | [] => []
  | call :: calls => m.answer call :: (m.perform call).answers calls

theorem after_concat (m : KeyMap) (calls : List IndexCall) (call : IndexCall) :
    m.after (calls ++ [call]) = (m.after calls).perform call := by
  rw [after, List.foldl_append]
  rfl

theorem answers_concat (m : KeyMap) (calls : List IndexCall) (call : IndexCall) :
    m.answers (calls ++ [call]) = m.answers calls ++ [(m.after calls).answer call] := by
  induction calls generalizing m with
  | nil => rfl
  | cons c calls ih =>
      rw [List.cons_append, answers, answers, ih]
      rfl

end KeyMap

/-- The call of a write transaction. -/
def HashIndex.perform (stdHash : List UInt8 → UInt64) (index : HashIndex) :
    IndexCall → Except Fault (HashIndex × IndexAnswer)
  | .insert key value => do
      let (index, inserted) ← index.insertInternal stdHash key value
      return (index, .inserted inserted)
  | .deleteKey key => do
      let index ← index.deleteInternal stdHash key
      return (index, .deleted)
  | .lookup key => do
      let result ← index.lookupInternal stdHash false key
      return (index, .found result)

/-- What is in the file is the map, and nothing has been changed yet. -/
structure HashIndex.Persists (stdHash : List UInt8 → UInt64) (keyType : KeyType)
    (index : HashIndex) (persistent : KeyMap) : Prop where
  localStorage : index.localStorage = HashIndexLocalStorage.make keyType
  lookup : ∀ key, keyType.Valid key →
    index.lookupInPersistentIndex stdHash key = .ok (persistent key)

/-- An index with the calls of a transaction and what they have answered. -/
structure WriteView where
  index : HashIndex
  calls : List IndexCall := []
  answers : List IndexAnswer := []

namespace WriteView

variable {s s' : WriteView} {persistent : KeyMap} {call : IndexCall} {calls : List IndexCall}

def step (stdHash : List UInt8 → UInt64) (s : WriteView) (call : IndexCall) : Option WriteView :=
  match s.index.perform stdHash call with
  | .ok (index, answer) => some ⟨index, s.calls ++ [call], s.answers ++ [answer]⟩
  | .error _ => none

/-- All calls have answered what the map answers; the transaction finds the map, and a READ_ONLY
transaction what is in the file. -/
structure AgreesWithMap (stdHash : List UInt8 → UInt64) (keyType : KeyType) (persistent : KeyMap)
    (s : WriteView) : Prop where
  answers : s.answers = persistent.answers s.calls
  lookup : ∀ key, keyType.Valid key →
    s.index.lookupInternal stdHash false key = .ok (persistent.after s.calls key)
  readOnly : ∀ key, keyType.Valid key →
    s.index.lookupInternal stdHash true key = .ok (persistent key)

/-- A key that has been inserted and is in the file is not deleted, and a key that is marked as
deleted is not deleted unless the slots before its own are full.  Splits keep the keys. -/
def Safe (stdHash : List UInt8 → UInt64) (persistent : KeyMap) (s : WriteView) : IndexCall → Prop
  | .insert key _ =>
      persistent.after s.calls key = none →
        s.index.localStorage.localInsertionIndex.AppendKeeps stdHash
  | .deleteKey key =>
      if s.index.localStorage.localInsertionIndex.lookupInternal stdHash key = .ok none then
        s.index.localStorage.localDeletionIndex.AppendKeeps stdHash ∧
          (s.index.localStorage.localDeletionIndex.lookupInternal stdHash key ≠ .ok none →
            s.index.localStorage.localDeletionIndex.FullBeforeInAppend stdHash key)
      else persistent key = none
  | .lookup _ => True

structure Inv (stdHash : List UInt8 → UInt64) (keyType : KeyType) (persistent : KeyMap)
    (s : WriteView) : Prop where
  answers : s.answers = persistent.answers s.calls
  lookup : ∀ key, keyType.Valid key →
    s.index.lookupInPersistentIndex stdHash key = .ok (persistent key)
  localStorage : ∃ inserted deleted,
    LocalStorageIs stdHash keyType s.index.localStorage inserted deleted ∧
      persistent.after s.calls = overlay inserted deleted persistent

theorem inv_start {index : HashIndex} (h : index.Persists stdHash keyType persistent) :
    Inv stdHash keyType persistent ⟨index, [], []⟩ := by
  refine ⟨rfl, h.lookup, _, _, ?_, overlay_none.symm⟩
  rw [h.localStorage]
  exact LocalStorageIs.make stdHash keyType

theorem Inv.lookupInternal (h : s.Inv stdHash keyType persistent) (hkey : keyType.Valid key) :
    s.index.lookupInternal stdHash false key = .ok (persistent.after s.calls key) := by
  obtain ⟨inserted, deleted, hlocal, hview⟩ := h.localStorage
  simp only [HashIndex.lookupInternal, Bool.false_eq_true, if_false, hlocal.lookup hkey,
    Lib.ok_bind, hview]
  by_cases hdeleted : deleted key = none
  · rw [overlay_of_not_deleted hdeleted, if_neg (not_not.mpr hdeleted)]
    cases inserted key with
    | none => exact (h.lookup key hkey).trans (by rw [Option.none_or])
    | some v => rfl
  · rw [overlay_of_deleted hdeleted, if_pos hdeleted]
    rfl

theorem Inv.agreesWithMap (h : s.Inv stdHash keyType persistent) :
    s.AgreesWithMap stdHash keyType persistent :=
  ⟨h.answers, fun _ hkey ↦ h.lookupInternal hkey, h.lookup⟩

/-- A call that answers what the map answers, and leaves the local storage as the map has it. -/
theorem Inv.of_perform (h : s.Inv stdHash keyType persistent) {index' : HashIndex}
    {answer : IndexAnswer} (hperform : s.index.perform stdHash call = .ok (index', answer))
    (hanswer : answer = (persistent.after s.calls).answer call)
    (hpersistent : ∀ key, index'.lookupInPersistentIndex stdHash key =
      s.index.lookupInPersistentIndex stdHash key)
    (hlocal : ∃ inserted deleted,
      LocalStorageIs stdHash keyType index'.localStorage inserted deleted ∧
        (persistent.after s.calls).perform call = overlay inserted deleted persistent) :
    ∃ s', step stdHash s call = some s' ∧ s'.Inv stdHash keyType persistent := by
  refine ⟨⟨index', s.calls ++ [call], s.answers ++ [answer]⟩, ?_, ⟨?_, ?_, ?_⟩⟩
  · simp only [step, hperform]
  · rw [KeyMap.answers_concat, ← h.answers, hanswer]
  · intro key hkey
    rw [hpersistent, h.lookup key hkey]
  · rw [KeyMap.after_concat]
    exact hlocal

theorem Inv.step_insert (h : s.Inv stdHash keyType persistent) (hkey : keyType.Valid key)
    (hsafe : s.Safe stdHash persistent (.insert key value)) :
    ∃ s', step stdHash s (.insert key value) = some s' ∧
      s'.Inv stdHash keyType persistent := by
  obtain ⟨inserted, deleted, hlocal, hview⟩ := h.localStorage
  have hlookup := hlocal.lookup hkey
  have hpersistent := h.lookup key hkey
  by_cases hfound : persistent.after s.calls key = none
  · have hinserted : inserted key = none := by
      by_contra hinserted
      rw [hview, overlay_of_not_deleted (hlocal.disjoint key hinserted), Option.or_eq_none_iff]
        at hfound
      exact hinserted hfound.1
    obtain ⟨localStorage, hinsert, hlocal'⟩ :=
      hlocal.exists_insert hkey (hsafe hfound) hinserted value
    have hperform : s.index.perform stdHash (.insert key value) =
        .ok (⟨s.index.toBaseHashIndex, s.index.overflowPages, localStorage⟩, .inserted true) := by
      simp only [HashIndex.perform, HashIndex.insertInternal, hlookup, Lib.ok_bind]
      by_cases hdeleted : deleted key = none
      · rw [hview, overlay_of_not_deleted hdeleted, Option.or_eq_none_iff] at hfound
        simp only [hdeleted, ne_eq, not_true_eq_false, if_false, hinserted, hpersistent, hfound.2,
          HashIndex.insertToLocalStorage, hinsert, Lib.ok_bind, Lib.pure_eq_ok]
      · simp only [ne_eq, hdeleted, not_false_eq_true, if_true, HashIndex.insertToLocalStorage,
          hinsert, Lib.ok_bind, Lib.pure_eq_ok]
    apply h.of_perform hperform _ fun _ ↦ rfl
    · refine ⟨_, _, hlocal', ?_⟩
      rw [KeyMap.perform, if_pos hfound, hview]
      exact overlay_insert.symm
    · rw [KeyMap.answer, hfound]
      rfl
  · have hdeleted : deleted key = none := by
      by_contra hdeleted
      rw [hview, overlay_of_deleted hdeleted] at hfound
      exact hfound rfl
    have hperform : s.index.perform stdHash (.insert key value) =
        .ok (s.index, .inserted false) := by
      simp only [HashIndex.perform, HashIndex.insertInternal, hlookup, Lib.ok_bind, hdeleted, ne_eq,
        not_true_eq_false, if_false]
      cases hinserted : inserted key with
      | some v => rfl
      | none =>
          rw [hview, overlay_of_not_deleted hdeleted, hinserted, Option.none_or] at hfound
          obtain ⟨v, hv⟩ := Option.ne_none_iff_exists'.mp hfound
          simp only [hpersistent, hv, Lib.ok_bind, Lib.pure_eq_ok]
    apply h.of_perform hperform _ fun _ ↦ rfl
    · refine ⟨_, _, hlocal, ?_⟩
      rw [KeyMap.perform, if_neg hfound, hview]
    · rw [KeyMap.answer, Option.isNone_eq_false_iff.mpr (Option.isSome_iff_ne_none.mpr hfound)]

theorem Inv.step_deleteKey (h : s.Inv stdHash keyType persistent) (hkey : keyType.Valid key)
    (hsafe : s.Safe stdHash persistent (.deleteKey key)) :
    ∃ s', step stdHash s (.deleteKey key) = some s' ∧
      s'.Inv stdHash keyType persistent := by
  obtain ⟨inserted, deleted, hlocal, hview⟩ := h.localStorage
  rw [Safe, hlocal.insertion.lookup hkey, hlocal.deletion.lookup hkey] at hsafe
  have hperform {localStorage : HashIndexLocalStorage}
      (hdelete : s.index.localStorage.deleteKey stdHash key = .ok localStorage) :
      s.index.perform stdHash (.deleteKey key) =
        .ok (⟨s.index.toBaseHashIndex, s.index.overflowPages, localStorage⟩, .deleted) := by
    simp only [HashIndex.perform, HashIndex.deleteInternal, hdelete, Lib.ok_bind, Lib.pure_eq_ok]
  cases hinserted : inserted key with
  | none =>
      rw [hinserted, if_pos rfl] at hsafe
      obtain ⟨localStorage, w, hdelete, hlocal'⟩ := hlocal.exists_deleteKey_mark hkey hinserted
        hsafe.1 fun hdeleted ↦ hsafe.2 fun heq ↦ hdeleted (Except.ok.inj heq)
      apply h.of_perform (hperform hdelete) rfl fun _ ↦ rfl
      refine ⟨_, _, hlocal', ?_⟩
      rw [KeyMap.perform, hview]
      exact overlay_mark.symm
  | some v =>
      rw [hinserted, if_neg fun heq ↦ absurd (Except.ok.inj heq) (Option.some_ne_none v)] at hsafe
      obtain ⟨localStorage, hdelete, hlocal'⟩ := hlocal.exists_deleteKey_inserted hkey hinserted
      apply h.of_perform (hperform hdelete) rfl fun _ ↦ rfl
      refine ⟨_, _, hlocal', ?_⟩
      rw [KeyMap.perform, hview]
      exact (overlay_remove hsafe).symm

theorem Inv.step_lookup (h : s.Inv stdHash keyType persistent) (hkey : keyType.Valid key) :
    ∃ s', step stdHash s (.lookup key) = some s' ∧
      s'.Inv stdHash keyType persistent := by
  have hperform : s.index.perform stdHash (.lookup key) =
      .ok (s.index, .found (persistent.after s.calls key)) := by
    simp only [HashIndex.perform, h.lookupInternal hkey, Lib.ok_bind, Lib.pure_eq_ok]
  exact h.of_perform hperform rfl (fun _ ↦ rfl) h.localStorage

theorem Inv.step (h : s.Inv stdHash keyType persistent) (hkey : keyType.Valid call.keyOf)
    (hsafe : s.Safe stdHash persistent call) :
    ∃ s', step stdHash s call = some s' ∧ s'.Inv stdHash keyType persistent := by
  cases call with
  | insert key value => exact h.step_insert hkey hsafe
  | deleteKey key => exact h.step_deleteKey hkey hsafe
  | lookup key => exact h.step_lookup hkey

theorem calls_of_run (hrun : run (WriteView.step stdHash) s calls = some s') :
    s'.calls = s.calls ++ calls := by
  induction calls generalizing s with
  | nil =>
      obtain rfl : s = s' := Option.some.inj hrun
      exact (List.append_nil _).symm
  | cons call calls ih =>
      obtain ⟨s₁, hstep, hrun⟩ := run_cons_eq_some_iff.mp hrun
      have hcalls : s₁.calls = s.calls ++ [call] := by
        rw [WriteView.step] at hstep
        split at hstep
        · exact (Option.some.inj hstep) ▸ rfl
        · exact absurd hstep (Option.some_ne_none s₁).symm
      rw [ih hrun, hcalls, List.append_assoc]
      rfl

theorem exists_run_inv (h : s.Inv stdHash keyType persistent)
    (hvalid : ∀ call ∈ calls, keyType.Valid call.keyOf)
    (hsafe : MeetsAlong (WriteView.step stdHash) (Safe stdHash persistent) s calls) :
    ∃ s', run (WriteView.step stdHash) s calls = some s' ∧ s'.Inv stdHash keyType persistent := by
  induction calls generalizing s with
  | nil => exact ⟨s, rfl, h⟩
  | cons call calls ih =>
      obtain ⟨s₁, hstep, hs₁⟩ := h.step (hvalid call List.mem_cons_self) hsafe.1
      obtain ⟨s', hrun, hs'⟩ := ih hs₁
        (fun c hc ↦ hvalid c (List.mem_cons_of_mem _ hc)) (hsafe.2 s₁ hstep)
      exact ⟨s', run_cons_eq_some_iff.mpr ⟨s₁, hstep, hrun⟩, hs'⟩

/-- A transaction reads and changes a finite map, as long as all its calls are safe. -/
theorem exists_run_agreesWithMap (stdHash : List UInt8 → UInt64) (keyType : KeyType)
    (index : HashIndex) (persistent : KeyMap) (calls : List IndexCall)
    (hpersistent : index.Persists stdHash keyType persistent)
    (hvalid : ∀ call ∈ calls, keyType.Valid call.keyOf)
    (hsafe : MeetsAlong (WriteView.step stdHash) (Safe stdHash persistent) ⟨index, [], []⟩ calls) :
    ∃ s, run (WriteView.step stdHash) ⟨index, [], []⟩ calls = some s ∧ s.calls = calls ∧
      s.AgreesWithMap stdHash keyType persistent := by
  obtain ⟨s, hrun, hs⟩ := exists_run_inv (inv_start hpersistent) hvalid hsafe
  exact ⟨s, hrun, calls_of_run hrun, hs.agreesWithMap⟩

/-- The number 1 as a key. -/
def numberOne : Key := [1, 0, 0, 0, 0, 0, 0, 0]

theorem persists_reopened {numEntries : UInt32} {built : Appends}
    (hs : built.Bulk stdHash keyType numEntries) :
    (built.index.reopened keyType).Persists stdHash keyType fun key ↦
      built.appended.lookup key := by
  obtain ⟨t, hholds, hcontent, -⟩ := hs.holds
  refine ⟨rfl, fun key hkey ↦ ?_⟩
  rw [(InMemHashIndex.openedFrom_reopened hholds.represents.wellFormed
    keyType).lookupInPersistentIndex hholds (hs.keyDataTypeID_eq.symm ▸ hkey), hcontent]

/-- An index without keys. -/
def noKeys : HashIndex := (Appends.start .int64 (some 0)).index.reopened .int64

theorem exists_run_agreesWithMap_noKeys :
    ∃ s, run (WriteView.step fun _ ↦ 0) ⟨noKeys, [], []⟩
        [.insert numberOne 7, .deleteKey numberOne] = some s ∧
      s.calls = [.insert numberOne 7, .deleteKey numberOne] ∧
      s.AgreesWithMap (fun _ ↦ 0) .int64 fun _ ↦ none := by
  apply exists_run_agreesWithMap (fun _ ↦ 0) .int64 noKeys (fun _ ↦ none) _
    (persists_reopened (Appends.bulk_start (fun _ ↦ 0) .int64 0)) (by decide)
  refine ⟨fun _ ↦ ⟨?_, ?_, ?_⟩, fun s hs ↦ ⟨?_, fun _ _ ↦ trivial⟩⟩
  · exact fun hroom ↦ absurd (Nat.le_of_ble_eq_true rfl) hroom
  · exact fun hroom ↦ absurd (Nat.le_of_ble_eq_true rfl) hroom
  · exact fun htype ↦ absurd htype (by decide)
  · have hfound : (WriteView.step (fun _ ↦ 0) ⟨noKeys, [], []⟩ (.insert numberOne 7)).map (fun s ↦
        (s.index.localStorage.localInsertionIndex.lookupInternal (fun _ ↦ 0) numberOne).toOption) =
          some (some (some 7)) := by decide +kernel
    rw [hs, Option.map_some, Option.some.injEq] at hfound
    rw [Safe, if_neg]
    intro hnone
    rw [hnone] at hfound
    exact absurd hfound (by decide)

/-- A key of the file that is deleted, inserted and deleted again is found. -/
theorem deleteKey_twice_found : ∃ index : HashIndex, ∃ persistent : KeyMap,
    index.Persists (fun _ ↦ 0) .int64 persistent ∧
    ∃ s, run (WriteView.step fun _ ↦ 0) ⟨index, [], []⟩
        [.deleteKey numberOne, .insert numberOne 7, .deleteKey numberOne] = some s ∧
      ¬ s.AgreesWithMap (fun _ ↦ 0) .int64 persistent := by
  have hlength : [(numberOne, 0)].length ≤ (1 : UInt32).toNat := by decide
  have hvalid : ∀ call ∈ [(numberOne, 0)], KeyType.int64.Valid call.1 := by decide
  obtain ⟨built, hbuilt, -, hs⟩ := Appends.exists_run_bulk hlength hvalid
  have hfound : ((run (Appends.step fun _ ↦ 0) (Appends.start .int64 (some 1))
      [(numberOne, 0)]).bind fun built ↦
      (run (WriteView.step fun _ ↦ 0) ⟨built.index.reopened .int64, [], []⟩
        [.deleteKey numberOne, .insert numberOne 7, .deleteKey numberOne]).bind fun s ↦
      (s.index.lookupInternal (fun _ ↦ 0) false numberOne).toOption) = some (some 0) := by
    decide +kernel
  rw [hbuilt, Option.bind_some] at hfound
  obtain ⟨s, hrun, hlookup⟩ := Option.bind_eq_some_iff.mp hfound
  refine ⟨_, _, persists_reopened hs, s, hrun, fun hagrees ↦ ?_⟩
  rw [hagrees.lookup numberOne (by decide), calls_of_run hrun, List.nil_append] at hlookup
  have hnone : KeyMap.after (fun key ↦ built.appended.lookup key)
      [.deleteKey numberOne, .insert numberOne 7, .deleteKey numberOne] numberOne = none := by
    simp only [KeyMap.after, List.foldl_cons, List.foldl_nil, KeyMap.perform, Function.update_self]
  rw [hnone] at hlookup
  exact absurd hlookup (by decide)

end WriteView

end Graphflow
