import Graphflow.Index.Flush
import Graphflow.Index.LinearHashing

/-!
# Indexes that are built in bulk

As long as there are no more appends than slots have been reserved for, no slot is split, every slot
of a chain but the last one is full, and a key that has been appended is found before a place is
free.
-/

namespace Graphflow

open Storage Lib

namespace Appends

variable {stdHash : List UInt8 → UInt64} {keyDataTypeID : KeyType} {numEntries : UInt32}
  {s s' : Appends} {call : Key × ℕ} {calls done : List (Key × ℕ)}

/-- The index is the map of the first offsets, in the slots that have been reserved. -/
structure Bulk (stdHash : List UInt8 → UInt64) (keyDataTypeID : KeyType) (numEntries : UInt32)
    (s : Appends) : Prop where
  keyDataTypeID_eq : s.index.keyDataTypeID = keyDataTypeID
  numAllocated : s.index.numAllocatedPSlots = numRequiredSlots numEntries.toNat
  numEntries_le : s.index.numEntries ≤ s.appended.length
  numPages_le : s.index.inMemOverflowFile.numPages ≤ s.appended.length + 1
  holds : ∃ t, InMemHashIndex.Holds stdHash s.index t ∧
    (∀ key, InMemHashIndex.content stdHash s.index t key = s.appended.lookup key) ∧
    ∀ i, SlotChain.Compact (t.chain i)

theorem bulk_start (stdHash : List UInt8 → UInt64) (keyDataTypeID : KeyType)
    (numEntries : UInt32) :
    Bulk stdHash keyDataTypeID numEntries (start keyDataTypeID (some numEntries)) := by
  obtain ⟨hnew, -, htype, hnum, -⟩ := InMemHashIndex.bulkReserve_spec keyDataTypeID numEntries
  refine ⟨htype, hnum, hnew.numEntries.le, ?_, _,
    InMemHashIndex.holds_bulkReserve stdHash keyDataTypeID numEntries, fun key ↦ ?_, fun _ ↦ ?_⟩
  · exact (congrArg InMemOverflowFile.numPages hnew.overflow).le
  · exact InMemHashIndex.New.content _ key
  · exact ⟨Or.inl rfl, trivial⟩

theorem Bulk.hasRoom (hs : s.Bulk stdHash keyDataTypeID numEntries)
    (hlt : s.appended.length < numEntries.toNat) : s.index.HasRoom := by
  have hle := hs.numEntries_le
  rw [InMemHashIndex.HasRoom, hs.numAllocated]
  simp only [numRequiredSlots, numRequiredEntries, slotCapacity]
  omega

theorem Bulk.overflowFits (hs : s.Bulk stdHash keyDataTypeID numEntries)
    (hlt : s.appended.length < numEntries.toNat) : s.index.OverflowFits := by
  intro _
  have hle := hs.numPages_le
  have hbound := numEntries.toNat_lt
  omega

/-- A key that has been appended before is not appended again. -/
theorem Bulk.append_of_mem (hs : s.Bulk stdHash keyDataTypeID numEntries)
    (hvalid : keyDataTypeID.Valid call.1) (hlt : s.appended.length < numEntries.toNat)
    (hmem : call.1 ∈ s.appended.map Prod.fst) :
    s.index.appendInternal stdHash call.1 call.2 = .ok (s.index, false) ∧
      Bulk stdHash keyDataTypeID numEntries ⟨s.index, s.appended ++ [call]⟩ := by
  obtain ⟨t, hholds, hcontent, hcompact⟩ := hs.holds
  have hlength : (s.appended ++ [call]).length = s.appended.length + 1 := List.length_append
  have hkey : call.1 ∈ SlotChain.keys
      (t.chain (s.index.getPrimarySlotIdForKey stdHash call.1)) := by
    by_contra hnotMem
    have hnone := InMemHashIndex.content_eq_none_iff.mpr hnotMem
    rw [hcontent, lookup_eq_none_iff] at hnone
    exact hnone hmem
  have hhit := SlotChain.insertUnless_of_mem (e := call) (hcompact _) hkey
  refine ⟨InMemHashIndex.appendInternal_of_hit hholds (hs.keyDataTypeID_eq.symm ▸ hvalid)
    (hs.hasRoom hlt) hhit, hs.keyDataTypeID_eq, hs.numAllocated, ?_, ?_, t, hholds, ?_, hcompact⟩
  · rw [hlength]
    exact Nat.le_succ_of_le hs.numEntries_le
  · rw [hlength]
    exact Nat.le_succ_of_le hs.numPages_le
  · intro key
    rw [hcontent, List.lookup_append]
    by_cases hfound : s.appended.lookup key = none
    · have hne : (key == call.1) = false := by
        apply beq_eq_false_iff_ne.mpr
        rintro rfl
        exact lookup_eq_none_iff.mp hfound hmem
      rw [hfound, Option.none_or]
      simp only [lookup_call, hne]
      rfl
    · rw [Option.or_of_isSome (Option.isSome_iff_ne_none.mpr hfound)]

theorem Bulk.append_of_notMem (hs : s.Bulk stdHash keyDataTypeID numEntries)
    (hvalid : keyDataTypeID.Valid call.1) (hlt : s.appended.length < numEntries.toNat)
    (hnotMem : call.1 ∉ s.appended.map Prod.fst) :
    ∃ index', s.index.appendInternal stdHash call.1 call.2 = .ok (index', true) ∧
      Bulk stdHash keyDataTypeID numEntries ⟨index', s.appended ++ [call]⟩ := by
  obtain ⟨t, hholds, hcontent, hcompact⟩ := hs.holds
  have hlength : (s.appended ++ [call]).length = s.appended.length + 1 := List.length_append
  have hnone : InMemHashIndex.content stdHash s.index t call.1 = none := by
    rw [hcontent, lookup_eq_none_iff]
    exact hnotMem
  obtain ⟨index', t', happend, hupdated, hnum, hchain⟩ :=
    InMemHashIndex.exists_appendInternal hholds (hs.keyDataTypeID_eq.symm ▸ hvalid)
      (hs.hasRoom hlt) (hs.overflowFits hlt) hnone call.2
  refine ⟨index', happend, ?_, hupdated.numAllocated.trans hs.numAllocated, ?_, ?_, t',
    hupdated.holds, ?_, ?_⟩
  · exact (congrArg HashIndexHeader.keyDataTypeID hupdated.indexHeader).trans hs.keyDataTypeID_eq
  · rw [hlength, hnum]
    exact Nat.succ_le_succ hs.numEntries_le
  · rw [hlength]
    exact hupdated.overflow_le.trans (Nat.succ_le_succ hs.numPages_le)
  · intro key
    rw [hupdated.content, funext hcontent]
    exact (congrFun (lookup_concat hnotMem) key).symm
  · intro i
    rw [hchain]
    by_cases hi : i = s.index.getPrimarySlotIdForKey stdHash call.1
    · rw [hi, Function.update_self]
      exact (hcompact _).copy _
    · rw [Function.update_of_ne hi]
      exact hcompact i

/-- What an append answers, and that nothing changes if the answer is no. -/
def Answers (stdHash : List UInt8 → UInt64) (s : Appends) (call : Key × ℕ) : Prop :=
  ∃ index' inserted, s.index.appendInternal stdHash call.1 call.2 = .ok (index', inserted) ∧
    (inserted = false ↔ call.1 ∈ s.appended.map Prod.fst) ∧
    (inserted = false → index' = s.index)

theorem Bulk.step (hs : s.Bulk stdHash keyDataTypeID numEntries)
    (hvalid : keyDataTypeID.Valid call.1) (hlt : s.appended.length < numEntries.toNat) :
    s.Answers stdHash call ∧ ∃ s', step stdHash s call = some s' ∧
      s'.appended = s.appended ++ [call] ∧ s'.Bulk stdHash keyDataTypeID numEntries := by
  by_cases hmem : call.1 ∈ s.appended.map Prod.fst
  · obtain ⟨happend, hbulk⟩ := hs.append_of_mem hvalid hlt hmem
    refine ⟨⟨_, _, happend, iff_of_true rfl hmem, fun _ ↦ rfl⟩, _, ?_, rfl, hbulk⟩
    simp only [Appends.step, happend]
  · obtain ⟨index', happend, hbulk⟩ := hs.append_of_notMem hvalid hlt hmem
    refine ⟨⟨_, _, happend, ⟨fun h ↦ absurd h (by decide), fun h ↦ absurd h hmem⟩,
      fun h ↦ absurd h (by decide)⟩, _, ?_, rfl, hbulk⟩
    simp only [Appends.step, happend]

theorem exists_run_bulk (hlength : calls.length ≤ numEntries.toNat)
    (hvalid : ∀ call ∈ calls, keyDataTypeID.Valid call.1) :
    ∃ s, run (Appends.step stdHash) (start keyDataTypeID (some numEntries)) calls = some s ∧
      s.appended = calls ∧ s.Bulk stdHash keyDataTypeID numEntries := by
  induction calls using List.reverseRecOn with
  | nil => exact ⟨_, rfl, rfl, bulk_start stdHash keyDataTypeID numEntries⟩
  | append_singleton calls call ih =>
      have hlt : calls.length < numEntries.toNat := by
        rw [List.length_append] at hlength
        exact Nat.lt_of_succ_le hlength
      obtain ⟨s, hrun, happended, hs⟩ := ih hlt.le fun c hc ↦
        hvalid c (List.mem_append_left _ hc)
      have hcall := hvalid call (List.mem_append_right _ (List.mem_singleton_self _))
      obtain ⟨-, s', hstep, happended', hs'⟩ := hs.step hcall (happended.symm ▸ hlt)
      refine ⟨s', ?_, by rw [happended', happended], hs'⟩
      exact run_concat_of_eq_some hrun hstep

/-- Opening the files of the index succeeds, and every transaction finds every key with the offset
of its first append and finds no other key. -/
def FlushFindsFirst (stdHash : List UInt8 → UInt64) (keyDataTypeID : KeyType) (s : Appends) :
    Prop :=
  ∃ opened, HashIndex.make keyDataTypeID s.index.flush.1 s.index.flush.2 = .ok opened ∧
    ∀ isReadOnly key, keyDataTypeID.Valid key →
      opened.lookupInternal stdHash isReadOnly key = .ok (s.appended.lookup key)

theorem lookup_make (stdHash : List UInt8 → UInt64) {key : Key} (hkey : keyDataTypeID.Valid key) :
    (HashIndexLocalStorage.make keyDataTypeID).lookup stdHash key = .ok .keyNotExist := by
  obtain ⟨-, hheader, -⟩ := InMemHashIndex.make_spec keyDataTypeID
  have hkey' : (InMemHashIndex.make keyDataTypeID).keyDataTypeID.Valid key := by
    rw [InMemHashIndex.keyDataTypeID, hheader]
    exact hkey
  have hlookup := InMemHashIndex.lookupInternal_eq (InMemHashIndex.holds_make stdHash keyDataTypeID)
    hkey'
  rw [InMemHashIndex.New.content] at hlookup
  simp only [HashIndexLocalStorage.lookup, HashIndexLocalStorage.make, hlookup, Lib.ok_bind,
    Lib.pure_eq_ok]

theorem Bulk.flushFindsFirst (hs : s.Bulk stdHash keyDataTypeID numEntries) :
    s.FlushFindsFirst stdHash keyDataTypeID := by
  obtain ⟨t, hholds, hcontent, -⟩ := hs.holds
  have hwf := hholds.represents.wellFormed
  refine ⟨_, InMemHashIndex.make_flush hwf keyDataTypeID, ?_⟩
  intro isReadOnly key hkey
  have hpersistent := (InMemHashIndex.openedFrom_reopened hwf keyDataTypeID).lookupInPersistentIndex
    hholds (hs.keyDataTypeID_eq.symm ▸ hkey)
  rw [hcontent] at hpersistent
  have hlocal : (s.index.reopened keyDataTypeID).localStorage.lookup stdHash key =
      .ok .keyNotExist := lookup_make stdHash hkey
  cases isReadOnly with
  | true => exact hpersistent
  | false =>
      simp only [HashIndex.lookupInternal, Bool.false_eq_true, if_false, hlocal, Lib.ok_bind]
      exact hpersistent

/-- Keys are appended, repeatedly or not, to a new index that has reserved slots for as many. -/
theorem bulkBuild (stdHash : List UInt8 → UInt64) (keyDataTypeID : KeyType) (numEntries : UInt32)
    (calls : List (Key × ℕ)) (hlength : calls.length ≤ numEntries.toNat)
    (hvalid : ∀ call ∈ calls, keyDataTypeID.Valid call.1) :
    (∀ done call rest, calls = done ++ call :: rest →
      ∃ s, run (Appends.step stdHash) (start keyDataTypeID (some numEntries)) done = some s ∧
        s.appended = done ∧ s.Answers stdHash call) ∧
    ∃ s, run (Appends.step stdHash) (start keyDataTypeID (some numEntries)) calls = some s ∧
      s.appended = calls ∧ s.FlushFindsFirst stdHash keyDataTypeID := by
  constructor
  · rintro done call rest rfl
    rw [List.length_append, List.length_cons] at hlength
    have hdone : done.length < numEntries.toNat := by omega
    obtain ⟨s, hrun, happended, hs⟩ := exists_run_bulk hdone.le fun c hc ↦
      hvalid c (List.mem_append_left _ hc)
    have hcall := hvalid call (List.mem_append_right _ List.mem_cons_self)
    exact ⟨s, hrun, happended, (hs.step hcall (happended.symm ▸ hdone)).1⟩
  · obtain ⟨s, hrun, happended, hs⟩ := exists_run_bulk hlength hvalid
    exact ⟨s, hrun, happended, hs.flushFindsFirst⟩

/-- The number 1 is appended a second time. -/
theorem bulkBuild_twoNumbers :
    (∀ done call rest, twoNumbers ++ [([1, 0, 0, 0, 0, 0, 0, 0], 2)] = done ++ call :: rest →
      ∃ s, run (Appends.step fun _ ↦ 0) (start .int64 (some 3)) done = some s ∧
        s.appended = done ∧ s.Answers (fun _ ↦ 0) call) ∧
    ∃ s, run (Appends.step fun _ ↦ 0) (start .int64 (some 3))
        (twoNumbers ++ [([1, 0, 0, 0, 0, 0, 0, 0], 2)]) = some s ∧
      s.appended = twoNumbers ++ [([1, 0, 0, 0, 0, 0, 0, 0], 2)] ∧
      s.FlushFindsFirst (fun _ ↦ 0) .int64 :=
  bulkBuild (fun _ ↦ 0) .int64 3 (twoNumbers ++ [([1, 0, 0, 0, 0, 0, 0, 0], 2)]) (by decide)
    (by decide)

/-- A key that is longer than a page does not fit on one. -/
theorem appendInternal_start_of_gt {key : Key} (hlong : defaultPageSize < key.length) (value : ℕ) :
    (start .string (some 1)).index.appendInternal (fun _ ↦ 0) key value =
      .error .invalidAccess := by
  obtain ⟨index, hindex⟩ : ∃ index, index = (start .string (some 1)).index := ⟨_, rfl⟩
  have hsplit : index.toBaseHashIndex.splitSlots (fun _ ↦ 0) 2 2 = .ok index.toBaseHashIndex := by
    rw [hindex]
    rfl
  have hslot : index.getPrimarySlotIdForKey (fun _ ↦ 0) key = 0 := by
    have hhash : keyHashFunc (fun _ ↦ 0) index.indexHeader.keyDataTypeID key = 0 := by
      rw [hindex]
      rfl
    simp [InMemHashIndex.getPrimarySlotIdForKey, HashIndexHeader.primarySlotId, hhash]
  have hfind : BaseHashIndex.findSlotToInsert (index.keyEquals key) index.toBaseHashIndex
      index.maxChainLength ⟨0, true⟩ = .ok (some ⟨0, true⟩) := by
    rw [hindex]
    rfl
  have hinsert : keyInsertFunc index.inMemOverflowFile index.indexHeader.keyDataTypeID key =
      .error .invalidAccess := by
    rw [hindex]
    exact InMemOverflowFile.appendString_of_gt hlong
  have hnum : numRequiredEntries (index.numEntries + 1) = 2 := by
    rw [hindex]
    rfl
  rw [← hindex, InMemHashIndex.appendInternal]
  simp only [hnum, hsplit, ok_bind, hslot, hfind, hinsert]
  rfl

/-- The only key is a string of 4097 characters. -/
theorem bulkBuild_longKey : ¬ ∃ s, run (Appends.step fun _ ↦ 0) (start .string (some 1))
    [(List.replicate 4097 97, 0)] = some s := by
  have hlength : (List.replicate 4097 (97 : UInt8)).length = 4097 := List.length_replicate
  generalize List.replicate 4097 (97 : UInt8) = key at hlength
  have hlong : defaultPageSize < key.length := by
    rw [hlength]
    decide
  rintro ⟨s, hs⟩
  obtain ⟨s', hstep, -⟩ := run_cons_eq_some_iff.mp hs
  rw [Appends.step, appendInternal_start_of_gt hlong] at hstep
  exact absurd hstep (Option.some_ne_none s').symm

end Appends

end Graphflow
