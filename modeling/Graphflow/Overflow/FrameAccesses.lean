import Graphflow.Overflow.Write

/-!
# The frames that are written to

The accesses that a call records are all that it does to the pages of the WAL.  So they can be
repeated with frames that are given up in between.
-/

namespace Graphflow

open Wal Storage Lib

namespace OverflowFile

variable {f f' f'' : OverflowFile} {p pinnedAt elementSize : ℕ} {updateOp : BytePage → BytePage}
  {dst ptr : OverflowPtr} {bytes chars : List UInt8} {childType : DataType}

/-- What has been done to the WAL pages since has been recorded. -/
def Recorded (f f' : OverflowFile) : Prop :=
  ∃ accesses, f'.accesses = f.accesses ++ accesses ∧
    f'.wal.pages = accesses.foldl FrameAccess.apply f.wal.pages

theorem Recorded.refl (f : OverflowFile) : Recorded f f := ⟨[], (List.append_nil _).symm, rfl⟩

theorem Recorded.trans (h : Recorded f f') (h' : Recorded f' f'') : Recorded f f'' := by
  obtain ⟨accesses, haccesses, hpages⟩ := h
  obtain ⟨accesses', haccesses', hpages'⟩ := h'
  refine ⟨accesses ++ accesses', ?_, ?_⟩
  · rw [haccesses', haccesses, List.append_assoc]
  · rw [hpages', hpages, List.foldl_append]

/-! ## Pages -/

theorem recorded_addNewPageToFileHandle (f : OverflowFile) :
    Recorded f f.addNewPageToFileHandle := ⟨[_], rfl, rfl⟩

theorem recorded_updatePage (h : f.updatePage p updateOp = .ok f') : Recorded f f' := by
  rw [updatePage] at h
  set f₁ := if p = f.numPages then f.addNewPageToFileHandle else f with hf₁
  have hfirst : Recorded f f₁ := by
    rw [hf₁]
    split_ifs
    · exact recorded_addNewPageToFileHandle f
    · exact Recorded.refl f
  obtain ⟨⟨file, wal⟩, hupdate, h⟩ := bind_eq_ok_iff.mp h
  obtain rfl := Except.ok.inj h
  refine hfirst.trans ⟨[f₁.frameAccess p updateOp], rfl, ?_⟩
  rw [StructureFile.updatePage] at hupdate
  split at hupdate
  · cases hupdate
  · rw [List.foldl_cons, List.foldl_nil, frameAccess]
    cases hversion : f₁.file.fileHandle.pageVersions p with
    | some w =>
        rw [hversion] at hupdate
        cases hupdate
        rfl
    | none =>
        rw [hversion] at hupdate
        cases hupdate
        rfl

theorem recorded_addNewPageIfNecessary (f : OverflowFile) (n : ℕ) :
    Recorded f (f.addNewPageIfNecessary n) := by
  rw [addNewPageIfNecessary]
  split_ifs
  · exact recorded_addNewPageToFileHandle _
  · exact Recorded.refl f

theorem recorded_storeOverflowPtr (h : f.storeOverflowPtr pinnedAt dst ptr = .ok f') :
    Recorded f f' := by
  rw [storeOverflowPtr] at h
  split at h
  · cases h
  · cases h
    exact ⟨[_], rfl, rfl⟩

/-! ## Values -/

theorem recorded_append (h : f.append bytes = .ok (f', ptr)) : Recorded f f' := by
  rw [append] at h
  dsimp only at h
  split at h
  · cases h
  · obtain ⟨f₁, hupdate, h⟩ := bind_eq_ok_iff.mp h
    cases h
    exact ((recorded_addNewPageIfNecessary f bytes.length).trans
      (recorded_updatePage hupdate)).trans
      ⟨[], (List.append_nil _).symm, rfl⟩

theorem recorded_setStringOverflow {result : Option OverflowPtr}
    (h : f.setStringOverflow chars = .ok (f', result)) : Recorded f f' := by
  rw [setStringOverflow] at h
  split_ifs at h with hshort hlong hlimit
  · cases h
    exact Recorded.refl f
  · obtain ⟨⟨f₁, ptr⟩, happend, h⟩ := bind_eq_ok_iff.mp h
    cases h
    exact recorded_append happend

theorem recorded_copyElements {elements : List (InMemory childType)}
    (h : copyElements childType f elements = .ok (f', ptr)) : Recorded f f' := by
  obtain ⟨elementSize, -, h⟩ := bind_eq_ok_iff.mp h
  dsimp only at h
  split_ifs at h
  · cases h
  · exact recorded_append h

theorem recorded_forEachElement {α : Type}
    {set : OverflowFile → OverflowPtr → α → Except Fault OverflowFile} {elements : List α}
    (hset : ∀ f dst e f', set f dst e = .ok f' → Recorded f f')
    (h : forEachElement set elementSize ptr f elements = .ok f') : Recorded f f' := by
  rw [forEachElement] at h
  generalize elements.zipIdx = elements at h
  induction elements generalizing f with
  | nil =>
      cases h
      exact Recorded.refl _
  | cons e elements ih =>
      rw [List.foldlM_cons] at h
      obtain ⟨f₁, hfirst, h⟩ := bind_eq_ok_iff.mp h
      exact (hset _ _ _ _ hfirst).trans (ih h)

theorem recorded_setScalar {typeID : DataTypeID}
    (h : setScalar typeID pinnedAt f dst chars = .ok f') : Recorded f f' := by
  cases typeID with
  | string =>
      obtain ⟨⟨f₁, result⟩, hstring, h⟩ := bind_eq_ok_iff.mp h
      cases result with
      | some ptr => exact (recorded_setStringOverflow hstring).trans (recorded_storeOverflowPtr h)
      | none =>
          cases h
          exact recorded_setStringOverflow hstring
  | _ =>
      cases h
      exact Recorded.refl f

theorem recorded_setElement (dataType : DataType) (pinnedAt : ℕ) (f : OverflowFile)
    (dst : OverflowPtr) (value : InMemory dataType) (f' : OverflowFile)
    (h : setElement dataType pinnedAt f dst value = .ok f') : Recorded f f' := by
  induction dataType generalizing pinnedAt f dst f' with
  | scalar typeID => exact recorded_setScalar h
  | list childType ih =>
      obtain ⟨elementSize, -, h⟩ := bind_eq_ok_iff.mp h
      obtain ⟨⟨f₁, ptr⟩, hcopy, h⟩ := bind_eq_ok_iff.mp h
      obtain ⟨f₂, hstore, h⟩ := bind_eq_ok_iff.mp h
      have hloop : Recorded f₂ f' :=
        recorded_forEachElement (fun f dst e f' ↦ ih f₁.lastAccess f dst e f') h
      exact ((recorded_copyElements hcopy).trans (recorded_storeOverflowPtr hstore)).trans hloop

/-! ## Calls -/

theorem recorded_log (f : OverflowFile) :
    Recorded f f.logNewOverflowFileNextBytePosRecordIfNecessary := by
  rw [logNewOverflowFileNextBytePosRecordIfNecessary]
  split_ifs
  · exact Recorded.refl f
  · exact ⟨[], (List.append_nil _).symm, rfl⟩

theorem recorded_writeString {value : InMemory (.scalar .string)}
    (h : f.writeStringOverflowAndUpdateOverflowPtr value = .ok (f', bytes)) : Recorded f f' := by
  rw [writeStringOverflowAndUpdateOverflowPtr] at h
  obtain ⟨⟨f₁, result⟩, hstring, h⟩ := bind_eq_ok_iff.mp h
  have hrecorded := (recorded_log f).trans (recorded_setStringOverflow hstring)
  cases result with
  | some ptr =>
      cases h
      exact hrecorded
  | none =>
      cases h
      exact hrecorded

theorem recorded_writeList {value : InMemory (.list childType)}
    (h : writeListOverflowAndUpdateOverflowPtr childType f value = .ok (f', bytes)) :
    Recorded f f' := by
  rw [writeListOverflowAndUpdateOverflowPtr] at h
  obtain ⟨elementSize, -, h⟩ := bind_eq_ok_iff.mp h
  obtain ⟨⟨f₁, ptr⟩, hcopy, h⟩ := bind_eq_ok_iff.mp h
  obtain ⟨f₂, hloop, h⟩ := bind_eq_ok_iff.mp h
  cases h
  exact ((recorded_log f).trans (recorded_copyElements hcopy)).trans
    (recorded_forEachElement (recorded_setElement childType f₁.lastAccess) hloop)

end OverflowFile

end Graphflow
