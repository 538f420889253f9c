import Graphflow.Overflow.FrameAccesses

/-!
# Sequences of writes to an overflow file

Every sequence of calls of `writeStringOverflowAndUpdateOverflowPtr` and
`writeListOverflowAndUpdateOverflowPtr`, with the values that the callers keep and with frames that
the buffer manager gives up in between.  Five things stand between a value and what is read for it:

* `setStringOverflowWithoutLock` takes a string of exactly `SHORT_STR_LENGTH` characters for a long
  one, and follows a pointer that is not there;
* `addNewPageIfNecessaryWithoutLock` lets bytes end one byte behind their page;
* `readListToVector` reads the pages of the file and not their versions in the WAL;
* the frame of a WAL page that is pinned again is not marked as dirty;
* the pointers in the elements of a list are written through a frame that is not pinned any more.
-/

namespace Graphflow

open Wal Storage Lib

namespace OverflowFile

inductive Call
  | string (value : InMemory (.scalar .string))
  | list (childType : DataType) (value : InMemory (.list childType))

namespace Call

def dataType : Call → DataType
  | .string _ => .scalar .string
  | .list childType _ => .list childType

def value : (call : Call) → InMemory call.dataType
  | .string value => value
  | .list _ value => value

def literal (call : Call) : Literal call.dataType := InMemory.literal call.dataType call.value

/-- The sizes of what is appended. -/
def appended (call : Call) : List ℕ := InMemory.appended call.dataType call.value

/-- A list that has elements. -/
def IsNonemptyList : Call → Prop
  | .string _ => False
  | .list _ value => value.1 ≠ []

end Call

def forgetAccesses (f : OverflowFile) : OverflowFile := { f with accesses := [] }

/-- A call, with the accesses that it makes. -/
def write (f : OverflowFile) : Call → Except Fault (OverflowFile × List UInt8)
  | .string value => f.forgetAccesses.writeStringOverflowAndUpdateOverflowPtr value
  | .list childType value =>
      writeListOverflowAndUpdateOverflowPtr childType f.forgetAccesses value

/-- In the write transaction. -/
def ReadsBack (f : OverflowFile) (bytes : List UInt8) : Call → Prop
  | .string value => f.readStringToVector bytes = .ok value.1
  | .list childType value => readListToVector childType f bytes =
      .ok (InMemory.literal (.list childType) value)

/-- The file, and the calls with the bytes that they have returned.  The pages of `file.wal` are
what one finds on them. -/
structure Writes where
  file : OverflowFile
  returned : List (Call × List UInt8)
  walFile : ℕ → BytePage
  isDirty : ℕ → Bool

/-- The buffer manager gives up the frames `evictions k` before the access number `k` of a call, and
further ones between the calls. -/
inductive WriteStep
  | call (call : Call) (evictions : ℕ → List ℕ)
  | evict (pageIdxInWAL : ℕ)

namespace Writes

variable {s : Writes} {call : Call} {evictions : ℕ → List ℕ} {steps : List WriteStep}

def frames (s : Writes) : WriteBack BytePage := ⟨s.file.wal.pages, s.walFile, s.isDirty⟩

def withFrames (s : Writes) (frames : WriteBack BytePage) : Writes where
  file := { s.file with wal := { s.file.wal with pages := frames.shown } }
  returned := s.returned
  walFile := frames.saved
  isDirty := frames.dirty

/-- A call that raises an error, or writes to a frame that has been given up, has no next state. -/
def step (s : Writes) : WriteStep → Option Writes
  | .call call evictions =>
      match s.file.write call with
      | .ok (file, bytes) =>
          (run (WriteBack.perform evictions) s.frames file.accesses.zipIdx).map
            (withFrames ⟨file, s.returned ++ [(call, bytes)], s.walFile, s.isDirty⟩)
      | .error _ => none
  | .evict pageIdxInWAL => some (s.withFrames (s.frames.evict pageIdxInWAL))

/-- Strings and arrays of elements are on one page each and do not overlap, and all values of a kind
can be read. -/
structure RoundTrips (s : Writes) (kind : Call → Prop) : Prop where
  inside : ∀ r ∈ s.file.regions, r.1.pagePos + r.2 ≤ defaultPageSize
  disjoint : s.file.regions.Pairwise Disjoint
  readsBack : ∀ w ∈ s.returned, kind w.1 → s.file.ReadsBack w.2 w.1

/-- A value with the sizes that the checks of the source let pass, in a file whose pages can be
numbered. -/
structure Admits (s : Writes) (call : Call) : Prop where
  wellTyped : InMemory.WellTyped call.dataType call.value
  admitted : ∀ n ∈ call.appended, n ≤ defaultPageSize
  pages : (s.file.cursor.advanceAll call.appended).numPages ≤ 256 ^ 4

/-- No string has exactly `SHORT_STR_LENGTH` characters, and nothing that is appended ends one byte
behind its page. -/
structure Safe (s : Writes) (call : Call) : Prop where
  noStringAtLimit : InMemory.NoStringAtLimit call.dataType call.value
  fits : s.file.cursor.FitsAll call.appended

/-- A frame that is given up during the call is dirty or has not been changed, and the frame of the
elements of a list is not given up before all pointers in them have been written. -/
def KeepsFrames (s : Writes) (call : Call) (evictions : ℕ → List ℕ) : Prop :=
  ∀ file bytes, s.file.write call = .ok (file, bytes) →
    MeetsAlong (WriteBack.perform evictions) (WriteBack.LosesNothing evictions) s.frames
      file.accesses.zipIdx

def Meets (s : Writes) : WriteStep → Prop
  | .call call evictions => s.Admits call ∧ s.Safe call ∧ s.KeepsFrames call evictions
  | .evict pageIdxInWAL => s.frames.Keeps pageIdxInWAL

/-- Everything is where it should be, in the versions of the pages. -/
structure Inv (s : Writes) : Prop where
  wellFormed : s.file.WellFormed
  separated : s.file.Separated
  stored : ∀ w ∈ s.returned, Stored s.file.memory 0 s.file.cursor w.1.dataType w.2 w.1.literal

theorem sameMemory_forgetAccesses {f : OverflowFile} (hf : f.WellFormed) :
    SameMemory f f.forgetAccesses where
  grows := ⟨⟨hf.version_lt, hf.version_inj, hf.cursor⟩,
    fun h ↦ ⟨h.inside, h.below, h.disjoint⟩, Cursor.Reaches.refl _, KeepsVersions.refl f, rfl⟩
  cursor := rfl
  memory := rfl

theorem exists_write {f : OverflowFile} (hf : f.WellFormed) (call : Call)
    (hwritable : Writable f.cursor call.dataType call.value) :
    ∃ f' bytes, f.write call = .ok (f', bytes) ∧ Wrote call.dataType f f' bytes call.value := by
  have hsame := sameMemory_forgetAccesses hf
  have hf₀ := hsame.grows.wellFormed
  cases call with
  | string value =>
      obtain ⟨f', bytes, hwrite, hwrote⟩ := exists_writeString hf₀ value hwritable
      exact ⟨f', bytes, hwrite, hwrote.of_sameMemory hsame⟩
  | list childType value =>
      obtain ⟨f', bytes, hwrite, hwrote⟩ := exists_writeList hf₀ value hwritable
      exact ⟨f', bytes, hwrite, hwrote.of_sameMemory hsame⟩

/-- The accesses of a call are all that it does to the WAL pages. -/
theorem pages_of_write {f f' : OverflowFile} {bytes : List UInt8}
    (h : f.write call = .ok (f', bytes)) :
    f'.wal.pages = f'.accesses.foldl FrameAccess.apply f.wal.pages := by
  have hrecorded : Recorded f.forgetAccesses f' := by
    cases call with
    | string value => exact recorded_writeString h
    | list childType value => exact recorded_writeList h
  obtain ⟨accesses, haccesses, hpages⟩ := hrecorded
  rw [hpages, haccesses]
  rfl

/-- As long as nothing is lost, the frames that are given up cannot be seen. -/
theorem file_withFrames {frames : WriteBack BytePage} (h : frames.shown = s.file.wal.pages) :
    (s.withFrames frames).file = s.file := by
  rw [withFrames, h]

theorem step_call {file : OverflowFile} {bytes : List UInt8}
    (hwrite : s.file.write call = .ok (file, bytes)) (hkeeps : s.KeepsFrames call evictions) :
    ∃ s', s.step (.call call evictions) = some s' ∧ s'.file = file ∧
      s'.returned = s.returned ++ [(call, bytes)] := by
  obtain ⟨frames, hrun, hshown⟩ := WriteBack.exists_run_perform (hkeeps file bytes hwrite)
  rw [List.zipIdx_map_fst] at hshown
  have hstep : s.step (.call call evictions) = some
      (withFrames ⟨file, s.returned ++ [(call, bytes)], s.walFile, s.isDirty⟩ frames) := by
    simp only [step, hwrite, hrun]
    rfl
  exact ⟨_, hstep, file_withFrames (hshown.trans (pages_of_write hwrite).symm), rfl⟩

theorem Inv.of_file {s s' : Writes} (hs : s.Inv) (hfile : s'.file = s.file)
    (hreturned : s'.returned = s.returned) : s'.Inv := by
  refine ⟨hfile ▸ hs.wellFormed, hfile ▸ hs.separated, ?_⟩
  rw [hfile, hreturned]
  exact hs.stored

theorem Inv.write (hs : s.Inv) (hadmits : s.Admits call) (hsafe : s.Safe call)
    (hkeeps : s.KeepsFrames call evictions) :
    ∃ s', s.step (.call call evictions) = some s' ∧ s'.Inv := by
  obtain ⟨f', bytes, hwrite, hwrote⟩ := exists_write hs.wellFormed call
    ⟨hadmits.wellTyped, hsafe.noStringAtLimit, hadmits.admitted, hsafe.fits, hadmits.pages⟩
  obtain ⟨s', hstep, hfile, hreturned⟩ := step_call hwrite hkeeps
  have hinv : Inv ⟨f', s.returned ++ [(call, bytes)], s.walFile, s.isDirty⟩ := by
    refine ⟨hwrote.grows.wellFormed, hwrote.grows.separated hs.separated, ?_⟩
    intro w hw
    rcases List.mem_append.mp hw with hw | hw
    · apply (hs.stored w hw).mono (Nat.le_refl 0) hwrote.grows.reaches
      intro a _ ha
      exact hwrote.frame a ha
    · rw [List.mem_singleton] at hw
      subst hw
      exact hwrote.stored.mono (Nat.zero_le _) (Cursor.Reaches.refl _) fun _ _ _ ↦ rfl
  exact ⟨s', hstep, hinv.of_file hfile hreturned⟩

theorem Inv.step (hs : s.Inv) (a : WriteStep) (hmeets : s.Meets a) :
    ∃ s', s.step a = some s' ∧ s'.Inv := by
  cases a with
  | call call evictions => exact hs.write hmeets.1 hmeets.2.1 hmeets.2.2
  | evict pageIdxInWAL => exact ⟨_, rfl, hs.of_file (file_withFrames hmeets.shown_evict) rfl⟩

/-- A list without elements reads nothing from the page it points to. -/
theorem readListToVector_of_nil {f : OverflowFile} {childType : DataType} {bytes : List UInt8}
    {lo : ℕ} (h : Stored f.memory lo f.cursor (.list childType) bytes []) :
    readListToVector childType f bytes = .ok [] := by
  obtain ⟨elementSize, hsize, hlen, hholds, -⟩ := h
  have hpage : f.file.readView (decodeOverflowPtr (bytes.drop 8)).pageIdx =
      some (f.file.pages (decodeOverflowPtr (bytes.drop 8)).pageIdx) := if_pos hholds.page_lt
  have hcopy : copyFromFrame (f.file.pages (decodeOverflowPtr (bytes.drop 8)).pageIdx)
      (decodeOverflowPtr (bytes.drop 8)).pagePos (0 * elementSize) = .ok [] := by
    rw [Nat.zero_mul]
    have hinside := hholds.inside
    rw [copyFromFrame, if_pos (by omega), readAt_zero]
  rw [List.length_nil] at hlen
  simp only [readListToVector, readValue, readElements, hlen, hsize, Lib.ok_bind, hpage, hcopy]
  rfl

theorem Inv.readsBack (hs : s.Inv) {w : Call × List UInt8} (hw : w ∈ s.returned)
    (hempty : ¬ w.1.IsNonemptyList) : s.file.ReadsBack w.2 w.1 := by
  have hstored := hs.stored w hw
  obtain ⟨call, bytes⟩ := w
  cases call with
  | string value => exact readString_of_stored s.file.writeView_of_lt hstored
  | list childType value =>
      have hnil : value.1 = [] := not_not.mp hempty
      have hliteral : InMemory.literal (.list childType) value = [] :=
        congrArg (List.map (InMemory.literal childType)) hnil
      have hstored' : Stored s.file.memory 0 s.file.cursor (.list childType) bytes
        (InMemory.literal (.list childType) value) := hstored
      show readListToVector childType s.file bytes = _
      rw [hliteral] at hstored' ⊢
      exact readListToVector_of_nil hstored'

/-- A file with a number of pages and nothing written, with the cursor at `pos`. -/
def opened (numPages pos : ℕ) : OverflowFile where
  id := ⟨.structuredNodePropertyColumn 0 0, true⟩
  file := ⟨⟨numPages, fun _ ↦ none⟩, fun _ _ ↦ 0⟩
  wal := { pages := fun _ _ ↦ 0 }
  position := { nextBytePosToWriteTo := pos }
  junk := fun _ _ ↦ 0

/-- No WAL page is in a frame. -/
def unwritten (f : OverflowFile) : Writes := ⟨f, [], fun _ _ ↦ 0, fun _ ↦ false⟩

/-- The source admits the calls of the step. -/
def Admitted (s : Writes) : WriteStep → Prop
  | .call call _ => s.Admits call
  | .evict _ => True

end Writes

end OverflowFile

end Graphflow
