import Graphflow.Lib.WriteBack
import Graphflow.Storage.DiskArrayRefinement
import Graphflow.Wal.File

/-!
# A disk array whose WAL pages are evicted

The buffer manager writes a frame to the WAL file only if it is dirty, and
`createWALVersionIfNecessaryAndPinPage` marks the frame of a WAL page only when it creates the page.
What a later call writes to a page that has been evicted in between is lost with the next eviction.
No call writes a page twice or reads it after writing it without keeping it pinned, so the evictions
are placed between the calls.
-/

namespace Graphflow.Storage

open Lib

/-! ## The pages of the files -/

namespace PagedFile

/-- How many records there are to a header page of the WAL. -/
def numRecordsPerHeaderPage : ℕ :=
  (Wal.headerPageSize - Wal.headerPagePrefixSize) / Wal.walRecordSize

/-- The pages of a WAL file with some page records: one for each record, and the header pages. -/
def numPagesOfWAL (numRecords : ℕ) : ℕ :=
  numRecords + 1 + (numRecords - 1) / numRecordsPerHeaderPage

/-- The pages that have been added to the file and to the WAL have indices.  An index has 32 bits,
of which all ones is the null index. -/
def AddedPages (f f' : PagedFile) : Prop :=
  (f'.numPages ≤ f.numPages ∨ f'.numPages < 2 ^ 32) ∧
    (f'.records.length ≤ f.records.length ∨ numPagesOfWAL f'.records.length < 2 ^ 32)

instance (f f' : PagedFile) : Decidable (f.AddedPages f') := inferInstanceAs (Decidable (_ ∧ _))

/-- The WAL pages of the records. -/
def loggedPages (f : PagedFile) : List ℕ := f.records.map PageRecord.pageIdxInWAL

end PagedFile

/-! ## The array and its frames -/

/-- `file.walPages` is what one finds on the WAL pages. -/
structure BufferedDiskArray where
  array : InMemDiskArray
  file : PagedFile
  walFile : ℕ → Page
  isDirty : ℕ → Bool

/-- A call, or the frame of a WAL page is needed for another page. -/
inductive BufferedOp
  | call (op : ArrayOp)
  | evict (pageIdxInWAL : ℕ)

namespace BufferedDiskArray

/-- Behind the constructor nothing is logged. -/
def load (f : PagedFile) (headerPageIdx : ℕ) (walFile : ℕ → Page) :
    Except Fault BufferedDiskArray := do
  let array ← InMemDiskArray.load f headerPageIdx
  return ⟨array, f, walFile, fun _ ↦ false⟩

def frames (s : BufferedDiskArray) : WriteBack Page := ⟨s.file.walPages, s.walFile, s.isDirty⟩

def withFrames (s : BufferedDiskArray) (frames : WriteBack Page) : BufferedDiskArray where
  array := s.array
  file := { s.file with walPages := frames.shown }
  walFile := frames.saved
  isDirty := frames.dirty

/-- `flushAllPages` of the WAL, before it is replayed. -/
def flushAllPages (s : BufferedDiskArray) : BufferedDiskArray :=
  s.withFrames (s.frames.flush s.file.loggedPages)

/-- The frames of the pages that the call logs are dirty, and those of the others as before.  Where
a page gets no index the vectors of the file handle are accessed behind their ends. -/
def settle (s : BufferedDiskArray) (result : Answer × (InMemDiskArray × PagedFile)) :
    Answer × BufferedDiskArray :=
  let (answer, array, file) := result
  if s.file.AddedPages file then
    (answer, ⟨array, file, s.walFile, fun w ↦
      decide (w ∈ file.loggedPages) && (s.isDirty w || decide (w ∉ s.file.loggedPages))⟩)
  else (.error .invalidAccess, s)

def perform (s : BufferedDiskArray) : BufferedOp → Answer × BufferedDiskArray
  | .call .checkpoint =>
      let s := s.flushAllPages
      s.settle (InMemDiskArray.perform (s.array, s.file) .checkpoint)
  | .call op => s.settle (InMemDiskArray.perform (s.array, s.file) op)
  | .evict w =>
      (.ok none, if w ∈ s.file.loggedPages then s.withFrames (s.frames.evict w) else s)

end BufferedDiskArray

/-- An eviction is nothing to a pair of arrays. -/
def ArrayPair.performBuffered (s : ArrayPair) : BufferedOp → Answer × ArrayPair
  | .call op => s.perform op
  | .evict _ => (.ok none, s)

namespace BufferedDiskArray

variable {s : BufferedDiskArray} {t : ArrayPair} {op : BufferedOp}

/-- A page that is evicted is dirty or has not changed since it was read, and before the WAL is
replayed this is so of all logged pages.  The pages that a call may add have indices. -/
def Meets (s : BufferedDiskArray) : BufferedOp → Prop
  | .evict w => w ∈ s.file.loggedPages → s.frames.Keeps w
  | .call .checkpoint => ∀ w ∈ s.file.loggedPages, s.frames.Keeps w
  | .call (.pushBack _ _) => s.file.numPages + 2 < 2 ^ 32 ∧
      PagedFile.numPagesOfWAL (s.file.records.length + 4) < 2 ^ 32
  | .call (.update _ _) => PagedFile.numPagesOfWAL (s.file.records.length + 1) < 2 ^ 32
  | .call _ => True

end BufferedDiskArray

/-! ## What a call adds -/

/-- At most so many pages and records have been added. -/
structure PagedFile.Adds (numPages numRecords : ℕ) (f f' : PagedFile) : Prop where
  numPages_le : f'.numPages ≤ f.numPages + numPages
  length_records_le : f'.records.length ≤ f.records.length + numRecords

namespace PagedFile

variable {f f' f'' : PagedFile} {m n m' n' p w : ℕ} {isInsertingNewPage : Bool} {junk page : Page}
  {updateOp : Page → Page}

theorem adds_refl (f : PagedFile) : Adds 0 0 f f := ⟨le_rfl, le_rfl⟩

theorem Adds.trans (h : Adds n m f f') (h' : Adds n' m' f' f'') :
    Adds (n + n') (m + m') f f'' where
  numPages_le := by
    have hle := h.numPages_le
    have hle' := h'.numPages_le
    omega
  length_records_le := by
    have hle := h.length_records_le
    have hle' := h'.length_records_le
    omega

theorem Adds.mono (h : Adds n m f f') (hn : n ≤ n') (hm : m ≤ m') : Adds n' m' f f' where
  numPages_le := h.numPages_le.trans (Nat.add_le_add_left hn _)
  length_records_le := h.length_records_le.trans (Nat.add_le_add_left hm _)

theorem adds_addNewPage (f : PagedFile) : Adds 1 0 f f.addNewPage := ⟨le_rfl, le_rfl⟩

theorem adds_writeWALPage (f : PagedFile) (w : ℕ) (page : Page) :
    Adds 0 0 f (f.writeWALPage w page) := ⟨le_rfl, le_rfl⟩

theorem adds_of_createWALVersion
    (h : f.createWALVersionIfNecessaryAndPinPage p isInsertingNewPage junk = .ok (f', w)) :
    Adds 0 1 f f' := by
  rw [createWALVersionIfNecessaryAndPinPage] at h
  split at h
  · cases h
  · split at h
    · cases h
      exact (adds_refl f).mono le_rfl (Nat.zero_le 1)
    · cases h
      exact ⟨le_rfl, (List.length_append ..).le⟩

theorem adds_of_updatePage (h : f.updatePage p isInsertingNewPage junk updateOp = .ok f') :
    Adds 0 1 f f' := by
  obtain ⟨⟨f₁, w⟩, hcreate, hwrite⟩ := bind_eq_ok_iff.mp h
  obtain rfl := Except.ok.inj hwrite
  exact (adds_of_createWALVersion hcreate).trans (adds_writeWALPage f₁ w _)

theorem numPagesOfWAL_mono (h : m ≤ n) : numPagesOfWAL m ≤ numPagesOfWAL n := by
  have hdiv : (m - 1) / numRecordsPerHeaderPage ≤ (n - 1) / numRecordsPerHeaderPage :=
    Nat.div_le_div_right (Nat.sub_le_sub_right h 1)
  rw [numPagesOfWAL, numPagesOfWAL]
  omega

/-- Where there is room for what may be added, the pages have indices. -/
theorem Adds.addedPages (h : Adds n m f f') (hn : n = 0 ∨ f.numPages + n < 2 ^ 32)
    (hm : numPagesOfWAL (f.records.length + m) < 2 ^ 32) : f.AddedPages f' := by
  have hle := h.numPages_le
  refine ⟨?_, Or.inr ((numPagesOfWAL_mono h.length_records_le).trans_lt hm)⟩
  rcases hn with rfl | hn
  · exact Or.inl hle
  · exact Or.inr (hle.trans_lt hn)

end PagedFile

namespace InMemDiskArray

open PagedFile

variable {a a' : InMemDiskArray} {f f' : PagedFile} {header header' : DiskArrayHeader}
  {pipIdx apIdx pageIdx idx val : ℕ} {isNew : Bool} {junk : ℕ → Page}

theorem adds_of_setNextPIPPageIDxOfPIP {pipIdxOfPreviousPIP : Option ℕ}
    (h : a.setNextPIPPageIDxOfPIP f header pipIdxOfPreviousPIP pageIdx = .ok (a', f', header')) :
    Adds 0 1 f f' := by
  cases pipIdxOfPreviousPIP with
  | none =>
      cases h
      exact (adds_refl f).mono le_rfl (Nat.zero_le 1)
  | some pipIdx =>
      obtain ⟨pipPageIdxOfPreviousPIP, -, h⟩ := bind_eq_ok_iff.mp h
      obtain ⟨f₁, hupdate, h⟩ := bind_eq_ok_iff.mp h
      cases h
      exact adds_of_updatePage hupdate

theorem adds_of_getPIPForNewAP
    (h : a.getPIPForNewAP f header pipIdx = .ok (a', f', header', pageIdx, isNew)) :
    Adds 1 1 f f' := by
  rw [getPIPForNewAP] at h
  split at h
  · cases h
    exact (adds_refl f).mono (Nat.zero_le 1) (Nat.zero_le 1)
  · split at h
    · cases h
      exact (adds_refl f).mono (Nat.zero_le 1) (Nat.zero_le 1)
    · obtain ⟨⟨a₁, f₁, header₁⟩, hnext, h⟩ := bind_eq_ok_iff.mp h
      cases h
      exact (adds_addNewPage f).trans (adds_of_setNextPIPPageIDxOfPIP hnext)

theorem adds_of_getAPPageIdxAndAddAPToPIP
    (h : a.getAPPageIdxAndAddAPToPIPIfNecessary f header apIdx junk =
      .ok (a', f', header', pageIdx, isNew)) : Adds 2 2 f f' := by
  rw [getAPPageIdxAndAddAPToPIPIfNecessary] at h
  split at h
  · obtain ⟨apPageIdx, -, h⟩ := bind_eq_ok_iff.mp h
    cases h
    exact (adds_refl f).mono (Nat.zero_le 2) (Nat.zero_le 2)
  · obtain ⟨⟨a₁, f₁, header₁, pipPageIdx, isInsertingANewPIPPage⟩, hpip, h⟩ := bind_eq_ok_iff.mp h
    obtain ⟨f₂, hupdate, h⟩ := bind_eq_ok_iff.mp h
    cases h
    exact ((adds_addNewPage f).trans (adds_of_getPIPForNewAP hpip)).trans
      (adds_of_updatePage hupdate)

/-- A `pushBack` may add an array page and a PIP, and log the header page, the PIP before it, the
PIP and the array page. -/
theorem adds_of_pushBack (h : a.pushBack f val junk = .ok (a', f')) : Adds 2 4 f f' := by
  obtain ⟨⟨f₁, w⟩, hcreate, h⟩ := bind_eq_ok_iff.mp h
  obtain ⟨⟨a₂, f₂, header, apPageIdx, isNew⟩, hap, h⟩ := bind_eq_ok_iff.mp h
  obtain ⟨f₃, hupdate, h⟩ := bind_eq_ok_iff.mp h
  cases h
  exact (((adds_of_createWALVersion hcreate).trans (adds_of_getAPPageIdxAndAddAPToPIP hap)).trans
    (adds_of_updatePage hupdate)).trans (adds_writeWALPage f₃ w _)

theorem adds_update (a : InMemDiskArray) (f : PagedFile) (idx val : ℕ) :
    Adds 0 1 f (a.update f idx val).2.2 := by
  rw [update]
  split
  · rename_i f' hupdate
    obtain ⟨numElements, -, h⟩ := bind_eq_ok_iff.mp hupdate
    split at h
    · cases h
    · obtain ⟨apPageIdx, -, h⟩ := bind_eq_ok_iff.mp h
      exact adds_of_updatePage h
  · exact (adds_refl f).mono le_rfl (Nat.zero_le 1)

theorem adds_perform_pushBack (a : InMemDiskArray) (f : PagedFile) (val : ℕ) (junk : ℕ → Page) :
    Adds 2 4 f (perform (a, f) (.pushBack val junk)).2.2 := by
  rw [perform]
  cases hpush : a.pushBack f val junk with
  | error fault => exact (adds_refl f).mono (Nat.zero_le 2) (Nat.zero_le 4)
  | ok s => exact adds_of_pushBack hpush

end InMemDiskArray

/-! ## The simulation -/

namespace BufferedDiskArray

variable {s : BufferedDiskArray} {t : ArrayPair} {frames : WriteBack Page} {pips aps : List ℕ}

/-- As long as nothing is lost, the evictions cannot be seen. -/
theorem file_withFrames (h : frames.shown = s.file.walPages) :
    (s.withFrames frames).file = s.file := by
  rw [withFrames, h]

theorem settle_of_addedPages {result : Answer × (InMemDiskArray × PagedFile)}
    (h : s.file.AddedPages result.2.2) :
    (s.settle result).1 = result.1 ∧
      ((s.settle result).2.array, (s.settle result).2.file) = result.2 := by
  rw [settle, if_pos h]
  exact ⟨rfl, rfl⟩

/-- A call whose new pages have indices. -/
theorem simulates_settle {op : ArrayOp} (hsim : InMemDiskArray.Simulates (s.array, s.file) t)
    (hadded : s.file.AddedPages (InMemDiskArray.perform (s.array, s.file) op).2.2) :
    (s.settle (InMemDiskArray.perform (s.array, s.file) op)).1 = (t.perform op).1 ∧
      InMemDiskArray.Simulates ((s.settle (InMemDiskArray.perform (s.array, s.file) op)).2.array,
        (s.settle (InMemDiskArray.perform (s.array, s.file) op)).2.file) (t.perform op).2 := by
  obtain ⟨hanswer, hstate⟩ := settle_of_addedPages hadded
  rw [hanswer, hstate]
  exact InMemDiskArray.simulates_perform _ t op hsim

theorem addedPages_of_le {f f' : PagedFile} (h : f'.numPages ≤ f.numPages)
    (hrecords : f'.records = [] ∨ f' = f) : f.AddedPages f' := by
  refine ⟨Or.inl h, Or.inl ?_⟩
  rcases hrecords with hnil | rfl
  · rw [hnil]
    exact Nat.zero_le _
  · exact le_rfl

/-- A call or an eviction that meets the condition. -/
theorem simulates_perform (hsim : InMemDiskArray.Simulates (s.array, s.file) t) (op : BufferedOp)
    (hmeets : s.Meets op) :
    (s.perform op).1 = (t.performBuffered op).1 ∧
      InMemDiskArray.Simulates ((s.perform op).2.array, (s.perform op).2.file)
        (t.performBuffered op).2 := by
  cases op with
  | evict w =>
      rw [perform, ArrayPair.performBuffered]
      split_ifs with hlogged
      · refine ⟨rfl, ?_⟩
        rw [file_withFrames (hmeets hlogged).shown_evict]
        exact hsim
      · exact ⟨rfl, hsim⟩
  | call op =>
      cases op with
      | update idx val =>
          refine simulates_settle hsim ?_
          exact (InMemDiskArray.adds_update s.array s.file idx val).addedPages (Or.inl rfl) hmeets
      | pushBack val junk =>
          refine simulates_settle hsim ?_
          exact (InMemDiskArray.adds_perform_pushBack s.array s.file val junk).addedPages
            (Or.inr hmeets.1) hmeets.2
      | get idx trxType =>
          exact simulates_settle hsim (addedPages_of_le le_rfl (Or.inr rfl))
      | getNumElements trxType =>
          exact simulates_settle hsim (addedPages_of_le le_rfl (Or.inr rfl))
      | checkpoint =>
          have hfile : s.flushAllPages.file = s.file :=
            file_withFrames (WriteBack.shown_flush hmeets)
          have hsim' : InMemDiskArray.Simulates
              (s.flushAllPages.array, s.flushAllPages.file) t := by
            rw [hfile]
            exact hsim
          obtain ⟨-, -, hnum, hrecords⟩ := InMemDiskArray.simulates_checkpoint hsim'
          exact simulates_settle hsim' (addedPages_of_le hnum (Or.inl hrecords))
      | rollback =>
          obtain ⟨-, -, hnum, hrecords⟩ := InMemDiskArray.simulates_rollback hsim
          exact simulates_settle hsim (addedPages_of_le hnum (Or.inl hrecords))

/-- A loaded array answers as the pair of arrays does in every run in which no eviction, and no
replay of the WAL, loses what has been written to a WAL page. -/
theorem outputs_of_meetsAlong {f : PagedFile} {headerPageIdx : ℕ} {xs : List ℕ}
    (hlayout : Layout f.pages headerPageIdx pips aps xs)
    (hlt : ∀ p ∈ headerPageIdx :: (pips ++ aps), p < f.numPages)
    (hnone : ∀ p, f.version p = none) (hrecords : f.records = []) (walFile : ℕ → Page) :
    ∃ s, load f headerPageIdx walFile = .ok s ∧ ∀ ops : List BufferedOp,
      MeetsAlong (fun s op ↦ some (s.perform op).2) Meets s ops →
        outputs perform s ops = outputs ArrayPair.performBuffered ⟨xs, xs⟩ ops := by
  refine ⟨⟨InMemDiskArray.ofLayout f headerPageIdx pips aps, f, walFile, fun _ ↦ false⟩, ?_, ?_⟩
  · rw [load, InMemDiskArray.load_eq_ok hlayout hlt]
    rfl
  · intro ops hmeets
    exact outputs_eq_of_meets
      (fun s t ↦ InMemDiskArray.Simulates (s.array, s.file) t)
      (fun s t op hsim hop ↦ simulates_perform hsim op hop)
      (InMemDiskArray.simulates_ofLayout hlayout hlt hnone hrecords) hmeets

/-- A file with one array of one element: a header, a PIP and an array page. -/
def oneElementFile : PagedFile where
  fileHandle := ⟨3, fun _ ↦ none⟩
  records := []
  walNumPages := 1
  pages
    | 0 => .header ⟨some 1, 1, 1⟩
    | 1 => .pip { pageIdxs := fun _ ↦ 2 }
    | _ => .array fun _ ↦ 5
  walPages _ := .array fun _ ↦ 0

theorem layout_oneElementFile : Layout oneElementFile.pages 0 [1] [2] [5] := by
  refine ⟨rfl, rfl, rfl, ?_, ?_, ?_, by decide⟩
  · intro k p hk
    match k with
    | 0 =>
        obtain rfl : 1 = p := by simpa using hk
        rfl
    | k + 1 => simp at hk
  · intro i p hi
    match i with
    | 0 =>
        obtain rfl : 2 = p := by simpa using hi
        exact ⟨1, rfl, rfl⟩
    | i + 1 => simp at hi
  · intro j x hj
    match j with
    | 0 =>
        obtain rfl : 5 = x := by simpa using hj
        exact ⟨2, rfl, rfl⟩
    | j + 1 => simp at hj

def noElements : ℕ → Page := fun _ ↦ .array fun _ ↦ 0

/-- The array page is evicted behind its first update, which is committed. -/
def updatedOnce : List BufferedOp :=
  [.call (.update 0 1), .evict 1, .call (.get 0 .write), .evict 1, .call .checkpoint,
    .call (.get 0 .readOnly)]

theorem numPagesOfWAL_one_lt : PagedFile.numPagesOfWAL 1 < 2 ^ 32 := by decide

theorem outputs_updatedOnce : ∃ s, load oneElementFile 0 noElements = .ok s ∧
    outputs perform s updatedOnce =
      [.ok none, .ok none, .ok (some 1), .ok none, .ok none, .ok (some 1)] := by
  obtain ⟨s, hload, houtputs⟩ := outputs_of_meetsAlong layout_oneElementFile (by decide)
    (fun _ ↦ rfl) rfl noElements
  refine ⟨s, hload, houtputs updatedOnce ?_⟩
  obtain rfl := Except.ok.inj hload
  refine ⟨numPagesOfWAL_one_lt, fun s hs ↦ ?_⟩
  obtain rfl := Option.some.inj hs
  refine ⟨fun _ ↦ Or.inl rfl, fun s hs ↦ ?_⟩
  obtain rfl := Option.some.inj hs
  refine ⟨trivial, fun s hs ↦ ?_⟩
  obtain rfl := Option.some.inj hs
  refine ⟨fun _ ↦ Or.inr rfl, fun s hs ↦ ?_⟩
  obtain rfl := Option.some.inj hs
  refine ⟨fun w hw ↦ ?_, fun s hs ↦ ⟨trivial, fun _ _ ↦ trivial⟩⟩
  obtain rfl : w = 1 := List.mem_singleton.mp hw
  exact Or.inr rfl

/-- The array page is evicted behind each of two updates. -/
def updatedTwice : List BufferedOp :=
  [.call (.update 0 1), .evict 1, .call (.update 0 2), .evict 1, .call (.get 0 .write)]

/-- The second update is lost. -/
theorem outputs_updatedTwice_ne : ∃ s, load oneElementFile 0 noElements = .ok s ∧
    outputs perform s updatedTwice ≠ outputs ArrayPair.performBuffered ⟨[5], [5]⟩ updatedTwice := by
  refine ⟨_, rfl, fun hclaim ↦ ?_⟩
  have hcode : [.ok none, .ok none, .ok none, .ok none, .ok (some 1)] =
      outputs ArrayPair.performBuffered ⟨[5], [5]⟩ updatedTwice := hclaim
  cases hcode

end BufferedDiskArray

end Graphflow.Storage
