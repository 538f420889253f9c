import Graphflow.Overflow.Values

/-!
# Reading the strings of a vector

`readStringsToVector` pins a page for each string; `scanSequentialStringOverflow` keeps the page of
the last string pinned and takes it again if the next one is on a page with the same index.  The
index is that in the file or in the WAL, whichever the transaction reads, and the fast path does not
look at which of the two it is.
-/

namespace Graphflow

open Wal Storage Lib

/-- The file handle of a page that is pinned. -/
inductive PinnedFile
  | original
  | wal
  deriving DecidableEq, Repr

/-- A vector of strings.  A position is selected once. -/
structure StringVector where
  /-- The bytes of the `gf_string_t`s. -/
  values : ℕ → List UInt8
  isNull : ℕ → Bool
  selectedPositions : List ℕ
  nodup : selectedPositions.Nodup
  /-- The strings that have been copied to the overflow buffer. -/
  overflow : ℕ → Option (List UInt8) := fun _ ↦ none

namespace StringVector

def len (v : StringVector) (pos : ℕ) : ℕ := ofLittleEndian ((v.values pos).take 4)

def overflowPtr (v : StringVector) (pos : ℕ) : OverflowPtr :=
  decodeOverflowPtr ((v.values pos).drop 8)

/-- `OverflowBufferUtils::copyString` -/
def copyString (v : StringVector) (pos : ℕ) (chars : List UInt8) : StringVector :=
  { v with overflow := Function.update v.overflow pos (some chars) }

@[simp] theorem overflow_copyString_self (v : StringVector) (pos : ℕ) (chars : List UInt8) :
    (v.copyString pos chars).overflow pos = some chars :=
  Function.update_self _ _ _

theorem overflow_copyString_of_ne (v : StringVector) {pos pos' : ℕ} (h : pos' ≠ pos)
    (chars : List UInt8) : (v.copyString pos chars).overflow pos' = v.overflow pos' :=
  Function.update_of_ne h _ _

end StringVector

namespace OverflowFile

def getFileHandleAndPhysicalPageIdxToPin (f : OverflowFile) (isReadTrx : Bool)
    (physicalPageIdx : ℕ) : PinnedFile × ℕ :=
  if isReadTrx then (.original, physicalPageIdx)
  else
    match f.file.fileHandle.pageVersions physicalPageIdx with
    | none => (.original, physicalPageIdx)
    | some pageIdxInWAL => (.wal, pageIdxInWAL)

/-- The frame of a page. -/
def pin (f : OverflowFile) (fileHandle : PinnedFile) (pageIdx : ℕ) : Except Fault BytePage :=
  match fileHandle with
  | .original => if pageIdx < f.numPages then .ok (f.file.pages pageIdx) else .error .invalidAccess
  | .wal => if pageIdx < f.wal.numPages then .ok (f.wal.pages pageIdx) else .error .invalidAccess

/-- A turn of the loop of `readStringsToVector`. -/
def readStringToVectorAt (f : OverflowFile) (isReadOnly : Bool) (v : StringVector) (pos : ℕ) :
    Except Fault StringVector :=
  if v.isNull pos then .ok v
  else if v.len pos ≤ shortStrLength then .ok v
  else do
    let ptr := v.overflowPtr pos
    let (fileHandleToPin, pageIdxToPin) :=
      f.getFileHandleAndPhysicalPageIdxToPin isReadOnly ptr.pageIdx
    let frame ← f.pin fileHandleToPin pageIdxToPin
    let chars ← copyFromFrame frame ptr.pagePos (v.len pos)
    pure (v.copyString pos chars)

def readStringsToVector (f : OverflowFile) (isReadOnly : Bool) (v : StringVector) :
    Except Fault StringVector :=
  v.selectedPositions.foldlM (f.readStringToVectorAt isReadOnly) v

/-- What `scanSequentialStringOverflow` keeps between the turns of its loop. -/
structure CachedFrame where
  fileHandle : PinnedFile
  pageIdx : ℕ
  frame : BytePage

/-- The test for a cache hit. -/
def cacheHit (cached : Option CachedFrame) (pageIdxToPin : ℕ) : Option CachedFrame :=
  match cached with
  | some cached => if pageIdxToPin = cached.pageIdx then some cached else none
  | none => none

/-- A turn of the loop of `scanSequentialStringOverflow`. -/
def scanStringAt (f : OverflowFile) (isReadOnly : Bool) (s : StringVector × Option CachedFrame)
    (pos : ℕ) : Except Fault (StringVector × Option CachedFrame) :=
  if s.1.isNull pos then .ok s
  else if s.1.len pos ≤ shortStrLength then .ok s
  else
    let ptr := s.1.overflowPtr pos
    let (fileHandleToPin, pageIdxToPin) :=
      f.getFileHandleAndPhysicalPageIdxToPin isReadOnly ptr.pageIdx
    match cacheHit s.2 pageIdxToPin with
    | some cached => do
        let chars ← copyFromFrame cached.frame ptr.pagePos (s.1.len pos)
        pure (s.1.copyString pos chars, s.2)
    | none => do
        let frame ← f.pin fileHandleToPin pageIdxToPin
        let chars ← copyFromFrame frame ptr.pagePos (s.1.len pos)
        pure (s.1.copyString pos chars, some ⟨fileHandleToPin, pageIdxToPin, frame⟩)

def scanSequentialStringOverflow (f : OverflowFile) (isReadOnly : Bool) (v : StringVector) :
    Except Fault StringVector :=
  Prod.fst <$> v.selectedPositions.foldlM (f.scanStringAt isReadOnly) (v, none)

/-! ## The pages that are read -/

/-- A string that has to be read from a page. -/
structure Request where
  pos : ℕ
  len : ℕ
  pagePos : ℕ
  fileHandle : PinnedFile
  pageIdx : ℕ
  deriving DecidableEq, Repr

def request (f : OverflowFile) (isReadOnly : Bool) (v : StringVector) (pos : ℕ) : Request :=
  let pinned := f.getFileHandleAndPhysicalPageIdxToPin isReadOnly (v.overflowPtr pos).pageIdx
  ⟨pos, v.len pos, (v.overflowPtr pos).pagePos, pinned.1, pinned.2⟩

/-- A selected position has a string that is not in the vector itself. -/
def NeedsPage (v : StringVector) (pos : ℕ) : Prop :=
  v.isNull pos = false ∧ shortStrLength < v.len pos

instance (v : StringVector) (pos : ℕ) : Decidable (NeedsPage v pos) :=
  inferInstanceAs (Decidable (_ ∧ _))

def requestsAt (f : OverflowFile) (isReadOnly : Bool) (v : StringVector) (positions : List ℕ) :
    List Request :=
  (positions.filter fun pos ↦ NeedsPage v pos).map (f.request isReadOnly v)

def requests (f : OverflowFile) (isReadOnly : Bool) (v : StringVector) : List Request :=
  f.requestsAt isReadOnly v v.selectedPositions

/-- The contents of a page of one of the two files. -/
def contents (f : OverflowFile) (fileHandle : PinnedFile) (pageIdx : ℕ) : BytePage :=
  match fileHandle with
  | .original => f.file.pages pageIdx
  | .wal => f.wal.pages pageIdx

/-- The characters of a string, if they were on the page of another one. -/
def charsOn (f : OverflowFile) (page r : Request) : List UInt8 :=
  readAt (f.contents page.fileHandle page.pageIdx) r.pagePos r.len

/-- The strings of the vector are where they have been written. -/
def Readable (f : OverflowFile) (v : StringVector) : Prop :=
  ∀ pos ∈ v.selectedPositions, NeedsPage v pos → (v.overflowPtr pos).pageIdx < f.numPages ∧
    (v.overflowPtr pos).pagePos + v.len pos ≤ defaultPageSize

/-- `first` begins the run of pages with the same index at the end of `done`. -/
def RunStart (done : List Request) (first : Request) : Prop :=
  ∃ before run, done = before ++ first :: run ∧ (∀ r ∈ run, r.pageIdx = first.pageIdx) ∧
    ∀ r ∈ before.getLast?, r.pageIdx ≠ first.pageIdx

/-- A string on a page with the same index as the pages before it would be the same on the first of
these pages. -/
def Unaliased (f : OverflowFile) (isReadOnly : Bool) (v : StringVector) : Prop :=
  ∀ done r rest first, f.requests isReadOnly v = done ++ r :: rest → RunStart done first →
    r.pageIdx = first.pageIdx → f.charsOn first r = f.charsOn r r

variable {f : OverflowFile} {isReadOnly : Bool} {v : StringVector} {done : List Request}
  {positions : List ℕ} {r first : Request} {pos : ℕ}

/-- The page that is pinned when a string is read: the one before if it has the same index. -/
def pageFor (cached : Option Request) (r : Request) : Request :=
  (cached.filter fun page ↦ page.pageIdx = r.pageIdx).getD r

/-- The page that is pinned in the end. -/
def lastPage (done : List Request) : Option Request :=
  done.foldl (fun cached r ↦ some (pageFor cached r)) none

@[simp] theorem lastPage_concat (done : List Request) (r : Request) :
    lastPage (done ++ [r]) = some (pageFor (lastPage done) r) := by
  rw [lastPage, List.foldl_append]
  rfl

theorem pageFor_of_eq (h : r.pageIdx = first.pageIdx) : pageFor (some first) r = first := by
  rw [pageFor, Option.filter_some, if_pos (decide_eq_true h.symm)]
  rfl

theorem pageFor_of_ne (h : r.pageIdx ≠ first.pageIdx) : pageFor (some first) r = r := by
  rw [pageFor, Option.filter_some, if_neg (by simpa using h.symm)]
  rfl

theorem RunStart.concat_of_eq (h : RunStart done first) (hr : r.pageIdx = first.pageIdx) :
    RunStart (done ++ [r]) first := by
  obtain ⟨before, run, rfl, hrun, hbefore⟩ := h
  refine ⟨before, run ++ [r], by simp, ?_, hbefore⟩
  intro r' hr'
  rcases List.mem_append.mp hr' with hr' | hr'
  · exact hrun r' hr'
  · rw [List.mem_singleton.mp hr', hr]

theorem runStart_concat_self (h : ∀ r' ∈ done.getLast?, r'.pageIdx ≠ r.pageIdx) :
    RunStart (done ++ [r]) r :=
  ⟨done, [], rfl, fun _ hr' ↦ absurd hr' List.not_mem_nil, h⟩

/-- The last page has the index of the last string. -/
theorem RunStart.getLast_pageIdx (h : RunStart done first) :
    ∀ r ∈ done.getLast?, r.pageIdx = first.pageIdx := by
  obtain ⟨before, run, rfl, hrun, -⟩ := h
  intro r hr
  rw [List.getLast?_append_of_ne_nil _ (List.cons_ne_nil _ _)] at hr
  rcases List.mem_cons.mp (List.mem_of_getLast? hr) with rfl | hr
  · rfl
  · exact hrun r hr

/-- The page that is pinned in the end is the first of the last run. -/
theorem lastPage_eq_some_iff : lastPage done = some first ↔ RunStart done first := by
  have hof (done : List Request) : (done = [] ∧ lastPage done = none) ∨
      ∃ first, lastPage done = some first ∧ RunStart done first := by
    induction done using List.reverseRecOn with
    | nil => exact .inl ⟨rfl, rfl⟩
    | append_singleton done r ih =>
        refine .inr ⟨_, lastPage_concat done r, ?_⟩
        rcases ih with ⟨rfl, hnone⟩ | ⟨first, hfirst, hstart⟩
        · rw [hnone]
          exact runStart_concat_self fun _ hr' ↦ by cases hr'
        · rw [hfirst]
          by_cases heq : r.pageIdx = first.pageIdx
          · rw [pageFor_of_eq heq]
            exact hstart.concat_of_eq heq
          · rw [pageFor_of_ne heq]
            refine runStart_concat_self fun r' hr' ↦ ?_
            rw [hstart.getLast_pageIdx r' hr']
            exact Ne.symm heq
  constructor
  · intro h
    rcases hof done with ⟨-, hnone⟩ | ⟨first', hfirst, hstart⟩
    · rw [hnone] at h
      cases h
    · obtain rfl := Option.some.inj (hfirst.symm.trans h)
      exact hstart
  · rintro ⟨before, run, rfl, hrun, hbefore⟩
    -- the first string of the run misses, and the others hit
    induction run using List.reverseRecOn with
    | nil =>
        rw [lastPage_concat]
        rcases hof before with ⟨rfl, hnone⟩ | ⟨last, hlast, hstart⟩
        · rfl
        · rw [hlast]
          have hne : before ≠ [] := by
            rintro rfl
            cases hlast
          have hmem := List.getLast?_eq_some_getLast hne
          have hlastIdx := hstart.getLast_pageIdx _ hmem
          rw [pageFor_of_ne fun heq ↦ hbefore _ hmem (hlastIdx.trans heq.symm)]
    | append_singleton run r ih =>
        have hinit := ih fun r' hr' ↦ hrun r' (List.mem_append_left _ hr')
        rw [← List.cons_append, ← List.append_assoc, lastPage_concat, hinit,
          pageFor_of_eq (hrun r (by simp))]

/-! ## The loops -/

/-- Strings have been copied for some of the positions. -/
structure Copied (f : OverflowFile) (isReadOnly : Bool) (v : StringVector)
    (page : List ℕ → ℕ → Request) (positions : List ℕ) (v' : StringVector) : Prop where
  exists_overflow : ∃ overflow, v' = { v with overflow := overflow }
  frame : ∀ pos, pos ∉ positions ∨ ¬NeedsPage v pos → v'.overflow pos = v.overflow pos
  copied : ∀ before pos after, positions = before ++ pos :: after → NeedsPage v pos →
    v'.overflow pos = some (f.charsOn (page before pos) (f.request isReadOnly v pos))

theorem copied_nil (f : OverflowFile) (isReadOnly : Bool) (v : StringVector)
    (page : List ℕ → ℕ → Request) : Copied f isReadOnly v page [] v where
  exists_overflow := ⟨v.overflow, rfl⟩
  frame _ _ := rfl
  copied before pos after h := by simp at h

variable {page : List ℕ → ℕ → Request} {v' : StringVector}

/-- Where an element stands in a list with one more element. -/
theorem concat_eq_append_cons {before after : List ℕ} {pos' : ℕ}
    (h : positions ++ [pos] = before ++ pos' :: after) :
    (positions = before ∧ pos = pos') ∨ ∃ after', positions = before ++ pos' :: after' := by
  rcases List.eq_nil_or_concat' after with rfl | ⟨after, last, rfl⟩
  · obtain ⟨hinit, hlast⟩ := List.append_inj' h rfl
    exact .inl ⟨hinit, (List.cons.inj hlast).1⟩
  · rw [← List.cons_append, ← List.append_assoc] at h
    exact .inr ⟨after, (List.append_inj' h rfl).1⟩

theorem Copied.of_not_needsPage (h : Copied f isReadOnly v page positions v')
    (hpos : ¬NeedsPage v pos) : Copied f isReadOnly v page (positions ++ [pos]) v' where
  exists_overflow := h.exists_overflow
  frame pos' hpos' := by
    apply h.frame
    rcases hpos' with hpos' | hpos'
    · exact .inl fun hmem ↦ hpos' (List.mem_append_left _ hmem)
    · exact .inr hpos'
  copied before pos' after heq hneeds := by
    rcases concat_eq_append_cons heq with ⟨-, rfl⟩ | ⟨after, heq⟩
    · exact absurd hneeds hpos
    · exact h.copied before pos' after heq hneeds

theorem Copied.of_needsPage (h : Copied f isReadOnly v page positions v')
    (hpos : NeedsPage v pos) (hnotMem : pos ∉ positions) :
    Copied f isReadOnly v page (positions ++ [pos])
      (v'.copyString pos (f.charsOn (page positions pos) (f.request isReadOnly v pos))) where
  exists_overflow := by
    obtain ⟨overflow, rfl⟩ := h.exists_overflow
    exact ⟨_, rfl⟩
  frame pos' hpos' := by
    have hne : pos' ≠ pos := by
      rintro rfl
      rcases hpos' with hpos' | hpos'
      · exact hpos' (by simp)
      · exact hpos' hpos
    rw [StringVector.overflow_copyString_of_ne _ hne]
    apply h.frame
    rcases hpos' with hpos' | hpos'
    · exact .inl fun hmem ↦ hpos' (List.mem_append_left _ hmem)
    · exact .inr hpos'
  copied before pos' after heq hneeds := by
    rcases concat_eq_append_cons heq with ⟨rfl, rfl⟩ | ⟨after, rfl⟩
    · exact StringVector.overflow_copyString_self _ _ _
    · have hne : pos' ≠ pos := by
        rintro rfl
        exact hnotMem (by simp)
      rw [StringVector.overflow_copyString_of_ne _ hne]
      exact h.copied before pos' after rfl hneeds

/-- The frame of a page that a string of the vector is on. -/
theorem pin_request (hf : f.WellFormed) (hpage : (v.overflowPtr pos).pageIdx < f.numPages) :
    f.pin (f.request isReadOnly v pos).fileHandle (f.request isReadOnly v pos).pageIdx =
      .ok (f.contents (f.request isReadOnly v pos).fileHandle
        (f.request isReadOnly v pos).pageIdx) := by
  rw [request, getFileHandleAndPhysicalPageIdxToPin]
  cases isReadOnly with
  | true => simp only [if_true, pin, if_pos hpage, contents]
  | false =>
      cases hversion : f.file.fileHandle.pageVersions (v.overflowPtr pos).pageIdx with
      | none => simp only [Bool.false_eq_true, if_false, pin, if_pos hpage, contents]
      | some w =>
          have hw : w < f.wal.numPages := hf.version_lt _ w hpage hversion
          simp only [Bool.false_eq_true, if_false, pin, if_pos hw, contents]

theorem copyFromFrame_charsOn (page : Request)
    (h : (v.overflowPtr pos).pagePos + v.len pos ≤ defaultPageSize) :
    copyFromFrame (f.contents page.fileHandle page.pageIdx)
      (v.overflowPtr pos).pagePos (v.len pos) =
      .ok (f.charsOn page (f.request isReadOnly v pos)) := by
  rw [copyFromFrame, if_pos h]
  rfl

theorem readStringToVectorAt_eq (hf : f.WellFormed) (hneeds : NeedsPage v pos)
    (hpage : (v.overflowPtr pos).pageIdx < f.numPages)
    (hbytes : (v.overflowPtr pos).pagePos + v.len pos ≤ defaultPageSize) :
    f.readStringToVectorAt isReadOnly v pos = .ok (v.copyString pos
      (f.charsOn (f.request isReadOnly v pos) (f.request isReadOnly v pos))) := by
  have hpin := @pin_request f isReadOnly v pos hf hpage
  have hchars := @copyFromFrame_charsOn f isReadOnly v pos (f.request isReadOnly v pos) hbytes
  rw [readStringToVectorAt, hneeds.1, if_neg Bool.false_ne_true, if_neg hneeds.2.not_ge]
  simp only [request] at hpin hchars ⊢
  rw [hpin, ok_bind, hchars, ok_bind]
  rfl

theorem readStringToVectorAt_of_not_needsPage (hneeds : ¬NeedsPage v pos) :
    f.readStringToVectorAt isReadOnly v pos = .ok v := by
  rw [readStringToVectorAt]
  split_ifs with hnull hlen
  · rfl
  · rfl
  · exact absurd ⟨Bool.eq_false_iff.mpr hnull, not_le.mp hlen⟩ hneeds

/-- A selected position does not occur twice. -/
theorem notMem_of_split {rest : List ℕ} (hsplit : v.selectedPositions = positions ++ pos :: rest) :
    pos ∉ positions := by
  have hnodup := v.nodup
  rw [hsplit] at hnodup
  exact fun h ↦ (List.nodup_append.mp hnodup).2.2 pos h pos List.mem_cons_self rfl

theorem exists_readStringsToVector (hf : f.WellFormed) (hv : Readable f v) :
    ∃ v', f.readStringsToVector isReadOnly v = .ok v' ∧
      Copied f isReadOnly v (fun _ pos ↦ f.request isReadOnly v pos) v.selectedPositions v' := by
  refine exists_foldlM_eq_ok _ (copied_nil f isReadOnly v _) ?_
  intro done pos rest v' hsplit hcopied
  have hmem : pos ∈ v.selectedPositions := by rw [hsplit]; simp
  have hnotMem := notMem_of_split hsplit
  by_cases hneeds : NeedsPage v pos
  · obtain ⟨hpage, hbytes⟩ := hv pos hmem hneeds
    refine ⟨_, ?_, hcopied.of_needsPage hneeds hnotMem⟩
    obtain ⟨overflow, rfl⟩ := hcopied.exists_overflow
    exact readStringToVectorAt_eq hf hneeds hpage hbytes
  · refine ⟨v', ?_, hcopied.of_not_needsPage hneeds⟩
    obtain ⟨overflow, rfl⟩ := hcopied.exists_overflow
    exact readStringToVectorAt_of_not_needsPage hneeds

/-- What the loop keeps of a page. -/
def cachedFrame (f : OverflowFile) (page : Request) : CachedFrame :=
  ⟨page.fileHandle, page.pageIdx, f.contents page.fileHandle page.pageIdx⟩

theorem scanStringAt_eq (hf : f.WellFormed) (hneeds : NeedsPage v pos)
    (hpage : (v.overflowPtr pos).pageIdx < f.numPages)
    (hbytes : (v.overflowPtr pos).pagePos + v.len pos ≤ defaultPageSize)
    (cached : Option Request) : f.scanStringAt isReadOnly (v, cached.map f.cachedFrame) pos = .ok
      (v.copyString pos (f.charsOn (pageFor cached (f.request isReadOnly v pos))
          (f.request isReadOnly v pos)),
        some (f.cachedFrame (pageFor cached (f.request isReadOnly v pos)))) := by
  have hpin := @pin_request f isReadOnly v pos hf hpage
  have hchars := @copyFromFrame_charsOn f isReadOnly v pos
    (pageFor cached (f.request isReadOnly v pos)) hbytes
  have hmiss (h : pageFor cached (f.request isReadOnly v pos) = f.request isReadOnly v pos)
      (hnone : cacheHit (cached.map f.cachedFrame) (f.request isReadOnly v pos).pageIdx = none) :
      f.scanStringAt isReadOnly (v, cached.map f.cachedFrame) pos = .ok
        (v.copyString pos (f.charsOn (f.request isReadOnly v pos) (f.request isReadOnly v pos)),
          some (f.cachedFrame (f.request isReadOnly v pos))) := by
    rw [h] at hchars
    rw [scanStringAt, if_neg (by rw [hneeds.1]; exact Bool.false_ne_true), if_neg hneeds.2.not_ge]
    simp only [request] at hpin hchars hnone ⊢
    rw [hnone]
    simp only [hpin, ok_bind, hchars]
    rfl
  cases cached with
  | none => exact hmiss rfl rfl
  | some page =>
      by_cases heq : (f.request isReadOnly v pos).pageIdx = page.pageIdx
      · rw [pageFor_of_eq heq] at hchars ⊢
        have hhit : cacheHit ((some page).map f.cachedFrame)
            (f.request isReadOnly v pos).pageIdx = some (f.cachedFrame page) := if_pos heq
        rw [scanStringAt, if_neg (by rw [hneeds.1]; exact Bool.false_ne_true),
          if_neg hneeds.2.not_ge]
        simp only [request] at hhit hchars ⊢
        rw [hhit]
        simp only [cachedFrame, hchars, ok_bind]
        rfl
      · rw [pageFor_of_ne heq]
        exact hmiss (pageFor_of_ne heq) (if_neg heq)

theorem scanStringAt_of_not_needsPage (hneeds : ¬NeedsPage v pos) (cached : Option CachedFrame) :
    f.scanStringAt isReadOnly (v, cached) pos = .ok (v, cached) := by
  rw [scanStringAt]
  split_ifs with hnull hlen
  · rfl
  · rfl
  · exact absurd ⟨Bool.eq_false_iff.mpr hnull, not_le.mp hlen⟩ hneeds

/-- The page that is pinned when a string behind some positions is read. -/
def scanPage (f : OverflowFile) (isReadOnly : Bool) (v : StringVector) (before : List ℕ) (pos : ℕ) :
    Request :=
  pageFor (lastPage (f.requestsAt isReadOnly v before)) (f.request isReadOnly v pos)

theorem lastPage_requestsAt_concat (hneeds : NeedsPage v pos) :
    lastPage (f.requestsAt isReadOnly v (positions ++ [pos])) =
      some (f.scanPage isReadOnly v positions pos) := by
  have hlast : f.requestsAt isReadOnly v (positions ++ [pos]) =
      f.requestsAt isReadOnly v positions ++ [f.request isReadOnly v pos] := by
    rw [requestsAt, List.filter_append, List.filter_singleton, decide_eq_true hneeds,
      List.map_append]
    rfl
  rw [hlast, lastPage_concat]
  rfl

theorem requestsAt_concat_of_not (hneeds : ¬NeedsPage v pos) :
    f.requestsAt isReadOnly v (positions ++ [pos]) = f.requestsAt isReadOnly v positions := by
  rw [requestsAt, List.filter_append, List.filter_singleton, decide_eq_false hneeds]
  simp [requestsAt]

theorem exists_scanSequentialStringOverflow (hf : f.WellFormed) (hv : Readable f v) :
    ∃ v', f.scanSequentialStringOverflow isReadOnly v = .ok v' ∧
      Copied f isReadOnly v (f.scanPage isReadOnly v) v.selectedPositions v' := by
  have hloop : ∃ s, v.selectedPositions.foldlM (f.scanStringAt isReadOnly) (v, none) = .ok s ∧
      Copied f isReadOnly v (f.scanPage isReadOnly v) v.selectedPositions s.1 ∧
      s.2 = (lastPage (f.requestsAt isReadOnly v v.selectedPositions)).map f.cachedFrame := by
    refine exists_foldlM_eq_ok (fun done (s : StringVector × Option CachedFrame) ↦
      Copied f isReadOnly v (f.scanPage isReadOnly v) done s.1 ∧
        s.2 = (lastPage (f.requestsAt isReadOnly v done)).map f.cachedFrame)
      ⟨copied_nil f isReadOnly v _, rfl⟩ ?_
    rintro done pos rest ⟨v', cached⟩ hsplit ⟨hcopied, hcached⟩
    have hmem : pos ∈ v.selectedPositions := by
      rw [hsplit]
      exact List.mem_append_right _ List.mem_cons_self
    simp only at hcopied hcached
    subst hcached
    by_cases hneeds : NeedsPage v pos
    · obtain ⟨hpage, hbytes⟩ := hv pos hmem hneeds
      have hcopied' := hcopied.of_needsPage hneeds (notMem_of_split hsplit)
      obtain ⟨overflow, rfl⟩ := hcopied.exists_overflow
      refine ⟨(_, some (f.cachedFrame (f.scanPage isReadOnly v done pos))), ?_, hcopied', ?_⟩
      · exact @scanStringAt_eq f isReadOnly { v with overflow := overflow } pos hf hneeds hpage
          hbytes _
      rw [lastPage_requestsAt_concat hneeds]
      rfl
    · have hcopied' := hcopied.of_not_needsPage hneeds
      obtain ⟨overflow, rfl⟩ := hcopied.exists_overflow
      refine ⟨(_, (lastPage (f.requestsAt isReadOnly v done)).map f.cachedFrame), ?_, hcopied', ?_⟩
      · exact @scanStringAt_of_not_needsPage f isReadOnly { v with overflow := overflow } pos
          hneeds _
      rw [requestsAt_concat_of_not hneeds]
  obtain ⟨s, hs, hcopied, -⟩ := hloop
  refine ⟨s.1, ?_, hcopied⟩
  rw [scanSequentialStringOverflow, hs]
  rfl

/-! ## Where the two agree -/

/-- A request stands in the list for a position that is selected. -/
theorem exists_of_requests_eq {rest : List Request}
    (h : f.requests isReadOnly v = done ++ r :: rest) : ∃ before pos after,
      v.selectedPositions = before ++ pos :: after ∧ NeedsPage v pos ∧
        f.requestsAt isReadOnly v before = done ∧ f.request isReadOnly v pos = r := by
  rw [requests, requestsAt, List.map_eq_append_iff] at h
  obtain ⟨front, back, hfilter, hfront, hback⟩ := h
  rw [List.map_eq_cons_iff] at hback
  obtain ⟨pos, back, rfl, hpos, -⟩ := hback
  rw [List.filter_eq_append_iff] at hfilter
  obtain ⟨before, after, hsplit, hbefore, hafter⟩ := hfilter
  rw [List.filter_eq_cons_iff] at hafter
  obtain ⟨skipped, after, rfl, hskipped, hneeds, -⟩ := hafter
  refine ⟨before ++ skipped, pos, after, by rw [hsplit, List.append_assoc],
    of_decide_eq_true hneeds, ?_, hpos⟩
  have hnone : skipped.filter (fun pos ↦ NeedsPage v pos) = [] := by
    rw [List.filter_eq_nil_iff]
    exact hskipped
  rw [requestsAt, List.filter_append, hnone, List.append_nil, hbefore, hfront]

theorem requests_eq_of_split {before after : List ℕ} {pos : ℕ}
    (hsplit : v.selectedPositions = before ++ pos :: after) (hneeds : NeedsPage v pos) :
    ∃ rest, f.requests isReadOnly v =
      f.requestsAt isReadOnly v before ++ f.request isReadOnly v pos :: rest := by
  refine ⟨f.requestsAt isReadOnly v after, ?_⟩
  have hcons : (pos :: after).filter (fun pos ↦ NeedsPage v pos) =
      pos :: after.filter (fun pos ↦ NeedsPage v pos) :=
    List.filter_cons_of_pos (decide_eq_true hneeds)
  rw [requests, requestsAt, hsplit, List.filter_append, List.map_append, hcons]
  rfl

/-- No page of another file is taken for that of a string, as far as the strings show. -/
theorem unaliased_iff : Unaliased f isReadOnly v ↔ ∀ before pos after,
    v.selectedPositions = before ++ pos :: after → NeedsPage v pos →
      f.charsOn (f.scanPage isReadOnly v before pos) (f.request isReadOnly v pos) =
        f.charsOn (f.request isReadOnly v pos) (f.request isReadOnly v pos) := by
  constructor
  · intro h before pos after hsplit hneeds
    obtain ⟨rest, hrequests⟩ := @requests_eq_of_split f isReadOnly v _ _ _ hsplit hneeds
    rw [scanPage]
    cases hlast : lastPage (f.requestsAt isReadOnly v before) with
    | none => rfl
    | some first =>
        by_cases heq : (f.request isReadOnly v pos).pageIdx = first.pageIdx
        · rw [pageFor_of_eq heq]
          exact h _ _ _ _ hrequests (lastPage_eq_some_iff.mp hlast) heq
        · rw [pageFor_of_ne heq]
  · intro h done r rest first hrequests hstart heq
    obtain ⟨before, pos, after, hsplit, hneeds, rfl, rfl⟩ := exists_of_requests_eq hrequests
    have hchars := h before pos after hsplit hneeds
    rwa [scanPage, lastPage_eq_some_iff.mpr hstart, pageFor_of_eq heq] at hchars

/-- The sequential scan reads the same strings if no page is taken for one of the other file with
other characters, and only then. -/
theorem scanSequentialStringOverflow_eq_iff (hf : f.WellFormed) (hv : Readable f v) :
    f.scanSequentialStringOverflow isReadOnly v = f.readStringsToVector isReadOnly v ↔
      Unaliased f isReadOnly v := by
  obtain ⟨v₁, hread, hcopied₁⟩ := @exists_readStringsToVector f isReadOnly v hf hv
  obtain ⟨v₂, hscan, hcopied₂⟩ := @exists_scanSequentialStringOverflow f isReadOnly v hf hv
  rw [hread, hscan, Except.ok.injEq, unaliased_iff]
  constructor
  · rintro rfl before pos after hsplit hneeds
    have hchars₁ := hcopied₁.copied before pos after hsplit hneeds
    have hchars₂ := hcopied₂.copied before pos after hsplit hneeds
    exact Option.some.inj (hchars₂.symm.trans hchars₁)
  · intro h
    have hoverflow : v₂.overflow = v₁.overflow := by
      funext pos
      by_cases hpos : pos ∈ v.selectedPositions ∧ NeedsPage v pos
      · obtain ⟨before, after, hsplit⟩ := List.append_of_mem hpos.1
        rw [hcopied₁.copied before pos after hsplit hpos.2,
          hcopied₂.copied before pos after hsplit hpos.2, h before pos after hsplit hpos.2]
      · have hframe : pos ∉ v.selectedPositions ∨ ¬NeedsPage v pos := not_and_or.mp hpos
        rw [hcopied₁.frame pos hframe, hcopied₂.frame pos hframe]
    obtain ⟨overflow₁, rfl⟩ := hcopied₁.exists_overflow
    obtain ⟨overflow₂, rfl⟩ := hcopied₂.exists_overflow
    simp only at hoverflow
    rw [hoverflow]

/-- The pages of the file are filled with `a` and `b`, and the version of the first one, with `c`,
is on the page of the WAL that has the index of the second. -/
def updatedFirstPage : OverflowFile where
  id := ⟨.structuredNodePropertyColumn 0 0, true⟩
  file := ⟨⟨2, fun p ↦ if p = 0 then some 1 else none⟩, fun p _ ↦ if p = 0 then 97 else 98⟩
  wal := { numPages := 2, pages := fun _ _ ↦ 99 }
  position := { nextBytePosToWriteTo := 8192 }
  junk := fun _ _ ↦ 0

theorem wellFormed_updatedFirstPage : updatedFirstPage.WellFormed where
  version_lt := by
    intro p w hp hw
    simp only [version, updatedFirstPage] at hp hw
    split_ifs at hw
    obtain rfl := Option.some.inj hw
    decide
  version_inj := by
    intro p q w hp hq hpw hqw
    simp only [version, updatedFirstPage] at hpw hqw
    split_ifs at hpw hqw with hp0 hq0
    rw [hp0, hq0]
  cursor := Nat.le_refl 8192

/-- A string of 13 characters on the second page is read before one on the first page. -/
def secondPageFirst : StringVector where
  values pos := littleEndian 4 13 ++ littleEndian 4 0 ++ littleEndian 4 (1 - pos) ++
    littleEndian 4 0
  isNull _ := false
  selectedPositions := [0, 1]
  nodup := by decide

theorem readable_secondPageFirst : Readable updatedFirstPage secondPageFirst := by
  have hpages : ∀ pos ∈ [0, 1], (secondPageFirst.overflowPtr pos).pageIdx < 2 ∧
      (secondPageFirst.overflowPtr pos).pagePos + secondPageFirst.len pos ≤ defaultPageSize := by
    decide +kernel
  exact fun pos hpos _ ↦ hpages pos hpos

/-- The string on the first page comes from the second one. -/
theorem scanSequentialStringOverflow_ne : ¬ ∀ (f : OverflowFile) (isReadOnly : Bool)
    (v : StringVector), f.WellFormed → Readable f v →
      f.scanSequentialStringOverflow isReadOnly v = f.readStringsToVector isReadOnly v := by
  intro h
  have heq := h updatedFirstPage false secondPageFirst wellFormed_updatedFirstPage
    readable_secondPageFirst
  have hscan : (updatedFirstPage.scanSequentialStringOverflow false secondPageFirst).map
      (·.overflow 1) = .ok (some (List.replicate 13 98)) := rfl
  have hread : (updatedFirstPage.readStringsToVector false secondPageFirst).map
      (·.overflow 1) = .ok (some (List.replicate 13 99)) := rfl
  rw [heq, hread] at hscan
  exact absurd hscan (by decide)

theorem scanSequentialStringOverflow_eq_readOnly :
    updatedFirstPage.scanSequentialStringOverflow true secondPageFirst =
      updatedFirstPage.readStringsToVector true secondPageFirst ↔
    Unaliased updatedFirstPage true secondPageFirst :=
  scanSequentialStringOverflow_eq_iff wellFormed_updatedFirstPage readable_secondPageFirst

end OverflowFile

end Graphflow
