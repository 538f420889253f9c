import Graphflow.Storage.BufferPoolRefinement

/-!
# Calls of one client

Each call of a client that keeps to its ledger leaves a pool that agrees with the new ledger, or
fails because every frame is pinned.  The run lemma follows.
-/

namespace Graphflow.Storage

open Lib

namespace BufferPool

section Calls

variable {H Page : Type} [DecidableEq H] {s s' t : BufferPool H Page} {l l' : Ledger H Page}
  {p q : PageID H} {f : ℕ} {frame : Frame H Page}

/-- What a call leaves behind. -/
structure Follows (s : BufferPool H Page) (l' : Ledger H Page) (s' : BufferPool H Page) :
    Prop where
  idle : s'.Idle
  agrees : Agrees s' l'
  numFrames_eq : s'.numFrames = s.numFrames
  numPages_eq : s'.numPages = s.numPages
  keeps : ∀ q g, s.pageIdxToFrameMap q = some g → 0 < s.pins q → s'.pageIdxToFrameMap q = some g

theorem Refilled.follows (h : Agrees s l) (hrefilled : Refilled s f frame s') (hidle : s'.Idle)
    (hcontents : ∀ q, l'.contents q =
      if frame.page = some q then frame.buffer
      else if (s.bufferCache f).page = some q then s'.files q
      else l.contents q)
    (hpins : ∀ q, l'.pins q = if frame.page = some q then frame.pinCount else l.pins q) :
    Follows s l' s' :=
  ⟨hidle, hrefilled.agrees h hcontents hpins, hrefilled.numFrames_eq, hrefilled.numPages_eq,
    fun _ _ hmap hpinned ↦ hrefilled.keeps h.consistent hmap hpinned⟩

/-! ## Locking and releasing -/

theorem releasePageLock_setPageLock (hfree : s.pageLocks p = false) :
    (s.setPageLock p true).releasePageLock p = s := by
  have hlocks : Function.update (Function.update s.pageLocks p true) p false = s.pageLocks := by
    rw [Function.update_idem, ← hfree, Function.update_eq_self]
  change { s with pageLocks := Function.update (Function.update s.pageLocks p true) p false } = s
  rw [hlocks]

omit [DecidableEq H] in
theorem setFrame_self : s.setFrame f (s.bufferCache f) = s := by
  rw [setFrame, Function.update_eq_self]

/-- The client writes to a page that it has pinned. -/
theorem setPinnedPageDirty_writeBuffer (hidle : s.Idle)
    (hexists : p.pageIdx < s.numPages p.fileHandle) (hmap : s.pageIdxToFrameMap p = some f)
    (hpinned : 0 < (s.bufferCache f).pinCount) (page : Page) :
    (s.writeBuffer f page).setPinnedPageDirty p =
      .ok (s.setFrame f { s.bufferCache f with buffer := page, isDirty := true }) := by
  have hidle' : (s.writeBuffer f page).Idle := hidle
  have hcache : (s.writeBuffer f page).bufferCache f = { s.bufferCache f with buffer := page } :=
    Function.update_self _ _ _
  have hmap' : ((s.writeBuffer f page).setPageLock p true).pageIdxToFrameMap p = some f := hmap
  have hcache' : ((s.writeBuffer f page).setPageLock p true).bufferCache f =
      { s.bufferCache f with buffer := page } := hcache
  rw [setPinnedPageDirty, acquirePageLock_eq_ok hidle' hexists, ok_bind]
  simp only [hmap', hcache']
  rw [if_neg (Nat.not_lt.mpr hpinned)]
  apply congrArg
  have hset : (s.writeBuffer f page).setFrame f
      { s.bufferCache f with buffer := page, isDirty := true } =
      s.setFrame f { s.bufferCache f with buffer := page, isDirty := true } := by
    rw [writeBuffer, setFrame, setFrame, setFrame, Function.update_idem]
  rw [← hset]
  exact @releasePageLock_setPageLock H Page _ ((s.writeBuffer f page).setFrame f _) p (hidle p)

/-! ## Pinning -/

/-- A page that has been pinned: its frame may be filled before anything else happens. -/
structure Pinned (s : BufferPool H Page) (l : Ledger H Page) (p : PageID H)
    (doNotReadFromFile : Bool) (s' : BufferPool H Page) (f : ℕ) : Prop where
  idle : s'.Idle
  numPages_eq : s'.numPages = s.numPages
  map : s'.pageIdxToFrameMap p = some f
  page_eq : (s'.bufferCache f).page = some p
  pinCount_eq : (s'.bufferCache f).pinCount = l.pins p + 1
  buffer_eq : doNotReadFromFile = false → (s'.bufferCache f).buffer = l.contents p
  clean : doNotReadFromFile = false → (s'.bufferCache f).isDirty = false →
    (s'.bufferCache f).buffer = s'.files p
  written : ∀ q, q ≠ p → (s.bufferCache f).page = some q → s'.files q = l.contents q
  refilled : ∀ frame : Frame H Page, frame.page = some p → frame.pinCount = l.pins p + 1 →
    (frame.isDirty = false → frame.buffer = s'.files p) →
    Refilled s f frame (s'.setFrame f frame)

theorem pinPage_of_resident (hidle : s.Idle) (h : Agrees s l)
    (hexists : p.pageIdx < s.numPages p.fileHandle) (hfits : l.pins p + 1 < emptyPinCount)
    (hmap : s.pageIdxToFrameMap p = some f) (doNotReadFromFile : Bool) :
    ∃ s', s.pinPage p doNotReadFromFile = .ok (s', f) ∧
      Pinned s l p doNotReadFromFile s' f := by
  obtain ⟨hlt, hpage⟩ := h.consistent.resident p f hmap
  have hcount : (s.bufferCache f).pinCount = l.pins p := by
    rw [← h.pins_eq p, pins_of_resident hmap]
  have hwrap : (l.pins p + 1) % 2 ^ 32 = l.pins p + 1 := by
    apply Nat.mod_eq_of_lt
    rw [emptyPinCount] at hfits
    omega
  have hbuffer : (s.bufferCache f).buffer = l.contents p := by
    rw [← h.contents_eq p, contents_of_resident hmap]
  let pinnedFrame : Frame H Page :=
    { s.bufferCache f with pinCount := l.pins p + 1, recentlyAccessed := true }
  have hpin : s.pinPage p doNotReadFromFile = .ok (s.setFrame f pinnedFrame, f) := by
    have hmap' : (s.setPageLock p true).pageIdxToFrameMap p = some f := hmap
    have hcount' : ((s.setPageLock p true).bufferCache f).pinCount = l.pins p := hcount
    rw [pinPage, acquirePageLock_eq_ok hidle hexists, ok_bind, pinWithoutAcquiringPageLock]
    simp only [hmap', hcount', hwrap, ok_bind]
    have hget : ((s.setPageLock p true).setFrame f pinnedFrame).getFrameIdx p = .ok f := by
      rw [getFrameIdx]
      simp only [setFrame, hmap']
    have hrelease : ((s.setPageLock p true).setFrame f pinnedFrame).releasePageLock p =
        s.setFrame f pinnedFrame :=
      @releasePageLock_setPageLock H Page _ (s.setFrame f pinnedFrame) p (hidle p)
    change (do return (((s.setPageLock p true).setFrame f pinnedFrame).releasePageLock p,
      ← ((s.setPageLock p true).setFrame f pinnedFrame).getFrameIdx p)) = _
    rw [hget, hrelease]
    rfl
  have hat : (s.setFrame f pinnedFrame).bufferCache f = pinnedFrame := Function.update_self _ _ _
  refine ⟨_, hpin, hidle, rfl, hmap, ?_, ?_, fun _ ↦ ?_, fun _ ↦ ?_, fun q hne hq ↦ ?_,
    fun frame hp hc hclean ↦ ?_⟩
  · rw [hat]
    exact hpage
  · rw [hat]
  · rw [hat]
    exact hbuffer
  · rw [hat]
    exact h.consistent.clean f hlt p hpage
  · exact absurd (Option.some.inj (hq.symm.trans hpage)) hne
  · have hset : (s.setFrame f pinnedFrame).setFrame f frame = s.setFrame f frame := by
      rw [setFrame, setFrame, setFrame, Function.update_idem]
    rw [hset]
    exact refilled_setFrame h.consistent hmap s.files (fun _ _ ↦ rfl) hp (hc ▸ hfits) hclean

/-- Locks do not matter for the frames. -/
theorem Refilled.of_setPageLock {held : Bool} (h : Refilled (s.setPageLock p held) f frame s') :
    Refilled s f frame s' :=
  ⟨h.numFrames_eq, h.numPages_eq, h.frame_lt, h.frame_eq, h.others, h.map, h.files, h.new,
    h.unpinned, h.empty_iff, h.pinCount_le, h.clean⟩

theorem Refilled.releasePageLock (h : Refilled s f frame s') (p : PageID H) :
    Refilled s f frame (s'.releasePageLock p) :=
  ⟨h.numFrames_eq, h.numPages_eq, h.frame_lt, h.frame_eq, h.others, h.map, h.files, h.new,
    h.unpinned, h.empty_iff, h.pinCount_le, h.clean⟩

theorem pinPage_of_missing (hidle : s.Idle) (h : Agrees s l) (hsize : s.numFrames < 2 ^ 31)
    (hexists : p.pageIdx < s.numPages p.fileHandle) (hmap : s.pageIdxToFrameMap p = none)
    (doNotReadFromFile : Bool) :
    (∃ s' f, s.pinPage p doNotReadFromFile = .ok (s', f) ∧
      Pinned s l p doNotReadFromFile s' f) ∨
    s.AllPinned ∧ ∃ e, s.pinPage p doNotReadFromFile = .error e := by
  have hlocked := h.setPageLock p true
  have hmap' : (s.setPageLock p true).pageIdxToFrameMap p = none := hmap
  have hcount : l.pins p = 0 := by rw [← h.pins_eq p, pins_of_missing hmap]
  have hfile : s.files p = l.contents p := by rw [← h.contents_eq p, contents_of_missing hmap]
  rw [pinPage, acquirePageLock_eq_ok hidle hexists, ok_bind, pinWithoutAcquiringPageLock]
  simp only [hmap']
  rcases claimAFrame_cases hlocked.consistent hsize (hidle.setPageLock p) hmap' doNotReadFromFile
    with ⟨s₁, f, hclaim, hclaimed⟩ | ⟨hall, e, herror⟩
  · refine Or.inl ⟨(s₁.swizzle p (some f)).releasePageLock p, f, ?_, ?_⟩
    · have hget : (s₁.swizzle p (some f)).getFrameIdx p = .ok f := by
        have hat : (s₁.swizzle p (some f)).pageIdxToFrameMap p = some f :=
          Function.update_self _ _ _
        rw [getFrameIdx]
        simp only [hat]
      rw [hclaim, ok_bind]
      simp only [pure_eq_ok, ok_bind, hget]
    · have hlocks : ∀ q, q ≠ p → (s₁.swizzle p (some f)).pageLocks q = false := by
        intro q hne
        change s₁.pageLocks q = false
        rw [hclaimed.pageLocks_eq]
        exact hidle.setPageLock p q hne
      have hat : ((s₁.swizzle p (some f)).releasePageLock p).bufferCache f =
          ⟨some p, 1, true, false,
            if doNotReadFromFile then (s.bufferCache f).buffer else s₁.files p⟩ := hclaimed.frame
      have hnew : (s.bufferCache f).page ≠ some p := by
        intro hpage
        have hmapped := h.consistent.mapped f hclaimed.frame_lt p hpage
        rw [hmap] at hmapped
        cases hmapped
      have hfiles : s₁.files p = s.files p := (hclaimed.files p).trans (if_neg fun h ↦ hnew h.1)
      refine ⟨idle_releasePageLock hlocks, hclaimed.numPages_eq, Function.update_self _ _ _, ?_, ?_,
        fun hread ↦ ?_, fun hread _ ↦ ?_, fun q _ hq ↦ ?_, fun frame hp hc hclean ↦ ?_⟩
      · rw [hat]
      · rw [hat, hcount]
      · rw [hat, hread, ← hfile, ← hfiles]
        rfl
      · rw [hat, hread]
        rfl
      · have hmapped := h.consistent.mapped f hclaimed.frame_lt q hq
        have hfile := hclaimed.files q
        rw [← h.contents_eq q, contents_of_resident hmapped]
        cases hdirty : (s.bufferCache f).isDirty with
        | true => exact hfile.trans (if_pos ⟨hq, hdirty⟩)
        | false =>
            rw [h.consistent.clean f hclaimed.frame_lt q hq hdirty]
            refine hfile.trans (if_neg fun hboth ↦ ?_)
            rw [show ((s.setPageLock p true).bufferCache f).isDirty = false from hdirty] at hboth
            cases hboth.2
      · have hlt : frame.pinCount < emptyPinCount := by
          rw [hc, hcount]
          decide
        have hrefilled := hclaimed.refilled hlocked.consistent hmap' hexists hp hlt hclean
        exact hrefilled.of_setPageLock.releasePageLock p
  · rw [herror]
    exact Or.inr ⟨hall, e, rfl⟩

theorem pinPage_cases (hidle : s.Idle) (h : Agrees s l) (hsize : s.numFrames < 2 ^ 31)
    (hexists : p.pageIdx < s.numPages p.fileHandle) (hfits : l.pins p + 1 < emptyPinCount)
    (doNotReadFromFile : Bool) :
    (∃ s' f, s.pinPage p doNotReadFromFile = .ok (s', f) ∧
      Pinned s l p doNotReadFromFile s' f) ∨
    s.AllPinned ∧ ∃ e, s.pinPage p doNotReadFromFile = .error e := by
  cases hmap : s.pageIdxToFrameMap p with
  | none => exact pinPage_of_missing hidle h hsize hexists hmap doNotReadFromFile
  | some f =>
      obtain ⟨s', hpin, hpinned⟩ :=
        pinPage_of_resident hidle h hexists hfits hmap doNotReadFromFile
      exact Or.inl ⟨s', f, hpin, hpinned⟩

/-- The ledger after a pin, with the contents that the frame has got. -/
theorem Pinned.follows {doNotReadFromFile : Bool} (h : Agrees s l)
    (hpinned : Pinned s l p doNotReadFromFile s' f) (hpage : frame.page = some p)
    (hcount : frame.pinCount = l.pins p + 1)
    (hclean : frame.isDirty = false → frame.buffer = s'.files p) :
    Follows s ((l.setPins p (l.pins p + 1)).setContents p frame.buffer) (s'.setFrame f frame) := by
  have hrefilled := hpinned.refilled frame hpage hcount hclean
  refine hrefilled.follows h hpinned.idle (fun q ↦ ?_) fun q ↦ ?_
  · change Function.update l.contents p frame.buffer q = _
    rw [hpage]
    by_cases heq : q = p
    · rw [heq, Function.update_self, if_pos rfl]
    · rw [Function.update_of_ne heq, if_neg fun h ↦ heq (Option.some.inj h).symm]
      split_ifs with hold
      · exact (hpinned.written q heq hold).symm
      · rfl
  · change Function.update l.pins p (l.pins p + 1) q = _
    rw [hpage, hcount]
    by_cases heq : q = p
    · rw [heq, Function.update_self, if_pos rfl]
    · rw [Function.update_of_ne heq, if_neg fun h ↦ heq (Option.some.inj h).symm]

/-! ## The other calls -/

/-- A resident page gets another pin count or other contents. -/
theorem follows_setFrame (hidle : s.Idle) (h : Agrees s l) (hmap : s.pageIdxToFrameMap p = some f)
    (files : PageID H → Page) (hfiles : ∀ q, q ≠ p → files q = s.files q)
    (hpage : frame.page = some p) (hcount : frame.pinCount < emptyPinCount)
    (hclean : frame.isDirty = false → frame.buffer = files p) :
    Follows s ((l.setPins p frame.pinCount).setContents p frame.buffer)
      ({ s with files := files }.setFrame f frame) := by
  have hold := (h.consistent.resident p f hmap).2
  refine (refilled_setFrame h.consistent hmap files hfiles hpage hcount hclean).follows h hidle
    (fun q ↦ ?_) fun q ↦ ?_
  · change Function.update l.contents p frame.buffer q = _
    rw [hpage, hold]
    by_cases heq : q = p
    · rw [heq, Function.update_self, if_pos rfl]
    · have hne : some p ≠ some q := fun h ↦ heq (Option.some.inj h).symm
      rw [Function.update_of_ne heq, if_neg hne, if_neg hne]
  · change Function.update l.pins p frame.pinCount q = _
    rw [hpage]
    by_cases heq : q = p
    · rw [heq, Function.update_self, if_pos rfl]
    · rw [Function.update_of_ne heq, if_neg fun h ↦ heq (Option.some.inj h).symm]

/-- A page leaves its frame, and what the file holds is left. -/
theorem follows_clearFrame (hidle : s.Idle) (h : Agrees s l)
    (hmap : s.pageIdxToFrameMap p = some f) (files : PageID H → Page)
    (hfiles : ∀ q, q ≠ p → files q = s.files q) (hzero : l.pins p = 0) :
    Follows s (l.setContents p (files p))
      ({ s with files := files }.clearFrameAndUnswizzleWithoutLock f p) := by
  have hold := (h.consistent.resident p f hmap).2
  have hnone : (s.bufferCache f).resetFrameWithoutLock.page = none := rfl
  rw [← h.pins_eq p] at hzero
  refine (refilled_clearFrame h.consistent hmap files hfiles hzero).follows h hidle
    (fun q ↦ ?_) fun q ↦ ?_
  · change Function.update l.contents p (files p) q = _
    rw [hnone, hold, if_neg (Option.some_ne_none q).symm]
    by_cases heq : q = p
    · rw [heq, Function.update_self, if_pos rfl]
      rfl
    · rw [Function.update_of_ne heq, if_neg fun h ↦ heq (Option.some.inj h).symm]
  · rw [hnone, if_neg (Option.some_ne_none q).symm]
    rfl

/-- A page in no frame changes in its file. -/
theorem follows_writePage (hidle : s.Idle) (h : Agrees s l) (hmap : s.pageIdxToFrameMap p = none)
    (page : Page) : Follows s (l.setContents p page) (s.writePage p page) := by
  refine ⟨hidle, ⟨⟨h.consistent.resident, h.consistent.mapped, h.consistent.empty_iff,
    h.consistent.pinCount_le, h.consistent.exists_page, fun g hg q hq hdirty ↦ ?_⟩, fun q ↦ ?_,
    h.pins_eq⟩, rfl, rfl, fun _ _ hq _ ↦ hq⟩
  · change _ = Function.update s.files p page q
    have hne : q ≠ p := by
      rintro rfl
      rw [h.consistent.mapped g hg q hq] at hmap
      cases hmap
    rw [Function.update_of_ne hne]
    exact h.consistent.clean g hg q hq hdirty
  · change _ = Function.update l.contents p page q
    by_cases heq : q = p
    · rw [heq, Function.update_self, contents_of_missing (s := s.writePage p page) hmap]
      exact Function.update_self _ _ _
    · rw [Function.update_of_ne heq, ← h.contents_eq q]
      cases hq : s.pageIdxToFrameMap q with
      | none =>
          rw [contents_of_missing hq, contents_of_missing (s := s.writePage p page) hq]
          exact Function.update_of_ne heq _ _
      | some g =>
          rw [contents_of_resident hq, contents_of_resident (s := s.writePage p page) hq]
          rfl

/-- What a call of a client comes to. -/
def Settles (s : BufferPool H Page) (l' : Ledger H Page)
    (result : Except PoolFault (BufferPool H Page)) : Prop :=
  ∃ s', result = .ok s' ∧ Follows s l' s'

theorem settles_write (hidle : s.Idle) (h : Agrees s l) (hpinned : 0 < l.pins p) (page : Page) :
    Settles s (l.setContents p page) (do
      let frameIdx ← s.getFrameIdx p
      (s.writeBuffer frameIdx page).setPinnedPageDirty p) := by
  cases hmap : s.pageIdxToFrameMap p with
  | none =>
      rw [← h.pins_eq p, pins_of_missing hmap] at hpinned
      exact absurd hpinned (Nat.not_lt_zero 0)
  | some f =>
      obtain ⟨hlt, hpage⟩ := h.consistent.resident p f hmap
      have hcount : (s.bufferCache f).pinCount = l.pins p := by
        rw [← h.pins_eq p, pins_of_resident hmap]
      have hfull : (s.bufferCache f).pinCount < emptyPinCount := by
        refine lt_of_le_of_ne (h.consistent.pinCount_le f hlt) fun hempty ↦ ?_
        rw [(h.consistent.empty_iff f hlt).mpr hempty] at hpage
        cases hpage
      have hget : s.getFrameIdx p = .ok f := by
        rw [getFrameIdx, hmap]
      have hfollows := @follows_setFrame H Page _ s l p f
        { s.bufferCache f with buffer := page, isDirty := true } hidle h hmap s.files
        (fun _ _ ↦ rfl) hpage hfull nofun
      have hpins : l.setPins p (s.bufferCache f).pinCount = l := by
        rw [hcount, Ledger.setPins, Function.update_eq_self]
      rw [hpins] at hfollows
      refine ⟨_, ?_, hfollows⟩
      rw [hget, ok_bind]
      exact setPinnedPageDirty_writeBuffer hidle (h.consistent.exists_page f hlt p hpage) hmap
        (by rwa [hcount]) page

theorem settles_unpin (hidle : s.Idle) (h : Agrees s l) (hpinned : 0 < l.pins p) :
    Settles s (l.setPins p (l.pins p - 1)) (s.unpin p) := by
  cases hmap : s.pageIdxToFrameMap p with
  | none =>
      rw [← h.pins_eq p, pins_of_missing hmap] at hpinned
      exact absurd hpinned (Nat.not_lt_zero 0)
  | some f =>
      obtain ⟨hlt, hpage⟩ := h.consistent.resident p f hmap
      have hcount : (s.bufferCache f).pinCount = l.pins p := by
        rw [← h.pins_eq p, pins_of_resident hmap]
      have hle := h.consistent.pinCount_le f hlt
      rw [hcount, emptyPinCount] at hle
      have hwrap : (l.pins p + (2 ^ 32 - 1)) % 2 ^ 32 = l.pins p - 1 := by
        have hadd : l.pins p + (2 ^ 32 - 1) = l.pins p - 1 + 2 ^ 32 := by omega
        rw [hadd, Nat.add_mod_right]
        exact Nat.mod_eq_of_lt (by omega)
      have hfull : l.pins p - 1 < emptyPinCount := by
        rw [emptyPinCount]
        omega
      have hfollows := @follows_setFrame H Page _ s l p f
        { s.bufferCache f with pinCount := l.pins p - 1 } hidle h hmap s.files
        (fun _ _ ↦ rfl) hpage hfull (h.consistent.clean f hlt p hpage)
      have hcontents : (l.setPins p (l.pins p - 1)).setContents p (s.bufferCache f).buffer =
          l.setPins p (l.pins p - 1) := by
        rw [← contents_of_resident hmap, h.contents_eq p]
        simp only [Ledger.setContents, Ledger.setPins, Function.update_eq_self]
      rw [hcontents] at hfollows
      refine ⟨_, ?_, hfollows⟩
      have hget : (s.setPageLock p true).getFrameIdx p = .ok f := by
        have hmap' : (s.setPageLock p true).pageIdxToFrameMap p = some f := hmap
        rw [getFrameIdx, hmap']
      have hcount' : ((s.setPageLock p true).bufferCache f).pinCount = l.pins p := hcount
      rw [unpin, acquirePageLock_eq_ok hidle (h.consistent.exists_page f hlt p hpage), ok_bind,
        hget, ok_bind]
      simp only [hcount', hwrap, pure_eq_ok]
      apply congrArg Except.ok
      exact @releasePageLock_setPageLock H Page _ (s.setFrame f _) p (hidle p)

theorem settles_removePageFromFrame (hidle : s.Idle) (h : Agrees s l)
    (hexists : p.pageIdx < s.numPages p.fileHandle) (hzero : l.pins p = 0) (shouldFlush : Bool) :
    Settles s (if shouldFlush then l else l.setContents p (s.files p))
      (s.removePageFromFrame p shouldFlush) := by
  rw [removePageFromFrame, acquirePageLock_eq_ok hidle hexists, ok_bind]
  cases hmap : s.pageIdxToFrameMap p with
  | none =>
      have hmap' : (s.setPageLock p true).pageIdxToFrameMap p = none := hmap
      have hsame : (if shouldFlush then l else l.setContents p (s.files p)) = l := by
        rw [← contents_of_missing hmap, h.contents_eq p, Ledger.setContents,
          Function.update_eq_self, ite_self]
      rw [hsame]
      simp only [hmap', releasePageLock_setPageLock (hidle p)]
      exact ⟨s, rfl, hidle, h, rfl, rfl, fun _ _ hq _ ↦ hq⟩
  | some f =>
      obtain ⟨hlt, hpage⟩ := h.consistent.resident p f hmap
      have hmap' : (s.setPageLock p true).pageIdxToFrameMap p = some f := hmap
      have hpage' : ((s.setPageLock p true).bufferCache f).page = some p := hpage
      simp only [hmap']
      cases shouldFlush with
      | false =>
          refine ⟨_, ?_, follows_clearFrame hidle h hmap s.files (fun _ _ ↦ rfl) hzero⟩
          apply congrArg Except.ok
          exact @releasePageLock_setPageLock H Page _
            (s.clearFrameAndUnswizzleWithoutLock f p) p (hidle p)
      | true =>
          have hflush := flushIfDirty_eq hpage'
          have hfiles : ∀ q, q ≠ p →
              (if (s.bufferCache f).isDirty then
                Function.update s.files p (s.bufferCache f).buffer else s.files) q = s.files q := by
            intro q hne
            split_ifs
            · exact Function.update_of_ne hne _ _
            · rfl
          have hwritten : (if (s.bufferCache f).isDirty then
              Function.update s.files p (s.bufferCache f).buffer else s.files) p =
                l.contents p := by
            rw [← h.contents_eq p, contents_of_resident hmap]
            cases hdirty : (s.bufferCache f).isDirty with
            | true => exact Function.update_self _ _ _
            | false => exact (h.consistent.clean f hlt p hpage hdirty).symm
          have hfollows := follows_clearFrame hidle h hmap _ hfiles hzero
          rw [hwritten, Ledger.setContents, Function.update_eq_self] at hfollows
          refine ⟨_, ?_, hfollows⟩
          rw [if_pos rfl, hflush, ok_bind]
          apply congrArg Except.ok
          exact @releasePageLock_setPageLock H Page _
            (BufferPool.clearFrameAndUnswizzleWithoutLock { s with files := _ } f p) p (hidle p)

end Calls

/-! ## Runs -/

section Runs

variable {H Byte : Type} [DecidableEq H] {pageSize : ℕ}
  {s s' : BufferPool H (PageOf pageSize Byte)} {l : Ledger H (PageOf pageSize Byte)}

/-- One more pin fits into the pin count below the one of an empty frame, and an update of a frame
changes no byte behind the default page size. -/
def Fits (s : BufferPool H (PageOf pageSize Byte)) (l : Ledger H (PageOf pageSize Byte)) :
    PoolCall H (PageOf pageSize Byte) → Prop
  | .pin p | .pinWithoutReadingFromFile p _ => l.pins p + 1 < emptyPinCount
  | .updateFrame p page => ∀ f, s.pageIdxToFrameMap p = some f →
      ∀ i : Fin pageSize, defaultPageSize ≤ i.val → page i = (s.bufferCache f).buffer i
  | _ => True

theorem settles_updateFrame {p : PageID H} {page : PageOf pageSize Byte} (hidle : s.Idle)
    (h : Agrees s l) (hfits : Fits s l (.updateFrame p page)) :
    Settles s (l.setContents p page) (s.perform (.updateFrame p page)) := by
  refine ⟨_, rfl, ?_⟩
  rw [updateFrameIfPageIsInFrameWithoutPageOrFrameLock]
  cases hmap : s.pageIdxToFrameMap p with
  | none =>
      have hmap' : (s.writePage p page).pageIdxToFrameMap p = none := hmap
      simp only [hmap']
      exact follows_writePage hidle h hmap page
  | some f =>
      obtain ⟨hlt, hpage⟩ := h.consistent.resident p f hmap
      have hmap' : (s.writePage p page).pageIdxToFrameMap p = some f := hmap
      have hcopied : memcpyDefaultPage (s.bufferCache f).buffer page = page := by
        funext i
        rw [memcpyDefaultPage]
        split_ifs with hlt
        · rfl
        · exact (hfits f hmap i (Nat.le_of_not_lt hlt)).symm
      have hfull : (s.bufferCache f).pinCount < emptyPinCount := by
        refine lt_of_le_of_ne (h.consistent.pinCount_le f hlt) fun hempty ↦ ?_
        rw [(h.consistent.empty_iff f hlt).mpr hempty] at hpage
        cases hpage
      have hpins : l.setPins p (s.bufferCache f).pinCount = l := by
        rw [← pins_of_resident hmap, h.pins_eq p, Ledger.setPins, Function.update_eq_self]
      have hfollows := @follows_setFrame H (PageOf pageSize Byte) _ s l p f
        { s.bufferCache f with buffer := page } hidle h hmap (Function.update s.files p page)
        (fun _ hne ↦ Function.update_of_ne hne _ _) hpage hfull
        fun _ ↦ (Function.update_self p page s.files).symm
      rw [hpins] at hfollows
      simp only [hmap']
      have hbuffer : ((s.writePage p page).bufferCache f).buffer = (s.bufferCache f).buffer := rfl
      rw [hbuffer, hcopied]
      exact hfollows

/-- Only a pin fails, and only when every frame is pinned. -/
theorem perform_cases (hidle : s.Idle) (h : Agrees s l) (hsize : s.numFrames < 2 ^ 31)
    {call : PoolCall H (PageOf pageSize Byte)} (hallows : l.Allows s.numPages call)
    (hfits : Fits s l call) :
    Settles s (l.after s.files call) (s.perform call) ∨
      s.AllPinned ∧ ∃ e, s.perform call = .error e := by
  cases call with
  | pin p =>
      rcases pinPage_cases hidle h hsize hallows hfits false with
        ⟨s', f, hpin, hpinned⟩ | ⟨hall, e, herror⟩
      · have hfollows := hpinned.follows h hpinned.page_eq hpinned.pinCount_eq
          (hpinned.clean rfl)
        have hcontents : (l.setPins p (l.pins p + 1)).setContents p (s'.bufferCache f).buffer =
            l.setPins p (l.pins p + 1) := by
          rw [hpinned.buffer_eq rfl]
          simp only [Ledger.setContents, Ledger.setPins, Function.update_eq_self]
        rw [hcontents, setFrame_self] at hfollows
        refine Or.inl ⟨s', ?_, hfollows⟩
        rw [perform, pin, hpin]
        rfl
      · refine Or.inr ⟨hall, e, ?_⟩
        rw [perform, pin, herror]
        rfl
  | pinWithoutReadingFromFile p page =>
      rcases pinPage_cases hidle h hsize hallows hfits true with
        ⟨s', f, hpin, hpinned⟩ | ⟨hall, e, herror⟩
      · have hfollows := @Pinned.follows H _ _ s s' l p f
          { s'.bufferCache f with buffer := page, isDirty := true } true h hpinned
          hpinned.page_eq hpinned.pinCount_eq nofun
        refine Or.inl ⟨_, ?_, hfollows⟩
        rw [perform, pinWithoutReadingFromFile, hpin, ok_bind]
        refine setPinnedPageDirty_writeBuffer hpinned.idle ?_ hpinned.map ?_ page
        · rw [hpinned.numPages_eq]
          exact hallows
        · rw [hpinned.pinCount_eq]
          exact Nat.succ_pos _
      · refine Or.inr ⟨hall, e, ?_⟩
        rw [perform, pinWithoutReadingFromFile, herror]
        rfl
  | write p page => exact Or.inl (settles_write hidle h hallows page)
  | unpin p => exact Or.inl (settles_unpin hidle h hallows)
  | removePageFromFrame p shouldFlush =>
      exact Or.inl (settles_removePageFromFrame hidle h hallows.1 hallows.2 shouldFlush)
  | updateFrame p page => exact Or.inl (settles_updateFrame hidle h hfits)

/-- The pool and the ledger of its client. -/
abbrev Session (H Byte : Type) (pageSize : ℕ) :=
  BufferPool H (PageOf pageSize Byte) × Ledger H (PageOf pageSize Byte)

def step (session : Session H Byte pageSize) (call : PoolCall H (PageOf pageSize Byte)) :
    Option (Session H Byte pageSize) :=
  match session.1.perform call with
  | .ok s => some (s, session.2.after session.1.files call)
  | .error _ => none

/-- A new pool, whose frames are empty. -/
def start (numFrames : ℕ) (numPages : H → ℕ) (files : PageID H → PageOf pageSize Byte)
    (buffers : ℕ → PageOf pageSize Byte) : Session H Byte pageSize :=
  ({ numFrames := numFrames
     bufferCache := fun i ↦ { buffer := buffers i }
     numPages := numPages
     files := files },
    { pins := fun _ ↦ 0, contents := files })

/-- A call of a client that keeps to its ledger. -/
def Admits (session : Session H Byte pageSize) (call : PoolCall H (PageOf pageSize Byte)) : Prop :=
  session.2.Allows session.1.numPages call

instance (session : Session H Byte pageSize) : DecidablePred (Admits session) :=
  fun call ↦ inferInstanceAs (Decidable (session.2.Allows session.1.numPages call))

/-- The pool is a map from pages to contents. -/
structure RefinesLedger (session : Session H Byte pageSize) : Prop where
  injective : ∀ p q f, session.1.pageIdxToFrameMap p = some f →
    session.1.pageIdxToFrameMap q = some f → q = p
  inverse : ∀ p f, session.1.pageIdxToFrameMap p = some f ↔
    f < session.1.numFrames ∧ (session.1.bufferCache f).page = some p
  contents : ∀ p, session.1.contents p = session.2.contents p

/-- A call leaves the pinned pages where they are, a pin returns the contents last written, and only
the lack of a frame that is not pinned is an error. -/
structure Serves (session : Session H Byte pageSize) (call : PoolCall H (PageOf pageSize Byte)) :
    Prop where
  keeps : ∀ s', session.1.perform call = .ok s' → ∀ p f, 0 < session.2.pins p →
    session.1.pageIdxToFrameMap p = some f → s'.pageIdxToFrameMap p = some f
  pin : ∀ p, call = .pin p → ∀ s' f, session.1.pin p = .ok (s', f) →
    s'.pageIdxToFrameMap p = some f ∧ (s'.bufferCache f).buffer = session.2.contents p
  fails : ∀ e, session.1.perform call = .error e → session.1.AllPinned

/-- What holds along a run. -/
structure Sound (numFrames : ℕ) (session : Session H Byte pageSize) : Prop where
  idle : session.1.Idle
  agrees : Agrees session.1 session.2
  numFrames_eq : session.1.numFrames = numFrames

omit [DecidableEq H] in
theorem Sound.refinesLedger {numFrames : ℕ} {session : Session H Byte pageSize}
    (h : Sound numFrames session) : RefinesLedger session :=
  ⟨fun p q f hp hq ↦ Option.some.inj
      ((h.agrees.consistent.resident q f hq).2.symm.trans (h.agrees.consistent.resident p f hp).2),
    fun p f ↦ ⟨h.agrees.consistent.resident p f, fun ⟨hf, hpage⟩ ↦
      h.agrees.consistent.mapped f hf p hpage⟩,
    h.agrees.contents_eq⟩

omit [DecidableEq H] in
theorem sound_start (numFrames : ℕ) (numPages : H → ℕ) (files : PageID H → PageOf pageSize Byte)
    (buffers : ℕ → PageOf pageSize Byte) :
    Sound numFrames (start numFrames numPages files buffers) :=
  ⟨fun _ ↦ rfl, ⟨⟨nofun, nofun, fun _ _ ↦ iff_of_true rfl rfl, fun _ _ ↦ le_rfl, nofun, nofun⟩,
    fun _ ↦ rfl, fun _ ↦ rfl⟩, rfl⟩

theorem Sound.step {numFrames : ℕ} (hsize : numFrames < 2 ^ 31)
    {session session' : Session H Byte pageSize} {call : PoolCall H (PageOf pageSize Byte)}
    (h : Sound numFrames session)
    (hguard : Admits session call ∧ Fits session.1 session.2 call)
    (hstep : step session call = some session') : Sound numFrames session' := by
  rw [← h.numFrames_eq] at hsize
  rw [BufferPool.step] at hstep
  rcases perform_cases h.idle h.agrees hsize hguard.1 hguard.2 with
    ⟨s', hperform, hfollows⟩ | ⟨_, e, herror⟩
  · simp only [hperform, Option.some.injEq] at hstep
    rw [← hstep]
    exact ⟨hfollows.idle, hfollows.agrees, hfollows.numFrames_eq.trans h.numFrames_eq⟩
  · rw [herror] at hstep
    cases hstep

theorem Sound.serves {numFrames : ℕ} (hsize : numFrames < 2 ^ 31)
    {session : Session H Byte pageSize} {call : PoolCall H (PageOf pageSize Byte)}
    (h : Sound numFrames session) (hadmits : Admits session call)
    (hfits : Fits session.1 session.2 call) : Serves session call := by
  rw [← h.numFrames_eq] at hsize
  have hcases := perform_cases h.idle h.agrees hsize hadmits hfits
  refine ⟨fun s' hperform p f hpinned hmap ↦ ?_, ?_, fun e herror ↦ ?_⟩
  · rcases hcases with ⟨s'', hperform', hfollows⟩ | ⟨_, e, herror⟩
    · rw [hperform] at hperform'
      rw [Except.ok.inj hperform']
      rw [← h.agrees.pins_eq p] at hpinned
      exact hfollows.keeps p f hmap hpinned
    · rw [herror] at hperform
      cases hperform
  · rintro p rfl s' f hpin
    rcases pinPage_cases h.idle h.agrees hsize hadmits hfits false with
      ⟨s'', f', hpin', hpinned⟩ | ⟨_, e, herror⟩
    · rw [pin, hpin'] at hpin
      obtain ⟨rfl, rfl⟩ := Prod.mk.inj (Except.ok.inj hpin)
      exact ⟨hpinned.map, hpinned.buffer_eq rfl⟩
    · rw [pin, herror] at hpin
      cases hpin
  · rcases hcases with ⟨s', hperform, _⟩ | ⟨hall, _⟩
    · rw [hperform] at herror
      cases herror
    · exact hall

/-- A pool of fewer than `2 ^ 31` frames refines a map from pages to contents in every run whose
calls fit. -/
theorem refinesLedger_of_fits {numFrames : ℕ} (hsize : numFrames < 2 ^ 31) (numPages : H → ℕ)
    (files : PageID H → PageOf pageSize Byte) (buffers : ℕ → PageOf pageSize Byte)
    {calls : List (PoolCall H (PageOf pageSize Byte))} {call : PoolCall H (PageOf pageSize Byte)}
    {session : Session H Byte pageSize}
    (hmeets : MeetsAlong step (fun session call ↦ Admits session call ∧
      Fits session.1 session.2 call) (start numFrames numPages files buffers) (calls ++ [call]))
    (hrun : run step (start numFrames numPages files buffers) calls = some session) :
    RefinesLedger session ∧ Serves session call := by
  obtain ⟨hcalls, hcall⟩ := meetsAlong_append hrun hmeets
  have hsound : Sound numFrames session :=
    run_invariant_of_meets (fun _ _ _ h hguard hstep ↦ h.step hsize hguard hstep)
      (sound_start numFrames numPages files buffers) hcalls hrun
  exact ⟨hsound.refinesLedger, hsound.serves hsize hcall.1.1 hcall.1.2⟩

end Runs

/-! ## Two pools -/

def firstPage : PageID Unit := ⟨(), 0⟩

def secondPage : PageID Unit := ⟨(), 1⟩

/-- One frame for two pages of one byte. -/
def oneFrame : Session Unit ℕ 1 := start 1 (fun _ ↦ 2) (fun _ _ ↦ 0) fun _ _ ↦ 9

/-- The second page evicts the first one, which is dirty. -/
def evictingCalls : List (PoolCall Unit (PageOf 1 ℕ)) :=
  [.pin firstPage, .write firstPage fun _ ↦ 7, .unpin firstPage, .pin secondPage,
    .unpin secondPage]

theorem refinesLedger_oneFrame :
    ∃ session, run step oneFrame evictingCalls = some session ∧
      RefinesLedger session ∧ Serves session (.pin firstPage) ∧
      session.1.files firstPage = (fun _ ↦ 7) := by
  have hfits : 0 + 1 < emptyPinCount := by decide
  have hmeets : MeetsAlong step (fun session call ↦ Admits session call ∧
      Fits session.1 session.2 call) oneFrame (evictingCalls ++ [.pin firstPage]) := by
    refine meetsAlong_cons_of_eq_some ⟨by decide, hfits⟩ rfl ?_
    refine meetsAlong_cons_of_eq_some ⟨by decide, trivial⟩ rfl ?_
    refine meetsAlong_cons_of_eq_some ⟨by decide, trivial⟩ rfl ?_
    refine meetsAlong_cons_of_eq_some ⟨by decide, hfits⟩ rfl ?_
    refine meetsAlong_cons_of_eq_some ⟨by decide, trivial⟩ rfl ?_
    exact ⟨⟨by decide, hfits⟩, fun _ _ ↦ trivial⟩
  have hrun : ∃ session, run step oneFrame evictingCalls = some session ∧
      session.1.files firstPage = fun _ ↦ 7 := ⟨_, rfl, rfl⟩
  obtain ⟨session, hrun, hfile⟩ := hrun
  obtain ⟨hrefines, hserves⟩ := refinesLedger_of_fits (by decide) (fun _ ↦ 2) (fun _ _ ↦ 0)
    (fun _ _ ↦ 9) hmeets hrun
  exact ⟨session, hrun, hrefines, hserves, hfile⟩

/-- One frame of the pool for large pages. -/
def oneLargeFrame : Session Unit Bool (2 ^ 18) :=
  start 1 (fun _ ↦ 1) (fun _ _ ↦ false) fun _ _ ↦ false

/-- The update reaches the first 4096 bytes of the frame. -/
def largeUpdate : List (PoolCall Unit (PageOf (2 ^ 18) Bool)) :=
  [.pin firstPage, .unpin firstPage, .updateFrame firstPage fun _ ↦ true]

theorem not_serves_largeUpdate :
    ∃ session, run step oneLargeFrame largeUpdate = some session ∧
      MeetsAlong step Admits oneLargeFrame (largeUpdate ++ [.pin firstPage]) ∧
      ¬ (RefinesLedger session ∧ Serves session (.pin firstPage)) := by
  refine ⟨_, rfl, ?_, fun ⟨_, hserves⟩ ↦ ?_⟩
  · refine meetsAlong_cons_of_eq_some (by decide) rfl ?_
    refine meetsAlong_cons_of_eq_some (by decide) rfl ?_
    refine meetsAlong_cons_of_eq_some (by decide) rfl ?_
    exact ⟨by decide, fun _ _ ↦ trivial⟩
  · have hbuffer := (hserves.pin firstPage rfl _ _ rfl).2
    have hbyte : false = true := congrFun hbuffer ⟨4096, by decide⟩
    cases hbyte

end BufferPool

end Graphflow.Storage
