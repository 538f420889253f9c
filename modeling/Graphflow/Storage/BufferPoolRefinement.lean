import Graphflow.Lib.Transition
import Graphflow.Storage.BufferPoolClaim

/-!
# The buffer pool refines a map from pages to contents

A client knows how often it has pinned each page, and the contents last written to it.  As long as a
pin count fits into 32 bits and an update reaches the whole page, the pool agrees with the client.
-/

namespace Graphflow.Storage

open Lib

/-- What the client knows of the pages. -/
structure Ledger (H Page : Type) where
  pins : PageID H → ℕ
  contents : PageID H → Page

namespace Ledger

variable {H Page : Type} [DecidableEq H]

def setPins (l : Ledger H Page) (p : PageID H) (count : ℕ) : Ledger H Page :=
  { l with pins := Function.update l.pins p count }

def setContents (l : Ledger H Page) (p : PageID H) (page : Page) : Ledger H Page :=
  { l with contents := Function.update l.contents p page }

/-- Only a removal without a flush reverts a page to what its file holds. -/
def after (l : Ledger H Page) (files : PageID H → Page) : PoolCall H Page → Ledger H Page
  | .pin p => l.setPins p (l.pins p + 1)
  | .pinWithoutReadingFromFile p page => (l.setPins p (l.pins p + 1)).setContents p page
  | .write p page => l.setContents p page
  | .unpin p => l.setPins p (l.pins p - 1)
  | .removePageFromFrame p shouldFlush => if shouldFlush then l else l.setContents p (files p)
  | .updateFrame p page => l.setContents p page

/-- The calls of a client that unpins what it has pinned, writes to pinned pages, and removes none
of them. -/
def Allows (l : Ledger H Page) (numPages : H → ℕ) : PoolCall H Page → Prop
  | .pin p | .pinWithoutReadingFromFile p _ | .updateFrame p _ =>
      p.pageIdx < numPages p.fileHandle
  | .write p _ | .unpin p => 0 < l.pins p
  | .removePageFromFrame p _ => p.pageIdx < numPages p.fileHandle ∧ l.pins p = 0

instance (l : Ledger H Page) (numPages : H → ℕ) : DecidablePred (l.Allows numPages)
  | .pin _ | .pinWithoutReadingFromFile _ _ | .updateFrame _ _ =>
    inferInstanceAs (Decidable (_ < _))
  | .write _ _ | .unpin _ => inferInstanceAs (Decidable (_ < _))
  | .removePageFromFrame _ _ => inferInstanceAs (Decidable (_ ∧ _))

end Ledger

namespace BufferPool

section Frames

variable {H Page : Type} [DecidableEq H] {s s' : BufferPool H Page} {p q : PageID H}
  {frameIdx : ℕ} {frame : Frame H Page}

/-- The frame that holds a page. -/
def frameOf? (s : BufferPool H Page) (p : PageID H) : Option (Frame H Page) :=
  (s.pageIdxToFrameMap p).map s.bufferCache

def contents (s : BufferPool H Page) (p : PageID H) : Page :=
  ((s.frameOf? p).map Frame.buffer).getD (s.files p)

def pins (s : BufferPool H Page) (p : PageID H) : ℕ :=
  ((s.frameOf? p).map Frame.pinCount).getD 0

/-- The pool holds what the client knows. -/
structure Agrees (s : BufferPool H Page) (l : Ledger H Page) : Prop where
  consistent : Consistent s
  contents_eq : ∀ p, s.contents p = l.contents p
  pins_eq : ∀ p, s.pins p = l.pins p

/-- No page lock is held. -/
def Idle (s : BufferPool H Page) : Prop := ∀ p, s.pageLocks p = false

omit [DecidableEq H] in
theorem contents_of_resident (hmap : s.pageIdxToFrameMap p = some frameIdx) :
    s.contents p = (s.bufferCache frameIdx).buffer := by
  rw [contents, frameOf?, hmap]
  rfl

omit [DecidableEq H] in
theorem contents_of_missing (hmap : s.pageIdxToFrameMap p = none) : s.contents p = s.files p := by
  rw [contents, frameOf?, hmap]
  rfl

omit [DecidableEq H] in
theorem pins_of_resident (hmap : s.pageIdxToFrameMap p = some frameIdx) :
    s.pins p = (s.bufferCache frameIdx).pinCount := by
  rw [pins, frameOf?, hmap]
  rfl

omit [DecidableEq H] in
theorem pins_of_missing (hmap : s.pageIdxToFrameMap p = none) : s.pins p = 0 := by
  rw [pins, frameOf?, hmap]
  rfl

/-! ## Page locks -/

theorem acquirePageLock_eq_ok (hidle : s.Idle) (hexists : p.pageIdx < s.numPages p.fileHandle) :
    s.acquirePageLock p = .ok (s.setPageLock p true) := by
  rw [acquirePageLock, checkPageIdx_eq_ok hexists, ok_bind, hidle p]
  rfl

theorem Agrees.setPageLock {l : Ledger H Page} (h : Agrees s l) (p : PageID H) (held : Bool) :
    Agrees (s.setPageLock p held) l :=
  ⟨⟨h.consistent.resident, h.consistent.mapped, h.consistent.empty_iff, h.consistent.pinCount_le,
    h.consistent.exists_page, h.consistent.clean⟩, h.contents_eq, h.pins_eq⟩

theorem idle_releasePageLock (hlocks : ∀ q, q ≠ p → s.pageLocks q = false) :
    (s.releasePageLock p).Idle := by
  intro q
  change Function.update s.pageLocks p false q = false
  by_cases heq : q = p
  · rw [heq, Function.update_self]
  · rw [Function.update_of_ne heq, hlocks q heq]

theorem Idle.setPageLock (hidle : s.Idle) (p : PageID H) :
    ∀ q, q ≠ p → (s.setPageLock p true).pageLocks q = false := by
  intro q hne
  change Function.update s.pageLocks p true q = false
  rw [Function.update_of_ne hne, hidle q]

/-! ## Frames that are filled anew -/

/-- A frame has got other contents, of the same page, of another one that was in no frame, or of
none.  A page that leaves its frame is not pinned. -/
structure Refilled (s : BufferPool H Page) (f : ℕ) (frame : Frame H Page)
    (s' : BufferPool H Page) : Prop where
  numFrames_eq : s'.numFrames = s.numFrames
  numPages_eq : s'.numPages = s.numPages
  frame_lt : f < s.numFrames
  frame_eq : s'.bufferCache f = frame
  others : ∀ g, g ≠ f → ∃ flag, s'.bufferCache g = { s.bufferCache g with recentlyAccessed := flag }
  map : ∀ q, s'.pageIdxToFrameMap q =
    if frame.page = some q then some f
    else if (s.bufferCache f).page = some q then none
    else s.pageIdxToFrameMap q
  files : ∀ q, frame.page ≠ some q → (s.bufferCache f).page ≠ some q → s'.files q = s.files q
  new : ∀ q, frame.page = some q → q.pageIdx < s.numPages q.fileHandle ∧
    ((s.bufferCache f).page = some q ∨ s.pageIdxToFrameMap q = none)
  unpinned : ∀ q, (s.bufferCache f).page = some q → frame.page ≠ some q →
    (s.bufferCache f).pinCount = 0
  empty_iff : frame.page = none ↔ frame.pinCount = emptyPinCount
  pinCount_le : frame.pinCount ≤ emptyPinCount
  clean : ∀ q, frame.page = some q → frame.isDirty = false → frame.buffer = s'.files q

/-- The pages of the other frames. -/
theorem Refilled.ne_of_others (h : Consistent s) {f g : ℕ} (hrefilled : Refilled s f frame s')
    (hne : g ≠ f) (hmap : s.pageIdxToFrameMap q = some g) :
    frame.page ≠ some q ∧ (s.bufferCache f).page ≠ some q := by
  have hold : (s.bufferCache f).page ≠ some q := by
    intro hpage
    have hf := h.mapped f hrefilled.frame_lt q hpage
    exact hne (Option.some.inj (hmap.symm.trans hf))
  refine ⟨fun hpage ↦ ?_, hold⟩
  rcases (hrefilled.new q hpage).2 with hpage | hnone
  · exact hold hpage
  · rw [hnone] at hmap
    cases hmap

theorem Refilled.consistent (h : Consistent s) {f : ℕ} (hrefilled : Refilled s f frame s') :
    Consistent s' := by
  refine ⟨fun q g hq ↦ ?_, fun g hg q hq ↦ ?_, fun g hg ↦ ?_, fun g hg ↦ ?_, fun g hg q hq ↦ ?_,
    fun g hg q hq ↦ ?_⟩
  · rw [hrefilled.map] at hq
    rw [hrefilled.numFrames_eq]
    split_ifs at hq with hnew hold
    · rw [← Option.some.inj hq, hrefilled.frame_eq]
      exact ⟨hrefilled.frame_lt, hnew⟩
    · obtain ⟨hg, hpage⟩ := h.resident q g hq
      have hne : g ≠ f := by
        rintro rfl
        exact hold hpage
      obtain ⟨flag, heq⟩ := hrefilled.others g hne
      rw [heq]
      exact ⟨hg, hpage⟩
  all_goals rw [hrefilled.numFrames_eq] at hg
  all_goals by_cases hne : g = f
  · rw [hne, hrefilled.frame_eq] at hq
    rw [hrefilled.map, if_pos hq, hne]
  · obtain ⟨flag, heq⟩ := hrefilled.others g hne
    rw [heq] at hq
    have hmap := h.mapped g hg q hq
    obtain ⟨hnew, hold⟩ := hrefilled.ne_of_others h hne hmap
    rw [hrefilled.map, if_neg hnew, if_neg hold, hmap]
  · rw [hne, hrefilled.frame_eq]
    exact hrefilled.empty_iff
  · obtain ⟨flag, heq⟩ := hrefilled.others g hne
    rw [heq]
    exact h.empty_iff g hg
  · rw [hne, hrefilled.frame_eq]
    exact hrefilled.pinCount_le
  · obtain ⟨flag, heq⟩ := hrefilled.others g hne
    rw [heq]
    exact h.pinCount_le g hg
  · rw [hne, hrefilled.frame_eq] at hq
    rw [hrefilled.numPages_eq]
    exact (hrefilled.new q hq).1
  · obtain ⟨flag, heq⟩ := hrefilled.others g hne
    rw [heq] at hq
    rw [hrefilled.numPages_eq]
    exact h.exists_page g hg q hq
  · rw [hne, hrefilled.frame_eq] at hq ⊢
    exact hrefilled.clean q hq
  · obtain ⟨flag, heq⟩ := hrefilled.others g hne
    rw [heq] at hq ⊢
    obtain ⟨hnew, hold⟩ := hrefilled.ne_of_others h hne (h.mapped g hg q hq)
    rw [hrefilled.files q hnew hold]
    exact h.clean g hg q hq

/-- The client knows the page that has come and the contents of the page that has gone. -/
theorem Refilled.agrees {l l' : Ledger H Page} (h : Agrees s l) {f : ℕ}
    (hrefilled : Refilled s f frame s')
    (hcontents : ∀ q, l'.contents q =
      if frame.page = some q then frame.buffer
      else if (s.bufferCache f).page = some q then s'.files q
      else l.contents q)
    (hpins : ∀ q, l'.pins q = if frame.page = some q then frame.pinCount else l.pins q) :
    Agrees s' l' := by
  have hkept : ∀ q, frame.page ≠ some q → (s.bufferCache f).page ≠ some q → ∀ g,
      s.pageIdxToFrameMap q = some g →
      (s'.bufferCache g).buffer = (s.bufferCache g).buffer ∧
        (s'.bufferCache g).pinCount = (s.bufferCache g).pinCount := by
    intro q _ hold g hmap
    have hne : g ≠ f := by
      rintro rfl
      exact hold (h.consistent.resident q g hmap).2
    obtain ⟨flag, heq⟩ := hrefilled.others g hne
    rw [heq]
    exact ⟨rfl, rfl⟩
  refine ⟨hrefilled.consistent h.consistent, fun q ↦ ?_, fun q ↦ ?_⟩
  · rw [hcontents]
    have hmap := hrefilled.map q
    split_ifs with hnew hold
    · rw [if_pos hnew] at hmap
      rw [contents_of_resident hmap, hrefilled.frame_eq]
    · rw [if_neg hnew, if_pos hold] at hmap
      exact contents_of_missing hmap
    · rw [if_neg hnew, if_neg hold] at hmap
      rw [← h.contents_eq q]
      cases hq : s.pageIdxToFrameMap q with
      | none =>
          rw [contents_of_missing (hmap.trans hq), contents_of_missing hq]
          exact hrefilled.files q hnew hold
      | some g =>
          rw [contents_of_resident (hmap.trans hq), contents_of_resident hq]
          exact (hkept q hnew hold g hq).1
  · rw [hpins]
    have hmap := hrefilled.map q
    split_ifs with hnew
    · rw [if_pos hnew] at hmap
      rw [pins_of_resident hmap, hrefilled.frame_eq]
    · rw [if_neg hnew] at hmap
      rw [← h.pins_eq q]
      by_cases hold : (s.bufferCache f).page = some q
      · rw [if_pos hold] at hmap
        rw [pins_of_missing hmap, pins_of_resident
          (h.consistent.mapped f hrefilled.frame_lt q hold), hrefilled.unpinned q hold hnew]
      · rw [if_neg hold] at hmap
        cases hq : s.pageIdxToFrameMap q with
        | none => rw [pins_of_missing (hmap.trans hq), pins_of_missing hq]
        | some g =>
            rw [pins_of_resident (hmap.trans hq), pins_of_resident hq]
            exact (hkept q hnew hold g hq).2

/-- A page keeps its frame as long as it is not the one that leaves. -/
theorem Refilled.keeps {f g : ℕ} (h : Consistent s) (hrefilled : Refilled s f frame s')
    (hmap : s.pageIdxToFrameMap q = some g) (hpinned : 0 < s.pins q) :
    s'.pageIdxToFrameMap q = some g := by
  rw [hrefilled.map]
  split_ifs with hnew hold
  · rcases (hrefilled.new q hnew).2 with hpage | hnone
    · exact (h.mapped f hrefilled.frame_lt q hpage).symm.trans hmap
    · rw [hnone] at hmap
      cases hmap
  · have hzero := hrefilled.unpinned q hold hnew
    rw [pins_of_resident (h.mapped f hrefilled.frame_lt q hold), hzero] at hpinned
    exact absurd hpinned (Nat.not_lt_zero 0)
  · exact hmap

/-- A page keeps its frame. -/
theorem refilled_setFrame (h : Consistent s) {f : ℕ} (hmap : s.pageIdxToFrameMap p = some f)
    (files : PageID H → Page) (hfiles : ∀ q, q ≠ p → files q = s.files q)
    (hpage : frame.page = some p) (hcount : frame.pinCount < emptyPinCount)
    (hclean : frame.isDirty = false → frame.buffer = files p) :
    Refilled s f frame ({ s with files := files }.setFrame f frame) := by
  obtain ⟨hlt, hold⟩ := h.resident p f hmap
  refine ⟨rfl, rfl, hlt, Function.update_self _ _ _, fun g hne ↦
    ⟨(s.bufferCache g).recentlyAccessed, Function.update_of_ne hne _ _⟩, fun q ↦ ?_,
    fun q hnew _ ↦ ?_, fun q hnew ↦ ?_, fun q hq hnew ↦ ?_, ?_, hcount.le, fun q hnew hdirty ↦ ?_⟩
  · rw [hpage, hold]
    by_cases heq : q = p
    · rw [if_pos (by rw [heq]), heq]
      exact hmap
    · have hne : some p ≠ some q := fun h ↦ heq (Option.some.inj h).symm
      rw [if_neg hne, if_neg hne]
      rfl
  · apply hfiles
    rintro rfl
    exact hnew hpage
  · rw [hpage] at hnew
    rw [← Option.some.inj hnew]
    exact ⟨h.exists_page f hlt p hold, Or.inl hold⟩
  · rw [hpage, ← hold] at hnew
    exact absurd hq hnew
  · rw [hpage]
    exact iff_of_false (Option.some_ne_none p) hcount.ne
  · rw [hpage] at hnew
    rw [← Option.some.inj hnew]
    exact hclean hdirty

/-- A page comes to the frame that has been claimed for it. -/
theorem Claimed.refilled (h : Consistent s) {f : ℕ} {doNotReadFromFile : Bool}
    (hclaimed : Claimed s p doNotReadFromFile f s') (hmap : s.pageIdxToFrameMap p = none)
    (hexists : p.pageIdx < s.numPages p.fileHandle)
    (hpage : frame.page = some p) (hcount : frame.pinCount < emptyPinCount)
    (hclean : frame.isDirty = false → frame.buffer = s'.files p) :
    Refilled s f frame ((s'.swizzle p (some f)).setFrame f frame) := by
  refine ⟨hclaimed.numFrames_eq, hclaimed.numPages_eq, hclaimed.frame_lt,
    Function.update_self _ _ _, fun g hne ↦ ?_, fun q ↦ ?_, fun q _ hold ↦ ?_, fun q hnew ↦ ?_,
    fun q hq _ ↦ ?_, ?_, hcount.le, fun q hnew hdirty ↦ ?_⟩
  · obtain ⟨flag, heq⟩ := hclaimed.others g hne
    exact ⟨flag, (Function.update_of_ne hne _ _).trans heq⟩
  · change Function.update s'.pageIdxToFrameMap p (some f) q = _
    rw [hpage]
    by_cases heq : q = p
    · rw [heq, Function.update_self, if_pos rfl]
    · rw [Function.update_of_ne heq, if_neg fun h ↦ heq (Option.some.inj h).symm]
      exact hclaimed.map q
  · exact (hclaimed.files q).trans (if_neg fun h ↦ hold h.1)
  · rw [hpage] at hnew
    rw [← Option.some.inj hnew]
    exact ⟨hexists, Or.inr hmap⟩
  · rcases hclaimed.notPinned with hempty | hzero
    · rw [(h.empty_iff f hclaimed.frame_lt).mpr hempty] at hq
      cases hq
    · exact hzero
  · rw [hpage]
    exact iff_of_false (Option.some_ne_none p) hcount.ne
  · rw [hpage] at hnew
    rw [← Option.some.inj hnew]
    exact hclean hdirty

/-- A page that is not pinned leaves its frame. -/
theorem refilled_clearFrame (h : Consistent s) {f : ℕ} (hmap : s.pageIdxToFrameMap p = some f)
    (files : PageID H → Page) (hfiles : ∀ q, q ≠ p → files q = s.files q)
    (hzero : s.pins p = 0) :
    Refilled s f (s.bufferCache f).resetFrameWithoutLock
      ({ s with files := files }.clearFrameAndUnswizzleWithoutLock f p) := by
  obtain ⟨hlt, hold⟩ := h.resident p f hmap
  have hnone : (s.bufferCache f).resetFrameWithoutLock.page = none := rfl
  refine ⟨rfl, rfl, hlt, Function.update_self _ _ _, fun g hne ↦
    ⟨(s.bufferCache g).recentlyAccessed, Function.update_of_ne hne _ _⟩, fun q ↦ ?_,
    fun q _ hq ↦ ?_, fun q hnew ↦ ?_, fun q hq _ ↦ ?_, iff_of_true rfl rfl, le_rfl,
    fun q hnew ↦ ?_⟩
  · change Function.update s.pageIdxToFrameMap p none q = _
    rw [hnone, hold, if_neg (Option.some_ne_none q).symm]
    by_cases heq : q = p
    · rw [heq, Function.update_self, if_pos rfl]
    · rw [Function.update_of_ne heq, if_neg fun h ↦ heq (Option.some.inj h).symm]
  · apply hfiles
    rintro rfl
    exact hq hold
  · rw [hnone] at hnew
    cases hnew
  · rw [hold] at hq
    rw [← pins_of_resident hmap]
    exact hzero
  · rw [hnone] at hnew
    cases hnew

end Frames

end BufferPool

end Graphflow.Storage
