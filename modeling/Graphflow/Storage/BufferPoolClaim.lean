import Graphflow.Lib.Except
import Graphflow.Storage.BufferPool

/-!
# Claiming a frame

The clock goes round twice.  In the first round it takes the frames that have not been accessed
recently, in the second one all that are not pinned.
-/

namespace Graphflow.Storage

open Lib

namespace BufferPool

variable {H Page : Type} [DecidableEq H] {s s' : BufferPool H Page} {p q : PageID H}
  {frameIdx : ℕ}

/-! ## Consistent pools -/

/-- The frames and the maps of the file handles are inverse to each other. -/
structure Consistent (s : BufferPool H Page) : Prop where
  resident : ∀ p i, s.pageIdxToFrameMap p = some i →
    i < s.numFrames ∧ (s.bufferCache i).page = some p
  mapped : ∀ i < s.numFrames, ∀ p, (s.bufferCache i).page = some p →
    s.pageIdxToFrameMap p = some i
  empty_iff : ∀ i < s.numFrames,
    (s.bufferCache i).page = none ↔ (s.bufferCache i).pinCount = emptyPinCount
  pinCount_le : ∀ i < s.numFrames, (s.bufferCache i).pinCount ≤ emptyPinCount
  exists_page : ∀ i < s.numFrames, ∀ p, (s.bufferCache i).page = some p →
    p.pageIdx < s.numPages p.fileHandle
  clean : ∀ i < s.numFrames, ∀ p, (s.bufferCache i).page = some p →
    (s.bufferCache i).isDirty = false → (s.bufferCache i).buffer = s.files p

omit [DecidableEq H] in
theorem checkPageIdx_eq_ok (hexists : p.pageIdx < s.numPages p.fileHandle) :
    s.checkPageIdx p = .ok () := if_pos hexists

/-! ## Evicting -/

/-- The pool with other access flags. -/
def withFlags (s : BufferPool H Page) (flags : ℕ → Bool) : BufferPool H Page :=
  { s with bufferCache := fun i ↦ { s.bufferCache i with recentlyAccessed := flags i } }

/-- A frame that was empty or not pinned has got the page; what it held has gone to the file. -/
structure Claimed (s : BufferPool H Page) (p : PageID H) (doNotReadFromFile : Bool) (f : ℕ)
    (s' : BufferPool H Page) : Prop where
  numFrames_eq : s'.numFrames = s.numFrames
  numPages_eq : s'.numPages = s.numPages
  pageLocks_eq : s'.pageLocks = s.pageLocks
  frame_lt : f < s.numFrames
  notPinned : (s.bufferCache f).pinCount = emptyPinCount ∨ (s.bufferCache f).pinCount = 0
  frame : s'.bufferCache f =
    ⟨some p, 1, true, false, if doNotReadFromFile then (s.bufferCache f).buffer else s'.files p⟩
  others : ∀ g, g ≠ f → ∃ flag, s'.bufferCache g = { s.bufferCache g with recentlyAccessed := flag }
  map : ∀ q, s'.pageIdxToFrameMap q =
    if (s.bufferCache f).page = some q then none else s.pageIdxToFrameMap q
  files : ∀ q, s'.files q =
    if (s.bufferCache f).page = some q ∧ (s.bufferCache f).isDirty = true then
      (s.bufferCache f).buffer
    else s.files q

theorem Claimed.moveClockHand {doNotReadFromFile : Bool} {f : ℕ}
    (h : Claimed s p doNotReadFromFile f s') (newClockHand : ℕ) :
    Claimed s p doNotReadFromFile f (s'.moveClockHand newClockHand) := by
  rw [BufferPool.moveClockHand]
  split_ifs
  · exact h
  · exact ⟨h.numFrames_eq, h.numPages_eq, h.pageLocks_eq, h.frame_lt, h.notPinned, h.frame,
      h.others, h.map, h.files⟩

/-- An empty frame is filled. -/
theorem claimed_of_empty (h : Consistent s) (hframe : frameIdx < s.numFrames)
    (hempty : (s.bufferCache frameIdx).pinCount = emptyPinCount) (doNotReadFromFile : Bool) :
    Claimed s p doNotReadFromFile frameIdx
      (s.readNewPageIntoFrame frameIdx p doNotReadFromFile) := by
  have hpage := (h.empty_iff frameIdx hframe).mpr hempty
  refine ⟨rfl, rfl, rfl, hframe, Or.inl hempty, Function.update_self _ _ _, fun g hne ↦
    ⟨(s.bufferCache g).recentlyAccessed, Function.update_of_ne hne _ _⟩, fun q ↦ ?_, fun q ↦ ?_⟩
  · rw [hpage, if_neg (by simp)]
    rfl
  · rw [hpage, if_neg (by simp)]
    rfl

/-- A frame that has been accessed recently gets a second chance. -/
theorem tryEvict_of_recentlyAccessed {flags : ℕ → Bool} (hflag : flags frameIdx = true)
    (doNotReadFromFile : Bool) :
    (s.withFlags flags).tryEvict frameIdx p doNotReadFromFile =
      .ok (s.withFlags (Function.update flags frameIdx false), false) := by
  have hrecent : ((s.withFlags flags).bufferCache frameIdx).recentlyAccessed = true := hflag
  rw [tryEvict]
  simp only [hrecent, if_true]
  congr 2
  rw [setFrame, withFlags, withFlags]
  congr 1
  funext i
  by_cases heq : i = frameIdx
  · rw [heq, Function.update_self, Function.update_self]
  · rw [Function.update_of_ne heq, Function.update_of_ne heq]

/-- A dirty page goes to its file. -/
theorem flushIfDirty_eq (hpage : (s.bufferCache frameIdx).page = some q) :
    s.flushIfDirty frameIdx = .ok { s with
      files := if (s.bufferCache frameIdx).isDirty then
          Function.update s.files q (s.bufferCache frameIdx).buffer
        else s.files } := by
  rw [flushIfDirty]
  cases hdirty : (s.bufferCache frameIdx).isDirty with
  | true =>
      simp only [hpage, if_true]
      rfl
  | false => rfl

/-- Another frame that is not pinned is evicted. -/
theorem exists_tryEvict_eq (h : Consistent s) (hframe : frameIdx < s.numFrames)
    (hlocks : ∀ q, q ≠ p → s.pageLocks q = false) (hnone : s.pageIdxToFrameMap p = none)
    {flags : ℕ → Bool} (hzero : (s.bufferCache frameIdx).pinCount = 0)
    (hflag : flags frameIdx = false) (doNotReadFromFile : Bool) :
    ∃ s', (s.withFlags flags).tryEvict frameIdx p doNotReadFromFile = .ok (s', true) ∧
      Claimed s p doNotReadFromFile frameIdx s' := by
  have hrecent : ((s.withFlags flags).bufferCache frameIdx).recentlyAccessed = false := hflag
  obtain ⟨r, hpage⟩ : ∃ r, (s.bufferCache frameIdx).page = some r := by
    refine Option.ne_none_iff_exists'.mp fun hnone ↦ ?_
    have hempty := (h.empty_iff frameIdx hframe).mp hnone
    rw [hzero] at hempty
    cases hempty
  have hpage' : ((s.withFlags flags).bufferCache frameIdx).page = some r := hpage
  have hne : r ≠ p := by
    rintro rfl
    have hmap := h.mapped frameIdx hframe r hpage
    rw [hnone] at hmap
    cases hmap
  have hlock : (s.withFlags flags).pageLocks r = false := hlocks r hne
  have hzero' : ((s.withFlags flags).bufferCache frameIdx).pinCount = 0 := hzero
  have hcheck : (s.withFlags flags).checkPageIdx r = .ok () :=
    checkPageIdx_eq_ok (h.exists_page frameIdx hframe r hpage)
  have hflush := @flushIfDirty_eq H Page _ ((s.withFlags flags).setPageLock r true) r
    frameIdx hpage'
  rw [tryEvict]
  simp only [hrecent, Bool.false_eq_true, if_false, hpage', hcheck, ok_bind, hlock, hzero', ne_eq,
    not_true_eq_false, hflush, pure_eq_ok]
  refine ⟨_, rfl, rfl, rfl, ?_, hframe, Or.inr hzero, ?_, fun g hg ↦ ⟨flags g, ?_⟩, fun q' ↦ ?_,
    fun q' ↦ ?_⟩
  · funext q'
    simp only [readNewPageIntoFrame, setFrame, releasePageLock, setPageLock,
      clearFrameAndUnswizzleWithoutLock, swizzle]
    by_cases heq : q' = r
    · rw [heq, Function.update_self]
      exact (hlocks r hne).symm
    · rw [Function.update_of_ne heq, Function.update_of_ne heq]
      rfl
  · simp only [readNewPageIntoFrame, setFrame, releasePageLock, setPageLock,
      clearFrameAndUnswizzleWithoutLock, swizzle, Function.update_self]
    rfl
  · simp only [readNewPageIntoFrame, setFrame, releasePageLock, setPageLock,
      clearFrameAndUnswizzleWithoutLock, swizzle, Function.update_of_ne hg]
    rfl
  · simp only [readNewPageIntoFrame, setFrame, releasePageLock, setPageLock,
      clearFrameAndUnswizzleWithoutLock, swizzle, hpage]
    by_cases heq : q' = r
    · rw [heq, Function.update_self, if_pos rfl]
    · rw [Function.update_of_ne heq, if_neg fun h ↦ heq (Option.some.inj h).symm]
      rfl
  · simp only [readNewPageIntoFrame, setFrame, releasePageLock, setPageLock,
      clearFrameAndUnswizzleWithoutLock, swizzle, hpage, withFlags]
    cases hdirty : (s.bufferCache frameIdx).isDirty with
    | true =>
        simp only [if_true, and_true, Option.some.injEq]
        by_cases heq : q' = r
        · rw [heq, Function.update_self, if_pos rfl]
        · rw [Function.update_of_ne heq, if_neg (Ne.symm heq)]
    | false => simp

/-! ## The loop -/

def frameAt (s : BufferPool H Page) (localClockHand i : ℕ) : ℕ :=
  (localClockHand % s.numFrames + i) % s.numFrames

theorem Claimed.of_withFlags {flags : ℕ → Bool} {doNotReadFromFile : Bool} {f : ℕ}
    (h : Claimed (s.withFlags flags) p doNotReadFromFile f s') :
    Claimed s p doNotReadFromFile f s' :=
  ⟨h.numFrames_eq, h.numPages_eq, h.pageLocks_eq, h.frame_lt, h.notPinned, h.frame, h.others, h.map,
    h.files⟩

/-- Frames that have been looked at and not claimed: an unpinned one had been accessed recently, and
was looked at only once. -/
def Passed (s : BufferPool H Page) (localClockHand : ℕ) (flags : ℕ → Bool) (i turns : ℕ) : Prop :=
  ∀ j < turns, (s.bufferCache (s.frameAt localClockHand (i + j))).pinCount ≠ emptyPinCount ∧
    ((s.bufferCache (s.frameAt localClockHand (i + j))).pinCount = 0 →
      flags (s.frameAt localClockHand (i + j)) = true ∧
        ∀ j' < j, s.frameAt localClockHand (i + j') ≠ s.frameAt localClockHand (i + j))

omit [DecidableEq H] in
theorem Passed.cons {localClockHand i turns : ℕ} {flags flags' : ℕ → Bool}
    (hrest : Passed s localClockHand flags' (i + 1) turns)
    (hempty : (s.bufferCache (s.frameAt localClockHand i)).pinCount ≠ emptyPinCount)
    (hflag : (s.bufferCache (s.frameAt localClockHand i)).pinCount = 0 →
      flags (s.frameAt localClockHand i) = true ∧ flags' (s.frameAt localClockHand i) = false)
    (hmono : ∀ f, flags' f = true → flags f = true) :
    Passed s localClockHand flags i (turns + 1) := by
  intro j hj
  cases j with
  | zero =>
      refine ⟨hempty, fun hzero ↦ ⟨(hflag hzero).1, fun j' hj' ↦ ?_⟩⟩
      exact absurd hj' (Nat.not_lt_zero j')
  | succ j =>
      have hadd : ∀ k, i + (k + 1) = i + 1 + k := fun k ↦ by omega
      obtain ⟨hne, hpassed⟩ := hrest j (by omega)
      rw [hadd]
      refine ⟨hne, fun hzero ↦ ?_⟩
      obtain ⟨htrue, hdifferent⟩ := hpassed hzero
      refine ⟨hmono _ htrue, fun j' hj' heq ↦ ?_⟩
      cases j' with
      | zero =>
          rw [Nat.add_zero] at heq
          rw [← heq] at hzero htrue
          rw [(hflag hzero).2] at htrue
          cases htrue
      | succ j' =>
          rw [hadd] at heq
          exact hdifferent j' (by omega) heq

omit [DecidableEq H] in
theorem Consistent.withFlags (h : Consistent s) (flags : ℕ → Bool) :
    Consistent (s.withFlags flags) :=
  ⟨h.resident, h.mapped, h.empty_iff, h.pinCount_le, h.exists_page, h.clean⟩

theorem claimAFrameFrom_cases (h : Consistent s) (hpos : 0 < s.numFrames)
    (hlocks : ∀ q, q ≠ p → s.pageLocks q = false) (hnone : s.pageIdxToFrameMap p = none)
    (doNotReadFromFile : Bool) (localClockHand turns i : ℕ) (flags : ℕ → Bool) :
    (∃ flags', claimAFrameFrom p doNotReadFromFile localClockHand (s.withFlags flags) turns i =
        .ok (s.withFlags flags', none) ∧ Passed s localClockHand flags i turns) ∨
      ∃ s' f, claimAFrameFrom p doNotReadFromFile localClockHand (s.withFlags flags) turns i =
        .ok (s', some f) ∧ Claimed s p doNotReadFromFile f s' := by
  induction turns generalizing i flags with
  | zero => exact Or.inl ⟨flags, rfl, fun j hj ↦ absurd hj (Nat.not_lt_zero j)⟩
  | succ turns ih =>
      have hframe : s.frameAt localClockHand i < s.numFrames := Nat.mod_lt _ hpos
      have hat : (localClockHand % (s.withFlags flags).numFrames + i) %
          (s.withFlags flags).numFrames = s.frameAt localClockHand i := rfl
      have hpin : ((s.withFlags flags).bufferCache (s.frameAt localClockHand i)).pinCount =
          (s.bufferCache (s.frameAt localClockHand i)).pinCount := rfl
      rw [claimAFrameFrom]
      simp only [hat, hpin]
      by_cases hempty : (s.bufferCache (s.frameAt localClockHand i)).pinCount = emptyPinCount
      · rw [if_pos hempty]
        have hclaimed : Claimed (s.withFlags flags) p doNotReadFromFile _ _ :=
          claimed_of_empty (h.withFlags flags) hframe hempty doNotReadFromFile
        exact Or.inr ⟨_, _, rfl, (hclaimed.moveClockHand _).of_withFlags⟩
      · rw [if_neg hempty]
        by_cases hzero : (s.bufferCache (s.frameAt localClockHand i)).pinCount = 0
        · rw [if_pos hzero]
          cases hflag : flags (s.frameAt localClockHand i) with
          | true =>
              rw [tryEvict_of_recentlyAccessed hflag]
              simp only [ok_bind, Bool.false_eq_true, if_false]
              refine (ih (i + 1) (Function.update flags (s.frameAt localClockHand i) false)).imp
                (fun ⟨flags', heq, hrest⟩ ↦ ⟨flags', heq, hrest.cons hempty
                  (fun _ ↦ ⟨hflag, Function.update_self _ _ _⟩) fun f hf ↦ ?_⟩) id
              by_cases heq : f = s.frameAt localClockHand i
              · rw [heq]
                exact hflag
              · rwa [Function.update_of_ne heq] at hf
          | false =>
              obtain ⟨s', hevict, hclaimed⟩ :=
                exists_tryEvict_eq h hframe hlocks hnone hzero hflag doNotReadFromFile
              rw [hevict]
              exact Or.inr ⟨_, _, rfl, hclaimed.moveClockHand _⟩
        · rw [if_neg hzero]
          exact (ih (i + 1) flags).imp (fun ⟨flags', heq, hrest⟩ ↦ ⟨flags', heq,
            hrest.cons hempty (fun h ↦ absurd h hzero) fun _ hf ↦ hf⟩) id

/-- Every frame is pinned. -/
def AllPinned (s : BufferPool H Page) : Prop :=
  ∀ f < s.numFrames, 0 < (s.bufferCache f).pinCount ∧ (s.bufferCache f).pinCount ≠ emptyPinCount

omit [DecidableEq H] in
/-- Two rounds look at each frame twice. -/
theorem Passed.allPinned {localClockHand : ℕ} {flags : ℕ → Bool}
    (h : Passed s localClockHand flags 0 (2 * s.numFrames)) : s.AllPinned := by
  intro f hf
  have hstart := Nat.mod_lt localClockHand (Nat.zero_lt_of_lt hf)
  obtain ⟨j, hj, hat⟩ : ∃ j < s.numFrames, s.frameAt localClockHand j = f := by
    by_cases hle : localClockHand % s.numFrames ≤ f
    · refine ⟨f - localClockHand % s.numFrames, by omega, ?_⟩
      rw [frameAt, Nat.add_sub_cancel' hle, Nat.mod_eq_of_lt hf]
    · refine ⟨f + s.numFrames - localClockHand % s.numFrames, by omega, ?_⟩
      rw [frameAt, Nat.add_sub_cancel' (by omega), Nat.add_mod_right, Nat.mod_eq_of_lt hf]
  have hagain : s.frameAt localClockHand (j + s.numFrames) = f := by
    rw [← hat, frameAt, frameAt, ← Nat.add_assoc, Nat.add_mod_right]
  obtain ⟨hne, hpassed⟩ := h (j + s.numFrames) (by omega)
  rw [Nat.zero_add, hagain] at hne hpassed
  refine ⟨Nat.pos_of_ne_zero fun hzero ↦ ?_, hne⟩
  refine (hpassed hzero).2 j (by omega) ?_
  rw [Nat.zero_add]
  exact hat

/-- A frame is claimed, or every frame is pinned. -/
theorem claimAFrame_cases (h : Consistent s) (hsize : s.numFrames < 2 ^ 31)
    (hlocks : ∀ q, q ≠ p → s.pageLocks q = false) (hnone : s.pageIdxToFrameMap p = none)
    (doNotReadFromFile : Bool) :
    (∃ s' f, s.claimAFrame p doNotReadFromFile = .ok (s', f) ∧
      Claimed s p doNotReadFromFile f s') ∨
    s.AllPinned ∧ ∃ e, s.claimAFrame p doNotReadFromFile = .error e := by
  rw [claimAFrame]
  by_cases hzero : s.numFrames = 0
  · rw [if_pos hzero]
    refine Or.inr ⟨fun f hf ↦ ?_, _, rfl⟩
    rw [hzero] at hf
    exact absurd hf (Nat.not_lt_zero f)
  · have hturns : 2 * s.numFrames % 2 ^ 32 = 2 * s.numFrames := Nat.mod_eq_of_lt (by omega)
    have hflags : s.withFlags (fun i ↦ (s.bufferCache i).recentlyAccessed) = s := rfl
    have hcases := claimAFrameFrom_cases h (Nat.pos_of_ne_zero hzero) hlocks hnone
      doNotReadFromFile s.clockHand (2 * s.numFrames) 0 fun i ↦ (s.bufferCache i).recentlyAccessed
    rw [hflags] at hcases
    rw [if_neg hzero, hturns]
    rcases hcases with ⟨flags', heq, hpassed⟩ | ⟨s', f, heq, hclaimed⟩
    · rw [heq]
      exact Or.inr ⟨hpassed.allPinned, _, rfl⟩
    · rw [heq]
      exact Or.inl ⟨s', f, rfl, hclaimed⟩

end BufferPool

end Graphflow.Storage
