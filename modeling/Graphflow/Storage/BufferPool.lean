import Graphflow.Storage.ListHeaders
import Mathlib.Logic.Function.Basic

/-!
# The buffer pool

The pool with the page locks and the maps of the file handles, and the files.  Frame locks are held
only within a call, and one client finds them free.
-/

namespace Graphflow.Storage

/-- A spinning call never returns. -/
inductive PoolFault
  | exception (message : String)
  | invalidAccess
  | spins
  deriving DecidableEq, Repr

structure PageID (H : Type) where
  fileHandle : H
  pageIdx : ℕ
  deriving DecidableEq, Repr

/-- `-1u`, the pin count of an empty frame. -/
def emptyPinCount : ℕ := 2 ^ 32 - 1

/-- `page` has `fileHandlePtr` and `pageIdx`. -/
structure Frame (H Page : Type) where
  page : Option (PageID H) := none
  pinCount : ℕ := emptyPinCount
  recentlyAccessed : Bool := false
  isDirty : Bool := false
  buffer : Page

def Frame.resetFrameWithoutLock {H Page : Type} (frame : Frame H Page) : Frame H Page where
  buffer := frame.buffer

/-- The bytes of a page. -/
abbrev PageOf (pageSize : ℕ) (Byte : Type) := Fin pageSize → Byte

/-- `memcpy` of a page of the default size, whatever the page size of the pool is. -/
def memcpyDefaultPage {pageSize : ℕ} {Byte : Type} (target newPage : PageOf pageSize Byte) :
    PageOf pageSize Byte :=
  fun i ↦ if i.val < defaultPageSize then newPage i else target i

structure BufferPool (H Page : Type) where
  numFrames : ℕ
  clockHand : ℕ := 0
  bufferCache : ℕ → Frame H Page
  numPages : H → ℕ
  pageIdxToFrameMap : PageID H → Option ℕ := fun _ ↦ none
  pageLocks : PageID H → Bool := fun _ ↦ false
  files : PageID H → Page

namespace BufferPool

variable {H Page : Type} [DecidableEq H] (s : BufferPool H Page)

/-! ## File handles -/

/-- `acquire`. -/
def checkPageIdx (p : PageID H) : Except PoolFault Unit :=
  if p.pageIdx < s.numPages p.fileHandle then .ok ()
  else .error (.exception "pageIdx is >= pageLocks.size()")

def setPageLock (p : PageID H) (held : Bool) : BufferPool H Page :=
  { s with pageLocks := Function.update s.pageLocks p held }

/-- A blocking acquisition. -/
def acquirePageLock (p : PageID H) : Except PoolFault (BufferPool H Page) := do
  s.checkPageIdx p
  if s.pageLocks p then .error .spins else .ok (s.setPageLock p true)

def releasePageLock (p : PageID H) : BufferPool H Page := s.setPageLock p false

def swizzle (p : PageID H) (frameIdx : Option ℕ) : BufferPool H Page :=
  { s with pageIdxToFrameMap := Function.update s.pageIdxToFrameMap p frameIdx }

def writePage (p : PageID H) (page : Page) : BufferPool H Page :=
  { s with files := Function.update s.files p page }

/-! ## Frames -/

def setFrame (frameIdx : ℕ) (frame : Frame H Page) : BufferPool H Page :=
  { s with bufferCache := Function.update s.bufferCache frameIdx frame }

def moveClockHand (newClockHand : ℕ) : BufferPool H Page :=
  if newClockHand < s.clockHand then s else { s with clockHand := newClockHand }

def flushIfDirty (frameIdx : ℕ) : Except PoolFault (BufferPool H Page) :=
  let frame := s.bufferCache frameIdx
  if frame.isDirty then
    match frame.page with
    | some p => .ok (s.writePage p frame.buffer)
    | none => .error .invalidAccess
  else .ok s

def clearFrameAndUnswizzleWithoutLock (frameIdx : ℕ) (p : PageID H) : BufferPool H Page :=
  (s.setFrame frameIdx (s.bufferCache frameIdx).resetFrameWithoutLock).swizzle p none

def readNewPageIntoFrame (frameIdx : ℕ) (p : PageID H) (doNotReadFromFile : Bool) :
    BufferPool H Page :=
  s.setFrame frameIdx {
    page := some p
    pinCount := 1
    recentlyAccessed := true
    isDirty := false
    buffer := if doNotReadFromFile then (s.bufferCache frameIdx).buffer else s.files p }

def tryEvict (frameIdx : ℕ) (p : PageID H) (doNotReadFromFile : Bool) :
    Except PoolFault (BufferPool H Page × Bool) :=
  let frame := s.bufferCache frameIdx
  if frame.recentlyAccessed then
    .ok (s.setFrame frameIdx { frame with recentlyAccessed := false }, false)
  else
    match frame.page with
    | none => .error .invalidAccess
    | some pageInFrame => do
        s.checkPageIdx pageInFrame
        if s.pageLocks pageInFrame then return (s, false)
        let s := s.setPageLock pageInFrame true
        if frame.pinCount ≠ 0 then return (s.releasePageLock pageInFrame, false)
        let s ← s.flushIfDirty frameIdx
        let s := s.clearFrameAndUnswizzleWithoutLock frameIdx pageInFrame
        let s := s.releasePageLock pageInFrame
        return (s.readNewPageIntoFrame frameIdx p doNotReadFromFile, true)

/-- The loop of `claimAFrame` with some turns left.  An empty frame is filled at once. -/
def claimAFrameFrom (p : PageID H) (doNotReadFromFile : Bool) (localClockHand : ℕ) :
    BufferPool H Page → ℕ → ℕ → Except PoolFault (BufferPool H Page × Option ℕ)
  | s, 0, _ => .ok (s, none)
  | s, turns + 1, i =>
      let frameIdx := (localClockHand % s.numFrames + i) % s.numFrames
      let pinCount := (s.bufferCache frameIdx).pinCount
      if pinCount = emptyPinCount then
        .ok ((s.readNewPageIntoFrame frameIdx p doNotReadFromFile).moveClockHand
          (localClockHand + i + 1), some frameIdx)
      else if pinCount = 0 then do
        let (s, evicted) ← s.tryEvict frameIdx p doNotReadFromFile
        if evicted then .ok (s.moveClockHand (localClockHand + i + 1), some frameIdx)
        else claimAFrameFrom p doNotReadFromFile localClockHand s turns (i + 1)
      else claimAFrameFrom p doNotReadFromFile localClockHand s turns (i + 1)

/-- The remainder of a division by zero is none; the bound of the loop has 32 bits. -/
def claimAFrame (p : PageID H) (doNotReadFromFile : Bool) :
    Except PoolFault (BufferPool H Page × ℕ) :=
  if s.numFrames = 0 then .error .invalidAccess
  else do
    let (s, frameIdx) ←
      claimAFrameFrom p doNotReadFromFile s.clockHand s (2 * s.numFrames % 2 ^ 32) 0
    match frameIdx with
    | some frameIdx => return (s, frameIdx)
    | none => .error (.exception "Cannot find a frame to evict from.")

/-! ## Calls of the client -/

/-- The frame to whose buffer the returned pointer points. -/
def getFrameIdx (p : PageID H) : Except PoolFault ℕ :=
  match s.pageIdxToFrameMap p with
  | some frameIdx => .ok frameIdx
  | none => .error .invalidAccess

def pinWithoutAcquiringPageLock (p : PageID H) (doNotReadFromFile : Bool) :
    Except PoolFault (BufferPool H Page) :=
  match s.pageIdxToFrameMap p with
  | some frameIdx =>
      let frame := s.bufferCache frameIdx
      .ok (s.setFrame frameIdx { frame with
        pinCount := (frame.pinCount + 1) % 2 ^ 32
        recentlyAccessed := true })
  | none => do
      let (s, frameIdx) ← s.claimAFrame p doNotReadFromFile
      return s.swizzle p (some frameIdx)

/-- An exception leaves the page locked. -/
def pinPage (p : PageID H) (doNotReadFromFile : Bool) :
    Except PoolFault (BufferPool H Page × ℕ) := do
  let s ← s.acquirePageLock p
  let s ← s.pinWithoutAcquiringPageLock p doNotReadFromFile
  return (s.releasePageLock p, ← s.getFrameIdx p)

def pin (p : PageID H) : Except PoolFault (BufferPool H Page × ℕ) := s.pinPage p false

def pinWithoutReadingFromFile (p : PageID H) : Except PoolFault (BufferPool H Page × ℕ) :=
  s.pinPage p true

/-- The message goes on with the path and the page index. -/
def notPinned : PoolFault :=
  .exception "If a page is not in memory or is not pinned, cannot set it to isDirty = true."

def setPinnedPageDirty (p : PageID H) : Except PoolFault (BufferPool H Page) := do
  let s ← s.acquirePageLock p
  match s.pageIdxToFrameMap p with
  | some frameIdx =>
      let frame := s.bufferCache frameIdx
      if frame.pinCount < 1 then .error notPinned
      else .ok ((s.setFrame frameIdx { frame with isDirty := true }).releasePageLock p)
  | none => .error notPinned

def unpin (p : PageID H) : Except PoolFault (BufferPool H Page) := do
  let s ← s.acquirePageLock p
  let frameIdx ← s.getFrameIdx p
  let frame := s.bufferCache frameIdx
  return (s.setFrame frameIdx
    { frame with pinCount := (frame.pinCount + (2 ^ 32 - 1)) % 2 ^ 32 }).releasePageLock p

def removePageFromFrame (p : PageID H) (shouldFlush : Bool) :
    Except PoolFault (BufferPool H Page) := do
  let s ← s.acquirePageLock p
  match s.pageIdxToFrameMap p with
  | some frameIdx =>
      let s ← if shouldFlush then s.flushIfDirty frameIdx else .ok s
      return (s.clearFrameAndUnswizzleWithoutLock frameIdx p).releasePageLock p
  | none => return s.releasePageLock p

/-- The client writes through the pointer that it has got. -/
def writeBuffer (frameIdx : ℕ) (page : Page) : BufferPool H Page :=
  s.setFrame frameIdx { s.bufferCache frameIdx with buffer := page }

end BufferPool

namespace BufferPool

variable {H Byte : Type} [DecidableEq H] {pageSize : ℕ} (s : BufferPool H (PageOf pageSize Byte))

def updateFrameIfPageIsInFrameWithoutPageOrFrameLock (p : PageID H)
    (newPage : PageOf pageSize Byte) : BufferPool H (PageOf pageSize Byte) :=
  match s.pageIdxToFrameMap p with
  | some frameIdx =>
      s.writeBuffer frameIdx (memcpyDefaultPage (s.bufferCache frameIdx).buffer newPage)
  | none => s

end BufferPool

/-- What the client does.  A page that has been pinned without being read is filled at once, and a
page that has been written is set dirty; an update of a frame follows a write to the file. -/
inductive PoolCall (H Page : Type)
  | pin (p : PageID H)
  | pinWithoutReadingFromFile (p : PageID H) (page : Page)
  | write (p : PageID H) (page : Page)
  | unpin (p : PageID H)
  | removePageFromFrame (p : PageID H) (shouldFlush : Bool)
  | updateFrame (p : PageID H) (page : Page)
  deriving Repr

namespace BufferPool

variable {H Byte : Type} [DecidableEq H] {pageSize : ℕ}

def perform (s : BufferPool H (PageOf pageSize Byte)) :
    PoolCall H (PageOf pageSize Byte) → Except PoolFault (BufferPool H (PageOf pageSize Byte))
  | .pin p => do
      let (s, _) ← s.pin p
      return s
  | .pinWithoutReadingFromFile p page => do
      let (s, frameIdx) ← s.pinWithoutReadingFromFile p
      (s.writeBuffer frameIdx page).setPinnedPageDirty p
  | .write p page => do
      let frameIdx ← s.getFrameIdx p
      (s.writeBuffer frameIdx page).setPinnedPageDirty p
  | .unpin p => s.unpin p
  | .removePageFromFrame p shouldFlush => s.removePageFromFrame p shouldFlush
  | .updateFrame p page =>
      .ok ((s.writePage p page).updateFrameIfPageIsInFrameWithoutPageOrFrameLock p page)

end BufferPool

end Graphflow.Storage
