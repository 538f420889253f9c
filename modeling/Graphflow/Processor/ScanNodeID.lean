import Graphflow.Storage.NodeLifecycle
import Mathlib.Data.Finset.Sort

/-!
# Scanning the nodes of a table

Scan threads take ranges of node offsets from a state they share and select from each range the
offsets that are to be read.  A semi mask restricts a scan to the nodes that all maskers have
marked; the deleted offsets are taken out by the statistics of the table.
-/

namespace Graphflow.Processor

open Storage

/-! ## Semi masks -/

structure Mask where
  maskedFlag : ℕ
  data : List ℕ

namespace Mask

def ofSize (size maskedFlag : ℕ) : Mask := ⟨maskedFlag, List.replicate size 0⟩

def badAlloc : Fault := .exception "std::bad_alloc"

/-- The constructor, with the size of the largest allocation that succeeds. -/
def allocate (memory size maskedFlag : ℕ) : Except Fault Mask :=
  if size ≤ memory then .ok (ofSize size maskedFlag) else .error badAlloc

def setMask (mask : Mask) (pos maskerIdx maskValue : ℕ) : Mask :=
  if mask.data[pos]? = some maskerIdx then { mask with data := mask.data.set pos maskValue }
  else mask

/-- Positions behind the end are never asked for. -/
def isMasked (mask : Mask) (pos : ℕ) : Bool := mask.data[pos]? = some mask.maskedFlag

end Mask

structure ScanNodeIDSemiMask where
  nodeMask : Mask
  morselMask : Mask

namespace ScanNodeIDSemiMask

/-- The number of nodes wraps around to zero in an empty table, the number of morsels does not. -/
def sizes (maxNodeOffset : ℕ) : ℕ × ℕ :=
  ((maxNodeOffset + 1) % 2 ^ 64, maxNodeOffset / defaultVectorCapacity + 1)

/-- The constructor. -/
def allocate (memory maxNodeOffset maskedFlag : ℕ) : Except Fault ScanNodeIDSemiMask := do
  let nodeMask ← Mask.allocate memory (sizes maxNodeOffset).1 maskedFlag
  let morselMask ← Mask.allocate memory (sizes maxNodeOffset).2 maskedFlag
  return ⟨nodeMask, morselMask⟩

/-- The masks that the constructor leaves if it does not throw. -/
def ofMaxNodeOffset (maxNodeOffset maskedFlag : ℕ) : ScanNodeIDSemiMask where
  nodeMask := .ofSize ((maxNodeOffset + 1) % 2 ^ 64) maskedFlag
  morselMask := .ofSize (maxNodeOffset / defaultVectorCapacity + 1) maskedFlag

/-- The values of the masks are of type `uint8_t`. -/
def setMask (mask : ScanNodeIDSemiMask) (nodeOffset maskerIdx : ℕ) : ScanNodeIDSemiMask where
  nodeMask := mask.nodeMask.setMask nodeOffset maskerIdx ((maskerIdx + 1) % 2 ^ 8)
  morselMask := mask.morselMask.setMask (nodeOffset / defaultVectorCapacity) maskerIdx
    ((maskerIdx + 1) % 2 ^ 8)

def isNodeMasked (mask : ScanNodeIDSemiMask) (nodeOffset : ℕ) : Bool :=
  mask.nodeMask.isMasked nodeOffset

def isMorselMasked (mask : ScanNodeIDSemiMask) (morselIdx : ℕ) : Bool :=
  mask.morselMask.isMasked morselIdx

/-- The mask after the maskers have marked nodes, each call with the index of its masker. -/
def ofCalls (maxNodeOffset numMaskers : ℕ) (calls : List (ℕ × ℕ)) : ScanNodeIDSemiMask :=
  calls.foldl (fun mask call ↦ mask.setMask call.1 call.2)
    (ofMaxNodeOffset maxNodeOffset numMaskers)

/-- The semi mask with which a scan starts if it has maskers: `initSemiMask` and their calls. -/
def ofMaskers (memory : ℕ) (stats : NodeStatisticsAndDeletedIDs) :
    Option (ℕ × List (ℕ × ℕ)) → Except Fault (Option ScanNodeIDSemiMask)
  | none => .ok none
  | some (numMaskers, calls) => do
      let mask ← allocate memory stats.getMaxNodeOffset numMaskers
      return some (calls.foldl (fun mask call ↦ mask.setMask call.1 call.2) mask)

end ScanNodeIDSemiMask

/-! ## Handing out ranges -/

structure ScanNodeIDSharedState where
  maxNodeOffset : ℕ
  maxMorselIdx : ℕ
  currentNodeOffset : ℕ := 0
  semiMask : Option ScanNodeIDSemiMask := none

namespace ScanNodeIDSharedState

/-- `initialize`. -/
def ofStatistics (stats : NodeStatisticsAndDeletedIDs) (semiMask : Option ScanNodeIDSemiMask) :
    ScanNodeIDSharedState where
  maxNodeOffset := stats.getMaxNodeOffset
  maxMorselIdx := stats.getMaxNodeOffset / defaultVectorCapacity
  semiMask := semiMask

/-- The loop over the morsels that are not masked. -/
def skipMorsels (semiMask : ScanNodeIDSemiMask) : ℕ → ℕ → ℕ
  | 0, currentMorselIdx => currentMorselIdx
  | numMorsels + 1, currentMorselIdx =>
      if semiMask.isMorselMasked currentMorselIdx then currentMorselIdx
      else skipMorsels semiMask numMorsels (currentMorselIdx + 1)

def assertionFailed : Fault := .exception "Assertion failed."

def getNextRangeToRead (s : ScanNodeIDSharedState) :
    Except Fault ((ℕ × ℕ) × ScanNodeIDSharedState) := do
  if s.maxNodeOffset < s.currentNodeOffset ∨ s.maxNodeOffset = uint64Max then
    return ((s.currentNodeOffset, s.currentNodeOffset), s)
  let startOffset ← match s.semiMask with
    | some semiMask =>
        let currentMorselIdx := s.currentNodeOffset / defaultVectorCapacity
        if s.currentNodeOffset % defaultVectorCapacity ≠ 0 then
          throw assertionFailed
        let currentMorselIdx :=
          skipMorsels semiMask (s.maxMorselIdx + 1 - currentMorselIdx) currentMorselIdx
        pure (min (currentMorselIdx * defaultVectorCapacity) s.maxNodeOffset)
    | none => pure s.currentNodeOffset
  let range := min defaultVectorCapacity (s.maxNodeOffset + 1 - startOffset)
  return ((startOffset, startOffset + range), { s with currentNodeOffset := startOffset + range })

end ScanNodeIDSharedState

/-! ## Selecting offsets -/

/-- The positions that are kept when the deleted ones are met in ascending order. -/
def selectNotDeleted : List ℕ → List ℕ → List ℕ
  | [], _ => []
  | pos :: positions, [] => pos :: selectNotDeleted positions []
  | pos :: positions, nextDeleted :: rest =>
      if pos = nextDeleted then selectNotDeleted positions rest
      else pos :: selectNotDeleted positions (nextDeleted :: rest)

/-- The selection of the vector whose first value is `startOffset`.  If its morsel has deleted
offsets, the positions selected so far are overwritten.  `selectedSize` is of type `uint16_t`; a
size greater than the number of positions written makes positions of an earlier range be read. -/
def setDeletedNodeOffsetsForMorsel (stats : NodeStatisticsAndDeletedIDs)
    (startOffset originalSize : ℕ) (selectedPositions : List ℕ) : Except Fault (List ℕ) :=
  let morselIdx := startOffset / defaultVectorCapacity
  match stats.hasDeletedNodesPerMorsel[morselIdx]? with
  | none => .error .invalidAccess
  | some false => .ok selectedPositions
  | some true =>
      let deletedNodeOffsets := (stats.deletedIn morselIdx).sort (· ≤ ·)
      let morselBeginOffset := morselIdx * defaultVectorCapacity
      match deletedNodeOffsets with
      | [] => .error .invalidAccess
      | _ =>
          let written := selectNotDeleted (List.range originalSize)
            (deletedNodeOffsets.map (· - morselBeginOffset))
          let selectedSize := (originalSize + 2 ^ 16 - deletedNodeOffsets.length) % 2 ^ 16
          if selectedSize ≤ written.length then .ok (written.take selectedSize)
          else .error .invalidAccess

def setSelVector (s : ScanNodeIDSharedState) (stats : NodeStatisticsAndDeletedIDs)
    (startOffset endOffset : ℕ) : Except Fault (List ℕ) :=
  let size := endOffset - startOffset
  let selectedPositions := match s.semiMask with
    | some semiMask => (List.range size).filter fun i ↦ semiMask.isNodeMasked (i + startOffset)
    | none => List.range size
  setDeletedNodeOffsetsForMorsel stats startOffset size selectedPositions

/-! ## Scan threads -/

/-- A scan with what its threads have been handed out and have selected so far. -/
structure Scan where
  shared : ScanNodeIDSharedState
  ranges : List (ℕ × ℕ) := []
  /-- Selected node offsets, each with its thread. -/
  selected : List (ℕ × ℕ) := []
  /-- The threads whose `getNextTuples` has returned false. -/
  finished : Finset ℕ := ∅

/-- One turn of the loop of `getNextTuples` of a thread. -/
def turn (stats : NodeStatisticsAndDeletedIDs) (scan : Scan) (thread : ℕ) : Option Scan :=
  match scan.shared.getNextRangeToRead with
  | .error _ => none
  | .ok ((startOffset, endOffset), shared) =>
      if endOffset ≤ startOffset then
        some { scan with shared := shared, finished := insert thread scan.finished }
      else
        match setSelVector shared stats startOffset endOffset with
        | .error _ => none
        | .ok positions => some { scan with
            shared := shared
            ranges := scan.ranges ++ [(startOffset, endOffset)]
            selected := scan.selected ++ positions.map fun pos ↦ (thread, startOffset + pos) }

end Graphflow.Processor
