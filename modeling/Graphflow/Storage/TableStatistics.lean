import Graphflow.Catalog.Content
import Mathlib.Data.Finset.Max

/-!
# Table statistics

The statistics of the node tables, which also hold the deleted node offsets, and of the rel
tables.  Both are kept per table in a map with a pending write version.  The write version is made
before the update is tried, so it stays behind when the update throws.
-/

namespace Graphflow.Storage

def uint64Max : ℕ := 2 ^ 64 - 1

def defaultVectorCapacity : ℕ := 2 ^ 11

/-- `vector::operator[]` for writing; an index behind the end is not checked by the source. -/
def setElement {α : Type*} (l : List α) (i : ℕ) (a : α) : Except Fault (List α) :=
  if i < l.length then .ok (l.set i a) else .error .invalidAccess

theorem keys_insert {α : Type*} (m : TableMap α) (t : ℕ) (a : α) :
    (m.insert t a).keys = insert t m.keys := by
  ext t'
  rw [Finmap.mem_keys, Finmap.mem_insert, Finset.mem_insert, Finmap.mem_keys]

structure NodeStatisticsAndDeletedIDs where
  numTuples : ℕ
  tableID : ℕ
  hasDeletedNodesPerMorsel : List Bool
  deletedNodeOffsetsPerMorsel : Finmap fun _ : ℕ ↦ Finset ℕ
  deriving DecidableEq

namespace NodeStatisticsAndDeletedIDs

def getMaxNodeOffsetFromNumTuples (numTuples : ℕ) : ℕ :=
  if numTuples = uint64Max then uint64Max else (numTuples + uint64Max) % 2 ^ 64

def getMaxNodeOffset (s : NodeStatisticsAndDeletedIDs) : ℕ :=
  getMaxNodeOffsetFromNumTuples s.numTuples

/-- `vector<bool>::resize` with `false` for the new elements. -/
def resize (l : List Bool) (n : ℕ) : List Bool := l.take n ++ List.replicate (n - l.length) false

def setMaxNodeOffset (s : NodeStatisticsAndDeletedIDs) (maxNodeOffset : ℕ) :
    NodeStatisticsAndDeletedIDs :=
  if maxNodeOffset = uint64Max then { s with numTuples := uint64Max }
  else { s with
    numTuples := (maxNodeOffset + 1) % 2 ^ 64
    hasDeletedNodesPerMorsel :=
      resize s.hasDeletedNodesPerMorsel (maxNodeOffset / defaultVectorCapacity + 1) }

/-- The statistics of a new table without nodes. -/
def empty (tableID : ℕ) : NodeStatisticsAndDeletedIDs := ⟨uint64Max, tableID, [], ∅⟩

/-- The node offset is returned.  A deleted offset is reused first; when it was the last one of its
morsel, the source reads the key of the morsel from the map entry that it has just erased. -/
def addNode (s : NodeStatisticsAndDeletedIDs) : Except Fault (NodeStatisticsAndDeletedIDs × ℕ) :=
  match s.deletedNodeOffsetsPerMorsel.keys.min with
  | ⊤ =>
      let s := { s with numTuples := (s.numTuples + 1) % 2 ^ 64 }
      .ok (s, s.getMaxNodeOffset)
  | some morselIdx =>
      let deletedNodeOffsets := (s.deletedNodeOffsetsPerMorsel.lookup morselIdx).getD ∅
      match deletedNodeOffsets.max with
      | ⊥ => .error .invalidAccess
      | some retVal =>
          if deletedNodeOffsets.erase retVal = ∅ then .error .invalidAccess
          else .ok ({ s with
            deletedNodeOffsetsPerMorsel := s.deletedNodeOffsetsPerMorsel.insert morselIdx
              (deletedNodeOffsets.erase retVal) }, retVal)

def isDeleted (s : NodeStatisticsAndDeletedIDs) (nodeOffset morselIdx : ℕ) : Bool :=
  match s.deletedNodeOffsetsPerMorsel.lookup morselIdx with
  | some offsets => nodeOffset ∈ offsets
  | none => false

def cannotDeleteMessage (s : NodeStatisticsAndDeletedIDs) (nodeOffset : ℕ) : String :=
  "Cannot delete nodeOffset " ++ formatD nodeOffset ++ " in nodeTable " ++ formatD s.tableID ++
    ". maxNodeOffset is either -1 or nodeOffset is > maxNodeOffset: " ++
    formatD s.getMaxNodeOffset ++ "."

/-- `edgesMessage` is the message of `errorIfNodeHasEdges` if the node has edges. -/
def deleteNode (s : NodeStatisticsAndDeletedIDs) (nodeOffset : ℕ) (edgesMessage : Option String) :
    Except Fault NodeStatisticsAndDeletedIDs := do
  let maxNodeOffset := s.getMaxNodeOffset
  if maxNodeOffset = uint64Max ∨ maxNodeOffset < nodeOffset then
    throw (.exception (s.cannotDeleteMessage nodeOffset))
  let morselIdx := nodeOffset / defaultVectorCapacity
  if s.isDeleted nodeOffset morselIdx then
    throw (.exception ("Node with offset " ++ formatD nodeOffset ++ " is already deleted."))
  if let some message := edgesMessage then
    throw (.exception message)
  match s.hasDeletedNodesPerMorsel[morselIdx]? with
  | none => throw .invalidAccess
  | some hasDeletedNodes =>
      let deletedNodeOffsetsPerMorsel :=
        if hasDeletedNodes ∨ morselIdx ∈ s.deletedNodeOffsetsPerMorsel then
          s.deletedNodeOffsetsPerMorsel
        else s.deletedNodeOffsetsPerMorsel.insert morselIdx ∅
      match deletedNodeOffsetsPerMorsel.lookup morselIdx with
      | none => throw .invalidAccess
      | some offsets =>
          return { s with
            deletedNodeOffsetsPerMorsel :=
              deletedNodeOffsetsPerMorsel.insert morselIdx (insert nodeOffset offsets)
            hasDeletedNodesPerMorsel := s.hasDeletedNodesPerMorsel.set morselIdx true }

/-- One turn of the loop of the constructor over the deleted offsets. -/
def addDeletedNodeOffset (s : NodeStatisticsAndDeletedIDs) (deletedNodeOffset : ℕ) :
    Except Fault NodeStatisticsAndDeletedIDs := do
  let morselIdx := deletedNodeOffset / defaultVectorCapacity
  let hasDeletedNodesPerMorsel ← setElement s.hasDeletedNodesPerMorsel morselIdx true
  let offsets := (s.deletedNodeOffsetsPerMorsel.lookup morselIdx).getD ∅
  return { s with
    hasDeletedNodesPerMorsel := hasDeletedNodesPerMorsel
    deletedNodeOffsetsPerMorsel :=
      s.deletedNodeOffsetsPerMorsel.insert morselIdx (insert deletedNodeOffset offsets) }

/-- The constructor with a maximal offset and the deleted offsets. -/
def ofDeletedNodeOffsets (tableID maxNodeOffset : ℕ) (deletedNodeOffsets : List ℕ) :
    Except Fault NodeStatisticsAndDeletedIDs :=
  deletedNodeOffsets.foldlM addDeletedNodeOffset
    (setMaxNodeOffset ⟨0, tableID, [], ∅⟩ maxNodeOffset)

end NodeStatisticsAndDeletedIDs

structure RelStatistics where
  numTuples : ℕ
  numRelsPerDirectionBoundTable : Wal.RelDirection → Finmap fun _ : ℕ ↦ ℕ

namespace RelStatistics

/-- The statistics of a new table without rels. -/
def ofSrcDstTableIDs (srcDstTableIDs : SrcDstTableIDs) : RelStatistics where
  numTuples := 0
  numRelsPerDirectionBoundTable
    | .fwd => (srcDstTableIDs.srcTableIDs.map fun t ↦ ⟨t, 0⟩).toFinmap
    | .bwd => (srcDstTableIDs.dstTableIDs.map fun t ↦ ⟨t, 0⟩).toFinmap

def setNumTuples (s : RelStatistics) (numTuples : ℕ) : RelStatistics :=
  { s with numTuples := numTuples }

def setNumRelsForDirectionBoundTable (s : RelStatistics) (relDirection : Wal.RelDirection)
    (boundTableID numRels : ℕ) : RelStatistics :=
  { s with
    numRelsPerDirectionBoundTable := Function.update s.numRelsPerDirectionBoundTable relDirection
      ((s.numRelsPerDirectionBoundTable relDirection).insert boundTableID numRels) }

/-- The loop of `setNumRelsPerDirectionBoundTableID` over one direction. -/
def setNumRelsForDirection (s : RelStatistics) (relDirection : Wal.RelDirection)
    (numRelsPerTable : List ℕ) : RelStatistics :=
  (numRelsPerTable.zipIdx).foldl
    (fun s (numRels, boundTableID) ↦
      s.setNumRelsForDirectionBoundTable relDirection boundTableID numRels) s

end RelStatistics

/-- The map of `TablesStatistics` in its two versions. -/
abbrev TablesStatistics (α : Type*) := Lib.Versioned (TableMap α)

namespace TablesStatistics

variable {α : Type*}

def addTableStatistic (s : TablesStatistics α) (tableID : ℕ) (statistics : α) :
    TablesStatistics α :=
  s.setWrite (s.forWrite.insert tableID statistics)

/-- An update of the statistics of one table in the write version.  The entry of a table without
statistics is null. -/
def updateTable (s : TablesStatistics α) (tableID : ℕ) (f : α → Except Fault α) :
    Except Fault (TablesStatistics α) :=
  match s.forWrite.lookup tableID with
  | none => .error .invalidAccess
  | some statistics =>
      match f statistics with
      | .ok statistics => .ok (s.setWrite (s.forWrite.insert tableID statistics))
      | .error (.exception _) => .ok s.initWrite
      | .error .invalidAccess => .error .invalidAccess

/-- The read-only version becomes null when there is no write version. -/
def checkpointInMemoryIfNecessary (s : TablesStatistics α) : Except Fault (TablesStatistics α) :=
  match s.checkpoint? with
  | some s => .ok s
  | none => .error .invalidAccess

/-- Called for a dropped table while checkpointing. -/
def removeTableStatistic (s : TablesStatistics α) (tableID : ℕ) : TablesStatistics α :=
  { s with readOnly := s.readOnly.erase tableID }

theorem readOnly_updateTable {s s' : TablesStatistics α} {tableID : ℕ} {f : α → Except Fault α}
    (hs : s.updateTable tableID f = .ok s') : s'.readOnly = s.readOnly := by
  unfold updateTable at hs
  split at hs
  · simp at hs
  · split at hs
    · cases hs
      rfl
    · cases hs
      rfl
    · simp at hs

end TablesStatistics

abbrev NodesStatisticsAndDeletedIDs := TablesStatistics NodeStatisticsAndDeletedIDs

abbrev RelsStatistics := TablesStatistics RelStatistics

namespace RelsStatistics

def setNumRelsForTable (s : RelsStatistics) (tableID numRels : ℕ) : Except Fault RelsStatistics :=
  s.updateTable tableID fun statistics ↦ .ok (statistics.setNumTuples numRels)

def setNumRelsPerDirectionBoundTableID (s : RelsStatistics) (tableID : ℕ)
    (directionNumRelsPerTable : Wal.RelDirection → List ℕ) : Except Fault RelsStatistics :=
  s.updateTable tableID fun statistics ↦ .ok <|
    (statistics.setNumRelsForDirection .fwd (directionNumRelsPerTable .fwd)).setNumRelsForDirection
      .bwd (directionNumRelsPerTable .bwd)

end RelsStatistics

namespace NodesStatisticsAndDeletedIDs

def addNode (s : NodesStatisticsAndDeletedIDs) (tableID : ℕ) :
    Except Fault NodesStatisticsAndDeletedIDs :=
  s.updateTable tableID fun statistics ↦ do
    let (statistics, _) ← statistics.addNode
    return statistics

def deleteNode (s : NodesStatisticsAndDeletedIDs) (tableID nodeOffset : ℕ)
    (edgesMessage : Option String) : Except Fault NodesStatisticsAndDeletedIDs :=
  s.updateTable tableID fun statistics ↦ statistics.deleteNode nodeOffset edgesMessage

def setMaxNodeOffsetForTable (s : NodesStatisticsAndDeletedIDs) (tableID nodeOffset : ℕ) :
    Except Fault NodesStatisticsAndDeletedIDs :=
  s.updateTable tableID fun statistics ↦ .ok (statistics.setMaxNodeOffset nodeOffset)

def addNodeStatisticsAndDeletedIDs (s : NodesStatisticsAndDeletedIDs) (tableID : ℕ) :
    NodesStatisticsAndDeletedIDs :=
  TablesStatistics.addTableStatistic s tableID (.empty tableID)

end NodesStatisticsAndDeletedIDs

end Graphflow.Storage
