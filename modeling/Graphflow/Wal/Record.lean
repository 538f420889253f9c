import Mathlib.Algebra.Ring.Nat
import Mathlib.Data.Nat.Notation
import Mathlib.Tactic.Common

/-!
# Records of the write-ahead log

The record types of `wal_record.h`.  A log is the list of the records in the order in which they
were appended; how the records are laid out on the pages of the WAL file is the subject of
`Graphflow.Wal.File`.
-/

namespace Graphflow.Wal

inductive RelDirection
  | fwd
  | bwd
  deriving DecidableEq, Repr

inductive ListFileType
  | baseLists
  | headers
  | metadata
  deriving DecidableEq, Repr

structure RelNodeTableAndDir where
  relTableID : ℕ
  srcNodeTableID : ℕ
  dir : RelDirection
  deriving DecidableEq, Repr

/-- The tagged union `ListFileID`; the tag is the source's `ListType`. -/
inductive ListFileID
  | unstructuredNodePropertyLists (listFileType : ListFileType) (tableID : ℕ)
  | adjLists (listFileType : ListFileType) (relNodeTableAndDir : RelNodeTableAndDir)
  | relPropertyLists (listFileType : ListFileType) (relNodeTableAndDir : RelNodeTableAndDir)
      (propertyID : ℕ)
  deriving DecidableEq, Repr

/-- The tagged union inside `StorageStructureID`; the tag is the source's
`StorageStructureType`. -/
inductive StorageStructure
  | structuredNodePropertyColumn (tableID propertyID : ℕ)
  | lists (listFileID : ListFileID)
  | nodeIndex (tableID : ℕ)
  deriving DecidableEq, Repr

structure StorageStructureID where
  storageStructure : StorageStructure
  isOverflow : Bool
  deriving DecidableEq, Repr

inductive WALRecord
  | pageUpdateOrInsert (storageStructureID : StorageStructureID)
      (pageIdxInOriginalFile pageIdxInWAL : ℕ) (isInsert : Bool)
  | tableStatistics (isNodeTable : Bool)
  | commit (transactionID : ℕ)
  | catalog
  | nodeTable (tableID : ℕ)
  | relTable (tableID : ℕ)
  | overflowFileNextBytePos (storageStructureID : StorageStructureID)
      (prevNextBytePosToWriteTo : ℕ)
  | copyNodeCSV (tableID : ℕ)
  | copyRelCSV (tableID : ℕ)
  | dropTable (isNodeTable : Bool) (tableID : ℕ)
  deriving DecidableEq, Repr

/-- The records logged since the log was last cleared, oldest first. -/
abbrev Log := List WALRecord

def WALRecord.isCommit : WALRecord → Bool
  | .commit _ => true
  | _ => false

/-- `WAL::isLastLoggedRecordCommit` on the level of records. -/
def Log.isLastRecordCommit (log : Log) : Bool :=
  log.getLast?.any WALRecord.isCommit

def Log.logCommit (log : Log) (transactionID : ℕ) : Log := log ++ [.commit transactionID]

end Graphflow.Wal
