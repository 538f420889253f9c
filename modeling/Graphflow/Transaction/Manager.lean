import Mathlib.Data.Finset.Basic
import Graphflow.Wal.Record

/-!
# The transaction manager

The bodies of the public functions of `TransactionManager`, as they run once the mutexes they need
are held.  Which mutexes these are, and how the calls of several clients interleave, is modelled in
`Graphflow.Transaction.System`.
-/

namespace Graphflow

open Wal

inductive TransactionType
  | readOnly
  | write
  deriving DecidableEq, Repr

structure Transaction where
  type : TransactionType
  ID : ℕ
  deriving DecidableEq, Repr

/-- `INT64_MAX`, the value of `activeWriteTransactionID` while no write transaction is active. -/
def int64Max : ℕ := 2 ^ 63 - 1

def threadSleepTimeWhenWaitingInMicros : ℕ := 100

structure TransactionManager where
  activeWriteTransactionID : ℕ := int64Max
  activeReadOnlyTransactionIDs : Finset ℕ := ∅
  lastTransactionID : ℕ := 0
  lastCommitID : ℕ := 0
  checkPointWaitTimeoutForTransactionsToLeaveInMicros : ℕ := 5000000
  deriving DecidableEq

namespace TransactionManager

variable {m m' : TransactionManager} {t : Transaction} {log log' : Log} {isCommit : Bool}

def hasActiveWriteTransactionNoLock (m : TransactionManager) : Bool :=
  m.activeWriteTransactionID != int64Max

def clearActiveWriteTransactionIfWriteTransactionNoLock (m : TransactionManager)
    (t : Transaction) : TransactionManager :=
  if t.type = .write then { m with activeWriteTransactionID := int64Max } else m

/-- `++lastTransactionID` on a `uint64_t`. -/
def nextTransactionID (m : TransactionManager) : ℕ := (m.lastTransactionID + 1) % 2 ^ 64

def beginWriteTransaction (m : TransactionManager) :
    Except String (TransactionManager × Transaction) :=
  if m.hasActiveWriteTransactionNoLock then
    .error ("Cannot start a new write transaction in the system. Only one write transaction " ++
      "at a time is allowed in the system.")
  else
    .ok ({ m with
      lastTransactionID := m.nextTransactionID
      activeWriteTransactionID := m.nextTransactionID }, ⟨.write, m.nextTransactionID⟩)

def beginReadOnlyTransaction (m : TransactionManager) :
    Except String (TransactionManager × Transaction) :=
  .ok ({ m with
    lastTransactionID := m.nextTransactionID
    activeReadOnlyTransactionIDs := insert m.nextTransactionID m.activeReadOnlyTransactionIDs },
    ⟨.readOnly, m.nextTransactionID⟩)

def beginTransaction (m : TransactionManager) :
    TransactionType → Except String (TransactionManager × Transaction)
  | .readOnly => m.beginReadOnlyTransaction
  | .write => m.beginWriteTransaction

/-- The text of the exception for a transaction that is not the active writer. -/
def wrongWriterMessage (m : TransactionManager) (t : Transaction) : String :=
  "The ID of the committing write transaction " ++ toString t.ID ++
    " is not equal to the ID of the activeWriteTransaction: " ++ toString m.activeWriteTransactionID

def assertActiveWriteTransationIsCorrectNoLock (m : TransactionManager) (t : Transaction) :
    Except String Unit :=
  if m.activeWriteTransactionID ≠ t.ID then .error (m.wrongWriterMessage t) else .ok ()

/-- The log is the one the manager holds a reference to; `lastCommitID` is a `uint64_t`. -/
def commitOrRollbackNoLock (m : TransactionManager) (log : Log) (t : Transaction)
    (isCommit : Bool) : Except String (TransactionManager × Log) :=
  match t.type with
  | .readOnly =>
      .ok ({ m with
        activeReadOnlyTransactionIDs := m.activeReadOnlyTransactionIDs.erase t.ID }, log)
  | .write => do
      m.assertActiveWriteTransationIsCorrectNoLock t
      if isCommit then
        return ({ m with lastCommitID := (m.lastCommitID + 1) % 2 ^ 64 }, log.logCommit t.ID)
      else
        return (m, log)

def commitOrRollback (m : TransactionManager) (log : Log) (t : Transaction) (isCommit : Bool) :
    Except String (TransactionManager × Log) := do
  let (m, log) ← m.commitOrRollbackNoLock log t isCommit
  return (m.clearActiveWriteTransactionIfWriteTransactionNoLock t, log)

def commit (m : TransactionManager) (log : Log) (t : Transaction) :
    Except String (TransactionManager × Log) :=
  m.commitOrRollback log t true

def rollback (m : TransactionManager) (log : Log) (t : Transaction) :
    Except String (TransactionManager × Log) :=
  m.commitOrRollback log t false

def commitButKeepActiveWriteTransaction (m : TransactionManager) (log : Log) (t : Transaction) :
    Except String (TransactionManager × Log) :=
  m.commitOrRollbackNoLock log t true

def manuallyClearActiveWriteTransaction (m : TransactionManager) (log : Log) (t : Transaction) :
    Except String (TransactionManager × Log) := do
  m.assertActiveWriteTransationIsCorrectNoLock t
  return (m.clearActiveWriteTransactionIfWriteTransactionNoLock t, log)

/-- What one turn of the polling loop of
`stopNewTransactionsAndWaitUntilAllReadTransactionsLeave` decides. -/
inductive PollResult
  | wait (numTimesWaited : ℕ)
  | timeout (message : String)
  | left
  deriving DecidableEq, Repr

def pollReadTransactions (m : TransactionManager) (numTimesWaited : ℕ) : PollResult :=
  if m.activeReadOnlyTransactionIDs ≠ ∅ then
    let numTimesWaited := (numTimesWaited + 1) % 2 ^ 64
    if numTimesWaited * threadSleepTimeWhenWaitingInMicros % 2 ^ 64 >
        m.checkPointWaitTimeoutForTransactionsToLeaveInMicros then
      .timeout ("Timeout waiting for read transactions to leave the system before committing " ++
        "and checkpointing a write transaction. If you have an open read transaction " ++
        "close and try again.")
    else .wait numTimesWaited
  else .left

/-! ## What the bodies do -/

theorem beginReadOnlyTransaction_eq_ok_iff :
    m.beginReadOnlyTransaction = .ok (m', t) ↔
      { m with
        lastTransactionID := m.nextTransactionID
        activeReadOnlyTransactionIDs :=
          insert m.nextTransactionID m.activeReadOnlyTransactionIDs } = m' ∧
      ⟨.readOnly, m.nextTransactionID⟩ = t := by
  simp [beginReadOnlyTransaction]

theorem beginWriteTransaction_eq_ok_iff :
    m.beginWriteTransaction = .ok (m', t) ↔
      m.activeWriteTransactionID = int64Max ∧
      { m with
        lastTransactionID := m.nextTransactionID
        activeWriteTransactionID := m.nextTransactionID } = m' ∧
      ⟨.write, m.nextTransactionID⟩ = t := by
  by_cases hactive : m.activeWriteTransactionID = int64Max <;>
    simp [beginWriteTransaction, hasActiveWriteTransactionNoLock, hactive]

theorem assertActiveWriteTransationIsCorrectNoLock_of_eq
    (heq : m.activeWriteTransactionID = t.ID) :
    m.assertActiveWriteTransationIsCorrectNoLock t = .ok () := by
  simp [assertActiveWriteTransationIsCorrectNoLock, heq]

theorem assertActiveWriteTransationIsCorrectNoLock_of_ne
    (hne : m.activeWriteTransactionID ≠ t.ID) :
    m.assertActiveWriteTransationIsCorrectNoLock t = .error (m.wrongWriterMessage t) := by
  simp [assertActiveWriteTransationIsCorrectNoLock, hne]

theorem commitOrRollbackNoLock_of_readOnly (ht : t.type = .readOnly) :
    m.commitOrRollbackNoLock log t isCommit =
      .ok ({ m with
        activeReadOnlyTransactionIDs := m.activeReadOnlyTransactionIDs.erase t.ID }, log) := by
  simp [commitOrRollbackNoLock, ht]

theorem commitOrRollbackNoLock_of_eq (ht : t.type = .write)
    (heq : m.activeWriteTransactionID = t.ID) :
    m.commitOrRollbackNoLock log t isCommit =
      .ok (if isCommit then
        ({ m with lastCommitID := (m.lastCommitID + 1) % 2 ^ 64 }, log.logCommit t.ID)
      else (m, log)) := by
  simp only [commitOrRollbackNoLock, ht, assertActiveWriteTransationIsCorrectNoLock_of_eq heq]
  cases isCommit <;> rfl

theorem commitOrRollbackNoLock_of_ne (ht : t.type = .write)
    (hne : m.activeWriteTransactionID ≠ t.ID) :
    m.commitOrRollbackNoLock log t isCommit = .error (m.wrongWriterMessage t) := by
  simp only [commitOrRollbackNoLock, ht, assertActiveWriteTransationIsCorrectNoLock_of_ne hne]
  rfl

theorem clearActiveWriteTransaction_of_readOnly (ht : t.type = .readOnly) :
    m.clearActiveWriteTransactionIfWriteTransactionNoLock t = m := by
  simp [clearActiveWriteTransactionIfWriteTransactionNoLock, ht]

theorem clearActiveWriteTransaction_of_write (ht : t.type = .write) :
    m.clearActiveWriteTransactionIfWriteTransactionNoLock t =
      { m with activeWriteTransactionID := int64Max } := by
  simp [clearActiveWriteTransactionIfWriteTransactionNoLock, ht]

theorem commitOrRollback_of_readOnly (ht : t.type = .readOnly) :
    m.commitOrRollback log t isCommit =
      .ok ({ m with
        activeReadOnlyTransactionIDs := m.activeReadOnlyTransactionIDs.erase t.ID }, log) := by
  simp only [commitOrRollback, commitOrRollbackNoLock_of_readOnly ht]
  exact congrArg (fun m ↦ Except.ok (m, log)) (clearActiveWriteTransaction_of_readOnly ht)

theorem commitOrRollback_of_eq (ht : t.type = .write)
    (heq : m.activeWriteTransactionID = t.ID) :
    m.commitOrRollback log t isCommit =
      .ok (if isCommit then
        ({ m with
          lastCommitID := (m.lastCommitID + 1) % 2 ^ 64
          activeWriteTransactionID := int64Max }, log.logCommit t.ID)
      else ({ m with activeWriteTransactionID := int64Max }, log)) := by
  simp only [commitOrRollback, commitOrRollbackNoLock_of_eq ht heq]
  cases isCommit <;>
    exact congrArg (fun m ↦ Except.ok (m, _)) (clearActiveWriteTransaction_of_write ht)

theorem commitOrRollback_of_ne (ht : t.type = .write)
    (hne : m.activeWriteTransactionID ≠ t.ID) :
    m.commitOrRollback log t isCommit = .error (m.wrongWriterMessage t) := by
  simp only [commitOrRollback, commitOrRollbackNoLock_of_ne ht hne]
  rfl

theorem manuallyClearActiveWriteTransaction_of_eq (heq : m.activeWriteTransactionID = t.ID) :
    m.manuallyClearActiveWriteTransaction log t =
      .ok (m.clearActiveWriteTransactionIfWriteTransactionNoLock t, log) := by
  simp only [manuallyClearActiveWriteTransaction,
    assertActiveWriteTransationIsCorrectNoLock_of_eq heq]
  rfl

theorem manuallyClearActiveWriteTransaction_of_ne (hne : m.activeWriteTransactionID ≠ t.ID) :
    m.manuallyClearActiveWriteTransaction log t = .error (m.wrongWriterMessage t) := by
  simp only [manuallyClearActiveWriteTransaction,
    assertActiveWriteTransationIsCorrectNoLock_of_ne hne]
  rfl

end TransactionManager

end Graphflow
